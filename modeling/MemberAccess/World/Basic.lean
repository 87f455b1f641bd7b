import MemberAccess.Value.Static
import MemberAccess.World.Slots

/-!
# The world

What calls read and change: the object cells that exist, and the slots that static members share.

* `World.allocate`: a new cell; its number is the count of the cells before it.
* `World.contents`, `World.store`: the contents of a cell, read and replaced.
* `StaticType.fit`: a value read as a static type, with a substitute where it does not convert.
-/

namespace MemberAccess

/-- An object: its class and its contents. -/
structure Cell where
  host : HostClass
  slots : Slots
  deriving DecidableEq, Inhabited

/-- The object cells by number, and the static slots. -/
structure World where
  cells : List Cell
  statics : Slots
  deriving DecidableEq, Inhabited

namespace World

def empty : World := ⟨[], .empty⟩

def allocate (w : World) (c : HostClass) (s : Slots) : ObjectRef × World :=
  (⟨w.cells.length, c⟩, { w with cells := w.cells ++ [⟨c, s⟩] })

/-- The cell that a reference names exists and is of the class that the reference says. -/
def Holds (w : World) (o : ObjectRef) : Prop := ∃ s, w.cells[o.cell]? = some ⟨o.host, s⟩

/-- The contents of the cell that a reference names. -/
def contents (w : World) (o : ObjectRef) : Slots :=
  match w.cells[o.cell]? with
  | some cell => cell.slots
  | none => .empty

/-- Replaces the contents of a cell; its class stays. -/
def store (w : World) (o : ObjectRef) (s : Slots) : World :=
  { w with cells := w.cells.modify o.cell fun cell => { cell with slots := s } }

end World

namespace BaseType

/-- The substitute for a value that does not convert; for a class a new empty instance. -/
def substitute : (b : BaseType) → World → b.Carrier × World
  | any, w => (Value.null, w)
  | void, w => ((), w)
  | bool, w => (false, w)
  | int32, w => ((0 : Int32), w)
  | int64, w => ((0 : Int64), w)
  | float64, w => (Binary64.zero, w)
  | string, w => ("", w)
  | host c, w => let (o, w') := w.allocate c .empty; ((⟨o.cell⟩ : Handle c), w')

end BaseType

namespace StaticType

/-- The substitute for a value that does not convert; for an optional type its extra value. -/
def substitute : (t : StaticType) → World → t.Carrier × World
  | base b, w => b.substitute w
  | optional _, w => (none, w)

/-- A value as a value of the type, or the substitute when it does not convert. -/
def fit (t : StaticType) (v : Value) (w : World) : t.Carrier × World :=
  match t.fromValue v with
  | .ok x => (x, w)
  | .error _ => t.substitute w

end StaticType

end MemberAccess
