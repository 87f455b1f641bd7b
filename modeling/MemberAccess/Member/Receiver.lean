import MemberAccess.Member.Binding

/-!
# Untyped runs of bindings

A binding used from the untyped surface: its receiver is a reference to an object, its values and
its result are untyped. The contents of the receiver's cell are handed to the typed run, and what
the run leaves of them is stored.

* `onReceiver`: a typed run over the contents of a cell.
* `Construction.allocate`, `Construction.rebuild`, `Attribute.readValue`, `Attribute.writeValue`,
  `Method.invokeValue`: the untyped runs.
-/

namespace MemberAccess

/-- The result of an untyped run and the world that it leaves. -/
abbrev Outcome (α : Type) := Except AccessError α × World

/-- The error for a receiver that is not of the binding's class. -/
def foreignReceiver (host : HostClass) : AccessError :=
  .value (.typeMismatch (.host host) "foreign receiver")

/-- The world with the contents that a run left of its receiver. -/
def World.restore (w : World) (o : ObjectRef) : Option Slots → World
  | some s => w.store o s
  | none => w

/-- Runs over the contents of the receiver, if there is one, and stores what the run leaves. -/
def onReceiver {α : Type} (host : HostClass) (w : World) (receiver : Option ObjectRef)
    (run : Option Slots → Effect α) : Outcome α :=
  match receiver with
  | none =>
    let x := run none
    (x.result, x.world)
  | some o =>
    if o.host = host then
      let x := run (some (w.contents o))
      (x.result, x.world.restore o x.receiver)
    else (.error (foreignReceiver host), w)

namespace Construction

def allocate (k : Construction) (host : HostClass) (w : World) (args : List Value) :
    Outcome Value :=
  match k.build args with
  | .error e => (.error e, w)
  | .ok s =>
    let (o, w') := w.allocate host s
    (.ok (.object o), w')

/-- Replaces the contents of a receiver by those of a new instance. -/
def rebuildOver (k : Construction) (w : World) (receiver : Option Slots) (args : List Value) :
    Effect Unit :=
  match k.build args with
  | .error e => .refused e receiver w
  | .ok s => ⟨.ok (), some s, w⟩

/-- Replaces the contents of an object by those of a new instance; the result is null. -/
def rebuild (k : Construction) (host : HostClass) (w : World) (receiver : Option ObjectRef)
    (args : List Value) : Outcome Value :=
  onReceiver host w receiver fun own => (k.rebuildOver w own args).map fun _ => .null

end Construction

def Attribute.readValue {type : StaticType} (a : Attribute type) (host : HostClass) (w : World)
    (receiver : Option ObjectRef) (index : List Value) : Outcome Value :=
  onReceiver host w receiver fun own => (a.read w own index).map type.toValue

/-- Converts a value to the attribute's type, then writes it. -/
def Attribute.writeConverted {type : StaticType} (a : Attribute type) (w : World)
    (receiver : Option Slots) (index : List Value) (v : Value) : Effect Unit :=
  match type.fromValue v with
  | .error e => .refused (.value e) receiver w
  | .ok x => a.write w receiver index x

def Attribute.writeValue {type : StaticType} (a : Attribute type) (host : HostClass) (w : World)
    (receiver : Option ObjectRef) (index : List Value) (v : Value) : Outcome Unit :=
  onReceiver host w receiver fun own => a.writeConverted w own index v

def Method.invokeValue {result : StaticType} (m : Method result) (host : HostClass) (w : World)
    (receiver : Option ObjectRef) (args : List Value) : Outcome Value :=
  onReceiver host w receiver fun own => (m.invoke w own args).map result.toValue

end MemberAccess
