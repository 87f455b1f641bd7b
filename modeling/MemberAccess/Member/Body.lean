import MemberAccess.World.Basic

/-!
# Method bodies

What a method does, as a list of instructions over the slots it works on, its arguments and one
running result.

* `Instruction`, `Body`: the instructions.
* `Instruction.step`: one instruction.
* `Body.run`: all of them; a failure stops the body and keeps the slots as they are then.
-/

namespace MemberAccess

/-- One step of a method body. -/
inductive Instruction where
  /-- The result becomes an argument. -/
  | argument (position : Nat)
  /-- The result becomes the value of a slot. -/
  | load (slot : String)
  /-- A slot becomes an argument. -/
  | put (slot : String) (position : Nat)
  /-- Slot and result become the sum of the slot and an argument. -/
  | add (slot : String) (position : Nat)
  /-- A slot is removed. -/
  | delete (slot : String)
  /-- The result becomes the number of arguments. -/
  | count
  /-- The result becomes the arguments' texts with bars between them. -/
  | concatenate
  /-- The result becomes a fixed value. -/
  | constant (v : Value)
  /-- The result becomes a slot of the object in an argument. -/
  | peek (position : Nat) (slot : String)
  /-- The body fails. -/
  | fail (report : String)
  /-- The body fails if an argument is true. -/
  | failIf (position : Nat) (report : String)
  deriving DecidableEq

abbrev Body := List Instruction

/-- The slots that a body works on, and its running result. -/
structure Frame where
  slots : Slots
  result : Value
  deriving DecidableEq, Inhabited

/-- The sum of an addition: an absent or null slot counts as nothing, numbers of one width are
added modulo that width, and any other pair has no sum. -/
def addValues (slot arg : Value) : Value :=
  match slot, arg with
  | .null, v => v
  | .int32 a, .int32 b => .int32 (a + b)
  | .int64 a, .int64 b => .int64 (a + b)
  | _, _ => .null

namespace Instruction

/-- The argument at a position, null past the end. -/
def argumentAt (args : List Value) (position : Nat) : Value := (args[position]?).getD .null

/-- One instruction; `view` shows the contents of other objects. -/
def step (view : ObjectRef → Slots) (args : List Value) (f : Frame) :
    Instruction → Except String Frame
  | argument i => .ok { f with result := argumentAt args i }
  | load s => .ok { f with result := f.slots.get s }
  | put s i => .ok { f with slots := f.slots.set s (argumentAt args i) }
  | add s i =>
    let sum := addValues (f.slots.get s) (argumentAt args i)
    .ok ⟨f.slots.set s sum, sum⟩
  | delete s => .ok { f with slots := f.slots.erase s }
  | count => .ok { f with result := .int32 (Int32.ofNat args.length) }
  | concatenate =>
    .ok { f with result := .string (String.intercalate "|" (args.map Value.plain)) }
  | constant v => .ok { f with result := v }
  | peek i s =>
    match argumentAt args i with
    | .object o => .ok { f with result := (view o).get s }
    | _ => .ok { f with result := .null }
  | fail report => .error report
  | failIf i report =>
    if argumentAt args i = .bool true then .error report else .ok f

end Instruction

namespace Body

/-- Runs the instructions from a frame; the slots at the end come with the result or the failure. -/
def runFrom (view : ObjectRef → Slots) (args : List Value) :
    Body → Frame → Slots × Except String Value
  | [], f => (f.slots, .ok f.result)
  | i :: rest, f =>
    match i.step view args f with
    | .error report => (f.slots, .error report)
    | .ok f' => runFrom view args rest f'

/-- Runs a body over slots; the result starts as null. -/
def run (body : Body) (view : ObjectRef → Slots) (args : List Value) (slots : Slots) :
    Slots × Except String Value :=
  runFrom view args body ⟨slots, .null⟩

end Body

end MemberAccess
