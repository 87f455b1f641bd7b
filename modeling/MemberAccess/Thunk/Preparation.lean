import MemberAccess.Plan.Basic

/-!
# Preparing a call

What an untyped call checks before its member runs. The checks come in a fixed order: the target,
the number of arguments, the arguments from left to right, the value to be written, and last that
neither an argument nor that value is the target itself. The cell of a target is held for the time
of the call, so a member must not reach it a second time.

* `Dispatch.receiver`: the object that an instance member is used on.
* `firstAlias`: the leftmost value that is the receiver.
* `Preparation`, `prepare`: what a call hands to its member.
-/

namespace MemberAccess

/-- The object that the member is used on; a static member has none. -/
def Dispatch.receiver (dispatch : Dispatch) (member : String) (target : Value) :
    Except AccessError (Option ObjectRef) :=
  match dispatch with
  | .static => .ok none
  | .onInstance host =>
    match target with
    | .null => .error (.targetNull member)
    | .object o =>
      if o.host = host then .ok (some o)
      else .error (.targetMismatch member host o.host.shortName)
    | v => .error (.targetMismatch member host v.typeName)

/-- The value refers to the cell of the object. -/
def Value.refersTo (v : Value) (o : ObjectRef) : Bool :=
  match v with
  | .object p => p.cell == o.cell
  | _ => false

/-- The leftmost argument, else the assigned value, that refers to the cell of the object. -/
def firstAlias (o : ObjectRef) (args : List Value) (assigned : Option Value) : Option CastSite :=
  match args.findIdx? (·.refersTo o) with
  | some i => some (.argument i)
  | none => if assigned.any (·.refersTo o) then some .assigned else none

def coerceAssigned (member : String) :
    Option (ArgumentSlot × Value) → Except AccessError (Option Value)
  | none => .ok none
  | some (slot, v) =>
    match slot.coerce member .assigned v with
    | .error e => .error e
    | .ok v' => .ok (some v')

/-- What a call hands to its member. -/
structure Preparation where
  receiver : Option ObjectRef
  arguments : List Value
  assigned : Option Value
  deriving DecidableEq

def prepare (member : String) (dispatch : Dispatch) (plan : ArgumentPlan) (target : Value)
    (args : List Value) (assigned : Option (ArgumentSlot × Value)) :
    Except AccessError Preparation :=
  match dispatch.receiver member target with
  | .error e => .error e
  | .ok receiver =>
    match plan.coerce member args with
    | .error e => .error e
    | .ok arguments =>
      match coerceAssigned member assigned with
      | .error e => .error e
      | .ok value =>
        match receiver.bind fun o => firstAlias o arguments value with
        | some site => .error (.aliasedTarget member site)
        | none => .ok ⟨receiver, arguments, value⟩

end MemberAccess
