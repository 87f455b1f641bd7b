import MemberAccess.Error
import MemberAccess.Value.Basic

/-!
# Coercions

How a value given to a call is brought to the type of its place.

* `Coercion.forParameter`, `Coercion.forAssigned`: which coercion a place gets.
* `ArgumentSlot.coerce`: one coerced place.
* `ArgumentPlan.coerce`: a vector of arguments; it passes unchanged or not at all.
-/

namespace MemberAccess

/-- What an untyped setter does with a reference value of another type. -/
inductive CastPolicy where
  /-- It assigns null, where the place admits null. -/
  | nullOnMismatch
  /-- It fails. -/
  | fail
  deriving DecidableEq, Repr, Inhabited

def CastPolicy.name : CastPolicy → String
  | nullOnMismatch => "null"
  | fail => "fail"

/-- The two ways to use a member. -/
inductive Surface where
  /-- Every value is boxed. -/
  | untyped
  /-- Target and value are of static types. -/
  | typed
  deriving DecidableEq, Repr

/-- What is done with one value. -/
inductive Coercion where
  /-- Nothing. -/
  | identity
  /-- It has to be the exact primitive. -/
  | unbox
  /-- It has to be of the type, else the call fails. -/
  | hardCast
  /-- It has to be of the type, else null takes its place. -/
  | safeCast
  deriving DecidableEq, Repr

namespace Coercion

def name : Coercion → String
  | identity => "Identity"
  | unbox => "Unbox"
  | hardCast => "HardCast"
  | safeCast => "SafeCast"

/-- The coercion of an argument or an index argument. -/
def forParameter (t : TypeHandle) : Coercion :=
  match t.kind with
  | .any | .void => identity
  | .value => unbox
  | .reference => hardCast

/-- The coercion of the value given to a setter. -/
def forAssigned (t : TypeHandle) (surface : Surface) (policy : CastPolicy) : Coercion :=
  match t.kind, surface, policy with
  | .any, _, _ | .void, _, _ => identity
  | .value, .typed, _ | .reference, .typed, _ => hardCast
  | .value, .untyped, _ => unbox
  | .reference, .untyped, .nullOnMismatch => safeCast
  | .reference, .untyped, .fail => hardCast

end Coercion

/-- A place with its type and its coercion. -/
structure ArgumentSlot where
  position : Nat
  type : TypeHandle
  coercion : Coercion
  deriving DecidableEq, Repr

/-- Brings one value to the type of its place; `member` and `site` go into the error. -/
def ArgumentSlot.coerce (slot : ArgumentSlot) (member : String) (site : CastSite) (v : Value) :
    Except AccessError Value :=
  if slot.coercion = .identity ∨ slot.type.accepts v then .ok v
  else if slot.coercion = .safeCast ∧ slot.type.nullable then .ok .null
  else .error (.invalidCast member site slot.type v.typeName)

/-- The places of an argument or index vector, in order. -/
structure ArgumentPlan where
  slots : List ArgumentSlot
  deriving DecidableEq, Repr

namespace ArgumentPlan

/-- The slots of parameters whose first has the position `start`. -/
def slotsFrom : (start : Nat) → List TypeHandle → List ArgumentSlot
  | _, [] => []
  | start, t :: ts => ⟨start, t, .forParameter t⟩ :: slotsFrom (start + 1) ts

def ofParameters (types : List TypeHandle) : ArgumentPlan := ⟨slotsFrom 0 types⟩

def arity (p : ArgumentPlan) : Nat := p.slots.length

def isEmpty (p : ArgumentPlan) : Bool := p.slots.isEmpty

/-- The error of the leftmost value that its place does not take. -/
def firstRefusal (member : String) : List ArgumentSlot → List Value → Option AccessError
  | slot :: slots, v :: vs =>
    match slot.coerce member (.argument slot.position) v with
    | .error e => some e
    | .ok _ => firstRefusal member slots vs
  | _, _ => none

/-- Checks a vector against the plan: first its length, then its values from left to right. A
place for arguments never has a safe cast, so a vector that passes is not changed. -/
def coerce (p : ArgumentPlan) (member : String) (args : List Value) :
    Except AccessError (List Value) :=
  if args.length = p.arity then
    match firstRefusal member p.slots args with
    | some e => .error e
    | none => .ok args
  else .error (.argumentCount member p.arity args.length)

end ArgumentPlan

end MemberAccess
