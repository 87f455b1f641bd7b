import MemberAccess.Member.Descriptor
import MemberAccess.Plan.Coercion

/-!
# Operation plans

A plan is what one operation on a member will do, as plain data: how the member is reached, how the
arguments are coerced, and for a write how the value is.

* `Dispatch`: with or without a target.
* `Plan`: the five operations.
* `Descriptor.plan`: the plan of an operation that a descriptor offers.
-/

namespace MemberAccess

/-- How a member is reached. -/
inductive Dispatch where
  /-- Without a target; one that is given is ignored. -/
  | static
  /-- On a target that is an instance of the class. -/
  | onInstance (host : HostClass)
  deriving DecidableEq, Repr

/-- What one operation will do. -/
inductive Plan where
  /-- Allocates an instance. -/
  | construct (arguments : ArgumentPlan)
  /-- Runs a constructor over an instance that exists. -/
  | reconstruct (host : HostClass) (arguments : ArgumentPlan)
  | get (dispatch : Dispatch) (index : ArgumentPlan)
  | set (dispatch : Dispatch) (index : ArgumentPlan) (value : ArgumentSlot)
  | invoke (dispatch : Dispatch) (arguments : ArgumentPlan)
  deriving DecidableEq, Repr

namespace Plan

def name : Plan → String
  | construct _ => "Construct"
  | reconstruct _ _ => "ConstructInPlace"
  | get _ _ => "Get"
  | set _ _ _ => "Set"
  | invoke _ _ => "Invoke"

def operation : Plan → Operation
  | construct _ | reconstruct _ _ => .construct
  | get _ _ => .get
  | set _ _ _ => .set
  | invoke _ _ => .invoke

def dispatch : Plan → Dispatch
  | construct _ => .static
  | reconstruct host _ => .onInstance host
  | get dispatch _ | set dispatch _ _ | invoke dispatch _ => dispatch

/-- The coercions of the arguments, or of the index. -/
def arguments : Plan → ArgumentPlan
  | construct arguments | reconstruct _ arguments | invoke _ arguments => arguments
  | get _ index | set _ index _ => index

/-- The coercion of the value that is written. -/
def value? : Plan → Option ArgumentSlot
  | set _ _ value => some value
  | _ => none

end Plan

namespace Descriptor

def dispatch (d : Descriptor) : Dispatch := if d.isStatic then .static else .onInstance d.host

/-- The place of the value that a setter takes; it comes after the index. -/
def valueSlot (d : Descriptor) (surface : Surface) (policy : CastPolicy) : ArgumentSlot :=
  ⟨d.arity, d.member.valueType, .forAssigned d.member.valueType surface policy⟩

/-- The plan of an operation. Constructors take both operations that call, methods one of them, and
what holds a value is read or written where it can be. -/
def plan (d : Descriptor) (surface : Surface) (policy : CastPolicy) (operation : Operation) :
    Except AccessError Plan :=
  let arguments := ArgumentPlan.ofParameters d.parameters
  let refused := .error (.invalidOperation (.notOffered d.role d.qualifiedName operation))
  match d.role, operation with
  | .constructor, .construct | .constructor, .invoke => .ok (.construct arguments)
  | .reconstructor, .construct | .reconstructor, .invoke => .ok (.reconstruct d.host arguments)
  | .method, .invoke => .ok (.invoke d.dispatch arguments)
  | _, .get => if d.canRead then .ok (.get d.dispatch arguments) else refused
  | _, .set =>
    if d.canWrite then .ok (.set d.dispatch arguments (d.valueSlot surface policy)) else refused
  | _, _ => refused

end Descriptor

end MemberAccess
