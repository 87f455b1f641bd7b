import MemberAccess.Thunk.Admission
import MemberAccess.Thunk.Basic

/-!
# Compiling for the untyped surface

* `Thunk.bind?`: a plan bound to a member's binding, if it fits.
* `compile`: admission, then binding.
-/

namespace MemberAccess

/-- Binds a plan to a binding of the same form; a plan that reads or writes needs a getter or a
setter. -/
def Thunk.bind? (member : String) (host : HostClass) (plan : Plan) (b : Binding) : Option Thunk :=
  match plan, b with
  | .construct arguments, .construction k => some (.construct member host arguments k)
  | .reconstruct declaring arguments, .construction k =>
    some (.reconstruct member host (.onInstance declaring) arguments k)
  | .get dispatch index, .value type a =>
    if a.hasGetter then some (.read member host dispatch index type a) else none
  | .set dispatch index value, .value type a =>
    if a.hasSetter then some (.write member host dispatch index value type a) else none
  | .invoke dispatch arguments, .method result m =>
    some (.invoke member host dispatch arguments result m)
  | _, _ => none

/-- The error of a plan that does not fit the member. -/
def Descriptor.unfit (d : Descriptor) (plan : Plan) : AccessError :=
  d.refusal (.unfit plan.operation d.role)

/-- Compiles a plan for a descriptor under a policy. -/
def compile (flags : Flags) (policy : Policy) (d : Descriptor) (plan : Plan) :
    Except AccessError Thunk :=
  match admission flags policy d plan with
  | .error e => .error e
  | .ok () =>
    match Thunk.bind? d.qualifiedName d.host plan d.member.binding with
    | some t => .ok t
    | none => .error (d.unfit plan)

end MemberAccess
