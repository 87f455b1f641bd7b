import MemberAccess.Permission.Policy
import MemberAccess.Plan.Basic

/-!
# Admission

What has to hold before a plan is compiled: it unpacks as many arguments as the member declares, it
does not allocate an instance of an abstract class, and the policy grants the operation.

* `Policy.check`: the policy alone.
* `admission`: all three, in that order.
-/

namespace MemberAccess

/-- An error about compiling for a descriptor. -/
def Descriptor.refusal (d : Descriptor) (refusal : Refusal) : AccessError :=
  .compilationFailed d.qualifiedName refusal

/-- Whether the policy grants an operation on a descriptor's member. -/
def Policy.check (policy : Policy) (d : Descriptor) (operation : Operation) :
    Except AccessError Unit :=
  if policy.restricted then
    let required := Permission.required operation d.isPrivate
    let granted := policy.resolve d.member.declaringType
    if granted.contains required then .ok ()
    else .error (d.refusal (.denied operation d.isPrivate required d.host granted))
  else .ok ()

def Plan.allocates : Plan → Bool
  | construct _ => true
  | _ => false

/-- The checks before a plan is compiled, with the flags as they are now. -/
def admission (flags : Flags) (policy : Policy) (d : Descriptor) (plan : Plan) :
    Except AccessError Unit :=
  if plan.arguments.arity ≠ d.arity then
    .error (d.refusal (.arity plan.arguments.arity d.arity))
  else if plan.allocates ∧ d.member.isAbstract flags then
    .error (d.refusal (.abstractClass d.host))
  else policy.check d plan.operation

end MemberAccess
