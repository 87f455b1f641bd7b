import MemberAccess.Permission.Policy
import MemberAccess.Plan.Coercion

/-!
# Options

What accessors are compiled with: an access policy and a cast policy. By default nothing is
restricted, and an untyped setter assigns null where a reference does not fit.
-/

namespace MemberAccess

/-- What accessors are compiled with. -/
structure Options where
  policy : Policy
  castPolicy : CastPolicy
  deriving DecidableEq

namespace Options

def withCastPolicy (p : CastPolicy) : Options := ⟨.unrestricted, p⟩

/-- No restriction; setters assign null where a reference does not fit. -/
def standard : Options := withCastPolicy .nullOnMismatch

instance : Inhabited Options := ⟨standard⟩

end Options

end MemberAccess
