import MemberAccess.Value.Types

/-!
# Conversion errors

* `ValueError`: why a value, or a vector of arguments, was not converted.
* `ValueError.message`: its text.
-/

namespace MemberAccess

/-- Why a value was not converted to a static type. -/
inductive ValueError where
  /-- A value of another type; `found` names that type. -/
  | typeMismatch (expected : BaseType) (found : String)
  /-- A vector of another length than the parameter list. -/
  | argumentCount (expected got : Nat)
  /-- Null for a type without null. -/
  | nullValue (expected : BaseType)
  deriving DecidableEq, Repr

def ValueError.message : ValueError → String
  | typeMismatch expected found =>
    "Type mismatch: expected " ++ expected.shortName ++ ", got " ++ found
  | argumentCount expected got =>
    "Argument count mismatch: expected " ++ toString expected ++ ", got " ++ toString got
  | nullValue expected => "Null value where " ++ expected.shortName ++ " is required"

end MemberAccess
