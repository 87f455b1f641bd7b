import MemberAccess.Value.Static

/-!
# Argument vectors

Arguments travel as a vector of values and are unpacked into typed ones right before a member runs.

* `Arguments`: typed arguments for a list of parameter types.
* `Arguments.unpack`: first the length, then the positions from left to right.
* `Arguments.box`: the values that typed arguments stand for.
-/

namespace MemberAccess

/-- Typed arguments for a list of parameter types. -/
def Arguments : List StaticType → Type
  | [] => Unit
  | t :: ts => t.Carrier × Arguments ts

namespace Arguments

/-- Converts position after position; both lists are of one length. -/
def convert : (parameters : List StaticType) → List Value → Except ValueError (Arguments parameters)
  | [], _ => .ok ()
  | t :: ts, v :: vs =>
    match t.fromValue v with
    | .error e => .error e
    | .ok x =>
      match convert ts vs with
      | .error e => .error e
      | .ok xs => .ok (x, xs)
  | t :: ts, [] => .error (.argumentCount (t :: ts).length 0)

/-- Unpacks a vector, which has to be as long as the parameter list. -/
def unpack (parameters : List StaticType) (args : List Value) :
    Except ValueError (Arguments parameters) :=
  if args.length = parameters.length then convert parameters args
  else .error (.argumentCount parameters.length args.length)

/-- The values that typed arguments stand for. -/
def box : (parameters : List StaticType) → Arguments parameters → List Value
  | [], () => []
  | t :: ts, (x, xs) => t.toValue x :: box ts xs

end Arguments

end MemberAccess
