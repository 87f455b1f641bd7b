import MemberAccess.Permission.Rule
import MemberAccess.Table
import MemberAccess.Value.Types

/-!
# Access policies

A policy says which permissions are in force for the members of a type: those of the exact path if
there are any, else those of the first wildcard rule that covers the path, else the global ones.

* `Policy.addRule`: an exact path or a wildcard rule, told apart by a `*` in the pattern.
* `Policy.resolve`: the permissions in force for a type.
* `Policy.restricted`: something narrower than everything may be configured.
-/

namespace MemberAccess

/-- Permissions by declaring type. -/
structure Policy where
  global : Permission
  exact : Table String Permission
  rules : List TypeRule
  deriving DecidableEq

namespace Policy

/-- A policy with the global permissions alone. -/
def withGlobal (p : Permission) : Policy := ⟨p, .empty, []⟩

def unrestricted : Policy := withGlobal .all

instance : Inhabited Policy := ⟨unrestricted⟩

/-- The policy with other global permissions. -/
def setGlobal (policy : Policy) (p : Permission) : Policy := { policy with global := p }

/-- A pattern with a `*` is a wildcard, any other an exact path. -/
def isWildcard (pattern : String) : Bool := pattern.toList.contains '*'

/-- Adds a wildcard rule after those present, or sets the permissions of an exact path. -/
def addRule (policy : Policy) (pattern : String) (p : Permission) : Policy :=
  if isWildcard pattern then { policy with rules := policy.rules ++ [⟨pattern, p⟩] }
  else { policy with exact := policy.exact.insert pattern p }

/-- Anything but the unrestricted global permission is configured. -/
def restricted (policy : Policy) : Bool :=
  policy.global != .all || !policy.exact.isEmpty || !policy.rules.isEmpty

/-- The permissions in force for a type path. -/
def resolvePath (policy : Policy) (path : String) : Permission :=
  match policy.exact.get? path with
  | some p => p
  | none =>
    match policy.rules.find? (·.matchesPath path) with
    | some rule => rule.permission
    | none => policy.global

def resolve (policy : Policy) (t : TypeHandle) : Permission := policy.resolvePath t.name

end Policy

end MemberAccess
