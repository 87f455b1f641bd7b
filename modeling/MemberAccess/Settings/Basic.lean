import MemberAccess.Permission.Expression
import MemberAccess.Settings.Options
import MemberAccess.Toml.Value

/-!
# Settings

What a configuration says: the cast policy, the global permission expression, and permission
expressions by type pattern. Type patterns apply in the order in which they are written.

* `isPattern`: the texts that may stand as a type pattern.
* `Settings.policy`: the access policy, or the first problem of the settings.
* `Settings.options`: the options that they mean.
-/

namespace MemberAccess

/-- The first problem of settings. -/
inductive SettingsProblem where
  | invalidGlobal (expression : String)
  | invalidPattern (pattern : String)
  | notAString (pattern : String)
  | invalidPermission (pattern expression : String)
  deriving DecidableEq, Repr

def SettingsProblem.message (p : SettingsProblem) : String :=
  "Invalid accessor config: " ++
    match p with
    | invalidGlobal expression => "invalid global permission: " ++ expression
    | invalidPattern pattern => "invalid type pattern: " ++ pattern
    | notAString pattern => "permission for " ++ pattern ++ " must be a string"
    | invalidPermission pattern expression =>
      "invalid permission for " ++ pattern ++ ": " ++ expression

/-! ## Patterns -/

def patternBody (pattern : List Char) : List Char :=
  match Path.stripTail [':', ':', '*', '*'] pattern with
  | some body => body
  | none => (Path.stripTail [':', ':', '*'] pattern).getD pattern

/-- A path whose segments are not empty and hold no star. -/
def isPlainPath (path : List Char) : Bool :=
  !path.isEmpty && !path.contains '*' && (Path.segments path).all fun piece => !piece.isEmpty

/-- A text that may stand as a type pattern: one or two stars, or a plain path that `::*` or `::**`
may follow. -/
def isPattern (pattern : List Char) : Bool :=
  pattern == ['*'] || pattern == ['*', '*'] || isPlainPath (patternBody pattern)

/-! ## Settings -/

/-- What a configuration says. -/
structure Settings where
  castPolicy : CastPolicy
  /-- The global permission expression. -/
  global : String
  /-- Permission expressions by type pattern. -/
  types : Table String Toml.Value

namespace Settings

/-- The global expression where none is written. -/
def defaultGlobal : String := "ALL"

def standard : Settings := ⟨.nullOnMismatch, defaultGlobal, .empty⟩

instance : Inhabited Settings := ⟨standard⟩

def entryPermission (pattern : String) (v : Toml.Value) : Except SettingsProblem Permission :=
  if isPattern pattern.toList then
    match v.string? with
    | none => .error (.notAString pattern)
    | some expression =>
      match Permission.parseCombined? expression with
      | none => .error (.invalidPermission pattern expression)
      | some p => .ok p
  else .error (.invalidPattern pattern)

/-- Adds entries to a policy, from the first to the last. -/
def addEntries : List (String × Toml.Value) → Policy → Except SettingsProblem Policy
  | [], policy => .ok policy
  | (pattern, v) :: rest, policy =>
    match entryPermission pattern v with
    | .error e => .error e
    | .ok p => addEntries rest (policy.addRule pattern p)

/-- The access policy that the settings mean. -/
def policy (s : Settings) : Except SettingsProblem Policy :=
  match Permission.parseCombined? s.global with
  | none => .error (.invalidGlobal s.global)
  | some global => addEntries s.types.entries (.withGlobal global)

def validate (s : Settings) : Except SettingsProblem Unit := s.policy.map fun _ => ()

def options (s : Settings) : Except SettingsProblem Options :=
  s.policy.map fun policy => ⟨policy, s.castPolicy⟩

end Settings

end MemberAccess
