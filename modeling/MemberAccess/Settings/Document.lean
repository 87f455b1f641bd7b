import MemberAccess.Settings.Basic
import MemberAccess.Toml.DateTable
import MemberAccess.Toml.Document

/-!
# Settings in a document

Where the settings stand in a TOML document: the cast policy under `accessors.safe_cast`, the global
expression under `accessors.permissions.global`, and the type patterns under
`accessors.permissions.types`. What is left out has a default, and other keys mean nothing.

* `Settings.ofDocument?`: the settings of a document.
* `Settings.ofText`: the settings of a text, checked.
* `Settings.ofFile`: the settings of the bytes of a file, if there is one.
-/

namespace MemberAccess

/-- Why settings were not read. -/
inductive SettingsError where
  /-- There is no file, or it holds no text. -/
  | unreadable
  /-- The text is no document of the right form. -/
  | malformed
  | invalid (p : SettingsProblem)
  deriving DecidableEq, Repr

namespace Settings

/-! ## Sections -/

/-- The two fields of a section. A section is a table, or an array that gives the fields in order;
a date stands for a section that gives none. -/
def fields (first second : String) :
    Toml.Value → Option (Option Toml.Value × Option Toml.Value)
  | .table entries => some (entries.lookup first, entries.lookup second)
  | .array elements => some (elements[0]?, elements[1]?)
  | .dateTime _ => some (none, none)
  | _ => none

/-- A value without contents, which may stand under the name of a cast policy. -/
def isHollow : Toml.Value → Bool
  | .table entries => entries.isEmpty
  | .array elements => elements.isEmpty
  | _ => false

def castPolicyNamed? : String → Option CastPolicy
  | "null" => some .nullOnMismatch
  | "fail" => some .fail
  | _ => none

/-- The cast policy: its name, or a table with its name as the only key. -/
def readCastPolicy : Toml.Value → Option CastPolicy
  | .string name => castPolicyNamed? name
  | .table [(name, v)] => if isHollow v then castPolicyNamed? name else none
  | _ => none

/-- The type patterns with what is written for them; a date is shown as a table, and no table in
what is written may be marked as a date without being one. -/
def readTypes : Toml.Value → Option (Table String Toml.Value)
  | .table entries => if Toml.soundEntries entries then some (.ofList entries) else none
  | .dateTime text => some (.ofList [(Toml.dateKey, .string text)])
  | _ => none

def readOr {α : Type} (fallback : α) (read : Toml.Value → Option α) : Option Toml.Value → Option α
  | none => some fallback
  | some v => read v

def readPermissions (v : Toml.Value) : Option (String × Table String Toml.Value) := do
  let (global, types) ← fields "global" "types" v
  let global ← readOr defaultGlobal Toml.Value.string? global
  let types ← readOr .empty readTypes types
  some (global, types)

def readAccessors (v : Toml.Value) : Option Settings := do
  let (castPolicy, permissions) ← fields "safe_cast" "permissions" v
  let castPolicy ← readOr .nullOnMismatch readCastPolicy castPolicy
  let (global, types) ← readOr (defaultGlobal, .empty) readPermissions permissions
  some ⟨castPolicy, global, types⟩

def ofDocument? (entries : List (String × Toml.Value)) : Option Settings :=
  readOr standard readAccessors (entries.lookup "accessors")

/-! ## Texts and files -/

/-- The settings of a text, if they mean a policy. -/
def ofText (text : String) : Except SettingsError Settings :=
  match (Toml.parse? text).bind ofDocument? with
  | none => .error .malformed
  | some s =>
    match s.validate with
    | .error p => .error (.invalid p)
    | .ok () => .ok s

/-- The settings of the bytes of a file, if there is one. -/
def ofFile (bytes : Option ByteArray) : Except SettingsError Settings :=
  match bytes.bind String.fromUTF8? with
  | none => .error .unreadable
  | some text => ofText text

end Settings

end MemberAccess
