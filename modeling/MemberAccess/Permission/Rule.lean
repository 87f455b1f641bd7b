import MemberAccess.Permission.Basic
import MemberAccess.Text.Path

/-!
# Rules over type paths

A wildcard rule grants permissions to the types whose path matches its pattern.

* `TypePattern.ofText`: the form of a pattern: everything, all below a module, the direct children
  of a module, or one path.
* `TypePattern.matchesPath`: the paths that a form covers.
-/

namespace MemberAccess

/-- What a pattern covers. -/
inductive TypePattern where
  /-- Every path; written `*` or `**`. -/
  | everything
  /-- Every path below a module; written `module::**`. -/
  | below (path : List Char)
  /-- The direct children of a module; written `module::*`. -/
  | children (path : List Char)
  /-- The path itself. -/
  | exactly (path : List Char)
  deriving DecidableEq, Repr

namespace TypePattern

def ofText (pattern : List Char) : TypePattern :=
  if pattern = ['*'] ∨ pattern = ['*', '*'] then everything
  else
    match Path.stripTail [':', ':', '*', '*'] pattern with
    | some path => below path
    | none =>
      match Path.stripTail [':', ':', '*'] pattern with
      | some path => children path
      | none => exactly pattern

def isLeaf (text : List Char) : Bool := !text.isEmpty && !Path.hasSeparator text

/-- Whether a pattern of this form covers a type path. -/
def matchesPath (p : TypePattern) (path : List Char) : Bool :=
  match p with
  | everything => true
  | below lead =>
    match Path.stripLead lead path with
    | some rest => (Path.stripLead [':', ':'] rest).isSome
    | none => false
  | children lead =>
    match Path.stripLead lead path with
    | some rest =>
      match Path.stripLead [':', ':'] rest with
      | some leaf => isLeaf leaf
      | none => false
    | none => false
  | exactly whole => whole == path

end TypePattern

/-- A wildcard rule. -/
structure TypeRule where
  pattern : String
  permission : Permission
  deriving DecidableEq, Repr

def TypeRule.matchesPath (rule : TypeRule) (path : String) : Bool :=
  (TypePattern.ofText rule.pattern.toList).matchesPath path.toList

end MemberAccess
