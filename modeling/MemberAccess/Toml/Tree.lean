import MemberAccess.Keyed
import MemberAccess.Toml.Value

/-!
# The tree of a document in progress

Tables come about in several ways, and how one did decides what may still be added to it.

* `Origin`: by a header or in braces, by a path of a header that went through it, or by a dotted
  key.
* `Item`: what stands under a key while a document is read.
* `within`: a change at the end of a path of keys, with the tables on the way made where missing.
* `Item.toValue`: the value in the end.
-/

namespace MemberAccess.Toml

/-- How a table came about. -/
inductive Origin where
  /-- By a header of its own, or in braces. -/
  | defined
  /-- As a part of the path of another table's header. -/
  | implied
  /-- As a part of a dotted key. -/
  | dotted
  deriving DecidableEq

/-- What stands under a key while a document is read. -/
inductive Item where
  | value (v : Value)
  | table (origin : Origin) (entries : List (String × Item))
  /-- Tables under headers in double brackets. -/
  | tables (elements : List (List (String × Item)))

instance : Inhabited Item := ⟨.tables []⟩

abbrev Entries := List (String × Item)

/--
Changes the table at the end of a path. A path goes through tables and through the last of tables
in double brackets, never through a value, and the path of a dotted key not through a table with a
definition of its own. A missing table is made on the way, of the origin that the path gives it.
-/
def within {α : Type} (byDots : Bool) (change : Origin → Entries → Option (Entries × α)) :
    (path : List String) → Origin → Entries → Option (Entries × α)
  | [], origin, entries => change origin entries
  | key :: path, _, entries =>
    match entries.lookup key with
    | none =>
      let origin := if byDots then .dotted else .implied
      (within byDots change path origin []).map fun (made, a) =>
        (entries ++ [(key, .table origin made)], a)
    | some (.value _) => none
    | some (.table origin inner) =>
      if byDots && origin == .defined then none
      else
        (within byDots change path origin inner).map fun (changed, a) =>
          (Keyed.put key (.table origin changed) entries, a)
    | some (.tables elements) =>
      match elements.getLast? with
      | none => none
      | some last =>
        (within byDots change path .defined last).map fun (changed, a) =>
          (Keyed.put key (.tables (elements.dropLast ++ [changed])) entries, a)

/-- Puts a value under a key that is free; after a dotted path the table has to be a dotted one. -/
def assign (path : List String) (key : String) (v : Value) (entries : Entries) : Option Entries :=
  let change (origin : Origin) (inner : Entries) : Option (Entries × Unit) :=
    if (origin == .dotted) == path.isEmpty then none
    else
      match inner.lookup key with
      | some _ => none
      | none => some (inner ++ [(key, .value v)], ())
  (within true change path .defined entries).map Prod.fst

mutual

def Item.toValue : Item → Value
  | .value v => v
  | .table _ entries => .table (entryValues entries)
  | .tables elements => .array (elementValues elements)

def entryValues : List (String × Item) → List (String × Value)
  | [] => []
  | (key, item) :: rest => (key, item.toValue) :: entryValues rest

def elementValues : List (List (String × Item)) → List Value
  | [] => []
  | entries :: rest => .table (entryValues entries) :: elementValues rest

end

end MemberAccess.Toml
