import MemberAccess.Keyed

/-!
# Finite tables

A table is a finite map that remembers the order in which its keys first appeared. Writing under a
key that is present replaces the entry in its place, writing under a new key appends it, and no key
ever appears twice, which the type carries.

* `Table.get?`, `Table.insert`, `Table.erase`: the map operations.
* `Table.get?_insert`, `Table.get?_erase`: what a lookup sees after each of them.
-/

namespace MemberAccess

/-- A finite map in order of first insertion. -/
structure Table (κ : Type) (α : Type) where
  entries : List (κ × α)
  nodup : (entries.map Prod.fst).Nodup
  deriving DecidableEq

namespace Table

variable {κ α : Type} [DecidableEq κ]

/-! ## Operations -/

def empty : Table κ α := ⟨[], List.nodup_nil⟩

instance : Inhabited (Table κ α) := ⟨empty⟩

def get? (t : Table κ α) (k : κ) : Option α := t.entries.lookup k

def insert (t : Table κ α) (k : κ) (a : α) : Table κ α :=
  ⟨Keyed.put k a t.entries, Keyed.nodup_put k a t.entries t.nodup⟩

def erase (t : Table κ α) (k : κ) : Table κ α :=
  ⟨Keyed.without k t.entries, t.nodup.sublist ((Keyed.without_sublist k t.entries).map Prod.fst)⟩

/-- Applies `f` to the value under `k`, or to `fallback` when there is none. -/
def upsert (t : Table κ α) (k : κ) (fallback : α) (f : α → α) : Table κ α :=
  t.insert k (f ((t.get? k).getD fallback))

def size (t : Table κ α) : Nat := t.entries.length

def isEmpty (t : Table κ α) : Bool := t.entries.isEmpty

/-- The table that results from writing pairs from the first to the last. -/
def ofList (pairs : List (κ × α)) : Table κ α :=
  pairs.foldl (fun t p => t.insert p.1 p.2) empty

/-! ## What a lookup sees -/

theorem get?_insert (t : Table κ α) (k x : κ) (a : α) :
    (t.insert k a).get? x = if x = k then some a else t.get? x :=
  Keyed.lookup_put k x a t.entries

theorem get?_erase (t : Table κ α) (k x : κ) :
    (t.erase k).get? x = if x = k then none else t.get? x :=
  Keyed.lookup_without k x t.entries

end Table

end MemberAccess
