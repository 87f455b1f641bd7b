/-!
# Flags

A flag is a cell that several records refer to. Whoever reads it sees what was stored last, through
whichever reference.

* `FlagId`: a reference to a flag; `Flags`: all flags.
* `Flags.alloc`, `Flags.load`, `Flags.store`, and what a flag holds after each of them.
-/

namespace MemberAccess

/-- A reference to a flag: its place in the order of allocation. -/
structure FlagId where
  index : Nat
  deriving DecidableEq, Repr

/-- The flags that have been allocated. -/
structure Flags where
  cells : List Bool
  deriving DecidableEq, Repr

namespace Flags

def empty : Flags := ⟨[]⟩

def next (fs : Flags) : FlagId := ⟨fs.cells.length⟩

def alloc (fs : Flags) : FlagId × Flags := (fs.next, ⟨fs.cells ++ [false]⟩)

def load (fs : Flags) (f : FlagId) : Bool := fs.cells[f.index]?.getD false

def store (fs : Flags) (f : FlagId) (b : Bool) : Flags := ⟨fs.cells.set f.index b⟩

def Has (fs : Flags) (f : FlagId) : Prop := f.index < fs.cells.length

variable {fs : Flags} {f g : FlagId}

theorem load_empty (f : FlagId) : empty.load f = false := rfl

theorem load_of_not_has (h : ¬ fs.Has f) : fs.load f = false := by
  rw [load, List.getElem?_eq_none (Nat.le_of_not_lt h)]
  rfl

theorem load_alloc (fs : Flags) (f : FlagId) : fs.alloc.2.load f = fs.load f := by
  by_cases hf : fs.Has f
  · rw [load, load, alloc, List.getElem?_append_left hf]
  · rw [load_of_not_has hf, load, alloc, List.getElem?_append_right (Nat.le_of_not_lt hf)]
    cases f.index - fs.cells.length <;> rfl

theorem load_store_self (h : fs.Has f) (b : Bool) :
    (fs.store f b).load f = b := by
  rw [load, store, List.getElem?_set_self h]
  rfl

theorem load_store_of_ne (fs : Flags) (h : f ≠ g) (b : Bool) :
    (fs.store g b).load f = fs.load f := by
  have hindex : g.index ≠ f.index := fun heq => h (congrArg FlagId.mk heq.symm)
  rw [load, load, store, List.getElem?_set_ne hindex]

theorem not_has_next (fs : Flags) : ¬ fs.Has fs.next := Nat.lt_irrefl _

theorem has_next_alloc (fs : Flags) : fs.alloc.2.Has fs.next := by
  simp [Has, alloc, next]

theorem Has.alloc (h : fs.Has f) : fs.alloc.2.Has f := by
  rw [Has, Flags.alloc, List.length_append]
  exact Nat.lt_add_right _ h

theorem Has.store (h : fs.Has f) (g : FlagId) (b : Bool) :
    (fs.store g b).Has f := by
  rw [Has, Flags.store, List.length_set]
  exact h

end Flags

end MemberAccess
