import MemberAccess.Keyed
import MemberAccess.Value.Basic

/-!
# Slots

The contents of an object, and the state that static members share: named slots in the order of
their names, which the type carries, so that there is one list for each contents. A slot that is
absent reads as null.

* `Slots.get?`, `Slots.set`, `Slots.erase`.
* `Slots.get?_set`, `Slots.get?_erase`: what a slot holds after each of them.
-/

namespace MemberAccess

/-- Named slots in the order of their names. -/
structure Slots where
  entries : List (String × Value)
  sorted : entries.Pairwise fun e f => e.1 < f.1
  deriving DecidableEq

namespace Slots

/-! ## Writing in order -/

/-- Writes an entry, replacing one of the same name or standing before the next greater one. -/
def setIn (name : String) (v : Value) : List (String × Value) → List (String × Value)
  | [] => [(name, v)]
  | (name', v') :: rest =>
    if name' = name then (name, v) :: rest
    else if name < name' then (name, v) :: (name', v') :: rest
    else (name', v') :: setIn name v rest

theorem lookup_setIn (name x : String) (v : Value) (es : List (String × Value)) :
    List.lookup x (setIn name v es) = if x = name then some v else List.lookup x es := by
  induction es with
  | nil => rw [setIn, Keyed.lookup_cons_eq]
  | cons e rest ih =>
    obtain ⟨name', v'⟩ := e
    unfold setIn
    by_cases hn : name' = name
    · subst hn
      rw [if_pos rfl, Keyed.lookup_cons_eq, Keyed.lookup_cons_eq]
      by_cases hx : x = name'
      · rw [if_pos hx, if_pos hx]
      · rw [if_neg hx, if_neg hx, if_neg hx]
    · rw [if_neg hn]
      by_cases hl : name < name'
      · rw [if_pos hl, Keyed.lookup_cons_eq]
      · rw [if_neg hl, Keyed.lookup_cons_eq, Keyed.lookup_cons_eq, ih]
        by_cases hx : x = name
        · subst hx
          rw [if_neg (Ne.symm hn), if_pos rfl, if_pos rfl]
        · rw [if_neg hx, if_neg hx]

theorem mem_setIn {name : String} {v : Value} {es : List (String × Value)} {e : String × Value}
    (h : e ∈ setIn name v es) : e = (name, v) ∨ e ∈ es := by
  induction es with
  | nil => exact Or.inl (List.mem_singleton.1 h)
  | cons f rest ih =>
    obtain ⟨name', v'⟩ := f
    unfold setIn at h
    split at h
    · rcases List.mem_cons.1 h with h | h
      · exact Or.inl h
      · exact Or.inr (List.mem_cons_of_mem _ h)
    · split at h
      · exact List.mem_cons.1 h
      · rcases List.mem_cons.1 h with h | h
        · exact Or.inr (h ▸ List.mem_cons_self)
        · exact (ih h).imp_right (List.mem_cons_of_mem _)

theorem sorted_setIn (name : String) (v : Value) (es : List (String × Value))
    (h : es.Pairwise fun e f => e.1 < f.1) :
    (setIn name v es).Pairwise fun e f => e.1 < f.1 := by
  induction es with
  | nil => exact List.pairwise_singleton _ _
  | cons f rest ih =>
    obtain ⟨name', v'⟩ := f
    obtain ⟨hhead, htail⟩ := List.pairwise_cons.1 h
    unfold setIn
    by_cases hn : name' = name
    · subst hn
      rw [if_pos rfl]
      exact List.pairwise_cons.2 ⟨hhead, htail⟩
    · rw [if_neg hn]
      by_cases hl : name < name'
      · rw [if_pos hl]
        refine List.pairwise_cons.2 ⟨fun e he => ?_, h⟩
        rcases List.mem_cons.1 he with he | he
        · exact he ▸ hl
        · exact String.lt_trans hl (hhead e he)
      · rw [if_neg hl]
        refine List.pairwise_cons.2 ⟨fun e he => ?_, ih htail⟩
        rcases mem_setIn he with he | he
        · subst he
          exact Std.lt_of_le_of_ne (String.not_lt.1 hl) hn
        · exact hhead e he

/-! ## Operations -/

def empty : Slots := ⟨[], List.Pairwise.nil⟩

instance : Inhabited Slots := ⟨empty⟩

def get? (s : Slots) (name : String) : Option Value := s.entries.lookup name

/-- The value in a slot, null when the slot is absent. -/
def get (s : Slots) (name : String) : Value := (s.get? name).getD .null

def set (s : Slots) (name : String) (v : Value) : Slots :=
  ⟨setIn name v s.entries, sorted_setIn name v s.entries s.sorted⟩

def erase (s : Slots) (name : String) : Slots :=
  ⟨Keyed.without name s.entries, s.sorted.sublist (Keyed.without_sublist name s.entries)⟩

def size (s : Slots) : Nat := s.entries.length

/-- The slots that result from writing pairs from the first to the last. -/
def ofList (pairs : List (String × Value)) : Slots :=
  pairs.foldl (fun s p => s.set p.1 p.2) empty

/-! ## What a slot holds -/

theorem get?_set (s : Slots) (name x : String) (v : Value) :
    (s.set name v).get? x = if x = name then some v else s.get? x :=
  lookup_setIn name x v s.entries

@[simp] theorem get_set_self (s : Slots) (name : String) (v : Value) :
    (s.set name v).get name = v := by
  rw [get, get?_set, if_pos rfl, Option.getD_some]

theorem get?_erase (s : Slots) (name x : String) :
    (s.erase name).get? x = if x = name then none else s.get? x :=
  Keyed.lookup_without name x s.entries

end Slots

end MemberAccess
