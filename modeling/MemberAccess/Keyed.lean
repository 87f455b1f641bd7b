/-!
# Keyed lists

Keys with values in a list, read by `List.lookup`: the first entry under a key counts.

* `Keyed.put`: writes a value under a key, in the place of the entry that is there or at the end.
* `Keyed.without`: the entries under other keys.
* `Keyed.lookup_put`, `Keyed.lookup_without`: what a lookup finds after each of them.
-/

namespace MemberAccess.Keyed

variable {κ α : Type} [DecidableEq κ]

/-! ## Lookup -/

theorem lookup_cons_eq (k k' : κ) (a : α) (rest : List (κ × α)) :
    List.lookup k ((k', a) :: rest) = if k = k' then some a else List.lookup k rest := by
  rw [List.lookup_cons]
  by_cases h : k = k'
  · rw [if_pos h, beq_iff_eq.2 h]
  · rw [if_neg h, beq_eq_false_iff_ne.2 h]

theorem lookup_eq_none_iff_not_mem (k : κ) (es : List (κ × α)) :
    List.lookup k es = none ↔ k ∉ es.map Prod.fst := by
  simp [List.lookup_eq_none_iff]
  constructor
  · intro h a ha
    exact h k a ha rfl
  · intro h k' a ha hk
    subst hk
    exact h a ha

/-! ## Writing -/

/-- Replaces the entry under `k` in its place, or appends one. -/
def put (k : κ) (a : α) : List (κ × α) → List (κ × α)
  | [] => [(k, a)]
  | (k', a') :: rest => if k' = k then (k, a) :: rest else (k', a') :: put k a rest

theorem lookup_put (k x : κ) (a : α) (es : List (κ × α)) :
    List.lookup x (put k a es) = if x = k then some a else List.lookup x es := by
  induction es with
  | nil => rw [put, lookup_cons_eq]
  | cons e rest ih =>
    obtain ⟨k', a'⟩ := e
    by_cases hk : k' = k
    · subst hk
      rw [put, if_pos rfl, lookup_cons_eq, lookup_cons_eq]
      by_cases hx : x = k'
      · rw [if_pos hx, if_pos hx]
      · rw [if_neg hx, if_neg hx, if_neg hx]
    · rw [put, if_neg hk, lookup_cons_eq, lookup_cons_eq, ih]
      by_cases hx : x = k
      · subst hx
        rw [if_neg (Ne.symm hk), if_pos rfl, if_pos rfl]
      · rw [if_neg hx, if_neg hx]

theorem mem_keys_put (k x : κ) (a : α) (es : List (κ × α)) :
    x ∈ (put k a es).map Prod.fst ↔ x = k ∨ x ∈ es.map Prod.fst := by
  induction es with
  | nil => simp [put]
  | cons e rest ih =>
    obtain ⟨k', a'⟩ := e
    by_cases h : k' = k
    · subst h
      simp [put]
    · rw [put, if_neg h, List.map_cons, List.mem_cons, ih, List.map_cons, List.mem_cons]
      exact or_left_comm

theorem nodup_put (k : κ) (a : α) (es : List (κ × α)) (h : (es.map Prod.fst).Nodup) :
    ((put k a es).map Prod.fst).Nodup := by
  induction es with
  | nil => simp [put]
  | cons e rest ih =>
    obtain ⟨k', a'⟩ := e
    rw [List.map_cons, List.nodup_cons] at h
    by_cases hk : k' = k
    · subst hk
      rw [put, if_pos rfl, List.map_cons, List.nodup_cons]
      exact h
    · rw [put, if_neg hk, List.map_cons, List.nodup_cons]
      refine ⟨fun hmem => ?_, ih h.2⟩
      rcases (mem_keys_put k k' a rest).1 hmem with hx | hx
      · exact hk hx
      · exact h.1 hx

/-! ## Leaving out -/

def without (k : κ) (es : List (κ × α)) : List (κ × α) := es.filter fun e => !decide (e.1 = k)

theorem lookup_without (k x : κ) (es : List (κ × α)) :
    List.lookup x (without k es) = if x = k then none else List.lookup x es := by
  unfold without
  induction es with
  | nil => rw [List.filter_nil, List.lookup_nil, ite_self]
  | cons e rest ih =>
    obtain ⟨k', a'⟩ := e
    by_cases hk : k' = k
    · subst hk
      rw [List.filter_cons_of_neg (by simp), ih, lookup_cons_eq]
      by_cases hx : x = k'
      · rw [if_pos hx, if_pos hx]
      · rw [if_neg hx, if_neg hx, if_neg hx]
    · rw [List.filter_cons_of_pos (by simp [hk]), lookup_cons_eq, lookup_cons_eq, ih]
      by_cases hx : x = k
      · subst hx
        rw [if_neg (Ne.symm hk), if_pos rfl, if_pos rfl]
      · rw [if_neg hx, if_neg hx]

theorem without_sublist (k : κ) (es : List (κ × α)) : (without k es).Sublist es :=
  List.filter_sublist

end MemberAccess.Keyed
