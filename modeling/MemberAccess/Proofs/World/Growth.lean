import MemberAccess.Member.Receiver

/-!
# Worlds that grow

A run that substitutes an instance for a value allocates it as a new and empty cell. Nothing else
appears during a run, so what a cell held before the run it holds after it, unless it is stored.

* `World.Grown`: the cells of a world and maybe new ones, which are empty.
* `World.Grown.store_contents`: storing what a cell held changes nothing.
* `StaticType.grown_fit`: a substitution grows the world.
-/

namespace MemberAccess

namespace World

/-- The later world has the cells of the earlier one and maybe new ones, which are empty. -/
def Grown (w w' : World) : Prop :=
  ∃ fresh : List Cell, w'.cells = w.cells ++ fresh ∧ ∀ cell ∈ fresh, cell.slots = .empty

theorem Grown.of_cells {w w' : World} (h : w'.cells = w.cells) : w.Grown w' :=
  ⟨[], by rw [h, List.append_nil], fun _ hcell => absurd hcell List.not_mem_nil⟩

theorem grown_allocate (w : World) (c : HostClass) : w.Grown (w.allocate c .empty).2 := by
  refine ⟨[⟨c, .empty⟩], rfl, fun cell hcell => ?_⟩
  rw [List.mem_singleton.1 hcell]

theorem store_eq_self {w : World} {o : ObjectRef} {s : Slots}
    (h : ∀ cell, w.cells[o.cell]? = some cell → cell.slots = s) : w.store o s = w := by
  have hsame : w.cells.modify o.cell (fun cell => { cell with slots := s }) = w.cells := by
    apply List.ext_getElem?
    intro i
    rw [List.getElem?_modify]
    cases hget : w.cells[i]? with
    | none => rfl
    | some cell =>
      by_cases hi : o.cell = i
      · subst hi
        simp [← h cell hget]
      · simp [hi]
  rw [store, hsame]

/-- Storing in a cell what it held before the world grew changes nothing. A cell that is new, or
that does not exist, held nothing. -/
theorem Grown.store_contents {w w' : World} (h : w.Grown w') (o : ObjectRef) :
    w'.store o (w.contents o) = w' := by
  obtain ⟨fresh, hcells, hfresh⟩ := h
  refine store_eq_self fun cell hget => ?_
  rw [hcells] at hget
  unfold contents
  by_cases hold : o.cell < w.cells.length
  · rw [List.getElem?_append_left hold] at hget
    rw [hget]
  · have hnone : w.cells[o.cell]? = none := List.getElem?_eq_none (Nat.not_lt.1 hold)
    rw [List.getElem?_append_right (Nat.not_lt.1 hold)] at hget
    rw [hnone, hfresh cell (List.mem_of_getElem? hget)]

theorem store_contents (w : World) (o : ObjectRef) : w.store o (w.contents o) = w :=
  (Grown.of_cells rfl).store_contents o

theorem Holds.store_contents_allocate {w : World} {o : ObjectRef} (h : w.Holds o) (c : HostClass)
    (s : Slots) : (w.allocate c s).2.store o (w.contents o) = (w.allocate c s).2 := by
  obtain ⟨s', hs'⟩ := h
  refine store_eq_self fun cell hget => ?_
  have hold : o.cell < w.cells.length := (List.getElem?_eq_some_iff.1 hs').1
  rw [show (w.allocate c s).2.cells = w.cells ++ [⟨c, s⟩] from rfl,
    List.getElem?_append_left hold] at hget
  unfold contents
  rw [hget]

end World

/-! ## Substitution -/

theorem BaseType.substitute_world (b : BaseType) (w : World) :
    (b.substitute w).2 = w ∨ ∃ c, b = .host c ∧ (b.substitute w).2 = (w.allocate c .empty).2 := by
  cases b with
  | host c => exact Or.inr ⟨c, rfl, rfl⟩
  | _ => exact Or.inl rfl

namespace StaticType

theorem fit_world (t : StaticType) (v : Value) (w : World) :
    (t.fit v w).2 = w ∨ ∃ c, (t.fit v w).2 = (w.allocate c .empty).2 := by
  unfold fit
  cases t.fromValue v with
  | ok x => exact Or.inl rfl
  | error e =>
    cases t with
    | optional t => exact Or.inl rfl
    | base b =>
      rcases b.substitute_world w with h | ⟨c, -, h⟩
      · exact Or.inl h
      · exact Or.inr ⟨c, h⟩

theorem grown_fit (t : StaticType) (v : Value) (w : World) : w.Grown (t.fit v w).2 := by
  rcases t.fit_world v w with h | ⟨c, h⟩
  · rw [h]
    exact .of_cells rfl
  · rw [h]
    exact w.grown_allocate c

theorem fit_withStatics (t : StaticType) (v : Value) (w : World) (s : Slots) :
    t.fit v { w with statics := s } = ((t.fit v w).1, { (t.fit v w).2 with statics := s }) := by
  unfold fit
  cases t.fromValue v with
  | ok x => rfl
  | error e =>
    cases t with
    | optional t => rfl
    | base b => cases b <;> rfl

end StaticType

end MemberAccess
