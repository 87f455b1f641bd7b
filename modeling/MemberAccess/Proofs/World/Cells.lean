import MemberAccess.Proofs.World.Growth

/-!
# Cells

What an allocation and a store do to cells: a new cell has a number that no cell had, a store
reaches one cell and every reference to it.

* `World.Fresh`: references whose number no cell has; `World.fresh_allocate`.
* `World.contents_allocate`, `World.holds_allocate`: the new cell.
* `World.Holds.contents_store`, `World.contents_store_of_ne`: the cell of a store and the others.
-/

namespace MemberAccess

namespace World

variable {w : World} {o p : ObjectRef}

/-! ## Allocations -/

/-- No cell has the number of the reference. -/
def Fresh (w : World) (o : ObjectRef) : Prop := w.cells[o.cell]? = none

theorem fresh_allocate (w : World) (c : HostClass) (s : Slots) : w.Fresh (w.allocate c s).1 :=
  List.getElem?_eq_none (Nat.le_refl _)

theorem Fresh.ne (h : w.Fresh o) (hp : w.Holds p) : p.cell ≠ o.cell := by
  obtain ⟨s, hs⟩ := hp
  intro heq
  rw [heq, h] at hs
  cases hs

theorem getElem?_allocate (w : World) (c : HostClass) (s : Slots) :
    (w.allocate c s).2.cells[(w.allocate c s).1.cell]? = some ⟨c, s⟩ := by
  simp [allocate]

theorem holds_allocate (w : World) (c : HostClass) (s : Slots) :
    (w.allocate c s).2.Holds (w.allocate c s).1 :=
  ⟨s, w.getElem?_allocate c s⟩

theorem contents_allocate (w : World) (c : HostClass) (s : Slots) :
    (w.allocate c s).2.contents (w.allocate c s).1 = s := by
  unfold contents
  rw [getElem?_allocate]

/-! ## Stores -/

theorem Holds.contents_store (h : w.Holds o) (s : Slots) : (w.store o s).contents o = s := by
  obtain ⟨s', hs'⟩ := h
  have hcell : (w.store o s).cells[o.cell]? = some ⟨o.host, s⟩ := by
    simp [store, hs']
  simp [contents, hcell]

theorem Holds.store (h : w.Holds o) (s : Slots) : (w.store o s).Holds o := by
  obtain ⟨s', hs'⟩ := h
  exact ⟨s, by simp [World.store, hs']⟩

theorem getElem?_store_of_ne (w : World) {i : Nat} (h : i ≠ o.cell) (s : Slots) :
    (w.store o s).cells[i]? = w.cells[i]? := by
  simp [store, Ne.symm h]

theorem contents_store_of_ne (w : World) (h : p.cell ≠ o.cell) (s : Slots) :
    (w.store o s).contents p = w.contents p := by
  unfold contents
  rw [w.getElem?_store_of_ne h]

theorem contents_congr (w : World) (h : p.cell = o.cell) : w.contents p = w.contents o := by
  unfold contents
  rw [h]

end World

end MemberAccess
