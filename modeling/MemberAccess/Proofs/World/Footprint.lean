import MemberAccess.Proofs.World.Growth

/-!
# Footprints

Every slot has an address: a name in the cell of an object, or a name among the slots that static
members share. A change of the world is described by a set of addresses outside of which nothing is
different.

* `Slots.ext_get?`: slots are what is found in them.
* `Slots.AgreeOff`: slots that differ under some names at most.
* `Address`, `World.Within`: worlds that differ at some addresses at most.
* `World.within_allocate`, `World.Within.store`: what an allocation and a store change.
-/

namespace MemberAccess

namespace Slots

/-! ## Slots are what is found in them -/

theorem lt_of_lookup {bound name : String} {v : Value} {es : List (String × Value)}
    (h : ∀ e ∈ es, bound < e.1) (hv : es.lookup name = some v) : bound < name := by
  have hfound : es.lookup name ≠ none := by simp [hv]
  have hmem : name ∈ es.map Prod.fst :=
    Decidable.not_not.1 fun hmem => hfound ((Keyed.lookup_eq_none_iff_not_mem name es).2 hmem)
  obtain ⟨e, he, rfl⟩ := List.mem_map.1 hmem
  exact h e he

theorem eq_of_lookup_eq {es fs : List (String × Value)} (hes : es.Pairwise fun e f => e.1 < f.1)
    (hfs : fs.Pairwise fun e f => e.1 < f.1) (h : ∀ name, es.lookup name = fs.lookup name) :
    es = fs := by
  induction es generalizing fs with
  | nil =>
    rcases fs with _ | ⟨⟨name, v⟩, fs⟩
    · rfl
    · simpa using h name
  | cons e es ih =>
    rcases fs with _ | ⟨⟨name', v'⟩, fs⟩
    · simpa using h e.1
    · obtain ⟨name, v⟩ := e
      obtain ⟨hhead, htail⟩ := List.pairwise_cons.1 hes
      obtain ⟨hhead', htail'⟩ := List.pairwise_cons.1 hfs
      simp only [Keyed.lookup_cons_eq] at h
      -- a head under another name would be found in the other tail, on both sides
      have hname : name = name' := by
        by_cases heq : name = name'
        · exact heq
        · have hleft := h name
          have hright := h name'
          rw [if_pos rfl, if_neg heq] at hleft
          rw [if_neg (Ne.symm heq), if_pos rfl] at hright
          have hlt := lt_of_lookup hhead' hleft.symm
          have hlt' := lt_of_lookup hhead hright
          exact absurd (String.lt_trans hlt hlt') (String.lt_irrefl _)
      subst hname
      have hvalue : v = v' := by simpa using h name
      have hrest : es = fs := by
        refine ih htail htail' fun x => ?_
        by_cases hx : x = name
        · subst hx
          have hnone : ∀ gs : List (String × Value), (∀ g ∈ gs, x < g.1) → gs.lookup x = none :=
            fun gs hgs => Option.eq_none_iff_forall_ne_some.2 fun u hu =>
              String.lt_irrefl _ (lt_of_lookup hgs hu)
          rw [hnone es hhead, hnone fs hhead']
        · simpa [hx] using h x
      rw [hvalue, hrest]

theorem ext_get? {s s' : Slots} (h : ∀ name, s.get? name = s'.get? name) : s = s' := by
  obtain ⟨es, hes⟩ := s
  obtain ⟨fs, hfs⟩ := s'
  obtain rfl := eq_of_lookup_eq hes hfs h
  rfl

/-! ## Slots that differ under some names -/

/-- The slots hold the same under every name that is not one of these. -/
def AgreeOff (names : String → Prop) (s s' : Slots) : Prop :=
  ∀ name, ¬ names name → s'.get? name = s.get? name

namespace AgreeOff

variable {names names' : String → Prop} {s s' s'' : Slots}

theorem refl (names : String → Prop) (s : Slots) : s.AgreeOff names s := fun _ _ => rfl

theorem trans (h : s.AgreeOff names s') (h' : s'.AgreeOff names s'') : s.AgreeOff names s'' :=
  fun name hname => (h' name hname).trans (h name hname)

theorem mono (h : s.AgreeOff names s') (hnames : ∀ name, names name → names' name) :
    s.AgreeOff names' s' :=
  fun name hname => h name fun hmem => hname (hnames name hmem)

theorem eq (h : s.AgreeOff names s') (hnames : ∀ name, ¬ names name) : s' = s :=
  ext_get? fun name => h name (hnames name)

theorem get (h : s.AgreeOff names s') {name : String} (hname : ¬ names name) :
    s'.get name = s.get name := by
  unfold Slots.get
  rw [h name hname]

end AgreeOff

theorem agreeOff_set (s : Slots) (name : String) (v : Value) :
    s.AgreeOff (· = name) (s.set name v) :=
  fun x hx => by rw [get?_set, if_neg hx]

theorem agreeOff_erase (s : Slots) (name : String) : s.AgreeOff (· = name) (s.erase name) :=
  fun x hx => by rw [get?_erase, if_neg hx]

end Slots

/-! ## Addresses -/

/-- The place of a slot. -/
inductive Address where
  /-- In the cell of an object. -/
  | cell (index : Nat) (name : String)
  /-- Among the slots that static members share. -/
  | shared (name : String)
  deriving DecidableEq

namespace World

/-- The later world differs at some addresses at most: its objects have the cells and the classes
that they had, and what is different stands at one of the addresses. -/
structure Within (w w' : World) (addresses : Address → Prop) : Prop where
  cells : ∀ (i : Nat) (c : Cell), w.cells[i]? = some c → ∃ s, w'.cells[i]? = some ⟨c.host, s⟩ ∧
    c.slots.AgreeOff (fun name => addresses (.cell i name)) s
  statics : w.statics.AgreeOff (fun name => addresses (.shared name)) w'.statics

namespace Within

variable {w w' w'' : World} {addresses addresses' : Address → Prop}

theorem refl (w : World) (addresses : Address → Prop) : w.Within w addresses :=
  ⟨fun _ c hc => ⟨c.slots, hc, .refl _ _⟩, .refl _ _⟩

theorem trans (h : w.Within w' addresses) (h' : w'.Within w'' addresses) :
    w.Within w'' addresses := by
  refine ⟨fun i c hc => ?_, h.statics.trans h'.statics⟩
  obtain ⟨s, hs, hagree⟩ := h.cells i c hc
  obtain ⟨s', hs', hagree'⟩ := h'.cells i _ hs
  exact ⟨s', hs', hagree.trans hagree'⟩

theorem mono (h : w.Within w' addresses) (hsub : ∀ a, addresses a → addresses' a) :
    w.Within w' addresses' := by
  refine ⟨fun i c hc => ?_, h.statics.mono fun name => hsub _⟩
  obtain ⟨s, hs, hagree⟩ := h.cells i c hc
  exact ⟨s, hs, hagree.mono fun name => hsub _⟩

theorem cell_eq (h : w.Within w' addresses) {i : Nat} {c : Cell} (hc : w.cells[i]? = some c)
    (hfree : ∀ name, ¬ addresses (.cell i name)) : w'.cells[i]? = some c := by
  obtain ⟨s, hs, hagree⟩ := h.cells i c hc
  rw [hs, hagree.eq hfree]

theorem holds (h : w.Within w' addresses) {o : ObjectRef} (ho : w.Holds o) : w'.Holds o := by
  obtain ⟨s, hs⟩ := ho
  obtain ⟨s', hs', -⟩ := h.cells o.cell _ hs
  exact ⟨s', hs'⟩

theorem contents (h : w.Within w' addresses) {o : ObjectRef} (ho : w.Holds o) :
    (w.contents o).AgreeOff (fun name => addresses (.cell o.cell name)) (w'.contents o) := by
  obtain ⟨s, hs⟩ := ho
  obtain ⟨s', hs', hagree⟩ := h.cells o.cell _ hs
  unfold World.contents
  rw [hs, hs']
  exact hagree

end Within

/-! ## What changes the world -/

theorem within_of_prefix {w w' : World} {addresses : Address → Prop} (hcells : w.cells <+: w'.cells)
    (hstatics : w.statics.AgreeOff (fun name => addresses (.shared name)) w'.statics) :
    w.Within w' addresses := by
  obtain ⟨fresh, hfresh⟩ := hcells
  refine ⟨fun i c hc => ⟨c.slots, ?_, .refl _ _⟩, hstatics⟩
  have hlt : i < w.cells.length := (List.getElem?_eq_some_iff.1 hc).1
  rw [← hfresh, List.getElem?_append_left hlt, hc]

theorem within_allocate (w : World) (c : HostClass) (s : Slots) (addresses : Address → Prop) :
    w.Within (w.allocate c s).2 addresses :=
  within_of_prefix ⟨[⟨c, s⟩], rfl⟩ (.refl _ _)

theorem Within.store {w w' : World} {addresses : Address → Prop} (hcells : w.cells <+: w'.cells)
    (hstatics : w.statics.AgreeOff (fun name => addresses (.shared name)) w'.statics)
    {o : ObjectRef} {s : Slots}
    (hs : (w.contents o).AgreeOff (fun name => addresses (.cell o.cell name)) s) :
    w.Within (w'.store o s) addresses := by
  have hprefix : w.Within w' addresses := within_of_prefix hcells hstatics
  refine ⟨fun i c hc => ?_, hstatics⟩
  obtain ⟨s', hs', hagree⟩ := hprefix.cells i c hc
  have hmodify : (w'.store o s).cells[i]? =
      some ⟨c.host, if o.cell = i then s else s'⟩ := by
    unfold World.store
    rw [List.getElem?_modify, hs']
    by_cases hi : o.cell = i
    · simp [hi]
    · simp [hi]
  refine ⟨_, hmodify, ?_⟩
  by_cases hi : o.cell = i
  · subst hi
    have hcontents : w.contents o = c.slots := by
      unfold World.contents
      rw [hc]
    rw [if_pos rfl, ← hcontents]
    exact hs
  · rw [if_neg hi]
    exact hagree

end World

end MemberAccess
