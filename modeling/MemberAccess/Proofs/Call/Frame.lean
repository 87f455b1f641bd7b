import Mathlib.Logic.Relation
import MemberAccess.Proofs.Call.Handover
import MemberAccess.Proofs.Call.Reconstruction

/-!
# What calls leave alone

A call changes what its member is for: an instance member the cell of its target, a static member
the shared slots, a getter nothing, a constructor nothing that was there. Who refers to other
objects, through variables, slots or arguments, sees no difference.

* `Accessor.within_storage`: a member writes in the cell of its target, or among the shared slots.
* `Footprint`: what a call may change; `Accessor.footprint`.
* `Call.Elsewhere`: calls that are put to other objects; `Call.kept_of_elsewhere`.
* `Constructs`, `World.Apart`: constructions, and two objects that do not see each other.
* `calls_keep_their_footprint`: the footprint of a call, and what two constructions give.
-/

namespace MemberAccess

/-! ## Where members write -/

def Descriptor.storage (d : Descriptor) : Storage := if d.isStatic then .shared else .own

theorem Descriptor.storage_eq_shared_iff (d : Descriptor) :
    d.storage = .shared ↔ d.isStatic = true := by
  unfold storage
  cases d.isStatic <;> simp

theorem Descriptor.storage_eq_own_iff (d : Descriptor) :
    d.storage = .own ↔ d.isStatic = false := by
  unfold storage
  cases d.isStatic <;> simp

theorem Thunk.not_names {t : Thunk} {w : World} {own : Option Slots} {q : Request}
    (hq : q.shape = .read ∨ q.shape = .construct) (storage : Storage) (name : String) :
    ¬ t.names w own q storage name := by
  rcases hq with hq | hq <;> cases q <;> cases hq <;> cases t <;> exact id

section built

variable {blocks : List (HostClass × List Registration)} {d : Descriptor}
  (hd : d.Over (Registry.ofBlocks blocks)) {fs : Flags} {o : Options} {role : Role}
  {a : Accessor} (ha : Accessor.build fs o role d = .ok a) {w : World} {q : Request}

include hd ha

theorem Accessor.storage_of_names {p : Thunk × Request} (hp : a.operation? q = some p)
    {own : Option Slots} {storage : Storage} {name : String}
    (h : p.1.names w own p.2 storage name) : storage = d.storage := by
  obtain rfl := role_of_build fs o ha
  unfold Descriptor.storage
  -- whether the member is static is read off the role, or off where its binding keeps its slots
  cases hd.form with
  | constructor k hk hrole =>
    rw [build_constructor fs o hk hrole] at ha
    obtain ⟨-, -, rfl⟩ := map_eq_ok_iff.1 ha
    cases q with
    | invoke target args =>
      simp only [operation?, hrole] at hp
      obtain rfl := Option.some.inj hp
      exact absurd h (Thunk.not_names (.inr rfl) storage name)
    | _ => cases hp
  | reconstructor k hk hrole =>
    rw [build_reconstructor fs o hk hrole] at ha
    obtain ⟨-, -, rfl⟩ := map_eq_ok_iff.1 ha
    cases q with
    | invoke target args =>
      simp only [operation?, hrole] at hp
      obtain rfl := Option.some.inj hp
      rw [Descriptor.isStatic, hrole]
      exact h
    | _ => cases hp
  | method result f hf hrole =>
    rw [build_method fs o hf hrole] at ha
    obtain ⟨-, -, rfl⟩ := map_eq_ok_iff.1 ha
    cases q with
    | invoke target args =>
      simp only [operation?, hrole] at hp
      obtain rfl := Option.some.inj hp
      rw [Descriptor.isStatic_eq_of_method hf hrole]
      obtain ⟨rfl, -⟩ := h
      cases f.storage <;> rfl
    | _ => cases hp
  | value type b hb hrole hindex =>
    obtain rfl := build_value fs o hb hrole ha
    cases q with
    | get target index =>
      obtain ⟨t, -, rfl⟩ := Option.map_eq_some_iff.1 hp
      exact absurd h (Thunk.not_names (.inl rfl) storage name)
    | set target index v =>
      obtain ⟨t, ht, rfl⟩ := Option.map_eq_some_iff.1 hp
      obtain ⟨-, hwrite⟩ := Option.ite_none_right_eq_some.1 ht
      obtain rfl := Option.some.inj hwrite
      rw [Descriptor.isStatic_eq_of_value hb hrole, ← Location.storage_eq]
      exact h.1
    | _ => cases hp

/-- A call of an accessor writes in the cell of its target if the member is one of instances, and
among the shared slots if it is static. -/
theorem Accessor.within_storage {x : Outcome Value} (hx : a.answer w q = some x) :
    w.Within x.2 fun address => match address with
      | .cell i _ => d.isStatic = false ∧ ∃ o, q.target = .object o ∧ o.cell = i
      | .shared _ => d.isStatic = true := by
  rcases answer_cases hx with ⟨operation, rfl⟩ | ⟨p, hp, rfl⟩
  · exact .refl w _
  · refine (p.1.within_footprint w p.2).mono fun address haddress => ?_
    cases address with
    | cell i name =>
      obtain ⟨⟨target, htarget, hcell⟩, hname⟩ := haddress
      have hobject := target_of_operation hp (Value.eq_of_instanceOf htarget).1
      exact ⟨d.storage_eq_own_iff.1 (storage_of_names hd ha hp hname).symm, target, hobject, hcell⟩
    | shared name => exact d.storage_eq_shared_iff.1 (storage_of_names hd ha hp haddress).symm

theorem Accessor.answer_of_constructor (hrole : d.role = .constructor) {x : Outcome Value}
    (hx : a.answer w q = some x) :
    w.Within x.2 (fun _ => False) ∧
      ∀ v, x.1 = .ok v → ∃ new, v = .object new ∧ w.Fresh new ∧ x.2.Holds new := by
  obtain rfl := role_of_build fs o ha
  obtain ⟨k, hk⟩ := hd.form.construction hrole
  have hholds : d.role.holdsValue = false := by
    rw [hrole]
    rfl
  rcases eq_of_build fs o ha with ⟨-, t, rfl, -⟩ | ⟨hvalue, -⟩
  · cases q with
    | invoke target args =>
      rw [Descriptor.answer_allocating hk ha w hrole target args] at hx
      obtain rfl := Option.some.inj hx
      cases d.argumentFault args with
      | some e => exact ⟨.refl w _, nofun⟩
      | none =>
        refine ⟨w.within_allocate d.host _ _, fun v hv => ?_⟩
        obtain rfl := Except.ok.inj hv
        exact ⟨_, rfl, w.fresh_allocate d.host _, w.holds_allocate d.host _⟩
    | _ => cases hx
  · cases hholds.symm.trans hvalue

end built

/-! ## Footprints -/

/-- What a call of an accessor may have changed, done or not. A call that failed without a report of
its member was refused. -/
structure Footprint (d : Descriptor) (w : World) (q : Request) (x : Outcome Value) : Prop where
  refused : ∀ e, x.1 = .error e → e.isReport = false → x.2 = w
  get : ∀ target index, q = .get target index → w.Within x.2 fun _ => False
  onTarget : d.isStatic = false → w.Within x.2 fun address =>
    ∃ o name, q.target = .object o ∧ address = .cell o.cell name
  onShared : d.isStatic = true → w.Within x.2 fun address => ∃ name, address = .shared name
  allocation : d.role = .constructor → w.Within x.2 (fun _ => False) ∧
    ∀ v, x.1 = .ok v → ∃ new, v = .object new ∧ w.Fresh new ∧ x.2.Holds new

section built

variable {blocks : List (HostClass × List Registration)} {d : Descriptor}
  (hd : d.Over (Registry.ofBlocks blocks)) {fs : Flags} {o : Options} {role : Role}
  {a : Accessor} (ha : Accessor.build fs o role d = .ok a) {w : World} {q : Request}
  {x : Outcome Value} (hx : a.answer w q = some x)

include hx

theorem Accessor.world_of_refused {e : AccessError} (he : x.1 = .error e)
    (hreport : e.isReport = false) : x.2 = w := by
  rcases answer_cases hx with ⟨operation, rfl⟩ | ⟨p, -, rfl⟩
  · rfl
  · exact p.1.world_of_refused w he hreport

theorem Accessor.within_get {target : Value} {index : List Value} (hq : q = .get target index) :
    w.Within x.2 fun _ => False := by
  subst hq
  rcases answer_cases hx with ⟨operation, rfl⟩ | ⟨p, hp, rfl⟩
  · exact .refl w _
  · have hread : p.2.shape = .read := by
      cases a with
      | calls a => cases hp
      | holds a =>
        obtain ⟨t, -, rfl⟩ := Option.map_eq_some_iff.1 hp
        rfl
    refine (p.1.within_footprint w p.2).mono fun address haddress => ?_
    cases address with
    | cell i name => exact Thunk.not_names (.inl hread) .own name haddress.2
    | shared name => exact Thunk.not_names (.inl hread) .shared name haddress

include hd ha

theorem Accessor.footprint : Footprint d w q x where
  refused _ he hreport := world_of_refused hx he hreport
  get _ _ hq := within_get hx hq
  onTarget hinstance := (within_storage hd ha hx).mono fun address haddress => by
    cases address with
    | cell i name =>
      obtain ⟨-, target, htarget, rfl⟩ := haddress
      exact ⟨target, name, htarget, rfl⟩
    | shared name => cases hinstance.symm.trans haddress
  onShared hstatic := (within_storage hd ha hx).mono fun address haddress => by
    cases address with
    | cell i name => cases hstatic.symm.trans haddress.1
    | shared name => exact ⟨name, rfl⟩
  allocation hrole := answer_of_constructor hd ha hrole hx

end built

/-! ## Runs of calls -/

namespace Call

def target? : Call → Option ObjectRef
  | thunk _ q | accessor _ q => q.target.object?
  | typedThunk _ target _ | typedAccessor _ target _ => target.object?

theorem target_of_writes {w : World} {c : Call} {i : Nat} {name : String}
    (h : c.Writes w (.cell i name)) : ∃ o ∈ c.target?, o.cell = i := by
  cases c with
  | thunk t q =>
    obtain ⟨-, ⟨o, ho, hcell⟩, -⟩ := h
    exact ⟨o, congrArg Value.object? (Value.eq_of_instanceOf ho).1, hcell⟩
  | accessor a q =>
    obtain ⟨p, hp, -, ⟨o, ho, hcell⟩, -⟩ := h
    have htarget := Accessor.target_of_operation hp (Value.eq_of_instanceOf ho).1
    exact ⟨o, congrArg Value.object? htarget, hcell⟩
  | typedThunk t target q =>
    obtain ⟨-, ⟨o, ho, hcell⟩, -⟩ := h
    exact ⟨o, ho, hcell⟩
  | typedAccessor a target q =>
    obtain ⟨p, -, -, ⟨o, ho, hcell⟩, -⟩ := h
    exact ⟨o, ho, hcell⟩

/-- Any call is made. -/
def Step (w w' : World) : Prop := ∃ c : Call, w' = c.after w

/-- A call is made that is put to another object, or to none. The object may be among its values. -/
def Elsewhere (o : ObjectRef) (w w' : World) : Prop :=
  ∃ c : Call, (∀ p ∈ c.target?, p.cell ≠ o.cell) ∧ w' = c.after w

section runs

variable {w w' : World} {o : ObjectRef}

theorem Step.holds (h : Step w w') (ho : w.Holds o) : w'.Holds o := by
  obtain ⟨c, rfl⟩ := h
  exact (c.within w).holds ho

theorem holds_of_steps (hrun : Relation.ReflTransGen Step w w') (ho : w.Holds o) : w'.Holds o := by
  induction hrun with
  | refl => exact ho
  | tail _ hstep ih => exact hstep.holds ih

theorem Elsewhere.kept (h : Elsewhere o w w') (ho : w.Holds o) :
    w'.Holds o ∧ w'.contents o = w.contents o := by
  obtain ⟨c, hother, rfl⟩ := h
  have hwithin := c.within w
  refine ⟨hwithin.holds ho, (hwithin.contents ho).eq fun name hwrites => ?_⟩
  obtain ⟨p, hp, hcell⟩ := target_of_writes hwrites
  exact hother p hp hcell

theorem kept_of_elsewhere (hrun : Relation.ReflTransGen (Elsewhere o) w w') (ho : w.Holds o) :
    w'.Holds o ∧ w'.contents o = w.contents o := by
  induction hrun with
  | refl => exact ⟨ho, rfl⟩
  | tail _ hstep ih =>
    obtain ⟨hheld, hcontents⟩ := ih
    obtain ⟨hheld', hcontents'⟩ := hstep.kept hheld
    exact ⟨hheld', hcontents'.trans hcontents⟩

end runs

end Call

/-! ## Two instances -/

/-- An accessor of a registered constructor gives a value. -/
inductive Constructs (w : World) (v : Value) (w' : World) : Prop where
  | call (blocks : List (HostClass × List Registration)) (d : Descriptor)
      (hd : d.Over (Registry.ofBlocks blocks)) (hrole : d.role = .constructor) (fs : Flags)
      (o : Options) (role : Role) (a : Accessor) (ha : Accessor.build fs o role d = .ok a)
      (q : Request) (hx : a.answer w q = some (.ok v, w'))

theorem Constructs.fresh {w w' : World} {v : Value} (h : Constructs w v w') :
    ∃ new, v = .object new ∧ w.Fresh new ∧ w'.Holds new ∧ w.Within w' fun _ => False := by
  obtain ⟨blocks, d, hd, hrole, fs, o, role, a, ha, q, hx⟩ := h
  obtain ⟨hwithin, hnew⟩ := Accessor.answer_of_constructor hd ha hrole hx
  obtain ⟨new, rfl, hfresh, hheld⟩ := hnew v rfl
  exact ⟨new, rfl, hfresh, hheld, hwithin⟩

/-- The values are two objects with cells of their own: calls that are put to others than one of
them leave its contents, whatever they do to the other one. -/
structure World.Apart (w : World) (v v' : Value) : Prop where
  differ : v.same v' = false
  first : ∃ o, v = .object o ∧ w.Holds o ∧
    ∀ w', Relation.ReflTransGen (Call.Elsewhere o) w w' → w'.contents o = w.contents o
  second : ∃ o, v' = .object o ∧ w.Holds o ∧
    ∀ w', Relation.ReflTransGen (Call.Elsewhere o) w w' → w'.contents o = w.contents o

theorem World.Holds.apart {w : World} {o p : ObjectRef} (ho : w.Holds o) (hp : w.Holds p)
    (hne : o.cell ≠ p.cell) : w.Apart (.object o) (.object p) where
  differ := beq_false_of_ne hne
  first := ⟨o, rfl, ho, fun _ hrun => (Call.kept_of_elsewhere hrun ho).2⟩
  second := ⟨p, rfl, hp, fun _ hrun => (Call.kept_of_elsewhere hrun hp).2⟩

theorem Constructs.apart {w w₁ w₂ w₃ : World} {v v' : Value} (h : Constructs w v w₁)
    (hrun : Relation.ReflTransGen Call.Step w₁ w₂) (h' : Constructs w₂ v' w₃) :
    w₃.Apart v v' := by
  obtain ⟨first, rfl, -, hfirst, -⟩ := h.fresh
  obtain ⟨second, rfl, hfresh, hsecond, hwithin⟩ := h'.fresh
  -- the first object is still there when the second one gets a number that no cell has
  have hkept : w₂.Holds first := Call.holds_of_steps hrun hfirst
  exact (hwithin.holds hkept).apart hsecond (hfresh.ne hkept)

/-- A call of an accessor, done or not, changes its footprint and nothing else. What two
constructions give, however many calls there were between them, is two different objects, and
neither sees what is done to the other. -/
theorem calls_keep_their_footprint {blocks : List (HostClass × List Registration)} {d : Descriptor}
    (hd : d.Over (Registry.ofBlocks blocks)) {fs : Flags} {o : Options} {role : Role}
    {a : Accessor} (ha : Accessor.build fs o role d = .ok a) {w : World} {q : Request}
    {x : Outcome Value} (hx : a.answer w q = some x) :
    Footprint d w q x ∧
    (d.role = .constructor → ∀ v, x.1 = .ok v → ∀ w₁ v' w₂,
      Relation.ReflTransGen Call.Step x.2 w₁ → Constructs w₁ v' w₂ → w₂.Apart v v') := by
  refine ⟨Accessor.footprint hd ha hx, fun hrole v hv w₁ v' w₂ hrun hsecond => ?_⟩
  have hanswer : a.answer w q = some (.ok v, x.2) := by rw [hx, ← hv]
  exact (Constructs.call blocks d hd hrole fs o role a ha q hanswer).apart hrun hsecond

/-- The sample constructor gives two instances. -/
theorem calls_keep_their_footprint_pointNew : ∃ a x w',
    Accessor.build .empty .standard .constructor ⟨.constructor, pointNew⟩ = .ok a ∧
    a.answer pointWorld (.invoke .null [.int32 7]) = some x ∧
    x.1 = .ok (.object ⟨1, pointClass⟩) ∧
    Footprint ⟨.constructor, pointNew⟩ pointWorld (.invoke .null [.int32 7]) x ∧
    a.answer x.2 (.invoke .null [.int32 7]) = some (.ok (.object ⟨2, pointClass⟩), w') ∧
    w'.Apart (.object ⟨1, pointClass⟩) (.object ⟨2, pointClass⟩) := by
  have hover : Descriptor.Over ⟨.constructor, pointNew⟩ (Registry.ofBlocks markBlocks) :=
    ⟨List.mem_cons_self, rfl⟩
  have ha : Accessor.build .empty .standard .constructor ⟨.constructor, pointNew⟩ = .ok _ := rfl
  obtain ⟨hfootprint, hapart⟩ := calls_keep_their_footprint hover ha (w := pointWorld)
    (q := .invoke .null [.int32 7]) rfl
  refine ⟨_, _, _, ha, rfl, rfl, hfootprint, rfl, ?_⟩
  exact hapart rfl _ rfl _ _ _ .refl
    ⟨markBlocks, _, hover, rfl, _, _, _, _, ha, .invoke .null [.int32 7], rfl⟩

end MemberAccess
