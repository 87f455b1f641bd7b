import MemberAccess.Proofs.Call.Fitting
import MemberAccess.Proofs.Member.Uses

/-!
# What metadata says of bindings

A registration writes down the kind, the flags and the parameters of a member beside its binding,
and what compiles and calls the member later trusts them without a look at the binding. Here they
are held against what the binding does in its two forms.

* `Plan.OnValue`, `typed_compile_iff`: the typed surface compiles reads and writes where the untyped
  one does.
* `Member.RunsAlone`, `Member.NeedsReceiver`: what a static and an instance member do without a
  receiver; `Member.Coherent.isStatic_iff_runsAlone`.
* `Member.Faithful`: all that metadata says of a binding; `Member.RegisteredBy.faithful` for one
  step of a registration.
* `metadata_is_faithful`: the same for all members of a registry.
-/

namespace MemberAccess

/-- Members of the kind are bound in this form. -/
def MemberKind.Binds : MemberKind → Binding → Prop
  | .constructor, .construction _ => True
  | .field, .value _ _ | .property, .value _ _ | .indexer, .value _ _ => True
  | .method, .method _ _ => True
  | _, _ => False

/-! ## Getters and setters of both forms -/

/-- The binding is that of a field, property or indexer. -/
def Binding.holdsValue : Binding → Bool
  | value _ _ => true
  | construction _ | method _ _ => false

/-- The plan reads or writes a value: what it is compiled to on the typed surface, and what has to
be bound for it. -/
inductive Plan.OnValue : Plan → TypedShape → (Binding → Bool) → Prop where
  | get (dispatch : Dispatch) (index : ArgumentPlan) :
      OnValue (.get dispatch index) .get Binding.hasGetter
  | set (dispatch : Dispatch) (index : ArgumentPlan) (value : ArgumentSlot) :
      OnValue (.set dispatch index value) .set Binding.hasSetter

theorem Descriptor.attributeFor_host {d : Descriptor} {type : StaticType} {a : Attribute type}
    (hb : d.member.binding = .value type a) : d.attributeFor d.host type = .ok a := by
  unfold attributeFor
  rw [hb]
  simp

section compile

variable {fs : Flags} {policy : Policy} {d : Descriptor} {p : Plan} {shape : TypedShape}
  {bound : Binding → Bool}

theorem Plan.OnValue.servedBy_iff (h : p.OnValue shape bound) (b : Binding) :
    p.ServedBy b ↔ (b.holdsValue && bound b) = true := by
  rw [Bool.and_eq_true]
  cases h <;> cases b <;> simp [ServedBy, Binding.holdsValue, Binding.hasGetter, Binding.hasSetter]

theorem typed_compile_of_binding (h : p.OnValue shape bound) {type : StaticType}
    {a : Attribute type} (hb : d.member.binding = .value type a) :
    (∃ t, TypedThunk.compile fs policy d p shape d.host type = .ok t) ↔
      admission fs policy d p = .ok () ∧ bound (.value type a) = true := by
  cases h with
  | get dispatch index =>
    unfold TypedThunk.compile compileGet
    rw [Descriptor.attributeFor_host hb]
    cases admission fs policy d (.get dispatch index) with
    | error e => simp [Except.map]
    | ok x =>
      dsimp only
      show _ ↔ _ ∧ a.hasGetter = true
      cases a.hasGetter <;> simp [Except.map]
  | set dispatch index value =>
    unfold TypedThunk.compile compileSet
    rw [Descriptor.attributeFor_host hb]
    cases admission fs policy d (.set dispatch index value) with
    | error e => simp [Except.map]
    | ok x =>
      dsimp only
      show _ ↔ _ ∧ a.hasSetter = true
      cases a.hasSetter <;> simp [Except.map]

theorem binding_of_typed_compile (h : p.OnValue shape bound) {host : HostClass} {type : StaticType}
    {t : TypedThunk} (ht : TypedThunk.compile fs policy d p shape host type = .ok t) :
    ∃ a : Attribute type, d.member.binding = .value type a := by
  cases h with
  | get dispatch index =>
    obtain ⟨t, hget, rfl⟩ := map_eq_ok_iff.1 ht
    obtain ⟨_, _, a, -, hb, -⟩ := compileGet_eq_ok hget
    exact ⟨a, hb⟩
  | set dispatch index value =>
    obtain ⟨t, hset, rfl⟩ := map_eq_ok_iff.1 ht
    obtain ⟨_, _, _, a, -, hb, -⟩ := compileSet_eq_ok hset
    exact ⟨a, hb⟩

theorem typed_compile_iff (h : p.OnValue shape bound) :
    (∃ type t, TypedThunk.compile fs policy d p shape d.host type = .ok t) ↔
      admission fs policy d p = .ok () ∧ p.ServedBy d.member.binding := by
  rw [h.servedBy_iff]
  constructor
  · rintro ⟨type, t, ht⟩
    obtain ⟨a, hb⟩ := binding_of_typed_compile h ht
    rw [hb]
    exact (typed_compile_of_binding h hb).1 ⟨t, ht⟩
  · rintro ⟨hadmitted, hbound⟩
    cases hb : d.member.binding with
    | value type a =>
      rw [hb] at hbound
      exact ⟨type, (typed_compile_of_binding h hb).2 ⟨hadmitted, hbound⟩⟩
    | construction k =>
      rw [hb] at hbound
      cases hbound
    | method result m =>
      rw [hb] at hbound
      cases hbound

end compile

/-! ## What metadata says -/

namespace Member

/-- As far as it is admitted, the plan is compiled on the untyped surface iff `bound` says so, and
on the typed surface, for some type, in the same cases. -/
def Compiles (m : Member) (shape : TypedShape) (p : Plan) (bound : Bool) : Prop :=
  ∀ role fs policy,
    let d : Descriptor := ⟨role, m⟩
    let served := admission fs policy d p = .ok () ∧ bound = true
    ((∃ t, compile fs policy d p = .ok t) ↔ served) ∧
      ((∃ type t, TypedThunk.compile fs policy d p shape m.host type = .ok t) ↔ served)

/-- The slots that the member works on by what its flag says. -/
def storage (m : Member) : Storage := if m.isStatic then .shared else .own

/-- Without a receiver and with arguments that fit, both forms perform on the shared slots what the
member is there to do. -/
def RunsAlone (m : Member) : Prop :=
  ∀ (u : m.binding.Use) (w : World), Arguments.Fit m.parameters u.arguments →
    u.typed w none = Storage.shared.perform u.action w none ∧
      u.erased m.host w none = (Storage.shared.perform u.action w none).settle none

/-- Without a receiver both forms fail, and they leave everything as it is. -/
def NeedsReceiver (m : Member) : Prop :=
  ∀ (u : m.binding.Use) (w : World),
    u.typed w none = .refused (.invalidOperation .missingReceiver) none w ∧
      u.erased m.host w none = (.error (.invalidOperation .missingReceiver), w)

/-- What metadata says of a member is true of its binding. -/
structure Faithful (m : Member) : Prop where
  form : m.kind.Binds m.binding
  /-- Both forms have a getter in the same cases. -/
  getter : ∀ dispatch index,
    m.Compiles .get (.get dispatch index) (m.kind.holdsValue && m.binding.hasGetter)
  /-- Both forms have a setter in the same cases. -/
  setter : ∀ dispatch index value,
    m.Compiles .set (.set dispatch index value) (m.kind.holdsValue && m.binding.hasSetter)
  offered : m.kind.holdsValue = true → m.binding.hasGetter = true ∨ m.binding.hasSetter = true
  readable : m.kind = .field → m.binding.hasGetter = true
  isReadonly : m.modifiers.isReadonly = true ↔ m.kind = .field ∧ m.binding.hasSetter = false
  canWrite : ∀ role : Role, role.holdsValue = true →
    (Descriptor.mk role m).canWrite = m.binding.hasSetter
  isStatic : m.kind ≠ .constructor → (m.isStatic = true ↔ m.RunsAlone)
  needsReceiver : m.kind ≠ .constructor → m.isStatic = false → m.NeedsReceiver
  /-- The declared parameters are those that the binding unpacks. -/
  parameters : m.parameters = m.binding.parameters.map StaticType.handle
  /-- A constructor takes the vectors that fit the declared parameters and no others. -/
  builds : ∀ k, m.binding = .construction k → ∀ args,
    (Arguments.Fit m.parameters args → k.build args = .ok (k.contents args)) ∧
      (¬ Arguments.Fit m.parameters args →
        ∃ e, Arguments.unpack k.parameters args = .error e ∧ k.build args = .error (.value e))
  /-- Where a receiver is there or none is needed, arguments that fit the declared parameters are
  taken, and indexers and methods refuse others. -/
  runs : ∀ (u : m.binding.Use) (w : World) (own : Option Slots),
    (m.isStatic = false → own ≠ none) →
    (Arguments.Fit m.parameters u.arguments → u.typed w own = m.storage.perform u.action w own) ∧
      (m.kind = .indexer ∨ m.kind = .method → ¬ Arguments.Fit m.parameters u.arguments →
        ∃ e, Arguments.unpack m.binding.parameters u.arguments = .error e ∧
          u.typed w own = .refused (.value e) own w)
  /-- On an object of the member's class the erased form does what the typed one does on its
  contents. -/
  erased : ∀ (u : m.binding.Use) (w : World) (receiver : Option ObjectRef),
    (∀ o ∈ receiver, o.host = m.host) →
    u.erased m.host w receiver = (u.typed w (receiver.map w.contents)).settle receiver

/-! ## What coherence gives -/

section coherent

variable {m : Member}

theorem Coherent.form (h : m.Coherent) : m.kind.Binds m.binding := by
  cases h with
  | constructor k hk =>
    rw [hk.kind, hk.binding]
    trivial
  | value type a ha =>
    have hvalue := ha.kind
    rw [ha.binding]
    cases hkind : m.kind <;> rw [hkind] at hvalue <;> trivial
  | method result f hf =>
    rw [hf.kind, hf.binding]
    trivial

theorem Coherent.parameters_eq (h : m.Coherent) :
    m.parameters = m.binding.parameters.map StaticType.handle := by
  cases h with
  | constructor k hk =>
    rw [hk.binding]
    exact hk.parameters
  | value type a ha =>
    rw [ha.binding]
    exact ha.parameters
  | method result f hf =>
    rw [hf.binding]
    exact hf.parameters

theorem storage_eq_own_iff : m.storage = .own ↔ m.isStatic = false := by
  unfold storage
  cases m.isStatic <;> simp

theorem storage_eq_shared_iff : m.storage = .shared ↔ m.isStatic = true := by
  unfold storage
  cases m.isStatic <;> simp

theorem Coherent.storage_eq (h : m.Coherent) (hkind : m.kind ≠ .constructor) :
    m.storage = m.binding.storage := by
  unfold storage
  cases h with
  | constructor k hk => exact absurd hk.kind hkind
  | value type a ha =>
    rw [ha.isStatic, ha.binding]
    exact a.location.storage_eq.symm
  | method result f hf =>
    rw [hf.isStatic, hf.binding]
    show _ = f.storage
    cases f.storage <;> rfl

theorem Coherent.offered (h : m.Coherent) :
    m.binding.hasGetter = true ∨ m.binding.hasSetter = true := by
  cases h with
  | constructor k hk => exact .inl (by rw [hk.binding]; rfl)
  | value type a ha =>
    rw [ha.binding]
    exact ha.offered
  | method result f hf => exact .inl (by rw [hf.binding]; rfl)

theorem Coherent.holdsValue_eq (h : m.Coherent) : m.kind.holdsValue = m.binding.holdsValue := by
  cases h with
  | constructor k hk =>
    rw [hk.kind, hk.binding]
    rfl
  | value type a ha =>
    rw [ha.kind, ha.binding]
    rfl
  | method result f hf =>
    rw [hf.kind, hf.binding]
    rfl

theorem Coherent.constructor_iff (h : m.Coherent) :
    m.kind = .constructor ↔ ∃ k, m.binding = .construction k := by
  cases h with
  | constructor k hk => exact iff_of_true hk.kind ⟨k, hk.binding⟩
  | value type a ha =>
    have hvalue := ha.kind
    rw [ha.binding]
    refine iff_of_false (fun hkind => ?_) fun ⟨_, h⟩ => nomatch h
    rw [hkind] at hvalue
    cases hvalue
  | method result f hf =>
    rw [hf.kind, hf.binding]
    exact iff_of_false nofun fun ⟨_, h⟩ => nomatch h

theorem Coherent.compiles (h : m.Coherent) {p : Plan} {shape : TypedShape}
    {bound : Binding → Bool} (hp : p.OnValue shape bound) :
    m.Compiles shape p (m.kind.holdsValue && bound m.binding) := by
  intro role fs policy d served
  have hserved : admission fs policy d p = .ok () ∧ p.ServedBy m.binding ↔ served := by
    rw [hp.servedBy_iff, ← h.holdsValue_eq]
  exact ⟨compile_isOk_iff.trans hserved, (typed_compile_iff hp).trans hserved⟩

/-! ## Receivers -/

theorem erased_without_receiver (u : m.binding.Use) (w : World) :
    u.erased m.host w none = (u.typed w none).settle none :=
  u.erased_eq w nofun

theorem Coherent.runsAlone (h : m.Coherent) (hstorage : m.binding.storage = .shared) :
    m.RunsAlone := by
  intro u w hfit
  rw [h.parameters_eq] at hfit
  rw [erased_without_receiver, u.typed_of_fit w hfit, hstorage]
  exact ⟨rfl, rfl⟩

theorem needsReceiver_of_storage (hstorage : m.binding.storage = .own) : m.NeedsReceiver := by
  intro u w
  rw [erased_without_receiver, u.typed_without_receiver w hstorage]
  exact ⟨rfl, rfl⟩

theorem not_runsAlone_of_needsReceiver (h : m.NeedsReceiver) (u : m.binding.Use)
    (hfit : Arguments.Fit m.parameters u.arguments) : ¬ m.RunsAlone := by
  intro halone
  have hresult := congrArg Effect.result ((h u .empty).1.symm.trans (halone u .empty hfit).1)
  exact u.action_ne_missing .empty World.empty.statics hresult.symm

theorem Coherent.isStatic_iff_runsAlone (h : m.Coherent) (hkind : m.kind ≠ .constructor) :
    m.isStatic = true ↔ m.RunsAlone := by
  have hflag := h.storage_eq hkind
  constructor
  · intro hstatic
    exact h.runsAlone (hflag.symm.trans (storage_eq_shared_iff.2 hstatic))
  · intro halone
    by_contra hstatic
    have hown := storage_eq_own_iff.2 (Bool.eq_false_iff.2 hstatic)
    have hneeds := needsReceiver_of_storage (hflag.symm.trans hown)
    -- one use with arguments that fit would both fail and perform its action
    obtain ⟨u, hfit⟩ := Binding.exists_use (fun k hb => hkind (h.constructor_iff.2 ⟨k, hb⟩))
      h.offered
    rw [← h.parameters_eq] at hfit
    exact not_runsAlone_of_needsReceiver hneeds u hfit halone

end coherent

/-! ## What a registration says -/

namespace RegisteredBy

variable {m : Member} {step : Registration} (h : m.RegisteredBy step)

include h

theorem isReadonly_eq : m.modifiers.isReadonly = (m.kind == .field && !m.binding.hasSetter) := by
  obtain ⟨s, v, -, hm⟩ := h
  rw [hm]
  rfl

theorem readable (hkind : m.kind = .field) : m.binding.hasGetter = true := by
  obtain ⟨s, v, hs, hm⟩ := h
  rw [hm] at hkind ⊢
  cases step <;> cases hs <;> first | rfl | cases hkind

theorem unpacks (hkind : m.kind = .indexer ∨ m.kind = .method) : m.binding.unpacks = true := by
  obtain ⟨s, v, hs, hm⟩ := h
  rw [hm] at hkind ⊢
  cases step <;> cases hs <;> first | rfl | rcases hkind with hkind | hkind <;> cases hkind

theorem faithful : m.Faithful where
  form := h.coherent.form
  getter dispatch index := h.coherent.compiles (.get dispatch index)
  setter dispatch index value := h.coherent.compiles (.set dispatch index value)
  offered _ := h.coherent.offered
  readable := h.readable
  isReadonly := by
    rw [h.isReadonly_eq, Bool.and_eq_true, beq_iff_eq, Bool.not_eq_true']
  canWrite role hrole := by
    unfold Descriptor.canWrite
    rw [hrole, h.isReadonly_eq]
    cases m.binding.hasSetter <;> simp
  isStatic := h.coherent.isStatic_iff_runsAlone
  needsReceiver hkind hinstance :=
    needsReceiver_of_storage
      ((h.coherent.storage_eq hkind).symm.trans (storage_eq_own_iff.2 hinstance))
  parameters := h.coherent.parameters_eq
  builds k hb args := by
    have hparameters : m.parameters = k.parameters.map StaticType.handle := by
      rw [h.coherent.parameters_eq, hb]
      rfl
    rw [hparameters]
    exact ⟨Construction.build_of_fit, Construction.build_of_not_fit⟩
  runs u w own hserved := by
    have hkind : m.kind ≠ .constructor := fun hkind =>
      let ⟨k, hb⟩ := h.coherent.constructor_iff.1 hkind
      u.ne_construction k hb
    have hneeds : m.storage = .own → own ≠ none := fun hown =>
      hserved (storage_eq_own_iff.1 hown)
    rw [h.coherent.storage_eq hkind] at hneeds ⊢
    rw [h.coherent.parameters_eq]
    exact ⟨fun hfit => u.typed_of_fit w hfit own,
      fun hunpacks hfit => u.typed_of_not_fit w (h.unpacks hunpacks) hfit hneeds⟩
  erased u w receiver hhost := u.erased_eq w hhost

end RegisteredBy

end Member

/-! ## All members -/

/-- What metadata says of a registered member is true of its binding, whatever was registered before
and after it. -/
theorem metadata_is_faithful (blocks : List (HostClass × List Registration)) :
    ∀ m ∈ (Registry.ofBlocks blocks).members, m.Faithful := by
  intro m hm
  obtain ⟨block, -, -, step, -, hregistered⟩ := Registry.mem_ofBlocks hm
  exact hregistered.faithful

/-- The sample field can be written, and it is not used without a receiver. -/
theorem metadata_is_faithful_pointX :
    pointX.member ∈ (Registry.ofBlocks pointBlocks).members ∧ pointX.canWrite = true ∧
      pointX.member.NeedsReceiver ∧
      ∃ u : pointX.member.binding.Use, Arguments.Fit pointX.parameters u.arguments ∧
        u.typed pointWorld none = .refused missingReceiver none pointWorld := by
  have hm := over_pointX.registered
  have hfaithful := metadata_is_faithful pointBlocks pointX.member hm
  have hneeds := hfaithful.needsReceiver nofun rfl
  let u : pointX.member.binding.Use := .get (.base .int32) ⟨.slot .own "x", true, true⟩ rfl []
  exact ⟨hm, hfaithful.canWrite .field rfl, hneeds, u, .nil, (hneeds u pointWorld).1⟩

end MemberAccess
