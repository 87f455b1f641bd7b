import MemberAccess.Proofs.Member.Entries

/-!
# Registered members

Every member of a registry comes from a step of some block. What such a step says about the member
agrees with the binding that it gives it, and this is all that the layers above rely on.

* `Member.RegisteredBy`: the member is what a step registers.
* `Registry.mem_ofBlocks`: the members of a registry are registered by steps of its blocks.
* `Member.Coherent`: metadata and binding agree; `Member.RegisteredBy.coherent`.
-/

namespace MemberAccess

/-- The member is what the step registers in the member's class. -/
def Member.RegisteredBy (m : Member) (step : Registration) : Prop :=
  ∃ s v, step.spec? m.host = some s ∧ m = s.member m.id m.host v m.flag

/-! ## Blocks of registrations -/

namespace Registry

theorem members_step (host : HostClass) (p : Progress) (step : Registration) :
    (p.step host step).registry.members = p.registry.members ++
      ((step.spec? host).map (p.registry.added host p.visibility)).toList := by
  cases step with
  | visibility v => exact (List.append_nil _).symm
  | abstractClass =>
    exact (p.registry.members_enter host).trans (List.append_nil _).symm
  | _ => exact p.registry.members_add host p.visibility _

theorem mem_step {host : HostClass} {p : Progress} {step : Registration} {m : Member}
    (hm : m ∈ (p.step host step).registry.members) :
    m ∈ p.registry.members ∨ (m.host = host ∧ m.RegisteredBy step) := by
  rw [members_step, List.mem_append, Option.mem_toList, Option.map_eq_some_iff] at hm
  rcases hm with hm | ⟨s, hs, rfl⟩
  · exact Or.inl hm
  · exact Or.inr ⟨rfl, s, p.visibility, hs, rfl⟩

theorem members_subset_step (host : HostClass) (p : Progress) (step : Registration) :
    p.registry.members ⊆ (p.step host step).registry.members := by
  rw [members_step]
  exact List.subset_append_left _ _

theorem members_subset_describe (r : Registry) (host : HostClass) (steps : List Registration) :
    r.members ⊆ (r.describe host steps).registry.members := by
  refine List.foldlRecOn (motive := fun p : Progress => r.members ⊆ p.registry.members) steps
    (Progress.step host) ?_ fun p hp step _ =>
      List.Subset.trans hp (members_subset_step host p step)
  exact (r.members_enter host).symm ▸ List.Subset.refl _

theorem members_subset_ofBlocks (blocks later : List (HostClass × List Registration)) :
    (ofBlocks blocks).members ⊆ (ofBlocks (blocks ++ later)).members := by
  have happend : ofBlocks (blocks ++ later) =
      later.foldl (fun r block => (r.describe block.1 block.2).registry) (ofBlocks blocks) :=
    List.foldl_append
  rw [happend]
  exact List.foldlRecOn (motive := fun r : Registry => (ofBlocks blocks).members ⊆ r.members) later
    _ (List.Subset.refl _) fun r hr block _ =>
      List.Subset.trans hr (members_subset_describe r block.1 block.2)

theorem mem_describe {r : Registry} {host : HostClass} {steps : List Registration} {m : Member}
    (hm : m ∈ (r.describe host steps).registry.members) :
    m ∈ r.members ∨ (m.host = host ∧ ∃ step ∈ steps, m.RegisteredBy step) := by
  let P : Progress → Prop := fun p =>
    m ∈ p.registry.members → m ∈ r.members ∨ (m.host = host ∧ ∃ step ∈ steps, m.RegisteredBy step)
  have hrun : P (r.describe host steps) := by
    refine List.foldlRecOn (motive := P) steps (Progress.step host) (fun hm => ?_)
      fun p ih step hstep hm => ?_
    · exact .inl (r.members_enter host ▸ hm)
    · rcases mem_step hm with hold | ⟨hhost, hreg⟩
      · exact ih hold
      · exact Or.inr ⟨hhost, step, hstep, hreg⟩
  exact hrun hm

theorem mem_ofBlocks {blocks : List (HostClass × List Registration)} {m : Member}
    (hm : m ∈ (ofBlocks blocks).members) :
    ∃ block ∈ blocks, m.host = block.1 ∧ ∃ step ∈ block.2, m.RegisteredBy step := by
  let P : Registry → Prop := fun r =>
    m ∈ r.members → ∃ block ∈ blocks, m.host = block.1 ∧ ∃ step ∈ block.2, m.RegisteredBy step
  have hrun : P (ofBlocks blocks) := by
    refine List.foldlRecOn (motive := P) blocks _ (fun h => absurd h List.not_mem_nil) ?_
    intro r ih block hblock hm
    rcases mem_describe hm with hold | ⟨hhost, hstep⟩
    · exact ih hold
    · exact ⟨block, hblock, hhost, hstep⟩
  exact hrun hm

end Registry

/-! ## Metadata and binding -/

/-- The types of the index that a location takes. -/
def Location.index : Location → List StaticType
  | .slot _ _ => []
  | .element _ types => types

/-- The location is a slot that static members share. -/
def Location.isShared : Location → Bool
  | .slot .shared _ => true
  | _ => false

namespace Member

/-- The member is a constructor that unpacks the parameters that it declares. -/
structure IsConstructor (m : Member) (k : Construction) : Prop where
  kind : m.kind = .constructor
  binding : m.binding = .construction k
  parameters : m.parameters = k.parameters.map StaticType.handle

/-- The member holds a value of the type that it declares, and it is static iff the value is in a
shared slot. Only indexers declare an index, only fields are read-only, and the value can be read or
written. -/
structure IsAttribute (m : Member) {type : StaticType} (a : Attribute type) : Prop where
  kind : m.kind.holdsValue = true
  binding : m.binding = .value type a
  valueType : m.valueType = type.handle
  parameters : m.parameters = a.location.index.map StaticType.handle
  index : m.kind ≠ .indexer → a.location.index = []
  isStatic : m.isStatic = a.location.isShared
  isReadonly : m.modifiers.isReadonly = (m.kind == .field && !a.hasSetter)
  offered : a.hasGetter = true ∨ a.hasSetter = true

/-- The member is a method that unpacks the parameters that it declares, and it is static iff it
works on the shared slots. A failure is reported under the member's name or not at all. -/
structure IsMethod (m : Member) {result : StaticType} (f : Method result) : Prop where
  kind : m.kind = .method
  binding : m.binding = .method result f
  valueType : m.valueType = result.handle
  parameters : m.parameters = f.parameters.map StaticType.handle
  isStatic : m.isStatic = (f.storage == .shared)
  reportsAs : ∀ name, f.reportsAs = some name → name = m.qualifiedName

/-- Metadata and binding agree. -/
inductive Coherent (m : Member) : Prop where
  | constructor (k : Construction) (h : m.IsConstructor k)
  | value (type : StaticType) (a : Attribute type) (h : m.IsAttribute a)
  | method (result : StaticType) (f : Method result) (h : m.IsMethod f)

theorem RegisteredBy.coherent {m : Member} {step : Registration} (h : m.RegisteredBy step) :
    m.Coherent := by
  obtain ⟨s, v, hs, hm⟩ := h
  generalize m.host = host at hs hm
  generalize m.id = id at hm
  generalize m.flag = flag at hm
  subst hm
  cases step with
  | visibility | abstractClass => cases hs
  | constructor parameters slots =>
    cases hs
    exact .constructor ⟨parameters, slots⟩ ⟨rfl, rfl, rfl⟩
  | field | readonlyField | staticField | staticReadonlyField | property | readonlyProperty
  | staticProperty | staticReadonlyProperty =>
    cases hs
    exact .value _ _ ⟨rfl, rfl, rfl, rfl, fun _ => rfl, rfl, rfl, .inl rfl⟩
  | writeonlyProperty =>
    cases hs
    exact .value _ _ ⟨rfl, rfl, rfl, rfl, fun _ => rfl, rfl, rfl, .inr rfl⟩
  | indexer | readonlyIndexer =>
    cases hs
    exact .value _ _ ⟨rfl, rfl, rfl, rfl, fun h => absurd rfl h, rfl, rfl, .inl rfl⟩
  | method | staticMethod =>
    cases hs
    exact .method _ _ ⟨rfl, rfl, rfl, rfl, rfl, fun _ h => nomatch h⟩
  | tryMethod =>
    cases hs
    exact .method _ _ ⟨rfl, rfl, rfl, rfl, rfl, fun _ h => (Option.some.inj h).symm⟩

/-- A method that reports its failures was registered as one that may fail. -/
theorem RegisteredBy.tryMethod {m : Member} {step : Registration} (h : m.RegisteredBy step)
    {result : StaticType} {f : Method result} (hf : m.binding = .method result f) {name : String}
    (hname : f.reportsAs = some name) :
    ∃ base, step = .tryMethod base f.parameters result f.body ∧ f.storage = .own := by
  obtain ⟨s, v, hs, hm⟩ := h
  generalize m.host = host at hs hm
  generalize m.id = id at hm
  generalize m.flag = flag at hm
  subst hm
  cases step with
  | tryMethod base =>
    cases hs
    cases hf
    exact ⟨base, rfl, rfl⟩
  | method | staticMethod =>
    cases hs
    cases hf
    cases hname
  | _ =>
    cases hs
    try cases hf

theorem coherent_of_mem {blocks : List (HostClass × List Registration)} {m : Member}
    (hm : m ∈ (Registry.ofBlocks blocks).members) : m.Coherent := by
  obtain ⟨_, _, _, _, _, hreg⟩ := Registry.mem_ofBlocks hm
  exact hreg.coherent

end Member

end MemberAccess
