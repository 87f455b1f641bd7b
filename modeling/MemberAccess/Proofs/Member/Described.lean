import MemberAccess.Plan.Basic
import MemberAccess.Proofs.Member.Registered

/-!
# Descriptors over registered members

A descriptor is made over a registered member in a role that the member's kind has. Together with
the coherence of the member this leaves four forms of descriptor, and for each of them the plans of
the operations that it offers are known.

* `Descriptor.Over`: the descriptors over a registry, and the two ways to make one.
* `Descriptor.Form`: the four forms; `Descriptor.Over.form`.
* `Descriptor.plan_construct` and its like: the plans.
* `Descriptor.Planned`: all plans that there are; `Descriptor.planned_of_plan`.
-/

namespace MemberAccess

/-- The descriptor is made over a member of the registry. -/
structure Descriptor.Over (d : Descriptor) (r : Registry) : Prop where
  registered : d.member ∈ r.members
  made : Descriptor.new (some d.member) d.role = .ok d

namespace Descriptor

/-! ## Making a descriptor -/

theorem new_some_eq_ok_iff {m : Member} {role : Role} {d : Descriptor} :
    new (some m) role = .ok d ↔
      m.kind = role.memberKind ∧ ¬ (role = .indexed ∧ m.parameters = []) ∧ d = ⟨role, m⟩ := by
  unfold new
  by_cases hk : m.kind = role.memberKind
  · by_cases hi : role = .indexed ∧ m.parameters = []
    · simp [hk, hi]
    · simp [hk, hi, eq_comm]
  · simp [hk]

theorem over_new {r : Registry} {m : Member} {role : Role} {d : Descriptor} (hm : m ∈ r.members)
    (hd : new (some m) role = .ok d) : d.Over r := by
  obtain ⟨-, -, rfl⟩ := new_some_eq_ok_iff.1 hd
  exact ⟨hm, hd⟩

theorem over_resolve {r : Registry} {host : HostClass} {name : String} {role : Role}
    {d : Descriptor} (hd : resolve r host name role = .ok d) : d.Over r := by
  unfold resolve at hd
  split at hd
  · rename_i m hfind
    refine over_new ?_ hd
    have hnamed : m ∈ r.named host name := List.mem_of_find?_eq_some hfind
    unfold Registry.named at hnamed
    split at hnamed
    · obtain ⟨id, -, hid⟩ := List.mem_filterMap.1 hnamed
      exact List.mem_of_getElem? hid
    · cases hnamed
  · cases hd

namespace Over

variable {d : Descriptor} {r : Registry}

theorem kind (h : d.Over r) : d.member.kind = d.role.memberKind := (new_some_eq_ok_iff.1 h.made).1

theorem mono {r' : Registry} (h : d.Over r) (hsub : r.members ⊆ r'.members) : d.Over r' :=
  ⟨hsub h.registered, h.made⟩

/-- The flag of the member in a descriptor is that of the class, also after later blocks. -/
theorem load_flag {blocks : List (HostClass × List Registration)}
    (h : d.Over (Registry.ofBlocks blocks)) (later : List (HostClass × List Registration)) :
    (Registry.ofBlocks (blocks ++ later)).flags.load d.member.flag =
      (Registry.ofBlocks (blocks ++ later)).isAbstract d.host :=
  (Registry.flagged_ofBlocks _).load_member
    (Registry.members_subset_ofBlocks blocks later h.registered)

end Over

/-! ## Forms -/

/-- The four forms of a descriptor: a role with a binding that serves it. -/
inductive Form (d : Descriptor) : Prop where
  | constructor (k : Construction) (hk : d.member.IsConstructor k) (hrole : d.role = .constructor)
  | reconstructor (k : Construction) (hk : d.member.IsConstructor k)
      (hrole : d.role = .reconstructor)
  | value (type : StaticType) (a : Attribute type) (ha : d.member.IsAttribute a)
      (hrole : d.role.holdsValue = true) (hindex : d.role ≠ .indexed → a.location.index = [])
  | method (result : StaticType) (f : Method result) (hf : d.member.IsMethod f)
      (hrole : d.role = .method)

theorem form_of_coherent {d : Descriptor} (hm : d.member.Coherent)
    (hkind : d.member.kind = d.role.memberKind) : d.Form := by
  cases hm with
  | constructor k hk =>
    rw [hk.kind] at hkind
    cases hrole : d.role with
    | constructor => exact .constructor k hk hrole
    | reconstructor => exact .reconstructor k hk hrole
    | _ => rw [hrole] at hkind; cases hkind
  | value type a ha =>
    have hvalue := ha.kind
    rw [hkind] at hvalue
    refine .value type a ha ?_ fun hne => ha.index ?_
    · cases hrole : d.role <;> rw [hrole] at hvalue <;> first | rfl | cases hvalue
    · rw [hkind]
      cases hrole : d.role <;> simp_all [Role.memberKind]
  | method result f hf =>
    rw [hf.kind] at hkind
    cases hrole : d.role with
    | method => exact .method result f hf hrole
    | _ => rw [hrole] at hkind; cases hkind

theorem Over.form {d : Descriptor} {blocks : List (HostClass × List Registration)}
    (h : d.Over (Registry.ofBlocks blocks)) : d.Form :=
  form_of_coherent (Member.coherent_of_mem h.registered) h.kind

/-! ## What is offered -/

theorem holdsValue_of_canRead {d : Descriptor} (hread : d.canRead = true) :
    d.role.holdsValue = true :=
  (Bool.and_eq_true_iff.1 hread).1

theorem holdsValue_of_canWrite {d : Descriptor} (hwrite : d.canWrite = true) :
    d.role.holdsValue = true :=
  (Bool.and_eq_true_iff.1 (Bool.and_eq_true_iff.1 hwrite).1).1

theorem role_ne_of_holdsValue {d : Descriptor} (hrole : d.role.holdsValue = true) :
    d.role ≠ .constructor := by
  intro h
  rw [h] at hrole
  cases hrole

theorem Form.construction {d : Descriptor} (h : d.Form) (hrole : d.role = .constructor) :
    ∃ k, d.member.IsConstructor k := by
  cases h with
  | constructor k hk => exact ⟨k, hk⟩
  | reconstructor k hk => exact ⟨k, hk⟩
  | value _ _ _ hvalue => exact absurd hrole (role_ne_of_holdsValue hvalue)
  | method _ _ _ hmethod => cases hrole.symm.trans hmethod

section value

variable {d : Descriptor} {type : StaticType} {a : Attribute type}

theorem canRead_eq (ha : d.member.IsAttribute a) (hrole : d.role.holdsValue = true) :
    d.canRead = a.hasGetter := by
  rw [canRead, hrole, ha.binding, Bool.true_and]
  rfl

theorem canWrite_eq (ha : d.member.IsAttribute a) (hrole : d.role.holdsValue = true) :
    d.canWrite = a.hasSetter := by
  rw [canWrite, hrole, ha.binding, ha.isReadonly, Bool.true_and]
  show (a.hasSetter && !(d.member.kind == .field && !a.hasSetter)) = a.hasSetter
  cases a.hasSetter <;> simp

theorem isStatic_eq_of_value (ha : d.member.IsAttribute a) (hrole : d.role.holdsValue = true) :
    d.isStatic = a.location.isShared := by
  rw [← ha.isStatic]
  unfold isStatic
  cases h : d.role <;> rw [h] at hrole <;> first | rfl | cases hrole

end value

theorem isStatic_eq_of_method {d : Descriptor} {result : StaticType} {f : Method result}
    (hf : d.member.IsMethod f) (hrole : d.role = .method) :
    d.isStatic = (f.storage == .shared) := by
  rw [← hf.isStatic]
  unfold isStatic
  rw [hrole]

theorem dispatch_eq (d : Descriptor) :
    d.dispatch = .static ∧ d.isStatic = true ∨
      d.dispatch = .onInstance d.host ∧ d.isStatic = false := by
  unfold dispatch
  cases d.isStatic with
  | true => exact Or.inl ⟨rfl, rfl⟩
  | false => exact Or.inr ⟨rfl, rfl⟩

theorem isStatic_of_dispatch {d : Descriptor} (h : d.dispatch = .static) : d.isStatic = true := by
  rcases d.dispatch_eq with ⟨-, hstatic⟩ | ⟨hinstance, -⟩
  · exact hstatic
  · cases hinstance.symm.trans h

theorem host_of_dispatch {d : Descriptor} {host : HostClass} (h : d.dispatch = .onInstance host) :
    d.host = host := by
  rcases d.dispatch_eq with ⟨hstatic, -⟩ | ⟨hinstance, -⟩
  · cases hstatic.symm.trans h
  · exact Dispatch.onInstance.inj (hinstance.symm.trans h)

theorem dispatch_of_reconstructor {d : Descriptor} (hrole : d.role = .reconstructor) :
    d.dispatch = .onInstance d.host := by
  rw [dispatch, isStatic, hrole]
  rfl

/-! ## Plans -/

def argumentPlan (d : Descriptor) : ArgumentPlan := .ofParameters d.parameters

section plans

variable {d : Descriptor} (surface : Surface) (policy : CastPolicy)

theorem plan_construct (hrole : d.role = .constructor) :
    d.plan surface policy .construct = .ok (.construct d.argumentPlan) := by
  unfold plan
  rw [hrole]
  rfl

theorem plan_reconstruct (hrole : d.role = .reconstructor) :
    d.plan surface policy .invoke = .ok (.reconstruct d.host d.argumentPlan) := by
  unfold plan
  rw [hrole]
  rfl

theorem plan_invoke (hrole : d.role = .method) :
    d.plan surface policy .invoke = .ok (.invoke d.dispatch d.argumentPlan) := by
  unfold plan
  rw [hrole]
  rfl

theorem plan_get (hread : d.canRead = true) :
    d.plan surface policy .get = .ok (.get d.dispatch d.argumentPlan) := by
  unfold plan
  cases d.role <;> exact if_pos hread

theorem plan_set (hwrite : d.canWrite = true) :
    d.plan surface policy .set =
      .ok (.set d.dispatch d.argumentPlan (d.valueSlot surface policy)) := by
  unfold plan
  cases d.role <;> exact if_pos hwrite

end plans

/-- The plans that there are for a descriptor, and for which operations. -/
inductive Planned (d : Descriptor) (surface : Surface) (policy : CastPolicy) :
    Operation → Plan → Prop where
  | construct (operation : Operation) (hrole : d.role = .constructor)
      (hoperation : operation = .construct ∨ operation = .invoke) :
      Planned d surface policy operation (.construct d.argumentPlan)
  | reconstruct (operation : Operation) (hrole : d.role = .reconstructor)
      (hoperation : operation = .construct ∨ operation = .invoke) :
      Planned d surface policy operation (.reconstruct d.host d.argumentPlan)
  | invoke (hrole : d.role = .method) :
      Planned d surface policy .invoke (.invoke d.dispatch d.argumentPlan)
  | get (hread : d.canRead = true) :
      Planned d surface policy .get (.get d.dispatch d.argumentPlan)
  | set (hwrite : d.canWrite = true) :
      Planned d surface policy .set
        (.set d.dispatch d.argumentPlan (d.valueSlot surface policy))

section planned

variable {d : Descriptor} {surface : Surface} {policy : CastPolicy} {operation : Operation}
  {p : Plan} (h : d.plan surface policy operation = .ok p)

include h

theorem planned_of_plan : d.Planned surface policy operation p := by
  unfold plan at h
  dsimp only at h
  split at h
  · cases h
    exact .construct _ ‹_› (.inl rfl)
  · cases h
    exact .construct _ ‹_› (.inr rfl)
  · cases h
    exact .reconstruct _ ‹_› (.inl rfl)
  · cases h
    exact .reconstruct _ ‹_› (.inr rfl)
  · cases h
    exact .invoke ‹_›
  · split at h <;> cases h
    exact .get ‹_›
  · split at h <;> cases h
    exact .set ‹_›
  · cases h

theorem slots_of_plan :
    p.arguments = d.argumentPlan ∧ ∀ slot ∈ p.value?, slot = d.valueSlot surface policy := by
  cases planned_of_plan h with
  | set hwrite => exact ⟨rfl, fun slot hslot => (Option.some.inj hslot).symm⟩
  | _ => exact ⟨rfl, nofun⟩

end planned

end Descriptor

/-! ## A sample -/

/-- A class with one field. -/
def pointClass : HostClass := ⟨0, "geometry::Point"⟩

/-- Its registration: the field can be written. -/
def pointBlocks : List (HostClass × List Registration) :=
  [(pointClass, [.field "x" (.base .int32) "x"])]

/-- The descriptor over the field. -/
def pointX : Descriptor :=
  ⟨.field, (MemberSpec.ofAttribute "x" .field [] false
    (⟨.slot .own "x", true, true⟩ : Attribute (.base .int32))).member ⟨0⟩ pointClass .public ⟨0⟩⟩

def pointWorld : World := ⟨[⟨pointClass, .empty⟩], .empty⟩

def pointRef : ObjectRef := ⟨0, pointClass⟩

theorem over_pointX : pointX.Over (Registry.ofBlocks pointBlocks) := ⟨List.mem_cons_self, rfl⟩

end MemberAccess
