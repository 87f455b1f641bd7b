import MemberAccess.Proofs.Call.Fitting
import MemberAccess.Proofs.Call.Writes
import MemberAccess.Proofs.Permission.Decision

/-!
# Confinement by a policy

A policy is asked once, when an operation is compiled, for the class of the member. An operation
that is compiled for a member of a class writes in cells of that class only, whatever plan it was
compiled from. So if a policy lets the members of a class be read and nothing else, then nothing
that was compiled or built under it ever writes in an instance of the class.

* `Policy.Confines`: the policy lets a class be read only; `Policy.Confines.operation_eq_get`.
* `Thunk.Spares`, `TypedThunk.Spares`: operations that do not write in a class;
  `Thunk.spares_of_compile`, `TypedThunk.spares_of_compile`.
* `Callable.Spares`: what has been compiled or built, and that its calls spare the class.
-/

namespace MemberAccess

/-! ## Policies -/

/-- The permission has none of the flags for writing, calling and construction. -/
def Permission.ReadsOnly (p : Permission) : Prop :=
  ∀ flag ∈ [writePublic, writePrivate, invokePublic, invokePrivate, construction],
    p.contains flag = false

instance (p : Permission) : Decidable p.ReadsOnly :=
  inferInstanceAs (Decidable (∀ flag ∈ _, _))

theorem Permission.ReadsOnly.operation_eq_get {p : Permission} (hp : p.ReadsOnly)
    {operation : Operation} {onPrivate : Bool}
    (h : p.contains (required operation onPrivate) = true) : operation = .get := by
  have hnone : ∀ flag ∈ [writePublic, writePrivate, invokePublic, invokePrivate, construction],
      p.contains flag ≠ true := fun flag hflag => Bool.eq_false_iff.1 (hp flag hflag)
  cases operation with
  | get => rfl
  | set => cases onPrivate <;> exact absurd h (hnone _ (by simp [required]))
  | invoke => cases onPrivate <;> exact absurd h (hnone _ (by simp [required]))
  | construct =>
    cases onPrivate with
    | false => exact absurd h (hnone _ (by simp [required]))
    | true => exact absurd (contains_union_iff.1 h).1 (hnone _ (by simp))

namespace Policy

variable {policy : Policy}

/-- The policy lets the members of the class be read and nothing else. -/
def Confines (policy : Policy) (c : HostClass) : Prop :=
  (policy.resolve (.ofHost c)).ReadsOnly

theorem Confines.operation_eq_get {d : Descriptor} (hc : policy.Confines d.host)
    {operation : Operation} (h : policy.check d operation = .ok ()) : operation = .get :=
  Permission.ReadsOnly.operation_eq_get hc (check_eq_ok_iff.1 h)

end Policy

/-! ## Compiled operations -/

section compiled

variable {fs : Flags} {policy : Policy} {d : Descriptor} {plan : Plan} {c : HostClass}

theorem Policy.Confines.plan_reads (hc : policy.Confines d.host)
    (h : admission fs policy d plan = .ok ()) : plan.operation = .get :=
  hc.operation_eq_get (admission_eq_ok_iff.1 h).2.2

theorem admission_of_compile {t : Thunk} (h : compile fs policy d plan = .ok t) :
    admission fs policy d plan = .ok () :=
  (compile_isOk_iff.1 ⟨t, h⟩).1

/-- The operation is none of the class, or it reads. -/
def Thunk.Spares (t : Thunk) (c : HostClass) : Prop := t.host = c → t.shape = .read

theorem Thunk.host_of_bind {member : String} {host : HostClass} {b : Binding} {t : Thunk}
    (h : Thunk.bind? member host plan b = some t) :
    t.host = host ∧ (plan.operation = .get → t.shape = .read) := by
  cases bound_of_bind h with
  | read => exact ⟨rfl, fun _ => rfl⟩
  | _ => exact ⟨rfl, nofun⟩

/-- What is compiled under a policy spares the classes that the policy confines. -/
theorem Thunk.spares_of_compile (hc : policy.Confines c) {t : Thunk}
    (h : compile fs policy d plan = .ok t) : t.Spares c := by
  obtain ⟨hhost, hshape⟩ := host_of_bind (bind_of_compile h)
  rintro rfl
  rw [hhost] at hc
  exact hshape (hc.plan_reads (admission_of_compile h))

def TypedThunk.reads : TypedThunk → Bool
  | read _ _ _ => true
  | _ => false

/-- The operation is none of the class, or it reads. -/
def TypedThunk.Spares (t : TypedThunk) (c : HostClass) : Prop := t.host = c → t.reads = true

theorem TypedThunk.admission_of_compile {shape : TypedShape} {host : HostClass} {type : StaticType}
    {t : TypedThunk} (h : TypedThunk.compile fs policy d plan shape host type = .ok t) :
    admission fs policy d plan = .ok () := by
  cases hadmitted : admission fs policy d plan with
  | ok x => rfl
  | error e =>
    cases shape <;>
      simp [TypedThunk.compile, compileConstruct, compileReconstruct, compileGet, compileSet,
        compileInvoke, hadmitted, Except.map] at h

theorem TypedThunk.host_of_compile {shape : TypedShape} {host : HostClass} {type : StaticType}
    {t : TypedThunk} (h : TypedThunk.compile fs policy d plan shape host type = .ok t) :
    t.host = d.host ∧ (plan.operation = .get → t.reads = true) := by
  cases shape with
  | construct =>
    obtain ⟨t, ht, rfl⟩ := map_eq_ok_iff.1 h
    obtain ⟨arguments, k, rfl, -, hhost, -⟩ := compileConstruct_eq_ok ht
    exact ⟨hhost.symm, nofun⟩
  | reconstruct =>
    obtain ⟨t, ht, rfl⟩ := map_eq_ok_iff.1 h
    obtain ⟨declaring, arguments, k, rfl, -, hhost, -⟩ := compileReconstruct_eq_ok ht
    exact ⟨hhost.symm, nofun⟩
  | get =>
    obtain ⟨t, ht, rfl⟩ := map_eq_ok_iff.1 h
    obtain ⟨dispatch, index, a, rfl, -, hhost, -⟩ := compileGet_eq_ok ht
    exact ⟨hhost.symm, fun _ => rfl⟩
  | set =>
    obtain ⟨t, ht, rfl⟩ := map_eq_ok_iff.1 h
    obtain ⟨dispatch, index, value, a, rfl, -, hhost, -⟩ := compileSet_eq_ok ht
    exact ⟨hhost.symm, nofun⟩
  | invoke =>
    obtain ⟨t, ht, rfl⟩ := map_eq_ok_iff.1 h
    obtain ⟨dispatch, arguments, f, rfl, -, hhost, -⟩ := compileInvoke_eq_ok ht
    exact ⟨hhost.symm, nofun⟩

theorem TypedThunk.spares_of_compile (hc : policy.Confines c) {shape : TypedShape}
    {host : HostClass} {type : StaticType} {t : TypedThunk}
    (h : TypedThunk.compile fs policy d plan shape host type = .ok t) : t.Spares c := by
  obtain ⟨hhost, hreads⟩ := host_of_compile h
  rintro rfl
  rw [hhost] at hc
  exact hreads (hc.plan_reads (admission_of_compile h))

end compiled

/-! ## Accessors -/

section built

variable {fs : Flags} {o : Options} {d : Descriptor} {role : Role}

theorem compile_of_compileUntyped {operation : Operation} {t : Thunk}
    (h : compileUntyped fs o d operation = .ok t) : ∃ plan, compile fs o.policy d plan = .ok t := by
  unfold compileUntyped at h
  split at h
  · cases h
  · rename_i plan _
    exact ⟨plan, h⟩

theorem compile_of_compileIf {offered : Bool} {operation : Operation} {t : Thunk}
    (h : compileIf offered fs o d operation = .ok (some t)) :
    ∃ plan, compile fs o.policy d plan = .ok t :=
  compile_of_compileUntyped (compileUntyped_of_compileIf h)

theorem Accessor.compile_of_operation {a : Accessor} (ha : Accessor.build fs o role d = .ok a)
    {q : Request} {p : Thunk × Request} (hp : a.operation? q = some p) :
    ∃ plan, compile fs o.policy d plan = .ok p.1 := by
  rcases eq_of_build fs o ha with ⟨-, t, rfl, ht⟩ | ⟨-, getter, setter, rfl, hgetter, hsetter⟩
  · cases q with
    | invoke target args =>
      simp only [operation?] at hp
      split at hp <;> cases hp <;> exact compile_of_compileUntyped ht
    | _ => cases hp
  · cases q with
    | get target index =>
      obtain ⟨t, rfl, rfl⟩ := Option.map_eq_some_iff.1 hp
      exact compile_of_compileIf hgetter
    | set target index v =>
      obtain ⟨t, rfl, rfl⟩ := Option.map_eq_some_iff.1 hp
      exact compile_of_compileIf hsetter
    | _ => cases hp

variable {host : HostClass} {type : StaticType}

theorem TypedValueAccessor.compile_of_compileGetIf {t : TypedRead type}
    (h : compileGetIf fs o d host type = .ok (some t)) :
    ∃ plan, TypedThunk.compile fs o.policy d plan .get host type = .ok (.read host type t) := by
  unfold compileGetIf at h
  split at h
  · obtain ⟨plan, -, hcompile⟩ := bind_eq_ok_iff.1 h
    obtain ⟨t', ht, hsome⟩ := bind_eq_ok_iff.1 hcompile
    obtain rfl := Option.some.inj (Except.ok.inj hsome)
    exact ⟨plan, map_eq_ok_iff.2 ⟨t', ht, rfl⟩⟩
  · cases h

theorem TypedValueAccessor.compile_of_compileSetIf {t : TypedWrite type}
    (h : compileSetIf fs o d host type = .ok (some t)) :
    ∃ plan, TypedThunk.compile fs o.policy d plan .set host type = .ok (.write host type t) := by
  unfold compileSetIf at h
  split at h
  · obtain ⟨plan, -, hcompile⟩ := bind_eq_ok_iff.1 h
    obtain ⟨t', ht, hsome⟩ := bind_eq_ok_iff.1 hcompile
    obtain rfl := Option.some.inj (Except.ok.inj hsome)
    exact ⟨plan, map_eq_ok_iff.2 ⟨t', ht, rfl⟩⟩
  · cases h

theorem TypedValueAccessor.compile_of_operation {a : TypedValueAccessor type}
    (ha : TypedValueAccessor.build fs o role host type d = .ok a) {q : TypedRequest type}
    {p : (t : TypedThunk) × TypedRequest t.type}
    (hp : (TypedAccessor.value host type a).operation? q = some p) :
    ∃ plan shape, TypedThunk.compile fs o.policy d plan shape host type = .ok p.1 := by
  rw [TypedValueAccessor.build_eq] at ha
  simp only [bind_eq_ok_iff] at ha
  obtain ⟨-, -, getter, hgetter, setter, hsetter, hret⟩ := ha
  obtain rfl := Except.ok.inj hret
  cases q with
  | invoke args => cases hp
  | get index =>
    obtain ⟨t, rfl, rfl⟩ := Option.map_eq_some_iff.1 hp
    obtain ⟨plan, hplan⟩ := compile_of_compileGetIf hgetter
    exact ⟨plan, .get, hplan⟩
  | set index x =>
    obtain ⟨t, rfl, rfl⟩ := Option.map_eq_some_iff.1 hp
    obtain ⟨plan, hplan⟩ := compile_of_compileSetIf hsetter
    exact ⟨plan, .set, hplan⟩

theorem TypedAccessor.compile_of_operation {a : TypedAccessor}
    (ha : TypedAccessor.build fs o role host type d = .ok a) {q : TypedRequest a.type}
    {p : (t : TypedThunk) × TypedRequest t.type} (hp : a.operation? q = some p) :
    ∃ plan shape, TypedThunk.compile fs o.policy d plan shape host type = .ok p.1 := by
  cases role with
  | constructor =>
    obtain ⟨a, hbuild, rfl⟩ := map_eq_ok_iff.1 ha
    simp only [TypedConstructorAccessor.build, bind_eq_ok_iff] at hbuild
    obtain ⟨-, -, plan, -, t, ht, hret⟩ := hbuild
    obtain rfl := Except.ok.inj hret
    obtain rfl := Option.some.inj hp
    exact ⟨plan, .construct, map_eq_ok_iff.2 ⟨t, ht, rfl⟩⟩
  | reconstructor =>
    obtain ⟨a, hbuild, rfl⟩ := map_eq_ok_iff.1 ha
    simp only [TypedReconstructorAccessor.build, bind_eq_ok_iff] at hbuild
    obtain ⟨-, -, plan, -, t, ht, hret⟩ := hbuild
    obtain rfl := Except.ok.inj hret
    obtain rfl := Option.some.inj hp
    exact ⟨plan, .reconstruct, map_eq_ok_iff.2 ⟨t, ht, rfl⟩⟩
  | method =>
    obtain ⟨a, hbuild, rfl⟩ := map_eq_ok_iff.1 ha
    simp only [TypedMethodAccessor.build, bind_eq_ok_iff] at hbuild
    obtain ⟨-, -, plan, -, t, ht, hret⟩ := hbuild
    obtain rfl := Except.ok.inj hret
    obtain rfl := Option.some.inj hp
    exact ⟨plan, .invoke, map_eq_ok_iff.2 ⟨t, ht, rfl⟩⟩
  | _ =>
    obtain ⟨a, hbuild, rfl⟩ := map_eq_ok_iff.1 ha
    exact TypedValueAccessor.compile_of_operation hbuild hp

end built

/-! ## Calls -/

/-- What has been compiled or built. -/
inductive Callable where
  | thunk (t : Thunk)
  | accessor (a : Accessor)
  | typedThunk (t : TypedThunk)
  | typedAccessor (a : TypedAccessor)

/-- The calls do not write in cells of the class. -/
def Callable.Spares (c : HostClass) : Callable → Prop
  | thunk t => t.Spares c
  | accessor a => ∀ q p, a.operation? q = some p → p.1.Spares c
  | typedThunk t => t.Spares c
  | typedAccessor a => ∀ q p, a.operation? q = some p → p.1.Spares c

def TypedAccessor.host : TypedAccessor → HostClass
  | constructor host _ | reconstructor host _ | method host _ _ | value host _ _ => host

namespace Call

def callable : Call → Callable
  | thunk t _ => .thunk t
  | accessor a _ => .accessor a
  | typedThunk t _ _ => .typedThunk t
  | typedAccessor a _ _ => .typedAccessor a

/-- The target, if it is an object, is one that the world holds, and a typed one is of the class
that the operation is typed with. -/
def Valid (w : World) : Call → Prop
  | thunk _ q | accessor _ q => ∀ o, q.target = .object o → w.Holds o
  | typedThunk t target _ => ∀ o, target = .object o → w.Holds o ∧ o.host = t.host
  | typedAccessor a target _ => ∀ o, target = .object o → w.Holds o ∧ o.host = a.host

end Call

theorem Accessor.target_of_operation {a : Accessor} {q : Request} {p : Thunk × Request}
    (hp : a.operation? q = some p) {o : ObjectRef} (ho : p.2.target = .object o) :
    q.target = .object o := by
  unfold operation? at hp
  split at hp
  · split at hp
    · cases hp
      cases ho
    · cases hp
      exact ho
  · obtain ⟨t, -, rfl⟩ := Option.map_eq_some_iff.1 hp
    exact ho
  · obtain ⟨t, -, rfl⟩ := Option.map_eq_some_iff.1 hp
    exact ho
  · cases hp

theorem TypedAccessor.host_of_operation {a : TypedAccessor} {q : TypedRequest a.type}
    {p : (t : TypedThunk) × TypedRequest t.type} (hp : a.operation? q = some p) :
    p.1.host = a.host := by
  cases a with
  | value host type a =>
    cases q with
    | invoke args => cases hp
    | get index =>
      obtain ⟨t, -, rfl⟩ := Option.map_eq_some_iff.1 hp
      rfl
    | set index x =>
      obtain ⟨t, -, rfl⟩ := Option.map_eq_some_iff.1 hp
      rfl
  | _ =>
    obtain rfl := Option.some.inj hp
    rfl

section calls

variable {w : World} {c : HostClass} {i : Nat} {s : Slots} (hcell : w.cells[i]? = some ⟨c, s⟩)

include hcell

theorem World.Holds.host_eq {o : ObjectRef} (ho : w.Holds o) (hi : o.cell = i) : o.host = c := by
  obtain ⟨s', hs'⟩ := ho
  rw [hi, hcell] at hs'
  exact (congrArg Cell.host (Option.some.inj hs')).symm

theorem Thunk.Spares.not_writes {t : Thunk} (ht : t.Spares c) {q : Request}
    (hq : ∀ o, q.target = .object o → w.Holds o) (name : String) :
    ¬ t.Writes w q (.cell i name) := by
  rintro ⟨-, ⟨o, ho, hi⟩, hname⟩
  have htarget : q.target = .object o ∧ o.host = t.host := Value.eq_of_instanceOf ho
  have hshape := ht (htarget.2.symm.trans ((hq o htarget.1).host_eq hcell hi))
  cases t with
  | read => cases q <;> exact hname
  | _ => cases hshape

theorem TypedThunk.Spares.not_writes {t : TypedThunk} (ht : t.Spares c) {target : TypedTarget}
    (htarget : ∀ o, target = .object o → w.Holds o ∧ o.host = t.host) (q : TypedRequest t.type)
    (name : String) : ¬ t.Writes w target q (.cell i name) := by
  rintro ⟨-, ⟨o, ho, hi⟩, hname⟩
  have hobject : target = .object o := by
    cases target with
    | object o' => rw [Option.some.inj ho]
    | _ => cases ho
  obtain ⟨hheld, hhost⟩ := htarget o hobject
  have hreads := ht (hhost.symm.trans (hheld.host_eq hcell hi))
  cases t with
  | read => cases q <;> exact hname
  | _ => cases hreads

theorem Call.cell_eq_of_spares {call : Call} (hspares : call.callable.Spares c)
    (hvalid : call.Valid w) : (call.after w).cells[i]? = some ⟨c, s⟩ := by
  refine (call.within w).cell_eq hcell fun name => ?_
  cases call with
  | thunk t q => exact Thunk.Spares.not_writes hcell hspares hvalid name
  | typedThunk t target q => exact TypedThunk.Spares.not_writes hcell hspares hvalid q name
  | accessor a q =>
    rintro ⟨p, hp, hwrites⟩
    refine Thunk.Spares.not_writes hcell (hspares q p hp) (fun o ho => ?_) name hwrites
    exact hvalid o (a.target_of_operation hp ho)
  | typedAccessor a target q =>
    rintro ⟨p, hp, hwrites⟩
    refine TypedThunk.Spares.not_writes hcell (hspares q p hp) (fun o ho => ?_) p.2 name hwrites
    rw [a.host_of_operation hp]
    exact hvalid o ho

end calls

end MemberAccess
