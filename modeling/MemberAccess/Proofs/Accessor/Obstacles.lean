import MemberAccess.Proofs.Accessor.Allocation

/-!
# What stands in the way of a build

A build plans, admits and binds one operation after the other. What can stand in its way is known
from the descriptor, the class and the policy alone: the descriptor has another role, an instance
of an abstract class would be allocated, or an operation needs permissions that are not in force.
The plan and the binding are never at fault.

* `Descriptor.operations`, `Descriptor.obstacle`: what a build compiles, and the first thing in the
  way of it.
* `Descriptor.PermittedBy`: the permissions that a build needs, flag by flag.
* `Accessor.stopsAt_build`: a build fails with its obstacle, or succeeds if there is none.
* `accessor_built_unless_obstructed`: which untyped accessors are built.
-/

namespace MemberAccess

/-! ## Flags -/

namespace Permission

variable {granted : Permission} (onPrivate : Bool)

theorem required_get :
    required .get onPrivate = if onPrivate then readPrivate else readPublic := by
  cases onPrivate <;> rfl

theorem required_set :
    required .set onPrivate = if onPrivate then writePrivate else writePublic := by
  cases onPrivate <;> rfl

theorem required_invoke :
    required .invoke onPrivate = if onPrivate then invokePrivate else invokePublic := by
  cases onPrivate <;> rfl

theorem contains_required_construct_iff {onPrivate : Bool} :
    granted.contains (required .construct onPrivate) = true ↔
      granted.contains construction = true ∧
        (onPrivate = true → granted.contains invokePrivate = true) := by
  cases onPrivate with
  | false => simp [required]
  | true => simp [required, contains_union_iff]

end Permission

/-! ## Obstacles -/

namespace Descriptor

variable (d : Descriptor)

/-- The operations that an accessor compiles, in their order. -/
def operations : List Operation :=
  match d.role with
  | .constructor | .reconstructor => [.construct]
  | .method => [.invoke]
  | _ => (if d.canRead then [.get] else []) ++ (if d.canWrite then [.set] else [])

/-- The descriptor has another role than the accessor serves. -/
def wrongRole (role : Role) : Option AccessError :=
  if d.role = role then none else some (.invalidMember (.otherRole d.qualifiedName d.role))

/-- An instance of a class would be allocated whose flag is set. -/
def abstractHost (fs : Flags) : Option AccessError :=
  if d.role = .constructor ∧ fs.load d.member.flag = true then
    some (d.refusal (.abstractClass d.host))
  else none

/-- The permissions are not what the operation needs. -/
def denial (granted : Permission) (operation : Operation) : Option AccessError :=
  let required := Permission.required operation d.isPrivate
  if granted.contains required then none
  else some (d.refusal (.denied operation d.isPrivate required d.host granted))

/-- The permissions that a policy puts in force for the descriptor's class. -/
def granted (policy : Policy) : Permission := policy.resolve d.member.declaringType

/-- The first thing in the way of compiling operations for a role. -/
def obstacle (fs : Flags) (policy : Policy) (role : Role) (operations : List Operation) :
    Option AccessError :=
  (d.wrongRole role).or
    ((d.abstractHost fs).or (operations.findSome? (d.denial (d.granted policy))))

/-- The permissions have every flag that the descriptor's operations need: one of two by the
visibility of the member, and for a private constructor both. -/
structure PermittedBy (granted : Permission) : Prop where
  read : d.canRead = true →
    granted.contains (if d.isPrivate then .readPrivate else .readPublic) = true
  write : d.canWrite = true →
    granted.contains (if d.isPrivate then .writePrivate else .writePublic) = true
  invoke : d.role = .method →
    granted.contains (if d.isPrivate then .invokePrivate else .invokePublic) = true
  construct : d.role.memberKind = .constructor → granted.contains .construction = true
  constructPrivate : d.role.memberKind = .constructor → d.isPrivate = true →
    granted.contains .invokePrivate = true

variable {d}

theorem wrongRole_eq_none_iff {role : Role} : d.wrongRole role = none ↔ d.role = role := by
  unfold wrongRole
  split <;> simp_all

theorem abstractHost_eq_none_iff {fs : Flags} :
    d.abstractHost fs = none ↔ ¬ (d.role = .constructor ∧ fs.load d.member.flag = true) := by
  unfold abstractHost
  split <;> simp_all

theorem abstractHost_of_ne {fs : Flags} (h : d.role ≠ .constructor) : d.abstractHost fs = none :=
  abstractHost_eq_none_iff.2 fun hboth => h hboth.1

theorem denial_eq_none_iff {granted : Permission} {operation : Operation} :
    d.denial granted operation = none ↔
      granted.contains (.required operation d.isPrivate) = true := by
  unfold denial
  dsimp only
  split <;> simp_all

/-! ### Operations of a role -/

theorem construct_mem_operations_iff :
    .construct ∈ d.operations ↔ d.role.memberKind = .constructor := by
  unfold operations
  cases d.role <;> simp [Role.memberKind]

theorem invoke_mem_operations_iff : .invoke ∈ d.operations ↔ d.role = .method := by
  unfold operations
  cases d.role <;> simp

theorem get_mem_operations_iff : .get ∈ d.operations ↔ d.canRead = true := by
  unfold operations
  cases hrole : d.role <;> simp [canRead, hrole, Role.holdsValue]

theorem set_mem_operations_iff : .set ∈ d.operations ↔ d.canWrite = true := by
  unfold operations
  cases hrole : d.role <;> simp [canWrite, hrole, Role.holdsValue]

theorem operations_of_constructor (hrole : d.role.memberKind = .constructor) :
    d.operations = [.construct] := by
  unfold operations
  cases h : d.role <;> rw [h] at hrole <;> first | rfl | cases hrole

theorem operations_of_method (hrole : d.role = .method) : d.operations = [.invoke] := by
  rw [operations, hrole]

theorem operations_of_holdsValue (hrole : d.role.holdsValue = true) :
    d.operations = (if d.canRead then [.get] else []) ++ if d.canWrite then [.set] else [] := by
  unfold operations
  cases h : d.role <;> rw [h] at hrole <;> first | rfl | cases hrole

theorem permittedBy_iff {granted : Permission} :
    d.PermittedBy granted ↔ d.operations.findSome? (d.denial granted) = none := by
  rw [List.findSome?_eq_none_iff]
  simp only [denial_eq_none_iff]
  constructor
  · intro h operation hmem
    cases operation with
    | get =>
      rw [Permission.required_get]
      exact h.read (get_mem_operations_iff.1 hmem)
    | set =>
      rw [Permission.required_set]
      exact h.write (set_mem_operations_iff.1 hmem)
    | invoke =>
      rw [Permission.required_invoke]
      exact h.invoke (invoke_mem_operations_iff.1 hmem)
    | construct =>
      have hkind := construct_mem_operations_iff.1 hmem
      exact Permission.contains_required_construct_iff.2
        ⟨h.construct hkind, h.constructPrivate hkind⟩
  · intro h
    have hconstruct (hkind : d.role.memberKind = .constructor) :=
      Permission.contains_required_construct_iff.1
        (h .construct (construct_mem_operations_iff.2 hkind))
    refine ⟨fun hread => ?_, fun hwrite => ?_, fun hrole => ?_, fun hkind => (hconstruct hkind).1,
      fun hkind => (hconstruct hkind).2⟩
    · rw [← Permission.required_get]
      exact h .get (get_mem_operations_iff.2 hread)
    · rw [← Permission.required_set]
      exact h .set (set_mem_operations_iff.2 hwrite)
    · rw [← Permission.required_invoke]
      exact h .invoke (invoke_mem_operations_iff.2 hrole)

theorem PermittedBy.mono {granted granted' : Permission} (h : d.PermittedBy granted)
    (hmore : granted'.contains granted = true) : d.PermittedBy granted' := by
  have htrans {p : Permission} (hp : granted.contains p = true) : granted'.contains p = true :=
    Permission.contains_trans hmore hp
  exact ⟨fun hread => htrans (h.read hread), fun hwrite => htrans (h.write hwrite),
    fun hrole => htrans (h.invoke hrole), fun hkind => htrans (h.construct hkind),
    fun hkind hprivate => htrans (h.constructPrivate hkind hprivate)⟩

theorem obstacle_cases {fs : Flags} {policy : Policy} {role : Role}
    {operations : List Operation} {e : AccessError}
    (h : d.obstacle fs policy role operations = some e) :
    e = .invalidMember (.otherRole d.qualifiedName d.role) ∨
      e = d.refusal (.abstractClass d.host) ∨
      ∃ operation ∈ operations, e = d.refusal (.denied operation d.isPrivate
        (.required operation d.isPrivate) d.host (d.granted policy)) := by
  unfold obstacle at h
  rcases Option.or_eq_some_iff.1 h with hrole | ⟨-, h⟩
  · left
    unfold wrongRole at hrole
    split at hrole <;> simp_all
  rcases Option.or_eq_some_iff.1 h with habstract | ⟨-, h⟩
  · right
    left
    unfold abstractHost at habstract
    split at habstract <;> simp_all
  · right
    right
    obtain ⟨operation, hmem, hdenial⟩ := List.exists_of_findSome?_eq_some h
    refine ⟨operation, hmem, ?_⟩
    unfold denial at hdenial
    dsimp only at hdenial
    split at hdenial <;> simp_all

end Descriptor

/-! ## Admission -/

section admission

variable {d : Descriptor} (fs : Flags) (policy : Policy)

theorem stopsAt_check (operation : Operation) :
    StopsAt (policy.check d operation) (d.denial (d.granted policy) operation) := by
  rw [Policy.check_eq]
  unfold Descriptor.denial Descriptor.granted
  dsimp only
  split
  · exact ⟨(), rfl⟩
  · exact rfl

/-- A descriptor's own plan is admitted unless it allocates or is denied: it never has another
arity. -/
theorem stopsAt_admission (hkind : d.member.kind = d.role.memberKind) {surface : Surface}
    {cast : CastPolicy} {operation : Operation} {p : Plan}
    (hp : d.plan surface cast operation = .ok p) :
    StopsAt (admission fs policy d p)
      ((d.abstractHost fs).or (d.denial (d.granted policy) p.operation)) := by
  have harity : ¬ p.arguments.arity ≠ d.arity := by
    rw [(Descriptor.slots_of_plan hp).1]
    exact fun hne => hne (ArgumentPlan.arity_ofParameters d.parameters)
  -- of the descriptor's plans only that of an allocating constructor allocates
  have habstract : (p.allocates = true ∧ d.member.isAbstract fs = true) ↔
      (d.role = .constructor ∧ fs.load d.member.flag = true) := by
    rw [Descriptor.allocates_iff hp]
    refine and_congr_right fun hrole => ?_
    rw [Member.isAbstract, hkind, hrole]
    exact Iff.rfl
  unfold admission Descriptor.abstractHost
  rw [if_neg harity]
  by_cases h : d.role = .constructor ∧ fs.load d.member.flag = true
  · rw [if_pos h, if_pos (habstract.2 h)]
    exact rfl
  · rw [if_neg h, if_neg fun hboth => h (habstract.1 hboth)]
    exact stopsAt_check policy p.operation

end admission

/-! ## Untyped builds -/

theorem ValueAccessor.build_eq (fs : Flags) (o : Options) (d : Descriptor) :
    ValueAccessor.build fs o d = compileIf d.canRead fs o d .get >>= fun getter =>
      (compileIf d.canWrite fs o d .set).map fun setter => ⟨d, getter, setter⟩ := by
  unfold build
  cases compileIf d.canRead fs o d .get with
  | error e => rfl
  | ok getter => cases compileIf d.canWrite fs o d .set <;> rfl

section untyped

variable {d : Descriptor} (fs : Flags) (o : Options)
  (hkind : d.member.kind = d.role.memberKind)

include hkind

section value

variable {type : StaticType} {a : Attribute type} (ha : d.member.IsAttribute a)
  (hrole : d.role.holdsValue = true)

include ha hrole

theorem stopsAt_getter : StopsAt (compileIf d.canRead fs o d .get)
    ((if d.canRead then [.get] else []).findSome? (d.denial (d.granted o.policy))) := by
  rw [Accessor.compileIf_get fs o ha hrole]
  by_cases hread : d.canRead = true
  · have hadmission := stopsAt_admission fs o.policy hkind (d.plan_get .untyped o.castPolicy hread)
    rw [Descriptor.abstractHost_of_ne (Descriptor.role_ne_of_holdsValue hrole)] at hadmission
    rw [if_pos hread, if_pos (Descriptor.canRead_eq ha hrole ▸ hread), List.findSome?_singleton]
    exact hadmission.map _
  · rw [if_neg hread, if_neg (Descriptor.canRead_eq ha hrole ▸ hread)]
    exact ⟨none, rfl⟩

theorem stopsAt_setter : StopsAt (compileIf d.canWrite fs o d .set)
    ((if d.canWrite then [.set] else []).findSome? (d.denial (d.granted o.policy))) := by
  rw [Accessor.compileIf_set fs o ha hrole]
  by_cases hwrite : d.canWrite = true
  · have hadmission := stopsAt_admission fs o.policy hkind (d.plan_set .untyped o.castPolicy hwrite)
    rw [Descriptor.abstractHost_of_ne (Descriptor.role_ne_of_holdsValue hrole)] at hadmission
    rw [if_pos hwrite, if_pos (Descriptor.canWrite_eq ha hrole ▸ hwrite), List.findSome?_singleton]
    exact hadmission.map _
  · rw [if_neg hwrite, if_neg (Descriptor.canWrite_eq ha hrole ▸ hwrite)]
    exact ⟨none, rfl⟩

end value

theorem Accessor.stopsAt_build_own (hform : d.Form) :
    StopsAt (Accessor.build fs o d.role d)
      ((d.abstractHost fs).or (d.operations.findSome? (d.denial (d.granted o.policy)))) := by
  cases hform with
  | constructor k hk hrole =>
    have hplan := d.plan_construct .untyped o.castPolicy hrole
    have hrole' : d.role.memberKind = .constructor := by rw [hrole]; rfl
    rw [build_constructor fs o hk hrole, Descriptor.operations_of_constructor hrole',
      List.findSome?_singleton]
    exact (stopsAt_admission fs o.policy hkind hplan).map _
  | reconstructor k hk hrole =>
    have hplan := d.plan_reconstruct .untyped o.castPolicy hrole
    have hrole' : d.role.memberKind = .constructor := by rw [hrole]; rfl
    rw [build_reconstructor fs o hk hrole, Descriptor.operations_of_constructor hrole',
      List.findSome?_singleton]
    exact (stopsAt_admission fs o.policy hkind hplan).map _
  | method result f hf hrole =>
    have hplan := d.plan_invoke .untyped o.castPolicy hrole
    rw [build_method fs o hf hrole, Descriptor.operations_of_method hrole,
      List.findSome?_singleton]
    exact (stopsAt_admission fs o.policy hkind hplan).map _
  | value type a ha hrole hindex =>
    have hbuild : StopsAt (ValueAccessor.build fs o d)
        (d.operations.findSome? (d.denial (d.granted o.policy))) := by
      rw [ValueAccessor.build_eq, Descriptor.operations_of_holdsValue hrole,
        List.findSome?_append]
      exact (stopsAt_getter fs o hkind ha hrole).bind fun getter _ =>
        (stopsAt_setter fs o hkind ha hrole).map _
    rw [Descriptor.abstractHost_of_ne (Descriptor.role_ne_of_holdsValue hrole), Option.none_or]
    unfold Accessor.build
    rw [Descriptor.expectRole_eq_ok_iff.2 rfl, hrole]
    exact hbuild.map _

/-- A build fails with the first thing in its way, and succeeds if there is none. -/
theorem Accessor.stopsAt_build (hform : d.Form) (role : Role) :
    StopsAt (Accessor.build fs o role d) (d.obstacle fs o.policy role d.operations) := by
  unfold Descriptor.obstacle Descriptor.wrongRole
  by_cases hrole : d.role = role
  · subst hrole
    rw [if_pos rfl, Option.none_or]
    exact stopsAt_build_own fs o hkind hform
  · rw [if_neg hrole]
    unfold Accessor.build Descriptor.expectRole
    rw [if_neg hrole]
    exact rfl

end untyped

/-! ## Which accessors are built -/

theorem Descriptor.obstacle_eq_none_iff {d : Descriptor} {fs : Flags} {policy : Policy}
    {role : Role} : d.obstacle fs policy role d.operations = none ↔
      d.role = role ∧ ¬ (d.role = .constructor ∧ fs.load d.member.flag = true) ∧
        d.PermittedBy (d.granted policy) := by
  rw [obstacle, Option.or_eq_none_iff, Option.or_eq_none_iff, wrongRole_eq_none_iff,
    abstractHost_eq_none_iff, permittedBy_iff]

/-- An untyped accessor is built exactly for the role of the descriptor, if it does not allocate
instances of a class that is abstract now, and if the permissions in force for the class have every
flag that the operations need. Else the build fails with the first obstacle: the role, the class,
then the operations in their order. The arity and the form of a plan are never the reason. So more
permissions for every type never turn a success into a failure. That the class is abstract is asked
of the flag of the member in the descriptor, which says so also of marks from after the descriptor
was made. -/
theorem accessor_built_unless_obstructed {blocks : List (HostClass × List Registration)}
    {d : Descriptor} (hd : d.Over (Registry.ofBlocks blocks)) (fs : Flags) (o : Options)
    (role : Role) :
    ((∃ a, Accessor.build fs o role d = .ok a) ↔
      d.role = role ∧ ¬ (d.role = .constructor ∧ fs.load d.member.flag = true) ∧
        d.PermittedBy (o.policy.resolve d.member.declaringType)) ∧
    (∀ e, Accessor.build fs o role d = .error e ↔
      d.obstacle fs o.policy role d.operations = some e) ∧
    (∀ e, Accessor.build fs o role d = .error e →
      (∀ planned declared, e ≠ d.refusal (.arity planned declared)) ∧
        ∀ operation role', e ≠ d.refusal (.unfit operation role')) ∧
    (∀ o' : Options, (∀ t, (o'.policy.resolve t).contains (o.policy.resolve t) = true) →
      (∃ a, Accessor.build fs o role d = .ok a) → ∃ a, Accessor.build fs o' role d = .ok a) ∧
    ∀ later, (Registry.ofBlocks (blocks ++ later)).flags.load d.member.flag =
      (Registry.ofBlocks (blocks ++ later)).isAbstract d.host := by
  have hstops (o : Options) := Accessor.stopsAt_build fs o hd.kind hd.form role
  refine ⟨?_, fun e => (hstops o).eq_error_iff, fun e he => ?_, fun o' hmore hbuilt => ?_,
    hd.load_flag⟩
  · rw [(hstops o).exists_ok_iff, Descriptor.obstacle_eq_none_iff]
    exact Iff.rfl
  · rcases Descriptor.obstacle_cases ((hstops o).eq_error_iff.1 he) with
      rfl | rfl | ⟨operation, -, rfl⟩
    · exact ⟨nofun, nofun⟩
    · exact ⟨nofun, nofun⟩
    · exact ⟨nofun, nofun⟩
  · rw [(hstops o).exists_ok_iff, Descriptor.obstacle_eq_none_iff] at hbuilt
    rw [(hstops o').exists_ok_iff, Descriptor.obstacle_eq_none_iff]
    obtain ⟨hrole, habstract, hpermitted⟩ := hbuilt
    exact ⟨hrole, habstract, hpermitted.mono (hmore d.member.declaringType)⟩

/-- The field of the sample class is read and written, so that permissions to read alone leave no
accessor; those for public members give one, and so do all permissions. -/
theorem accessor_built_unless_obstructed_pointX :
    Accessor.build .empty ⟨.withGlobal .readAll, .fail⟩ .field pointX =
      .error (pointX.refusal (.denied .set false .writePublic pointClass .readAll)) ∧
    (∃ a, Accessor.build .empty ⟨.withGlobal .publicOnly, .fail⟩ .field pointX = .ok a) ∧
    ∃ a, Accessor.build .empty .standard .field pointX = .ok a := by
  obtain ⟨-, hrefused, -⟩ :=
    accessor_built_unless_obstructed over_pointX .empty ⟨.withGlobal .readAll, .fail⟩ .field
  obtain ⟨hbuilt, -, -, hmore, -⟩ :=
    accessor_built_unless_obstructed over_pointX .empty ⟨.withGlobal .publicOnly, .fail⟩ .field
  have hpublic := hbuilt.2 ⟨rfl, nofun, fun _ => rfl, fun _ => rfl, nofun, nofun, nofun⟩
  refine ⟨(hrefused _).2 rfl, hpublic, hmore .standard (fun t => ?_) hpublic⟩
  exact Permission.all_contains _

end MemberAccess
