import MemberAccess.Proofs.Accessor.Obstacles

/-!
# Static types and typed builds

A typed accessor is built for a class and a static type. For those that the member was registered
with, the build meets the same obstacles as the untyped one. For others it does not get past its
first operation: that operation is admitted before the types are compared.

* `Descriptor.HasStaticTypes`: the class and the type are those of the registration.
* `Descriptor.otherTypes`: the error of any others; `Descriptor.stopsAt_attributeFor` and its like.
* `TypedAccessor.stopsAt_build`: in a typed build every operation is admitted, then its types are
  compared.
* `typed_builds_follow_untyped`: which typed accessors are built.
-/

namespace MemberAccess

/-! ## Registered types -/

/-- The type of the value or of the result that a step registers; a constructor has neither. -/
def Registration.valueType? : Registration → Option StaticType
  | visibility _ | abstractClass | constructor _ _ => none
  | field _ type _ | readonlyField _ type _ | staticField _ type _ | staticReadonlyField _ type _
  | property _ type _ | readonlyProperty _ type _ | writeonlyProperty _ type _
  | staticProperty _ type _ | staticReadonlyProperty _ type _
  | indexer _ _ type _ | readonlyIndexer _ _ type _ => some type
  | method _ _ result _ | tryMethod _ _ result _ | staticMethod _ _ result _ => some result

namespace Binding

def valueType? : Binding → Option StaticType
  | construction _ => none
  | value type _ => some type
  | method result _ => some result

/-- How a binding of the same form is named for a class and a type. -/
def nameFor (host : HostClass) (type : StaticType) : Binding → String
  | construction _ => host.path
  | value _ _ => type.name ++ " on " ++ host.path
  | method _ _ => "fn(&mut " ++ host.path ++ ", ..) -> " ++ type.name

end Binding

theorem Member.RegisteredBy.valueType?_eq {m : Member} {step : Registration}
    (h : m.RegisteredBy step) : m.binding.valueType? = step.valueType? := by
  obtain ⟨s, v, hs, hm⟩ := h
  rw [hm]
  cases step <;> cases hs <;> rfl

namespace Descriptor

/-- The member was registered with these: its class, and the type of its value or its result. -/
def HasStaticTypes (d : Descriptor) (host : HostClass) (type : StaticType) : Prop :=
  d.host = host ∧ ∃ step, d.member.RegisteredBy step ∧ ∀ t ∈ step.valueType?, t = type

/-- The member was registered with another class or another type. -/
def otherTypes (d : Descriptor) (host : HostClass) (type : StaticType) : Option AccessError :=
  if d.host = host ∧ ∀ t ∈ d.member.binding.valueType?, t = type then none
  else some (.invalidMember (.otherType d.qualifiedName (d.member.binding.nameFor host type)))

variable {d : Descriptor} {host : HostClass} {type : StaticType}

theorem Over.registeredBy {blocks : List (HostClass × List Registration)}
    (h : d.Over (Registry.ofBlocks blocks)) : ∃ step, d.member.RegisteredBy step := by
  obtain ⟨_, _, _, step, _, hstep⟩ := Registry.mem_ofBlocks h.registered
  exact ⟨step, hstep⟩

theorem otherTypes_eq_none_iff (h : ∃ step, d.member.RegisteredBy step) :
    d.otherTypes host type = none ↔ d.HasStaticTypes host type := by
  have htypes : (∀ t ∈ d.member.binding.valueType?, t = type) ↔
      ∃ step, d.member.RegisteredBy step ∧ ∀ t ∈ step.valueType?, t = type := by
    constructor
    · intro htype
      obtain ⟨step, hstep⟩ := h
      exact ⟨step, hstep, hstep.valueType?_eq ▸ htype⟩
    · rintro ⟨step, hstep, htype⟩
      exact hstep.valueType?_eq ▸ htype
  rw [HasStaticTypes, ← htypes, otherTypes]
  split <;> simp_all

/-- A type is not its optional type, and neither are the members that are registered with them:
not even where the runtime type is the same. -/
theorem HasStaticTypes.not_optional (h : d.HasStaticTypes host type) {t : StaticType}
    (hvalue : d.member.binding.valueType? = some t) : ¬ d.HasStaticTypes host (.optional type) := by
  rintro ⟨-, step, hstep, hoptional⟩
  obtain ⟨-, step', hstep', htype⟩ := h
  have ht : t = type := htype t (hstep'.valueType?_eq ▸ hvalue)
  have ht' : t = .optional type := hoptional t (hstep.valueType?_eq ▸ hvalue)
  have hsize := congrArg sizeOf (ht.symm.trans ht')
  simp at hsize

example : (StaticType.optional (.base .any)).handle = (StaticType.base .any).handle := rfl

/-! ## The binding behind a descriptor -/

theorem stopsAt_constructionFor {k : Construction} (hb : d.member.binding = .construction k) :
    StopsAt (d.constructionFor host) (d.otherTypes host type) := by
  unfold constructionFor otherTypes
  rw [hb]
  by_cases hhost : d.host = host
  · rw [if_pos ⟨hhost, nofun⟩]
    exact ⟨k, if_pos hhost⟩
  · rw [if_neg fun h => hhost h.1]
    exact if_neg hhost

theorem stopsAt_attributeFor {type' : StaticType} {a : Attribute type'}
    (hb : d.member.binding = .value type' a) :
    StopsAt (d.attributeFor host type) (d.otherTypes host type) := by
  unfold attributeFor otherTypes
  rw [hb]
  by_cases htype : type' = type
  · subst htype
    by_cases hhost : d.host = host
    · rw [if_pos ⟨hhost, fun t ht => (Option.mem_some_iff.1 ht).symm⟩]
      exact ⟨a, by simp [hhost]⟩
    · rw [if_neg fun h => hhost h.1]
      simp [StopsAt, hhost, otherType, Binding.nameFor]
  · rw [if_neg fun h => htype (h.2 type' rfl)]
    simp [StopsAt, htype, otherType, Binding.nameFor]

theorem stopsAt_methodFor {result : StaticType} {f : Method result}
    (hb : d.member.binding = .method result f) :
    StopsAt (d.methodFor host type) (d.otherTypes host type) := by
  unfold methodFor otherTypes
  rw [hb]
  by_cases htype : result = type
  · subst htype
    by_cases hhost : d.host = host
    · rw [if_pos ⟨hhost, fun t ht => (Option.mem_some_iff.1 ht).symm⟩]
      exact ⟨f, by simp [hhost]⟩
    · rw [if_neg fun h => hhost h.1]
      simp [StopsAt, hhost, otherType, Binding.nameFor]
  · rw [if_neg fun h => htype (h.2 result rfl)]
    simp [StopsAt, htype, otherType, Binding.nameFor]

/-- What is asked of an operation of a typed build: to be granted, and to have the types. -/
def typedFault (d : Descriptor) (policy : Policy) (host : HostClass) (type : StaticType)
    (operation : Operation) : Option AccessError :=
  (d.denial (d.granted policy) operation).or (d.otherTypes host type)

end Descriptor

/-! ## Typed operations -/

section compiled

variable {d : Descriptor} (fs : Flags) (o : Options) (hkind : d.member.kind = d.role.memberKind)
  (host : HostClass) (type : StaticType)

include hkind

theorem stopsAt_compiled {α β : Type} {operation : Operation} {p : Plan}
    (hplan : d.plan .typed o.castPolicy operation = .ok p) {found : Except AccessError α}
    (hfound : StopsAt found (d.otherTypes host type)) (made : α → β) :
    StopsAt (admission fs o.policy d p >>= fun _ => found.map made)
      ((d.abstractHost fs).or (d.typedFault o.policy host type p.operation)) := by
  rw [Descriptor.typedFault, ← Option.or_assoc]
  exact (stopsAt_admission fs o.policy hkind hplan).bind fun _ _ => hfound.map made

theorem stopsAt_compileConstruct {k : Construction} (hb : d.member.binding = .construction k)
    (hrole : d.role = .constructor) :
    StopsAt (compileConstruct fs o.policy d (.construct d.argumentPlan) host)
      ((d.abstractHost fs).or (d.typedFault o.policy host type .construct)) := by
  have hsteps : compileConstruct fs o.policy d (.construct d.argumentPlan) host =
      admission fs o.policy d (.construct d.argumentPlan) >>= fun _ =>
        (d.constructionFor host).map fun k => ⟨d.qualifiedName, d.argumentPlan, k⟩ := by
    unfold compileConstruct
    cases admission fs o.policy d (.construct d.argumentPlan) with
    | error e => rfl
    | ok _ => cases d.constructionFor host <;> rfl
  have hplan := d.plan_construct .typed o.castPolicy hrole
  have hfound : StopsAt (d.constructionFor host) (d.otherTypes host type) :=
    Descriptor.stopsAt_constructionFor hb
  rw [hsteps]
  exact stopsAt_compiled fs o hkind host type hplan hfound _

theorem stopsAt_compileReconstruct {k : Construction} (hb : d.member.binding = .construction k)
    (hrole : d.role = .reconstructor) :
    StopsAt (compileReconstruct fs o.policy d (.reconstruct d.host d.argumentPlan) host)
      ((d.abstractHost fs).or (d.typedFault o.policy host type .construct)) := by
  have hsteps : compileReconstruct fs o.policy d (.reconstruct d.host d.argumentPlan) host =
      admission fs o.policy d (.reconstruct d.host d.argumentPlan) >>= fun _ =>
        (d.constructionFor host).map fun k => ⟨d.qualifiedName, d.argumentPlan, k⟩ := by
    unfold compileReconstruct
    cases admission fs o.policy d (.reconstruct d.host d.argumentPlan) with
    | error e => rfl
    | ok _ => cases d.constructionFor host <;> rfl
  have hplan := d.plan_reconstruct .typed o.castPolicy hrole
  have hfound : StopsAt (d.constructionFor host) (d.otherTypes host type) :=
    Descriptor.stopsAt_constructionFor hb
  rw [hsteps]
  exact stopsAt_compiled fs o hkind host type hplan hfound _

theorem stopsAt_compileInvoke {result : StaticType} {f : Method result}
    (hb : d.member.binding = .method result f) (hrole : d.role = .method) :
    StopsAt (compileInvoke fs o.policy d (.invoke d.dispatch d.argumentPlan) host type)
      ((d.abstractHost fs).or (d.typedFault o.policy host type .invoke)) := by
  have hsteps : compileInvoke fs o.policy d (.invoke d.dispatch d.argumentPlan) host type =
      admission fs o.policy d (.invoke d.dispatch d.argumentPlan) >>= fun _ =>
        (d.methodFor host type).map fun f => ⟨d.qualifiedName, d.dispatch, d.argumentPlan, f⟩ := by
    unfold compileInvoke
    cases admission fs o.policy d (.invoke d.dispatch d.argumentPlan) with
    | error e => rfl
    | ok _ => cases d.methodFor host type <;> rfl
  have hplan := d.plan_invoke .typed o.castPolicy hrole
  have hfound : StopsAt (d.methodFor host type) (d.otherTypes host type) :=
    Descriptor.stopsAt_methodFor hb
  rw [hsteps]
  exact stopsAt_compiled fs o hkind host type hplan hfound _

section value

variable {type' : StaticType} {a : Attribute type'} (hb : d.member.binding = .value type' a)

include hb

theorem stopsAt_compileGet (hread : d.canRead = true) :
    StopsAt (compileGet fs o.policy d (.get d.dispatch d.argumentPlan) host type)
      ((d.abstractHost fs).or (d.typedFault o.policy host type .get)) := by
  have hgetter {b : Attribute type} (hfound : d.attributeFor host type = .ok b) :
      b.hasGetter = true := by
    rw [Descriptor.canRead, (Descriptor.attributeFor_eq_ok hfound).1] at hread
    exact (Bool.and_eq_true_iff.1 hread).2
  have hsteps : compileGet fs o.policy d (.get d.dispatch d.argumentPlan) host type =
      admission fs o.policy d (.get d.dispatch d.argumentPlan) >>= fun _ =>
        (d.attributeFor host type).map fun b =>
          ⟨d.qualifiedName, d.dispatch, d.argumentPlan, b⟩ := by
    unfold compileGet
    cases admission fs o.policy d (.get d.dispatch d.argumentPlan) with
    | error e => rfl
    | ok _ =>
      cases hfound : d.attributeFor host type with
      | error e => rfl
      | ok b =>
        dsimp only
        rw [hgetter hfound]
        rfl
  have hplan := d.plan_get .typed o.castPolicy hread
  have hfound : StopsAt (d.attributeFor host type) (d.otherTypes host type) :=
    Descriptor.stopsAt_attributeFor hb
  rw [hsteps]
  exact stopsAt_compiled fs o hkind host type hplan hfound _

theorem stopsAt_compileSet (hwrite : d.canWrite = true) :
    StopsAt (compileSet fs o.policy d
        (.set d.dispatch d.argumentPlan (d.valueSlot .typed o.castPolicy)) host type)
      ((d.abstractHost fs).or (d.typedFault o.policy host type .set)) := by
  have hsetter {b : Attribute type} (hfound : d.attributeFor host type = .ok b) :
      b.hasSetter = true := by
    rw [Descriptor.canWrite, (Descriptor.attributeFor_eq_ok hfound).1] at hwrite
    exact (Bool.and_eq_true_iff.1 (Bool.and_eq_true_iff.1 hwrite).1).2
  have hsteps : compileSet fs o.policy d
      (.set d.dispatch d.argumentPlan (d.valueSlot .typed o.castPolicy)) host type =
      admission fs o.policy d
        (.set d.dispatch d.argumentPlan (d.valueSlot .typed o.castPolicy)) >>= fun _ =>
        (d.attributeFor host type).map fun b =>
          ⟨d.qualifiedName, d.dispatch, d.argumentPlan, b⟩ := by
    unfold compileSet
    cases admission fs o.policy d
      (.set d.dispatch d.argumentPlan (d.valueSlot .typed o.castPolicy)) with
    | error e => rfl
    | ok _ =>
      cases hfound : d.attributeFor host type with
      | error e => rfl
      | ok b =>
        dsimp only
        rw [hsetter hfound]
        rfl
  have hplan := d.plan_set .typed o.castPolicy hwrite
  have hfound : StopsAt (d.attributeFor host type) (d.otherTypes host type) :=
    Descriptor.stopsAt_attributeFor hb
  rw [hsteps]
  exact stopsAt_compiled fs o hkind host type hplan hfound _

namespace TypedValueAccessor

theorem stopsAt_compileGetIf : StopsAt (compileGetIf fs o d host type)
    ((if d.canRead then [.get] else []).findSome? (d.typedFault o.policy host type)) := by
  unfold compileGetIf
  by_cases hread : d.canRead = true
  · have hcompile := stopsAt_compileGet fs o hkind host type hb hread
    have hrole := Descriptor.role_ne_of_holdsValue (Descriptor.holdsValue_of_canRead hread)
    rw [Descriptor.abstractHost_of_ne hrole, Option.none_or] at hcompile
    rw [if_pos hread, if_pos hread, List.findSome?_singleton, Descriptor.planTyped,
      d.plan_get .typed o.castPolicy hread]
    exact hcompile.map some
  · rw [if_neg hread, if_neg hread]
    exact ⟨none, rfl⟩

theorem stopsAt_compileSetIf : StopsAt (compileSetIf fs o d host type)
    ((if d.canWrite then [.set] else []).findSome? (d.typedFault o.policy host type)) := by
  unfold compileSetIf
  by_cases hwrite : d.canWrite = true
  · have hcompile := stopsAt_compileSet fs o hkind host type hb hwrite
    have hrole := Descriptor.role_ne_of_holdsValue (Descriptor.holdsValue_of_canWrite hwrite)
    rw [Descriptor.abstractHost_of_ne hrole, Option.none_or] at hcompile
    rw [if_pos hwrite, if_pos hwrite, List.findSome?_singleton, Descriptor.planTyped,
      d.plan_set .typed o.castPolicy hwrite]
    exact hcompile.map some
  · rw [if_neg hwrite, if_neg hwrite]
    exact ⟨none, rfl⟩

end TypedValueAccessor

end value

/-! ## Typed builds -/

omit hkind in
theorem TypedAccessor.build_of_holdsValue {role : Role} (hrole : role.holdsValue = true) :
    TypedAccessor.build fs o role host type d =
      (TypedValueAccessor.build fs o role host type d).map (value host type) := by
  cases role <;> first | rfl | cases hrole

theorem TypedAccessor.stopsAt_build_own (hform : d.Form) :
    StopsAt (TypedAccessor.build fs o d.role host type d)
      ((d.abstractHost fs).or (d.operations.findSome? (d.typedFault o.policy host type))) := by
  have hexpect : d.expectRole d.role = .ok () := Descriptor.expectRole_eq_ok_iff.2 rfl
  cases hform with
  | constructor k hk hrole =>
    have hcompile := stopsAt_compileConstruct fs o hkind host type hk.binding hrole
    have hkind' : d.role.memberKind = .constructor := by rw [hrole]; rfl
    rw [Descriptor.operations_of_constructor hkind', List.findSome?_singleton]
    rw [hrole] at hexpect ⊢
    unfold TypedAccessor.build TypedConstructorAccessor.build Descriptor.planTyped
    rw [hexpect, d.plan_construct .typed o.castPolicy hrole]
    exact (hcompile.map fun t => ⟨d, t⟩).map (TypedAccessor.constructor host)
  | reconstructor k hk hrole =>
    have hcompile := stopsAt_compileReconstruct fs o hkind host type hk.binding hrole
    have hkind' : d.role.memberKind = .constructor := by rw [hrole]; rfl
    rw [Descriptor.operations_of_constructor hkind', List.findSome?_singleton]
    rw [hrole] at hexpect ⊢
    unfold TypedAccessor.build TypedReconstructorAccessor.build Descriptor.planTyped
    rw [hexpect, d.plan_reconstruct .typed o.castPolicy hrole]
    exact (hcompile.map fun t => ⟨d, t⟩).map (TypedAccessor.reconstructor host)
  | method result f hf hrole =>
    have hcompile := stopsAt_compileInvoke fs o hkind host type hf.binding hrole
    rw [Descriptor.operations_of_method hrole, List.findSome?_singleton]
    rw [hrole] at hexpect ⊢
    unfold TypedAccessor.build TypedMethodAccessor.build Descriptor.planTyped
    rw [hexpect, d.plan_invoke .typed o.castPolicy hrole]
    exact (hcompile.map fun t => ⟨d, t⟩).map (TypedAccessor.method host type)
  | value type' a ha hrole hindex =>
    have hbuild : StopsAt (TypedValueAccessor.build fs o d.role host type d)
        (d.operations.findSome? (d.typedFault o.policy host type)) := by
      rw [TypedValueAccessor.build_eq, hexpect, Descriptor.operations_of_holdsValue hrole,
        List.findSome?_append]
      have hsetter := TypedValueAccessor.stopsAt_compileSetIf fs o hkind host type ha.binding
      exact (TypedValueAccessor.stopsAt_compileGetIf fs o hkind host type ha.binding).bind
        fun getter _ => hsetter.map (TypedValueAccessor.mk d getter)
    rw [Descriptor.abstractHost_of_ne (Descriptor.role_ne_of_holdsValue hrole), Option.none_or,
      TypedAccessor.build_of_holdsValue fs o host type hrole]
    exact hbuild.map _

theorem TypedAccessor.stopsAt_build (hform : d.Form) (role : Role) :
    StopsAt (TypedAccessor.build fs o role host type d)
      ((d.wrongRole role).or
        ((d.abstractHost fs).or (d.operations.findSome? (d.typedFault o.policy host type)))) := by
  unfold Descriptor.wrongRole
  by_cases hrole : d.role = role
  · subst hrole
    rw [if_pos rfl, Option.none_or]
    exact stopsAt_build_own fs o hkind host type hform
  · have hexpect : d.expectRole role =
        .error (.invalidMember (.otherRole d.qualifiedName d.role)) :=
      if_neg hrole
    rw [if_neg hrole]
    cases role with
    | constructor =>
      unfold TypedAccessor.build TypedConstructorAccessor.build
      rw [hexpect]
      exact rfl
    | reconstructor =>
      unfold TypedAccessor.build TypedReconstructorAccessor.build
      rw [hexpect]
      exact rfl
    | method =>
      unfold TypedAccessor.build TypedMethodAccessor.build
      rw [hexpect]
      exact rfl
    | _ =>
      rw [TypedAccessor.build_of_holdsValue fs o host type rfl, TypedValueAccessor.build_eq,
        hexpect]
      exact rfl

end compiled

/-! ## Registered types and others -/

theorem Descriptor.Form.operations_ne_nil {d : Descriptor} (h : d.Form) : d.operations ≠ [] := by
  cases h with
  | constructor k hk hrole =>
    rw [operations_of_constructor (by rw [hrole]; rfl)]
    exact List.cons_ne_nil _ _
  | reconstructor k hk hrole =>
    rw [operations_of_constructor (by rw [hrole]; rfl)]
    exact List.cons_ne_nil _ _
  | method result f hf hrole =>
    rw [operations_of_method hrole]
    exact List.cons_ne_nil _ _
  | value type a ha hrole hindex =>
    rw [operations_of_holdsValue hrole, canRead_eq ha hrole, canWrite_eq ha hrole]
    rcases ha.offered with hget | hset
    · simp [hget]
    · simp [hset]

theorem findSome?_or_some {f : Operation → Option AccessError} {e : AccessError}
    {operations : List Operation} (h : operations ≠ []) :
    (operations.findSome? fun operation => (f operation).or (some e)) =
      ((operations.take 1).findSome? f).or (some e) := by
  obtain ⟨first, rest, rfl⟩ := List.exists_cons_of_ne_nil h
  cases hfirst : f first <;> simp [hfirst]

theorem Descriptor.obstacle_of_take {d : Descriptor} {fs : Flags} {policy : Policy} {role : Role}
    {operations : List Operation} {n : Nat} {e : AccessError}
    (h : d.obstacle fs policy role (operations.take n) = some e) :
    d.obstacle fs policy role operations = some e := by
  have hfind : operations.findSome? (d.denial (d.granted policy)) =
      ((operations.take n).findSome? (d.denial (d.granted policy))).or
        ((operations.drop n).findSome? (d.denial (d.granted policy))) := by
    rw [← List.findSome?_append, List.take_append_drop]
  unfold obstacle at h ⊢
  rw [← Option.or_assoc] at h
  rw [hfind, ← Option.or_assoc, ← Option.or_assoc, h, Option.some_or]

section builds

variable {blocks : List (HostClass × List Registration)} {d : Descriptor}
  (hd : d.Over (Registry.ofBlocks blocks)) (fs : Flags) (o : Options) (role : Role)
  (host : HostClass) (type : StaticType)

include hd

theorem TypedAccessor.stopsAt_build_of_hasStaticTypes (htypes : d.HasStaticTypes host type) :
    StopsAt (TypedAccessor.build fs o role host type d)
      (d.obstacle fs o.policy role d.operations) := by
  have hnone := (Descriptor.otherTypes_eq_none_iff hd.registeredBy).2 htypes
  -- with the types of the registration only the permissions are left to ask for
  have hfault : d.typedFault o.policy host type = d.denial (d.granted o.policy) := by
    funext operation
    rw [Descriptor.typedFault, hnone, Option.or_none]
  have hbuild := TypedAccessor.stopsAt_build fs o hd.kind host type hd.form role
  rwa [hfault] at hbuild

theorem TypedAccessor.stopsAt_build_of_not_hasStaticTypes (htypes : ¬ d.HasStaticTypes host type) :
    StopsAt (TypedAccessor.build fs o role host type d)
      ((d.obstacle fs o.policy role (d.operations.take 1)).or (some (.invalidMember
        (.otherType d.qualifiedName (d.member.binding.nameFor host type))))) := by
  have hsome : d.otherTypes host type = some (.invalidMember
      (.otherType d.qualifiedName (d.member.binding.nameFor host type))) := by
    have hne := mt (Descriptor.otherTypes_eq_none_iff hd.registeredBy).1 htypes
    unfold Descriptor.otherTypes at hne ⊢
    split <;> simp_all
  have hbuild := TypedAccessor.stopsAt_build fs o hd.kind host type hd.form role
  unfold Descriptor.typedFault at hbuild
  rw [hsome, findSome?_or_some hd.form.operations_ne_nil, ← Option.or_assoc, ← Option.or_assoc]
    at hbuild
  rwa [Descriptor.obstacle, ← Option.or_assoc]

/-- For the class and the type that the member was registered with, a typed accessor is built
exactly when the untyped one is, and both fail alike. For a class or a type that differs none is
ever built. What stands in the way of the first operation is reported as by the untyped build; else
the member is not valid for the types. -/
theorem typed_builds_follow_untyped :
    (d.HasStaticTypes host type →
      ((∃ a, TypedAccessor.build fs o role host type d = .ok a) ↔
        ∃ a, Accessor.build fs o role d = .ok a) ∧
      ∀ e, TypedAccessor.build fs o role host type d = .error e ↔
        Accessor.build fs o role d = .error e) ∧
    (¬ d.HasStaticTypes host type →
      (∀ e, d.obstacle fs o.policy role (d.operations.take 1) = some e →
        TypedAccessor.build fs o role host type d = .error e ∧
          Accessor.build fs o role d = .error e) ∧
      (d.obstacle fs o.policy role (d.operations.take 1) = none →
        TypedAccessor.build fs o role host type d = .error (.invalidMember
          (.otherType d.qualifiedName (d.member.binding.nameFor host type))))) := by
  have huntyped := Accessor.stopsAt_build fs o hd.kind hd.form role
  refine ⟨fun htypes => ?_, fun htypes => ⟨fun e he => ?_, fun hnone => ?_⟩⟩
  · have htyped := TypedAccessor.stopsAt_build_of_hasStaticTypes hd fs o role host type htypes
    refine ⟨?_, fun e => ?_⟩
    · rw [htyped.exists_ok_iff, huntyped.exists_ok_iff]
    · rw [htyped.eq_error_iff, huntyped.eq_error_iff]
  · have htyped := TypedAccessor.stopsAt_build_of_not_hasStaticTypes hd fs o role host type htypes
    rw [he, Option.some_or] at htyped
    exact ⟨htyped, huntyped.eq_error_iff.2 (Descriptor.obstacle_of_take he)⟩
  · have htyped := TypedAccessor.stopsAt_build_of_not_hasStaticTypes hd fs o role host type htypes
    rwa [hnone, Option.none_or] at htyped

end builds

/-- Permissions to read alone deny the write of the field, to its own type on both surfaces. The
optional type is another one: the read is granted, and then the types differ. So does the class of
the same short name, to which without permissions even the read is denied. -/
theorem typed_builds_follow_untyped_pointX :
    let denied (operation : Operation) (required granted : Permission) : AccessError :=
      pointX.refusal (.denied operation false required pointClass granted)
    let readAll : Options := ⟨.withGlobal .readAll, .fail⟩
    TypedAccessor.build .empty readAll .field pointClass (.base .int32) pointX =
      .error (denied .set .writePublic .readAll) ∧
    TypedAccessor.build .empty readAll .field pointClass (.optional (.base .int32)) pointX =
      .error (.invalidMember (.otherType pointX.qualifiedName
        "core::option::Option<i32> on geometry::Point")) ∧
    TypedAccessor.build .empty ⟨.withGlobal .none, .fail⟩ .field ⟨0, "model::Point"⟩ (.base .int32)
      pointX = .error (denied .get .readPublic .none) := by
  have hregistered := over_pointX.registeredBy
  have hown : pointX.HasStaticTypes pointClass (.base .int32) :=
    (Descriptor.otherTypes_eq_none_iff hregistered).1 rfl
  have hoptional : ¬ pointX.HasStaticTypes pointClass (.optional (.base .int32)) :=
    hown.not_optional rfl
  have hclass : ¬ pointX.HasStaticTypes ⟨0, "model::Point"⟩ (.base .int32) :=
    mt (Descriptor.otherTypes_eq_none_iff hregistered).2 nofun
  refine ⟨?_, ?_, ?_⟩
  · have hbuilds := (typed_builds_follow_untyped over_pointX .empty ⟨.withGlobal .readAll, .fail⟩
      .field pointClass (.base .int32)).1 hown
    exact (hbuilds.2 _).2 rfl
  · have hbuilds := (typed_builds_follow_untyped over_pointX .empty ⟨.withGlobal .readAll, .fail⟩
      .field pointClass (.optional (.base .int32))).2 hoptional
    exact hbuilds.2 rfl
  · have hbuilds := (typed_builds_follow_untyped over_pointX .empty ⟨.withGlobal .none, .fail⟩
      .field ⟨0, "model::Point"⟩ (.base .int32)).2 hclass
    exact (hbuilds.1 _ rfl).1

end MemberAccess
