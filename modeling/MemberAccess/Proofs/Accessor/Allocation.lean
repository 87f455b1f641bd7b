import MemberAccess.Proofs.Accessor.BuiltTyped
import MemberAccess.Proofs.Permission.Decision
import MemberAccess.Proofs.Plan.Arguments

/-!
# Builds and abstract classes

A build loads one flag, that of the member, and only for a plan that allocates. Only the role of a
constructor is planned so. There the flag decides the build before the policy does, and in every
other role the flags do not matter.

* `Descriptor.Alike`: two stores of flags agree on what a build for the descriptor asks;
  `Accessor.build_of_alike`, `TypedAccessor.build_of_alike`.
* `Accessor.build_allocating`, `TypedAccessor.build_allocating`: the builds that allocate.
* `Accessor.build_ne_abstract` and its like: the class is the reason only if it is abstract.
-/

namespace MemberAccess

theorem bind_congr_ok {ε α β : Type} {x : Except ε α} {f g : α → Except ε β}
    (h : ∀ a, x = .ok a → f a = g a) : (x >>= f) = (x >>= g) := by
  cases x with
  | error e => rfl
  | ok a => exact h a rfl

/-! ## What a build asks -/

namespace Descriptor

/-- The flags agree on what a build for the descriptor asks of them. -/
def Alike (d : Descriptor) (fs fs' : Flags) : Prop :=
  d.role = .constructor → d.member.isAbstract fs = d.member.isAbstract fs'

variable {d : Descriptor} {fs fs' : Flags}

theorem allocates_iff {surface : Surface} {cast : CastPolicy} {operation : Operation} {p : Plan}
    (hp : d.plan surface cast operation = .ok p) : p.allocates = true ↔ d.role = .constructor := by
  cases planned_of_plan hp with
  | construct operation hrole => exact iff_of_true rfl hrole
  | reconstruct operation hrole | invoke hrole => exact iff_of_false nofun (hrole ▸ nofun)
  | get hread => exact iff_of_false nofun (role_ne_of_holdsValue (holdsValue_of_canRead hread))
  | set hwrite => exact iff_of_false nofun (role_ne_of_holdsValue (holdsValue_of_canWrite hwrite))

theorem Alike.admission_eq (h : d.Alike fs fs') {surface : Surface} {cast : CastPolicy}
    {operation : Operation} {p : Plan} (hp : d.plan surface cast operation = .ok p)
    (policy : Policy) : admission fs policy d p = admission fs' policy d p := by
  have hflag : (p.allocates = true ∧ d.member.isAbstract fs = true) ↔
      (p.allocates = true ∧ d.member.isAbstract fs' = true) := by
    refine and_congr_right fun hallocates => ?_
    rw [h ((allocates_iff hp).1 hallocates)]
  unfold admission
  simp only [hflag]

end Descriptor

section alike

variable {d : Descriptor} {fs fs' : Flags} (h : d.Alike fs fs') (o : Options)

include h

theorem compileUntyped_of_alike (operation : Operation) :
    compileUntyped fs o d operation = compileUntyped fs' o d operation := by
  unfold compileUntyped
  cases hp : d.plan .untyped o.castPolicy operation with
  | error e => rfl
  | ok p =>
    dsimp only
    unfold compile
    rw [h.admission_eq hp]

theorem compileIf_of_alike (offered : Bool) (operation : Operation) :
    compileIf offered fs o d operation = compileIf offered fs' o d operation := by
  unfold compileIf
  rw [compileUntyped_of_alike h]

theorem Accessor.build_of_alike (role : Role) : build fs o role d = build fs' o role d := by
  have hvalue : ValueAccessor.build fs o d = ValueAccessor.build fs' o d := by
    unfold ValueAccessor.build
    rw [compileIf_of_alike h, compileIf_of_alike h]
  have hcall : CallAccessor.build fs o d = CallAccessor.build fs' o d := by
    unfold CallAccessor.build
    rw [compileUntyped_of_alike h]
  unfold build
  rw [hvalue, hcall]

variable (host : HostClass) (type : StaticType)

theorem TypedValueAccessor.build_of_alike (role : Role) :
    build fs o role host type d = build fs' o role host type d := by
  have hgetter : compileGetIf fs o d host type = compileGetIf fs' o d host type := by
    unfold compileGetIf
    congr 1
    refine bind_congr_ok fun p hp => ?_
    unfold compileGet
    rw [h.admission_eq hp]
  have hsetter : compileSetIf fs o d host type = compileSetIf fs' o d host type := by
    unfold compileSetIf
    congr 1
    refine bind_congr_ok fun p hp => ?_
    unfold compileSet
    rw [h.admission_eq hp]
  rw [build_eq, build_eq, hgetter, hsetter]

theorem TypedConstructorAccessor.build_of_alike :
    build fs o host d = build fs' o host d := by
  unfold build
  refine bind_congr_ok fun _ _ => bind_congr_ok fun p hp => ?_
  unfold compileConstruct
  rw [h.admission_eq hp]

theorem TypedReconstructorAccessor.build_of_alike :
    build fs o host d = build fs' o host d := by
  unfold build
  refine bind_congr_ok fun _ _ => bind_congr_ok fun p hp => ?_
  unfold compileReconstruct
  rw [h.admission_eq hp]

theorem TypedMethodAccessor.build_of_alike :
    build fs o host type d = build fs' o host type d := by
  unfold build
  refine bind_congr_ok fun _ _ => bind_congr_ok fun p hp => ?_
  unfold compileInvoke
  rw [h.admission_eq hp]

theorem TypedAccessor.build_of_alike (role : Role) :
    build fs o role host type d = build fs' o role host type d := by
  cases role with
  | constructor =>
    exact congrArg (Except.map _) (TypedConstructorAccessor.build_of_alike h o host)
  | reconstructor =>
    exact congrArg (Except.map _) (TypedReconstructorAccessor.build_of_alike h o host)
  | method => exact congrArg (Except.map _) (TypedMethodAccessor.build_of_alike h o host type)
  | _ => exact congrArg (Except.map _) (TypedValueAccessor.build_of_alike h o host type _)

end alike

/-! ## Allocations -/

section allocations

variable (fs : Flags) (o : Options) {d : Descriptor}

/-- An allocation has the arity of its constructor, so the class decides first. -/
theorem admission_construct (policy : Policy) (hkind : d.member.kind = .constructor) :
    admission fs policy d (.construct d.argumentPlan) =
      if fs.load d.member.flag = true then .error (d.refusal (.abstractClass d.host))
      else policy.check d .construct := by
  have harity : ¬ (Plan.construct d.argumentPlan).arguments.arity ≠ d.arity :=
    fun hne => hne (ArgumentPlan.arity_ofParameters d.parameters)
  have hflag : ((Plan.construct d.argumentPlan).allocates = true ∧ d.member.isAbstract fs = true) ↔
      fs.load d.member.flag = true := by
    rw [Member.isAbstract, hkind]
    simp [Plan.allocates]
  unfold admission
  rw [if_neg harity]
  simp only [hflag]
  rfl

theorem Accessor.build_allocating {k : Construction} (hk : d.member.IsConstructor k)
    (hrole : d.role = .constructor) :
    build fs o .constructor d =
      if fs.load d.member.flag = true then .error (d.refusal (.abstractClass d.host))
      else (o.policy.check d .construct).map fun _ =>
        .calls ⟨d, .construct d.qualifiedName d.host d.argumentPlan k⟩ := by
  have hbuild := build_constructor fs o hk hrole
  rw [hrole, admission_construct fs o.policy hk.kind] at hbuild
  rw [hbuild]
  split <;> rfl

theorem TypedAccessor.build_allocating (hkind : d.member.kind = .constructor)
    (hrole : d.role = .constructor) (host : HostClass) (type : StaticType) :
    build fs o .constructor host type d =
      if fs.load d.member.flag = true then .error (d.refusal (.abstractClass d.host))
      else o.policy.check d .construct >>= fun _ =>
        (d.constructionFor host).map fun k =>
          .constructor host ⟨d, ⟨d.qualifiedName, d.argumentPlan, k⟩⟩ := by
  unfold build TypedConstructorAccessor.build Descriptor.planTyped
  rw [Descriptor.expectRole_eq_ok_iff.2 hrole, d.plan_construct _ _ hrole]
  unfold compileConstruct
  dsimp only [bind, Except.bind]
  rw [admission_construct fs o.policy hkind]
  by_cases habstract : fs.load d.member.flag = true
  · rw [if_pos habstract, if_pos habstract]
    rfl
  · rw [if_neg habstract, if_neg habstract]
    cases o.policy.check d .construct with
    | error e => rfl
    | ok _ => cases d.constructionFor host <;> rfl

theorem Policy.check_ne_abstract (policy : Policy) (operation : Operation) :
    policy.check d operation ≠ .error (d.refusal (.abstractClass d.host)) := by
  rw [Policy.check_eq]
  split
  · exact nofun
  · intro h
    cases h

theorem Descriptor.constructionFor_ne_abstract (host : HostClass) :
    d.constructionFor host ≠ .error (d.refusal (.abstractClass d.host)) := by
  unfold constructionFor
  split
  · split
    · exact nofun
    · exact nofun
  · exact nofun

variable {fs}

theorem Accessor.build_ne_abstract {k : Construction} (hk : d.member.IsConstructor k)
    (hrole : d.role = .constructor) (h : ¬ fs.load d.member.flag = true) :
    build fs o .constructor d ≠ .error (d.refusal (.abstractClass d.host)) := by
  rw [build_allocating fs o hk hrole, if_neg h]
  intro hbuild
  exact o.policy.check_ne_abstract .construct (map_eq_error_iff.1 hbuild)

theorem TypedAccessor.build_ne_abstract (hkind : d.member.kind = .constructor)
    (hrole : d.role = .constructor) (h : ¬ fs.load d.member.flag = true) (host : HostClass)
    (type : StaticType) :
    build fs o .constructor host type d ≠ .error (d.refusal (.abstractClass d.host)) := by
  rw [build_allocating fs o hkind hrole, if_neg h]
  intro hbuild
  rcases bind_eq_error_iff.1 hbuild with hcheck | ⟨_, -, hfound⟩
  · exact o.policy.check_ne_abstract .construct hcheck
  · exact d.constructionFor_ne_abstract host (map_eq_error_iff.1 hfound)

end allocations

end MemberAccess
