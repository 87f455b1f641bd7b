import MemberAccess.Proofs.Accessor.BuiltTyped

/-!
# Refused builds

What is wrong with metadata, policies and plans is found when an accessor is built, and nothing else
goes wrong there.

* `FailsInBuild`: steps of building, closed under sequences.
* `Accessor.failsInBuild_build`, `TypedAccessor.failsInBuild_build`: accessors of any role.
-/

namespace MemberAccess

/-! ## The first phase -/

/-- The error is one that is found where an accessor is built. -/
def AccessError.isBuildError : AccessError → Bool
  | invalidMember _ | compilationFailed _ _ => true
  | _ => false

/-- A step of building: it fails with errors of the first phase only. -/
def FailsInBuild {α : Type} (x : Except AccessError α) : Prop :=
  ∀ e, x = .error e → e.isBuildError = true

namespace FailsInBuild

variable {α β : Type} {x : Except AccessError α}

theorem ok (a : α) : FailsInBuild (.ok a : Except AccessError α) := nofun

theorem error {e : AccessError} (h : e.isBuildError = true) :
    FailsInBuild (.error e : Except AccessError α) := by
  rintro e' ⟨⟩
  exact h

theorem bind {f : α → Except AccessError β} (hx : FailsInBuild x)
    (hf : ∀ a, x = .ok a → FailsInBuild (f a)) : FailsInBuild (x >>= f) := by
  cases x with
  | error e =>
    intro e' h
    have he : e = e' := Except.error.inj h
    exact he ▸ hx e rfl
  | ok a => exact hf a rfl

theorem map (hx : FailsInBuild x) (f : α → β) : FailsInBuild (x.map f) :=
  fun e h => hx e (map_eq_error_iff.1 h)

end FailsInBuild

/-! ## Admission -/

section admission

variable (fs : Flags) (d : Descriptor) (plan : Plan)

theorem Descriptor.failsInBuild_refusal {α : Type} (refusal : Refusal) :
    FailsInBuild (.error (d.refusal refusal) : Except AccessError α) := .error rfl

theorem failsInBuild_admission (policy : Policy) : FailsInBuild (admission fs policy d plan) := by
  have hpolicy : FailsInBuild (policy.check d plan.operation) := by
    unfold Policy.check
    dsimp only
    split
    · split
      · exact .ok ()
      · exact d.failsInBuild_refusal _
    · exact .ok ()
  unfold admission
  split
  · exact d.failsInBuild_refusal _
  · split
    · exact d.failsInBuild_refusal _
    · exact hpolicy

theorem failsInBuild_expectRole (role : Role) : FailsInBuild (d.expectRole role) := by
  unfold Descriptor.expectRole
  split
  · exact .ok ()
  · exact .error rfl

theorem failsInBuild_compile (policy : Policy) : FailsInBuild (compile fs policy d plan) := by
  unfold compile
  cases hadmitted : admission fs policy d plan with
  | error e => exact .error (failsInBuild_admission fs d plan policy e hadmitted)
  | ok _ =>
    cases hbound : Thunk.bind? d.qualifiedName d.host plan d.member.binding with
    | none => exact d.failsInBuild_refusal _
    | some t => exact .ok t

end admission

/-! ## Building untyped accessors -/

section untyped

variable {fs : Flags} {o : Options} {d : Descriptor}

theorem failsInBuild_compileUntyped {operation : Operation} {plan : Plan}
    (hplan : d.plan .untyped o.castPolicy operation = .ok plan) :
    FailsInBuild (compileUntyped fs o d operation) := by
  unfold compileUntyped
  rw [hplan]
  exact failsInBuild_compile fs d plan o.policy

theorem failsInBuild_compileIf {offered : Bool} {operation : Operation} {plan : Plan}
    (hplan : offered = true → d.plan .untyped o.castPolicy operation = .ok plan) :
    FailsInBuild (compileIf offered fs o d operation) := by
  unfold compileIf
  split
  · rename_i hoffered
    exact (failsInBuild_compileUntyped (hplan hoffered)).map some
  · exact .ok none

theorem ValueAccessor.failsInBuild_build : FailsInBuild (ValueAccessor.build fs o d) := by
  have hgetter : FailsInBuild (compileIf d.canRead fs o d .get) :=
    failsInBuild_compileIf fun hread => d.plan_get _ _ hread
  have hsetter : FailsInBuild (compileIf d.canWrite fs o d .set) :=
    failsInBuild_compileIf fun hwrite => d.plan_set _ _ hwrite
  unfold build
  cases hg : compileIf d.canRead fs o d .get with
  | error e => exact .error (hgetter e hg)
  | ok getter =>
    cases hs : compileIf d.canWrite fs o d .set with
    | error e => exact .error (hsetter e hs)
    | ok setter => exact .ok _

theorem CallAccessor.failsInBuild_build (hrole : d.role.holdsValue = false) :
    FailsInBuild (CallAccessor.build fs o d) := by
  refine FailsInBuild.map ?_ _
  cases hr : d.role <;> rw [hr] at hrole
  case constructor => exact failsInBuild_compileUntyped (d.plan_construct _ _ hr)
  case reconstructor => exact failsInBuild_compileUntyped (d.plan_reconstruct _ _ hr)
  case method => exact failsInBuild_compileUntyped (d.plan_invoke _ _ hr)
  all_goals cases hrole

theorem Accessor.failsInBuild_build (role : Role) : FailsInBuild (Accessor.build fs o role d) := by
  unfold build
  cases hexpect : d.expectRole role with
  | error e => exact .error (failsInBuild_expectRole d role e hexpect)
  | ok _ =>
    obtain rfl := Descriptor.expectRole_eq_ok_iff.1 hexpect
    dsimp only
    by_cases hvalue : d.role.holdsValue = true
    · rw [if_pos hvalue]
      exact ValueAccessor.failsInBuild_build.map _
    · rw [if_neg hvalue]
      exact (CallAccessor.failsInBuild_build (Bool.eq_false_iff.2 hvalue)).map _

end untyped

/-! ## Building typed accessors -/

section typed

variable (fs : Flags) (policy : Policy) (d : Descriptor) (plan : Plan) (host : HostClass)
  (type : StaticType)

theorem failsInBuild_constructionFor : FailsInBuild (d.constructionFor host) := by
  unfold Descriptor.constructionFor
  split
  · split
    · exact .ok _
    · exact .error rfl
  · exact .error rfl

theorem failsInBuild_attributeFor : FailsInBuild (d.attributeFor host type) := by
  unfold Descriptor.attributeFor
  dsimp only
  split
  · split
    · split
      · exact .ok _
      · exact .error rfl
    · exact .error rfl
  · exact .error rfl

theorem failsInBuild_methodFor : FailsInBuild (d.methodFor host type) := by
  unfold Descriptor.methodFor
  dsimp only
  split
  · split
    · split
      · exact .ok _
      · exact .error rfl
    · exact .error rfl
  · exact .error rfl

theorem failsInBuild_compileConstruct :
    FailsInBuild (compileConstruct fs policy d plan host) := by
  unfold compileConstruct
  cases hadmitted : admission fs policy d plan with
  | error e => exact .error (failsInBuild_admission fs d plan policy e hadmitted)
  | ok _ =>
    cases hfound : d.constructionFor host with
    | error e => exact .error (failsInBuild_constructionFor d host e hfound)
    | ok a =>
      dsimp only
      split
      · exact .ok _
      · exact d.failsInBuild_refusal _

theorem failsInBuild_compileReconstruct :
    FailsInBuild (compileReconstruct fs policy d plan host) := by
  unfold compileReconstruct
  cases hadmitted : admission fs policy d plan with
  | error e => exact .error (failsInBuild_admission fs d plan policy e hadmitted)
  | ok _ =>
    cases hfound : d.constructionFor host with
    | error e => exact .error (failsInBuild_constructionFor d host e hfound)
    | ok a =>
      dsimp only
      split
      · exact .ok _
      · exact d.failsInBuild_refusal _

theorem failsInBuild_compileGet :
    FailsInBuild (compileGet fs policy d plan host type) := by
  unfold compileGet
  cases hadmitted : admission fs policy d plan with
  | error e => exact .error (failsInBuild_admission fs d plan policy e hadmitted)
  | ok _ =>
    cases hfound : d.attributeFor host type with
    | error e => exact .error (failsInBuild_attributeFor d host type e hfound)
    | ok a =>
      dsimp only
      split
      · exact .ok _
      · exact d.failsInBuild_refusal _

theorem failsInBuild_compileSet :
    FailsInBuild (compileSet fs policy d plan host type) := by
  unfold compileSet
  cases hadmitted : admission fs policy d plan with
  | error e => exact .error (failsInBuild_admission fs d plan policy e hadmitted)
  | ok _ =>
    cases hfound : d.attributeFor host type with
    | error e => exact .error (failsInBuild_attributeFor d host type e hfound)
    | ok a =>
      dsimp only
      split
      · exact .ok _
      · exact d.failsInBuild_refusal _

theorem failsInBuild_compileInvoke :
    FailsInBuild (compileInvoke fs policy d plan host type) := by
  unfold compileInvoke
  cases hadmitted : admission fs policy d plan with
  | error e => exact .error (failsInBuild_admission fs d plan policy e hadmitted)
  | ok _ =>
    cases hfound : d.methodFor host type with
    | error e => exact .error (failsInBuild_methodFor d host type e hfound)
    | ok a =>
      dsimp only
      split
      · exact .ok _
      · exact d.failsInBuild_refusal _

variable {fs d host type} {o : Options}

theorem failsInBuild_planned {α β : Type} {role : Role} {operation : Operation} {plan : Plan}
    {compiled : Plan → Except AccessError α} {made : α → β}
    (hplan : d.role = role → d.planTyped o operation = .ok plan)
    (hcompile : FailsInBuild (compiled plan)) :
    FailsInBuild (d.expectRole role >>= fun _ => d.planTyped o operation >>= fun plan =>
      compiled plan >>= fun t => pure (made t)) := by
  refine (failsInBuild_expectRole d role).bind fun _ hrole => ?_
  rw [hplan (Descriptor.expectRole_eq_ok_iff.1 hrole)]
  exact hcompile.bind fun t _ => .ok (made t)

namespace TypedValueAccessor

theorem failsInBuild_compileGetIf : FailsInBuild (compileGetIf fs o d host type) := by
  unfold compileGetIf
  by_cases hread : d.canRead = true
  · rw [if_pos hread, Descriptor.planTyped, d.plan_get .typed o.castPolicy hread]
    exact (failsInBuild_compileGet fs o.policy d _ host type).bind fun t _ => .ok (some t)
  · rw [if_neg hread]
    exact .ok none

theorem failsInBuild_compileSetIf : FailsInBuild (compileSetIf fs o d host type) := by
  unfold compileSetIf
  by_cases hwrite : d.canWrite = true
  · rw [if_pos hwrite, Descriptor.planTyped, d.plan_set .typed o.castPolicy hwrite]
    exact (failsInBuild_compileSet fs o.policy d _ host type).bind fun t _ => .ok (some t)
  · rw [if_neg hwrite]
    exact .ok none

theorem failsInBuild_build (role : Role) : FailsInBuild (build fs o role host type d) := by
  rw [build_eq]
  refine (failsInBuild_expectRole d role).bind fun _ _ => ?_
  refine failsInBuild_compileGetIf.bind fun getter _ => ?_
  exact failsInBuild_compileSetIf.bind fun setter _ => .ok _

end TypedValueAccessor

theorem TypedAccessor.failsInBuild_build (role : Role) :
    FailsInBuild (TypedAccessor.build fs o role host type d) := by
  cases role
  case constructor =>
    exact (failsInBuild_planned (fun hrole => d.plan_construct _ _ hrole)
      (failsInBuild_compileConstruct fs o.policy d _ host)).map _
  case reconstructor =>
    exact (failsInBuild_planned (fun hrole => d.plan_reconstruct _ _ hrole)
      (failsInBuild_compileReconstruct fs o.policy d _ host)).map _
  case method =>
    exact (failsInBuild_planned (fun hrole => d.plan_invoke _ _ hrole)
      (failsInBuild_compileInvoke fs o.policy d _ host type)).map _
  all_goals exact (TypedValueAccessor.failsInBuild_build _).map _

end typed

end MemberAccess
