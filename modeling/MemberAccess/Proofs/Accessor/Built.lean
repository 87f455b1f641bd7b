import MemberAccess.Accessor.OnObjects
import MemberAccess.Proofs.Member.Described
import MemberAccess.Proofs.Steps

/-!
# Built accessors

What a build gives, by the form of its descriptor: the checks of a plan's admission decide whether
there is an accessor, the descriptor alone decides which.

* `Thunk.Bound`: what a plan becomes; `Thunk.bound_of_bind`.
* `Accessor.eq_of_build`: the operations that an untyped accessor has.
* `Accessor.build_constructor` and its like: an untyped build as an equation.
* `TypedAccessor.build_constructor` and its like: what a typed build that succeeds gives.
-/

namespace MemberAccess

theorem Descriptor.expectRole_eq_ok_iff {d : Descriptor} {role : Role} :
    d.expectRole role = .ok () ↔ d.role = role := by
  unfold expectRole
  split <;> simp_all

/-! ## Bound plans -/

/-- What a plan becomes when it is bound to a member. -/
inductive Thunk.Bound (member : String) (host : HostClass) : Plan → Binding → Thunk → Prop where
  | construct (arguments : ArgumentPlan) (k : Construction) :
      Bound member host (.construct arguments) (.construction k)
        (.construct member host arguments k)
  | reconstruct (declaring : HostClass) (arguments : ArgumentPlan) (k : Construction) :
      Bound member host (.reconstruct declaring arguments) (.construction k)
        (.reconstruct member host (.onInstance declaring) arguments k)
  | read (dispatch : Dispatch) (index : ArgumentPlan) (type : StaticType) (a : Attribute type)
      (hgetter : a.hasGetter = true) :
      Bound member host (.get dispatch index) (.value type a)
        (.read member host dispatch index type a)
  | write (dispatch : Dispatch) (index : ArgumentPlan) (value : ArgumentSlot) (type : StaticType)
      (a : Attribute type) (hsetter : a.hasSetter = true) :
      Bound member host (.set dispatch index value) (.value type a)
        (.write member host dispatch index value type a)
  | invoke (dispatch : Dispatch) (arguments : ArgumentPlan) (result : StaticType)
      (f : Method result) :
      Bound member host (.invoke dispatch arguments) (.method result f)
        (.invoke member host dispatch arguments result f)

theorem Thunk.bound_of_bind {member : String} {host : HostClass} {plan : Plan} {b : Binding}
    {t : Thunk} (h : Thunk.bind? member host plan b = some t) :
    Thunk.Bound member host plan b t := by
  unfold bind? at h
  split at h
  · cases h
    exact .construct _ _
  · cases h
    exact .reconstruct _ _ _
  · split at h <;> cases h
    exact .read _ _ _ _ ‹_›
  · split at h <;> cases h
    exact .write _ _ _ _ _ ‹_›
  · cases h
    exact .invoke _ _ _ _
  · cases h

theorem binding_of_bind_invoke {member : String} {host : HostClass} {plan : Plan} {b : Binding}
    {member' : String} {host' : HostClass} {dispatch : Dispatch} {arguments : ArgumentPlan}
    {result : StaticType} {f : Method result}
    (h : Thunk.bind? member host plan b =
      some (.invoke member' host' dispatch arguments result f)) :
    b = .method result f := by
  cases Thunk.bound_of_bind h
  rfl

/-! ## Untyped operations -/

section untyped

variable {fs : Flags} {policy : Policy} {o : Options} {d : Descriptor} {plan : Plan} {t : Thunk}

theorem compile_of_bind
    (ht : Thunk.bind? d.qualifiedName d.host plan d.member.binding = some t) :
    compile fs policy d plan = (admission fs policy d plan).map fun _ => t := by
  unfold compile
  rw [ht]
  cases admission fs policy d plan <;> rfl

theorem bind_of_compile (h : compile fs policy d plan = .ok t) :
    Thunk.bind? d.qualifiedName d.host plan d.member.binding = some t := by
  unfold compile at h
  split at h
  · cases h
  · split at h
    · rename_i hbind
      rw [hbind, Except.ok.inj h]
    · cases h

theorem compileUntyped_of_bind {operation : Operation}
    (hplan : d.plan .untyped o.castPolicy operation = .ok plan)
    (ht : Thunk.bind? d.qualifiedName d.host plan d.member.binding = some t) :
    compileUntyped fs o d operation = (admission fs o.policy d plan).map fun _ => t := by
  unfold compileUntyped
  rw [hplan]
  exact compile_of_bind ht

theorem plan_of_compileUntyped {operation : Operation}
    (h : compileUntyped fs o d operation = .ok t) :
    ∃ plan, d.plan .untyped o.castPolicy operation = .ok plan ∧
      Thunk.bind? d.qualifiedName d.host plan d.member.binding = some t := by
  unfold compileUntyped at h
  split at h
  · cases h
  · rename_i plan hplan
    exact ⟨plan, hplan, bind_of_compile h⟩

theorem compileIf_of_bind {offered : Bool} {operation : Operation}
    (hplan : offered = true → d.plan .untyped o.castPolicy operation = .ok plan)
    (ht : offered = true → Thunk.bind? d.qualifiedName d.host plan d.member.binding = some t) :
    compileIf offered fs o d operation =
      if offered then (admission fs o.policy d plan).map fun _ => some t else .ok none := by
  unfold compileIf
  cases offered with
  | false => rfl
  | true =>
    rw [if_pos rfl, if_pos rfl, compileUntyped_of_bind (hplan rfl) (ht rfl)]
    cases admission fs o.policy d plan <;> rfl

theorem compileUntyped_of_compileIf {offered : Bool} {operation : Operation}
    (h : compileIf offered fs o d operation = .ok (some t)) :
    compileUntyped fs o d operation = .ok t := by
  unfold compileIf at h
  split at h
  · obtain ⟨t', ht, hsome⟩ := map_eq_ok_iff.1 h
    obtain rfl := Option.some.inj hsome
    exact ht
  · cases h

end untyped

/-! ## Untyped accessors -/

namespace Accessor

variable {d : Descriptor} (fs : Flags) (o : Options)

theorem role_of_build {role : Role} {a : Accessor} (h : build fs o role d = .ok a) :
    d.role = role := by
  unfold build at h
  split at h
  · cases h
  · rename_i hrole
    exact Descriptor.expectRole_eq_ok_iff.1 hrole

theorem eq_of_build {role : Role} {a : Accessor} (ha : build fs o role d = .ok a) :
    (d.role.holdsValue = false ∧ ∃ t, a = .calls ⟨d, t⟩ ∧
      compileUntyped fs o d (CallAccessor.operation d.role) = .ok t) ∨
    (d.role.holdsValue = true ∧ ∃ getter setter, a = .holds ⟨d, getter, setter⟩ ∧
      compileIf d.canRead fs o d .get = .ok getter ∧
      compileIf d.canWrite fs o d .set = .ok setter) := by
  obtain rfl := role_of_build fs o ha
  unfold build at ha
  rw [Descriptor.expectRole_eq_ok_iff.2 rfl] at ha
  dsimp only at ha
  split at ha
  · rename_i hholds
    obtain ⟨v, hv, rfl⟩ := map_eq_ok_iff.1 ha
    unfold ValueAccessor.build at hv
    split at hv
    · cases hv
    · rename_i getter hgetter
      split at hv
      · cases hv
      · rename_i setter hsetter
        obtain rfl := Except.ok.inj hv
        exact Or.inr ⟨hholds, getter, setter, rfl, hgetter, hsetter⟩
  · rename_i hholds
    obtain ⟨c, hc, rfl⟩ := map_eq_ok_iff.1 ha
    obtain ⟨t, ht, rfl⟩ := map_eq_ok_iff.1 hc
    exact Or.inl ⟨Bool.eq_false_iff.2 hholds, t, rfl, ht⟩

theorem descriptor_of_build {role : Role} {a : Accessor} (h : build fs o role d = .ok a) :
    a.descriptor = d := by
  rcases eq_of_build fs o h with ⟨-, t, rfl, -⟩ | ⟨-, getter, setter, rfl, -⟩ <;> rfl

theorem bind_of_build {role : Role} {a : CallAccessor} (h : build fs o role d = .ok (.calls a)) :
    ∃ plan, Thunk.bind? d.qualifiedName d.host plan d.member.binding = some a.thunk := by
  rcases eq_of_build fs o h with ⟨-, t, hcalls, ht⟩ | ⟨-, getter, setter, hholds, -⟩
  · obtain rfl := Accessor.calls.inj hcalls
    obtain ⟨plan, -, hbind⟩ := plan_of_compileUntyped ht
    exact ⟨plan, hbind⟩
  · cases hholds

theorem build_of_bind {plan : Plan} {t : Thunk} (hrole : d.role.holdsValue = false)
    (hplan : d.plan .untyped o.castPolicy (CallAccessor.operation d.role) = .ok plan)
    (ht : Thunk.bind? d.qualifiedName d.host plan d.member.binding = some t) :
    build fs o d.role d = (admission fs o.policy d plan).map fun _ => .calls ⟨d, t⟩ := by
  unfold build
  rw [Descriptor.expectRole_eq_ok_iff.2 rfl, hrole]
  unfold CallAccessor.build
  rw [compileUntyped_of_bind hplan ht]
  cases admission fs o.policy d plan <;> rfl

theorem build_constructor {k : Construction} (hk : d.member.IsConstructor k)
    (hrole : d.role = .constructor) :
    build fs o d.role d = (admission fs o.policy d (.construct d.argumentPlan)).map fun _ =>
      .calls ⟨d, .construct d.qualifiedName d.host d.argumentPlan k⟩ := by
  refine build_of_bind fs o ?_ ?_ ?_
  · rw [hrole]
    rfl
  · rw [hrole]
    exact d.plan_construct _ _ hrole
  · rw [hk.binding]
    rfl

theorem build_reconstructor {k : Construction} (hk : d.member.IsConstructor k)
    (hrole : d.role = .reconstructor) :
    build fs o d.role d =
      (admission fs o.policy d (.reconstruct d.host d.argumentPlan)).map fun _ =>
        .calls ⟨d, .reconstruct d.qualifiedName d.host (.onInstance d.host) d.argumentPlan k⟩ := by
  refine build_of_bind fs o ?_ ?_ ?_
  · rw [hrole]
    rfl
  · rw [hrole]
    exact d.plan_reconstruct _ _ hrole
  · rw [hk.binding]
    rfl

theorem build_method {result : StaticType} {f : Method result} (hf : d.member.IsMethod f)
    (hrole : d.role = .method) :
    build fs o d.role d =
      (admission fs o.policy d (.invoke d.dispatch d.argumentPlan)).map fun _ =>
        .calls ⟨d, .invoke d.qualifiedName d.host d.dispatch d.argumentPlan result f⟩ := by
  refine build_of_bind fs o ?_ ?_ ?_
  · rw [hrole]
    rfl
  · rw [hrole]
    exact d.plan_invoke _ _ hrole
  · rw [hf.binding]
    rfl

section value

variable {type : StaticType} {a : Attribute type}

theorem compileIf_get (ha : d.member.IsAttribute a) (hrole : d.role.holdsValue = true) :
    compileIf d.canRead fs o d .get =
      if a.hasGetter then
        (admission fs o.policy d (.get d.dispatch d.argumentPlan)).map fun _ =>
          some (.read d.qualifiedName d.host d.dispatch d.argumentPlan type a)
      else .ok none := by
  have hread := Descriptor.canRead_eq ha hrole
  rw [← hread]
  refine compileIf_of_bind (fun h => d.plan_get _ _ h) fun h => ?_
  rw [ha.binding]
  exact if_pos (hread ▸ h)

theorem compileIf_set (ha : d.member.IsAttribute a) (hrole : d.role.holdsValue = true) :
    compileIf d.canWrite fs o d .set =
      if a.hasSetter then
        (admission fs o.policy d
          (.set d.dispatch d.argumentPlan (d.valueSlot .untyped o.castPolicy))).map fun _ =>
          some (.write d.qualifiedName d.host d.dispatch d.argumentPlan
            (d.valueSlot .untyped o.castPolicy) type a)
      else .ok none := by
  have hwrite := Descriptor.canWrite_eq ha hrole
  rw [← hwrite]
  refine compileIf_of_bind (fun h => d.plan_set _ _ h) fun h => ?_
  rw [ha.binding]
  exact if_pos (hwrite ▸ h)

theorem build_value (ha : d.member.IsAttribute a) (hrole : d.role.holdsValue = true)
    {made : Accessor} (h : build fs o d.role d = .ok made) :
    made = .holds ⟨d,
      if a.hasGetter then some (.read d.qualifiedName d.host d.dispatch d.argumentPlan type a)
      else none,
      if a.hasSetter then some (.write d.qualifiedName d.host d.dispatch d.argumentPlan
        (d.valueSlot .untyped o.castPolicy) type a)
      else none⟩ := by
  unfold build at h
  rw [Descriptor.expectRole_eq_ok_iff.2 rfl, hrole] at h
  obtain ⟨made', hmade, rfl⟩ := map_eq_ok_iff.1 h
  unfold ValueAccessor.build at hmade
  rw [compileIf_get fs o ha hrole, compileIf_set fs o ha hrole] at hmade
  cases hg : a.hasGetter <;> cases hs : a.hasSetter <;> simp only [hg, hs] at hmade ⊢
  all_goals
    cases hget : admission fs o.policy d (.get d.dispatch d.argumentPlan) <;>
    cases hset : admission fs o.policy d
      (.set d.dispatch d.argumentPlan (d.valueSlot .untyped o.castPolicy)) <;>
    simp_all [Except.map]

end value

end Accessor

end MemberAccess
