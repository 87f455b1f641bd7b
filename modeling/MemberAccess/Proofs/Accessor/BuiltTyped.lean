import MemberAccess.Proofs.Accessor.Built

/-!
# Built typed accessors

A typed operation is compiled for the class and the static type that the member was registered with
and for no other. So a typed build that succeeds has found the binding that the untyped one uses.

* `compileConstruct_eq_ok` and its like: what a typed compilation that succeeds gives.
* `TypedAccessor.build_constructor` and its like: what a typed build that succeeds gives.
-/

namespace MemberAccess

/-! ## Bindings of static types -/

namespace Descriptor

variable {d : Descriptor} {host : HostClass} {type : StaticType}

theorem constructionFor_eq_ok {k : Construction} (h : d.constructionFor host = .ok k) :
    d.member.binding = .construction k ∧ d.host = host := by
  unfold constructionFor at h
  split at h
  · rename_i k' hb
    split at h
    · rename_i hhost
      exact ⟨hb.trans (congrArg _ (Except.ok.inj h)), hhost⟩
    · cases h
  · cases h

theorem attributeFor_eq_ok {a : Attribute type} (h : d.attributeFor host type = .ok a) :
    d.member.binding = .value type a ∧ d.host = host := by
  unfold attributeFor at h
  split at h
  · rename_i type' a' hb
    split at h
    · rename_i ht
      subst ht
      split at h
      · rename_i hhost
        exact ⟨hb.trans (congrArg _ (Except.ok.inj h)), hhost⟩
      · cases h
    · cases h
  · cases h

theorem methodFor_eq_ok {f : Method type} (h : d.methodFor host type = .ok f) :
    d.member.binding = .method type f ∧ d.host = host := by
  unfold methodFor at h
  split at h
  · rename_i type' f' hb
    split at h
    · rename_i ht
      subst ht
      split at h
      · rename_i hhost
        exact ⟨hb.trans (congrArg _ (Except.ok.inj h)), hhost⟩
      · cases h
    · cases h
  · cases h

end Descriptor

/-! ## Typed operations -/

section compiled

variable {fs : Flags} {policy : Policy} {d : Descriptor} {plan : Plan} {host : HostClass}
  {type : StaticType}

theorem compileConstruct_eq_ok {t : TypedConstruct}
    (h : compileConstruct fs policy d plan host = .ok t) :
    ∃ arguments k, plan = .construct arguments ∧ d.member.binding = .construction k ∧
      d.host = host ∧ t = ⟨d.qualifiedName, arguments, k⟩ := by
  unfold compileConstruct at h
  split at h
  · cases h
  · split at h
    · cases h
    · rename_i k hk
      split at h
      · rename_i arguments _
        obtain ⟨hb, hhost⟩ := Descriptor.constructionFor_eq_ok hk
        exact ⟨arguments, k, rfl, hb, hhost, (Except.ok.inj h).symm⟩
      · cases h

theorem compileReconstruct_eq_ok {t : TypedReconstruct}
    (h : compileReconstruct fs policy d plan host = .ok t) :
    ∃ declaring arguments k, plan = .reconstruct declaring arguments ∧
      d.member.binding = .construction k ∧ d.host = host ∧
      t = ⟨d.qualifiedName, arguments, k⟩ := by
  unfold compileReconstruct at h
  split at h
  · cases h
  · split at h
    · cases h
    · rename_i k hk
      split at h
      · rename_i declaring arguments _
        obtain ⟨hb, hhost⟩ := Descriptor.constructionFor_eq_ok hk
        exact ⟨declaring, arguments, k, rfl, hb, hhost, (Except.ok.inj h).symm⟩
      · cases h

theorem compileGet_eq_ok {t : TypedRead type}
    (h : compileGet fs policy d plan host type = .ok t) :
    ∃ dispatch index a, plan = .get dispatch index ∧ d.member.binding = .value type a ∧
      d.host = host ∧ t = ⟨d.qualifiedName, dispatch, index, a⟩ := by
  unfold compileGet at h
  split at h
  · cases h
  · split at h
    · cases h
    · rename_i a ha
      split at h
      · rename_i dispatch index _ _
        obtain ⟨hb, hhost⟩ := Descriptor.attributeFor_eq_ok ha
        exact ⟨dispatch, index, a, rfl, hb, hhost, (Except.ok.inj h).symm⟩
      · cases h

theorem compileSet_eq_ok {t : TypedWrite type}
    (h : compileSet fs policy d plan host type = .ok t) :
    ∃ dispatch index value a, plan = .set dispatch index value ∧
      d.member.binding = .value type a ∧ d.host = host ∧
      t = ⟨d.qualifiedName, dispatch, index, a⟩ := by
  unfold compileSet at h
  split at h
  · cases h
  · split at h
    · cases h
    · rename_i a ha
      split at h
      · rename_i dispatch index value _ _
        obtain ⟨hb, hhost⟩ := Descriptor.attributeFor_eq_ok ha
        exact ⟨dispatch, index, value, a, rfl, hb, hhost, (Except.ok.inj h).symm⟩
      · cases h

theorem compileInvoke_eq_ok {t : TypedInvoke type}
    (h : compileInvoke fs policy d plan host type = .ok t) :
    ∃ dispatch arguments f, plan = .invoke dispatch arguments ∧
      d.member.binding = .method type f ∧ d.host = host ∧
      t = ⟨d.qualifiedName, dispatch, arguments, f⟩ := by
  unfold compileInvoke at h
  split at h
  · cases h
  · split at h
    · cases h
    · rename_i f hf
      split at h
      · rename_i dispatch arguments _
        obtain ⟨hb, hhost⟩ := Descriptor.methodFor_eq_ok hf
        exact ⟨dispatch, arguments, f, rfl, hb, hhost, (Except.ok.inj h).symm⟩
      · cases h

theorem TypedThunk.binding_of_compile {shape : TypedShape} {host' : HostClass}
    {result : StaticType} {t : TypedInvoke result}
    (h : TypedThunk.compile fs policy d plan shape host type = .ok (.invoke host' result t)) :
    d.member.binding = .method result t.binding := by
  cases shape
  case invoke =>
    obtain ⟨x, hx, hxt⟩ := map_eq_ok_iff.1 h
    cases hxt
    obtain ⟨_, _, f, -, hb, -, rfl⟩ := compileInvoke_eq_ok hx
    exact hb
  all_goals
    obtain ⟨x, -, hxt⟩ := map_eq_ok_iff.1 h
    cases hxt

end compiled

/-! ## Typed value accessors -/

namespace TypedValueAccessor

variable {fs : Flags} {o : Options} {d : Descriptor} {host : HostClass} {type : StaticType}

/-- Compiles a typed read if the member offers it. -/
def compileGetIf (fs : Flags) (o : Options) (d : Descriptor) (host : HostClass)
    (type : StaticType) : Except AccessError (Option (TypedRead type)) :=
  if d.canRead then do
    let plan ← d.planTyped o .get
    let thunk ← compileGet fs o.policy d plan host type
    return some thunk
  else return none

/-- Compiles a typed write if the member offers it. -/
def compileSetIf (fs : Flags) (o : Options) (d : Descriptor) (host : HostClass)
    (type : StaticType) : Except AccessError (Option (TypedWrite type)) :=
  if d.canWrite then do
    let plan ← d.planTyped o .set
    let thunk ← compileSet fs o.policy d plan host type
    return some thunk
  else return none

theorem build_eq (role : Role) :
    build fs o role host type d = (d.expectRole role >>= fun _ =>
      compileGetIf fs o d host type >>= fun getter =>
        compileSetIf fs o d host type >>= fun setter => return ⟨d, getter, setter⟩) := by
  unfold build compileGetIf compileSetIf
  cases d.canRead <;> cases d.canWrite <;> simp [bind_assoc]

theorem compileGetIf_eq_ok {getter : Option (TypedRead type)}
    (h : compileGetIf fs o d host type = .ok getter) :
    if d.canRead then
      ∃ a, d.member.binding = .value type a ∧ d.host = host ∧
        getter = some ⟨d.qualifiedName, d.dispatch, d.argumentPlan, a⟩
    else getter = none := by
  unfold compileGetIf at h
  split at h
  · rename_i hread
    obtain ⟨plan, hplan, h⟩ := bind_eq_ok_iff.1 h
    obtain ⟨t, ht, hret⟩ := bind_eq_ok_iff.1 h
    obtain rfl := Except.ok.inj hret
    obtain rfl := Except.ok.inj ((d.plan_get .typed o.castPolicy hread).symm.trans hplan)
    obtain ⟨dispatch, index, a, hindex, hb, hhost, rfl⟩ := compileGet_eq_ok ht
    cases hindex
    rw [if_pos hread]
    exact ⟨a, hb, hhost, rfl⟩
  · rename_i hread
    rw [if_neg hread]
    exact (Except.ok.inj h).symm

theorem compileSetIf_eq_ok {setter : Option (TypedWrite type)}
    (h : compileSetIf fs o d host type = .ok setter) :
    if d.canWrite then
      ∃ a, d.member.binding = .value type a ∧ d.host = host ∧
        setter = some ⟨d.qualifiedName, d.dispatch, d.argumentPlan, a⟩
    else setter = none := by
  unfold compileSetIf at h
  split at h
  · rename_i hwrite
    obtain ⟨plan, hplan, h⟩ := bind_eq_ok_iff.1 h
    obtain ⟨t, ht, hret⟩ := bind_eq_ok_iff.1 h
    obtain rfl := Except.ok.inj hret
    obtain rfl := Except.ok.inj ((d.plan_set .typed o.castPolicy hwrite).symm.trans hplan)
    obtain ⟨dispatch, index, value, a, hindex, hb, hhost, rfl⟩ := compileSet_eq_ok ht
    cases hindex
    rw [if_pos hwrite]
    exact ⟨a, hb, hhost, rfl⟩
  · rename_i hwrite
    rw [if_neg hwrite]
    exact (Except.ok.inj h).symm

end TypedValueAccessor

/-! ## Typed accessors -/

namespace TypedAccessor

variable {fs : Flags} {o : Options} {d : Descriptor} {host : HostClass} {type : StaticType}
  {made : TypedAccessor}

theorem role_of_build {role : Role} (h : build fs o role host type d = .ok made) :
    d.role = role := by
  cases role <;>
    obtain ⟨x, hx, -⟩ := map_eq_ok_iff.1 h <;>
    obtain ⟨_, hrole, -⟩ := bind_eq_ok_iff.1 hx <;>
    exact Descriptor.expectRole_eq_ok_iff.1 hrole

theorem descriptor_of_build {role : Role} (h : build fs o role host type d = .ok made) :
    made.descriptor = d := by
  cases role with
  | constructor =>
    obtain ⟨x, hx, rfl⟩ := map_eq_ok_iff.1 h
    simp only [TypedConstructorAccessor.build, bind_eq_ok_iff] at hx
    obtain ⟨-, -, plan, -, thunk, -, hret⟩ := hx
    cases hret
    rfl
  | reconstructor =>
    obtain ⟨x, hx, rfl⟩ := map_eq_ok_iff.1 h
    simp only [TypedReconstructorAccessor.build, bind_eq_ok_iff] at hx
    obtain ⟨-, -, plan, -, thunk, -, hret⟩ := hx
    cases hret
    rfl
  | method =>
    obtain ⟨x, hx, rfl⟩ := map_eq_ok_iff.1 h
    simp only [TypedMethodAccessor.build, bind_eq_ok_iff] at hx
    obtain ⟨-, -, plan, -, thunk, -, hret⟩ := hx
    cases hret
    rfl
  | _ =>
    obtain ⟨x, hx, rfl⟩ := map_eq_ok_iff.1 h
    rw [TypedValueAccessor.build_eq] at hx
    simp only [bind_eq_ok_iff] at hx
    obtain ⟨-, -, getter, -, setter, -, hret⟩ := hx
    cases hret
    rfl

theorem binding_of_build {role : Role} {host' : HostClass} {result : StaticType}
    {a : TypedMethodAccessor result}
    (h : build fs o role host type d = .ok (.method host' result a)) :
    d.member.binding = .method result a.thunk.binding := by
  cases role
  case method =>
    obtain ⟨x, hx, hxa⟩ := map_eq_ok_iff.1 h
    cases hxa
    simp only [TypedMethodAccessor.build, bind_eq_ok_iff] at hx
    obtain ⟨-, -, plan, -, thunk, hthunk, hret⟩ := hx
    cases hret
    obtain ⟨_, _, f, -, hb, -, rfl⟩ := compileInvoke_eq_ok hthunk
    exact hb
  all_goals
    obtain ⟨x, -, hxa⟩ := map_eq_ok_iff.1 h
    cases hxa

theorem build_constructor {k : Construction} (hk : d.member.IsConstructor k)
    (hrole : d.role = .constructor) (h : build fs o .constructor host type d = .ok made) :
    host = d.host ∧ made = .constructor d.host ⟨d, ⟨d.qualifiedName, d.argumentPlan, k⟩⟩ := by
  obtain ⟨x, hx, rfl⟩ := map_eq_ok_iff.1 h
  simp only [TypedConstructorAccessor.build, bind_eq_ok_iff] at hx
  obtain ⟨-, -, plan, hplan, thunk, hthunk, hret⟩ := hx
  obtain rfl := Except.ok.inj hret
  obtain rfl := Except.ok.inj ((d.plan_construct .typed o.castPolicy hrole).symm.trans hplan)
  obtain ⟨arguments, k', harguments, hb, rfl, rfl⟩ := compileConstruct_eq_ok hthunk
  cases harguments
  cases hk.binding.symm.trans hb
  exact ⟨rfl, rfl⟩

theorem build_reconstructor {k : Construction} (hk : d.member.IsConstructor k)
    (hrole : d.role = .reconstructor) (h : build fs o .reconstructor host type d = .ok made) :
    host = d.host ∧ made = .reconstructor d.host ⟨d, ⟨d.qualifiedName, d.argumentPlan, k⟩⟩ := by
  obtain ⟨x, hx, rfl⟩ := map_eq_ok_iff.1 h
  simp only [TypedReconstructorAccessor.build, bind_eq_ok_iff] at hx
  obtain ⟨-, -, plan, hplan, thunk, hthunk, hret⟩ := hx
  obtain rfl := Except.ok.inj hret
  obtain rfl := Except.ok.inj ((d.plan_reconstruct .typed o.castPolicy hrole).symm.trans hplan)
  obtain ⟨declaring, arguments, k', harguments, hb, rfl, rfl⟩ := compileReconstruct_eq_ok hthunk
  cases harguments
  cases hk.binding.symm.trans hb
  exact ⟨rfl, rfl⟩

theorem build_method {result : StaticType} {f : Method result} (hf : d.member.IsMethod f)
    (hrole : d.role = .method) (h : build fs o .method host type d = .ok made) :
    host = d.host ∧
      made = .method d.host result ⟨d, ⟨d.qualifiedName, d.dispatch, d.argumentPlan, f⟩⟩ := by
  obtain ⟨x, hx, rfl⟩ := map_eq_ok_iff.1 h
  simp only [TypedMethodAccessor.build, bind_eq_ok_iff] at hx
  obtain ⟨-, -, plan, hplan, thunk, hthunk, hret⟩ := hx
  obtain rfl := Except.ok.inj hret
  obtain rfl := Except.ok.inj ((d.plan_invoke .typed o.castPolicy hrole).symm.trans hplan)
  obtain ⟨dispatch, arguments, f', harguments, hb, rfl, rfl⟩ := compileInvoke_eq_ok hthunk
  cases harguments
  cases hf.binding.symm.trans hb
  exact ⟨rfl, rfl⟩

theorem build_value {type' : StaticType} {a : Attribute type'} (ha : d.member.IsAttribute a)
    (hrole : d.role.holdsValue = true) (h : build fs o d.role host type d = .ok made) :
    host = d.host ∧ made = .value d.host type' ⟨d,
      if a.hasGetter then some ⟨d.qualifiedName, d.dispatch, d.argumentPlan, a⟩ else none,
      if a.hasSetter then some ⟨d.qualifiedName, d.dispatch, d.argumentPlan, a⟩ else none⟩ := by
  have hbuild : (TypedValueAccessor.build fs o d.role host type d).map (value host type) =
      .ok made := by
    cases hr : d.role <;> rw [hr] at hrole h <;> first | exact h | cases hrole
  obtain ⟨x, hx, rfl⟩ := map_eq_ok_iff.1 hbuild
  rw [TypedValueAccessor.build_eq] at hx
  simp only [bind_eq_ok_iff] at hx
  obtain ⟨-, -, getter, hget, setter, hset, hret⟩ := hx
  obtain rfl := Except.ok.inj hret
  have hgetter := TypedValueAccessor.compileGetIf_eq_ok hget
  have hsetter := TypedValueAccessor.compileSetIf_eq_ok hset
  rw [Descriptor.canRead_eq ha hrole] at hgetter
  rw [Descriptor.canWrite_eq ha hrole] at hsetter
  -- one of the two halves is offered, and either finds the binding
  have hfound : ∃ a' : Attribute type, d.member.binding = .value type a' ∧ d.host = host := by
    rcases ha.offered with hg | hs
    · rw [if_pos hg] at hgetter
      exact hgetter.imp fun _ h => ⟨h.1, h.2.1⟩
    · rw [if_pos hs] at hsetter
      exact hsetter.imp fun _ h => ⟨h.1, h.2.1⟩
  obtain ⟨b, hb, rfl⟩ := hfound
  cases ha.binding.symm.trans hb
  refine ⟨rfl, ?_⟩
  have hg : getter = if b.hasGetter then some ⟨d.qualifiedName, d.dispatch, d.argumentPlan, b⟩
      else none := by
    by_cases hg : b.hasGetter = true
    · rw [if_pos hg] at hgetter ⊢
      obtain ⟨c, hc, -, hgetter⟩ := hgetter
      cases hb.symm.trans hc
      exact hgetter
    · rwa [if_neg hg] at hgetter ⊢
  have hs : setter = if b.hasSetter then some ⟨d.qualifiedName, d.dispatch, d.argumentPlan, b⟩
      else none := by
    by_cases hs : b.hasSetter = true
    · rw [if_pos hs] at hsetter ⊢
      obtain ⟨c, hc, -, hsetter⟩ := hsetter
      cases hb.symm.trans hc
      exact hsetter
    · rwa [if_neg hs] at hsetter ⊢
  rw [hg, hs]

end TypedAccessor

end MemberAccess
