import MemberAccess.Proofs.Accessor.BuiltTyped
import MemberAccess.Proofs.Member.Runs
import MemberAccess.Proofs.Thunk.Prepared

/-!
# The two surfaces

A member can be used untyped, on a reference to an object, and typed, on the contents of the object.
The two ways agree whenever the object itself is not among the values given: same result, same
error, same world afterwards.

* `constructor_agrees` and its like: the agreement for each form of descriptor.
* `surfaces_agree`: the agreement for any registered member.
-/

namespace MemberAccess

/-! ## The four forms -/

section forms

variable {d : Descriptor} {w : World} {target : Option ObjectRef}

theorem constructor_agrees (hheld : ∀ o ∈ target, w.Holds o) (k : Construction)
    (hrole : d.role = .constructor) (q : TypedRequest (.base .void)) :
    (Accessor.calls ⟨d, .construct d.qualifiedName d.host d.argumentPlan k⟩).answer w
        (q.boxed (Value.ofTarget target)) =
      ((TypedAccessor.constructor d.host ⟨d, ⟨d.qualifiedName, d.argumentPlan, k⟩⟩).answer w
        (target.map w.contents) q).map (·.settle target) := by
  cases q with
  | get index => rfl
  | set index x => rfl
  | invoke args =>
    refine congrArg some ?_
    unfold CallAccessor.invoke
    rw [hrole]
    show Thunk.runConstruct _ w args =
      (Effect.ofBuilt d.host w (target.map w.contents)
        (TypedConstruct.run ⟨d.qualifiedName, d.argumentPlan, k⟩ args)).settle target
    unfold Thunk.runConstruct
    dsimp only
    rw [prepare_static .null args rfl]
    unfold TypedConstruct.run
    cases d.argumentPlan.coerce d.qualifiedName args with
    | error e => exact (Effect.settle_refused e w target).symm
    | ok arguments =>
      show k.allocate d.host w arguments =
        (Effect.ofBuilt d.host w (target.map w.contents) (k.build arguments)).settle target
      unfold Construction.allocate
      cases k.build arguments with
      | error e => exact (Effect.settle_refused e w target).symm
      | ok s =>
        cases target with
        | none => rfl
        | some o => exact congrArg _ ((hheld o rfl).store_contents_allocate d.host s).symm

theorem settle_dispatched {α : Type} {args : List Value}
    {assigned : Option (ArgumentSlot × Value)} {value : Option Value}
    (hhost : ∀ o ∈ target, o.host = d.host) (run : Option Slots → List Value → Effect α)
    (hvalue : coerceAssigned d.qualifiedName assigned = .ok value)
    (hfree : d.isStatic = false → ∀ o ∈ target, firstAlias o args value = none)
    (hgrown : ∀ xs, w.Grown (run none xs).world) :
    (prepareTyped d.qualifiedName d.dispatch d.argumentPlan w (target.map w.contents) args
        run).settle target =
      match prepare d.qualifiedName d.dispatch d.argumentPlan (Value.ofTarget target) args
        assigned with
      | .error e => (.error e, w)
      | .ok p => onReceiver d.host w p.receiver fun own => run own p.arguments := by
  rcases d.dispatch_eq with ⟨hdispatch, -⟩ | ⟨hdispatch, hstatic⟩
  · exact settle_prepareTyped run (Or.inl hdispatch) hhost hvalue
      (fun hne => absurd hdispatch hne) hgrown
  · exact settle_prepareTyped run (Or.inr hdispatch) hhost hvalue (fun _ => hfree hstatic) hgrown

theorem reconstructor_agrees (hhost : ∀ o ∈ target, o.host = d.host) (k : Construction)
    (hrole : d.role = .reconstructor) (q : TypedRequest (.base .void))
    (hfree : ∀ o ∈ target, ∀ v ∈ q.values, v.refersTo o = false) :
    (Accessor.calls ⟨d, .reconstruct d.qualifiedName d.host (.onInstance d.host) d.argumentPlan
        k⟩).answer w (q.boxed (Value.ofTarget target)) =
      ((TypedAccessor.reconstructor d.host ⟨d, ⟨d.qualifiedName, d.argumentPlan, k⟩⟩).answer w
        (target.map w.contents) q).map (·.settle target) := by
  cases q with
  | get index => rfl
  | set index x => rfl
  | invoke args =>
    refine congrArg some ?_
    unfold CallAccessor.invoke
    rw [hrole]
    show _ = (Effect.map (fun _ => Value.null) (TypedReconstruct.run
      ⟨d.qualifiedName, d.argumentPlan, k⟩ w (target.map w.contents) args)).settle target
    rw [TypedReconstruct.run_eq _ d.host, map_prepareTyped]
    have hclear : ∀ o ∈ target, firstAlias o args none = none := fun o ho =>
      firstAlias_eq_none_iff.2 ⟨hfree o ho, nofun⟩
    exact (settle_prepareTyped (fun own xs => (k.rebuildOver w own xs).map fun _ => Value.null)
      (Or.inr rfl) hhost rfl (fun _ => hclear) (fun xs => k.grown_rebuildOver w none xs)).symm

theorem method_agrees (hhost : ∀ o ∈ target, o.host = d.host) {result : StaticType}
    (f : Method result) (hrole : d.role = .method) (q : TypedRequest result)
    (hfree : d.isStatic = false → ∀ o ∈ target, ∀ v ∈ q.values, v.refersTo o = false) :
    (Accessor.calls ⟨d, .invoke d.qualifiedName d.host d.dispatch d.argumentPlan result f⟩).answer w
        (q.boxed (Value.ofTarget target)) =
      ((TypedAccessor.method d.host result
        ⟨d, ⟨d.qualifiedName, d.dispatch, d.argumentPlan, f⟩⟩).answer w
          (target.map w.contents) q).map (·.settle target) := by
  cases q with
  | get index => rfl
  | set index x => rfl
  | invoke args =>
    refine congrArg some ?_
    unfold CallAccessor.invoke
    rw [hrole]
    show _ = (Effect.map result.toValue (TypedInvoke.run
      ⟨d.qualifiedName, d.dispatch, d.argumentPlan, f⟩ w (target.map w.contents) args)).settle
        target
    unfold TypedInvoke.run
    rw [map_prepareTyped]
    have hclear : d.isStatic = false → ∀ o ∈ target, firstAlias o args none = none :=
      fun hs o ho => firstAlias_eq_none_iff.2 ⟨hfree hs o ho, nofun⟩
    exact (settle_dispatched hhost (fun own xs => (f.invoke w own xs).map result.toValue) rfl
      hclear (fun xs => f.grown_invoke w none xs)).symm

section value

variable {type : StaticType} {a : Attribute type}

theorem get_agrees (hhost : ∀ o ∈ target, o.host = d.host) (hrole : d.role.holdsValue = true)
    (index : List Value)
    (hfree : d.isStatic = false → ∀ o ∈ target, ∀ v ∈ index, v.refersTo o = false)
    (setter : Option Thunk) (setter' : Option (TypedWrite type)) :
    ValueAccessor.get ⟨d,
        if a.hasGetter then some (.read d.qualifiedName d.host d.dispatch d.argumentPlan type a)
        else none, setter⟩ w (Value.ofTarget target) index =
      ((TypedValueAccessor.get ⟨d,
        if a.hasGetter then some ⟨d.qualifiedName, d.dispatch, d.argumentPlan, a⟩ else none,
        setter'⟩ w (target.map w.contents) index).map type.toValue).settle target := by
  unfold ValueAccessor.get TypedValueAccessor.get
  rw [ValueAccessor.index_eq hrole, TypedValueAccessor.index_eq hrole]
  by_cases hg : a.hasGetter = true
  · rw [if_pos hg, if_pos hg]
    have hclear : d.isStatic = false → ∀ o ∈ target, firstAlias o (d.vector index) none = none :=
      fun hs o ho => firstAlias_eq_none_iff.2
        ⟨fun v hv => hfree hs o ho v (Descriptor.mem_vector hv), nofun⟩
    show _ = (Effect.map type.toValue (TypedRead.run
      ⟨d.qualifiedName, d.dispatch, d.argumentPlan, a⟩ w (target.map w.contents)
      (d.vector index))).settle target
    unfold TypedRead.run
    rw [map_prepareTyped]
    exact (settle_dispatched hhost (fun own xs => (a.read w own xs).map type.toValue) rfl hclear
      (fun xs => a.grown_read w none xs)).symm
  · rw [if_neg hg, if_neg hg]
    exact (Effect.settle_refused (d.notSupported .get) w target).symm

/-- A boxed value is of its type, so the untyped setter does not touch it. -/
theorem coerceAssigned_toValue (hvalueType : d.member.valueType = type.handle)
    (policy : CastPolicy) (x : type.Carrier) :
    coerceAssigned d.qualifiedName (some (d.valueSlot .untyped policy, type.toValue x)) =
      .ok (some (type.toValue x)) := by
  have haccepts : (d.valueSlot .untyped policy).type.accepts (type.toValue x) = true := by
    show d.member.valueType.accepts (type.toValue x) = true
    rw [hvalueType]
    exact type.accepts_toValue x
  rw [coerceAssigned_some, ArgumentSlot.coerce_of_accepts haccepts]
  rfl

theorem TypedWrite.run_eq (t : TypedWrite type) (w : World) (own : Option Slots)
    (index : List Value) (x : type.Carrier) :
    t.run w own index x = prepareTyped t.member t.dispatch t.index w own index
      fun own xs => t.binding.writeConverted w own xs (type.toValue x) := by
  have hwrite : (fun own xs => t.binding.writeConverted w own xs (type.toValue x)) =
      fun own xs => t.binding.write w own xs x := by
    funext own xs
    exact t.binding.writeConverted_toValue w own xs x
  rw [hwrite]
  rfl

theorem set_agrees (hhost : ∀ o ∈ target, o.host = d.host) (hrole : d.role.holdsValue = true)
    (hvalueType : d.member.valueType = type.handle) (policy : CastPolicy) (index : List Value)
    (x : type.Carrier)
    (hfree : d.isStatic = false → ∀ o ∈ target,
      ∀ v ∈ index ++ [type.toValue x], v.refersTo o = false)
    (getter : Option Thunk) (getter' : Option (TypedRead type)) :
    ValueAccessor.set ⟨d, getter,
        if a.hasSetter then some (.write d.qualifiedName d.host d.dispatch d.argumentPlan
          (d.valueSlot .untyped policy) type a)
        else none⟩ w (Value.ofTarget target) index (type.toValue x) =
      (TypedValueAccessor.set ⟨d, getter',
        if a.hasSetter then some ⟨d.qualifiedName, d.dispatch, d.argumentPlan, a⟩ else none⟩ w
        (target.map w.contents) index x).settle target := by
  unfold ValueAccessor.set TypedValueAccessor.set
  rw [ValueAccessor.index_eq hrole, TypedValueAccessor.index_eq hrole]
  by_cases hs : a.hasSetter = true
  · rw [if_pos hs, if_pos hs]
    have hvalue := coerceAssigned_toValue hvalueType policy x
    have hclear : d.isStatic = false → ∀ o ∈ target,
        firstAlias o (d.vector index) (some (type.toValue x)) = none := by
      intro hst o ho
      refine firstAlias_eq_none_iff.2 ⟨fun v hv => ?_, fun v hv => ?_⟩
      · exact hfree hst o ho v (List.mem_append_left _ (Descriptor.mem_vector hv))
      · cases hv
        exact hfree hst o ho _ (List.mem_append_right _ List.mem_cons_self)
    have hsettle := settle_dispatched hhost
      (fun own xs => a.writeConverted w own xs (type.toValue x)) hvalue hclear fun xs => by
        rw [a.writeConverted_toValue]
        exact a.grown_write w none xs x
    show Thunk.runWrite _ w _ (d.vector index) _ = Effect.settle (TypedWrite.run
      ⟨d.qualifiedName, d.dispatch, d.argumentPlan, a⟩ w _ (d.vector index) x) target
    rw [TypedWrite.run_eq, hsettle]
    simp only [Thunk.runWrite]
    cases hp : prepare d.qualifiedName d.dispatch d.argumentPlan (Value.ofTarget target)
      (d.vector index) (some (d.valueSlot .untyped policy, type.toValue x)) with
    | error e => rfl
    | ok p =>
      obtain ⟨-, -, -, hassigned⟩ := prepare_eq_ok hp
      have hsame : p.assigned = some (type.toValue x) := Except.ok.inj (hassigned.symm.trans hvalue)
      show a.writeValue d.host w p.receiver p.arguments (p.assigned.getD _) = _
      rw [hsame]
      rfl
  · rw [if_neg hs, if_neg hs]
    exact (Effect.settle_refused (d.notSupported .set) w target).symm

theorem value_agrees (hhost : ∀ o ∈ target, o.host = d.host) (ha : d.member.IsAttribute a)
    (hrole : d.role.holdsValue = true) (policy : CastPolicy) (q : TypedRequest type)
    (hfree : d.isStatic = false → ∀ o ∈ target, ∀ v ∈ q.values, v.refersTo o = false) :
    (Accessor.holds ⟨d,
        if a.hasGetter then some (.read d.qualifiedName d.host d.dispatch d.argumentPlan type a)
        else none,
        if a.hasSetter then some (.write d.qualifiedName d.host d.dispatch d.argumentPlan
          (d.valueSlot .untyped policy) type a)
        else none⟩).answer w (q.boxed (Value.ofTarget target)) =
      ((TypedAccessor.value d.host type ⟨d,
        if a.hasGetter then some ⟨d.qualifiedName, d.dispatch, d.argumentPlan, a⟩ else none,
        if a.hasSetter then some ⟨d.qualifiedName, d.dispatch, d.argumentPlan, a⟩ else none⟩).answer
          w (target.map w.contents) q).map (·.settle target) := by
  cases q with
  | invoke args => rfl
  | get index => exact congrArg some (get_agrees hhost hrole index hfree _ _)
  | set index x =>
    have hset := set_agrees (a := a) (w := w) hhost hrole ha.valueType policy index x hfree
    refine congrArg some ?_
    show Outcome.asNull _ = Effect.settle (Effect.map _ _) target
    rw [Effect.settle_map, hset]
    rfl

end value

end forms

/-! ## Any registered member -/

/-- An untyped call on an object and a typed call on its contents agree. The two accessors may be
built at different times and under different options. -/
theorem surfaces_agree {blocks : List (HostClass × List Registration)} {d : Descriptor}
    (hd : d.Over (Registry.ofBlocks blocks)) {fs fs' : Flags} {o o' : Options} {role role' : Role}
    {host : HostClass} {type : StaticType} {a : Accessor} {t : TypedAccessor}
    (ha : Accessor.build fs o role d = .ok a)
    (ht : TypedAccessor.build fs' o' role' host type d = .ok t)
    (w : World) (target : Option ObjectRef) (hhost : ∀ x ∈ target, x.host = host ∧ w.Holds x)
    (q : TypedRequest t.type)
    (hfree : d.isStatic = false → ∀ x ∈ target, ∀ v ∈ q.values, v.refersTo x = false) :
    a.answer w (q.boxed (Value.ofTarget target)) =
      (t.answer w (target.map w.contents) q).map (·.settle target) := by
  obtain rfl := Accessor.role_of_build fs o ha
  obtain rfl := TypedAccessor.role_of_build ht
  cases hd.form with
  | constructor k hk hrole =>
    rw [Accessor.build_constructor fs o hk hrole] at ha
    obtain ⟨-, -, rfl⟩ := map_eq_ok_iff.1 ha
    rw [hrole] at ht
    obtain ⟨rfl, rfl⟩ := TypedAccessor.build_constructor hk hrole ht
    exact constructor_agrees (fun x hx => (hhost x hx).2) k hrole q
  | reconstructor k hk hrole =>
    rw [Accessor.build_reconstructor fs o hk hrole] at ha
    obtain ⟨-, -, rfl⟩ := map_eq_ok_iff.1 ha
    rw [hrole] at ht
    obtain ⟨rfl, rfl⟩ := TypedAccessor.build_reconstructor hk hrole ht
    have hstatic : d.isStatic = false := by rw [Descriptor.isStatic, hrole]
    exact reconstructor_agrees (fun x hx => (hhost x hx).1) k hrole q (hfree hstatic)
  | value type' a' ha' hrole hindex =>
    obtain rfl := Accessor.build_value fs o ha' hrole ha
    obtain ⟨rfl, rfl⟩ := TypedAccessor.build_value ha' hrole ht
    exact value_agrees (fun x hx => (hhost x hx).1) ha' hrole o.castPolicy q hfree
  | method result f hf hrole =>
    rw [Accessor.build_method fs o hf hrole] at ha
    obtain ⟨-, -, rfl⟩ := map_eq_ok_iff.1 ha
    rw [hrole] at ht
    obtain ⟨rfl, rfl⟩ := TypedAccessor.build_method hf hrole ht
    exact method_agrees (fun x hx => (hhost x hx).1) f hrole q hfree

/-- The field of the sample class is written alike on both surfaces. -/
theorem surfaces_agree_pointX : ∃ a t,
    Accessor.build .empty .standard .field pointX = .ok a ∧
    TypedAccessor.build .empty .standard .field pointClass (.base .int32) pointX = .ok t ∧
    ∃ q : TypedRequest t.type,
      a.answer pointWorld (q.boxed (.object pointRef)) =
        (t.answer pointWorld (some (pointWorld.contents pointRef)) q).map (·.settle pointRef) ∧
      a.answer pointWorld (q.boxed (.object pointRef)) =
        some (.ok .null, pointWorld.store pointRef (Slots.empty.set "x" (.int32 5))) := by
  have ha : Accessor.build .empty .standard .field pointX = .ok _ := rfl
  have ht : TypedAccessor.build .empty .standard .field pointClass (.base .int32) pointX = .ok _ :=
    rfl
  refine ⟨_, _, ha, ht, .set [] (5 : Int32), ?_, rfl⟩
  refine surfaces_agree over_pointX ha ht pointWorld (some pointRef) ?_ _ ?_
  · rintro x ⟨⟩
    exact ⟨rfl, .empty, rfl⟩
  · rintro - x ⟨⟩ v hv
    cases List.mem_singleton.1 hv
    rfl

end MemberAccess
