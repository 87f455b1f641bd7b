import MemberAccess.Proofs.Call.Handover
import MemberAccess.Proofs.Call.RoundTrip

/-!
# What the cast policy decides

Two sets of options that differ in the cast policy. Plans differ in the coercion of the value that
an untyped setter takes and in nothing else, so builds succeed or fail alike, and of the calls only
an untyped write can tell the policies apart: where a nullable reference does not take the value,
the one writes null and the other refuses.

* `Descriptor.plan_eq_of_ne_set`, `Descriptor.plan_typed_eq`: plans that are the same.
* `TypedAccessor.build_eq_of_policy`: typed builds are the same.
* `Accessor.build_cases_of_policy`: untyped builds are the same, or they differ in the slot of a
  setter.
* `cast_policy_decides_nulls_only`: the two runs of a call.
-/

namespace MemberAccess

/-! ## Plans -/

namespace Descriptor

variable (d : Descriptor) (cast cast' : CastPolicy)

theorem plan_eq_of_ne_set (surface : Surface) {operation : Operation} (h : operation ≠ .set) :
    d.plan surface cast operation = d.plan surface cast' operation := by
  unfold plan
  cases d.role <;> cases operation <;> first | rfl | exact absurd rfl h

theorem plan_typed_eq (operation : Operation) :
    d.plan .typed cast operation = d.plan .typed cast' operation := by
  have hslot : d.valueSlot .typed cast = d.valueSlot .typed cast' := by
    unfold valueSlot Coercion.forAssigned
    cases d.member.valueType.kind <;> rfl
  unfold plan
  rw [hslot]

end Descriptor

/-! ## Builds -/

/-- The setter that a descriptor over an attribute has under a cast policy. -/
def Descriptor.writer (d : Descriptor) (type : StaticType) (b : Attribute type)
    (cast : CastPolicy) : Thunk :=
  .write d.qualifiedName d.host d.dispatch d.argumentPlan (d.valueSlot .untyped cast) type b

section builds

variable (fs : Flags) (policy : Policy) (cast cast' : CastPolicy) (d : Descriptor)

theorem planTyped_eq_of_policy (operation : Operation) :
    d.planTyped ⟨policy, cast⟩ operation = d.planTyped ⟨policy, cast'⟩ operation :=
  d.plan_typed_eq cast cast' operation

theorem TypedAccessor.build_eq_of_policy (role : Role) (host : HostClass) (type : StaticType) :
    build fs ⟨policy, cast⟩ role host type d = build fs ⟨policy, cast'⟩ role host type d := by
  have hplan := planTyped_eq_of_policy policy cast cast' d
  unfold build TypedConstructorAccessor.build TypedReconstructorAccessor.build
    TypedMethodAccessor.build TypedValueAccessor.build
  simp only [hplan]

theorem compileUntyped_eq_of_policy {operation : Operation} (h : operation ≠ .set) :
    compileUntyped fs ⟨policy, cast⟩ d operation =
      compileUntyped fs ⟨policy, cast'⟩ d operation := by
  unfold compileUntyped
  rw [d.plan_eq_of_ne_set cast cast' .untyped h]

theorem compileIf_eq_of_policy (offered : Bool) {operation : Operation} (h : operation ≠ .set) :
    compileIf offered fs ⟨policy, cast⟩ d operation =
      compileIf offered fs ⟨policy, cast'⟩ d operation := by
  unfold compileIf
  rw [compileUntyped_eq_of_policy fs policy cast cast' d h]

theorem compileIf_set_cases :
    (∃ x, ∀ cast, compileIf d.canWrite fs ⟨policy, cast⟩ d .set = x) ∨
      ∃ type b, ∀ cast,
        compileIf d.canWrite fs ⟨policy, cast⟩ d .set = .ok (some (d.writer type b cast)) := by
  by_cases hwrite : d.canWrite = true
  · have hcompile : ∀ cast, compileIf d.canWrite fs ⟨policy, cast⟩ d .set =
        (compile fs policy d (.set d.dispatch d.argumentPlan (d.valueSlot .untyped cast))).map
          some := by
      intro cast
      unfold compileIf compileUntyped
      rw [if_pos hwrite, d.plan_set .untyped cast hwrite]
    have hadmission : ∀ cast, admission fs policy d
        (.set d.dispatch d.argumentPlan (d.valueSlot .untyped cast)) =
          admission fs policy d (.set d.dispatch d.argumentPlan (d.valueSlot .untyped .fail)) :=
      fun _ => rfl
    simp only [hcompile]
    unfold compile
    cases hadmitted : admission fs policy d
        (.set d.dispatch d.argumentPlan (d.valueSlot .untyped .fail)) with
    | error e =>
      refine Or.inl ⟨.error e, fun cast => ?_⟩
      rw [hadmission cast, hadmitted]
      rfl
    | ok admitted =>
      simp only [hadmission, hadmitted]
      cases d.member.binding with
      | value type b =>
        cases hsetter : b.hasSetter with
        | true =>
          refine Or.inr ⟨type, b, fun cast => ?_⟩
          simp only [Thunk.bind?, hsetter, if_true]
          rfl
        | false =>
          refine Or.inl ⟨.error (d.refusal (.unfit .set d.role)), fun cast => ?_⟩
          simp only [Thunk.bind?, hsetter]
          rfl
      | _ => exact Or.inl ⟨.error (d.refusal (.unfit .set d.role)), fun cast => rfl⟩
  · exact Or.inl ⟨.ok none, fun cast => if_neg hwrite⟩

/-- An accessor of a descriptor, for every cast policy: the policy shows in the slot of a setter or
not at all. -/
theorem Accessor.build_cases_of_policy (role : Role) :
    (∃ x, ∀ cast, build fs ⟨policy, cast⟩ role d = x) ∨
      ∃ getter type b, ∀ cast, build fs ⟨policy, cast⟩ role d =
        .ok (.holds ⟨d, getter, some (d.writer type b cast)⟩) := by
  unfold build
  cases d.expectRole role with
  | error e => exact Or.inl ⟨.error e, fun _ => rfl⟩
  | ok u =>
    cases role.holdsValue with
    | false =>
      refine Or.inl ⟨(CallAccessor.build fs ⟨policy, .fail⟩ d).map calls, fun cast => ?_⟩
      have hoperation : CallAccessor.operation d.role ≠ .set := by cases d.role <;> nofun
      unfold CallAccessor.build
      rw [compileUntyped_eq_of_policy fs policy cast .fail d hoperation]
      rfl
    | true =>
      dsimp only
      unfold ValueAccessor.build
      have hgetter : ∀ cast, compileIf d.canRead fs ⟨policy, cast⟩ d .get =
          compileIf d.canRead fs ⟨policy, .fail⟩ d .get :=
        fun cast => compileIf_eq_of_policy fs policy cast .fail d _ nofun
      simp only [hgetter]
      cases compileIf d.canRead fs ⟨policy, .fail⟩ d .get with
      | error e => exact Or.inl ⟨.error e, fun _ => rfl⟩
      | ok getter =>
        rcases compileIf_set_cases fs policy d with ⟨x, hsetter⟩ | ⟨type, b, hsetter⟩
        · simp only [hsetter]
          exact Or.inl ⟨_, fun _ => rfl⟩
        · simp only [hsetter]
          exact Or.inr ⟨getter, type, b, fun _ => rfl⟩

end builds

/-! ## Writes -/

/-- Where the assigned value is refused, a call is refused for it, or for a reason that the value
has no part in. -/
theorem prepare_of_refused {member : String} {dispatch : Dispatch} {plan : ArgumentPlan}
    {target : Value} {args : List Value} {assigned : Option (ArgumentSlot × Value)}
    {e : AccessError} (h : coerceAssigned member assigned = .error e) :
    prepare member dispatch plan target args assigned = .error e ∨
      ∃ e', ∀ assigned', prepare member dispatch plan target args assigned' = .error e' := by
  unfold prepare
  -- the value is looked at after the target and the arguments
  cases dispatch.receiver member target with
  | error e' => exact Or.inr ⟨e', fun _ => rfl⟩
  | ok receiver =>
    cases plan.coerce member args with
    | error e' => exact Or.inr ⟨e', fun _ => rfl⟩
    | ok arguments =>
      left
      dsimp only
      rw [h]

theorem prepare_congr {member : String} {dispatch : Dispatch} {plan : ArgumentPlan}
    {target : Value} {args : List Value} {assigned assigned' : Option (ArgumentSlot × Value)}
    (h : coerceAssigned member assigned = coerceAssigned member assigned') :
    prepare member dispatch plan target args assigned =
      prepare member dispatch plan target args assigned' := by
  unfold prepare
  rw [h]

namespace Descriptor

variable {d : Descriptor} {v : Value}

theorem coerceAssigned_of_not_nulls (h : ¬ d.Nulls .nullOnMismatch v) :
    coerceAssigned d.qualifiedName (some (d.valueSlot .untyped .nullOnMismatch, v)) =
      coerceAssigned d.qualifiedName (some (d.valueSlot .untyped .fail, v)) := by
  have hlenient : d.replaces .nullOnMismatch v = false :=
    Bool.eq_false_iff.2 fun hreplaces => h (replaces_iff.1 hreplaces)
  have hstrict : d.replaces .fail v = false :=
    Bool.eq_false_iff.2 fun hreplaces => nomatch (replaces_iff.1 hreplaces).policy
  have hcoerced := coerce_valueSlot d
  rw [coerceAssigned_some, coerceAssigned_some, hcoerced, hcoerced]
  simp only [wrongAssigned, stored, hlenient, hstrict]

variable (h : d.Nulls .nullOnMismatch v)

include h

theorem Nulls.coerceAssigned_lenient :
    coerceAssigned d.qualifiedName (some (d.valueSlot .untyped .nullOnMismatch, v)) =
      coerceAssigned d.qualifiedName (some (d.valueSlot .untyped .nullOnMismatch, .null)) := by
  have hcoercion :
      Coercion.forAssigned d.member.valueType .untyped .nullOnMismatch = .safeCast := by
    unfold Coercion.forAssigned
    rw [h.reference]
  have hnull : d.member.valueType.accepts .null = true := by
    simp [TypeHandle.accepts, h.reference, Value.runtimeBase, h.nullable]
  rw [coerceAssigned_some, coerceAssigned_some]
  simp [ArgumentSlot.coerce, valueSlot, hcoercion, h.rejected, h.nullable, hnull]

theorem Nulls.coerceAssigned_strict :
    coerceAssigned d.qualifiedName (some (d.valueSlot .untyped .fail, v)) =
      .error (.invalidCast d.qualifiedName .assigned d.member.valueType v.typeName) := by
  have hcoercion : Coercion.forAssigned d.member.valueType .untyped .fail = .hardCast := by
    unfold Coercion.forAssigned
    rw [h.reference]
  rw [coerceAssigned_some]
  simp [ArgumentSlot.coerce, valueSlot, hcoercion, h.rejected, Except.map]

end Descriptor

/-! ## Two runs -/

section writes

variable {d : Descriptor} {type : StaticType} {b : Attribute type} {w : World} {target v : Value}
  {index : List Value}

theorem answer_writer_congr {cast cast' : CastPolicy} {v' : Value}
    (h : coerceAssigned d.qualifiedName (some (d.valueSlot .untyped cast, v)) =
      coerceAssigned d.qualifiedName (some (d.valueSlot .untyped cast', v'))) :
    (d.writer type b cast).answer w (.set target index v) =
      (d.writer type b cast').answer w (.set target index v') := by
  have hchecks : (d.writer type b cast).checks (.set target index v) =
      (d.writer type b cast').checks (.set target index v') := prepare_congr h
  rw [Thunk.answer_eq, Thunk.answer_eq, hchecks]
  rfl

/-- What the two policies make of one write: the same, or null is written and it is refused. -/
theorem answer_writer_cases :
    (d.writer type b .nullOnMismatch).answer w (.set target index v) =
        (d.writer type b .fail).answer w (.set target index v) ∨
      d.Nulls .nullOnMismatch v ∧
      (d.writer type b .fail).answer w (.set target index v) =
        (.error (.invalidCast d.qualifiedName .assigned d.member.valueType v.typeName), w) ∧
      (d.writer type b .nullOnMismatch).answer w (.set target index v) =
        (d.writer type b .nullOnMismatch).answer w (.set target index .null) := by
  by_cases hnulls : d.Nulls .nullOnMismatch v
  · rcases prepare_of_refused hnulls.coerceAssigned_strict with hrefused | ⟨e, hearlier⟩
    · refine Or.inr ⟨hnulls, ?_, answer_writer_congr hnulls.coerceAssigned_lenient⟩
      have hchecks : (d.writer type b .fail).checks (.set target index v) = _ := hrefused
      rw [Thunk.answer_eq, hchecks]
    · have hchecks : ∀ cast, (d.writer type b cast).checks (.set target index v) = .error e :=
        fun _ => hearlier _
      refine Or.inl ?_
      rw [Thunk.answer_eq, Thunk.answer_eq, hchecks, hchecks]
  · exact Or.inl (answer_writer_congr (Descriptor.coerceAssigned_of_not_nulls hnulls))

end writes

/-- Accessors of one descriptor under one access policy and either cast policy. The typed ones are
the same. The untyped ones are built or refused alike, and they answer every call alike, except that
a write of a value that a nullable reference does not take is refused under the strict policy and
leaves everything as it was, while the lenient one writes null. -/
theorem cast_policy_decides_nulls_only (d : Descriptor) (fs : Flags) (policy : Policy)
    (role : Role) :
    (∀ host type, TypedAccessor.build fs ⟨policy, .nullOnMismatch⟩ role host type d =
      TypedAccessor.build fs ⟨policy, .fail⟩ role host type d) ∧
    (∀ e, Accessor.build fs ⟨policy, .nullOnMismatch⟩ role d = .error e ↔
      Accessor.build fs ⟨policy, .fail⟩ role d = .error e) ∧
    ∀ lenient strict, Accessor.build fs ⟨policy, .nullOnMismatch⟩ role d = .ok lenient →
      Accessor.build fs ⟨policy, .fail⟩ role d = .ok strict → ∀ w q,
        lenient.answer w q = strict.answer w q ∨
          ∃ target index v, q = .set target index v ∧ d.Nulls .nullOnMismatch v ∧
            strict.answer w q = some (.error (.invalidCast d.qualifiedName .assigned
              d.member.valueType v.typeName), w) ∧
            lenient.answer w q = lenient.answer w (.set target index .null) := by
  refine ⟨fun host type => TypedAccessor.build_eq_of_policy fs policy _ _ d role host type, ?_⟩
  rcases Accessor.build_cases_of_policy fs policy d role with ⟨x, hx⟩ | ⟨getter, type, b, hbuild⟩
  · refine ⟨fun e => by rw [hx, hx], fun lenient strict hlenient hstrict w q => Or.inl ?_⟩
    rw [hx] at hlenient hstrict
    obtain rfl := Except.ok.inj (hlenient.symm.trans hstrict)
    rfl
  · refine ⟨fun e => ?_, fun lenient strict hlenient hstrict w q => ?_⟩
    · rw [hbuild, hbuild]
      exact iff_of_false nofun nofun
    · rw [hbuild] at hlenient hstrict
      obtain rfl := Except.ok.inj hlenient
      obtain rfl := Except.ok.inj hstrict
      cases q with
      | set target index v =>
        have hanswer : ∀ cast v, (Accessor.holds ⟨d, getter, some (d.writer type b cast)⟩).answer w
            (.set target index v) = some ((d.writer type b cast).answer w
              (.set target (ValueAccessor.index ⟨d, none, none⟩ index) v)) := fun _ _ => rfl
        simp only [hanswer]
        rcases answer_writer_cases (d := d) with hsame | ⟨hnulls, hstrict, hlenient⟩
        · exact Or.inl (congrArg some hsame)
        · refine Or.inr ⟨target, index, v, rfl, hnulls, congrArg some hstrict, ?_⟩
          rw [hanswer, hlenient]
      | _ => exact Or.inl rfl

/-- An object assigned to the sample field for a string or null: null is written under the one
policy, and the other refuses. -/
theorem cast_policy_decides_nulls_only_pointLabel : ∃ lenient strict w',
    Accessor.build .empty ⟨.unrestricted, .nullOnMismatch⟩ .field pointLabel = .ok lenient ∧
    Accessor.build .empty ⟨.unrestricted, .fail⟩ .field pointLabel = .ok strict ∧
    lenient.answer pointWorld (.set (.object pointRef) [] (.object pointRef)) =
      some (.ok .null, w') ∧
    lenient.answer pointWorld (.set (.object pointRef) [] (.object pointRef)) =
      lenient.answer pointWorld (.set (.object pointRef) [] .null) ∧
    strict.answer pointWorld (.set (.object pointRef) [] (.object pointRef)) =
      some (.error (.invalidCast pointLabel.qualifiedName .assigned pointLabel.member.valueType
        "Point"), pointWorld) := by
  have hlenient : Accessor.build .empty ⟨.unrestricted, .nullOnMismatch⟩ .field pointLabel =
    .ok _ := rfl
  have hstrict : Accessor.build .empty ⟨.unrestricted, .fail⟩ .field pointLabel = .ok _ := rfl
  obtain ⟨-, -, hcases⟩ := cast_policy_decides_nulls_only pointLabel .empty .unrestricted .field
  rcases hcases _ _ hlenient hstrict pointWorld (.set (.object pointRef) [] (.object pointRef))
    with hsame | ⟨target, index, v, hq, -, hrefused, hnull⟩
  · cases hsame
  · cases hq
    exact ⟨_, _, _, hlenient, hstrict, rfl, hnull, hrefused⟩

end MemberAccess
