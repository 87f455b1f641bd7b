import MemberAccess.Proofs.Accessor.Refused
import MemberAccess.Proofs.Call.Served

/-!
# The phases of errors

What is wrong with metadata, policies and plans is found when an accessor is built. Once it is
built, only the values given to a call can be wrong, and a member converts them without fail, except
where a value that is not null stands in a place of the empty type.

* `CallError`: the errors of the second phase.
* `Descriptor.FailsLate`: a run of a member that fails in the second phase only.
* `errors_stay_in_phase`: builds and calls of any registered member.
-/

namespace MemberAccess

/-! ## Calling -/

/-- The value is given where the type is empty: to a parameter, or to a setter. -/
inductive Descriptor.GivenToVoid (d : Descriptor) (args : List Value) (assigned : Option Value)
    (v : Value) : Prop where
  | argument (i : Nat) (t : TypeHandle) (ht : d.parameters[i]? = some t) (hv : args[i]? = some v)
      (hvoid : t.base = .void)
  | assigned (hv : assigned = some v) (hvoid : d.member.valueType.base = .void)

/-- The error is one that a call may end with: none of a build, none of an operation that does not
fit, and of the failed conversions only that of a value where the type is empty. -/
structure CallError (d : Descriptor) (args : List Value) (assigned : Option Value)
    (e : AccessError) : Prop where
  notBuild : e.isBuildError = false
  notMisused : ∀ cause, e ≠ .invalidOperation cause
  value : ∀ x, e = .value x →
    ∃ v, v ≠ .null ∧ d.GivenToVoid args assigned v ∧ x = .typeMismatch .void v.typeName

namespace CallError

variable {d : Descriptor} {args : List Value} {assigned : Option Value} {e : AccessError}

theorem of_isCheck (h : e.isCheck = true) : CallError d args assigned e := by
  cases e <;> first | exact absurd h Bool.false_ne_true | exact ⟨rfl, nofun, nofun⟩

theorem of_notSupported (operation : ValueOperation) :
    CallError d args assigned (d.notSupported operation) :=
  ⟨rfl, nofun, nofun⟩

theorem of_memberFailed (member report : String) :
    CallError d args assigned (.memberFailed member report) :=
  ⟨rfl, nofun, nofun⟩

theorem of_lateRefusal {v : Value} (hv : v ≠ .null) (h : d.GivenToVoid args assigned v) :
    CallError d args assigned (lateRefusal v) := by
  refine ⟨rfl, nofun, ?_⟩
  rintro x ⟨⟩
  exact ⟨v, hv, h, rfl⟩

theorem of_vector (h : CallError d (d.vector args) assigned e) : CallError d args assigned e := by
  refine ⟨h.notBuild, h.notMisused, fun x hx => ?_⟩
  obtain ⟨v, hv, hgiven, hmismatch⟩ := h.value x hx
  refine ⟨v, hv, ?_, hmismatch⟩
  cases hgiven with
  | assigned hv hvoid => exact .assigned hv hvoid
  | argument i t ht hi hvoid =>
    refine .argument i t ht ?_ hvoid
    unfold Descriptor.vector at hi
    split at hi
    · cases hi
    · cases hi
    · exact hi

theorem of_lateArgument (h : d.lateArgument args = some e) : CallError d args assigned e := by
  obtain ⟨v, hv, rfl⟩ := Option.map_eq_some_iff.1 h
  obtain ⟨p, hp, rfl⟩ := Option.map_eq_some_iff.1 hv
  have hlate := List.find?_some hp
  obtain ⟨i, hi⟩ := List.getElem?_of_mem (List.mem_of_find?_eq_some hp)
  obtain ⟨ht, hv⟩ := List.getElem?_zip_eq_some.1 hi
  exact of_lateRefusal (TypeHandle.ne_null_of_rejectsLate hlate)
    (.argument i p.1 ht hv (TypeHandle.base_of_rejectsLate hlate))

/-- A setter of the empty type replaces no value, so what is refused late was given. -/
theorem of_lateAssigned {policy : CastPolicy} {v : Value}
    (h : d.lateAssigned (d.stored policy v) = some e) : CallError d args (some v) e := by
  unfold Descriptor.lateAssigned at h
  split at h
  · rename_i hlate
    cases h
    have hbase := TypeHandle.base_of_rejectsLate hlate
    have hstored : d.stored policy v = v := by
      refine if_neg ?_
      unfold Descriptor.replaces TypeHandle.kind
      rw [hbase]
      simp [BaseType.kind]
    rw [hstored] at hlate ⊢
    exact of_lateRefusal (TypeHandle.ne_null_of_rejectsLate hlate) (.assigned rfl hbase)
  · cases h

end CallError

/-! ## Runs -/

/-- A run that serves its call fails in the second phase only. -/
def Descriptor.FailsLate {α : Type} (d : Descriptor) (args : List Value) (assigned : Option Value)
    (run : Option Slots → Effect α) : Prop :=
  ∀ own, d.Served own → ∀ e, (run own).result = .error e → CallError d args assigned e

namespace Descriptor

variable {d : Descriptor} {w : World} {args : List Value} {assigned : Option Value}

theorem FailsLate.map {α β : Type} {run : Option Slots → Effect α}
    (h : d.FailsLate args assigned run) (f : α → β) :
    d.FailsLate args assigned fun own => (run own).map f :=
  fun own hserved e he => h own hserved e (map_eq_error_iff.1 he)

/-- A late argument is refused before anything else can fail. -/
theorem callError_of_lateArgument {α : Type} {r : Except AccessError α} {e : AccessError}
    (hlate : ∀ e', d.lateArgument args = some e' → r = .error e')
    (hfine : d.lateArgument args = none → r = .error e → CallError d args assigned e)
    (h : r = .error e) : CallError d args assigned e := by
  cases hargument : d.lateArgument args with
  | some e' =>
    have hsame : e' = e := Except.error.inj ((hlate e' hargument).symm.trans h)
    exact hsame ▸ .of_lateArgument hargument
  | none => exact hfine hargument h

section runs

variable (hargs : d.argumentPlan.coerce d.qualifiedName args = .ok args)

include hargs

theorem callError_of_build {k : Construction} (hk : d.member.IsConstructor k) {e : AccessError}
    (h : k.build args = .error e) : CallError d args assigned e := by
  have hbuild := build_eq hk hargs
  refine callError_of_lateArgument ?_ ?_ h
  · intro e' hlate
    rw [hbuild, hlate]
  · intro hlate hresult
    rw [hbuild, hlate] at hresult
    cases hresult

theorem failsLate_rebuildOver {k : Construction} (hk : d.member.IsConstructor k) :
    d.FailsLate args assigned fun own => k.rebuildOver w own args := by
  intro own _ e he
  unfold Construction.rebuildOver at he
  split at he
  · rename_i hbuild
    cases he
    exact callError_of_build hargs hk hbuild
  · cases he

section value

variable {type : StaticType} {a : Attribute type} (ha : d.member.IsAttribute a)
  (hrole : d.role.holdsValue = true)

include ha hrole

theorem failsLate_read : d.FailsLate args assigned fun own => a.read w own args := by
  intro own hserved e he
  have hread := read_eq (w := w) ha hrole hargs hserved
  refine callError_of_lateArgument ?_ ?_ he
  · intro e' hlate
    dsimp only
    rw [hread, hlate]
    rfl
  · intro hlate hresult
    dsimp only at hresult
    rw [hread, hlate] at hresult
    cases hresult

theorem failsLate_write (x : type.Carrier) :
    d.FailsLate args assigned fun own => a.write w own args x := by
  intro own hserved e he
  have hwrite := write_eq (w := w) ha hrole hargs hserved x
  refine callError_of_lateArgument ?_ ?_ he
  · intro e' hlate
    dsimp only
    rw [hwrite, hlate]
    rfl
  · intro hlate hresult
    dsimp only at hresult
    rw [hwrite, hlate] at hresult
    dsimp only at hresult
    rw [leaving_result] at hresult
    cases hresult

/-- The assigned value is looked at before the index is. -/
theorem failsLate_writeConverted {policy : CastPolicy} {v : Value}
    (hfits : d.member.valueType.rejects (d.stored policy v) = false) :
    d.FailsLate args (some v) fun own => a.writeConverted w own args (d.stored policy v) := by
  intro own hserved e he
  have hwrite := writeConverted_eq (w := w) ha hrole hargs hserved hfits
  cases hassigned : d.lateAssigned (d.stored policy v) with
  | some e' =>
    dsimp only at he
    rw [hwrite, hassigned] at he
    have hsame : e' = e := Except.error.inj he
    exact hsame ▸ .of_lateAssigned hassigned
  | none =>
    refine callError_of_lateArgument ?_ ?_ he
    · intro e' hlate
      dsimp only
      rw [hwrite, hassigned, hlate]
      rfl
    · intro hlate hresult
      dsimp only at hresult
      rw [hwrite, hassigned, hlate] at hresult
      dsimp only at hresult
      rw [leaving_result] at hresult
      cases hresult

end value

theorem failsLate_invoke {result : StaticType} {f : Method result} (hf : d.member.IsMethod f)
    (hrole : d.role = .method) : d.FailsLate args assigned fun own => f.invoke w own args := by
  intro own hserved e he
  have hinvoke := invoke_eq (w := w) hf hrole hargs hserved
  refine callError_of_lateArgument ?_ ?_ he
  · intro e' hlate
    dsimp only
    rw [hinvoke, hlate]
    rfl
  · intro hlate hresult
    dsimp only at hresult
    rw [hinvoke, hlate] at hresult
    dsimp only at hresult
    rw [leaving_result] at hresult
    obtain ⟨name, report, -, rfl, -⟩ := Method.conclude_error hresult
    exact .of_memberFailed name report

end runs

/-! ## Prepared calls -/

section prepared

variable {own : Option Slots} {e : AccessError}

theorem served_of_receiver {member : String} {target : Value} {receiver : Option ObjectRef}
    (h : d.dispatch.receiver member target = .ok receiver) :
    (∀ o ∈ receiver, o.host = d.host) ∧ d.Served (receiver.map w.contents) := by
  rcases Dispatch.receiver_eq_ok h with ⟨hdispatch, rfl⟩ | ⟨o, hdispatch, -, rfl⟩
  · have hstatic := isStatic_of_dispatch hdispatch
    exact ⟨nofun, fun hinstance => Bool.noConfusion (hstatic.symm.trans hinstance)⟩
  · have hhost : o.host = d.host := (host_of_dispatch hdispatch).symm
    refine ⟨?_, fun _ => nofun⟩
    rintro x ⟨⟩
    exact hhost

theorem callError_of_prepared {α : Type} {target : Value}
    {slot : Option (ArgumentSlot × Value)} {run : Preparation → Option Slots → Effect α}
    (hrun : ∀ p, d.argumentPlan.coerce d.qualifiedName args = .ok args → p.arguments = args →
      coerceAssigned d.qualifiedName slot = .ok p.assigned → d.FailsLate args assigned (run p))
    (h : (match prepare d.qualifiedName d.dispatch d.argumentPlan target args slot with
      | .error e => ((.error e, w) : Outcome α)
      | .ok p => onReceiver d.host w p.receiver (run p)).1 = .error e) :
    CallError d args assigned e := by
  cases hp : prepare d.qualifiedName d.dispatch d.argumentPlan target args slot with
  | error e' =>
    rw [hp] at h
    cases h
    exact .of_isCheck (isCheck_of_prepare hp)
  | ok p =>
    rw [hp] at h
    obtain ⟨hreceiver, hargs, harguments, hassigned⟩ := prepare_eq_ok hp
    obtain ⟨hhost, hserved⟩ := served_of_receiver hreceiver
    dsimp only at h
    rw [onReceiver_eq hhost, Effect.settle_result] at h
    exact hrun p hargs harguments hassigned _ hserved e h

theorem callError_of_prepareTyped {α : Type} {run : Option Slots → List Value → Effect α}
    (hrun : d.argumentPlan.coerce d.qualifiedName args = .ok args →
      d.FailsLate args assigned fun own => run own args)
    (h : (prepareTyped d.qualifiedName d.dispatch d.argumentPlan w own args run).result =
      .error e) : CallError d args assigned e := by
  rcases prepareTyped_cases w own args run with
    ⟨e', he', hcall⟩ | ⟨hargs, ⟨-, htarget, hcall⟩ | ⟨hdispatch, hcall⟩⟩
  · rw [hcall] at h
    cases h
    exact .of_isCheck he'
  · rw [hcall] at h
    exact hrun hargs own (fun _ => htarget) e h
  · rw [hcall] at h
    have hstatic := isStatic_of_dispatch hdispatch
    exact hrun hargs none (fun hinstance => Bool.noConfusion (hstatic.symm.trans hinstance)) e h

end prepared

end Descriptor

/-! ## Calls of one form -/

section untyped

variable {d : Descriptor} {w : World} {target : Value} {args : List Value}
  {assigned : Option Value} {e : AccessError}

theorem callError_of_runConstruct {k : Construction} (hk : d.member.IsConstructor k)
    (h : ((Thunk.construct d.qualifiedName d.host d.argumentPlan k).runConstruct w args).1 =
      .error e) : CallError d args assigned e := by
  unfold Thunk.runConstruct at h
  dsimp only at h
  cases hp : prepare d.qualifiedName .static d.argumentPlan .null args none with
  | error e' =>
    rw [hp] at h
    cases h
    exact .of_isCheck (isCheck_of_prepare hp)
  | ok p =>
    rw [hp] at h
    obtain ⟨-, hargs, harguments, -⟩ := prepare_eq_ok hp
    unfold Construction.allocate at h
    dsimp only at h
    rw [harguments] at h
    split at h
    · rename_i hbuild
      cases h
      exact Descriptor.callError_of_build hargs hk hbuild
    · cases h

theorem callError_of_reconstruct {k : Construction} (hk : d.member.IsConstructor k)
    (hrole : d.role = .reconstructor)
    (h : ((Thunk.reconstruct d.qualifiedName d.host (.onInstance d.host) d.argumentPlan k).runCall w
      target args).1 = .error e) : CallError d args assigned e := by
  rw [← Descriptor.dispatch_of_reconstructor hrole] at h
  refine Descriptor.callError_of_prepared ?_ h
  intro p hargs harguments _
  rw [harguments]
  exact (Descriptor.failsLate_rebuildOver hargs hk).map _

theorem callError_of_invoke {result : StaticType} {f : Method result} (hf : d.member.IsMethod f)
    (hrole : d.role = .method)
    (h : ((Thunk.invoke d.qualifiedName d.host d.dispatch d.argumentPlan result f).runCall w target
      args).1 = .error e) : CallError d args assigned e := by
  refine Descriptor.callError_of_prepared ?_ h
  intro p hargs harguments _
  rw [harguments]
  exact (Descriptor.failsLate_invoke hargs hf hrole).map result.toValue

section value

variable {type : StaticType} {a : Attribute type} (ha : d.member.IsAttribute a)
  (hrole : d.role.holdsValue = true)

include ha hrole

theorem callError_of_runRead
    (h : ((Thunk.read d.qualifiedName d.host d.dispatch d.argumentPlan type a).runRead w target
      args).1 = .error e) : CallError d args assigned e := by
  refine Descriptor.callError_of_prepared ?_ h
  intro p hargs harguments _
  rw [harguments]
  exact (Descriptor.failsLate_read hargs ha hrole).map type.toValue

theorem callError_of_runWrite {policy : CastPolicy} {v : Value}
    (h : ((Thunk.write d.qualifiedName d.host d.dispatch d.argumentPlan
      (d.valueSlot .untyped policy) type a).runWrite w target args v).1 = .error e) :
    CallError d args (some v) e := by
  refine Descriptor.callError_of_prepared ?_ h
  intro p hargs harguments hassigned
  have hslot := d.coerceAssigned_eq policy (some v)
  rw [Option.map_some, hassigned, Option.bind_some] at hslot
  cases hwrong : d.wrongAssigned policy v with
  | some e' =>
    rw [hwrong] at hslot
    cases hslot
  | none =>
    rw [hwrong] at hslot
    rw [harguments, Except.ok.inj hslot]
    exact Descriptor.failsLate_writeConverted hargs ha hrole (Descriptor.rejects_stored hwrong)

theorem callError_of_get {setter : Option Thunk}
    (h : (ValueAccessor.get ⟨d,
      if a.hasGetter then some (.read d.qualifiedName d.host d.dispatch d.argumentPlan type a)
      else none, setter⟩ w target args).1 = .error e) : CallError d args assigned e := by
  unfold ValueAccessor.get at h
  rw [ValueAccessor.index_eq hrole] at h
  by_cases hg : a.hasGetter = true
  · rw [if_pos hg] at h
    exact .of_vector (callError_of_runRead ha hrole h)
  · rw [if_neg hg] at h
    cases h
    exact .of_notSupported .get

theorem callError_of_set {policy : CastPolicy} {v : Value} {getter : Option Thunk}
    (h : (ValueAccessor.set ⟨d, getter,
      if a.hasSetter then some (.write d.qualifiedName d.host d.dispatch d.argumentPlan
        (d.valueSlot .untyped policy) type a)
      else none⟩ w target args v).1 = .error e) : CallError d args (some v) e := by
  unfold ValueAccessor.set at h
  rw [ValueAccessor.index_eq hrole] at h
  by_cases hs : a.hasSetter = true
  · rw [if_pos hs] at h
    exact .of_vector (callError_of_runWrite ha hrole h)
  · rw [if_neg hs] at h
    cases h
    exact .of_notSupported .set

end value

end untyped

section typed

variable {d : Descriptor} {w : World} {own : Option Slots} {args : List Value}
  {assigned : Option Value} {e : AccessError}

theorem callError_of_typedConstruct {k : Construction} (hk : d.member.IsConstructor k)
    (h : (Effect.ofBuilt d.host w own
      (TypedConstruct.run ⟨d.qualifiedName, d.argumentPlan, k⟩ args)).result = .error e) :
    CallError d args assigned e := by
  have hrun : TypedConstruct.run ⟨d.qualifiedName, d.argumentPlan, k⟩ args = .error e := by
    cases hbuilt : TypedConstruct.run ⟨d.qualifiedName, d.argumentPlan, k⟩ args with
    | error e' =>
      rw [hbuilt] at h
      cases h
      rfl
    | ok s =>
      rw [hbuilt] at h
      cases h
  unfold TypedConstruct.run at hrun
  split at hrun
  · rename_i hcoerce
    cases hrun
    exact .of_isCheck (ArgumentPlan.isCheck_of_coerce hcoerce)
  · rename_i hcoerce
    obtain rfl := ArgumentPlan.eq_of_coerce hcoerce
    exact Descriptor.callError_of_build hcoerce hk hrun

section value

variable {type : StaticType} {a : Attribute type} (ha : d.member.IsAttribute a)
  (hrole : d.role.holdsValue = true)

include ha hrole

theorem callError_of_typedGet {setter : Option (TypedWrite type)}
    (h : (TypedValueAccessor.get ⟨d,
      if a.hasGetter then some ⟨d.qualifiedName, d.dispatch, d.argumentPlan, a⟩ else none,
      setter⟩ w own args).result = .error e) : CallError d args assigned e := by
  unfold TypedValueAccessor.get at h
  rw [TypedValueAccessor.index_eq hrole] at h
  by_cases hg : a.hasGetter = true
  · rw [if_pos hg] at h
    exact .of_vector (Descriptor.callError_of_prepareTyped
      (fun hargs => Descriptor.failsLate_read hargs ha hrole) h)
  · rw [if_neg hg] at h
    cases h
    exact .of_notSupported .get

theorem callError_of_typedSet {getter : Option (TypedRead type)} {x : type.Carrier}
    (h : (TypedValueAccessor.set ⟨d, getter,
      if a.hasSetter then some ⟨d.qualifiedName, d.dispatch, d.argumentPlan, a⟩ else none⟩ w own
      args x).result = .error e) : CallError d args assigned e := by
  unfold TypedValueAccessor.set at h
  rw [TypedValueAccessor.index_eq hrole] at h
  by_cases hs : a.hasSetter = true
  · rw [if_pos hs] at h
    exact .of_vector (Descriptor.callError_of_prepareTyped
      (fun hargs => Descriptor.failsLate_write hargs ha hrole x) h)
  · rw [if_neg hs] at h
    cases h
    exact .of_notSupported .set

end value

end typed

/-! ## Any registered member -/

theorem Accessor.callError {d : Descriptor} (hform : d.Form) {fs : Flags} {o : Options}
    {role : Role} {a : Accessor} (ha : Accessor.build fs o role d = .ok a) {w : World} {q : Request}
    {x : Outcome Value} (hx : a.answer w q = some x) {e : AccessError} (he : x.1 = .error e) :
    CallError d q.arguments q.assigned e := by
  obtain rfl := role_of_build fs o ha
  cases hform with
  | constructor k hk hrole =>
    rw [build_constructor fs o hk hrole] at ha
    obtain ⟨-, -, rfl⟩ := map_eq_ok_iff.1 ha
    cases q <;> cases hx
    unfold CallAccessor.invoke at he
    rw [hrole] at he
    exact callError_of_runConstruct hk he
  | reconstructor k hk hrole =>
    rw [build_reconstructor fs o hk hrole] at ha
    obtain ⟨-, -, rfl⟩ := map_eq_ok_iff.1 ha
    cases q <;> cases hx
    unfold CallAccessor.invoke at he
    rw [hrole] at he
    exact callError_of_reconstruct hk hrole he
  | method result f hf hrole =>
    rw [build_method fs o hf hrole] at ha
    obtain ⟨-, -, rfl⟩ := map_eq_ok_iff.1 ha
    cases q <;> cases hx
    unfold CallAccessor.invoke at he
    rw [hrole] at he
    exact callError_of_invoke hf hrole he
  | value type a' ha' hrole hindex =>
    obtain rfl := build_value fs o ha' hrole ha
    cases q with
    | construct args => cases hx
    | invoke target args => cases hx
    | get target index =>
      cases hx
      exact callError_of_get ha' hrole he
    | set target index v =>
      cases hx
      exact callError_of_set ha' hrole (map_eq_error_iff.1 he)

theorem TypedAccessor.callError {d : Descriptor} (hform : d.Form) {fs : Flags} {o : Options}
    {role : Role} {host : HostClass} {type : StaticType} {a : TypedAccessor}
    (ha : TypedAccessor.build fs o role host type d = .ok a) {w : World} {own : Option Slots}
    {q : TypedRequest a.type} {x : Effect Value} (hx : a.answer w own q = some x)
    {e : AccessError} (he : x.result = .error e) : CallError d q.arguments none e := by
  obtain rfl := role_of_build ha
  cases hform with
  | constructor k hk hrole =>
    rw [hrole] at ha
    obtain ⟨rfl, rfl⟩ := build_constructor hk hrole ha
    cases q <;> cases hx
    exact callError_of_typedConstruct hk he
  | reconstructor k hk hrole =>
    rw [hrole] at ha
    obtain ⟨rfl, rfl⟩ := build_reconstructor hk hrole ha
    cases q <;> cases hx
    have hrun := map_eq_error_iff.1 he
    rw [TypedReconstruct.run_eq _ d.host, ← Descriptor.dispatch_of_reconstructor hrole] at hrun
    exact Descriptor.callError_of_prepareTyped
      (fun hargs => Descriptor.failsLate_rebuildOver hargs hk) hrun
  | method result f hf hrole =>
    rw [hrole] at ha
    obtain ⟨rfl, rfl⟩ := build_method hf hrole ha
    cases q <;> cases hx
    exact Descriptor.callError_of_prepareTyped
      (fun hargs => Descriptor.failsLate_invoke hargs hf hrole) (map_eq_error_iff.1 he)
  | value type' a' ha' hrole hindex =>
    obtain ⟨rfl, rfl⟩ := build_value ha' hrole ha
    cases q with
    | invoke args => cases hx
    | get index =>
      cases hx
      exact callError_of_typedGet ha' hrole (map_eq_error_iff.1 he)
    | set index x =>
      cases hx
      exact callError_of_typedSet ha' hrole (map_eq_error_iff.1 he)

end MemberAccess
