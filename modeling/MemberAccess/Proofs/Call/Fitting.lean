import MemberAccess.Proofs.Call.Phases

/-!
# Plans and the members they are compiled for

A plan is plain data, and nothing ties it to the descriptor that it is compiled for. Compilation
looks at its form and at the number of its arguments. It does not look at their types, at the type
of the value, or at how the plan reaches its member, so a plan that was made for another member may
compile, and what it compiles to fails in the member.

* `Plan.ServedBy`, `compile_isOk_iff`: what compilation looks at.
* `Plan.Fits`: what it would have to look at; `Plan.Fits.of_plan`: a plan that fits is the
  descriptor's own.
* `fitting_plan_fails_late`: compilation of any plan, and calls of what a fitting one compiles to.
* `plan_of_another_member_compiles`: plans that do not fit and compile.
-/

namespace MemberAccess

/-! ## What compilation looks at -/

/-- The binding has the form of the plan, with a getter or a setter where the plan needs one. -/
def Plan.ServedBy (p : Plan) (b : Binding) : Prop :=
  match p, b with
  | .construct _, .construction _ | .reconstruct _ _, .construction _ => True
  | .get _ _, .value _ a => a.hasGetter = true
  | .set _ _ _, .value _ a => a.hasSetter = true
  | .invoke _ _, .method _ _ => True
  | _, _ => False

section compile

variable {fs : Flags} {policy : Policy} {d : Descriptor} {p : Plan}

theorem Thunk.bind_isSome_iff (member : String) (host : HostClass) {b : Binding} :
    (∃ t, Thunk.bind? member host p b = some t) ↔ p.ServedBy b := by
  cases p <;> cases b <;> simp [Thunk.bind?, Plan.ServedBy]

theorem admission_eq_ok_iff : admission fs policy d p = .ok () ↔
    p.arguments.arity = d.arity ∧ ¬ (p.allocates = true ∧ d.member.isAbstract fs = true) ∧
      policy.check d p.operation = .ok () := by
  unfold admission
  split
  · rename_i harity
    simp [harity]
  · rename_i harity
    split
    · rename_i habstract
      simp [habstract]
    · rename_i habstract
      simp [Decidable.not_not.1 harity, habstract]

/-- Compilation looks at the number of the arguments, at allocation of abstract classes, at the
policy and at the form of the binding, and at nothing else. -/
theorem compile_isOk_iff : (∃ t, compile fs policy d p = .ok t) ↔
    admission fs policy d p = .ok () ∧ p.ServedBy d.member.binding := by
  rw [← Thunk.bind_isSome_iff d.qualifiedName d.host]
  constructor
  · rintro ⟨t, ht⟩
    have hbind := bind_of_compile ht
    rw [compile_of_bind hbind] at ht
    obtain ⟨⟨⟩, hadmitted, -⟩ := map_eq_ok_iff.1 ht
    exact ⟨hadmitted, t, hbind⟩
  · rintro ⟨hadmitted, t, hbind⟩
    refine ⟨t, ?_⟩
    rw [compile_of_bind hbind, hadmitted]
    rfl

theorem refusal_of_admission {e : AccessError} (h : admission fs policy d p = .error e) :
    ∃ refusal, e = d.refusal refusal := by
  unfold admission Policy.check at h
  split at h
  · exact ⟨_, (Except.error.inj h).symm⟩
  · split at h
    · exact ⟨_, (Except.error.inj h).symm⟩
    · dsimp only at h
      split at h
      · split at h
        · cases h
        · exact ⟨_, (Except.error.inj h).symm⟩
      · cases h

theorem refusal_of_compile {e : AccessError} (h : compile fs policy d p = .error e) :
    ∃ refusal, e = .compilationFailed d.qualifiedName refusal := by
  unfold compile at h
  split at h
  · rename_i e' hadmitted
    obtain rfl := Except.error.inj h
    exact refusal_of_admission hadmitted
  · split at h
    · cases h
    · exact ⟨_, (Except.error.inj h).symm⟩

end compile

/-! ## Plans that fit -/

/-- How a plan of this form has to reach the descriptor's member. -/
def Descriptor.reachedBy (d : Descriptor) : Plan → Dispatch
  | .construct _ => .static
  | .reconstruct _ _ => .onInstance d.host
  | _ => if d.member.isStatic then .static else .onInstance d.host

/-- The plan says of its member what is true of the descriptor's: the types of the arguments, the
type of the value that is written, and how the member is reached. -/
structure Plan.Fits (p : Plan) (d : Descriptor) : Prop where
  arguments : p.arguments.slots.map (·.type) = d.parameters
  value : ∀ slot ∈ p.value?, slot.type = d.member.valueType
  dispatch : p.dispatch = d.reachedBy p

theorem ArgumentPlan.types_slotsFrom (start : Nat) (types : List TypeHandle) :
    (slotsFrom start types).map (·.type) = types := by
  induction types generalizing start with
  | nil => rfl
  | cons t ts ih => rw [slotsFrom, List.map_cons, ih]

namespace Descriptor

variable {d d' : Descriptor} {surface : Surface} {cast : CastPolicy} {operation : Operation}
  {p : Plan}

theorem reachedBy_get (hrole : d.role.holdsValue = true) (dispatch : Dispatch)
    (index : ArgumentPlan) : d.reachedBy (.get dispatch index) = d.dispatch := by
  unfold reachedBy Descriptor.dispatch isStatic
  cases h : d.role <;> rw [h] at hrole <;> first | rfl | cases hrole

theorem reachedBy_set (hrole : d.role.holdsValue = true) (dispatch : Dispatch)
    (index : ArgumentPlan) (value : ArgumentSlot) :
    d.reachedBy (.set dispatch index value) = d.dispatch :=
  reachedBy_get hrole dispatch index

theorem reachedBy_invoke (hrole : d.role = .method) (dispatch : Dispatch)
    (arguments : ArgumentPlan) : d.reachedBy (.invoke dispatch arguments) = d.dispatch := by
  unfold reachedBy Descriptor.dispatch isStatic
  rw [hrole]

end Descriptor

theorem Plan.Fits.of_plan {p : Plan} {d d' : Descriptor} {surface : Surface} {cast : CastPolicy}
    {operation : Operation} (hfits : p.Fits d) (hp : d'.plan surface cast operation = .ok p) :
    p.arguments = d.argumentPlan ∧ ∀ slot ∈ p.value?, slot = d.valueSlot surface cast := by
  obtain ⟨harguments, hvalue⟩ := Descriptor.slots_of_plan hp
  have hparameters : d'.parameters = d.parameters := by
    have htypes := hfits.arguments
    rw [harguments] at htypes
    rw [← htypes]
    exact (ArgumentPlan.types_slotsFrom 0 d'.parameters).symm
  refine ⟨?_, fun slot hslot => ?_⟩
  · rw [harguments, Descriptor.argumentPlan, Descriptor.argumentPlan, hparameters]
  · have htype := hfits.value slot hslot
    rw [hvalue slot hslot] at htype ⊢
    have hvalueType : d'.member.valueType = d.member.valueType := htype
    unfold Descriptor.valueSlot Descriptor.arity
    rw [hvalueType, hparameters]

/-! ## Calls of what fits -/

/-- How the request calls a compiled operation. -/
def Request.shape : Request → Shape
  | construct _ => .construct
  | invoke _ _ => .call
  | get _ _ => .read
  | set _ _ _ => .write

section calls

variable {d : Descriptor} {w : World} {target : Value} {args : List Value}

theorem CallError.of_member {d' : Descriptor} {assigned : Option Value} {e : AccessError}
    (hmember : d'.member = d.member) (h : CallError d' args assigned e) :
    CallError d args assigned e := by
  refine ⟨h.notBuild, h.notMisused, fun x hx => ?_⟩
  obtain ⟨v, hv, hgiven, hmismatch⟩ := h.value x hx
  refine ⟨v, hv, ?_, hmismatch⟩
  cases hgiven with
  | argument i t ht hi hvoid =>
    unfold Descriptor.parameters at ht
    rw [hmember] at ht
    exact .argument i t ht hi hvoid
  | assigned hi hvoid =>
    rw [hmember] at hvoid
    exact .assigned hi hvoid

theorem coerceAssigned_typed (cast : CastPolicy) (v : Value) :
    coerceAssigned d.qualifiedName (some (d.valueSlot .typed cast, v)) =
      coerceAssigned d.qualifiedName (some (d.valueSlot .untyped .fail, v)) := by
  unfold coerceAssigned ArgumentSlot.coerce Descriptor.valueSlot Coercion.forAssigned
  dsimp only
  cases d.member.valueType.kind <;> simp

theorem runWrite_congr {slot slot' : ArgumentSlot} {v : Value}
    (h : coerceAssigned d.qualifiedName (some (slot, v)) =
      coerceAssigned d.qualifiedName (some (slot', v)))
    (dispatch : Dispatch) (index : ArgumentPlan) {type : StaticType} (a : Attribute type) :
    (Thunk.write d.qualifiedName d.host dispatch index slot type a).runWrite w target args v =
      (Thunk.write d.qualifiedName d.host dispatch index slot' type a).runWrite w target args
        v := by
  unfold Thunk.runWrite prepare
  dsimp only
  rw [h]

theorem callError_of_write {type : StaticType} {a : Attribute type} (ha : d.member.IsAttribute a)
    (hrole : d.role.holdsValue = true) {surface : Surface} {cast : CastPolicy} {v : Value}
    {e : AccessError}
    (h : ((Thunk.write d.qualifiedName d.host d.dispatch d.argumentPlan
      (d.valueSlot surface cast) type a).runWrite w target args v).1 = .error e) :
    CallError d args (some v) e := by
  cases surface with
  | untyped => exact callError_of_runWrite ha hrole h
  | typed =>
    rw [runWrite_congr (coerceAssigned_typed cast v)] at h
    exact callError_of_runWrite ha hrole h

theorem callError_of_rebuild {k : Construction} (hk : d.member.IsConstructor k) {e : AccessError}
    (h : ((Thunk.reconstruct d.qualifiedName d.host (.onInstance d.host) d.argumentPlan k).runCall w
      target args).1 = .error e) : CallError d args none e := by
  let d' : Descriptor := ⟨.reconstructor, d.member⟩
  have hmember : d'.member = d.member := rfl
  exact .of_member hmember (callError_of_reconstruct (d := d') hk rfl h)

end calls

/-! ## What a plan that fits compiles to -/

namespace Plan.Fits

variable {d d' : Descriptor} {surface : Surface} {cast : CastPolicy} {operation : Operation}
  {p : Plan} (hp : d'.plan surface cast operation = .ok p) (hfits : p.Fits d) {t : Thunk}
  (ht : Thunk.bind? d.qualifiedName d.host p d.member.binding = some t) {w : World} {q : Request}
  (hq : q.shape = t.shape) {e : AccessError} (he : (t.answer w q).1 = .error e)

include hp hfits ht hq he

theorem callError_of_constructor {k : Construction} (hk : d.member.IsConstructor k) :
    CallError d q.arguments q.assigned e := by
  rw [hk.binding] at ht
  have harguments := (hfits.of_plan hp).1
  cases p with
  | construct arguments =>
    obtain rfl : arguments = d.argumentPlan := harguments
    obtain rfl := Option.some.inj ht
    cases q <;> cases hq
    exact callError_of_runConstruct hk he
  | reconstruct host arguments =>
    obtain rfl : arguments = d.argumentPlan := harguments
    obtain rfl : host = d.host := Dispatch.onInstance.inj hfits.dispatch
    obtain rfl := Option.some.inj ht
    cases q <;> cases hq
    exact callError_of_rebuild hk he
  | _ => cases ht

theorem callError_of_method {result : StaticType} {f : Method result} (hf : d.member.IsMethod f)
    (hrole : d.role = .method) : CallError d q.arguments q.assigned e := by
  rw [hf.binding] at ht
  have harguments := (hfits.of_plan hp).1
  cases p with
  | invoke dispatch arguments =>
    obtain rfl : arguments = d.argumentPlan := harguments
    obtain rfl : dispatch = d.dispatch :=
      hfits.dispatch.trans (Descriptor.reachedBy_invoke hrole _ _)
    obtain rfl := Option.some.inj ht
    cases q <;> cases hq
    exact callError_of_invoke hf hrole he
  | _ => cases ht

theorem callError_of_value {type : StaticType} {a : Attribute type} (ha : d.member.IsAttribute a)
    (hrole : d.role.holdsValue = true) : CallError d q.arguments q.assigned e := by
  rw [ha.binding] at ht
  obtain ⟨harguments, hvalue⟩ := hfits.of_plan hp
  cases p with
  | get dispatch index =>
    obtain rfl : index = d.argumentPlan := harguments
    obtain rfl : dispatch = d.dispatch :=
      hfits.dispatch.trans (Descriptor.reachedBy_get hrole _ _)
    obtain ⟨-, hread⟩ := Option.ite_none_right_eq_some.1 ht
    obtain rfl := Option.some.inj hread
    cases q <;> cases hq
    exact callError_of_runRead ha hrole he
  | set dispatch index slot =>
    obtain rfl : index = d.argumentPlan := harguments
    obtain rfl : dispatch = d.dispatch :=
      hfits.dispatch.trans (Descriptor.reachedBy_set hrole _ _ _)
    obtain rfl := hvalue slot rfl
    obtain ⟨-, hwrite⟩ := Option.ite_none_right_eq_some.1 ht
    obtain rfl := Option.some.inj hwrite
    cases q <;> cases hq
    exact callError_of_write ha hrole (map_eq_error_iff.1 he)
  | _ => cases ht

theorem callError (hform : d.Form) : CallError d q.arguments q.assigned e := by
  cases hform with
  | constructor k hk hrole => exact callError_of_constructor hp hfits ht hq he hk
  | reconstructor k hk hrole => exact callError_of_constructor hp hfits ht hq he hk
  | method result f hf hrole => exact callError_of_method hp hfits ht hq he hf hrole
  | value type a ha hrole hindex => exact callError_of_value hp hfits ht hq he ha hrole

end Plan.Fits

/-! ## Any plan -/

/-- A plan, made for whatever descriptor, is refused with the one error of compilation, or its form
and the number of its arguments are those of the member. If the rest of it fits too, then calls of
what it compiles to fail in the second phase only. -/
theorem fitting_plan_fails_late {blocks : List (HostClass × List Registration)} {d d' : Descriptor}
    (hd : d.Over (Registry.ofBlocks blocks)) {surface : Surface} {cast : CastPolicy}
    {operation : Operation} {p : Plan} (hp : d'.plan surface cast operation = .ok p) (fs : Flags)
    (policy : Policy) :
    (∀ e, compile fs policy d p = .error e →
      ∃ refusal, e = .compilationFailed d.qualifiedName refusal) ∧
    ((∃ t, compile fs policy d p = .ok t) ↔ p.arguments.arity = d.arity ∧
      ¬ (p.allocates = true ∧ d.member.isAbstract fs = true) ∧
      policy.check d p.operation = .ok () ∧ p.ServedBy d.member.binding) ∧
    (p.Fits d → ∀ t, compile fs policy d p = .ok t → ∀ w q e, q.shape = t.shape →
      (t.answer w q).1 = .error e → CallError d q.arguments q.assigned e) := by
  refine ⟨fun e he => refusal_of_compile he, ?_, fun hfits t ht w q e hq he => ?_⟩
  · rw [compile_isOk_iff, admission_eq_ok_iff]
    simp only [and_assoc]
  · exact hfits.callError hp (bind_of_compile ht) hq he hd.form

/-- The sample field's own plan fits it, and a write of another type is refused as a cast. -/
theorem fitting_plan_fails_late_pointX : ∃ p t e,
    pointX.plan .typed .fail .set = .ok p ∧ p.Fits pointX ∧
    compile .empty .unrestricted pointX p = .ok t ∧
    (t.answer pointWorld (.set (.object pointRef) [] (.bool true))).1 = .error e ∧
    CallError pointX [] (some (.bool true)) e := by
  have hplan : pointX.plan .typed .fail .set =
      .ok (.set pointX.dispatch pointX.argumentPlan (pointX.valueSlot .typed .fail)) := rfl
  have hfits : Plan.Fits (.set pointX.dispatch pointX.argumentPlan
      (pointX.valueSlot .typed .fail)) pointX :=
    ⟨rfl, fun slot hslot => Option.some.inj hslot ▸ rfl, rfl⟩
  obtain ⟨-, -, hcall⟩ := fitting_plan_fails_late over_pointX hplan .empty .unrestricted
  exact ⟨_, _, _, hplan, hfits, rfl, rfl, hcall hfits _ rfl pointWorld
    (.set (.object pointRef) [] (.bool true)) _ rfl rfl⟩

/-! ## Plans that do not fit -/

/-- A class with a field of its own, one of another type, and a shared one. -/
def tallyBlocks : List (HostClass × List Registration) :=
  [(pointClass, [.field "x" (.base .int32) "x",
    .field "label" (.base .string) "label",
    .staticField "total" (.base .int32) "total"])]

/-- The descriptor over a field of the class. -/
def tallyField (name : String) : Except AccessError Descriptor :=
  Descriptor.resolve (Registry.ofBlocks tallyBlocks) pointClass name .field

/-- The plan that writes the field of another type and the plan that reads the shared one compile
for the first field. They do not fit it, and what they compile to fails in the member: at the
conversion of the value, and for want of a receiver. -/
theorem plan_of_another_member_compiles : ∃ x label total write read w r,
    tallyField "x" = .ok x ∧ tallyField "label" = .ok label ∧ tallyField "total" = .ok total ∧
    label.plan .untyped .fail .set = .ok write ∧ total.plan .untyped .fail .get = .ok read ∧
    compile (Registry.ofBlocks tallyBlocks).flags .unrestricted x write = .ok w ∧ ¬ write.Fits x ∧
    compile (Registry.ofBlocks tallyBlocks).flags .unrestricted x read = .ok r ∧ ¬ read.Fits x ∧
    (w.answer pointWorld (.set (.object pointRef) [] (.string "one"))).1 =
      .error (.value (.typeMismatch .int32 "String")) ∧
    (r.answer pointWorld (.get .null [])).1 = .error missingReceiver := by
  refine ⟨_, _, _, _, _, _, _, rfl, rfl, rfl, rfl, rfl, rfl, ?_, rfl, ?_, rfl, rfl⟩
  · intro hfits
    exact absurd (hfits.value _ rfl) (by decide)
  · intro hfits
    exact absurd hfits.dispatch (by decide)

end MemberAccess
