import MemberAccess.Plan.Coercion
import MemberAccess.Proofs.Value.Conversion
import MemberAccess.Value.Arguments

/-!
# Coerced and unpacked arguments

A vector of arguments is looked at twice: its plan coerces it before the member runs, and the
member unpacks it. Both stop at the leftmost value that does not fit, and they differ at one kind of
place only, that of the empty type: the plan lets every value pass there, the member takes null.

* `TypeHandle.rejects`, `TypeHandle.rejectsLate`: a value that the plan, or the member, refuses.
* `ArgumentPlan.coerce_ofParameters`: what the plan of a parameter list does.
* `Arguments.unpack_cases_of_coerce`: what is left for the member to refuse.
-/

namespace MemberAccess

/-! ## Values that do not fit -/

namespace TypeHandle

/-- A plan refuses the value in a place of the type; every value passes for an object and for the
empty type. -/
def rejects (t : TypeHandle) (v : Value) : Bool :=
  t.kind != .any && t.kind != .void && !t.accepts v

/-- A member refuses the value in a place of the type though a plan let it pass. -/
def rejectsLate (t : TypeHandle) (v : Value) : Bool := t.kind == .void && !v.isNull

theorem accepts_of_not_rejects {t : TypeHandle} {v : Value} (h : t.rejects v = false)
    (hl : t.rejectsLate v = false) : t.accepts v = true := by
  unfold rejects at h
  unfold rejectsLate at hl
  unfold accepts at h ⊢
  cases hk : t.kind <;> simp_all

theorem not_rejects_of_accepts {t : TypeHandle} {v : Value} (h : t.accepts v = true) :
    t.rejects v = false := by
  rw [rejects, h, Bool.not_true, Bool.and_false]

theorem not_accepts_of_rejectsLate {t : TypeHandle} {v : Value} (h : t.rejectsLate v = true) :
    t.accepts v = false := by
  unfold rejectsLate at h
  unfold accepts
  cases hk : t.kind <;> simp_all

theorem base_of_rejectsLate {t : TypeHandle} {v : Value} (h : t.rejectsLate v = true) :
    t.base = .void := by
  obtain ⟨b, n⟩ := t
  cases b <;> first | rfl | cases h

theorem ne_null_of_rejectsLate {t : TypeHandle} {v : Value} (h : t.rejectsLate v = true) :
    v ≠ .null := by
  intro hv
  subst hv
  unfold rejectsLate Value.isNull at h
  rw [Bool.not_true, Bool.and_false] at h
  cases h

end TypeHandle

theorem StaticType.fromValue_of_rejectsLate {t : StaticType} {v : Value}
    (h : t.handle.rejectsLate v = true) :
    t.fromValue v = .error (.typeMismatch .void v.typeName) := by
  have hnull := (Value.isNull_eq_false_iff v).2 (TypeHandle.ne_null_of_rejectsLate h)
  rw [fromValue_of_not_accepts (TypeHandle.not_accepts_of_rejectsLate h),
    TypeHandle.base_of_rejectsLate h, BaseType.refuse, hnull]
  rfl

/-! ## Coercing -/

theorem ArgumentSlot.coerce_of_accepts {slot : ArgumentSlot} {v : Value}
    (h : slot.type.accepts v = true) (member : String) (site : CastSite) :
    slot.coerce member site v = .ok v :=
  if_pos (Or.inr h)

theorem ArgumentSlot.coerce_forParameter (i : Nat) (t : TypeHandle) (member : String)
    (site : CastSite) (v : Value) :
    (⟨i, t, .forParameter t⟩ : ArgumentSlot).coerce member site v =
      if t.rejects v then .error (.invalidCast member site t v.typeName) else .ok v := by
  unfold ArgumentSlot.coerce Coercion.forParameter TypeHandle.rejects
  cases hk : t.kind <;> cases ha : t.accepts v <;> simp

namespace ArgumentPlan

/-- The leftmost value that is rejected in its place, with its type and its position; the first
position is `start`. -/
def firstRejected (start : Nat) (types : List TypeHandle) (args : List Value) :
    Option ((TypeHandle × Value) × Nat) :=
  ((types.zip args).zipIdx start).find? fun p => p.1.1.rejects p.1.2

theorem length_slotsFrom (start : Nat) (types : List TypeHandle) :
    (slotsFrom start types).length = types.length := by
  induction types generalizing start with
  | nil => rfl
  | cons t ts ih => rw [slotsFrom, List.length_cons, List.length_cons, ih]

@[simp] theorem arity_ofParameters (types : List TypeHandle) :
    (ofParameters types).arity = types.length :=
  length_slotsFrom 0 types

theorem firstRefusal_slotsFrom (member : String) (start : Nat) (types : List TypeHandle)
    (args : List Value) :
    firstRefusal member (slotsFrom start types) args =
      (firstRejected start types args).map fun p =>
        .invalidCast member (.argument p.2) p.1.1 p.1.2.typeName := by
  induction types generalizing start args with
  | nil => cases args <;> rfl
  | cons t ts ih =>
    cases args with
    | nil => rfl
    | cons v vs =>
      rw [slotsFrom, firstRefusal, ArgumentSlot.coerce_forParameter, firstRejected,
        List.zip_cons_cons, List.zipIdx_cons, List.find?_cons]
      cases hv : t.rejects v with
      | true => rfl
      | false => exact ih (start + 1) vs

/-- The plan of a parameter list: first the length, then the leftmost value that is rejected. -/
theorem coerce_ofParameters (member : String) (types : List TypeHandle) (args : List Value) :
    (ofParameters types).coerce member args =
      if args.length = types.length then
        match firstRejected 0 types args with
        | some p => .error (.invalidCast member (.argument p.2) p.1.1 p.1.2.typeName)
        | none => .ok args
      else .error (.argumentCount member types.length args.length) := by
  unfold coerce
  rw [arity_ofParameters, ofParameters, firstRefusal_slotsFrom]
  cases firstRejected 0 types args <;> rfl

theorem eq_of_coerce {p : ArgumentPlan} {member : String} {args passed : List Value}
    (h : p.coerce member args = .ok passed) : passed = args := by
  unfold coerce at h
  split at h
  · split at h
    · cases h
    · exact (Except.ok.inj h).symm
  · cases h

theorem coerce_ofParameters_ok {member : String} {types : List TypeHandle}
    {args passed : List Value} (h : (ofParameters types).coerce member args = .ok passed) :
    args.length = types.length ∧ ∀ p ∈ types.zip args, p.1.rejects p.2 = false := by
  rw [coerce_ofParameters] at h
  split at h
  · rename_i hlength
    refine ⟨hlength, fun p hp => ?_⟩
    cases hf : firstRejected 0 types args with
    | some q =>
      rw [hf] at h
      cases h
    | none =>
      obtain ⟨i, hi⟩ := List.getElem?_of_mem hp
      have hmem : (p, i) ∈ (types.zip args).zipIdx := List.mem_zipIdx_iff_getElem?.2 hi
      exact Bool.eq_false_iff.2 (List.find?_eq_none.1 hf (p, i) hmem)
  · cases h

end ArgumentPlan

/-! ## Unpacking -/

namespace Arguments

/-- The leftmost value that only the member refuses. -/
def firstLate (types : List TypeHandle) (args : List Value) : Option Value :=
  ((types.zip args).find? fun p => p.1.rejectsLate p.2).map Prod.snd

theorem box_of_convert {parameters : List StaticType} {args : List Value}
    {xs : Arguments parameters} (hlength : args.length = parameters.length)
    (h : convert parameters args = .ok xs) : box parameters xs = args := by
  induction parameters generalizing args with
  | nil => exact (List.eq_nil_of_length_eq_zero hlength).symm
  | cons t ts ih =>
    cases args with
    | nil => cases hlength
    | cons v vs =>
      unfold convert at h
      split at h
      · cases h
      · rename_i x hx
        split at h
        · cases h
        · rename_i ys hys
          have hrest := ih (Nat.succ.inj hlength) hys
          obtain rfl := Except.ok.inj h
          rw [box, StaticType.toValue_of_fromValue hx, hrest]

theorem box_of_unpack {parameters : List StaticType} {args : List Value}
    {xs : Arguments parameters} (h : unpack parameters args = .ok xs) :
    box parameters xs = args := by
  unfold unpack at h
  split at h
  · rename_i hlength
    exact box_of_convert hlength h
  · cases h

theorem convert_of_not_rejects (parameters : List StaticType) (args : List Value)
    (hlength : args.length = parameters.length)
    (h : ∀ p ∈ (parameters.map StaticType.handle).zip args, p.1.rejects p.2 = false) :
    match firstLate (parameters.map StaticType.handle) args with
    | some v => convert parameters args = .error (.typeMismatch .void v.typeName)
    | none => ∃ xs, convert parameters args = .ok xs := by
  induction parameters generalizing args with
  | nil => exact ⟨(), rfl⟩
  | cons t ts ih =>
    cases args with
    | nil => cases hlength
    | cons v vs =>
      rw [List.map_cons, List.zip_cons_cons] at h
      have hv := h (t.handle, v) List.mem_cons_self
      have hrest := ih vs (Nat.succ.inj hlength) fun p hp => h p (List.mem_cons_of_mem _ hp)
      rw [firstLate, List.map_cons, List.zip_cons_cons, List.find?_cons]
      cases hl : t.handle.rejectsLate v with
      | true =>
        show convert (t :: ts) (v :: vs) = _
        rw [convert, StaticType.fromValue_of_rejectsLate hl]
      | false =>
        obtain ⟨x, hx, -⟩ := StaticType.fromValue_of_accepts
          (TypeHandle.accepts_of_not_rejects hv hl)
        show match firstLate (ts.map StaticType.handle) vs with
          | some v' => convert (t :: ts) (v :: vs) = .error (.typeMismatch .void v'.typeName)
          | none => ∃ xs, convert (t :: ts) (v :: vs) = .ok xs
        rw [convert, hx]
        cases hf : firstLate (ts.map StaticType.handle) vs with
        | some v' =>
          rw [hf] at hrest
          rw [hrest]
        | none =>
          rw [hf] at hrest
          obtain ⟨xs, hxs⟩ := hrest
          rw [hxs]
          exact ⟨(x, xs), rfl⟩

/-- What a member gets from a vector that passed the plan of its parameter list: a refusal of the
leftmost value that only it refuses, or its own arguments. -/
theorem unpack_cases_of_coerce {parameters : List StaticType} {member : String}
    {args passed : List Value}
    (h : (ArgumentPlan.ofParameters (parameters.map StaticType.handle)).coerce member args =
      .ok passed) :
    (∃ v, firstLate (parameters.map StaticType.handle) args = some v ∧
        unpack parameters args = .error (.typeMismatch .void v.typeName)) ∨
      (firstLate (parameters.map StaticType.handle) args = none ∧
        ∃ xs, unpack parameters args = .ok xs ∧ box parameters xs = args) := by
  obtain ⟨hlength, hfit⟩ := ArgumentPlan.coerce_ofParameters_ok h
  rw [List.length_map] at hlength
  have hconvert := convert_of_not_rejects parameters args hlength hfit
  have hunpack : unpack parameters args = convert parameters args := if_pos hlength
  rw [hunpack]
  cases hlate : firstLate (parameters.map StaticType.handle) args with
  | some v =>
    rw [hlate] at hconvert
    exact Or.inl ⟨v, rfl, hconvert⟩
  | none =>
    rw [hlate] at hconvert
    obtain ⟨xs, hxs⟩ := hconvert
    exact Or.inr ⟨rfl, xs, hxs, box_of_convert hlength hxs⟩

end Arguments

end MemberAccess
