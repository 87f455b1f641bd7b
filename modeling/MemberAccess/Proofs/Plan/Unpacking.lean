import MemberAccess.Proofs.Plan.Arguments

/-!
# The check and the unpacking of one vector

The plan of a parameter list checks a vector by the kinds of its slots, and the member unpacks the
vector by its static types. The two walks are compared place by place: a value that the check stops
at does not unpack, and one that passes unpacks, save in a place of the empty type, which the check
never looks at and which takes only null.

* `Placed`, `Leftmost`: the places of a vector, and the first one that a test picks.
* `StaticType.Rejected`, `StaticType.Filled`: a value that the check stops at, and one that only
  unpacking stops at; `StaticType.fails_iff`.
* `Arguments.check_eq_error_iff`, `Arguments.unpack_eq_error_iff`: where each walk stops.
* `Arguments.check_agrees_with_unpack`: both walks over one vector.
-/

namespace MemberAccess

/-! ## Places -/

/-- At the position `i` the parameter list has the type `t` and the vector has the value `v`. -/
structure Placed (parameters : List StaticType) (args : List Value) (i : Nat) (t : StaticType)
    (v : Value) : Prop where
  type : parameters[i]? = some t
  value : args[i]? = some v

/-- The test picks the place, and no place before it. -/
structure Leftmost (p : StaticType → Value → Prop) (parameters : List StaticType)
    (args : List Value) (i : Nat) (t : StaticType) (v : Value) : Prop
    extends Placed parameters args i t v where
  picked : p t v
  before : ∀ j < i, ∀ u w, Placed parameters args j u w → ¬ p u w

section Places

variable {p : StaticType → Value → Prop} {parameters ts : List StaticType} {args vs : List Value}
  {i : Nat} {t u : StaticType} {v w : Value}

theorem Leftmost.head (h : p t v) : Leftmost p (t :: ts) (v :: vs) 0 t v :=
  ⟨⟨rfl, rfl⟩, h, fun _ hj => absurd hj (Nat.not_lt_zero _)⟩

theorem Leftmost.cons (hhead : ¬ p t v) (h : Leftmost p ts vs i u w) :
    Leftmost p (t :: ts) (v :: vs) (i + 1) u w := by
  refine ⟨⟨h.type, h.value⟩, h.picked, fun j hj u' w' hplace => ?_⟩
  cases j with
  | zero =>
    obtain rfl := Option.some.inj hplace.type
    obtain rfl := Option.some.inj hplace.value
    exact hhead
  | succ j => exact h.before j (Nat.lt_of_succ_lt_succ hj) u' w' ⟨hplace.type, hplace.value⟩

theorem Leftmost.tail (h : Leftmost p (t :: ts) (v :: vs) (i + 1) u w) :
    ¬ p t v ∧ Leftmost p ts vs i u w :=
  ⟨h.before 0 i.succ_pos t v ⟨rfl, rfl⟩, ⟨h.type, h.value⟩, h.picked,
    fun j hj u' w' hplace => h.before (j + 1) (Nat.succ_lt_succ hj) u' w'
      ⟨hplace.type, hplace.value⟩⟩

theorem exists_leftmost_cons {q : Nat → StaticType → Value → Prop} :
    (∃ i u w, Leftmost p (t :: ts) (v :: vs) i u w ∧ q i u w) ↔
      p t v ∧ q 0 t v ∨ ¬ p t v ∧ ∃ i u w, Leftmost p ts vs i u w ∧ q (i + 1) u w := by
  constructor
  · rintro ⟨i, u, w, h, hq⟩
    cases i with
    | zero =>
      obtain rfl := Option.some.inj h.type
      obtain rfl := Option.some.inj h.value
      exact .inl ⟨h.picked, hq⟩
    | succ i => exact .inr ⟨h.tail.1, i, u, w, h.tail.2, hq⟩
  · rintro (⟨hp, hq⟩ | ⟨hp, i, u, w, h, hq⟩)
    · exact ⟨0, t, v, .head hp, hq⟩
    · exact ⟨i + 1, u, w, .cons hp h, hq⟩

theorem Placed.exists_leftmost (h : Placed parameters args i t v) (hp : p t v) :
    ∃ j ≤ i, ∃ u w, Leftmost p parameters args j u w := by
  induction i using Nat.strongRecOn generalizing t v with
  | ind i ih =>
    by_cases hearlier : ∃ j < i, ∃ u w, Placed parameters args j u w ∧ p u w
    · obtain ⟨j, hj, u, w, hplace, hpicked⟩ := hearlier
      obtain ⟨k, hk, hleft⟩ := ih j hj hplace hpicked
      exact ⟨k, Nat.le_trans hk (Nat.le_of_lt hj), hleft⟩
    · refine ⟨i, Nat.le_refl i, t, v, h, hp, fun j hj u w hplace hpicked => ?_⟩
      exact hearlier ⟨j, hj, u, w, hplace, hpicked⟩

theorem Leftmost.congr {q : StaticType → Value → Prop} (h : Leftmost p parameters args i t v)
    (hpq : ∀ j u w, Placed parameters args j u w → (p u w ↔ q u w)) :
    Leftmost q parameters args i t v :=
  ⟨h.toPlaced, (hpq i t v h.toPlaced).1 h.picked,
    fun j hj u w hplace => mt (hpq j u w hplace).2 (h.before j hj u w hplace)⟩

end Places

/-! ## Values that do not fit -/

namespace StaticType

variable {t : StaticType} {v : Value}

/-- The place is not of the empty type, and its type does not take the value. -/
def Rejected (t : StaticType) (v : Value) : Prop :=
  t.handle.kind ≠ .void ∧ t.handle.accepts v = false

/-- The place is of the empty type, and the value is not null. -/
def Filled (t : StaticType) (v : Value) : Prop := t.handle.kind = .void ∧ v ≠ .null

/-- The value does not convert. -/
def Fails (t : StaticType) (v : Value) : Prop := ∃ e, t.fromValue v = .error e

/-- A place for objects takes every value, so it needs no case of its own. -/
theorem rejected_iff : t.Rejected v ↔ t.handle.rejects v = true := by
  have hany : t.handle.kind = .any → t.handle.accepts v = true := fun h => by
    unfold TypeHandle.accepts
    rw [h]
  rw [Rejected, TypeHandle.rejects]
  cases hk : t.handle.kind <;> simp_all

theorem filled_iff : t.Filled v ↔ t.handle.rejectsLate v = true := by
  rw [Filled, TypeHandle.rejectsLate, Bool.and_eq_true, beq_iff_eq, Bool.not_eq_true',
    Value.isNull_eq_false_iff]

theorem fails_iff_not_accepts : t.Fails v ↔ t.handle.accepts v = false := by
  rcases t.fromValue_cases v with ⟨ha, x, hx, -⟩ | ⟨ha, he⟩
  · rw [Fails, hx, ha]
    simp
  · exact iff_of_true ⟨_, he⟩ ha

theorem Filled.fromValue (h : t.Filled v) :
    t.fromValue v = .error (.typeMismatch .void v.typeName) :=
  fromValue_of_rejectsLate (filled_iff.1 h)

/-- The empty type is where the two walks differ. -/
theorem fails_iff : t.Fails v ↔ t.Rejected v ∨ t.Filled v := by
  constructor
  · intro h
    rw [fails_iff_not_accepts] at h
    by_cases hk : t.handle.kind = .void
    · refine .inr ⟨hk, fun hv => ?_⟩
      subst hv
      unfold TypeHandle.accepts at h
      rw [hk] at h
      cases h
    · exact .inl ⟨hk, h⟩
  · rintro (h | h)
    · exact fails_iff_not_accepts.2 h.2
    · exact ⟨_, h.fromValue⟩

theorem fromValue_ne_argumentCount (t : StaticType) (v : Value) (n k : Nat) :
    t.fromValue v ≠ .error (.argumentCount n k) := by
  intro h
  rcases t.fromValue_cases v with ⟨-, x, hx, -⟩ | ⟨-, he⟩
  · rw [hx] at h
    cases h
  · rw [he, BaseType.refuse] at h
    split at h <;> cases h

end StaticType

namespace Arguments

open StaticType

variable {member : String} {parameters : List StaticType} {args passed : List Value}

/-! ## The check -/

/-- The check of a vector by the plan of a parameter list. -/
def check (member : String) (parameters : List StaticType) (args : List Value) :
    Except AccessError (List Value) :=
  (ArgumentPlan.ofParameters (parameters.map StaticType.handle)).coerce member args

theorem firstRefusal_eq_some_iff (start : Nat) (e : AccessError) :
    ArgumentPlan.firstRefusal member
        (ArgumentPlan.slotsFrom start (parameters.map StaticType.handle)) args = some e ↔
      ∃ i t v, Leftmost Rejected parameters args i t v ∧
        e = .invalidCast member (.argument (start + i)) t.handle v.typeName := by
  induction parameters generalizing start args with
  | nil => exact iff_of_false (by cases args <;> exact nofun) fun ⟨_, _, _, h, _⟩ => nomatch h.type
  | cons t ts ih =>
    cases args with
    | nil => exact iff_of_false nofun fun ⟨_, _, _, h, _⟩ => nomatch h.value
    | cons v vs =>
      rw [List.map_cons, ArgumentPlan.slotsFrom, ArgumentPlan.firstRefusal,
        ArgumentSlot.coerce_forParameter, exists_leftmost_cons, rejected_iff]
      cases t.handle.rejects v with
      | true => simp [eq_comm]
      | false => simp [ih, Nat.add_assoc, Nat.add_comm 1]

theorem check_of_length_ne (h : args.length ≠ parameters.length) :
    check member parameters args =
      .error (.argumentCount member parameters.length args.length) := by
  rw [check, ArgumentPlan.coerce_ofParameters, List.length_map, if_neg h]

theorem check_of_length_eq (h : args.length = parameters.length) :
    check member parameters args =
      match ArgumentPlan.firstRefusal member
        (ArgumentPlan.slotsFrom 0 (parameters.map StaticType.handle)) args with
      | some e => .error e
      | none => .ok args := by
  rw [check, ArgumentPlan.coerce, ArgumentPlan.arity_ofParameters, List.length_map, if_pos h]
  rfl

theorem check_eq_error_iff (hlength : args.length = parameters.length) (e : AccessError) :
    check member parameters args = .error e ↔
      ∃ i t v, Leftmost Rejected parameters args i t v ∧
        e = .invalidCast member (.argument i) t.handle v.typeName := by
  have hwalk := @firstRefusal_eq_some_iff member parameters args 0 e
  simp only [Nat.zero_add] at hwalk
  rw [check_of_length_eq hlength, ← hwalk]
  cases ArgumentPlan.firstRefusal member
    (ArgumentPlan.slotsFrom 0 (parameters.map StaticType.handle)) args <;> simp

theorem check_eq_argumentCount_iff (m : String) (n k : Nat) :
    check member parameters args = .error (.argumentCount m n k) ↔
      args.length ≠ parameters.length ∧ m = member ∧ n = parameters.length ∧ k = args.length := by
  by_cases hlength : args.length = parameters.length
  · rw [check_eq_error_iff hlength]
    exact iff_of_false (fun ⟨_, _, _, _, h⟩ => nomatch h) fun h => h.1 hlength
  · rw [check_of_length_ne hlength]
    simp [hlength, eq_comm]

theorem check_eq_ok_iff : check member parameters args = .ok passed ↔
    passed = args ∧ args.length = parameters.length ∧
      ∀ i t v, Placed parameters args i t v → ¬ t.Rejected v := by
  constructor
  · intro h
    obtain ⟨hlength, -⟩ := ArgumentPlan.coerce_ofParameters_ok h
    rw [List.length_map] at hlength
    refine ⟨ArgumentPlan.eq_of_coerce h, hlength, fun i t v hplace hrejected => ?_⟩
    obtain ⟨j, -, u, w, hleft⟩ := hplace.exists_leftmost hrejected
    rw [(check_eq_error_iff hlength _).2 ⟨j, u, w, hleft, rfl⟩] at h
    cases h
  · rintro ⟨rfl, hlength, hfit⟩
    cases h : check member parameters passed with
    | error e =>
      obtain ⟨i, t, v, hleft, -⟩ := (check_eq_error_iff hlength e).1 h
      exact absurd hleft.picked (hfit i t v hleft.toPlaced)
    | ok passed' => exact congrArg Except.ok (ArgumentPlan.eq_of_coerce h)

/-! ## Unpacking -/

theorem convert_eq_error_iff (hlength : args.length = parameters.length) (e : ValueError) :
    convert parameters args = .error e ↔
      ∃ i t v, Leftmost Fails parameters args i t v ∧ t.fromValue v = .error e := by
  induction parameters generalizing args with
  | nil => exact iff_of_false nofun fun ⟨_, _, _, h, _⟩ => nomatch h.type
  | cons t ts ih =>
    cases args with
    | nil => cases hlength
    | cons v vs =>
      have hrest := ih (Nat.succ.inj hlength)
      rw [convert, exists_leftmost_cons, Fails, ← hrest]
      cases t.fromValue v with
      | error e' => simp
      | ok x => cases convert ts vs <;> simp

theorem unpack_of_length_eq (h : args.length = parameters.length) :
    unpack parameters args = convert parameters args :=
  if_pos h

theorem unpack_eq_error_iff (hlength : args.length = parameters.length) (e : ValueError) :
    unpack parameters args = .error e ↔
      ∃ i t v, Leftmost Fails parameters args i t v ∧ t.fromValue v = .error e := by
  rw [unpack_of_length_eq hlength, convert_eq_error_iff hlength]

theorem unpack_eq_argumentCount_iff (n k : Nat) :
    unpack parameters args = .error (.argumentCount n k) ↔
      args.length ≠ parameters.length ∧ n = parameters.length ∧ k = args.length := by
  by_cases hlength : args.length = parameters.length
  · rw [unpack_eq_error_iff hlength]
    exact iff_of_false (fun ⟨_, t, v, _, h⟩ => t.fromValue_ne_argumentCount v n k h)
      fun h => h.1 hlength
  · rw [unpack, if_neg hlength]
    simp [hlength, eq_comm]

/-! ## Both -/

/-- Unpacking stops with the check, or earlier at a value that the check did not look at. -/
theorem unpack_of_rejected (hlength : args.length = parameters.length) {i : Nat} {t : StaticType}
    {v : Value} (h : Leftmost Rejected parameters args i t v) :
    ∃ j u w e, Leftmost Fails parameters args j u w ∧ u.fromValue w = .error e ∧
      unpack parameters args = .error e ∧ (j = i ∨ j < i ∧ u.Filled w) := by
  obtain ⟨j, hj, u, w, hleft⟩ := h.exists_leftmost (fails_iff.2 (.inl h.picked))
  obtain ⟨e, he⟩ := hleft.picked
  refine ⟨j, u, w, e, hleft, he, (unpack_eq_error_iff hlength e).2 ⟨j, u, w, hleft, he⟩, ?_⟩
  rcases Nat.eq_or_lt_of_le hj with hj | hj
  · exact .inl hj
  · exact .inr ⟨hj, (fails_iff.1 hleft.picked).resolve_left (h.before j hj u w hleft.toPlaced)⟩

theorem fails_iff_filled_of_check (h : check member parameters args = .ok passed) (i : Nat)
    (t : StaticType) (v : Value) (hplace : Placed parameters args i t v) :
    t.Fails v ↔ t.Filled v := by
  obtain ⟨-, -, hfit⟩ := check_eq_ok_iff.1 h
  rw [fails_iff, or_iff_right (hfit i t v hplace)]

theorem unpack_of_filled (h : check member parameters args = .ok passed) {i : Nat}
    {t : StaticType} {v : Value} (hfilled : Leftmost Filled parameters args i t v) :
    unpack parameters args = .error (.typeMismatch .void v.typeName) := by
  obtain ⟨-, hlength, -⟩ := check_eq_ok_iff.1 h
  have hleft : Leftmost Fails parameters args i t v :=
    hfilled.congr fun j u w hplace => (fails_iff_filled_of_check h j u w hplace).symm
  exact (unpack_eq_error_iff hlength _).2 ⟨i, t, v, hleft, hfilled.picked.fromValue⟩

theorem unpack_of_not_filled (h : check member parameters args = .ok passed)
    (hempty : ∀ i t v, Placed parameters args i t v → ¬ t.Filled v) :
    ∃ xs, unpack parameters args = .ok xs ∧ box parameters xs = args := by
  obtain ⟨-, hlength, -⟩ := check_eq_ok_iff.1 h
  cases hunpack : unpack parameters args with
  | ok xs => exact ⟨xs, rfl, box_of_unpack hunpack⟩
  | error e =>
    obtain ⟨i, t, v, hleft, -⟩ := (unpack_eq_error_iff hlength e).1 hunpack
    have hfilled := (fails_iff_filled_of_check h i t v hleft.toPlaced).1 hleft.picked
    exact absurd hfilled (hempty i t v hleft.toPlaced)

end Arguments

end MemberAccess
