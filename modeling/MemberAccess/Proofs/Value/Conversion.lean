import MemberAccess.Value.Static

/-!
# The type test and the conversion

A handle tests a value by kind and class, a static type converts it by recursion over its optional
layers. Here the two are tied together: the handle of a static type accepts exactly the values that
convert, a conversion loses nothing, and the error says what was wrong.

* `StaticType.fromValue_cases`: what a conversion gives, by what the handle says.
* `StaticType.accepts_toValue`: a boxed value is accepted.
* `StaticType.toValue_of_fromValue`: boxing undoes a conversion.
* `StaticType.NullOnce`, `StaticType.fromValue_toValue`: when a conversion undoes boxing.
* `conversion_exact`: all of it, for any static type.
-/

namespace MemberAccess

theorem Value.isNull_eq_true_iff (v : Value) : v.isNull = true ↔ v = .null := by
  cases v <;> simp [Value.isNull]

theorem Value.isNull_eq_false_iff (v : Value) : v.isNull = false ↔ v ≠ .null := by
  rw [← Bool.not_eq_true, Value.isNull_eq_true_iff]

/-! ## Base types -/

namespace BaseType

theorem accepts_host (c : HostClass) (o : ObjectRef) :
    (TypeHandle.of (.host c)).accepts (.object o) = decide (o.host = c) := by
  simp [TypeHandle.accepts, TypeHandle.of, TypeHandle.kind, kind, Value.runtimeBase,
    Bool.beq_eq_decide_eq]

theorem fromValue_host (c : HostClass) (o : ObjectRef) :
    (host c).fromValue (.object o) =
      if o.host = c then .ok (⟨o.cell⟩ : Handle c) else .error ((host c).refuse (.object o)) :=
  rfl

theorem fromValue_cases (b : BaseType) (v : Value) :
    ((TypeHandle.of b).accepts v = true ∧ ∃ x, b.fromValue v = .ok x ∧ b.toValue x = v) ∨
      ((TypeHandle.of b).accepts v = false ∧ b.fromValue v = .error (b.refuse v)) := by
  cases b with
  | any => exact Or.inl ⟨rfl, v, rfl, rfl⟩
  | host c =>
    cases v with
    | object o =>
      rw [accepts_host, fromValue_host]
      by_cases ho : o.host = c
      · subst ho
        exact Or.inl ⟨decide_eq_true rfl, ⟨o.cell⟩, if_pos rfl, rfl⟩
      · exact Or.inr ⟨decide_eq_false ho, if_neg ho⟩
    | _ => exact Or.inr ⟨rfl, rfl⟩
  -- an empty or primitive type and a value of a fixed form: both sides compute
  | _ =>
    cases v <;>
      first
        | exact Or.inl ⟨rfl, _, rfl, rfl⟩
        | exact Or.inr ⟨rfl, rfl⟩

theorem accepts_toValue (b : BaseType) (x : b.Carrier) :
    (TypeHandle.of b).accepts (b.toValue x) = true := by
  cases b with
  | host c => exact (accepts_host c x.ref).trans (decide_eq_true rfl)
  | _ => rfl

theorem fromValue_toValue (b : BaseType) (x : b.Carrier) : b.fromValue (b.toValue x) = .ok x := by
  cases b with
  | host c => exact (fromValue_host c x.ref).trans (if_pos rfl)
  | _ => rfl

theorem exists_toValue_null {b : BaseType} (h : b.alwaysNullable = true) :
    ∃ x, b.toValue x = .null := by
  cases b with
  | any => exact ⟨Value.null, rfl⟩
  | void => exact ⟨(), rfl⟩
  | _ => cases h

end BaseType

/-! ## Handles -/

namespace TypeHandle

theorem accepts_withNull_null (t : TypeHandle) : t.withNull.accepts .null = true := by
  obtain ⟨b, n⟩ := t
  cases b <;> rfl

theorem accepts_withNull_of_ne_null (t : TypeHandle) {v : Value} (hv : v ≠ .null) :
    t.withNull.accepts v = t.accepts v := by
  obtain ⟨b, n⟩ := t
  cases v with
  | null => exact absurd rfl hv
  | _ => rfl

end TypeHandle

/-! ## Static types -/

namespace StaticType

theorem fromValue_optional (t : StaticType) {v : Value} (hv : v ≠ .null) :
    (optional t).fromValue v = (t.fromValue v).map some := by
  cases v with
  | null => exact absurd rfl hv
  | _ => rfl

theorem fromValue_cases (t : StaticType) (v : Value) :
    (t.handle.accepts v = true ∧ ∃ x, t.fromValue v = .ok x ∧ t.toValue x = v) ∨
      (t.handle.accepts v = false ∧ t.fromValue v = .error (t.handle.base.refuse v)) := by
  induction t with
  | base b => exact b.fromValue_cases v
  | optional t ih =>
    by_cases hv : v = .null
    · subst hv
      exact Or.inl ⟨t.handle.accepts_withNull_null, none, rfl, rfl⟩
    · rw [handle, t.handle.accepts_withNull_of_ne_null hv, t.fromValue_optional hv]
      rcases ih with ⟨ha, x, hx, hback⟩ | ⟨ha, hx⟩
      · exact Or.inl ⟨ha, some x, by rw [hx]; rfl, hback⟩
      · exact Or.inr ⟨ha, by rw [hx]; rfl⟩

theorem accepts_toValue (t : StaticType) (x : t.Carrier) :
    t.handle.accepts (t.toValue x) = true := by
  induction t with
  | base b => exact b.accepts_toValue x
  | optional t ih =>
    cases x with
    | none => exact t.handle.accepts_withNull_null
    | some x =>
      by_cases hv : t.toValue x = .null
      · rw [show (optional t).toValue (some x) = .null from hv]
        exact t.handle.accepts_withNull_null
      · exact (t.handle.accepts_withNull_of_ne_null hv).trans (ih x)

theorem toValue_of_fromValue {t : StaticType} {v : Value} {x : t.Carrier}
    (h : t.fromValue v = .ok x) : t.toValue x = v := by
  rcases t.fromValue_cases v with ⟨-, y, hy, hback⟩ | ⟨-, he⟩
  · rw [hy, Except.ok.injEq] at h
    exact h ▸ hback
  · rw [he] at h
    cases h

theorem fromValue_of_accepts {t : StaticType} {v : Value} (h : t.handle.accepts v = true) :
    ∃ x, t.fromValue v = .ok x ∧ t.toValue x = v := by
  rcases t.fromValue_cases v with ⟨-, hx⟩ | ⟨ha, -⟩
  · exact hx
  · rw [h] at ha
    cases ha

theorem fromValue_of_not_accepts {t : StaticType} {v : Value} (h : t.handle.accepts v = false) :
    t.fromValue v = .error (t.handle.base.refuse v) := by
  rcases t.fromValue_cases v with ⟨ha, -⟩ | ⟨-, he⟩
  · rw [h] at ha
    cases ha
  · exact he

/-! ## Types that admit null -/

/-- No optional layer of the type wraps a type that admits null already. -/
def NullOnce : StaticType → Prop
  | base _ => True
  | optional t => t.handle.nullable = false ∧ t.NullOnce

theorem accepts_null (t : StaticType) : t.handle.accepts .null = t.handle.nullable := by
  cases t with
  | base b => cases b <;> rfl
  | optional t => exact t.handle.accepts_withNull_null

theorem exists_toValue_null {t : StaticType} (h : t.handle.nullable = true) :
    ∃ x, t.toValue x = .null := by
  cases t with
  | base b => exact BaseType.exists_toValue_null h
  | optional t => exact ⟨none, rfl⟩

theorem toValue_ne_null {t : StaticType} (h : t.handle.nullable = false) (x : t.Carrier) :
    t.toValue x ≠ .null := by
  intro hx
  have haccepts := t.accepts_toValue x
  rw [hx, accepts_null, h] at haccepts
  cases haccepts

theorem nullOnce_of_not_nullable {t : StaticType} (h : t.handle.nullable = false) :
    t.NullOnce := by
  cases t with
  | base b => trivial
  | optional t => cases h

theorem fromValue_toValue {t : StaticType} (h : t.NullOnce) (x : t.Carrier) :
    t.fromValue (t.toValue x) = .ok x := by
  induction t with
  | base b => exact b.fromValue_toValue x
  | optional t ih =>
    obtain ⟨hnull, ht⟩ := h
    cases x with
    | none => rfl
    | some x =>
      show (optional t).fromValue (t.toValue x) = _
      rw [t.fromValue_optional (toValue_ne_null hnull x), ih ht x]
      rfl

/-- Where a layer wraps a type that admits null, the value of that type that is boxed as null comes
back as the extra value of the layer. -/
theorem nullOnce_of_fromValue_toValue {t : StaticType}
    (h : ∀ x, t.fromValue (t.toValue x) = .ok x) : t.NullOnce := by
  cases t with
  | base b => trivial
  | optional t =>
    have hnull : t.handle.nullable = false := by
      rw [← Bool.not_eq_true]
      intro hnullable
      obtain ⟨x, hx⟩ := exists_toValue_null hnullable
      have hback : (optional t).fromValue (t.toValue x) = .ok (some x) := h (some x)
      rw [hx] at hback
      cases Except.ok.inj hback
    exact ⟨hnull, nullOnce_of_not_nullable hnull⟩

end StaticType

/-- The type test tells exactly which values convert. A conversion that succeeds is undone by
boxing, and one that fails says whether null or another type was in the way. A boxed value passes
the test, and converting it gives it back unless null is admitted twice. -/
theorem conversion_exact (t : StaticType) :
    (∀ v, match t.fromValue v with
      | .ok x => t.handle.accepts v = true ∧ t.toValue x = v
      | .error e => t.handle.accepts v = false ∧
          e = if v = .null then .nullValue t.handle.base
            else .typeMismatch t.handle.base v.typeName) ∧
    (∀ x, t.handle.accepts (t.toValue x) = true) ∧
    ((∀ x, t.fromValue (t.toValue x) = .ok x) ↔ t.NullOnce) := by
  refine ⟨fun v => ?_, t.accepts_toValue, ?_⟩
  · rcases t.fromValue_cases v with ⟨haccepts, x, hx, hback⟩ | ⟨haccepts, he⟩
    · rw [hx]
      exact ⟨haccepts, hback⟩
    · rw [he]
      refine ⟨haccepts, ?_⟩
      rw [BaseType.refuse]
      by_cases hv : v = .null
      · rw [if_pos hv, if_pos (v.isNull_eq_true_iff.2 hv)]
      · rw [if_neg hv, if_neg (mt v.isNull_eq_true_iff.1 hv)]
  · constructor
    · exact StaticType.nullOnce_of_fromValue_toValue
    · exact fun h x => StaticType.fromValue_toValue h x

/-- An object that may be missing: a null that is there is read as a missing one. -/
example : (StaticType.optional (.base .any)).fromValue
    ((StaticType.optional (.base .any)).toValue (some Value.null)) =
      .ok (none : Option Value) :=
  rfl

end MemberAccess
