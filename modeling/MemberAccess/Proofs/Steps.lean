/-!
# Steps in sequence

Computations that may fail run one after the other, and the first failure is the result.

* `bind_eq_ok_iff`, `map_eq_ok_iff` and their like: where a sequence of steps leads to.
* `StopsAt`: a computation fails with an error, or succeeds where there is none; of steps in
  sequence the first that fails decides.
-/

namespace MemberAccess

/-! ## Sequences -/

theorem bind_eq_ok_iff {ε α β : Type} {x : Except ε α} {f : α → Except ε β} {b : β} :
    (x >>= f) = .ok b ↔ ∃ a, x = .ok a ∧ f a = .ok b := by
  cases x with
  | error e => exact ⟨fun h => (nomatch h), fun ⟨_, h, _⟩ => (nomatch h)⟩
  | ok a => exact ⟨fun h => ⟨a, rfl, h⟩, fun ⟨_, h, hf⟩ => Except.ok.inj h ▸ hf⟩

theorem bind_eq_error_iff {ε α β : Type} {x : Except ε α} {f : α → Except ε β} {e : ε} :
    (x >>= f) = .error e ↔ x = .error e ∨ ∃ a, x = .ok a ∧ f a = .error e := by
  cases x with
  | error e' =>
    constructor
    · intro h
      exact .inl (congrArg _ (Except.error.inj h))
    · rintro (h | ⟨a, ha, -⟩)
      · exact congrArg _ (Except.error.inj h)
      · cases ha
  | ok a =>
    constructor
    · intro h
      exact .inr ⟨a, rfl, h⟩
    · rintro (h | ⟨a', ha, hf⟩)
      · cases h
      · obtain rfl := Except.ok.inj ha
        exact hf

theorem map_eq_ok_iff {ε α β : Type} {x : Except ε α} {f : α → β} {b : β} :
    x.map f = .ok b ↔ ∃ a, x = .ok a ∧ f a = b := by
  cases x with
  | error e => exact ⟨fun h => (nomatch h), fun ⟨_, h, _⟩ => (nomatch h)⟩
  | ok a =>
    exact ⟨fun h => ⟨a, rfl, Except.ok.inj h⟩, fun ⟨_, h, hf⟩ => congrArg _ (Except.ok.inj h ▸ hf)⟩

theorem map_eq_error_iff {ε α β : Type} {x : Except ε α} {f : α → β} {e : ε} :
    x.map f = .error e ↔ x = .error e := by
  cases x with
  | error e' =>
    constructor
    · intro h
      exact congrArg _ (Except.error.inj h)
    · intro h
      exact congrArg _ (Except.error.inj h)
  | ok a => exact ⟨fun h => (nomatch h), fun h => (nomatch h)⟩

theorem toOption_eq_some_iff {ε α : Type} {x : Except ε α} {a : α} :
    x.toOption = some a ↔ x = .ok a := by
  cases x with
  | error e => exact ⟨nofun, nofun⟩
  | ok a' => exact ⟨fun h => congrArg _ (Option.some.inj h), fun h => congrArg _ (Except.ok.inj h)⟩

/-! ## The first fault -/

/-- The computation fails with the error, or succeeds if there is none. -/
def StopsAt {ε α : Type} (x : Except ε α) : Option ε → Prop
  | none => ∃ a, x = .ok a
  | some e => x = .error e

namespace StopsAt

variable {ε α β : Type} {x : Except ε α} {fault fault' : Option ε}

theorem map (h : StopsAt x fault) (f : α → β) : StopsAt (x.map f) fault := by
  cases fault with
  | none =>
    obtain ⟨a, rfl⟩ := h
    exact ⟨f a, rfl⟩
  | some e =>
    obtain rfl : x = .error e := h
    exact rfl

theorem bind {f : α → Except ε β} (hx : StopsAt x fault)
    (hf : ∀ a, x = .ok a → StopsAt (f a) fault') : StopsAt (x >>= f) (fault.or fault') := by
  cases fault with
  | none =>
    obtain ⟨a, rfl⟩ := hx
    exact hf a rfl
  | some e =>
    obtain rfl : x = .error e := hx
    exact rfl

theorem exists_ok_iff (h : StopsAt x fault) : (∃ a, x = .ok a) ↔ fault = none := by
  cases fault with
  | none => exact iff_of_true h rfl
  | some e =>
    obtain rfl : x = .error e := h
    exact iff_of_false nofun nofun

theorem eq_error_iff (h : StopsAt x fault) {e : ε} : x = .error e ↔ fault = some e := by
  cases fault with
  | none =>
    obtain ⟨a, rfl⟩ := h
    exact iff_of_false nofun nofun
  | some e' =>
    obtain rfl : x = .error e' := h
    rw [Except.error.injEq, Option.some.injEq]

end StopsAt

end MemberAccess
