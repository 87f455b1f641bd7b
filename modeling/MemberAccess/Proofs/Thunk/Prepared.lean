import MemberAccess.Proofs.Accessor.Request
import MemberAccess.Proofs.Plan.Arguments
import MemberAccess.Proofs.World.Growth

/-!
# Prepared calls

The checks of a call, and what the call is made of once they have passed, on both surfaces.

* `AccessError.isCheck`: the errors that the checks find; `isCheck_of_prepare`.
* `prepare_eq_ok`: what an untyped call hands to its member.
* `settle_prepareTyped`: a typed call over the contents of an object does what the untyped call on
  the object does, if their runs agree.
-/

namespace MemberAccess

variable {member : String} {dispatch : Dispatch} {plan : ArgumentPlan}

/-! ## Errors of the checks -/

/-- The error is one that the checks of a call find. -/
def AccessError.isCheck : AccessError → Bool
  | targetNull _ | targetMismatch _ _ _ | argumentCount _ _ _ | invalidCast _ _ _ _
  | aliasedTarget _ _ => true
  | _ => false

section checks

variable {e : AccessError}

theorem Dispatch.isCheck_of_receiver {target : Value}
    (h : dispatch.receiver member target = .error e) : e.isCheck = true := by
  unfold receiver at h
  split at h
  · cases h
  · split at h
    · cases h
      rfl
    · split at h <;> cases h
      rfl
    · cases h
      rfl

theorem Dispatch.isCheck_of_contents {target : Option Slots}
    (h : dispatch.contents member target = .error e) : e.isCheck = true := by
  unfold contents at h
  split at h <;> cases h
  rfl

theorem ArgumentSlot.isCheck_of_coerce {slot : ArgumentSlot} {site : CastSite} {v : Value}
    (h : slot.coerce member site v = .error e) : e.isCheck = true := by
  unfold coerce at h
  split at h
  · cases h
  · split at h <;> cases h
    rfl

theorem ArgumentPlan.isCheck_of_firstRefusal {slots : List ArgumentSlot} {args : List Value}
    (h : firstRefusal member slots args = some e) : e.isCheck = true := by
  induction slots generalizing args with
  | nil => cases args <;> cases h
  | cons slot slots ih =>
    cases args with
    | nil => cases h
    | cons v vs =>
      unfold firstRefusal at h
      split at h
      · rename_i e' he
        cases h
        exact ArgumentSlot.isCheck_of_coerce he
      · exact ih h

theorem ArgumentPlan.isCheck_of_coerce {args : List Value}
    (h : plan.coerce member args = .error e) : e.isCheck = true := by
  unfold coerce at h
  split at h
  · split at h
    · rename_i e' he
      cases h
      exact isCheck_of_firstRefusal he
    · cases h
  · cases h
    rfl

theorem isCheck_of_coerceAssigned {assigned : Option (ArgumentSlot × Value)}
    (h : coerceAssigned member assigned = .error e) : e.isCheck = true := by
  unfold coerceAssigned at h
  split at h
  · cases h
  · split at h
    · rename_i he
      cases h
      exact ArgumentSlot.isCheck_of_coerce he
    · cases h

theorem isCheck_of_prepare {target : Value} {args : List Value}
    {assigned : Option (ArgumentSlot × Value)}
    (h : prepare member dispatch plan target args assigned = .error e) : e.isCheck = true := by
  unfold prepare at h
  split at h
  · rename_i he
    cases h
    exact Dispatch.isCheck_of_receiver he
  · split at h
    · rename_i he
      cases h
      exact ArgumentPlan.isCheck_of_coerce he
    · split at h
      · rename_i he
        cases h
        exact isCheck_of_coerceAssigned he
      · split at h <;> cases h
        rfl

end checks

/-! ## Settled runs -/

namespace Effect

variable {α β : Type}

theorem settle_result (x : Effect α) (target : Option ObjectRef) :
    (x.settle target).1 = x.result := by
  cases target <;> rfl

theorem settle_map (x : Effect α) (f : α → β) (target : Option ObjectRef) :
    (x.map f).settle target = ((x.settle target).1.map f, (x.settle target).2) := by
  cases target <;> rfl

theorem settle_grown {w w' : World} (h : w.Grown w') (r : Except AccessError α)
    (target : Option ObjectRef) :
    (⟨r, target.map w.contents, w'⟩ : Effect α).settle target = (r, w') := by
  cases target with
  | none => rfl
  | some o => exact congrArg _ (h.store_contents o)

theorem settle_world {x : Effect α} {w : World} {target : Option ObjectRef}
    (hreceiver : x.receiver = target.map w.contents) (hworld : x.world = w) :
    (x.settle target).2 = w := by
  obtain ⟨r, receiver, w'⟩ := x
  dsimp only at hreceiver hworld
  subst hreceiver hworld
  rw [settle_grown (.of_cells rfl)]

theorem settle_refused (e : AccessError) (w : World) (target : Option ObjectRef) :
    (refused e (target.map w.contents) w : Effect α).settle target = (.error e, w) :=
  settle_grown (.of_cells rfl) _ target

end Effect

/-! ## Untyped calls -/

theorem firstAlias_eq_none_iff {o : ObjectRef} {args : List Value} {assigned : Option Value} :
    firstAlias o args assigned = none ↔
      (∀ v ∈ args, v.refersTo o = false) ∧ ∀ v ∈ assigned, v.refersTo o = false := by
  unfold firstAlias
  cases hargs : args.findIdx? (·.refersTo o) with
  | some i =>
    obtain ⟨hi, htrue, -⟩ := List.findIdx?_eq_some_iff_getElem.1 hargs
    constructor
    · intro h
      cases h
    · intro h
      rw [h.1 _ (List.getElem_mem hi)] at htrue
      cases htrue
  | none =>
    have hclear := List.findIdx?_eq_none_iff.1 hargs
    cases assigned with
    | none => exact ⟨fun _ => ⟨hclear, nofun⟩, fun _ => rfl⟩
    | some v =>
      cases hv : v.refersTo o with
      | true => simp [hv]
      | false => simpa [hv] using hclear

theorem coerceAssigned_some (member : String) (slot : ArgumentSlot) (v : Value) :
    coerceAssigned member (some (slot, v)) = (slot.coerce member .assigned v).map some := by
  unfold coerceAssigned
  dsimp only
  cases slot.coerce member .assigned v <;> rfl

theorem Dispatch.receiver_eq_ok {target : Value} {receiver : Option ObjectRef}
    (h : dispatch.receiver member target = .ok receiver) :
    (dispatch = .static ∧ receiver = none) ∨
      ∃ o, dispatch = .onInstance o.host ∧ target = .object o ∧ receiver = some o := by
  unfold Dispatch.receiver at h
  split at h
  · exact Or.inl ⟨rfl, (Except.ok.inj h).symm⟩
  · split at h
    · cases h
    · rename_i host o
      split at h
      · rename_i ho
        subst ho
        exact Or.inr ⟨o, rfl, rfl, (Except.ok.inj h).symm⟩
      · cases h
    · cases h

theorem prepare_eq_ok {target : Value} {args : List Value}
    {assigned : Option (ArgumentSlot × Value)} {p : Preparation}
    (h : prepare member dispatch plan target args assigned = .ok p) :
    dispatch.receiver member target = .ok p.receiver ∧ plan.coerce member args = .ok args ∧
      p.arguments = args ∧ coerceAssigned member assigned = .ok p.assigned := by
  unfold prepare at h
  split at h
  · cases h
  · rename_i receiver hreceiver
    split at h
    · cases h
    · rename_i arguments hargs
      obtain rfl := ArgumentPlan.eq_of_coerce hargs
      split at h
      · cases h
      · rename_i value hvalue
        split at h
        · cases h
        · obtain rfl := Except.ok.inj h
          exact ⟨hreceiver, hargs, rfl, hvalue⟩

theorem onReceiver_cases {α : Type} (host : HostClass) (w : World) (receiver : Option ObjectRef)
    (run : Option Slots → Effect α) :
    onReceiver host w receiver run = (.error (foreignReceiver host), w) ∨
      onReceiver host w receiver run = (run (receiver.map w.contents)).settle receiver := by
  cases receiver with
  | none => exact Or.inr rfl
  | some o =>
    by_cases ho : o.host = host
    · exact Or.inr (if_pos ho)
    · exact Or.inl (if_neg ho)

theorem onReceiver_eq {α : Type} {host : HostClass} {receiver : Option ObjectRef}
    (hhost : ∀ o ∈ receiver, o.host = host) (w : World) (run : Option Slots → Effect α) :
    onReceiver host w receiver run = (run (receiver.map w.contents)).settle receiver := by
  cases receiver with
  | none => rfl
  | some o => exact if_pos (hhost o rfl)

theorem prepare_static (target : Value) (args : List Value)
    {assigned : Option (ArgumentSlot × Value)} {value : Option Value}
    (hvalue : coerceAssigned member assigned = .ok value) :
    prepare member .static plan target args assigned =
      (plan.coerce member args).map fun arguments => ⟨none, arguments, value⟩ := by
  unfold prepare
  rw [hvalue]
  cases plan.coerce member args <;> rfl

theorem prepare_onInstance (o : ObjectRef) (args : List Value)
    {assigned : Option (ArgumentSlot × Value)} {value : Option Value}
    (hvalue : coerceAssigned member assigned = .ok value) (hfree : firstAlias o args value = none) :
    prepare member (.onInstance o.host) plan (.object o) args assigned =
      (plan.coerce member args).map fun arguments => ⟨some o, arguments, value⟩ := by
  have hreceiver : (Dispatch.onInstance o.host).receiver member (.object o) = .ok (some o) :=
    if_pos rfl
  unfold prepare
  rw [hreceiver, hvalue]
  cases hargs : plan.coerce member args with
  | error e => rfl
  | ok arguments =>
    obtain rfl := ArgumentPlan.eq_of_coerce hargs
    dsimp only
    rw [Option.bind_some, hfree]
    rfl

/-! ## Typed calls -/

theorem map_prepareTyped {α β : Type} (f : α → β) (w : World) (target : Option Slots)
    (args : List Value) (run : Option Slots → List Value → Effect α) :
    (prepareTyped member dispatch plan w target args run).map f =
      prepareTyped member dispatch plan w target args fun own xs => (run own xs).map f := by
  unfold prepareTyped
  cases dispatch.contents member target with
  | error e => rfl
  | ok receiver =>
    cases plan.coerce member args with
    | error e => rfl
    | ok arguments => cases receiver <;> rfl

theorem prepareTyped_cases {α : Type} (w : World) (target : Option Slots) (args : List Value)
    (run : Option Slots → List Value → Effect α) :
    (∃ e, e.isCheck = true ∧
        prepareTyped member dispatch plan w target args run = .refused e target w) ∨
      plan.coerce member args = .ok args ∧
        ((dispatch ≠ .static ∧ target ≠ none ∧
            prepareTyped member dispatch plan w target args run = run target args) ∨
          (dispatch = .static ∧ prepareTyped member dispatch plan w target args run =
            ⟨(run none args).result, target, (run none args).world⟩)) := by
  unfold prepareTyped
  cases hreceiver : dispatch.contents member target with
  | error e => exact Or.inl ⟨e, Dispatch.isCheck_of_contents hreceiver, rfl⟩
  | ok receiver =>
    cases hargs : plan.coerce member args with
    | error e => exact Or.inl ⟨e, ArgumentPlan.isCheck_of_coerce hargs, rfl⟩
    | ok passed =>
      obtain rfl := ArgumentPlan.eq_of_coerce hargs
      refine Or.inr ⟨rfl, ?_⟩
      cases dispatch with
      | static =>
        cases hreceiver
        exact Or.inr ⟨rfl, rfl⟩
      | onInstance host =>
        cases target with
        | none => cases hreceiver
        | some own =>
          cases hreceiver
          exact Or.inl ⟨nofun, nofun, rfl⟩

theorem TypedReconstruct.run_eq (t : TypedReconstruct) (host : HostClass) (w : World)
    (target : Option Slots) (args : List Value) :
    t.run w target args = prepareTyped t.member (.onInstance host) t.arguments w target args
      fun own xs => t.binding.rebuildOver w own xs := by
  unfold run prepareTyped
  cases target with
  | none => rfl
  | some own => cases t.arguments.coerce t.member args <;> rfl

/-- A call on the contents of an object, and then stored, is a call on the object. Without a target
the member must not change what exists already, because what it leaves is stored over it. -/
theorem settle_prepareTyped {α : Type} {host : HostClass} {w : World} {target : Option ObjectRef}
    {args : List Value} {assigned : Option (ArgumentSlot × Value)} {value : Option Value}
    (run : Option Slots → List Value → Effect α)
    (hdispatch : dispatch = .static ∨ dispatch = .onInstance host)
    (hhost : ∀ o ∈ target, o.host = host) (hvalue : coerceAssigned member assigned = .ok value)
    (hfree : dispatch ≠ .static → ∀ o ∈ target, firstAlias o args value = none)
    (hgrown : ∀ xs, w.Grown (run none xs).world) :
    (prepareTyped member dispatch plan w (target.map w.contents) args run).settle target =
      match prepare member dispatch plan (Value.ofTarget target) args assigned with
      | .error e => (.error e, w)
      | .ok p => onReceiver host w p.receiver fun own => run own p.arguments := by
  rcases hdispatch with rfl | rfl
  · rw [prepare_static _ _ hvalue]
    unfold prepareTyped
    cases plan.coerce member args with
    | error e => exact Effect.settle_refused e w target
    | ok arguments => exact Effect.settle_grown (hgrown arguments) _ target
  · cases target with
    | none => rfl
    | some o =>
      obtain rfl := hhost o rfl
      have hfree' := hfree nofun o rfl
      rw [show Value.ofTarget (some o) = .object o from rfl,
        prepare_onInstance o args hvalue hfree']
      unfold prepareTyped
      cases plan.coerce member args with
      | error e => exact Effect.settle_refused e w (some o)
      | ok arguments => exact (if_pos rfl).symm

end MemberAccess
