import MemberAccess.Proofs.Call.Meaning
import MemberAccess.Proofs.World.Cells

/-!
# Construction in place

A constructor is used in two roles: it allocates an instance, or it runs over one that exists. Both
look for the same faults in the arguments, and in place there is nothing more to find for an
instance of the class that is not among the arguments. Without a fault the instance then holds what
a new one would hold.

* `Descriptor.firstFault_invoke`: the faults of a call whose target is in order.
* `Descriptor.answer_allocating`, `Descriptor.answer_inPlace`: the calls in the two roles.
* `World.MadeAnew`: an object holds other contents, and nothing else is different.
* `construction_in_place_agrees`: the two calls side by side.
-/

namespace MemberAccess

namespace Descriptor

variable {d : Descriptor} {target : Value} {args : List Value}

def argumentFault (d : Descriptor) (args : List Value) : Option AccessError :=
  ((d.wrongCount args).or (d.wrongArgument args)).or (d.lateArgument args)

theorem firstFault_invoke (hvector : d.vector args = args) (htarget : d.wrongTarget target = none)
    (haliased : d.aliased target args none = none) (policy : CastPolicy) :
    d.firstFault policy (.invoke target args) = d.argumentFault args := by
  simp only [firstFault, unsupported, checked, Request.target, Request.arguments,
    Request.assigned, hvector, htarget, haliased, Option.map_none, Option.bind_none,
    List.cons_append, List.nil_append, List.findSome?_cons, late, List.findSome?_nil, id,
    argumentFault]
  cases d.wrongCount args with
  | some e => rfl
  | none =>
    cases d.wrongArgument args with
    | some e => rfl
    | none => cases d.lateArgument args <;> rfl

section answers

variable {k : Construction} (hk : d.member.IsConstructor k) {fs : Flags} {o : Options}
  {a : Accessor} (ha : Accessor.build fs o d.role d = .ok a) (w : World)

include hk ha

theorem answer_allocating (hrole : d.role = .constructor) (target : Value) (args : List Value) :
    a.answer w (.invoke target args) =
      let made := w.allocate d.host (k.contents args)
      some ((d.argumentFault args).elim (.ok (.object made.1), made.2) fun e => (.error e, w)) := by
  have hstatic : d.isStatic = true := by rw [isStatic, hrole]
  have hvector : d.vector args = args := by rw [vector, hrole]
  rw [Accessor.build_constructor fs o hk hrole] at ha
  obtain ⟨-, -, rfl⟩ := map_eq_ok_iff.1 ha
  rw [constructor_reference hk hrole o.castPolicy,
    reference_of_serves _ w (by rw [serves, hrole]; rfl),
    firstFault_invoke hvector (if_pos hstatic) (if_pos hstatic)]
  cases d.argumentFault args with
  | some e => rfl
  | none => simp [perform, hk.binding, hstatic, hvector, Request.arguments]

theorem answer_inPlace (hrole : d.role = .reconstructor) {obj : ObjectRef}
    (hobj : obj.host = d.host) {args : List Value} (hfree : ∀ v ∈ args, v.refersTo obj = false) :
    a.answer w (.invoke (.object obj) args) =
      some ((d.argumentFault args).elim (.ok .null, w.store obj (k.contents args))
        fun e => (.error e, w)) := by
  have hstatic : d.isStatic = false := by rw [isStatic, hrole]
  have hvector : d.vector args = args := by rw [vector, hrole]
  have htarget : d.wrongTarget (.object obj) = none := by
    simp [wrongTarget, Value.runtimeBase, hobj]
  have haliased : d.aliased (.object obj) args none = none := by
    have hnone : firstAlias obj args none = none :=
      firstAlias_eq_none_iff.2 ⟨hfree, fun v hv => absurd hv (Option.not_mem_none v)⟩
    simp [aliased, Value.object?, hnone]
  rw [Accessor.build_reconstructor fs o hk hrole] at ha
  obtain ⟨-, -, rfl⟩ := map_eq_ok_iff.1 ha
  rw [reconstructor_reference hk hrole o.castPolicy,
    reference_of_serves _ w (by rw [serves, hrole]; rfl),
    firstFault_invoke hvector htarget haliased]
  cases d.argumentFault args with
  | some e => rfl
  | none =>
    simp [perform, hk.binding, hstatic, hvector, withSlots, Request.arguments, Request.target]

end answers

end Descriptor

/-! ## The two roles side by side -/

/-- The object holds these contents in the later world, and nothing else is different. -/
structure World.MadeAnew (w w' : World) (o : ObjectRef) (s : Slots) : Prop where
  held : w'.Holds o
  contents : ∀ p : ObjectRef, p.cell = o.cell → w'.contents p = s
  others : ∀ i, i ≠ o.cell → w'.cells[i]? = w.cells[i]?
  statics : w'.statics = w.statics

theorem World.Holds.madeAnew {w : World} {o : ObjectRef} (h : w.Holds o) (s : Slots) :
    w.MadeAnew (w.store o s) o s where
  held := h.store s
  contents p hp := by rw [World.contents_congr _ hp, h.contents_store]
  others i hi := w.getElem?_store_of_ne hi s
  statics := rfl

/-- A constructor runs over an instance of its class that is not among the arguments. If the
allocating call gives an instance, it is a new one, and the call in place gives nothing and leaves
the old instance with the contents of the new one, for all who refer to it; nothing else is
different. If the allocating call fails, the other one fails with the same error, and neither
changes anything. -/
theorem construction_in_place_agrees {blocks : List (HostClass × List Registration)} {m : Member}
    (hm : m ∈ (Registry.ofBlocks blocks).members) {allocating inPlace : Descriptor}
    (hallocating : Descriptor.new (some m) .constructor = .ok allocating)
    (hinPlace : Descriptor.new (some m) .reconstructor = .ok inPlace) {fs fs' : Flags}
    {o o' : Options} {a a' : Accessor}
    (ha : Accessor.build fs o .constructor allocating = .ok a)
    (ha' : Accessor.build fs' o' .reconstructor inPlace = .ok a') {w : World} {obj : ObjectRef}
    (hobj : w.Holds obj) (hhost : obj.host = m.host) {args : List Value}
    (hfree : ∀ v ∈ args, v.refersTo obj = false) (target : Value) :
    (∃ new w₁ w₂, a.answer w (.invoke target args) = some (.ok (.object new), w₁) ∧
      w.Fresh new ∧ new.host = m.host ∧ w₁.Holds new ∧
      a'.answer w (.invoke (.object obj) args) = some (.ok .null, w₂) ∧
      w.MadeAnew w₂ obj (w₁.contents new)) ∨
    ∃ e, a.answer w (.invoke target args) = some (.error e, w) ∧
      a'.answer w (.invoke (.object obj) args) = some (.error e, w) := by
  obtain ⟨-, -, rfl⟩ := Descriptor.new_some_eq_ok_iff.1 hallocating
  obtain ⟨-, -, rfl⟩ := Descriptor.new_some_eq_ok_iff.1 hinPlace
  obtain ⟨k, hk⟩ := (Descriptor.over_new hm hallocating).form.construction rfl
  have hnew := Descriptor.answer_allocating (d := ⟨.constructor, m⟩) hk ha w rfl target args
  have hold := Descriptor.answer_inPlace (d := ⟨.reconstructor, m⟩) hk ha' w rfl hhost hfree
  -- the arguments are those of one member, whatever the role
  have hfault : (⟨.reconstructor, m⟩ : Descriptor).argumentFault args =
      (⟨.constructor, m⟩ : Descriptor).argumentFault args := rfl
  rw [hnew, hold, hfault]
  cases (⟨.constructor, m⟩ : Descriptor).argumentFault args with
  | some e => exact Or.inr ⟨e, rfl, rfl⟩
  | none =>
    let made := w.allocate m.host (k.contents args)
    refine Or.inl ⟨made.1, made.2, w.store obj (k.contents args), rfl,
      w.fresh_allocate m.host _, rfl, w.holds_allocate m.host _, rfl, ?_⟩
    rw [w.contents_allocate]
    exact hobj.madeAnew (k.contents args)

def markBlocks : List (HostClass × List Registration) :=
  [(pointClass, [.constructor [.base .int32] ["x"]])]

def pointNew : Member :=
  ⟨⟨0⟩, constructorName, .constructor, pointClass, .ofHost pointClass, [.of .int32],
    ⟨.public, false, false⟩, .construction ⟨[.base .int32], ["x"]⟩, ⟨0⟩⟩

def filledWorld : World :=
  ⟨[⟨pointClass, .ofList [("x", .int32 1), ("y", .int32 2)]⟩], .empty⟩

/-- The instance gets the contents that a new instance gets. Of the old ones nothing is left, also
not in the slot that the constructor does not write. -/
theorem construction_in_place_agrees_pointNew : ∃ a a' new w₁ w₂,
    Accessor.build .empty .standard .constructor ⟨.constructor, pointNew⟩ = .ok a ∧
    Accessor.build .empty .standard .reconstructor ⟨.reconstructor, pointNew⟩ = .ok a' ∧
    (filledWorld.contents pointRef).get "y" = .int32 2 ∧
    a.answer filledWorld (.invoke .null [.int32 7]) = some (.ok (.object new), w₁) ∧
    a'.answer filledWorld (.invoke (.object pointRef) [.int32 7]) = some (.ok .null, w₂) ∧
    filledWorld.MadeAnew w₂ pointRef (w₁.contents new) ∧
    w₂.contents pointRef = .ofList [("x", .int32 7)] := by
  have hm : pointNew ∈ (Registry.ofBlocks markBlocks).members := List.mem_cons_self
  have hheld : filledWorld.Holds pointRef := ⟨_, rfl⟩
  have ha : Accessor.build .empty .standard .constructor ⟨.constructor, pointNew⟩ = .ok _ := rfl
  have ha' : Accessor.build .empty .standard .reconstructor ⟨.reconstructor, pointNew⟩ =
    .ok _ := rfl
  have hfree : ∀ v ∈ [Value.int32 7], v.refersTo pointRef = false := by decide
  rcases construction_in_place_agrees hm rfl rfl ha ha' hheld rfl hfree .null
    with ⟨new, w₁, w₂, hnew, -, -, -, hold, hmade⟩ | ⟨e, hfailed, -⟩
  · refine ⟨_, _, new, w₁, w₂, ha, ha', by decide, hnew, hold, hmade, ?_⟩
    cases hnew
    exact hmade.contents pointRef rfl
  · cases hfailed

end MemberAccess
