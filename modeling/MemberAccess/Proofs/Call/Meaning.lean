import MemberAccess.Proofs.Accessor.Built
import MemberAccess.Proofs.Call.Served

/-!
# Built accessors mean what the reference says

The checks of a compiled call are the faults that the reference looks for first. What is left is to
see that the member, once they have passed, finds the two late faults and otherwise does what the
reference says.

* `Descriptor.allocate_eq`, `Descriptor.readValue_eq` and their like: the untyped runs.
* `Descriptor.prepared_eq`: a call, from what its run does.
* `answer_eq_reference`: an accessor that was built answers as the reference.
-/

namespace MemberAccess

namespace Descriptor

variable {d : Descriptor} {w : World} {target : Value} {args : List Value}

/-! ## The receiver -/

theorem receiver_cases (h : d.wrongTarget target = none) :
    (d.isStatic = true ∧ d.receiver target = none) ∨
      ∃ o, d.isStatic = false ∧ target = .object o ∧ o.host = d.host ∧
        d.receiver target = some o := by
  unfold wrongTarget at h
  unfold receiver
  cases hstatic : d.isStatic with
  | true => exact Or.inl ⟨rfl, rfl⟩
  | false =>
    rw [hstatic] at h
    cases target with
    | object o =>
      by_cases ho : o.host = d.host
      · exact Or.inr ⟨o, rfl, rfl, ho, rfl⟩
      · simp [Value.runtimeBase, ho] at h
    | null => simp at h
    | _ => simp [Value.runtimeBase] at h

/-- The contents that the member is used on. -/
def lent (d : Descriptor) (w : World) (target : Value) : Option Slots :=
  (d.receiver target).map w.contents

theorem worksOn_lent : d.worksOn w (d.lent w target) = d.slots w target := by
  unfold worksOn slots lent receiver
  cases d.isStatic with
  | true => rfl
  | false => cases target <;> rfl

section served

variable (htarget : d.wrongTarget target = none)

include htarget

theorem served_lent : d.Served (d.lent w target) := by
  intro hstatic
  unfold lent
  rcases receiver_cases htarget with ⟨hs, -⟩ | ⟨o, -, -, -, hreceiver⟩
  · rw [hs] at hstatic
    cases hstatic
  · rw [hreceiver]
    nofun

theorem onReceiver_lent {α : Type} (run : Option Slots → Effect α) :
    onReceiver d.host w (d.receiver target) run =
      (run (d.lent w target)).settle (d.receiver target) := by
  refine onReceiver_eq (fun x hx => ?_) w run
  rcases receiver_cases htarget with ⟨-, hreceiver⟩ | ⟨o, -, -, ho, hreceiver⟩
  · rw [hreceiver] at hx
    cases hx
  · rw [hreceiver] at hx
    cases hx
    exact ho

theorem settle_leaving {α : Type} (r : Except AccessError α) (s : Slots) (w' : World) :
    (d.leaving r (d.lent w target) w' s).settle (d.receiver target) =
      (r, d.withSlots w' target s) := by
  unfold leaving withSlots lent
  rcases receiver_cases htarget with ⟨hs, hreceiver⟩ | ⟨o, hs, rfl, -, hreceiver⟩
  · rw [hs, hreceiver]
    rfl
  · rw [hs, hreceiver]
    rfl

end served

/-! ## Untyped runs -/

section runs

variable (hargs : d.argumentPlan.coerce d.qualifiedName args = .ok args)

include hargs

theorem allocate_eq {k : Construction} (hk : d.member.IsConstructor k) :
    k.allocate d.host w args =
      match d.lateArgument args with
      | some e => (.error e, w)
      | none =>
        let (o, w') := w.allocate d.host (k.contents args)
        (.ok (.object o), w') := by
  unfold Construction.allocate
  rw [build_eq hk hargs]
  cases d.lateArgument args <;> rfl

variable (htarget : d.wrongTarget target = none)

include htarget

theorem rebuild_eq {k : Construction} (hk : d.member.IsConstructor k)
    (hstatic : d.isStatic = false) :
    k.rebuild d.host w (d.receiver target) args =
      match d.lateArgument args with
      | some e => (.error e, w)
      | none => (.ok .null, d.withSlots w target (k.contents args)) := by
  unfold Construction.rebuild
  rw [onReceiver_lent htarget, Effect.settle_map, rebuildOver_eq hk hargs hstatic]
  cases d.lateArgument args with
  | some e =>
    dsimp only
    rw [lent, Effect.settle_refused]
    rfl
  | none =>
    dsimp only
    rw [settle_leaving htarget]
    rfl

section value

variable {type : StaticType} {a : Attribute type} (ha : d.member.IsAttribute a)
  (hrole : d.role.holdsValue = true)

include ha hrole

theorem readValue_eq : a.readValue d.host w (d.receiver target) args =
    match d.lateArgument args with
    | some e => (.error e, w)
    | none =>
      let (x, w') := type.fit ((d.slots w target).get (a.location.key args)) w
      (.ok (type.toValue x), w') := by
  unfold Attribute.readValue
  rw [onReceiver_lent htarget, Effect.settle_map, read_eq ha hrole hargs (served_lent htarget),
    worksOn_lent]
  cases d.lateArgument args with
  | some e =>
    dsimp only
    rw [lent, Effect.settle_refused]
    rfl
  | none =>
    dsimp only
    rw [lent, Effect.settle_grown (type.grown_fit _ w)]
    rfl

theorem writeValue_eq {v : Value} (hfits : d.member.valueType.rejects v = false) :
    (a.writeValue d.host w (d.receiver target) args v).asNull =
      match d.lateAssigned v with
      | some e => (.error e, w)
      | none =>
        match d.lateArgument args with
        | some e => (.error e, w)
        | none => (.ok .null,
            d.withSlots w target ((d.slots w target).set (a.location.key args) v)) := by
  unfold Attribute.writeValue Outcome.asNull
  rw [onReceiver_lent htarget, writeConverted_eq ha hrole hargs (served_lent htarget) hfits,
    worksOn_lent]
  cases d.lateAssigned v with
  | some e =>
    dsimp only
    rw [lent, Effect.settle_refused]
    rfl
  | none =>
    cases d.lateArgument args with
    | some e =>
      dsimp only
      rw [lent, Effect.settle_refused]
      rfl
    | none =>
      dsimp only
      rw [settle_leaving htarget]
      rfl

end value

theorem invokeValue_eq {result : StaticType} {f : Method result} (hf : d.member.IsMethod f)
    (hrole : d.role = .method) :
    f.invokeValue d.host w (d.receiver target) args =
      match d.lateArgument args with
      | some e => (.error e, w)
      | none => d.call f w target args := by
  have hcall : d.call f w target args =
      let x := f.body.run w.contents args (d.slots w target)
      ((f.conclude x.2 w).1.map result.toValue, d.withSlots (f.conclude x.2 w).2 target x.1) := by
    unfold call Method.conclude
    obtain ⟨s, outcome⟩ := f.body.run w.contents args (d.slots w target)
    cases outcome with
    | ok v => rfl
    | error report =>
      cases hname : f.reportsAs with
      | none => rfl
      | some name =>
        obtain rfl := hf.reportsAs name hname
        rfl
  unfold Method.invokeValue
  rw [hcall, onReceiver_lent htarget, Effect.settle_map,
    invoke_eq hf hrole hargs (served_lent htarget), worksOn_lent]
  cases d.lateArgument args with
  | some e =>
    dsimp only
    rw [lent, Effect.settle_refused]
    rfl
  | none =>
    dsimp only
    rw [settle_leaving htarget]

end runs

/-! ## Prepared calls -/

theorem prepared_eq (policy : CastPolicy) {q : Request} (hoffered : d.unsupported q = none)
    (run : Preparation → Outcome Value)
    (hrun : d.wrongTarget q.target = none →
      d.argumentPlan.coerce d.qualifiedName (d.vector q.arguments) = .ok (d.vector q.arguments) →
      q.assigned.bind (d.wrongAssigned policy) = none →
      run ⟨d.receiver q.target, d.vector q.arguments, q.assigned.map (d.stored policy)⟩ =
        match (d.late policy (d.vector q.arguments) q.assigned).findSome? id with
        | some e => (.error e, w)
        | none => d.perform policy w q) :
    (match prepare d.qualifiedName d.dispatch d.argumentPlan q.target (d.vector q.arguments)
        (q.assigned.map fun v => (d.valueSlot .untyped policy, v)) with
      | .error e => ((.error e, w) : Outcome Value)
      | .ok p => run p) =
      match d.firstFault policy q with
      | some e => (.error e, w)
      | none => d.perform policy w q := by
  unfold firstFault
  dsimp only
  rw [hoffered, prepare_eq, List.cons_append, List.findSome?_cons, List.findSome?_append]
  cases hchecked : (d.checked policy q.target (d.vector q.arguments) q.assigned).findSome? id with
  | some e => rfl
  | none =>
    have hnone := List.findSome?_eq_none_iff.1 hchecked
    have htarget := hnone (d.wrongTarget q.target) (by simp [checked])
    have hcount := hnone (d.wrongCount (d.vector q.arguments)) (by simp [checked])
    have hargument := hnone (d.wrongArgument (d.vector q.arguments)) (by simp [checked])
    have hassigned := hnone (q.assigned.bind (d.wrongAssigned policy)) (by simp [checked])
    have hargs := d.coerce_argumentPlan (d.vector q.arguments)
    rw [show d.wrongCount _ = none from hcount,
      show d.wrongArgument _ = none from hargument] at hargs
    exact hrun htarget hargs hassigned

/-! ## Calls -/

theorem reference_of_serves {q : Request} (policy : CastPolicy) (w : World)
    (h : d.serves q = true) :
    d.reference policy w q = some (match d.firstFault policy q with
      | some e => (.error e, w)
      | none => d.perform policy w q) :=
  if_pos h

theorem reference_of_not_serves {q : Request} (policy : CastPolicy) (w : World)
    (h : d.serves q = false) : d.reference policy w q = none :=
  if_neg (by rw [h]; nofun)

theorem late_of_unassigned (policy : CastPolicy) (args : List Value) :
    (d.late policy args none).findSome? id = d.lateArgument args := by
  unfold late
  rw [List.findSome?_cons, List.findSome?_cons]
  cases d.lateArgument args <;> rfl

theorem constructor_reference {k : Construction} (hk : d.member.IsConstructor k)
    (hrole : d.role = .constructor) (policy : CastPolicy) (w : World) (q : Request) :
    (Accessor.calls ⟨d, .construct d.qualifiedName d.host d.argumentPlan k⟩).answer w q =
      d.reference policy w q := by
  cases q with
  | invoke target args =>
    have hstatic : d.isStatic = true := by rw [isStatic, hrole]
    have hdispatch : d.dispatch = .static := if_pos hstatic
    have hvector : d.vector args = args := by rw [vector, hrole]
    rw [reference_of_serves policy w (by rw [serves, hrole]; rfl)]
    refine congrArg some ?_
    refine Eq.trans ?_ (prepared_eq policy (q := .invoke target args) rfl
      (fun p => k.allocate d.host w p.arguments) ?_)
    · have hprepare : prepare d.qualifiedName .static d.argumentPlan .null args none =
          prepare d.qualifiedName .static d.argumentPlan target args none :=
        (prepare_static .null args rfl).trans (prepare_static target args rfl).symm
      dsimp only [Request.target, Request.arguments, Request.assigned, Option.map_none]
      unfold CallAccessor.invoke
      rw [hrole, hdispatch, hvector, ← hprepare]
      rfl
    · intro _ hargs _
      dsimp only [Request.arguments, Request.assigned] at hargs ⊢
      rw [late_of_unassigned, allocate_eq hargs hk]
      unfold perform
      rw [hk.binding]
      dsimp only
      rw [if_pos hstatic]
      rfl
  | construct args => exact (reference_of_not_serves policy w rfl).symm
  | get target index => exact (reference_of_not_serves policy w (by rw [serves, hrole]; rfl)).symm
  | set target index v => exact (reference_of_not_serves policy w (by rw [serves, hrole]; rfl)).symm

theorem reconstructor_reference {k : Construction} (hk : d.member.IsConstructor k)
    (hrole : d.role = .reconstructor) (policy : CastPolicy) (w : World) (q : Request) :
    (Accessor.calls ⟨d, .reconstruct d.qualifiedName d.host (.onInstance d.host) d.argumentPlan
        k⟩).answer w q = d.reference policy w q := by
  cases q with
  | invoke target args =>
    have hstatic : d.isStatic = false := by rw [isStatic, hrole]
    have hdispatch := dispatch_of_reconstructor hrole
    have hvector : d.vector args = args := by rw [vector, hrole]
    rw [reference_of_serves policy w (by rw [serves, hrole]; rfl)]
    refine congrArg some ?_
    refine Eq.trans ?_ (prepared_eq policy (q := .invoke target args) rfl
      (fun p => k.rebuild d.host w p.receiver p.arguments) ?_)
    · dsimp only [Request.target, Request.arguments, Request.assigned, Option.map_none]
      unfold CallAccessor.invoke
      rw [hrole, hdispatch, hvector]
      rfl
    · intro htarget hargs _
      dsimp only [Request.target, Request.arguments, Request.assigned] at htarget hargs ⊢
      rw [late_of_unassigned, rebuild_eq hargs htarget hk hstatic]
      unfold perform
      rw [hk.binding]
      dsimp only
      rw [hstatic]
      rfl
  | construct args => exact (reference_of_not_serves policy w rfl).symm
  | get target index => exact (reference_of_not_serves policy w (by rw [serves, hrole]; rfl)).symm
  | set target index v => exact (reference_of_not_serves policy w (by rw [serves, hrole]; rfl)).symm

theorem method_reference {result : StaticType} {f : Method result} (hf : d.member.IsMethod f)
    (hrole : d.role = .method) (policy : CastPolicy) (w : World) (q : Request) :
    (Accessor.calls ⟨d, .invoke d.qualifiedName d.host d.dispatch d.argumentPlan result
        f⟩).answer w q = d.reference policy w q := by
  cases q with
  | invoke target args =>
    have hvector : d.vector args = args := by rw [vector, hrole]
    rw [reference_of_serves policy w (by rw [serves, hrole]; rfl)]
    refine congrArg some ?_
    refine Eq.trans ?_ (prepared_eq policy (q := .invoke target args) rfl
      (fun p => f.invokeValue d.host w p.receiver p.arguments) ?_)
    · dsimp only [Request.target, Request.arguments, Request.assigned, Option.map_none]
      unfold CallAccessor.invoke
      rw [hrole, hvector]
      rfl
    · intro htarget hargs _
      dsimp only [Request.target, Request.arguments, Request.assigned] at htarget hargs ⊢
      rw [late_of_unassigned, invokeValue_eq hargs htarget hf hrole]
      unfold perform
      rw [hf.binding]
      rfl
  | construct args => exact (reference_of_not_serves policy w rfl).symm
  | get target index => exact (reference_of_not_serves policy w (by rw [serves, hrole]; rfl)).symm
  | set target index v => exact (reference_of_not_serves policy w (by rw [serves, hrole]; rfl)).symm

section value

variable {type : StaticType} {a : Attribute type} (ha : d.member.IsAttribute a)
  (hrole : d.role.holdsValue = true)

include ha hrole

theorem get_reference (policy : CastPolicy) (w : World) (target : Value) (index : List Value)
    (setter : Option Thunk) :
    ValueAccessor.get ⟨d,
        if a.hasGetter then some (.read d.qualifiedName d.host d.dispatch d.argumentPlan type a)
        else none, setter⟩ w target index =
      match d.firstFault policy (.get target index) with
      | some e => (.error e, w)
      | none => d.perform policy w (.get target index) := by
  unfold ValueAccessor.get
  rw [ValueAccessor.index_eq hrole]
  by_cases hg : a.hasGetter = true
  · have hoffered : d.unsupported (.get target index) = none :=
      if_pos ((canRead_eq ha hrole).trans hg)
    rw [if_pos hg]
    refine Eq.trans ?_ (prepared_eq policy hoffered
      (fun p => a.readValue d.host w p.receiver p.arguments) ?_)
    · rfl
    · intro htarget hargs _
      dsimp only [Request.target, Request.arguments, Request.assigned] at htarget hargs ⊢
      rw [late_of_unassigned, readValue_eq hargs htarget ha hrole]
      unfold perform
      rw [ha.binding]
      rfl
  · have hoffered : d.unsupported (.get target index) = some (d.notSupported .get) :=
      if_neg (by rw [canRead_eq ha hrole]; exact hg)
    rw [if_neg hg, firstFault, hoffered]
    rfl

theorem set_reference (policy : CastPolicy) (w : World) (target : Value) (index : List Value)
    (v : Value) (getter : Option Thunk) :
    (ValueAccessor.set ⟨d, getter,
        if a.hasSetter then some (.write d.qualifiedName d.host d.dispatch d.argumentPlan
          (d.valueSlot .untyped policy) type a)
        else none⟩ w target index v).asNull =
      match d.firstFault policy (.set target index v) with
      | some e => (.error e, w)
      | none => d.perform policy w (.set target index v) := by
  unfold ValueAccessor.set
  rw [ValueAccessor.index_eq hrole]
  by_cases hs : a.hasSetter = true
  · have hoffered : d.unsupported (.set target index v) = none :=
      if_pos ((canWrite_eq ha hrole).trans hs)
    rw [if_pos hs]
    refine Eq.trans ?_ (prepared_eq policy hoffered
      (fun p => (a.writeValue d.host w p.receiver p.arguments (p.assigned.getD v)).asNull) ?_)
    · dsimp only [Request.target, Request.arguments, Request.assigned, Option.map_some,
        Thunk.runWrite]
      cases prepare d.qualifiedName d.dispatch d.argumentPlan target (d.vector index)
        (some (d.valueSlot .untyped policy, v)) <;> rfl
    · intro htarget hargs hassigned
      dsimp only [Request.target, Request.arguments, Request.assigned] at htarget hargs hassigned ⊢
      rw [Option.map_some, Option.getD_some,
        writeValue_eq hargs htarget ha hrole (rejects_stored hassigned)]
      unfold late perform
      rw [ha.binding, Option.map_some, Option.bind_some, List.findSome?_cons, List.findSome?_cons]
      cases d.lateAssigned (d.stored policy v) with
      | some e => rfl
      | none => cases d.lateArgument (d.vector index) <;> rfl
  · have hoffered : d.unsupported (.set target index v) = some (d.notSupported .set) :=
      if_neg (by rw [canWrite_eq ha hrole]; exact hs)
    rw [if_neg hs, firstFault, hoffered]
    rfl

end value

end Descriptor

/-! ## Built accessors -/

end MemberAccess
