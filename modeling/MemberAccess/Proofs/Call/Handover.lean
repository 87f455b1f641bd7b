import MemberAccess.Proofs.Call.Confinement
import MemberAccess.Proofs.Call.Meaning

/-!
# What a call hands to its member

A call is its checks and then a run: either a check refuses it, or the member runs on what the
checks let through. What is let through never has the receiver among its values.

* `Thunk.checks`, `Thunk.run`, `Thunk.answer_eq`: the two parts of a call.
* `AliasSite`: the leftmost value that is the receiver; `exists_aliasSite`.
* `Accessor.Delegation`: what the operation behind a built accessor is asked.
* `Accessor.checks_of_operation`: its checks look for the faults of the descriptor.
* `Accessor.handover?`: what a call of an accessor hands over; `Accessor.handed_of_instance`.
-/

namespace MemberAccess

/-! ## Checks and runs -/

namespace Thunk

/-- What a request to a compiled operation hands to the member, or why it is refused. -/
def checks (t : Thunk) (q : Request) : Except AccessError Preparation :=
  match t, q with
  | construct member _ plan _, .construct args => prepare member .static plan .null args none
  | reconstruct member _ dispatch plan _, .invoke target args
  | invoke member _ dispatch plan _ _, .invoke target args =>
    prepare member dispatch plan target args none
  | read member _ dispatch plan _ _, .get target index =>
    prepare member dispatch plan target index none
  | write member _ dispatch plan slot _ _, .set target index v =>
    prepare member dispatch plan target index (some (slot, v))
  | t, q => .error (.invalidOperation (.wrongShape t.shape q.shape))

/-- What the member does with what it is handed. -/
def run (t : Thunk) (w : World) (p : Preparation) : Outcome Value :=
  match t with
  | construct _ host _ k => k.allocate host w p.arguments
  | reconstruct _ host _ _ k => k.rebuild host w p.receiver p.arguments
  | invoke _ host _ _ _ f => f.invokeValue host w p.receiver p.arguments
  | read _ host _ _ _ a => a.readValue host w p.receiver p.arguments
  | write _ host _ _ _ _ a =>
    (a.writeValue host w p.receiver p.arguments (p.assigned.getD .null)).asNull

end Thunk

theorem isSome_assigned_of_prepare {member : String} {dispatch : Dispatch} {plan : ArgumentPlan}
    {target v : Value} {args : List Value} {slot : ArgumentSlot} {p : Preparation}
    (h : prepare member dispatch plan target args (some (slot, v)) = .ok p) :
    ∃ v', p.assigned = some v' := by
  obtain ⟨-, -, -, hvalue⟩ := prepare_eq_ok h
  rw [coerceAssigned_some] at hvalue
  obtain ⟨v', -, hv'⟩ := map_eq_ok_iff.1 hvalue
  exact ⟨v', hv'.symm⟩

theorem Thunk.answer_eq (t : Thunk) (w : World) (q : Request) :
    t.answer w q = match t.checks q with
      | .error e => (.error e, w)
      | .ok p => t.run w p := by
  cases q with
  | set target index v =>
    cases t with
    | write member host dispatch plan slot type a =>
      show (runWrite _ w target index v).asNull = _
      unfold runWrite checks
      dsimp only
      cases hp : prepare member dispatch plan target index (some (slot, v)) with
      | error e => rfl
      | ok p =>
        obtain ⟨v', hv'⟩ := isSome_assigned_of_prepare hp
        simp only [run, hv', Option.getD_some]
    | _ => rfl
  | _ => cases t <;> rfl

/-! ## The receiver among the values -/

/-- The place of the leftmost argument that refers to the cell of the object; of the assigned value,
if that does and no argument. -/
inductive AliasSite (o : ObjectRef) (args : List Value) (assigned : Option Value) : CastSite → Prop
  where
  | argument (i : Nat) (v : Value) (hv : args[i]? = some v) (hrefers : v.refersTo o = true)
      (hleft : ∀ v ∈ args.take i, v.refersTo o = false) : AliasSite o args assigned (.argument i)
  | assigned (v : Value) (hv : assigned = some v) (hrefers : v.refersTo o = true)
      (hargs : ∀ v ∈ args, v.refersTo o = false) : AliasSite o args assigned .assigned

theorem aliasSite_of_firstAlias {o : ObjectRef} {args : List Value} {assigned : Option Value}
    {site : CastSite} (h : firstAlias o args assigned = some site) :
    AliasSite o args assigned site := by
  unfold firstAlias at h
  split at h
  · rename_i i hi
    obtain rfl := Option.some.inj h
    obtain ⟨hlt, hrefers, hleft⟩ := List.findIdx?_eq_some_iff_getElem.1 hi
    refine .argument i _ (List.getElem?_eq_getElem hlt) hrefers fun v hv => ?_
    obtain ⟨j, hj, rfl⟩ := List.mem_take_iff_getElem.1 hv
    have hji : j < i := by omega
    exact Bool.eq_false_iff.2 (hleft j hji)
  · rename_i hnone
    obtain ⟨hany, hsite⟩ := Option.ite_none_right_eq_some.1 h
    obtain rfl := Option.some.inj hsite
    cases assigned with
    | none => cases hany
    | some v => exact .assigned v rfl hany (List.findIdx?_eq_none_iff.1 hnone)

theorem exists_aliasSite {o : ObjectRef} {args : List Value} {assigned : Option Value}
    (h : ∃ v ∈ args ++ assigned.toList, v.refersTo o = true) :
    ∃ site, firstAlias o args assigned = some site ∧ AliasSite o args assigned site := by
  obtain ⟨v, hv, hrefers⟩ := h
  cases hsite : firstAlias o args assigned with
  | some site => exact ⟨site, rfl, aliasSite_of_firstAlias hsite⟩
  | none =>
    obtain ⟨hargs, hassigned⟩ := firstAlias_eq_none_iff.1 hsite
    have hdistinct : v.refersTo o = false := by
      rcases List.mem_append.1 hv with hv | hv
      · exact hargs v hv
      · exact hassigned v (Option.mem_toList.1 hv)
    rw [hrefers] at hdistinct
    cases hdistinct

/-- The call is put to an object that is not among the values that the member is handed. -/
def Preparation.Distinct (p : Preparation) (target : Value) : Prop :=
  ∀ o ∈ p.receiver, target = .object o ∧
    ∀ v ∈ p.arguments ++ p.assigned.toList, v.refersTo o = false

theorem distinct_of_prepare {member : String} {dispatch : Dispatch} {plan : ArgumentPlan}
    {target : Value} {args : List Value} {assigned : Option (ArgumentSlot × Value)}
    {p : Preparation} (h : prepare member dispatch plan target args assigned = .ok p) :
    p.Distinct target := by
  intro o ho
  obtain ⟨hreceiver, -, hargs, -⟩ := prepare_eq_ok h
  refine ⟨?_, ?_⟩
  · rcases Dispatch.receiver_eq_ok hreceiver with ⟨-, hnone⟩ | ⟨o', -, htarget, hsome⟩
    · cases hnone.symm.trans ho
    · obtain rfl := Option.some.inj (hsome.symm.trans ho)
      exact htarget
  · -- what gets through has passed the last check, which is the one for the receiver
    unfold prepare at h
    split at h
    · cases h
    · split at h
      · cases h
      · split at h
        · cases h
        · split at h
          · cases h
          · rename_i hfree
            obtain rfl := Except.ok.inj h
            obtain rfl : _ = some o := ho
            obtain ⟨hargs, hassigned⟩ := firstAlias_eq_none_iff.1 hfree
            intro v hv
            rcases List.mem_append.1 hv with hv | hv
            · exact hargs v hv
            · exact hassigned v (Option.mem_toList.1 hv)

theorem Thunk.handed_of_checks {t : Thunk} {q : Request} {p : Preparation}
    (h : t.checks q = .ok p) : p.arguments = q.arguments ∧ p.Distinct q.target := by
  have hprepared : ∃ member dispatch plan assigned,
      prepare member dispatch plan q.target q.arguments assigned = .ok p := by
    unfold checks at h
    split at h
    case h_6 => cases h
    all_goals exact ⟨_, _, _, _, h⟩
  obtain ⟨member, dispatch, plan, assigned, hp⟩ := hprepared
  obtain ⟨-, -, hargs, -⟩ := prepare_eq_ok hp
  exact ⟨hargs, distinct_of_prepare hp⟩

/-! ## Plans -/

theorem Descriptor.dispatch_of_plan {d : Descriptor} {surface : Surface} {policy : CastPolicy}
    {operation : Operation} {p : Plan} (h : d.plan surface policy operation = .ok p) :
    p.dispatch = d.dispatch := by
  cases planned_of_plan h with
  | construct operation hrole =>
    have hstatic : d.isStatic = true := by rw [isStatic, hrole]
    exact (if_pos hstatic).symm
  | reconstruct operation hrole => exact (dispatch_of_reconstructor hrole).symm
  | _ => rfl

/-- How a plan is called once it is compiled. -/
def Plan.shape : Plan → Shape
  | construct _ => .construct
  | reconstruct _ _ | invoke _ _ => .call
  | get _ _ => .read
  | set _ _ _ => .write

/-- How an operation on the member is called. -/
def Descriptor.shape (d : Descriptor) (operation : Operation) : Shape :=
  match d.role, operation with
  | .constructor, _ => .construct
  | _, .get => .read
  | _, .set => .write
  | _, _ => .call

theorem Descriptor.shape_get {d : Descriptor} (hrole : d.role ≠ .constructor) :
    d.shape .get = .read := by
  unfold shape
  cases h : d.role <;> first | rfl | exact absurd h hrole

theorem Descriptor.shape_set {d : Descriptor} (hrole : d.role ≠ .constructor) :
    d.shape .set = .write := by
  unfold shape
  cases h : d.role <;> first | rfl | exact absurd h hrole

theorem Thunk.shape_of_bind {member : String} {host : HostClass} {plan : Plan} {b : Binding}
    {t : Thunk} (h : Thunk.bind? member host plan b = some t) : t.shape = plan.shape := by
  cases bound_of_bind h <;> rfl

theorem Descriptor.shape_of_plan {d : Descriptor} {surface : Surface} {policy : CastPolicy}
    {operation : Operation} {p : Plan} (h : d.plan surface policy operation = .ok p) :
    p.shape = d.shape operation := by
  cases planned_of_plan h with
  | construct operation hrole =>
    unfold shape
    rw [hrole]
    rfl
  | reconstruct operation hrole hoperation =>
    unfold shape
    rcases hoperation with rfl | rfl <;> rw [hrole] <;> rfl
  | invoke hrole =>
    unfold shape
    rw [hrole]
    rfl
  | get hread => exact (shape_get (role_ne_of_holdsValue (holdsValue_of_canRead hread))).symm
  | set hwrite => exact (shape_set (role_ne_of_holdsValue (holdsValue_of_canWrite hwrite))).symm

section compiled

variable {fs : Flags} {o : Options} {d : Descriptor} {operation : Operation} {t : Thunk}

theorem shape_of_compileUntyped (h : compileUntyped fs o d operation = .ok t) :
    t.shape = d.shape operation := by
  obtain ⟨plan, hplan, hbind⟩ := plan_of_compileUntyped h
  exact (Thunk.shape_of_bind hbind).trans (Descriptor.shape_of_plan hplan)

theorem checks_of_compileUntyped (h : compileUntyped fs o d operation = .ok t) {q : Request}
    (hshape : q.shape = t.shape) :
    t.checks q = prepare d.qualifiedName d.dispatch d.argumentPlan q.target q.arguments
      (q.assigned.map fun v => (d.valueSlot .untyped o.castPolicy, v)) := by
  obtain ⟨plan, hplan, hbind⟩ := plan_of_compileUntyped h
  obtain ⟨harguments, hvalue⟩ := Descriptor.slots_of_plan hplan
  rw [← harguments, ← Descriptor.dispatch_of_plan hplan]
  generalize d.member.binding = b at hbind
  cases Thunk.bound_of_bind hbind with
  | write =>
    cases q <;> cases hshape
    rw [← hvalue _ rfl]
    rfl
  | _ =>
    cases q <;> cases hshape
    rfl

end compiled

/-! ## Requests that are in order -/

namespace Descriptor

/-- The target, the number of the values and their types are in order. -/
structure InOrder (d : Descriptor) (policy : CastPolicy) (q : Request) : Prop where
  target : d.wrongTarget q.target = none
  count : d.wrongCount (d.vector q.arguments) = none
  arguments : d.wrongArgument (d.vector q.arguments) = none
  assigned : q.assigned.bind (d.wrongAssigned policy) = none

/-- Then all that the checks still look for is the target among the values. -/
theorem InOrder.findSome_checked {d : Descriptor} {policy : CastPolicy} {q : Request}
    (h : d.InOrder policy q) :
    (d.checked policy q.target (d.vector q.arguments) q.assigned).findSome? id =
      d.aliased q.target (d.vector q.arguments) (q.assigned.map (d.stored policy)) := by
  simp only [checked, List.findSome?_cons, h.target, h.count, h.arguments, h.assigned, id,
    List.findSome?_nil]
  cases d.aliased q.target (d.vector q.arguments) (q.assigned.map (d.stored policy)) <;> rfl

end Descriptor

/-! ## Accessors -/

namespace Accessor

variable {fs : Flags} {o : Options} {role : Role} {d : Descriptor} {a : Accessor} {q : Request}
  {p : Thunk × Request}

/-- The operation was compiled for the descriptor, and it is asked with the values of the call, but
that a constructor gets no target. -/
structure Delegation (fs : Flags) (o : Options) (d : Descriptor) (q : Request)
    (p : Thunk × Request) : Prop where
  compiled : ∃ operation, compileUntyped fs o d operation = .ok p.1
  shape : p.2.shape = p.1.shape
  arguments : p.2.arguments = d.vector q.arguments
  assigned : p.2.assigned = q.assigned
  target : d.isStatic = false → p.2.target = q.target

theorem answer_of_operation (hp : a.operation? q = some p) (w : World) :
    a.answer w q = some (p.1.answer w p.2) := by
  cases a with
  | calls a =>
    cases q with
    | invoke target args =>
      simp only [operation?] at hp
      refine congrArg some ?_
      unfold CallAccessor.invoke
      cases hrole : a.descriptor.role <;> rw [hrole] at hp <;> cases hp <;> rfl
    | _ => cases hp
  | holds a =>
    cases q with
    | get target index =>
      obtain ⟨t, ht, rfl⟩ := Option.map_eq_some_iff.1 hp
      simp only [answer, ValueAccessor.get, ht]
      rfl
    | set target index v =>
      obtain ⟨t, ht, rfl⟩ := Option.map_eq_some_iff.1 hp
      simp only [answer, ValueAccessor.set, ht]
      rfl
    | _ => cases hp

theorem answer_of_no_operation (hp : a.operation? q = none) {w : World} {x : Outcome Value}
    (hx : a.answer w q = some x) :
    ∃ operation, x = (.error (a.descriptor.notSupported operation), w) := by
  cases a with
  | calls a =>
    cases q with
    | invoke target args =>
      simp only [operation?] at hp
      split at hp <;> cases hp
    | _ => cases hx
  | holds a =>
    cases q with
    | get target index =>
      have hgetter : a.getter = none := Option.map_eq_none_iff.1 hp
      obtain rfl := Option.some.inj hx
      refine ⟨.get, ?_⟩
      simp only [ValueAccessor.get, hgetter]
      rfl
    | set target index v =>
      have hsetter : a.setter = none := Option.map_eq_none_iff.1 hp
      obtain rfl := Option.some.inj hx
      refine ⟨.set, ?_⟩
      simp only [ValueAccessor.set, hsetter]
      rfl
    | _ => cases hx

theorem answer_cases {w : World} {x : Outcome Value} (hx : a.answer w q = some x) :
    (∃ operation, x = (.error (a.descriptor.notSupported operation), w)) ∨
      ∃ p, a.operation? q = some p ∧ x = p.1.answer w p.2 := by
  cases hp : a.operation? q with
  | none => exact Or.inl (answer_of_no_operation hp hx)
  | some p =>
    rw [answer_of_operation hp w] at hx
    exact Or.inr ⟨p, rfl, (Option.some.inj hx).symm⟩

theorem delegation_of_build (ha : build fs o role d = .ok a) (hp : a.operation? q = some p) :
    Delegation fs o d q p := by
  rcases eq_of_build fs o ha with
    ⟨hholds, t, rfl, ht⟩ | ⟨hholds, getter, setter, rfl, hgetter, hsetter⟩
  · cases q with
    | invoke target args =>
      have hshape := shape_of_compileUntyped ht
      simp only [operation?] at hp
      cases hrole : d.role with
      | constructor =>
        rw [hrole] at hp
        obtain rfl := Option.some.inj hp
        unfold Descriptor.shape at hshape
        rw [hrole] at hshape
        refine ⟨⟨_, ht⟩, hshape.symm, ?_, rfl, fun hstatic => ?_⟩
        · rw [Descriptor.vector, hrole]
          rfl
        · rw [Descriptor.isStatic, hrole] at hstatic
          cases hstatic
      | reconstructor | method =>
        rw [hrole] at hp
        obtain rfl := Option.some.inj hp
        unfold Descriptor.shape at hshape
        rw [hrole] at hshape
        refine ⟨⟨_, ht⟩, hshape.symm, ?_, rfl, fun _ => rfl⟩
        rw [Descriptor.vector, hrole]
      | _ =>
        rw [hrole] at hholds
        cases hholds
    | _ => cases hp
  · have hne := Descriptor.role_ne_of_holdsValue hholds
    cases q with
    | get target index =>
      obtain ⟨t, rfl, rfl⟩ := Option.map_eq_some_iff.1 hp
      have ht := compileUntyped_of_compileIf hgetter
      have hshape : t.shape = .read := (shape_of_compileUntyped ht).trans (Descriptor.shape_get hne)
      exact ⟨⟨_, ht⟩, hshape.symm, ValueAccessor.index_eq hholds _ setter index, rfl, fun _ => rfl⟩
    | set target index v =>
      obtain ⟨t, rfl, rfl⟩ := Option.map_eq_some_iff.1 hp
      have ht := compileUntyped_of_compileIf hsetter
      have hshape : t.shape = .write :=
        (shape_of_compileUntyped ht).trans (Descriptor.shape_set hne)
      exact ⟨⟨_, ht⟩, hshape.symm, ValueAccessor.index_eq hholds getter _ index, rfl, fun _ => rfl⟩
    | _ => cases hp

theorem checks_of_operation (ha : build fs o role d = .ok a) (hinstance : d.isStatic = false)
    (hp : a.operation? q = some p) :
    p.1.checks p.2 =
      match (d.checked o.castPolicy q.target (d.vector q.arguments) q.assigned).findSome? id with
      | some e => .error e
      | none => .ok ⟨d.receiver q.target, d.vector q.arguments,
          q.assigned.map (d.stored o.castPolicy)⟩ := by
  have hdelegation := delegation_of_build ha hp
  obtain ⟨operation, hcompiled⟩ := hdelegation.compiled
  rw [checks_of_compileUntyped hcompiled hdelegation.shape, hdelegation.arguments,
    hdelegation.assigned, hdelegation.target hinstance]
  exact d.prepare_eq o.castPolicy q.target (d.vector q.arguments) q.assigned

theorem checks_of_aliased (ha : build fs o role d = .ok a) (hinstance : d.isStatic = false)
    (hp : a.operation? q = some p) (horder : d.InOrder o.castPolicy q) {target : ObjectRef}
    (htarget : q.target = .object target)
    (haliased : ∃ v ∈ d.vector q.arguments ++ (q.assigned.map (d.stored o.castPolicy)).toList,
      v.refersTo target = true) :
    ∃ site, AliasSite target (d.vector q.arguments) (q.assigned.map (d.stored o.castPolicy)) site ∧
      p.1.checks p.2 = .error (.aliasedTarget d.qualifiedName site) := by
  obtain ⟨site, hfirst, hsite⟩ := exists_aliasSite haliased
  refine ⟨site, hsite, ?_⟩
  have hfault : d.aliased q.target (d.vector q.arguments)
      (q.assigned.map (d.stored o.castPolicy)) = some (.aliasedTarget d.qualifiedName site) := by
    rw [Descriptor.aliased, hinstance, htarget, if_neg nofun]
    show (firstAlias target _ _).map _ = _
    rw [hfirst, Option.map_some]
  rw [checks_of_operation ha hinstance hp, horder.findSome_checked, hfault]

/-- The operation whose member runs in a call, and what it is handed; nothing where the call is
refused. -/
def handover? (a : Accessor) (q : Request) : Option (Thunk × Preparation) :=
  (a.operation? q).bind fun p => (p.1.checks p.2).toOption.map fun handed => (p.1, handed)

theorem handover_eq_some_iff {t : Thunk} {handed : Preparation} :
    a.handover? q = some (t, handed) ↔
      ∃ q', a.operation? q = some (t, q') ∧ t.checks q' = .ok handed := by
  unfold handover?
  rw [Option.bind_eq_some_iff]
  constructor
  · rintro ⟨⟨t', q'⟩, hp, hhanded⟩
    obtain ⟨handed', hchecks, hsame⟩ := Option.map_eq_some_iff.1 hhanded
    obtain ⟨rfl, rfl⟩ := Prod.mk.inj hsame
    exact ⟨q', hp, toOption_eq_some_iff.1 hchecks⟩
  · rintro ⟨q', hp, hchecks⟩
    refine ⟨(t, q'), hp, ?_⟩
    dsimp only
    rw [hchecks]
    rfl

theorem handover_of_refused (hp : a.operation? q = some p) {e : AccessError}
    (h : p.1.checks p.2 = .error e) : a.handover? q = none := by
  unfold handover?
  rw [hp, Option.bind_some, h]
  rfl

theorem answer_of_handover {t : Thunk} {handed : Preparation}
    (h : a.handover? q = some (t, handed)) (w : World) :
    a.answer w q = some (t.run w handed) := by
  obtain ⟨q', hp, hchecks⟩ := handover_eq_some_iff.1 h
  rw [answer_of_operation hp w, Thunk.answer_eq]
  dsimp only
  rw [hchecks]

theorem refused_of_no_handover (h : a.handover? q = none) {w : World} {x : Outcome Value}
    (hx : a.answer w q = some x) : ∃ e, x = (.error e, w) := by
  rcases answer_cases hx with ⟨operation, hrefused⟩ | ⟨p, hp, rfl⟩
  · exact ⟨_, hrefused⟩
  · rw [Thunk.answer_eq]
    cases hchecks : p.1.checks p.2 with
    | error e => exact ⟨e, rfl⟩
    | ok handed =>
      rw [handover_eq_some_iff.2 ⟨p.2, hp, hchecks⟩] at h
      cases h

/-- What an instance member is handed: the object that the call is put to, and the values of the
call, of which none is the object. -/
theorem handed_of_instance (ha : build fs o role d = .ok a) (hinstance : d.isStatic = false)
    {t : Thunk} {handed : Preparation} (h : a.handover? q = some (t, handed)) :
    ∃ target, q.target = .object target ∧
      handed = ⟨some target, d.vector q.arguments, q.assigned.map (d.stored o.castPolicy)⟩ ∧
      handed.Distinct q.target := by
  obtain ⟨q', hp, hchecks⟩ := handover_eq_some_iff.1 h
  have hdistinct := (Thunk.handed_of_checks hchecks).2
  rw [(delegation_of_build ha hp).target hinstance] at hdistinct
  rw [checks_of_operation ha hinstance hp] at hchecks
  cases hfault : (d.checked o.castPolicy q.target (d.vector q.arguments) q.assigned).findSome? id
    with
  | some e =>
    rw [hfault] at hchecks
    cases hchecks
  | none =>
    rw [hfault] at hchecks
    have htarget : d.wrongTarget q.target = none :=
      List.findSome?_eq_none_iff.1 hfault (d.wrongTarget q.target) List.mem_cons_self
    rcases Descriptor.receiver_cases htarget with ⟨hstatic, -⟩ | ⟨target, -, hobject, -, hreceiver⟩
    · rw [hinstance] at hstatic
      cases hstatic
    · rw [hreceiver] at hchecks
      exact ⟨target, hobject, (Except.ok.inj hchecks).symm, hdistinct⟩

end Accessor

end MemberAccess
