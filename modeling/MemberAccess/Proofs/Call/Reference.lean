import MemberAccess.Proofs.Member.Described
import MemberAccess.Proofs.Member.Runs
import MemberAccess.Proofs.Thunk.Prepared

/-!
# The reference semantics of untyped calls

What an untyped call means, said without plans, thunks and bindings' runs: the faults that a call
can have, in the order in which they are looked for, and what the member does when there is none.

* `Descriptor.firstFault`: the first fault of a request.
* `Descriptor.perform`: the effect of a request without fault.
* `Descriptor.reference`: both together.
* `Descriptor.prepare_eq`: the checks of a compiled call look for the same faults.
-/

namespace MemberAccess

namespace Descriptor

variable (d : Descriptor)

/-! ## Faults -/

def unsupported : Request → Option AccessError
  | .get _ _ => if d.canRead then none else some (d.notSupported .get)
  | .set _ _ _ => if d.canWrite then none else some (d.notSupported .set)
  | _ => none

/-- A member that needs a target is not given an instance of its class. -/
def wrongTarget (target : Value) : Option AccessError :=
  if d.isStatic then none
  else if target = .null then some (.targetNull d.qualifiedName)
  else if target.runtimeBase = some (.host d.host) then none
  else some (.targetMismatch d.qualifiedName d.host target.typeName)

/-- The vector is not as long as the parameter list. -/
def wrongCount (args : List Value) : Option AccessError :=
  if args.length = d.arity then none
  else some (.argumentCount d.qualifiedName d.arity args.length)

/-- The leftmost argument that its type does not take. -/
def wrongArgument (args : List Value) : Option AccessError :=
  (ArgumentPlan.firstRejected 0 d.parameters args).map fun p =>
    .invalidCast d.qualifiedName (.argument p.2) p.1.1 p.1.2.typeName

/-- A setter replaces a rejected value by null, if its type is a nullable reference and the cast
policy says so. -/
def replaces (policy : CastPolicy) (v : Value) : Bool :=
  d.member.valueType.rejects v && policy == .nullOnMismatch &&
    d.member.valueType.kind == .reference && d.member.valueType.nullable

/-- What a setter assigns for a value. -/
def stored (policy : CastPolicy) (v : Value) : Value := if d.replaces policy v then .null else v

/-- The assigned value is rejected and not replaced. -/
def wrongAssigned (policy : CastPolicy) (v : Value) : Option AccessError :=
  if d.member.valueType.rejects v && !d.replaces policy v then
    some (.invalidCast d.qualifiedName .assigned d.member.valueType v.typeName)
  else none

def aliased (target : Value) (args : List Value) (assigned : Option Value) : Option AccessError :=
  if d.isStatic then none
  else target.object?.bind fun o =>
    (firstAlias o args assigned).map (.aliasedTarget d.qualifiedName)

/-- A value that is not null is assigned where the type is empty. -/
def lateAssigned (v : Value) : Option AccessError :=
  if d.member.valueType.rejectsLate v then some (lateRefusal v) else none

/-- The leftmost argument that is not null where the type is empty. -/
def lateArgument (args : List Value) : Option AccessError :=
  (Arguments.firstLate d.parameters args).map lateRefusal

/-- The faults that the checks of a call look for. -/
def checked (policy : CastPolicy) (target : Value) (args : List Value) (assigned : Option Value) :
    List (Option AccessError) :=
  [d.wrongTarget target, d.wrongCount args, d.wrongArgument args,
    assigned.bind (d.wrongAssigned policy), d.aliased target args (assigned.map (d.stored policy))]

/-- The faults that only the member finds. -/
def late (policy : CastPolicy) (args : List Value) (assigned : Option Value) :
    List (Option AccessError) :=
  [(assigned.map (d.stored policy)).bind d.lateAssigned, d.lateArgument args]

/-- The first fault of a request. -/
def firstFault (policy : CastPolicy) (q : Request) : Option AccessError :=
  let args := d.vector q.arguments
  (d.unsupported q :: d.checked policy q.target args q.assigned ++
    d.late policy args q.assigned).findSome? id

/-! ## Effects -/

/-- The slots that the member works on: those of the target, or those that static members share. -/
def slots (w : World) (target : Value) : Slots :=
  if d.isStatic then w.statics
  else match target with
    | .object o => w.contents o
    | _ => .empty

/-- The world with other slots in their place. -/
def withSlots (w : World) (target : Value) (s : Slots) : World :=
  if d.isStatic then { w with statics := s }
  else match target with
    | .object o => w.store o s
    | _ => w

/-- What a method does: it runs its body, and if that fails the failure is reported or counts as
null. -/
def call {result : StaticType} (f : Method result) (w : World) (target : Value)
    (args : List Value) : Outcome Value :=
  let (s, outcome) := f.body.run w.contents args (d.slots w target)
  match outcome, f.reportsAs with
  | .error report, some _ =>
    (.error (.memberFailed d.qualifiedName report), d.withSlots w target s)
  | outcome, _ =>
    let (x, w') := result.fit (outcome.toOption.getD .null) w
    (.ok (result.toValue x), d.withSlots w' target s)

/-- What the member does for a request without fault. A constructor makes a new instance, or puts
the contents of one into the target; an attribute is a slot, an indexer's element a slot under the
name that the index spells; a method is called. -/
def perform (policy : CastPolicy) (w : World) (q : Request) : Outcome Value :=
  let args := d.vector q.arguments
  let own := d.slots w q.target
  match d.member.binding, q.assigned with
  | .construction k, _ =>
    if d.isStatic then
      let (o, w') := w.allocate d.host (k.contents args)
      (.ok (.object o), w')
    else (.ok .null, d.withSlots w q.target (k.contents args))
  | .value _ a, some v =>
    (.ok .null, d.withSlots w q.target (own.set (a.location.key args) (d.stored policy v)))
  | .value type a, none =>
    let (x, w') := type.fit (own.get (a.location.key args)) w
    (.ok (type.toValue x), w')
  | .method _ f, _ => d.call f w q.target args

/-- The accessor of the descriptor has such a call. -/
def serves : Request → Bool
  | .construct _ => false
  | .invoke _ _ => !d.role.holdsValue
  | .get _ _ | .set _ _ _ => d.role.holdsValue

/-- What a request to the accessor of the descriptor means. -/
def reference (policy : CastPolicy) (w : World) (q : Request) : Option (Outcome Value) :=
  if d.serves q then
    some (match d.firstFault policy q with
      | some e => (.error e, w)
      | none => d.perform policy w q)
  else none

/-! ## Faults and checks -/

def receiver (target : Value) : Option ObjectRef := if d.isStatic then none else target.object?

theorem receiver_eq (target : Value) :
    d.dispatch.receiver d.qualifiedName target =
      match d.wrongTarget target with
      | some e => .error e
      | none => .ok (d.receiver target) := by
  unfold wrongTarget receiver dispatch
  cases d.isStatic with
  | true => rfl
  | false =>
    cases target with
    | object o =>
      show (if o.host = d.host then Except.ok (some o) else
        Except.error (AccessError.targetMismatch d.qualifiedName d.host o.host.shortName)) = _
      by_cases ho : o.host = d.host
      · simp [ho, Value.runtimeBase, Value.object?]
      · simp [ho, Value.runtimeBase]
        rfl
    | _ => rfl

theorem coerce_argumentPlan (args : List Value) :
    d.argumentPlan.coerce d.qualifiedName args =
      match d.wrongCount args with
      | some e => .error e
      | none =>
        match d.wrongArgument args with
        | some e => .error e
        | none => .ok args := by
  unfold argumentPlan wrongCount wrongArgument arity
  rw [ArgumentPlan.coerce_ofParameters]
  by_cases hlength : args.length = d.parameters.length
  · rw [if_pos hlength, if_pos hlength]
    cases ArgumentPlan.firstRejected 0 d.parameters args <;> rfl
  · rw [if_neg hlength, if_neg hlength]

theorem coerce_valueSlot (policy : CastPolicy) (v : Value) :
    (d.valueSlot .untyped policy).coerce d.qualifiedName .assigned v =
      match d.wrongAssigned policy v with
      | some e => .error e
      | none => .ok (d.stored policy v) := by
  unfold valueSlot ArgumentSlot.coerce Coercion.forAssigned wrongAssigned stored replaces
    TypeHandle.rejects
  cases d.member.valueType.kind <;> cases policy <;> cases d.member.valueType.accepts v <;>
    cases d.member.valueType.nullable <;> rfl

theorem coerceAssigned_eq (policy : CastPolicy) (assigned : Option Value) :
    coerceAssigned d.qualifiedName (assigned.map fun v => (d.valueSlot .untyped policy, v)) =
      match assigned.bind (d.wrongAssigned policy) with
      | some e => .error e
      | none => .ok (assigned.map (d.stored policy)) := by
  cases assigned with
  | none => rfl
  | some v =>
    rw [Option.map_some, coerceAssigned_some, coerce_valueSlot, Option.bind_some]
    cases d.wrongAssigned policy v <;> rfl

theorem rejects_stored {d : Descriptor} {policy : CastPolicy} {v : Value}
    (h : d.wrongAssigned policy v = none) :
    d.member.valueType.rejects (d.stored policy v) = false := by
  unfold wrongAssigned at h
  unfold stored
  by_cases hreplaces : d.replaces policy v = true
  · rw [if_pos hreplaces]
    have hnullable : d.member.valueType.nullable = true := by
      simp only [replaces, Bool.and_eq_true] at hreplaces
      exact hreplaces.2
    refine TypeHandle.not_rejects_of_accepts ?_
    unfold TypeHandle.accepts Value.runtimeBase
    cases d.member.valueType.kind <;> first | rfl | exact hnullable
  · rw [if_neg hreplaces]
    cases hrejects : d.member.valueType.rejects v with
    | false => rfl
    | true => simp [hrejects, hreplaces] at h

/-- The checks of a compiled call look for the same faults in the same order. -/
theorem prepare_eq (policy : CastPolicy) (target : Value) (args : List Value)
    (assigned : Option Value) :
    prepare d.qualifiedName d.dispatch d.argumentPlan target args
        (assigned.map fun v => (d.valueSlot .untyped policy, v)) =
      match (d.checked policy target args assigned).findSome? id with
      | some e => .error e
      | none => .ok ⟨d.receiver target, args, assigned.map (d.stored policy)⟩ := by
  have halias : d.aliased target args (assigned.map (d.stored policy)) =
      ((d.receiver target).bind fun o => firstAlias o args (assigned.map (d.stored policy))).map
        (.aliasedTarget d.qualifiedName) := by
    unfold aliased receiver
    cases d.isStatic with
    | true => rfl
    | false => cases target <;> rfl
  unfold prepare checked
  rw [receiver_eq, coerce_argumentPlan, coerceAssigned_eq, halias]
  cases d.wrongTarget target with
  | some e => rfl
  | none =>
    cases d.wrongCount args with
    | some e => rfl
    | none =>
      cases d.wrongArgument args with
      | some e => rfl
      | none =>
        cases assigned.bind (d.wrongAssigned policy) with
        | some e => rfl
        | none =>
          dsimp only
          cases (d.receiver target).bind fun o =>
            firstAlias o args (assigned.map (d.stored policy)) <;> rfl

end Descriptor

end MemberAccess
