import MemberAccess.Proofs.Call.Handover

/-!
# Static members and targets

A static member is reached without a target, and one that is given to it is looked at by nothing:
neither by the checks, also where it is among the values of the call, nor by the member. So two
calls that differ in their target are one call, and no call is refused for its target.

* `Registration.isStatic`: the steps that register static members;
  `Member.RegisteredBy.isStatic_eq`.
* `AccessError.isAboutTarget`: the errors about a target; `Thunk.failsInside_run`: no member finds
  one.
* `Request.on`: a request put to another target; `Accessor.checks_of_static`,
  `Accessor.answer_on`: it is answered as before.
* `Effect.withReceiver`: a typed run over contents that it leaves alone; `Effect.IgnoresTarget`,
  `ignoresTarget_prepareTyped`: a typed run that its target does not change.
* `TypedAccessor.answer_of_static`: the typed calls.
* `static_members_ignore_targets`: the untyped and the typed calls of a static member.
-/

namespace MemberAccess

/-! ## Registration -/

def Registration.isStatic : Registration → Bool
  | staticField .. | staticReadonlyField .. | staticProperty .. | staticReadonlyProperty ..
  | staticMethod .. => true
  | _ => false

theorem Member.RegisteredBy.isStatic_eq {m : Member} {step : Registration}
    (h : m.RegisteredBy step) : m.isStatic = step.isStatic := by
  obtain ⟨s, v, hs, hm⟩ := h
  rw [hm]
  cases step <;> cases hs <;> rfl

theorem Member.RegisteredBy.kind_ne_constructor {m : Member} {step : Registration}
    (h : m.RegisteredBy step) (hstatic : step.isStatic = true) : m.kind ≠ .constructor := by
  obtain ⟨s, v, hs, hm⟩ := h
  rw [hm]
  cases step with
  | staticField | staticReadonlyField | staticProperty | staticReadonlyProperty | staticMethod =>
    cases hs
    nofun
  | _ => cases hstatic

theorem Descriptor.Over.isStatic_of_registeredBy {d : Descriptor} {r : Registry} (hd : d.Over r)
    {step : Registration} (hstep : d.member.RegisteredBy step) (hstatic : step.isStatic = true) :
    d.isStatic = true := by
  have hkind := hstep.kind_ne_constructor hstatic
  have hflag : d.member.isStatic = true := hstep.isStatic_eq.trans hstatic
  rw [hd.kind] at hkind
  unfold isStatic
  cases hrole : d.role with
  | reconstructor =>
    rw [hrole] at hkind
    exact absurd rfl hkind
  | constructor => rfl
  | _ => exact hflag

/-! ## Errors about the target -/

/-- The error is about the target: there is none, it is not of the class, or it is one of the
values. -/
def AccessError.isAboutTarget : AccessError → Bool
  | targetNull _ | targetMismatch _ _ _ | aliasedTarget _ _ => true
  | _ => false

theorem AccessError.not_isAboutTarget_of_not_isCheck {e : AccessError} (h : e.isCheck = false) :
    e.isAboutTarget = false := by
  cases e <;> first | rfl | cases h

namespace Descriptor

variable {d : Descriptor} {args : List Value} {e : AccessError}

theorem not_isAboutTarget_of_wrongCount (h : d.wrongCount args = some e) :
    e.isAboutTarget = false := by
  obtain ⟨-, hcount⟩ := Option.ite_none_left_eq_some.1 h
  obtain rfl := Option.some.inj hcount
  rfl

theorem not_isAboutTarget_of_wrongArgument (h : d.wrongArgument args = some e) :
    e.isAboutTarget = false := by
  obtain ⟨p, -, rfl⟩ := Option.map_eq_some_iff.1 h
  rfl

theorem not_isAboutTarget_of_coerce (h : d.argumentPlan.coerce d.qualifiedName args = .error e) :
    e.isAboutTarget = false := by
  rw [coerce_argumentPlan] at h
  split at h
  · rename_i hcount
    obtain rfl := Except.error.inj h
    exact not_isAboutTarget_of_wrongCount hcount
  · split at h
    · rename_i hargument
      obtain rfl := Except.error.inj h
      exact not_isAboutTarget_of_wrongArgument hargument
    · cases h

theorem checked_of_static (hstatic : d.isStatic = true) (policy : CastPolicy) (target : Value)
    (args : List Value) (assigned : Option Value) :
    d.checked policy target args assigned =
      [none, d.wrongCount args, d.wrongArgument args, assigned.bind (d.wrongAssigned policy),
        none] := by
  have htarget : d.wrongTarget target = none := if_pos hstatic
  have haliased : d.aliased target args (assigned.map (d.stored policy)) = none := if_pos hstatic
  rw [checked, htarget, haliased]

theorem not_isAboutTarget_of_checked (hstatic : d.isStatic = true) {policy : CastPolicy}
    {target : Value} {assigned : Option Value}
    (h : (d.checked policy target args assigned).findSome? id = some e) :
    e.isAboutTarget = false := by
  rw [checked_of_static hstatic] at h
  obtain ⟨fault, hfault, hsome⟩ := List.exists_of_findSome?_eq_some h
  obtain rfl : fault = some e := hsome
  simp only [List.mem_cons, List.not_mem_nil, or_false, reduceCtorEq, false_or] at hfault
  rcases hfault with hcount | hargument | hassigned
  · exact not_isAboutTarget_of_wrongCount hcount.symm
  · exact not_isAboutTarget_of_wrongArgument hargument.symm
  · obtain ⟨v, -, hv⟩ := Option.bind_eq_some_iff.1 hassigned.symm
    obtain ⟨-, hcast⟩ := Option.ite_none_right_eq_some.1 hv
    obtain rfl := Option.some.inj hcast
    rfl

end Descriptor

/-! ## Errors of members -/

/-- If the run fails, then with an error that no check finds. -/
def Effect.FailsInside {α : Type} (x : Effect α) : Prop :=
  ∀ e, x.result = .error e → e.isCheck = false

theorem Effect.FailsInside.map {α β : Type} {x : Effect α} (h : x.FailsInside) (f : α → β) :
    (x.map f).FailsInside :=
  fun e he => h e (map_eq_error_iff.1 he)

section members

variable {w : World} {args : List Value} {e : AccessError}

theorem Construction.not_isCheck_of_build {k : Construction} (h : k.build args = .error e) :
    e.isCheck = false := by
  unfold build at h
  split at h <;> cases h
  rfl

theorem Construction.failsInside_rebuildOver (k : Construction) (own : Option Slots) :
    (k.rebuildOver w own args).FailsInside := by
  intro e he
  unfold rebuildOver at he
  split at he
  · rename_i hbuild
    obtain rfl := Except.error.inj he
    exact not_isCheck_of_build hbuild
  · cases he

theorem Location.not_isCheck_of_resolve {l : Location} {own : Option Slots}
    (h : l.resolve own args = .error e) : e.isCheck = false := by
  unfold resolve at h
  split at h
  · cases h
  · cases h
  · split at h <;> cases h
    rfl
  · cases h
    rfl

variable {type : StaticType} (a : Attribute type) (own : Option Slots)

theorem Attribute.failsInside_read : (a.read w own args).FailsInside := by
  intro e he
  unfold read at he
  split at he
  · rename_i hresolve
    obtain rfl := Except.error.inj he
    exact Location.not_isCheck_of_resolve hresolve
  · cases he

theorem Attribute.failsInside_write (x : type.Carrier) : (a.write w own args x).FailsInside := by
  intro e he
  unfold write at he
  split at he
  · rename_i hresolve
    obtain rfl := Except.error.inj he
    exact Location.not_isCheck_of_resolve hresolve
  · cases he
  · cases he

theorem Attribute.failsInside_writeConverted (v : Value) :
    (a.writeConverted w own args v).FailsInside := by
  unfold writeConverted
  split
  · intro e he
    obtain rfl := Except.error.inj he
    rfl
  · exact a.failsInside_write own _

theorem Method.failsInside_execute (f : Method type) : (f.execute w own args).FailsInside := by
  intro e he
  unfold execute at he
  split at he
  · obtain ⟨name, report, -, rfl, -⟩ := conclude_error he
    rfl
  · obtain ⟨name, report, -, rfl, -⟩ := conclude_error he
    rfl
  · obtain rfl := Except.error.inj he
    rfl

theorem Method.failsInside_invoke (f : Method type) : (f.invoke w own args).FailsInside := by
  unfold invoke
  split
  · intro e he
    obtain rfl := Except.error.inj he
    rfl
  · split
    · intro e he
      obtain rfl := Except.error.inj he
      rfl
    · exact f.failsInside_execute own

theorem not_isCheck_of_onReceiver {α : Type} {host : HostClass} {receiver : Option ObjectRef}
    {run : Option Slots → Effect α} (hrun : ∀ own, (run own).FailsInside)
    (h : (onReceiver host w receiver run).1 = .error e) : e.isCheck = false := by
  rcases onReceiver_cases host w receiver run with hforeign | hsettle
  · rw [hforeign] at h
    obtain rfl := Except.error.inj h
    rfl
  · rw [hsettle, Effect.settle_result] at h
    exact hrun _ e h

theorem Thunk.not_isCheck_of_run {t : Thunk} {p : Preparation}
    (h : (t.run w p).1 = .error e) : e.isCheck = false := by
  cases t with
  | construct member host plan k =>
    simp only [run, Construction.allocate] at h
    split at h
    · rename_i hbuild
      obtain rfl := Except.error.inj h
      exact Construction.not_isCheck_of_build hbuild
    · cases h
  | reconstruct member host dispatch plan k =>
    exact not_isCheck_of_onReceiver
      (fun own => (k.failsInside_rebuildOver own).map fun _ => Value.null) h
  | invoke member host dispatch plan result f =>
    exact not_isCheck_of_onReceiver (fun own => (f.failsInside_invoke own).map result.toValue) h
  | read member host dispatch plan type a =>
    exact not_isCheck_of_onReceiver (fun own => (a.failsInside_read own).map type.toValue) h
  | write member host dispatch plan slot type a =>
    exact not_isCheck_of_onReceiver (fun own => a.failsInside_writeConverted own _)
      (map_eq_error_iff.1 h)

end members

/-! ## Untyped calls -/

namespace Request

/-- The same request put to a target; an allocation takes none. -/
def on (q : Request) (target : Value) : Request :=
  match q with
  | construct args => construct args
  | invoke _ args => invoke target args
  | get _ index => get target index
  | set _ index v => set target index v

variable (q : Request) (target : Value)

@[simp] theorem arguments_on : (q.on target).arguments = q.arguments := by cases q <;> rfl

@[simp] theorem assigned_on : (q.on target).assigned = q.assigned := by cases q <;> rfl

end Request

namespace Accessor

variable {fs : Flags} {o : Options} {role : Role} {d : Descriptor} {a : Accessor} {q : Request}

theorem operation_on (a : Accessor) (q : Request) (target : Value) :
    a.operation? (q.on target) = (a.operation? q).map fun p => (p.1, p.2.on target) := by
  cases a with
  | calls a =>
    cases q with
    | invoke target' args =>
      simp only [Request.on, operation?]
      cases a.descriptor.role <;> rfl
    | _ => rfl
  | holds a =>
    cases q with
    | get target' index =>
      simp only [Request.on, operation?]
      cases a.getter <;> rfl
    | set target' index v =>
      simp only [Request.on, operation?]
      cases a.setter <;> rfl
    | _ => rfl

theorem answer_on_of_no_operation (hp : a.operation? q = none) (w : World) (target : Value) :
    a.answer w (q.on target) = a.answer w q := by
  cases a with
  | calls a =>
    cases q with
    | invoke target' args =>
      -- there is an operation for every call
      simp only [operation?] at hp
      split at hp <;> cases hp
    | _ => rfl
  | holds a =>
    cases q with
    | get target' index =>
      have hgetter : a.getter = none := Option.map_eq_none_iff.1 hp
      simp only [Request.on, answer, ValueAccessor.get, hgetter]
    | set target' index v =>
      have hsetter : a.setter = none := Option.map_eq_none_iff.1 hp
      simp only [Request.on, answer, ValueAccessor.set, hsetter]
    | _ => rfl

section static

variable (ha : build fs o role d = .ok a) (hstatic : d.isStatic = true)

include ha hstatic

/-- The checks of a static member's accessor look at the values alone, and what they let through
goes to no receiver. -/
theorem checks_of_static {p : Thunk × Request} (hp : a.operation? q = some p) :
    p.1.checks p.2 =
      match (d.checked o.castPolicy .null (d.vector q.arguments) q.assigned).findSome? id with
      | some e => .error e
      | none => .ok ⟨none, d.vector q.arguments, q.assigned.map (d.stored o.castPolicy)⟩ := by
  have hdelegation := delegation_of_build ha hp
  obtain ⟨operation, hcompiled⟩ := hdelegation.compiled
  have hreceiver : d.receiver p.2.target = none := if_pos hstatic
  have hprepared := d.prepare_eq o.castPolicy p.2.target (d.vector q.arguments) q.assigned
  rw [hreceiver, Descriptor.checked_of_static hstatic] at hprepared
  rw [checks_of_compileUntyped hcompiled hdelegation.shape, hdelegation.arguments,
    hdelegation.assigned, Descriptor.checked_of_static hstatic]
  exact hprepared

theorem answer_on (w : World) (q : Request) (target : Value) :
    a.answer w (q.on target) = a.answer w q := by
  cases hp : a.operation? q with
  | none => exact answer_on_of_no_operation hp w target
  | some p =>
    have hon : a.operation? (q.on target) = some (p.1, p.2.on target) := by
      rw [operation_on, hp]
      rfl
    rw [answer_of_operation hon w, answer_of_operation hp w, Thunk.answer_eq, Thunk.answer_eq,
      checks_of_static ha hstatic hon, checks_of_static ha hstatic hp, Request.arguments_on,
      Request.assigned_on]

theorem not_isAboutTarget_of_answer {w : World} {x : Outcome Value} (hx : a.answer w q = some x)
    {e : AccessError} (he : x.1 = .error e) : e.isAboutTarget = false := by
  rcases answer_cases hx with ⟨operation, rfl⟩ | ⟨p, hp, rfl⟩
  · obtain rfl := Except.error.inj he
    rfl
  · rw [Thunk.answer_eq, checks_of_static ha hstatic hp] at he
    cases hfault : (d.checked o.castPolicy .null (d.vector q.arguments)
      q.assigned).findSome? id with
    | some e' =>
      rw [hfault] at he
      obtain rfl := Except.error.inj he
      exact Descriptor.not_isAboutTarget_of_checked hstatic hfault
    | none =>
      rw [hfault] at he
      exact AccessError.not_isAboutTarget_of_not_isCheck (Thunk.not_isCheck_of_run he)

end static

end Accessor

/-! ## Typed calls -/

namespace Effect

variable {α β : Type}

/-- The same result and world, with other contents of the receiver. -/
def withReceiver (x : Effect α) (own : Option Slots) : Effect α := ⟨x.result, own, x.world⟩

/-- A typed call is the one without a target: it leaves contents that are offered to it as they are,
and it does not fail for them. -/
structure IgnoresTarget (call : Option Slots → Effect α) : Prop where
  eq : ∀ own, call own = (call none).withReceiver own
  errors : ∀ e, (call none).result = .error e → e.isAboutTarget = false

theorem IgnoresTarget.map {call : Option Slots → Effect α} (h : IgnoresTarget call) (f : α → β) :
    IgnoresTarget fun own => (call own).map f where
  eq own := by
    rw [h.eq own]
    rfl
  errors e he := h.errors e (map_eq_error_iff.1 he)

theorem ignoresTarget_refused (w : World) {e : AccessError} (he : e.isAboutTarget = false) :
    IgnoresTarget fun own => (refused e own w : Effect α) where
  eq _ := rfl
  errors e' h := by
    obtain rfl := Except.error.inj h
    exact he

end Effect

section typed

variable {d : Descriptor} (w : World) (args : List Value)

theorem ignoresTarget_prepareTyped {α : Type} (hstatic : d.isStatic = true)
    {run : Option Slots → List Value → Effect α} (hrun : (run none args).FailsInside) :
    Effect.IgnoresTarget fun own =>
      prepareTyped d.qualifiedName d.dispatch d.argumentPlan w own args run := by
  have hdispatch : d.dispatch = .static := if_pos hstatic
  rw [hdispatch]
  unfold prepareTyped
  cases hargs : d.argumentPlan.coerce d.qualifiedName args with
  | error e =>
    exact Effect.ignoresTarget_refused w (Descriptor.not_isAboutTarget_of_coerce hargs)
  | ok passed =>
    obtain rfl := ArgumentPlan.eq_of_coerce hargs
    exact ⟨fun _ => rfl, fun e he => AccessError.not_isAboutTarget_of_not_isCheck (hrun e he)⟩

theorem ignoresTarget_ofBuilt (host : HostClass) (k : Construction) :
    Effect.IgnoresTarget fun own =>
      .ofBuilt host w own (TypedConstruct.run ⟨d.qualifiedName, d.argumentPlan, k⟩ args) where
  eq _ := rfl
  errors e he := by
    unfold Effect.ofBuilt TypedConstruct.run at he
    cases hargs : d.argumentPlan.coerce d.qualifiedName args with
    | error e' =>
      simp only [hargs] at he
      obtain rfl := Except.error.inj he
      exact Descriptor.not_isAboutTarget_of_coerce hargs
    | ok passed =>
      simp only [hargs] at he
      cases hbuild : k.build passed with
      | error e' =>
        rw [hbuild] at he
        obtain rfl := Except.error.inj he
        exact AccessError.not_isAboutTarget_of_not_isCheck
          (Construction.not_isCheck_of_build hbuild)
      | ok s =>
        rw [hbuild] at he
        cases he

variable {type : StaticType} (a : Attribute type)

theorem ignoresTarget_get (hstatic : d.isStatic = true) (setter : Option (TypedWrite type)) :
    Effect.IgnoresTarget fun own => TypedValueAccessor.get ⟨d,
      if a.hasGetter then some ⟨d.qualifiedName, d.dispatch, d.argumentPlan, a⟩ else none,
      setter⟩ w own args := by
  unfold TypedValueAccessor.get
  cases a.hasGetter with
  | true => exact ignoresTarget_prepareTyped w _ hstatic (a.failsInside_read none)
  | false => exact Effect.ignoresTarget_refused w rfl

theorem ignoresTarget_set (hstatic : d.isStatic = true) (getter : Option (TypedRead type))
    (x : type.Carrier) :
    Effect.IgnoresTarget fun own => TypedValueAccessor.set ⟨d, getter,
      if a.hasSetter then some ⟨d.qualifiedName, d.dispatch, d.argumentPlan, a⟩ else none⟩
        w own args x := by
  unfold TypedValueAccessor.set
  cases a.hasSetter with
  | true => exact ignoresTarget_prepareTyped w _ hstatic (a.failsInside_write none x)
  | false => exact Effect.ignoresTarget_refused w rfl

end typed

theorem TypedAccessor.answer_of_static {fs : Flags} {o : Options} {role : Role} {d : Descriptor}
    {host : HostClass} {type : StaticType} {t : TypedAccessor} (hform : d.Form)
    (ht : build fs o role host type d = .ok t) (hstatic : d.isStatic = true) (w : World)
    (q : TypedRequest t.type) :
    (∀ own, t.answer w own q = none) ∨
      ∃ call, Effect.IgnoresTarget call ∧ ∀ own, t.answer w own q = some (call own) := by
  obtain rfl := role_of_build ht
  cases hform with
  | constructor k hk hrole =>
    rw [hrole] at ht
    obtain ⟨rfl, rfl⟩ := build_constructor hk hrole ht
    cases q with
    | invoke args => exact Or.inr ⟨_, ignoresTarget_ofBuilt w args d.host k, fun _ => rfl⟩
    | _ => exact Or.inl fun _ => rfl
  | reconstructor k hk hrole =>
    rw [Descriptor.isStatic, hrole] at hstatic
    cases hstatic
  | method result f hf hrole =>
    rw [hrole] at ht
    obtain ⟨rfl, rfl⟩ := build_method hf hrole ht
    cases q with
    | invoke args =>
      have hcall := ignoresTarget_prepareTyped w args hstatic (f.failsInside_invoke (w := w) none)
      exact Or.inr ⟨_, hcall.map result.toValue, fun _ => rfl⟩
    | _ => exact Or.inl fun _ => rfl
  | value type' a ha hrole hindex =>
    obtain ⟨rfl, rfl⟩ := build_value ha hrole ht
    cases q with
    | invoke args => exact Or.inl fun _ => rfl
    | get index =>
      exact Or.inr ⟨_, (ignoresTarget_get w index a hstatic _).map _, fun _ => rfl⟩
    | set index x =>
      exact Or.inr ⟨_, (ignoresTarget_set w index a hstatic _ x).map _, fun _ => rfl⟩

/-! ## Both surfaces -/

/-- Two calls of a static member that differ in their target have the same outcome and leave the
same world, and neither fails for its target, whatever the target is: null, a primitive, an object
of any class, or one of the values of the call. On the typed surface the call with a target is the
one without, and the contents of the target stay as they are. -/
theorem static_members_ignore_targets {blocks : List (HostClass × List Registration)}
    {d : Descriptor} (hd : d.Over (Registry.ofBlocks blocks)) {step : Registration}
    (hstep : d.member.RegisteredBy step) (hstatic : step.isStatic = true) (fs : Flags)
    (o : Options) (role : Role) :
    (∀ a, Accessor.build fs o role d = .ok a → ∀ w (q : Request) target target',
      a.answer w (q.on target) = a.answer w (q.on target') ∧
      ∀ x e, a.answer w (q.on target) = some x → x.1 = .error e → e.isAboutTarget = false) ∧
    (∀ host type t, TypedAccessor.build fs o role host type d = .ok t → ∀ w own q,
      t.answer w own q = (t.answer w none q).map (·.withReceiver own) ∧
      ∀ x e, t.answer w own q = some x → x.result = .error e → e.isAboutTarget = false) := by
  have hreached := hd.isStatic_of_registeredBy hstep hstatic
  constructor
  · intro a ha w q target target'
    refine ⟨?_, fun x e hx he => Accessor.not_isAboutTarget_of_answer ha hreached hx he⟩
    rw [Accessor.answer_on ha hreached, Accessor.answer_on ha hreached]
  · intro host type t ht w own q
    rcases TypedAccessor.answer_of_static hd.form ht hreached w q with hnone | ⟨call, hcall, hcalls⟩
    · rw [hnone, hnone]
      exact ⟨rfl, fun _ _ hx _ => nomatch hx⟩
    · rw [hcalls, hcalls, hcall.eq own]
      refine ⟨rfl, fun x e hx he => ?_⟩
      obtain rfl := Option.some.inj hx
      exact hcall.errors e he

/-- A static field of the sample class for an instance of it or null. -/
def pointOrigin : Descriptor :=
  ⟨.field, (MemberSpec.ofAttribute "origin" .field [] true
    (⟨.slot .shared "origin", true, true⟩ :
      Attribute (.optional (.base (.host pointClass))))).member ⟨0⟩ pointClass .public ⟨0⟩⟩

def originStep : Registration :=
  .staticField "origin" (.optional (.base (.host pointClass))) "origin"

/-- The sample instance is written to the static field, with the instance itself for a target, with
none and with a number. -/
theorem static_members_ignore_targets_pointOrigin : ∃ a t w',
    Accessor.build .empty .standard .field pointOrigin = .ok a ∧
    TypedAccessor.build .empty .standard .field pointClass (.optional (.base (.host pointClass)))
      pointOrigin = .ok t ∧
    a.answer pointWorld (.set (.object pointRef) [] (.object pointRef)) = some (.ok .null, w') ∧
    a.answer pointWorld (.set .null [] (.object pointRef)) = some (.ok .null, w') ∧
    a.answer pointWorld (.set (.int32 3) [] (.object pointRef)) = some (.ok .null, w') ∧
    ∃ q, t.answer pointWorld (some .empty) q = some ⟨.ok .null, some .empty, w'⟩ ∧
      t.answer pointWorld none q = some ⟨.ok .null, none, w'⟩ := by
  have hover : pointOrigin.Over (Registry.ofBlocks [(pointClass, [originStep])]) :=
    ⟨List.mem_cons_self, rfl⟩
  have hstep : pointOrigin.member.RegisteredBy originStep := ⟨_, .public, rfl, rfl⟩
  have ha : Accessor.build .empty .standard .field pointOrigin = .ok _ := rfl
  have ht : TypedAccessor.build .empty .standard .field pointClass
      (.optional (.base (.host pointClass))) pointOrigin = .ok _ := rfl
  obtain ⟨hcalls, htyped⟩ := static_members_ignore_targets hover hstep rfl .empty .standard .field
  have hset := hcalls _ ha pointWorld (.set .null [] (.object pointRef))
  refine ⟨_, _, _, ha, ht, (hset (.object pointRef) .null).1.trans rfl, rfl,
    (hset (.int32 3) .null).1.trans rfl, ?_⟩
  exact ⟨.set [] (some ⟨0⟩), (htyped _ _ _ ht pointWorld (some .empty) _).1.trans rfl, rfl⟩

end MemberAccess
