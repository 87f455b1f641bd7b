import MemberAccess.Proofs.Call.Atomicity
import MemberAccess.Proofs.Member.Writes

/-!
# What calls write

A call writes at the addresses that its member writes: in the cell of its target, or among the
shared slots. A call that is refused writes nothing.

* `Thunk.Writes`, `TypedThunk.Writes`: the addresses that a call of a compiled operation writes.
* `Accessor.operation?`, `TypedAccessor.operation?`: the compiled operation behind a call of an
  accessor.
* `Call`, `Call.Writes`, `Call.within`: any call, and that it changes nothing else.
-/

namespace MemberAccess

/-- The addresses of names, those of the receiver in its cell. -/
def addressesOf (receiver : Option ObjectRef) (names : Names) : Address → Prop
  | .cell i name => (∃ o ∈ receiver, o.cell = i) ∧ names .own name
  | .shared name => names .shared name

theorem Effect.Within.settle {α : Type} {x : Effect α} {w : World} {target : Option ObjectRef}
    {names : Names} (h : x.Within (target.map w.contents) w names) :
    w.Within (x.settle target).2 (addressesOf target names) := by
  cases target with
  | none => exact World.within_of_prefix h.cells h.statics
  | some o =>
    obtain ⟨s, hs, hagree⟩ := h.receiver _ rfl
    have hsettle : (x.settle (some o)).2 = x.world.store o s := by
      unfold Effect.settle World.restore
      rw [hs]
    rw [hsettle]
    exact .store h.cells h.statics (hagree.mono fun name hname => ⟨⟨o, rfl, rfl⟩, hname⟩)

/-- A run over contents that are in no cell writes the shared slots at most. -/
theorem Effect.Within.world {α : Type} {x : Effect α} {own : Option Slots} {w : World}
    {names : Names} (h : x.Within own w names) : w.Within x.world (addressesOf none names) :=
  World.within_of_prefix h.cells h.statics

theorem done_or_refused {α : Type} (r : Except AccessError α) :
    (∀ e, r = .error e → e.isReport = true) ∨ ∃ e, r = .error e ∧ e.isReport = false := by
  cases r with
  | ok x => exact Or.inl nofun
  | error e =>
    by_cases he : e.isReport = true
    · refine Or.inl fun e' he' => ?_
      exact Except.error.inj he' ▸ he
    · exact Or.inr ⟨e, rfl, Bool.eq_false_iff.2 he⟩

/-! ## Untyped operations -/

/-- The object of a class that a value refers to. -/
def Value.instanceOf? (host : HostClass) : Value → Option ObjectRef
  | .object o => if o.host = host then some o else none
  | _ => none

theorem Value.eq_of_instanceOf {host : HostClass} {v : Value} {o : ObjectRef}
    (h : v.instanceOf? host = some o) : v = .object o ∧ o.host = host := by
  unfold instanceOf? at h
  split at h
  · obtain ⟨hhost, hsame⟩ := Option.ite_none_right_eq_some.1 h
    obtain rfl := Option.some.inj hsame
    exact ⟨rfl, hhost⟩
  · cases h

section untyped

variable {α : Type} {w : World}

theorem within_onReceiver {target : Value} {host : HostClass} {receiver : Option ObjectRef}
    {run : Option Slots → Effect α} (names : Option Slots → Names)
    (hreceiver : receiver = none ∨ ∃ o, target = .object o ∧ receiver = some o)
    (hrun : ∀ own, (run own).Within own w (names own))
    (hshared : ∀ own name, names none .shared name → names own .shared name) :
    w.Within (onReceiver host w receiver run).2 (addressesOf (target.instanceOf? host)
      (names ((target.instanceOf? host).map w.contents))) := by
  rcases hreceiver with rfl | ⟨o, rfl, rfl⟩
  · have hnone := (hrun none).of_none (hshared ((target.instanceOf? host).map w.contents))
    exact World.within_of_prefix hnone.cells hnone.statics
  · by_cases ho : o.host = host
    · have hinstance : (Value.object o).instanceOf? host = some o := if_pos ho
      rw [onReceiver_eq (by rintro _ ⟨⟩; exact ho), hinstance]
      exact (hrun _).settle
    · have hforeign : onReceiver host w (some o) run = (.error (foreignReceiver host), w) :=
        if_neg ho
      rw [hforeign]
      exact .refl w _

theorem within_prepared (target : Value) (args : List Value) {member : String}
    {dispatch : Dispatch} {plan : ArgumentPlan} {assigned : Option (ArgumentSlot × Value)}
    {run : Preparation → Outcome α} {addresses : Address → Prop}
    (hrun : ∀ p : Preparation, p.receiver = none ∨ (∃ o, target = .object o ∧ p.receiver = some o) →
      p.arguments = args → w.Within (run p).2 addresses) :
    w.Within (match prepare member dispatch plan target args assigned with
      | .error e => ((.error e, w) : Outcome α)
      | .ok p => run p).2 addresses := by
  split
  · exact .refl w _
  · rename_i p hp
    obtain ⟨hreceiver, -, hargs, -⟩ := prepare_eq_ok hp
    refine hrun p ?_ hargs
    rcases Dispatch.receiver_eq_ok hreceiver with ⟨-, hnone⟩ | ⟨o, -, htarget, hsome⟩
    · exact Or.inl hnone
    · exact Or.inr ⟨o, htarget, hsome⟩

end untyped

namespace Thunk

def host : Thunk → HostClass
  | construct _ host _ _ | reconstruct _ host _ _ _ | invoke _ host _ _ _ _ | read _ host _ _ _ _
  | write _ host _ _ _ _ _ => host

/-- The names that a request writes under, for the contents of its receiver. -/
def names (t : Thunk) (w : World) (own : Option Slots) (q : Request) : Names :=
  match t, q with
  | reconstruct _ _ _ _ _, .invoke _ _ => Construction.names
  | invoke _ _ _ _ _ f, .invoke _ args => f.names w own args
  | write _ _ _ _ _ _ a, .set _ index _ => a.names index
  | _, _ => fun _ _ => False

def receiver (t : Thunk) (q : Request) : Option ObjectRef := q.target.instanceOf? t.host

def footprint (t : Thunk) (w : World) (q : Request) : Address → Prop :=
  addressesOf (t.receiver q) (t.names w ((t.receiver q).map w.contents) q)

variable (t : Thunk) (w : World)

theorem within_footprint (q : Request) : w.Within (t.answer w q).2 (t.footprint w q) := by
  cases q with
  | construct args =>
    cases t with
    | construct member host plan k =>
      refine within_prepared .null args fun p _ _ => ?_
      unfold Construction.allocate
      split
      · exact .refl w _
      · exact w.within_allocate _ _ _
    | _ => exact .refl w _
  | invoke target args =>
    cases t with
    | reconstruct member host dispatch plan k =>
      refine within_prepared target args fun p hreceiver _ => ?_
      exact within_onReceiver (fun _ => Construction.names) hreceiver
        (fun own => (k.within_rebuildOver w own p.arguments).map _) fun _ _ h => h
    | invoke member host dispatch plan result f =>
      refine within_prepared target args fun p hreceiver hargs => ?_
      rw [hargs]
      exact within_onReceiver (fun own => f.names w own args) hreceiver
        (fun own => (f.within_invoke w own args).map _)
        fun own _ h => f.names_shared w none args own h
    | _ => exact .refl w _
  | get target index =>
    cases t with
    | read member host dispatch plan type a =>
      refine within_prepared target index fun p hreceiver _ => ?_
      exact within_onReceiver (fun _ _ _ => False) hreceiver
        (fun own => (a.within_read w own p.arguments _).map _) fun _ _ h => h
    | _ => exact .refl w _
  | set target index v =>
    cases t with
    | write member host dispatch plan slot type a =>
      let t : Thunk := .write member host dispatch plan slot type a
      have hwrite : w.Within (t.runWrite w target index v).2
          (t.footprint w (.set target index v)) := by
        refine within_prepared target index fun p hreceiver hargs => ?_
        rw [hargs]
        exact within_onReceiver (fun _ => a.names index) hreceiver
          (fun own => a.within_writeConverted w own index _) fun _ _ h => h
      exact hwrite
    | _ => exact .refl w _

theorem world_of_refused {q : Request} {e : AccessError} (he : (t.answer w q).1 = .error e)
    (hreport : e.isReport = false) : (t.answer w q).2 = w := by
  cases q with
  | construct args => exact (t.isAtomic_runConstruct w args e he).2
  | invoke target args =>
    rcases t.runCall_error w target args he with ⟨-, hw⟩ | ⟨_, _, _, _, _, _, -, hreports⟩
    · exact hw
    · obtain ⟨_, _, _, -, rfl, -⟩ := hreports
      cases hreport
  | get target index => exact (t.isAtomic_runRead w target index e he).2
  | set target index v => exact (t.isAtomic_runWrite w target v index e (map_eq_error_iff.1 he)).2

/-- The addresses that a call writes: those that the member writes, unless the call is refused. -/
def Writes (q : Request) (a : Address) : Prop :=
  (∀ e, (t.answer w q).1 = .error e → e.isReport = true) ∧ t.footprint w q a

theorem within (q : Request) : w.Within (t.answer w q).2 (t.Writes w q) := by
  rcases done_or_refused (t.answer w q).1 with hdone | ⟨e, he, hreport⟩
  · exact (t.within_footprint w q).mono fun a ha => ⟨hdone, ha⟩
  · rw [t.world_of_refused w he hreport]
    exact .refl w _

end Thunk

/-! ## Typed operations -/

/-- What a typed call is put to. -/
inductive TypedTarget where
  | nothing
  /-- Contents that are in no cell. -/
  | contents (s : Slots)
  /-- An object, whose contents are lent to the call. -/
  | object (o : ObjectRef)

namespace TypedTarget

def own (w : World) : TypedTarget → Option Slots
  | nothing => none
  | contents s => some s
  | object o => some (w.contents o)

/-- The object that what is left of the contents is stored in. -/
def object? : TypedTarget → Option ObjectRef
  | object o => some o
  | _ => none

end TypedTarget

theorem Effect.Within.lent {α : Type} {x : Effect α} {w : World} {target : TypedTarget}
    {names : Names} (h : x.Within (target.own w) w names) :
    w.Within (x.settle target.object?).2 (addressesOf target.object? names) := by
  cases target with
  | object o =>
    have hsettled : x.Within ((some o).map w.contents) w names := h
    exact hsettled.settle
  | nothing => exact h.world
  | contents s => exact h.world

theorem within_prepareTyped {α : Type} {member : String} {dispatch : Dispatch} {plan : ArgumentPlan}
    {w : World} {own : Option Slots} {args : List Value}
    {run : Option Slots → List Value → Effect α} (names : Option Slots → Names)
    (hrun : ∀ own, (run own args).Within own w (names own))
    (hshared : ∀ own name, names none .shared name → names own .shared name) :
    (prepareTyped member dispatch plan w own args run).Within own w (names own) := by
  rcases prepareTyped_cases w own args run with ⟨e, -, h⟩ | ⟨-, ⟨-, -, h⟩ | ⟨-, h⟩⟩
  · rw [h]
    exact Effect.within_refused e
  · rw [h]
    exact hrun own
  · rw [h]
    have hnone := (hrun none).of_none (hshared own)
    exact ⟨hnone.cells, hnone.statics, fun s hs => ⟨s, hs, .refl _ _⟩⟩

namespace TypedThunk

def host : TypedThunk → HostClass
  | construct host _ | reconstruct host _ | read host _ _ | write host _ _ | invoke host _ _ => host

/-- The names that a request writes under, for the contents that it is put to. -/
def names (t : TypedThunk) (w : World) (own : Option Slots) (q : TypedRequest t.type) : Names :=
  match t, q with
  | reconstruct _ _, .invoke _ => Construction.names
  | invoke _ _ t, .invoke args => t.binding.names w own args
  | write _ _ t, .set index _ => t.binding.names index
  | _, _ => fun _ _ => False

theorem within_names {t : TypedThunk} {w : World} {own : Option Slots} {q : TypedRequest t.type}
    {x : Effect Value} (hx : t.answer w own q = some x) : x.Within own w (t.names w own q) := by
  cases t with
  | construct host t =>
    cases q <;> cases hx
    unfold Effect.ofBuilt allocateBuilt
    split
    · exact Effect.within_refused _
    · exact Effect.within_of_same _ ⟨_, rfl⟩ rfl
  | reconstruct host t =>
    cases q <;> cases hx
    refine Effect.Within.map ?_ _
    rw [t.run_eq host]
    exact within_prepareTyped (fun _ => Construction.names)
      (fun own => t.binding.within_rebuildOver w own _) fun _ _ h => h
  | read host type t =>
    cases q <;> cases hx
    exact Effect.Within.map (within_prepareTyped (fun _ _ _ => False)
      (fun own => t.binding.within_read w own _ _) fun _ _ h => h) _
  | write host type t =>
    cases q <;> cases hx
    exact Effect.Within.map (within_prepareTyped (fun _ => t.binding.names _)
      (fun own => t.binding.within_write w own _ _) fun _ _ h => h) _
  | invoke host result t =>
    cases q <;> cases hx
    exact Effect.Within.map (within_prepareTyped (fun own => t.binding.names w own _)
      (fun own => t.binding.within_invoke w own _)
      fun own _ h => t.binding.names_shared w none _ own h) _

/-- The world after a call; as it was where there is no such call. -/
def after (t : TypedThunk) (w : World) (target : TypedTarget) (q : TypedRequest t.type) : World :=
  match t.answer w (target.own w) q with
  | some x => (x.settle target.object?).2
  | none => w

/-- The addresses that a call writes: those that the member writes, unless the call is refused. -/
def Writes (t : TypedThunk) (w : World) (target : TypedTarget) (q : TypedRequest t.type)
    (a : Address) : Prop :=
  (∀ x e, t.answer w (target.own w) q = some x → x.result = .error e → e.isReport = true) ∧
    addressesOf target.object? (t.names w (target.own w) q) a

theorem within (t : TypedThunk) (w : World) (target : TypedTarget) (q : TypedRequest t.type) :
    w.Within (t.after w target q) (t.Writes w target q) := by
  unfold after
  cases hx : t.answer w (target.own w) q with
  | none => exact .refl w _
  | some x =>
    rcases done_or_refused x.result with hdone | ⟨e, he, hreport⟩
    · refine (within_names hx).lent.mono fun a ha => ⟨fun x' e hx' he => ?_, ha⟩
      obtain rfl := Option.some.inj (hx.symm.trans hx')
      exact hdone e he
    · have hsame : (x.settle target.object?).2 = w := by
        rcases answer_error hx he with ⟨-, hown, hw⟩ | ⟨_, _, _, -, _, _, _, -, rfl, -⟩
        · cases target with
          | object o =>
            have hlent : x.receiver = (some o).map w.contents := hown
            exact Effect.settle_world hlent hw
          | nothing => exact hw
          | contents s => exact hw
        · cases hreport
      dsimp only
      rw [hsame]
      exact .refl w _

end TypedThunk

/-! ## Accessors -/

/-- The compiled operation that a call of an accessor goes to, with its request. There is none where
the accessor has no such call, or no getter or setter. -/
def Accessor.operation? (a : Accessor) (q : Request) : Option (Thunk × Request) :=
  match a, q with
  | .calls a, .invoke target args =>
    match a.descriptor.role with
    | .constructor => some (a.thunk, .construct args)
    | _ => some (a.thunk, .invoke target args)
  | .holds a, .get target index => a.getter.map fun t => (t, .get target (a.index index))
  | .holds a, .set target index v => a.setter.map fun t => (t, .set target (a.index index) v)
  | _, _ => none

/-- The world after a call; as it was where there is no such call. -/
def Accessor.after (a : Accessor) (w : World) (q : Request) : World :=
  match a.answer w q with
  | some x => x.2
  | none => w

theorem Accessor.after_eq (a : Accessor) (w : World) (q : Request) :
    a.after w q = match a.operation? q with
      | some p => (p.1.answer w p.2).2
      | none => w := by
  unfold Accessor.after
  cases a with
  | calls a =>
    cases q with
    | invoke target args =>
      simp only [Accessor.answer, Accessor.operation?, CallAccessor.invoke]
      cases a.descriptor.role <;> rfl
    | _ => rfl
  | holds a =>
    cases q with
    | get target index =>
      simp only [Accessor.answer, Accessor.operation?, ValueAccessor.get]
      cases a.getter <;> rfl
    | set target index v =>
      simp only [Accessor.answer, Accessor.operation?, ValueAccessor.set]
      cases a.setter <;> rfl
    | _ => rfl

/-- The compiled operation that a call of a typed accessor goes to, with its request. -/
def TypedAccessor.operation? (a : TypedAccessor) (q : TypedRequest a.type) :
    Option ((t : TypedThunk) × TypedRequest t.type) :=
  match a, q with
  | constructor host a, q => some ⟨.construct host a.thunk, q⟩
  | reconstructor host a, q => some ⟨.reconstruct host a.thunk, q⟩
  | method host result a, q => some ⟨.invoke host result a.thunk, q⟩
  | value host type a, .get index => a.getter.map fun t => ⟨.read host type t, .get (a.index index)⟩
  | value host type a, .set index x =>
    a.setter.map fun t => ⟨.write host type t, .set (a.index index) x⟩
  | value _ _ _, .invoke _ => none

/-- The world after a call; as it was where there is no such call. -/
def TypedAccessor.after (a : TypedAccessor) (w : World) (target : TypedTarget)
    (q : TypedRequest a.type) : World :=
  match a.answer w (target.own w) q with
  | some x => (x.settle target.object?).2
  | none => w

theorem settle_lent_refused {α : Type} (e : AccessError) (w : World) (target : TypedTarget) :
    ((Effect.refused e (target.own w) w : Effect α).settle target.object?).2 = w := by
  cases target with
  | object o => exact congrArg Prod.snd (Effect.settle_refused e w (some o))
  | nothing => rfl
  | contents s => rfl

theorem TypedAccessor.after_eq (a : TypedAccessor) (w : World) (target : TypedTarget)
    (q : TypedRequest a.type) :
    a.after w target q = match a.operation? q with
      | some p => p.1.after w target p.2
      | none => w := by
  unfold TypedAccessor.after
  cases a with
  | value host type a =>
    cases q with
    | invoke args => rfl
    | get index =>
      simp only [TypedAccessor.answer, TypedAccessor.operation?, TypedValueAccessor.get]
      cases a.getter with
      | some t => rfl
      | none => exact settle_lent_refused _ w target
    | set index x =>
      simp only [TypedAccessor.answer, TypedAccessor.operation?, TypedValueAccessor.set]
      cases a.setter with
      | some t => rfl
      | none => exact settle_lent_refused _ w target
  | _ => rfl

/-! ## Any call -/

/-- A call of a compiled operation or of an accessor, with what it is given. -/
inductive Call where
  | thunk (t : Thunk) (q : Request)
  | accessor (a : Accessor) (q : Request)
  | typedThunk (t : TypedThunk) (target : TypedTarget) (q : TypedRequest t.type)
  | typedAccessor (a : TypedAccessor) (target : TypedTarget) (q : TypedRequest a.type)

namespace Call

def after (w : World) : Call → World
  | thunk t q => (t.answer w q).2
  | accessor a q => a.after w q
  | typedThunk t target q => t.after w target q
  | typedAccessor a target q => a.after w target q

def Writes (w : World) (c : Call) (address : Address) : Prop :=
  match c with
  | thunk t q => t.Writes w q address
  | accessor a q => ∃ p, a.operation? q = some p ∧ p.1.Writes w p.2 address
  | typedThunk t target q => t.Writes w target q address
  | typedAccessor a target q => ∃ p, a.operation? q = some p ∧ p.1.Writes w target p.2 address

theorem within (w : World) (c : Call) : w.Within (c.after w) (c.Writes w) := by
  cases c with
  | thunk t q => exact t.within w q
  | typedThunk t target q => exact t.within w target q
  | accessor a q =>
    show w.Within (a.after w q) _
    rw [a.after_eq]
    cases hp : a.operation? q with
    | none => exact .refl w _
    | some p => exact (p.1.within w p.2).mono fun address h => ⟨p, hp, h⟩
  | typedAccessor a target q =>
    show w.Within (a.after w target q) _
    rw [a.after_eq]
    cases hp : a.operation? q with
    | none => exact .refl w _
    | some p => exact (p.1.within w target p.2).mono fun address h => ⟨p, hp, h⟩

end Call

end MemberAccess
