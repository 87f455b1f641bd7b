import Mathlib.Data.List.Forall2
import MemberAccess.Proofs.Member.Writes
import MemberAccess.Proofs.Steps
import MemberAccess.Proofs.Thunk.Prepared

/-!
# Uses of bindings

A binding that is not a constructor is read, written or called, in its typed form on the contents
of an instance or in its erased form on an object. What it is there to do, its action, only knows
the slots that it works on. Here the two forms are tied to the action: they perform it where a
receiver is there or none is needed and the arguments are of the types that the binding unpacks,
and they are refused without it otherwise.

* `Arguments.Fit`: a vector of values for a list of parameter types; `Arguments.unpack_isOk_iff`.
* `Action`, `Storage.perform`: what is done to slots, and the same with a receiver or without.
* `Binding.Use`: one use of a binding, with its two forms and its action.
* `Binding.Use.typed_of_fit`, `typed_without_receiver`, `typed_of_not_fit`, `erased_eq`: the forms
  as equations.
-/

namespace MemberAccess

/-! ## Vectors that fit -/

namespace Arguments

/-- There is a value for every place, and each is accepted in its own. -/
def Fit (types : List TypeHandle) (args : List Value) : Prop :=
  List.Forall₂ (fun t v => t.accepts v = true) types args

variable {parameters : List StaticType} {args : List Value}

theorem convert_isOk_iff (hlength : args.length = parameters.length) :
    (∃ xs, convert parameters args = .ok xs) ↔ Fit (parameters.map StaticType.handle) args := by
  induction parameters generalizing args with
  | nil =>
    obtain rfl := List.eq_nil_of_length_eq_zero hlength
    exact iff_of_true ⟨(), rfl⟩ .nil
  | cons t ts ih =>
    cases args with
    | nil => cases hlength
    | cons v vs =>
      have hrest := ih (Nat.succ.inj hlength)
      unfold Fit at hrest ⊢
      rw [List.map_cons, List.forall₂_cons, ← hrest, convert]
      rcases t.fromValue_cases v with ⟨haccepts, x, hx, -⟩ | ⟨haccepts, he⟩
      · rw [hx]
        cases convert ts vs with
        | error e => simp
        | ok xs => exact iff_of_true ⟨(x, xs), rfl⟩ ⟨haccepts, xs, rfl⟩
      · rw [he, haccepts]
        simp

theorem unpack_isOk_iff :
    (∃ xs, unpack parameters args = .ok xs) ↔ Fit (parameters.map StaticType.handle) args := by
  unfold unpack
  split
  · rename_i hlength
    exact convert_isOk_iff hlength
  · rename_i hlength
    refine iff_of_false (fun ⟨_, h⟩ => nomatch h) fun hfit => hlength ?_
    rw [← hfit.length_eq, List.length_map]

theorem unpack_of_not_fit (h : ¬ Fit (parameters.map StaticType.handle) args) :
    ∃ e, unpack parameters args = .error e := by
  cases hunpack : unpack parameters args with
  | error e => exact ⟨e, rfl⟩
  | ok xs => exact absurd (unpack_isOk_iff.1 ⟨xs, hunpack⟩) h

theorem exists_fit (parameters : List StaticType) :
    ∃ args, Fit (parameters.map StaticType.handle) args := by
  induction parameters with
  | nil => exact ⟨[], .nil⟩
  | cons t ts ih =>
    obtain ⟨vs, hvs⟩ := ih
    exact ⟨_, .cons (t.accepts_toValue (t.substitute .empty).1) hvs⟩

end Arguments

theorem Construction.build_of_fit {k : Construction} {args : List Value}
    (h : Arguments.Fit (k.parameters.map StaticType.handle) args) :
    k.build args = .ok (k.contents args) := by
  obtain ⟨xs, hunpack⟩ := Arguments.unpack_isOk_iff.2 h
  exact build_of_unpack hunpack

theorem Construction.build_of_not_fit {k : Construction} {args : List Value}
    (h : ¬ Arguments.Fit (k.parameters.map StaticType.handle) args) :
    ∃ e, Arguments.unpack k.parameters args = .error e ∧ k.build args = .error (.value e) := by
  obtain ⟨e, hunpack⟩ := Arguments.unpack_of_not_fit h
  exact ⟨e, hunpack, build_of_unpack_error hunpack⟩

/-! ## Actions -/

/-- What a getter, a setter or a method returns or fails with, and the slots and the world that it
leaves. -/
structure Ending where
  result : Except AccessError Value
  slots : Slots
  world : World

/-- What a getter, a setter or a method does to the slots that it works on. -/
abbrev Action := World → Slots → Ending

/-- Performs an action on the shared slots, whatever the receiver, or on those of the receiver. -/
def Storage.perform (storage : Storage) (act : Action) (w : World) (receiver : Option Slots) :
    Effect Value :=
  match storage, receiver with
  | .shared, _ =>
    let x := act w w.statics
    ⟨x.result, receiver, { x.world with statics := x.slots }⟩
  | .own, some slots =>
    let x := act w slots
    ⟨x.result, some x.slots, x.world⟩
  | .own, none => .refused missingReceiver receiver w

def Attribute.reading {type : StaticType} (a : Attribute type) (index : List Value) : Action :=
  fun w slots =>
    let x := type.fit (slots.get (a.location.key index)) w
    ⟨.ok (type.toValue x.1), slots, x.2⟩

def Attribute.writing {type : StaticType} (a : Attribute type) (index : List Value)
    (x : type.Carrier) : Action :=
  fun w slots => ⟨.ok .null, slots.set (a.location.key index) (type.toValue x), w⟩

def Method.calling {result : StaticType} (m : Method result) (args : List Value) : Action :=
  fun w slots =>
    let x := m.body.run w.contents args slots
    let y := m.conclude x.2 w
    ⟨y.1.map result.toValue, x.1, y.2⟩

theorem Method.calling_ne_missing {result : StaticType} (m : Method result) (args : List Value)
    (w : World) (slots : Slots) : (m.calling args w slots).result ≠ .error missingReceiver := by
  intro h
  obtain ⟨name, report, -, hfailed, -⟩ := m.conclude_error (map_eq_error_iff.1 h)
  cases hfailed

/-! ## Locations and methods -/

namespace Location

def isElement : Location → Bool
  | slot _ _ => false
  | element _ _ => true

variable {l : Location} {index : List Value}

theorem isShared_of_storage (h : l.storage = .shared) : l.isShared = true := by
  by_contra hshared
  rw [l.storage_eq, if_neg hshared] at h
  cases h

theorem resolve_without_receiver (hown : l.storage = .own) (index : List Value) :
    l.resolve none index = .error missingReceiver := by
  cases l with
  | slot storage name =>
    obtain rfl : storage = .own := hown
    rfl
  | element name types => rfl

theorem resolve_of_fit (hown : l.storage = .own)
    (h : Arguments.Fit (l.index.map StaticType.handle) index) (slots : Slots) :
    l.resolve (some slots) index = .ok (.own slots (l.key index)) := by
  cases l with
  | slot storage name =>
    obtain rfl : storage = .own := hown
    rfl
  | element name types =>
    have hindex : Arguments.Fit (types.map StaticType.handle) index := h
    obtain ⟨xs, hunpack⟩ := Arguments.unpack_isOk_iff.2 hindex
    exact resolve_of_unpack slots hunpack

theorem storage_of_isElement (h : l.isElement = true) : l.storage = .own := by
  cases l with
  | slot storage name => cases h
  | element name types => rfl

theorem resolve_of_not_fit (helement : l.isElement = true)
    (h : ¬ Arguments.Fit (l.index.map StaticType.handle) index) (slots : Slots) :
    ∃ e, Arguments.unpack l.index index = .error e ∧
      l.resolve (some slots) index = .error (.value e) := by
  cases l with
  | slot storage name => cases helement
  | element name types =>
    have hindex : ¬ Arguments.Fit (types.map StaticType.handle) index := h
    obtain ⟨e, hunpack⟩ := Arguments.unpack_of_not_fit hindex
    exact ⟨e, hunpack, resolve_of_unpack_error slots hunpack⟩

end Location

namespace Attribute

variable {type : StaticType} {a : Attribute type} {index : List Value}

theorem read_of_error {own : Option Slots} {e : AccessError}
    (h : a.location.resolve own index = .error e) (w : World) :
    a.read w own index = .refused e own w := by
  unfold read
  rw [h]

theorem write_of_error {own : Option Slots} {e : AccessError}
    (h : a.location.resolve own index = .error e) (w : World) (x : type.Carrier) :
    a.write w own index x = .refused e own w := by
  unfold write
  rw [h]

theorem read_of_fit (h : Arguments.Fit (a.location.index.map StaticType.handle) index) (w : World)
    (own : Option Slots) :
    (a.read w own index).map type.toValue =
      a.location.storage.perform (a.reading index) w own := by
  cases hstorage : a.location.storage with
  | shared =>
    -- a substitute may be a new instance, but it leaves the shared slots
    have hstatics := type.statics_fit (w.statics.get (a.location.key index)) w
    rw [read_of_isShared w own index (Location.isShared_of_storage hstorage)]
    unfold Storage.perform reading Effect.map
    dsimp only
    congr 1
    exact congrArg (World.mk _) hstatics
  | own =>
    cases own with
    | none =>
      rw [read_of_error (Location.resolve_without_receiver hstorage index)]
      rfl
    | some slots =>
      unfold read
      rw [Location.resolve_of_fit hstorage h]
      rfl

theorem write_of_fit (h : Arguments.Fit (a.location.index.map StaticType.handle) index) (w : World)
    (own : Option Slots) (x : type.Carrier) :
    (a.write w own index x).asNull =
      a.location.storage.perform (a.writing index x) w own := by
  cases hstorage : a.location.storage with
  | shared =>
    rw [write_of_isShared w own index (Location.isShared_of_storage hstorage)]
    rfl
  | own =>
    cases own with
    | none =>
      rw [write_of_error (Location.resolve_without_receiver hstorage index)]
      rfl
    | some slots =>
      unfold write
      rw [Location.resolve_of_fit hstorage h]
      rfl

end Attribute

namespace Method

variable {result : StaticType} (m : Method result)

theorem invoke_without_receiver (hown : m.storage = .own) (w : World) (args : List Value) :
    m.invoke w none args = .refused missingReceiver none w :=
  if_pos ⟨hown, rfl⟩

theorem execute_eq_perform (w : World) (own : Option Slots) (args : List Value) :
    (m.execute w own args).map result.toValue = m.storage.perform (m.calling args) w own := by
  unfold execute
  cases m.storage with
  | shared =>
    dsimp only
    rw [m.conclude_withStatics]
    rfl
  | own => cases own <;> rfl

theorem invoke_of_fit {args : List Value}
    (h : Arguments.Fit (m.parameters.map StaticType.handle) args) (w : World)
    (own : Option Slots) :
    (m.invoke w own args).map result.toValue = m.storage.perform (m.calling args) w own := by
  by_cases hserved : m.storage = .own → own ≠ none
  · obtain ⟨xs, hunpack⟩ := Arguments.unpack_isOk_iff.2 h
    rw [m.invoke_of_served hserved, hunpack, ← m.execute_eq_perform]
    dsimp only
    rw [Arguments.box_of_unpack hunpack]
  · obtain ⟨hown, hnone⟩ := Classical.not_imp.1 hserved
    obtain rfl := not_not.1 hnone
    rw [m.invoke_without_receiver hown, hown]
    rfl

end Method

/-! ## Uses -/

namespace Binding

/-- The slots that a binding works on; a constructor works on those of its instance. -/
def storage : Binding → Storage
  | construction _ => .own
  | value _ a => a.location.storage
  | method _ m => m.storage

/-- The types that a binding unpacks its arguments as. -/
def parameters : Binding → List StaticType
  | construction k => k.parameters
  | value _ a => a.location.index
  | method _ m => m.parameters

/-- The binding unpacks its arguments; that of a plain slot ignores them. -/
def unpacks : Binding → Bool
  | value _ a => a.location.isElement
  | construction _ | method _ _ => true

/-- One use of a binding on a receiver or without one: a read where there is a getter, a write where
there is a setter, or a call. -/
inductive Use : Binding → Type where
  | get (type : StaticType) (a : Attribute type) (bound : a.hasGetter = true)
      (index : List Value) : Use (.value type a)
  | set (type : StaticType) (a : Attribute type) (bound : a.hasSetter = true)
      (index : List Value) (x : type.Carrier) : Use (.value type a)
  | call (result : StaticType) (m : Method result) (args : List Value) : Use (.method result m)

namespace Use

variable {b : Binding}

def arguments : b.Use → List Value
  | get _ _ _ index | set _ _ _ index _ => index
  | call _ _ args => args

/-- The typed form, on the contents of an instance or on nothing; its result is boxed here. -/
def typed (u : b.Use) (w : World) (own : Option Slots) : Effect Value :=
  match u with
  | get type a _ index => (a.read w own index).map type.toValue
  | set _ a _ index x => (a.write w own index x).asNull
  | call result m args => (m.invoke w own args).map result.toValue

/-- The erased form, on an object or on nothing; it is given the boxed value. -/
def erased (u : b.Use) (host : HostClass) (w : World) (receiver : Option ObjectRef) :
    Outcome Value :=
  match u with
  | get _ a _ index => a.readValue host w receiver index
  | set type a _ index x => (a.writeValue host w receiver index (type.toValue x)).asNull
  | call _ m args => m.invokeValue host w receiver args

/-- What the binding is there to do. -/
def action : b.Use → Action
  | get _ a _ index => a.reading index
  | set _ a _ index x => a.writing index x
  | call _ m args => m.calling args

variable (u : b.Use) (w : World)

theorem typed_of_fit (h : Arguments.Fit (b.parameters.map StaticType.handle) u.arguments)
    (own : Option Slots) : u.typed w own = b.storage.perform u.action w own := by
  cases u with
  | get type a _ index => exact Attribute.read_of_fit h w own
  | set type a _ index x => exact Attribute.write_of_fit h w own x
  | call result m args => exact m.invoke_of_fit h w own

theorem typed_without_receiver (hown : b.storage = .own) :
    u.typed w none = .refused missingReceiver none w := by
  cases u with
  | get type a _ index =>
    have hresolve := Location.resolve_without_receiver hown index
    exact congrArg (Effect.map type.toValue) (Attribute.read_of_error hresolve w)
  | set type a _ index x =>
    have hresolve := Location.resolve_without_receiver hown index
    exact congrArg Effect.asNull (Attribute.write_of_error hresolve w x)
  | call result m args =>
    exact congrArg (Effect.map result.toValue) (m.invoke_without_receiver hown w args)

/-- Arguments that do not fit are refused as unpacking refuses them, unless they are ignored. -/
theorem typed_of_not_fit (hunpacks : b.unpacks = true)
    (h : ¬ Arguments.Fit (b.parameters.map StaticType.handle) u.arguments) {own : Option Slots}
    (hserved : b.storage = .own → own ≠ none) :
    ∃ e, Arguments.unpack b.parameters u.arguments = .error e ∧
      u.typed w own = .refused (.value e) own w := by
  cases u with
  | get type a _ index =>
    obtain ⟨slots, rfl⟩ :=
      Option.ne_none_iff_exists'.1 (hserved (Location.storage_of_isElement hunpacks))
    obtain ⟨e, hunpack, hresolve⟩ := Location.resolve_of_not_fit hunpacks h slots
    exact ⟨e, hunpack, congrArg (Effect.map type.toValue) (Attribute.read_of_error hresolve w)⟩
  | set type a _ index x =>
    obtain ⟨slots, rfl⟩ :=
      Option.ne_none_iff_exists'.1 (hserved (Location.storage_of_isElement hunpacks))
    obtain ⟨e, hunpack, hresolve⟩ := Location.resolve_of_not_fit hunpacks h slots
    exact ⟨e, hunpack, congrArg Effect.asNull (Attribute.write_of_error hresolve w x)⟩
  | call result m args =>
    obtain ⟨e, hunpack⟩ := Arguments.unpack_of_not_fit h
    have hmethod : Arguments.unpack m.parameters args = .error e := hunpack
    refine ⟨e, hunpack, ?_⟩
    unfold typed
    dsimp only
    rw [m.invoke_of_served hserved, hmethod]
    rfl

theorem erased_eq {host : HostClass} {receiver : Option ObjectRef}
    (hhost : ∀ o ∈ receiver, o.host = host) :
    u.erased host w receiver = (u.typed w (receiver.map w.contents)).settle receiver := by
  cases u with
  | get type a _ index => exact onReceiver_eq hhost w fun own => (a.read w own index).map _
  | set type a _ index x =>
    unfold erased typed Attribute.writeValue Outcome.asNull
    dsimp only
    rw [onReceiver_eq hhost, a.writeConverted_toValue, Effect.asNull, Effect.settle_map]
  | call result m args => exact onReceiver_eq hhost w fun own => (m.invoke w own args).map _

theorem ne_construction {b : Binding} (u : b.Use) (k : Construction) : b ≠ .construction k := by
  rintro rfl
  cases u

theorem action_ne_missing (slots : Slots) :
    (u.action w slots).result ≠ .error missingReceiver := by
  cases u with
  | get type a _ index => exact nofun
  | set type a _ index x => exact nofun
  | call result m args => exact m.calling_ne_missing args w slots

end Use

theorem exists_use {b : Binding} (hform : ∀ k, b ≠ .construction k)
    (hoffered : b.hasGetter = true ∨ b.hasSetter = true) :
    ∃ u : b.Use, Arguments.Fit (b.parameters.map StaticType.handle) u.arguments := by
  obtain ⟨args, hfit⟩ := Arguments.exists_fit b.parameters
  cases b with
  | construction k => exact absurd rfl (hform k)
  | value type a =>
    rcases hoffered with hget | hset
    · exact ⟨.get type a hget args, hfit⟩
    · exact ⟨.set type a hset args (type.substitute .empty).1, hfit⟩
  | method result m => exact ⟨.call result m args, hfit⟩

end Binding

end MemberAccess
