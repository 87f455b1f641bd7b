import MemberAccess.Proofs.Member.Registered
import MemberAccess.Proofs.Plan.Arguments
import MemberAccess.Proofs.World.Growth

/-!
# Runs of bindings

What the typed run of a binding does with arguments that passed the plan of its parameters, and
with a receiver wherever it needs one. Then the arguments are taken as they are, unless one of them
stands in a place of the empty type.

* `Construction.build_of_unpack`, `Location.resolve_of_unpack`, `Method.invoke_of_served`: the runs
  by what unpacking gives.
* `Construction.build_of_coerce`, `Location.resolve_of_coerce`, `Method.invoke_of_coerce`: the runs
  as equations.
* `Attribute.grown_read` and its like: a run leaves all cells that exist as they are.
-/

namespace MemberAccess

/-- A value that only the member refuses, as its error. -/
def lateRefusal (v : Value) : AccessError := .value (.typeMismatch .void v.typeName)

/-! ## Constructions -/

/-- The contents of a new instance whose arguments all fit. -/
def Construction.contents (k : Construction) (args : List Value) : Slots :=
  Slots.ofList (k.slots.zip args)

theorem Construction.build_of_unpack {k : Construction} {args : List Value}
    {xs : Arguments k.parameters} (h : Arguments.unpack k.parameters args = .ok xs) :
    k.build args = .ok (k.contents args) := by
  unfold build
  rw [h]
  show Except.ok (k.contents (Arguments.box k.parameters xs)) = _
  rw [Arguments.box_of_unpack h]

theorem Construction.build_of_unpack_error {k : Construction} {args : List Value} {e : ValueError}
    (h : Arguments.unpack k.parameters args = .error e) : k.build args = .error (.value e) := by
  unfold build
  rw [h]

theorem Construction.build_of_coerce {k : Construction} {member : String}
    {args passed : List Value}
    (h : (ArgumentPlan.ofParameters (k.parameters.map StaticType.handle)).coerce member args =
      .ok passed) :
    k.build args =
      match Arguments.firstLate (k.parameters.map StaticType.handle) args with
      | some v => .error (lateRefusal v)
      | none => .ok (k.contents args) := by
  rcases Arguments.unpack_cases_of_coerce h with ⟨v, hlate, hunpack⟩ | ⟨hlate, xs, hunpack, -⟩
  · rw [build_of_unpack_error hunpack, hlate]
    rfl
  · rw [build_of_unpack hunpack, hlate]

theorem Construction.grown_rebuildOver (k : Construction) (w : World) (receiver : Option Slots)
    (args : List Value) : w.Grown (k.rebuildOver w receiver args).world := by
  unfold rebuildOver
  cases k.build args <;> exact .of_cells rfl

/-! ## Locations -/

namespace Location

/-- The name of the slot that a location means for an index vector. -/
def key (l : Location) (index : List Value) : String :=
  match l with
  | .slot _ name => name
  | .element name _ => elementSlot name index

theorem resolve_of_isShared {l : Location} (h : l.isShared = true) (receiver : Option Slots)
    (index : List Value) : l.resolve receiver index = .ok (.shared (l.key index)) := by
  cases l with
  | slot storage name =>
    cases storage with
    | own => cases h
    | shared => cases receiver <;> rfl
  | element name types => cases h

theorem index_of_isShared {l : Location} (h : l.isShared = true) : l.index = [] := by
  cases l with
  | slot storage name => rfl
  | element name types => cases h

section element

variable {name : String} {types : List StaticType} {index : List Value} (slots : Slots)

theorem resolve_of_unpack {xs : Arguments types} (h : Arguments.unpack types index = .ok xs) :
    (element name types).resolve (some slots) index =
      .ok (.own slots (elementSlot name index)) := by
  simp only [resolve, h, Arguments.box_of_unpack h]

theorem resolve_of_unpack_error {e : ValueError} (h : Arguments.unpack types index = .error e) :
    (element name types).resolve (some slots) index = .error (.value e) := by
  simp only [resolve, h]

end element

theorem resolve_of_coerce {l : Location} {member : String} {args passed : List Value}
    (h : (ArgumentPlan.ofParameters (l.index.map StaticType.handle)).coerce member args =
      .ok passed) (hown : l.isShared = false) (slots : Slots) :
    l.resolve (some slots) args =
      match Arguments.firstLate (l.index.map StaticType.handle) args with
      | some v => .error (lateRefusal v)
      | none => .ok (.own slots (l.key args)) := by
  cases l with
  | slot storage name =>
    cases storage with
    | own => rfl
    | shared => cases hown
  | element name types =>
    simp only [index, key] at h ⊢
    rcases Arguments.unpack_cases_of_coerce h with ⟨v, hlate, hunpack⟩ | ⟨hlate, xs, hunpack, -⟩
    · rw [resolve_of_unpack_error slots hunpack, hlate]
      rfl
    · rw [resolve_of_unpack slots hunpack, hlate]

end Location

/-! ## Attributes -/

namespace Attribute

variable {type : StaticType} (a : Attribute type) (w : World) (receiver : Option Slots)
  (index : List Value)

theorem write_congr {x y : type.Carrier} (h : type.toValue x = type.toValue y) :
    a.write w receiver index x = a.write w receiver index y := by
  unfold write
  rw [h]

theorem writeConverted_of_rejectsLate {v : Value} (h : type.handle.rejectsLate v = true) :
    a.writeConverted w receiver index v = .refused (lateRefusal v) receiver w := by
  unfold writeConverted
  rw [StaticType.fromValue_of_rejectsLate h]
  rfl

theorem writeConverted_toValue (x : type.Carrier) :
    a.writeConverted w receiver index (type.toValue x) = a.write w receiver index x := by
  obtain ⟨y, hy, hback⟩ := StaticType.fromValue_of_accepts (type.accepts_toValue x)
  unfold writeConverted
  rw [hy]
  exact a.write_congr w receiver index hback

section shared

variable {a} (h : a.location.isShared = true)

include h

theorem read_of_isShared :
    a.read w receiver index =
      ⟨.ok (type.fit (w.statics.get (a.location.key index)) w).1, receiver,
        (type.fit (w.statics.get (a.location.key index)) w).2⟩ := by
  unfold read
  rw [Location.resolve_of_isShared h]
  rfl

theorem write_of_isShared (x : type.Carrier) :
    a.write w receiver index x =
      ⟨.ok (), receiver,
        { w with statics := w.statics.set (a.location.key index) (type.toValue x) }⟩ := by
  unfold write
  rw [Location.resolve_of_isShared h]

end shared

section own

variable {a} {member : String} {passed : List Value}
  (h : (ArgumentPlan.ofParameters (a.location.index.map StaticType.handle)).coerce member index =
    .ok passed)
  (hown : a.location.isShared = false) (slots : Slots)

include h hown

theorem read_of_coerce :
    a.read w (some slots) index =
      match Arguments.firstLate (a.location.index.map StaticType.handle) index with
      | some v => .refused (lateRefusal v) (some slots) w
      | none => ⟨.ok (type.fit (slots.get (a.location.key index)) w).1, some slots,
          (type.fit (slots.get (a.location.key index)) w).2⟩ := by
  unfold read
  rw [Location.resolve_of_coerce h hown slots]
  cases Arguments.firstLate (a.location.index.map StaticType.handle) index <;> rfl

theorem write_of_coerce (x : type.Carrier) :
    a.write w (some slots) index x =
      match Arguments.firstLate (a.location.index.map StaticType.handle) index with
      | some v => .refused (lateRefusal v) (some slots) w
      | none => ⟨.ok (), some (slots.set (a.location.key index) (type.toValue x)), w⟩ := by
  unfold write
  rw [Location.resolve_of_coerce h hown slots]
  cases Arguments.firstLate (a.location.index.map StaticType.handle) index <;> rfl

end own

theorem grown_read : w.Grown (a.read w receiver index).world := by
  unfold read
  cases a.location.resolve receiver index with
  | error e => exact .of_cells rfl
  | ok place => exact type.grown_fit (place.get w) w

theorem grown_write (x : type.Carrier) : w.Grown (a.write w receiver index x).world := by
  unfold write
  cases a.location.resolve receiver index with
  | error e => exact .of_cells rfl
  | ok place => cases place <;> exact .of_cells rfl

end Attribute

/-! ## Methods -/

namespace Method

variable {result : StaticType}

theorem invoke_of_served (m : Method result) {own : Option Slots}
    (hserved : m.storage = .own → own ≠ none) (w : World) (args : List Value) :
    m.invoke w own args =
      match Arguments.unpack m.parameters args with
      | .error e => .refused (.value e) own w
      | .ok xs => m.execute w own (Arguments.box m.parameters xs) :=
  if_neg fun ⟨hown, hnone⟩ => hserved hown (Option.isNone_iff_eq_none.1 hnone)

theorem invoke_of_coerce {m : Method result} {member : String} {args passed : List Value}
    (h : (ArgumentPlan.ofParameters (m.parameters.map StaticType.handle)).coerce member args =
      .ok passed) {receiver : Option Slots} (hreceiver : m.storage = .own → receiver ≠ none)
    (w : World) :
    m.invoke w receiver args =
      match Arguments.firstLate (m.parameters.map StaticType.handle) args with
      | some v => .refused (lateRefusal v) receiver w
      | none => m.execute w receiver args := by
  rw [m.invoke_of_served hreceiver]
  rcases Arguments.unpack_cases_of_coerce h with ⟨v, hlate, hunpack⟩ | ⟨hlate, xs, hunpack, hbox⟩
  · rw [hunpack, hlate]
    rfl
  · rw [hunpack, hlate]
    show m.execute w receiver (Arguments.box m.parameters xs) = _
    rw [hbox]

theorem conclude_error {f : Method result} {outcome : Except String Value} {w : World}
    {e : AccessError} (h : (f.conclude outcome w).1 = .error e) :
    ∃ name report, f.reportsAs = some name ∧ e = .memberFailed name report ∧
      outcome = .error report := by
  unfold conclude at h
  split at h
  · cases h
  · rename_i report name hname
    cases h
    exact ⟨name, report, hname, rfl, rfl⟩
  · cases h

variable (m : Method result)

theorem conclude_withStatics (outcome : Except String Value) (w : World) (s : Slots) :
    m.conclude outcome { w with statics := s } =
      ((m.conclude outcome w).1, { (m.conclude outcome w).2 with statics := s }) := by
  unfold conclude
  cases outcome with
  | ok v =>
    dsimp only
    rw [result.fit_withStatics]
  | error report =>
    cases m.reportsAs with
    | some name => rfl
    | none =>
      dsimp only
      rw [result.fit_withStatics]

theorem grown_conclude (outcome : Except String Value) (w : World) :
    w.Grown (m.conclude outcome w).2 := by
  unfold conclude
  cases outcome with
  | ok v => exact result.grown_fit v w
  | error report =>
    cases m.reportsAs with
    | some name => exact .of_cells rfl
    | none => exact result.grown_fit .null w

theorem grown_execute (w : World) (receiver : Option Slots) (args : List Value) :
    w.Grown (m.execute w receiver args).world := by
  unfold execute
  cases m.storage with
  | shared =>
    obtain ⟨fresh, hcells, hfresh⟩ := m.grown_conclude (m.body.run w.contents args w.statics).2
      { w with statics := (m.body.run w.contents args w.statics).1 }
    exact ⟨fresh, hcells, hfresh⟩
  | own =>
    cases receiver with
    | none => exact .of_cells rfl
    | some slots => exact m.grown_conclude (m.body.run w.contents args slots).2 w

theorem grown_invoke (w : World) (receiver : Option Slots) (args : List Value) :
    w.Grown (m.invoke w receiver args).world := by
  unfold invoke
  split
  · exact .of_cells rfl
  · cases Arguments.unpack m.parameters args with
    | error e => exact .of_cells rfl
    | ok xs => exact m.grown_execute w receiver (Arguments.box m.parameters xs)

end Method

end MemberAccess
