import MemberAccess.Proofs.Call.Reference

/-!
# Runs on a receiver that serves

What the typed run of a descriptor's binding does once the checks of a call have passed: then the
arguments fit the parameters up to the empty type, and a receiver is there wherever one is needed.

* `Descriptor.Served`, `Descriptor.worksOn`, `Descriptor.leaving`: the receiver, the slots that the
  member works on, and a run that leaves others in their place.
* `Descriptor.read_eq` and its like: the runs as equations, with the late faults.
-/

namespace MemberAccess

namespace Descriptor

/-- A receiver is there, if the member needs one. -/
def Served (d : Descriptor) (own : Option Slots) : Prop := d.isStatic = false → own ≠ none

def worksOn (d : Descriptor) (w : World) (own : Option Slots) : Slots :=
  if d.isStatic then w.statics else own.getD .empty

/-- A run that leaves other slots in their place. -/
def leaving {α : Type} (d : Descriptor) (r : Except AccessError α) (own : Option Slots) (w : World)
    (s : Slots) : Effect α :=
  if d.isStatic then ⟨r, own, { w with statics := s }⟩ else ⟨r, some s, w⟩

variable {d : Descriptor} {w : World} {own : Option Slots} {args : List Value}

theorem leaving_result {α : Type} (r : Except AccessError α) (s : Slots) :
    (d.leaving r own w s).result = r := by
  unfold leaving
  cases d.isStatic <;> rfl

theorem lateArgument_eq {types : List StaticType}
    (hparameters : d.parameters = types.map StaticType.handle) :
    d.lateArgument args =
      (Arguments.firstLate (types.map StaticType.handle) args).map lateRefusal := by
  unfold lateArgument
  rw [hparameters]

theorem coerce_ofParameters_of {types : List StaticType}
    (hparameters : d.parameters = types.map StaticType.handle)
    (hargs : d.argumentPlan.coerce d.qualifiedName args = .ok args) :
    (ArgumentPlan.ofParameters (types.map StaticType.handle)).coerce d.qualifiedName args =
      .ok args := by
  rw [← hparameters]
  exact hargs

/-! ## Constructors -/

section constructor

variable {k : Construction} (hk : d.member.IsConstructor k)
  (hargs : d.argumentPlan.coerce d.qualifiedName args = .ok args)

include hk hargs

theorem build_eq : k.build args =
    match d.lateArgument args with
    | some e => .error e
    | none => .ok (k.contents args) := by
  rw [lateArgument_eq hk.parameters,
    Construction.build_of_coerce (coerce_ofParameters_of hk.parameters hargs)]
  cases Arguments.firstLate (k.parameters.map StaticType.handle) args <;> rfl

theorem rebuildOver_eq (hstatic : d.isStatic = false) : k.rebuildOver w own args =
    match d.lateArgument args with
    | some e => .refused e own w
    | none => d.leaving (.ok ()) own w (k.contents args) := by
  unfold Construction.rebuildOver leaving
  rw [build_eq hk hargs, hstatic]
  cases d.lateArgument args <;> rfl

end constructor

/-! ## Attributes -/

section value

variable {type : StaticType} {a : Attribute type} (ha : d.member.IsAttribute a)

include ha

/-- A static member takes no index, so nothing is wrong with it. -/
theorem lateArgument_of_isShared (hshared : a.location.isShared = true) :
    d.lateArgument args = none := by
  rw [lateArgument_eq ha.parameters, Location.index_of_isShared hshared]
  rfl

variable (hrole : d.role.holdsValue = true)
  (hargs : d.argumentPlan.coerce d.qualifiedName args = .ok args) (hserved : d.Served own)

include hrole hargs hserved

theorem read_eq : a.read w own args =
    match d.lateArgument args with
    | some e => .refused e own w
    | none =>
      let x := type.fit ((d.worksOn w own).get (a.location.key args)) w
      ⟨.ok x.1, own, x.2⟩ := by
  have hstatic := isStatic_eq_of_value ha hrole
  unfold worksOn
  cases hshared : a.location.isShared with
  | true =>
    rw [lateArgument_of_isShared ha hshared, hstatic, hshared]
    exact Attribute.read_of_isShared w own args hshared
  | false =>
    rw [lateArgument_eq ha.parameters, hstatic, hshared]
    cases own with
    | none => exact absurd rfl (hserved (hstatic.trans hshared))
    | some slots =>
      have hindex := coerce_ofParameters_of ha.parameters hargs
      rw [Attribute.read_of_coerce w args hindex hshared slots]
      cases Arguments.firstLate (a.location.index.map StaticType.handle) args <;> rfl

theorem write_eq (x : type.Carrier) : a.write w own args x =
    match d.lateArgument args with
    | some e => .refused e own w
    | none => d.leaving (.ok ()) own w
        ((d.worksOn w own).set (a.location.key args) (type.toValue x)) := by
  have hstatic := isStatic_eq_of_value ha hrole
  unfold worksOn leaving
  cases hshared : a.location.isShared with
  | true =>
    rw [lateArgument_of_isShared ha hshared, hstatic, hshared]
    exact Attribute.write_of_isShared w own args hshared x
  | false =>
    rw [lateArgument_eq ha.parameters, hstatic, hshared]
    cases own with
    | none => exact absurd rfl (hserved (hstatic.trans hshared))
    | some slots =>
      rw [Attribute.write_of_coerce w args (coerce_ofParameters_of ha.parameters hargs) hshared
        slots x]
      cases Arguments.firstLate (a.location.index.map StaticType.handle) args <;> rfl

theorem writeConverted_eq {v : Value} (hfits : d.member.valueType.rejects v = false) :
    a.writeConverted w own args v =
      match d.lateAssigned v with
      | some e => .refused e own w
      | none =>
        match d.lateArgument args with
        | some e => .refused e own w
        | none => d.leaving (.ok ()) own w ((d.worksOn w own).set (a.location.key args) v) := by
  have hhandle : d.member.valueType = type.handle := ha.valueType
  unfold lateAssigned
  rw [hhandle] at hfits ⊢
  by_cases hlate : type.handle.rejectsLate v = true
  · rw [if_pos hlate]
    exact a.writeConverted_of_rejectsLate w own args hlate
  · rw [if_neg hlate]
    obtain ⟨x, -, rfl⟩ := StaticType.fromValue_of_accepts
      (TypeHandle.accepts_of_not_rejects hfits (Bool.eq_false_iff.2 hlate))
    rw [a.writeConverted_toValue, write_eq ha hrole hargs hserved]

end value

/-! ## Methods -/

section method

variable {result : StaticType} {f : Method result} (hf : d.member.IsMethod f)
  (hrole : d.role = .method) (hargs : d.argumentPlan.coerce d.qualifiedName args = .ok args)
  (hserved : d.Served own)

include hf hrole hargs hserved

theorem invoke_eq : f.invoke w own args =
    match d.lateArgument args with
    | some e => .refused e own w
    | none =>
      let x := f.body.run w.contents args (d.worksOn w own)
      d.leaving (f.conclude x.2 w).1 own (f.conclude x.2 w).2 x.1 := by
  have hstatic := isStatic_eq_of_method hf hrole
  have hreceiver : f.storage = .own → own ≠ none := by
    intro hown
    rw [hown] at hstatic
    exact hserved hstatic
  rw [lateArgument_eq hf.parameters,
    Method.invoke_of_coerce (coerce_ofParameters_of hf.parameters hargs) hreceiver]
  cases Arguments.firstLate (f.parameters.map StaticType.handle) args with
  | some v => rfl
  | none =>
    unfold Method.execute worksOn leaving
    rw [hstatic]
    cases hstorage : f.storage with
    | shared =>
      dsimp only [Option.map_none]
      rw [f.conclude_withStatics]
      rfl
    | own =>
      cases own with
      | none => exact absurd rfl (hreceiver hstorage)
      | some slots => rfl

end method

end Descriptor

end MemberAccess
