import MemberAccess.Proofs.Call.Handover

/-!
# Well-formed plans

What all plans have in common, whichever member they are made for. An operation has a plan when the
member offers it; the plan has a place for each parameter, reaches the member as the descriptor
does, and puts null for a value nowhere but where an untyped setter of a reference may.

* `Coercion.Positional`, `Coercion.Assigned`: the coercion of a place by the kind of its type.
* `ArgumentPlan.coerce_eq_coerceEach`: without safe casts, checking a vector is coercing each value.
* `Descriptor.Offers`: the operations that have a plan; `Descriptor.plan_eq_ok_iff_offers`.
* `Descriptor.plan_eq_recoerced`: what the surface and the cast policy decide.
* `Plan.WellFormed`: the shape of a plan; `Descriptor.wellFormed_of_plan`.
* `plan_wellFormed_iff_offered`: all of it, for every descriptor.
-/

namespace MemberAccess

/-! ## Coercions by kind -/

namespace Coercion

/-- The coercion of an argument. -/
inductive Positional : TypeKind → Coercion → Prop where
  | any : Positional .any .identity
  | void : Positional .void .identity
  | value : Positional .value .unbox
  | reference : Positional .reference .hardCast

/-- The coercion of an assigned value. The untyped surface treats it as an argument, and the typed
one casts what it does not pass through; a safe cast is there for references only. -/
inductive Assigned : TypeKind → Surface → CastPolicy → Coercion → Prop where
  | any (surface : Surface) (policy : CastPolicy) : Assigned .any surface policy .identity
  | void (surface : Surface) (policy : CastPolicy) : Assigned .void surface policy .identity
  | cast (kind : TypeKind) (hkind : kind = .value ∨ kind = .reference) (policy : CastPolicy) :
      Assigned kind .typed policy .hardCast
  | unbox (policy : CastPolicy) : Assigned .value .untyped policy .unbox
  | strict : Assigned .reference .untyped .fail .hardCast
  | lenient : Assigned .reference .untyped .nullOnMismatch .safeCast

theorem positional_forParameter (t : TypeHandle) : Positional t.kind (forParameter t) := by
  unfold forParameter
  cases t.kind <;> constructor

theorem assigned_forAssigned (t : TypeHandle) (surface : Surface) (policy : CastPolicy) :
    Assigned t.kind surface policy (forAssigned t surface policy) := by
  unfold forAssigned
  cases hk : t.kind with
  | any => exact .any surface policy
  | void => exact .void surface policy
  | value =>
    cases surface with
    | untyped => exact .unbox policy
    | typed => exact .cast _ (.inl rfl) policy
  | reference =>
    cases surface with
    | typed => exact .cast _ (.inr rfl) policy
    | untyped => cases policy <;> constructor

theorem Positional.ne_safeCast {kind : TypeKind} {c : Coercion} (h : Positional kind c) :
    c ≠ .safeCast := by
  cases h <;> nofun

theorem Assigned.eq_safeCast_iff {kind : TypeKind} {surface : Surface} {policy : CastPolicy}
    {c : Coercion} (h : Assigned kind surface policy c) :
    c = .safeCast ↔ surface = .untyped ∧ kind = .reference ∧ policy = .nullOnMismatch := by
  cases h <;> simp

end Coercion

/-! ## Vectors without safe casts -/

theorem ArgumentSlot.eq_of_coerce {slot : ArgumentSlot} (hstrict : slot.coercion ≠ .safeCast)
    {member : String} {site : CastSite} {v passed : Value}
    (h : slot.coerce member site v = .ok passed) : passed = v := by
  unfold coerce at h
  split at h
  · exact (Except.ok.inj h).symm
  · rw [if_neg fun hsafe => hstrict hsafe.1] at h
    cases h

namespace ArgumentPlan

/-- Coerces a vector from left to right and keeps what each place makes of its value. -/
def coerceEach (member : String) : List ArgumentSlot → List Value → Except AccessError (List Value)
  | slot :: slots, v :: vs =>
    match slot.coerce member (.argument slot.position) v with
    | .error e => .error e
    | .ok passed => (coerceEach member slots vs).map (passed :: ·)
  | _, _ => .ok []

theorem coerceEach_of_strict (member : String) {slots : List ArgumentSlot} {args : List Value}
    (hstrict : ∀ slot ∈ slots, slot.coercion ≠ .safeCast) (hlength : args.length = slots.length) :
    coerceEach member slots args =
      match firstRefusal member slots args with
      | some e => .error e
      | none => .ok args := by
  induction slots generalizing args with
  | nil =>
    obtain rfl := List.eq_nil_of_length_eq_zero hlength
    rfl
  | cons slot slots ih =>
    cases args with
    | nil => cases hlength
    | cons v vs =>
      have htail := ih (fun s hs => hstrict s (List.mem_cons_of_mem _ hs)) (Nat.succ.inj hlength)
      rw [coerceEach, firstRefusal]
      cases hcoerce : slot.coerce member (.argument slot.position) v with
      | error e => rfl
      | ok passed =>
        -- the value stays what it was, so the two differ in what they return for the tail at most
        obtain rfl := ArgumentSlot.eq_of_coerce (hstrict slot List.mem_cons_self) hcoerce
        dsimp only
        rw [htail]
        cases firstRefusal member slots vs <;> rfl

/-- A plan may drop what its places make of the values, unless one of them has a safe cast. -/
theorem coerce_eq_coerceEach {p : ArgumentPlan}
    (hstrict : ∀ slot ∈ p.slots, slot.coercion ≠ .safeCast) (member : String) (args : List Value) :
    p.coerce member args =
      if args.length = p.arity then coerceEach member p.slots args
      else .error (.argumentCount member p.arity args.length) := by
  unfold coerce
  split
  · rename_i hlength
    exact (coerceEach_of_strict member hstrict hlength).symm
  · rfl

theorem getElem?_slotsFrom (start : Nat) (types : List TypeHandle) (i : Nat) :
    (slotsFrom start types)[i]? = types[i]?.map fun t => ⟨start + i, t, .forParameter t⟩ := by
  induction types generalizing start i with
  | nil => rfl
  | cons t ts ih =>
    cases i with
    | zero => rfl
    | succ i =>
      rw [slotsFrom, List.getElem?_cons_succ, List.getElem?_cons_succ, ih, Nat.add_assoc,
        Nat.add_comm 1 i]

end ArgumentPlan

/-! ## What is offered -/

namespace Descriptor

/-- The operations that a descriptor offers. -/
inductive Offers (d : Descriptor) : Operation → Prop where
  | construct (operation : Operation) (hrole : d.role = .constructor ∨ d.role = .reconstructor)
      (hoperation : operation = .construct ∨ operation = .invoke) : Offers d operation
  | invoke (hrole : d.role = .method) : Offers d .invoke
  | get (hread : d.canRead = true) : Offers d .get
  | set (hwrite : d.canWrite = true) : Offers d .set

section offers

variable {d : Descriptor} {surface : Surface} {policy : CastPolicy} {operation : Operation}

theorem plan_of_planned {p : Plan} (h : d.Planned surface policy operation p) :
    d.plan surface policy operation = .ok p := by
  cases h with
  | construct _ hrole hoperation =>
    unfold plan
    rcases hoperation with rfl | rfl <;> rw [hrole] <;> rfl
  | reconstruct _ hrole hoperation =>
    unfold plan
    rcases hoperation with rfl | rfl <;> rw [hrole] <;> rfl
  | invoke hrole => exact plan_invoke surface policy hrole
  | get hread => exact plan_get surface policy hread
  | set hwrite => exact plan_set surface policy hwrite

theorem Planned.offers {p : Plan} (h : d.Planned surface policy operation p) :
    d.Offers operation := by
  cases h with
  | construct _ hrole hoperation => exact .construct _ (.inl hrole) hoperation
  | reconstruct _ hrole hoperation => exact .construct _ (.inr hrole) hoperation
  | invoke hrole => exact .invoke hrole
  | get hread => exact .get hread
  | set hwrite => exact .set hwrite

theorem Offers.planned (h : d.Offers operation) (surface : Surface) (policy : CastPolicy) :
    ∃ p, d.Planned surface policy operation p := by
  cases h with
  | construct _ hrole hoperation =>
    rcases hrole with hrole | hrole
    · exact ⟨_, .construct _ hrole hoperation⟩
    · exact ⟨_, .reconstruct _ hrole hoperation⟩
  | invoke hrole => exact ⟨_, .invoke hrole⟩
  | get hread => exact ⟨_, .get hread⟩
  | set hwrite => exact ⟨_, .set hwrite⟩

theorem plan_eq_ok_iff_offers :
    (∃ p, d.plan surface policy operation = .ok p) ↔ d.Offers operation := by
  refine ⟨fun ⟨p, hp⟩ => (planned_of_plan hp).offers, fun h => ?_⟩
  obtain ⟨p, hp⟩ := h.planned surface policy
  exact ⟨p, plan_of_planned hp⟩

theorem error_of_plan {e : AccessError} (h : d.plan surface policy operation = .error e) :
    e = .invalidOperation (.notOffered d.role d.qualifiedName operation) := by
  unfold plan at h
  dsimp only at h
  split at h
  · cases h
  · cases h
  · cases h
  · cases h
  · cases h
  · split at h
    · cases h
    · exact (Except.error.inj h).symm
  · split at h
    · cases h
    · exact (Except.error.inj h).symm
  · exact (Except.error.inj h).symm

theorem plan_eq_error_iff :
    d.plan surface policy operation =
        .error (.invalidOperation (.notOffered d.role d.qualifiedName operation)) ↔
      ¬ d.Offers operation := by
  have hoffers : (∃ p, d.plan surface policy operation = .ok p) ↔ d.Offers operation :=
    plan_eq_ok_iff_offers
  rw [← hoffers]
  cases hplan : d.plan surface policy operation with
  | ok p => exact iff_of_false nofun fun h => h ⟨p, rfl⟩
  | error e =>
    rw [error_of_plan hplan]
    exact iff_of_true rfl nofun

end offers

end Descriptor

/-! ## Surfaces -/

/-- The plan with another coercion of the value that is written. -/
def Plan.recoerced (c : Coercion) : Plan → Plan
  | set dispatch index value => set dispatch index { value with coercion := c }
  | p => p

namespace Descriptor

theorem Planned.recoerced {d : Descriptor} {surface : Surface} {policy : CastPolicy}
    {operation : Operation} {p : Plan} (h : d.Planned surface policy operation p)
    (surface' : Surface) (policy' : CastPolicy) :
    d.Planned surface' policy' operation
      (p.recoerced (.forAssigned d.member.valueType surface' policy')) := by
  cases h with
  | construct _ hrole hoperation => exact .construct _ hrole hoperation
  | reconstruct _ hrole hoperation => exact .reconstruct _ hrole hoperation
  | invoke hrole => exact .invoke hrole
  | get hread => exact .get hread
  | set hwrite => exact .set hwrite

theorem plan_eq_recoerced (d : Descriptor) (surface surface' : Surface)
    (policy policy' : CastPolicy) (operation : Operation) :
    d.plan surface' policy' operation =
      (d.plan surface policy operation).map
        (Plan.recoerced (.forAssigned d.member.valueType surface' policy')) := by
  cases hplan : d.plan surface policy operation with
  | ok p => exact plan_of_planned ((planned_of_plan hplan).recoerced surface' policy')
  | error e =>
    obtain rfl := error_of_plan hplan
    exact plan_eq_error_iff.2 (plan_eq_error_iff.1 hplan)

end Descriptor

/-! ## Shape -/

/-- The shape of the plan of an operation: what it performs, its places in order, and how it reaches
the member. -/
structure Plan.WellFormed (p : Plan) (d : Descriptor) (surface : Surface) (policy : CastPolicy)
    (operation : Operation) : Prop where
  /-- A constructor constructs, whichever way it is called. -/
  constructs : d.role.memberKind = .constructor → p.operation = .construct
  performs : d.role.memberKind ≠ .constructor → p.operation = operation
  arity : p.arguments.arity = d.arity
  argument (i : Nat) (slot : ArgumentSlot) (hslot : p.arguments.slots[i]? = some slot) :
    slot.position = i ∧ d.parameters[i]? = some slot.type ∧
      Coercion.Positional slot.type.kind slot.coercion
  assigns : p.value?.isSome = true ↔ operation = .set
  value (slot : ArgumentSlot) (hslot : slot ∈ p.value?) :
    slot.position = d.arity ∧ slot.type = d.member.valueType ∧
      Coercion.Assigned slot.type.kind surface policy slot.coercion
  static : p.dispatch = .static ↔ d.isStatic = true
  onInstance : d.isStatic = false → p.dispatch = .onInstance d.host

namespace Descriptor

variable {d : Descriptor} {surface : Surface} {policy : CastPolicy} {operation : Operation}
  {p : Plan}

theorem memberKind_ne_of_holdsValue (h : d.role.holdsValue = true) :
    d.role.memberKind ≠ .constructor := by
  cases hrole : d.role with
  | constructor | reconstructor =>
    rw [hrole] at h
    cases h
  | _ => nofun

theorem Planned.operation_eq (h : d.Planned surface policy operation p) :
    p.operation = if d.role.memberKind = .constructor then .construct else operation := by
  cases h with
  | construct _ hrole | reconstruct _ hrole | invoke hrole =>
    rw [hrole]
    rfl
  | get hread => exact (if_neg (memberKind_ne_of_holdsValue (holdsValue_of_canRead hread))).symm
  | set hwrite => exact (if_neg (memberKind_ne_of_holdsValue (holdsValue_of_canWrite hwrite))).symm

theorem Planned.assigns (h : d.Planned surface policy operation p) :
    p.value?.isSome = true ↔ operation = .set := by
  cases h with
  | construct _ _ hoperation | reconstruct _ _ hoperation =>
    rcases hoperation with rfl | rfl <;> exact iff_of_false nofun nofun
  | set => exact iff_of_true rfl rfl
  | _ => exact iff_of_false nofun nofun

theorem getElem?_argumentPlan (i : Nat) :
    d.argumentPlan.slots[i]? = d.parameters[i]?.map fun t => ⟨i, t, .forParameter t⟩ := by
  rw [argumentPlan, ArgumentPlan.ofParameters, ArgumentPlan.getElem?_slotsFrom]
  simp only [Nat.zero_add]

theorem dispatch_eq_static_iff : d.dispatch = .static ↔ d.isStatic = true := by
  rcases d.dispatch_eq with ⟨hd, hs⟩ | ⟨hd, hs⟩
  · exact iff_of_true hd hs
  · rw [hd, hs]
    exact iff_of_false nofun nofun

theorem wellFormed_of_plan (h : d.plan surface policy operation = .ok p) :
    p.WellFormed d surface policy operation := by
  have hplanned := planned_of_plan h
  have hoperation := hplanned.operation_eq
  have hdispatch := dispatch_of_plan h
  obtain ⟨harguments, hvalue⟩ := slots_of_plan h
  constructor
  case constructs => exact fun hkind => hoperation.trans (if_pos hkind)
  case performs => exact fun hkind => hoperation.trans (if_neg hkind)
  case arity => exact harguments ▸ ArgumentPlan.arity_ofParameters d.parameters
  case argument =>
    intro i slot hslot
    rw [harguments, getElem?_argumentPlan, Option.map_eq_some_iff] at hslot
    obtain ⟨t, ht, rfl⟩ := hslot
    exact ⟨rfl, ht, Coercion.positional_forParameter t⟩
  case assigns => exact hplanned.assigns
  case value =>
    intro slot hslot
    obtain rfl := hvalue slot hslot
    exact ⟨rfl, rfl, Coercion.assigned_forAssigned _ surface policy⟩
  case static => exact hdispatch ▸ dispatch_eq_static_iff
  case onInstance =>
    intro hinstance
    rw [hdispatch, dispatch, hinstance]
    rfl

end Descriptor

namespace Plan.WellFormed

variable {d : Descriptor} {surface : Surface} {policy : CastPolicy} {operation : Operation}
  {p : Plan} (h : p.WellFormed d surface policy operation)

include h

theorem strict {slot : ArgumentSlot} (hslot : slot ∈ p.arguments.slots) :
    slot.coercion ≠ .safeCast := by
  obtain ⟨i, hi⟩ := List.getElem?_of_mem hslot
  obtain ⟨-, -, hpositional⟩ := h.argument i slot hi
  exact hpositional.ne_safeCast

theorem safeCast_iff :
    (∃ slot ∈ p.value?, slot.coercion = .safeCast) ↔
      operation = .set ∧ surface = .untyped ∧ d.member.valueType.kind = .reference ∧
        policy = .nullOnMismatch := by
  constructor
  · rintro ⟨slot, hslot, hsafe⟩
    obtain ⟨-, htype, hassigned⟩ := h.value slot hslot
    rw [htype] at hassigned
    exact ⟨h.assigns.1 (Option.isSome_of_mem hslot), hassigned.eq_safeCast_iff.1 hsafe⟩
  · rintro ⟨hset, hsafe⟩
    obtain ⟨slot, hslot⟩ := Option.isSome_iff_exists.1 (h.assigns.2 hset)
    obtain ⟨-, htype, hassigned⟩ := h.value slot hslot
    rw [htype] at hassigned
    exact ⟨slot, hslot, hassigned.eq_safeCast_iff.2 hsafe⟩

end Plan.WellFormed

/-! ## Every plan -/

/-- The plans of a descriptor, over every member and parameter list. An operation has a plan exactly
when it is offered, and fails in one way otherwise. The plan is well formed; a value is replaced by
null nowhere but where an untyped set of a reference may, so that checking the arguments is coercing
them; and on another surface it is the same up to the coercion of the value that it writes. -/
theorem plan_wellFormed_iff_offered (d : Descriptor) (surface : Surface) (policy : CastPolicy)
    (operation : Operation) :
    ((∃ p, d.plan surface policy operation = .ok p) ↔ d.Offers operation) ∧
    (d.plan surface policy operation =
        .error (.invalidOperation (.notOffered d.role d.qualifiedName operation)) ↔
      ¬ d.Offers operation) ∧
    (∀ p, d.plan surface policy operation = .ok p →
      p.WellFormed d surface policy operation ∧
      (∀ slot ∈ p.arguments.slots, slot.coercion ≠ .safeCast) ∧
      ((∃ slot ∈ p.value?, slot.coercion = .safeCast) ↔
        operation = .set ∧ surface = .untyped ∧ d.member.valueType.kind = .reference ∧
          policy = .nullOnMismatch) ∧
      ∀ member args, p.arguments.coerce member args =
        if args.length = p.arguments.arity then
          ArgumentPlan.coerceEach member p.arguments.slots args
        else .error (.argumentCount member p.arguments.arity args.length)) ∧
    ∀ surface', d.plan surface' policy operation =
      (d.plan surface policy operation).map
        (Plan.recoerced (.forAssigned d.member.valueType surface' policy)) := by
  refine ⟨Descriptor.plan_eq_ok_iff_offers, Descriptor.plan_eq_error_iff, fun p hplan => ?_,
    fun surface' => d.plan_eq_recoerced surface surface' policy policy operation⟩
  have hwell := Descriptor.wellFormed_of_plan hplan
  have hstrict : ∀ slot ∈ p.arguments.slots, slot.coercion ≠ .safeCast :=
    fun _ hslot => hwell.strict hslot
  exact ⟨hwell, hstrict, hwell.safeCast_iff, ArgumentPlan.coerce_eq_coerceEach hstrict⟩

def pointLabels : Descriptor :=
  ⟨.indexed, (MemberSpec.ofAttribute "labels" .indexer [.base .int32] false
    (⟨.element "labels" [.base .int32], true, true⟩ :
      Attribute (.optional (.base .string)))).member ⟨0⟩ pointClass .public ⟨0⟩⟩

/-- The sample's setter takes the label after the number. On the untyped surface a value of another
type becomes null, on the typed one it is refused. A call is not offered. -/
theorem plan_wellFormed_iff_offered_pointLabels : ∃ p,
    pointLabels.plan .untyped .nullOnMismatch .set = .ok p ∧
    p.WellFormed pointLabels .untyped .nullOnMismatch .set ∧
    (∃ slot ∈ p.value?, slot.coercion = .safeCast) ∧
    pointLabels.plan .typed .nullOnMismatch .set = .ok (p.recoerced .hardCast) ∧
    pointLabels.plan .untyped .nullOnMismatch .invoke =
      .error (.invalidOperation (.notOffered .indexed pointLabels.qualifiedName .invoke)) := by
  obtain ⟨hplan, -, hshape, hsurface⟩ :=
    plan_wellFormed_iff_offered pointLabels .untyped .nullOnMismatch .set
  obtain ⟨-, hrefused, -⟩ :=
    plan_wellFormed_iff_offered pointLabels .untyped .nullOnMismatch .invoke
  obtain ⟨p, hp⟩ := hplan.2 (.set rfl)
  obtain ⟨hwell, -, hsafe, -⟩ := hshape p hp
  refine ⟨p, hp, hwell, hsafe.2 ⟨rfl, rfl, rfl, rfl⟩, ?_, hrefused.2 nofun⟩
  rw [hsurface .typed, hp]
  rfl

end MemberAccess
