import MemberAccess.Proofs.Member.Runs
import MemberAccess.Proofs.World.Footprint

/-!
# What runs write

The typed run of a binding writes slots under some names only: a setter under the name that its
location means, a constructor under any, a method under those that its body writes until it ends or
fails. All of them may allocate.

* `Body.written`: the names that a body writes.
* `Effect.Within`: a run that writes under some names at most.
* `Construction.within_rebuildOver`, `Attribute.within_write`, `Method.within_invoke`.
-/

namespace MemberAccess

/-- Names of slots: those of the receiver and those that static members share. -/
abbrev Names := Storage → String → Prop

/-! ## Bodies -/

def Instruction.writes? : Instruction → Option String
  | put slot _ | add slot _ | delete slot => some slot
  | _ => none

theorem Instruction.agreeOff_step {view : ObjectRef → Slots} {args : List Value} {f f' : Frame}
    {i : Instruction} (h : i.step view args f = .ok f') :
    f.slots.AgreeOff (fun name => i.writes? = some name) f'.slots := by
  unfold step at h
  split at h
  case h_3 slot position =>
    obtain rfl := Except.ok.inj h
    exact (Slots.agreeOff_set f.slots slot _).mono fun name hname => congrArg some hname.symm
  case h_4 slot position =>
    obtain rfl := Except.ok.inj h
    exact (Slots.agreeOff_set f.slots slot _).mono fun name hname => congrArg some hname.symm
  case h_5 slot =>
    obtain rfl := Except.ok.inj h
    exact (Slots.agreeOff_erase f.slots slot).mono fun name hname => congrArg some hname.symm
  case h_9 position slot =>
    split at h
    · obtain rfl := Except.ok.inj h
      exact .refl _ _
    · obtain rfl := Except.ok.inj h
      exact .refl _ _
  case h_10 => cases h
  case h_11 =>
    split at h
    · cases h
    · obtain rfl := Except.ok.inj h
      exact .refl _ _
  all_goals
    obtain rfl := Except.ok.inj h
    exact .refl _ _

namespace Body

variable (view : ObjectRef → Slots) (args : List Value)

/-- The names that the instructions write from a frame on, up to the one that fails. -/
def writtenFrom : Body → Frame → List String
  | [], _ => []
  | i :: rest, f =>
    match i.step view args f with
    | .error _ => []
    | .ok f' => i.writes?.toList ++ writtenFrom rest f'

theorem agreeOff_runFrom (body : Body) (f : Frame) :
    f.slots.AgreeOff (· ∈ writtenFrom view args body f) (runFrom view args body f).1 := by
  induction body generalizing f with
  | nil => exact .refl _ _
  | cons i rest ih =>
    unfold runFrom writtenFrom
    cases hstep : i.step view args f with
    | error report => exact .refl _ _
    | ok f' =>
      have hfirst := Instruction.agreeOff_step hstep
      have hrest := ih f'
      refine (hfirst.mono fun name hname => ?_).trans (hrest.mono fun name hname => ?_)
      · simp [hname]
      · simp [hname]

/-- The names that a body writes when it runs over slots. -/
def written (body : Body) (slots : Slots) : List String := writtenFrom view args body ⟨slots, .null⟩

theorem agreeOff_run (body : Body) (slots : Slots) :
    slots.AgreeOff (· ∈ written view args body slots) (run body view args slots).1 :=
  agreeOff_runFrom view args body ⟨slots, .null⟩

end Body

/-! ## Runs that write under some names -/

/-- The run writes under these names at most: it leaves the receiver and the shared slots otherwise
as they were, and all cells that exist. -/
structure Effect.Within {α : Type} (x : Effect α) (own : Option Slots) (w : World) (names : Names) :
    Prop where
  cells : w.cells <+: x.world.cells
  statics : w.statics.AgreeOff (names .shared) x.world.statics
  receiver : ∀ s, own = some s → ∃ s', x.receiver = some s' ∧ s.AgreeOff (names .own) s'

theorem World.Grown.isPrefix {w w' : World} (h : w.Grown w') : w.cells <+: w'.cells := by
  obtain ⟨fresh, hcells, -⟩ := h
  exact ⟨fresh, hcells.symm⟩

namespace Effect

variable {α β : Type} {own : Option Slots} {w : World} {names names' : Names}

theorem within_refused (e : AccessError) : (refused e own w : Effect α).Within own w names :=
  ⟨List.prefix_rfl, .refl _ _, fun s hs => ⟨s, hs, .refl _ _⟩⟩

theorem within_of_same (r : Except AccessError α) {w' : World} (hcells : w.cells <+: w'.cells)
    (hstatics : w'.statics = w.statics) : (⟨r, own, w'⟩ : Effect α).Within own w names := by
  refine ⟨hcells, ?_, fun s hs => ⟨s, hs, .refl _ _⟩⟩
  rw [hstatics]
  exact .refl _ _

theorem Within.map {x : Effect α} (h : x.Within own w names) (f : α → β) :
    (x.map f).Within own w names :=
  ⟨h.cells, h.statics, h.receiver⟩

theorem Within.of_none {x : Effect α} (h : x.Within none w names)
    (hshared : ∀ name, names .shared name → names' .shared name) : x.Within none w names' :=
  ⟨h.cells, h.statics.mono hshared, nofun⟩

end Effect

/-! ## Bindings -/

theorem StaticType.statics_fit (t : StaticType) (v : Value) (w : World) :
    (t.fit v w).2.statics = w.statics := by
  rcases t.fit_world v w with h | ⟨c, h⟩
  · rw [h]
  · rw [h]
    rfl

/-- A constructor over an instance writes its slots. -/
def Construction.names : Names := fun storage _ => storage = .own

theorem Construction.within_rebuildOver (k : Construction) (w : World) (own : Option Slots)
    (args : List Value) : (k.rebuildOver w own args).Within own w Construction.names := by
  unfold rebuildOver
  split
  · exact Effect.within_refused _
  · refine ⟨List.prefix_rfl, .refl _ _, fun s _ => ⟨_, rfl, fun name hname => ?_⟩⟩
    exact absurd rfl hname

def Location.storage : Location → Storage
  | slot storage _ => storage
  | element _ _ => .own

theorem Location.storage_eq (l : Location) :
    l.storage = if l.isShared = true then .shared else .own := by
  cases l with
  | slot storage name => cases storage <;> rfl
  | element name index => rfl

theorem Location.resolve_eq_ok {l : Location} {receiver : Option Slots} {index : List Value}
    {place : Place} (h : l.resolve receiver index = .ok place) :
    (l.storage = .own ∧ ∃ slots, receiver = some slots ∧ place = .own slots (l.key index)) ∨
      (l.storage = .shared ∧ place = .shared (l.key index)) := by
  unfold resolve at h
  split at h
  · exact Or.inr ⟨rfl, (Except.ok.inj h).symm⟩
  · exact Or.inl ⟨rfl, _, rfl, (Except.ok.inj h).symm⟩
  · split at h
    · cases h
    · rename_i hunpack
      rw [Arguments.box_of_unpack hunpack] at h
      exact Or.inl ⟨rfl, _, rfl, (Except.ok.inj h).symm⟩
  · cases h

namespace Attribute

variable {type : StaticType} (a : Attribute type) (w : World) (own : Option Slots)
  (index : List Value)

/-- A setter writes the slot that its location means. -/
def names : Names := fun storage name => storage = a.location.storage ∧ name = a.location.key index

theorem within_read (names : Names) : (a.read w own index).Within own w names := by
  unfold read
  split
  · exact Effect.within_refused _
  · rename_i place _
    have hgrown := type.grown_fit (place.get w) w
    exact Effect.within_of_same _ hgrown.isPrefix (type.statics_fit (place.get w) w)

theorem within_write (x : type.Carrier) : (a.write w own index x).Within own w (a.names index) := by
  unfold write
  split
  · exact Effect.within_refused _
  · rename_i slots name hplace
    rcases Location.resolve_eq_ok hplace with ⟨hstorage, slots', rfl, hsame⟩ | ⟨-, hsame⟩
    · cases hsame
      refine ⟨List.prefix_rfl, .refl _ _, fun s hs => ⟨_, rfl, ?_⟩⟩
      obtain rfl := Option.some.inj hs
      exact (Slots.agreeOff_set _ _ _).mono fun name hname => ⟨hstorage.symm, hname⟩
    · cases hsame
  · rename_i name hplace
    rcases Location.resolve_eq_ok hplace with ⟨-, slots', -, hsame⟩ | ⟨hstorage, hsame⟩
    · cases hsame
    · cases hsame
      refine ⟨List.prefix_rfl, ?_, fun s hs => ⟨s, hs, .refl _ _⟩⟩
      exact (Slots.agreeOff_set _ _ _).mono fun name hname => ⟨hstorage.symm, hname⟩

theorem within_writeConverted (v : Value) :
    (a.writeConverted w own index v).Within own w (a.names index) := by
  unfold writeConverted
  split
  · exact Effect.within_refused _
  · exact a.within_write w own index _

end Attribute

namespace Method

variable {result : StaticType} (f : Method result) (w : World) (own : Option Slots)
  (args : List Value)

def base : Slots :=
  match f.storage with
  | .shared => w.statics
  | .own => own.getD .empty

/-- A method writes what its body writes in the slots that it works on. -/
def names : Names := fun storage name =>
  storage = f.storage ∧ name ∈ f.body.written w.contents args (f.base w own)

theorem names_shared (own' : Option Slots) {name : String} (h : f.names w own args .shared name) :
    f.names w own' args .shared name := by
  obtain ⟨hstorage, hname⟩ := h
  refine ⟨hstorage, ?_⟩
  unfold base at hname ⊢
  rw [← hstorage] at hname ⊢
  exact hname

theorem statics_conclude (outcome : Except String Value) :
    (f.conclude outcome w).2.statics = w.statics := by
  unfold conclude
  split
  · exact result.statics_fit _ w
  · rfl
  · exact result.statics_fit _ w

theorem within_execute : (f.execute w own args).Within own w (f.names w own args) := by
  have hcells := (f.grown_execute w own args).isPrefix
  have hagree := f.body.agreeOff_run w.contents args (f.base w own)
  refine ⟨hcells, ?_, ?_⟩
  · unfold names
    unfold base at hagree ⊢
    unfold execute
    cases hstorage : f.storage with
    | shared =>
      rw [hstorage] at hagree
      dsimp only
      rw [f.statics_conclude]
      exact hagree.mono fun name hname => ⟨rfl, hname⟩
    | own =>
      cases own with
      | none => exact .refl _ _
      | some slots =>
        dsimp only
        rw [f.statics_conclude]
        exact .refl _ _
  · rintro s rfl
    unfold names
    unfold base at hagree ⊢
    unfold execute
    cases hstorage : f.storage with
    | shared => exact ⟨s, rfl, .refl _ _⟩
    | own =>
      rw [hstorage] at hagree
      exact ⟨_, rfl, hagree.mono fun name hname => ⟨rfl, hname⟩⟩

theorem within_invoke : (f.invoke w own args).Within own w (f.names w own args) := by
  unfold invoke
  split
  · exact Effect.within_refused _
  · split
    · exact Effect.within_refused _
    · rename_i hunpack
      rw [Arguments.box_of_unpack hunpack]
      exact f.within_execute w own args

end Method

end MemberAccess
