import MemberAccess.Accessor.OnObjects
import MemberAccess.Proofs.Call.Writes
import MemberAccess.Proofs.Member.History

/-!
# Runs of events

Classes are described, descriptors are made over their members, accessors are built and called, in
any order and also while a block is open. Which classes a run marks as abstract is said of its
events alone; that the registry has the same marks is kept by every event.

* `Event`, `Holdings`, `Holdings.step`, `Holdings.run`: what happens, and what there is then.
* `Marked`: a class was marked in the course of events.
* `Holdings.Reached`: what holds after events; `Holdings.Reached.step`, `Holdings.Reached.run`.
* `Holdings.prefix_run`: what has been made stays.
-/

namespace MemberAccess

/-- The first list goes on in the second with elements that have a property. -/
def GoesOn {α : Type} (P : α → Prop) (xs ys : List α) : Prop :=
  ∃ made, ys = xs ++ made ∧ ∀ x ∈ made, P x

namespace GoesOn

variable {α : Type} {P : α → Prop} {xs ys : List α}

theorem refl (P : α → Prop) (xs : List α) : GoesOn P xs xs :=
  ⟨[], (List.append_nil xs).symm, fun _ h => absurd h List.not_mem_nil⟩

theorem append_toList {x : Option α} (h : ∀ a, x = some a → P a) : GoesOn P xs (xs ++ x.toList) :=
  ⟨x.toList, rfl, fun a ha => h a (Option.mem_toList.1 ha)⟩

theorem isPrefix (h : GoesOn P xs ys) : xs <+: ys := by
  obtain ⟨made, rfl, -⟩ := h
  exact List.prefix_append xs made

theorem mem_or (h : GoesOn P xs ys) {x : α} (hx : x ∈ ys) : x ∈ xs ∨ P x := by
  obtain ⟨made, rfl, hmade⟩ := h
  exact (List.mem_append.1 hx).imp_right (hmade x)

end GoesOn

/-! ## Runs -/

/-- Something that happens to a registry or to what is made over it. Descriptors and accessors are
meant by their numbers in the order of creation. -/
inductive Event where
  /-- A block begins for a class, and the one before it is over. -/
  | describe (host : HostClass)
  /-- A step of the block. -/
  | register (step : Registration)
  /-- A descriptor over a member. -/
  | descriptor (id : MemberId) (role : Role)
  /-- A descriptor over the first member of a class that fits. -/
  | resolution (host : HostClass) (name : String) (role : Role)
  /-- An accessor over a descriptor. -/
  | build (i : Nat) (o : Options) (role : Role)
  | buildTyped (i : Nat) (o : Options) (role : Role) (host : HostClass) (type : StaticType)
  /-- A call of an accessor. -/
  | call (i : Nat) (q : Request)
  /-- A call of a typed one, with a value of the type that it has. -/
  | callTyped (i : Nat) (target : TypedTarget) (q : (type : StaticType) → TypedRequest type)

/-- The class of the block that the event begins. -/
def Event.described? : Event → Option HostClass
  | describe host => some host
  | _ => none

/-- What there is at a point of a run. -/
structure Holdings where
  /-- The class of the open block. -/
  host : Option HostClass
  block : Registry.Progress
  world : World
  descriptors : List Descriptor
  accessors : List Accessor
  typedAccessors : List TypedAccessor

namespace Holdings

def start (w : World) : Holdings := ⟨none, ⟨.empty, .public, none⟩, w, [], [], []⟩

/-- The registry, also of a block that is still open. -/
def registry (s : Holdings) : Registry := s.block.registry

def flags (s : Holdings) : Flags := s.registry.flags

/-- What an accessor answers; nothing where there is no such accessor or call. -/
def answer? (s : Holdings) (i : Nat) (q : Request) : Option (Outcome Value) :=
  s.accessors[i]?.bind fun a => a.answer s.world q

/-- What a typed accessor answers, with what is left of the contents stored. -/
def answerTyped? (s : Holdings) (i : Nat) (target : TypedTarget)
    (q : (type : StaticType) → TypedRequest type) : Option (Outcome Value) :=
  s.typedAccessors[i]?.bind fun a =>
    (a.answer s.world (target.own s.world) (q a.type)).map (·.settle target.object?)

def after (s : Holdings) (x : Option (Outcome Value)) : Holdings :=
  { s with world := (x.map Prod.snd).getD s.world }

/-- What there is after an event. What fails to be made leaves nothing behind. -/
def step (s : Holdings) : Event → Holdings
  | .describe host => { s with host := some host, block := s.registry.describe host [] }
  | .register step =>
    match s.host with
    | some host => { s with block := s.block.step host step }
    | none => s
  | .descriptor id role =>
    let made := (Descriptor.new (s.registry.member? id) role).toOption
    { s with descriptors := s.descriptors ++ made.toList }
  | .resolution host name role =>
    let made := (Descriptor.resolve s.registry host name role).toOption
    { s with descriptors := s.descriptors ++ made.toList }
  | .build i o role =>
    let made := s.descriptors[i]?.bind fun d => (Accessor.build s.flags o role d).toOption
    { s with accessors := s.accessors ++ made.toList }
  | .buildTyped i o role host type =>
    let made := s.descriptors[i]?.bind fun d =>
      (TypedAccessor.build s.flags o role host type d).toOption
    { s with typedAccessors := s.typedAccessors ++ made.toList }
  | .call i q => s.after (s.answer? i q)
  | .callTyped i target q => s.after (s.answerTyped? i target q)

def run (s : Holdings) (events : List Event) : Holdings := events.foldl step s

end Holdings

/-! ## Marks in a run -/

/-- The class of the block that events leave open: the last that was described. -/
def openClass (events : List Event) : Option HostClass :=
  (events.filterMap Event.described?).getLast?

/-- The class was marked: a block for it was open, and a step of the block was the mark. -/
def Marked (c : HostClass) (events : List Event) : Prop :=
  ∃ before after, events = before ++ .register .abstractClass :: after ∧ openClass before = some c

theorem openClass_concat (events : List Event) (e : Event) :
    openClass (events ++ [e]) = e.described?.or (openClass events) := by
  unfold openClass
  rw [List.filterMap_append, List.getLast?_append, List.filterMap_cons]
  cases e.described? <;> rfl

theorem marked_concat (c : HostClass) (events : List Event) (e : Event) :
    Marked c (events ++ [e]) ↔
      Marked c events ∨ (e = .register .abstractClass ∧ openClass events = some c) := by
  constructor
  · rintro ⟨before, after, heq, hopen⟩
    rcases List.eq_nil_or_concat after with rfl | ⟨rest, e', rfl⟩
    · obtain ⟨rfl, hlast⟩ := List.append_inj' heq rfl
      exact .inr ⟨List.head_eq_of_cons_eq hlast, hopen⟩
    · rw [List.concat_eq_append, ← List.cons_append, ← List.append_assoc] at heq
      obtain ⟨rfl, -⟩ := List.append_inj' heq rfl
      exact .inl ⟨before, rest, rfl, hopen⟩
  · rintro (⟨before, after, rfl, hopen⟩ | ⟨rfl, hopen⟩)
    · exact ⟨before, after ++ [e], by simp, hopen⟩
    · exact ⟨events, [], rfl, hopen⟩

namespace Holdings

/-! ## One event -/

section step

variable (s : Holdings) (e : Event)

theorem host_step : (s.step e).host = e.described?.or s.host := by
  cases e with
  | register step =>
    unfold Holdings.step
    cases hhost : s.host <;> simp [hhost, Event.described?]
  | _ => rfl

theorem touches_step : (s.step e).registry = s.registry ∨
    ∃ host, s.registry.Touches host (s.step e).registry := by
  cases e with
  | describe host => exact .inr ⟨host, s.registry.touches_opened host⟩
  | register step =>
    unfold Holdings.step
    cases s.host with
    | none => exact .inl rfl
    | some host => exact (Registry.touches_step host s.block step).imp_right fun h => ⟨host, h⟩
  | _ => exact .inl rfl

theorem flagged_step (h : s.registry.Flagged) : (s.step e).registry.Flagged := by
  rcases s.touches_step e with heq | ⟨host, ht⟩
  · rwa [heq]
  · exact h.touches ht

theorem isAbstract_step (h : s.registry.Flagged) (c : HostClass) :
    (s.step e).registry.isAbstract c = true ↔
      s.registry.isAbstract c = true ∨ (e = .register .abstractClass ∧ s.host = some c) := by
  cases e with
  | describe host =>
    rw [or_iff_left fun h => Event.noConfusion h.1, ← s.registry.isAbstract_opened host c]
    rfl
  | register step =>
    unfold Holdings.step
    cases hhost : s.host with
    | none => simp
    | some host =>
      simp only [Event.register.injEq, Option.some.injEq]
      exact h.isAbstract_step host step c
  | _ =>
    rw [or_iff_left fun h => Event.noConfusion h.1]
    rfl

theorem members_step : (s.step e).registry.members = s.registry.members ∨
    ∃ host step, e = .register step ∧ s.host = some host ∧
      (s.step e).registry = (s.block.step host step).registry := by
  cases e with
  | describe host => exact .inl (s.registry.members_enter host)
  | register step =>
    unfold Holdings.step
    cases s.host with
    | none => exact .inl rfl
    | some host => exact .inr ⟨host, step, rfl, rfl, rfl⟩
  | _ => exact .inl rfl

theorem members_subset_step : s.registry.members ⊆ (s.step e).registry.members := by
  rcases s.members_step e with heq | ⟨host, step, -, -, heq⟩
  · rw [heq]
    exact List.Subset.refl _
  · rw [heq]
    exact Registry.members_subset_step host s.block step

theorem coherent_step (h : ∀ m ∈ s.registry.members, m.Coherent) :
    ∀ m ∈ (s.step e).registry.members, m.Coherent := by
  intro m hm
  rcases s.members_step e with heq | ⟨host, step, -, -, heq⟩
  · exact h m (heq ▸ hm)
  · rcases Registry.mem_step (heq ▸ hm) with hold | ⟨-, hreg⟩
    · exact h m hold
    · exact hreg.coherent

theorem descriptors_step :
    GoesOn (·.Over s.registry) s.descriptors (s.step e).descriptors := by
  cases e with
  | descriptor id role =>
    refine .append_toList fun d hd => ?_
    have hnew := toOption_eq_some_iff.1 hd
    cases hm : s.registry.member? id with
    | none =>
      rw [hm] at hnew
      cases hnew
    | some m =>
      rw [hm] at hnew
      exact Descriptor.over_new (List.mem_of_getElem? hm) hnew
  | resolution host name role =>
    exact .append_toList fun d hd => Descriptor.over_resolve (toOption_eq_some_iff.1 hd)
  | register step =>
    unfold Holdings.step
    cases s.host <;> exact .refl _ _
  | _ => exact .refl _ _

theorem accessors_step :
    GoesOn (fun a => ∃ d ∈ s.descriptors, ∃ o role, Accessor.build s.flags o role d = .ok a)
      s.accessors (s.step e).accessors := by
  cases e with
  | build i o role =>
    refine .append_toList fun a ha => ?_
    obtain ⟨d, hd, hbuild⟩ := Option.bind_eq_some_iff.1 ha
    exact ⟨d, List.mem_of_getElem? hd, o, role, toOption_eq_some_iff.1 hbuild⟩
  | register step =>
    unfold Holdings.step
    cases s.host <;> exact .refl _ _
  | _ => exact .refl _ _

theorem typedAccessors_step :
    GoesOn (fun a => ∃ d ∈ s.descriptors, ∃ o role host type,
        TypedAccessor.build s.flags o role host type d = .ok a)
      s.typedAccessors (s.step e).typedAccessors := by
  cases e with
  | buildTyped i o role host type =>
    refine .append_toList fun a ha => ?_
    obtain ⟨d, hd, hbuild⟩ := Option.bind_eq_some_iff.1 ha
    exact ⟨d, List.mem_of_getElem? hd, o, role, host, type, toOption_eq_some_iff.1 hbuild⟩
  | register step =>
    unfold Holdings.step
    cases s.host <;> exact .refl _ _
  | _ => exact .refl _ _

end step

/-! ## Whole runs -/

/-- What holds of what there is after events. -/
structure Reached (events : List Event) (s : Holdings) : Prop where
  host : s.host = openClass events
  flagged : s.registry.Flagged
  marked : ∀ c, s.registry.isAbstract c = true ↔ Marked c events
  coherent : ∀ m ∈ s.registry.members, m.Coherent
  descriptors : ∀ d ∈ s.descriptors, d.Over s.registry
  accessors : ∀ a ∈ s.accessors, ∃ d fs o role, d.Over s.registry ∧
    Accessor.build fs o role d = .ok a
  typedAccessors : ∀ a ∈ s.typedAccessors, ∃ d fs o role host type, d.Over s.registry ∧
    TypedAccessor.build fs o role host type d = .ok a

namespace Reached

variable {events : List Event} {s : Holdings}

theorem start (w : World) : Reached [] (.start w) where
  host := rfl
  flagged := Registry.flagged_empty
  marked c := by
    refine iff_of_false Bool.false_ne_true ?_
    rintro ⟨before, after, heq, -⟩
    exact List.append_ne_nil_of_right_ne_nil before (List.cons_ne_nil _ after) heq.symm
  coherent _ hm := absurd hm List.not_mem_nil
  descriptors _ hd := absurd hd List.not_mem_nil
  accessors _ ha := absurd ha List.not_mem_nil
  typedAccessors _ ha := absurd ha List.not_mem_nil

theorem step (h : Reached events s) (e : Event) : Reached (events ++ [e]) (s.step e) := by
  have hsub := s.members_subset_step e
  refine ⟨?_, s.flagged_step e h.flagged, fun c => ?_, s.coherent_step e h.coherent,
    fun d hd => ?_, fun a ha => ?_, fun a ha => ?_⟩
  · rw [host_step, openClass_concat, h.host]
  · rw [s.isAbstract_step e h.flagged, marked_concat, h.marked, h.host]
  · rcases (s.descriptors_step e).mem_or hd with hold | hnew
    · exact (h.descriptors d hold).mono hsub
    · exact hnew.mono hsub
  · rcases (s.accessors_step e).mem_or ha with hold | ⟨d, hd, o, role, hbuild⟩
    · obtain ⟨d, fs, o, role, hd, hbuild⟩ := h.accessors a hold
      exact ⟨d, fs, o, role, hd.mono hsub, hbuild⟩
    · exact ⟨d, s.flags, o, role, (h.descriptors d hd).mono hsub, hbuild⟩
  · rcases (s.typedAccessors_step e).mem_or ha with hold | ⟨d, hd, o, role, host, type, hbuild⟩
    · obtain ⟨d, fs, o, role, host, type, hd, hbuild⟩ := h.typedAccessors a hold
      exact ⟨d, fs, o, role, host, type, hd.mono hsub, hbuild⟩
    · exact ⟨d, s.flags, o, role, host, type, (h.descriptors d hd).mono hsub, hbuild⟩

/-- By induction over the events still to come. -/
theorem run (h : Reached events s) (later : List Event) :
    Reached (events ++ later) (s.run later) := by
  induction later generalizing events s with
  | nil => rwa [List.append_nil]
  | cons e later ih =>
    rw [List.append_cons]
    exact ih (h.step e)

theorem form (h : Reached events s) {d : Descriptor} (hd : d.Over s.registry) : d.Form :=
  Descriptor.form_of_coherent (h.coherent _ hd.registered) hd.kind

end Reached

theorem prefix_run (s : Holdings) (later : List Event) :
    s.descriptors <+: (s.run later).descriptors ∧ s.accessors <+: (s.run later).accessors ∧
      s.typedAccessors <+: (s.run later).typedAccessors := by
  induction later generalizing s with
  | nil => exact ⟨List.prefix_rfl, List.prefix_rfl, List.prefix_rfl⟩
  | cons e later ih =>
    obtain ⟨hdescriptors, haccessors, htyped⟩ := ih (s.step e)
    exact ⟨(s.descriptors_step e).isPrefix.trans hdescriptors,
      (s.accessors_step e).isPrefix.trans haccessors,
      (s.typedAccessors_step e).isPrefix.trans htyped⟩

end Holdings

end MemberAccess
