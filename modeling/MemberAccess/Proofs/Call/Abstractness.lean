import MemberAccess.Proofs.Accessor.Allocation
import MemberAccess.Proofs.Call.Events
import MemberAccess.Proofs.Call.Meaning
import MemberAccess.Proofs.Call.Surfaces

/-!
# Abstract classes over whole runs

A class can be marked as abstract at any time. From then on no accessor is built that allocates
instances of it, whichever was there first, the constructor, its descriptor or the mark. A build
loads the flag that the member in the descriptor refers to, and the mark is stored in the flag of
the class's entry. That these are one flag, whatever was made before or after what, and that no
other class has it, is kept by every event. An accessor that has been built does not ask again.

* `Accessor.answer_of_allocating`, `TypedAccessor.answer_of_allocating`: accessors that allocate.
* `Holdings.Reached.load_flag`: what a descriptor's flag holds after events.
* `Holdings.Obeys`: what builds give after events; `Holdings.Keeps`: what further events leave.
* `abstractness_over_runs`: both, after any run.
-/

namespace MemberAccess

/-! ## Accessors that allocate -/

section allocating

variable {d : Descriptor} {fs : Flags} {o : Options} {role : Role}

/-- An accessor that allocates is called as the reference says, whatever the registry says now. -/
theorem Accessor.answer_of_allocating {k : Construction} (hk : d.member.IsConstructor k)
    (hrole : d.role = .constructor) {a : Accessor} (h : build fs o role d = .ok a)
    (cast : CastPolicy) (w : World) (q : Request) : a.answer w q = d.reference cast w q := by
  obtain rfl := role_of_build fs o h
  rw [build_constructor fs o hk hrole] at h
  obtain ⟨-, -, rfl⟩ := map_eq_ok_iff.1 h
  exact Descriptor.constructor_reference hk hrole cast w q

variable {host : HostClass} {type : StaticType}

theorem TypedAccessor.answer_of_allocating {k : Construction} (hk : d.member.IsConstructor k)
    (hrole : d.role = .constructor) {a : TypedAccessor} (h : build fs o role host type d = .ok a)
    (cast : CastPolicy) (w : World) (target : TypedTarget)
    (hheld : ∀ x ∈ target.object?, w.Holds x) (q : TypedRequest a.type) :
    (a.answer w (target.own w) q).map (·.settle target.object?) =
      d.reference cast w (q.boxed (.ofTarget target.object?)) := by
  obtain rfl := role_of_build h
  rw [hrole] at h
  obtain ⟨rfl, rfl⟩ := build_constructor hk hrole h
  have hagrees := constructor_agrees hheld k hrole q
  rw [Descriptor.constructor_reference hk hrole cast] at hagrees
  refine Eq.trans ?_ hagrees.symm
  -- contents that are in no cell are not looked at
  cases target with
  | contents s => cases q <;> rfl
  | _ => rfl

end allocating

/-! ## Builds after a run -/

theorem getElem?_of_prefix {α : Type} {xs ys : List α} (h : xs <+: ys) {i : Nat} {x : α}
    (hi : xs[i]? = some x) : ys[i]? = some x := by
  obtain ⟨rest, rfl⟩ := h
  rw [List.getElem?_append_left (List.getElem?_eq_some_iff.1 hi).1, hi]

namespace Holdings

/-- What builds give after events. -/
structure Obeys (events : List Event) (s : Holdings) : Prop where
  marked : ∀ c, s.registry.isAbstract c = true ↔ Marked c events
  /-- A descriptor stands for a registered member, whenever it was made. -/
  descriptors : ∀ d ∈ s.descriptors, d.Over s.registry
  /-- The member of a descriptor refers to the flag of its class's entry. -/
  shared : ∀ d : Descriptor, d.Over s.registry →
    ∃ entry, s.registry.known? d.host = some entry ∧ entry.flag = d.member.flag
  /-- The members of two classes do not refer to one flag. -/
  apart : ∀ d d' : Descriptor, d.Over s.registry → d'.Over s.registry →
    d.member.flag = d'.member.flag → d.host = d'.host
  /-- Nothing is built that allocates instances of a marked class, under no policy. -/
  refused : ∀ d : Descriptor, d.Over s.registry → d.role = .constructor → Marked d.host events →
    ∀ o host type,
      Accessor.build s.flags o .constructor d =
        .error (d.refusal (.abstractClass d.host)) ∧
      TypedAccessor.build s.flags o .constructor host type d =
        .error (d.refusal (.abstractClass d.host))
  /-- Nothing is refused for a class that is not marked. -/
  admitted : ∀ d : Descriptor, d.Over s.registry → d.role = .constructor → ¬ Marked d.host events →
    ∀ o host type,
      Accessor.build s.flags o .constructor d ≠
        .error (d.refusal (.abstractClass d.host)) ∧
      TypedAccessor.build s.flags o .constructor host type d ≠
        .error (d.refusal (.abstractClass d.host))
  /-- All other builds are as if no flag were set. -/
  unaffected : ∀ d : Descriptor, d.Over s.registry →
    ¬ (d.role = .constructor ∧ Marked d.host events) → ∀ o role host type,
      Accessor.build s.flags o role d = Accessor.build .empty o role d ∧
      TypedAccessor.build s.flags o role host type d =
        TypedAccessor.build .empty o role host type d

/-- What there is stays, its calls do not depend on marks, and what allocates goes on to do so. -/
structure Keeps (s s' : Holdings) : Prop where
  descriptors : s.descriptors <+: s'.descriptors
  accessors : s.accessors <+: s'.accessors
  typedAccessors : s.typedAccessors <+: s'.typedAccessors
  answers : ∀ i a, s.accessors[i]? = some a → ∀ q, s'.answer? i q = a.answer s'.world q
  answersTyped : ∀ i a, s.typedAccessors[i]? = some a → ∀ target q,
    s'.answerTyped? i target q =
      (a.answer s'.world (target.own s'.world) (q a.type)).map (·.settle target.object?)
  constructs : ∀ i a, s.accessors[i]? = some a → a.descriptor.role = .constructor →
    ∀ cast q, s'.answer? i q = a.descriptor.reference cast s'.world q
  constructsTyped : ∀ i a, s.typedAccessors[i]? = some a → a.descriptor.role = .constructor →
    ∀ cast target q, (∀ o ∈ target.object?, s'.world.Holds o) →
      s'.answerTyped? i target q =
        a.descriptor.reference cast s'.world ((q a.type).boxed (.ofTarget target.object?))

namespace Reached

variable {events : List Event} {s : Holdings}

/-- Through its own reference a descriptor sees whether its class was marked. -/
theorem load_flag (h : Reached events s) {d : Descriptor} (hd : d.Over s.registry) :
    s.flags.load d.member.flag = true ↔ Marked d.host events := by
  have hload : s.flags.load d.member.flag = s.registry.isAbstract d.host :=
    h.flagged.load_member hd.registered
  rw [hload, h.marked]

theorem obeys (h : Reached events s) : Obeys events s := by
  refine ⟨h.marked, h.descriptors, fun d hd => h.flagged.shared d.member hd.registered,
    fun d d' hd hd' => h.flagged.host_eq hd.registered hd'.registered,
    fun d hd hrole hmarked o host type => ?_, fun d hd hrole hmarked o host type => ?_,
    fun d hd hother o role host type => ?_⟩
  · obtain ⟨k, hk⟩ := (h.form hd).construction hrole
    have hset := (h.load_flag hd).2 hmarked
    rw [Accessor.build_allocating _ o hk hrole,
      TypedAccessor.build_allocating _ o hk.kind hrole, if_pos hset]
    exact ⟨rfl, if_pos hset⟩
  · obtain ⟨k, hk⟩ := (h.form hd).construction hrole
    have hunset := fun hset => hmarked ((h.load_flag hd).1 hset)
    exact ⟨Accessor.build_ne_abstract o hk hrole hunset,
      TypedAccessor.build_ne_abstract o hk.kind hrole hunset host type⟩
  · have halike : d.Alike s.flags .empty := by
      intro hrole
      have hunset : s.flags.load d.member.flag = false :=
        Bool.eq_false_iff.2 fun hset => hother ⟨hrole, (h.load_flag hd).1 hset⟩
      rw [Member.isAbstract, Member.isAbstract, hunset, Flags.load_empty]
    exact ⟨Accessor.build_of_alike halike o role,
      TypedAccessor.build_of_alike halike o host type role⟩

theorem keeps (h : Reached events s) (later : List Event) : s.Keeps (s.run later) := by
  obtain ⟨hdescriptors, haccessors, htyped⟩ := s.prefix_run later
  have hanswers : ∀ i a, s.accessors[i]? = some a → ∀ q,
      (s.run later).answer? i q = a.answer (s.run later).world q := by
    intro i a hi q
    rw [answer?, getElem?_of_prefix haccessors hi]
    rfl
  have hanswersTyped : ∀ i a, s.typedAccessors[i]? = some a → ∀ target q,
      (s.run later).answerTyped? i target q =
        (a.answer (s.run later).world (target.own (s.run later).world) (q a.type)).map
          (·.settle target.object?) := by
    intro i a hi target q
    rw [answerTyped?, getElem?_of_prefix htyped hi]
    rfl
  refine ⟨hdescriptors, haccessors, htyped, hanswers, hanswersTyped,
    fun i a hi hrole cast q => ?_, fun i a hi hrole cast target q hheld => ?_⟩
  · obtain ⟨d, fs, o, role, hd, hbuild⟩ := h.accessors a (List.mem_of_getElem? hi)
    obtain rfl := Accessor.descriptor_of_build fs o hbuild
    obtain ⟨k, hk⟩ := (h.form hd).construction hrole
    rw [hanswers i a hi]
    exact Accessor.answer_of_allocating hk hrole hbuild cast _ q
  · obtain ⟨d, fs, o, role, host, type, hd, hbuild⟩ := h.typedAccessors a (List.mem_of_getElem? hi)
    obtain rfl := TypedAccessor.descriptor_of_build hbuild
    obtain ⟨k, hk⟩ := (h.form hd).construction hrole
    rw [hanswersTyped i a hi]
    exact TypedAccessor.answer_of_allocating hk hrole hbuild cast _ target hheld _

end Reached

end Holdings

/-- After any run a class is abstract iff it was marked, which its members and their descriptors see
through the one flag that they share with the class and with no other. No build allocates instances
of a marked class, every other build is as if there were no marks, and what was built in a part of
the run is there after the rest of it and allocates as before. -/
theorem abstractness_over_runs (w : World) (earlier later : List Event) :
    let s := (Holdings.start w).run earlier
    s.Obeys earlier ∧ (s.run later).Obeys (earlier ++ later) ∧ s.Keeps (s.run later) := by
  intro s
  have hreached : Holdings.Reached earlier s := (Holdings.Reached.start w).run earlier
  exact ⟨hreached.obeys, (hreached.run later).obeys, hreached.keeps later⟩

/-- Two classes with one short name. -/
def shapeClass : HostClass := ⟨0, "plane::Shape"⟩

def otherShapeClass : HostClass := ⟨1, "solid::Shape"⟩

/-- A constructor of the first class, with a descriptor and an accessor, and one of the second. -/
def shapeEvents : List Event :=
  [.describe shapeClass, .register (.constructor [] []), .descriptor ⟨0⟩ .constructor,
    .build 0 .standard .constructor, .describe otherShapeClass, .register (.constructor [] []),
    .descriptor ⟨1⟩ .constructor]

/-- The first class is marked in a second block for it. -/
def shapeMark : List Event := [.describe shapeClass, .register .abstractClass]

/-- The mark reaches the descriptor from before it, the accessor from before it allocates, and the
second class is not abstract. -/
theorem abstractness_over_runs_shape : ∃ d a,
    let s := (Holdings.start pointWorld).run shapeEvents
    let s' := s.run shapeMark
    s.descriptors[0]? = some d ∧ s.accessors[0]? = some a ∧
    (∀ o, Accessor.build s'.flags o .constructor d =
      .error (d.refusal (.abstractClass shapeClass))) ∧
    s'.answer? 0 (.invoke .null []) =
      some (.ok (.object ⟨1, shapeClass⟩), ⟨pointWorld.cells ++ [⟨shapeClass, .empty⟩], .empty⟩) ∧
    s'.registry.isAbstract otherShapeClass = false := by
  obtain ⟨-, hobeys, hkeeps⟩ := abstractness_over_runs pointWorld shapeEvents shapeMark
  refine ⟨_, _, rfl, rfl, fun o => ?_, ?_, rfl⟩
  · have hmarked : Marked shapeClass (shapeEvents ++ shapeMark) :=
      ⟨shapeEvents ++ [.describe shapeClass], [], rfl, rfl⟩
    have hover := hobeys.descriptors _ List.mem_cons_self
    exact (hobeys.refused _ hover rfl hmarked o shapeClass (.base .void)).1
  · exact hkeeps.constructs 0 _ rfl rfl .fail (.invoke .null [])

end MemberAccess
