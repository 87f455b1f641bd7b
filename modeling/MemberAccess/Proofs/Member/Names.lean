import Mathlib.Data.List.Induction
import MemberAccess.Proofs.Member.History

/-!
# Names of classes

One table holds the full paths and the short names of all classes, and every block writes to it,
also one that only adds members to a class. A name therefore means whichever class was described
last of those that have it. The class is looked up once more in the table of entries, where every
described class is found.

* `HostClass.IsNamed`: the two names of a class.
* `Registry.typeByName?_ofBlocks`: a lookup searches the history from its end.
* `LastNamed`, `LastUnderPath`, `Unambiguous`, `OwnsPath`: histories; `names_mean_last_described`.
-/

namespace MemberAccess

/-- The name is the class's full path or its short name. -/
def HostClass.IsNamed (c : HostClass) (name : String) : Prop := c.path = name ∨ c.shortName = name

instance (c : HostClass) (name : String) : Decidable (c.IsNamed name) :=
  inferInstanceAs (Decidable (_ ∨ _))

theorem HostClass.isNamed_path (c : HostClass) : c.IsNamed c.path := .inl rfl

namespace Registry

/-! ## The table of names -/

theorem names_opened (r : Registry) (host : HostClass) (name : String) :
    (r.opened host).names.get? name =
      if host.IsNamed name then some host else r.names.get? name := by
  rw [opened]
  dsimp only
  rw [Table.get?_insert, Table.get?_insert, names_enter]
  by_cases hshort : name = host.shortName
  · rw [if_pos hshort, if_pos (.inr hshort.symm)]
  · by_cases hpath : name = host.path
    · rw [if_neg hshort, if_pos hpath, if_pos (.inl hpath.symm)]
    · rw [if_neg hshort, if_neg hpath, if_neg]
      rintro (h | h)
      · exact hpath h.symm
      · exact hshort h.symm

theorem names_step (host : HostClass) (p : Progress) (step : Registration) :
    (p.step host step).registry.names = p.registry.names := by
  cases step with
  | visibility => rfl
  | abstractClass => exact p.registry.names_enter host
  | _ => exact p.registry.names_add host p.visibility _

theorem names_describe (r : Registry) (host : HostClass) (steps : List Registration) :
    (r.describe host steps).registry.names = (r.opened host).names :=
  List.foldlRecOn (motive := fun p : Progress => p.registry.names = (r.opened host).names) steps
    (Progress.step host) rfl fun p hp step _ => (names_step host p step).trans hp

theorem names_ofBlocks (blocks : List (HostClass × List Registration)) (name : String) :
    (ofBlocks blocks).names.get? name =
      (blocks.reverse.find? fun block => block.1.IsNamed name).map Prod.fst := by
  induction blocks using List.reverseRecOn with
  | nil => rfl
  | append_singleton before block ih =>
    rw [ofBlocks_concat, names_describe, names_opened, List.reverse_append, List.reverse_singleton,
      List.singleton_append, List.find?_cons, ih]
    by_cases hnamed : block.1.IsNamed name
    · simp [hnamed]
    · simp [hnamed]

/-! ## Both lookups -/

/-- The class that a name means was described, so the second lookup finds its entry. -/
theorem typeByName?_ofBlocks (blocks : List (HostClass × List Registration)) (name : String) :
    (ofBlocks blocks).typeByName? name =
      (blocks.reverse.find? fun block => block.1.IsNamed name).map Prod.fst := by
  rw [typeByName?, names_ofBlocks]
  cases hfind : blocks.reverse.find? fun block => block.1.IsNamed name with
  | none => rfl
  | some block =>
    have hblock : block ∈ blocks := List.mem_reverse.1 (List.mem_of_find?_eq_some hfind)
    obtain ⟨e, he⟩ := Option.isSome_iff_exists.1 (isSome_known?_ofBlocks hblock)
    have hhost : e.host = block.1 := (flagged_ofBlocks blocks).host block.1 e he
    rw [Option.map_some]
    dsimp only
    rw [he, Option.map_some, hhost]

end Registry

/-! ## What names mean -/

/-- Of the classes that have the name, the history described this one last. -/
def LastNamed (blocks : List (HostClass × List Registration)) (name : String) (c : HostClass) :
    Prop :=
  ∃ before steps after, blocks = before ++ (c, steps) :: after ∧ c.IsNamed name ∧
    ∀ block ∈ after, ¬ block.1.IsNamed name

/-- Of the classes that have the path of this one, the history described this one last. -/
def LastUnderPath (blocks : List (HostClass × List Registration)) (c : HostClass) : Prop :=
  ∃ before steps after, blocks = before ++ (c, steps) :: after ∧
    ∀ block ∈ after, block.1.path ≠ c.path

/-- No class of the history has the full path of another for its short name. Two may still have one
path. -/
def Unambiguous (blocks : List (HostClass × List Registration)) : Prop :=
  ∀ block ∈ blocks, ∀ block' ∈ blocks, block'.1.shortName = block.1.path → block'.1 = block.1

instance (blocks : List (HostClass × List Registration)) : Decidable (Unambiguous blocks) :=
  inferInstanceAs (Decidable (∀ block ∈ blocks, ∀ block' ∈ blocks, _ → _))

/-- No other class of the history has the path of this one. -/
def OwnsPath (blocks : List (HostClass × List Registration)) (c : HostClass) : Prop :=
  ∀ block ∈ blocks, block.1.path = c.path → block.1 = c

instance (blocks : List (HostClass × List Registration)) (c : HostClass) :
    Decidable (OwnsPath blocks c) :=
  inferInstanceAs (Decidable (∀ block ∈ blocks, _ → _))

section histories

variable {blocks : List (HostClass × List Registration)} {name : String} {c : HostClass}

theorem typeByName?_eq_some_iff :
    (Registry.ofBlocks blocks).typeByName? name = some c ↔ LastNamed blocks name c := by
  rw [Registry.typeByName?_ofBlocks, Option.map_eq_some_iff]
  constructor
  · rintro ⟨⟨host, steps⟩, hfind, rfl⟩
    obtain ⟨hnamed, after, before, hsplit, hafter⟩ := List.find?_eq_some_iff_append.1 hfind
    refine ⟨before.reverse, steps, after.reverse, ?_, of_decide_eq_true hnamed, ?_⟩
    · rw [← List.reverse_reverse blocks, hsplit]
      simp
    · intro block hblock
      simpa using hafter block (List.mem_reverse.1 hblock)
  · rintro ⟨before, steps, after, rfl, hnamed, hafter⟩
    refine ⟨(c, steps), List.find?_eq_some_iff_append.2 ⟨decide_eq_true hnamed, after.reverse,
      before.reverse, by simp, ?_⟩, rfl⟩
    intro block hblock
    simpa using hafter block (List.mem_reverse.1 hblock)

theorem typeByName?_eq_none_iff : (Registry.ofBlocks blocks).typeByName? name = none ↔
    ∀ block ∈ blocks, ¬ block.1.IsNamed name := by
  rw [Registry.typeByName?_ofBlocks, Option.map_eq_none_iff, List.find?_eq_none]
  simp

theorem Unambiguous.typeByName?_path (h : Unambiguous blocks)
    {block : HostClass × List Registration} (hblock : block ∈ blocks) :
    ∃ c, (Registry.ofBlocks blocks).typeByName? block.1.path = some c ∧
      LastNamed blocks block.1.path c ∧ c.path = block.1.path ∧ ∃ steps, (c, steps) ∈ blocks := by
  cases hlookup : (Registry.ofBlocks blocks).typeByName? block.1.path with
  | none => exact absurd block.1.isNamed_path (typeByName?_eq_none_iff.1 hlookup block hblock)
  | some c =>
    have hlast := typeByName?_eq_some_iff.1 hlookup
    obtain ⟨before, steps, after, hsplit, hnamed, -⟩ := id hlast
    have hc : (c, steps) ∈ blocks := hsplit ▸ List.mem_append_right _ List.mem_cons_self
    refine ⟨c, rfl, hlast, ?_, steps, hc⟩
    rcases hnamed with hpath | hshort
    · exact hpath
    · exact congrArg HostClass.path (h block hblock (c, steps) hc hshort)

/-- Where no path is a short name, the last class that is named by a path is the last that has it. -/
theorem Unambiguous.lastNamed_path_iff (h : Unambiguous blocks) :
    LastNamed blocks c.path c ↔ LastUnderPath blocks c := by
  constructor
  · rintro ⟨before, steps, after, hsplit, -, hafter⟩
    exact ⟨before, steps, after, hsplit, fun block hblock hpath => hafter block hblock (.inl hpath)⟩
  · rintro ⟨before, steps, after, hsplit, hafter⟩
    have hmem : ∀ block ∈ (c, steps) :: after, block ∈ blocks :=
      fun block hblock => hsplit ▸ List.mem_append_right before hblock
    refine ⟨before, steps, after, hsplit, c.isNamed_path, fun block hblock hnamed => ?_⟩
    rcases hnamed with hpath | hshort
    · exact hafter block hblock hpath
    · have hsame : block.1 = c := h (c, steps) (hmem _ List.mem_cons_self) block
        (hmem block (List.mem_cons_of_mem _ hblock)) hshort
      exact hafter block hblock (congrArg HostClass.path hsame)

end histories

/-- A class whose path is another's short name loses it to the other, and of two classes with one
path the later has it. -/
example : (Registry.ofBlocks [(⟨0, "Point"⟩, []), (pointClass, [])]).typeByName? "Point" =
      some pointClass ∧
    (Registry.ofBlocks [(pointClass, []), (⟨1, pointClass.path⟩, [])]).typeByName?
      pointClass.path = some ⟨1, pointClass.path⟩ := by
  decide

end MemberAccess
