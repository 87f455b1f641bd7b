import MemberAccess.Proofs.Permission.Decision
import MemberAccess.Proofs.Permission.Rule
import MemberAccess.Proofs.Steps
import MemberAccess.Settings.Basic

/-!
# What settings mean

Settings are a global expression and a table of entries, read from the first to the last. Each of
them may hold mistakes. Without a mistake the settings mean what their entries say: an entry for a
path itself, or else the first wildcard entry that covers it, or else the global expression.

* `PatternForm`: the five forms of a type pattern; `isPattern_iff`.
* `Settings.problems`: all mistakes in the order in which they are looked for; `Settings.Valid`:
  there is none.
* `Settings.meaning?`: the permissions that the entries give a path.
* `Settings.edits`: the entries as edits of a policy; `Settings.addEntries_eq_ok`.
* `settings_mean_their_entries`: the first mistake, or the policy that the entries mean.
-/

namespace MemberAccess

/-! ## Patterns -/

/-- A path whose segments are not empty and hold no star. -/
structure PlainPath (path : List Char) : Prop where
  ne_nil : path ≠ []
  noStar : '*' ∉ path
  segments : ∀ piece ∈ Path.segments path, piece ≠ []

/-- The forms of a type pattern: for everything, for a path, for the children of a module and for
all below it. -/
inductive PatternForm : List Char → Prop
  | star : PatternForm ['*']
  | stars : PatternForm ['*', '*']
  | exactly {path : List Char} (h : PlainPath path) : PatternForm path
  | children {path : List Char} (h : PlainPath path) : PatternForm (path ++ [':', ':', '*'])
  | below {path : List Char} (h : PlainPath path) : PatternForm (path ++ [':', ':', '*', '*'])

theorem isPlainPath_iff {path : List Char} : isPlainPath path = true ↔ PlainPath path := by
  unfold isPlainPath
  simp only [Bool.and_eq_true, Bool.not_eq_true', List.isEmpty_eq_false_iff, List.all_eq_true,
    List.contains_eq_mem, decide_eq_false_iff_not]
  constructor
  · rintro ⟨⟨hne, hstar⟩, hsegments⟩
    exact ⟨hne, hstar, hsegments⟩
  · intro h
    exact ⟨⟨h.ne_nil, h.noStar⟩, h.segments⟩

theorem patternBody_children (path : List Char) :
    patternBody (path ++ [':', ':', '*']) = path := by
  have hchildren : Path.stripTail [':', ':', '*'] (path ++ [':', ':', '*']) = some path :=
    Path.stripTail_eq_some_iff.2 rfl
  rw [patternBody, TypePattern.stripTail_below_children, hchildren]
  rfl

theorem patternBody_below (path : List Char) :
    patternBody (path ++ [':', ':', '*', '*']) = path := by
  have hbelow : Path.stripTail [':', ':', '*', '*'] (path ++ [':', ':', '*', '*']) = some path :=
    Path.stripTail_eq_some_iff.2 rfl
  rw [patternBody, hbelow]

theorem patternBody_of_noStar {path : List Char} (h : '*' ∉ path) : patternBody path = path := by
  rw [patternBody, Path.stripTail_eq_none_of_not_mem (c := '*') (by decide) h,
    Path.stripTail_eq_none_of_not_mem (c := '*') (by decide) h]
  rfl

theorem patternForm_of_body {pattern : List Char} (h : PlainPath (patternBody pattern)) :
    PatternForm pattern := by
  unfold patternBody at h
  split at h
  · rename_i body hbelow
    obtain rfl := Path.stripTail_eq_some_iff.1 hbelow
    exact .below h
  · cases hchildren : Path.stripTail [':', ':', '*'] pattern with
    | some body =>
      rw [hchildren] at h
      obtain rfl := Path.stripTail_eq_some_iff.1 hchildren
      exact .children h
    | none =>
      rw [hchildren] at h
      exact .exactly h

theorem isPattern_iff {pattern : List Char} : isPattern pattern = true ↔ PatternForm pattern := by
  rw [isPattern, Bool.or_eq_true, Bool.or_eq_true, beq_iff_eq, beq_iff_eq, isPlainPath_iff]
  constructor
  · rintro ((rfl | rfl) | h)
    · exact .star
    · exact .stars
    · exact patternForm_of_body h
  · intro h
    cases h with
    | star => exact .inl (.inl rfl)
    | stars => exact .inl (.inr rfl)
    | exactly h => exact .inr ((patternBody_of_noStar h.noStar).symm ▸ h)
    | children h => exact .inr ((patternBody_children _).symm ▸ h)
    | below h => exact .inr ((patternBody_below _).symm ▸ h)

namespace Settings

/-! ## Mistakes -/

/-- The permissions that the value of an entry spells. -/
def spelled? (v : Toml.Value) : Option Permission := v.string?.bind Permission.parseCombined?

def globalProblems (expression : String) : List SettingsProblem :=
  match Permission.parseCombined? expression with
  | none => [.invalidGlobal expression]
  | some _ => []

def entryProblems (pattern : String) (v : Toml.Value) : List SettingsProblem :=
  (if isPattern pattern.toList then [] else [.invalidPattern pattern]) ++
    match v.string? with
    | none => [.notAString pattern]
    | some expression =>
      match Permission.parseCombined? expression with
      | none => [.invalidPermission pattern expression]
      | some _ => []

/-- The mistakes in settings: those of the global expression, then those of each entry. -/
def problems (s : Settings) : List SettingsProblem :=
  globalProblems s.global ++ s.types.entries.flatMap fun e => entryProblems e.1 e.2

/-- Every pattern has a form, every entry is a string, and every expression can be read. -/
structure Valid (s : Settings) : Prop where
  global : ∃ g, Permission.parseCombined? s.global = some g
  patterns : ∀ e ∈ s.types.entries, PatternForm e.1.toList
  expressions : ∀ e ∈ s.types.entries, ∃ expression, e.2.string? = some expression ∧
    ∃ p, Permission.parseCombined? expression = some p

theorem entryProblems_eq_nil_iff {pattern : String} {v : Toml.Value} :
    entryProblems pattern v = [] ↔ PatternForm pattern.toList ∧
      ∃ expression, v.string? = some expression ∧
        ∃ p, Permission.parseCombined? expression = some p := by
  unfold entryProblems
  rw [List.append_eq_nil_iff, ← isPattern_iff]
  refine and_congr (by split <;> simp_all) ?_
  cases hstring : v.string? with
  | none => simp
  | some expression => cases hp : Permission.parseCombined? expression <;> simp [hp]

theorem problems_eq_nil_iff {s : Settings} : s.problems = [] ↔ s.Valid := by
  have hglobal : globalProblems s.global = [] ↔
      ∃ g, Permission.parseCombined? s.global = some g := by
    unfold globalProblems
    cases Permission.parseCombined? s.global <;> simp
  rw [problems, List.append_eq_nil_iff, hglobal, List.flatMap_eq_nil_iff]
  simp only [entryProblems_eq_nil_iff]
  constructor
  · rintro ⟨hg, hentries⟩
    exact ⟨hg, fun e he => (hentries e he).1, fun e he => (hentries e he).2⟩
  · intro h
    exact ⟨h.global, fun e he => ⟨h.patterns e he, h.expressions e he⟩⟩

/-! ## The first mistake -/

theorem stopsAt_entryPermission (pattern : String) (v : Toml.Value) :
    StopsAt (entryPermission pattern v) (entryProblems pattern v).head? := by
  unfold entryPermission entryProblems
  by_cases hpattern : isPattern pattern.toList = true
  · rw [if_pos hpattern, if_pos hpattern, List.nil_append]
    cases v.string? with
    | none => exact rfl
    | some expression =>
      dsimp only
      cases Permission.parseCombined? expression with
      | none => exact rfl
      | some p => exact ⟨p, rfl⟩
  · rw [if_neg hpattern, if_neg hpattern]
    exact rfl

theorem addEntries_cons (pattern : String) (v : Toml.Value) (rest : List (String × Toml.Value))
    (policy : Policy) : addEntries ((pattern, v) :: rest) policy =
      entryPermission pattern v >>= fun p => addEntries rest (policy.addRule pattern p) := by
  rw [addEntries]
  cases entryPermission pattern v <;> rfl

theorem stopsAt_addEntries (entries : List (String × Toml.Value)) (policy : Policy) :
    StopsAt (addEntries entries policy)
      (entries.flatMap fun e => entryProblems e.1 e.2).head? := by
  induction entries generalizing policy with
  | nil => exact ⟨policy, rfl⟩
  | cons e rest ih =>
    rw [addEntries_cons, List.flatMap_cons, List.head?_append]
    exact (stopsAt_entryPermission e.1 e.2).bind fun p _ => ih _

theorem stopsAt_policy (s : Settings) : StopsAt s.policy s.problems.head? := by
  unfold Settings.policy problems globalProblems
  cases Permission.parseCombined? s.global with
  | none => exact rfl
  | some g => exact stopsAt_addEntries s.types.entries (.withGlobal g)

/-! ## Entries as edits -/

def edits (entries : List (String × Toml.Value)) : List Policy.Edit :=
  entries.filterMap fun e => (spelled? e.2).map (Policy.Edit.addRule e.1)

theorem edits_cons {e : String × Toml.Value} {p : Permission} (h : spelled? e.2 = some p)
    (rest : List (String × Toml.Value)) : edits (e :: rest) = .addRule e.1 p :: edits rest := by
  rw [edits, List.filterMap_cons, h]
  rfl

theorem spelled?_of_entryPermission {pattern : String} {v : Toml.Value} {p : Permission}
    (h : entryPermission pattern v = .ok p) : spelled? v = some p := by
  unfold entryPermission at h
  unfold spelled?
  split at h
  · cases hstring : v.string? with
    | none => rw [hstring] at h; cases h
    | some expression =>
      rw [hstring] at h
      dsimp only at h
      cases hp : Permission.parseCombined? expression with
      | none => rw [hp] at h; cases h
      | some q =>
        rw [hp] at h
        cases h
        exact hp
  · cases h

theorem addEntries_eq_ok {entries : List (String × Toml.Value)} {policy made : Policy}
    (h : addEntries entries policy = .ok made) :
    (∀ e ∈ entries, ∃ p, spelled? e.2 = some p) ∧ made = policy.edited (edits entries) := by
  induction entries generalizing policy with
  | nil =>
    obtain rfl := Except.ok.inj h
    exact ⟨nofun, rfl⟩
  | cons e rest ih =>
    rw [addEntries_cons] at h
    obtain ⟨p, hp, hrest⟩ := bind_eq_ok_iff.1 h
    have hspelled := spelled?_of_entryPermission hp
    obtain ⟨hall, rfl⟩ := ih hrest
    refine ⟨fun e' he' => ?_, ?_⟩
    · rcases List.mem_cons.1 he' with rfl | he'
      · exact ⟨p, hspelled⟩
      · exact hall e' he'
    · rw [edits_cons hspelled]
      rfl

/-! ## What the entries say of a path -/

/-- The entry is for the path itself. -/
def Names (path : String) (e : String × Toml.Value) : Prop := '*' ∉ e.1.toList ∧ e.1 = path

/-- The entry has a wildcard and covers the path. -/
def Covers (path : String) (e : String × Toml.Value) : Prop :=
  '*' ∈ e.1.toList ∧ (TypePattern.ofText e.1.toList).matchesPath path.toList = true

instance (path : String) : DecidablePred (Names path) :=
  fun e => inferInstanceAs (Decidable ('*' ∉ e.1.toList ∧ e.1 = path))

instance (path : String) : DecidablePred (Covers path) :=
  fun e => inferInstanceAs
    (Decidable ('*' ∈ e.1.toList ∧ (TypePattern.ofText e.1.toList).matchesPath path.toList = true))

/-- The permissions that the settings give a path: those of the entry for it, else of the first
entry that covers it, else the global ones. -/
def meaning? (s : Settings) (path : String) : Option Permission :=
  match (s.types.entries.find? (Names path)).or (s.types.entries.find? (Covers path)) with
  | some e => spelled? e.2
  | none => Permission.parseCombined? s.global

section edits

variable {entries : List (String × Toml.Value)} {path : String}

/-- No pattern is there twice, so that the last rule for a path is the only one. -/
theorem lastNamed_edits (hspelled : ∀ e ∈ entries, ∃ p, spelled? e.2 = some p)
    (hnodup : (entries.map Prod.fst).Nodup) : Policy.lastNamed (edits entries) path =
      (entries.find? (Names path)).bind fun e => spelled? e.2 := by
  induction entries with
  | nil => rfl
  | cons e rest ih =>
    obtain ⟨p, hp⟩ := hspelled e List.mem_cons_self
    rw [List.map_cons, List.nodup_cons] at hnodup
    have hrest := ih (fun e' he' => hspelled e' (List.mem_cons_of_mem _ he')) hnodup.2
    rw [edits_cons hp, Policy.lastNamed_cons, hrest]
    by_cases hnames : Names path e
    · -- the key stands in no later entry, so that the last rule is this one
      have hnone : rest.find? (Names path) = none := by
        refine List.find?_eq_none.2 fun e' he' hnames' => hnodup.1 ?_
        have hsame : e'.1 = e.1 := (of_decide_eq_true hnames').2.trans hnames.2.symm
        exact hsame ▸ List.mem_map_of_mem he'
      have hfind : (e :: rest).find? (Names path) = some e := by simp [hnames]
      have hedit : Policy.Edit.named? path (.addRule e.1 p) = some p := if_pos hnames
      rw [hnone, hfind, hedit]
      exact hp.symm
    · have hfind : (e :: rest).find? (Names path) = rest.find? (Names path) := by simp [hnames]
      have hedit : Policy.Edit.named? path (.addRule e.1 p) = none := if_neg hnames
      rw [hfind, hedit, Option.or_none]

theorem firstCovering_edits (hspelled : ∀ e ∈ entries, ∃ p, spelled? e.2 = some p) :
    Policy.firstCovering (edits entries) path =
      (entries.find? (Covers path)).bind fun e => spelled? e.2 := by
  induction entries with
  | nil => rfl
  | cons e rest ih =>
    obtain ⟨p, hp⟩ := hspelled e List.mem_cons_self
    have hrest := ih fun e' he' => hspelled e' (List.mem_cons_of_mem _ he')
    rw [edits_cons hp, Policy.firstCovering, List.findSome?_cons]
    by_cases hcovers : Covers path e
    · have hfind : (e :: rest).find? (Covers path) = some e := by simp [hcovers]
      have hedit : Policy.Edit.covering? path (.addRule e.1 p) = some p := if_pos hcovers
      rw [hfind, hedit]
      exact hp.symm
    · have hfind : (e :: rest).find? (Covers path) = rest.find? (Covers path) := by simp [hcovers]
      have hedit : Policy.Edit.covering? path (.addRule e.1 p) = none := if_neg hcovers
      rw [hfind, hedit]
      exact hrest

theorem lastGlobal_edits (g : Permission) : Policy.lastGlobal g (edits entries) = g := by
  have hnone : (edits entries).reverse.findSome? Policy.Edit.global? = none := by
    refine List.findSome?_eq_none_iff.2 fun edit hedit => ?_
    obtain ⟨e, -, hspelled⟩ := List.mem_filterMap.1 (List.mem_reverse.1 hedit)
    obtain ⟨p, -, rfl⟩ := Option.map_eq_some_iff.1 hspelled
    rfl
  rw [Policy.lastGlobal, hnone]
  rfl

end edits

theorem meaning?_of_policy {s : Settings} {policy : Policy} (h : s.policy = .ok policy)
    (t : TypeHandle) : s.meaning? t.name = some (policy.resolve t) := by
  unfold Settings.policy at h
  cases hglobal : Permission.parseCombined? s.global with
  | none => rw [hglobal] at h; cases h
  | some g =>
    rw [hglobal] at h
    obtain ⟨hspelled, rfl⟩ := addEntries_eq_ok h
    have hfollows := (Policy.Follows.start g).edited (edits s.types.entries)
    rw [hfollows.resolve_eq, List.nil_append, Policy.decided,
      lastNamed_edits hspelled s.types.nodup, firstCovering_edits hspelled, lastGlobal_edits,
      meaning?, hglobal]
    cases hnamed : s.types.entries.find? (Names t.name) with
    | some e =>
      obtain ⟨p, hp⟩ := hspelled e (List.mem_of_find?_eq_some hnamed)
      simp [hp]
    | none =>
      cases hcovering : s.types.entries.find? (Covers t.name) with
      | some e =>
        obtain ⟨p, hp⟩ := hspelled e (List.mem_of_find?_eq_some hcovering)
        simp [hp]
      | none => rfl

end Settings

/-! ## Settings -/

/-- Settings mean a policy and options exactly if there is no mistake in them; else the first one is
reported, of the global expression before the entries, of the entries in their order, and in an
entry of the pattern before the kind of its value before its expression. What they mean is the cast
policy as it is written and, for every type, the permissions of the entry for its path, or else of
the first wildcard entry that covers it, or else of the global expression. -/
theorem settings_mean_their_entries (s : Settings) :
    (((∃ policy, s.policy = .ok policy) ↔ s.Valid) ∧ (s.validate = .ok () ↔ s.Valid) ∧
      ((∃ options, s.options = .ok options) ↔ s.Valid)) ∧
    (∀ problem, (s.policy = .error problem ↔ s.problems.head? = some problem) ∧
      (s.validate = .error problem ↔ s.problems.head? = some problem) ∧
      (s.options = .error problem ↔ s.problems.head? = some problem)) ∧
    ∀ policy, s.policy = .ok policy → s.options = .ok ⟨policy, s.castPolicy⟩ ∧
      ∀ t : TypeHandle, s.meaning? t.name = some (policy.resolve t) := by
  have hpolicy := s.stopsAt_policy
  have hvalidate : StopsAt s.validate s.problems.head? := hpolicy.map _
  have hoptions : StopsAt s.options s.problems.head? := hpolicy.map _
  have hnone : s.problems.head? = none ↔ s.Valid :=
    List.head?_eq_none_iff.trans Settings.problems_eq_nil_iff
  refine ⟨⟨?_, ?_, ?_⟩, fun problem => ⟨?_, ?_, ?_⟩, fun policy h => ⟨?_, ?_⟩⟩
  · rw [hpolicy.exists_ok_iff, hnone]
  · have hunit : (∃ u, s.validate = .ok u) ↔ s.validate = .ok () :=
      ⟨fun ⟨_, hu⟩ => hu, fun hu => ⟨(), hu⟩⟩
    rw [← hunit, hvalidate.exists_ok_iff, hnone]
  · rw [hoptions.exists_ok_iff, hnone]
  · exact hpolicy.eq_error_iff
  · exact hvalidate.eq_error_iff
  · exact hoptions.eq_error_iff
  · rw [Settings.options, h]
    rfl
  · exact Settings.meaning?_of_policy h

/-- The first of two mistakes is reported; a path comes before the wildcards, in any order. -/
example :
    let settings (types : Table String Toml.Value) : Settings := ⟨.fail, "ALL", types⟩
    (settings (.ofList [("app::A", .integer 1), ("app::", .string "ALL")])).problems =
        [.notAString "app::A", .invalidPattern "app::"] ∧
      (settings (.ofList [("app::**", .string "NONE"), ("app::*", .string "ALL"),
        ("app::A", .string "READ_ALL")])).meaning? "app::A" = some .readAll := by
  decide

end MemberAccess
