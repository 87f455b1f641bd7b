import MemberAccess.Proofs.Permission.Segments
import MemberAccess.Proofs.Settings.Meaning

/-!
# Patterns that settings may hold

A pattern is looked at three times, by three tests of its own: settings check its form, a policy
looks for a `*` to tell a wildcard from a path, and a rule strips the endings. The tests agree on
every pattern that settings may hold, so that none of them is stored and covers nothing.

* `TypePattern.Wildcard`: the forms of a wildcard; `PatternForm.wildcard`, `PatternForm.exactly_of`.
* `Settings.entryPermission_eq_invalidPattern_iff`: what settings refuse.
* `Policy.addRule_eq_exact_iff`, `Policy.addRule_eq_rules_iff`: how a pattern is stored.
* `PatternForm.exists_matched`, `Policy.resolve_addRule`: a path that the pattern covers, and that
  its rule is in force there.
* `accepted_patterns_cover_a_type`: all of it, for every text.
-/

namespace MemberAccess

/-! ## Forms -/

/-- The forms that wildcards have, and what they are read as. -/
inductive TypePattern.Wildcard : List Char → TypePattern → Prop
  | star : Wildcard ['*'] everything
  | stars : Wildcard ['*', '*'] everything
  | children {path : List Char} (h : PlainPath path) :
      Wildcard (path ++ [':', ':', '*']) (children path)
  | below {path : List Char} (h : PlainPath path) :
      Wildcard (path ++ [':', ':', '*', '*']) (below path)

namespace PatternForm

variable {pattern : List Char}

theorem wildcard (h : PatternForm pattern) (hstar : '*' ∈ pattern) :
    TypePattern.Wildcard pattern (TypePattern.ofText pattern) := by
  cases h with
  | star =>
    rw [TypePattern.ofText_stars.1]
    exact .star
  | stars =>
    rw [TypePattern.ofText_stars.2]
    exact .stars
  | exactly h => exact absurd hstar h.noStar
  | children h =>
    rw [TypePattern.ofText_children]
    exact .children h
  | below h =>
    rw [TypePattern.ofText_below]
    exact .below h

def sampleName : List Char := ['X']

theorem isRegular_sampleName : Path.IsRegular sampleName := by decide

theorem exists_matched (h : PatternForm pattern) :
    ∃ path, (TypePattern.ofText pattern).matchesPath path = true ∧
      (Path.IsRegular (patternBody pattern) → Path.IsRegular path) := by
  cases h with
  | star => exact ⟨sampleName, TypePattern.ofText_stars.1 ▸ rfl, fun _ => isRegular_sampleName⟩
  | stars => exact ⟨sampleName, TypePattern.ofText_stars.2 ▸ rfl, fun _ => isRegular_sampleName⟩
  | exactly h =>
    rw [TypePattern.ofText_exactly h.noStar, patternBody_of_noStar h.noStar]
    exact ⟨pattern, TypePattern.exactly_iff.2 rfl, id⟩
  | @children path h =>
    rw [TypePattern.ofText_children, patternBody_children]
    have hleaf : TypePattern.isLeaf sampleName = true := by decide
    exact ⟨path ++ ':' :: ':' :: sampleName, TypePattern.children_iff.2 ⟨_, rfl, hleaf⟩,
      fun hbody => hbody.append isRegular_sampleName⟩
  | @below path h =>
    rw [TypePattern.ofText_below, patternBody_below]
    exact ⟨path ++ ':' :: ':' :: sampleName, TypePattern.below_iff.2 ⟨_, rfl⟩,
      fun hbody => hbody.append isRegular_sampleName⟩

end PatternForm

theorem Settings.entryPermission_eq_invalidPattern_iff {pattern : String} {v : Toml.Value} :
    entryPermission pattern v = .error (.invalidPattern pattern) ↔
      ¬ PatternForm pattern.toList := by
  rw [← isPattern_iff]
  unfold entryPermission
  by_cases hpattern : isPattern pattern.toList = true
  · rw [if_pos hpattern]
    refine iff_of_false (fun h => ?_) (not_not_intro hpattern)
    split at h
    · cases h
    · split at h <;> cases h
  · rw [if_neg hpattern]
    exact iff_of_true rfl hpattern

/-! ## Storing -/

namespace Policy

variable {policy : Policy} {pattern : String} {p : Permission}

theorem exact_ne_rules (t : Table String Permission) (rule : TypeRule) :
    { policy with exact := t } ≠ { policy with rules := policy.rules ++ [rule] } := by
  intro h
  have hrules : policy.rules = policy.rules ++ [rule] := congrArg Policy.rules h
  simp at hrules

theorem addRule_eq_exact_iff :
    policy.addRule pattern p = { policy with exact := policy.exact.insert pattern p } ↔
      '*' ∉ pattern.toList := by
  refine ⟨fun h hstar => ?_, addRule_of_noStar⟩
  rw [addRule_of_star hstar] at h
  exact exact_ne_rules _ _ h.symm

theorem addRule_eq_rules_iff :
    policy.addRule pattern p = { policy with rules := policy.rules ++ [⟨pattern, p⟩] } ↔
      '*' ∈ pattern.toList := by
  refine ⟨fun h => Decidable.byContradiction fun hstar => ?_, addRule_of_star⟩
  rw [addRule_of_noStar hstar] at h
  exact exact_ne_rules _ _ h

theorem resolve_addRule {t : TypeHandle} (g : Permission)
    (h : (⟨pattern, p⟩ : TypeRule).matchesPath t.name = true) :
    ((withGlobal g).addRule pattern p).resolve t = p := by
  have hfollows := (Follows.start g).step (.addRule pattern p)
  rw [List.nil_append] at hfollows
  refine (hfollows.resolve_eq t).trans ?_
  by_cases hstar : '*' ∈ pattern.toList
  · simp [decided, lastNamed, firstCovering, Edit.named?, Edit.covering?, hstar, h]
  · have hname := (TypeRule.matchesPath_exactly_iff hstar).1 h
    simp [decided, lastNamed, Edit.named?, hstar, hname]

end Policy

/-! ## Every pattern -/

/-- Settings hold the patterns of the grammar and refuse an entry under any other text. What they
hold is stored under its text iff it has no star, and as a rule otherwise; with a star it is read as
the wildcard that it is, without one it covers itself alone; and there is a class for which it
decides, with a path of proper segments if the pattern's own are. -/
theorem accepted_patterns_cover_a_type (s : String) :
    ((isPattern s.toList = true ↔ PatternForm s.toList) ∧
      ∀ v, Settings.entryPermission s v = .error (.invalidPattern s) ↔ ¬ PatternForm s.toList) ∧
    (isPattern s.toList = true →
      (∀ (policy : Policy) (p : Permission),
        (policy.addRule s p = { policy with exact := policy.exact.insert s p } ↔
          '*' ∉ s.toList) ∧
        (policy.addRule s p = { policy with rules := policy.rules ++ [⟨s, p⟩] } ↔
          '*' ∈ s.toList)) ∧
      ('*' ∈ s.toList → TypePattern.Wildcard s.toList (TypePattern.ofText s.toList)) ∧
      ('*' ∉ s.toList → ∀ (p : Permission) (path : String),
        (⟨s, p⟩ : TypeRule).matchesPath path = true ↔ path = s) ∧
      ∃ c : HostClass,
        (∀ p, (⟨s, p⟩ : TypeRule).matchesPath c.path = true ∧
          ∀ g, ((Policy.withGlobal g).addRule s p).resolve (.ofHost c) = p) ∧
        (Path.IsRegular (patternBody s.toList) → Path.IsRegular c.path.toList)) := by
  refine ⟨⟨isPattern_iff, fun v => Settings.entryPermission_eq_invalidPattern_iff⟩,
    fun hpattern => ?_⟩
  have hform := isPattern_iff.1 hpattern
  obtain ⟨path, hmatched, hregular⟩ := hform.exists_matched
  have hpath : (String.ofList path).toList = path := String.toList_ofList
  have hcovers : ∀ p, (⟨s, p⟩ : TypeRule).matchesPath (String.ofList path) = true := by
    intro p
    rw [TypeRule.matchesPath, hpath]
    exact hmatched
  exact ⟨fun policy p => ⟨Policy.addRule_eq_exact_iff, Policy.addRule_eq_rules_iff⟩, hform.wildcard,
    fun hstar p path => TypeRule.matchesPath_exactly_iff hstar, ⟨0, String.ofList path⟩,
    fun p => ⟨hcovers p, fun g => Policy.resolve_addRule g (hcovers p)⟩, hpath.symm ▸ hregular⟩

/-- The pattern for the children of a module is read as that, is stored as a rule, and decides for a
class with a regular path. -/
theorem accepted_patterns_cover_a_type_model :
    isPattern "app::model::*".toList = true ∧
    TypePattern.Wildcard "app::model::*".toList (TypePattern.ofText "app::model::*".toList) ∧
    (Policy.unrestricted.addRule "app::model::*" .none).rules = [⟨"app::model::*", .none⟩] ∧
    ∃ c : HostClass, (⟨"app::model::*", .none⟩ : TypeRule).matchesPath c.path = true ∧
      Path.IsRegular c.path.toList := by
  obtain ⟨-, haccepted⟩ := accepted_patterns_cover_a_type "app::model::*"
  have hpattern : isPattern "app::model::*".toList = true := by decide
  have hstar : '*' ∈ "app::model::*".toList := by decide
  obtain ⟨hstored, hwildcard, -, c, hcovers, hregular⟩ := haccepted hpattern
  have hrule := (hstored Policy.unrestricted .none).2.2 hstar
  exact ⟨hpattern, hwildcard hstar, congrArg Policy.rules hrule, c, (hcovers .none).1,
    hregular (by decide)⟩

/-- Texts that come close to a pattern. -/
example : ∀ s ∈ ["::*", "a::", "a::::b", "a::*::*", "a::***"], isPattern s.toList = false := by
  decide

end MemberAccess
