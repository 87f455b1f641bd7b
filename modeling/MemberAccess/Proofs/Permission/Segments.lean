import MemberAccess.Proofs.Permission.Rule

/-!
# Patterns and segments

A rule strips the ending of its pattern and then what is left of it from the path, character by
character. Over regular paths this is a comparison of segments: a module covers what has its
segments and more, and never a path whose next segment only begins as the module's last one does.

* `Path.IsChild`, `Path.IsBelow`: a path with one more segment than a module, or with more.
* `Path.isBelow_iff`, `Path.isChild_iff`: the same as texts.
* `TypePattern.ofText_below`, `TypePattern.ofText_exactly`: the forms of patterns.
* `rules_match_whole_segments`: the rules over a module and over everything.
-/

namespace MemberAccess

/-! ## Below a module -/

namespace Path

/-- The path has the module's segments and one more. -/
def IsChild (lead path : List Char) : Prop := ∃ piece, segments path = segments lead ++ [piece]

/-- The path has the module's segments and more. -/
def IsBelow (lead path : List Char) : Prop :=
  ∃ more, more ≠ [] ∧ segments path = segments lead ++ more

variable {ancestor lead path : List Char}

theorem IsChild.isBelow (h : IsChild lead path) : IsBelow lead path := by
  obtain ⟨piece, hpiece⟩ := h
  exact ⟨[piece], List.cons_ne_nil _ _, hpiece⟩

theorem IsBelow.trans (hlead : IsBelow ancestor lead) (h : IsBelow lead path) :
    IsBelow ancestor path := by
  obtain ⟨between, -, hbetween⟩ := hlead
  obtain ⟨more, hne, hmore⟩ := h
  rw [hbetween, List.append_assoc] at hmore
  exact ⟨between ++ more, List.append_ne_nil_of_right_ne_nil _ hne, hmore⟩

theorem IsBelow.isRegular (h : IsBelow ancestor lead) (hlead : IsRegular lead) :
    IsRegular ancestor := by
  obtain ⟨more, -, hmore⟩ := h
  intro piece hpiece
  refine hlead piece ?_
  rw [hmore]
  exact List.mem_append_left _ hpiece

theorem isBelow_iff (hlead : IsRegular lead) :
    IsBelow lead path ↔ ∃ rest, path = lead ++ ':' :: ':' :: rest := by
  constructor
  · rintro ⟨more, hne, hmore⟩
    refine ⟨join more, ?_⟩
    rw [← join_segments path, hmore, join_append (segments_ne_nil lead) hne, join_segments]
  · rintro ⟨rest, rfl⟩
    exact ⟨segments rest, segments_ne_nil rest, segments_append (fun p hp => (hlead p hp).2) rest⟩

theorem isChild_iff (hlead : IsRegular lead) :
    IsChild lead path ↔
      ∃ leaf, path = lead ++ ':' :: ':' :: leaf ∧ hasSeparator leaf = false := by
  constructor
  · intro h
    obtain ⟨piece, hpiece⟩ := id h
    obtain ⟨leaf, rfl⟩ := (isBelow_iff hlead).1 h.isBelow
    rw [segments_append fun p hp => (hlead p hp).2] at hpiece
    exact ⟨leaf, rfl, hasSeparator_eq_false_iff.2 ⟨piece, List.append_cancel_left hpiece⟩⟩
  · rintro ⟨leaf, rfl, hleaf⟩
    obtain ⟨piece, hpiece⟩ := hasSeparator_eq_false_iff.1 hleaf
    refine ⟨piece, ?_⟩
    rw [segments_append fun p hp => (hlead p hp).2, hpiece]

end Path

/-! ## Forms of patterns -/

namespace TypePattern

theorem ofText_stars : ofText ['*'] = everything ∧ ofText ['*', '*'] = everything :=
  ⟨if_pos (.inl rfl), if_pos (.inr rfl)⟩

theorem ofText_below (lead : List Char) :
    ofText (lead ++ [':', ':', '*', '*']) = below lead := by
  have hstars : ¬ (lead ++ [':', ':', '*', '*'] = ['*'] ∨
      lead ++ [':', ':', '*', '*'] = ['*', '*']) := by
    rintro (h | h) <;> simpa using congrArg List.length h
  have hbelow : Path.stripTail [':', ':', '*', '*'] (lead ++ [':', ':', '*', '*']) = some lead :=
    Path.stripTail_eq_some_iff.2 rfl
  rw [ofText, if_neg hstars, hbelow]

theorem ofText_exactly {path : List Char} (h : '*' ∉ path) : ofText path = exactly path := by
  have hstars : ¬ (path = ['*'] ∨ path = ['*', '*']) := by
    rintro (rfl | rfl) <;> exact h List.mem_cons_self
  rw [ofText, if_neg hstars, Path.stripTail_eq_none_of_not_mem (c := '*') (by decide) h,
    Path.stripTail_eq_none_of_not_mem (c := '*') (by decide) h]

section matching

variable {lead path : List Char}

theorem below_iff : (below lead).matchesPath path = true ↔
    ∃ rest, path = lead ++ ':' :: ':' :: rest := by
  unfold matchesPath
  dsimp only
  constructor
  · intro h
    split at h
    · rename_i rest hrest
      obtain ⟨rest', hrest'⟩ := Option.isSome_iff_exists.1 h
      obtain rfl := Path.stripLead_eq_some_iff.1 hrest
      obtain rfl := Path.stripLead_eq_some_iff.1 hrest'
      exact ⟨rest', rfl⟩
    · cases h
  · rintro ⟨rest, rfl⟩
    have hlead : Path.stripLead lead (lead ++ ':' :: ':' :: rest) = some (':' :: ':' :: rest) :=
      Path.stripLead_eq_some_iff.2 rfl
    rw [hlead]
    rfl

theorem exactly_iff : (exactly lead).matchesPath path = true ↔ path = lead := by
  rw [matchesPath, beq_iff_eq, eq_comm]

theorem below_iff_isBelow (hlead : Path.IsRegular lead) :
    (below lead).matchesPath path = true ↔ Path.IsBelow lead path := by
  rw [below_iff, Path.isBelow_iff hlead]

/-- The segments of a regular path are not empty, so that a leaf is any segment. -/
theorem children_iff_isChild (hlead : Path.IsRegular lead) (hpath : Path.IsRegular path) :
    (children lead).matchesPath path = true ↔ Path.IsChild lead path := by
  rw [children_iff, Path.isChild_iff hlead]
  constructor
  · rintro ⟨leaf, rfl, hleaf⟩
    exact ⟨leaf, rfl, (isLeaf_iff.1 hleaf).2⟩
  · rintro ⟨leaf, rfl, hleaf⟩
    exact ⟨leaf, rfl, isLeaf_iff.2 ⟨(hlead.of_append hpath).ne_nil, hleaf⟩⟩

end matching

end TypePattern

/-! ## Rules -/

namespace TypeRule

variable {lead path : String} {p : Permission}

theorem matchesPath_stars (path : String) (p : Permission) :
    (⟨"*", p⟩ : TypeRule).matchesPath path = true ∧
      (⟨"**", p⟩ : TypeRule).matchesPath path = true := by
  have hstar : "*".toList = ['*'] := rfl
  have hstars : "**".toList = ['*', '*'] := rfl
  rw [matchesPath, matchesPath, hstar, hstars, TypePattern.ofText_stars.1,
    TypePattern.ofText_stars.2]
  exact ⟨rfl, rfl⟩

theorem matchesPath_exactly_iff (hstar : '*' ∉ lead.toList) :
    (⟨lead, p⟩ : TypeRule).matchesPath path = true ↔ path = lead := by
  rw [matchesPath, TypePattern.ofText_exactly hstar, TypePattern.exactly_iff, String.toList_inj]

theorem matchesPath_children_eq (lead path : String) (p : Permission) :
    (⟨lead ++ "::*", p⟩ : TypeRule).matchesPath path =
      (TypePattern.children lead.toList).matchesPath path.toList := by
  have hpattern : (lead ++ "::*").toList = lead.toList ++ [':', ':', '*'] := String.toList_append
  rw [matchesPath, hpattern, TypePattern.ofText_children]

theorem matchesPath_below_eq (lead path : String) (p : Permission) :
    (⟨lead ++ "::**", p⟩ : TypeRule).matchesPath path =
      (TypePattern.below lead.toList).matchesPath path.toList := by
  have hpattern : (lead ++ "::**").toList = lead.toList ++ [':', ':', '*', '*'] :=
    String.toList_append
  rw [matchesPath, hpattern, TypePattern.ofText_below]

end TypeRule

/-- Rules over a module and a path of a type, both regular. The path itself is covered by its own
pattern only, the children by `::*`, everything below by `::**`, and all paths by the stars. So no
rule stops in the middle of a segment, what `::*` covers is covered by `::**`, and what is covered
below a module is covered below each module above it. -/
theorem rules_match_whole_segments (path lead : String) (p : Permission)
    (hpath : Path.IsRegular path.toList) (hlead : Path.IsRegular lead.toList)
    (hstar : '*' ∉ lead.toList) :
    ((⟨lead, p⟩ : TypeRule).matchesPath path = true ↔ path = lead) ∧
    ((⟨lead ++ "::*", p⟩ : TypeRule).matchesPath path = true ↔
      Path.IsChild lead.toList path.toList) ∧
    ((⟨lead ++ "::**", p⟩ : TypeRule).matchesPath path = true ↔
      Path.IsBelow lead.toList path.toList) ∧
    ((⟨"*", p⟩ : TypeRule).matchesPath path = true ∧
      (⟨"**", p⟩ : TypeRule).matchesPath path = true) ∧
    (∀ c rest, c ≠ ':' → path.toList = lead.toList ++ c :: rest →
      ∀ pattern ∈ [lead, lead ++ "::*", lead ++ "::**"],
        (⟨pattern, p⟩ : TypeRule).matchesPath path = false) ∧
    ((⟨lead ++ "::*", p⟩ : TypeRule).matchesPath path = true →
      (⟨lead ++ "::**", p⟩ : TypeRule).matchesPath path = true) ∧
    ∀ ancestor : String, Path.IsBelow ancestor.toList lead.toList →
      (⟨lead ++ "::**", p⟩ : TypeRule).matchesPath path = true →
      (⟨ancestor ++ "::**", p⟩ : TypeRule).matchesPath path = true := by
  have hexactly : (⟨lead, p⟩ : TypeRule).matchesPath path = true ↔ path = lead :=
    TypeRule.matchesPath_exactly_iff hstar
  have hchildren : (⟨lead ++ "::*", p⟩ : TypeRule).matchesPath path = true ↔
      Path.IsChild lead.toList path.toList := by
    rw [TypeRule.matchesPath_children_eq, TypePattern.children_iff_isChild hlead hpath]
  have hbelow {module : String} (hmodule : Path.IsRegular module.toList) :
      (⟨module ++ "::**", p⟩ : TypeRule).matchesPath path = true ↔
        Path.IsBelow module.toList path.toList := by
    rw [TypeRule.matchesPath_below_eq, TypePattern.below_iff_isBelow hmodule]
  refine ⟨hexactly, hchildren, hbelow hlead, TypeRule.matchesPath_stars path p, ?_, ?_, ?_⟩
  · intro c rest hc hnext
    -- a module that covers the path ends it or is followed by a colon
    have hnot : ¬ Path.IsBelow lead.toList path.toList := by
      rw [Path.isBelow_iff hlead, hnext]
      rintro ⟨rest', h⟩
      exact hc (List.cons.inj (List.append_cancel_left h)).1
    have hne : path ≠ lead := by
      rintro rfl
      simp at hnext
    intro pattern hpattern
    rw [Bool.eq_false_iff]
    simp only [List.mem_cons, List.not_mem_nil, or_false] at hpattern
    rcases hpattern with rfl | rfl | rfl
    · exact fun h => hne (hexactly.1 h)
    · exact fun h => hnot (hchildren.1 h).isBelow
    · exact fun h => hnot ((hbelow hlead).1 h)
  · rw [hchildren, hbelow hlead]
    exact Path.IsChild.isBelow
  · intro ancestor hancestor
    rw [hbelow hlead, hbelow (hancestor.isRegular hlead)]
    exact hancestor.trans

/-- A type two segments below a module is below it and below the module above, and no child; a type
of a module whose name goes on is neither. -/
theorem rules_match_whole_segments_model :
    (⟨"app::model" ++ "::**", .readAll⟩ : TypeRule).matchesPath "app::model::shapes::Point" = true ∧
    (⟨"app" ++ "::**", .readAll⟩ : TypeRule).matchesPath "app::model::shapes::Point" = true ∧
    (⟨"app::model" ++ "::*", .readAll⟩ : TypeRule).matchesPath "app::model::shapes::Point" =
      false ∧
    (⟨"app::model" ++ "::**", .readAll⟩ : TypeRule).matchesPath "app::modelling::Point" =
      false := by
  obtain ⟨-, hchild, hbelow, -, -, -, habove⟩ := rules_match_whole_segments
    "app::model::shapes::Point" "app::model" .readAll (by decide) (by decide) (by decide)
  obtain ⟨-, -, -, -, hmiddle, -⟩ := rules_match_whole_segments
    "app::modelling::Point" "app::model" .readAll (by decide) (by decide) (by decide)
  have hcovered : (⟨"app::model" ++ "::**", .readAll⟩ : TypeRule).matchesPath
      "app::model::shapes::Point" = true :=
    hbelow.2 ⟨["shapes".toList, "Point".toList], nofun, rfl⟩
  refine ⟨hcovered, habove "app" ⟨["model".toList], nofun, rfl⟩ hcovered, ?_,
    hmiddle 'l' "ing::Point".toList (by decide) rfl _ (by simp)⟩
  rw [Bool.eq_false_iff, Ne, hchild]
  rintro ⟨piece, hpiece⟩
  have hlength : (Path.segments "app::model::shapes::Point".toList).length =
      (Path.segments "app::model".toList).length + 1 := by
    rw [hpiece, List.length_append, List.length_singleton]
  exact absurd hlength (by decide)

end MemberAccess
