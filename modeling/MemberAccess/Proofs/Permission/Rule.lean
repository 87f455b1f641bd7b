import MemberAccess.Permission.Rule
import MemberAccess.Proofs.Text.Path
import MemberAccess.Value.Types

/-!
# Rules and the types below a module

A rule for the direct children of a module reads the whole of what stands below the module and
refuses a `::` anywhere in it. A type is named by what stands before its arguments, so a generic
type whose arguments have paths of their own is a child of its module that the rule passes over.

* `TypePattern.ofText_children`, `TypePattern.children_iff`: the form of the pattern and the paths
  that it covers.
* `children_rule_iff`: the types that the rule covers.
* `children_rule_passes_over_generic`: one that it passes over.
-/

namespace MemberAccess

namespace TypePattern

theorem stripTail_below_children (lead : List Char) :
    Path.stripTail [':', ':', '*', '*'] (lead ++ [':', ':', '*']) = none := by
  rw [Option.eq_none_iff_forall_ne_some]
  intro body hbody
  have hreverse := congrArg List.reverse (Path.stripTail_eq_some_iff.1 hbody)
  simp at hreverse

theorem ofText_children (lead : List Char) : ofText (lead ++ [':', ':', '*']) = children lead := by
  have hstars : ¬ (lead ++ [':', ':', '*'] = ['*'] ∨ lead ++ [':', ':', '*'] = ['*', '*']) := by
    rintro (h | h)
    · have hlength := congrArg List.length h
      simp at hlength
    · have hlength := congrArg List.length h
      simp at hlength
  have hchildren : Path.stripTail [':', ':', '*'] (lead ++ [':', ':', '*']) = some lead :=
    Path.stripTail_eq_some_iff.2 rfl
  rw [ofText, if_neg hstars, stripTail_below_children, hchildren]

theorem isLeaf_iff {text : List Char} :
    isLeaf text = true ↔ text ≠ [] ∧ Path.hasSeparator text = false := by
  rw [isLeaf, Bool.and_eq_true, Bool.not_eq_true', Bool.not_eq_true', List.isEmpty_eq_false_iff]

theorem children_iff {lead path : List Char} : (children lead).matchesPath path = true ↔
    ∃ leaf, path = lead ++ ':' :: ':' :: leaf ∧ isLeaf leaf = true := by
  unfold matchesPath
  dsimp only
  constructor
  · intro h
    split at h
    · rename_i rest hrest
      split at h
      · rename_i leaf hleaf
        obtain rfl := Path.stripLead_eq_some_iff.1 hrest
        obtain rfl := Path.stripLead_eq_some_iff.1 hleaf
        exact ⟨leaf, rfl, h⟩
      · cases h
    · cases h
  · rintro ⟨leaf, rfl, hleaf⟩
    have hlead : Path.stripLead lead (lead ++ ':' :: ':' :: leaf) = some (':' :: ':' :: leaf) :=
      Path.stripLead_eq_some_iff.2 rfl
    have hsep : Path.stripLead [':', ':'] (':' :: ':' :: leaf) = some leaf :=
      Path.stripLead_eq_some_iff.2 rfl
    rw [hlead]
    dsimp only
    rw [hsep]
    exact hleaf

end TypePattern

/-! ## Types below a module -/

/-- A rule for the children of a module covers the types whose path is the module, a separator and
the type's short name, as long as the short name holds no separator itself. -/
theorem children_rule_iff (t : TypeHandle) (lead : String) (p : Permission)
    (hname : Path.IsTypeName t.name.toList) (hlead : Path.IsRegular lead.toList)
    (hangle : '<' ∉ lead.toList) :
    (⟨lead ++ "::*", p⟩ : TypeRule).matchesPath t.name = true ↔
      t.name = lead ++ "::" ++ t.shortName ∧ Path.hasSeparator t.shortName.toList = false := by
  have hshort : t.shortName.toList = Path.shortName t.name.toList := String.toList_ofList
  have hpath : t.name = lead ++ "::" ++ t.shortName ↔
      t.name.toList = lead.toList ++ ':' :: ':' :: Path.shortName t.name.toList := by
    rw [← String.toList_inj, String.toList_append, String.toList_append, hshort, List.append_assoc]
    rfl
  have hpattern : (lead ++ "::*").toList = lead.toList ++ [':', ':', '*'] := String.toList_append
  rw [hpath, hshort, TypeRule.matchesPath, hpattern, TypePattern.ofText_children,
    TypePattern.children_iff]
  constructor
  · rintro ⟨leaf, hleaf, hone⟩
    have hsep := (TypePattern.isLeaf_iff.1 hone).2
    rw [hleaf] at hname
    have hsame := Path.shortName_of_child hlead hangle hname hsep
    rw [hleaf, hsame]
    exact ⟨rfl, hsep⟩
  · rintro ⟨heq, hsep⟩
    refine ⟨_, heq, TypePattern.isLeaf_iff.2 ⟨?_, hsep⟩⟩
    rw [heq] at hname
    exact Path.ne_nil_of_isTypeName hlead hangle hname

/-- A generic class whose argument is a primitive. -/
def cellClass : HostClass := ⟨0, "app::model::Cell<i32>"⟩

/-- The rule for its module covers the class. -/
theorem children_rule_iff_cell :
    (⟨"app::model" ++ "::*", .readAll⟩ : TypeRule).matchesPath
      (TypeHandle.ofHost cellClass).name = true := by
  have hcell := children_rule_iff (.ofHost cellClass) "app::model" .readAll (by decide)
    (by decide) (by decide)
  exact hcell.2 (by decide)

/-- A generic class whose argument has a path of its own. -/
def holderClass : HostClass := ⟨0, "app::model::Holder<alloc::string::String>"⟩

/-- The rule for its module passes over the class, whose path is the module, a separator and its
short name. -/
theorem children_rule_passes_over_generic :
    (∀ piece ∈ Path.segments "app::model".toList,
      piece ≠ [] ∧ ':' ∉ piece ∧ '<' ∉ piece ∧ '*' ∉ piece) ∧
      Path.IsTypeName (TypeHandle.ofHost holderClass).name.toList ∧
      (TypeHandle.ofHost holderClass).name =
        "app::model" ++ "::" ++ (TypeHandle.ofHost holderClass).shortName ∧
      (⟨"app::model" ++ "::*", .readAll⟩ : TypeRule).matchesPath
        (TypeHandle.ofHost holderClass).name = false := by
  decide

end MemberAccess
