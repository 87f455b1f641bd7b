import MemberAccess.Proofs.Text.Path
import MemberAccess.Value.Types

/-!
# Names of types

The name of a type is a path of modules, the type's own name, and for a generic type an argument
text. The short name is cut out of the whole name at a position that is found in the part before
the arguments, where the last module ends.

* `Path.LastSeparator`, `Path.shortName_eq_drop`: the position, and the cut, for any name.
* `TypeName`: a name in its parts; `TypeName.lastSeparator_text`.
* `short_name_drops_modules`: the short name is all but the modules.
-/

namespace MemberAccess

/-! ## The cut -/

namespace Path

/-- The rightmost `::` of the text is at the position. -/
structure LastSeparator (text : List Char) (i : Nat) : Prop where
  here : [':', ':'] <+: text.drop i
  later : ∀ j > i, ¬ [':', ':'] <+: text.drop j

variable {name text : List Char} {i : Nat}

theorem LastSeparator.exists_append (h : LastSeparator text i) :
    ∃ leaf, text = text.take i ++ ':' :: ':' :: leaf ∧ i + 2 ≤ text.length ∧
      afterLast (':' :: leaf) = none := by
  obtain ⟨leaf, hleaf⟩ := h.here
  refine ⟨leaf, ?_, ?_, ?_⟩
  · exact (List.take_append_drop i text).symm.trans (congrArg (text.take i ++ ·) hleaf.symm)
  · have hlength := congrArg List.length hleaf
    simp only [List.length_append, List.length_cons, List.length_nil, List.length_drop] at hlength
    omega
  · -- a separator in the rest would be one of the text, and further to the right
    rw [afterLast_eq_none_iff]
    rintro ⟨before, after, hinner⟩
    refine h.later (i + (1 + before.length)) (by omega) ⟨after, ?_⟩
    have hrest : text.drop (i + 1) = ':' :: leaf := by
      rw [← List.drop_drop, ← hleaf]
      rfl
    rw [← Nat.add_assoc, ← List.drop_drop, hrest, ← hinner, List.append_assoc, List.drop_left]

theorem afterLast_of_not_mem (h : ':' ∉ text) :
    afterLast text = none ∧ afterLast (':' :: text) = none := by
  have hnone : ¬ [':', ':'] <:+: text := fun hseparator => h (hseparator.subset List.mem_cons_self)
  refine ⟨afterLast_eq_none_iff.2 hnone, afterLast_eq_none_iff.2 fun hseparator => ?_⟩
  rcases List.infix_cons_iff.1 hseparator with ⟨rest, hrest⟩ | hseparator
  · rw [← (List.cons.inj hrest).2] at h
    exact h List.mem_cons_self
  · exact hnone hseparator

theorem lastSeparator_append (lead : List Char) {leaf : List Char} (hleaf : ':' ∉ leaf) :
    LastSeparator (lead ++ ':' :: ':' :: leaf) lead.length := by
  refine ⟨?_, fun j hj hprefix => ?_⟩
  · rw [List.drop_left]
    exact ⟨leaf, rfl⟩
  · obtain ⟨k, rfl⟩ := Nat.exists_eq_add_of_lt hj
    have hseparator : [':', ':'] <:+: (':' :: leaf).drop k := by
      rw [Nat.add_assoc, ← List.drop_drop, List.drop_left, List.drop_succ_cons] at hprefix
      exact hprefix.isInfix
    have hnone := afterLast_eq_none_iff.1 (afterLast_of_not_mem hleaf).2
    exact hnone (hseparator.trans (List.drop_suffix k _).isInfix)

theorem unapplied_append_arguments (name : List Char) :
    unapplied name ++ name.dropWhile (· ≠ '<') = name :=
  List.takeWhile_append_dropWhile

/-- A name is cut behind the rightmost separator before its arguments, and the cut is in range. -/
theorem shortName_eq_drop (h : LastSeparator (unapplied name) i) :
    i + 2 ≤ name.length ∧ shortName name = name.drop (i + 2) := by
  obtain ⟨leaf, hhead, hlength, hlast⟩ := h.exists_append
  have hlead : ((unapplied name).take i ++ [':', ':']).length = i + 2 := by
    rw [List.length_append, List.length_take_of_le (by omega)]
    rfl
  have hname : ((unapplied name).take i ++ [':', ':']) ++
      (leaf ++ name.dropWhile (· ≠ '<')) = name := by
    have hparts := unapplied_append_arguments name
    rw [hhead] at hparts
    simpa using hparts
  have hafter : afterLast (name.takeWhile (· ≠ '<')) = some leaf :=
    (congrArg afterLast hhead).trans (afterLast_append _ hlast)
  refine ⟨Nat.le_trans hlength (List.takeWhile_prefix _).length_le, ?_⟩
  calc shortName name = leaf ++ name.dropWhile (· ≠ '<') := by
        unfold shortName
        dsimp only
        rw [hafter]
    _ = (((unapplied name).take i ++ [':', ':']) ++ (leaf ++ name.dropWhile (· ≠ '<'))).drop
          (i + 2) := by rw [← hlead, List.drop_left]
    _ = name.drop (i + 2) := by rw [hname]

theorem shortName_eq_self (h : afterLast (unapplied name) = none) : shortName name = name := by
  rw [unapplied] at h
  unfold shortName
  dsimp only
  rw [h]

theorem not_mem_join {c : Char} (hc : c ≠ ':') {pieces : List (List Char)}
    (h : ∀ piece ∈ pieces, c ∉ piece) : c ∉ join pieces := by
  induction pieces with
  | nil => exact List.not_mem_nil
  | cons piece more ih =>
    have hpiece := h piece List.mem_cons_self
    have hmore := ih fun p hp => h p (List.mem_cons_of_mem piece hp)
    cases more with
    | nil => exact hpiece
    | cons piece' more => simp [join, hpiece, hc, hmore]

end Path

/-! ## Parts of a name -/

/-- The name of a type in its parts. -/
structure TypeName where
  /-- The modules around the type, the outermost first. -/
  modules : List (List Char)
  /-- The type's own name. -/
  leaf : List Char
  /-- The argument text of a generic type; paths may stand in it. -/
  arguments : List Char
  proper : ∀ piece ∈ modules ++ [leaf], piece ≠ [] ∧ ':' ∉ piece ∧ '<' ∉ piece
  applied : arguments = [] ∨ arguments.head? = some '<'

namespace TypeName

variable (n : TypeName)

def text : List Char := Path.join (n.modules ++ [n.leaf]) ++ n.arguments

theorem leaf_proper : n.leaf ≠ [] ∧ ':' ∉ n.leaf ∧ '<' ∉ n.leaf :=
  n.proper n.leaf (List.mem_append_right _ List.mem_cons_self)

theorem unapplied_text : Path.unapplied n.text = Path.join (n.modules ++ [n.leaf]) := by
  have hangle : '<' ∉ Path.join (n.modules ++ [n.leaf]) :=
    Path.not_mem_join (by decide) fun piece hpiece => (n.proper piece hpiece).2.2
  have harguments : Path.unapplied n.arguments = [] := by
    rcases n.applied with hnil | hhead
    · rw [hnil]
      rfl
    · obtain ⟨rest, hrest⟩ := List.head?_eq_some_iff.1 hhead
      rw [hrest]
      rfl
  rw [text, Path.unapplied_append hangle, harguments, List.append_nil]

variable {n}

theorem text_of_no_modules (h : n.modules = []) : n.text = n.leaf ++ n.arguments := by
  rw [text, h]
  rfl

theorem join_of_modules (h : n.modules ≠ []) :
    Path.join (n.modules ++ [n.leaf]) = Path.join n.modules ++ ':' :: ':' :: n.leaf :=
  Path.join_append h (List.cons_ne_nil _ _)

theorem text_of_modules (h : n.modules ≠ []) :
    n.text = Path.join n.modules ++ [':', ':'] ++ (n.leaf ++ n.arguments) := by
  rw [text, join_of_modules h]
  simp

theorem suffix_text (n : TypeName) : n.leaf ++ n.arguments <:+ n.text := by
  by_cases hmodules : n.modules = []
  · exact ⟨[], (text_of_no_modules hmodules).symm⟩
  · exact ⟨_, (text_of_modules hmodules).symm⟩

theorem lastSeparator_text (h : n.modules ≠ []) :
    Path.LastSeparator (Path.unapplied n.text) (Path.join n.modules).length := by
  rw [n.unapplied_text, join_of_modules h]
  exact Path.lastSeparator_append _ n.leaf_proper.2.1

theorem shortName_text (n : TypeName) : Path.shortName n.text = n.leaf ++ n.arguments := by
  by_cases hmodules : n.modules = []
  · have hnone : Path.afterLast (Path.unapplied n.text) = none := by
      rw [n.unapplied_text, hmodules]
      exact (Path.afterLast_of_not_mem n.leaf_proper.2.1).1
    rw [Path.shortName_eq_self hnone, text_of_no_modules hmodules]
  · rw [(Path.shortName_eq_drop (lastSeparator_text hmodules)).2, text_of_modules hmodules]
    exact List.drop_left' (List.length_append ..)

end TypeName

/-- The short name of a type is its own name with the argument text: an ending of the type's name.
Without modules it is the whole name, else the name is the modules, a separator and the short name.
That separator is the rightmost one before the arguments, and the whole name is cut behind it. -/
theorem short_name_drops_modules (n : TypeName) (t : TypeHandle) (hname : t.name.toList = n.text) :
    t.shortName.toList = n.leaf ++ n.arguments ∧
    t.shortName.toList <:+ t.name.toList ∧
    (n.modules = [] → t.name = t.shortName) ∧
    (n.modules ≠ [] →
      t.name.toList = Path.join n.modules ++ [':', ':'] ++ t.shortName.toList ∧
      Path.LastSeparator (Path.unapplied t.name.toList) (Path.join n.modules).length ∧
      (Path.join n.modules).length + 2 ≤ t.name.toList.length ∧
      t.shortName.toList = t.name.toList.drop ((Path.join n.modules).length + 2)) := by
  have hshort : t.shortName.toList = Path.shortName t.name.toList := String.toList_ofList
  rw [← String.toList_inj, hshort, hname, n.shortName_text]
  refine ⟨rfl, n.suffix_text, TypeName.text_of_no_modules, fun hmodules => ?_⟩
  have hlast := TypeName.lastSeparator_text hmodules
  obtain ⟨hrange, hcut⟩ := Path.shortName_eq_drop hlast
  rw [n.shortName_text] at hcut
  exact ⟨TypeName.text_of_modules hmodules, hlast, hrange, hcut⟩

/-- A generic type in two modules, with a path and a further argument in its argument text. -/
def nestedName : TypeName where
  modules := ["app".toList, "model".toList]
  leaf := "Table".toList
  arguments := "<app::Cell<i32>>".toList
  proper := by decide
  applied := .inr rfl

/-- The separators in its arguments are passed over. -/
theorem short_name_drops_modules_nested :
    let t : TypeHandle := .ofHost ⟨0, "app::model::Table<app::Cell<i32>>"⟩
    t.name.toList = nestedName.text ∧
      t.shortName = "Table<app::Cell<i32>>" ∧
      t.name = "app::model" ++ "::" ++ t.shortName := by
  intro t
  have hname : t.name.toList = nestedName.text := by decide
  obtain ⟨hshort, -, -, hmodules⟩ := short_name_drops_modules nestedName t hname
  refine ⟨hname, String.toList_inj.1 hshort, String.toList_inj.1 ?_⟩
  rw [String.toList_append, String.toList_append]
  exact (hmodules (by decide)).1

end MemberAccess
