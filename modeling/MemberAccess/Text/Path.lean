/-!
# Paths of names

A type is named by a path, such as `app::model::Point`: segments with `::` between them, and for a
generic type an argument text that starts with `<`.

* `segments`: a text cut at each leftmost `::`.
* `shortName`: a type's name without its module path, its argument text kept.
* `stripLead`, `stripTail`: a text without a given beginning or end.
-/

namespace MemberAccess.Path

/-! ## Cutting -/

/-- The pieces of a text cut at each leftmost `::`. -/
def segments : List Char → List (List Char)
  | [] => [[]]
  | ':' :: ':' :: rest => [] :: segments rest
  | c :: rest =>
    match segments rest with
    | [] => [[c]]
    | piece :: more => (c :: piece) :: more

/-- Segments written with `::` between them. -/
def join : List (List Char) → List Char
  | [] => []
  | [piece] => piece
  | piece :: more => piece ++ ':' :: ':' :: join more

/-- The text after the rightmost `::`, if there is one. -/
def afterLast : List Char → Option (List Char)
  | ':' :: ':' :: rest => some ((afterLast (':' :: rest)).getD rest)
  | _ :: rest => afterLast rest
  | [] => none

/-- The name without its module path; only the part before the first `<` is searched for `::`. -/
def shortName (name : List Char) : List Char :=
  let head := name.takeWhile (· ≠ '<')
  let arguments := name.dropWhile (· ≠ '<')
  match afterLast head with
  | none => name
  | some leaf => leaf ++ arguments

/-! ## Beginnings and ends -/

/-- The rest of `text` after `lead`, if it starts with it. -/
def stripLead : (lead text : List Char) → Option (List Char)
  | [], text => some text
  | _ :: _, [] => none
  | l :: ls, c :: cs => if l = c then stripLead ls cs else none

/-- The part of `text` before `tail`, if it ends with it. -/
def stripTail (tail text : List Char) : Option (List Char) :=
  (stripLead tail.reverse text.reverse).map List.reverse

theorem stripLead_eq_some_iff {lead text rest : List Char} :
    stripLead lead text = some rest ↔ text = lead ++ rest := by
  induction lead generalizing text with
  | nil => simp [stripLead]
  | cons l ls ih =>
    cases text with
    | nil => simp [stripLead]
    | cons c cs =>
      by_cases h : l = c
      · subst h; simp [stripLead, ih]
      · simp [stripLead, h, Ne.symm h]

theorem stripTail_eq_some_iff {tail text body : List Char} :
    stripTail tail text = some body ↔ text = body ++ tail := by
  unfold stripTail
  rw [Option.map_eq_some_iff]
  constructor
  · rintro ⟨a, ha, rfl⟩
    have := stripLead_eq_some_iff.1 ha
    simpa using congrArg List.reverse this
  · rintro rfl
    exact ⟨body.reverse, stripLead_eq_some_iff.2 (by simp), by simp⟩

def hasSeparator (text : List Char) : Bool := (afterLast text).isSome

end MemberAccess.Path
