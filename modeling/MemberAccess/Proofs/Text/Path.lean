import MemberAccess.Text.Path

/-!
# Segments and separators

A path is cut at each leftmost `::`, a short name after the rightmost one. The two ways to look at a
path meet where its segments hold no colon.

* `Path.segments_append`, `Path.join_append`: the segments of a path below a module.
* `Path.IsRegular`, `Path.IsTypeName`: paths of proper segments, and the names of types.
* `Path.hasSeparator_iff`, `Path.hasSeparator_eq_false_iff`: a separator in a text;
  `Path.afterLast_append`: the rightmost one.
* `Path.shortName_append`: the short name of a type below a module.
-/

namespace MemberAccess.Path

/-! ## Endings -/

theorem stripTail_eq_none_of_not_mem {c : Char} {tail text : List Char} (htail : c ∈ tail)
    (h : c ∉ text) : stripTail tail text = none := by
  rw [Option.eq_none_iff_forall_ne_some]
  intro body hbody
  rw [stripTail_eq_some_iff.1 hbody] at h
  exact h (List.mem_append_right body htail)

/-! ## Segments -/

theorem segments_ne_nil (text : List Char) : segments text ≠ [] := by
  fun_cases segments text <;> simp

theorem segments_cons {c : Char} (hc : c ≠ ':') (rest : List Char) :
    ∃ piece more, segments rest = piece :: more ∧ segments (c :: rest) = (c :: piece) :: more := by
  obtain ⟨piece, more, hrest⟩ := List.exists_cons_of_ne_nil (segments_ne_nil rest)
  refine ⟨piece, more, hrest, ?_⟩
  rw [segments.eq_3 c rest fun _ h _ => hc h, hrest]

theorem segments_piece {piece : List Char} (hpiece : ':' ∉ piece) (rest : List Char) :
    segments (piece ++ ':' :: ':' :: rest) = piece :: segments rest := by
  induction piece with
  | nil => rfl
  | cons c cs ih =>
    rw [List.mem_cons, not_or] at hpiece
    obtain ⟨hc, hcs⟩ := hpiece
    obtain ⟨first, more, hfirst, hcons⟩ := segments_cons (Ne.symm hc) (cs ++ ':' :: ':' :: rest)
    rw [ih hcs] at hfirst
    obtain ⟨rfl, rfl⟩ := List.cons.inj hfirst
    exact hcons

theorem join_segments (text : List Char) : join (segments text) = text := by
  induction text using segments.induct with
  | case1 => rfl
  | case2 rest ih =>
    obtain ⟨piece, more, hrest⟩ := List.exists_cons_of_ne_nil (segments_ne_nil rest)
    rw [segments, hrest, join, ← hrest, ih]
    · rfl
    · simp
  | case3 c rest _ hrest => exact absurd hrest (segments_ne_nil rest)
  | case4 c rest hsep piece more hrest ih =>
    rw [segments.eq_3 c rest hsep, hrest]
    rw [hrest] at ih
    cases more with
    | nil => exact congrArg (c :: ·) ih
    | cons piece' more => exact congrArg (c :: ·) ih

theorem segments_append {lead : List Char} (hlead : ∀ piece ∈ segments lead, ':' ∉ piece)
    (rest : List Char) :
    segments (lead ++ ':' :: ':' :: rest) = segments lead ++ segments rest := by
  have hjoin : ∀ pieces : List (List Char), pieces ≠ [] → (∀ piece ∈ pieces, ':' ∉ piece) →
      segments (join pieces ++ ':' :: ':' :: rest) = pieces ++ segments rest := by
    intro pieces hne hpieces
    induction pieces with
    | nil => exact absurd rfl hne
    | cons piece more ih =>
      have hpiece := hpieces piece List.mem_cons_self
      cases more with
      | nil => exact segments_piece hpiece rest
      | cons piece' more =>
        have hmore := ih (List.cons_ne_nil _ _) fun p hp => hpieces p (List.mem_cons_of_mem _ hp)
        rw [join, List.append_assoc, List.cons_append, List.cons_append, segments_piece hpiece,
          hmore]
        · rfl
        · simp
  have h := hjoin (segments lead) (segments_ne_nil lead) hlead
  rwa [join_segments] at h

theorem join_append {pieces more : List (List Char)} (hpieces : pieces ≠ []) (hmore : more ≠ []) :
    join (pieces ++ more) = join pieces ++ ':' :: ':' :: join more := by
  obtain ⟨next, later, rfl⟩ := List.exists_cons_of_ne_nil hmore
  induction pieces with
  | nil => exact absurd rfl hpieces
  | cons piece rest ih =>
    cases rest with
    | nil => rfl
    | cons piece' rest =>
      have hrest := ih (List.cons_ne_nil _ _)
      rw [List.cons_append] at hrest
      simp only [List.cons_append, join, hrest, List.append_assoc]

/-! ## Regular paths -/

/-- The segments of the path are not empty and hold no colon. -/
def IsRegular (path : List Char) : Prop := ∀ piece ∈ segments path, piece ≠ [] ∧ ':' ∉ piece

instance (path : List Char) : Decidable (IsRegular path) :=
  inferInstanceAs (Decidable (∀ piece ∈ segments path, piece ≠ [] ∧ ':' ∉ piece))

namespace IsRegular

variable {path lead rest : List Char}

theorem ne_nil (h : IsRegular path) : path ≠ [] := by
  rintro rfl
  exact (h [] List.mem_cons_self).1 rfl

theorem exists_cons (h : IsRegular path) : ∃ c rest, c ≠ ':' ∧ path = c :: rest := by
  obtain ⟨piece, more, hsegments⟩ := List.exists_cons_of_ne_nil (segments_ne_nil path)
  obtain ⟨hne, hcolon⟩ := h piece (hsegments ▸ List.mem_cons_self)
  obtain ⟨c, cs, rfl⟩ := List.exists_cons_of_ne_nil hne
  have hc : c ≠ ':' := fun hc => hcolon (hc ▸ List.mem_cons_self)
  rw [← join_segments path, hsegments]
  cases more with
  | nil => exact ⟨c, cs, hc, rfl⟩
  | cons piece' more => exact ⟨c, _, hc, rfl⟩

theorem of_append (hlead : IsRegular lead) (h : IsRegular (lead ++ ':' :: ':' :: rest)) :
    IsRegular rest := by
  intro piece hpiece
  refine h piece ?_
  rw [segments_append fun p hp => (hlead p hp).2]
  exact List.mem_append_right _ hpiece

theorem append (hlead : IsRegular lead) (hrest : IsRegular rest) :
    IsRegular (lead ++ ':' :: ':' :: rest) := by
  intro piece hpiece
  rw [segments_append fun p hp => (hlead p hp).2] at hpiece
  rcases List.mem_append.1 hpiece with hpiece | hpiece
  · exact hlead piece hpiece
  · exact hrest piece hpiece

end IsRegular

/-- The name of a type before its argument text. -/
def unapplied (name : List Char) : List Char := name.takeWhile (· ≠ '<')

/-- The text may name a type: it begins with an argument text, or a regular path stands before the
arguments. -/
def IsTypeName (name : List Char) : Prop := unapplied name = [] ∨ IsRegular (unapplied name)

instance (name : List Char) : Decidable (IsTypeName name) :=
  inferInstanceAs (Decidable (_ ∨ _))

theorem unapplied_append {lead : List Char} (hlead : '<' ∉ lead) (rest : List Char) :
    unapplied (lead ++ rest) = lead ++ unapplied rest := by
  refine List.takeWhile_append_of_pos fun c hc => decide_eq_true ?_
  rintro rfl
  exact hlead hc

/-! ## The rightmost separator -/

theorem stripLead_separator {c : Char} {text : List Char}
    (h : ∀ rest, c = ':' → text = ':' :: rest → False) :
    stripLead [':', ':'] (c :: text) = none := by
  rw [Option.eq_none_iff_forall_ne_some]
  intro rest hrest
  obtain ⟨hc, htext⟩ := List.cons.inj (stripLead_eq_some_iff.1 hrest)
  exact h rest hc htext

theorem afterLast_cons (c : Char) (text : List Char) :
    afterLast (c :: text) = (afterLast text).or (stripLead [':', ':'] (c :: text)) := by
  by_cases hsep : ∃ rest, c = ':' ∧ text = ':' :: rest
  · obtain ⟨rest, rfl, rfl⟩ := hsep
    rw [afterLast]
    cases afterLast (':' :: rest) <;> rfl
  · have hno : ∀ rest, c = ':' → text = ':' :: rest → False :=
      fun rest hc htext => hsep ⟨rest, hc, htext⟩
    rw [afterLast.eq_2 c text hno, stripLead_separator hno, Option.or_none]

theorem afterLast_eq_none_iff {text : List Char} :
    afterLast text = none ↔ ¬ [':', ':'] <:+: text := by
  induction text with
  | nil => simp [afterLast]
  | cons c text ih =>
    rw [afterLast_cons, Option.or_eq_none_iff, ih, List.infix_cons_iff, not_or, and_comm]
    refine and_congr_left fun _ => ?_
    rw [Option.eq_none_iff_forall_ne_some]
    constructor
    · rintro h ⟨rest, hrest⟩
      exact h rest (stripLead_eq_some_iff.2 hrest.symm)
    · intro h rest hrest
      exact h ⟨rest, (stripLead_eq_some_iff.1 hrest).symm⟩

theorem hasSeparator_iff {text : List Char} :
    hasSeparator text = true ↔ [':', ':'] <:+: text := by
  rw [hasSeparator, Option.isSome_iff_ne_none, Ne, afterLast_eq_none_iff, Decidable.not_not]

theorem hasSeparator_eq_false_iff {text : List Char} :
    hasSeparator text = false ↔ ∃ piece, segments text = [piece] := by
  rw [hasSeparator, Option.isSome_eq_false_iff, Option.isNone_iff_eq_none]
  induction text using segments.induct with
  | case1 => exact iff_of_true rfl ⟨[], rfl⟩
  | case2 rest ih =>
    rw [segments]
    refine iff_of_false nofun ?_
    rintro ⟨piece, hpiece⟩
    exact segments_ne_nil rest (List.cons.inj hpiece).2
  | case3 c rest _ hrest => exact absurd hrest (segments_ne_nil rest)
  | case4 c rest hsep piece more hrest ih =>
    rw [afterLast_cons, stripLead_separator hsep, Option.or_none, ih, segments.eq_3 c rest hsep,
      hrest]
    simp

theorem afterLast_append_of_some {text leaf : List Char} (lead : List Char)
    (h : afterLast text = some leaf) : afterLast (lead ++ text) = some leaf := by
  induction lead with
  | nil => exact h
  | cons c cs ih => rw [List.cons_append, afterLast_cons, ih, Option.some_or]

theorem afterLast_append (lead : List Char) {leaf : List Char}
    (hleaf : afterLast (':' :: leaf) = none) :
    afterLast (lead ++ ':' :: ':' :: leaf) = some leaf := by
  refine afterLast_append_of_some lead ?_
  rw [afterLast_cons, hleaf]
  rfl

/-! ## Short names -/

theorem shortName_append {lead leaf : List Char} (hlead : '<' ∉ lead)
    (hleaf : afterLast (':' :: unapplied leaf) = none) :
    shortName (lead ++ ':' :: ':' :: leaf) = leaf := by
  have hhead : unapplied (lead ++ ':' :: ':' :: leaf) = lead ++ ':' :: ':' :: unapplied leaf :=
    unapplied_append hlead _
  have harguments : (lead ++ ':' :: ':' :: leaf).dropWhile (· ≠ '<') =
      leaf.dropWhile (· ≠ '<') := by
    refine List.dropWhile_append_of_pos fun c hc => decide_eq_true ?_
    rintro rfl
    exact hlead hc
  rw [unapplied] at hhead
  unfold shortName
  dsimp only
  rw [hhead, harguments, afterLast_append lead hleaf]
  exact List.takeWhile_append_dropWhile

section below

variable {lead leaf : List Char}

theorem shortName_of_child (hlead : IsRegular lead) (hangle : '<' ∉ lead)
    (hname : IsTypeName (lead ++ ':' :: ':' :: leaf)) (hleaf : hasSeparator leaf = false) :
    shortName (lead ++ ':' :: ':' :: leaf) = leaf := by
  refine shortName_append hangle ?_
  have hhead : unapplied (lead ++ ':' :: ':' :: leaf) = lead ++ ':' :: ':' :: unapplied leaf :=
    unapplied_append hangle _
  rw [IsTypeName, hhead] at hname
  rcases hname with hempty | hregular
  · simp at hempty
  obtain ⟨c, rest, hc, hrest⟩ := (hlead.of_append hregular).exists_cons
  have hnone : afterLast (unapplied leaf) = none := by
    have hno : ¬ [':', ':'] <:+: leaf := by
      rw [← hasSeparator_iff, hleaf]
      exact Bool.false_ne_true
    exact afterLast_eq_none_iff.2 fun h => hno (h.trans (List.takeWhile_prefix _).isInfix)
  rw [afterLast_cons, hnone, Option.none_or, Option.eq_none_iff_forall_ne_some]
  intro rest' hrest'
  rw [hrest] at hrest'
  exact hc (List.cons.inj (List.cons.inj (stripLead_eq_some_iff.1 hrest')).2).1

theorem ne_nil_of_isTypeName (hlead : IsRegular lead) (hangle : '<' ∉ lead)
    (hname : IsTypeName (lead ++ ':' :: ':' :: leaf)) : leaf ≠ [] := by
  rintro rfl
  have hhead : unapplied (lead ++ [':', ':']) = lead ++ ':' :: ':' :: [] :=
    unapplied_append hangle _
  rw [IsTypeName, hhead] at hname
  rcases hname with hempty | hregular
  · simp at hempty
  · exact (hlead.of_append hregular).ne_nil rfl

end below

end MemberAccess.Path
