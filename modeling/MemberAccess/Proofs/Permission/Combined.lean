import MemberAccess.Proofs.Permission.Grammar

/-!
# Expressions with bars

An expression is cut at its bars, every part is read on its own, and the sets are joined as long as
no part fails. So an expression means the union of its parts whatever their order and number, and
the texts that permissions are shown with are expressions for them.

* `UnionOf`: the union of what the parts are read as; `unionOfParts?_eq_some_iff`.
* `parseCombined?_barred`: an expression written with bars between its parts.
* `written_text`: the text of a permission is a word for it.
* `combined_permissions_are_unions`: parts in any order and grouping, and the way back from texts.
-/

namespace MemberAccess.Permission

/-! ## Unions -/

theorem ext_has {p q : Permission} (h : ∀ i, p.Has i ↔ q.Has i) : p = q := by
  obtain ⟨flags⟩ := p
  obtain ⟨flags'⟩ := q
  refine congrArg Permission.mk (BitVec.eq_of_getLsbD_eq fun i _ => ?_)
  exact Bool.eq_iff_iff.2 (h i)

theorem not_has_none {i : Nat} : ¬ none.Has i := by
  rw [Has, none]
  simp

/-- Every part is read, and the flags are those of the sets that the parts are read as. -/
def UnionOf {α : Type} (read : α → Option Permission) (parts : List α) (p : Permission) : Prop :=
  (∀ a ∈ parts, ∃ q, read a = some q) ∧
    ∀ i, p.Has i ↔ ∃ a ∈ parts, ∃ q, read a = some q ∧ q.Has i

section unions

variable {α β : Type} {read : α → Option Permission} {a : α} {parts parts' : List α}
  {p q : Permission}

theorem unionOf_nil : UnionOf read [] p ↔ p = none := by
  constructor
  · rintro ⟨-, hflags⟩
    exact ext_has fun i => iff_of_false (fun h => by simpa using (hflags i).1 h) not_has_none
  · rintro rfl
    exact ⟨nofun, fun i => iff_of_false not_has_none (by simp)⟩

theorem UnionOf.unique (h : UnionOf read parts p) (h' : UnionOf read parts q) : p = q :=
  ext_has fun i => (h.2 i).trans (h'.2 i).symm

theorem UnionOf.cons (ha : read a = some q) (h : UnionOf read parts p) :
    UnionOf read (a :: parts) (q.union p) := by
  refine ⟨fun b hb => ?_, fun i => ?_⟩
  · rcases List.mem_cons.1 hb with rfl | hb
    · exact ⟨q, ha⟩
    · exact h.1 b hb
  · rw [has_union, h.2 i]
    simp [ha]

theorem exists_unionOf (h : ∀ a ∈ parts, ∃ q, read a = some q) : ∃ p, UnionOf read parts p := by
  induction parts with
  | nil => exact ⟨none, unionOf_nil.2 rfl⟩
  | cons a rest ih =>
    obtain ⟨q, hq⟩ := h a List.mem_cons_self
    obtain ⟨p, hp⟩ := ih fun b hb => h b (List.mem_cons_of_mem a hb)
    exact ⟨q.union p, hp.cons hq⟩

theorem unionOf_cons_iff : UnionOf read (a :: parts) p ↔
    ∃ q p', read a = some q ∧ UnionOf read parts p' ∧ q.union p' = p := by
  constructor
  · intro h
    obtain ⟨q, hq⟩ := h.1 a List.mem_cons_self
    obtain ⟨p', hp'⟩ := exists_unionOf fun b hb => h.1 b (List.mem_cons_of_mem a hb)
    exact ⟨q, p', hq, hp', (hp'.cons hq).unique h⟩
  · rintro ⟨q, p', hq, hp', rfl⟩
    exact hp'.cons hq

theorem unionOf_congr (h : ∀ a, a ∈ parts' ↔ a ∈ parts) :
    UnionOf read parts' p ↔ UnionOf read parts p := by
  simp only [UnionOf, h]

theorem unionOf_map (f : β → α) (parts : List β) :
    UnionOf read (parts.map f) p ↔ UnionOf (fun b => read (f b)) parts p := by
  simp [UnionOf]

theorem unionOf_flatten {groups : List (List α)} {readAll : List α → Option Permission}
    (hread : ∀ g ∈ groups, ∀ q, readAll g = some q ↔ UnionOf read g q) :
    UnionOf read groups.flatten p ↔ UnionOf readAll groups p := by
  have hreadable : (∀ a ∈ groups.flatten, ∃ q, read a = some q) ↔
      ∀ g ∈ groups, ∃ q, readAll g = some q := by
    constructor
    · intro h g hg
      obtain ⟨q, hq⟩ := exists_unionOf fun a ha => h a (List.mem_flatten.2 ⟨g, hg, ha⟩)
      exact ⟨q, (hread g hg q).2 hq⟩
    · intro h a ha
      obtain ⟨g, hg, hag⟩ := List.mem_flatten.1 ha
      obtain ⟨q, hq⟩ := h g hg
      exact ((hread g hg q).1 hq).1 a hag
  rw [UnionOf, UnionOf, hreadable]
  refine and_congr_right fun hall => forall_congr' fun i => iff_congr Iff.rfl ?_
  constructor
  · rintro ⟨a, ha, hflag⟩
    obtain ⟨g, hg, hag⟩ := List.mem_flatten.1 ha
    obtain ⟨q, hq⟩ := hall g hg
    exact ⟨g, hg, q, hq, (((hread g hg q).1 hq).2 i).2 ⟨a, hag, hflag⟩⟩
  · rintro ⟨g, hg, q, hq, hflag⟩
    obtain ⟨a, ha, hread'⟩ := (((hread g hg q).1 hq).2 i).1 hflag
    exact ⟨a, List.mem_flatten.2 ⟨g, hg, ha⟩, hread'⟩

end unions

/-! ## Parts -/

theorem unionOfParts?_eq_some_iff {parts : List (List Char)} {p : Permission} :
    unionOfParts? parts = some p ↔
      UnionOf (fun part => ofCapitals? (Text.upper (Text.trim part))) parts p := by
  induction parts generalizing p with
  | nil => rw [unionOfParts?, unionOf_nil, Option.some_inj, eq_comm]
  | cons part rest ih =>
    rw [unionOfParts?, unionOf_cons_iff]
    constructor
    · intro h
      split at h
      · rename_i q p' hq hp'
        exact ⟨q, p', hq, ih.1 hp', Option.some.inj h⟩
      · cases h
    · rintro ⟨q, p', hq, hp', rfl⟩
      rw [hq, ih.2 hp']

theorem barPieces_eq_splitOn (text : List Char) : barPieces text = text.splitOn '|' := by
  induction text with
  | nil => rw [List.splitOn_nil, barPieces]
  | cons c rest ih =>
    obtain ⟨piece, more, hrest⟩ := List.exists_cons_of_ne_nil (List.splitOn_ne_nil '|' rest)
    rw [List.splitOn_cons_eq_if_modifyHead, barPieces, ih, hrest]
    simp

def barred (texts : List String) : String := "|".intercalate texts

theorem parseCombined?_barred {texts : List String} {p : Permission} (hne : texts ≠ [])
    (hbar : ∀ t ∈ texts, '|' ∉ t.toList) :
    parseCombined? (barred texts) = some p ↔ UnionOf parse? texts p := by
  have hpieces : barPieces (barred texts).toList = texts.map String.toList := by
    rw [barPieces_eq_splitOn, barred, String.toList_intercalate]
    exact List.splitOn_intercalate '|' (List.forall_mem_map.2 hbar) (by simpa using hne)
  rw [parseCombined?, hpieces, unionOfParts?_eq_some_iff, unionOf_map]
  rfl

/-! ## Texts of permissions -/

section texts

variable {p : Permission} {name : String} {c : Char}

theorem text_cases (p : Permission) :
    (∃ name, (name, p) ∈ named ∧ p.text = name) ∨ p.text = "0x" ++ hexDigits p.bits := by
  unfold text
  cases hfind : named.find? fun entry => entry.2 == p with
  | some entry =>
    obtain ⟨name, q⟩ := entry
    have hq : q = p := by simpa using List.find?_some hfind
    subst hq
    exact .inl ⟨name, List.mem_of_find?_eq_some hfind, rfl⟩
  | none => exact .inr rfl

theorem digits_hexDigits (p : Permission) : Digits 16 (hexDigits p.bits).toList p.bits := by
  have hdigit : ∀ d < 16, digitChars[d]? = some (Nat.digitChar d).toUpper := by decide
  have hbits := p.bits_lt
  have hhigh : p.bits / 16 < 16 := by omega
  have hlow : p.bits % 16 < 16 := by omega
  refine ⟨[p.bits / 16, p.bits % 16], ?_, ?_⟩
  · rw [hexDigits, String.toList_ofList]
    exact .cons (isDigit_iff.2 ⟨hhigh, hdigit _ hhigh⟩)
      (.cons (isDigit_iff.2 ⟨hlow, hdigit _ hlow⟩) .nil)
  · rw [ofDigits_reverse_cons, List.reverse_singleton, Nat.ofDigits_singleton,
      List.length_singleton, Nat.pow_one]
    omega

theorem hexDigits_ne_nil (n : Nat) : (hexDigits n).toList ≠ [] := by
  simp [hexDigits]

theorem written_text (p : Permission) : Written (Text.upper p.text.toList) p := by
  rcases p.text_cases with ⟨name, hmem, htext⟩ | htext
  · have hcapitals : ∀ x ∈ named, Text.upper x.1.toList = x.1.toList := by decide +kernel
    rw [htext, hcapitals _ hmem]
    exact .name hmem
  · have hcapitals : ∀ c ∈ digitChars, Text.capitals c = [c] :=
      List.forall_iff_forall_mem.1 (by decide)
    have hupper : Text.upper (hexDigits p.bits).toList = (hexDigits p.bits).toList :=
      Text.upper_of_capitals fun c hc =>
        hcapitals c (List.mem_of_mem_take (p.digits_hexDigits.mem hc))
    have hword : Text.upper p.text.toList = '0' :: 'X' :: (hexDigits p.bits).toList := by
      rw [htext, String.toList_append, Text.upper, List.flatMap_append]
      exact congrArg (['0', 'X'] ++ ·) hupper
    rw [hword]
    exact .hexadecimal (.unsigned (hexDigits_ne_nil _) p.digits_hexDigits)
      (Nat.le_of_lt_succ p.bits_lt) rfl

theorem mem_text (hc : c ∈ p.text.toList) : Text.isBlank c = false ∧ c ≠ '|' := by
  rcases p.text_cases with ⟨name, hmem, htext⟩ | htext
  · have hall : ∀ x ∈ named, x.1.toList.Forall fun c => Text.isBlank c = false ∧ c ≠ '|' := by
      decide +kernel
    exact List.forall_iff_forall_mem.1 (hall _ hmem) c (htext ▸ hc)
  · have hprefix : ∀ c ∈ "0x".toList, Text.isBlank c = false ∧ c ≠ '|' :=
      List.forall_iff_forall_mem.1 (by decide)
    have hdigits : ∀ c ∈ digitChars, Text.isBlank c = false ∧ c ≠ '|' :=
      List.forall_iff_forall_mem.1 (by decide)
    rw [htext, String.toList_append, List.mem_append] at hc
    rcases hc with hc | hc
    · exact hprefix c hc
    · exact hdigits c (List.mem_of_mem_take (p.digits_hexDigits.mem hc))

end texts

/-- The text of a permission with blanks around it. -/
structure Padded where
  front : String
  permission : Permission
  back : String
  blank_front : ∀ c ∈ front.toList, Text.isBlank c = true
  blank_back : ∀ c ∈ back.toList, Text.isBlank c = true

namespace Padded

def text (x : Padded) : String := x.front ++ x.permission.text ++ x.back

theorem toList_text (x : Padded) :
    x.text.toList = x.front.toList ++ x.permission.text.toList ++ x.back.toList := by
  rw [text, String.toList_append, String.toList_append]

theorem parse?_text (x : Padded) : parse? x.text = some x.permission := by
  have hblank : ∀ c ∈ x.permission.text.toList, Text.isBlank c = false :=
    fun c hc => (mem_text hc).1
  have htrimmed := Text.trimmed_of_noBlank x.blank_front x.blank_back hblank
  rw [parse?_eq_some_iff, toList_text, Text.trim_of_trimmed htrimmed]
  exact written_text x.permission

theorem noBar (x : Padded) : '|' ∉ x.text.toList := by
  have hbar : Text.isBlank '|' = false := by decide
  rw [toList_text, List.mem_append, List.mem_append]
  rintro ((h | h) | h)
  · rw [x.blank_front _ h] at hbar
    cases hbar
  · exact (mem_text h).2 rfl
  · rw [x.blank_back _ h] at hbar
    cases hbar

end Padded

/-! ## Every expression -/

/-- An expression of parts without bars is read iff every part is, as the union of the sets that the
parts are read as. So the order of the parts, their repetition and their grouping do not count, and
one bad part refuses the whole. The texts of permissions, with blanks around them, are expressions
for the union of the permissions. -/
theorem combined_permissions_are_unions :
    (∀ texts : List String, texts ≠ [] → (∀ t ∈ texts, '|' ∉ t.toList) →
      ((∃ p, parseCombined? (barred texts) = some p) ↔ ∀ t ∈ texts, ∃ q, parse? t = some q) ∧
      (∀ p, parseCombined? (barred texts) = some p ↔ UnionOf parse? texts p) ∧
      (∀ texts' : List String, (∀ t, t ∈ texts' ↔ t ∈ texts) →
        parseCombined? (barred texts') = parseCombined? (barred texts)) ∧
      ∀ t ∈ texts, parse? t = Option.none → parseCombined? (barred texts) = Option.none) ∧
    (∀ groups : List (List String), groups ≠ [] →
      (∀ g ∈ groups, g ≠ [] ∧ ∀ t ∈ g, '|' ∉ t.toList) → ∀ p,
      (parseCombined? (barred groups.flatten) = some p ↔
        UnionOf (fun g => parseCombined? (barred g)) groups p)) ∧
    ∀ parts : List Padded, parts ≠ [] →
      ∃ p, parseCombined? (barred (parts.map Padded.text)) = some p ∧
        ∀ i, p.Has i ↔ ∃ x ∈ parts, x.permission.Has i := by
  refine ⟨fun texts hne hbar => ?_, fun groups hne hgroups p => ?_, fun parts hne => ?_⟩
  · have hread (p : Permission) := parseCombined?_barred (p := p) hne hbar
    have hreadable : (∃ p, parseCombined? (barred texts) = some p) ↔
        ∀ t ∈ texts, ∃ q, parse? t = some q := by
      simp only [hread]
      exact ⟨fun ⟨p, hp⟩ => hp.1, exists_unionOf⟩
    refine ⟨hreadable, hread, fun texts' hsame => Option.ext fun p => ?_, fun t ht hbad => ?_⟩
    · obtain ⟨t, ht⟩ := List.exists_mem_of_ne_nil texts hne
      rw [parseCombined?_barred (List.ne_nil_of_mem ((hsame t).2 ht)) fun t ht =>
        hbar t ((hsame t).1 ht), hread]
      exact unionOf_congr hsame
    · rw [Option.eq_none_iff_forall_ne_some]
      intro p hp
      obtain ⟨q, hq⟩ := hreadable.1 ⟨p, hp⟩ t ht
      rw [hbad] at hq
      cases hq
  · obtain ⟨g, hg⟩ := List.exists_mem_of_ne_nil groups hne
    have hflatten : groups.flatten ≠ [] := List.flatten_ne_nil_iff.2 ⟨g, hg, (hgroups g hg).1⟩
    rw [parseCombined?_barred hflatten, unionOf_flatten]
    · exact fun g hg q => parseCombined?_barred (hgroups g hg).1 (hgroups g hg).2
    · intro t ht
      obtain ⟨g, hg, htg⟩ := List.mem_flatten.1 ht
      exact (hgroups g hg).2 t htg
  · have hread (p : Permission) : parseCombined? (barred (parts.map Padded.text)) = some p ↔
        UnionOf (fun x : Padded => some x.permission) parts p := by
      rw [parseCombined?_barred (by simpa using hne)
        (List.forall_mem_map.2 fun x _ => x.noBar), unionOf_map]
      simp only [Padded.parse?_text]
    obtain ⟨p, hp⟩ : ∃ p, UnionOf (fun x : Padded => some x.permission) parts p :=
      exists_unionOf fun x _ => ⟨x.permission, rfl⟩
    refine ⟨p, (hread p).2 hp, fun i => ?_⟩
    rw [hp.2 i]
    simp

/-- A name and a numeral with blanks around them, in two orders; a third part that is no permission;
and two texts of permissions. -/
theorem combined_permissions_are_unions_readWrite :
    (∃ p, parseCombined? (barred [" read_public", "0x04 "]) = some p) ∧
    parseCombined? (barred ["0x04 ", " read_public", "0x04 "]) =
      parseCombined? (barred [" read_public", "0x04 "]) ∧
    parseCombined? (barred [" read_public", "0x04 ", "READ"]) = Option.none ∧
    ∃ p, parseCombined? (barred ["\tPUBLIC_ONLY", "0x05 "]) = some p ∧
      ∀ i, p.Has i ↔ publicOnly.Has i ∨ (ofBits 5).Has i := by
  obtain ⟨hexpressions, -, htexts⟩ := combined_permissions_are_unions
  obtain ⟨hreadable, -, horder, -⟩ :=
    hexpressions [" read_public", "0x04 "] (by simp) (by decide)
  obtain ⟨-, -, -, hbad⟩ :=
    hexpressions [" read_public", "0x04 ", "READ"] (by simp) (by decide)
  have hparts : ∀ t ∈ [" read_public", "0x04 "], ∃ q, parse? t = some q := by
    simp only [List.forall_mem_cons, List.not_mem_nil, false_implies, implies_true, and_true]
    exact ⟨⟨readPublic, by decide⟩, ⟨writePublic, by decide⟩⟩
  refine ⟨hreadable.2 hparts, horder _ (by simp), hbad "READ" (by simp) (by decide), ?_⟩
  have hblank : ∀ c ∈ "\t".toList ++ " ".toList, Text.isBlank c = true :=
    List.forall_iff_forall_mem.1 (by decide)
  rw [List.forall_mem_append] at hblank
  let parts : List Padded :=
    [⟨"\t", publicOnly, "", hblank.1, by simp⟩, ⟨"", ofBits 5, " ", by simp, hblank.2⟩]
  have hname : publicOnly.text = "PUBLIC_ONLY" := by decide
  have hdigits : (ofBits 5).text = "0x05" := by decide
  have hwritten : parts.map Padded.text = ["\tPUBLIC_ONLY", "0x05 "] := by
    simp [parts, Padded.text, hname, hdigits]
  obtain ⟨p, hp, hflags⟩ := htexts parts (by simp [parts])
  rw [hwritten] at hp
  exact ⟨p, hp, fun i => by simpa [parts] using hflags i⟩

end MemberAccess.Permission
