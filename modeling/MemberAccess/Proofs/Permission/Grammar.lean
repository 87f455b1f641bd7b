import Mathlib.Data.List.Forall2
import Mathlib.Data.Nat.Digits.Defs
import Mathlib.Tactic.MkIffOfInductiveProp
import Mathlib.Tactic.Ring
import MemberAccess.Permission.Expression
import MemberAccess.Proofs.Permission.Decision
import MemberAccess.Proofs.Text.Letters

/-!
# The grammar of permissions

A permission is read by one pass over a word: a table of names is searched, a prefix chooses the
radix, a sign is skipped and an accumulator gathers the digits. The grammar says the same without a
reader: a name, or a numeral whose value is a set of flags.

* `IsDigit`, `Digits`, `Numeral`: numerals with their values; `numeral?_eq_some_iff`.
* `Written`: the words of the grammar with the permissions they stand for; `Malformed`: words that
  come close to it.
* `ofCapitals?_eq_some_iff`: the reader accepts the words of the grammar and no others.
* `permission_read_iff_written`: all of it, for every text in ASCII.
-/

namespace MemberAccess.Permission

/-! ## Numerals -/

def digitChars : List Char :=
  ['0', '1', '2', '3', '4', '5', '6', '7', '8', '9', 'A', 'B', 'C', 'D', 'E', 'F']

/-- The character is the digit with this value; a base has the first digits. -/
def IsDigit (base value : Nat) (c : Char) : Prop := (digitChars.take base)[value]? = some c

/-- The text is a list of digits, the most significant first, with this number. -/
def Digits (base : Nat) (text : List Char) (n : Nat) : Prop :=
  ∃ values, List.Forall₂ (IsDigit base) values text ∧ n = Nat.ofDigits base values.reverse

/-- Numerals: one or more digits, which a plus sign may precede. -/
inductive Numeral (base : Nat) : List Char → Nat → Prop where
  | unsigned {text : List Char} {n : Nat} (hne : text ≠ []) (h : Digits base text n) :
      Numeral base text n
  | plus {text : List Char} {n : Nat} (hne : text ≠ []) (h : Digits base text n) :
      Numeral base ('+' :: text) n

section numerals

variable {base n value : Nat} {c : Char} {text : List Char}

theorem isDigit_iff : IsDigit base value c ↔ value < base ∧ digitChars[value]? = some c := by
  rw [IsDigit, List.getElem?_take]
  split
  · rename_i h
    simp [h]
  · rename_i h
    simp [h]

theorem IsDigit.mem (h : IsDigit base value c) : c ∈ digitChars.take base :=
  List.mem_of_getElem? h

theorem getElem?_digitChars_iff : digitChars[value]? = some c ↔
    value < 10 ∧ c.toNat = 48 + value ∨ 10 ≤ value ∧ value < 16 ∧ c.toNat = 55 + value := by
  have hcode : ∀ v < 16,
      digitChars[v]?.map Char.toNat = some (if v < 10 then 48 + v else 55 + v) := by decide
  constructor
  · intro h
    have hlt : value < 16 := (List.getElem?_eq_some_iff.1 h).1
    have hc := hcode value hlt
    rw [h, Option.map_some, Option.some.injEq] at hc
    split at hc <;> omega
  · intro h
    obtain ⟨c', hc', hcode'⟩ := Option.map_eq_some_iff.1 (hcode value (by omega))
    have hsame : c' = c := by
      rw [← Char.toNat_inj, hcode']
      split <;> omega
    rw [hc', hsame]

theorem digitValue?_eq_some_iff : digitValue? base c = some value ↔ IsDigit base value c := by
  have h0 : '0' ≤ c ↔ 48 ≤ c.toNat := by rw [Char.le_def, UInt32.le_iff_toNat_le]; rfl
  have h9 : c ≤ '9' ↔ c.toNat ≤ 57 := by rw [Char.le_def, UInt32.le_iff_toNat_le]; rfl
  have hA : 'A' ≤ c ↔ 65 ≤ c.toNat := by rw [Char.le_def, UInt32.le_iff_toNat_le]; rfl
  have hF : c ≤ 'F' ↔ c.toNat ≤ 70 := by rw [Char.le_def, UInt32.le_iff_toNat_le]; rfl
  have hzero : '0'.toNat = 48 := rfl
  have hten : 'A'.toNat = 65 := rfl
  rw [isDigit_iff, getElem?_digitChars_iff, digitValue?]
  simp only [h0, h9, hA, hF, hzero, hten, Option.ite_none_right_eq_some, Option.some.injEq]
  split
  · omega
  · split <;> omega

theorem ofDigits_reverse_cons (base value : Nat) (values : List Nat) :
    Nat.ofDigits base (value :: values).reverse =
      value * base ^ values.length + Nat.ofDigits base values.reverse := by
  rw [List.reverse_cons, Nat.ofDigits_append, Nat.ofDigits_singleton, List.length_reverse,
    Nat.add_comm, Nat.mul_comm]

/-- An accumulator gathers the digits: each of them moves up what was gathered before. -/
theorem digitsValue?_eq_some_iff {high : Nat} : digitsValue? base high text = some n ↔
    ∃ values, List.Forall₂ (IsDigit base) values text ∧
      n = high * base ^ text.length + Nat.ofDigits base values.reverse := by
  induction text generalizing high with
  | nil => simp [digitsValue?, eq_comm]
  | cons c rest ih =>
    have hmoved (value : Nat) (values : List Nat)
        (hrest : List.Forall₂ (IsDigit base) values rest) :
        (high * base + value) * base ^ rest.length + Nat.ofDigits base values.reverse =
          high * base ^ (c :: rest).length + Nat.ofDigits base (value :: values).reverse := by
      rw [ofDigits_reverse_cons, hrest.length_eq, List.length_cons, Nat.pow_succ']
      ring
    rw [digitsValue?]
    constructor
    · intro h
      split at h
      · rename_i value hvalue
        obtain ⟨values, hrest, rfl⟩ := ih.1 h
        exact ⟨value :: values, .cons (digitValue?_eq_some_iff.1 hvalue) hrest,
          hmoved value values hrest⟩
      · cases h
    · rintro ⟨values, hdigits, rfl⟩
      cases hdigits with
      | cons hdigit hrest =>
        rw [digitValue?_eq_some_iff.2 hdigit]
        exact ih.2 ⟨_, hrest, (hmoved _ _ hrest).symm⟩

theorem digitsValue?_zero_eq_some_iff : digitsValue? base 0 text = some n ↔ Digits base text n := by
  rw [digitsValue?_eq_some_iff, Nat.zero_mul]
  simp only [Nat.zero_add]
  rfl

theorem Digits.mem (h : Digits base text n) (hc : c ∈ text) : c ∈ digitChars.take base := by
  obtain ⟨values, hdigits, -⟩ := h
  induction hdigits with
  | nil => cases hc
  | cons hdigit _ ih =>
    rcases List.mem_cons.1 hc with rfl | hc
    · exact hdigit.mem
    · exact ih hc

theorem Numeral.mem (h : Numeral base text n) (hc : c ∈ text) :
    c = '+' ∨ c ∈ digitChars.take base := by
  cases h with
  | unsigned _ h => exact .inr (h.mem hc)
  | plus _ h =>
    rcases List.mem_cons.1 hc with rfl | hc
    · exact .inl rfl
    · exact .inr (h.mem hc)

theorem plus_not_mem_digitChars : '+' ∉ digitChars.take base :=
  fun h => absurd (List.mem_of_mem_take h) (by decide)

theorem numeral_plus_iff : Numeral base ('+' :: text) n ↔ text ≠ [] ∧ Digits base text n := by
  constructor
  · intro h
    cases h with
    | unsigned _ h => exact absurd (h.mem List.mem_cons_self) plus_not_mem_digitChars
    | plus hne h => exact ⟨hne, h⟩
  · rintro ⟨hne, h⟩
    exact .plus hne h

theorem numeral_iff_of_ne_plus (hc : c ≠ '+') :
    Numeral base (c :: text) n ↔ Digits base (c :: text) n := by
  constructor
  · intro h
    cases h with
    | unsigned _ h => exact h
    | plus => exact absurd rfl hc
  · exact fun h => .unsigned (List.cons_ne_nil c text) h

theorem not_numeral_nil : ¬ Numeral base [] n := by
  rintro (⟨hne, -⟩ | -)
  exact hne rfl

theorem numeral?_eq_some_iff : numeral? base text = some n ↔ Numeral base text n := by
  cases text with
  | nil => exact iff_of_false nofun not_numeral_nil
  | cons c rest =>
    by_cases hc : c = '+'
    · subst hc
      rw [numeral?, numeral_plus_iff, ← digitsValue?_zero_eq_some_iff]
      cases rest <;> simp
    · rw [numeral?.eq_3 base c rest hc, numeral_iff_of_ne_plus hc, digitsValue?_zero_eq_some_iff]

end numerals

/-! ## Words -/

/-- The words of the grammar and the permissions that they stand for; the bits of a numeral's value
are the flags. -/
@[mk_iff]
inductive Written : List Char → Permission → Prop where
  | name {name : String} {p : Permission} (h : (name, p) ∈ named) : Written name.toList p
  | hexadecimal {digits : List Char} {n : Nat} {p : Permission} (h : Numeral 16 digits n)
      (hn : n ≤ 127) (hbits : p.bits = n) : Written ('0' :: 'X' :: digits) p
  | decimal {digits : List Char} {n : Nat} {p : Permission} (h : Numeral 10 digits n)
      (hn : n ≤ 127) (hbits : p.bits = n) : Written digits p

section words

variable {word digits : List Char} {name : String} {n : Nat} {p q : Permission}

theorem bits_lt (p : Permission) : p.bits < 128 := p.flags.isLt

theorem ofBits_eq_iff (hn : n < 128) : ofBits n = p ↔ p.bits = n := by
  obtain ⟨flags⟩ := p
  rw [ofBits, Permission.mk.injEq, bits, ← BitVec.toNat_inj, BitVec.toNat_ofNat,
    Nat.mod_eq_of_lt hn, eq_comm]

theorem eq_of_named (hp : (name, p) ∈ named) (hq : (name, q) ∈ named) : p = q := by
  have hall : ∀ x ∈ named, ∀ y ∈ named, x.1 = y.1 → x.2 = y.2 := by decide
  exact hall _ hp _ hq rfl

/-- The characters that numerals begin with, and the sign that none of them has. -/
def numeralChars : List Char := '+' :: '-' :: digitChars.take 10

theorem not_mem_of_named (h : (name, p) ∈ named) :
    name.toList ≠ [] ∧ ∀ c ∈ name.toList, c ∉ numeralChars := by
  -- evaluated along the name, where a bounded quantifier may run over every character there is
  have hall : ∀ x ∈ named, x.1.toList ≠ [] ∧ x.1.toList.Forall (· ∉ numeralChars) := by
    decide +kernel
  exact (hall _ h).imp_right List.forall_iff_forall_mem.1

/-- A word beside the names is a numeral of the radix that its beginning asks for. -/
theorem written_iff_of_not_named (hname : ∀ name, (name, p) ∈ named → word ≠ name.toList) :
    Written word p ↔
      (∃ digits n, Numeral 16 digits n ∧ n ≤ 127 ∧ p.bits = n ∧ word = '0' :: 'X' :: digits) ∨
        ∃ n, Numeral 10 word n ∧ n ≤ 127 ∧ p.bits = n := by
  rw [written_iff, or_iff_right]
  rintro ⟨name, hmem, hword⟩
  exact hname name hmem hword

theorem written_iff_of_mem {c : Char} (hc : c ∈ word) (hnumeral : c ∈ numeralChars) :
    Written word p ↔
      (∃ digits n, Numeral 16 digits n ∧ n ≤ 127 ∧ p.bits = n ∧ word = '0' :: 'X' :: digits) ∨
        ∃ n, Numeral 10 word n ∧ n ≤ 127 ∧ p.bits = n := by
  refine written_iff_of_not_named fun name hmem hword => ?_
  exact (not_mem_of_named hmem).2 c (hword ▸ hc) hnumeral

theorem Numeral.exists_cons (h : Numeral 10 word n) :
    ∃ c rest, word = c :: rest ∧ c ∈ numeralChars := by
  cases word with
  | nil => exact absurd h not_numeral_nil
  | cons c rest =>
    refine ⟨c, rest, rfl, ?_⟩
    rcases h.mem List.mem_cons_self with rfl | hc
    · exact List.mem_cons_self
    · exact List.mem_cons_of_mem _ (List.mem_cons_of_mem _ hc)

theorem not_numeral_of_prefix : ¬ Numeral 10 ('0' :: 'X' :: digits) n := by
  intro h
  rcases h.mem (List.mem_cons_of_mem _ List.mem_cons_self) with hc | hc
  · exact absurd hc (by decide)
  · exact absurd hc (by decide)

theorem written_prefix_iff : Written ('0' :: 'X' :: digits) p ↔
    ∃ n, Numeral 16 digits n ∧ n ≤ 127 ∧ p.bits = n := by
  rw [written_iff_of_mem List.mem_cons_self (by decide), or_iff_left]
  · simp
  · rintro ⟨n, h, -⟩
    exact not_numeral_of_prefix h

theorem written_name_iff (h : (name, q) ∈ named) : Written name.toList p ↔ q = p := by
  rw [written_iff]
  constructor
  · rintro (⟨name', hmem, hsame⟩ | ⟨digits, n, -, -, -, hword⟩ | ⟨n, hnumeral, -, -⟩)
    · rw [String.toList_inj] at hsame
      subst hsame
      exact eq_of_named h hmem
    · exact absurd (by decide) ((not_mem_of_named h).2 '0' (hword ▸ List.mem_cons_self))
    · obtain ⟨c, rest, hword, hc⟩ := hnumeral.exists_cons
      exact absurd hc ((not_mem_of_named h).2 c (hword ▸ List.mem_cons_self))
  · rintro rfl
    exact .inl ⟨name, h, rfl⟩

/-- The value of a word that is no name, in the radix that its beginning asks for. -/
def valueOf? (word : List Char) : Option Nat :=
  match word with
  | '0' :: 'X' :: digits => numeral? 16 digits
  | _ => numeral? 10 word

theorem valueOf?_eq_some_iff : valueOf? word = some n ↔
    (∃ digits, word = '0' :: 'X' :: digits ∧ Numeral 16 digits n) ∨ Numeral 10 word n := by
  by_cases hprefix : ∃ digits, word = '0' :: 'X' :: digits
  · obtain ⟨digits, rfl⟩ := hprefix
    rw [valueOf?, numeral?_eq_some_iff, or_iff_left not_numeral_of_prefix]
    simp
  · rw [valueOf?.eq_2 word fun digits h => hprefix ⟨digits, h⟩, numeral?_eq_some_iff, or_iff_right]
    rintro ⟨digits, h, -⟩
    exact hprefix ⟨digits, h⟩

theorem ofCapitals?_eq (word : List Char) : ofCapitals? word =
    ((named.find? fun entry => entry.1.toList == word).map Prod.snd).or
      ((valueOf? word).bind fun n => if n < 128 then some (ofBits n) else Option.none) := by
  unfold ofCapitals?
  cases named.find? fun entry => entry.1.toList == word with
  | some entry => rfl
  | none =>
    rw [Option.map_none, Option.none_or]
    dsimp only
    split
    · rename_i n hvalue
      rw [show valueOf? word = some n from hvalue, Option.bind_some]
    · rename_i hvalue
      rw [show valueOf? word = Option.none from hvalue, Option.bind_none]

theorem ofCapitals?_eq_some_iff : ofCapitals? word = some p ↔ Written word p := by
  rw [ofCapitals?_eq]
  cases hfind : named.find? fun entry => entry.1.toList == word with
  | some entry =>
    obtain ⟨name, q⟩ := entry
    have hword : name.toList = word := by simpa using List.find?_some hfind
    subst hword
    rw [written_name_iff (List.mem_of_find?_eq_some hfind)]
    exact Option.some_inj
  | none =>
    have hname : ∀ name, (name, p) ∈ named → word ≠ name.toList := by
      rintro name hmem rfl
      simpa using List.find?_eq_none.1 hfind _ hmem
    have hflags (n : Nat) : (if n < 128 then some (ofBits n) else Option.none) = some p ↔
        n ≤ 127 ∧ p.bits = n := by
      rw [Option.ite_none_right_eq_some, Option.some_inj, ← Nat.lt_succ_iff]
      exact and_congr_right ofBits_eq_iff
    rw [Option.map_none, Option.none_or, Option.bind_eq_some_iff, written_iff_of_not_named hname]
    simp only [hflags, valueOf?_eq_some_iff]
    constructor
    · rintro ⟨n, ⟨digits, rfl, h⟩ | h, hn, hbits⟩
      · exact .inl ⟨digits, n, h, hn, hbits, rfl⟩
      · exact .inr ⟨n, h, hn, hbits⟩
    · rintro (⟨digits, n, h, hn, hbits, rfl⟩ | ⟨n, h, hn, hbits⟩)
      · exact ⟨n, .inl ⟨digits, rfl, h⟩, hn, hbits⟩
      · exact ⟨n, .inr h, hn, hbits⟩

theorem parse?_eq_some_iff {s : String} :
    parse? s = some p ↔ Written (Text.upper (Text.trim s.toList)) p :=
  ofCapitals?_eq_some_iff

end words

/-! ## What is refused -/

/-- Words that come close to the grammar: a prefix or a sign without digits, a negative number, a
numeral above all sets of flags. -/
inductive Malformed : List Char → Prop where
  | bare {word : List Char} (h : word ∈ [[], ['+'], ['0', 'X'], ['0', 'X', '+']]) : Malformed word
  | negative {rest : List Char} : Malformed ('-' :: rest)
  | negativeHexadecimal {rest : List Char} : Malformed ('0' :: 'X' :: '-' :: rest)
  | large {word : List Char} {n : Nat} (h : Numeral 10 word n) (hn : 127 < n) : Malformed word
  | largeHexadecimal {digits : List Char} {n : Nat} (h : Numeral 16 digits n) (hn : 127 < n) :
      Malformed ('0' :: 'X' :: digits)

section refused

variable {base n : Nat} {word rest digits : List Char} {p : Permission}

theorem Numeral.unique {m : Nat} (h : Numeral base word n) (h' : Numeral base word m) : n = m := by
  rw [← numeral?_eq_some_iff] at h h'
  rw [h] at h'
  exact Option.some.inj h'

theorem not_numeral_minus : ¬ Numeral base ('-' :: rest) n := by
  intro h
  rcases h.mem List.mem_cons_self with hc | hc
  · exact absurd hc (by decide)
  · exact absurd (List.mem_of_mem_take hc) (by decide)

theorem Malformed.not_written (h : Malformed word) : ¬ Written word p := by
  cases h with
  | bare h =>
    simp only [List.mem_cons, List.not_mem_nil, or_false] at h
    rcases h with rfl | rfl | rfl | rfl
    · rw [written_iff]
      rintro (⟨name, hmem, hname⟩ | ⟨digits, n, -, -, -, hword⟩ | ⟨n, h, -⟩)
      · exact (not_mem_of_named hmem).1 hname.symm
      · cases hword
      · exact not_numeral_nil h
    · rw [written_iff_of_mem List.mem_cons_self List.mem_cons_self]
      rintro (⟨digits, n, -, -, -, hword⟩ | ⟨n, h, -⟩)
      · cases hword
      · exact (numeral_plus_iff.1 h).1 rfl
    · rw [written_prefix_iff]
      rintro ⟨n, h, -⟩
      exact not_numeral_nil h
    · rw [written_prefix_iff]
      rintro ⟨n, h, -⟩
      exact (numeral_plus_iff.1 h).1 rfl
  | negative =>
    rw [written_iff_of_mem List.mem_cons_self (List.mem_cons_of_mem _ List.mem_cons_self)]
    rintro (⟨digits, n, -, -, -, hword⟩ | ⟨n, h, -⟩)
    · cases hword
    · exact not_numeral_minus h
  | negativeHexadecimal =>
    rw [written_prefix_iff]
    rintro ⟨n, h, -⟩
    exact not_numeral_minus h
  | large h hn =>
    obtain ⟨c, rest, rfl, hc⟩ := h.exists_cons
    rw [written_iff_of_mem List.mem_cons_self hc]
    rintro (⟨digits, m, -, -, -, hword⟩ | ⟨m, h', hm, -⟩)
    · exact not_numeral_of_prefix (hword ▸ h)
    · have := h.unique h'
      omega
  | largeHexadecimal h hn =>
    rw [written_prefix_iff]
    rintro ⟨m, h', hm, -⟩
    have := h.unique h'
    omega

theorem Digits.zeros (hbase : 0 < base) (h : Digits base digits n) (k : Nat) :
    Digits base (List.replicate k '0' ++ digits) n := by
  induction k with
  | zero => exact h
  | succ k ih =>
    obtain ⟨values, hdigits, hn⟩ := ih
    have hzero : IsDigit base 0 '0' := isDigit_iff.2 ⟨hbase, rfl⟩
    refine ⟨0 :: values, .cons hzero hdigits, ?_⟩
    rw [ofDigits_reverse_cons, hn]
    omega

end refused

/-! ## Every text -/

/-- A text is a permission iff what stands between its blanks is, in capitals, a word of the
grammar: a name, or a numeral for a set of flags. Every other text is refused, what comes close to
a numeral included. Zeros in front of a numeral do not count, however many there are, and nothing
but flags is ever read. -/
theorem permission_read_iff_written (s : String) (hs : ∀ c ∈ s.toList, c.toNat < 128) :
    ∃ word, Text.Trimmed s.toList word ∧
      (∀ p, parse? s = some p ↔ Written (word.map Char.toUpper) p) ∧
      (parse? s = Option.none ↔ ∀ p, ¬ Written (word.map Char.toUpper) p) ∧
      (Malformed (word.map Char.toUpper) → parse? s = Option.none) ∧
      (∀ k n digits, digits ≠ [] → n ≤ 127 →
        (Digits 16 digits n ∧
            word.map Char.toUpper = '0' :: 'X' :: (List.replicate k '0' ++ digits) ∨
          Digits 10 digits n ∧ word.map Char.toUpper = List.replicate k '0' ++ digits) →
        parse? s = some (ofBits n)) ∧
      ∀ p, parse? s = some p → p.bits ≤ 127 ∧ ∀ i, p.Has i → all.Has i := by
  have htrimmed := Text.trimmed_trim s.toList
  have hupper : Text.upper (Text.trim s.toList) = (Text.trim s.toList).map Char.toUpper :=
    Text.upper_of_ascii fun c hc => hs c (htrimmed.subset hc)
  have hread : ∀ p, parse? s = some p ↔ Written ((Text.trim s.toList).map Char.toUpper) p := by
    intro p
    rw [parse?_eq_some_iff, hupper]
  have hrefused : parse? s = Option.none ↔
      ∀ p, ¬ Written ((Text.trim s.toList).map Char.toUpper) p := by
    rw [Option.eq_none_iff_forall_ne_some]
    exact forall_congr' fun p => not_congr (hread p)
  refine ⟨Text.trim s.toList, htrimmed, hread, hrefused, fun h => hrefused.2 fun p => h.not_written,
    ?_, ?_⟩
  · intro k n digits hne hn h
    have hbits : (ofBits n).bits = n := (ofBits_eq_iff (Nat.lt_succ_of_le hn)).1 rfl
    have hpadded : List.replicate k '0' ++ digits ≠ [] := List.append_ne_nil_of_right_ne_nil _ hne
    rw [hread]
    rcases h with ⟨hdigits, hword⟩ | ⟨hdigits, hword⟩
    · rw [hword]
      exact .hexadecimal (.unsigned hpadded (hdigits.zeros (by decide) k)) hn hbits
    · rw [hword]
      exact .decimal (.unsigned hpadded (hdigits.zeros (by decide) k)) hn hbits
  · intro p _
    exact ⟨Nat.le_of_lt_succ p.bits_lt, contains_iff.1 (all_contains p)⟩

/-- The largest numeral with a sign, zeros and blanks is read as all flags, the next one is
refused. -/
theorem permission_read_iff_written_hexadecimal :
    parse? " \t0x+007f\n" = some all ∧ parse? "0x80" = Option.none := by
  obtain ⟨word, htrimmed, hread, -⟩ :=
    permission_read_iff_written " \t0x+007f\n" (List.forall_iff_forall_mem.1 (by decide))
  obtain ⟨word', htrimmed', -, -, hrefused, -⟩ :=
    permission_read_iff_written "0x80" (List.forall_iff_forall_mem.1 (by decide))
  have hword : word.map Char.toUpper = "0X+007F".toList := by
    rw [← Text.trim_of_trimmed htrimmed]
    decide
  have hword' : word'.map Char.toUpper = "0X80".toList := by
    rw [← Text.trim_of_trimmed htrimmed']
    decide
  have hlargest : Digits 16 ['7', 'F'] 127 := ⟨[7, 15], by simp [isDigit_iff, digitChars], rfl⟩
  have hnext : Digits 16 ['8', '0'] 128 := ⟨[8, 0], by simp [isDigit_iff, digitChars], rfl⟩
  constructor
  · rw [hread, hword]
    exact .hexadecimal (.plus (by simp) (hlargest.zeros (by decide) 2)) (Nat.le_refl 127) rfl
  · refine hrefused ?_
    rw [hword']
    exact .largeHexadecimal (.unsigned (by simp) hnext) (by decide)

end MemberAccess.Permission
