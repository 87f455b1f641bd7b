import Mathlib.Data.List.TakeWhile
import MemberAccess.Text.Letters

/-!
# Trimmed texts

A text is trimmed by dropping blanks from its two ends, one after the other. What is left is the one
part of the text that neither begins nor ends with a blank and has nothing but blanks around it.

* `Trimmed`: that part; `trim_eq_iff`.
* `upper_of_ascii`: in ASCII a text is written in capitals letter by letter.
-/

namespace MemberAccess.Text

variable {text word front back : List Char}

/-! ## Blanks -/

/-- The text is the word with blanks around it, and the word neither begins nor ends with a
blank. -/
structure Trimmed (text word : List Char) : Prop where
  padded : ∃ front back, text = front ++ word ++ back ∧
    (∀ c ∈ front, isBlank c = true) ∧ ∀ c ∈ back, isBlank c = true
  first : ∀ c ∈ word.head?, isBlank c = false
  last : ∀ c ∈ word.getLast?, isBlank c = false

theorem dropWhile_blanks (hfront : ∀ c ∈ front, isBlank c = true)
    (hfirst : ∀ c ∈ text.head?, isBlank c = false) :
    (front ++ text).dropWhile isBlank = text := by
  rw [List.dropWhile_append_of_pos hfront]
  cases text with
  | nil => rfl
  | cons c rest => exact List.dropWhile_cons_of_neg (by simp [hfirst c rfl])

theorem isBlank_head?_dropWhile (text : List Char) :
    ∀ c ∈ (text.dropWhile isBlank).head?, isBlank c = false := by
  intro c hc
  simpa [Option.mem_def.1 hc] using List.head?_dropWhile_not isBlank text

theorem trim_of_trimmed (h : Trimmed text word) : trim text = word := by
  obtain ⟨⟨front, back, rfl, hfront, hback⟩, hfirst, hlast⟩ := h
  rw [trim, List.append_assoc]
  cases word with
  | nil =>
    have hblank : ∀ c ∈ front ++ ([] ++ back), isBlank c = true := by
      intro c hc
      rcases List.mem_append.1 hc with hc | hc
      · exact hfront c hc
      · exact hback c hc
    rw [List.dropWhile_eq_nil_iff.2 hblank]
    rfl
  | cons c rest =>
    have hback' : ∀ d ∈ back.reverse, isBlank d = true :=
      fun d hd => hback d (List.mem_reverse.1 hd)
    have hlast' : ∀ d ∈ (c :: rest).reverse.head?, isBlank d = false := by
      rwa [List.head?_reverse]
    have hbody : (front ++ (c :: rest ++ back)).dropWhile isBlank = c :: rest ++ back :=
      dropWhile_blanks hfront hfirst
    rw [hbody, List.reverse_append, dropWhile_blanks hback' hlast', List.reverse_reverse]

theorem trimmed_trim (text : List Char) : Trimmed text (trim text) := by
  let body := text.dropWhile isBlank
  let back := (body.reverse.takeWhile isBlank).reverse
  have hbody : body = trim text ++ back := by
    rw [← List.reverse_inj, List.reverse_append, trim, List.reverse_reverse, List.reverse_reverse]
    exact List.takeWhile_append_dropWhile.symm
  refine ⟨⟨text.takeWhile isBlank, back, ?_, fun c hc => List.mem_takeWhile_imp hc, ?_⟩, ?_, ?_⟩
  · rw [List.append_assoc, ← hbody]
    exact List.takeWhile_append_dropWhile.symm
  · exact fun c hc => List.mem_takeWhile_imp (List.mem_reverse.1 hc)
  · intro c hc
    -- the word is not empty, so it begins where the text without its blanks in front does
    refine isBlank_head?_dropWhile text c ?_
    have hhead : body.head? = some c := by
      rw [hbody, List.head?_append, Option.mem_def.1 hc, Option.some_or]
    exact hhead
  · rw [trim, List.getLast?_reverse]
    exact isBlank_head?_dropWhile _

theorem Trimmed.subset (h : Trimmed text word) : word ⊆ text := by
  obtain ⟨⟨front, back, rfl, -⟩, -⟩ := h
  exact fun c hc => List.mem_append_left back (List.mem_append_right front hc)

/-- Trimming finds the word between the blanks. -/
theorem trim_eq_iff : trim text = word ↔ Trimmed text word :=
  ⟨fun h => h ▸ trimmed_trim text, trim_of_trimmed⟩

theorem trimmed_of_noBlank (hfront : ∀ c ∈ front, isBlank c = true)
    (hback : ∀ c ∈ back, isBlank c = true) (hword : ∀ c ∈ word, isBlank c = false) :
    Trimmed (front ++ word ++ back) word :=
  ⟨⟨front, back, rfl, hfront, hback⟩, fun c hc => hword c (List.mem_of_mem_head? hc),
    fun c hc => hword c (List.mem_of_getLast? hc)⟩

/-! ## Capitals -/

theorem capitals_of_ascii {c : Char} (hc : c.toNat < 128) : capitals c = [c.toUpper] := by
  have hall : ∀ n < 128, capitals (Char.ofNat n) = [(Char.ofNat n).toUpper] := by decide
  have h := hall c.toNat hc
  rwa [Char.ofNat_toNat] at h

theorem upper_of_ascii (h : ∀ c ∈ text, c.toNat < 128) : upper text = text.map Char.toUpper := by
  induction text with
  | nil => rfl
  | cons c rest ih =>
    rw [upper, List.flatMap_cons, capitals_of_ascii (h c List.mem_cons_self)]
    exact congrArg (c.toUpper :: ·) (ih fun d hd => h d (List.mem_cons_of_mem c hd))

theorem upper_of_capitals (h : ∀ c ∈ text, capitals c = [c]) : upper text = text := by
  induction text with
  | nil => rfl
  | cons c rest ih =>
    rw [upper, List.flatMap_cons, h c List.mem_cons_self]
    exact congrArg (c :: ·) (ih fun d hd => h d (List.mem_cons_of_mem c hd))

end MemberAccess.Text
