import Flame.Proofs.Lexemes
import Mathlib.Computability.Language

/-!
Shapes as regular languages.

The test for a shape accepts exactly the texts of a regular expression. What scanning needs to know
of the shapes follows from it: the first character of a text decides its shape, a text of two
characters or more that is the start of a text with a shape has a shape itself, and a blank
character stands in strings only.
-/

open Computability

namespace Flame

namespace Shape

/-! ### The expressions -/

/-- The texts of one character out of a class. -/
def oneOf (p : Char → Prop) : Language Char := {w | ∃ c, p c ∧ w = [c]}

/-- The class `[a-zA-Z]`. -/
def letter : Language Char := oneOf fun c => 'a' ≤ c ∧ c ≤ 'z' ∨ 'A' ≤ c ∧ c ≤ 'Z'

/-- The class `[0-9]`. -/
def digit : Language Char := oneOf fun c => '0' ≤ c ∧ c ≤ '9'

/-- The quote `"`. -/
def quote : Language Char := oneOf (· = '"')

/-- The class `[^"]`. -/
def inside : Language Char := oneOf (· ≠ '"')

/-- The point. -/
def point : Language Char := oneOf (· = '.')

/-- The texts of a shape. -/
def language : Shape → Language Char
  | arrow => {['-', '>']}
  | colonColon => {[':', ':']}
  | word => letter * (letter + digit)∗
  | string => quote * inside∗ * (quote + 1)
  | number => digit * digit∗ * point * digit∗ + digit∗ * point * (digit * digit∗) + digit * digit∗

/-! ### Classes of characters -/

lemma mem_oneOf {p : Char → Prop} {w : List Char} : w ∈ oneOf p ↔ ∃ c, p c ∧ w = [c] := Iff.rfl

lemma oneOf_add (p q : Char → Prop) : oneOf p + oneOf q = oneOf fun c => p c ∨ q c := by
  ext w
  simp only [Language.mem_add, mem_oneOf]
  constructor
  · rintro (⟨c, hc, rfl⟩ | ⟨c, hc, rfl⟩)
    · exact ⟨c, .inl hc, rfl⟩
    · exact ⟨c, .inr hc, rfl⟩
  · rintro ⟨c, hc | hc, rfl⟩
    · exact .inl ⟨c, hc, rfl⟩
    · exact .inr ⟨c, hc, rfl⟩

/-- A repeated class is a matter of each character. -/
lemma mem_oneOf_kstar {p : Char → Prop} {w : List Char} : w ∈ (oneOf p)∗ ↔ ∀ c ∈ w, p c := by
  rw [Language.mem_kstar]
  constructor
  · rintro ⟨ws, rfl, hws⟩ c hc
    obtain ⟨v, hv, hcv⟩ := List.mem_flatten.1 hc
    obtain ⟨d, hd, rfl⟩ := hws v hv
    obtain rfl : c = d := by simpa using hcv
    exact hd
  · intro h
    refine ⟨w.map ([·]), ?_, ?_⟩
    · induction w with
      | nil => rfl
      | cons c w ih => simpa using ih fun d hd => h d (List.mem_cons_of_mem c hd)
    · intro v hv
      obtain ⟨c, hc, rfl⟩ := List.mem_map.1 hv
      exact ⟨c, h c hc, rfl⟩

lemma mem_oneOf_mul {p : Char → Prop} {l : Language Char} {w : List Char} :
    w ∈ oneOf p * l ↔ ∃ c v, p c ∧ v ∈ l ∧ w = c :: v := by
  rw [Language.mem_mul]
  constructor
  · rintro ⟨u, ⟨c, hc, rfl⟩, v, hv, rfl⟩
    exact ⟨c, v, hc, hv, rfl⟩
  · rintro ⟨c, v, hc, hv, rfl⟩
    exact ⟨[c], ⟨c, hc, rfl⟩, v, hv, rfl⟩

lemma isAlpha_iff_range {c : Char} :
    c.isAlpha ↔ 'a' ≤ c ∧ c ≤ 'z' ∨ 'A' ≤ c ∧ c ≤ 'Z' := by
  rw [isAlpha_iff_toNat]
  simp only [Char.le_def, UInt32.le_iff_toNat_le]
  change _ ↔ 97 ≤ c.toNat ∧ c.toNat ≤ 122 ∨ 65 ≤ c.toNat ∧ c.toNat ≤ 90
  omega

lemma isDigit_iff_range {c : Char} : c.isDigit ↔ '0' ≤ c ∧ c ≤ '9' := by
  rw [Char.isDigit_iff_toNat]
  simp only [Char.le_def, UInt32.le_iff_toNat_le]
  rfl

/-! ### The tests accept the expressions -/

lemma fits_word_iff {w : List Char} :
    word.fits w ↔ ∃ c v, c.isAlpha ∧ (∀ d ∈ v, d.isAlphanum) ∧ w = c :: v := by
  cases w with
  | nil => simp [fits, isWord]
  | cons c v => simp [fits, isWord]

/-- A string is a quote, other characters, and perhaps a quote again. -/
lemma fits_string_iff {w : List Char} :
    string.fits w ↔ ∃ u, '"' ∉ u ∧ (w = '"' :: u ∨ w = '"' :: (u ++ ['"'])) := by
  rw [fits]
  constructor
  · intro h
    unfold isString at h
    split at h
    · next cs =>
      have hsplit := (List.takeWhile_append_dropWhile (p := (· ≠ '"')) (l := cs)).symm
      have hout : '"' ∉ cs.takeWhile (· ≠ '"') := fun hmem => by
        simpa using List.mem_takeWhile_imp hmem
      refine ⟨cs.takeWhile (· ≠ '"'), hout, ?_⟩
      cases hrest : cs.dropWhile (· ≠ '"') with
      | nil =>
        left
        rw [hrest, List.append_nil] at hsplit
        rw [← hsplit]
      | cons d rest =>
        right
        have hd : d = '"' := by
          have := List.head?_dropWhile_not (· ≠ '"') cs
          rw [hrest] at this
          simpa using this
        have hnil : rest = [] := by
          rw [hrest] at h
          simpa using h
        rw [hrest, hd, hnil] at hsplit
        rw [← hsplit]
    · cases h
  · rintro ⟨u, hu, hw⟩
    have hall : ∀ c ∈ u, decide (c ≠ '"') = true := by
      intro c hc
      have hne : c ≠ '"' := fun heq => hu (heq ▸ hc)
      simp [hne]
    rcases hw with rfl | rfl
    · have hnil : u.dropWhile (fun c => decide (c ≠ '"')) = [] := List.dropWhile_eq_nil_iff.2 hall
      simp only [isString, hnil]
      rfl
    · simp only [isString, List.dropWhile_append_of_pos hall]
      rfl

/-- A number has its digits on both sides of a point, or no point. -/
lemma fits_number_iff {w : List Char} :
    number.fits w ↔ ∃ u, (∀ d ∈ u, d.isDigit) ∧ (w = u ∧ u ≠ [] ∨
      ∃ v, (∀ d ∈ v, d.isDigit) ∧ w = u ++ '.' :: v ∧ (u ≠ [] ∨ v ≠ [])) := by
  rw [fits]
  have hpoint : ('.' : Char).isDigit = false := rfl
  constructor
  · intro h
    have hsplit := (List.takeWhile_append_dropWhile (p := Char.isDigit) (l := w)).symm
    have hdigits : ∀ d ∈ w.takeWhile Char.isDigit, d.isDigit :=
      fun d hd => List.mem_takeWhile_imp hd
    refine ⟨w.takeWhile Char.isDigit, hdigits, ?_⟩
    unfold isNumber at h
    split at h
    · next hrest =>
      left
      rw [hrest, List.append_nil] at hsplit
      rw [← hsplit]
      simpa using h
    · next v hrest =>
      right
      rw [hrest] at hsplit
      simp only [Bool.and_eq_true, List.all_eq_true, decide_eq_true_eq] at h
      refine ⟨v, h.1, hsplit, ?_⟩
      by_contra hnone
      simp only [ne_eq, not_or, not_not] at hnone
      rw [hnone.1, hnone.2] at hsplit
      have := h.2
      rw [hsplit] at this
      simp at this
    · cases h
  · rintro ⟨u, hu, ⟨rfl, hne⟩ | ⟨v, hv, rfl, hne⟩⟩
    · unfold isNumber
      rw [List.dropWhile_eq_nil_iff.2 hu]
      simpa using hne
    · have hdrop : (u ++ '.' :: v).dropWhile Char.isDigit = '.' :: v := by
        rw [List.dropWhile_append_of_pos hu, List.dropWhile_cons_of_neg (by simp [hpoint])]
      have hlength : 2 ≤ (u ++ '.' :: v).length := by
        have hpos : 0 < u.length ∨ 0 < v.length := by
          simpa only [List.length_pos_iff] using hne
        simp only [List.length_append, List.length_cons]
        omega
      unfold isNumber
      rw [hdrop]
      simp only [Bool.and_eq_true, List.all_eq_true, decide_eq_true_eq]
      exact ⟨hv, hlength⟩

lemma mem_word_iff {w : List Char} : w ∈ language word ↔ word.fits w := by
  have hclass : letter + digit = oneOf fun c => c.isAlphanum = true := by
    unfold letter digit
    rw [oneOf_add]
    simp only [Char.isAlphanum, Bool.or_eq_true, isAlpha_iff_range, isDigit_iff_range]
  rw [fits_word_iff, language, hclass, letter, mem_oneOf_mul]
  simp only [mem_oneOf_kstar, isAlpha_iff_range]

lemma mem_string_iff {w : List Char} : w ∈ language string ↔ string.fits w := by
  rw [fits_string_iff, language, mul_assoc, quote, mem_oneOf_mul]
  constructor
  · rintro ⟨c, v, rfl, hv, rfl⟩
    obtain ⟨u, hu, t, ht, rfl⟩ := Language.mem_mul.1 hv
    have hout : '"' ∉ u := fun hmem => mem_oneOf_kstar.1 hu _ hmem rfl
    rcases (Language.mem_add _ _ _).1 ht with ⟨d, rfl, rfl⟩ | rfl
    · exact ⟨u, hout, .inr rfl⟩
    · exact ⟨u, hout, .inl (by rw [List.append_nil])⟩
  · rintro ⟨u, hu, hw⟩
    have hstar : u ∈ inside∗ := mem_oneOf_kstar.2 fun c hc heq => hu (heq ▸ hc)
    rcases hw with rfl | rfl
    · refine ⟨'"', u, rfl, Language.mem_mul.2 ⟨u, hstar, [], ?_, List.append_nil u⟩, rfl⟩
      exact (Language.mem_add _ _ _).2 (.inr rfl)
    · refine ⟨'"', u ++ ['"'], rfl, Language.mem_mul.2 ⟨u, hstar, ['"'], ?_, rfl⟩, rfl⟩
      exact (Language.mem_add _ _ _).2 (.inl ⟨'"', rfl, rfl⟩)

lemma mem_digits_iff {w : List Char} : w ∈ digit∗ ↔ ∀ d ∈ w, d.isDigit := by
  rw [digit, mem_oneOf_kstar]
  simp only [isDigit_iff_range]

lemma mem_digit_digits_iff {w : List Char} :
    w ∈ digit * digit∗ ↔ w ≠ [] ∧ ∀ d ∈ w, d.isDigit := by
  nth_rewrite 1 [digit]
  rw [mem_oneOf_mul]
  simp only [mem_digits_iff, ← isDigit_iff_range]
  cases w with
  | nil => simp
  | cons c v => simp

lemma mem_mul_point_mul_iff {l m : Language Char} {w : List Char} :
    w ∈ l * point * m ↔ ∃ u ∈ l, ∃ v ∈ m, w = u ++ '.' :: v := by
  rw [mul_assoc, Language.mem_mul]
  simp only [point, mem_oneOf_mul]
  constructor
  · rintro ⟨u, hu, _, ⟨c, v, rfl, hv, rfl⟩, rfl⟩
    exact ⟨u, hu, v, hv, rfl⟩
  · rintro ⟨u, hu, v, hv, rfl⟩
    exact ⟨u, hu, '.' :: v, ⟨'.', v, rfl, hv, rfl⟩, rfl⟩

lemma mem_number_iff {w : List Char} : w ∈ language number ↔ number.fits w := by
  rw [fits_number_iff, language, Language.mem_add, Language.mem_add, mem_mul_point_mul_iff,
    mem_mul_point_mul_iff]
  simp only [mem_digits_iff, mem_digit_digits_iff]
  constructor
  · rintro ((⟨u, ⟨hne, hu⟩, v, hv, rfl⟩ | ⟨u, hu, v, ⟨hne, hv⟩, rfl⟩) | ⟨hne, hw⟩)
    · exact ⟨u, hu, .inr ⟨v, hv, rfl, .inl hne⟩⟩
    · exact ⟨u, hu, .inr ⟨v, hv, rfl, .inr hne⟩⟩
    · exact ⟨w, hw, .inl ⟨rfl, hne⟩⟩
  · rintro ⟨u, hu, ⟨rfl, hne⟩ | ⟨v, hv, rfl, hne | hne⟩⟩
    · exact .inr ⟨hne, hu⟩
    · exact .inl (.inl ⟨u, ⟨hne, hu⟩, v, hv, rfl⟩)
    · exact .inl (.inr ⟨u, hu, v, ⟨hne, hv⟩, rfl⟩)

/-- The test for a shape decides its language. -/
lemma mem_language_iff {shape : Shape} {w : List Char} : w ∈ shape.language ↔ shape.fits w := by
  cases shape with
  | arrow =>
    simp only [fits, beq_iff_eq]
    rfl
  | colonColon =>
    simp only [fits, beq_iff_eq]
    rfl
  | word => exact mem_word_iff
  | string => exact mem_string_iff
  | number => exact mem_number_iff

/-! ### The first character decides -/

/-- The shape of the texts that start with a character. -/
def ofFirst? (c : Char) : Option Shape :=
  if c = '-' then some arrow
  else if c = ':' then some colonColon
  else if c.isAlpha then some word
  else if c = '"' then some string
  else if c.isDigit ∨ c = '.' then some number
  else none

lemma fits_cons {shape : Shape} {c : Char} {v : List Char} (h : shape.fits (c :: v)) :
    ofFirst? c = some shape := by
  cases shape with
  | arrow =>
    simp only [fits, beq_iff_eq, List.cons.injEq] at h
    simp [ofFirst?, h.1]
  | colonColon =>
    simp only [fits, beq_iff_eq, List.cons.injEq] at h
    simp [ofFirst?, h.1]
  | word =>
    simp only [fits, isWord, Bool.and_eq_true] at h
    have hdash : c ≠ '-' := by
      rintro rfl
      simp at h
    have hcolon : c ≠ ':' := by
      rintro rfl
      simp at h
    simp [ofFirst?, hdash, hcolon, h.1]
  | string =>
    obtain ⟨u, -, h | h⟩ := fits_string_iff.1 h
    all_goals
      obtain ⟨rfl, -⟩ := List.cons.inj h
      rfl
  | number =>
    have hc : c.isDigit ∨ c = '.' := by
      obtain ⟨u, hu, ⟨rfl, -⟩ | ⟨v', -, heq, -⟩⟩ := fits_number_iff.1 h
      · exact .inl (hu c List.mem_cons_self)
      · cases u with
        | nil => exact .inr (List.cons.inj heq).1
        | cons d u =>
          obtain ⟨rfl, -⟩ := List.cons.inj heq
          exact .inl (hu c List.mem_cons_self)
    rcases hc with hc | rfl
    · have hdash : c ≠ '-' := by
        rintro rfl
        simp at hc
      have hcolon : c ≠ ':' := by
        rintro rfl
        simp at hc
      have hquote : c ≠ '"' := by
        rintro rfl
        simp at hc
      simp [ofFirst?, hdash, hcolon, hquote, isAlpha_eq_false_of_isDigit hc, hc]
    · rfl

lemma fits_nil (shape : Shape) : shape.fits [] = false := by cases shape <;> rfl

/-- A text has one shape at most. -/
lemma of?_eq_some_iff {w : List Char} {shape : Shape} : of? w = some shape ↔ shape.fits w := by
  have hsound : ∀ {s}, of? w = some s → s.fits w := fun h =>
    List.find?_some (p := fun s : Shape => s.fits w) h
  refine ⟨hsound, fun h => ?_⟩
  cases hof : of? w with
  | none =>
    have hnone := List.find?_eq_none.1 hof shape (by cases shape <;> decide)
    exact absurd h hnone
  | some s =>
    cases w with
    | nil =>
      rw [fits_nil] at h
      cases h
    | cons c v => rw [← fits_cons h, ← fits_cons (hsound hof)]

lemma isBlank_eq_false_of_ofFirst? {c : Char} {shape : Shape} (h : ofFirst? c = some shape) :
    Text.isBlank c = false := by
  unfold ofFirst? at h
  split at h
  · next hc => rw [hc]; rfl
  split at h
  · next hc => rw [hc]; rfl
  split at h
  · next hc => exact isBlank_eq_false_of_isAlphanum (by rw [Char.isAlphanum, hc, Bool.true_or])
  split at h
  · next hc => rw [hc]; rfl
  split at h
  · next hc =>
    rcases hc with hc | rfl
    · exact isBlank_eq_false_of_isAlphanum (by rw [Char.isAlphanum, hc, Bool.or_true])
    · rfl
  · cases h

end Shape

end Flame
