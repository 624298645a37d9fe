import Flame.Proofs.Shapes

/-!
Where a lexeme ends.

The lexeme at the start of a text is the longest start that has a shape, or one character if none
has. This says nothing of how it is found. Scanning finds it by its first character, and in one
pass; that it does is shown shape by shape. A lexeme is also known by the character after it: no
longer start of the text has a shape if the start that is one character longer has none.
-/

namespace Flame

/-- Some shape has the text. -/
def Shaped (w : List Char) : Prop := ∃ shape : Shape, w ∈ shape.language

/-- A string without its closing quote. -/
def LeftOpen (w : List Char) : Prop := ∃ u, w = '"' :: u ∧ '"' ∉ u

/-! ### Texts with a shape -/

lemma shaped_iff_fits {w : List Char} : Shaped w ↔ ∃ shape : Shape, shape.fits w := by
  simp only [Shaped, Shape.mem_language_iff]

lemma isSome_of?_iff {w : List Char} : (Shape.of? w).isSome ↔ Shaped w := by
  rw [shaped_iff_fits, Option.isSome_iff_exists]
  simp only [Shape.of?_eq_some_iff]

lemma Shaped.exists_cons {w : List Char} (h : Shaped w) :
    ∃ c v, w = c :: v ∧ Text.isBlank c = false := by
  obtain ⟨shape, hfits⟩ := shaped_iff_fits.1 h
  cases w with
  | nil =>
    rw [Shape.fits_nil] at hfits
    cases hfits
  | cons c v => exact ⟨c, v, rfl, Shape.isBlank_eq_false_of_ofFirst? (Shape.fits_cons hfits)⟩

lemma LeftOpen.shaped {w : List Char} (h : LeftOpen w) : Shaped w := by
  obtain ⟨u, rfl, hu⟩ := h
  exact shaped_iff_fits.2 ⟨.string, Shape.fits_string_iff.2 ⟨u, hu, .inl rfl⟩⟩

lemma LeftOpen.concat {w : List Char} (h : LeftOpen w) {c : Char} (hc : c ≠ '"') :
    LeftOpen (w ++ [c]) := by
  obtain ⟨u, rfl, hu⟩ := h
  refine ⟨u ++ [c], rfl, fun hmem => ?_⟩
  rcases List.mem_append.1 hmem with hmem | hmem
  · exact hu hmem
  · exact hc (List.mem_singleton.1 hmem).symm

/-- Whatever comes next belongs to a string that is left open. -/
lemma LeftOpen.shaped_concat {w : List Char} (h : LeftOpen w) (c : Char) : Shaped (w ++ [c]) := by
  by_cases hc : c = '"'
  · obtain ⟨u, rfl, hu⟩ := h
    rw [hc]
    exact shaped_iff_fits.2 ⟨.string, Shape.fits_string_iff.2 ⟨u, hu, .inr rfl⟩⟩
  · exact (h.concat hc).shaped

lemma LeftOpen.of_append {x y : List Char} (h : LeftOpen (x ++ y)) (hx : x ≠ []) :
    LeftOpen x := by
  obtain ⟨u, heq, hu⟩ := h
  cases x with
  | nil => exact absurd rfl hx
  | cons c v =>
    obtain ⟨rfl, rfl⟩ := List.cons.inj heq
    exact ⟨v, rfl, fun hmem => hu (List.mem_append_left y hmem)⟩

/-- The start of a text with a shape has one too, from two characters on. A single point, dash or
colon has none. -/
lemma Shaped.of_append {x y : List Char} (h : Shaped (x ++ y)) (hx : 2 ≤ x.length) : Shaped x := by
  obtain ⟨shape, hfits⟩ := shaped_iff_fits.1 h
  obtain ⟨c, v, rfl⟩ : ∃ c v, x = c :: v := by
    refine List.exists_cons_of_ne_nil fun hnil => ?_
    rw [hnil] at hx
    simp at hx
  refine shaped_iff_fits.2 ⟨shape, ?_⟩
  have hpair : ∀ a b : Char, (c :: v) ++ y = [a, b] → c :: v = [a, b] := by
    intro a b heq
    have hlength := congrArg List.length heq
    simp only [List.length_append, List.length_cons, List.length_nil] at hx hlength
    have hy : y = [] := List.length_eq_zero_iff.1 (by omega)
    rwa [hy, List.append_nil] at heq
  cases shape with
  | arrow =>
    simp only [Shape.fits, beq_iff_eq] at hfits ⊢
    exact hpair _ _ hfits
  | colonColon =>
    simp only [Shape.fits, beq_iff_eq] at hfits ⊢
    exact hpair _ _ hfits
  | word =>
    simp only [Shape.fits, List.cons_append, Shape.isWord, Bool.and_eq_true, List.all_append]
      at hfits ⊢
    exact ⟨hfits.1, hfits.2.1⟩
  | string =>
    obtain ⟨u, hu, heq | heq⟩ := Shape.fits_string_iff.1 hfits
    all_goals obtain ⟨rfl, htail : v ++ y = _⟩ := List.cons.inj heq
    · refine Shape.fits_string_iff.2 ⟨v, fun hmem => hu ?_, .inl rfl⟩
      rw [← htail]
      exact List.mem_append_left y hmem
    · rcases List.append_eq_append_iff.1 htail with ⟨u', rfl, -⟩ | ⟨u', rfl, hquote⟩
      · refine Shape.fits_string_iff.2 ⟨v, fun hmem => hu ?_, .inl rfl⟩
        exact List.mem_append_left u' hmem
      · cases u' with
        | nil =>
          rw [List.append_nil]
          exact Shape.fits_string_iff.2 ⟨u, hu, .inl rfl⟩
        | cons d u' =>
          obtain ⟨rfl, hnil⟩ := List.cons.inj hquote
          obtain ⟨rfl, -⟩ := List.append_eq_nil_iff.1 hnil.symm
          exact Shape.fits_string_iff.2 ⟨u, hu, .inr rfl⟩
  | number =>
    obtain ⟨u, hu, ⟨heq, -⟩ | ⟨f, hf, heq, -⟩⟩ := Shape.fits_number_iff.1 hfits
    · refine Shape.fits_number_iff.2 ⟨c :: v, fun d hd => hu d ?_, .inl ⟨rfl, List.cons_ne_nil c v⟩⟩
      rw [← heq]
      exact List.mem_append_left y hd
    · rcases List.append_eq_append_iff.1 heq with ⟨u', rfl, -⟩ | ⟨u', hcv, hrest⟩
      · refine Shape.fits_number_iff.2
          ⟨c :: v, fun d hd => hu d ?_, .inl ⟨rfl, List.cons_ne_nil c v⟩⟩
        exact List.mem_append_left u' hd
      · rw [hcv] at hx ⊢
        cases u' with
        | nil =>
          rw [List.append_nil] at hx ⊢
          refine Shape.fits_number_iff.2 ⟨u, hu, .inl ⟨rfl, fun hnil => ?_⟩⟩
          rw [hnil] at hx
          simp at hx
        | cons d f' =>
          -- The point is among the first characters, and so is a digit on one side of it.
          obtain ⟨rfl, rfl⟩ := List.cons.inj hrest
          refine Shape.fits_number_iff.2 ⟨u, hu, .inr ⟨f', fun d hd => hf d ?_, rfl, ?_⟩⟩
          · exact List.mem_append_left y hd
          · by_contra hnone
            simp only [ne_eq, not_or, not_not] at hnone
            rw [hnone.1, hnone.2] at hx
            simp at hx

/-- A blank character in a text with a shape is inside a string. -/
lemma Shaped.leftOpen_of_blank {x y : List Char} {b : Char} (h : Shaped (x ++ b :: y))
    (hb : Text.isBlank b = true) : LeftOpen x := by
  obtain ⟨shape, hfits⟩ := shaped_iff_fits.1 h
  have hmem : b ∈ x ++ b :: y := List.mem_append_right x List.mem_cons_self
  have hfree : (∀ c ∈ x ++ b :: y, Text.isBlank c = false) → LeftOpen x := by
    intro hall
    rw [hall b hmem] at hb
    cases hb
  cases shape with
  | arrow =>
    simp only [Shape.fits, beq_iff_eq] at hfits
    exact hfree (by rw [hfits]; simp [Text.isBlank])
  | colonColon =>
    simp only [Shape.fits, beq_iff_eq] at hfits
    exact hfree (by rw [hfits]; simp [Text.isBlank])
  | word =>
    obtain ⟨c, v, hc, hv, heq⟩ := Shape.fits_word_iff.1 hfits
    refine hfree fun d hd => isBlank_eq_false_of_isAlphanum ?_
    rw [heq] at hd
    rcases List.mem_cons.1 hd with rfl | hd
    · rw [Char.isAlphanum, hc, Bool.true_or]
    · exact hv d hd
  | number =>
    have hdigit : ∀ d : Char, d.isDigit → Text.isBlank d = false := fun d hd =>
      isBlank_eq_false_of_isAlphanum (by rw [Char.isAlphanum, hd, Bool.or_true])
    refine hfree fun d hd => ?_
    obtain ⟨u, hu, ⟨heq, -⟩ | ⟨f, hf, heq, -⟩⟩ := Shape.fits_number_iff.1 hfits
    · exact hdigit d (hu d (heq ▸ hd))
    · rw [heq, List.mem_append, List.mem_cons] at hd
      rcases hd with hd | rfl | hd
      · exact hdigit d (hu d hd)
      · rfl
      · exact hdigit d (hf d hd)
  | string =>
    have hquote : b ≠ '"' := by
      rintro rfl
      cases hb
    obtain ⟨u, hu, heq⟩ := Shape.fits_string_iff.1 hfits
    cases x with
    | nil => rcases heq with heq | heq <;> exact absurd (List.cons.inj heq).1 hquote
    | cons c v =>
      have hstart : ∃ t, u = v ++ t := by
        rcases heq with heq | heq
        · exact ⟨b :: y, (List.cons.inj heq).2.symm⟩
        · rcases List.append_eq_append_iff.1 (List.cons.inj heq).2 with ⟨t, ht, -⟩ | ⟨t, -, ht⟩
          · exact ⟨t, ht⟩
          · cases t with
            | nil => exact absurd (List.cons.inj ht).1.symm hquote
            | cons d t => simp at ht
      have hc : c = '"' := by
        rcases heq with heq | heq <;> exact (List.cons.inj heq).1
      obtain ⟨t, rfl⟩ := hstart
      exact ⟨v, by rw [hc], fun hmem => hu (List.mem_append_left t hmem)⟩

/-! ### Where a lexeme ends -/

/-- The text `w` is the lexeme at the start of `w ++ rest`: the longest start that has a shape, or
one character if there is none. -/
inductive Lexeme (w rest : List Char) : Prop
  | longest (shaped : Shaped w) (max : ∀ v, v <+: w ++ rest → Shaped v → v.length ≤ w.length)
  | single (one : w.length = 1) (none : ∀ v, v <+: w ++ rest → ¬Shaped v)

lemma Lexeme.length_pos {w rest : List Char} (h : Lexeme w rest) : 0 < w.length := by
  cases h with
  | longest shaped _ =>
    obtain ⟨c, v, rfl, -⟩ := shaped.exists_cons
    simp
  | single one _ => omega

/-- A text starts with one lexeme only. -/
lemma Lexeme.unique {w rest w' rest' : List Char} (h : Lexeme w rest) (h' : Lexeme w' rest')
    (heq : w ++ rest = w' ++ rest') : w = w' ∧ rest = rest' := by
  have hstart : w <+: w' ++ rest' := heq ▸ List.prefix_append w rest
  have hstart' : w' <+: w ++ rest := heq ▸ List.prefix_append w' rest'
  have hlength : w.length = w'.length := by
    cases h with
    | longest shaped max =>
      cases h' with
      | longest shaped' max' =>
        have hle := max' w hstart shaped
        have hge := max w' hstart' shaped'
        omega
      | single _ none' => exact absurd shaped (none' w hstart)
    | single one none =>
      cases h' with
      | longest shaped' _ => exact absurd shaped' (none w' hstart')
      | single one' _ => rw [one, one']
  exact List.append_inj heq hlength

/-- A text splits after the characters at its start that pass a test. -/
lemma exists_run (p : Char → Bool) (cs : List Char) :
    ∃ u rest, cs = u ++ rest ∧ (∀ c ∈ u, p c) ∧ ∀ c ∈ rest.head?, p c = false := by
  refine ⟨cs.takeWhile p, cs.dropWhile p, List.takeWhile_append_dropWhile.symm, ?_, ?_⟩
  · exact fun c hc => List.mem_takeWhile_imp hc
  · intro c hc
    have hfirst := List.head?_dropWhile_not p cs
    rw [Option.mem_def.1 hc] at hfirst
    simpa using hfirst

lemma length_le_of_run {p : Char → Bool} {u rest v : List Char} (hu : ∀ c ∈ u, p c)
    (hrest : ∀ c ∈ rest.head?, p c = false) (hstart : v <+: u ++ rest) (hv : ∀ c ∈ v, p c) :
    v.length ≤ u.length := by
  rw [← runLength_append hu hrest, runLength]
  obtain ⟨t, ht⟩ := hstart
  rw [← ht, List.takeWhile_append_of_pos hv, List.length_append]
  omega

section

variable {c : Char} {u rest : List Char}

/-- The first character tells which shape to look for. -/
lemma Lexeme.of_fits {shape : Shape} (hfits : shape.fits (c :: u))
    (hmax : ∀ v, v <+: u ++ rest → shape.fits (c :: v) → v.length ≤ u.length) :
    Lexeme (c :: u) rest := by
  refine .longest (shaped_iff_fits.2 ⟨shape, hfits⟩) fun v hstart hshaped => ?_
  obtain ⟨shape', hfits'⟩ := shaped_iff_fits.1 hshaped
  cases v with
  | nil => exact Nat.zero_le _
  | cons d v =>
    obtain ⟨rfl, hv⟩ := List.cons_prefix_cons.1 hstart
    obtain rfl : shape' = shape :=
      Option.some.inj ((Shape.fits_cons hfits').symm.trans (Shape.fits_cons hfits))
    exact Nat.succ_le_succ (hmax v hv hfits')

lemma Lexeme.of_not_fits (h : ∀ shape : Shape, ∀ v, v <+: rest → ¬shape.fits (c :: v)) :
    Lexeme [c] rest := by
  refine .single rfl fun v hstart hshaped => ?_
  obtain ⟨shape, hfits⟩ := shaped_iff_fits.1 hshaped
  cases v with
  | nil =>
    rw [Shape.fits_nil] at hfits
    cases hfits
  | cons d v =>
    obtain ⟨rfl, hv⟩ := List.cons_prefix_cons.1 hstart
    exact h shape v hv hfits

end

/-- The number of characters that a lexeme takes after its first one is right. -/
def ExtentRight (c : Char) (cs : List Char) : Prop :=
  ∃ u rest, cs = u ++ rest ∧ lexemeExtent c cs = u.length ∧ Lexeme (c :: u) rest

section

variable {c : Char} (cs : List Char)

lemma extentRight_word (hc : c.isAlpha) : ExtentRight c cs := by
  obtain ⟨u, rest, rfl, hu, hrest⟩ := exists_run Char.isAlphanum cs
  refine ⟨u, rest, rfl, ?_, ?_⟩
  · rw [lexemeExtent, if_pos hc, runLength_append hu hrest]
  · refine Lexeme.of_fits (Shape.fits_word_iff.2 ⟨c, u, hc, hu, rfl⟩) fun v hv hfits => ?_
    obtain ⟨c', v', -, hall, heq⟩ := Shape.fits_word_iff.1 hfits
    obtain ⟨-, rfl⟩ := List.cons.inj heq
    exact length_le_of_run hu hrest hv hall

lemma extentRight_string : ExtentRight '"' cs := by
  obtain ⟨u, rest, rfl, hu, hrest⟩ := exists_run (· ≠ '"') cs
  have hrun := runLength_append hu hrest
  have hout : '"' ∉ u := fun hmem => by simpa using hu '"' hmem
  have hshort : ∀ v, v <+: u ++ rest → '"' ∉ v → v.length ≤ u.length := by
    intro v hv hnot
    refine length_le_of_run hu hrest hv fun d hd => ?_
    have hne : d ≠ '"' := fun heq => hnot (heq ▸ hd)
    simp [hne]
  have hextent : lexemeExtent '"' (u ++ rest) =
      if rest.isEmpty then u.length else u.length + 1 := by
    rw [lexemeExtent, if_neg (by decide), if_pos rfl]
    dsimp only
    rw [hrun, List.drop_left]
  cases rest with
  | nil =>
    refine ⟨u, [], rfl, hextent, ?_⟩
    refine Lexeme.of_fits (Shape.fits_string_iff.2 ⟨u, hout, .inl rfl⟩) fun v hv _ => ?_
    rw [List.append_nil] at hv
    exact hv.length_le
  | cons d rest =>
    obtain rfl : d = '"' := by simpa using hrest d rfl
    refine ⟨u ++ ['"'], rest, by simp, by simpa using hextent, ?_⟩
    refine Lexeme.of_fits (Shape.fits_string_iff.2 ⟨u, hout, .inr rfl⟩) fun v hv hfits => ?_
    rw [List.append_assoc, List.singleton_append] at hv
    rw [List.length_append, List.length_singleton]
    obtain ⟨u', hu', heq | heq⟩ := Shape.fits_string_iff.1 hfits
    all_goals obtain ⟨-, rfl⟩ := List.cons.inj heq
    · have hle := hshort _ hv hu'
      omega
    · have hle := hshort u' ((List.prefix_append u' ['"']).trans hv) hu'
      simp only [List.length_append, List.length_singleton]
      omega

/-- Digits, and perhaps a point with more digits. -/
lemma extentRight_digits (hc : c.isDigit) : ExtentRight c cs := by
  have halpha := isAlpha_eq_false_of_isDigit hc
  have hquote : c ≠ '"' := by
    rintro rfl
    cases hc
  have hpoint : ('.' : Char).isDigit = false := rfl
  obtain ⟨u, rest, rfl, hu, hrest⟩ := exists_run Char.isDigit cs
  have hrun := runLength_append hu hrest
  have hextent : lexemeExtent c (u ++ rest) = if rest.head? = some '.' then
      u.length + 1 + runLength Char.isDigit rest.tail else u.length := by
    have htail : (u ++ rest).drop (u.length + 1) = rest.tail := by
      rw [← List.drop_drop, List.drop_left, List.drop_one]
    simp [lexemeExtent, halpha, hquote, hc, hrun, htail]
  have hcu : ∀ d ∈ c :: u, d.isDigit := by
    intro d hd
    rcases List.mem_cons.1 hd with rfl | hd
    · exact hc
    · exact hu d hd
  -- What a number that starts like this one looks like.
  have hnumber : ∀ v, Shape.number.fits (c :: v) → (∀ d ∈ v, d.isDigit) ∨
      ∃ w f, (∀ d ∈ w, d.isDigit) ∧ (∀ d ∈ f, d.isDigit) ∧ v = w ++ '.' :: f := by
    intro v hfits
    obtain ⟨w, hw, ⟨rfl, -⟩ | ⟨f, hf, heq, -⟩⟩ := Shape.fits_number_iff.1 hfits
    · exact .inl fun d hd => hw d (List.mem_cons_of_mem c hd)
    · cases w with
      | nil =>
        rw [(List.cons.inj heq).1, hpoint] at hc
        cases hc
      | cons d w =>
        refine .inr ⟨w, f, fun d hd => hw d (List.mem_cons_of_mem _ hd), hf, ?_⟩
        exact (List.cons.inj heq).2
  by_cases hdot : rest.head? = some '.'
  · obtain ⟨rest, rfl⟩ : ∃ r, rest = '.' :: r := by
      cases rest with
      | nil => cases hdot
      | cons d r =>
        obtain rfl := Option.some.inj hdot
        exact ⟨r, rfl⟩
    obtain ⟨f, rest, rfl, hf, hrest'⟩ := exists_run Char.isDigit rest
    refine ⟨u ++ '.' :: f, rest, by simp, ?_, ?_⟩
    · rw [hextent, if_pos hdot, List.tail_cons, runLength_append hf hrest']
      simp
      omega
    · refine Lexeme.of_fits (Shape.fits_number_iff.2 ⟨c :: u, hcu, .inr ⟨f, hf, rfl, ?_⟩⟩)
        fun v hv hfits => ?_
      · exact .inl (List.cons_ne_nil c u)
      · rw [List.append_assoc, List.cons_append] at hv
        simp only [List.length_append, List.length_cons]
        rcases hnumber v hfits with hall | ⟨w, f', hw, hf', rfl⟩
        · have hle := length_le_of_run hu hrest hv hall
          omega
        · -- Both points are the first character that is no digit.
          obtain ⟨t, ht⟩ := hv
          have hw' : runLength Char.isDigit (u ++ '.' :: (f ++ rest)) = w.length := by
            rw [← ht, List.append_assoc]
            exact runLength_append hw (by simp [hpoint])
          have hlength : w.length = u.length := hw'.symm.trans hrun
          rw [List.append_assoc] at ht
          obtain ⟨-, htail⟩ := List.append_inj ht hlength
          have hstart : f' <+: f ++ rest := ⟨t, (List.cons.inj htail).2⟩
          have hle := length_le_of_run hf hrest' hstart hf'
          simp only [List.length_append, List.length_cons]
          omega
  · refine ⟨u, rest, rfl, by rw [hextent, if_neg hdot], ?_⟩
    refine Lexeme.of_fits (Shape.fits_number_iff.2 ⟨c :: u, hcu, .inl ⟨rfl, ?_⟩⟩)
      fun v hv hfits => ?_
    · exact List.cons_ne_nil c u
    · rcases hnumber v hfits with hall | ⟨w, f, hw, -, rfl⟩
      · exact length_le_of_run hu hrest hv hall
      · -- The point would have to stand right after the digits.
        obtain ⟨t, ht⟩ := hv
        have hw' : runLength Char.isDigit (u ++ rest) = w.length := by
          rw [← ht, List.append_assoc]
          exact runLength_append hw (by simp [hpoint])
        have hlength : w.length = u.length := hw'.symm.trans hrun
        rw [List.append_assoc] at ht
        obtain ⟨-, htail⟩ := List.append_inj ht hlength
        rw [← htail] at hdot
        exact absurd rfl hdot

lemma extentRight_point : ExtentRight '.' cs := by
  have hpoint : ('.' : Char).isDigit = false := rfl
  obtain ⟨u, rest, rfl, hu, hrest⟩ := exists_run Char.isDigit cs
  have hrun := runLength_append hu hrest
  have hextent : lexemeExtent '.' (u ++ rest) = u.length := by
    have halpha : ('.' : Char).isAlpha = false := rfl
    simp [lexemeExtent, halpha, hrun]
  have hnumber : ∀ shape : Shape, ∀ v, shape.fits ('.' :: v) →
      shape = .number ∧ v ≠ [] ∧ ∀ d ∈ v, d.isDigit := by
    intro shape v hfits
    obtain rfl : Shape.number = shape := Option.some.inj (Shape.fits_cons hfits)
    obtain ⟨w, hw, ⟨rfl, -⟩ | ⟨f, hf, heq, hne⟩⟩ := Shape.fits_number_iff.1 hfits
    · exact absurd (hw '.' List.mem_cons_self) (by simp [hpoint])
    · cases w with
      | nil =>
        obtain rfl : v = f := (List.cons.inj heq).2
        exact ⟨rfl, by simpa using hne, hf⟩
      | cons d w =>
        obtain ⟨rfl, -⟩ := List.cons.inj heq
        exact absurd (hw '.' List.mem_cons_self) (by simp [hpoint])
  refine ⟨u, rest, rfl, hextent, ?_⟩
  by_cases hnil : u = []
  · subst hnil
    refine Lexeme.of_not_fits fun shape v hv hfits => ?_
    obtain ⟨-, hne, hall⟩ := hnumber shape v hfits
    have hle := length_le_of_run hu hrest hv hall
    exact hne (List.length_eq_zero_iff.1 (by simpa using hle))
  · refine Lexeme.of_fits (Shape.fits_number_iff.2 ⟨[], by simp, .inr ?_⟩)
      fun v hv hfits => ?_
    · exact ⟨u, hu, rfl, .inr hnil⟩
    · exact length_le_of_run hu hrest hv (hnumber _ v hfits).2.2

/-- The two symbols of two characters. -/
lemma extentRight_pair {d : Char} {s : Shape} (hfirst : Shape.ofFirst? c = some s)
    (hpair : ∀ v, s.fits (c :: v) ↔ v = [d])
    (hextent : lexemeExtent c cs = if cs.head? = some d then 1 else 0) : ExtentRight c cs := by
  by_cases hhead : cs.head? = some d
  · obtain ⟨rest, rfl⟩ : ∃ rest, cs = d :: rest := by
      cases cs with
      | nil => cases hhead
      | cons d' rest =>
        obtain rfl := Option.some.inj hhead
        exact ⟨rest, rfl⟩
    refine ⟨[d], rest, rfl, by rw [hextent, if_pos hhead]; rfl, ?_⟩
    refine Lexeme.of_fits ((hpair [d]).2 rfl) fun v _ hfits => ?_
    rw [(hpair v).1 hfits]
  · refine ⟨[], cs, rfl, by rw [hextent, if_neg hhead]; rfl, ?_⟩
    refine Lexeme.of_not_fits fun s' v hv hfits => ?_
    obtain rfl : s = s' :=
      Option.some.inj (hfirst.symm.trans (Shape.fits_cons hfits))
    rw [(hpair v).1 hfits] at hv
    obtain ⟨rest, rfl⟩ := hv
    exact hhead rfl

lemma extentRight (c : Char) : ExtentRight c cs := by
  by_cases halpha : c.isAlpha
  · exact extentRight_word cs halpha
  by_cases hquote : c = '"'
  · rw [hquote]
    exact extentRight_string cs
  by_cases hdigit : c.isDigit
  · exact extentRight_digits cs hdigit
  by_cases hpoint : c = '.'
  · rw [hpoint]
    exact extentRight_point cs
  by_cases hdash : c = '-'
  · subst hdash
    refine extentRight_pair cs (d := '>') (s := .arrow) rfl (fun v => ?_) ?_
    · simp [Shape.fits]
    · simp [lexemeExtent]
  by_cases hcolon : c = ':'
  · subst hcolon
    refine extentRight_pair cs (d := ':') (s := .colonColon) rfl (fun v => ?_) ?_
    · simp [Shape.fits]
    · simp [lexemeExtent]
  · refine ⟨[], cs, rfl, ?_, ?_⟩
    · simp [lexemeExtent, halpha, hquote, hdigit, hpoint, hdash, hcolon]
    · refine Lexeme.of_not_fits fun shape v _ hfits => ?_
      have hfirst := Shape.fits_cons hfits
      simp [Shape.ofFirst?, halpha, hquote, hdigit, hpoint, hdash, hcolon] at hfirst

end

/-- Where a lexeme starts, scanning takes it and goes on after it. -/
lemma scan_of_lexeme {c : Char} {u rest : List Char} (hc : Text.isBlank c = false)
    (h : Lexeme (c :: u) rest) (offset : Nat) :
    scan offset (c :: u ++ rest) =
      .ofLexeme (Text.trimEnd (c :: u)) offset ::
        scan (offset + Text.byteSize (c :: u)) rest := by
  obtain ⟨u', rest', heq, hextent, h'⟩ := extentRight (u ++ rest) c
  have hcons : c :: u ++ rest = c :: u' ++ rest' := congrArg (c :: ·) heq
  obtain ⟨hu, rfl⟩ := h.unique h' hcons
  obtain ⟨-, rfl⟩ := List.cons.inj hu
  rw [List.cons_append, scan_lexeme hc, hextent, List.take_left, List.drop_left]

/-! ### Lexemes by the character after them -/

section

variable {x rest : List Char} {n : Char}

lemma lexeme_of_next (hx : Shaped x ∨ x.length = 1) (hnot : ¬Shaped (x ++ [n])) :
    Lexeme x (n :: rest) := by
  have hpos : 0 < x.length := by
    rcases hx with hx | hx
    · obtain ⟨c, v, rfl, -⟩ := hx.exists_cons
      simp
    · omega
  have hshort : ∀ v, v <+: x ++ n :: rest → Shaped v → v <+: x := by
    intro v hv hshaped
    rcases List.prefix_or_prefix_of_prefix hv (List.prefix_append x (n :: rest)) with h | ⟨y, rfl⟩
    · exact h
    · cases y with
      | nil => rw [List.append_nil]
      | cons d y =>
        obtain ⟨rfl, -⟩ := List.cons_prefix_cons.1 ((List.prefix_append_right_inj x).1 hv)
        rw [List.append_cons] at hshaped
        exact absurd (hshaped.of_append (by simp; omega)) hnot
  by_cases hshaped : Shaped x
  · exact .longest hshaped fun v hv h => (hshort v hv h).length_le
  · have hone := hx.resolve_left hshaped
    refine .single hone fun v hv h => hshaped ?_
    obtain ⟨c, u, rfl, -⟩ := h.exists_cons
    have hstart := hshort _ hv h
    have hlength := hstart.length_le
    rw [← hstart.eq_of_length (by simp at hlength ⊢; omega)]
    exact h

lemma lexeme_of_end (hx : Shaped x ∨ x.length = 1) : Lexeme x [] := by
  by_cases hshaped : Shaped x
  · refine .longest hshaped fun v hv _ => ?_
    rw [List.append_nil] at hv
    exact hv.length_le
  · have hone := hx.resolve_left hshaped
    refine .single hone fun v hv h => hshaped ?_
    rw [List.append_nil] at hv
    obtain ⟨c, u, rfl, -⟩ := h.exists_cons
    have hlength := hv.length_le
    rw [← hv.eq_of_length (by simp at hlength ⊢; omega)]
    exact h

/-- A blank character ends every lexeme but a string that is left open. -/
lemma lexeme_of_blank (hx : Shaped x ∨ x.length = 1) (hopen : ¬LeftOpen x)
    (hn : Text.isBlank n = true) : Lexeme x (n :: rest) :=
  lexeme_of_next hx fun h => hopen (h.leftOpen_of_blank hn)

/-- A string that is left open takes all there is. -/
lemma Lexeme.rest_eq_nil (h : Lexeme x rest) (hopen : LeftOpen x) : rest = [] := by
  cases h with
  | longest _ max =>
    cases rest with
    | nil => rfl
    | cons d rest =>
      have hle := max (x ++ [d]) (by simp) (hopen.shaped_concat d)
      simp only [List.length_append, List.length_singleton] at hle
      omega
  | single _ none => exact absurd hopen.shaped (none x (List.prefix_append x rest))

end

/-! ### Trimming -/

namespace Text

lemma trimEnd_singleton {c : Char} (hc : isBlank c = false) : trimEnd [c] = [c] := by
  simp [trimEnd, hc]

lemma trimEnd_concat_blank {x : List Char} {b : Char} (hb : isBlank b = true) :
    trimEnd (x ++ [b]) = trimEnd x := by
  simp [trimEnd, hb]

lemma exists_trimEnd (x : List Char) :
    ∃ v, x = trimEnd x ++ v ∧ ∀ c ∈ v, isBlank c = true := by
  refine ⟨(x.reverse.takeWhile isBlank).reverse, ?_, fun c hc => ?_⟩
  · rw [trimEnd, ← List.reverse_append, List.takeWhile_append_dropWhile, List.reverse_reverse]
  · exact List.mem_takeWhile_imp (List.mem_reverse.1 hc)

lemma trimEnd_append_blank {x v : List Char} (hv : ∀ c ∈ v, isBlank c = true) :
    trimEnd (x ++ v) = trimEnd x := by
  induction v using List.reverseRecOn with
  | nil => rw [List.append_nil]
  | append_singleton v b ih =>
    rw [← List.append_assoc, trimEnd_concat_blank (hv b (by simp))]
    exact ih fun c hc => hv c (List.mem_append_left [b] hc)

lemma trim_append {w u : List Char} {c : Char} (hw : ∀ d ∈ w, isBlank d = true)
    (hc : isBlank c = false) : trim (w ++ c :: u) = trimEnd (c :: u) := by
  rw [trim, List.dropWhile_append_of_pos hw, List.dropWhile_cons_of_neg (by simp [hc])]

lemma trim_eq_nil_of_blank {w : List Char} (hw : ∀ d ∈ w, isBlank d = true) : trim w = [] := by
  rw [trim, List.dropWhile_eq_nil_iff.2 hw, trimEnd_nil]

end Text

lemma LeftOpen.trimEnd {x : List Char} (h : LeftOpen x) : LeftOpen (Text.trimEnd x) := by
  obtain ⟨v, hx, hv⟩ := Text.exists_trimEnd x
  rw [hx] at h
  refine h.of_append fun hnil => ?_
  rw [hnil, List.nil_append] at h
  obtain ⟨u, rfl, -⟩ := h
  exact absurd (hv '"' List.mem_cons_self) (by decide)

/-- Only a string that is left open can end in a blank character. -/
lemma trimEnd_eq_of_not_leftOpen {x : List Char} (hx : Shaped x) (hopen : ¬LeftOpen x) :
    Text.trimEnd x = x := by
  obtain ⟨y, d, rfl⟩ : ∃ y d, x = y ++ [d] := by
    obtain ⟨c, v, rfl, -⟩ := hx.exists_cons
    exact ⟨_, _, (List.dropLast_concat_getLast (List.cons_ne_nil c v)).symm⟩
  refine Text.trimEnd_concat ?_
  by_contra hd
  have hblank : Text.isBlank d = true := by simpa using hd
  have hquote : d ≠ '"' := by
    rintro rfl
    cases hblank
  exact hopen ((hx.leftOpen_of_blank hblank).concat hquote)

lemma Shaped.trimEnd {x : List Char} (hx : Shaped x) : Shaped (Text.trimEnd x) := by
  by_cases hopen : LeftOpen x
  · exact hopen.trimEnd.shaped
  · rw [trimEnd_eq_of_not_leftOpen hx hopen]
    exact hx

/-- What trimming a lexeme changes: a string left open at the end of the text. -/
lemma Lexeme.leftOpen_of_trimEnd_ne {c : Char} {u rest : List Char} (h : Lexeme (c :: u) rest)
    (hc : Text.isBlank c = false) (hne : Text.trimEnd (c :: u) ≠ c :: u) :
    LeftOpen (c :: u) ∧ rest = [] := by
  have hopen : LeftOpen (c :: u) := by
    by_contra hopen
    cases h with
    | longest shaped _ => exact hne (trimEnd_eq_of_not_leftOpen shaped hopen)
    | single one _ =>
      obtain rfl : u = [] := by simpa using one
      exact hne (Text.trimEnd_singleton hc)
  exact ⟨hopen, h.rest_eq_nil hopen⟩

end Flame
