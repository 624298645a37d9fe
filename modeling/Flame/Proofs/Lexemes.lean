import Flame.Token.Scan
import Mathlib.Data.List.TakeWhile
import Mathlib.Tactic.Lemma

/-!
Lexemes: which texts are names and numbers, and where scanning finds them.

A name or a numeral is scanned whole if nothing after it could belong to it. Texts are put together
from pieces, so the facts about scanning are stated for a piece and what comes after it, and one
rule says what scanning finds in two pieces in a row.
-/

namespace Flame

/-- A letter followed by letters and digits, and not one of the reserved words. -/
def IsName (name : String) : Prop :=
  Shape.isWord name.toList ∧ name ∉ Keyword.all.map Keyword.spelling

instance (name : String) : Decidable (IsName name) := inferInstanceAs (Decidable (_ ∧ _))

/-! ### Characters -/

lemma isAlpha_iff_toNat {c : Char} :
    c.isAlpha ↔ 65 ≤ c.toNat ∧ c.toNat ≤ 90 ∨ 97 ≤ c.toNat ∧ c.toNat ≤ 122 := by
  have hranges : c.isAlpha = (decide (65 ≤ c.val ∧ c.val ≤ 90) ||
      (decide (97 ≤ c.val) && decide (c.val ≤ 122))) := rfl
  rw [hranges]
  simp [UInt32.le_iff_toNat_le]

lemma isAlpha_eq_false_of_isDigit {c : Char} (h : c.isDigit) : c.isAlpha = false := by
  rw [Char.isDigit_iff_toNat] at h
  rw [Bool.eq_false_iff, ne_eq, isAlpha_iff_toNat]
  simp only [Char.reduceToNat] at h
  omega

lemma isAlphanum_of_isDigit {c : Char} (h : c.isDigit) : c.isAlphanum := by
  rw [Char.isAlphanum, h, Bool.or_true]

lemma isBlank_eq_false_of_isAlphanum {c : Char} (h : c.isAlphanum) : Text.isBlank c = false := by
  rw [Char.isAlphanum, Bool.or_eq_true, isAlpha_iff_toNat, Char.isDigit_iff_toNat] at h
  simp only [Char.reduceToNat] at h
  simp only [Text.isBlank, Bool.or_eq_false_iff, Bool.and_eq_false_iff, decide_eq_false_iff_not,
    beq_eq_false_iff_ne]
  omega

/-! ### Names -/

lemma IsName.alphanum {name : String} (h : IsName name) : ∀ c ∈ name.toList, c.isAlphanum := by
  obtain ⟨hword, -⟩ := h
  intro c hc
  cases hcs : name.toList with
  | nil => simp [hcs] at hc
  | cons d ds =>
    rw [hcs, Shape.isWord, Bool.and_eq_true, List.all_eq_true] at hword
    rw [hcs, List.mem_cons] at hc
    rcases hc with rfl | hc
    · rw [Char.isAlphanum, hword.1, Bool.true_or]
    · exact hword.2 c hc

lemma IsName.toList_ne_nil {name : String} (h : IsName name) : name.toList ≠ [] := by
  obtain ⟨hword, -⟩ := h
  intro hnil
  rw [hnil] at hword
  cases hword

/-! ### Kinds of lexemes -/

namespace Kind

lemma ofSpelling?_eq_none_iff {s : String} :
    ofSpelling? s = none ↔ ∀ k ∈ spelled, k.spelling? ≠ some s := by
  unfold ofSpelling?
  rw [List.find?_eq_none]
  simp

/-- Of the fixed spellings, only the reserved words are words. -/
lemma mem_keywords_of_spelled :
    ∀ k ∈ spelled, ∀ s ∈ k.spelling?, Shape.isWord s.toList →
      s ∈ Keyword.all.map Keyword.spelling := by
  decide

lemma not_digits_of_spelled : ∀ k ∈ spelled, ∀ s ∈ k.spelling?, ¬ s.toList.all Char.isDigit := by
  decide

lemma ofLexeme_eq_of_shape {s : String} {shape : Shape} (hs : ofSpelling? s = none)
    (hshape : Shape.of? s.toList = some shape) : ofLexeme s = shape.kind := by
  unfold ofLexeme
  rw [hs]
  simp only [hshape]

/-- A kind without a fixed spelling comes from the shape of the lexeme. -/
lemma shape_of_ofLexeme {s : String} {k : Kind} (hk : k ∉ spelled) (hu : k ≠ .unknown)
    (h : ofLexeme s = k) :
    ofSpelling? s = none ∧ ∃ shape : Shape, shape.kind = k ∧ shape.fits s.toList := by
  unfold ofLexeme at h
  split at h
  · next k' hs =>
    subst h
    exact absurd (List.mem_of_find?_eq_some hs) hk
  · next hs =>
    split at h
    · next shape hshape =>
      have hfits := List.find?_some (p := fun shape : Shape => shape.fits s.toList) hshape
      exact ⟨hs, shape, h, hfits⟩
    · exact absurd h.symm hu

/-- The lexemes of identifiers are the names. -/
lemma ofLexeme_eq_identifier_iff {s : String} : ofLexeme s = .identifier ↔ IsName s := by
  constructor
  · intro h
    obtain ⟨hs, shape, hkind, hfits⟩ := shape_of_ofLexeme (by decide) (by decide) h
    refine ⟨?_, fun hword => ?_⟩
    · cases shape with
      | word => exact hfits
      | _ => cases hkind
    · obtain ⟨word, -, rfl⟩ := List.mem_map.1 hword
      refine ofSpelling?_eq_none_iff.1 hs (.keyword word) ?_ rfl
      cases word <;> decide
  · rintro ⟨hword, hfree⟩
    have hs : ofSpelling? s = none := ofSpelling?_eq_none_iff.2 fun k hk heq =>
      hfree (mem_keywords_of_spelled k hk s heq hword)
    have hshape : Shape.of? s.toList = some .word := by
      have harrow : s.toList ≠ ['-', '>'] := by
        intro heq
        rw [heq] at hword
        cases hword
      have hcolons : s.toList ≠ [':', ':'] := by
        intro heq
        rw [heq] at hword
        cases hword
      simp [Shape.of?, Shape.all, Shape.fits, harrow, hcolons, hword]
    exact ofLexeme_eq_of_shape hs hshape

/-- Digits are the lexeme of a number. -/
lemma ofLexeme_of_digits {s : String} (hne : s.toList ≠ []) (hd : ∀ d ∈ s.toList, d.isDigit) :
    ofLexeme s = .number := by
  have hs : ofSpelling? s = none := ofSpelling?_eq_none_iff.2 fun k hk heq =>
    not_digits_of_spelled k hk s heq (List.all_eq_true.2 hd)
  have hshape : Shape.of? s.toList = some .number := by
    obtain ⟨d, ds, hcons⟩ := List.exists_cons_of_ne_nil hne
    rw [hcons] at hd ⊢
    have hfirst : d.isDigit := hd d List.mem_cons_self
    have harrow : d ≠ '-' := by
      rintro rfl
      cases hfirst
    have hcolons : d ≠ ':' := by
      rintro rfl
      cases hfirst
    have hquote : Shape.isString (d :: ds) = false := by
      unfold Shape.isString
      split
      · next heq =>
        obtain ⟨rfl, -⟩ := List.cons.inj heq
        cases hfirst
      · rfl
    have hnumber : Shape.isNumber (d :: ds) = true := by
      unfold Shape.isNumber
      rw [List.dropWhile_eq_nil_iff.2 hd]
      rfl
    simp [Shape.of?, Shape.all, Shape.fits, Shape.isWord, harrow, hcolons, hquote, hnumber,
      isAlpha_eq_false_of_isDigit hfirst]
  exact ofLexeme_eq_of_shape hs hshape

lemma isNumber_of_ofLexeme {s : String} (h : ofLexeme s = .number) : Shape.isNumber s.toList := by
  obtain ⟨-, shape, hkind, hfits⟩ := shape_of_ofLexeme (by decide) (by decide) h
  cases shape with
  | number => exact hfits
  | _ => cases hkind

end Kind

lemma kind_ofLexeme (lexeme : List Char) (offset : Nat) :
    (Token.ofLexeme lexeme offset).kind = Kind.ofLexeme (Token.ofLexeme lexeme offset).lexeme := rfl

lemma kind_of_mem_scan {t : Token} {offset : Nat} {cs : List Char} (h : t ∈ scan offset cs) :
    t.kind = Kind.ofLexeme t.lexeme := by
  fun_induction scan offset cs with
  | case1 => cases h
  | case2 _ _ _ _ ih => exact ih h
  | case3 offset c cs _ lexeme ih =>
    rcases List.mem_cons.1 h with rfl | h
    · exact kind_ofLexeme _ offset
    · exact ih h

/-! ### Scanning one piece of a text -/

lemma scan_nil (offset : Nat) : scan offset [] = [] := by rw [scan.eq_def]

lemma scan_blank {c : Char} (h : Text.isBlank c = true) (offset : Nat) (cs : List Char) :
    scan offset (c :: cs) = scan (offset + c.utf8Size) cs := by
  rw [scan.eq_def]
  exact if_pos h

lemma scan_lexeme {c : Char} (h : Text.isBlank c = false) (offset : Nat) (cs : List Char) :
    scan offset (c :: cs) =
      .ofLexeme (Text.trimEnd (c :: cs.take (lexemeExtent c cs))) offset ::
        scan (offset + Text.byteSize (c :: cs.take (lexemeExtent c cs)))
          (cs.drop (lexemeExtent c cs)) := by
  rw [scan.eq_def]
  exact if_neg (by rw [h]; decide)

/-- Nothing at the start of a text can belong to a name or a numeral that stands before it. -/
def EndsLexeme (rest : List Char) : Prop := ∀ c ∈ rest.head?, c.isAlphanum = false ∧ c ≠ '.'

lemma endsLexeme_cons {c : Char} (cs : List Char) (h : c.isAlphanum = false ∧ c ≠ '.') :
    EndsLexeme (c :: cs) := by
  intro d hd
  obtain rfl := Option.some.inj hd
  exact h

/-- A piece of a text in front of the rest of it is scanned to tokens of its own. -/
def ScansTo (cs rest : List Char) (P : List Token → Prop) : Prop :=
  ∀ offset, ∃ ts offset', scan offset (cs ++ rest) = ts ++ scan offset' rest ∧ P ts

/-- The tokens are a single one, with a lexeme and a kind. -/
def IsToken (lexeme : String) (kind : Kind) (ts : List Token) : Prop :=
  ∃ t, ts = [t] ∧ t.lexeme = lexeme ∧ t.kind = kind

section

variable {u v cs rest : List Char} {P Q : List Token → Prop}

lemma ScansTo.mono (h : ScansTo cs rest P) (himp : ∀ ts, P ts → Q ts) : ScansTo cs rest Q := by
  intro offset
  obtain ⟨ts, offset', hscan, hts⟩ := h offset
  exact ⟨ts, offset', hscan, himp ts hts⟩

/-- Two pieces in a row are scanned one after the other. -/
lemma ScansTo.append (hu : ScansTo u (v ++ rest) P) (hv : ScansTo v rest Q) :
    ScansTo (u ++ v) rest (fun ts => ∃ w w', ts = w ++ w' ∧ P w ∧ Q w') := by
  intro offset
  obtain ⟨w, offset₁, hscan, hw⟩ := hu offset
  obtain ⟨w', offset₂, hscan', hw'⟩ := hv offset₁
  refine ⟨w ++ w', offset₂, ?_, w, w', rfl, hw, hw'⟩
  rw [List.append_assoc, hscan, hscan', List.append_assoc]

lemma scansTo_nil (rest : List Char) : ScansTo [] rest (· = []) :=
  fun offset => ⟨[], offset, rfl, rfl⟩

/-- A space is skipped. -/
lemma ScansTo.space (h : ScansTo cs rest P) : ScansTo (" ".toList ++ cs) rest P := by
  intro offset
  obtain ⟨ts, offset', hscan, hts⟩ := h (offset + ' '.utf8Size)
  refine ⟨ts, offset', ?_, hts⟩
  change scan offset (' ' :: (cs ++ rest)) = _
  rw [scan_blank (by decide), hscan]

lemma trimEnd_of_ne_blank (h : ∀ c ∈ cs, Text.isBlank c = false) : Text.trimEnd cs = cs := by
  have hdrop : cs.reverse.dropWhile Text.isBlank = cs.reverse := by
    cases hrev : cs.reverse with
    | nil => rfl
    | cons c _ =>
      have hc : c ∈ cs := List.mem_reverse.1 (by rw [hrev]; exact List.mem_cons_self)
      rw [List.dropWhile_cons_of_neg (by rw [h c hc]; decide)]
  rw [Text.trimEnd, hdrop, List.reverse_reverse]

/-- A lexeme that takes all of its characters, and no more, is scanned as one token. -/
lemma scansTo_lexeme {c : Char} (hblank : ∀ d ∈ c :: cs, Text.isBlank d = false)
    (hextent : lexemeExtent c (cs ++ rest) = cs.length) :
    ScansTo (c :: cs) rest
      (IsToken (String.ofList (c :: cs)) (.ofLexeme (String.ofList (c :: cs)))) := by
  intro offset
  refine ⟨[.ofLexeme (c :: cs) offset], offset + Text.byteSize (c :: cs), ?_, _, rfl, rfl, rfl⟩
  rw [List.cons_append, scan_lexeme (hblank c List.mem_cons_self)]
  simp only [hextent, List.take_left, List.drop_left, trimEnd_of_ne_blank hblank,
    List.singleton_append]

lemma takeWhile_run {p : Char → Bool} (hcs : ∀ c ∈ cs, p c)
    (hrest : ∀ c ∈ rest.head?, p c = false) : (cs ++ rest).takeWhile p = cs := by
  rw [List.takeWhile_append_of_pos hcs]
  cases rest with
  | nil => simp
  | cons c rest => simp [hrest c rfl]

lemma runLength_append {p : Char → Bool} (hcs : ∀ c ∈ cs, p c)
    (hrest : ∀ c ∈ rest.head?, p c = false) : runLength p (cs ++ rest) = cs.length := by
  rw [runLength, takeWhile_run hcs hrest]

/-- A name is scanned whole. -/
lemma scansTo_name {name : String} (hname : IsName name) (hrest : EndsLexeme rest) :
    ScansTo name.toList rest (IsToken name .identifier) := by
  have halnum := hname.alphanum
  obtain ⟨hword, -⟩ := id hname
  obtain ⟨c, cs, hcs⟩ := List.exists_cons_of_ne_nil hname.toList_ne_nil
  rw [hcs, Shape.isWord, Bool.and_eq_true, List.all_eq_true] at hword
  obtain ⟨hc, hbody⟩ := hword
  rw [hcs] at halnum
  have hextent : lexemeExtent c (cs ++ rest) = cs.length := by
    rw [lexemeExtent, if_pos hc]
    exact runLength_append hbody fun d hd => (hrest d hd).1
  have hscan := scansTo_lexeme (fun d hd => isBlank_eq_false_of_isAlphanum (halnum d hd)) hextent
  rw [← hcs, String.ofList_toList, Kind.ofLexeme_eq_identifier_iff.2 hname] at hscan
  exact hscan

/-- So is a numeral. -/
lemma scansTo_digits {s : String} (hne : s.toList ≠ []) (hd : ∀ d ∈ s.toList, d.isDigit)
    (hrest : EndsLexeme rest) : ScansTo s.toList rest (IsToken s .number) := by
  have hkind := Kind.ofLexeme_of_digits hne hd
  obtain ⟨c, cs, hcs⟩ := List.exists_cons_of_ne_nil hne
  rw [hcs] at hd
  have hc : c.isDigit := hd c List.mem_cons_self
  have hbody : ∀ d ∈ cs, d.isDigit := fun d hmem => hd d (List.mem_cons_of_mem c hmem)
  have hblank : ∀ d ∈ c :: cs, Text.isBlank d = false := by
    intro d hmem
    exact isBlank_eq_false_of_isAlphanum (isAlphanum_of_isDigit (hd d hmem))
  have hrun : runLength Char.isDigit (cs ++ rest) = cs.length := by
    refine runLength_append hbody fun d hmem => ?_
    have hnone := (hrest d hmem).1
    rw [Char.isAlphanum, Bool.or_eq_false_iff] at hnone
    exact hnone.2
  have hextent : lexemeExtent c (cs ++ rest) = cs.length := by
    have hquote : c ≠ '"' := by
      rintro rfl
      cases hc
    have hpoint : rest.head? ≠ some '.' := fun h => (hrest '.' h).2 rfl
    simp [lexemeExtent, isAlpha_eq_false_of_isDigit hc, hquote, hc, hrun, hpoint]
  have hscan := scansTo_lexeme hblank hextent
  rw [← hcs, String.ofList_toList, hkind] at hscan
  exact hscan

lemma scansTo_character {c : Char} {kind : Kind} (hblank : Text.isBlank c = false)
    (hextent : lexemeExtent c rest = 0) (hkind : Kind.ofLexeme (String.ofList [c]) = kind) :
    ScansTo [c] rest (IsToken (String.ofList [c]) kind) := by
  have hscan : ScansTo [c] rest (IsToken _ _) := scansTo_lexeme (by simpa using hblank) hextent
  rw [hkind] at hscan
  exact hscan

/-- Nothing after one of these marks can belong to it. -/
lemma scansTo_symbol (mark : Symbol)
    (h : mark ∈ [.leftParen, .rightParen, .comma, .semicolon]) :
    ScansTo mark.spelling.toList rest (IsToken mark.spelling (.symbol mark)) := by
  simp only [List.mem_cons, List.not_mem_nil, or_false] at h
  rcases h with rfl | rfl | rfl | rfl
  all_goals exact scansTo_character (by decide) rfl (by decide)

/-- An operator before a space is scanned as it is: a minus sign is not part of an arrow. -/
lemma scansTo_operator (op : Operator) :
    ScansTo op.spelling.toList (' ' :: rest) (IsToken op.spelling (.operator op)) := by
  cases op
  all_goals exact scansTo_character (by decide) rfl (by decide)

end

end Flame
