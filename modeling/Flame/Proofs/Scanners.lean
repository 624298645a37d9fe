import Flame.Proofs.LongestMatch
import Mathlib

/-!
Three ways to cut a text into tokens.

The scanner knows a lexeme by its first character. Beside it stand a relation, which takes the
longest match at each place, and a scanner that grows a candidate with one character of look-ahead.
The candidate may have blank characters at both ends; it is trimmed before its shape is asked for,
and it is cut off where the candidate with one more character has no shape. All three find the same
tokens.
-/

namespace Flame

/-! ### Longest match -/

/-- The kind of a lexeme: that of its fixed spelling, or else that of its shape, or else unknown. -/
inductive HasKind (w : List Char) : Kind → Prop
  | spelled {k : Kind} (h : k.spelling? = some (String.ofList w)) : HasKind w k
  | shaped {shape : Shape} (free : ∀ k : Kind, k.spelling? ≠ some (String.ofList w))
      (h : w ∈ shape.language) : HasKind w shape.kind
  | unknown (free : ∀ k : Kind, k.spelling? ≠ some (String.ofList w)) (h : ¬Shaped w) :
      HasKind w .unknown

/-- Blank characters are skipped. At any other character the longest match is taken, or one
character if there is none, and trimmed at its end. -/
inductive Munches : List Char → List (String × Kind) → Prop
  | nil : Munches [] []
  | blank {c : Char} {cs : List Char} {out : List (String × Kind)} (hc : Text.isBlank c = true)
      (rest : Munches cs out) : Munches (c :: cs) out
  | lexeme {c : Char} {u rest : List Char} {kind : Kind} {out : List (String × Kind)}
      (hc : Text.isBlank c = false) (h : Lexeme (c :: u) rest)
      (hkind : HasKind (Text.trimEnd (c :: u)) kind) (others : Munches rest out) :
      Munches (c :: u ++ rest) ((String.ofList (Text.trimEnd (c :: u)), kind) :: out)

/-- A token without its span. -/
def Token.word (t : Token) : String × Kind := (t.lexeme, t.kind)

namespace Kind

lemma mem_spelled {k : Kind} {s : String} (h : k.spelling? = some s) : k ∈ spelled := by
  cases k with
  | keyword word => cases word <;> decide
  | symbol mark => cases mark <;> decide
  | operator op => cases op <;> decide
  | _ => cases h

lemma spelling?_injective : ∀ k ∈ spelled, ∀ k' ∈ spelled, k.spelling? = k'.spelling? → k = k' := by
  decide

lemma ofSpelling?_eq_some_iff {s : String} {k : Kind} :
    ofSpelling? s = some k ↔ k.spelling? = some s := by
  have hsound : ∀ {k'}, ofSpelling? s = some k' → k'.spelling? = some s := fun h => by
    simpa using List.find?_some (p := fun k : Kind => k.spelling? == some s) h
  refine ⟨hsound, fun h => ?_⟩
  cases hof : ofSpelling? s with
  | none => exact absurd h (ofSpelling?_eq_none_iff.1 hof k (mem_spelled h))
  | some k' =>
    have h' := hsound hof
    rw [spelling?_injective k' (mem_spelled h') k (mem_spelled h) (h'.trans h.symm)]

lemma ofSpelling?_eq_none {s : String} (h : ∀ k : Kind, k.spelling? ≠ some s) :
    ofSpelling? s = none := ofSpelling?_eq_none_iff.2 fun k _ => h k

end Kind

/-- Every lexeme has one kind, and it is the one that scanning gives it. -/
lemma hasKind_iff {w : List Char} {k : Kind} :
    HasKind w k ↔ Kind.ofLexeme (String.ofList w) = k := by
  constructor
  · intro h
    unfold Kind.ofLexeme
    cases h with
    | spelled h => rw [Kind.ofSpelling?_eq_some_iff.2 h]
    | shaped free h =>
      have hshape := Shape.of?_eq_some_iff.2 (Shape.mem_language_iff.1 h)
      rw [Kind.ofSpelling?_eq_none free]
      simp only [String.toList_ofList, hshape]
    | unknown free h =>
      have hshape : Shape.of? w = none := by
        rw [← Option.not_isSome_iff_eq_none, isSome_of?_iff]
        exact h
      rw [Kind.ofSpelling?_eq_none free]
      simp only [String.toList_ofList, hshape]
  · intro h
    unfold Kind.ofLexeme at h
    split at h
    · next k' hs =>
      subst h
      exact .spelled (Kind.ofSpelling?_eq_some_iff.1 hs)
    · next hs =>
      have free : ∀ k : Kind, k.spelling? ≠ some (String.ofList w) := fun k hk => by
        rw [Kind.ofSpelling?_eq_some_iff.2 hk] at hs
        cases hs
      rw [String.toList_ofList] at h
      split at h
      · next shape hshape =>
        subst h
        exact .shaped free (Shape.mem_language_iff.2 (Shape.of?_eq_some_iff.1 hshape))
      · next hshape =>
        subst h
        refine .unknown free fun hshaped => ?_
        rw [← isSome_of?_iff, hshape] at hshaped
        cases hshaped

lemma not_shaped_of_unknown {w : List Char} (h : Kind.ofLexeme (String.ofList w) = .unknown) :
    ¬Shaped w := by
  rintro ⟨shape, hmem⟩
  by_cases free : ∀ k : Kind, k.spelling? ≠ some (String.ofList w)
  · have hkind := hasKind_iff.1 (HasKind.shaped free hmem)
    rw [h] at hkind
    cases shape <;> cases hkind
  · obtain ⟨k, hk⟩ : ∃ k : Kind, k.spelling? = some (String.ofList w) := by simpa using free
    have hkind := hasKind_iff.1 (HasKind.spelled hk)
    rw [h] at hkind
    subst hkind
    cases hk

lemma Munches.scan_eq {cs : List Char} {out : List (String × Kind)} (h : Munches cs out)
    (offset : Nat) : (scan offset cs).map Token.word = out := by
  induction h generalizing offset with
  | nil => rw [scan_nil, List.map_nil]
  | blank hc _ ih => rw [scan_blank hc, ih]
  | lexeme hc h hkind _ ih =>
    rw [scan_of_lexeme hc h, List.map_cons, ih, Token.word, kind_ofLexeme]
    rw [← hasKind_iff.1 hkind]
    rfl

lemma munches_scan (offset : Nat) (cs : List Char) :
    Munches cs ((scan offset cs).map Token.word) := by
  fun_induction scan offset cs with
  | case1 => exact .nil
  | case2 offset c cs hc ih => exact .blank hc ih
  | case3 offset c cs hc lexeme ih =>
    obtain ⟨u, rest, rfl, hextent, h⟩ := extentRight cs c
    simp only [lexeme, hextent, List.take_left, List.drop_left] at ih ⊢
    exact .lexeme (by simpa using hc) h (hasKind_iff.2 rfl) ih

/-! ### A growing candidate -/

/-- The token of a candidate, which may have blank characters at its ends. There is none if it has
no others. -/
def candidateToken? (start : Nat) (candidate : List Char) : Option Token :=
  let lexeme := Text.trim candidate
  if lexeme.isEmpty then none
  else
    let skipped := Text.byteSize candidate - Text.byteSize (candidate.dropWhile Text.isBlank)
    some (.ofLexeme lexeme (start + skipped))

/-- The tokens of a text, of which the characters of `candidate` have been taken from the byte
offset `start` on. -/
def grow (start : Nat) (candidate : List Char) : List Char → List Token
  | [] => (candidateToken? start candidate).toList
  | next :: rest =>
    if (Shape.of? (Text.trim (candidate ++ [next]))).isSome then
      grow start (candidate ++ [next]) rest
    else
      (candidateToken? start candidate).toList ++
        grow (start + Text.byteSize candidate) [next] rest

lemma candidateToken?_blank (start : Nat) {w : List Char}
    (hw : ∀ c ∈ w, Text.isBlank c = true) : candidateToken? start w = none := by
  rw [candidateToken?, Text.trim_eq_nil_of_blank hw]
  rfl

lemma candidateToken?_lexeme (start : Nat) {w u : List Char} {c : Char}
    (hw : ∀ d ∈ w, Text.isBlank d = true) (hc : Text.isBlank c = false) :
    candidateToken? start (w ++ c :: u) =
      some (.ofLexeme (Text.trimEnd (c :: u)) (start + Text.byteSize w)) := by
  have hne : Text.trimEnd (c :: u) ≠ [] := by
    intro hnil
    obtain ⟨v, hv, hblank⟩ := Text.exists_trimEnd (c :: u)
    rw [hnil, List.nil_append] at hv
    rw [hblank c (hv ▸ List.mem_cons_self)] at hc
    cases hc
  have hdrop : (w ++ c :: u).dropWhile Text.isBlank = c :: u := by
    rw [List.dropWhile_append_of_pos hw, List.dropWhile_cons_of_neg (by simp [hc])]
  simp [candidateToken?, Text.trim_append hw hc, hne, hdrop]

section

variable {start : Nat} {candidate rest : List Char} {next : Char}

lemma grow_of_shaped (h : Shaped (Text.trim (candidate ++ [next]))) :
    grow start candidate (next :: rest) = grow start (candidate ++ [next]) rest := by
  rw [grow, if_pos (isSome_of?_iff.2 h)]

lemma grow_of_not_shaped (h : ¬Shaped (Text.trim (candidate ++ [next]))) :
    grow start candidate (next :: rest) =
      (candidateToken? start candidate).toList ++
        grow (start + Text.byteSize candidate) [next] rest := by
  rw [grow, if_neg (fun hsome => h (isSome_of?_iff.1 hsome))]

end

/-- What is still to be found in the three states of the candidate: it is blank, it ends in the
first characters of a lexeme, or a lexeme in it is complete. -/
structure GrowsRight (rest : List Char) : Prop where
  blank : ∀ start w, (∀ c ∈ w, Text.isBlank c = true) →
    grow start w rest = scan (start + Text.byteSize w) rest
  begun : ∀ start w c u, (∀ d ∈ w, Text.isBlank d = true) → Text.isBlank c = false →
    (Shaped (c :: u) ∨ (c :: u).length = 1) →
    grow start (w ++ c :: u) rest = scan (start + Text.byteSize w) (c :: u ++ rest)
  complete : ∀ start w c u v, (∀ d ∈ w, Text.isBlank d = true) → Text.isBlank c = false →
    Shaped (c :: u) → ¬LeftOpen (c :: u) → (∀ d ∈ v, Text.isBlank d = true) → v ≠ [] →
    grow start (w ++ c :: u ++ v) rest =
      .ofLexeme (c :: u) (start + Text.byteSize w) ::
        scan (start + Text.byteSize (w ++ c :: u ++ v)) rest

lemma growsRight_nil : GrowsRight [] where
  blank start w hw := by
    rw [grow, candidateToken?_blank start hw, scan_nil]
    rfl
  begun start w c u hw hc hcu := by
    rw [grow, candidateToken?_lexeme start hw hc, scan_of_lexeme hc (lexeme_of_end hcu), scan_nil]
    rfl
  complete start w c u v hw hc hcu hopen hv _ := by
    rw [grow, List.append_assoc, List.cons_append, candidateToken?_lexeme start hw hc,
      ← List.cons_append, Text.trimEnd_append_blank hv, trimEnd_eq_of_not_leftOpen hcu hopen,
      scan_nil]
    rfl

section

variable {next : Char} {rest : List Char}

/-- A blank candidate is dropped, or goes in front of the next lexeme. -/
lemma GrowsRight.cons_blank (ih : GrowsRight rest) (start : Nat) {w : List Char}
    (hw : ∀ c ∈ w, Text.isBlank c = true) :
    grow start w (next :: rest) = scan (start + Text.byteSize w) (next :: rest) := by
  have hnone := candidateToken?_blank start hw
  by_cases hnext : Text.isBlank next = true
  · have hall : ∀ c ∈ w ++ [next], Text.isBlank c = true := by
      intro c hc
      rcases List.mem_append.1 hc with hc | hc
      · exact hw c hc
      · rw [List.mem_singleton.1 hc]
        exact hnext
    have hnot : ¬Shaped (Text.trim (w ++ [next])) := fun h => by
      obtain ⟨c, v, hcons, -⟩ := h.exists_cons
      rw [Text.trim_eq_nil_of_blank hall] at hcons
      cases hcons
    rw [grow_of_not_shaped hnot, hnone, ih.blank _ [next] (by simpa using hnext),
      scan_blank hnext]
    simp
  · have hfalse : Text.isBlank next = false := by simpa using hnext
    have hbegun := ih.begun start w next [] hw hfalse (.inr rfl)
    by_cases hshaped : Shaped (Text.trim (w ++ [next]))
    · rw [grow_of_shaped hshaped, hbegun]
      rfl
    · rw [grow_of_not_shaped hshaped, hnone]
      exact ih.begun _ [] next [] (by simp) hfalse (.inr rfl)

lemma GrowsRight.cons_begun (ih : GrowsRight rest) (start : Nat) {w u : List Char} {c : Char}
    (hw : ∀ d ∈ w, Text.isBlank d = true) (hc : Text.isBlank c = false)
    (hcu : Shaped (c :: u) ∨ (c :: u).length = 1) :
    grow start (w ++ c :: u) (next :: rest) =
      scan (start + Text.byteSize w) (c :: u ++ next :: rest) := by
  have htrim : Text.trim (w ++ c :: u ++ [next]) = Text.trimEnd (c :: u ++ [next]) := by
    rw [List.append_assoc, List.cons_append, Text.trim_append hw hc]
  have htoken := candidateToken?_lexeme (u := u) start hw hc
  have hsize : start + Text.byteSize (w ++ c :: u) =
      start + Text.byteSize w + Text.byteSize (c :: u) := by
    rw [Text.byteSize_append, Nat.add_assoc]
  have hmore : w ++ c :: u ++ [next] = w ++ c :: (u ++ [next]) := by simp
  by_cases hnext : Text.isBlank next = true
  · rw [Text.trimEnd_concat_blank hnext] at htrim
    by_cases hshaped : Shaped (c :: u)
    · rw [grow_of_shaped (by rw [htrim]; exact hshaped.trimEnd)]
      by_cases hopen : LeftOpen (c :: u)
      · -- the blank character belongs to the string
        have hquote : next ≠ '"' := by
          rintro rfl
          cases hnext
        rw [hmore, ih.begun start w c (u ++ [next]) hw hc (.inl (hopen.concat hquote).shaped)]
        simp
      · -- the lexeme is complete
        rw [ih.complete start w c u [next] hw hc hshaped hopen (by simpa using hnext) (by simp),
          scan_of_lexeme hc (lexeme_of_blank (.inl hshaped) hopen hnext), scan_blank hnext,
          trimEnd_eq_of_not_leftOpen hshaped hopen]
        simp [Nat.add_assoc]
    · -- one character without a shape
      obtain rfl : u = [] := by simpa using hcu.resolve_left hshaped
      have htrimmed : Text.trimEnd [c] = [c] := Text.trimEnd_singleton hc
      have hopen : ¬LeftOpen [c] := fun h => hshaped h.shaped
      rw [grow_of_not_shaped (by rw [htrim, htrimmed]; exact hshaped), htoken, hsize,
        ih.blank _ [next] (by simpa using hnext),
        scan_of_lexeme hc (lexeme_of_blank hcu hopen hnext), scan_blank hnext]
      simp
  · have hfalse : Text.isBlank next = false := by simpa using hnext
    rw [Text.trimEnd_concat hfalse] at htrim
    by_cases hshaped : Shaped (c :: u ++ [next])
    · rw [grow_of_shaped (by rw [htrim]; exact hshaped), hmore,
        ih.begun start w c (u ++ [next]) hw hc (.inl hshaped)]
      simp
    · have hbegun := ih.begun (start + Text.byteSize w + Text.byteSize (c :: u)) [] next []
        (by simp) hfalse (.inr rfl)
      rw [grow_of_not_shaped (by rw [htrim]; exact hshaped), htoken, hsize,
        scan_of_lexeme hc (lexeme_of_next hcu hshaped)]
      exact congrArg _ hbegun

lemma GrowsRight.cons_complete (ih : GrowsRight rest) (start : Nat) {w u v : List Char} {c : Char}
    (hw : ∀ d ∈ w, Text.isBlank d = true) (hc : Text.isBlank c = false) (hcu : Shaped (c :: u))
    (hopen : ¬LeftOpen (c :: u)) (hv : ∀ d ∈ v, Text.isBlank d = true) (hne : v ≠ []) :
    grow start (w ++ c :: u ++ v) (next :: rest) =
      .ofLexeme (c :: u) (start + Text.byteSize w) ::
        scan (start + Text.byteSize (w ++ c :: u ++ v)) (next :: rest) := by
  have hassoc : w ++ c :: u ++ v = w ++ c :: (u ++ v) := by simp
  have htrim : Text.trim (w ++ c :: u ++ v ++ [next]) = Text.trimEnd (c :: u ++ v ++ [next]) := by
    rw [hassoc, List.append_assoc, List.cons_append, Text.trim_append hw hc]
    simp
  by_cases hnext : Text.isBlank next = true
  · have hall : ∀ d ∈ v ++ [next], Text.isBlank d = true := by
      intro d hd
      rcases List.mem_append.1 hd with hd | hd
      · exact hv d hd
      · rw [List.mem_singleton.1 hd]
        exact hnext
    rw [List.append_assoc (c :: u), Text.trimEnd_append_blank hall] at htrim
    rw [grow_of_shaped (by rw [htrim]; exact hcu.trimEnd), List.append_assoc (w ++ c :: u),
      ih.complete start w c u (v ++ [next]) hw hc hcu hopen hall (by simp), scan_blank hnext]
    simp [Nat.add_assoc]
  · have hfalse : Text.isBlank next = false := by simpa using hnext
    have hnot : ¬Shaped (c :: u ++ v ++ [next]) := by
      obtain ⟨b, v', rfl⟩ := List.exists_cons_of_ne_nil hne
      rw [List.append_assoc, List.cons_append]
      exact fun h => hopen (h.leftOpen_of_blank (hv b List.mem_cons_self))
    have htoken : candidateToken? start (w ++ c :: u ++ v) =
        some (.ofLexeme (c :: u) (start + Text.byteSize w)) := by
      rw [hassoc, candidateToken?_lexeme start hw hc, ← List.cons_append,
        Text.trimEnd_append_blank hv, trimEnd_eq_of_not_leftOpen hcu hopen]
    have hbegun := ih.begun (start + Text.byteSize (w ++ c :: u ++ v)) [] next [] (by simp) hfalse
      (.inr rfl)
    rw [grow_of_not_shaped (by rw [htrim, Text.trimEnd_concat hfalse]; exact hnot), htoken]
    exact congrArg _ hbegun

end

lemma growsRight (rest : List Char) : GrowsRight rest := by
  induction rest with
  | nil => exact growsRight_nil
  | cons next rest ih =>
    refine ⟨fun start w hw => ih.cons_blank start hw, ?_, ?_⟩
    · exact fun start w c u hw hc hcu => ih.cons_begun start hw hc hcu
    · exact fun start w c u v hw hc hcu hopen hv hne =>
        ih.cons_complete start hw hc hcu hopen hv hne

/-- Growing a candidate finds what scanning finds, spans included. -/
lemma grow_eq_scan (cs : List Char) : grow 0 [] cs = scan 0 cs :=
  (growsRight cs).blank 0 [] (by simp)

/-- A lexeme of unknown kind is one character. -/
lemma length_eq_one_of_unknown {offset : Nat} {cs : List Char} {t : Token}
    (ht : t ∈ scan offset cs) (hkind : t.kind = .unknown) : t.lexeme.length = 1 := by
  fun_induction scan offset cs with
  | case1 => cases ht
  | case2 _ _ _ _ ih => exact ih ht
  | case3 offset c cs hc lexeme ih =>
    rcases List.mem_cons.1 ht with rfl | ht
    · obtain ⟨u, rest, rfl, hextent, h⟩ := extentRight cs c
      simp only [lexeme, hextent, List.take_left] at hkind ⊢
      cases h with
      | longest shaped _ => exact absurd shaped.trimEnd (not_shaped_of_unknown hkind)
      | single one _ =>
        obtain rfl : u = [] := by simpa using one
        have htrimmed : Text.trimEnd [c] = [c] := Text.trimEnd_singleton (by simpa using hc)
        simp [htrimmed, Token.ofLexeme]
    · exact ih ht

lemma words_ofSource (source : String) :
    (TokenStream.ofSource source).toList.map Token.word =
      (scan 0 source.toList).map Token.word ++ [("", .eof)] := by
  rw [TokenStream.toList, List.map_append]
  rfl

/-- **Longest match.** The tokens of a source text are those of the longest match at each place,
with the kinds that their texts have. A scanner that grows a candidate finds the same tokens. A
token of unknown kind is one character. Trimming changes a lexeme only if it is a string that the
end of the text leaves open. -/
theorem ofSource_longest_match (source : String) :
    (∀ out, Munches source.toList out ↔
      (TokenStream.ofSource source).toList.map Token.word = out ++ [("", .eof)]) ∧
    grow 0 [] source.toList = (TokenStream.ofSource source).body ∧
    (∀ t ∈ (TokenStream.ofSource source).body, t.kind = .unknown → t.lexeme.length = 1) ∧
    (∀ c u rest, Text.isBlank c = false → Lexeme (c :: u) rest →
      Text.trimEnd (c :: u) ≠ c :: u → LeftOpen (c :: u) ∧ rest = []) := by
  refine ⟨fun out => ?_, grow_eq_scan _, fun t ht => length_eq_one_of_unknown ht,
    fun c u rest hc h => h.leftOpen_of_trimEnd_ne hc⟩
  rw [words_ofSource, List.append_left_inj]
  constructor
  · exact fun h => h.scan_eq 0
  · rintro rfl
    exact munches_scan 0 source.toList

/-- Points, dashes and colons that start nothing, and a string that is left open. -/
theorem ofSource_longest_match_open_string :
    Munches "1..5- >::x\" y ".toList
        [("1.", .number), (".5", .number), ("-", .operator .sub), (">", .unknown),
          ("::", .symbol .colonColon), ("x", .identifier), ("\" y", .string)] ∧
      grow 0 [] "1..5- >::x\" y ".toList =
        (TokenStream.ofSource "1..5- >::x\" y ").body := by
  have hscan : (scan 0 "1..5- >::x\" y ".toList).map Token.word =
      [("1.", .number), (".5", .number), ("-", .operator .sub), (">", .unknown),
        ("::", .symbol .colonColon), ("x", .identifier), ("\" y", .string)] := by cbv
  obtain ⟨hlongest, hgrow, -, -⟩ := ofSource_longest_match "1..5- >::x\" y "
  exact ⟨(hlongest _).2 (by rw [words_ofSource, hscan]), hgrow⟩

end Flame
