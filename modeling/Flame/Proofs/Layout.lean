import Flame.Proofs.Scanners
import Flame.Proofs.SpansAside
import Flame.Proofs.Units

/-!
Layout does not matter.

The lexemes of a source text can be written out again with any blank text before, between and after
them, as long as there is some between any two: the text then has the same lexemes, and runs like
the first. A lexeme that a blank character follows is found again, whatever it would grow to without
one. A string that the text leaves open would go on over the blanks, but such a string stands last,
and the blanks at its end are trimmed.
-/

namespace Flame

variable {σ : Type}

/-- A text of blank characters. -/
def Blank (s : String) : Prop := ∀ c ∈ s.toList, Text.isBlank c = true

/-- Blank texts that keep `n` lexemes apart, one to follow each. Only the last may be empty. -/
structure Separates (gaps : List String) (n : Nat) : Prop where
  length_eq : gaps.length = n
  blank : ∀ g ∈ gaps, Blank g
  apart : ∀ g ∈ gaps.dropLast, g ≠ ""

/-- The lexemes in order, each with its gap after it. -/
def layOut (lexemes gaps : List String) : String :=
  String.join (List.zipWith (· ++ ·) lexemes gaps)

/-! ### Scanning -/

section

variable {cs v rest : List Char} {out : List (String × Kind)} {gaps : List String}

lemma Separates.exists_cons {n : Nat} (h : Separates gaps (n + 1)) :
    ∃ g gs, gaps = g :: gs ∧ Blank g ∧ (n ≠ 0 → g ≠ "") ∧ Separates gs n := by
  obtain ⟨hlength, hblank, hapart⟩ := h
  obtain ⟨g, gs, rfl⟩ := List.exists_cons_of_length_eq_add_one hlength
  have hlength : gs.length = n := by simpa using hlength
  refine ⟨g, gs, rfl, hblank g List.mem_cons_self, fun hn => ?_, hlength,
    fun x hx => hblank x (List.mem_cons_of_mem g hx), fun x hx => ?_⟩
  · refine hapart g ?_
    rw [List.dropLast_cons_of_ne_nil (by rintro rfl; exact hn hlength.symm)]
    exact List.mem_cons_self
  · refine hapart x ?_
    rw [List.dropLast_cons_of_ne_nil (by rintro rfl; cases hx)]
    exact List.mem_cons_of_mem g hx

lemma toList_layOut_cons (l : String) (ls : List String) (g : String) (gs : List String) :
    (layOut (l :: ls) (g :: gs)).toList = l.toList ++ (g.toList ++ (layOut ls gs).toList) := by
  simp [layOut, String.toList_join]

lemma Lexeme.shaped_or_single {w : List Char} (h : Lexeme w rest) : Shaped w ∨ w.length = 1 := by
  cases h with
  | longest shaped _ => exact .inl shaped
  | single one _ => exact .inr one

lemma Text.trimEnd_trimEnd (x : List Char) : trimEnd (trimEnd x) = trimEnd x := by
  obtain ⟨v, hx, hv⟩ := exists_trimEnd x
  rw [← trimEnd_append_blank hv, ← hx]

lemma Munches.blanks (h : Munches cs out) (hv : ∀ c ∈ v, Text.isBlank c = true) :
    Munches (v ++ cs) out := by
  induction v with
  | nil => exact h
  | cons c v ih =>
    rw [List.forall_mem_cons] at hv
    exact .blank hv.1 (ih hv.2)

lemma LeftOpen.append_blank {x : List Char} (h : LeftOpen x)
    (hv : ∀ c ∈ v, Text.isBlank c = true) : LeftOpen (x ++ v) := by
  obtain ⟨u, rfl, hu⟩ := h
  refine ⟨u ++ v, rfl, fun hquote => ?_⟩
  rcases List.mem_append.1 hquote with hquote | hquote
  · exact hu hquote
  · exact absurd (hv _ hquote) (by decide)

/-- A string that is left open is found again in front of blanks. -/
lemma munches_leftOpen {x : List Char} {kind : Kind} (hopen : LeftOpen x)
    (hkind : HasKind (Text.trimEnd x) kind) (hv : ∀ c ∈ v, Text.isBlank c = true) :
    Munches (Text.trimEnd x ++ v) [(String.ofList (Text.trimEnd x), kind)] := by
  have hall : LeftOpen (Text.trimEnd x ++ v) := hopen.trimEnd.append_blank hv
  have htrim : Text.trimEnd (Text.trimEnd x ++ v) = Text.trimEnd x :=
    (Text.trimEnd_append_blank hv).trans (Text.trimEnd_trimEnd x)
  have hlexeme : Lexeme (Text.trimEnd x ++ v) [] := lexeme_of_end (.inl hall.shaped)
  obtain ⟨u, hu, -⟩ := hall
  rw [← htrim] at hkind
  rw [hu] at hlexeme hkind htrim ⊢
  have h := Munches.lexeme (by decide) hlexeme hkind .nil
  rwa [List.append_nil, htrim] at h

/-- **Scanning again.** What a text is cut into can be cut out of every layout of it. -/
theorem Munches.layOut (h : Munches cs out) (hgaps : Separates gaps out.length) :
    Munches (layOut (out.map Prod.fst) gaps).toList out := by
  induction h generalizing gaps with
  | nil =>
    obtain rfl : gaps = [] := List.length_eq_zero_iff.1 hgaps.length_eq
    exact .nil
  | blank _ _ ih => exact ih hgaps
  | @lexeme c u rest kind out hc h hkind others ih =>
    obtain ⟨g, gs, rfl, hblank, hapart, hrest⟩ := hgaps.exists_cons
    rw [List.map_cons, toList_layOut_cons, String.toList_ofList]
    by_cases hopen : LeftOpen (c :: u)
    · obtain rfl := h.rest_eq_nil hopen
      cases others
      obtain rfl : gs = [] := List.length_eq_zero_iff.1 hrest.length_eq
      have hmunches := munches_leftOpen hopen hkind hblank
      rwa [← List.append_nil g.toList] at hmunches
    · have htrim : Text.trimEnd (c :: u) = c :: u := by
        by_contra hne
        exact hopen (h.leftOpen_of_trimEnd_ne hc hne).1
      rw [htrim] at hkind ⊢
      have hlexeme : Lexeme (c :: u) (g.toList ++ (Flame.layOut (out.map Prod.fst) gs).toList) := by
        cases hg : g.toList with
        | cons b v =>
          have hb : Text.isBlank b = true := hblank b (by simp [hg])
          exact lexeme_of_blank h.shaped_or_single hopen hb
        | nil =>
          -- only the last gap is empty
          obtain rfl : out = [] := by
            by_contra hne
            exact hapart (mt List.length_eq_zero_iff.1 hne) (String.toList_eq_nil_iff.1 hg)
          exact lexeme_of_end h.shaped_or_single
      have hmunches := Munches.lexeme hc hlexeme (htrim.symm ▸ hkind) ((ih hrest).blanks hblank)
      rwa [htrim] at hmunches

end

/-! ### Running -/

/-- The errors are the same, but for the spans if the text is no program. -/
inductive RunErrorAlike : RunError → RunError → Prop
  | same {e : RunError} : RunErrorAlike e e
  | parse {e e' : ParseError} (h : ParseErrorAlike e e') : RunErrorAlike (.parse e) (.parse e')

/-- Two runs ended the same way, in states of the host that are related. The errors are the same but
for their spans; the values that were returned and the environments are the same but for the spans
of empty statements in functions. -/
inductive Outcome.AlikeButSpans (state : σ → σ → Prop) :
    Outcome RunError (Machine σ) (Option TypedValue) →
    Outcome RunError (Machine σ) (Option TypedValue) → Prop
  | done {r r' : Option TypedValue} {m m' : Machine σ} (result : ReturnsAlike .spansAside r r')
      (env : EnvAlike .spansAside m.env m'.env) (host : state m.host m'.host) :
      AlikeButSpans state (.done r m) (.done r' m')
  | failed {e e' : RunError} {m m' : Machine σ} (error : RunErrorAlike e e')
      (env : EnvAlike .spansAside m.env m'.env) (host : state m.host m'.host) :
      AlikeButSpans state (.failed e m) (.failed e' m')
  | exhausted : AlikeButSpans state .exhausted .exhausted

section

variable {host : Host σ} {state : σ → σ → Prop}

lemma Outcome.SameButSpans.alike {x y : Outcome RunError (Machine σ) (Option TypedValue)}
    (h : x.SameButSpans state y) : x.AlikeButSpans state y := by
  cases h with
  | done result env host => exact .done result env host
  | failed env host => exact .failed .same env host
  | exhausted => exact .exhausted

/-- Texts that are read alike run alike. -/
lemma runSource_alike (hhost : host.Respects .spansAside state) (limit : Nat) {a b : String}
    (h : ParseAlike (TokenStream.ofSource a).parse.result (TokenStream.ofSource b).parse.result)
    {m : Machine σ} (hstate : state m.host m.host) :
    (m.runSource host limit a).AlikeButSpans state (m.runSource host limit b) ∧
    Option.Rel (List.Forall₂ (InvocationAlike .spansAside))
      (m.recording.runSource host.recording limit a).record?
      (m.recording.runSource host.recording limit b).record? := by
  let P := (Correspondence.alike .spansAside).withHost hhost
  have henv : P.env m.env m.env := envAlike_spansAside m.env
  cases ha : (TokenStream.ofSource a).parse.result <;>
    cases hb : (TokenStream.ofSource b).parse.result <;> rw [ha, hb] at h <;> cases h
  · rename_i e e' herror
    refine ⟨?_, ?_⟩
    · obtain ⟨log, hlog⟩ := m.noteReading_eq a
      obtain ⟨log', hlog'⟩ := m.noteReading_eq b
      rw [Machine.runSource_of_parse_error host limit m ha,
        Machine.runSource_of_parse_error host limit m hb, hlog, hlog']
      exact .failed (.parse herror) henv hstate
    · obtain ⟨log, hlog⟩ := m.recording.noteReading_eq a
      obtain ⟨log', hlog'⟩ := m.recording.noteReading_eq b
      rw [Machine.runSource_of_parse_error _ limit _ ha,
        Machine.runSource_of_parse_error _ limit _ hb, hlog, hlog']
      exact .some .nil
  · rename_i p q hblock
    refine ⟨?_, ?_⟩
    · rw [Machine.runSource_of_parse host limit m ha, Machine.runSource_of_parse host limit m hb]
      have hmatches := readAs_matches P a b hblock limit ⟨henv, hstate⟩
      exact (sameButSpans_of_matches hhost hmatches).alike
    · rw [Machine.runSource_of_parse _ limit _ ha, Machine.runSource_of_parse _ limit _ hb,
        record?_mapError, record?_mapError]
      have hmachines : P.recorded.Machines m.recording m.recording := ⟨henv, hstate, .nil⟩
      exact P.record_alike (readAs_matches P.recorded a b hblock limit hmachines)

end

/-! ### Layouts -/

lemma forall₂_tokenAlike_of_words {ts us : List Token}
    (h : ts.map Token.word = us.map Token.word) : List.Forall₂ TokenAlike ts us := by
  rw [← List.forall₂_eq_eq_eq, List.forall₂_map_left_iff, List.forall₂_map_right_iff] at h
  refine h.imp fun t u htu => ?_
  obtain ⟨hlexeme, hkind⟩ := Prod.mk.inj htu
  exact ⟨hlexeme, hkind⟩

lemma words_layOut (source : String) {before : String} {gaps : List String}
    (hbefore : Blank before) (hgaps : Separates gaps (TokenStream.ofSource source).body.length) :
    (TokenStream.ofSource
        (before ++ layOut ((TokenStream.ofSource source).body.map Token.lexeme) gaps)).body.map
          Token.word =
      (TokenStream.ofSource source).body.map Token.word := by
  have hmunches := munches_scan 0 source.toList
  have hlexemes : ((scan 0 source.toList).map Token.word).map Prod.fst =
      (TokenStream.ofSource source).body.map Token.lexeme := List.map_map
  have hcount : Separates gaps ((scan 0 source.toList).map Token.word).length := by
    rwa [List.length_map]
  have hagain := (hmunches.layOut hcount).blanks hbefore
  rw [hlexemes, ← String.toList_append] at hagain
  exact hagain.scan_eq 0

/-- **Layout does not matter.** Let the lexemes of a source text be written out again, with blank
text before, between and after them that is empty between no two. The new text has the same lexemes
and kinds; it is read as the same program or with the same error; and it runs with the same
outcome, environment and calls of host functions, all but for the spans in errors and those of empty
statements in functions. The host must not look at the latter; the states that it is left in are
related as it relates states. -/
theorem runSource_layOut (host : Host σ) (state : σ → σ → Prop)
    (hhost : host.Respects .spansAside state) (limit : Nat) (source before : String)
    (gaps : List String) (hbefore : Blank before)
    (hgaps : Separates gaps (TokenStream.ofSource source).body.length) (m : Machine σ)
    (hstate : state m.host m.host) :
    let again := before ++ layOut ((TokenStream.ofSource source).body.map Token.lexeme) gaps
    (TokenStream.ofSource again).toList.map Token.word =
        (TokenStream.ofSource source).toList.map Token.word ∧
      ParseAlike (TokenStream.ofSource again).parse.result
        (TokenStream.ofSource source).parse.result ∧
      (m.runSource host limit again).AlikeButSpans state (m.runSource host limit source) ∧
      Option.Rel (List.Forall₂ (InvocationAlike .spansAside))
        (m.recording.runSource host.recording limit again).record?
        (m.recording.runSource host.recording limit source).record? := by
  intro again
  have hwords := words_layOut source hbefore hgaps
  have hparse := TokenStream.parse_alike (forall₂_tokenAlike_of_words hwords)
  refine ⟨?_, hparse, runSource_alike hhost limit hparse hstate⟩
  rw [words_ofSource, words_ofSource]
  exact congrArg (· ++ [("", .eof)]) hwords

/-- A string that is left open keeps its inner blank, and loses those at its end again. The empty
statement in a function that a host keeps is moved. -/
theorem runSource_layOut_open_string :
    (TokenStream.ofSource "x\"a b ").body.map Token.lexeme = ["x", "\"a b"] ∧
      Separates ["\t", "\u3000"] 2 ∧
      "\n" ++ layOut ["x", "\"a b"] ["\t", "\u3000"] = "\nx\t\"a b\u3000" ∧
      (TokenStream.ofSource "x\"a b ").parse.result =
        .error (.cursor (.unexpected (.symbol .semicolon) .string ⟨1, 5⟩)) ∧
      (TokenStream.ofSource "\nx\t\"a b\u3000").parse.result =
        .error (.cursor (.unexpected (.symbol .semicolon) .string ⟨3, 7⟩)) ∧
      (∀ m : Machine World, (m.runSource World.host 1 "\nx\t\"a b\u3000").AlikeButSpans Eq
        (m.runSource World.host 1 "x\"a b ")) ∧
      ∀ m : Machine (List Value),
        (m.runSource .keeping 1 "\nfunc g ( ) \x7b ; \x7d n ( g ) ; ").AlikeButSpans
          (List.Forall₂ (ValueAlike .spansAside))
          (m.runSource .keeping 1 "func g()\x7b;\x7dn(g);") := by
  have hlexemes : (TokenStream.ofSource "x\"a b ").body.map Token.lexeme = ["x", "\"a b"] := by cbv
  have hgaps : Separates ["\t", "\u3000"] 2 := ⟨rfl, by simp [Blank]; decide, by decide⟩
  have htext : "\n" ++ layOut ["x", "\"a b"] ["\t", "\u3000"] = "\nx\t\"a b\u3000" := by decide
  have hbefore : Blank "\n" := by simp [Blank]; decide
  refine ⟨hlexemes, hgaps, htext, by cbv, by cbv, fun m => ?_, fun m => ?_⟩
  · have hcount : Separates ["\t", "\u3000"] (TokenStream.ofSource "x\"a b ").body.length := by
      rwa [← List.length_map (f := Token.lexeme), hlexemes]
    have hall := runSource_layOut World.host Eq respects_world 1 "x\"a b " "\n" ["\t", "\u3000"]
      hbefore hcount m rfl
    rw [hlexemes, htext] at hall
    exact hall.2.2.1
  · let words := ["func", "g", "(", ")", "\x7b", ";", "\x7d", "n", "(", "g", ")", ";"]
    let source := "func g()\x7b;\x7dn(g);"
    have hwords : (TokenStream.ofSource source).body.map Token.lexeme = words := by cbv
    have htext : "\n" ++ layOut words (List.replicate 12 " ") =
        "\nfunc g ( ) \x7b ; \x7d n ( g ) ; " := by decide
    have hcount : Separates (List.replicate 12 " ") (TokenStream.ofSource source).body.length := by
      rw [← List.length_map (f := Token.lexeme), hwords]
      exact ⟨rfl, by simp [Blank]; decide, by decide⟩
    have hall := runSource_layOut .keeping _ (respects_keeping _) 1 source "\n" _ hbefore hcount m
      (forall₂_spansAside m.host)
    rw [hwords, htext] at hall
    exact hall.2.2.1

end Flame
