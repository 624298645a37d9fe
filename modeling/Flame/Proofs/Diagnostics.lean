import Flame.Proofs.EarliestError
import Flame.Proofs.Places
import Flame.Proofs.Tiling
import Flame.Proofs.Units

/-!
Where errors are reported.

A source text that is not a program is refused at one of its tokens, and the report names the place
of this token. Since the tokens tile the text, a reader who follows the place finds the token there,
and the end of the text if the token is the sentinel. An error that has no place in the text is
reported by its message alone.
-/

namespace Flame

variable {σ : Type} {source origin : String}

/-- The span of the token that an error was found at, if it was found at one. -/
def RunError.span? : RunError → Option Span
  | parse cause => cause.span?
  | runtime _ => none

/-- The line of a report that names a place. -/
def Text.Place.report (p : Text.Place) (origin : String) : String :=
  "\n  --> " ++ origin ++ ":" ++ p.line.repr ++ ":" ++ p.column.repr

/-! ### Reports -/

lemma RunError.render_of_span {e : RunError} {span : Span} (h : e.span? = some span) :
    e.render source origin = "error: " ++ e.message ++ (span.place source).report origin := by
  cases e with
  | parse cause =>
    have h : cause.span? = some span := h
    simp only [RunError.render, h, Text.Place.report]
  | runtime cause => cases h

lemma RunError.render_of_no_span {e : RunError} (h : e.span? = none) :
    e.render source origin = "error: " ++ e.message := by
  cases e with
  | parse cause =>
    have h : cause.span? = none := h
    simp only [RunError.render, h, String.append_empty]
  | runtime cause => simp only [RunError.render, String.append_empty]

lemma RunError.span?_eq_none_iff {e : RunError} :
    e.span? = none ↔ (∃ position offset, e = .parse (.cursor (.exhausted position offset))) ∨
      ∃ cause, e = .runtime cause := by
  constructor
  · intro h
    cases e with
    | runtime cause => exact .inr ⟨cause, rfl⟩
    | parse cause =>
      cases cause with
      | cursor cause =>
        cases cause with
        | exhausted position offset => exact .inl ⟨position, offset, rfl⟩
        | unexpected => cases h
      | _ => cases h
  · rintro (⟨position, offset, rfl⟩ | ⟨cause, rfl⟩) <;> rfl

/-! ### The token of an error -/

lemma ParseError.Names.span_eq {e : ParseError} {i : Nat} {t : Token} {last : Prop} {span : Span}
    (h : e.Names i t last) (hspan : e.span? = some span) : span = t.span := by
  cases e with
  | cursor cause =>
    cases cause with
    | exhausted => cases hspan
    | unexpected expected found s => exact (Option.some.inj hspan).symm.trans h.2.2.1
  | noStatement found s => exact (Option.some.inj hspan).symm.trans h.2
  | noExpression found s => exact (Option.some.inj hspan).symm.trans h.2
  | badInteger lexeme s => exact (Option.some.inj hspan).symm.trans h.2.2

/-- An error names one of the tokens, or the sentinel. -/
lemma TokenStream.exists_names {ts : TokenStream} {e : ParseError}
    (h : ts.parse.result = .error e) :
    ∃ i t, ts.toList[i]? = some t ∧ e.Names i t (i = ts.body.length) := by
  obtain ⟨w, c, hp, -, hnames, -⟩ := (block_local.1 _).error ((parse_eq_error_iff ts e).1 h)
  rw [propext (ahead_eq_nil_iff hp)] at hnames
  exact ⟨c.position, c.current, getElem?_toList_of_passes hp, hnames⟩

lemma Machine.parse_of_runSource {host : Host σ} {limit : Nat} {m m' : Machine σ}
    {cause : ParseError} (h : m.runSource host limit source = .failed (.parse cause) m') :
    (TokenStream.ofSource source).parse.result = .error cause := by
  cases hparse : (TokenStream.ofSource source).parse.result with
  | error e =>
    rw [runSource_of_parse_error host limit m hparse] at h
    rw [RunError.parse.inj (Outcome.failed.inj h).1]
  | ok program =>
    rw [runSource_of_parse host limit m hparse] at h
    cases hexec : (m.readAs source program).exec host limit program <;> rw [hexec] at h <;> cases h

/-! ### The place of a token -/

lemma Text.Fills.leadsTo {w : List Char} {span : Span}
    (h : Text.Fills w span.start.toNat span.stop.toNat source.toList) :
    ∃ rest, (span.place source).LeadsTo source.toList rest ∧ w <+: rest := by
  obtain ⟨before, after, hsource, hstart, -⟩ := h
  have hplace : span.place source = .after before := by
    rw [Span.place, Place.ofOffset, hstart, hsource, List.append_assoc, bytesBefore?_append]
    rfl
  refine ⟨w ++ after, ?_, List.prefix_append w after⟩
  rw [hplace, hsource, List.append_assoc]
  exact Place.leadsTo_after before (w ++ after)

/-- The place of a token leads to its lexeme, and that of the sentinel to the end of the text. -/
lemma TokenStream.TilesSource.leadsTo {ts : TokenStream} (h : ts.TilesSource source) {t : Token}
    (ht : t ∈ ts.toList) :
    ∃ rest, (t.span.place source).LeadsTo source.toList rest ∧ t.lexeme.toList <+: rest ∧
      (t.kind = .eof → rest = []) := by
  obtain ⟨stop, hstop, hall, hne⟩ := h.sentinel
  rw [hall, List.mem_append, List.mem_singleton] at ht
  rcases ht with ht | rfl
  · obtain ⟨rest, hleads, hlexeme⟩ := (h.fills t ht).leadsTo
    exact ⟨rest, hleads, hlexeme, fun hkind => absurd hkind (hne t ht)⟩
  · have hplace : (⟨stop, stop⟩ : Span).place source = .after source.toList := by
      have hoffset := Text.bytesBefore?_append source.toList []
      rw [List.append_nil, Text.byteSize_toList, ← hstop] at hoffset
      rw [Span.place, Text.Place.ofOffset, hoffset]
      rfl
    refine ⟨[], ?_, List.nil_prefix, fun _ => rfl⟩
    rw [hplace]
    simpa using Text.Place.leadsTo_after source.toList []

/-- **Errors point at the text.** A source text is refused at one of its tokens. If it has less than
2 ^ 32 bytes, then the line and the column in the report lead to this token, and to the end of the
text if the token is the sentinel. The report is the message alone where an error has no place: if
the tokens run out, and whenever the program failed while it ran. -/
theorem render_locates_token (host : Host σ) (limit : Nat) (source origin : String)
    (m m' : Machine σ) (e : RunError) (hrun : m.runSource host limit source = .failed e m') :
    (∀ cause span, e = .parse cause → cause.span? = some span →
      source.utf8ByteSize < UInt32.size →
      ∃ (i : Nat) (t : Token) (p : Text.Place) (rest : List Char),
        (TokenStream.ofSource source).toList[i]? = some t ∧
        cause.Names i t (i = (TokenStream.ofSource source).body.length) ∧
        e.render source origin = "error: " ++ e.message ++ p.report origin ∧
        1 ≤ p.line ∧ p.line ≤ (source.toList.splitOn '\n').length ∧
        p.LeadsTo source.toList rest ∧ t.lexeme.toList <+: rest ∧ (t.kind = .eof → rest = [])) ∧
    (e.span? = none → e.render source origin = "error: " ++ e.message) ∧
    (e.span? = none ↔ (∃ position offset, e = .parse (.cursor (.exhausted position offset))) ∨
      ∃ cause, e = .runtime cause) := by
  refine ⟨fun cause span he hspan hsize => ?_, RunError.render_of_no_span,
    RunError.span?_eq_none_iff⟩
  subst he
  obtain ⟨i, t, ht, hnames⟩ := TokenStream.exists_names (Machine.parse_of_runSource hrun)
  obtain rfl := hnames.span_eq hspan
  obtain ⟨rest, hleads, hlexeme, hend⟩ :=
    (ofSource_tiles source hsize).leadsTo (List.mem_of_getElem? ht)
  obtain ⟨hfirst, hlast⟩ := hleads.line_le
  exact ⟨i, t, _, rest, ht, hnames, RunError.render_of_span hspan, hfirst, hlast, hleads, hlexeme,
    hend⟩

/-- An unknown character stands where a name should, after a blank of two bytes on the second
line. -/
theorem render_locates_token_unknown :
    let source := "f(1);\n\u00a0let é"
    let cause := ParseError.cursor (.unexpected .identifier .unknown ⟨12, 14⟩)
    cause.span? = some ⟨12, 14⟩ ∧ source.utf8ByteSize < UInt32.size ∧
      (RunError.parse cause).render source "a.fl" =
        "error: expected identifier but found unknown token\n  --> a.fl:2:6" ∧
      ∀ m : Machine World,
        m.runSource World.host 1 source = .failed (.parse cause) (m.noteReading source) ∧
        ∃ (i : Nat) (t : Token) (p : Text.Place) (rest : List Char),
          (TokenStream.ofSource source).toList[i]? = some t ∧
          cause.Names i t (i = (TokenStream.ofSource source).body.length) ∧
          (RunError.parse cause).render source "a.fl" =
            "error: " ++ (RunError.parse cause).message ++ p.report "a.fl" ∧
          1 ≤ p.line ∧ p.line ≤ (source.toList.splitOn '\n').length ∧
          p.LeadsTo source.toList rest ∧ t.lexeme.toList <+: rest ∧ (t.kind = .eof → rest = []) := by
  intro source cause
  have hspan : cause.span? = some ⟨12, 14⟩ := rfl
  have hsize : source.utf8ByteSize < UInt32.size := by decide
  have hparse : (TokenStream.ofSource source).parse.result = .error cause := by cbv
  refine ⟨hspan, hsize, by decide +kernel, fun m => ?_⟩
  have hrun := Machine.runSource_of_parse_error World.host 1 m hparse
  exact ⟨hrun, (render_locates_token World.host 1 source "a.fl" m _ _ hrun).1 cause _ rfl hspan hsize⟩

end Flame
