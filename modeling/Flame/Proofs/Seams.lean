import Flame.Proofs.Layout
import Flame.Proofs.Tiling

/-!
Source texts with blank text between them.

Two texts with a blank between them have the tokens of the one and then those of the other, unless
the first leaves a string open. Nothing else that stands at the seam can tell: a lexeme ends where a
blank does, and the blanks before a lexeme do not count. What changes is where the tokens of the
second text stand. As long as all offsets fit in 32 bits, each of their spans moves by the bytes
that come before the second text.
-/

namespace Flame

/-- The span `n` bytes further on. -/
def Span.shift (n : Nat) (s : Span) : Span := .ofRange (n + s.start.toNat) (n + s.stop.toNat)

/-- The token `n` bytes further on. -/
def Token.shift (n : Nat) (t : Token) : Token := { t with span := t.span.shift n }

/-- The token is a string without its closing quote: a quote by itself, or one that is not the last
character. -/
def Token.LeavesOpen (t : Token) : Prop :=
  t.kind = .string ∧ (t.lexeme = "\"" ∨ t.lexeme.toList.getLast? ≠ some '"')

/-! ### Moving a text -/

lemma Token.ofLexeme_shift {w : List Char} {n offset : Nat}
    (h : n + (offset + Text.byteSize w) < UInt32.size) :
    Token.ofLexeme w (n + offset) = (Token.ofLexeme w offset).shift n := by
  obtain ⟨hstart, hstop⟩ := Token.span_ofLexeme w offset (by omega)
  have hspan : (Token.ofLexeme w (n + offset)).span = (Token.ofLexeme w offset).span.shift n := by
    rw [Span.shift, hstart, hstop, ← Nat.add_assoc]
    rfl
  rw [Token.shift, ← hspan]
  rfl

/-- A text that stands further on has its tokens further on. -/
lemma scan_shift {n offset : Nat} {cs : List Char}
    (h : n + (offset + Text.byteSize cs) < UInt32.size) :
    scan (n + offset) cs = (scan offset cs).map (Token.shift n) := by
  fun_induction scan offset cs with
  | case1 => rw [scan_nil, List.map_nil]
  | case2 offset c cs hc ih =>
    rw [Text.byteSize_cons] at h
    rw [scan_blank hc, Nat.add_assoc]
    exact ih (by omega)
  | case3 offset c cs hc lexeme ih =>
    have hc : Text.isBlank c = false := by simpa using hc
    have hsplit : c :: cs = lexeme ++ cs.drop (lexemeExtent c cs) := by
      rw [List.cons_append, List.take_append_drop]
    obtain ⟨v, hlexeme, -⟩ := Text.exists_trimEnd lexeme
    have hsize : Text.byteSize (c :: cs) =
        Text.byteSize lexeme + Text.byteSize (cs.drop (lexemeExtent c cs)) := by
      rw [hsplit, Text.byteSize_append]
    have htrim : Text.byteSize lexeme = Text.byteSize (Text.trimEnd lexeme) + Text.byteSize v := by
      rw [← Text.byteSize_append, ← hlexeme]
    have hfirst : Token.ofLexeme (Text.trimEnd lexeme) (n + offset) =
        (Token.ofLexeme (Text.trimEnd lexeme) offset).shift n := Token.ofLexeme_shift (by omega)
    rw [scan_lexeme hc, List.map_cons, Nat.add_assoc n, ih (by omega)]
    exact congrArg (· :: _) hfirst

lemma scan_blanks {v : List Char} (hv : ∀ c ∈ v, Text.isBlank c = true) (offset : Nat)
    (cs : List Char) : scan offset (v ++ cs) = scan (offset + Text.byteSize v) cs := by
  induction v generalizing offset with
  | nil => rfl
  | cons c v ih =>
    rw [List.forall_mem_cons] at hv
    rw [List.cons_append, scan_blank hv.1, ih hv.2, Text.byteSize_cons, Nat.add_assoc]

/-! ### The seam -/

lemma not_quoted_of_spelled :
    ∀ k ∈ Kind.spelled, ∀ s ∈ k.spelling?, s.toList.head? ≠ some '"' := by
  decide

/-- A scanned token with a quote at its start and no further one leaves a string open. -/
lemma leavesOpen_of_leftOpen {t : Token} (hkind : t.kind = Kind.ofLexeme t.lexeme)
    (h : LeftOpen t.lexeme.toList) : t.LeavesOpen := by
  obtain ⟨u, hlexeme, hu⟩ := h
  have hfits : Shape.string.fits t.lexeme.toList :=
    Shape.fits_string_iff.2 ⟨u, hu, .inl hlexeme⟩
  have hfree : Kind.ofSpelling? t.lexeme = none :=
    Kind.ofSpelling?_eq_none_iff.2 fun k hk hspelling =>
      not_quoted_of_spelled k hk t.lexeme hspelling (by rw [hlexeme]; rfl)
  refine ⟨?_, ?_⟩
  · rw [hkind, Kind.ofLexeme_eq_of_shape hfree (Shape.of?_eq_some_iff.2 hfits)]
    rfl
  · cases u with
    | nil => exact .inl (String.toList_inj.1 hlexeme)
    | cons c u =>
      right
      rw [hlexeme, List.getLast?_cons_cons]
      intro hlast
      exact hu (List.mem_of_getLast? hlast)

/-- **Blanks between texts.** Let there be blank text, and not none, between two texts, the first of
which does not leave a string open. If the whole is short enough for 32-bit offsets, its tokens are
those of the first text, and then those of the second, further on by the bytes before it. -/
theorem ofSource_append_blank {a w b : String} (hw : Blank w) (hne : w ≠ "")
    (hlast : ∀ t ∈ (TokenStream.ofSource a).body.getLast?, ¬t.LeavesOpen)
    (hsize : (a ++ w ++ b).utf8ByteSize < UInt32.size) :
    (TokenStream.ofSource (a ++ w ++ b)).body =
      (TokenStream.ofSource a).body ++
        (TokenStream.ofSource b).body.map (Token.shift (a ++ w).utf8ByteSize) := by
  obtain ⟨c, v, hcv⟩ := List.exists_cons_of_ne_nil (mt String.toList_eq_nil_iff.1 hne)
  have hblank : ∀ d ∈ c :: v, Text.isBlank d = true := fun d hd => hw d (hcv ▸ hd)
  have htext : (a ++ w ++ b).toList = a.toList ++ c :: (v ++ b.toList) := by
    rw [String.toList_append, String.toList_append, hcv, List.append_assoc, List.cons_append]
  have hopen : ∀ t ∈ (scan 0 a.toList).getLast?, ¬LeftOpen t.lexeme.toList := fun t ht h =>
    hlast t ht (leavesOpen_of_leftOpen (kind_of_mem_scan (List.mem_of_getLast? ht)) h)
  have hbytes : 0 + Text.byteSize a.toList + c.utf8Size + Text.byteSize v =
      (a ++ w).utf8ByteSize := by
    rw [← Text.byteSize_toList, String.toList_append, hcv, Text.byteSize_append, Text.byteSize_cons]
    omega
  rw [String.utf8ByteSize_append, ← Text.byteSize_toList b] at hsize
  calc scan 0 (a ++ w ++ b).toList
      = scan 0 (a.toList ++ c :: (v ++ b.toList)) := by rw [htext]
    _ = scan 0 a.toList ++ scan (0 + Text.byteSize a.toList + c.utf8Size) (v ++ b.toList) :=
        scan_append_blank 0 a.toList (hblank c List.mem_cons_self) (v ++ b.toList) hopen
    _ = scan 0 a.toList ++ scan ((a ++ w).utf8ByteSize + 0) b.toList := by
        rw [scan_blanks (fun d hd => hblank d (List.mem_cons_of_mem c hd)), hbytes, Nat.add_zero]
    _ = scan 0 a.toList ++ (scan 0 b.toList).map (Token.shift (a ++ w).utf8ByteSize) := by
        rw [scan_shift (by omega)]

/-- A mark that would be part of an arrow, a blank of three bytes, and what would have made it
one. -/
theorem ofSource_append_blank_arrow :
    Blank "\u3000" ∧
      (∀ t ∈ (TokenStream.ofSource "x\"y\"-").body.getLast?, ¬t.LeavesOpen) ∧
      (TokenStream.ofSource "> \"").body =
        [⟨">", .unknown, ⟨0, 1⟩⟩, ⟨"\"", .string, ⟨2, 3⟩⟩] ∧
      (TokenStream.ofSource ("x\"y\"-" ++ "\u3000" ++ "> \"")).body =
        (TokenStream.ofSource "x\"y\"-").body ++
          [⟨">", .unknown, ⟨8, 9⟩⟩, ⟨"\"", .string, ⟨10, 11⟩⟩] := by
  have hblank : Blank "\u3000" := by simp [Blank]; decide
  have hfirst : (TokenStream.ofSource "x\"y\"-").body =
      [⟨"x", .identifier, ⟨0, 1⟩⟩, ⟨"\"y\"", .string, ⟨1, 4⟩⟩, ⟨"-", .operator .sub, ⟨4, 5⟩⟩] := by
    cbv
  have hlast : ∀ t ∈ (TokenStream.ofSource "x\"y\"-").body.getLast?, ¬t.LeavesOpen := by
    rw [hfirst]
    simp [Token.LeavesOpen]
  have hsecond : (TokenStream.ofSource "> \"").body =
      [⟨">", .unknown, ⟨0, 1⟩⟩, ⟨"\"", .string, ⟨2, 3⟩⟩] := by cbv
  have hjoined := ofSource_append_blank hblank (by decide) hlast (b := "> \"") (by decide)
  rw [hsecond] at hjoined
  exact ⟨hblank, hlast, hsecond, hjoined⟩

end Flame
