import Flame.Proofs.LongestMatch
import Mathlib

/-!
The tokens of a source text tile it.

Scanning cuts a text into lexemes, with blank characters before, between and after them, and loses
nothing: a lexeme that is shortened at its end leaves blank characters behind. So each token stands
in the text at its own place. That its span says which place, in bytes, needs the text to be short
enough for 32 bits.
-/

namespace Flame

namespace Text

lemma byteSize_toList (s : String) : byteSize s.toList = s.utf8ByteSize := by
  have hsize : ∀ cs, byteSize cs = (String.ofList cs).utf8ByteSize := by
    intro cs
    induction cs with
    | nil => rfl
    | cons c cs ih =>
      rw [byteSize_cons, ih, String.ofList_cons, String.utf8ByteSize_append,
        String.utf8ByteSize_singleton]
  rw [hsize, String.ofList_toList]

/-- The characters `w` fill the bytes of a text from `start` up to `stop`. Both offsets lie between
two characters, or at an end of the text. -/
def Fills (w : List Char) (start stop : Nat) (text : List Char) : Prop :=
  ∃ before after, text = before ++ w ++ after ∧ start = byteSize before ∧
    stop = byteSize (before ++ w)

/-- The text is not empty, and neither its first nor its last character is blank. -/
structure Trimmed (w : List Char) : Prop where
  first : ∃ c ∈ w.head?, isBlank c = false
  last : ∃ c ∈ w.getLast?, isBlank c = false

lemma Trimmed.byteSize_pos {w : List Char} (h : Trimmed w) : 0 < byteSize w := by
  obtain ⟨c, hc, -⟩ := h.first
  obtain ⟨v, rfl⟩ := List.head?_eq_some_iff.1 hc
  have hpos := c.utf8Size_pos
  rw [byteSize_cons]
  omega

lemma trimmed_trimEnd {c : Char} {u : List Char} (hc : isBlank c = false) :
    Trimmed (trimEnd (c :: u)) := by
  obtain ⟨v, heq, hv⟩ := exists_trimEnd (c :: u)
  generalize hw : trimEnd (c :: u) = w at heq ⊢
  cases w with
  | nil =>
    rw [List.nil_append] at heq
    rw [hv c (heq ▸ List.mem_cons_self)] at hc
    cases hc
  | cons d w =>
    obtain rfl : c = d := (List.cons.inj heq).1
    refine ⟨⟨c, rfl, hc⟩, (c :: w).getLast (List.cons_ne_nil c w),
      List.getLast?_eq_some_getLast _, ?_⟩
    have hnot := List.head?_dropWhile_not isBlank (c :: u).reverse
    rw [trimEnd] at hw
    rwa [← List.getLast?_reverse, hw, List.getLast?_eq_some_getLast (List.cons_ne_nil c w)] at hnot

end Text

/-- The tokens `ts`, in order and with blank characters around them, make up the text `cs`, the
first byte of which has the offset `offset`. -/
inductive Tiles : (offset : Nat) → (cs : List Char) → (ts : List Token) → Prop
  | nil {offset : Nat} : Tiles offset [] []
  | blank {offset : Nat} {c : Char} {cs : List Char} {ts : List Token}
    (hc : Text.isBlank c = true) (rest : Tiles (offset + c.utf8Size) cs ts) :
    Tiles offset (c :: cs) ts
  | lexeme {offset : Nat} {w cs : List Char} {ts : List Token} (hw : Text.Trimmed w)
    (rest : Tiles (offset + Text.byteSize w) cs ts) :
    Tiles offset (w ++ cs) (.ofLexeme w offset :: ts)

/-- The tokens of a stream tile a source text: they stand in it one after another, with nothing but
blank characters around them, and the sentinel stands at its end. -/
structure TokenStream.TilesSource (ts : TokenStream) (source : String) : Prop where
  /-- A token is found in the source text at its span. -/
  fills : ∀ t ∈ ts.body,
    Text.Fills t.lexeme.toList t.span.start.toNat t.span.stop.toNat source.toList
  nonempty : ∀ t ∈ ts.body, t.span.start < t.span.stop
  /-- A token ends before the next one starts, or right there. -/
  increasing : ts.body.Pairwise fun t u => t.span.stop ≤ u.span.start
  trimmed : ∀ t ∈ ts.body, Text.Trimmed t.lexeme.toList
  /-- A character that is not blank lies inside the span of a token. -/
  covers : ∀ before c after, source.toList = before ++ c :: after → Text.isBlank c = false →
    ∃ t ∈ ts.body, t.span.start.toNat ≤ Text.byteSize before ∧
      Text.byteSize (before ++ [c]) ≤ t.span.stop.toNat
  /-- There is one token of kind `eof`. It is the last, and stands at the end of the text. -/
  sentinel : ∃ stop : UInt32, stop.toNat = source.utf8ByteSize ∧
    ts.toList = ts.body ++ [⟨"", .eof, ⟨stop, stop⟩⟩] ∧ ∀ t ∈ ts.body, t.kind ≠ .eof

/-! ### Scanning tiles a text -/

lemma Tiles.blanks {offset : Nat} {v cs : List Char} {ts : List Token}
    (hv : ∀ c ∈ v, Text.isBlank c = true) (h : Tiles (offset + Text.byteSize v) cs ts) :
    Tiles offset (v ++ cs) ts := by
  induction v generalizing offset with
  | nil => exact h
  | cons c v ih =>
    rw [List.forall_mem_cons] at hv
    rw [Text.byteSize_cons, ← Nat.add_assoc] at h
    exact .blank hv.1 (ih hv.2 h)

lemma tiles_scan (offset : Nat) (cs : List Char) : Tiles offset cs (scan offset cs) := by
  fun_induction scan offset cs with
  | case1 => exact .nil
  | case2 offset c cs hc ih => exact .blank hc ih
  | case3 offset c cs hc lexeme ih =>
    have hsplit : c :: cs = lexeme ++ cs.drop (lexemeExtent c cs) := by
      rw [List.cons_append, List.take_append_drop]
    have hc : Text.isBlank c = false := by simpa using hc
    -- What trimming takes away from the lexeme is blank.
    obtain ⟨v, hlexeme, hv⟩ := Text.exists_trimEnd lexeme
    have hsize : Text.byteSize lexeme = Text.byteSize (Text.trimEnd lexeme) + Text.byteSize v := by
      rw [← Text.byteSize_append, ← hlexeme]
    rw [hsize, ← Nat.add_assoc] at ih ⊢
    rw [hsplit]
    conv => arg 2; rw [hlexeme, List.append_assoc]
    exact .lexeme (Text.trimmed_trimEnd hc) (ih.blanks hv)

/-! ### Where the tokens stand -/

lemma Token.span_ofLexeme (w : List Char) (offset : Nat)
    (h : offset + Text.byteSize w < UInt32.size) :
    (Token.ofLexeme w offset).span.start.toNat = offset ∧
      (Token.ofLexeme w offset).span.stop.toNat = offset + Text.byteSize w :=
  ⟨Span.toNat_clamp_of_lt (by omega), Span.toNat_clamp_of_lt h⟩

namespace Tiles

variable {offset : Nat} {cs : List Char} {ts : List Token}

lemma trimmed (h : Tiles offset cs ts) : ∀ t ∈ ts, Text.Trimmed t.lexeme.toList := by
  induction h with
  | nil => exact fun t ht => absurd ht List.not_mem_nil
  | blank _ _ ih => exact ih
  | lexeme hw _ ih =>
    refine List.forall_mem_cons.2 ⟨?_, ih⟩
    rwa [Token.ofLexeme, String.toList_ofList]

lemma le_start (h : Tiles offset cs ts) (hsize : offset + Text.byteSize cs < UInt32.size) :
    ∀ t ∈ ts, offset ≤ t.span.start.toNat := by
  induction h with
  | nil => exact fun t ht => absurd ht List.not_mem_nil
  | blank _ _ ih =>
    rw [Text.byteSize_cons, ← Nat.add_assoc] at hsize
    exact fun t ht => Nat.le_of_add_right_le (ih hsize t ht)
  | @lexeme offset w cs ts _ _ ih =>
    rw [Text.byteSize_append, ← Nat.add_assoc] at hsize
    obtain ⟨hstart, -⟩ := Token.span_ofLexeme w offset (by omega)
    refine List.forall_mem_cons.2 ⟨Nat.le_of_eq hstart.symm, fun t ht => ?_⟩
    exact Nat.le_of_add_right_le (ih hsize t ht)

/-- Every token stands at its span, in a text of which the characters `pre` come before. -/
lemma fills (h : Tiles offset cs ts) (hsize : offset + Text.byteSize cs < UInt32.size)
    (pre : List Char) (hpre : offset = Text.byteSize pre) :
    ∀ t ∈ ts,
      Text.Fills t.lexeme.toList t.span.start.toNat t.span.stop.toNat (pre ++ cs) := by
  induction h generalizing pre with
  | nil => exact fun t ht => absurd ht List.not_mem_nil
  | @blank offset c cs ts _ _ ih =>
    rw [Text.byteSize_cons, ← Nat.add_assoc] at hsize
    rw [List.append_cons]
    exact ih hsize (pre ++ [c]) (by simp [hpre])
  | @lexeme offset w cs ts _ _ ih =>
    rw [Text.byteSize_append, ← Nat.add_assoc] at hsize
    rw [← List.append_assoc]
    have hafter : offset + Text.byteSize w = Text.byteSize (pre ++ w) := by
      rw [Text.byteSize_append, hpre]
    refine List.forall_mem_cons.2 ⟨?_, ih hsize (pre ++ w) hafter⟩
    obtain ⟨hstart, hstop⟩ := Token.span_ofLexeme w offset (by omega)
    rw [hstart, hstop, Token.ofLexeme, String.toList_ofList]
    exact ⟨pre, cs, rfl, hpre, hafter⟩

lemma pairwise (h : Tiles offset cs ts) (hsize : offset + Text.byteSize cs < UInt32.size) :
    ts.Pairwise fun t u => t.span.stop ≤ u.span.start := by
  induction h with
  | nil => exact .nil
  | blank _ _ ih =>
    rw [Text.byteSize_cons, ← Nat.add_assoc] at hsize
    exact ih hsize
  | @lexeme offset w cs ts _ rest ih =>
    rw [Text.byteSize_append, ← Nat.add_assoc] at hsize
    refine .cons (fun u hu => ?_) (ih hsize)
    obtain ⟨-, hstop⟩ := Token.span_ofLexeme w offset (by omega)
    rw [UInt32.le_iff_toNat_le, hstop]
    exact rest.le_start hsize u hu

/-- A character that is not blank belongs to a lexeme. -/
lemma covers (h : Tiles offset cs ts) (hsize : offset + Text.byteSize cs < UInt32.size)
    {before after : List Char} {c : Char} (hcs : cs = before ++ c :: after)
    (hc : Text.isBlank c = false) :
    ∃ t ∈ ts, t.span.start.toNat ≤ offset + Text.byteSize before ∧
      offset + Text.byteSize (before ++ [c]) ≤ t.span.stop.toNat := by
  induction h generalizing before with
  | nil => simp at hcs
  | @blank offset b cs ts hb _ ih =>
    rw [Text.byteSize_cons, ← Nat.add_assoc] at hsize
    cases before with
    | nil =>
      rw [(List.cons.inj hcs).1, hc] at hb
      cases hb
    | cons d before =>
      obtain ⟨rfl, htail⟩ := List.cons.inj hcs
      obtain ⟨t, ht, hstart, hstop⟩ := ih hsize htail
      rw [List.cons_append, Text.byteSize_cons, Text.byteSize_cons, ← Nat.add_assoc, ← Nat.add_assoc]
      exact ⟨t, ht, hstart, hstop⟩
  | @lexeme offset w cs ts _ _ ih =>
    rw [Text.byteSize_append, ← Nat.add_assoc] at hsize
    have hlater : ∀ b, before = w ++ b → cs = b ++ c :: after →
        ∃ t ∈ Token.ofLexeme w offset :: ts,
          t.span.start.toNat ≤ offset + Text.byteSize before ∧
            offset + Text.byteSize (before ++ [c]) ≤ t.span.stop.toNat := by
      rintro b rfl hb
      obtain ⟨t, ht, hstart, hstop⟩ := ih hsize hb
      rw [List.append_assoc, Text.byteSize_append, ← Nat.add_assoc]
      rw [Text.byteSize_append w, ← Nat.add_assoc]
      exact ⟨t, List.mem_cons_of_mem _ ht, hstart, hstop⟩
    rcases List.append_eq_append_iff.1 hcs with ⟨b, hbefore, hb⟩ | ⟨b, hw, hb⟩
    · exact hlater b hbefore hb
    · cases b with
      | nil =>
        rw [List.append_nil] at hw
        exact hlater [] (by rw [hw, List.append_nil]) hb.symm
      | cons d b =>
        -- the character is one of this lexeme
        obtain ⟨rfl, -⟩ := List.cons.inj hb
        obtain ⟨hstart, hstop⟩ := Token.span_ofLexeme w offset (by omega)
        have hchars : Text.byteSize w = Text.byteSize (before ++ [c]) + Text.byteSize b := by
          rw [hw, ← Text.byteSize_append, ← List.append_cons]
        exact ⟨_, List.mem_cons_self, by omega, by omega⟩

end Tiles

/-- **Tiling.** The tokens of a source text of less than 2 ^ 32 bytes tile it: each stands in it at
its span, with no blank character at its ends; they follow one another without overlap; whatever
lies outside of them is blank; and the sentinel stands once, at the end. -/
theorem ofSource_tiles (source : String) (hsize : source.utf8ByteSize < UInt32.size) :
    (TokenStream.ofSource source).TilesSource source := by
  have htiles : Tiles 0 source.toList (TokenStream.ofSource source).body :=
    tiles_scan 0 source.toList
  have hfit : 0 + Text.byteSize source.toList < UInt32.size := by
    rwa [Nat.zero_add, Text.byteSize_toList]
  have hfills := htiles.fills hfit [] rfl
  refine ⟨hfills, fun t ht => ?_, htiles.pairwise hfit, htiles.trimmed,
    fun before c after hsplit hc => ?_, ?_⟩
  · obtain ⟨before, after, -, hstart, hstop⟩ := hfills t ht
    have hpos := (htiles.trimmed t ht).byteSize_pos
    rw [Text.byteSize_append] at hstop
    rw [UInt32.lt_iff_toNat_lt]
    omega
  · simpa using htiles.covers hfit hsplit hc
  · refine ⟨Span.clamp (Text.byteSize source.toList), ?_, rfl, TokenStream.body_ne_eof _⟩
    rw [Text.byteSize_toList, Span.toNat_clamp_of_lt hsize]

/-- Characters of several bytes, a line feed in a string, and blanks after one that is left open. -/
theorem ofSource_tiles_open_string :
    "é\u00a0\"\nb \u3000".utf8ByteSize < UInt32.size ∧
      (TokenStream.ofSource "é\u00a0\"\nb \u3000").TilesSource "é\u00a0\"\nb \u3000" ∧
      (TokenStream.ofSource "é\u00a0\"\nb \u3000").toList =
        [⟨"é", .unknown, ⟨0, 2⟩⟩, ⟨"\"\nb", .string, ⟨4, 7⟩⟩, ⟨"", .eof, ⟨11, 11⟩⟩] := by
  have hsize : "é\u00a0\"\nb \u3000".utf8ByteSize < UInt32.size := by decide
  exact ⟨hsize, ofSource_tiles _ hsize, by cbv⟩

end Flame
