import Flame.Proofs.Outlines
import Flame.Token.Dump

/-!
Token dumps read back.

Every token has a line of its own, and the line says all there is to say of the token. Its parts
are set off by spaces, which no label and no span holds. The lexeme stands last, in quoted form:
there no character can be mistaken for another, since the first characters of each form tell which
one it is, and no line feed is left. It does not matter which characters are written by their
numbers.
-/

namespace Flame

namespace Text

/-- A character as it stands inside a quoted text, if the characters in `hidden` are written by
their numbers. -/
def quoteCharBy (hidden : Char → Bool) (c : Char) : List Char :=
  if c = '"' ∨ c = '\\' then ['\\', c]
  else if c = '\x00' then ['\\', '0']
  else if c = '\t' then ['\\', 't']
  else if c = '\r' then ['\\', 'r']
  else if c = '\n' then ['\\', 'n']
  else if hidden c then byNumber c
  else [c]

/-- A text in quoted form, if the characters in `hidden` are written by their numbers. -/
def quotedBy (hidden : Char → Bool) (s : String) : List Char :=
  '"' :: (s.toList.flatMap (quoteCharBy hidden) ++ ['"'])

/-- The number that a hexadecimal digit stands for. -/
def natOfHexDigit (d : Char) : Nat :=
  if d.isDigit then d.toNat - '0'.toNat else d.toNat - 'a'.toNat + 10

/-- The number that hexadecimal digits stand for. -/
def natOfHexDigits (ds : List Char) : Nat := ds.foldl (fun n d => 16 * n + natOfHexDigit d) 0

/-- The character that a quoted text starts with. -/
def firstQuoted : List Char → Option Char
  | '\\' :: '0' :: _ => some '\x00'
  | '\\' :: 't' :: _ => some '\t'
  | '\\' :: 'r' :: _ => some '\r'
  | '\\' :: 'n' :: _ => some '\n'
  | '\\' :: 'u' :: '\x7b' :: r => some (Char.ofNat (natOfHexDigits (r.takeWhile Char.isAlphanum)))
  | '\\' :: c :: _ => some c
  | c :: _ => some c
  | [] => none

end Text

/-- The line of a token in a dump, if the characters in `hidden` are written by their numbers. -/
def Token.dumpTextBy (hidden : Char → Bool) (t : Token) : List Char :=
  (t.kind.label ++ " (" ++ t.kind.category.label ++ ") @ " ++ t.span.render ++ " ").toList ++
    Text.quotedBy hidden t.lexeme

/-- The lines of all tokens, each with a line feed after it. -/
def TokenStream.dumpBy (hidden : Char → Bool) (ts : TokenStream) : String :=
  String.ofList (Text.endedLines (ts.toList.map (Token.dumpTextBy hidden)))

/-! ### Quoted texts -/

namespace Text

lemma hexDigit_cases {c : Char} {n : Nat} (h : c ∈ Nat.toDigits 16 n) :
    ∃ k < 16, c = Nat.digitChar k := by
  induction n using Nat.strongRecOn with
  | ind n ih =>
    rw [Nat.toDigits_eq_if (by decide)] at h
    split at h
    · next hlt => exact ⟨n, hlt, List.mem_singleton.1 h⟩
    · next hge =>
      rcases List.mem_append.1 h with h | h
      · exact ih (n / 16) (by omega) h
      · exact ⟨n % 16, by omega, List.mem_singleton.1 h⟩

lemma isAlphanum_of_mem_hexDigits {c : Char} {n : Nat} (h : c ∈ Nat.toDigits 16 n) :
    c.isAlphanum := by
  obtain ⟨k, hk, rfl⟩ := hexDigit_cases h
  have hall : ∀ k < 16, (Nat.digitChar k).isAlphanum := by decide
  exact hall k hk

lemma natOfHexDigits_concat (ds : List Char) {k : Nat} (hk : k < 16) :
    natOfHexDigits (ds ++ [Nat.digitChar k]) = 16 * natOfHexDigits ds + k := by
  rw [natOfHexDigits, List.foldl_append, List.foldl_cons, List.foldl_nil, ← natOfHexDigits]
  congr 1
  revert k
  decide

/-- Hexadecimal digits read back. -/
lemma natOfHexDigits_toDigits (n : Nat) : natOfHexDigits (Nat.toDigits 16 n) = n := by
  induction n using Nat.strongRecOn with
  | ind n ih =>
    rw [Nat.toDigits_eq_if (by decide)]
    split
    · next hlt => exact (natOfHexDigits_concat [] hlt).trans (Nat.zero_add n)
    · next hge =>
      rw [natOfHexDigits_concat _ (Nat.mod_lt n (by decide)), ih (n / 16) (by omega),
        Nat.div_add_mod]

variable {hidden : Char → Bool}

/-- A number in braces reads back. -/
lemma firstQuoted_byNumber (c : Char) (r : List Char) :
    firstQuoted (byNumber c ++ r) = some c := by
  have hdigits : ((Nat.toDigits 16 c.toNat ++ '\x7d' :: r).takeWhile Char.isAlphanum) =
      Nat.toDigits 16 c.toNat :=
    takeWhile_run (fun _ => isAlphanum_of_mem_hexDigits) (head_fails rfl)
  rw [byNumber, List.cons_append, List.cons_append, List.cons_append, List.append_assoc,
    List.singleton_append, firstQuoted, hdigits, natOfHexDigits_toDigits, Char.ofNat_toNat]

/-- The form of a character tells the character, whatever stands after it. -/
lemma firstQuoted_quoteCharBy (c : Char) (r : List Char) :
    firstQuoted (quoteCharBy hidden c ++ r) = some c := by
  unfold quoteCharBy
  split_ifs with hmark hnull htab hreturn hfeed hhidden
  · rcases hmark with rfl | rfl <;> rfl
  · rw [hnull]; rfl
  · rw [htab]; rfl
  · rw [hreturn]; rfl
  · rw [hfeed]; rfl
  · exact firstQuoted_byNumber c r
  · rw [not_or] at hmark
    unfold firstQuoted
    grind

/-- No form holds a line feed. -/
lemma lineFeed_notMem_quoteCharBy (c : Char) : '\n' ∉ quoteCharBy hidden c := by
  unfold quoteCharBy
  split_ifs with hmark hnull htab hreturn hfeed hhidden
  · rcases hmark with rfl | rfl <;> decide
  · decide
  · decide
  · decide
  · decide
  · intro hmem
    simp only [byNumber, List.mem_cons, List.mem_append, List.not_mem_nil, or_false] at hmem
    rcases hmem with h | h | h | h | h
    · cases h
    · cases h
    · cases h
    · exact absurd (isAlphanum_of_mem_hexDigits h) (by decide)
    · cases h
  · exact fun hmem => hfeed (List.mem_singleton.1 hmem).symm

lemma flatMap_quoteCharBy_injective :
    Function.Injective (List.flatMap (quoteCharBy hidden)) := by
  -- A text with a character in it has a quoted form with a first character in it.
  have hcons : ∀ (c : Char) (cs : List Char), [] ≠ (c :: cs).flatMap (quoteCharBy hidden) := by
    intro c cs hnil
    have hfirst : firstQuoted (quoteCharBy hidden c ++ cs.flatMap (quoteCharBy hidden)) = some c :=
      firstQuoted_quoteCharBy c _
    rw [← List.flatMap_cons, ← hnil] at hfirst
    cases hfirst
  intro cs
  induction cs with
  | nil =>
    intro ds h
    cases ds with
    | nil => rfl
    | cons d ds => exact absurd h (hcons d ds)
  | cons c cs ih =>
    intro ds h
    cases ds with
    | nil => exact absurd h.symm (hcons c cs)
    | cons d ds =>
      rw [List.flatMap_cons, List.flatMap_cons] at h
      have hfirst := congrArg firstQuoted h
      rw [firstQuoted_quoteCharBy, firstQuoted_quoteCharBy] at hfirst
      obtain rfl := Option.some.inj hfirst
      rw [ih (List.append_cancel_left h)]

/-- Two texts with one quoted form are the same. -/
lemma quotedBy_injective : Function.Injective (quotedBy hidden) := by
  intro s s' h
  have hinner := List.append_cancel_right (List.cons.inj h).2
  exact String.toList_inj.1 (flatMap_quoteCharBy_injective hinner)

lemma lineFeed_notMem_quotedBy (s : String) : '\n' ∉ quotedBy hidden s := by
  intro hmem
  simp only [quotedBy, List.mem_cons, List.mem_append, List.mem_flatMap, List.not_mem_nil,
    or_false] at hmem
  rcases hmem with h | ⟨c, -, h⟩ | h
  · cases h
  · exact lineFeed_notMem_quoteCharBy c h
  · cases h

lemma quoted_eq_quotedBy (s : String) : (quoted s).toList = quotedBy isHidden s := by
  rw [quoted, String.toList_ofList, quotedBy]
  rfl

end Text

/-! ### Lines -/

/-- Two texts without a mark are the same if they stand before the first mark of one text. -/
lemma append_cons_inj {u u' r r' : List Char} {mark : Char} (hu : mark ∉ u) (hu' : mark ∉ u')
    (h : u ++ mark :: r = u' ++ mark :: r') : u = u' ∧ r = r' := by
  have hpass : ∀ {v : List Char}, mark ∉ v → ∀ c ∈ v, (c != mark) = true :=
    fun hv c hc => bne_iff_ne.2 fun heq => hv (heq ▸ hc)
  have hstop : (mark != mark) = false := bne_self_eq_false mark
  obtain ⟨hsame, hrest⟩ :=
    append_inj_of_run (hpass hu) (head_fails hstop) (hpass hu') (head_fails hstop) h
  exact ⟨hsame, (List.cons.inj hrest).2⟩

section

variable {hidden : Char → Bool}

lemma Kind.ofLabel?_label (k : Kind) : Kind.ofLabel? k.label = some k := by
  cases k with
  | keyword word => cases word <;> rfl
  | symbol mark => cases mark <;> rfl
  | operator op => cases op <;> rfl
  | _ => rfl

lemma Kind.isAlpha_of_mem_label {c : Char} {k : Kind} (h : c ∈ k.label.toList) : c.isAlpha := by
  have hall : k.label.toList.all Char.isAlpha := by
    cases k with
    | keyword word => cases word <;> rfl
    | symbol mark => cases mark <;> rfl
    | operator op => cases op <;> rfl
    | _ => rfl
  exact List.all_eq_true.1 hall c h

lemma Span.isDigit_or_of_mem_render {s : Span} {c : Char} (h : c ∈ s.render.toList) :
    c.isDigit ∨ c = '.' := by
  have hdots : "..".toList = ['.', '.'] := rfl
  rw [Span.render, String.toList_append, String.toList_append, List.mem_append, List.mem_append,
    Nat.toList_repr, Nat.toList_repr, hdots, List.mem_pair, or_self] at h
  rcases h with (h | h) | h
  · exact .inl (Nat.isDigit_of_mem_toDigits (by decide) (by decide) h)
  · exact .inr h
  · exact .inl (Nat.isDigit_of_mem_toDigits (by decide) (by decide) h)

lemma Span.space_notMem_render (s : Span) : ' ' ∉ s.render.toList := by
  intro h
  rcases isDigit_or_of_mem_render h with hdigit | hdot
  · cases hdigit
  · cases hdot

lemma Token.dumpTextBy_eq (t : Token) :
    t.dumpTextBy hidden = t.kind.label.toList ++
      ' ' :: ('(' :: (t.kind.category.label.toList ++
        ')' :: ' ' :: '@' :: ' ' :: (t.span.render.toList ++
          ' ' :: Text.quotedBy hidden t.lexeme))) := by
  simp [Token.dumpTextBy]

/-- A line tells all there is to say of its token. -/
lemma Token.dumpTextBy_injective : Function.Injective (Token.dumpTextBy hidden) := by
  have hlabel : ∀ k : Kind, ' ' ∉ k.label.toList := fun k h => by
    cases Kind.isAlpha_of_mem_label h
  rintro ⟨lexeme, kind, span⟩ ⟨lexeme', kind', span'⟩ h
  rw [dumpTextBy_eq, dumpTextBy_eq] at h
  obtain ⟨hkind, hrest⟩ := append_cons_inj (hlabel kind) (hlabel kind') h
  obtain rfl : kind = kind' := by
    rw [← Option.some_inj, ← Kind.ofLabel?_label, ← Kind.ofLabel?_label,
      String.toList_inj.1 hkind]
  -- The group of a kind is part of its line, but the kind has told it already.
  have hspans := List.append_cancel_left (List.cons.inj hrest).2
  simp only [List.cons.injEq, true_and] at hspans
  obtain ⟨hspan, hlexeme⟩ :=
    append_cons_inj span.space_notMem_render span'.space_notMem_render hspans
  obtain rfl := Span.render_inj (String.toList_inj.1 hspan)
  obtain rfl := Text.quotedBy_injective hlexeme
  rfl

lemma Token.lineFeed_notMem_dumpTextBy (t : Token) : '\n' ∉ t.dumpTextBy hidden := by
  have hcategory : '\n' ∉ t.kind.category.label.toList := by
    cases t.kind.category <;> decide
  intro h
  simp only [dumpTextBy_eq, List.mem_append, List.mem_cons, Char.reduceEq, false_or] at h
  rcases h with h | h | h | h
  · cases Kind.isAlpha_of_mem_label h
  · exact hcategory h
  · rcases Span.isDigit_or_of_mem_render h with h | h <;> cases h
  · exact Text.lineFeed_notMem_quotedBy t.lexeme h

lemma TokenStream.toList_dumpBy (ts : TokenStream) :
    (ts.dumpBy hidden).toList = Text.endedLines (ts.toList.map (Token.dumpTextBy hidden)) :=
  String.toList_ofList

lemma TokenStream.splitOn_dumpBy (ts : TokenStream) :
    (ts.dumpBy hidden).toList.splitOn '\n' = ts.toList.map (Token.dumpTextBy hidden) ++ [[]] := by
  have hlines : ∀ line ∈ ts.toList.map (Token.dumpTextBy hidden), '\n' ∉ line := by
    intro line hline
    obtain ⟨t, -, rfl⟩ := List.mem_map.1 hline
    exact t.lineFeed_notMem_dumpTextBy
  have hsplit := Text.splitOn_endedLines hlines []
  rwa [List.append_nil, ← toList_dumpBy] at hsplit

lemma TokenStream.dump_eq_dumpBy (ts : TokenStream) : ts.dump = ts.dumpBy Text.isHidden := by
  rw [← String.toList_inj, toList_dumpBy, dump, String.toList_join, Text.endedLines,
    List.flatMap_map, List.flatMap_map]
  refine congrArg List.flatten (List.map_congr_left fun t _ => ?_)
  rw [Token.dumpLine, String.toList_append, String.toList_append, Text.quoted_eq_quotedBy]
  rfl

end

/-- A **token dump** has one line for each token of the source, the sentinel included, and tells all
of them: two sources with one dump have the same tokens. This is so whichever characters are written
by their numbers. -/
theorem TokenStream.dump_determines_tokens (hidden : Char → Bool) (source : String) :
    (ofSource source).dump = (ofSource source).dumpBy Text.isHidden ∧
    ((ofSource source).dumpBy hidden).toList.splitOn '\n' =
      (ofSource source).toList.map (Token.dumpTextBy hidden) ++ [[]] ∧
    ∀ source', (ofSource source).dumpBy hidden = (ofSource source').dumpBy hidden ↔
      (ofSource source).toList = (ofSource source').toList := by
  refine ⟨dump_eq_dumpBy _, splitOn_dumpBy _, fun source' => ⟨fun h => ?_, fun h => ?_⟩⟩
  · have hlines := congrArg (fun s : String => s.toList.splitOn '\n') h
    simp only [splitOn_dumpBy, List.append_cancel_right_eq] at hlines
    exact List.map_injective_iff.2 Token.dumpTextBy_injective hlines
  · rw [dumpBy, dumpBy, h]

/-- A line feed in a string is not shown like a backslash and a letter. -/
theorem TokenStream.dump_determines_tokens_line_feed :
    (ofSource "\"\nn\"").dump ≠ (ofSource "\"\\n\"").dump := by
  obtain ⟨hdump, -, hsame⟩ := dump_determines_tokens Text.isHidden "\"\nn\""
  intro h
  rw [hdump, dump_eq_dumpBy, hsame] at h
  have htokens : (ofSource "\"\nn\"").toList =
      [⟨"\"\nn\"", .string, ⟨0, 4⟩⟩, .sentinel 4] := by cbv
  have htokens' : (ofSource "\"\\n\"").toList =
      [⟨"\"\\n\"", .string, ⟨0, 4⟩⟩, .sentinel 4] := by cbv
  rw [htokens, htokens'] at h
  exact absurd h (by decide)

end Flame
