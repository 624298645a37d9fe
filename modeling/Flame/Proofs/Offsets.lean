import Flame.Proofs.Places
import Flame.Proofs.Tiling
import Mathlib.Data.Prod.Lex

/-!
Places grow with offsets.

Between two offsets that fall between characters stand the characters from the one to the other. If
a line feed is among them, the later offset is on a later line; if none is, it is on the same line
and that many columns further on. So the order of offsets is that of their places, a line before its
columns. An offset at the end of the text or beyond it stands for the end.
-/

namespace Flame

namespace Text

/-- Places in the order of reading: by line, and by column where the line is the same. -/
def Place.key (p : Place) : ℕ ×ₗ ℕ := toLex (p.line, p.column)

lemma Place.key_lt_iff {p q : Place} :
    p.key < q.key ↔ p.line < q.line ∨ p.line = q.line ∧ p.column < q.column :=
  Prod.Lex.toLex_lt_toLex

/-- Characters other than a line feed move the place along its line. -/
lemma Place.after_append_of_not_mem (u : List Char) {w : List Char} (hw : '\n' ∉ w) :
    Place.after (u ++ w) = ⟨(Place.after u).line, (Place.after u).column + w.length⟩ := by
  obtain ⟨ls, last, rfl, hls, hlast⟩ := exists_endedLines u
  have hmem : '\n' ∉ last ++ w := by simp [hlast, hw]
  rw [List.append_assoc, Place.after_endedLines hls hmem, Place.after_endedLines hls hlast,
    List.length_append, Nat.add_right_comm]

lemma Place.line_after_lt (u : List Char) {w : List Char} (hw : '\n' ∈ w) :
    (Place.after u).line < (Place.after (u ++ w)).line := by
  have hpos := List.count_pos_iff.2 hw
  simp only [Place.after, List.count_append]
  omega

/-- More text has a later place after it. -/
lemma Place.key_after_lt (u : List Char) {w : List Char} (hw : w ≠ []) :
    (Place.after u).key < (Place.after (u ++ w)).key := by
  rw [Place.key_lt_iff]
  by_cases hmem : '\n' ∈ w
  · exact .inl (Place.line_after_lt u hmem)
  · have hpos := List.length_pos_iff.2 hw
    rw [Place.after_append_of_not_mem u hmem]
    exact .inr ⟨rfl, by dsimp only; omega⟩

/-- The lines above a place, and the characters before it on its own line, are told by it. -/
lemma Place.after_eq_iff (u : List Char) (p : Place) :
    Place.after u = p ↔ ∃ ls last, u = endedLines ls ++ last ∧ (∀ l ∈ ls, '\n' ∉ l) ∧
      '\n' ∉ last ∧ p = ⟨ls.length + 1, last.length + 1⟩ := by
  constructor
  · rintro rfl
    obtain ⟨ls, last, rfl, hls, hlast⟩ := exists_endedLines u
    exact ⟨ls, last, rfl, hls, hlast, Place.after_endedLines hls hlast⟩
  · rintro ⟨ls, last, rfl, hls, hlast, rfl⟩
    exact Place.after_endedLines hls hlast

lemma bytesBefore?_of_le {n : Nat} {cs : List Char} (h : byteSize cs ≤ n) :
    bytesBefore? n cs = some cs := by
  induction cs generalizing n with
  | nil => cases n <;> rfl
  | cons c cs ih =>
    rw [byteSize_cons] at h
    have hpos := c.utf8Size_pos
    cases n with
    | zero => omega
    | succ n =>
      rw [bytesBefore?, if_pos (by omega), ih (by omega)]
      rfl

/-- An offset at the end of the text, or beyond it, has the place after the text. -/
lemma Place.ofOffset_of_le {n : Nat} {text : String} (h : text.utf8ByteSize ≤ n) :
    Place.ofOffset n text = .after text.toList := by
  rw [Place.ofOffset, bytesBefore?_of_le (by rwa [byteSize_toList]), Option.getD_some]

lemma Place.ofOffset_append (before rest : String) :
    Place.ofOffset before.utf8ByteSize (before ++ rest) = .after before.toList := by
  rw [Place.ofOffset, String.toList_append, ← byteSize_toList, bytesBefore?_append,
    Option.getD_some]

end Text

/-- The start of a span in a source text falls between two of its characters, or at one of its
ends. -/
def Span.StartsInside (s : Span) (source : String) : Prop :=
  String.Pos.Raw.IsValid source ⟨s.start.toNat⟩

namespace Span

variable {source : String} {s t : Span}

lemma StartsInside.exists_append (h : s.StartsInside source) :
    ∃ before rest, source = before ++ rest ∧ s.start.toNat = before.utf8ByteSize := by
  obtain ⟨before, rest, hsource, hstart⟩ := String.Pos.Raw.isValid_iff_exists_append.1 h
  exact ⟨before, rest, hsource, congrArg String.Pos.Raw.byteIdx hstart⟩

lemma place_append {before rest : String} (hstart : s.start.toNat = before.utf8ByteSize) :
    s.place (before ++ rest) = .after before.toList := by
  rw [place, hstart, Text.Place.ofOffset_append]

/-- A span that starts later starts at a later place. -/
lemma StartsInside.key_place_lt (hs : s.StartsInside source) (ht : t.StartsInside source)
    (hlt : s.start < t.start) : (s.place source).key < (t.place source).key := by
  obtain ⟨u, v, rfl, hu⟩ := hs.exists_append
  obtain ⟨u', v', hsource, hu'⟩ := ht.exists_append
  rw [UInt32.lt_iff_toNat_lt, hu, hu', ← Text.byteSize_toList, ← Text.byteSize_toList] at hlt
  have hplace : t.place (u ++ v) = .after u'.toList := by
    rw [hsource, place_append hu']
  have hchars : u.toList ++ v.toList = u'.toList ++ v'.toList := by
    rw [← String.toList_append, hsource, String.toList_append]
  rw [place_append hu, hplace]
  rcases List.append_eq_append_iff.1 hchars with ⟨w, hw, -⟩ | ⟨w, hw, -⟩
  · rw [hw, Text.byteSize_append] at hlt
    rw [hw]
    refine Text.Place.key_after_lt u.toList ?_
    rintro rfl
    exact absurd hlt (by simp)
  · rw [hw, Text.byteSize_append] at hlt
    omega

/-- **Offsets and places.** Among the spans that start between two characters of a source text, or
at one of its ends, one that starts later starts at a later place, by line and then by column; so
the place tells the offset. The line and the column are those of a reader: what comes before the
offset is as many lines, each ended by a line feed, as are above, and then as many characters on the
last line as are to the left. Offsets beyond the end have the place of the end. -/
theorem place_follows_offset (source : String) :
    (∀ s t : Span, s.StartsInside source → t.StartsInside source → s.start < t.start →
      (s.place source).key < (t.place source).key) ∧
    (∀ s t : Span, s.StartsInside source → t.StartsInside source →
      s.place source = t.place source → s.start = t.start) ∧
    (∀ (s : Span) (before rest : String), source = before ++ rest →
      s.start.toNat = before.utf8ByteSize → ∀ line column,
        s.place source = ⟨line, column⟩ ↔
          ∃ lines last, before.toList = Text.endedLines lines ++ last ∧
            (∀ l ∈ lines, '\n' ∉ l) ∧ '\n' ∉ last ∧
            line = lines.length + 1 ∧ column = last.length + 1) ∧
    ∀ s : Span, source.utf8ByteSize ≤ s.start.toNat →
      s.place source = .ofOffset source.utf8ByteSize source := by
  refine ⟨fun s t => StartsInside.key_place_lt, fun s t hs ht hplace => ?_, ?_, fun s hs => ?_⟩
  · rcases lt_trichotomy s.start.toNat t.start.toNat with hlt | heq | hgt
    · have hkey := hs.key_place_lt ht (UInt32.lt_iff_toNat_lt.2 hlt)
      rw [hplace] at hkey
      exact absurd hkey (lt_irrefl _)
    · exact UInt32.toNat_inj.1 heq
    · have hkey := ht.key_place_lt hs (UInt32.lt_iff_toNat_lt.2 hgt)
      rw [hplace] at hkey
      exact absurd hkey (lt_irrefl _)
  · rintro s before rest rfl hstart line column
    rw [place_append hstart, Text.Place.after_eq_iff]
    simp only [Text.Place.mk.injEq]
  · rw [place, Text.Place.ofOffset_of_le hs, Text.Place.ofOffset_of_le le_rfl]

/-- Right before a line feed, and after a character of two bytes on the line below. -/
theorem place_follows_offset_two_bytes :
    let source := "a\né"
    let s := Span.point 1
    let t := Span.point 4
    s.StartsInside source ∧ t.StartsInside source ∧ s.start < t.start ∧
      (s.place source).key < (t.place source).key ∧ t.place source = ⟨2, 2⟩ ∧
      (Span.point 9).place source = .ofOffset 4 source := by
  intro source s t
  have hs : s.StartsInside source :=
    String.Pos.Raw.isValid_iff_exists_append.2 ⟨"a", "\né", by decide, by decide⟩
  have ht : t.StartsInside source :=
    String.Pos.Raw.isValid_iff_exists_append.2 ⟨"a\né", "", by decide, by decide⟩
  have hlt : s.start < t.start := by decide
  obtain ⟨hkey, -, hplace, hbeyond⟩ := place_follows_offset source
  refine ⟨hs, ht, hlt, hkey s t hs ht hlt, ?_, hbeyond (.point 9) (by decide)⟩
  exact (hplace t "a\né" "" (by decide) (by decide) 2 2).2
    ⟨[['a']], ['é'], by decide, by decide, by decide, rfl, rfl⟩

end Span

end Flame
