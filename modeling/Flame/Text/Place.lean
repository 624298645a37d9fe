/-!
Byte offsets into a text, and the line and column that an offset stands for.

Offsets count the bytes of the UTF-8 form. Lines end at a line feed; columns count characters;
both start at one.
-/

namespace Flame.Text

/-- The number of bytes of a text. -/
def byteSize (cs : List Char) : Nat := cs.foldr (fun c n => c.utf8Size + n) 0

@[simp] theorem byteSize_nil : byteSize [] = 0 := rfl

@[simp] theorem byteSize_cons (c : Char) (cs : List Char) :
    byteSize (c :: cs) = c.utf8Size + byteSize cs := rfl

@[simp] theorem byteSize_append (u v : List Char) :
    byteSize (u ++ v) = byteSize u + byteSize v := by
  induction u with
  | nil => simp
  | cons c u ih => simp [ih, Nat.add_assoc]

/-- The first characters of a text that fill `n` bytes: the whole text if it has no more than
that, and nothing if the offset falls inside a character. -/
def bytesBefore? : Nat → List Char → Option (List Char)
  | 0, _ => some []
  | _ + 1, [] => some []
  | n + 1, c :: cs =>
    if c.utf8Size ≤ n + 1 then (bytesBefore? (n + 1 - c.utf8Size) cs).map (c :: ·) else none

/-- An offset at the end of a prefix gives that prefix back. -/
theorem bytesBefore?_append (u v : List Char) : bytesBefore? (byteSize u) (u ++ v) = some u := by
  induction u with
  | nil => simp [bytesBefore?]
  | cons c u ih =>
    have hc := c.utf8Size_pos
    obtain ⟨n, hn⟩ : ∃ n, c.utf8Size + byteSize u = n + 1 :=
      ⟨c.utf8Size + byteSize u - 1, by omega⟩
    rw [byteSize_cons, hn, List.cons_append, bytesBefore?, if_pos (by omega)]
    rw [show n + 1 - c.utf8Size = byteSize u by omega, ih]
    rfl

/-- A line and a column, counted from one. -/
structure Place where
  line : Nat
  column : Nat
  deriving DecidableEq

/-- The place right after a text. -/
def Place.after (before : List Char) : Place where
  line := before.count '\n' + 1
  column := (before.reverse.takeWhile (· ≠ '\n')).length + 1

/-- The place of a byte offset in a text. An offset beyond the text, or inside one of its
characters, stands for the end of the text. -/
def Place.ofOffset (offset : Nat) (text : String) : Place :=
  .after ((bytesBefore? offset text.toList).getD text.toList)

end Flame.Text
