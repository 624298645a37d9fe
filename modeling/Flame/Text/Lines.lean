/-!
Lines of an input that is given as bytes.

A line ends at a line feed, and a carriage return right before it does not count. What follows
the last line feed is a line too, unless it is empty.
-/

namespace Flame.Text

/-- The byte of a line feed. -/
def lineFeed : UInt8 := 10

/-- The byte of a carriage return. -/
def carriageReturn : UInt8 := 13

/-- The pieces of an input between its line feeds: one more than there are line feeds. -/
def pieces : List UInt8 → List (List UInt8)
  | [] => [[]]
  | b :: bs =>
    if b = lineFeed then [] :: pieces bs
    else match pieces bs with
      | [] => [[b]]
      | p :: ps => (b :: p) :: ps

theorem pieces_ne_nil (bytes : List UInt8) : pieces bytes ≠ [] := by
  cases bytes with
  | nil => simp [pieces]
  | cons b bs =>
    simp only [pieces]
    split
    · simp
    · split <;> simp

/-- A line without a carriage return at its end. -/
def dropReturn (line : List UInt8) : List UInt8 :=
  if line.getLast? = some carriageReturn then line.dropLast else line

/-- The lines of an input, each without its ending. -/
def lines (bytes : List UInt8) : List (List UInt8) :=
  let ended := (pieces bytes).dropLast.map dropReturn
  match (pieces bytes).getLast? with
  | some (b :: bs) => ended ++ [b :: bs]
  | _ => ended

/-- The text that bytes stand for, if they are well-formed UTF-8. -/
def decode? (bytes : List UInt8) : Option String :=
  String.fromUTF8? ⟨bytes.toArray⟩

end Flame.Text
