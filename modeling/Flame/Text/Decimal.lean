/-!
Signed 64-bit numbers as decimal text.
-/

namespace Flame.Text

/-- The number that a run of decimal digits stands for. -/
def natOfDigits (ds : List Char) : Nat :=
  ds.foldl (fun n d => 10 * n + (d.toNat - '0'.toNat)) 0

/-- The natural number written by at least one decimal digit and nothing else. -/
def readNat? (ds : List Char) : Option Nat :=
  if ds ≠ [] ∧ ds.all Char.isDigit then some (natOfDigits ds) else none

/-- An integer as a signed 64-bit number, if it is in range. -/
def int64OfInt? (n : Int) : Option Int64 :=
  if Int64.minValue.toInt ≤ n ∧ n ≤ Int64.maxValue.toInt then some (Int64.ofInt n) else none

/-- The signed 64-bit number that a text stands for: at most one sign, then decimal digits and
nothing else, with a value in range. -/
def readInt64? : List Char → Option Int64
  | '-' :: ds => (readNat? ds).bind fun n => int64OfInt? (-n)
  | '+' :: ds => (readNat? ds).bind fun n => int64OfInt? n
  | ds => (readNat? ds).bind fun n => int64OfInt? n

/-- The decimal text of a number: its shortest digits, after a minus sign if it is negative. -/
def writeInt (n : Int) : String :=
  if n < 0 then "-" ++ n.natAbs.repr else n.natAbs.repr

/-- The decimal text of a signed 64-bit number. -/
def writeInt64 (n : Int64) : String := writeInt n.toInt

end Flame.Text
