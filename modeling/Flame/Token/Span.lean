import Flame.Text.Place

/-!
Spans: byte ranges in a source text, with 32-bit ends.
-/

namespace Flame

/-- The bytes from `start` up to, but not including, `stop`. -/
structure Span where
  start : UInt32
  stop : UInt32
  deriving DecidableEq

namespace Span

/-- An offset in 32 bits: one that does not fit becomes the greatest that does. -/
def clamp (n : Nat) : UInt32 := if n < UInt32.size then UInt32.ofNat n else 4294967295

theorem toNat_clamp_of_lt {n : Nat} (h : n < UInt32.size) : (clamp n).toNat = n := by
  rw [clamp, if_pos h, UInt32.toNat_ofNat']
  exact Nat.mod_eq_of_lt h

/-- The span of a byte range. -/
def ofRange (start stop : Nat) : Span := ⟨clamp start, clamp stop⟩

/-- The empty span at an offset. -/
def point (offset : UInt32) : Span := ⟨offset, offset⟩

/-- The number of bytes in a span, if it does not end before it starts. -/
def length? (s : Span) : Option UInt32 :=
  if s.start ≤ s.stop then some (s.stop - s.start) else none

def isEmpty (s : Span) : Bool := s.start == s.stop

/-- A span as text: its two ends with two dots between them. -/
def render (s : Span) : String := s.start.toNat.repr ++ ".." ++ s.stop.toNat.repr

/-- The line and column where a span starts in its source text. -/
def place (s : Span) (source : String) : Text.Place := .ofOffset s.start.toNat source

end Span

end Flame
