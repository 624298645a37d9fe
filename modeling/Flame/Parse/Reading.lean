import Flame.Event
import Flame.Parse.Cursor

/-!
What comes of reading tokens: the events noted on the way, and a result or an error.

Readers take a cursor and give the cursor after what they read. The types say that less, or at
least not more, is left after than before; this is what lets readers call each other.
-/

namespace Flame

/-- Events in the order in which they were noted, and how the reading ended. -/
structure Reading (α : Type) where
  events : List Event
  result : Except ParseError α

namespace Reading

@[inline] protected def pure {α : Type} (a : α) : Reading α := ⟨[], .ok a⟩

/-- The second reading happens only if the first succeeds. Its events follow. -/
@[inline] protected def bind {α β : Type} (x : Reading α) (f : α → Reading β) : Reading β :=
  match x with
  | ⟨events, .ok a⟩ =>
    let y := f a
    ⟨events ++ y.events, y.result⟩
  | ⟨events, .error e⟩ => ⟨events, .error e⟩

instance : Monad Reading where
  pure := Reading.pure
  bind := Reading.bind

/-- The reading that fails at once. -/
def fail {α : Type} (e : ParseError) : Reading α := ⟨[], .error e⟩

/-- The reading that only notes an event. -/
def note (event : Event) : Reading Unit := ⟨[event], .ok ()⟩

@[simp] theorem result_pure {α : Type} (a : α) : (pure a : Reading α).result = .ok a := rfl

@[simp] theorem result_fail {α : Type} (e : ParseError) :
    (fail e : Reading α).result = .error e := rfl

@[simp] theorem result_note (event : Event) : (note event).result = .ok () := rfl

/-- How a reading ends does not depend on the events. -/
@[simp] theorem result_bind {α β : Type} (x : Reading α) (f : α → Reading β) :
    (x >>= f).result = x.result.bind fun a => (f a).result := by
  obtain ⟨events, e | a⟩ := x <;> rfl

end Reading

/-- A value read, and a cursor with at most `n` tokens left. -/
structure Upto (α : Type) (n : Nat) where
  value : α
  rest : Cursor
  fits : rest.left ≤ n

/-- A value read, and a cursor with fewer than `n` tokens left. -/
structure Below (α : Type) (n : Nat) where
  value : α
  rest : Cursor
  fits : rest.left < n

namespace Cursor

theorem left_lt_of_advance {c c' : Cursor} {t : Token} (h : c.advance = (.ok t, c')) :
    c'.left < c.left := by
  unfold advance at h
  split at h
  · rename_i rest hc
    obtain ⟨_, rfl⟩ := Prod.mk.inj h
    simp [left, hc]
  · simp at h

theorem left_lt_of_expect {c c' : Cursor} {kind : Kind} {t : Token}
    (h : c.expect kind = (.ok t, c')) : c'.left < c.left := by
  unfold expect at h
  split at h
  · rename_i t' c'' ha
    obtain ⟨_, rfl⟩ := Prod.mk.inj h
    exact left_lt_of_advance ha
  · simp at h

theorem left_lt_of_expect? {c c' : Cursor} {kind : Kind} {t : Token}
    (h : c.expect? kind = (some t, c')) : c'.left < c.left := by
  unfold expect? at h
  split at h
  · rename_i rest hc
    split at h
    · obtain ⟨_, rfl⟩ := Prod.mk.inj h
      simp [left, hc]
    · simp at h
  · simp at h

/-- Reads the current token, whatever it is. -/
def take (c : Cursor) : Reading (Below Token c.left) :=
  match h : c.advance with
  | (.ok t, rest) => pure ⟨t, rest, left_lt_of_advance h⟩
  | (.error e, _) => .fail (.cursor e)

/-- Reads the current token, which must be of a kind, and notes it if it is not. -/
def require (c : Cursor) (kind : Kind) : Reading (Below Token c.left) :=
  match h : c.expect kind with
  | (.ok t, rest) => pure ⟨t, rest, left_lt_of_expect h⟩
  | (.error (.unexpected expected found span), rest) => do
    Reading.note (.unexpectedToken expected found rest.position)
    .fail (.cursor (.unexpected expected found span))
  | (.error e, _) => .fail (.cursor e)

/-- Reads the current token if it is of a kind. -/
def accept? (c : Cursor) (kind : Kind) : Option (Below Token c.left) :=
  match h : c.expect? kind with
  | (some t, rest) => some ⟨t, rest, left_lt_of_expect? h⟩
  | (none, _) => none

end Cursor

end Flame
