import Flame.Parse.Error
import Flame.Token.Basic

/-!
A movable position in a token stream.

The tokens passed and the tokens to come are kept apart, so a step forward and a look at the next
token touch only what is near. The sentinel is current when no token is to come; it can be looked
at, and never be passed.
-/

namespace Flame

/-- A position between the tokens behind, nearest first, and the tokens ahead. -/
structure Cursor where
  behind : List Token
  ahead : List Token
  eof : UInt32

namespace Cursor

/-- The position before the first token of a stream. -/
def start (ts : TokenStream) : Cursor := ⟨[], ts.body, ts.eof⟩

/-- The number of tokens behind. -/
def position (c : Cursor) : Nat := c.behind.length

/-- The number of tokens ahead, the sentinel not counted. -/
def left (c : Cursor) : Nat := c.ahead.length

/-- All tokens of the stream but the sentinel. -/
def body (c : Cursor) : List Token := c.behind.reverse ++ c.ahead

def sentinel (c : Cursor) : Token := .sentinel c.eof

/-- The token at the position. -/
def current (c : Cursor) : Token :=
  match c.ahead with
  | [] => c.sentinel
  | t :: _ => t

def kind (c : Cursor) : Kind := c.current.kind

/-- The kind of the token after the current one. -/
def nextKind (c : Cursor) : Kind :=
  match c.ahead with
  | _ :: t :: _ => t.kind
  | _ => .eof

/-- Whether the current token is of a kind. -/
def check (c : Cursor) (kind : Kind) : Bool := c.kind == kind

/-- Whether the current token is the sentinel. -/
def atEnd (c : Cursor) : Bool := c.check .eof

/-- The token some places further on, or back if the offset is negative. -/
def token? (c : Cursor) : Int → Option Token
  | .ofNat n =>
    match c.ahead.drop n with
    | t :: _ => some t
    | [] => if n = c.ahead.length then some c.sentinel else none
  | .negSucc n => c.behind[n]?

/-- The cursor some places further on, or back if the offset is negative. -/
def shift (c : Cursor) : Int → Cursor
  | .ofNat n => { c with behind := (c.ahead.take n).reverse ++ c.behind, ahead := c.ahead.drop n }
  | .negSucc n =>
    { c with
      behind := c.behind.drop (n + 1)
      ahead := (c.behind.take (n + 1)).reverse ++ c.ahead }

/-- Looks at the token at an offset. -/
def peek (c : Cursor) (offset : Int) : Except CursorError Token :=
  match c.token? offset with
  | some t => .ok t
  | none => .error (.exhausted c.position offset)

/-- Moves by an offset and gives the token there. A move out of the stream is refused and changes
nothing. -/
def seek (c : Cursor) (offset : Int) : Except CursorError Token × Cursor :=
  match c.token? offset with
  | some t => (.ok t, c.shift offset)
  | none => (.error (.exhausted c.position offset), c)

/-- Takes the current token. The sentinel cannot be taken. -/
def advance (c : Cursor) : Except CursorError Token × Cursor :=
  match c.ahead with
  | t :: rest => (.ok t, { c with behind := t :: c.behind, ahead := rest })
  | [] => (.error (.exhausted c.position 1), c)

/-- Takes the current token, which must be of a kind. A token of another kind is taken too. -/
def expect (c : Cursor) (kind : Kind) : Except CursorError Token × Cursor :=
  match c.advance with
  | (.ok t, c') => (if t.kind = kind then .ok t else .error (.unexpected kind t.kind t.span), c')
  | (.error e, c') => (.error e, c')

/-- Takes the current token if it is of a kind and not the sentinel. -/
def expect? (c : Cursor) (kind : Kind) : Option Token × Cursor :=
  match c.ahead with
  | t :: rest =>
    if t.kind = kind then (some t, { c with behind := t :: c.behind, ahead := rest }) else (none, c)
  | [] => (none, c)

end Cursor

end Flame
