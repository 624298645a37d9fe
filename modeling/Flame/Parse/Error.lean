import Flame.Text.Decimal
import Flame.Token.Kind
import Flame.Token.Span

/-!
Why reading tokens can fail, and how the failures are worded.
-/

namespace Flame

/-- Why a cursor could not move or read. -/
inductive CursorError
  /-- The token `offset` places away from `position` does not exist. -/
  | exhausted (position : Nat) (offset : Int)
  /-- A token of one kind was required, and another was taken. -/
  | unexpected (expected found : Kind) (span : Span)
  deriving DecidableEq

/-- Why tokens are not a program. -/
inductive ParseError
  | cursor (cause : CursorError)
  /-- No statement starts with this token. -/
  | noStatement (found : Kind) (span : Span)
  /-- No expression starts with this token. -/
  | noExpression (found : Kind) (span : Span)
  /-- The number is not a 64-bit integer. -/
  | badInteger (lexeme : String) (span : Span)
  deriving DecidableEq

def CursorError.message : CursorError → String
  | exhausted position offset =>
    "reached end of input (offset " ++ Text.writeInt offset ++ " from position " ++
      position.repr ++ ")"
  | unexpected expected found _ =>
    "expected " ++ expected.describe ++ " but found " ++ found.describe

namespace ParseError

def message : ParseError → String
  | cursor cause => cause.message
  | noStatement found _ => "unrecognized statement starting with " ++ found.describe
  | noExpression found _ => "unrecognized expression syntax starting with " ++ found.describe
  | badInteger lexeme _ => "`" ++ lexeme ++ "` is not a valid integer literal"

/-- Where the offending token stands, if there is one. -/
def span? : ParseError → Option Span
  | cursor (.exhausted ..) => none
  | cursor (.unexpected _ _ span) => some span
  | noStatement _ span => some span
  | noExpression _ span => some span
  | badInteger _ span => some span

end ParseError

end Flame
