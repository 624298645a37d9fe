import Flame.Text.Quoted
import Flame.Token.Scan

/-!
The token dump: one line for each token of a source text.
-/

namespace Flame

/-- A token's line: its kind, its group, its span and its quoted lexeme. -/
def Token.dumpLine (t : Token) : String :=
  t.kind.label ++ " (" ++ t.kind.category.label ++ ") @ " ++ t.span.render ++ " " ++
    Text.quoted t.lexeme ++ "\n"

/-- The lines of all tokens, the sentinel last. -/
def TokenStream.dump (ts : TokenStream) : String :=
  String.join (ts.toList.map Token.dumpLine)

end Flame
