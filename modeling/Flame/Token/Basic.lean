import Flame.Token.Kind
import Flame.Token.Span

/-!
Tokens, and streams of them that end in one sentinel.
-/

namespace Flame

/-- A piece of source text, what it is, and where it stands. -/
structure Token where
  lexeme : String
  kind : Kind
  span : Span
  deriving DecidableEq

/-- The sentinel at the end of a stream. -/
def Token.sentinel (offset : UInt32) : Token := ⟨"", .eof, .point offset⟩

/-- The tokens of one source text. The sentinel is not kept: it is the one token of kind `eof`,
and stands last, at the offset `eof`. -/
structure TokenStream where
  body : List Token
  eof : UInt32
  body_ne_eof : ∀ t ∈ body, t.kind ≠ .eof

namespace TokenStream

/-- A stream of the given tokens. Sentinels among them are dropped. -/
def ofTokens (tokens : List Token) (eof : UInt32) : TokenStream where
  body := tokens.filter (·.kind ≠ .eof)
  eof
  body_ne_eof := by simp

/-- Every token of a stream, the sentinel last. -/
def toList (ts : TokenStream) : List Token := ts.body ++ [.sentinel ts.eof]

/-- The number of tokens, with the sentinel. -/
def size (ts : TokenStream) : Nat := ts.toList.length

@[simp] theorem size_eq (ts : TokenStream) : ts.size = ts.body.length + 1 := by
  simp [size, toList]

def kinds (ts : TokenStream) : List Kind := ts.toList.map (·.kind)

end TokenStream

end Flame
