import Flame.Text.Blank
import Flame.Token.Basic
import Flame.Token.Shape

/-!
Cutting a source text into tokens.

Blank characters are skipped. At any other character a lexeme starts, and takes as many of the
following characters as its first character allows. Scanning never fails: a character that starts
nothing known is a token of its own.
-/

namespace Flame

/-- The number of leading characters that pass a test. -/
def runLength (p : Char → Bool) (cs : List Char) : Nat := (cs.takeWhile p).length

/-- How many of the characters `cs` belong to the lexeme that starts with `c` right before
them. -/
def lexemeExtent (c : Char) (cs : List Char) : Nat :=
  if c.isAlpha then runLength Char.isAlphanum cs
  else if c = '"' then
    let n := runLength (· ≠ '"') cs
    if (cs.drop n).isEmpty then n else n + 1
  else if c.isDigit then
    let n := runLength Char.isDigit cs
    if (cs.drop n).head? = some '.' then n + 1 + runLength Char.isDigit (cs.drop (n + 1)) else n
  else if c = '.' then runLength Char.isDigit cs
  else if c = '-' ∧ cs.head? = some '>' ∨ c = ':' ∧ cs.head? = some ':' then 1
  else 0

/-- The token of a lexeme that starts at a byte offset. -/
def Token.ofLexeme (lexeme : List Char) (offset : Nat) : Token where
  lexeme := String.ofList lexeme
  kind := .ofLexeme (String.ofList lexeme)
  span := .ofRange offset (offset + Text.byteSize lexeme)

theorem Token.ofLexeme_ne_eof (lexeme : List Char) (offset : Nat) :
    (Token.ofLexeme lexeme offset).kind ≠ .eof :=
  Kind.ofLexeme_ne_eof (String.ofList lexeme)

/-- The tokens of a text that starts at a byte offset. A string that the text leaves open does
not keep the blank characters at its end. -/
def scan (offset : Nat) : List Char → List Token
  | [] => []
  | c :: cs =>
    if Text.isBlank c then scan (offset + c.utf8Size) cs
    else
      let lexeme := c :: cs.take (lexemeExtent c cs)
      .ofLexeme (Text.trimEnd lexeme) offset ::
        scan (offset + Text.byteSize lexeme) (cs.drop (lexemeExtent c cs))
termination_by cs => cs.length
decreasing_by
  · simp
  · simp only [List.length_drop, List.length_cons]
    omega

theorem ne_eof_of_mem_scan {t : Token} {offset : Nat} {cs : List Char} (h : t ∈ scan offset cs) :
    t.kind ≠ .eof := by
  fun_induction scan offset cs with
  | case1 => simp at h
  | case2 _ _ _ _ ih => exact ih h
  | case3 offset c cs _ lexeme ih =>
    rcases List.mem_cons.1 h with rfl | h
    · exact Token.ofLexeme_ne_eof _ _
    · exact ih h

/-- The tokens of a source text. -/
def TokenStream.ofSource (source : String) : TokenStream where
  body := scan 0 source.toList
  eof := Span.clamp (Text.byteSize source.toList)
  body_ne_eof _ h := ne_eof_of_mem_scan h

end Flame
