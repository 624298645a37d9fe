import Flame.Token.Kind

/-!
Shapes of lexemes, and the kind that a lexeme has.

A shape is a set of texts: the two-character symbols, the words, the strings and the numbers. A
shape is a matter of the whole text, so each is a test on it and says nothing of scanning.
-/

namespace Flame

/-- The forms that a lexeme of more than one character can have. -/
inductive Shape
  | arrow | colonColon | word | string | number
  deriving DecidableEq

namespace Shape

/-- A letter followed by letters and digits, all of them ASCII. -/
def isWord : List Char → Bool
  | [] => false
  | c :: cs => c.isAlpha && cs.all Char.isAlphanum

/-- A quote, characters other than a quote, and perhaps a closing quote. -/
def isString : List Char → Bool
  | '"' :: cs => ((cs.dropWhile (· ≠ '"')).length ≤ 1 : Bool)
  | _ => false

/-- Decimal digits with at most one point among them, and at least one digit. -/
def isNumber (cs : List Char) : Bool :=
  match cs.dropWhile Char.isDigit with
  | [] => !cs.isEmpty
  | '.' :: fraction => fraction.all Char.isDigit && 2 ≤ cs.length
  | _ => false

/-- Whether a text is of a shape. -/
def fits : Shape → List Char → Bool
  | arrow, cs => cs == ['-', '>']
  | colonColon, cs => cs == [':', ':']
  | word, cs => isWord cs
  | string, cs => isString cs
  | number, cs => isNumber cs

def all : List Shape := [arrow, colonColon, word, string, number]

/-- The shape of a text. -/
def of? (cs : List Char) : Option Shape := all.find? (·.fits cs)

/-- The kind of the lexemes of a shape that have no spelling of their own. -/
def kind : Shape → Kind
  | arrow => .symbol .arrow
  | colonColon => .symbol .colonColon
  | word => .identifier
  | string => .string
  | number => .number

end Shape

/-- The kind of a lexeme: a fixed spelling decides first, then its shape. -/
def Kind.ofLexeme (lexeme : String) : Kind :=
  match Kind.ofSpelling? lexeme with
  | some kind => kind
  | none =>
    match Shape.of? lexeme.toList with
    | some shape => shape.kind
    | none => .unknown

theorem Kind.ofSpelling?_ne_eof {s : String} : Kind.ofSpelling? s ≠ some .eof := by
  intro h
  have := List.mem_of_find?_eq_some h
  simp [Kind.spelled] at this

/-- No lexeme is the end of the input. -/
theorem Kind.ofLexeme_ne_eof (lexeme : String) : Kind.ofLexeme lexeme ≠ .eof := by
  unfold Kind.ofLexeme
  split
  · rename_i kind h
    rintro rfl
    exact Kind.ofSpelling?_ne_eof h
  · split
    · rename_i shape _
      cases shape <;> simp [Shape.kind]
    · simp

end Flame
