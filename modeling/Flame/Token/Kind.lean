/-!
Kinds of tokens: keywords, symbols, operators, literals, names, and the end of the input.

Keywords, symbols and operators are spelled in one way only; a kind with a fixed spelling is shown
as that spelling between backquotes.
-/

namespace Flame

/-- The reserved words. -/
inductive Keyword
  | funcWord | letWord | returnWord | ifWord | trueWord | falseWord | nullWord
  deriving DecidableEq

/-- The punctuation marks. -/
inductive Symbol
  | semicolon | colon | colonColon | equals | comma
  | leftParen | rightParen | leftBrace | rightBrace | arrow
  deriving DecidableEq

/-- The arithmetic operators. -/
inductive Operator
  | add | sub | mul | div
  deriving DecidableEq

/-- What a token is. -/
inductive Kind
  | unknown
  | keyword (word : Keyword)
  | symbol (mark : Symbol)
  | operator (op : Operator)
  | identifier
  | string
  | number
  /-- The end of the input, which no lexeme has. -/
  | eof
  deriving DecidableEq

/-- Coarse groups of kinds. -/
inductive Category
  | none | keyword | symbol | operator | identifier | literal | util
  deriving DecidableEq

namespace Keyword

def spelling : Keyword → String
  | funcWord => "func"
  | letWord => "let"
  | returnWord => "return"
  | ifWord => "if"
  | trueWord => "true"
  | falseWord => "false"
  | nullWord => "null"

/-- The name of a keyword in a token dump. -/
def label : Keyword → String
  | funcWord => "Func"
  | letWord => "Let"
  | returnWord => "Return"
  | ifWord => "If"
  | trueWord => "True"
  | falseWord => "False"
  | nullWord => "Null"

def all : List Keyword := [funcWord, letWord, returnWord, ifWord, trueWord, falseWord, nullWord]

theorem mem_all (k : Keyword) : k ∈ all := by cases k <;> decide

end Keyword

namespace Symbol

def spelling : Symbol → String
  | semicolon => ";"
  | colon => ":"
  | colonColon => "::"
  | equals => "="
  | comma => ","
  | leftParen => "("
  | rightParen => ")"
  | leftBrace => "\x7b"
  | rightBrace => "\x7d"
  | arrow => "->"

/-- The name of a punctuation mark in a token dump. -/
def label : Symbol → String
  | semicolon => "Semicolon"
  | colon => "Colon"
  | colonColon => "ColonColon"
  | equals => "Equals"
  | comma => "Comma"
  | leftParen => "LeftParen"
  | rightParen => "RightParen"
  | leftBrace => "LeftBrace"
  | rightBrace => "RightBrace"
  | arrow => "Arrow"

def all : List Symbol :=
  [semicolon, colon, colonColon, equals, comma, leftParen, rightParen, leftBrace, rightBrace, arrow]

end Symbol

namespace Operator

def spelling : Operator → String
  | add => "+"
  | sub => "-"
  | mul => "*"
  | div => "/"

/-- The name of an operator's mark in a token dump. -/
def label : Operator → String
  | add => "Plus"
  | sub => "Minus"
  | mul => "Star"
  | div => "Slash"

def all : List Operator := [add, sub, mul, div]

end Operator

namespace Kind

/-- The one spelling of a keyword, symbol or operator. -/
def spelling? : Kind → Option String
  | keyword word => some word.spelling
  | symbol mark => some mark.spelling
  | operator op => some op.spelling
  | _ => Option.none

/-- The kinds with a fixed spelling. -/
def spelled : List Kind :=
  Keyword.all.map keyword ++ Symbol.all.map symbol ++ Operator.all.map operator

/-- All kinds. -/
def all : List Kind := spelled ++ [unknown, identifier, string, number, eof]

/-- The kind whose fixed spelling is the given text. -/
def ofSpelling? (s : String) : Option Kind :=
  spelled.find? (·.spelling? == some s)

def category : Kind → Category
  | unknown => .none
  | keyword _ => .keyword
  | symbol _ => .symbol
  | operator _ => .operator
  | identifier => .identifier
  | string | number => .literal
  | eof => .util

/-- The name of a kind in a token dump. -/
def label : Kind → String
  | unknown => "Unknown"
  | keyword word => word.label
  | symbol mark => mark.label
  | operator op => op.label
  | identifier => "Identifier"
  | string => "String"
  | number => "Number"
  | eof => "Eof"

/-- The kind with the given name. -/
def ofLabel? (s : String) : Option Kind :=
  all.find? (·.label == s)

/-- The name of a kind in a message. -/
def describe (k : Kind) : String :=
  match k with
  | unknown => "unknown token"
  | identifier => "identifier"
  | string => "string literal"
  | number => "number literal"
  | eof => "end of input"
  | keyword _ | symbol _ | operator _ => "`" ++ (k.spelling?.getD "") ++ "`"

end Kind

/-- The name of a group in a token dump. -/
def Category.label : Category → String
  | .none => "None"
  | .keyword => "Keyword"
  | .symbol => "Symbol"
  | .operator => "Operator"
  | .identifier => "Identifier"
  | .literal => "Literal"
  | .util => "Util"

end Flame
