import Flame.Parse.Expr
import Flame.Syntax.Equality
import Flame.Token.Scan

/-!
Reading statements, blocks and whole programs.

A statement is known by its first token. A block ends before a closing brace or at the end of the
stream, and so does a program: what follows a closing brace that nothing opened is not read.
-/

namespace Flame

/-- Reads parameters, each a type and a name, with commas between them. The last may have a comma
after it. -/
def readParams (c : Cursor) : Reading (Upto (List Param) c.left) :=
  if c.check .identifier then do
    let tag ← c.require .identifier
    let name ← tag.rest.require .identifier
    let param : Param := ⟨⟨tag.value.lexeme⟩, name.value.lexeme⟩
    match name.rest.accept? (.symbol .comma) with
    | none =>
      return ⟨[param], name.rest, by have := tag.fits; have := name.fits; omega⟩
    | some comma => do
      let params ← readParams comma.rest
      return ⟨param :: params.value, params.rest,
        by have := tag.fits; have := name.fits; have := comma.fits; have := params.fits; omega⟩
  else return ⟨[], c, Nat.le_refl _⟩
termination_by c.left
decreasing_by
  have := tag.fits
  have := name.fits
  have := comma.fits
  omega

mutual

/-- Reads statements up to a closing brace or the end of the stream. -/
def readBlock (c : Cursor) : Reading (Upto Block c.left) :=
  if c.check (.symbol .rightBrace) || c.atEnd then return ⟨[], c, Nat.le_refl _⟩
  else do
    let first ← readStmt c
    let others ← readBlock first.rest
    return ⟨first.value :: others.value, others.rest,
      by have := first.fits; have := others.fits; omega⟩
termination_by (c.left, 1)
decreasing_by
  · exact Prod.Lex.right _ (by decide)
  · exact Prod.Lex.left _ _ first.fits

/-- Reads one statement. -/
def readStmt (c : Cursor) : Reading (Below Stmt c.left) :=
  match c.kind with
  | .keyword .funcWord => do
    let word ← c.require (.keyword .funcWord)
    let name ← word.rest.require .identifier
    let opening ← name.rest.require (.symbol .leftParen)
    let params ← readParams opening.rest
    let closing ← params.rest.require (.symbol .rightParen)
    let brace ← closing.rest.require (.symbol .leftBrace)
    let body ← readBlock brace.rest
    let last ← body.rest.require (.symbol .rightBrace)
    Reading.note (.functionRead name.value.lexeme params.value.length)
    return ⟨.function name.value.lexeme params.value body.value, last.rest,
      by
        have := word.fits; have := name.fits; have := opening.fits; have := params.fits
        have := closing.fits; have := brace.fits; have := body.fits; have := last.fits
        omega⟩
  | .keyword .returnWord => do
    let word ← c.require (.keyword .returnWord)
    let e ← readExpr .lowest word.rest
    let last ← e.rest.require (.symbol .semicolon)
    return ⟨.ret e.value, last.rest,
      by have := word.fits; have := e.fits; have := last.fits; omega⟩
  | .keyword .ifWord => do
    let word ← c.require (.keyword .ifWord)
    let condition ← readExpr .lowest word.rest
    let brace ← condition.rest.require (.symbol .leftBrace)
    let body ← readBlock brace.rest
    let last ← body.rest.require (.symbol .rightBrace)
    return ⟨.cond condition.value body.value, last.rest,
      by
        have := word.fits; have := condition.fits; have := brace.fits
        have := body.fits; have := last.fits
        omega⟩
  | .keyword .letWord => do
    let word ← c.require (.keyword .letWord)
    let name ← word.rest.require .identifier
    let equals ← name.rest.require (.symbol .equals)
    let init ← readExpr .lowest equals.rest
    let stmt : Stmt := .bind name.value.lexeme init.value
    match init.rest.accept? (.symbol .semicolon) with
    | none =>
      return ⟨stmt, init.rest,
        by have := word.fits; have := name.fits; have := equals.fits; have := init.fits; omega⟩
    | some last =>
      return ⟨stmt, last.rest,
        by
          have := word.fits; have := name.fits; have := equals.fits
          have := init.fits; have := last.fits
          omega⟩
  | .symbol .semicolon => do
    let mark ← c.take
    return ⟨.empty mark.value.span, mark.rest, mark.fits⟩
  | .identifier | .symbol .leftParen | .string | .keyword .nullWord | .number => do
    let e ← readExpr .lowest c
    let last ← e.rest.require (.symbol .semicolon)
    return ⟨.expr e.value, last.rest, by have := e.fits; have := last.fits; omega⟩
  | found => .fail (.noStatement found c.current.span)
termination_by (c.left, 0)
decreasing_by
  · have := word.fits
    have := name.fits
    have := opening.fits
    have := params.fits
    have := closing.fits
    have := brace.fits
    exact Prod.Lex.left _ _ (by omega)
  · have := word.fits
    have := condition.fits
    have := brace.fits
    exact Prod.Lex.left _ _ (by omega)

end

/-- Reads a stream as a program. -/
def TokenStream.parse (ts : TokenStream) : Reading Block := do
  let program ← readBlock (.start ts)
  return program.value

/-- Reads a source text as a program. -/
def parseSource (source : String) : Reading Block := (TokenStream.ofSource source).parse

end Flame
