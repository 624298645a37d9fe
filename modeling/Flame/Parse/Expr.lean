import Flame.Parse.Reading
import Flame.Syntax.Basic

/-!
Reading expressions by precedence climbing.

An operator takes as its right operand what binds more tightly than itself, so operators of one
tier group to the left. A closing parenthesis where a primary should stand reads as the void
value and is not taken.
-/

namespace Flame

mutual

/-- Reads a primary and the operators after it that bind at least as tightly as `min`. -/
def readExpr (min : Tier) (c : Cursor) : Reading (Upto Expr c.left) := do
  let first ← readPrimary c
  let e ← readOperators min first.value first.rest
  return ⟨e.value, e.rest, Nat.le_trans e.fits first.fits⟩
termination_by (c.left, 1)
decreasing_by
  · exact Prod.Lex.right _ (by decide)
  · have := first.fits
    rcases Nat.lt_or_eq_of_le this with h | h
    · exact Prod.Lex.left _ _ h
    · rw [h]; exact Prod.Lex.right _ (by decide)

/-- Extends `left` by the operators that bind at least as tightly as `min`. -/
def readOperators (min : Tier) (left : Expr) (c : Cursor) : Reading (Upto Expr c.left) :=
  match Operator.ofKind? c.kind with
  | none => return ⟨left, c, Nat.le_refl _⟩
  | some op =>
    if min ≤ op.tier then do
      let mark ← c.take
      let right ← readExpr op.tier.tighter mark.rest
      let e ← readOperators min (.binary op left right.value) right.rest
      return ⟨e.value, e.rest, by have := mark.fits; have := right.fits; have := e.fits; omega⟩
    else return ⟨left, c, Nat.le_refl _⟩
termination_by (c.left, 0)
decreasing_by
  · exact Prod.Lex.left _ _ mark.fits
  · have := mark.fits
    have := right.fits
    exact Prod.Lex.left _ _ (by omega)

/-- Reads an expression that no operator is part of, unless parentheses enclose it. -/
def readPrimary (c : Cursor) : Reading (Upto Expr c.left) :=
  match c.kind with
  | .symbol .leftParen => do
    let opening ← c.take
    let inner ← readExpr .lowest opening.rest
    let closing ← inner.rest.require (.symbol .rightParen)
    return ⟨inner.value, closing.rest,
      by have := opening.fits; have := inner.fits; have := closing.fits; omega⟩
  | .symbol .rightParen => return ⟨.void, c, Nat.le_refl _⟩
  | .identifier =>
    if c.nextKind = .symbol .leftParen then do
      let callee ← c.require .identifier
      let opening ← callee.rest.require (.symbol .leftParen)
      let args ← readArgs opening.rest
      let closing ← args.rest.require (.symbol .rightParen)
      return ⟨.call callee.value.lexeme args.value, closing.rest,
        by
          have := callee.fits; have := opening.fits; have := args.fits; have := closing.fits
          omega⟩
    else do
      let name ← c.take
      return ⟨.var name.value.lexeme, name.rest, Nat.le_of_lt name.fits⟩
  | .number => do
    let digits ← c.take
    match Text.readInt64? digits.value.lexeme.toList with
    | some n => return ⟨.int n, digits.rest, Nat.le_of_lt digits.fits⟩
    | none => .fail (.badInteger digits.value.lexeme digits.value.span)
  | found => .fail (.noExpression found c.current.span)
termination_by (c.left, 0)
decreasing_by
  · exact Prod.Lex.left _ _ opening.fits
  · have := callee.fits
    have := opening.fits
    exact Prod.Lex.left _ _ (by omega)

/-- Reads expressions with commas between them, up to a closing parenthesis. The last may have a
comma after it. -/
def readArgs (c : Cursor) : Reading (Upto (List Expr) c.left) :=
  if c.check (.symbol .rightParen) then return ⟨[], c, Nat.le_refl _⟩
  else do
    let arg ← readExpr .lowest c
    match arg.rest.accept? (.symbol .comma) with
    | none => return ⟨[arg.value], arg.rest, arg.fits⟩
    | some comma => do
      let args ← readArgs comma.rest
      return ⟨arg.value :: args.value, args.rest,
        by have := arg.fits; have := comma.fits; have := args.fits; omega⟩
termination_by (c.left, 2)
decreasing_by
  · exact Prod.Lex.right _ (by decide)
  · have := arg.fits
    have := comma.fits
    exact Prod.Lex.left _ _ (by omega)

end

end Flame
