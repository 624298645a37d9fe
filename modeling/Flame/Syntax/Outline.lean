import Flame.Syntax.Basic
import Flame.Text.Decimal

/-!
Programs as text: expressions with every grouping shown, and the indented outline of a block.
-/

namespace Flame

mutual

/-- An expression with parentheses around every operation. -/
def Expr.render : Expr → String
  | .int n => Text.writeInt64 n
  | .void => "()"
  | .var name => name
  | .call callee args => callee ++ "(" ++ ", ".intercalate (Expr.renderList args) ++ ")"
  | .binary op left right =>
    "(" ++ Expr.render left ++ " " ++ op.spelling ++ " " ++ Expr.render right ++ ")"

/-- The texts of expressions, in order. -/
def Expr.renderList : List Expr → List String
  | [] => []
  | e :: es => Expr.render e :: Expr.renderList es

end

/-- A line of an outline: how many blocks enclose it, and what it says. -/
structure OutlineLine where
  depth : Nat
  text : String
  deriving DecidableEq

/-- A line as text, with two spaces for each enclosing block. -/
def OutlineLine.render (line : OutlineLine) : String :=
  String.ofList (List.replicate (2 * line.depth) ' ') ++ line.text ++ "\n"

mutual

/-- The lines of a statement. Those of its body come after its own, one block deeper. -/
def Stmt.outline (depth : Nat) : Stmt → List OutlineLine
  | .function name params body =>
    ⟨depth, "func " ++ name ++ " (" ++ signature params ++ ")"⟩ ::
      Stmt.outlineList (depth + 1) body
  | .ret value => [⟨depth, "return " ++ value.render⟩]
  | .cond condition body =>
    ⟨depth, "if " ++ condition.render⟩ :: Stmt.outlineList (depth + 1) body
  | .expr e => [⟨depth, e.render⟩]
  | .bind name init => [⟨depth, "let " ++ name ++ " = " ++ init.render⟩]
  | .empty span => [⟨depth, "; @ " ++ span.render⟩]

/-- The lines of statements, in order. -/
def Stmt.outlineList (depth : Nat) : List Stmt → List OutlineLine
  | [] => []
  | s :: ss => Stmt.outline depth s ++ Stmt.outlineList depth ss

end

/-- The outline of a program, as text. -/
def Block.outline (program : Block) : String :=
  String.join ((Stmt.outlineList 0 program).map OutlineLine.render)

end Flame
