import Flame.Syntax.Tier
import Flame.Syntax.TypeTag
import Flame.Token.Span

/-!
Programs as trees: expressions, statements and function definitions.
-/

namespace Flame

inductive Expr
  | int (n : Int64)
  | void
  | var (name : String)
  | call (callee : String) (args : List Expr)
  | binary (op : Operator) (left right : Expr)

/-- A parameter of a function: its declared type and its name. -/
structure Param where
  tag : TypeTag
  name : String
  deriving DecidableEq

inductive Stmt
  /-- Defines a function. -/
  | function (name : String) (params : List Param) (body : List Stmt)
  /-- Ends the run of the enclosing function or program with a value. -/
  | ret (value : Expr)
  /-- Runs the body in a scope of its own if the condition is positive. -/
  | cond (condition : Expr) (body : List Stmt)
  /-- Evaluates an expression for its effects. -/
  | expr (e : Expr)
  /-- Binds a name to a value. -/
  | bind (name : String) (init : Expr)
  /-- A semicolon that ends nothing. -/
  | empty (span : Span)

/-- A sequence of statements. -/
abbrev Block := List Stmt

/-- A function as a value holds it. -/
structure FunctionDef where
  name : String
  params : List Param
  body : Block

/-- The statement that defines a function. -/
def FunctionDef.toStmt (f : FunctionDef) : Stmt := .function f.name f.params f.body

/-- A parameter as it is written: its type, then its name. -/
def Param.render (p : Param) : String := p.tag.name ++ " " ++ p.name

/-- Parameters as they are written, with spaces between them. -/
def signature (params : List Param) : String := " ".intercalate (params.map Param.render)

end Flame
