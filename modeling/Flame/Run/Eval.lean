import Flame.Run.Arithmetic
import Flame.Run.Machine

/-!
Running trees.

Expressions and blocks run by recursion on the tree, given what a call of a function does. A call
runs the function's body in turn, and counts against a limit on how deeply calls may nest.
-/

namespace Flame

variable {σ : Type}

section

variable (host : Host σ) (call : FunctionDef → List Value → Run σ TypedValue)

/-- Calls what a name is bound to. -/
def applyName (callee : String) (args : List Value) : Run σ TypedValue := do
  let target ← Run.lookup callee
  match target.value with
  | .native f => return .inferred (← Run.callNative host f args)
  | .function f => call f args
  | _ => Run.fail (.notCallable target.name target.tag)

mutual

/-- The value of an expression. Operands and arguments are evaluated from left to right, and
before anything is asked of them. Variables and results of operators are reported as numbers,
whatever they hold. -/
def evalExpr : Expr → Run σ TypedValue
  | .int n => return .inferred (.int n)
  | .void => return .void
  | .var name => return ⟨.int, (← Run.lookup name).value⟩
  | .call callee args =>
    Run.within callee do
      let values ← evalArgs args
      applyName host call callee values
  | .binary op left right => do
    let l ← evalExpr left
    let r ← evalExpr right
    let n ← Run.ofExcept (op.apply l r)
    return ⟨.int, .int n⟩

/-- The values of arguments, without their tags. -/
def evalArgs : List Expr → Run σ (List Value)
  | [] => return []
  | e :: es => do
    let v ← evalExpr e
    let vs ← evalArgs es
    return v.value :: vs

end

mutual

/-- Runs statements in order, up to the first that returns a value. -/
def execBlock : List Stmt → Run σ (Option TypedValue)
  | [] => return none
  | s :: ss => do
    match ← execStmt s with
    | some v => return some v
    | none => execBlock ss

/-- Runs a statement. It gives the value that it returns, if it does. -/
def execStmt : Stmt → Run σ (Option TypedValue)
  | .function name params body => do
    Run.declareFunction ⟨name, params, body⟩
    return none
  | .ret e => return some (← evalExpr host call e)
  | .cond condition body => do
    let c ← evalExpr host call condition
    let n ← Run.ofExcept c.operand
    if n ≤ 0 then return none
    else do
      Run.openScope
      let result ← execBlock body
      Run.closeScope
      return result
  | .expr e => do
    let _ ← evalExpr host call e
    return none
  | .bind name init => do
    let v ← evalExpr host call init
    Run.note (.binding name v.tag)
    Run.declare v.tag name v.value
    return none
  | .empty span => do
    Run.note (.pointlessSemicolon span)
    return none

end

end

/-- Binds parameters to arguments, in order. Every argument must be a number, whatever type its
parameter declares. -/
def bindParams : List Param → List Value → Run σ Unit
  | p :: ps, v :: vs =>
    match v with
    | .int n => do
      Run.declare p.tag p.name (.int n)
      bindParams ps vs
    | other => Run.fail (.typeMismatch .int other.tag)
  | _, _ => return ()

/-- Calls a function: its body runs in a scope that binds its parameters. Surplus arguments are
ignored. At most `limit` calls may nest. -/
def callFunction (host : Host σ) : (limit : Nat) → FunctionDef → List Value → Run σ TypedValue
  | 0, _, _ => Run.giveUp
  | limit + 1, f, args =>
    if args.length < f.params.length then
      Run.fail (.arityMismatch f.name f.params.length args.length)
    else do
      if f.params.length < args.length then
        Run.note (.surplusArguments f.name (args.length - f.params.length))
      Run.openScope
      bindParams f.params args
      let result ← execBlock host (callFunction host limit) f.body
      Run.closeScope
      return result.getD .void

/-- Evaluates an expression, with at most `limit` nested calls. -/
def Machine.eval (host : Host σ) (limit : Nat) (e : Expr) (m : Machine σ) :
    Outcome RuntimeError (Machine σ) TypedValue :=
  evalExpr host (callFunction host limit) e [] m

/-- Runs a program, with at most `limit` nested calls. -/
def Machine.exec (host : Host σ) (limit : Nat) (program : Block) (m : Machine σ) :
    Outcome RuntimeError (Machine σ) (Option TypedValue) :=
  execBlock host (callFunction host limit) program [] m

end Flame
