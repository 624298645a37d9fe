import Flame.Syntax.Basic

/-!
Equality of trees is decidable.
-/

namespace Flame

mutual

/-- Whether two expressions are the same tree. -/
def Expr.same : Expr → Expr → Bool
  | .int m, .int n => m == n
  | .void, .void => true
  | .var x, .var y => x == y
  | .call f as, .call g bs => f == g && Expr.sameList as bs
  | .binary op l r, .binary op' l' r' => op == op' && Expr.same l l' && Expr.same r r'
  | _, _ => false

/-- Whether two lists of expressions are the same, tree by tree. -/
def Expr.sameList : List Expr → List Expr → Bool
  | [], [] => true
  | a :: as, b :: bs => Expr.same a b && Expr.sameList as bs
  | _, _ => false

end

mutual

theorem Expr.same_iff (a b : Expr) : Expr.same a b = true ↔ a = b := by
  cases a <;> cases b <;> simp [Expr.same]
  case call.call f as g bs => exact fun _ => Expr.sameList_iff as bs
  case binary.binary op l r op' l' r' =>
    rw [Expr.same_iff l l', Expr.same_iff r r', and_assoc]

theorem Expr.sameList_iff (as bs : List Expr) : Expr.sameList as bs = true ↔ as = bs := by
  cases as <;> cases bs <;> simp [Expr.sameList]
  case cons.cons a as b bs => rw [Expr.same_iff a b, Expr.sameList_iff as bs]

end

instance : DecidableEq Expr := fun a b =>
  decidable_of_iff (Expr.same a b = true) (Expr.same_iff a b)

mutual

/-- Whether two statements are the same tree. -/
def Stmt.same : Stmt → Stmt → Bool
  | .function f ps body, .function g qs body' => f == g && ps == qs && Stmt.sameList body body'
  | .ret a, .ret b => a == b
  | .cond a body, .cond b body' => a == b && Stmt.sameList body body'
  | .expr a, .expr b => a == b
  | .bind x a, .bind y b => x == y && a == b
  | .empty s, .empty t => s == t
  | _, _ => false

/-- Whether two blocks are the same, statement by statement. -/
def Stmt.sameList : List Stmt → List Stmt → Bool
  | [], [] => true
  | a :: as, b :: bs => Stmt.same a b && Stmt.sameList as bs
  | _, _ => false

end

mutual

theorem Stmt.same_iff (a b : Stmt) : Stmt.same a b = true ↔ a = b := by
  cases a <;> cases b <;> simp [Stmt.same]
  case function.function f ps body g qs body' =>
    rw [Stmt.sameList_iff body body', and_assoc]
  case cond.cond a body b body' => exact fun _ => Stmt.sameList_iff body body'

theorem Stmt.sameList_iff (as bs : List Stmt) : Stmt.sameList as bs = true ↔ as = bs := by
  cases as <;> cases bs <;> simp [Stmt.sameList]
  case cons.cons a as b bs => rw [Stmt.same_iff a b, Stmt.sameList_iff as bs]

end

instance : DecidableEq Stmt := fun a b =>
  decidable_of_iff (Stmt.same a b = true) (Stmt.same_iff a b)

deriving instance DecidableEq for FunctionDef

end Flame
