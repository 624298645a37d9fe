import Flame.Run.Error
import Flame.Run.Value

/-!
Arithmetic on signed 64-bit numbers.

Results that do not fit wrap around. A quotient is cut off toward zero.
-/

namespace Flame

/-- The number that an operand stands for: both its reported tag and its form must be those of
numbers. -/
def TypedValue.operand (v : TypedValue) : Except RuntimeError Int64 :=
  if v.tag ≠ .int then .error (.typeMismatch .int v.tag)
  else match v.value with
    | .int n => .ok n
    | other => .error (.typeMismatch .int other.tag)

/-- An operator applied to two numbers. -/
def Operator.compute (op : Operator) (l r : Int64) : Except RuntimeError Int64 :=
  match op with
  | .add => .ok (l + r)
  | .sub => .ok (l - r)
  | .mul => .ok (l * r)
  | .div => if r = 0 then .error .divisionByZero else .ok (l / r)

/-- An operator applied to two operands. The left operand is checked first. -/
def Operator.apply (op : Operator) (l r : TypedValue) : Except RuntimeError Int64 := do
  let l ← l.operand
  let r ← r.operand
  op.compute l r

end Flame
