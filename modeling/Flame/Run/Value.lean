import Flame.Syntax.Equality
import Flame.Text.Decimal

/-!
Values, and values with the tag that is reported for them.

The tag of a value follows from its form. A reported tag is chosen by what produced the value,
and need not be the same.
-/

namespace Flame

/-- A function that the host provides: the name it was made with, and what tells it apart from
every other. -/
structure Native where
  name : String
  id : Nat
  deriving DecidableEq

inductive Value
  | void
  | bool (b : Bool)
  | int (n : Int64)
  | function (f : FunctionDef)
  | native (f : Native)
  deriving DecidableEq

namespace Value

/-- The tag of a value's form. -/
def tag : Value → TypeTag
  | void => .void
  | bool _ => .bool
  | int _ => .int
  | function _ => .function
  | native _ => .external

def asInt? : Value → Option Int64
  | int n => some n
  | _ => none

/-- A value as text. A function is shown by its own name, whatever it is bound to. -/
def render : Value → String
  | void => "void"
  | bool true => "true"
  | bool false => "false"
  | int n => Text.writeInt64 n
  | function f => "<func " ++ f.name ++ ">"
  | native f => "<extern " ++ f.name ++ ">"

end Value

/-- A value and the tag reported for it. -/
structure TypedValue where
  tag : TypeTag
  value : Value
  deriving DecidableEq

namespace TypedValue

/-- A value under the tag of its form. -/
def inferred (v : Value) : TypedValue := ⟨v.tag, v⟩

def void : TypedValue := inferred .void

/-- A value and its tag as an echoed result. -/
def render (v : TypedValue) : String := v.value.render ++ " (" ++ v.tag.name ++ ")"

end TypedValue

end Flame
