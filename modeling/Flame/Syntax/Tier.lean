import Flame.Token.Kind

/-!
Precedence tiers, from the loosest to the tightest, and the tiers of the operators.

Only two tiers carry operators; the others keep their places in the order.
-/

namespace Flame

/-- The precedence tiers, loosest first. -/
inductive Tier
  | assignment | conditional | coalescing | conditionalOr | conditionalAnd | logicalOr
  | logicalXor | logicalAnd | equality | shift | additive | multiplicative | unary | cast
  deriving DecidableEq

namespace Tier

/-- The place of a tier in the order. -/
def rank : Tier → Nat
  | assignment => 0
  | conditional => 1
  | coalescing => 2
  | conditionalOr => 3
  | conditionalAnd => 4
  | logicalOr => 5
  | logicalXor => 6
  | logicalAnd => 7
  | equality => 8
  | shift => 9
  | additive => 10
  | multiplicative => 11
  | unary => 12
  | cast => 13

instance : LE Tier := ⟨fun a b => a.rank ≤ b.rank⟩
instance : LT Tier := ⟨fun a b => a.rank < b.rank⟩
instance (a b : Tier) : Decidable (a ≤ b) := inferInstanceAs (Decidable (a.rank ≤ b.rank))
instance (a b : Tier) : Decidable (a < b) := inferInstanceAs (Decidable (a.rank < b.rank))

/-- The tier of a whole expression. -/
def lowest : Tier := assignment

/-- The next tighter tier; the tightest is followed by itself. -/
def tighter : Tier → Tier
  | assignment => conditional
  | conditional => coalescing
  | coalescing => conditionalOr
  | conditionalOr => conditionalAnd
  | conditionalAnd => logicalOr
  | logicalOr => logicalXor
  | logicalXor => logicalAnd
  | logicalAnd => equality
  | equality => shift
  | shift => additive
  | additive => multiplicative
  | multiplicative => unary
  | unary => cast
  | cast => cast

def all : List Tier :=
  [assignment, conditional, coalescing, conditionalOr, conditionalAnd, logicalOr, logicalXor,
    logicalAnd, equality, shift, additive, multiplicative, unary, cast]

/-- The tiers that are strictly looser, loosest first. -/
def looser (t : Tier) : List Tier := all.filter (· < t)

def label : Tier → String
  | assignment => "Assignment"
  | conditional => "Conditional"
  | coalescing => "Coalescing"
  | conditionalOr => "ConditionalOr"
  | conditionalAnd => "ConditionalAnd"
  | logicalOr => "LogicalOr"
  | logicalXor => "LogicalXor"
  | logicalAnd => "LogicalAnd"
  | equality => "Equality"
  | shift => "Shift"
  | additive => "Additive"
  | multiplicative => "Multiplicative"
  | unary => "Unary"
  | cast => "Cast"

/-- The tier with the given name. -/
def ofLabel? (s : String) : Option Tier := all.find? (·.label == s)

end Tier

/-- The tier of an operator. -/
def Operator.tier : Operator → Tier
  | .add | .sub => .additive
  | .mul | .div => .multiplicative

/-- The operator that a token of the given kind spells. -/
def Operator.ofKind? : Kind → Option Operator
  | .operator op => some op
  | _ => none

end Flame
