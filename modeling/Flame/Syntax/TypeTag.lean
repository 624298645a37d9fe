/-!
Type tags: names of types, compared as names.

Five tags are known; a parameter may be declared with any other.
-/

namespace Flame

/-- The name of a type. -/
structure TypeTag where
  name : String
  deriving DecidableEq

namespace TypeTag

def bool : TypeTag := ⟨"bool"⟩
def int : TypeTag := ⟨"int"⟩
def function : TypeTag := ⟨"function"⟩
def external : TypeTag := ⟨"extern"⟩
def void : TypeTag := ⟨"void"⟩

/-- The tags that values have. -/
def known : List TypeTag := [bool, int, function, external, void]

end TypeTag

end Flame
