import Flame.Run.Error
import Flame.Run.Value

/-!
Variables in a stack of scopes.

The global scope is always at the bottom. A name is bound at most once in all active scopes
together, so no binding hides another.
-/

namespace Flame

/-- A name bound to a value under a tag. -/
structure Variable where
  name : String
  tag : TypeTag
  value : Value
  deriving DecidableEq

/-- The variables of one scope, latest first. -/
structure Scope where
  bindings : List Variable
  deriving DecidableEq

namespace Scope

def empty : Scope := ⟨[]⟩

def get? (s : Scope) (name : String) : Option Variable :=
  s.bindings.find? (·.name == name)

def contains (s : Scope) (name : String) : Bool := (s.get? name).isSome

def size (s : Scope) : Nat := s.bindings.length

def insert (s : Scope) (v : Variable) : Scope := ⟨v :: s.bindings⟩

theorem get?_insert (s : Scope) (v : Variable) (name : String) :
    (s.insert v).get? name = if v.name = name then some v else s.get? name := by
  simp only [get?, insert, List.find?_cons]
  split <;> simp_all

end Scope

/-- The active scopes: those above the global one, innermost first, and the global one. -/
structure Environment where
  inner : List Scope
  global : Scope
  deriving DecidableEq

namespace Environment

/-- The environment with nothing bound. -/
def empty : Environment := ⟨[], .empty⟩

/-- All active scopes, innermost first. -/
def scopes (env : Environment) : List Scope := env.inner ++ [env.global]

/-- The number of active scopes. -/
def depth (env : Environment) : Nat := env.inner.length + 1

/-- The variable of a name in the innermost scope that binds it. -/
def find? (env : Environment) (name : String) : Option Variable :=
  env.scopes.findSome? (·.get? name)

/-- The variable of a name, which must be bound. -/
def lookup (env : Environment) (name : String) : Except RuntimeError Variable :=
  match env.find? name with
  | some v => .ok v
  | none => .error (.undefinedIdentifier name)

/-- Whether some active scope binds a name. -/
def isDefined (env : Environment) (name : String) : Bool :=
  env.global.contains name || env.inner.any (·.contains name)

/-- The environment with a new scope on top. -/
def push (env : Environment) : Environment := { env with inner := .empty :: env.inner }

/-- The environment without its innermost scope, which must not be the global one. -/
def pop (env : Environment) : Except RuntimeError Environment :=
  match env.inner with
  | [] => .error .baseScopeUnderflow
  | _ :: outer => .ok { env with inner := outer }

/-- The environment without its scopes above the global one. -/
def unwind (env : Environment) : Environment := { env with inner := [] }

/-- The environment with one more variable in its innermost scope. -/
def insert (env : Environment) (v : Variable) : Environment :=
  match env.inner with
  | [] => { env with global := env.global.insert v }
  | s :: outer => { env with inner := s.insert v :: outer }

/-- Binds a name in the innermost scope. A name that is bound already is refused. -/
def declare (env : Environment) (v : Variable) : Except RuntimeError Environment :=
  if env.isDefined v.name then .error (.duplicateDefinition v.name) else .ok (env.insert v)

/-- A name is bound if and only if looking for it finds a variable. -/
theorem isDefined_eq_isSome_find? (env : Environment) (name : String) :
    env.isDefined name = (env.find? name).isSome := by
  obtain ⟨inner, global⟩ := env
  simp only [isDefined, find?, scopes]
  induction inner with
  | nil => simp [Scope.contains]
  | cons s outer ih =>
    rw [List.any_cons, List.cons_append, List.findSome?_cons, ← Bool.or_assoc,
      Bool.or_comm (Scope.contains _ _), Bool.or_assoc, ih]
    cases h : s.get? name <;> simp [Scope.contains, h]

/-- Adding a variable changes what is found under its name only. -/
theorem find?_insert_of_ne (env : Environment) (v : Variable) {name : String}
    (h : v.name ≠ name) : (env.insert v).find? name = env.find? name := by
  obtain ⟨inner, global⟩ := env
  cases inner <;> simp [insert, find?, scopes, List.findSome?_cons, Scope.get?_insert, h]

/-- A variable that was added is found under its name. -/
theorem find?_insert_self (env : Environment) (v : Variable) :
    (env.insert v).find? v.name = some v := by
  obtain ⟨inner, global⟩ := env
  cases inner <;> simp [insert, find?, scopes, Scope.get?_insert]

end Environment

end Flame
