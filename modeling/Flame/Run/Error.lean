import Flame.Parse.Error
import Flame.Syntax.TypeTag

/-!
Why running a program can fail, and how the failures are worded.
-/

namespace Flame

inductive RuntimeError
  /-- A value is not of the type that an operation needs. -/
  | typeMismatch (expected found : TypeTag)
  /-- The name is bound in an active scope already. -/
  | duplicateDefinition (name : String)
  | undefinedIdentifier (name : String)
  /-- The variable that is called holds no function. -/
  | notCallable (name : String) (tag : TypeTag)
  /-- The global scope cannot be closed. -/
  | baseScopeUnderflow
  | divisionByZero
  /-- A function got fewer arguments than it has parameters. -/
  | arityMismatch (name : String) (expected found : Nat)
  /-- A host function failed, for a reason of its own. -/
  | native (name reason : String)
  deriving DecidableEq

def RuntimeError.message : RuntimeError → String
  | typeMismatch expected found => "cannot convert from '" ++ found.name ++ "' to " ++ expected.name
  | duplicateDefinition name => "'" ++ name ++ "' is already defined"
  | undefinedIdentifier name => "undefined identifier '" ++ name ++ "'"
  | notCallable name tag => "cannot call non-function variable '" ++ name ++ "' of type " ++ tag.name
  | baseScopeUnderflow => "cannot pop the base scope"
  | divisionByZero => "division by zero"
  | arityMismatch name expected found =>
    "'" ++ name ++ "' expects " ++ expected.repr ++ " argument(s) but got " ++ found.repr
  | native name reason => "extern '" ++ name ++ "' failed: " ++ reason

/-- Why a source text gave no result: it is not a program, or its run failed. -/
inductive RunError
  | parse (cause : ParseError)
  | runtime (cause : RuntimeError)
  deriving DecidableEq

def RunError.message : RunError → String
  | parse cause => cause.message
  | runtime cause => cause.message

/-- An error for the reader of a source text. An error in its form names the place of the
offending token. -/
def RunError.render (e : RunError) (source origin : String) : String :=
  let place :=
    match e with
    | parse cause =>
      match cause.span? with
      | some span =>
        let p := span.place source
        "\n  --> " ++ origin ++ ":" ++ p.line.repr ++ ":" ++ p.column.repr
      | none => ""
    | runtime _ => ""
  "error: " ++ e.message ++ place

end Flame
