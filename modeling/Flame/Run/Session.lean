import Flame.Parse.Program
import Flame.Run.Eval

/-!
Running source texts on a machine, one after another.

All texts of a session share the global scope, so what one defines the next can use.
-/

namespace Flame

namespace Machine

variable {σ : Type}

/-- Binds host functions to their names, in order, up to the first whose name is taken. -/
def install (natives : List Native) (m : Machine σ) : Outcome RuntimeError (Machine σ) Unit :=
  (natives.forM Run.declareNative : Run σ Unit) [] m

/-- Reads tokens as a program and runs it. Nothing runs if they are none. -/
def runTokens (host : Host σ) (limit : Nat) (ts : TokenStream) (m : Machine σ) :
    Outcome RunError (Machine σ) (Option TypedValue) :=
  let reading := ts.parse
  let m := m.noteAll reading.events
  match reading.result with
  | .error e => .failed (.parse e) m
  | .ok program =>
    ((m.note (.unitRead program.length)).exec host limit program).mapError .runtime

/-- Runs a source text. The value is that of a return statement outside of functions. -/
def runSource (host : Host σ) (limit : Nat) (source : String) (m : Machine σ) :
    Outcome RunError (Machine σ) (Option TypedValue) :=
  let ts := TokenStream.ofSource source
  (m.note (.tokenized ts.body.length)).runTokens host limit ts

/-- Runs a source text, and leaves no scope open if that fails. -/
def submit (host : Host σ) (limit : Nat) (source : String) (m : Machine σ) :
    Outcome RunError (Machine σ) (Option TypedValue) :=
  match m.runSource host limit source with
  | .failed e m => .failed e m.unwind
  | outcome => outcome

end Machine

/-- A limit on nested calls that no run with finite memory reaches. -/
def unlimited : Nat := 0x4000000000000000

end Flame
