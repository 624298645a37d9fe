import Flame.Host.Terminal

/-!
A host with two buffers for text and a stock of functions.

A buffer may be closed; every write to a closed buffer is refused.
-/

namespace Flame

/-- The text that was written so far. A closed buffer takes nothing. -/
structure Buffer where
  text : String
  closed : Bool

namespace Buffer

def empty (closed : Bool) : Buffer := ⟨"", closed⟩

/-- Why a write is refused. -/
def refusal : String := "sink closed"

def write (text : String) (b : Buffer) : Except String Buffer :=
  if b.closed then .error refusal else .ok { b with text := b.text ++ text }

end Buffer

/-- What a function of the stock does. -/
inductive Behaviour
  /-- Writes its arguments on a line of the output, or nowhere if it is muted. -/
  | print (muted : Bool)
  /-- Gives the same value always. -/
  | constant (v : Value)
  /-- Gives the number of its arguments. -/
  | count
  /-- Gives the sum of the numbers among its arguments. -/
  | sum
  /-- Gives its first argument. -/
  | echo
  /-- Fails, and names its arguments. -/
  | fail
  /-- Gives the number of its calls so far. -/
  | next

namespace Behaviour

/-- The behaviour that goes by a name. -/
def ofName? : String → Option Behaviour
  | "print" => some (print false)
  | "yes" => some (constant (.bool true))
  | "no" => some (constant (.bool false))
  | "nothing" => some (constant .void)
  | "count" => some count
  | "sum" => some sum
  | "echo" => some echo
  | "fail" => some fail
  | "next" => some next
  | _ => none

/-- The same behaviour, but with nothing written. -/
def mute : Behaviour → Behaviour
  | print _ => print true
  | b => b

end Behaviour

/-- The texts of values, with a separator between them. -/
def renderValues (separator : String) (vs : List Value) : String :=
  separator.intercalate (vs.map Value.render)

/-- The buffers, and the functions made so far: what each does and how often it was called. A
function is known by its place in the list. -/
structure World where
  out : Buffer
  err : Buffer
  natives : List (Behaviour × Nat)

namespace World

def start (outClosed errClosed : Bool) : World := ⟨.empty outClosed, .empty errClosed, []⟩

/-- Makes a function. One that prints is always called so. -/
def make (name : String) (b : Behaviour) (w : World) : Native × World :=
  let name :=
    match b with
    | .print _ => "print"
    | _ => name
  (⟨name, w.natives.length⟩, { w with natives := w.natives ++ [(b, 0)] })

/-- Makes functions, in order. -/
def makeAll : List (String × Behaviour) → World → List Native × World
  | [], w => ([], w)
  | (name, b) :: specs, w =>
    let (f, w) := w.make name b
    let (fs, w) := w.makeAll specs
    (f :: fs, w)
termination_by specs => specs.length

def writeOut (text : String) (w : World) : Except String World := do
  return { w with out := ← w.out.write text }

def writeErr (text : String) (w : World) : Except String World := do
  return { w with err := ← w.err.write text }

/-- The numbers among values. -/
def numbers (vs : List Value) : List Int64 := vs.filterMap Value.asInt?

/-- What a behaviour answers, after a number of earlier calls. -/
def answer (b : Behaviour) (calls : Nat) (args : List Value) (w : World) :
    Except String Value × World :=
  match b with
  | .print true => (.ok .void, w)
  | .print false =>
    match w.writeOut (renderValues " " args ++ "\n") with
    | .ok w => (.ok .void, w)
    | .error e => (.error e, w)
  | .constant v => (.ok v, w)
  | .count => (.ok (.int (Int64.ofNat args.length)), w)
  | .sum => (.ok (.int ((numbers args).foldl (· + ·) 0)), w)
  | .echo =>
    match args with
    | v :: _ => (.ok v, w)
    | [] => (.error "no arguments", w)
  | .fail => (.error ("boom " ++ renderValues "|" args), w)
  | .next => (.ok (.int (Int64.ofNat calls)), w)

/-- Calls a function that was made here. -/
def call (f : Native) (args : List Value) (w : World) : Except String Value × World :=
  match w.natives[f.id]? with
  | none => (.error "no such function", w)
  | some (b, calls) =>
    answer b calls args { w with natives := w.natives.set f.id (b, calls + 1) }

/-- The stock as a host. -/
def host : Host World := ⟨World.call⟩

/-- The stock, with the buffers as sinks. -/
def terminal : Terminal World := ⟨host, .ofWrite writeOut, .ofWrite writeErr⟩

/-- A machine on which the function that prints is bound. -/
def printing (outClosed errClosed : Bool) : Outcome RuntimeError (Machine World) Unit :=
  let (print, w) := (start outClosed errClosed).make "print" (.print false)
  Run.declareNative print [] (.start w)

end World

end Flame
