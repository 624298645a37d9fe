import Flame.Host.World
import Flame.Run.Session
import Flame.Text.Blank
import Flame.Text.Lines

/-!
The prompt: a conversation of one line at a time.

Before each line the prompt writes its mark. A line is run as a source text of its own; the value
it returns is echoed, and an error is reported. The conversation ends at the line `exit`, at a
line that is not text, or with the input. It breaks off when a sink refuses something.
-/

namespace Flame

namespace Prompt

/-- What is written before each line. -/
def mark : String := "> "

/-- The line that ends the conversation. -/
def farewell : String := "exit"

/-- How errors name the source of a line. -/
def origin : String := "<prompt>"

/-- The report of a line that is not text. -/
def unreadable : String := "error: cannot read input: stream did not contain valid UTF-8\n"

/-- The end of a conversation, or of a part of it: `true` if it may go on. -/
abbrev Turn (σ : Type) := Outcome String (Machine σ) Bool

/-- Does something with a sink, and goes on if that is not refused. -/
def say {σ : Type} (act : σ → Except String Unit × σ) (goOn : Bool) (m : Machine σ) : Turn σ :=
  match act m.host with
  | (.ok _, s) => .done goOn { m with host := s }
  | (.error e, s) => .failed e { m with host := s }

end Prompt

namespace Terminal

variable {σ : Type} (t : Terminal σ)

/-- Asks for a line: writes the mark, and lets go of it. -/
def invite (s : σ) : Except String Unit × σ :=
  match t.out.write Prompt.mark s with
  | (.ok _, s) => t.out.flush s
  | refused => refused

/-- Answers one line, or a line that is not text. -/
def respond (limit : Nat) (line : Option String) (m : Machine σ) : Prompt.Turn σ :=
  match line with
  | none => Prompt.say (t.err.write Prompt.unreadable) false m
  | some text =>
    let source := String.ofList (Text.trim text.toList)
    if source = Prompt.farewell then .done false m
    else if source = "" then .done true m
    else match m.submit t.host limit source with
      | .done none m => .done true m
      | .done (some v) m => Prompt.say (t.out.write (v.render ++ "\n")) true m
      | .failed e m => Prompt.say (t.err.write (e.render source Prompt.origin ++ "\n")) true m
      | .exhausted => .exhausted

/-- Holds a conversation over lines. -/
def converse (limit : Nat) (lines : List (List UInt8)) (m : Machine σ) :
    Outcome String (Machine σ) Unit :=
  match Prompt.say t.invite true m with
  | .failed e m => .failed e m
  | .exhausted => .exhausted
  | .done _ m =>
    match lines with
    | [] => .done () m
    | line :: rest =>
      match t.respond limit (Text.decode? line) m with
      | .failed e m => .failed e m
      | .exhausted => .exhausted
      | .done false m => .done () m
      | .done true m => converse limit rest m

/-- Holds a conversation over an input. -/
def run (limit : Nat) (input : List UInt8) (m : Machine σ) : Outcome String (Machine σ) Unit :=
  t.converse limit (Text.lines input) m

end Terminal

/-- Holds a conversation over an input, with the stock and its buffers. -/
def Prompt.run (limit : Nat) (input : List UInt8) (m : Machine World) :
    Outcome String (Machine World) Unit :=
  World.terminal.run limit input m

end Flame
