import Flame.Shell.Command

/-!
The program `flame`: reads files and the standard input, and writes what the commands say.
-/

namespace Flame

/-- Writes what a machine has said so far, and forgets it. -/
def drain (m : Machine World) : IO (Machine World) := do
  IO.print m.host.out.text
  (← IO.getStdout).flush
  IO.eprint m.host.err.text
  let w : World := { m.host with out := .empty false, err := .empty false }
  return { m with host := w }

/-- The bytes of the next line with its line feed, or none at the end of the input. -/
partial def nextLine (input : IO.FS.Stream) (line : Array UInt8) : IO (List UInt8) := do
  match (← input.read 1).toList with
  | [] => return line.toList
  | b :: _ =>
    if b = Text.lineFeed then return (line.push b).toList
    else nextLine input (line.push b)

/-- Holds a conversation on the standard input, line by line. -/
partial def converseLive (m : Machine World) : IO UInt32 := do
  IO.print Prompt.mark
  (← IO.getStdout).flush
  match Text.lines (← nextLine (← IO.getStdin) #[]) with
  | [] => return 0
  | line :: _ =>
    match World.terminal.respond unlimited (Text.decode? line) m with
    | .done goOn m =>
      let m ← drain m
      if goOn then converseLive m else return 0
    | .failed e m =>
      let _ ← drain m
      IO.eprintln ("error: cannot write output: " ++ e)
      return 0
    | .exhausted => return 1

/-- The text of a file on the system. -/
def readSystemFile (path : String) : IO (Except ReadFailure String) := do
  try
    let bytes ← IO.FS.readBinFile path
    match Text.decode? bytes.toList with
    | some text => return .ok text
    | none => return .error .notText
  catch e =>
    match e with
    | .noFileOrDirectory .. => return .error .missing
    -- A path that goes on after a file is refused when it is opened, a folder when it is read.
    | .inappropriateType (some _) .. => return .error .notDirectory
    | .inappropriateType none .. => return .error .isDirectory
    | other => return .error (.other (toString other))

end Flame

open Flame in
/-- Does what the arguments ask for. -/
def main (args : List String) : IO UInt32 := do
  let command := Command.ofArgs args
  if let .prompt := command then
    match World.printing false false with
    | .done _ m => return ← converseLive m
    | _ => return 1
  let content ← match command.path? with
    | some path => readSystemFile path
    | none => pure (.error .missing)
  match command.perform unlimited (fun _ => content) [] with
  | some transcript =>
    IO.print transcript.stdout
    IO.eprint transcript.stderr
    return transcript.code
  | none => return 1
