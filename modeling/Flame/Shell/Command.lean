import Flame.Shell.Folder
import Flame.Shell.Prompt
import Flame.Syntax.Outline
import Flame.Token.Dump

/-!
The command line: what its arguments ask for, and what doing it writes.
-/

namespace Flame

/-- What a command writes, and the code it ends with. -/
structure Transcript where
  stdout : String
  stderr : String
  code : UInt32

/-- The things that can be asked for. -/
inductive Command
  | prompt
  | run (path : String)
  | lex (path : String)
  | parse (path : String)
  /-- A command that lacks its file. -/
  | fileless (name : String)
  | help
  | version
  | unknown (name : String)

namespace Command

/-- Whether the extension of a path is that of a program, in any case of its letters. -/
def isProgramPath (path : String) : Bool :=
  (Path.extension? path.toList).map (·.map Char.toLower) == some ['f', 'l']

/-- What arguments ask for. Arguments that a command does not need are ignored. -/
def ofArgs : List String → Command
  | [] => prompt
  | ["run"] => fileless "run"
  | ["lex"] => fileless "lex"
  | ["parse"] => fileless "parse"
  | "run" :: path :: _ => run path
  | "lex" :: path :: _ => lex path
  | "parse" :: path :: _ => parse path
  | name :: _ =>
    if name = "repl" then prompt
    else if name = "help" ∨ name = "--help" ∨ name = "-h" then help
    else if name = "version" ∨ name = "--version" ∨ name = "-v" then version
    else if isProgramPath name then run name
    else unknown name

/-- The file that a command reads. -/
def path? : Command → Option String
  | run path | lex path | parse path => some path
  | _ => none

def usage : String :=
  "Flame interpreter\n\nUsage: flame [command] [options]\n\nCommands:\n" ++
  "  run <file.fl>        Run a Flame program\n" ++
  "  lex <file.fl>        Tokenize and display tokens\n" ++
  "  parse <file.fl>      Parse and display the syntax tree\n" ++
  "  repl                 Start the interactive prompt (default)\n" ++
  "  help                 Show this help message\n" ++
  "  version              Show version information\n\n" ++
  "Set RUST_LOG (e.g. RUST_LOG=debug) for interpreter tracing on stderr.\n"

/-- Runs a source text from a file. The value it returns follows what it printed. -/
def runText (limit : Nat) (path source : String) : Option Transcript :=
  match World.printing false false with
  | .done _ m =>
    match m.runSource World.host limit source with
    | .done none m => some ⟨m.host.out.text, "", 0⟩
    | .done (some v) m => some ⟨m.host.out.text ++ v.render ++ "\n", "", 0⟩
    | .failed e m => some ⟨m.host.out.text, e.render source path ++ "\n", 1⟩
    | .exhausted => none
  | .failed e m => some ⟨m.host.out.text, (RunError.runtime e).render source path ++ "\n", 1⟩
  | .exhausted => none

/-- Shows the tokens of a source text. -/
def lexText (source : String) : Transcript := ⟨(TokenStream.ofSource source).dump, "", 0⟩

/-- Shows the outline of a source text from a file. -/
def parseText (path source : String) : Transcript :=
  match (parseSource source).result with
  | .ok program => ⟨"Parse result for '" ++ path ++ "':\n" ++ program.outline, "", 0⟩
  | .error e => ⟨"", (RunError.parse e).render source path ++ "\n", 1⟩

/-- Holds a conversation over the whole of an input. -/
def promptOver (limit : Nat) (stdin : List UInt8) : Option Transcript :=
  match World.printing false false with
  | .done _ m =>
    match Prompt.run limit stdin m with
    | .done _ m => some ⟨m.host.out.text, m.host.err.text, 0⟩
    | .failed e m =>
      some ⟨m.host.out.text, m.host.err.text ++ "error: cannot write output: " ++ e ++ "\n", 0⟩
    | .exhausted => none
  | .failed e m => some ⟨m.host.out.text, "error: " ++ e.message ++ "\n", 1⟩
  | .exhausted => none

/-- Does what is asked for, given how files are read and the whole input. There is no transcript
if calls nest too deeply. -/
def perform (limit : Nat) (read : String → Except ReadFailure String) (stdin : List UInt8)
    (command : Command) : Option Transcript :=
  let withFile (path : String) (k : String → Option Transcript) : Option Transcript :=
    match read path with
    | .ok source => k source
    | .error e => some ⟨"", "error: cannot read '" ++ path ++ "': " ++ e.message ++ "\n", 1⟩
  match command with
  | prompt => promptOver limit stdin
  | run path => withFile path (runText limit path)
  | lex path => withFile path fun source => some (lexText source)
  | parse path => withFile path fun source => some (parseText path source)
  | fileless name => some ⟨"", "Usage: flame " ++ name ++ " <file.fl>\n", 1⟩
  | help => some ⟨usage, "", 0⟩
  | version => some ⟨"Flame 0.1.0\n", "", 0⟩
  | unknown name => some ⟨usage, "Unknown command: " ++ name ++ "\n\n", 1⟩

end Command

end Flame
