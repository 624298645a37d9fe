import Flame.Syntax.TypeTag
import Flame.Text.Decimal
import Flame.Token.Kind
import Flame.Token.Span

/-!
Events that reading and running a program leave in its log.
-/

namespace Flame

/-- How severe an event is. -/
inductive Level
  | trace | debug | info | warn | error
  deriving DecidableEq

namespace Level

def severity : Level → Nat
  | trace => 0
  | debug => 1
  | info => 2
  | warn => 3
  | error => 4

def label : Level → String
  | trace => "TRACE"
  | debug => "DEBUG"
  | info => "INFO"
  | warn => "WARN"
  | error => "ERROR"

end Level

inductive Event
  /-- A source text was cut into `count` tokens, the sentinel not counted. -/
  | tokenized (count : Nat)
  /-- A token of another kind stood where one kind was required, right before `position`. -/
  | unexpectedToken (expected found : Kind) (position : Nat)
  /-- A function definition was read to its end. -/
  | functionRead (name : String) (params : Nat)
  /-- A source text was read as a program of `statements` statements. -/
  | unitRead (statements : Nat)
  /-- A function is about to be bound to its name. -/
  | functionDefined (name signature : String)
  /-- A host function is about to be bound to its name. -/
  | nativeDefined (name : String)
  /-- A name is about to be bound to a value with a tag. -/
  | binding (name : String) (tag : TypeTag)
  /-- A semicolon ended nothing. -/
  | pointlessSemicolon (span : Span)
  /-- A function was called with more arguments than it has parameters. -/
  | surplusArguments (name : String) (ignored : Nat)
  /-- A scope was opened; `depth` scopes are active now. -/
  | scopeOpened (depth : Nat)
  /-- A scope was closed; `depth` scopes are active now. -/
  | scopeClosed (depth : Nat)
  /-- All scopes above the global one were dropped. -/
  | unwound (discarded : Nat)
  deriving DecidableEq

namespace Event

def level : Event → Level
  | tokenized _ | unexpectedToken .. | binding .. | scopeOpened _ | scopeClosed _ => .trace
  | functionRead .. | unitRead _ | functionDefined .. | nativeDefined _ | surplusArguments ..
  | unwound _ => .debug
  | pointlessSemicolon _ => .warn

def message : Event → String
  | tokenized _ => "tokenized source"
  | unexpectedToken .. => "unexpected token"
  | functionRead .. => "parsed function definition"
  | unitRead _ => "parsed source unit"
  | functionDefined .. => "new function defined"
  | nativeDefined _ => "new extern defined"
  | binding .. => "let"
  | pointlessSemicolon _ => "pointless semicolon"
  | surplusArguments .. => "surplus arguments ignored"
  | scopeOpened _ => "begin scope"
  | scopeClosed _ => "end scope"
  | unwound _ => "unwinding to global scope"

/-- The named details of an event, as text. -/
def fields : Event → List (String × String)
  | tokenized count => [("count", count.repr)]
  | unexpectedToken expected found position =>
    [("expected", expected.describe), ("found", found.describe), ("pos", position.repr)]
  | functionRead name params => [("name", name), ("params", params.repr)]
  | unitRead statements => [("statements", statements.repr)]
  | functionDefined name signature => [("name", name), ("signature", signature)]
  | nativeDefined name => [("name", name)]
  | binding name tag => [("name", name), ("tag", tag.name)]
  | pointlessSemicolon span => [("span", span.render)]
  | surplusArguments name ignored => [("name", name), ("ignored", ignored.repr)]
  | scopeOpened depth => [("depth", depth.repr)]
  | scopeClosed depth => [("depth", depth.repr)]
  | unwound discarded => [("discarded", discarded.repr)]

end Event

/-- An event together with the names of the calls that were under way, innermost first. -/
structure LogEntry where
  event : Event
  calls : List String
  deriving DecidableEq

/-- What a listener at a level sees of a log. Calls under way are a detail of the debug level, so
a listener that asks for more severe events does not see them. -/
def LogEntry.heard (level : Level) (log : List LogEntry) : List LogEntry :=
  (log.filter (level.severity ≤ ·.event.level.severity)).map fun entry =>
    if level.severity ≤ Level.debug.severity then entry else { entry with calls := [] }

end Flame
