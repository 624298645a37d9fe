import Flame.Event
import Flame.Run.Environment

/-!
Machines, and computations that run on them.

A machine holds the environment, the state of the host, and the log. A computation knows the
calls that are under way, and either gives a value, or fails, or is given up because calls nest
too deeply. A failure undoes nothing: the machine stays as it was when the error arose.
-/

namespace Flame

/-- How the host answers calls of its functions: with a value or a reason for failure, and with
its next state. A host sees the arguments only, never the environment. -/
structure Host (σ : Type) where
  call : Native → List Value → σ → Except String Value × σ

structure Machine (σ : Type) where
  env : Environment
  host : σ
  /-- What was logged, latest first. -/
  log : List LogEntry

/-- How a computation ends. -/
inductive Outcome (ε S α : Type)
  | done (value : α) (state : S)
  | failed (error : ε) (state : S)
  /-- Calls nested more deeply than was allowed. -/
  | exhausted

/-- The outcome with its error seen as another. -/
def Outcome.mapError {ε ε' S α : Type} (f : ε → ε') : Outcome ε S α → Outcome ε' S α
  | done a s => done a s
  | failed e s => failed (f e) s
  | exhausted => exhausted

namespace Machine

variable {σ : Type}

/-- The machine with nothing bound and nothing logged. -/
def start (host : σ) : Machine σ := ⟨.empty, host, []⟩

/-- The machine after an event that no call was under way for. -/
def note (event : Event) (m : Machine σ) : Machine σ := { m with log := ⟨event, []⟩ :: m.log }

/-- The machine after events that no call was under way for. -/
def noteAll (events : List Event) (m : Machine σ) : Machine σ :=
  events.foldl (fun m event => m.note event) m

/-- The machine with only the global scope left. What is dropped is logged, if it is any. -/
def unwind (m : Machine σ) : Machine σ :=
  match m.env.inner with
  | [] => m
  | s :: outer => { m.note (.unwound (s :: outer).length) with env := m.env.unwind }

end Machine

/-- A computation, given the names of the calls under way, innermost first. -/
def Run (σ α : Type) : Type :=
  List String → Machine σ → Outcome RuntimeError (Machine σ) α

namespace Run

variable {σ α β : Type}

@[inline] protected def pure (a : α) : Run σ α := fun _ m => .done a m

@[inline] protected def bind (x : Run σ α) (f : α → Run σ β) : Run σ β := fun calls m =>
  match x calls m with
  | .done a m => f a calls m
  | .failed e m => .failed e m
  | .exhausted => .exhausted

instance : Monad (Run σ) where
  pure := Run.pure
  bind := Run.bind

@[simp] theorem pure_apply (a : α) (calls : List String) (m : Machine σ) :
    (pure a : Run σ α) calls m = .done a m := rfl

/-- Two computations in a row give a value if both do, the second from where the first ended. -/
theorem bind_eq_done_iff {x : Run σ α} {f : α → Run σ β} {calls : List String}
    {m m' : Machine σ} {b : β} :
    (x >>= f) calls m = .done b m' ↔
      ∃ a m₁, x calls m = .done a m₁ ∧ f a calls m₁ = .done b m' := by
  change Run.bind x f calls m = _ ↔ _
  unfold Run.bind
  cases x calls m <;> simp [and_assoc]

/-- Two computations in a row fail if the first does, or if the second does after it. -/
theorem bind_eq_failed_iff {x : Run σ α} {f : α → Run σ β} {calls : List String}
    {m m' : Machine σ} {e : RuntimeError} :
    (x >>= f) calls m = .failed e m' ↔
      x calls m = .failed e m' ∨
        ∃ a m₁, x calls m = .done a m₁ ∧ f a calls m₁ = .failed e m' := by
  change Run.bind x f calls m = _ ↔ _
  unfold Run.bind
  cases x calls m <;> simp [and_assoc]

/-- The computation that fails. -/
def fail (e : RuntimeError) : Run σ α := fun _ m => .failed e m

/-- The computation that is given up. -/
def giveUp : Run σ α := fun _ _ => .exhausted

/-- The result of a check as a computation. -/
def ofExcept : Except RuntimeError α → Run σ α
  | .ok a => pure a
  | .error e => fail e

/-- A computation as part of a call. -/
def within (callee : String) (x : Run σ α) : Run σ α := fun calls m => x (callee :: calls) m

/-- Logs an event. -/
def note (event : Event) : Run σ Unit := fun calls m =>
  .done () { m with log := ⟨event, calls⟩ :: m.log }

/-- Replaces the environment, if the change is allowed. -/
def change (f : Environment → Except RuntimeError Environment) : Run σ Unit := fun _ m =>
  match f m.env with
  | .ok env => .done () { m with env }
  | .error e => .failed e m

/-- The number of active scopes. -/
def depth : Run σ Nat := fun _ m => .done m.env.depth m

/-- The variable of a name. -/
def lookup (name : String) : Run σ Variable := fun _ m =>
  match m.env.lookup name with
  | .ok v => .done v m
  | .error e => .failed e m

/-- Opens a scope. -/
def openScope : Run σ Unit := do
  change fun env => .ok env.push
  note (.scopeOpened (← depth))

/-- Closes the innermost scope. -/
def closeScope : Run σ Unit := do
  change Environment.pop
  note (.scopeClosed (← depth))

/-- Binds a name in the innermost scope. -/
def declare (tag : TypeTag) (name : String) (value : Value) : Run σ Unit :=
  change (·.declare ⟨name, tag, value⟩)

/-- Binds a function to its own name. The event comes first, even if the name is taken. -/
def declareFunction (f : FunctionDef) : Run σ Unit := do
  note (.functionDefined f.name (signature f.params))
  declare .function f.name (.function f)

/-- Binds a host function to its own name. The event comes first, even if the name is taken. -/
def declareNative (f : Native) : Run σ Unit := do
  note (.nativeDefined f.name)
  declare .external f.name (.native f)

/-- Calls a host function. -/
def callNative (host : Host σ) (f : Native) (args : List Value) : Run σ Value := fun _ m =>
  match host.call f args m.host with
  | (.ok v, s) => .done v { m with host := s }
  | (.error reason, s) => .failed (.native f.name reason) { m with host := s }

end Run

end Flame
