import Flame.Proofs.DistinctNames
import Flame.Proofs.Moments
import Flame.Proofs.ScopeLog

/-!
What the log tells of registrations.

A function definition and a host function are announced in the log first, and bound then. If the
name is taken, the announcement has been made all the same. A run ends where a registration is
refused, so this is the last one that the run asks for: apart from it, the log names what was bound,
and in the same order.

The registrations that a run asks for are read off the tree and the machines that its parts are run
on, without the log.
-/

namespace Flame

variable {σ α β : Type}

/-- A registration, and the environment that is asked to take it. -/
structure Attempt where
  registration : Registration
  env : Environment

namespace Attempt

def name (a : Attempt) : String := a.registration.target.name

/-- Whether the environment takes the registration. -/
def added (a : Attempt) : Bool := (a.env.declare a.registration.target).isOk

end Attempt

/-- The names that were bound at some attempts. -/
def registeredNames (attempts : List Attempt) : List String :=
  (attempts.filter (·.added)).map (·.name)

/-- The name that an event announces. -/
def Event.registers? : Event → Option String
  | functionDefined name _ => some name
  | nativeDefined name => some name
  | _ => none

/-- The names that events announce, in their order. -/
def reportedNames (events : List Event) : List String := events.filterMap Event.registers?

/-! ### Attempts -/

/-- The registrations that a computation asks for, in their order. -/
abbrev Attempts (σ : Type) := List String → Machine σ → List Attempt

namespace Attempts

def none : Attempts σ := fun _ _ => []

/-- Those of a registration by itself. -/
def one (r : Registration) : Attempts σ := fun _ m => [⟨r, m.env⟩]

/-- Those that come when a computation has given a value, if it does. -/
def after (x : Run σ α) (next : α → Attempts σ) : Attempts σ := fun calls m =>
  match x calls m with
  | .done a m₁ => next a calls m₁
  | .failed _ _ | .exhausted => []

/-- Those of a computation, and those that come when it has given a value. -/
def followed (first : Attempts σ) (x : Run σ α) (next : α → Attempts σ) : Attempts σ :=
  fun calls m => first calls m ++ after x next calls m

lemma none_followed (x : Run σ α) (next : α → Attempts σ) :
    none.followed x next = after x next := rfl

lemma followed_none (first : Attempts σ) (x : Run σ α) :
    (first.followed x fun _ => none) = first := by
  funext calls m
  unfold followed after
  cases x calls m <;> exact List.append_nil _

end Attempts

section

variable (host : Host σ) (call : FunctionDef → List Value → Run σ TypedValue)
  (attempts : FunctionDef → List Value → Attempts σ)

open Attempts

/-- Calling a host function asks for nothing. -/
def applyAttempts (callee : String) (args : List Value) : Attempts σ :=
  after (Run.lookup callee) fun target =>
    match target.value with
    | .function f => attempts f args
    | _ => none

mutual

def exprAttempts : Expr → Attempts σ
  | .int _ | .void | .var _ => none
  | .call callee args => fun calls =>
    (argsAttempts args).followed (evalArgs host call args) (applyAttempts attempts callee)
      (callee :: calls)
  | .binary _ left right =>
    (exprAttempts left).followed (evalExpr host call left) fun _ => exprAttempts right

def argsAttempts : List Expr → Attempts σ
  | [] => none
  | e :: es => (exprAttempts e).followed (evalExpr host call e) fun _ => argsAttempts es

end

mutual

/-- What comes after a return is not run, and asks for nothing. -/
def blockAttempts : List Stmt → Attempts σ
  | [] => none
  | s :: ss => (stmtAttempts s).followed (execStmt host call s) fun returned =>
    match returned with
    | some _ => none
    | .none => blockAttempts ss

def stmtAttempts : Stmt → Attempts σ
  | .function name params body => one (.function ⟨name, params, body⟩)
  | .cond condition body =>
    (exprAttempts host call attempts condition).followed (evalExpr host call condition) fun c =>
      after (Run.ofExcept c.operand) fun n =>
        if n ≤ 0 then none else after Run.openScope fun _ => blockAttempts body
  | .ret e | .expr e | .bind _ e => exprAttempts host call attempts e
  | .empty _ => none

end

/-- Binding parameters is no registration: those of a call are those of the function's body. -/
def callAttempts : (limit : Nat) → FunctionDef → List Value → Attempts σ
  | 0, _, _ => none
  | limit + 1, f, args => after (enterCall f args) fun _ =>
    blockAttempts host (callFunction host limit) (callAttempts limit) f.body

end

/-- The registrations that the run of a program asks for. -/
def Machine.execAttempts (host : Host σ) (limit : Nat) (program : Block) (m : Machine σ) :
    List Attempt :=
  blockAttempts host (callFunction host limit) (callAttempts host limit) program [] m

def installAttempts : List Native → Attempts σ
  | [] => .none
  | f :: fs => (Attempts.one (.native f)).followed (Run.declareNative f) fun _ => installAttempts fs

/-! ### Rules -/

/-- From the one machine to the other, the log announces the names of the attempts. -/
def Machine.Announces (m m' : Machine σ) (attempts : List Attempt) : Prop :=
  ∃ events, m'.events = m.events ++ events ∧ reportedNames events = attempts.map (·.name)

/-- All attempts went through. -/
def AllAdded (attempts : List Attempt) : Prop := ∀ a ∈ attempts, a.added = true

/-- The last attempt was refused, and those before it went through. -/
def EndsRefused (attempts : List Attempt) (name : String) : Prop :=
  ∃ before refused, attempts = before ++ [refused] ∧ AllAdded before ∧ refused.added = false ∧
    refused.name = name

lemma Machine.Announces.refl (m : Machine σ) : m.Announces m [] :=
  ⟨[], (List.append_nil _).symm, rfl⟩

lemma Machine.Announces.of_log_eq {m m' : Machine σ} (h : m'.log = m.log) : m.Announces m' [] :=
  ⟨[], by rw [Machine.events_eq_of_log_eq h, List.append_nil], rfl⟩

lemma Machine.Announces.trans {m m₁ m' : Machine σ} {first later : List Attempt}
    (h : m.Announces m₁ first) (h' : m₁.Announces m' later) : m.Announces m' (first ++ later) := by
  obtain ⟨events, hevents, hnames⟩ := h
  obtain ⟨events', hevents', hnames'⟩ := h'
  refine ⟨events ++ events', by rw [hevents', hevents, List.append_assoc], ?_⟩
  rw [reportedNames, List.filterMap_append, List.map_append, ← hnames, ← hnames', reportedNames,
    reportedNames]

lemma AllAdded.nil : AllAdded [] := fun _ h => by cases h

lemma AllAdded.append {first later : List Attempt} (h : AllAdded first) (h' : AllAdded later) :
    AllAdded (first ++ later) :=
  fun a ha => (List.mem_append.1 ha).elim (h a) (h' a)

lemma EndsRefused.append {first later : List Attempt} {name : String} (h : AllAdded first)
    (h' : EndsRefused later name) : EndsRefused (first ++ later) name := by
  obtain ⟨before, refused, rfl, hbefore, hrefused, hname⟩ := h'
  exact ⟨first ++ before, refused, (List.append_assoc ..).symm, h.append hbefore, hrefused, hname⟩

/-- The attempts are announced. They went through, unless the last was refused and this is why the
computation failed. -/
def Outcome.Follows (m : Machine σ) (attempts : List Attempt) :
    Outcome RuntimeError (Machine σ) α → Prop
  | .done _ m' => m.Announces m' attempts ∧ AllAdded attempts
  | .failed e m' => m.Announces m' attempts ∧
    (AllAdded attempts ∨ ∃ name, EndsRefused attempts name ∧ e = .duplicateDefinition name)
  | .exhausted => True

lemma Outcome.Follows.after {m m₁ : Machine σ} {first later : List Attempt}
    {o : Outcome RuntimeError (Machine σ) α} (hann : m.Announces m₁ first) (hadded : AllAdded first)
    (h : o.Follows m₁ later) : o.Follows m (first ++ later) := by
  cases o with
  | done a m' => exact ⟨hann.trans h.1, hadded.append h.2⟩
  | failed e m' =>
    refine ⟨hann.trans h.1, h.2.imp hadded.append ?_⟩
    rintro ⟨name, hrefused, he⟩
    exact ⟨name, hrefused.append hadded, he⟩
  | exhausted => trivial

namespace Run

/-- The computation asks for these registrations. -/
def Asks (x : Run σ α) (attempts : Attempts σ) : Prop :=
  ∀ calls m, (x calls m).Follows m (attempts calls m)

/-- The computation announces nothing. -/
def Quiet (x : Run σ α) : Prop :=
  x.Ensures (fun m _ m' => m.Announces m' []) fun m _ m' => m.Announces m' []

variable {x : Run σ α} {f : α → Run σ β}

lemma Asks.bind {first : Attempts σ} {next : α → Attempts σ} (hx : x.Asks first)
    (hf : ∀ a, (f a).Asks (next a)) : (x >>= f).Asks (first.followed x next) := by
  intro calls m
  have h := hx calls m
  unfold Attempts.followed Attempts.after
  cases hxm : x calls m with
  | done a m₁ =>
    rw [hxm] at h
    rw [bind_of_done hxm]
    exact .after h.1 h.2 (hf a calls m₁)
  | failed e m₁ =>
    rw [hxm] at h
    rw [bind_of_failed hxm, List.append_nil]
    exact h
  | exhausted =>
    rw [bind_of_exhausted hxm]
    trivial

lemma Quiet.asks (hx : x.Quiet) : x.Asks .none := by
  intro calls m
  cases hxm : x calls m with
  | done a m' => exact ⟨hx.done hxm, .nil⟩
  | failed e m' => exact ⟨hx.failed hxm, .inl .nil⟩
  | exhausted => trivial

lemma Quiet.bind_asks {next : α → Attempts σ} (hx : x.Quiet) (hf : ∀ a, (f a).Asks (next a)) :
    (x >>= f).Asks (Attempts.after x next) := by
  rw [← Attempts.none_followed]
  exact hx.asks.bind hf

lemma Asks.bind_quiet {first : Attempts σ} (hx : x.Asks first) (hf : ∀ a, (f a).Quiet) :
    (x >>= f).Asks first := by
  rw [← first.followed_none x]
  exact hx.bind fun a => (hf a).asks

lemma quiet_pure (a : α) : (pure a : Run σ α).Quiet := .pure .refl

lemma quiet_fail (e : RuntimeError) : (fail e : Run σ α).Quiet := .fail .refl

lemma Quiet.bind (hx : x.Quiet) (hf : ∀ a, (f a).Quiet) : (x >>= f).Quiet :=
  Ensures.bind hx hf (fun h h' => h.trans h') (fun h => h) fun h h' => h.trans h'

lemma quiet_ofExcept (r : Except RuntimeError α) : (ofExcept r : Run σ α).Quiet := by
  cases r with
  | ok a => exact quiet_pure a
  | error e => exact quiet_fail e

lemma quiet_change (g : Environment → Except RuntimeError Environment) :
    (change g : Run σ Unit).Quiet :=
  .change (fun _ _ _ => .of_log_eq rfl) fun m _ _ => .refl m

lemma quiet_declare (tag : TypeTag) (name : String) (value : Value) :
    (declare tag name value : Run σ Unit).Quiet :=
  quiet_change _

lemma quiet_note {event : Event} (h : event.registers? = none) :
    (note event : Run σ Unit).Quiet where
  done {calls m u m'} heq := by
    obtain ⟨-, rfl⟩ := Outcome.done.inj heq
    exact ⟨[event], Machine.events_of_log_cons rfl, by simp [reportedNames, h]⟩
  failed heq := by cases heq

lemma quiet_depth : (depth : Run σ Nat).Quiet where
  done heq := by
    obtain ⟨-, rfl⟩ := Outcome.done.inj heq
    exact .refl _
  failed heq := by cases heq

lemma quiet_lookup (name : String) : (lookup name : Run σ Variable).Quiet :=
  (lookup_ensures name).mono (fun h => by rw [h.1]; exact .refl _)
    fun h => by rw [h.1]; exact .refl _

lemma quiet_openScope : (openScope : Run σ Unit).Quiet :=
  (quiet_change _).bind fun _ => quiet_depth.bind fun _ => quiet_note rfl

lemma quiet_closeScope : (closeScope : Run σ Unit).Quiet :=
  (quiet_change _).bind fun _ => quiet_depth.bind fun _ => quiet_note rfl

lemma quiet_callNative (host : Host σ) (f : Native) (args : List Value) :
    (callNative host f args).Quiet :=
  (callNative_ensures host f args).mono (fun h => .of_log_eq h.2) fun h => .of_log_eq h.2.1

lemma change_of_ok {g : Environment → Except RuntimeError Environment} {calls : List String}
    {m : Machine σ} {env : Environment} (h : g m.env = .ok env) :
    change g calls m = .done () { m with env } := by
  unfold change
  rw [h]

lemma change_of_error {g : Environment → Except RuntimeError Environment} {calls : List String}
    {m : Machine σ} {e : RuntimeError} (h : g m.env = .error e) :
    change g calls m = .failed e m := by
  unfold change
  rw [h]

/-- A registration is announced before its name is bound. It is refused if the name is taken, and
it is announced nevertheless. -/
lemma asks_register {r : Registration} {event : Event}
    (hevent : event.registers? = some r.target.name) :
    (note event >>= fun _ => change (·.declare r.target) : Run σ Unit).Asks (.one r) := by
  intro calls m
  have hann : ∀ env, m.Announces (⟨env, m.host, ⟨event, calls⟩ :: m.log⟩ : Machine σ)
      [⟨r, m.env⟩] := fun env =>
    ⟨[event], Machine.events_of_log_cons rfl, by simp [reportedNames, hevent, Attempt.name]⟩
  have hnote : note event calls m = .done () { m with log := ⟨event, calls⟩ :: m.log } := rfl
  cases hdeclare : m.env.declare r.target with
  | ok env =>
    rw [bind_of_done hnote, change_of_ok hdeclare]
    refine ⟨hann env, fun a ha => ?_⟩
    obtain rfl := List.mem_singleton.1 ha
    rw [Attempt.added, hdeclare]
    rfl
  | error e =>
    rw [bind_of_done hnote, change_of_error hdeclare]
    refine ⟨hann m.env, .inr ⟨r.target.name, ⟨[], _, rfl, .nil, ?_, rfl⟩, ?_⟩⟩
    · rw [Attempt.added, hdeclare]
      rfl
    · exact Environment.error_of_declare hdeclare

lemma asks_declareFunction (f : FunctionDef) :
    (declareFunction f : Run σ Unit).Asks (.one (.function f)) := asks_register rfl

lemma asks_declareNative (f : Native) : (declareNative f : Run σ Unit).Asks (.one (.native f)) :=
  asks_register rfl

end Run

/-! ### Trees -/

section

open Run

variable {call : FunctionDef → List Value → Run σ TypedValue}
  {attempts : FunctionDef → List Value → Attempts σ} (host : Host σ)

lemma asks_applyName (hcall : ∀ f args, (call f args).Asks (attempts f args)) (callee : String)
    (args : List Value) :
    (applyName host call callee args).Asks (applyAttempts attempts callee args) := by
  refine (quiet_lookup callee).bind_asks fun target => ?_
  cases target.value with
  | function f => exact hcall f args
  | native f => exact ((quiet_callNative host f args).bind fun v => quiet_pure _).asks
  | _ => exact (quiet_fail _).asks

mutual

lemma asks_evalExpr (hcall : ∀ f args, (call f args).Asks (attempts f args)) :
    (e : Expr) → (evalExpr host call e).Asks (exprAttempts host call attempts e)
  | .int _ => by
    rw [evalExpr, exprAttempts]
    exact (quiet_pure _).asks
  | .void => by
    rw [evalExpr, exprAttempts]
    exact (quiet_pure _).asks
  | .var name => by
    rw [evalExpr, exprAttempts]
    exact ((quiet_lookup name).bind fun _ => quiet_pure _).asks
  | .call callee args => by
    rw [evalExpr, exprAttempts]
    exact fun calls => (asks_evalArgs hcall args).bind (asks_applyName host hcall callee) _
  | .binary op left right => by
    rw [evalExpr, exprAttempts]
    refine (asks_evalExpr hcall left).bind fun l => ?_
    refine (asks_evalExpr hcall right).bind_quiet fun r => ?_
    exact (quiet_ofExcept _).bind fun _ => quiet_pure _

lemma asks_evalArgs (hcall : ∀ f args, (call f args).Asks (attempts f args)) :
    (es : List Expr) → (evalArgs host call es).Asks (argsAttempts host call attempts es)
  | [] => by
    rw [evalArgs, argsAttempts]
    exact (quiet_pure _).asks
  | e :: es => by
    rw [evalArgs, argsAttempts]
    refine (asks_evalExpr hcall e).bind fun v => ?_
    exact (asks_evalArgs hcall es).bind_quiet fun vs => quiet_pure _

end

mutual

lemma asks_execBlock (hcall : ∀ f args, (call f args).Asks (attempts f args)) :
    (b : Block) → (execBlock host call b).Asks (blockAttempts host call attempts b)
  | [] => by
    rw [execBlock, blockAttempts]
    exact (quiet_pure _).asks
  | s :: b => by
    rw [execBlock, blockAttempts]
    refine (asks_execStmt hcall s).bind fun returned => ?_
    cases returned with
    | some v => exact (quiet_pure _).asks
    | none => exact asks_execBlock hcall b

lemma asks_execStmt (hcall : ∀ f args, (call f args).Asks (attempts f args)) :
    (s : Stmt) → (execStmt host call s).Asks (stmtAttempts host call attempts s)
  | .function name params body => by
    rw [execStmt, stmtAttempts]
    exact (asks_declareFunction _).bind_quiet fun _ => quiet_pure _
  | .ret e => by
    rw [execStmt, stmtAttempts]
    exact (asks_evalExpr host hcall e).bind_quiet fun _ => quiet_pure _
  | .cond condition body => by
    rw [execStmt, stmtAttempts]
    refine (asks_evalExpr host hcall condition).bind fun c => ?_
    refine (quiet_ofExcept _).bind_asks fun n => ?_
    split
    · exact (quiet_pure _).asks
    · refine quiet_openScope.bind_asks fun _ => (asks_execBlock hcall body).bind_quiet fun _ => ?_
      exact quiet_closeScope.bind fun _ => quiet_pure _
  | .expr e => by
    rw [execStmt, stmtAttempts]
    exact (asks_evalExpr host hcall e).bind_quiet fun _ => quiet_pure _
  | .bind name init => by
    rw [execStmt, stmtAttempts]
    refine (asks_evalExpr host hcall init).bind_quiet fun v => ?_
    exact (quiet_note rfl).bind fun _ => (quiet_declare _ name _).bind fun _ => quiet_pure _
  | .empty _ => by
    rw [execStmt, stmtAttempts]
    exact ((quiet_note rfl).bind fun _ => quiet_pure _).asks

end

lemma quiet_bindParams : (params : List Param) → (args : List Value) →
    (bindParams params args : Run σ Unit).Quiet
  | [], _ => quiet_pure ()
  | _ :: _, [] => quiet_pure ()
  | p :: ps, v :: vs => by
    unfold bindParams
    cases v with
    | int n => exact (quiet_declare p.tag p.name _).bind fun _ => quiet_bindParams ps vs
    | _ => exact quiet_fail _

lemma quiet_enterCall (f : FunctionDef) (args : List Value) :
    (enterCall f args : Run σ Unit).Quiet := by
  have hbind : (openScope >>= fun _ => bindParams f.params args : Run σ Unit).Quiet :=
    quiet_openScope.bind fun _ => quiet_bindParams f.params args
  unfold enterCall
  split
  · exact quiet_fail _
  · split
    · exact (quiet_note rfl).bind fun _ => hbind
    · exact hbind

lemma asks_callFunction (limit : Nat) (f : FunctionDef) (args : List Value) :
    (callFunction host limit f args).Asks (callAttempts host limit f args) := by
  induction limit generalizing f args with
  | zero => exact fun _ _ => trivial
  | succ limit ih =>
    rw [callFunction_eq_enterCall, callAttempts]
    refine (quiet_enterCall f args).bind_asks fun _ => ?_
    refine (asks_execBlock host ih f.body).bind_quiet fun _ => ?_
    exact quiet_closeScope.bind fun _ => quiet_pure _

lemma asks_install : (natives : List Native) →
    (natives.forM declareNative : Run σ Unit).Asks (installAttempts natives)
  | [] => (quiet_pure ()).asks
  | f :: fs => (asks_declareNative f).bind fun _ => asks_install fs

end

/-! ### Runs -/

/-- What is added to the log announces the names that were bound, in the order in which they were
bound, and nothing else. Or the last registration was refused: then its name is announced as well,
after the others, and this is what the run failed with. -/
def Outcome.LogsAttempts (m : Machine σ) (attempts : List Attempt)
    (o : Outcome RuntimeError (Machine σ) α) : Prop :=
  ∀ m', o.state? = some m' → ∃ events, m'.events = m.events ++ events ∧
    ((AllAdded attempts ∧ reportedNames events = registeredNames attempts) ∨
      ∃ name, EndsRefused attempts name ∧ o = .failed (.duplicateDefinition name) m' ∧
        reportedNames events = registeredNames attempts ++ [name])

lemma AllAdded.registeredNames_eq {attempts : List Attempt} (h : AllAdded attempts) :
    registeredNames attempts = attempts.map (·.name) := by
  rw [registeredNames, List.filter_eq_self.2 h]

lemma EndsRefused.names_eq {attempts : List Attempt} {name : String}
    (h : EndsRefused attempts name) :
    attempts.map (·.name) = registeredNames attempts ++ [name] := by
  obtain ⟨before, refused, rfl, hbefore, hrefused, rfl⟩ := h
  have hlast : [refused].filter (·.added) = [] := List.filter_eq_nil_iff.2 (by simp [hrefused])
  rw [registeredNames, List.filter_append, hlast, List.append_nil, ← registeredNames,
    hbefore.registeredNames_eq, List.map_append, List.map_singleton]

lemma Outcome.Follows.logsAttempts {m : Machine σ} {attempts : List Attempt}
    {o : Outcome RuntimeError (Machine σ) α} (h : o.Follows m attempts) :
    o.LogsAttempts m attempts := by
  intro m' hstate
  cases o with
  | done a m₁ =>
    obtain rfl := Option.some.inj hstate
    obtain ⟨⟨events, hevents, hnames⟩, hadded⟩ := h
    exact ⟨events, hevents, .inl ⟨hadded, by rw [hnames, hadded.registeredNames_eq]⟩⟩
  | failed e m₁ =>
    obtain rfl := Option.some.inj hstate
    obtain ⟨⟨events, hevents, hnames⟩, hadded | ⟨name, hrefused, rfl⟩⟩ := h
    · exact ⟨events, hevents, .inl ⟨hadded, by rw [hnames, hadded.registeredNames_eq]⟩⟩
    · exact ⟨events, hevents, .inr ⟨name, hrefused, rfl, by rw [hnames, hrefused.names_eq]⟩⟩
  | exhausted => cases hstate

/-- **The log announces registrations.** When host functions are bound, and when a program is run,
the log names what was bound in the order in which it was bound. One name more is there if, and only
if, it ended because a registration of that name was refused. -/
theorem log_announces_registrations (host : Host σ) (m : Machine σ) :
    (∀ natives, (m.install natives).LogsAttempts m (installAttempts natives [] m)) ∧
    ∀ limit program,
      (m.exec host limit program).LogsAttempts m (m.execAttempts host limit program) :=
  ⟨fun natives => (asks_install natives [] m).logsAttempts, fun limit program =>
    (asks_execBlock host (asks_callFunction host limit) program [] m).logsAttempts⟩

/-- A function is defined in a call and again after it, and then the calling function once more. -/
theorem log_announces_registrations_repeated :
    let program : Block :=
      [.function "f" [] [.function "g" [] []], .expr (.call "f" []), .function "g" [] [],
        .function "f" [] []]
    let attempts := (Machine.start ()).execAttempts .echo 1 program
    registeredNames attempts = ["f", "g", "g"] ∧ ∃ m' : Machine Unit,
      (Machine.start ()).exec .echo 1 program =
        .failed (.duplicateDefinition "f") m' ∧
      reportedNames m'.events = ["f", "g", "g", "f"] := by
  intro program attempts
  have hnames : registeredNames attempts = ["f", "g", "g"] := by decide +kernel
  have hrefused : attempts.map (·.added) = [true, true, true, false] := by decide +kernel
  obtain ⟨m', hrun⟩ : ∃ m' : Machine Unit,
      (Machine.start ()).exec .echo 1 program =
        .failed (.duplicateDefinition "f") m' := ⟨_, rfl⟩
  obtain ⟨events, hevents, ⟨hadded, -⟩ | ⟨name, -, hfailed, hreported⟩⟩ :=
    (log_announces_registrations .echo (.start ())).2 1 program m'
      (by rw [hrun]; rfl)
  · have hmem : false ∈ attempts.map (·.added) := by simp [hrefused]
    obtain ⟨a, ha, hfalse⟩ := List.mem_map.1 hmem
    cases (hadded a ha).symm.trans hfalse
  · rw [hrun] at hfailed
    obtain ⟨⟨⟩, -⟩ := Outcome.failed.inj hfailed
    refine ⟨hnames, m', hrun, ?_⟩
    rw [hevents]
    exact hreported.trans (congrArg (· ++ ["f"]) hnames)

/-- Two definitions of one name, or two host functions of one name: the second is refused, and
announced all the same. -/
theorem refused_registration_announced :
    let program : Block := [.function "f" [] [], .function "f" [] []]
    let natives : List Native := [⟨"p", 0⟩, ⟨"p", 1⟩]
    (∃ m' : Machine Unit, (Machine.start ()).exec .echo 0 program =
        .failed (.duplicateDefinition "f") m' ∧ reportedNames m'.events = ["f", "f"]) ∧
      registeredNames ((Machine.start ()).execAttempts .echo 0 program) =
        ["f"] ∧
      (∃ m' : Machine Unit, (Machine.start ()).install natives =
        .failed (.duplicateDefinition "p") m' ∧ reportedNames m'.events = ["p", "p"]) ∧
      registeredNames (installAttempts natives [] (Machine.start ())) = ["p"] :=
  ⟨⟨_, rfl, rfl⟩, rfl, ⟨_, rfl, rfl⟩, rfl⟩

end Flame
