import Flame.Proofs.Reports
import Flame.Proofs.SideBySide
import Flame.Proofs.Steps
import Mathlib

/-!
What the log tells of scopes.

Opening and closing a scope is logged with the number of scopes that there are then. Read in their
order, these events count the scopes: from the number at the start, each is one more or one less.
The count is right at every moment. It never falls below the number at the start, since a run closes
only what it has opened; so a run that gives a value comes back to that number, and what one that
fails has left open is what the log still counts.
-/

namespace Flame

variable {σ α β : Type}

/-- The events of the log, in the order in which they came. -/
def Machine.events (m : Machine σ) : List Event := (m.log.map (·.event)).reverse

lemma Machine.events_eq_of_log_eq {m m' : Machine σ} (h : m'.log = m.log) :
    m'.events = m.events := by
  rw [events, h, events]

/-- What is logged last comes last. -/
lemma Machine.events_of_log_cons {m m' : Machine σ} {event : Event} {calls : List String}
    (h : m'.log = ⟨event, calls⟩ :: m.log) : m'.events = m.events ++ [event] := by
  rw [events, h, List.map_cons, List.reverse_cons, events]

namespace Event

/-- The number of scopes that an event tells, if it is about scopes. -/
def depth? : Event → Option Nat
  | scopeOpened depth | scopeClosed depth => some depth
  | _ => none

/-- How many scopes more there are after an event. -/
def gain : Event → ℤ
  | scopeOpened _ => 1
  | scopeClosed _ => -1
  | _ => 0

end Event

/-- How many scopes more there are after some events. -/
def gainOf (events : List Event) : ℤ := (events.map Event.gain).sum

/-! ### Counting -/

/-- At an event, the number of scopes goes from one to the other, which the event tells. -/
inductive Event.Leads : Event → Nat → Nat → Prop
  | opened {n : Nat} : Leads (.scopeOpened (n + 1)) n (n + 1)
  | closed {n : Nat} : Leads (.scopeClosed n) (n + 1) n
  | other {e : Event} {n : Nat} (h : e.depth? = none) : Leads e n n

/-- At some events, the number of scopes goes from one to the other, and is never less than
`floor`. -/
inductive Counts (floor : Nat) : Nat → List Event → Nat → Prop
  | nil {n : Nat} (hn : floor ≤ n) : Counts floor n [] n
  | cons {e : Event} {events : List Event} {n next k : Nat} (hn : floor ≤ n)
    (first : e.Leads n next) (others : Counts floor next events k) :
    Counts floor n (e :: events) k

lemma gainOf_nil : gainOf [] = 0 := rfl

lemma gainOf_cons (e : Event) (events : List Event) :
    gainOf (e :: events) = e.gain + gainOf events := by
  rw [gainOf, List.map_cons, List.sum_cons, gainOf]

lemma Event.Leads.gain {e : Event} {n next : Nat} (h : e.Leads n next) :
    (next : ℤ) = n + e.gain := by
  cases h with
  | opened => simp [Event.gain]
  | closed => simp [Event.gain]
  | other h =>
    cases e with
    | scopeOpened | scopeClosed => cases h
    | _ => simp [Event.gain]

lemma Event.Leads.depth {e : Event} {n next : Nat} (h : e.Leads n next) :
    ∀ depth ∈ e.depth?, depth = next := by
  cases h with
  | opened | closed => simp [Event.depth?]
  | other h => simp [h]

namespace Counts

variable {floor n k : Nat} {events : List Event}

lemma gain (h : Counts floor n events k) : (k : ℤ) = n + gainOf events := by
  induction h with
  | nil => simp [gainOf_nil]
  | cons _ first _ ih =>
    rw [gainOf_cons, ih, first.gain]
    ring

lemma append {next : Nat} {later : List Event} (h : Counts floor n events next)
    (h' : Counts floor next later k) : Counts floor n (events ++ later) k := by
  induction h with
  | nil => exact h'
  | cons hn first _ ih => exact .cons hn first (ih h')

lemma mono {floor' : Nat} (hle : floor' ≤ floor) (h : Counts floor n events k) :
    Counts floor' n events k := by
  induction h with
  | nil hn => exact .nil (hle.trans hn)
  | cons hn first _ ih => exact .cons (hle.trans hn) first ih

lemma floor_le (h : Counts floor n events k) : floor ≤ n := by
  cases h with
  | nil hn => exact hn
  | cons hn _ _ => exact hn

/-- What holds of all events holds of those up to a moment. -/
lemma split {before after : List Event} (h : Counts floor n (before ++ after) k) :
    ∃ next, Counts floor n before next ∧ Counts floor next after k := by
  induction before generalizing n with
  | nil => exact ⟨n, .nil h.floor_le, h⟩
  | cons e before ih =>
    cases h with
    | cons hn first others =>
      obtain ⟨next, hbefore, hafter⟩ := ih others
      exact ⟨next, .cons hn first hbefore, hafter⟩

lemma floor_le_gain {before after : List Event} (h : Counts floor n (before ++ after) k) :
    (floor : ℤ) ≤ n + gainOf before := by
  obtain ⟨next, hbefore, hafter⟩ := h.split
  rw [← hbefore.gain]
  exact_mod_cast hafter.floor_le

/-- An event tells what was counted up to it, itself included. -/
lemma depth_eq {before after : List Event} {e : Event} {depth : Nat}
    (h : Counts floor n (before ++ e :: after) k) (hdepth : e.depth? = some depth) :
    (depth : ℤ) = n + gainOf (before ++ [e]) := by
  rw [List.append_cons] at h
  obtain ⟨next, hupto, -⟩ := h.split
  obtain ⟨last, -, hlast⟩ := hupto.split
  cases hlast with
  | cons _ first others =>
    cases others with
    | nil => rw [first.depth depth hdepth, hupto.gain]

end Counts

/-! ### Rules -/

/-- From the one machine to the other, the log tells of the scopes, and there are never fewer than
at the start. -/
def Machine.CountsTo (m m' : Machine σ) : Prop :=
  ∃ events, m'.events = m.events ++ events ∧ Counts m.env.depth m.env.depth events m'.env.depth

namespace Machine.CountsTo

variable {m m₁ m' : Machine σ}

lemma refl (m : Machine σ) : m.CountsTo m := ⟨[], (List.append_nil _).symm, .nil le_rfl⟩

/-- A change that the log is silent about, with as many scopes as before. -/
lemma of_log_eq (hlog : m'.log = m.log) (hdepth : m'.env.depth = m.env.depth) : m.CountsTo m' := by
  refine ⟨[], by rw [events_eq_of_log_eq hlog, List.append_nil], ?_⟩
  rw [hdepth]
  exact .nil le_rfl

lemma trans (h : m.CountsTo m₁) (hdepth : m₁.env.depth = m.env.depth) (h' : m₁.CountsTo m') :
    m.CountsTo m' := by
  obtain ⟨events, hevents, hcounts⟩ := h
  obtain ⟨later, hlater, hcounts'⟩ := h'
  refine ⟨events ++ later, by rw [hlater, hevents, List.append_assoc], hcounts.append ?_⟩
  rwa [hdepth] at hcounts' ⊢

end Machine.CountsTo

namespace Run

/-- The computation logs how the number of scopes changes. If it gives a value, there are as many
as at the start. -/
def LogsScopes (x : Run σ α) : Prop :=
  x.Ensures (fun m _ m' => m.CountsTo m' ∧ m'.env.depth = m.env.depth) fun m _ m' => m.CountsTo m'

variable {x : Run σ α} {f : α → Run σ β}

lemma logsScopes_pure (a : α) : (pure a : Run σ α).LogsScopes := .pure fun m => ⟨.refl m, rfl⟩

lemma logsScopes_fail (e : RuntimeError) : (fail e : Run σ α).LogsScopes := .fail .refl

lemma LogsScopes.bind (hx : x.LogsScopes) (hf : ∀ a, (f a).LogsScopes) : (x >>= f).LogsScopes := by
  refine Ensures.bind hx hf ?_ (fun h => h) ?_
  · intro m a m₁ b m' h₁ h₂
    exact ⟨h₁.1.trans h₁.2 h₂.1, h₂.2.trans h₁.2⟩
  · intro m a m₁ e m' h₁ h₂
    exact h₁.1.trans h₁.2 h₂

lemma logsScopes_ofExcept (r : Except RuntimeError α) : (ofExcept r : Run σ α).LogsScopes := by
  cases r with
  | ok a => exact logsScopes_pure a
  | error e => exact logsScopes_fail e

/-- An event about something else. -/
lemma logsScopes_note {event : Event} (h : event.depth? = none) :
    (note event : Run σ Unit).LogsScopes where
  done {calls m u m'} heq := by
    obtain ⟨-, rfl⟩ := Outcome.done.inj heq
    have hcounts : Counts m.env.depth m.env.depth [event] m.env.depth :=
      .cons le_rfl (.other h) (.nil le_rfl)
    exact ⟨⟨[event], Machine.events_of_log_cons rfl, hcounts⟩, rfl⟩
  failed heq := by cases heq

lemma logsScopes_lookup (name : String) : (lookup name : Run σ Variable).LogsScopes :=
  (lookup_ensures name).mono (fun h => by rw [h.1]; exact ⟨.refl _, rfl⟩)
    fun h => by rw [h.1]; exact .refl _

lemma logsScopes_declare (tag : TypeTag) (name : String) (value : Value) :
    (declare tag name value : Run σ Unit).LogsScopes := by
  refine .change (fun m env h => ?_) fun m e _ => .refl m
  have hdepth : env.depth = m.env.depth := (Environment.grows_of_declare h).extends.depth_eq
  exact ⟨.of_log_eq rfl hdepth, hdepth⟩

/-- A host function touches neither the environment nor the log. -/
lemma callNative_ensures (host : Host σ) (f : Native) (args : List Value) :
    (callNative host f args).Ensures (fun m _ m' => m'.env = m.env ∧ m'.log = m.log)
      fun m e m' => m'.env = m.env ∧ m'.log = m.log ∧ ∃ reason, e = .native f.name reason where
  done {calls m v m'} heq := by
    unfold callNative at heq
    split at heq
    · obtain ⟨-, rfl⟩ := Outcome.done.inj heq
      exact ⟨rfl, rfl⟩
    · cases heq
  failed {calls m e m'} heq := by
    unfold callNative at heq
    split at heq
    · cases heq
    · obtain ⟨rfl, rfl⟩ := Outcome.failed.inj heq
      exact ⟨rfl, rfl, _, rfl⟩

lemma logsScopes_callNative (host : Host σ) (f : Native) (args : List Value) :
    (callNative host f args).LogsScopes :=
  (callNative_ensures host f args).mono
    (fun ⟨henv, hlog⟩ => ⟨.of_log_eq hlog (by rw [henv]), by rw [henv]⟩)
    fun ⟨henv, hlog, _⟩ => .of_log_eq hlog (by rw [henv])

lemma counts_opened {calls : List String} {m m₁ : Machine σ} (h : (m.opened calls).CountsTo m₁) :
    ∃ events, m₁.events = m.events ++ events ∧
      Counts m.env.depth m.env.depth events m₁.env.depth := by
  obtain ⟨events, hevents, hcounts⟩ := h
  refine ⟨.scopeOpened (m.env.depth + 1) :: events, ?_, ?_⟩
  · have hopened : (m.opened calls).events = m.events ++ [.scopeOpened (m.env.depth + 1)] :=
      Machine.events_of_log_cons rfl
    rw [hevents, hopened, List.append_assoc, List.singleton_append]
  · exact .cons le_rfl .opened (hcounts.mono (Nat.le_succ _))

/-- A scope is told of when it is opened, and again when it is closed. -/
lemma LogsScopes.inScope {g : α → β} (hgrows : x.Growing) (hx : x.LogsScopes) :
    (inScope g x).LogsScopes := by
  constructor
  · intro calls m b m' heq
    cases hxm : x calls (m.opened calls) with
    | done a m₁ =>
      rw [inScope_done hgrows hxm] at heq
      obtain ⟨-, rfl⟩ := Outcome.done.inj heq
      obtain ⟨hcounts, hdepth⟩ := hx.done hxm
      obtain ⟨events, hevents, hcounts⟩ := counts_opened hcounts
      refine ⟨⟨events ++ [.scopeClosed m.env.depth], ?_, hcounts.append ?_⟩, rfl⟩
      · rw [← List.append_assoc, ← hevents]
        exact Machine.events_of_log_cons rfl
      · rw [hdepth]
        exact .cons (Nat.le_succ _) .closed (.nil le_rfl)
    | failed e m₁ =>
      rw [inScope_failed hxm] at heq
      cases heq
    | exhausted =>
      rw [inScope_exhausted hxm] at heq
      cases heq
  · intro calls m e m' heq
    cases hxm : x calls (m.opened calls) with
    | done a m₁ =>
      rw [inScope_done hgrows hxm] at heq
      cases heq
    | failed e m₁ =>
      rw [inScope_failed hxm] at heq
      obtain ⟨-, rfl⟩ := Outcome.failed.inj heq
      exact counts_opened (hx.failed hxm)
    | exhausted =>
      rw [inScope_exhausted hxm] at heq
      cases heq

end Run

/-! ### Trees -/

section

open Run

variable {call : FunctionDef → List Value → Run σ TypedValue} (host : Host σ)

lemma logsScopes_applyName (hcall : ∀ f args, (call f args).LogsScopes) (callee : String)
    (args : List Value) : (applyName host call callee args).LogsScopes := by
  refine (logsScopes_lookup callee).bind fun target => ?_
  split
  · exact (logsScopes_callNative host _ args).bind fun v => logsScopes_pure _
  · exact hcall _ args
  · exact logsScopes_fail _

mutual

lemma logsScopes_evalExpr (hcall : ∀ f args, (call f args).LogsScopes) :
    (e : Expr) → (evalExpr host call e).LogsScopes
  | .int _ => by
    rw [evalExpr]
    exact logsScopes_pure _
  | .void => by
    rw [evalExpr]
    exact logsScopes_pure _
  | .var name => by
    rw [evalExpr]
    exact (logsScopes_lookup name).bind fun _ => logsScopes_pure _
  | .call callee args => by
    rw [evalExpr]
    have hargs := logsScopes_evalArgs hcall args
    exact (hargs.bind fun values => logsScopes_applyName host hcall callee values).within
  | .binary op left right => by
    rw [evalExpr]
    refine (logsScopes_evalExpr hcall left).bind fun l => ?_
    refine (logsScopes_evalExpr hcall right).bind fun r => ?_
    exact (logsScopes_ofExcept _).bind fun _ => logsScopes_pure _

lemma logsScopes_evalArgs (hcall : ∀ f args, (call f args).LogsScopes) :
    (es : List Expr) → (evalArgs host call es).LogsScopes
  | [] => by
    rw [evalArgs]
    exact logsScopes_pure _
  | e :: es => by
    rw [evalArgs]
    refine (logsScopes_evalExpr hcall e).bind fun v => ?_
    exact (logsScopes_evalArgs hcall es).bind fun vs => logsScopes_pure _

end

mutual

lemma logsScopes_execBlock (hsteady : ∀ f args, (call f args).Steady)
    (hcall : ∀ f args, (call f args).LogsScopes) :
    (b : Block) → (execBlock host call b).LogsScopes
  | [] => by
    rw [execBlock]
    exact logsScopes_pure _
  | s :: b => by
    rw [execBlock]
    refine (logsScopes_execStmt hsteady hcall s).bind fun returned => ?_
    cases returned with
    | some v => exact logsScopes_pure _
    | none => exact logsScopes_execBlock hsteady hcall b

lemma logsScopes_execStmt (hsteady : ∀ f args, (call f args).Steady)
    (hcall : ∀ f args, (call f args).LogsScopes) :
    (s : Stmt) → (execStmt host call s).LogsScopes
  | .function name params body => by
    rw [execStmt]
    have hdeclare : (declareFunction ⟨name, params, body⟩ : Run σ Unit).LogsScopes :=
      (logsScopes_note rfl).bind fun _ => logsScopes_declare _ _ _
    exact hdeclare.bind fun _ => logsScopes_pure _
  | .ret e => by
    rw [execStmt]
    exact (logsScopes_evalExpr host hcall e).bind fun _ => logsScopes_pure _
  | .cond condition body => by
    rw [execStmt]
    have hbody := logsScopes_execBlock hsteady hcall body
    refine (logsScopes_evalExpr host hcall condition).bind fun c => ?_
    refine (logsScopes_ofExcept _).bind fun n => ?_
    split
    · exact logsScopes_pure _
    · exact .inScope (g := id) (growing_execBlock host hsteady body) hbody
  | .expr e => by
    rw [execStmt]
    exact (logsScopes_evalExpr host hcall e).bind fun _ => logsScopes_pure _
  | .bind name init => by
    rw [execStmt]
    refine (logsScopes_evalExpr host hcall init).bind fun v => ?_
    refine (logsScopes_note rfl).bind fun _ => ?_
    exact (logsScopes_declare _ name _).bind fun _ => logsScopes_pure _
  | .empty _ => by
    rw [execStmt]
    exact (logsScopes_note rfl).bind fun _ => logsScopes_pure _

end

lemma logsScopes_bindParams : (params : List Param) → (args : List Value) →
    (bindParams params args : Run σ Unit).LogsScopes
  | [], _ => logsScopes_pure ()
  | _ :: _, [] => logsScopes_pure ()
  | p :: ps, v :: vs => by
    unfold bindParams
    cases v with
    | int n => exact (logsScopes_declare p.tag p.name _).bind fun _ => logsScopes_bindParams ps vs
    | _ => exact logsScopes_fail _

lemma logsScopes_callFunction (limit : Nat) (f : FunctionDef) (args : List Value) :
    (callFunction host limit f args).LogsScopes := by
  induction limit generalizing f args with
  | zero => exact .giveUp
  | succ limit ih =>
    have hsteady := steady_callFunction host limit
    have hbody : (Run.inScope (·.getD .void) (bindParams f.params args >>= fun _ =>
        execBlock host (callFunction host limit) f.body) : Run σ TypedValue).LogsScopes :=
      .inScope ((growing_bindParams f.params args).bind fun _ => growing_execBlock host hsteady _)
        ((logsScopes_bindParams f.params args).bind fun _ =>
          logsScopes_execBlock host hsteady ih f.body)
    rw [callFunction_succ]
    split
    · exact logsScopes_fail _
    · dsimp only
      split
      · exact (logsScopes_note rfl).bind fun _ => hbody
      · exact hbody

end

/-! ### Runs -/

lemma Run.LogsScopes.countsTo {x : Run σ α} (hx : x.LogsScopes) {calls : List String}
    {m m' : Machine σ} (h : (x calls m).state? = some m') : m.CountsTo m' := by
  cases hxm : x calls m with
  | done a m₁ =>
    rw [hxm] at h
    obtain rfl := Option.some.inj h
    exact (hx.done hxm).1
  | failed e m₁ =>
    rw [hxm] at h
    obtain rfl := Option.some.inj h
    exact hx.failed hxm
  | exhausted =>
    rw [hxm] at h
    cases h

lemma Machine.events_unwind (m : Machine σ) :
    m.unwind.events =
      m.events ++ if m.env.depth - 1 = 0 then [] else [.unwound (m.env.depth - 1)] := by
  obtain ⟨⟨inner, global⟩, host, log⟩ := m
  cases inner with
  | nil => exact (List.append_nil _).symm
  | cons s outer => exact events_of_log_cons rfl

lemma Environment.one_le_depth (env : Environment) : 1 ≤ env.depth := Nat.le_add_left 1 _

/-- **The log counts scopes.** Take the events that a run of a program adds to the log, whether it
gives a value or fails, and count the scopes from as many as there were: one more where a scope is
opened, one less where one is closed. Every event that tells a number tells that of the count, the
count is never less than at the start, and at the end it is the number of scopes that there are. It
is as at the start if the run gives a value. Going back to the global scope then logs that it drops
one less than the count, or logs nothing if that is none. -/
theorem exec_logs_scopes (host : Host σ) (limit : Nat) (program : Block) (m : Machine σ)
    {m' : Machine σ} (h : (m.exec host limit program).state? = some m') :
    ∃ events, m'.events = m.events ++ events ∧
      (∀ before e after (depth : Nat), events = before ++ e :: after → e.depth? = some depth →
        (depth : ℤ) = m.env.depth + gainOf (before ++ [e])) ∧
      (∀ before after, events = before ++ after →
        (m.env.depth : ℤ) ≤ m.env.depth + gainOf before) ∧
      (m'.env.depth : ℤ) = m.env.depth + gainOf events ∧
      (∀ v, m.exec host limit program = .done v m' →
        (m.env.depth : ℤ) + gainOf events = m.env.depth) ∧
      ∃ discarded : Nat, (discarded : ℤ) = m.env.depth + gainOf events - 1 ∧
        m'.unwind.events = m'.events ++ if discarded = 0 then [] else [.unwound discarded] := by
  have hlogs := logsScopes_execBlock host (steady_callFunction host limit)
    (logsScopes_callFunction host limit) program
  obtain ⟨events, hevents, hcounts⟩ := hlogs.countsTo h
  refine ⟨events, hevents, ?_, ?_, hcounts.gain, ?_, m'.env.depth - 1, ?_, m'.events_unwind⟩
  · rintro before e after depth rfl hdepth
    exact hcounts.depth_eq hdepth
  · rintro before after rfl
    exact hcounts.floor_le_gain
  · intro v hrun
    rw [← hcounts.gain, (hlogs.done hrun).2]
  · rw [← hcounts.gain, Nat.cast_sub m'.env.one_le_depth, Nat.cast_one]

/-- A call that fails in a conditional leaves two scopes open, and both are counted. -/
theorem exec_logs_scopes_left_open :
    let program : Block :=
      [.cond (.int 1) [], .function "f" [] [.cond (.int 1) [.expr (.call "g" [])]],
        .expr (.call "f" [])]
    let events : List Event :=
      [.scopeOpened 2, .scopeClosed 1, .functionDefined "f" "", .scopeOpened 2,
        .scopeOpened 3]
    ∃ m' : Machine Unit, (Machine.start ()).exec ⟨fun _ _ s => (.ok .void, s)⟩ 2 program =
        .failed (.undefinedIdentifier "g") m' ∧
      m'.events = events ∧ (m'.env.depth : ℤ) = 1 + gainOf events ∧
      m'.unwind.events = events ++ [.unwound 2] := by
  intro program events
  obtain ⟨m', hrun, hevents, hdepth⟩ : ∃ m' : Machine Unit,
      (Machine.start ()).exec ⟨fun _ _ s => (.ok .void, s)⟩ 2 program =
        .failed (.undefinedIdentifier "g") m' ∧ m'.events = events ∧ m'.env.depth = 3 :=
    ⟨_, rfl, rfl, rfl⟩
  obtain ⟨events', hadded, -, -, hcount, -, discarded, hdiscarded, hunwind⟩ :=
    exec_logs_scopes ⟨fun _ _ s => (.ok .void, s)⟩ 2 program (.start ()) (by rw [hrun]; rfl)
  obtain rfl : events' = events := by rw [← hevents, hadded]; rfl
  refine ⟨m', hrun, hevents, hcount, ?_⟩
  rw [← hcount, hdepth] at hdiscarded
  obtain rfl : discarded = 2 := by omega
  rw [hunwind, hevents]
  rfl

end Flame
