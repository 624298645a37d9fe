import Flame.Proofs.Limits
import Mathlib.Logic.Relation

/-!
The moments of a run.

Running a tree starts runs of its parts, each on the machine that the parts before it left, and a
call starts a run of the function's body. A moment is such a start: what is to be run, on which
machine, and which functions have their bodies being run. All moments of a run are reached from its
first one, and a run that is given up has a moment at which no call is allowed any more.
-/

namespace Flame

variable {σ : Type}

/-- All that a call does before the function's body runs: it checks the number of arguments, opens
a scope and binds the parameters in it. -/
def enterCall (f : FunctionDef) (args : List Value) : Run σ Unit :=
  if args.length < f.params.length then
    Run.fail (.arityMismatch f.name f.params.length args.length)
  else if f.params.length < args.length then do
    Run.note (.surplusArguments f.name (args.length - f.params.length))
    Run.openScope
    bindParams f.params args
  else do
    Run.openScope
    bindParams f.params args

lemma callFunction_eq_enterCall (host : Host σ) (limit : Nat) (f : FunctionDef)
    (args : List Value) :
    callFunction host (limit + 1) f args = (enterCall f args >>= fun _ =>
      execBlock host (callFunction host limit) f.body >>= fun result =>
        Run.closeScope >>= fun _ => pure (result.getD .void)) := by
  rw [callFunction, enterCall]
  split
  · rfl
  · dsimp only
    split <;> simp only [Run.bind_assoc]

/-- What is to be run. -/
inductive Task
  | expr (e : Expr)
  | args (es : List Expr)
  /-- The call of what a name is bound to. -/
  | apply (callee : String) (args : List Value)
  | stmt (s : Stmt)
  | block (b : Block)

/-- The start of a run, as a part of a whole run. -/
structure Moment (σ : Type) where
  task : Task
  /-- The functions whose bodies are being run, innermost first. -/
  active : List FunctionDef
  /-- How many more calls may nest. -/
  limit : Nat
  calls : List String
  machine : Machine σ

/-- The expression that a statement evaluates before it does anything else. -/
def Stmt.expr? : Stmt → Option Expr
  | .ret e | .cond e _ | .expr e | .bind _ e => some e
  | .function .. | .empty _ => none

/-- A run starts the run of a part. -/
inductive Leads (host : Host σ) : Moment σ → Moment σ → Prop
  | left {op l r fs n calls m} :
      Leads host ⟨.expr (.binary op l r), fs, n, calls, m⟩ ⟨.expr l, fs, n, calls, m⟩
  | right {op l r fs n calls m v m₁}
      (hl : evalExpr host (callFunction host n) l calls m = .done v m₁) :
      Leads host ⟨.expr (.binary op l r), fs, n, calls, m⟩ ⟨.expr r, fs, n, calls, m₁⟩
  | args {callee es fs n calls m} :
      Leads host ⟨.expr (.call callee es), fs, n, calls, m⟩ ⟨.args es, fs, n, callee :: calls, m⟩
  | apply {callee es fs n calls m vs m₁}
      (hargs : evalArgs host (callFunction host n) es (callee :: calls) m = .done vs m₁) :
      Leads host ⟨.expr (.call callee es), fs, n, calls, m⟩
        ⟨.apply callee vs, fs, n, callee :: calls, m₁⟩
  | arg {e es fs n calls m} :
      Leads host ⟨.args (e :: es), fs, n, calls, m⟩ ⟨.expr e, fs, n, calls, m⟩
  | otherArgs {e es fs n calls m v m₁}
      (he : evalExpr host (callFunction host n) e calls m = .done v m₁) :
      Leads host ⟨.args (e :: es), fs, n, calls, m⟩ ⟨.args es, fs, n, calls, m₁⟩
  | body {callee vs fs n calls m v f m₁} (hfind : m.env.find? callee = some v)
      (hvalue : v.value = .function f) (henter : enterCall f vs calls m = .done () m₁) :
      Leads host ⟨.apply callee vs, fs, n + 1, calls, m⟩ ⟨.block f.body, f :: fs, n, calls, m₁⟩
  | evaluated {s e fs n calls m} (hs : s.expr? = some e) :
      Leads host ⟨.stmt s, fs, n, calls, m⟩ ⟨.expr e, fs, n, calls, m⟩
  | branch {e b fs n calls m c k m₁}
      (he : evalExpr host (callFunction host n) e calls m = .done c m₁)
      (hc : c.operand = .ok k) (hk : ¬k ≤ 0) :
      Leads host ⟨.stmt (.cond e b), fs, n, calls, m⟩ ⟨.block b, fs, n, calls, m₁.opened calls⟩
  | first {s b fs n calls m} :
      Leads host ⟨.block (s :: b), fs, n, calls, m⟩ ⟨.stmt s, fs, n, calls, m⟩
  | others {s b fs n calls m m₁}
      (hs : execStmt host (callFunction host n) s calls m = .done none m₁) :
      Leads host ⟨.block (s :: b), fs, n, calls, m⟩ ⟨.block b, fs, n, calls, m₁⟩

/-- The first moment of a program's run. -/
def Moment.start (limit : Nat) (program : Block) (m : Machine σ) : Moment σ :=
  ⟨.block program, [], limit, [], m⟩

/-- The one moment comes to pass in the run that starts with the other. -/
def Reaches (host : Host σ) : Moment σ → Moment σ → Prop := Relation.ReflTransGen (Leads host)

/-- The bodies being run and the calls still allowed are as many as the calls allowed at first. -/
lemma Reaches.length_add_limit {host : Host σ} {M N : Moment σ} (h : Reaches host M N) :
    N.active.length + N.limit = M.active.length + M.limit := by
  induction h with
  | refl => rfl
  | tail _ hleads ih =>
    rw [← ih]
    cases hleads <;> simp only [List.length_cons]
    omega

/-! ### Runs that are given up -/

/-- The run comes to a moment at which no call is allowed any more. -/
def Spends (host : Host σ) (M : Moment σ) : Prop := ∃ N, Reaches host M N ∧ N.limit = 0

lemma Spends.of_leads {host : Host σ} {M N : Moment σ} (h : Leads host M N)
    (hspends : Spends host N) : Spends host M := by
  obtain ⟨K, hreaches, hlimit⟩ := hspends
  exact ⟨K, .head h hreaches, hlimit⟩

section

open Run

variable {host : Host σ} {n : Nat} {fs : List FunctionDef} {calls : List String} {m : Machine σ}

/-- Calls that are given up come to a moment at which none is allowed. -/
structure CallsSpend (host : Host σ) (n : Nat) : Prop where
  spends : ∀ {callee v f vs fs calls m}, m.env.find? callee = some v → v.value = .function f →
    callFunction host n f vs calls m = .exhausted → Spends host ⟨.apply callee vs, fs, n, calls, m⟩

lemma CallsSpend.applyName (hcalls : CallsSpend host n) {callee : String} {vs : List Value}
    (h : applyName host (callFunction host n) callee vs calls m = .exhausted) :
    Spends host ⟨.apply callee vs, fs, n, calls, m⟩ := by
  unfold Flame.applyName at h
  rcases bind_eq_exhausted_iff.1 h with hlookup | ⟨v, m₁, hlookup, happly⟩
  · exact absurd hlookup (ends_lookup callee calls m)
  · have hfind : m.env.find? callee = some v ∧ m₁ = m := by
      unfold lookup Environment.lookup at hlookup
      cases hfind : m.env.find? callee with
      | none =>
        rw [hfind] at hlookup
        cases hlookup
      | some w =>
        rw [hfind] at hlookup
        obtain ⟨rfl, rfl⟩ := Outcome.done.inj hlookup
        exact ⟨rfl, rfl⟩
    obtain ⟨hfind, rfl⟩ := hfind
    cases hvalue : v.value with
    | native g =>
      rw [hvalue] at happly
      exact absurd happly ((ends_callNative host g vs).bind (fun _ => ends_pure _) calls m₁)
    | function f =>
      rw [hvalue] at happly
      exact hcalls.spends hfind hvalue happly
    | _ =>
      rw [hvalue] at happly
      cases happly

mutual

lemma CallsSpend.evalExpr (hcalls : CallsSpend host n) : (e : Expr) → {calls : List String} →
    {m : Machine σ} → evalExpr host (callFunction host n) e calls m = .exhausted →
    Spends host ⟨.expr e, fs, n, calls, m⟩
  | .int _, _, _, h => by
    rw [Flame.evalExpr] at h
    cases h
  | .void, _, _, h => by
    rw [Flame.evalExpr] at h
    cases h
  | .var name, calls, m, h => by
    rw [Flame.evalExpr] at h
    exact absurd h ((ends_lookup name).bind (fun _ => ends_pure _) calls m)
  | .call callee es, calls, m, h => by
    rw [Flame.evalExpr] at h
    change (_ >>= _ : Run σ TypedValue) (callee :: calls) m = _ at h
    rcases bind_eq_exhausted_iff.1 h with hargs | ⟨vs, m₁, hargs, happly⟩
    · exact .of_leads .args (hcalls.evalArgs es hargs)
    · exact .of_leads (.apply hargs) (hcalls.applyName happly)
  | .binary op l r, calls, m, h => by
    rw [Flame.evalExpr] at h
    rcases bind_eq_exhausted_iff.1 h with hl | ⟨v, m₁, hl, h⟩
    · exact .of_leads .left (hcalls.evalExpr l hl)
    · rcases bind_eq_exhausted_iff.1 h with hr | ⟨w, m₂, -, h⟩
      · exact .of_leads (.right hl) (hcalls.evalExpr r hr)
      · exact absurd h ((ends_ofExcept _).bind (fun _ => ends_pure _) calls m₂)

lemma CallsSpend.evalArgs (hcalls : CallsSpend host n) : (es : List Expr) →
    {calls : List String} → {m : Machine σ} →
    evalArgs host (callFunction host n) es calls m = .exhausted →
    Spends host ⟨.args es, fs, n, calls, m⟩
  | [], _, _, h => by
    rw [Flame.evalArgs] at h
    cases h
  | e :: es, calls, m, h => by
    rw [Flame.evalArgs] at h
    rcases bind_eq_exhausted_iff.1 h with he | ⟨v, m₁, he, h⟩
    · exact .of_leads .arg (hcalls.evalExpr e he)
    · rcases bind_eq_exhausted_iff.1 h with hes | ⟨w, m₂, -, h⟩
      · exact .of_leads (.otherArgs he) (hcalls.evalArgs es hes)
      · cases h

end

/-- A statement's own expression is all that can be given up, if nothing after it can. -/
lemma CallsSpend.of_expr (hcalls : CallsSpend host n) {α : Type} {s : Stmt} {e : Expr}
    (hs : s.expr? = some e) {g : TypedValue → Run σ α} (hg : ∀ v, (g v).Ends)
    (h : (Flame.evalExpr host (callFunction host n) e >>= g) calls m = .exhausted) :
    Spends host ⟨.stmt s, fs, n, calls, m⟩ := by
  rcases bind_eq_exhausted_iff.1 h with he | ⟨v, m₁, -, hrest⟩
  · exact .of_leads (.evaluated hs) (hcalls.evalExpr e he)
  · exact absurd hrest (hg v calls m₁)

mutual

lemma CallsSpend.execBlock (hcalls : CallsSpend host n) : (b : Block) → {calls : List String} →
    {m : Machine σ} → execBlock host (callFunction host n) b calls m = .exhausted →
    Spends host ⟨.block b, fs, n, calls, m⟩
  | [], _, _, h => by
    rw [Flame.execBlock] at h
    cases h
  | s :: b, calls, m, h => by
    rw [Flame.execBlock] at h
    rcases bind_eq_exhausted_iff.1 h with hs | ⟨returned, m₁, hs, h⟩
    · exact .of_leads .first (hcalls.execStmt s hs)
    · cases returned with
      | some v => cases h
      | none => exact .of_leads (.others hs) (hcalls.execBlock b h)

lemma CallsSpend.execStmt (hcalls : CallsSpend host n) : (s : Stmt) → {calls : List String} →
    {m : Machine σ} → execStmt host (callFunction host n) s calls m = .exhausted →
    Spends host ⟨.stmt s, fs, n, calls, m⟩
  | .function name params body, calls, m, h => by
    rw [Flame.execStmt] at h
    refine absurd h (Ends.bind ?_ (fun _ => ends_pure _) calls m)
    exact (ends_note _).bind fun _ => ends_change _
  | .ret e, calls, m, h => by
    rw [Flame.execStmt] at h
    exact hcalls.of_expr rfl (fun _ => ends_pure _) h
  | .cond e b, calls, m, h => by
    rw [Flame.execStmt] at h
    rcases bind_eq_exhausted_iff.1 h with he | ⟨c, m₁, he, h⟩
    · exact .of_leads (.evaluated rfl) (hcalls.evalExpr e he)
    · cases hc : c.operand with
      | error error =>
        rw [hc] at h
        cases h
      | ok k =>
        rw [hc] at h
        change (if k ≤ 0 then _ else _ : Run σ _) calls m₁ = _ at h
        split at h
        · cases h
        · rename_i hk
          rw [bind_of_done (openScope_apply calls m₁)] at h
          rcases bind_eq_exhausted_iff.1 h with hb | ⟨r, m₂, -, h⟩
          · exact .of_leads (.branch he hc hk) (hcalls.execBlock b hb)
          · exact absurd h (ends_closeScope.bind (fun _ => ends_pure _) calls m₂)
  | .expr e, calls, m, h => by
    rw [Flame.execStmt] at h
    exact hcalls.of_expr rfl (fun _ => ends_pure _) h
  | .bind name e, calls, m, h => by
    rw [Flame.execStmt] at h
    refine hcalls.of_expr rfl (fun v => ?_) h
    exact (ends_note _).bind fun _ => (ends_change _).bind fun _ => ends_pure _
  | .empty span, calls, m, h => by
    rw [Flame.execStmt] at h
    exact absurd h ((ends_note _).bind (fun _ => ends_pure _) calls m)

end

lemma ends_enterCall (f : FunctionDef) (args : List Value) :
    (enterCall f args : Run σ Unit).Ends := by
  have hbind : (openScope >>= fun _ => bindParams f.params args : Run σ Unit).Ends :=
    ends_openScope.bind fun _ => ends_bindParams _ _
  unfold enterCall
  split
  · exact ends_fail _
  · split
    · exact (ends_note _).bind fun _ => hbind
    · exact hbind

lemma callsSpend (host : Host σ) (n : Nat) : CallsSpend host n := by
  induction n with
  | zero => exact ⟨fun _ _ _ => ⟨_, .refl, rfl⟩⟩
  | succ n ih =>
    refine ⟨?_⟩
    intro callee v f vs fs calls m hfind hvalue h
    rw [callFunction_eq_enterCall] at h
    rcases bind_eq_exhausted_iff.1 h with henter | ⟨_, m₁, henter, h⟩
    · exact absurd henter (ends_enterCall f vs calls m)
    · rcases bind_eq_exhausted_iff.1 h with hbody | ⟨r, m₂, -, h⟩
      · exact .of_leads (.body hfind hvalue henter) (ih.execBlock f.body hbody)
      · exact absurd h (ends_closeScope.bind (fun _ => ends_pure _) calls m₂)

end

/-- **Giving up.** A run that is given up has a moment at which no call is allowed any more: as many
bodies are being run as calls were allowed to nest. -/
theorem exists_moment_of_exhausted {host : Host σ} {limit : Nat} {program : Block} {m : Machine σ}
    (h : m.exec host limit program = .exhausted) :
    ∃ M, Reaches host (.start limit program m) M ∧ M.active.length = limit := by
  obtain ⟨M, hreaches, hlimit⟩ := (callsSpend host limit).execBlock program h
  refine ⟨M, hreaches, ?_⟩
  have hsum := hreaches.length_add_limit
  rw [hlimit] at hsum
  simpa using hsum

end Flame
