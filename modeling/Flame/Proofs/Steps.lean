import Flame.Proofs.RunLogic
import Mathlib.Logic.Relation

/-!
What a computation does to its machine, step by step.

Whatever is run, and whether it gives a value or fails, the machine changes in five ways only: an
event is logged, a scope is opened or closed, a name is bound, the host is called. So whatever these
five preserve is preserved by every run.
-/

namespace Flame

variable {σ α β : Type}

/-- One change of a machine. -/
inductive Machine.Step (host : Host σ) : Machine σ → Machine σ → Prop
  | note (m : Machine σ) (entry : LogEntry) : Step host m { m with log := entry :: m.log }
  | openScope (m : Machine σ) : Step host m { m with env := m.env.push }
  | closeScope {m : Machine σ} {env : Environment} (h : m.env.pop = .ok env) :
      Step host m { m with env }
  | declare {m : Machine σ} {v : Variable} {env : Environment} (h : m.env.declare v = .ok env) :
      Step host m { m with env }
  | call (m : Machine σ) (f : Native) (args : List Value) :
      Step host m { m with host := (host.call f args m.host).2 }

/-- Any number of changes. -/
def Machine.Steps (host : Host σ) : Machine σ → Machine σ → Prop :=
  Relation.ReflTransGen (Machine.Step host)

namespace Run

/-- The computation makes steps, whether it gives a value or fails. -/
def Stepwise (host : Host σ) (x : Run σ α) : Prop :=
  x.Ensures (fun m _ m' => m.Steps host m') (fun m _ m' => m.Steps host m')

variable {host : Host σ} {x : Run σ α} {f : α → Run σ β}

/-! ### Rules -/

lemma stepwise_pure (a : α) : (pure a : Run σ α).Stepwise host := .pure fun _ => .refl

lemma stepwise_fail (e : RuntimeError) : (fail e : Run σ α).Stepwise host := .fail fun _ => .refl

lemma Stepwise.bind (hx : x.Stepwise host) (hf : ∀ a, (f a).Stepwise host) :
    (x >>= f).Stepwise host :=
  Ensures.bind hx hf (fun h₁ h₂ => h₁.trans h₂) (fun h => h) (fun h₁ h₂ => h₁.trans h₂)

lemma stepwise_ofExcept (r : Except RuntimeError α) : (ofExcept r : Run σ α).Stepwise host := by
  cases r with
  | ok a => exact stepwise_pure a
  | error e => exact stepwise_fail e

lemma stepwise_note (event : Event) : (note event : Run σ Unit).Stepwise host where
  done heq := by
    obtain ⟨-, rfl⟩ := Outcome.done.inj heq
    exact .single (.note _ _)
  failed heq := by cases heq

lemma stepwise_depth : (depth : Run σ Nat).Stepwise host where
  done heq := by
    obtain ⟨-, rfl⟩ := Outcome.done.inj heq
    exact .refl
  failed heq := by cases heq

lemma stepwise_lookup (name : String) : (lookup name : Run σ Variable).Stepwise host where
  done {calls m a m'} heq := by
    unfold lookup at heq
    split at heq
    · obtain ⟨-, rfl⟩ := Outcome.done.inj heq
      exact .refl
    · cases heq
  failed {calls m e m'} heq := by
    unfold lookup at heq
    split at heq
    · cases heq
    · obtain ⟨-, rfl⟩ := Outcome.failed.inj heq
      exact .refl

lemma stepwise_openScope : (openScope : Run σ Unit).Stepwise host := by
  refine Stepwise.bind (.change (fun m env h => ?_) fun _ _ _ => .refl) fun _ =>
    stepwise_depth.bind fun _ => stepwise_note _
  obtain rfl := Except.ok.inj h
  exact .single (.openScope m)

lemma stepwise_closeScope : (closeScope : Run σ Unit).Stepwise host :=
  Stepwise.bind (.change (fun _ _ h => .single (.closeScope h)) fun _ _ _ => .refl) fun _ =>
    stepwise_depth.bind fun _ => stepwise_note _

lemma stepwise_declare (tag : TypeTag) (name : String) (value : Value) :
    (declare tag name value : Run σ Unit).Stepwise host :=
  .change (fun _ _ h => .single (.declare h)) fun _ _ _ => .refl

lemma stepwise_declareFunction (f : FunctionDef) :
    (declareFunction f : Run σ Unit).Stepwise host :=
  (stepwise_note _).bind fun _ => stepwise_declare _ _ _

lemma stepwise_declareNative (f : Native) : (declareNative f : Run σ Unit).Stepwise host :=
  (stepwise_note _).bind fun _ => stepwise_declare _ _ _

lemma stepwise_callNative (f : Native) (args : List Value) :
    (callNative host f args).Stepwise host where
  done {calls m a m'} heq := by
    unfold callNative at heq
    split at heq
    · next v s h =>
      obtain ⟨-, rfl⟩ := Outcome.done.inj heq
      have hstep : m.Step host _ := .call m f args
      rw [h] at hstep
      exact .single hstep
    · cases heq
  failed {calls m e m'} heq := by
    unfold callNative at heq
    split at heq
    · cases heq
    · next reason s h =>
      obtain ⟨-, rfl⟩ := Outcome.failed.inj heq
      have hstep : m.Step host _ := .call m f args
      rw [h] at hstep
      exact .single hstep

end Run

/-! ### Trees -/

section

open Run

variable {host : Host σ} {call : FunctionDef → List Value → Run σ TypedValue}

lemma stepwise_applyName (hcall : ∀ f args, (call f args).Stepwise host) (callee : String)
    (args : List Value) : (applyName host call callee args).Stepwise host := by
  refine (stepwise_lookup callee).bind fun target => ?_
  split
  · exact (stepwise_callNative _ args).bind fun v => stepwise_pure _
  · exact hcall _ args
  · exact stepwise_fail _

mutual

lemma stepwise_evalExpr (hcall : ∀ f args, (call f args).Stepwise host) :
    (e : Expr) → (evalExpr host call e).Stepwise host
  | .int _ => by
    rw [evalExpr]
    exact stepwise_pure _
  | .void => by
    rw [evalExpr]
    exact stepwise_pure _
  | .var name => by
    rw [evalExpr]
    exact (stepwise_lookup name).bind fun _ => stepwise_pure _
  | .call callee args => by
    rw [evalExpr]
    exact .within ((stepwise_evalArgs hcall args).bind fun _ => stepwise_applyName hcall callee _)
  | .binary op left right => by
    rw [evalExpr]
    refine (stepwise_evalExpr hcall left).bind fun _ => ?_
    refine (stepwise_evalExpr hcall right).bind fun _ => ?_
    exact (stepwise_ofExcept _).bind fun _ => stepwise_pure _

lemma stepwise_evalArgs (hcall : ∀ f args, (call f args).Stepwise host) :
    (es : List Expr) → (evalArgs host call es).Stepwise host
  | [] => by
    rw [evalArgs]
    exact stepwise_pure _
  | e :: es => by
    rw [evalArgs]
    refine (stepwise_evalExpr hcall e).bind fun _ => ?_
    exact (stepwise_evalArgs hcall es).bind fun _ => stepwise_pure _

end

mutual

lemma stepwise_execBlock (hcall : ∀ f args, (call f args).Stepwise host) :
    (b : Block) → (execBlock host call b).Stepwise host
  | [] => by
    rw [execBlock]
    exact stepwise_pure _
  | s :: b => by
    rw [execBlock]
    refine (stepwise_execStmt hcall s).bind fun returned => ?_
    cases returned with
    | some v => exact stepwise_pure _
    | none => exact stepwise_execBlock hcall b

lemma stepwise_execStmt (hcall : ∀ f args, (call f args).Stepwise host) :
    (s : Stmt) → (execStmt host call s).Stepwise host
  | .function name params body => by
    rw [execStmt]
    exact (stepwise_declareFunction _).bind fun _ => stepwise_pure _
  | .ret e => by
    rw [execStmt]
    exact (stepwise_evalExpr hcall e).bind fun _ => stepwise_pure _
  | .cond condition body => by
    rw [execStmt]
    refine (stepwise_evalExpr hcall condition).bind fun c => ?_
    refine (stepwise_ofExcept _).bind fun n => ?_
    split
    · exact stepwise_pure _
    · refine stepwise_openScope.bind fun _ => ?_
      refine (stepwise_execBlock hcall body).bind fun _ => ?_
      exact stepwise_closeScope.bind fun _ => stepwise_pure _
  | .expr e => by
    rw [execStmt]
    exact (stepwise_evalExpr hcall e).bind fun _ => stepwise_pure _
  | .bind name init => by
    rw [execStmt]
    refine (stepwise_evalExpr hcall init).bind fun _ => ?_
    refine (stepwise_note _).bind fun _ => ?_
    exact (stepwise_declare _ name _).bind fun _ => stepwise_pure _
  | .empty _ => by
    rw [execStmt]
    exact (stepwise_note _).bind fun _ => stepwise_pure _

end

lemma stepwise_bindParams : (params : List Param) → (args : List Value) →
    (bindParams params args : Run σ Unit).Stepwise host
  | [], _ => stepwise_pure ()
  | _ :: _, [] => stepwise_pure ()
  | p :: ps, v :: vs => by
    unfold bindParams
    cases v with
    | int n => exact (stepwise_declare p.tag p.name _).bind fun _ => stepwise_bindParams ps vs
    | _ => exact stepwise_fail _

lemma stepwise_callFunction (host : Host σ) (limit : Nat) (f : FunctionDef) (args : List Value) :
    (callFunction host limit f args).Stepwise host := by
  induction limit generalizing f args with
  | zero => exact .giveUp
  | succ limit ih =>
    have hbody : (openScope >>= fun _ => bindParams f.params args >>= fun _ =>
        execBlock host (callFunction host limit) f.body >>= fun result =>
          closeScope >>= fun _ => pure (result.getD .void) : Run σ TypedValue).Stepwise host := by
      refine stepwise_openScope.bind fun _ => (stepwise_bindParams _ _).bind fun _ => ?_
      refine (stepwise_execBlock ih f.body).bind fun _ => ?_
      exact stepwise_closeScope.bind fun _ => stepwise_pure _
    rw [callFunction]
    split
    · exact stepwise_fail _
    · dsimp only
      split
      · exact (stepwise_note _).bind fun _ => hbody
      · exact hbody

end

/-! ### What runs preserve -/

/-- The machine that a run left behind, with a value or an error. A run that was given up leaves
none. -/
def Outcome.state? {ε S : Type} : Outcome ε S α → Option S
  | .done _ s | .failed _ s => some s
  | .exhausted => none

lemma Run.Stepwise.steps {host : Host σ} {x : Run σ α} (hx : x.Stepwise host)
    {calls : List String} {m m' : Machine σ} (h : (x calls m).state? = some m') :
    m.Steps host m' := by
  cases hxm : x calls m with
  | done a m₁ =>
    rw [hxm] at h
    obtain rfl := Option.some.inj h
    exact hx.done hxm
  | failed e m₁ =>
    rw [hxm] at h
    obtain rfl := Option.some.inj h
    exact hx.failed hxm
  | exhausted =>
    rw [hxm] at h
    cases h

/-- **Invariants.** What each step preserves is true wherever steps lead. -/
theorem Machine.Steps.preserves {host : Host σ} {I : Machine σ → Prop}
    (hstep : ∀ {m m'}, m.Step host m' → I m → I m') {m m' : Machine σ} (h : m.Steps host m')
    (hm : I m) : I m' := by
  induction h with
  | refl => exact hm
  | tail _ hlast ih => exact hstep hlast ih

end Flame
