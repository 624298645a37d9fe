import Flame.Proofs.RunLogic
import Flame.Proofs.Scopes

/-!
What running a tree does to the environment.

Computations fall into four kinds. A *steady* one leaves the environment as it was; evaluating an
expression is steady. A *binding* one may add variables to the innermost scope, but none if it
fails; running a statement is binding. A *growing* one may have added some even if it fails; running
a block is growing. A *closing* one ends by closing the scope it started in. Scopes are opened in
two places only, and in both a closing computation follows, so that the whole is steady again.
-/

namespace Flame

variable {σ α β : Type}

/-- A computation that started from an environment failed, with scopes left open on top of it, and
not for want of a scope to close. -/
structure FailsOver (env : Environment) (e : RuntimeError) (m' : Machine σ) : Prop where
  under : env.Under m'.env
  cause : e ≠ .baseScopeUnderflow

lemma FailsOver.of_under {env env₁ : Environment} {e : RuntimeError} {m' : Machine σ}
    (h : FailsOver env₁ e m') (hunder : env.Under env₁) : FailsOver env e m' :=
  ⟨hunder.trans h.under, h.cause⟩

namespace Run

def Steady (x : Run σ α) : Prop :=
  x.Ensures (fun m _ m' => m'.env = m.env) (fun m e m' => FailsOver m.env e m')

def Binding (x : Run σ α) : Prop :=
  x.Ensures (fun m _ m' => m.env.Grows m'.env) (fun m e m' => FailsOver m.env e m')

def Growing (x : Run σ α) : Prop :=
  x.Ensures (fun m _ m' => m.env.Grows m'.env)
    (fun m e m' => ∃ env₁, m.env.Grows env₁ ∧ FailsOver env₁ e m')

def Closing (x : Run σ α) : Prop :=
  x.Ensures (fun m _ m' => ∀ outer, m.env.pop = .ok outer → m'.env = outer)
    (fun m e m' => ∀ outer, m.env.pop = .ok outer → FailsOver outer e m')

variable {x : Run σ α} {f : α → Run σ β}

/-! ### Rules -/

lemma Steady.binding (hx : x.Steady) : x.Binding :=
  hx.mono (fun h => by rw [h]; exact .refl) (fun h => h)

lemma Binding.growing (hx : x.Binding) : x.Growing :=
  hx.mono (fun h => h) (fun h => ⟨_, .refl, h⟩)

lemma steady_pure (a : α) : (pure a : Run σ α).Steady :=
  .pure fun _ => rfl

lemma steady_fail {e : RuntimeError} (he : e ≠ .baseScopeUnderflow) :
    (fail e : Run σ α).Steady :=
  .fail fun m => ⟨.refl m.env, he⟩

lemma Steady.bind (hx : x.Steady) (hf : ∀ a, (f a).Steady) : (x >>= f).Steady := by
  refine Ensures.bind hx hf ?_ (fun h => h) ?_
  · intro m a m₁ b m' h₁ h₂
    rw [h₂, h₁]
  · intro m a m₁ e m' h₁ h₂
    rw [← h₁]
    exact h₂

lemma Steady.bind_binding (hx : x.Steady) (hf : ∀ a, (f a).Binding) : (x >>= f).Binding := by
  refine Ensures.bind hx hf ?_ (fun h => h) ?_
  · intro m a m₁ b m' h₁ h₂
    rw [← h₁]
    exact h₂
  · intro m a m₁ e m' h₁ h₂
    rw [← h₁]
    exact h₂

/-- Nothing can fail once a variable was added. -/
lemma Binding.bind_pure (hx : x.Binding) (b : β) : (x >>= fun _ => pure b).Binding := by
  have hpure : (pure b : Run σ β).Ensures (fun m _ m' => m' = m) (fun _ _ _ => False) :=
    .pure fun _ => rfl
  refine Ensures.bind hx (fun _ => hpure) ?_ (fun h => h) (fun _ h => h.elim)
  intro m a m₁ b m' h₁ h₂
  rw [h₂]
  exact h₁

lemma Growing.bind (hx : x.Growing) (hf : ∀ a, (f a).Growing) : (x >>= f).Growing := by
  refine Ensures.bind hx hf (fun h₁ h₂ => h₁.trans h₂) (fun h => h) ?_
  intro m a m₁ e m' h₁ ⟨env₁, hgrows, hfails⟩
  exact ⟨env₁, h₁.trans hgrows, hfails⟩

lemma Growing.bind_closing (hx : x.Growing) (hf : ∀ a, (f a).Closing) : (x >>= f).Closing := by
  refine Ensures.bind hx hf ?_ ?_ ?_
  · intro m a m₁ b m' h₁ h₂ outer hpop
    exact h₂ outer (h₁.pop_eq.trans hpop)
  · intro m e m' ⟨env₁, hgrows, hfails⟩ outer hpop
    exact hfails.of_under (Environment.under_of_pop (hgrows.pop_eq.trans hpop))
  · intro m a m₁ e m' h₁ h₂ outer hpop
    exact h₂ outer (h₁.pop_eq.trans hpop)

/-! ### Primitive computations -/

lemma steady_note (event : Event) : (note event : Run σ Unit).Steady where
  done heq := by
    obtain ⟨-, rfl⟩ := Outcome.done.inj heq
    rfl
  failed heq := by cases heq

lemma steady_lookup (name : String) : (lookup name : Run σ Variable).Steady := by
  constructor
  · intro calls m v m' heq
    unfold lookup at heq
    split at heq
    · obtain ⟨-, rfl⟩ := Outcome.done.inj heq
      rfl
    · cases heq
  · intro calls m e m' heq
    unfold lookup at heq
    split at heq
    · cases heq
    · rename_i e' hlookup
      obtain ⟨rfl, rfl⟩ := Outcome.failed.inj heq
      rw [Environment.error_of_lookup hlookup]
      exact ⟨.refl m.env, RuntimeError.noConfusion⟩

lemma steady_ofExcept {r : Except RuntimeError α} (hr : r ≠ .error .baseScopeUnderflow) :
    (ofExcept r : Run σ α).Steady := by
  cases r with
  | ok a => exact steady_pure a
  | error e => exact steady_fail fun he => hr (by rw [he])

lemma steady_callNative (host : Host σ) (f : Native) (args : List Value) :
    (callNative host f args).Steady := by
  constructor
  · intro calls m v m' heq
    unfold callNative at heq
    split at heq
    · obtain ⟨-, rfl⟩ := Outcome.done.inj heq
      rfl
    · cases heq
  · intro calls m e m' heq
    unfold callNative at heq
    split at heq
    · cases heq
    · obtain ⟨rfl, rfl⟩ := Outcome.failed.inj heq
      exact ⟨.refl m.env, RuntimeError.noConfusion⟩

lemma binding_declare (tag : TypeTag) (name : String) (value : Value) :
    (declare tag name value : Run σ Unit).Binding := by
  refine Ensures.change (fun m env h => Environment.grows_of_declare h) (fun m e h => ?_)
  rw [Environment.error_of_declare h]
  exact ⟨.refl m.env, RuntimeError.noConfusion⟩

lemma openScope_ensures :
    (openScope : Run σ Unit).Ensures (fun m _ m' => m'.env = m.env.push) (fun _ _ _ => False) where
  done heq := by
    obtain ⟨-, rfl⟩ := Outcome.done.inj heq
    rfl
  failed heq := by cases heq

lemma closeScope_ensures :
    (closeScope : Run σ Unit).Ensures (fun m _ m' => m.env.pop = .ok m'.env)
      (fun m e _ => m.env.pop = .error e) := by
  have hclose : (change Environment.pop : Run σ Unit).Ensures
      (fun m _ m' => m.env.pop = .ok m'.env) (fun m e _ => m.env.pop = .error e) :=
    .change (fun m env h => h) (fun m e h => h)
  have hnote : ∀ _ : Unit, (depth >>= fun n => note (.scopeClosed n) : Run σ Unit).Ensures
      (fun m _ m' => m'.env = m.env) (fun _ _ _ => False) := by
    refine fun _ => ⟨fun heq => ?_, fun heq => ?_⟩
    · obtain ⟨-, rfl⟩ := Outcome.done.inj heq
      rfl
    · cases heq
  refine Ensures.bind hclose hnote ?_ (fun h => h) (fun _ h => h.elim)
  intro m a m₁ b m' h₁ h₂
  rw [h₂]
  exact h₁

/-- A scope that is opened and closed again leaves no trace. -/
lemma Closing.steady {f : Unit → Run σ β} (hf : ∀ u, (f u).Closing) :
    (openScope >>= f).Steady := by
  refine Ensures.bind openScope_ensures hf ?_ (fun h => h.elim) ?_
  · intro m a m₁ b m' h₁ h₂
    exact h₂ m.env (by rw [h₁]; rfl)
  · intro m a m₁ e m' h₁ h₂
    exact h₂ m.env (by rw [h₁]; rfl)

lemma closing_closeScope (b : β) : (closeScope >>= fun _ => pure b : Run σ β).Closing := by
  refine Ensures.bind closeScope_ensures (fun _ => steady_pure b) ?_ ?_ ?_
  · intro m a m₁ b m' h₁ h₂ outer hpop
    rw [h₂]
    exact Except.ok.inj (h₁.symm.trans hpop)
  · intro m e m' h outer hpop
    rw [h] at hpop
    cases hpop
  · intro m a m₁ e m' h₁ h₂ outer hpop
    obtain rfl := Except.ok.inj (h₁.symm.trans hpop)
    exact h₂

end Run

/-! ### Trees -/

lemma TypedValue.operand_ne_underflow (v : TypedValue) :
    v.operand ≠ .error .baseScopeUnderflow := by
  unfold TypedValue.operand
  intro h
  split at h
  · cases h
  · split at h <;> cases h

lemma Operator.compute_ne_underflow (op : Operator) (l r : Int64) :
    op.compute l r ≠ .error .baseScopeUnderflow := by
  cases op with
  | div => by_cases hr : r = 0 <;> simp [Operator.compute, hr]
  | _ => simp [Operator.compute]

lemma Operator.apply_ne_underflow (op : Operator) (l r : TypedValue) :
    op.apply l r ≠ .error .baseScopeUnderflow := by
  unfold Operator.apply
  intro h
  cases hl : l.operand with
  | error e =>
    rw [hl] at h
    exact l.operand_ne_underflow (by rw [hl, Except.error.inj h])
  | ok a =>
    cases hr : r.operand with
    | error e =>
      rw [hl, hr] at h
      exact r.operand_ne_underflow (by rw [hr, Except.error.inj h])
    | ok b =>
      rw [hl, hr] at h
      exact op.compute_ne_underflow a b h

section

open Run

variable {call : FunctionDef → List Value → Run σ TypedValue} (host : Host σ)

lemma steady_applyName (hcall : ∀ f args, (call f args).Steady) (callee : String)
    (args : List Value) : (applyName host call callee args).Steady := by
  unfold applyName
  refine (steady_lookup callee).bind fun target => ?_
  split
  · exact (steady_callNative host _ args).bind fun v => steady_pure _
  · exact hcall _ args
  · exact steady_fail RuntimeError.noConfusion

mutual

lemma steady_evalExpr (hcall : ∀ f args, (call f args).Steady) :
    (e : Expr) → (evalExpr host call e).Steady
  | .int _ => by
    rw [evalExpr]
    exact steady_pure _
  | .void => by
    rw [evalExpr]
    exact steady_pure _
  | .var name => by
    rw [evalExpr]
    exact (steady_lookup name).bind fun _ => steady_pure _
  | .call callee args => by
    rw [evalExpr]
    have hargs := steady_evalArgs hcall args
    exact (hargs.bind fun values => steady_applyName host hcall callee values).within
  | .binary op left right => by
    rw [evalExpr]
    have hleft := steady_evalExpr hcall left
    have hright := steady_evalExpr hcall right
    refine hleft.bind fun l => hright.bind fun r => ?_
    exact (steady_ofExcept (op.apply_ne_underflow l r)).bind fun _ => steady_pure _

lemma steady_evalArgs (hcall : ∀ f args, (call f args).Steady) :
    (es : List Expr) → (evalArgs host call es).Steady
  | [] => by
    rw [evalArgs]
    exact steady_pure _
  | e :: es => by
    rw [evalArgs]
    have he := steady_evalExpr hcall e
    have hes := steady_evalArgs hcall es
    exact he.bind fun v => hes.bind fun vs => steady_pure _

end

mutual

lemma growing_execBlock (hcall : ∀ f args, (call f args).Steady) :
    (b : Block) → (execBlock host call b).Growing
  | [] => by
    rw [execBlock]
    exact (steady_pure _).binding.growing
  | s :: ss => by
    rw [execBlock]
    have hs := binding_execStmt hcall s
    have hss := growing_execBlock hcall ss
    refine hs.growing.bind fun returned => ?_
    cases returned with
    | some v => exact (steady_pure _).binding.growing
    | none => exact hss

lemma binding_execStmt (hcall : ∀ f args, (call f args).Steady) :
    (s : Stmt) → (execStmt host call s).Binding
  | .function name params body => by
    rw [execStmt]
    refine Binding.bind_pure ?_ none
    exact (steady_note _).bind_binding fun _ => binding_declare _ _ _
  | .ret e => by
    rw [execStmt]
    exact ((steady_evalExpr host hcall e).bind fun v => steady_pure _).binding
  | .cond condition body => by
    rw [execStmt]
    have hbody := growing_execBlock hcall body
    refine Steady.binding ?_
    refine (steady_evalExpr host hcall condition).bind fun c => ?_
    refine (steady_ofExcept c.operand_ne_underflow).bind fun n => ?_
    split
    · exact steady_pure none
    · exact Closing.steady fun _ => hbody.bind_closing fun result => closing_closeScope result
  | .expr e => by
    rw [execStmt]
    exact ((steady_evalExpr host hcall e).bind fun _ => steady_pure _).binding
  | .bind name init => by
    rw [execStmt]
    refine (steady_evalExpr host hcall init).bind_binding fun v => ?_
    refine (steady_note _).bind_binding fun _ => ?_
    exact (binding_declare v.tag name v.value).bind_pure none
  | .empty span => by
    rw [execStmt]
    exact ((steady_note _).bind fun _ => steady_pure none).binding

end

end

lemma growing_bindParams : (params : List Param) → (args : List Value) →
    (bindParams params args : Run σ Unit).Growing
  | p :: params, v :: args => by
    unfold bindParams
    split
    · refine (Run.binding_declare p.tag p.name _).growing.bind fun _ => ?_
      exact growing_bindParams params args
    · exact (Run.steady_fail RuntimeError.noConfusion).binding.growing
  | [], _ => by
    unfold bindParams
    exact (Run.steady_pure ()).binding.growing
  | _ :: _, [] => by
    unfold bindParams
    exact (Run.steady_pure ()).binding.growing

/-- A call leaves the environment of its caller as it was, however deeply calls nest. -/
lemma steady_callFunction (host : Host σ) (limit : Nat) (f : FunctionDef) (args : List Value) :
    (callFunction host limit f args).Steady := by
  induction limit generalizing f args with
  | zero => exact Run.Ensures.giveUp
  | succ limit ih =>
    rw [callFunction]
    split
    · exact Run.steady_fail RuntimeError.noConfusion
    · have hbody : (Run.openScope >>= fun _ => bindParams f.params args >>= fun _ =>
          execBlock host (callFunction host limit) f.body >>= fun result =>
            Run.closeScope >>= fun _ => pure (result.getD .void)).Steady := by
        refine Run.Closing.steady fun _ => ?_
        refine (growing_bindParams f.params args).bind_closing fun _ => ?_
        refine (growing_execBlock host ih f.body).bind_closing fun result => ?_
        exact Run.closing_closeScope _
      dsimp only
      split
      · exact (Run.steady_note _).bind fun _ => hbody
      · exact hbody

/-! ### What a reader of the environment can rely on -/

/-- How a run from an environment must end. If it gives a value, the environment is what `ok` says.
If it fails, every scope is still there with its variables, and it was not for want of a scope to
close. -/
def Outcome.Obeys (env : Environment) (ok : Environment → Prop) :
    Outcome RuntimeError (Machine σ) α → Prop
  | .done _ m' => ok m'.env
  | .failed e m' => env.Retains m'.env ∧ e ≠ .baseScopeUnderflow
  | .exhausted => True

lemma Run.Steady.obeys {x : Run σ α} (hx : x.Steady) (calls : List String) (m : Machine σ) :
    (x calls m).Obeys m.env (· = m.env) := by
  cases heq : x calls m with
  | done a m' => exact hx.done heq
  | failed e m' =>
    have hfails := hx.failed heq
    exact ⟨hfails.under.retains, hfails.cause⟩
  | exhausted => trivial

lemma Run.Growing.obeys {x : Run σ α} (hx : x.Growing) (calls : List String) (m : Machine σ) :
    (x calls m).Obeys m.env m.env.Extends := by
  cases heq : x calls m with
  | done a m' => exact (hx.done heq).extends
  | failed e m' =>
    obtain ⟨env₁, hgrows, hfails⟩ := hx.failed heq
    exact ⟨hgrows.extends.retains.trans hfails.under.retains, hfails.cause⟩
  | exhausted => trivial

/-- **Scopes.** Evaluating an expression leaves the environment as it was. Running a block, and so a
program, adds to the innermost scope at most, under names that nothing bound. Where any of them
fails, no scope and no variable is lost. No run tries to close the global scope. -/
theorem run_obeys_scopes (host : Host σ) (limit : Nat) (calls : List String) (m : Machine σ) :
    (∀ e : Expr,
      (evalExpr host (callFunction host limit) e calls m).Obeys m.env (· = m.env)) ∧
    (∀ b : Block,
      (execBlock host (callFunction host limit) b calls m).Obeys m.env m.env.Extends) ∧
    (∀ program : Block, (m.exec host limit program).Obeys m.env m.env.Extends) := by
  have hcall := steady_callFunction host limit
  refine ⟨fun e => ?_, fun b => ?_, fun program => ?_⟩
  · exact (steady_evalExpr host hcall e).obeys calls m
  · exact (growing_execBlock host hcall b).obeys calls m
  · exact (growing_execBlock host hcall program).obeys [] m

/-- A call that fails in the body of a conditional leaves its two scopes open. -/
theorem run_obeys_scopes_left_open :
    ∃ m' : Machine Unit,
      (Machine.start ()).exec ⟨fun _ _ s => (.ok .void, s)⟩ 2
        [.function "f" [] [.cond (.int 1) [.bind "b" (.int 2), .expr (.call "b" [])]],
          .expr (.call "f" [])] = .failed (.notCallable "b" .int) m' ∧
      m'.env.depth = 3 ∧ Environment.empty.Retains m'.env := by
  have h := (run_obeys_scopes (σ := Unit) ⟨fun _ _ s => (.ok .void, s)⟩ 2 [] (.start ())).2.2
    [.function "f" [] [.cond (.int 1) [.bind "b" (.int 2), .expr (.call "b" [])]],
      .expr (.call "f" [])]
  exact ⟨_, rfl, rfl, h.1⟩

end Flame
