import Flame.Proofs.SideBySide

/-!
What the limit on nested calls does to a run.

Only a call can be given up, and only one that would nest too deeply. So a run that comes to an end
under some limit is the same under every greater one, and the limit matters to nothing else.
-/

namespace Flame

variable {σ α β : Type}

/-! ### Computations that cannot be given up -/

namespace Run

lemma bind_eq_exhausted_iff {x : Run σ α} {f : α → Run σ β} {calls : List String} {m : Machine σ} :
    (x >>= f) calls m = .exhausted ↔
      x calls m = .exhausted ∨ ∃ a m₁, x calls m = .done a m₁ ∧ f a calls m₁ = .exhausted := by
  change Run.bind x f calls m = _ ↔ _
  unfold Run.bind
  cases x calls m <;> simp

/-- The computation gives a value or fails. -/
def Ends (x : Run σ α) : Prop := ∀ calls m, x calls m ≠ .exhausted

lemma ends_pure (a : α) : (pure a : Run σ α).Ends := by
  intro calls m heq
  cases heq

lemma ends_fail (e : RuntimeError) : (fail e : Run σ α).Ends := by
  intro calls m heq
  cases heq

lemma Ends.bind {x : Run σ α} {f : α → Run σ β} (hx : x.Ends) (hf : ∀ a, (f a).Ends) :
    (x >>= f).Ends := by
  intro calls m heq
  rcases bind_eq_exhausted_iff.1 heq with h | ⟨a, m₁, -, h⟩
  · exact hx calls m h
  · exact hf a calls m₁ h

lemma ends_ofExcept (r : Except RuntimeError α) : (ofExcept r : Run σ α).Ends := by
  cases r with
  | ok a => exact ends_pure a
  | error e => exact ends_fail e

lemma ends_note (event : Event) : (note event : Run σ Unit).Ends := by
  intro calls m heq
  cases heq

lemma ends_change (f : Environment → Except RuntimeError Environment) :
    (change f : Run σ Unit).Ends := by
  intro calls m heq
  unfold change at heq
  split at heq <;> cases heq

lemma ends_lookup (name : String) : (lookup name : Run σ Variable).Ends := by
  intro calls m heq
  unfold lookup at heq
  split at heq <;> cases heq

lemma ends_callNative (host : Host σ) (f : Native) (args : List Value) :
    (callNative host f args).Ends := by
  intro calls m heq
  unfold callNative at heq
  split at heq <;> cases heq

lemma ends_openScope : (openScope : Run σ Unit).Ends := by
  intro calls m heq
  cases heq

lemma ends_closeScope : (closeScope : Run σ Unit).Ends := by
  refine (ends_change Environment.pop).bind fun _ calls m heq => ?_
  cases heq

end Run

lemma ends_bindParams : (params : List Param) → (args : List Value) →
    (bindParams params args : Run σ Unit).Ends
  | p :: params, v :: args => by
    unfold bindParams
    split
    · exact (Run.ends_change _).bind fun _ => ends_bindParams params args
    · exact Run.ends_fail _
  | [], _ => by
    unfold bindParams
    exact Run.ends_pure ()
  | _ :: _, [] => by
    unfold bindParams
    exact Run.ends_pure ()

/-! ### Greater limits -/

/-- Where `x` comes to an end, `y` does the same. -/
def Run.Below (x y : Run σ α) : Prop := ∀ calls m, x calls m ≠ .exhausted → y calls m = x calls m

namespace Run.Below

lemma refl (x : Run σ α) : x.Below x := fun _ _ _ => rfl

lemma bind {x y : Run σ α} {f g : α → Run σ β} (hxy : x.Below y) (hfg : ∀ a, (f a).Below (g a)) :
    (x >>= f).Below (y >>= g) := by
  intro calls m hends
  have hx : x calls m ≠ .exhausted := fun h => hends (bind_of_exhausted h)
  have hy := hxy calls m hx
  cases hxm : x calls m with
  | done a m₁ =>
    rw [bind_of_done hxm] at hends ⊢
    rw [bind_of_done (hy.trans hxm)]
    exact hfg a calls m₁ hends
  | failed e m₁ => rw [bind_of_failed hxm, bind_of_failed (hy.trans hxm)]
  | exhausted => exact absurd hxm hx

lemma within {x y : Run σ α} (h : x.Below y) (callee : String) :
    (within callee x).Below (within callee y) :=
  fun calls m hends => h (callee :: calls) m hends

end Run.Below

section

open Run

variable {call call' : FunctionDef → List Value → Run σ TypedValue} (host : Host σ)

lemma applyName_below (hcall : ∀ f args, (call f args).Below (call' f args)) (callee : String)
    (args : List Value) :
    (applyName host call callee args).Below (applyName host call' callee args) := by
  unfold applyName
  refine (Below.refl _).bind fun target => ?_
  split
  · exact .refl _
  · exact hcall _ args
  · exact .refl _

mutual

lemma evalExpr_below (hcall : ∀ f args, (call f args).Below (call' f args)) :
    (e : Expr) → (evalExpr host call e).Below (evalExpr host call' e)
  | .int _ => by
    rw [evalExpr, evalExpr]
    exact .refl _
  | .void => by
    rw [evalExpr, evalExpr]
    exact .refl _
  | .var _ => by
    rw [evalExpr, evalExpr]
    exact .refl _
  | .call callee args => by
    rw [evalExpr, evalExpr]
    refine Below.within ?_ callee
    exact (evalArgs_below hcall args).bind fun vs => applyName_below host hcall callee vs
  | .binary op left right => by
    rw [evalExpr, evalExpr]
    exact (evalExpr_below hcall left).bind fun _ =>
      (evalExpr_below hcall right).bind fun _ => .refl _

lemma evalArgs_below (hcall : ∀ f args, (call f args).Below (call' f args)) :
    (es : List Expr) → (evalArgs host call es).Below (evalArgs host call' es)
  | [] => by
    rw [evalArgs, evalArgs]
    exact .refl _
  | e :: es => by
    rw [evalArgs, evalArgs]
    exact (evalExpr_below hcall e).bind fun _ => (evalArgs_below hcall es).bind fun _ => .refl _

end

mutual

lemma execBlock_below (hcall : ∀ f args, (call f args).Below (call' f args)) :
    (b : Block) → (execBlock host call b).Below (execBlock host call' b)
  | [] => by
    rw [execBlock, execBlock]
    exact .refl _
  | s :: ss => by
    rw [execBlock, execBlock]
    refine (execStmt_below hcall s).bind fun returned => ?_
    cases returned with
    | some v => exact .refl _
    | none => exact execBlock_below hcall ss

lemma execStmt_below (hcall : ∀ f args, (call f args).Below (call' f args)) :
    (s : Stmt) → (execStmt host call s).Below (execStmt host call' s)
  | .function .. => by
    rw [execStmt, execStmt]
    exact .refl _
  | .ret e => by
    rw [execStmt, execStmt]
    exact (evalExpr_below host hcall e).bind fun _ => .refl _
  | .cond condition body => by
    rw [execStmt, execStmt]
    refine (evalExpr_below host hcall condition).bind fun c => (Below.refl _).bind fun n => ?_
    split
    · exact .refl _
    · exact (Below.refl _).bind fun _ => (execBlock_below hcall body).bind fun _ => .refl _
  | .expr e => by
    rw [execStmt, execStmt]
    exact (evalExpr_below host hcall e).bind fun _ => .refl _
  | .bind _ init => by
    rw [execStmt, execStmt]
    exact (evalExpr_below host hcall init).bind fun _ => .refl _
  | .empty _ => by
    rw [execStmt, execStmt]
    exact .refl _

end

lemma callFunction_below (limit : Nat) (f : FunctionDef) (args : List Value) :
    (callFunction host limit f args).Below (callFunction host (limit + 1) f args) := by
  induction limit generalizing f args with
  | zero => exact fun calls m hends => absurd rfl hends
  | succ limit ih =>
    rw [callFunction_succ, callFunction_succ]
    have hbody := execBlock_below host ih f.body
    split
    · exact .refl _
    · dsimp only
      have hscope : (inScope (·.getD .void) (bindParams f.params args >>= fun _ =>
            execBlock host (callFunction host limit) f.body) : Run σ TypedValue).Below
          (inScope (·.getD .void) (bindParams f.params args >>= fun _ =>
            execBlock host (callFunction host (limit + 1)) f.body)) := by
        unfold inScope
        exact (Below.refl _).bind fun _ =>
          ((Below.refl _).bind fun _ => hbody).bind fun _ => .refl _
      split
      · exact (Below.refl _).bind fun _ => hscope
      · exact hscope

end

/-- **Limits.** A run that comes to an end is the same under every greater limit. -/
theorem exec_eq_of_le (host : Host σ) (program : Block) (m : Machine σ) {limit limit' : Nat}
    (hle : limit ≤ limit') (hends : m.exec host limit program ≠ .exhausted) :
    m.exec host limit' program = m.exec host limit program := by
  induction hle with
  | refl => rfl
  | @step n _ ih =>
    have hbelow := execBlock_below host (callFunction_below host n) program [] m
    exact (hbelow (by rw [← Machine.exec, ih]; exact hends)).trans ih

end Flame
