import Flame.Proofs.Likeness
import Flame.Proofs.ScopeDiscipline

/-!
Two runs side by side.

Programs that are alike run alike, from machines that correspond and with hosts that answer alike.
A pairing says when environments and host states correspond; what it must satisfy is what running a
tree does to an environment: look up a name, open a scope, bind a name. That closing a scope leads
back to environments that correspond is not asked for. It follows, since a scope that is opened and
closed again leaves the environment as it was.

The rules below follow the ways in which computations are built, and the trees are gone through
once. What the log holds is left aside.
-/

namespace Flame

/-! ### Pairings -/

/-- Two hosts gave the same answer, up to a likeness, and are in corresponding states. -/
inductive AnswersAlike {σ τ : Type} (L : Likeness) (state : σ → τ → Prop) :
    Except String Value × σ → Except String Value × τ → Prop
  | value {v w : Value} {s : σ} {t : τ} (hvalue : ValueAlike L v w) (hstate : state s t) :
      AnswersAlike L state (.ok v, s) (.ok w, t)
  | failure {reason : String} {s : σ} {t : τ} (hstate : state s t) :
      AnswersAlike L state (.error reason, s) (.error reason, t)

/-- Two variables that were bound by two runs: their tags are the same, or those of parameters. -/
structure BoundAlike (L : Likeness) (v w : Variable) : Prop where
  name_eq : v.name = w.name
  tag : v.tag = w.tag ∨ L.paramTag v.tag w.tag
  value : ValueAlike L v.value w.value

lemma BoundAlike.variableAlike {L : Likeness} {v w : Variable} (h : BoundAlike L v w) :
    VariableAlike L v w := by
  refine ⟨h.name_eq, ?_, h.value⟩
  rcases h.tag with htag | htag
  · rw [htag]
    exact L.varTag_refl w.tag
  · exact L.varTag_of_paramTag htag

/-- When the environments of two runs correspond. -/
structure Correspondence (L : Likeness) where
  env : Environment → Environment → Prop
  find : ∀ {e e' x}, env e e' → L.name x → FoundAlike L (e.find? x) (e'.find? x)
  push : ∀ {e e'}, env e e' → env e.push e'.push
  insert : ∀ {e e' v w}, env e e' → L.name v.name → BoundAlike L v w →
    env (e.insert v) (e'.insert w)

/-- Environments correspond if they are alike, scope by scope. -/
def Correspondence.alike (L : Likeness) : Correspondence L where
  env := EnvAlike L
  find henv _ := henv.find _
  push henv := henv.push
  insert henv _ hvw := henv.insert hvw.variableAlike

/-- When the machines of two runs correspond, and the hosts that they run with. -/
structure Pairing (L : Likeness) (σ τ : Type) extends Correspondence L where
  left : Host σ
  right : Host τ
  state : σ → τ → Prop
  answer : ∀ f {args args' s t}, List.Forall₂ (ValueAlike L) args args' → state s t →
    AnswersAlike L state (left.call f args s) (right.call f args' t)

section

variable {L : Likeness} {σ τ α β γ δ : Type}

/-- The machines correspond. -/
structure Pairing.Machines (P : Pairing L σ τ) (m : Machine σ) (m' : Machine τ) : Prop where
  env : P.env m.env m'.env
  state : P.state m.host m'.host

/-- The outcomes are of one form, with results or errors that correspond. -/
inductive Outcome.Matches (P : Pairing L σ τ) (Q : α → β → Prop) :
    Outcome RuntimeError (Machine σ) α → Outcome RuntimeError (Machine τ) β → Prop
  | done {a : α} {b : β} {m : Machine σ} {m' : Machine τ} (result : Q a b)
      (machines : P.Machines m m') : Matches P Q (.done a m) (.done b m')
  | failed {e e' : RuntimeError} {m : Machine σ} {m' : Machine τ} (error : ErrorAlike L e e')
      (machines : P.Machines m m') : Matches P Q (.failed e m) (.failed e' m')
  | exhausted : Matches P Q .exhausted .exhausted

/-- From machines that correspond, two computations have outcomes that correspond. -/
def Run.Matches (P : Pairing L σ τ) (Q : α → β → Prop) (x : Run σ α) (y : Run τ β) : Prop :=
  ∀ calls calls' m m', P.Machines m m' → Outcome.Matches P Q (x calls m) (y calls' m')

/-! ### Scopes -/

namespace Run

lemma bind_of_failed {x : Run σ α} {f : α → Run σ β} {calls : List String} {m m₁ : Machine σ}
    {e : RuntimeError} (h : x calls m = .failed e m₁) : (x >>= f) calls m = .failed e m₁ := by
  change Run.bind x f calls m = _
  unfold Run.bind
  rw [h]

lemma bind_of_exhausted {x : Run σ α} {f : α → Run σ β} {calls : List String} {m : Machine σ}
    (h : x calls m = .exhausted) : (x >>= f) calls m = .exhausted := by
  change Run.bind x f calls m = _
  unfold Run.bind
  rw [h]

lemma bind_assoc (x : Run σ α) (f : α → Run σ β) (g : β → Run σ γ) :
    x >>= f >>= g = x >>= fun a => f a >>= g := by
  funext calls m
  cases hx : x calls m with
  | done a m₁ =>
    rw [bind_of_done hx]
    cases hf : f a calls m₁ with
    | done b m₂ => rw [bind_of_done ((bind_of_done hx).trans hf), bind_of_done hf]
    | failed e m₂ => rw [bind_of_failed ((bind_of_done hx).trans hf), bind_of_failed hf]
    | exhausted => rw [bind_of_exhausted ((bind_of_done hx).trans hf), bind_of_exhausted hf]
  | failed e m₁ => rw [bind_of_failed (bind_of_failed hx), bind_of_failed hx]
  | exhausted => rw [bind_of_exhausted (bind_of_exhausted hx), bind_of_exhausted hx]

/-- A computation in a scope of its own, with its result seen through a function. -/
def inScope (g : α → β) (x : Run σ α) : Run σ β := do
  openScope
  let a ← x
  closeScope
  return g a

end Run

/-- The machine after a scope was opened. -/
def Machine.opened (calls : List String) (m : Machine σ) : Machine σ :=
  ⟨m.env.push, m.host, ⟨.scopeOpened (m.env.depth + 1), calls⟩ :: m.log⟩

namespace Run

lemma openScope_apply (calls : List String) (m : Machine σ) :
    openScope calls m = .done () (m.opened calls) := rfl

variable {x : Run σ α} {calls : List String} {m m₁ : Machine σ}

lemma inScope_failed {g : α → β} {e : RuntimeError}
    (h : x calls (m.opened calls) = .failed e m₁) : inScope g x calls m = .failed e m₁ :=
  (bind_of_done (openScope_apply calls m)).trans (bind_of_failed h)

lemma inScope_exhausted {g : α → β} (h : x calls (m.opened calls) = .exhausted) :
    inScope g x calls m = .exhausted :=
  (bind_of_done (openScope_apply calls m)).trans (bind_of_exhausted h)

/-- What a scope gained is forgotten, and nothing else. -/
lemma inScope_done {g : α → β} {a : α} (hx : x.Growing)
    (h : x calls (m.opened calls) = .done a m₁) :
    inScope g x calls m =
      .done (g a) ⟨m.env, m₁.host, ⟨.scopeClosed m.env.depth, calls⟩ :: m₁.log⟩ := by
  have hpop : m₁.env.pop = .ok m.env := (hx.done h).pop_eq
  have hclose : closeScope calls m₁ =
      .done () ⟨m.env, m₁.host, ⟨.scopeClosed m.env.depth, calls⟩ :: m₁.log⟩ := by
    have hchange : change Environment.pop calls m₁ = .done () { m₁ with env := m.env } := by
      unfold change
      rw [hpop]
    unfold closeScope
    rw [bind_of_done hchange]
    rfl
  refine (bind_of_done (openScope_apply calls m)).trans ?_
  rw [bind_of_done h, bind_of_done hclose]
  rfl

end Run

/-! ### Rules -/

namespace Run.Matches

variable {P : Pairing L σ τ} {Q : α → β → Prop} {R : γ → δ → Prop}

lemma pure {a : α} {b : β} (h : Q a b) : Run.Matches P Q (pure a) (pure b) :=
  fun _ _ _ _ hm => .done h hm

lemma fail {e e' : RuntimeError} (h : ErrorAlike L e e') : Run.Matches P Q (fail e) (fail e') :=
  fun _ _ _ _ hm => .failed h hm

lemma giveUp : Run.Matches P Q giveUp giveUp := fun _ _ _ _ _ => .exhausted

lemma bind {x : Run σ α} {y : Run τ β} {f : α → Run σ γ} {g : β → Run τ δ}
    (hx : Run.Matches P Q x y) (hf : ∀ a b, Q a b → Run.Matches P R (f a) (g b)) :
    Run.Matches P R (x >>= f) (y >>= g) := by
  intro calls calls' m m' hm
  have houtcome := hx calls calls' m m' hm
  change Outcome.Matches P R (Run.bind x f calls m) (Run.bind y g calls' m')
  unfold Run.bind
  generalize x calls m = ox at houtcome ⊢
  generalize y calls' m' = oy at houtcome ⊢
  cases houtcome with
  | done result machines => exact hf _ _ result _ _ _ _ machines
  | failed error machines => exact .failed error machines
  | exhausted => exact .exhausted

lemma within {x : Run σ α} {y : Run τ β} (h : Run.Matches P Q x y) (callee callee' : String) :
    Run.Matches P Q (within callee x) (within callee' y) :=
  fun _ _ m m' hm => h _ _ m m' hm

lemma ofExcept {r : Except RuntimeError α} :
    Run.Matches P Eq (ofExcept r : Run σ α) (ofExcept r : Run τ α) := by
  cases r with
  | ok a => exact pure rfl
  | error e => exact fail .same

/-- What is logged does not matter. -/
lemma note (event event' : Event) :
    Run.Matches P (fun _ _ => True) (note event : Run σ Unit) (note event' : Run τ Unit) :=
  fun _ _ _ _ hm => .done trivial ⟨hm.env, hm.state⟩

lemma lookup {x : String} (hx : L.name x) :
    Run.Matches P (VariableAlike L) (lookup x : Run σ Variable) (lookup x : Run τ Variable) := by
  intro calls calls' m m' hm
  have hfound := P.find hm.env hx
  unfold Run.lookup Environment.lookup
  revert hfound
  cases m.env.find? x <;> cases m'.env.find? x <;> intro hfound <;> cases hfound
  · exact .failed .same hm
  · rename_i h
    exact .done h hm

lemma declare {x : String} {t t' : TypeTag} {v w : Value} (hx : L.name x)
    (htag : t = t' ∨ L.paramTag t t') (hvalue : ValueAlike L v w) :
    Run.Matches P (fun _ _ => True) (declare t x v : Run σ Unit) (declare t' x w : Run τ Unit) := by
  intro calls calls' m m' hm
  unfold Run.declare Run.change Environment.declare
  simp only [(P.find hm.env hx).isDefined_eq]
  cases m'.env.isDefined x with
  | true => exact .failed .same hm
  | false => exact .done trivial ⟨P.insert hm.env hx ⟨rfl, htag, hvalue⟩, hm.state⟩

lemma callNative (f : Native) {args args' : List Value}
    (hargs : List.Forall₂ (ValueAlike L) args args') :
    Run.Matches P (ValueAlike L) (callNative P.left f args) (callNative P.right f args') := by
  intro calls calls' m m' hm
  have hanswer := P.answer f hargs hm.state
  unfold Run.callNative
  revert hanswer
  rcases P.left.call f args m.host with ⟨r, s⟩
  rcases P.right.call f args' m'.host with ⟨r', t⟩
  intro hanswer
  cases hanswer with
  | value hvalue hstate => exact .done hvalue ⟨hm.env, hstate⟩
  | failure hstate => exact .failed .same ⟨hm.env, hstate⟩

lemma inScope {x : Run σ α} {y : Run τ β} {g : α → γ} {k : β → δ} (hx : x.Growing)
    (hy : y.Growing) (h : Run.Matches P Q x y) (hg : ∀ a b, Q a b → R (g a) (k b)) :
    Run.Matches P R (inScope g x) (inScope k y) := by
  intro calls calls' m m' hm
  have hopened : P.Machines (m.opened calls) (m'.opened calls') := ⟨P.push hm.env, hm.state⟩
  have houtcome := h calls calls' _ _ hopened
  cases hxm : x calls (m.opened calls) <;> cases hym : y calls' (m'.opened calls') <;>
    rw [hxm, hym] at houtcome <;> cases houtcome
  · rename_i result machines
    rw [inScope_done hx hxm, inScope_done hy hym]
    exact .done (hg _ _ result) ⟨hm.env, machines.state⟩
  · rename_i error machines
    rw [inScope_failed hxm, inScope_failed hym]
    exact .failed error machines
  · rw [inScope_exhausted hxm, inScope_exhausted hym]
    exact .exhausted

end Run.Matches

/-! ### Trees -/

/-- Calls with arguments that are alike correspond, for functions that are alike. -/
structure CallsMatch (P : Pairing L σ τ) (call : FunctionDef → List Value → Run σ TypedValue)
    (call' : FunctionDef → List Value → Run τ TypedValue) : Prop where
  runs : ∀ {f g args args'}, FunctionAlike L f g → List.Forall₂ (ValueAlike L) args args' →
    Run.Matches P (TypedAlike L) (call f args) (call' g args')
  steady : ∀ f args, (call f args).Steady
  steady' : ∀ f args, (call' f args).Steady

/-- What blocks return corresponds: nothing, or values that are alike. -/
def ReturnsAlike (L : Likeness) : Option TypedValue → Option TypedValue → Prop :=
  Option.Rel (TypedAlike L)

section

variable {P : Pairing L σ τ} {call : FunctionDef → List Value → Run σ TypedValue}
  {call' : FunctionDef → List Value → Run τ TypedValue}

lemma CallsMatch.applyName (h : CallsMatch P call call') {callee : String} (hname : L.name callee)
    {args args' : List Value} (hargs : List.Forall₂ (ValueAlike L) args args') :
    Run.Matches P (TypedAlike L) (applyName P.left call callee args)
      (applyName P.right call' callee args') := by
  refine (Run.Matches.lookup hname).bind fun v w hvw => ?_
  obtain ⟨x, t, v⟩ := v
  obtain ⟨y, u, w⟩ := w
  obtain ⟨rfl, htag, hvalue⟩ := hvw
  simp only at htag hvalue
  cases hvalue with
  | function hf => exact h.runs hf hargs
  | plain hplain =>
    cases v with
    | function f => exact absurd rfl (hplain f)
    | native f =>
      exact (Run.Matches.callNative f hargs).bind fun _ _ hv => .pure (.inferred hv)
    | _ => exact .fail (.notCallable htag)

mutual

lemma CallsMatch.evalExpr (h : CallsMatch P call call') : (e : Expr) → e.Allowed L →
    Run.Matches P (TypedAlike L) (evalExpr P.left call e) (evalExpr P.right call' e)
  | .int n, _ => by
    rw [Flame.evalExpr, Flame.evalExpr]
    exact .pure (.inferred (.int n))
  | .void, _ => by
    rw [Flame.evalExpr, Flame.evalExpr]
    exact .pure (.inferred (.plain fun _ heq => by cases heq))
  | .var name, he => by
    rw [Flame.evalExpr, Flame.evalExpr]
    have hname : L.name name := he name (by simp [Expr.names])
    exact (Run.Matches.lookup hname).bind fun _ _ hv => .pure ⟨rfl, hv.value⟩
  | .call callee args, he => by
    rw [Flame.evalExpr, Flame.evalExpr]
    refine Run.Matches.within ?_ callee callee
    exact (h.evalArgs args he.args).bind fun _ _ hargs => h.applyName he.callee hargs
  | .binary op left right, he => by
    rw [Flame.evalExpr, Flame.evalExpr]
    refine (h.evalExpr left he.left).bind fun l l' hl => ?_
    refine (h.evalExpr right he.right).bind fun r r' hr => ?_
    rw [hl.apply_eq op hr]
    refine Run.Matches.ofExcept.bind fun n n' hn => ?_
    rw [hn]
    exact .pure (.int n')

lemma CallsMatch.evalArgs (h : CallsMatch P call call') : (es : List Expr) →
    (∀ x ∈ Expr.namesOfList es, L.name x) →
    Run.Matches P (List.Forall₂ (ValueAlike L)) (evalArgs P.left call es)
      (evalArgs P.right call' es)
  | [], _ => by
    rw [Flame.evalArgs, Flame.evalArgs]
    exact .pure .nil
  | e :: es, hes => by
    rw [Flame.evalArgs, Flame.evalArgs]
    simp only [Expr.namesOfList, List.mem_append] at hes
    refine (h.evalExpr e fun x hx => hes x (.inl hx)).bind fun v w hv => ?_
    refine (h.evalArgs es fun x hx => hes x (.inr hx)).bind fun vs ws hvs => ?_
    exact .pure (.cons hv.value hvs)

end

mutual

lemma CallsMatch.execBlock (h : CallsMatch P call call') : {b b' : Block} → BlockAlike L b b' →
    Run.Matches P (ReturnsAlike L) (execBlock P.left call b) (execBlock P.right call' b')
  | [], _, .nil => by
    rw [Flame.execBlock, Flame.execBlock]
    exact .pure .none
  | _ :: _, _, .cons first others => by
    rw [Flame.execBlock, Flame.execBlock]
    refine (h.execStmt first).bind fun r r' hr => ?_
    cases hr with
    | some hv => exact .pure (.some hv)
    | none => exact h.execBlock others

lemma CallsMatch.execStmt (h : CallsMatch P call call') : {s s' : Stmt} → StmtAlike L s s' →
    Run.Matches P (ReturnsAlike L) (execStmt P.left call s) (execStmt P.right call' s')
  | .function name _ _, _, .function allowed declared params body => by
    rw [Flame.execStmt, Flame.execStmt]
    refine Run.Matches.bind (Q := fun _ _ => True) ?_ fun _ _ _ => .pure .none
    refine (Run.Matches.note _ _).bind fun _ _ _ => ?_
    exact .declare allowed (.inl rfl) (.function ⟨rfl, declared, params, body⟩)
  | .ret e, _, .ret value => by
    rw [Flame.execStmt, Flame.execStmt]
    exact (h.evalExpr e value).bind fun _ _ hv => .pure (.some hv)
  | .cond e b, _, .cond condition body => by
    rw [Flame.execStmt, Flame.execStmt]
    refine (h.evalExpr e condition).bind fun c c' hc => ?_
    rw [hc.operand_eq]
    refine Run.Matches.ofExcept.bind fun n n' hn => ?_
    rw [hn]
    split
    · exact .pure .none
    · exact .inScope (g := id) (k := id) (growing_execBlock P.left h.steady b)
        (growing_execBlock P.right h.steady' _) (h.execBlock body) fun _ _ hr => hr
  | .expr e, _, .expr value => by
    rw [Flame.execStmt, Flame.execStmt]
    exact (h.evalExpr e value).bind fun _ _ _ => .pure .none
  | .bind name e, _, .bind allowed init => by
    rw [Flame.execStmt, Flame.execStmt]
    refine (h.evalExpr e init).bind fun v w hv => ?_
    refine (Run.Matches.note _ _).bind fun _ _ _ => ?_
    exact (Run.Matches.declare allowed (.inl hv.tag_eq) hv.value).bind fun _ _ _ => .pure .none
  | .empty _, _, .empty _ => by
    rw [Flame.execStmt, Flame.execStmt]
    exact (Run.Matches.note _ _).bind fun _ _ _ => .pure .none

end

end

/-! ### Calls -/

lemma bindParams_matches {P : Pairing L σ τ} {ps qs : List Param} {args args' : List Value}
    (hparams : List.Forall₂ (ParamAlike L) ps qs) (hargs : List.Forall₂ (ValueAlike L) args args') :
    Run.Matches P (fun _ _ => True) (bindParams ps args : Run σ Unit)
      (bindParams qs args' : Run τ Unit) := by
  induction hparams generalizing args args' with
  | nil =>
    unfold bindParams
    exact .pure trivial
  | @cons p q ps qs hp _ ih =>
    cases hargs with
    | nil =>
      unfold bindParams
      exact .pure trivial
    | @cons v w args args' hv hargs =>
      cases hv with
      | function hf => exact .fail .same
      | plain hplain =>
        cases v with
        | int n =>
          simp only [bindParams]
          have hdeclare : Run.Matches P (fun _ _ => True)
              (Run.declare p.tag p.name (.int n) : Run σ Unit)
              (Run.declare q.tag q.name (.int n) : Run τ Unit) := by
            rw [← hp.name_eq]
            exact .declare hp.allowed (.inr hp.tag) (.int n)
          exact hdeclare.bind fun _ _ _ => ih hargs
        | _ => exact .fail .same

/-- A call that may nest further: its body runs in a scope that binds the parameters. -/
lemma callFunction_succ (host : Host σ) (limit : Nat) (f : FunctionDef) (args : List Value) :
    callFunction host (limit + 1) f args =
      if args.length < f.params.length then
        Run.fail (.arityMismatch f.name f.params.length args.length)
      else
        let body : Run σ TypedValue := Run.inScope (·.getD .void) (bindParams f.params args >>=
          fun _ => execBlock host (callFunction host limit) f.body)
        if f.params.length < args.length then
          Run.note (.surplusArguments f.name (args.length - f.params.length)) >>= fun _ => body
        else body := by
  have hbody : (Run.inScope (·.getD .void) (bindParams f.params args >>= fun _ =>
      execBlock host (callFunction host limit) f.body) : Run σ TypedValue) =
      (Run.openScope >>= fun _ => bindParams f.params args >>= fun _ =>
        execBlock host (callFunction host limit) f.body >>= fun result =>
          Run.closeScope >>= fun _ => pure (result.getD .void)) := by
    unfold Run.inScope
    simp only [Run.bind_assoc]
  rw [callFunction]
  dsimp only
  rw [hbody]

/-- Calls correspond, however deeply they nest. -/
lemma callsMatch (P : Pairing L σ τ) (limit : Nat) :
    CallsMatch P (callFunction P.left limit) (callFunction P.right limit) := by
  refine ⟨?_, steady_callFunction P.left limit, steady_callFunction P.right limit⟩
  induction limit with
  | zero => exact fun _ _ => .giveUp
  | succ limit ih =>
    intro f g args args' hf hargs
    have hcalls : CallsMatch P (callFunction P.left limit) (callFunction P.right limit) :=
      ⟨ih, steady_callFunction P.left limit, steady_callFunction P.right limit⟩
    have hbody := Run.Matches.inScope (P := P) (R := TypedAlike L) (g := (·.getD .void))
      (k := (·.getD .void))
      ((growing_bindParams f.params args).bind fun _ =>
        growing_execBlock P.left hcalls.steady f.body)
      ((growing_bindParams g.params args').bind fun _ =>
        growing_execBlock P.right hcalls.steady' g.body)
      ((bindParams_matches hf.params hargs).bind fun _ _ _ => hcalls.execBlock hf.body)
      (fun r r' hr => by
        cases hr with
        | some hv => exact hv
        | none => exact .inferred (.plain fun _ heq => by cases heq))
    rw [callFunction_succ, callFunction_succ, hf.name_eq, hf.params.length_eq, hargs.length_eq]
    split
    · exact .fail .same
    · dsimp only
      split
      · exact (Run.Matches.note _ _).bind fun _ _ _ => hbody
      · exact hbody

/-- **Two runs.** Programs that are alike have runs that correspond, from machines that do. -/
theorem exec_matches (P : Pairing L σ τ) {b b' : Block} (hb : BlockAlike L b b') (limit : Nat)
    {m : Machine σ} {m' : Machine τ} (hm : P.Machines m m') :
    Outcome.Matches P (ReturnsAlike L) (m.exec P.left limit b) (m'.exec P.right limit b') :=
  (callsMatch P limit).execBlock hb [] [] m m' hm

end

end Flame
