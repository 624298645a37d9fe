import Flame.Proofs.Coincidence
import Flame.Proofs.Reports

/-!
A call, and a block that stands in its place.

To call a function is to open a scope, to bind the parameters in it and to run the body. A
conditional does the same if its body begins with statements that bind the parameters. Only the tags
of the variables differ: a parameter keeps the type that it was declared with, while a statement
binds a number under the tag of numbers. The tag of a variable decides nothing. It is told when a
variable is called that holds no function, and a parameter holds a number.

So environments are compared name by name: under a name the same is found in both, or it is a
parameter and found under the two tags. Since errors are truthful, the tag in an error is that of
the variable with the name in the error, and so an error can differ in the tag of a parameter only.
-/

namespace Flame

variable {σ α β : Type}

/-- The statements that bind parameters to numbers. -/
def bindings (params : List Param) (ks : List Int64) : Block :=
  List.zipWith (fun p k => .bind p.name (.int k)) params ks

/-- The statement in place of a call with numbers as arguments. -/
def FunctionDef.inlined (f : FunctionDef) (ks : List Int64) : Stmt :=
  .cond (.int 1) (bindings f.params ks ++ f.body)

/-- The errors are the same, but for the tag of a parameter that was called: it is the declared one
in the first, and that of numbers in the second. -/
inductive ErrorButParams (params : List Param) : RuntimeError → RuntimeError → Prop
  | same {e : RuntimeError} : ErrorButParams params e e
  | called {p : Param} (hp : p ∈ params) :
      ErrorButParams params (.notCallable p.name p.tag) (.notCallable p.name .int)

/-- A call and a block ended the same way: the call gives what the block returns, or the void value
if it returns nothing, and both leave the environment `env`; or they fail with the same error but for
the tag of a parameter. -/
inductive Outcome.Inlines (params : List Param) (env : Environment) :
    Outcome RuntimeError (Machine σ) TypedValue →
    Outcome RuntimeError (Machine σ) (Option TypedValue) → Prop
  | done {r : Option TypedValue} {m m' : Machine σ} (left : m.env = env) (right : m'.env = env)
      (host : m.host = m'.host) : Inlines params env (.done (r.getD .void) m) (.done r m')
  | failed {e e' : RuntimeError} {m m' : Machine σ} (error : ErrorButParams params e e')
      (host : m.host = m'.host) : Inlines params env (.failed e m) (.failed e' m')
  | exhausted : Inlines params env .exhausted .exhausted

/-! ### The correspondence -/

/-- The likeness of programs that are the same, for variables whose tags may differ. -/
def Likeness.varTagsAside : Likeness where
  name _ := True
  params _ := True
  paramTag := Eq
  varTag _ _ := True
  span := Eq
  varTag_refl _ := trivial
  varTag_of_paramTag _ := trivial

lemma Likeness.reflexive_varTagsAside : Likeness.varTagsAside.Reflexive :=
  ⟨fun _ => rfl, fun _ => rfl⟩

lemma Likeness.strict_varTagsAside : Likeness.varTagsAside.Strict := ⟨fun h => h, fun h => h⟩

lemma valueAlike_varTagsAside (v : Value) : ValueAlike .varTagsAside v v :=
  valueAlike_self Likeness.reflexive_varTagsAside (fun _ _ _ _ => trivial) fun _ _ _ _ => trivial

lemma blockAlike_varTagsAside (b : Block) : BlockAlike .varTagsAside b b :=
  blockAlike_self Likeness.reflexive_varTagsAside b (fun _ _ => trivial) fun _ _ => trivial

/-- Looking for a name gives the same in both environments, or finds a parameter that holds a
number, under its declared type in the first and as a number in the second. -/
inductive FoundButTag (params : List Param) (e e' : Environment) (x : String) : Prop
  | same (h : e.find? x = e'.find? x)
  | param {p : Param} {k : Int64} (hp : p ∈ params) (name_eq : p.name = x)
      (left : e.find? x = some ⟨x, p.tag, .int k⟩) (right : e'.find? x = some ⟨x, .int, .int k⟩)

namespace FoundButTag

variable {params : List Param} {e e' : Environment} {x : String}

lemma foundAlike (h : FoundButTag params e e' x) :
    FoundAlike .varTagsAside (e.find? x) (e'.find? x) := by
  cases h with
  | same h =>
    rw [h]
    cases e'.find? x with
    | none => exact .none
    | some v => exact .some ⟨rfl, trivial, valueAlike_varTagsAside v.value⟩
  | param _ _ left right =>
    rw [left, right]
    exact .some ⟨rfl, trivial, .int _⟩

lemma insert_of_ne (h : FoundButTag params e e' x) {v w : Variable} (hv : v.name ≠ x)
    (hw : w.name ≠ x) : FoundButTag params (e.insert v) (e'.insert w) x := by
  have hleft := e.find?_insert_of_ne v hv
  have hright := e'.find?_insert_of_ne w hw
  cases h with
  | same h => exact .same (by rw [hleft, hright, h])
  | param hp name_eq left right => exact .param hp name_eq (hleft.trans left) (hright.trans right)

lemma insert_same (h : FoundButTag params e e' x) (v : Variable) :
    FoundButTag params (e.insert v) (e'.insert v) x := by
  by_cases hv : v.name = x
  · subst hv
    exact .same (by rw [e.find?_insert_self v, e'.find?_insert_self v])
  · exact h.insert_of_ne hv hv

lemma insert_param (h : FoundButTag params e e' x) {p : Param} (hp : p ∈ params) (k : Int64) :
    FoundButTag params (e.insert ⟨p.name, p.tag, .int k⟩) (e'.insert ⟨p.name, .int, .int k⟩) x := by
  by_cases hx : p.name = x
  · subst hx
    exact .param hp rfl (e.find?_insert_self _) (e'.find?_insert_self _)
  · exact h.insert_of_ne hx hx

end FoundButTag

/-- Environments correspond if they differ in the tags of parameters only. -/
def butTagsOf (params : List Param) : Correspondence .varTagsAside where
  env e e' := ∀ x, FoundButTag params e e' x
  find henv _ := (henv _).foundAlike
  push {e e'} henv x := by
    cases henv x with
    | same h => exact .same h
    | param hp name_eq left right => exact .param hp name_eq left right
  insert {e e' v w} henv _ hvw x := by
    -- What a body binds is bound under one tag by both runs, also by the calls in it.
    obtain ⟨y, t, v⟩ := v
    obtain ⟨z, u, w⟩ := w
    obtain rfl : y = z := hvw.name_eq
    obtain rfl : t = u := hvw.tag.elim id id
    obtain rfl : v = w := hvw.value.eq Likeness.strict_varTagsAside
    exact (henv x).insert_same _

lemma butTagsOf_self (params : List Param) (env : Environment) :
    (butTagsOf params).env env env := fun _ => .same rfl

/-- Truthful errors that are the same but for the tag of a variable differ at most in the tag of a
parameter. -/
lemma ErrorAlike.butParams {params : List Param} {env env' : Environment} {e e' : RuntimeError}
    (h : ErrorAlike .varTagsAside e e') (henv : (butTagsOf params).env env env')
    (he : e.Truthful env) (he' : e'.Truthful env') : ErrorButParams params e e' := by
  cases h with
  | same => exact .same
  | @notCallable x t u _ =>
    obtain ⟨v, hv, rfl, -⟩ := he
    obtain ⟨w, hw, rfl, -⟩ := he'
    cases henv x with
    | same hsame =>
      obtain rfl : v = w := Option.some.inj (hv.symm.trans (hsame.trans hw))
      exact .same
    | @param p k hp name_eq left right =>
      obtain rfl := Option.some.inj (hv.symm.trans left)
      obtain rfl := Option.some.inj (hw.symm.trans right)
      obtain rfl : p.name = x := name_eq
      exact .called hp

/-- The same arguments are answered the same. -/
lemma respects_varTagsAside (host : Host σ) : host.Respects .varTagsAside Eq := by
  intro f args args' s t hargs hstate
  obtain rfl : args = args' := eq_of_forall₂_valueAlike Likeness.strict_varTagsAside hargs
  obtain rfl : s = t := hstate
  rcases host.call f args s with ⟨answer, s'⟩
  cases answer with
  | ok v => exact .value (valueAlike_varTagsAside v) rfl
  | error reason => exact .failure rfl

/-- Two runs with one host, in environments that differ in the tags of parameters. -/
def Host.butTagsOf (host : Host σ) (params : List Param) : Pairing .varTagsAside σ σ :=
  (Flame.butTagsOf params).withHost (respects_varTagsAside host)

/-! ### Bindings -/

namespace Run.Matches

variable {L : Likeness} {P : Pairing L σ σ} {Q : α → β → Prop} {x : Run σ α} {y : Run σ β}

/-- What is logged before one of the runs does not matter. -/
lemma note_left (h : Run.Matches P Q x y) (event : Event) :
    Run.Matches P Q (Run.note event >>= fun _ => x) y :=
  fun _ _ _ _ hm => h _ _ _ _ ⟨hm.env, hm.state⟩

lemma note_right (h : Run.Matches P Q x y) (event : Event) :
    Run.Matches P Q x (Run.note event >>= fun _ => y) :=
  fun _ _ _ _ hm => h _ _ _ _ ⟨hm.env, hm.state⟩

/-- A parameter is bound under its declared type, and as a number. -/
lemma declare_param (host : Host σ) {params : List Param} {p : Param} (hp : p ∈ params)
    (k : Int64) :
    Run.Matches (host.butTagsOf params) (fun _ _ => True)
      (Run.declare p.tag p.name (.int k) : Run σ Unit)
      (Run.declare .int p.name (.int k) : Run σ Unit) := by
  intro calls calls' m m' hm
  have henv : ∀ x, FoundButTag params m.env m'.env x := hm.env
  unfold Run.declare Run.change Environment.declare
  simp only [(henv p.name).foundAlike.isDefined_eq]
  cases m'.env.isDefined p.name with
  | true => exact .failed .same hm
  | false => exact .done trivial ⟨fun x => (henv x).insert_param hp k, hm.state⟩

end Run.Matches

section

variable (host : Host σ) (call : FunctionDef → List Value → Run σ TypedValue)

/-- A block that begins with the binding of a number. -/
lemma execBlock_bind_int (x : String) (k : Int64) (b : Block) :
    execBlock host call (.bind x (.int k) :: b) = Run.note (.binding x .int) >>= fun _ =>
      Run.declare .int x (.int k) >>= fun _ => execBlock host call b := by
  rw [execBlock, execStmt, evalExpr]
  simp only [Run.bind_assoc]
  rfl

/-- A conditional with a positive number runs its body in a scope of its own. -/
lemma execStmt_cond_one (b : Block) :
    execStmt host call (.cond (.int 1) b) = Run.inScope id (execBlock host call b) := by
  rw [execStmt, evalExpr]
  rfl

variable {all : List Param} {Q : Option TypedValue → Option TypedValue → Prop} {b : Block}

/-- Binding parameters in a call and by statements, in front of one block. -/
lemma bindParams_bindings {params : List Param} (hall : params ⊆ all) {ks : List Int64}
    (hlength : ks.length = params.length) (surplus : List Value)
    (hb : Run.Matches (host.butTagsOf all) Q (execBlock host call b) (execBlock host call b)) :
    Run.Matches (host.butTagsOf all) Q
      (bindParams params (ks.map .int ++ surplus) >>= fun _ => execBlock host call b)
      (execBlock host call (bindings params ks ++ b)) := by
  induction params generalizing ks with
  | nil =>
    obtain rfl := List.length_eq_zero_iff.1 hlength
    unfold bindParams
    exact hb
  | cons p params ih =>
    obtain ⟨k, ks, rfl⟩ := List.exists_cons_of_length_eq_add_one hlength
    have hrest := ih (fun q hq => hall (List.mem_cons_of_mem p hq)) (by simpa using hlength)
    have hdeclare := Run.Matches.declare_param host (hall List.mem_cons_self) k
    have hleft : (bindParams (p :: params) ((k :: ks).map .int ++ surplus) : Run σ Unit) =
        Run.declare p.tag p.name (.int k) >>= fun _ => bindParams params (ks.map .int ++ surplus) :=
      rfl
    have hright : bindings (p :: params) (k :: ks) ++ b =
        .bind p.name (.int k) :: (bindings params ks ++ b) := rfl
    rw [hleft, hright, Run.bind_assoc, execBlock_bind_int]
    exact (hdeclare.bind fun _ _ _ => hrest).note_right _

end

/-! ### Calls -/

section

variable (host : Host σ) (limit : Nat) (f : FunctionDef) {ks : List Int64}

/-- A call of a function and the statement in its place, from environments that differ in the tags of
the parameters. -/
lemma callFunction_matches_inlined (hks : ks.length = f.params.length) (surplus : List Value) :
    Run.Matches (host.butTagsOf f.params) (fun v r => v = r.getD .void)
      (callFunction host (limit + 1) f (ks.map .int ++ surplus))
      (execStmt host (callFunction host limit) (f.inlined ks)) := by
  have hsteady := steady_callFunction host limit
  have hbody := (callsMatch (host.butTagsOf f.params) limit).execBlock
    (blockAlike_varTagsAside f.body)
  have hblocks := bindParams_bindings host _ (List.Subset.refl f.params) hks surplus hbody
  have hscopes : Run.Matches (host.butTagsOf f.params) (fun v r => v = r.getD .void)
      (Run.inScope (·.getD .void) (bindParams f.params (ks.map .int ++ surplus) >>=
        fun _ => execBlock host (callFunction host limit) f.body))
      (Run.inScope id
        (execBlock host (callFunction host limit) (bindings f.params ks ++ f.body))) := by
    refine .inScope ?_ (growing_execBlock host hsteady _) hblocks fun r r' hr => ?_
    · exact (growing_bindParams f.params _).bind fun _ => growing_execBlock host hsteady f.body
    · rw [eq_of_returnsAlike Likeness.strict_varTagsAside hr]
      rfl
  have harity : ¬ (ks.map Value.int ++ surplus).length < f.params.length := by
    rw [List.length_append, List.length_map, hks]
    omega
  rw [callFunction_succ, if_neg harity, FunctionDef.inlined, execStmt_cond_one]
  dsimp only
  split
  · exact hscopes.note_left _
  · exact hscopes

lemma steady_inlined (ks : List Int64) :
    (execStmt host (callFunction host limit) (f.inlined ks)).Steady := by
  rw [FunctionDef.inlined, execStmt_cond_one]
  refine Run.Closing.steady fun _ => ?_
  exact (growing_execBlock host (steady_callFunction host limit) _).bind_closing fun r =>
    Run.closing_closeScope (id r)

lemma callFunction_inlines (hks : ks.length = f.params.length) (surplus : List Value)
    (calls calls' : List String) (m : Machine σ) :
    Outcome.Inlines f.params m.env
      (callFunction host (limit + 1) f (ks.map .int ++ surplus) calls m)
      (execStmt host (callFunction host limit) (f.inlined ks) calls' m) := by
  have hmatch := callFunction_matches_inlined host limit f hks surplus calls calls' m m
    ⟨butTagsOf_self f.params m.env, rfl⟩
  have hsteady := steady_callFunction host (limit + 1) f (ks.map .int ++ surplus)
  have hsteady' := steady_inlined host limit f ks
  have hreports := reports_callFunction host (limit + 1) f (ks.map .int ++ surplus)
  have hreports' := reports_execStmt host (reports_callFunction host limit) (f.inlined ks)
  cases hcall : callFunction host (limit + 1) f (ks.map .int ++ surplus) calls m <;>
    cases hstmt : execStmt host (callFunction host limit) (f.inlined ks) calls' m <;>
    rw [hcall, hstmt] at hmatch <;> cases hmatch
  · rename_i result machines
    rw [result]
    exact .done (hsteady.done hcall) (hsteady'.done hstmt) machines.state
  · rename_i error machines
    have hbut := error.butParams machines.env (hreports.failed hcall) (hreports'.failed hstmt)
    exact .failed hbut machines.state
  · exact .exhausted

end

lemma applyName_function (host : Host σ) (call : FunctionDef → List Value → Run σ TypedValue)
    {callee : String} {args : List Value} {calls : List String} {m : Machine σ} {v : Variable}
    {f : FunctionDef} (hv : m.env.lookup callee = .ok v) (hf : v.value = .function f) :
    applyName host call callee args calls m = call f args calls m := by
  have hlookup : Run.lookup callee calls m = .done v m := by
    unfold Run.lookup
    rw [hv]
  unfold applyName
  rw [Run.bind_of_done hlookup, hf]

lemma Outcome.Inlines.record?_eq {params : List Param} {env : Environment}
    {x : Outcome RuntimeError (Machine (σ × List Invocation)) TypedValue}
    {y : Outcome RuntimeError (Machine (σ × List Invocation)) (Option TypedValue)}
    (h : x.Inlines params env y) : x.record? = y.record? := by
  cases h with
  | done _ _ host => exact congrArg (fun s => some s.2) host
  | failed _ host => exact congrArg (fun s => some s.2) host
  | exhausted => rfl

/-- **Inlining.** Let a name be bound to a function, and let the arguments of a call be evaluated, the
first of them to numbers, one for each parameter. What remains of the call ends like the conditional
that binds the numbers and goes on with the body: with what that returns and in the environment from
before the call, or with the same error but for the tag of a parameter. Both invoke the same host
functions with the same arguments. The call itself counts against the limit on nested calls, and the
conditional does not. -/
theorem call_inlines (host : Host σ) (limit : Nat) (calls : List String) {m m₁ : Machine σ}
    {callee : String} {v : Variable} {f : FunctionDef} {args : List Expr} {ks : List Int64}
    {surplus : List Value} (hv : m.env.lookup callee = .ok v) (hf : v.value = .function f)
    (hargs : evalArgs host (callFunction host (limit + 1)) args (callee :: calls) m =
      .done (ks.map .int ++ surplus) m₁)
    (hks : ks.length = f.params.length) :
    let rest {τ : Type} (host : Host τ) :=
      applyName host (callFunction host (limit + 1)) callee (ks.map .int ++ surplus)
    let inlined {τ : Type} (host : Host τ) :=
      execStmt host (callFunction host limit) (f.inlined ks)
    evalExpr host (callFunction host (limit + 1)) (.call callee args) calls m =
        rest host (callee :: calls) m₁ ∧
      (rest host (callee :: calls) m₁).Inlines f.params m.env (inlined host calls m₁) ∧
      (rest host.recording (callee :: calls) m₁.recording).record? =
        (inlined host.recording calls m₁.recording).record? := by
  intro rest inlined
  have henv : m₁.env = m.env :=
    (steady_evalArgs host (steady_callFunction host (limit + 1)) args).done hargs
  have hv₁ : m₁.env.lookup callee = .ok v := by rw [henv, hv]
  refine ⟨?_, ?_, ?_⟩
  · rw [evalExpr]
    exact Run.bind_of_done hargs
  · change (applyName host _ callee _ _ m₁).Inlines _ _ _
    rw [applyName_function host _ hv₁ hf, ← henv]
    exact callFunction_inlines host limit f hks surplus _ calls m₁
  · change (applyName host.recording _ callee _ _ m₁.recording).record? = _
    rw [applyName_function host.recording _ (m := m₁.recording) hv₁ hf]
    exact (callFunction_inlines host.recording limit f hks surplus _ calls m₁.recording).record?_eq

/-- With more arguments than parameters, the body calls a parameter that was declared as a truth
value. The call reports that type, and the statement in its place reports a number. -/
theorem call_inlines_called_parameter :
    let out : Native := ⟨"out", 0⟩
    let f : FunctionDef := ⟨"f", [⟨.bool, "n"⟩, ⟨.int, "k"⟩],
      [.expr (.call "out" [.binary .add (.var "n") (.var "k")]), .expr (.call "n" [])]⟩
    let m : Machine Unit := ⟨⟨[], ⟨[⟨"f", .function, .function f⟩,
      ⟨"out", .external, .native out⟩]⟩⟩, (), []⟩
    let called {τ : Type} (host : Host τ) (m : Machine τ) :=
      evalExpr host (callFunction host 1) (.call "f" [.int 5, .int 6, .void]) [] m
    let inlined {τ : Type} (host : Host τ) (m : Machine τ) :=
      execStmt host (callFunction host 0) (f.inlined [5, 6]) [] m
    (∃ m', called .echo m = .failed (.notCallable "n" .bool) m') ∧
      (∃ m', inlined .echo m = .failed (.notCallable "n" .int) m') ∧
      (called .echo m).Inlines f.params m.env (inlined .echo m) ∧
      (inlined Host.echo.recording m.recording).record? = some [(out, [.int 11])] := by
  intro out f m called inlined
  have hargs : evalArgs .echo (callFunction .echo 1) [.int 5, .int 6, .void] ["f"] m =
      .done ([5, 6].map .int ++ [.void]) m := rfl
  have h := call_inlines .echo 0 [] (v := ⟨"f", .function, .function f⟩) rfl rfl hargs rfl
  refine ⟨⟨_, rfl⟩, ⟨_, rfl⟩, ?_, rfl⟩
  change (evalExpr _ _ _ [] m).Inlines _ _ _
  rw [h.1]
  exact h.2.1

end Flame
