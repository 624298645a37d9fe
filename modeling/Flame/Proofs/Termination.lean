import Flame.Proofs.Hosts
import Flame.Proofs.Moments
import Mathlib.Data.List.Dedup
import Mathlib.Data.List.Perm.Subperm

/-!
Runs come to an end if every function has a parameter.

No name is bound twice in all active scopes together, and the parameters of a call stay bound as
long as its body is being run. So functions whose bodies are being run at one moment have different
parameters, and a function whose body is being run cannot be entered again: binding its parameters
fails. Hence calls nest no more deeply than there are names of parameters. It matters that functions
come from nowhere but the program and the environment, so a host must not make up any.
-/

namespace Flame

variable {σ : Type}

/-! ### The functions at hand -/

def Value.functions : Value → List FunctionDef
  | .function f => f.functions
  | _ => []

/-- The functions that variables hold, with those defined in their bodies. -/
def Environment.functions (env : Environment) : List FunctionDef :=
  env.scopes.flatMap fun s => s.bindings.flatMap fun v => v.value.functions

/-- The names of the functions' parameters, each once. -/
def paramNames (fs : List FunctionDef) : List String :=
  (fs.flatMap fun f => f.params.map (·.name)).dedup

/-- The likeness of programs that are the same, and whose functions have parameters, all named from
a list. -/
def Likeness.naming (names : List String) : Likeness :=
  .exact (fun _ => True) fun ps => ps ≠ [] ∧ ∀ p ∈ ps, p.name ∈ names

lemma naming_paramNames {fs : List FunctionDef} {f : FunctionDef} (hf : f ∈ fs)
    (hparams : f.params ≠ []) : (Likeness.naming (paramNames fs)).params f.params := by
  refine ⟨hparams, fun p hp => ?_⟩
  rw [paramNames, List.mem_dedup, List.mem_flatMap]
  exact ⟨f, hf, List.mem_map_of_mem hp⟩

/-! ### Entering calls -/

/-- The parameters were not bound in an environment, and are bound in another that has all its
variables. -/
structure Entered (params : List Param) (env env₁ : Environment) : Prop where
  fresh : ∀ p ∈ params, env.isDefined p.name = false
  bound : ∀ p ∈ params, env₁.isDefined p.name = true
  kept : ∀ {x}, env.isDefined x = true → env₁.isDefined x = true
  alike : ∀ {L}, EnvAlike L env env → EnvAlike L env₁ env₁

lemma Run.declare_eq_done {tag : TypeTag} {x : String} {v : Value} {calls : List String}
    {m m₁ : Machine σ} {u : Unit} (h : declare tag x v calls m = .done u m₁) :
    m.env.isDefined x = false ∧ m₁ = { m with env := m.env.insert ⟨x, tag, v⟩ } := by
  unfold declare change Environment.declare at h
  cases hdef : m.env.isDefined x with
  | true =>
    simp only [hdef] at h
    cases h
  | false =>
    simp only [hdef] at h
    obtain ⟨-, rfl⟩ := Outcome.done.inj h
    exact ⟨rfl, rfl⟩

lemma entered_of_bindParams {params : List Param} {args : List Value} {calls : List String}
    {m m₁ : Machine σ} (hlength : params.length ≤ args.length)
    (h : bindParams params args calls m = .done () m₁) : Entered params m.env m₁.env := by
  induction params generalizing args m with
  | nil =>
    unfold bindParams at h
    obtain ⟨-, rfl⟩ := Outcome.done.inj h
    exact ⟨by simp, by simp, id, id⟩
  | cons p params ih =>
    cases args with
    | nil => simp at hlength
    | cons v args =>
      cases v with
      | int n =>
        simp only [bindParams] at h
        obtain ⟨u, m₂, hdeclare, hrest⟩ := Run.bind_eq_done_iff.1 h
        obtain ⟨hfresh, rfl⟩ := Run.declare_eq_done hdeclare
        have hentered := ih (by simpa using hlength) hrest
        have hgrows : m.env.Grows (m.env.insert ⟨p.name, p.tag, .int n⟩) := .insert .refl hfresh
        have hself : (m.env.insert ⟨p.name, p.tag, .int n⟩).isDefined p.name = true := by
          rw [Environment.isDefined_eq_isSome_find?]
          exact congrArg Option.isSome (m.env.find?_insert_self ⟨p.name, p.tag, .int n⟩)
        refine ⟨?_, ?_, ?_, ?_⟩
        · intro q hq
          rcases List.mem_cons.1 hq with rfl | hq
          · exact hfresh
          · cases hdef : m.env.isDefined q.name with
            | false => rfl
            | true => rw [← hgrows.extends.isDefined hdef, hentered.fresh q hq]
        · intro q hq
          rcases List.mem_cons.1 hq with rfl | hq
          · exact hentered.kept hself
          · exact hentered.bound q hq
        · exact fun hdef => hentered.kept (hgrows.extends.isDefined hdef)
        · intro L henv
          exact hentered.alike (henv.insert ⟨rfl, L.varTag_refl p.tag, .int n⟩)
      | _ => cases h

lemma entered_of_enterCall {f : FunctionDef} {args : List Value} {calls : List String}
    {m m₁ : Machine σ} (h : enterCall f args calls m = .done () m₁) :
    Entered f.params m.env m₁.env := by
  have hbind : ∀ {m : Machine σ}, f.params.length ≤ args.length →
      (Run.openScope >>= fun _ => bindParams f.params args) calls m = .done () m₁ →
      Entered f.params m.env m₁.env := by
    intro m hlength h
    rw [Run.bind_of_done (Run.openScope_apply calls m)] at h
    have hentered := entered_of_bindParams hlength h
    exact ⟨hentered.fresh, hentered.bound, hentered.kept, fun henv => hentered.alike henv.push⟩
  unfold enterCall at h
  split at h
  · cases h
  · rename_i hlength
    split at h
    · rw [Run.bind_of_done (show Run.note _ calls m = .done () _ from rfl)] at h
      have hentered := hbind (Nat.le_of_not_lt hlength) h
      exact hentered
    · exact hbind (Nat.le_of_not_lt hlength) h

/-- A function one of whose parameters is bound already cannot be entered. -/
lemma enterCall_fails {f : FunctionDef} {p : Param} (hp : p ∈ f.params) {m : Machine σ}
    (hbound : m.env.isDefined p.name = true) (args : List Value) (calls : List String) :
    ∃ e m', enterCall f args calls m = .failed e m' := by
  cases h : enterCall f args calls m with
  | done u m₁ =>
    have hfresh := (entered_of_enterCall h).fresh p hp
    rw [hbound] at hfresh
    cases hfresh
  | failed e m' => exact ⟨e, m', rfl⟩
  | exhausted => exact absurd h (ends_enterCall f args calls m)

/-! ### What holds at every moment -/

/-- Where something is to be run, all functions in it are allowed. -/
def Task.Allowed (L : Likeness) : Task → Prop
  | .stmt s => StmtAlike L s s
  | .block b => BlockAlike L b b
  | _ => True

/-- All functions at hand are allowed. Those whose bodies are being run have different parameters,
all of them bound. -/
structure Moment.Sound (L : Likeness) (M : Moment σ) : Prop where
  task : M.task.Allowed L
  env : EnvAlike L M.machine.env M.machine.env
  declared : ∀ f ∈ M.active, L.params f.params
  bound : ∀ f ∈ M.active, ∀ p ∈ f.params, M.machine.env.isDefined p.name = true
  disjoint : M.active.Pairwise fun f g => ∀ p ∈ f.params, ∀ q ∈ g.params, p.name ≠ q.name

namespace Moment.Sound

variable {L : Likeness} {host : Host σ}

/-- As long as no body is entered or left, it is enough that bound names stay bound. -/
lemma next {M : Moment σ} (h : M.Sound L) {task : Task} {calls : List String} {m : Machine σ}
    (htask : task.Allowed L) (henv : EnvAlike L m.env m.env)
    (hkept : ∀ {x}, M.machine.env.isDefined x = true → m.env.isDefined x = true) :
    Sound L ⟨task, M.active, M.limit, calls, m⟩ :=
  ⟨htask, henv, h.declared, fun f hf p hp => hkept (h.bound f hf p hp), h.disjoint⟩

/-- The same after a computation that leaves the environment as it was. -/
lemma next_of_eq {M : Moment σ} (h : M.Sound L) {task : Task} {calls : List String} {m : Machine σ}
    (htask : task.Allowed L) (henv : m.env = M.machine.env) :
    Sound L ⟨task, M.active, M.limit, calls, m⟩ :=
  h.next htask (by rw [henv]; exact h.env) fun hdef => by rw [henv]; exact hdef

/-- What running a statement adds to the environment is allowed. -/
lemma alike_of_execStmt (hhost : host.Respects L Eq) {n : Nat} {s : Stmt} {calls : List String}
    {m m₁ : Machine σ} {r : Option TypedValue} (hs : StmtAlike L s s)
    (henv : EnvAlike L m.env m.env)
    (h : execStmt host (callFunction host n) s calls m = .done r m₁) :
    EnvAlike L m₁.env m₁.env := by
  let P := (Correspondence.alike L).withHost hhost
  have hmatches : Outcome.Matches P (ReturnsAlike L)
      (execStmt host (callFunction host n) s calls m)
      (execStmt host (callFunction host n) s calls m) :=
    (callsMatch P n).execStmt hs calls calls m m ⟨henv, rfl⟩
  rw [h] at hmatches
  cases hmatches with
  | done _ machines => exact machines.env

lemma enter {callee : String} {vs : List Value} {fs : List FunctionDef} {n : Nat}
    {calls : List String} {m m₁ : Machine σ} {v : Variable} {f : FunctionDef}
    (h : Sound L ⟨.apply callee vs, fs, n + 1, calls, m⟩) (hfind : m.env.find? callee = some v)
    (hvalue : v.value = .function f) (henter : enterCall f vs calls m = .done () m₁) :
    Sound L ⟨.block f.body, f :: fs, n, calls, m₁⟩ := by
  have hentered := entered_of_enterCall henter
  have hf : FunctionAlike L f f := by
    have hfound := h.env.find callee
    rw [hfind] at hfound
    cases hfound with
    | some hv =>
      have halike := hv.value
      rw [hvalue] at halike
      cases halike with
      | function hf => exact hf
      | plain hplain => exact absurd rfl (hplain f)
  refine ⟨hf.body, hentered.alike h.env, ?_, ?_, ?_⟩
  · intro g hg
    rcases List.mem_cons.1 hg with rfl | hg
    · exact hf.declared
    · exact h.declared g hg
  · intro g hg p hp
    rcases List.mem_cons.1 hg with rfl | hg
    · exact hentered.bound p hp
    · exact hentered.kept (h.bound g hg p hp)
  · refine .cons (fun g hg p hp q hq heq => ?_) h.disjoint
    -- The parameter was not bound before, while those of the other bodies are.
    have hbound := h.bound g hg q hq
    rw [← heq, hentered.fresh p hp] at hbound
    cases hbound

/-- A run that starts the run of a part keeps all this. -/
lemma step (hhost : host.Respects L Eq) {M N : Moment σ} (hleads : Leads host M N)
    (h : M.Sound L) : N.Sound L := by
  cases hleads with
  | left => exact h.next_of_eq trivial rfl
  | @right _ l _ _ n _ _ _ _ hl =>
    exact h.next_of_eq trivial ((steady_evalExpr host (steady_callFunction host n) l).done hl)
  | args => exact h.next_of_eq trivial rfl
  | @apply _ es _ n _ _ _ _ hargs =>
    exact h.next_of_eq trivial ((steady_evalArgs host (steady_callFunction host n) es).done hargs)
  | arg => exact h.next_of_eq trivial rfl
  | @otherArgs e _ _ n _ _ _ _ he =>
    exact h.next_of_eq trivial ((steady_evalExpr host (steady_callFunction host n) e).done he)
  | body hfind hvalue henter => exact h.enter hfind hvalue henter
  | evaluated _ => exact h.next_of_eq trivial rfl
  | @branch e b _ n calls m _ _ m₁ he =>
    have hbody : BlockAlike L b b := by
      cases h.task with
      | cond _ body => exact body
    have henv : m₁.env = m.env :=
      (steady_evalExpr host (steady_callFunction host n) e).done he
    refine h.next hbody ?_ ?_
    · change EnvAlike L m₁.env.push m₁.env.push
      rw [henv]
      exact h.env.push
    · intro x hdef
      change m₁.env.isDefined x = true
      rw [henv]
      exact hdef
  | first =>
    cases h.task with
    | cons hs _ => exact h.next_of_eq hs rfl
  | @others s _ _ n _ _ _ hdone =>
    cases h.task with
    | cons hs hb =>
      have hgrows := (binding_execStmt host (steady_callFunction host n) s).done hdone
      exact h.next hb (alike_of_execStmt hhost hs h.env hdone) hgrows.extends.isDefined

lemma of_reaches (hhost : host.Respects L Eq) {M N : Moment σ} (h : M.Sound L)
    (hreaches : Reaches host M N) : N.Sound L := by
  induction hreaches with
  | refl => exact h
  | tail _ hleads ih => exact ih.step hhost hleads

/-- No more bodies are being run than there are names of parameters. -/
lemma length_le {names : List String} {M : Moment σ} (h : M.Sound (.naming names)) :
    M.active.length ≤ names.length := by
  let first (f : FunctionDef) : Option String := (f.params.map (·.name)).head?
  have hfirst : ∀ f ∈ M.active, ∃ p ∈ f.params, first f = some p.name := by
    intro f hf
    obtain ⟨hne, -⟩ := h.declared f hf
    obtain ⟨p, ps, hparams⟩ := List.exists_cons_of_ne_nil hne
    exact ⟨p, by simp [hparams], by simp [first, hparams]⟩
  have hnodup : (M.active.map first).Nodup := by
    refine List.pairwise_map.2 (h.disjoint.imp_of_mem fun {f g} hf hg hdisjoint heq => ?_)
    obtain ⟨p, hp, hpf⟩ := hfirst f hf
    obtain ⟨q, hq, hqg⟩ := hfirst g hg
    rw [hpf, hqg] at heq
    exact hdisjoint p hp q hq (Option.some.inj heq)
  have hsubset : M.active.map first ⊆ names.map some := by
    intro x hx
    obtain ⟨f, hf, rfl⟩ := List.mem_map.1 hx
    obtain ⟨p, hp, hpf⟩ := hfirst f hf
    rw [hpf]
    exact List.mem_map_of_mem ((h.declared f hf).2 p hp)
  simpa using (List.subperm_of_subset hnodup hsubset).length_le

end Moment.Sound

/-! ### The bound -/

section

variable {program : Block} {m : Machine σ}

/-- The functions that a run of a program can call. -/
def functionsAt (program : Block) (m : Machine σ) : List FunctionDef :=
  Block.functions program ++ m.env.functions

lemma sound_start (hparams : ∀ f ∈ functionsAt program m, f.params ≠ []) (limit : Nat) :
    (Moment.start limit program m).Sound (.naming (paramNames (functionsAt program m))) := by
  have hallowed : ∀ f ∈ functionsAt program m,
      (Likeness.naming (paramNames (functionsAt program m))).params f.params :=
    fun f hf => naming_paramNames hf (hparams f hf)
  refine ⟨?_, ?_, by simp [Moment.start], by simp [Moment.start], .nil⟩
  · refine blockAlike_self (Likeness.reflexive_exact _ _) program (fun _ _ => trivial) ?_
    exact fun f hf => hallowed f (List.mem_append_left _ hf)
  · refine EnvAlike.self fun s hs v hv => ?_
    refine valueAlike_self (Likeness.reflexive_exact _ _) (fun _ _ _ _ => trivial) ?_
    intro f hvalue g hg
    have hmem : g ∈ m.env.functions := by
      rw [Environment.functions, List.mem_flatMap]
      refine ⟨s, hs, List.mem_flatMap.2 ⟨v, hv, ?_⟩⟩
      rw [hvalue]
      exact hg
    exact hallowed g (List.mem_append_right _ hmem)

end

/-- **Termination.** If every function of a program and of the environment has a parameter, then a
run of the program comes to an end, the same one under every limit that is greater than the number
of names of parameters. For at every moment, the functions whose bodies are being run have
parameters, no two of them a parameter of one name, and all of those are bound. So calling such a
function again fails in every case, before its body matters. -/
theorem exec_terminates (host : Host σ) (hhost : host.ReturnsArguments) (program : Block)
    (m : Machine σ) (hparams : ∀ f ∈ functionsAt program m, f.params ≠ []) :
    (∃ outcome, outcome ≠ .exhausted ∧ ∀ limit,
      (paramNames (functionsAt program m)).length < limit → m.exec host limit program = outcome) ∧
    ∀ limit M, Reaches host (.start limit program m) M →
      (∀ f ∈ M.active, f.params ≠ []) ∧
      (∀ f ∈ M.active, ∀ p ∈ f.params, M.machine.env.isDefined p.name = true) ∧
      (M.active.Pairwise fun f g => ∀ p ∈ f.params, ∀ q ∈ g.params, p.name ≠ q.name) ∧
      ∀ f ∈ M.active, ∀ args, ∃ e m', ∀ body n,
        callFunction host (n + 1) { f with body } args M.calls M.machine = .failed e m' := by
  have hrespects := hhost.respects (fun _ => True)
    fun ps => ps ≠ [] ∧ ∀ p ∈ ps, p.name ∈ paramNames (functionsAt program m)
  have hsound := fun limit M (h : Reaches host (.start limit program m) M) =>
    (sound_start hparams limit).of_reaches hrespects h
  refine ⟨?_, fun limit M hreaches => ?_⟩
  · have hends : m.exec host ((paramNames (functionsAt program m)).length + 1) program
        ≠ .exhausted := by
      intro hexhausted
      obtain ⟨M, hreaches, hlength⟩ := exists_moment_of_exhausted hexhausted
      have hle := (hsound _ M hreaches).length_le
      omega
    exact ⟨_, hends, fun limit hlimit => exec_eq_of_le host program m hlimit hends⟩
  · have h := hsound limit M hreaches
    refine ⟨fun f hf => (h.declared f hf).1, h.bound, h.disjoint, fun f hf args => ?_⟩
    obtain ⟨p, hp⟩ := List.exists_mem_of_ne_nil _ (h.declared f hf).1
    obtain ⟨e, m', henter⟩ := enterCall_fails hp (h.bound f hf p hp) args M.calls
    refine ⟨e, m', fun body n => ?_⟩
    rw [callFunction_eq_enterCall]
    exact Run.bind_of_failed henter

/-- The error of a computation that failed. -/
def Outcome.error? {ε S α : Type} : Outcome ε S α → Option ε
  | .failed e _ => some e
  | _ => none

/-- Two functions that call each other without end are stopped when the first is to be entered
again. -/
theorem exec_terminates_mutual_recursion :
    let program : Block :=
      [.function "f" [⟨.int, "a"⟩] [.ret (.call "g" [.var "a"])],
        .function "g" [⟨.int, "b"⟩] [.ret (.call "f" [.var "b"])],
        .ret (.call "f" [.int 1])]
    (∀ f ∈ functionsAt program (.start ()), f.params ≠ []) ∧
      ∀ limit, 2 < limit →
        ((Machine.start ()).exec .echo limit program).error? = some (.duplicateDefinition "a") := by
  intro program
  have hparams : ∀ f ∈ functionsAt program (Machine.start ()), f.params ≠ [] := by decide
  have hnames : (paramNames (functionsAt program (Machine.start ()))).length = 2 := by decide
  obtain ⟨⟨outcome, -, hall⟩, -⟩ :=
    exec_terminates .echo returnsArguments_echo program (.start ()) hparams
  have hthree : ((Machine.start ()).exec .echo 3 program).error? =
      some (.duplicateDefinition "a") := by decide +kernel
  refine ⟨hparams, fun limit hlimit => ?_⟩
  rw [hall limit (by omega), ← hall 3 (by omega)]
  exact hthree

end Flame
