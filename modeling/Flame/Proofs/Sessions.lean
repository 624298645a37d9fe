import Flame.Proofs.ScopeDiscipline
import Flame.Run.Session
import Mathlib

/-!
Sessions: source texts submitted one after another, good and bad.

A run that fails is not rolled back. It stops with scopes open, and with the variables that the
statements before the failing one have bound. The scopes are dropped afterwards. Since a statement
that fails binds nothing in the scope that it runs in, what is left is the environment as it was
before that statement.
-/

namespace Flame

variable {σ : Type}

/-! ### Where a block fails -/

section

variable {host : Host σ} {call : FunctionDef → List Value → Run σ TypedValue}
  {calls : List String} {m m' : Machine σ} {e : RuntimeError}

/-- After statements that return nothing, the run goes on with the others. -/
lemma execBlock_append {b₁ : Block} (b₂ : Block) {m₁ : Machine σ}
    (h : execBlock host call b₁ calls m = .done none m₁) :
    execBlock host call (b₁ ++ b₂) calls m = execBlock host call b₂ calls m₁ := by
  induction b₁ generalizing m with
  | nil =>
    obtain ⟨-, rfl⟩ := Outcome.done.inj h
    rfl
  | cons s b₁ ih =>
    rw [execBlock] at h
    obtain ⟨returned, m₂, hs, hrest⟩ := Run.bind_eq_done_iff.1 h
    cases returned with
    | some v => cases hrest
    | none =>
      rw [List.cons_append, execBlock, Run.bind_of_done hs]
      exact ih hrest

lemma execBlock_cons_of_failed {s : Stmt} (b : Block)
    (h : execStmt host call s calls m = .failed e m') :
    execBlock host call (s :: b) calls m = .failed e m' := by
  rw [execBlock]
  exact Run.bind_eq_failed_iff.2 (.inl h)

lemma execBlock_singleton_failed_iff {s : Stmt} :
    execBlock host call [s] calls m = .failed e m' ↔
      execStmt host call s calls m = .failed e m' := by
  refine ⟨fun h => ?_, execBlock_cons_of_failed []⟩
  rw [execBlock] at h
  rcases Run.bind_eq_failed_iff.1 h with hs | ⟨returned, m₁, -, hrest⟩
  · exact hs
  · cases returned <;> cases hrest

/-- A block fails at the first of its statements that fails. -/
lemma execBlock_failed {b : Block} (h : execBlock host call b calls m = .failed e m') :
    ∃ k s before, b[k]? = some s ∧ execBlock host call (b.take k) calls m = .done none before ∧
      execStmt host call s calls before = .failed e m' := by
  induction b generalizing m with
  | nil => cases h
  | cons s b ih =>
    rw [execBlock] at h
    rcases Run.bind_eq_failed_iff.1 h with hs | ⟨returned, m₁, hs, hrest⟩
    · exact ⟨0, s, m, rfl, rfl, hs⟩
    · cases returned with
      | some v => cases hrest
      | none =>
        obtain ⟨k, s', before, hk, hdone, hfailed⟩ := ih hrest
        refine ⟨k + 1, s', before, hk, ?_, hfailed⟩
        rw [List.take_succ_cons, execBlock]
        exact Run.bind_eq_done_iff.2 ⟨none, m₁, hs, hdone⟩

end

/-- The statement of a program at an index fails, after the statements before it ran and returned
nothing. -/
def FailsAt (host : Host σ) (limit : Nat) (program : Block) (m : Machine σ) (e : RuntimeError)
    (k : Nat) (before : Machine σ) : Prop :=
  m.exec host limit (program.take k) = .done none before ∧
    ∃ s after, program[k]? = some s ∧ before.exec host limit [s] = .failed e after

section

variable {host : Host σ} {limit : Nat} {program : Block} {m m' : Machine σ} {e : RuntimeError}

/-- What runs past a statement that fails gives no value. -/
lemma FailsAt.exec_take_ne_done {k j : Nat} {before : Machine σ}
    (h : FailsAt host limit program m e k before) (hlt : k < j) (r : Option TypedValue) :
    m.exec host limit (program.take j) ≠ .done r m' := by
  obtain ⟨hdone, s, after, hs, hfailed⟩ := h
  obtain ⟨hk, rfl⟩ := List.getElem?_eq_some_iff.1 hs
  obtain ⟨i, rfl⟩ : ∃ i, j = k + (i + 1) := ⟨j - (k + 1), by omega⟩
  unfold Machine.exec at hdone hfailed ⊢
  rw [List.take_add, execBlock_append _ hdone, List.drop_eq_getElem_cons hk, List.take_succ_cons,
    execBlock_cons_of_failed _ (execBlock_singleton_failed_iff.1 hfailed)]
  intro heq
  cases heq

lemma FailsAt.unique {k j : Nat} {before before' : Machine σ}
    (hk : FailsAt host limit program m e k before)
    (hj : FailsAt host limit program m e j before') : j = k := by
  rcases Nat.lt_trichotomy k j with hlt | rfl | hlt
  · exact absurd hj.1 (hk.exec_take_ne_done hlt none)
  · rfl
  · exact absurd hk.1 (hj.exec_take_ne_done hlt none)

/-- A program that fails does so at one of its statements. The scopes left open lie on top of the
environment that this statement started from. -/
lemma exists_failsAt (h : m.exec host limit program = .failed e m') :
    ∃ k before, FailsAt host limit program m e k before ∧ m.env.Grows before.env ∧
      before.env.Under m'.env := by
  have hcall := steady_callFunction host limit
  obtain ⟨k, s, before, hs, hdone, hfailed⟩ := execBlock_failed h
  refine ⟨k, before, ⟨hdone, s, m', hs, ?_⟩, ?_, ?_⟩
  · exact execBlock_singleton_failed_iff.2 hfailed
  · exact (growing_execBlock host hcall (program.take k)).done hdone
  · exact ((binding_execStmt host hcall s).failed hfailed).under

end

/-! ### Submissions -/

namespace Machine

/-- The machine after a source text was read, whether or not it is a program. -/
def noteReading (source : String) (m : Machine σ) : Machine σ :=
  let ts := TokenStream.ofSource source
  (m.note (.tokenized ts.body.length)).noteAll ts.parse.events

lemma noteAll_eq (events : List Event) (m : Machine σ) :
    ∃ log, m.noteAll events = { m with log } := by
  induction events generalizing m with
  | nil => exact ⟨m.log, rfl⟩
  | cons event events ih =>
    obtain ⟨log, hlog⟩ := ih (m.note event)
    exact ⟨log, hlog⟩

/-- Reading touches the log only. -/
lemma noteReading_eq (source : String) (m : Machine σ) :
    ∃ log, m.noteReading source = { m with log } := by
  obtain ⟨log, hlog⟩ := noteAll_eq (TokenStream.ofSource source).parse.events
    (m.note (.tokenized (TokenStream.ofSource source).body.length))
  exact ⟨log, hlog⟩

@[simp] lemma unwind_env (m : Machine σ) : m.unwind.env = m.env.unwind := by
  obtain ⟨⟨inner, global⟩, host, log⟩ := m
  cases inner <;> rfl

@[simp] lemma unwind_host (m : Machine σ) : m.unwind.host = m.host := by
  obtain ⟨⟨inner, global⟩, host, log⟩ := m
  cases inner <;> rfl

variable {host : Host σ} {limit : Nat} {source : String}

/-- A text that is not a program is refused before anything runs. -/
lemma submit_of_parse_error {e : ParseError} (m : Machine σ)
    (h : (TokenStream.ofSource source).parse.result = .error e) :
    m.submit host limit source = .failed (.parse e) (m.noteReading source).unwind := by
  unfold submit runSource runTokens noteReading
  simp only [h]

lemma submit_of_parse_ok {program : Block} (m : Machine σ)
    (h : (TokenStream.ofSource source).parse.result = .ok program) :
    m.submit host limit source =
      match ((m.noteReading source).note (.unitRead program.length)).exec host limit program with
      | .done r m' => .done r m'
      | .failed e m' => .failed (.runtime e) m'.unwind
      | .exhausted => .exhausted := by
  unfold submit runSource runTokens noteReading
  simp only [h]
  cases exec host limit program _ <;> rfl

variable {m m' : Machine σ}

/-- A refused text changes nothing but the log, and the host is not asked: any other host would have
given the same. -/
lemma submit_failed_parse {e : ParseError} (hglobal : m.env.inner = [])
    (h : m.submit host limit source = .failed (.parse e) m') :
    m'.env = m.env ∧ m'.host = m.host ∧
      ∀ host' : Host σ, m.submit host' limit source = .failed (.parse e) m' := by
  cases hparse : (TokenStream.ofSource source).parse.result with
  | error e' =>
    obtain ⟨log, hlog⟩ := noteReading_eq source m
    rw [submit_of_parse_error m hparse, hlog] at h
    obtain ⟨he, rfl⟩ := Outcome.failed.inj h
    obtain rfl := RunError.parse.inj he
    refine ⟨?_, ?_, fun host' => ?_⟩
    · rw [unwind_env, Environment.unwind_of_inner_nil hglobal]
    · rw [unwind_host]
    · rw [submit_of_parse_error m hparse, hlog]
  | ok program =>
    rw [submit_of_parse_ok m hparse] at h
    split at h <;> cases h

/-- A program that fails leaves the environment that the failing statement started from. -/
lemma submit_failed_runtime {e : RuntimeError} (hglobal : m.env.inner = [])
    (h : m.submit host limit source = .failed (.runtime e) m') :
    ∃ program log k before, (TokenStream.ofSource source).parse.result = .ok program ∧
      FailsAt host limit program { m with log } e k before ∧ m.env.Grows before.env ∧
      m'.env = before.env := by
  cases hparse : (TokenStream.ofSource source).parse.result with
  | error e' =>
    rw [submit_of_parse_error m hparse] at h
    cases h
  | ok program =>
    obtain ⟨log, hlog⟩ := noteReading_eq source m
    rw [submit_of_parse_ok m hparse, hlog] at h
    split at h
    · cases h
    · rename_i e' m₁ hexec
      obtain ⟨he, rfl⟩ := Outcome.failed.inj h
      obtain rfl := RunError.runtime.inj he
      obtain ⟨k, before, hfails, hgrows, hunder⟩ := exists_failsAt hexec
      refine ⟨program, _, k, before, rfl, hfails, hgrows, ?_⟩
      rw [unwind_env, hunder.unwind_eq,
        Environment.unwind_of_inner_nil (hgrows.inner_eq_nil hglobal)]
    · cases h

lemma grows_of_submit_done {r : Option TypedValue}
    (h : m.submit host limit source = .done r m') : m.env.Grows m'.env := by
  cases hparse : (TokenStream.ofSource source).parse.result with
  | error e' =>
    rw [submit_of_parse_error m hparse] at h
    cases h
  | ok program =>
    obtain ⟨log, hlog⟩ := noteReading_eq source m
    rw [submit_of_parse_ok m hparse, hlog] at h
    split at h
    · rename_i r' m₁ hexec
      obtain ⟨-, rfl⟩ := Outcome.done.inj h
      have hgrowing := growing_execBlock host (steady_callFunction host limit) program
      have hgrows := hgrowing.done hexec
      exact hgrows
    · cases h
    · cases h

end Machine

/-! ### Sessions -/

/-- Submitting a text takes a machine to another, whether or not the text runs to its end. -/
def Submits (host : Host σ) (limit : Nat) (m : Machine σ) (source : String) (m' : Machine σ) :
    Prop :=
  (∃ r, m.submit host limit source = .done r m') ∨
    ∃ e, m.submit host limit source = .failed e m'

/-- The machines that texts lead to from a machine, submitted one after another. -/
inductive Session (host : Host σ) (limit : Nat) (m : Machine σ) : List String → Machine σ → Prop
  | nil : Session host limit m [] m
  | submit {sources : List String} {source : String} {m₁ m₂ : Machine σ}
      (earlier : Session host limit m sources m₁) (last : Submits host limit m₁ source m₂) :
      Session host limit m (sources ++ [source]) m₂

section

variable {host : Host σ} {limit : Nat} {m m' : Machine σ}

/-- From the global scope, a submission only adds to the global scope. -/
lemma Submits.grows {source : String} (hglobal : m.env.inner = [])
    (h : Submits host limit m source m') : m.env.Grows m'.env := by
  rcases h with ⟨r, h⟩ | ⟨e, h⟩
  · exact Machine.grows_of_submit_done h
  · cases e with
    | parse e =>
      rw [(Machine.submit_failed_parse hglobal h).1]
      exact .refl
    | runtime e =>
      obtain ⟨program, log, k, before, -, -, hgrows, henv⟩ :=
        Machine.submit_failed_runtime hglobal h
      rw [henv]
      exact hgrows

lemma Session.grows {sources : List String} (hglobal : m.env.inner = [])
    (h : Session host limit m sources m') : m.env.Grows m'.env := by
  induction h with
  | nil => exact .refl
  | submit _ last ih => exact ih.trans (last.grows (ih.inner_eq_nil hglobal))

lemma Session.trans {m₁ : Machine σ} {sources later : List String}
    (h : Session host limit m sources m₁) (h' : Session host limit m₁ later m') :
    Session host limit m (sources ++ later) m' := by
  induction h' with
  | nil => rwa [List.append_nil]
  | submit earlier last ih =>
    rw [← List.append_assoc]
    exact .submit ih last

end

lemma growing_install (natives : List Native) :
    (natives.forM Run.declareNative : Run σ Unit).Growing := by
  induction natives with
  | nil => exact (Run.steady_pure ()).binding.growing
  | cons f natives ih =>
    rw [List.forM]
    refine Run.Growing.bind ?_ fun _ => ih
    exact ((Run.steady_note _).bind_binding fun _ => Run.binding_declare _ _ _).growing

lemma grows_of_install {natives : List Native} {m m' : Machine σ}
    (h : m.install natives = .done () m') : m.env.Grows m'.env :=
  (growing_install natives).done h

/-- **Recovery.** After any submissions to a session with host functions, one more leaves only the
global scope active, and every variable that earlier submissions bound there. If the text is not a
program, the environment is as before and the host was not asked. If its run fails, it does so at
exactly one statement, and the environment is what the statements before that one made of it. -/
theorem submit_recovers {host : Host σ} {limit : Nat} {natives : List Native} {s : σ}
    {m₀ m₁ m m' : Machine σ} {earlier later : List String} {source : String}
    (hstart : (Machine.start s).install natives = .done () m₀)
    (hearlier : Session host limit m₀ earlier m₁) (hlater : Session host limit m₁ later m)
    (hsubmit : Submits host limit m source m') :
    m'.env.depth = 1 ∧
    (∀ name v, m₁.env.global.get? name = some v → m'.env.global.get? name = some v) ∧
    (∀ e, m.submit host limit source = .failed (.parse e) m' →
      m'.env = m.env ∧ m'.host = m.host ∧
        ∀ host' : Host σ, m.submit host' limit source = .failed (.parse e) m') ∧
    (∀ e, m.submit host limit source = .failed (.runtime e) m' →
      ∃ program log k before, (TokenStream.ofSource source).parse.result = .ok program ∧
        FailsAt host limit program { m with log } e k before ∧
        (∀ j before', FailsAt host limit program { m with log } e j before' → j = k) ∧
        m'.env = before.env) := by
  have hglobal₀ : m₀.env.inner = [] := (grows_of_install hstart).inner_eq_nil rfl
  have hglobal₁ : m₁.env.inner = [] := (hearlier.grows hglobal₀).inner_eq_nil hglobal₀
  have hgrows : m₁.env.Grows m.env := hlater.grows hglobal₁
  have hglobal : m.env.inner = [] := hgrows.inner_eq_nil hglobal₁
  have hgrows' : m₁.env.Grows m'.env := hgrows.trans (hsubmit.grows hglobal)
  refine ⟨?_, ?_, fun e h => ?_, fun e h => ?_⟩
  · unfold Environment.depth
    rw [hgrows'.inner_eq_nil hglobal₁]
    rfl
  · exact fun name v => hgrows'.global_kept hglobal₁
  · exact Machine.submit_failed_parse hglobal h
  · obtain ⟨program, log, k, before, hparse, hfails, -, henv⟩ :=
      Machine.submit_failed_runtime hglobal h
    exact ⟨program, log, k, before, hparse, hfails, fun j before' hj => hfails.unique hj, henv⟩

/-- The second statement fails with a scope open; what the first bound stays. -/
theorem submit_recovers_open_scope :
    let host : Host Unit := ⟨fun _ _ s => (.ok .void, s)⟩
    let p : Variable := ⟨"p", .external, .native ⟨"p", 0⟩⟩
    let a : Variable := ⟨"a", .int, .int 1⟩
    let b : Variable := ⟨"b", .int, .int 2⟩
    ∃ m₀ m m' : Machine Unit,
      (Machine.start ()).install [⟨"p", 0⟩] = .done () m₀ ∧
      Session host 1 m₀ ["let a=1;"] m ∧
      m.submit host 1 "let b=2;if a\x7bb();\x7d" = .failed (.runtime (.notCallable "b" .int)) m' ∧
      m'.env = ⟨[], ⟨[b, a, p]⟩⟩ ∧
      ∃ program log k before,
        FailsAt host 1 program { m with log } (.notCallable "b" .int) k before ∧
        m'.env = before.env := by
  intro host p a b
  let m₀ : Machine Unit := ⟨⟨[], ⟨[p]⟩⟩, (), [⟨.nativeDefined "p", []⟩]⟩
  let m : Machine Unit := ⟨⟨[], ⟨[a, p]⟩⟩, (),
    [⟨.binding "a" .int, []⟩, ⟨.unitRead 1, []⟩, ⟨.tokenized 5, []⟩] ++ m₀.log⟩
  let m' : Machine Unit := ⟨⟨[], ⟨[b, a, p]⟩⟩, (),
    [⟨.unwound 1, []⟩, ⟨.scopeOpened 2, []⟩, ⟨.binding "b" .int, []⟩, ⟨.unitRead 2, []⟩,
      ⟨.tokenized 13, []⟩] ++ m.log⟩
  have hstart : (Machine.start ()).install [⟨"p", 0⟩] = .done () m₀ := rfl
  have hfirst : m₀.submit host 1 "let a=1;" = .done none m := by cbv
  have hfailed : m.submit host 1 "let b=2;if a\x7bb();\x7d" =
      .failed (.runtime (.notCallable "b" .int)) m' := by cbv
  have hsession : Session host 1 m₀ ["let a=1;"] m := .submit .nil (.inl ⟨none, hfirst⟩)
  obtain ⟨-, -, -, hrun⟩ := submit_recovers hstart .nil hsession (.inr ⟨_, hfailed⟩)
  obtain ⟨program, log, k, before, -, hfails, -, henv⟩ := hrun _ hfailed
  exact ⟨m₀, m, m', hstart, hsession, hfailed, rfl, program, log, k, before, hfails, henv⟩

end Flame
