import Flame.Proofs.Hosts
import Mathlib.Data.Set.Basic

/-!
A run depends on the names that its program mentions, and on nothing else.

Two environments may differ in how deep they are, in which scope holds a variable, and in all the
variables under other names. As long as looking up a name of a program finds the same in both, the
program runs alike in both. The names of a program are not enough for this, since it may call a
function that the environment holds: the set of names must be closed, so that with a name it has all
that the function of that name mentions.
-/

namespace Flame

variable {σ α : Type}

namespace Environment

/-- Looking up each of the names gives the same. -/
def AgreesOn (names : Set String) (env env' : Environment) : Prop :=
  ∀ x ∈ names, env.lookup x = env'.lookup x

/-- A function that one of the names is bound to mentions names of the set only. -/
def ClosesOver (names : Set String) (env : Environment) : Prop :=
  ∀ x ∈ names, ∀ v f, env.lookup x = .ok v → v.value = .function f → ∀ y ∈ f.names, y ∈ names

/-- The environment without the variables of other names. -/
def restrict (names : Set String) [DecidablePred (· ∈ names)] (env : Environment) : Environment :=
  let keep (s : Scope) : Scope := ⟨s.bindings.filter fun v => v.name ∈ names⟩
  ⟨env.inner.map keep, keep env.global⟩

end Environment

/-- Two runs ended the same way, with the same value or the same error. The host is in the same
state, and the environments agree on the names. -/
inductive Outcome.CoincidesOn (names : Set String) :
    Outcome RuntimeError (Machine σ) α → Outcome RuntimeError (Machine σ) α → Prop
  | done {a : α} {m m' : Machine σ} (env : m.env.AgreesOn names m'.env)
      (host : m.host = m'.host) : CoincidesOn names (.done a m) (.done a m')
  | failed {e : RuntimeError} {m m' : Machine σ} (env : m.env.AgreesOn names m'.env)
      (host : m.host = m'.host) : CoincidesOn names (.failed e m) (.failed e m')
  | exhausted : CoincidesOn names .exhausted .exhausted

/-- A program runs alike on two machines, and makes the same calls of host functions. -/
structure RunsAlike (host : Host σ) (names : Set String) (program : Block) (m m' : Machine σ) :
    Prop where
  outcome : ∀ limit, (m.exec host limit program).CoincidesOn names (m'.exec host limit program)
  invocations : ∀ limit, m.invocations host limit program = m'.invocations host limit program

/-! ### Environments that agree -/

namespace Environment

variable {env env' : Environment} {names : Set String}

lemma lookup_eq_ok_iff {x : String} {v : Variable} :
    env.lookup x = .ok v ↔ env.find? x = some v := by
  unfold lookup
  cases env.find? x <;> simp

lemma lookup_eq_iff {x : String} : env.lookup x = env'.lookup x ↔ env.find? x = env'.find? x := by
  unfold lookup
  cases env.find? x <;> cases env'.find? x <;> simp

lemma find?_push (env : Environment) (x : String) : env.push.find? x = env.find? x := rfl

lemma find?_restrict [DecidablePred (· ∈ names)] (env : Environment) {x : String}
    (hx : x ∈ names) : (env.restrict names).find? x = env.find? x := by
  have hkeep : ∀ vs : List Variable,
      (vs.filter fun v => v.name ∈ names).find? (·.name == x) = vs.find? (·.name == x) := by
    intro vs
    rw [List.find?_filter]
    refine congrArg (vs.find? ·) (funext fun v => ?_)
    by_cases hv : v.name = x <;> simp [hv, hx]
  obtain ⟨inner, global⟩ := env
  simp only [find?, scopes, restrict, Scope.get?]
  induction inner with
  | nil => simp [hkeep]
  | cons s inner ih =>
    simp only [List.map_cons, List.cons_append, List.findSome?_cons, hkeep]
    rw [ih]

end Environment

/-! ### The correspondence -/

/-- The likeness of programs that are the same and mention names of a set only. -/
def Likeness.mentioning (names : Set String) : Likeness := .exact (· ∈ names) (fun _ => True)

/-- Each of the names is bound in neither environment, or to the same in both. -/
def agreement (names : Set String) : Correspondence (.mentioning names) where
  env e e' := ∀ x ∈ names, FoundAlike (.mentioning names) (e.find? x) (e'.find? x)
  find henv hx := henv _ hx
  push {e e'} henv x hx := by
    rw [e.find?_push, e'.find?_push]
    exact henv x hx
  insert {e e' v w} henv _ hvw x hx := by
    have hname := hvw.name_eq
    by_cases hv : v.name = x
    · subst hv
      rw [e.find?_insert_self v, hname, e'.find?_insert_self w]
      exact .some hvw.variableAlike
    · rw [e.find?_insert_of_ne v hv, e'.find?_insert_of_ne w (hname ▸ hv)]
      exact henv x hx

lemma agreement_of_agreesOn {names : Set String} {env env' : Environment}
    (hagree : env.AgreesOn names env') (hclosed : env.ClosesOver names) :
    (agreement names).env env env' := by
  intro x hx
  rw [← Environment.lookup_eq_iff.1 (hagree x hx)]
  cases hfind : env.find? x with
  | none => exact .none
  | some v =>
    have hfunctions : ∀ f, v.value = .function f → ∀ y ∈ f.names, y ∈ names :=
      fun f hf => hclosed x hx v f (Environment.lookup_eq_ok_iff.2 hfind) hf
    refine .some ⟨rfl, rfl, ?_⟩
    exact valueAlike_self (Likeness.reflexive_exact _ _) hfunctions fun _ _ _ _ => trivial

lemma agreesOn_of_agreement {names : Set String} {env env' : Environment}
    (h : (agreement names).env env env') : env.AgreesOn names env' := by
  intro x hx
  rw [Environment.lookup_eq_iff]
  have hfound := h x hx
  revert hfound
  cases env.find? x <;> cases env'.find? x <;> intro hfound <;> cases hfound
  · rfl
  · rename_i hvw
    rw [hvw.eq]

/-! ### Runs -/

lemma eq_of_recordsAlike {names : Set String} {r r' : Option (List Invocation)}
    (h : Option.Rel (List.Forall₂ (InvocationAlike (.mentioning names))) r r') : r = r' := by
  cases h with
  | none => rfl
  | some hrecord =>
    congr 1
    induction hrecord with
    | nil => rfl
    | @cons i j _ _ hij _ ih =>
      have hargs : i.2 = j.2 := eq_of_forall₂_valueAlike Likeness.strict_exact hij.args
      rw [ih, Prod.ext hij.callee_eq hargs]

section

variable {host : Host σ} {names : Set String}

lemma coincidesOn_of_matches {hhost : host.Respects (.mentioning names) Eq}
    {x y : Outcome RuntimeError (Machine σ) (Option TypedValue)}
    (h : Outcome.Matches ((agreement names).withHost hhost) (ReturnsAlike (.mentioning names))
      x y) : x.CoincidesOn names y := by
  cases h with
  | done result machines =>
    rw [eq_of_returnsAlike Likeness.strict_exact result]
    exact .done (agreesOn_of_agreement machines.env) machines.state
  | failed error machines =>
    rw [error.eq fun htag => htag]
    exact .failed (agreesOn_of_agreement machines.env) machines.state
  | exhausted => exact .exhausted

lemma runsAlike_of_agreesOn (hhost : host.ReturnsArguments) {program : Block}
    (hprogram : ∀ x ∈ Block.names program, x ∈ names) {m m' : Machine σ}
    (hclosed : m.env.ClosesOver names) (hagree : m.env.AgreesOn names m'.env)
    (hstate : m.host = m'.host) : RunsAlike host names program m m' := by
  have hself : BlockAlike (.mentioning names) program program :=
    blockAlike_self (Likeness.reflexive_exact _ _) program hprogram fun _ _ => trivial
  let P := (agreement names).withHost (hhost.respects (· ∈ names) fun _ => True)
  have hmachines : P.Machines m m' := ⟨agreement_of_agreesOn hagree hclosed, hstate⟩
  have halike := fun limit => P.exec_alike hself limit hmachines
  refine ⟨fun limit => ?_, fun limit => ?_⟩
  · exact coincidesOn_of_matches (halike limit).1
  · exact eq_of_recordsAlike (halike limit).2

end

/-- **Coincidence.** A program runs alike in environments that agree on its names, and on those that
their functions mention: it gives the same value or the same error, invokes the same host functions
with the same arguments in the same order, and leaves environments that agree. So neither variables
of other names, in whatever scope, nor a scope opened before the run can make a difference. -/
theorem exec_coincides (host : Host σ) (hhost : host.ReturnsArguments) (names : Set String)
    [DecidablePred (· ∈ names)] (program : Block)
    (hprogram : ∀ x ∈ Block.names program, x ∈ names) (m : Machine σ)
    (hclosed : m.env.ClosesOver names) :
    (∀ m', m.env.AgreesOn names m'.env → m.host = m'.host → RunsAlike host names program m m') ∧
    (∀ env, env.restrict names = m.env.restrict names →
      RunsAlike host names program m { m with env }) ∧
    RunsAlike host names program m { m with env := m.env.push } := by
  refine ⟨fun m' hagree hstate => ?_, fun env hrestrict => ?_, ?_⟩
  · exact runsAlike_of_agreesOn hhost hprogram hclosed hagree hstate
  · refine runsAlike_of_agreesOn hhost hprogram hclosed (fun x hx => ?_) rfl
    rw [Environment.lookup_eq_iff, ← m.env.find?_restrict hx, ← hrestrict, env.find?_restrict hx]
  · refine runsAlike_of_agreesOn hhost hprogram hclosed (fun x _ => ?_) rfl
    rw [Environment.lookup_eq_iff, m.env.find?_push]

/-- A function of the global scope refers to a variable of another scope in one environment, and of
the same scope in the other. -/
theorem exec_coincides_moved_variable :
    let print : Native := ⟨"print", 0⟩
    let f : Variable := ⟨"f", .function, .function ⟨"f", [⟨.int, "a"⟩],
      [.ret (.binary .add (.var "a") (.var "k"))]⟩⟩
    let k : Variable := ⟨"k", .int, .int 3⟩
    let out : Variable := ⟨"print", .external, .native print⟩
    let names : Set String := {x | x ∈ ["r", "f", "a", "k", "print"]}
    let program : Block := [.bind "r" (.call "f" [.int 2]), .expr (.call "print" [.var "r"])]
    let flat : Machine Unit := ⟨⟨[], ⟨[f, k, out]⟩⟩, (), []⟩
    let deep : Machine Unit := ⟨⟨[⟨[k]⟩, ⟨[⟨"z", .int, .int 9⟩, out]⟩], ⟨[f]⟩⟩, (), []⟩
    Host.echo.ReturnsArguments ∧ flat.env.ClosesOver names ∧ flat.env.AgreesOn names deep.env ∧
      RunsAlike .echo names program flat deep ∧
      deep.invocations .echo 1 program = some [(print, [.int 5])] := by
  intro print f k out names program flat deep
  have hprogram : ∀ x ∈ Block.names program, x ∈ names := by decide
  have hclosed : flat.env.ClosesOver names := by
    intro x hx v g hv hg
    have hfound := Environment.lookup_eq_ok_iff.1 hv
    simp only [names, Set.mem_ofPred_eq, List.mem_cons, List.not_mem_nil, or_false] at hx
    rcases hx with rfl | rfl | rfl | rfl | rfl <;> cases hfound <;> cases hg
    decide
  have hagree : flat.env.AgreesOn names deep.env := by
    have hfind : ∀ x ∈ ["r", "f", "a", "k", "print"], flat.env.find? x = deep.env.find? x := by
      decide
    exact fun x hx => Environment.lookup_eq_iff.2 (hfind x hx)
  have hruns := (exec_coincides .echo returnsArguments_echo names program hprogram flat hclosed).1
  exact ⟨returnsArguments_echo, hclosed, hagree, hruns deep hagree rfl, rfl⟩

end Flame
