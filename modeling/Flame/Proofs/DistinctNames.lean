import Flame.Proofs.Coincidence
import Flame.Proofs.Sessions
import Flame.Proofs.Steps

/-!
No name is bound twice.

Binding a name asks all active scopes first, and everything else that happens to an environment only
drops or opens scopes. So the names bound in all active scopes together stay distinct, also where a
run failed and left scopes open. In such an environment the order in which scopes are searched does
not matter.
-/

namespace Flame

variable {σ : Type}

namespace Environment

/-- The variables of all active scopes, innermost first. -/
def bound (env : Environment) : List Variable := env.scopes.flatMap (·.bindings)

/-- No two variables have the same name, in whatever scopes they are. -/
def Distinct (env : Environment) : Prop := (env.bound.map (·.name)).Nodup

variable {env env' : Environment} {s t : Scope} {name : String} {v w : Variable}

/-! ### What keeps names distinct -/

lemma bound_insert (env : Environment) (v : Variable) :
    (env.insert v).bound = v :: env.bound := by
  rw [bound, bound, scopes_insert, scopes_eq_cons env]
  rfl

lemma mem_bound (hs : s ∈ env.scopes) (hv : v ∈ s.bindings) : v ∈ env.bound :=
  List.mem_flatMap.2 ⟨s, hs, hv⟩

lemma isDefined_of_mem (hv : v ∈ env.bound) : env.isDefined v.name = true := by
  obtain ⟨s, hs, hv⟩ := List.mem_flatMap.1 hv
  refine isDefined_iff.2 ⟨s, hs, ?_⟩
  rw [Scope.contains, Scope.get?, List.find?_isSome]
  exact ⟨v, hv, beq_self_eq_true v.name⟩

lemma distinct_empty : empty.Distinct := List.nodup_nil

lemma Distinct.push (h : env.Distinct) : env.push.Distinct := h

/-- Names stay distinct in fewer scopes. -/
lemma Distinct.of_scopes (h : env.Distinct) (hscopes : List.Sublist env'.scopes env.scopes) :
    env'.Distinct :=
  h.sublist ((hscopes.flatMap _).map _)

lemma Distinct.pop (h : env.Distinct) (hpop : env.pop = .ok env') : env'.Distinct := by
  refine h.of_scopes ?_
  obtain ⟨opened, rfl⟩ := under_of_pop hpop
  simp [scopes]

lemma Distinct.unwind (h : env.Distinct) : env.unwind.Distinct := by
  refine h.of_scopes ?_
  simp [scopes, Environment.unwind]

lemma Distinct.declare (h : env.Distinct) (hdeclare : env.declare v = .ok env') :
    env'.Distinct := by
  unfold Environment.declare at hdeclare
  split at hdeclare
  · cases hdeclare
  · next hfree =>
    obtain rfl := Except.ok.inj hdeclare
    rw [Distinct, bound_insert, List.map_cons, List.nodup_cons]
    refine ⟨fun hmem => hfree ?_, h⟩
    obtain ⟨w, hw, hname⟩ := List.mem_map.1 hmem
    rw [← hname]
    exact isDefined_of_mem hw

/-! ### What follows from distinct names -/

lemma Distinct.eq_of_name (h : env.Distinct) (hv : v ∈ env.bound) (hw : w ∈ env.bound)
    (hname : v.name = w.name) : v = w :=
  List.inj_on_of_nodup_map h hv hw hname

lemma mem_of_get? (h : s.get? name = some v) : v ∈ s.bindings ∧ v.name = name :=
  ⟨List.mem_of_find?_eq_some h, by simpa using List.find?_some h⟩

lemma Distinct.get?_iff (h : env.Distinct) (hs : s ∈ env.scopes) :
    s.get? name = some v ↔ v ∈ s.bindings ∧ v.name = name := by
  refine ⟨mem_of_get?, fun ⟨hv, hname⟩ => ?_⟩
  obtain ⟨w, hw⟩ : ∃ w, s.get? name = some w := by
    rw [← Option.isSome_iff_exists, Scope.get?, List.find?_isSome]
    exact ⟨v, hv, by simp [hname]⟩
  obtain ⟨hmem, hname'⟩ := mem_of_get? hw
  rw [hw, h.eq_of_name (mem_bound hs hmem) (mem_bound hs hv) (hname'.trans hname.symm)]

lemma Distinct.not_contains_of_lt (h : env.Distinct) {i j : Nat} (hlt : i < j)
    (hi : env.scopes[i]? = some s) (hj : env.scopes[j]? = some t) (hs : s.contains name = true) :
    ¬t.contains name = true := by
  intro ht
  rw [Distinct, bound, List.map_flatMap, List.nodup_flatMap, List.pairwise_iff_getElem] at h
  obtain ⟨hi', rfl⟩ := List.getElem?_eq_some_iff.1 hi
  obtain ⟨hj', rfl⟩ := List.getElem?_eq_some_iff.1 hj
  obtain ⟨v, hv⟩ := Option.isSome_iff_exists.1 hs
  obtain ⟨w, hw⟩ := Option.isSome_iff_exists.1 ht
  obtain ⟨hv, hname⟩ := mem_of_get? hv
  obtain ⟨hw, hname'⟩ := mem_of_get? hw
  exact h.2 i j hi' hj' hlt (List.mem_map.2 ⟨v, hv, hname⟩) (List.mem_map.2 ⟨w, hw, hname'⟩)

lemma Distinct.index_unique (h : env.Distinct) {i j : Nat} (hi : env.scopes[i]? = some s)
    (hj : env.scopes[j]? = some t) (hs : s.contains name = true) (ht : t.contains name = true) :
    i = j := by
  rcases Nat.lt_trichotomy i j with hlt | heq | hgt
  · exact absurd ht (h.not_contains_of_lt hlt hi hj hs)
  · exact heq
  · exact absurd hs (h.not_contains_of_lt hgt hj hi ht)

/-- A name is found in whatever order the scopes are searched, and always as the same variable. -/
lemma Distinct.findSome?_eq (h : env.Distinct) {scopes : List Scope}
    (hscopes : ∀ s, s ∈ scopes ↔ s ∈ env.scopes) (name : String) :
    scopes.findSome? (·.get? name) = env.find? name := by
  cases hfind : env.find? name with
  | none =>
    rw [find?, List.findSome?_eq_none_iff] at hfind
    rw [List.findSome?_eq_none_iff]
    exact fun s hs => hfind s ((hscopes s).1 hs)
  | some v =>
    obtain ⟨s, hs, hv⟩ := List.exists_of_findSome?_eq_some hfind
    obtain ⟨w, hw⟩ : ∃ w, scopes.findSome? (·.get? name) = some w := by
      rw [← Option.isSome_iff_exists, List.findSome?_isSome_iff]
      exact ⟨s, (hscopes s).2 hs, by simp [hv]⟩
    obtain ⟨t, ht, hw'⟩ := List.exists_of_findSome?_eq_some hw
    obtain ⟨hv, hname⟩ := mem_of_get? hv
    obtain ⟨hw', hname'⟩ := mem_of_get? hw'
    rw [hw, h.eq_of_name (mem_bound ((hscopes t).1 ht) hw') (mem_bound hs hv)
      (hname'.trans hname.symm)]

end Environment

/-! ### Registrations -/

/-- What can be bound from outside. -/
inductive Registration
  | plain (tag : TypeTag) (name : String) (value : Value)
  | function (f : FunctionDef)
  | native (f : Native)

namespace Registration

/-- The variable that is to be bound. -/
def target : Registration → Variable
  | plain tag name value => ⟨name, tag, value⟩
  | function f => ⟨f.name, .function, .function f⟩
  | native f => ⟨f.name, .external, .native f⟩

def run : Registration → Run σ Unit
  | plain tag name value => Run.declare tag name value
  | function f => Run.declareFunction f
  | native f => Run.declareNative f

lemma stepwise_run (host : Host σ) (r : Registration) : (r.run : Run σ Unit).Stepwise host := by
  cases r with
  | plain tag name value => exact Run.stepwise_declare tag name value
  | function f => exact Run.stepwise_declareFunction f
  | native f => exact Run.stepwise_declareNative f

/-- A registration declares its variable, after it may have logged something. -/
lemma run_eq (r : Registration) (calls : List String) (m : Machine σ) :
    ∃ log, r.run calls m =
      match m.env.declare r.target with
      | .ok env => .done () { m with env, log }
      | .error e => .failed e { m with log } := by
  cases r with
  | plain tag name value => exact ⟨m.log, rfl⟩
  | function f => exact ⟨_, rfl⟩
  | native f => exact ⟨_, rfl⟩

/-- A name that looking up does not find is bound, and nothing else changes. -/
lemma run_of_free (r : Registration) (calls : List String) {m : Machine σ} {e : RuntimeError}
    (h : m.env.lookup r.target.name = .error e) :
    ∃ m', r.run calls m = .done () m' ∧ m'.env.lookup r.target.name = .ok r.target ∧
      ∀ name, name ≠ r.target.name → m'.env.lookup name = m.env.lookup name := by
  have hnone : m.env.find? r.target.name = none := by
    cases hfind : m.env.find? r.target.name with
    | none => rfl
    | some v =>
      rw [Environment.lookup_eq_ok_iff.2 hfind] at h
      cases h
  obtain ⟨log, hrun⟩ := r.run_eq calls m
  rw [hrun, Environment.declare, Environment.isDefined_eq_isSome_find?, hnone]
  refine ⟨_, rfl, ?_, fun name hname => ?_⟩
  · exact Environment.lookup_eq_ok_iff.2 (m.env.find?_insert_self r.target)
  · exact Environment.lookup_eq_iff.2 (m.env.find?_insert_of_ne r.target hname.symm)

lemma run_of_taken (r : Registration) (calls : List String) {m : Machine σ} {v : Variable}
    (h : m.env.lookup r.target.name = .ok v) :
    ∃ m', r.run calls m = .failed (.duplicateDefinition r.target.name) m' ∧ m'.env = m.env := by
  obtain ⟨log, hrun⟩ := r.run_eq calls m
  rw [hrun, Environment.declare, Environment.isDefined_eq_isSome_find?,
    Environment.lookup_eq_ok_iff.1 h]
  exact ⟨_, rfl, rfl⟩

end Registration

/-! ### Reachable machines -/

/-- What can be done to a machine from outside. -/
inductive Operation
  | openScope
  | closeScope
  | unwind
  | register (r : Registration)
  | eval (limit : Nat) (e : Expr)
  | exec (limit : Nat) (program : Block)

/-- The machine after an operation, whether or not that succeeded. There is none after a run that
was given up. -/
def Operation.apply? (host : Host σ) (m : Machine σ) : Operation → Option (Machine σ)
  | openScope => (Run.openScope [] m).state?
  | closeScope => (Run.closeScope [] m).state?
  | unwind => some m.unwind
  | register r => (r.run [] m).state?
  | eval limit e => (m.eval host limit e).state?
  | exec limit program => (m.exec host limit program).state?

/-- The machines that operations lead to, from one with nothing bound. -/
inductive Reachable (host : Host σ) : Machine σ → Prop
  | start (s : σ) : Reachable host (.start s)
  | step {m m' : Machine σ} (op : Operation) (before : Reachable host m)
      (h : op.apply? host m = some m') : Reachable host m'

lemma distinct_of_steps {host : Host σ} {m m' : Machine σ} (h : m.Steps host m')
    (hm : m.env.Distinct) : m'.env.Distinct := by
  refine h.preserves (I := fun m => m.env.Distinct) (fun hstep hm => ?_) hm
  cases hstep with
  | note => exact hm
  | openScope => exact hm.push
  | closeScope hpop => exact hm.pop hpop
  | declare hdeclare => exact hm.declare hdeclare
  | call => exact hm

lemma Reachable.distinct {host : Host σ} {m : Machine σ} (h : Reachable host m) :
    m.env.Distinct := by
  induction h with
  | start s => exact Environment.distinct_empty
  | @step m m' op _ h ih =>
    have hcall := stepwise_callFunction host
    cases op with
    | openScope =>
      have hopen : (Run.openScope : Run σ Unit).Stepwise host := Run.stepwise_openScope
      exact distinct_of_steps (hopen.steps h) ih
    | closeScope =>
      have hclose : (Run.closeScope : Run σ Unit).Stepwise host := Run.stepwise_closeScope
      exact distinct_of_steps (hclose.steps h) ih
    | unwind =>
      obtain rfl := Option.some.inj h
      rw [Machine.unwind_env]
      exact ih.unwind
    | register r => exact distinct_of_steps ((r.stepwise_run host).steps h) ih
    | eval limit e => exact distinct_of_steps ((stepwise_evalExpr (hcall limit) e).steps h) ih
    | exec limit program =>
      exact distinct_of_steps ((stepwise_execBlock (hcall limit) program).steps h) ih

/-- **No name is bound twice.** On every machine that operations lead to, failing ones among them,
at most one active scope binds a name, and each variable is found under its own name. So a name
counts as bound exactly if looking it up gives a variable; searching the scopes from the outermost
one finds the same; and a registration succeeds exactly if looking up its name fails, and then
changes what is found under this name only. A registration that fails changes nothing. -/
theorem reachable_names_distinct (host : Host σ) (m : Machine σ) (h : Reachable host m) :
    (∀ (name : String) (i j : Nat) (s t : Scope), m.env.scopes[i]? = some s →
      m.env.scopes[j]? = some t → s.contains name = true → t.contains name = true → i = j) ∧
    (∀ s ∈ m.env.scopes, ∀ name v, s.get? name = some v ↔ v ∈ s.bindings ∧ v.name = name) ∧
    (∀ name, m.env.isDefined name = true ↔ ∃ v, m.env.lookup name = .ok v) ∧
    (∀ name, m.env.scopes.reverse.findSome? (·.get? name) = m.env.find? name) ∧
    ∀ (r : Registration) (calls : List String),
      (∀ e, m.env.lookup r.target.name = .error e →
        ∃ m', r.run calls m = .done () m' ∧ m'.env.lookup r.target.name = .ok r.target ∧
          ∀ name, name ≠ r.target.name → m'.env.lookup name = m.env.lookup name) ∧
      (∀ v, m.env.lookup r.target.name = .ok v →
        ∃ m', r.run calls m = .failed (.duplicateDefinition r.target.name) m' ∧
          m'.env = m.env) := by
  have hdistinct := h.distinct
  refine ⟨fun name i j s t hi hj => hdistinct.index_unique hi hj,
    fun s hs name v => hdistinct.get?_iff hs, fun name => ?_,
    fun name => hdistinct.findSome?_eq (fun s => List.mem_reverse) name,
    fun r calls => ⟨fun _ => r.run_of_free calls, fun _ => r.run_of_taken calls⟩⟩
  rw [Environment.isDefined_eq_isSome_find?, Option.isSome_iff_exists]
  exact exists_congr fun v => Environment.lookup_eq_ok_iff.symm

/-- A run that failed in a conditional has left its scope open: what was bound there is taken. -/
theorem reachable_names_distinct_left_open :
    let a : Variable := ⟨"a", .int, .int 1⟩
    let b : Variable := ⟨"b", .int, .int 2⟩
    ∃ m : Machine Unit, Reachable .echo m ∧ m.env = ⟨[⟨[b]⟩], ⟨[a]⟩⟩ ∧
      (∃ m', (Registration.plain .int "b" .void).run [] m =
        .failed (.duplicateDefinition "b") m' ∧ m'.env = m.env) ∧
      ∃ m', (Registration.native ⟨"c", 0⟩).run [] m = .done () m' ∧
        m'.env.lookup "a" = .ok a := by
  intro a b
  have hreach : Reachable .echo _ := .step
    (.exec 0 [.bind "a" (.int 1), .cond (.int 1) [.bind "b" (.int 2), .expr (.call "b" [])]])
    (.start ()) rfl
  have hall := (reachable_names_distinct .echo _ hreach).2.2.2.2
  refine ⟨_, hreach, rfl, (hall (.plain .int "b" .void) []).2 b rfl, ?_⟩
  obtain ⟨m', hrun, -, hothers⟩ := (hall (.native ⟨"c", 0⟩) []).1 _ rfl
  exact ⟨m', hrun, hothers "a" (by decide)⟩

end Flame
