import Flame.Proofs.Hosts
import Mathlib

/-!
Effects in post-order.

Put every node of an expression after its operands or arguments, and those from left to right: the
nodes are then a program for a machine with a stack. Each takes the results of its operands or
arguments off the stack, does what it does by itself, and leaves its own result. Where all callees
are host functions, evaluation is that program. So each call is made once, in this order, and what
fails is the first node that can not do its part; all that stands before it has been done.
-/

namespace Flame

variable {σ α β : Type}

mutual

/-- The nodes of an expression from left to right, each after its operands or arguments. -/
def Expr.postorder : Expr → List Expr
  | .int n => [.int n]
  | .void => [.void]
  | .var name => [.var name]
  | .call callee args => Expr.postorderOfList args ++ [.call callee args]
  | .binary op left right => left.postorder ++ (right.postorder ++ [.binary op left right])

def Expr.postorderOfList : List Expr → List Expr
  | [] => []
  | e :: es => e.postorder ++ Expr.postorderOfList es

end

def Expr.callee? : Expr → Option String
  | .call callee _ => some callee
  | _ => none

/-- The names that an expression calls, in post-order. -/
def Expr.callees (e : Expr) : List String := e.postorder.filterMap Expr.callee?

/-- The host function that a name is bound to. -/
def Environment.native? (env : Environment) (name : String) : Option Native :=
  match env.find? name with
  | some ⟨_, _, .native f⟩ => some f
  | _ => none

/-- What there is between two nodes: the results that no node has taken yet, latest first, the state
of the host, and the calls that it has got. -/
structure Progress (σ : Type) where
  results : List TypedValue
  host : σ
  record : List Invocation

section

variable (host : Host σ) (env : Environment)

/-- A node does its part. It takes the results of its operands or arguments and leaves its own; a
call asks the host once, with the values that its arguments gave. -/
inductive Expr.Performs : Expr → Progress σ → Progress σ → Prop
  | int {n : Int64} {rs s record} :
    Performs (.int n) ⟨rs, s, record⟩ ⟨.inferred (.int n) :: rs, s, record⟩
  | void {rs s record} : Performs .void ⟨rs, s, record⟩ ⟨.void :: rs, s, record⟩
  | var {x v rs s record} (hx : env.find? x = some v) :
    Performs (.var x) ⟨rs, s, record⟩ ⟨⟨.int, v.value⟩ :: rs, s, record⟩
  | binary {op left right l r n rs s record} (hn : op.apply l r = .ok n) :
    Performs (.binary op left right) ⟨r :: l :: rs, s, record⟩ ⟨⟨.int, .int n⟩ :: rs, s, record⟩
  | call {callee args f v t} {vs rs : List TypedValue} {s record}
    (hf : env.native? callee = some f) (hlength : vs.length = args.length)
    (hv : host.call f (vs.map (·.value)) s = (.ok v, t)) :
    Performs (.call callee args) ⟨vs.reverse ++ rs, s, record⟩
      ⟨.inferred v :: rs, t, record ++ [(f, vs.map (·.value))]⟩

/-- A node can not do its part: its name is not bound, its operands do not fit its operator, or the
host refuses its call. -/
inductive Expr.Fails : Expr → Progress σ → RuntimeError → Progress σ → Prop
  | var {x p} (hx : env.find? x = none) : Fails (.var x) p (.undefinedIdentifier x) p
  | binary {op left right l r e rs s record} (he : op.apply l r = .error e) :
    Fails (.binary op left right) ⟨r :: l :: rs, s, record⟩ e ⟨r :: l :: rs, s, record⟩
  | call {callee args f reason t} {vs rs : List TypedValue} {s record}
    (hf : env.native? callee = some f) (hlength : vs.length = args.length)
    (hv : host.call f (vs.map (·.value)) s = (.error reason, t)) :
    Fails (.call callee args) ⟨vs.reverse ++ rs, s, record⟩ (.native f.name reason)
      ⟨vs.reverse ++ rs, t, record ++ [(f, vs.map (·.value))]⟩

/-- The nodes do their parts one after the other. -/
inductive PerformsAll : List Expr → Progress σ → Progress σ → Prop
  | nil {p} : PerformsAll [] p p
  | cons {e es p q r} (first : e.Performs host env p q) (others : PerformsAll es q r) :
    PerformsAll (e :: es) p r

/-- All nodes up to one do their parts, and that one fails, given the results so far. -/
inductive FailsFirst (nodes : List Expr) (p : Progress σ) (err : RuntimeError) (r : Progress σ) :
    Prop
  | mk {before after : List Expr} {e : Expr} {q : Progress σ}
    (nodes_eq : nodes = before ++ e :: after)
    (before : PerformsAll host env before p q) (fails : e.Fails host env q err r)

end

/-! ### Running nodes one after the other -/

section

variable {host : Host σ} {env : Environment} {nodes nodes' : List Expr} {p q r : Progress σ}

lemma PerformsAll.append (h : PerformsAll host env nodes p q)
    (h' : PerformsAll host env nodes' q r) : PerformsAll host env (nodes ++ nodes') p r := by
  induction h with
  | nil => exact h'
  | cons first _ ih => exact .cons first (ih h')

lemma FailsFirst.append_left {err : RuntimeError} (h : FailsFirst host env nodes p err r)
    (nodes' : List Expr) : FailsFirst host env (nodes ++ nodes') p err r := by
  obtain ⟨rfl, hbefore, hfails⟩ := h
  exact ⟨List.append_assoc _ _ _, hbefore, hfails⟩

lemma FailsFirst.append_right {err : RuntimeError} (hnodes : PerformsAll host env nodes p q)
    (h : FailsFirst host env nodes' q err r) : FailsFirst host env (nodes ++ nodes') p err r := by
  obtain ⟨rfl, hbefore, hfails⟩ := h
  exact ⟨(List.append_assoc _ _ _).symm, hnodes.append hbefore, hfails⟩

/-- The host functions that nodes call, in their order. -/
def calledBy (env : Environment) (nodes : List Expr) : List (Option Native) :=
  (nodes.filterMap Expr.callee?).map env.native?

/-- What a node adds to the record is its call, if it is one. -/
lemma Expr.Performs.record_eq {e : Expr} (h : e.Performs host env p q) :
    ∃ calls, q.record = p.record ++ calls ∧
      calls.map (fun i => some i.1) = calledBy env [e] := by
  cases h with
  | call hf _ _ =>
    refine ⟨[_], rfl, ?_⟩
    simp [calledBy, Expr.callee?, hf]
  | _ => exact ⟨[], (List.append_nil _).symm, rfl⟩

lemma PerformsAll.record_eq (h : PerformsAll host env nodes p q) :
    ∃ calls, q.record = p.record ++ calls ∧
      calls.map (fun i => some i.1) = calledBy env nodes := by
  induction h with
  | nil => exact ⟨[], (List.append_nil _).symm, rfl⟩
  | @cons e es p q r first _ ih =>
    obtain ⟨calls, hq, hcalls⟩ := first.record_eq
    obtain ⟨calls', hr, hcalls'⟩ := ih
    refine ⟨calls ++ calls', by rw [hr, hq, List.append_assoc], ?_⟩
    have hnodes : e :: es = [e] ++ es := rfl
    rw [List.map_append, hcalls, hcalls', hnodes, calledBy, calledBy, calledBy,
      List.filterMap_append, List.map_append]

/-- A call that the host refuses is on the record too. -/
lemma Expr.Fails.record_eq {e : Expr} {err : RuntimeError} (h : e.Fails host env p err q) :
    ∃ calls, q.record = p.record ++ calls ∧
      calls.map (fun i => some i.1) <+: calledBy env [e] := by
  cases h with
  | call hf _ _ =>
    refine ⟨[_], rfl, ?_⟩
    simp [calledBy, Expr.callee?, hf]
  | _ => exact ⟨[], (List.append_nil _).symm, List.nil_prefix⟩

lemma FailsFirst.record_eq {err : RuntimeError} (h : FailsFirst host env nodes p err r) :
    ∃ calls, r.record = p.record ++ calls ∧
      calls.map (fun i => some i.1) <+: calledBy env nodes := by
  obtain ⟨rfl, hbefore, hfails⟩ := h
  rename_i before after e q
  obtain ⟨calls, hq, hcalls⟩ := hbefore.record_eq
  obtain ⟨calls', hr, hcalls'⟩ := hfails.record_eq
  refine ⟨calls ++ calls', by rw [hr, hq, List.append_assoc], ?_⟩
  have hnodes : before ++ e :: after = before ++ ([e] ++ after) := rfl
  have hsplit : calledBy env (before ++ e :: after) =
      calledBy env before ++ (calledBy env [e] ++ calledBy env after) := by
    rw [hnodes]
    simp only [calledBy, List.filterMap_append, List.map_append]
  rw [List.map_append, hcalls, hsplit]
  exact (List.prefix_append_right_inj _).2 (hcalls'.trans (List.prefix_append _ _))

end

/-! ### Evaluation -/

/-- What has been done when a machine whose host keeps a record has got so far. -/
def Machine.progress (m : Machine (σ × List Invocation)) (rs : List TypedValue) : Progress σ :=
  ⟨rs, m.host.1, m.host.2⟩

/-- From a machine and with some results on the stack, a computation does what nodes do: it ends
with the results that they leave, or fails as the first of them does. -/
inductive Run.Follows (host : Host σ) (nodes : List Expr) (x : Run (σ × List Invocation) α)
    (calls : List String) (m : Machine (σ × List Invocation)) (before : List TypedValue)
    (after : α → List TypedValue → Prop) : Prop
  | done {a s rs} (run : x calls m = .done a { m with host := s }) (results : after a rs)
    (performs : PerformsAll host m.env nodes (m.progress before) ⟨rs, s.1, s.2⟩)
  | failed {e s rs} (run : x calls m = .failed e { m with host := s })
    (fails : FailsFirst host m.env nodes (m.progress before) e ⟨rs, s.1, s.2⟩)

namespace Run.Follows

variable {host : Host σ} {nodes nodes' : List Expr} {x : Run (σ × List Invocation) α}
  {f : α → Run (σ × List Invocation) β} {calls : List String} {m : Machine (σ × List Invocation)}
  {before : List TypedValue} {after : α → List TypedValue → Prop}
  {after' : β → List TypedValue → Prop}

lemma bind (hx : Follows host nodes x calls m before after)
    (hf : ∀ a s rs, after a rs → Follows host nodes' (f a) calls { m with host := s } rs after') :
    Follows host (nodes ++ nodes') (x >>= f) calls m before after' := by
  cases hx with
  | failed run fails => exact .failed (Run.bind_of_failed run) (fails.append_left nodes')
  | @done a s rs run results performs =>
    cases hf a s rs results with
    | done run' results' performs' =>
      exact .done ((Run.bind_of_done run).trans run') results' (performs.append performs')
    | failed run' fails' =>
      exact .failed ((Run.bind_of_done run).trans run') (.append_right performs fails')

lemma bind_pure {b : α → β} (hx : Follows host nodes x calls m before after)
    (hb : ∀ a rs, after a rs → after' (b a) rs) :
    Follows host nodes (x >>= fun a => Pure.pure (b a)) calls m before after' := by
  rw [← List.append_nil nodes]
  refine hx.bind fun a s rs hrs => ?_
  exact .done rfl (hb a rs hrs) .nil

lemma within {callee : String} (hx : Follows host nodes x (callee :: calls) m before after) :
    Follows host nodes (Run.within callee x) calls m before after := by
  cases hx with
  | done run results performs => exact .done run results performs
  | failed run fails => exact .failed run fails

end Run.Follows

section

variable {host : Host σ}
  {call : FunctionDef → List Value → Run (σ × List Invocation) TypedValue}

/-- A single node that does its part. -/
lemma PerformsAll.one {env : Environment} {e : Expr} {p q : Progress σ}
    (h : e.Performs host env p q) : PerformsAll host env [e] p q := .cons h .nil

/-- A single node that can not do its part. -/
lemma FailsFirst.one {env : Environment} {e : Expr} {err : RuntimeError} {p q : Progress σ}
    (h : e.Fails host env p err q) : FailsFirst host env [e] p err q :=
  .mk (List.nil_append [e]).symm .nil h

/-- An operator applied to the two latest results. -/
lemma follows_apply (op : Operator) (left right : Expr) (l r : TypedValue) (calls : List String)
    (m : Machine (σ × List Invocation)) (rs : List TypedValue) :
    Run.Follows host [.binary op left right]
      (Run.ofExcept (op.apply l r) >>= fun n => pure ⟨.int, .int n⟩) calls m (r :: l :: rs)
      (fun v rs' => rs' = v :: rs) := by
  cases happly : op.apply l r with
  | ok n => exact .done (s := m.host) rfl rfl (.one (.binary happly))
  | error e => exact .failed (s := m.host) rfl (.one (.binary happly))

/-- A call of a name that is bound to a host function, with the latest results. -/
lemma follows_applyName {callee : String} {f : Native} {args : List Expr} (vs : List TypedValue)
    (calls : List String) (m : Machine (σ × List Invocation)) (rs : List TypedValue)
    (hf : m.env.native? callee = some f) (hlength : vs.length = args.length) :
    Run.Follows host [.call callee args]
      (applyName host.recording call callee (vs.map (·.value))) calls m (vs.reverse ++ rs)
      (fun v rs' => rs' = v :: rs) := by
  obtain ⟨x, tag, hfind⟩ : ∃ x tag, m.env.find? callee = some ⟨x, tag, .native f⟩ := by
    unfold Environment.native? at hf
    split at hf
    · next x tag f' hfind =>
      obtain rfl := Option.some.inj hf
      exact ⟨x, tag, hfind⟩
    · cases hf
  have hlookup : (Run.lookup callee : Run (σ × List Invocation) Variable) calls m =
      .done ⟨x, tag, .native f⟩ m := by
    simp only [Run.lookup, Environment.lookup, hfind]
  have happly : applyName host.recording call callee (vs.map (·.value)) calls m =
      (Run.callNative host.recording f (vs.map (·.value)) >>= fun v => pure (.inferred v))
        calls m := Run.bind_of_done hlookup
  have hrecording : host.recording.call f (vs.map (·.value)) m.host =
      ((host.call f (vs.map (·.value)) m.host.1).1, (host.call f (vs.map (·.value)) m.host.1).2,
        m.host.2 ++ [(f, vs.map (·.value))]) := rfl
  rcases hcall : host.call f (vs.map (·.value)) m.host.1 with ⟨reason | v, t⟩
  · refine .failed (s := (t, _)) (happly.trans (Run.bind_of_failed ?_))
      (.one (.call hf hlength hcall))
    simp only [Run.callNative, hrecording, hcall]
  · refine .done (s := (t, _)) (happly.trans (Run.bind_of_done ?_)) rfl
      (.one (.call hf hlength hcall))
    simp only [Run.callNative, hrecording, hcall]

mutual

/-- Evaluation does what the nodes do, and leaves the value on the stack. -/
lemma follows_evalExpr : (e : Expr) → (calls : List String) →
    (m : Machine (σ × List Invocation)) → (rs : List TypedValue) →
    (∀ callee ∈ e.callees, (m.env.native? callee).isSome) →
    Run.Follows host e.postorder (evalExpr host.recording call e) calls m rs
      (fun v rs' => rs' = v :: rs)
  | .int n, calls, m, rs, _ => by
    rw [Expr.postorder, evalExpr]
    exact .done (s := m.host) rfl rfl (.one .int)
  | .void, calls, m, rs, _ => by
    rw [Expr.postorder, evalExpr]
    exact .done (s := m.host) rfl rfl (.one .void)
  | .var x, calls, m, rs, _ => by
    rw [Expr.postorder, evalExpr]
    cases hfind : m.env.find? x with
    | none =>
      have hlookup : (Run.lookup x : Run (σ × List Invocation) Variable) calls m =
          .failed (.undefinedIdentifier x) m := by
        simp only [Run.lookup, Environment.lookup, hfind]
      exact .failed (s := m.host) (Run.bind_of_failed hlookup) (.one (.var hfind))
    | some v =>
      have hlookup : (Run.lookup x : Run (σ × List Invocation) Variable) calls m =
          .done v m := by
        simp only [Run.lookup, Environment.lookup, hfind]
      exact .done (s := m.host) (Run.bind_of_done hlookup) rfl (.one (.var hfind))
  | .call callee args, calls, m, rs, h => by
    rw [Expr.postorder, evalExpr]
    simp only [Expr.callees, Expr.postorder, List.filterMap_append, List.mem_append] at h
    obtain ⟨f, hf⟩ := Option.isSome_iff_exists.1 (h callee (.inr (by simp [Expr.callee?])))
    refine .within (.bind (follows_evalArgs args _ m rs fun c hc => h c (.inl hc)) ?_)
    rintro _ s _ ⟨vs, hlength, rfl, rfl⟩
    exact follows_applyName vs _ { m with host := s } rs hf hlength
  | .binary op left right, calls, m, rs, h => by
    rw [Expr.postorder, evalExpr]
    simp only [Expr.callees, Expr.postorder, List.filterMap_append, List.mem_append] at h
    refine .bind (follows_evalExpr left calls m rs fun c hc => h c (.inl hc)) ?_
    rintro l s _ rfl
    refine .bind (follows_evalExpr right calls { m with host := s } (l :: rs)
      fun c hc => h c (.inr (.inl hc))) ?_
    rintro r t _ rfl
    exact follows_apply op left right l r calls { m with host := t } rs

lemma follows_evalArgs : (es : List Expr) → (calls : List String) →
    (m : Machine (σ × List Invocation)) → (rs : List TypedValue) →
    (∀ callee ∈ (Expr.postorderOfList es).filterMap Expr.callee?,
      (m.env.native? callee).isSome) →
    Run.Follows host (Expr.postorderOfList es) (evalArgs host.recording call es) calls m rs
      (fun vs rs' => ∃ us : List TypedValue, us.length = es.length ∧
        vs = us.map (·.value) ∧ rs' = us.reverse ++ rs)
  | [], calls, m, rs, _ => by
    rw [Expr.postorderOfList, evalArgs]
    exact .done (s := m.host) rfl ⟨[], rfl, rfl, rfl⟩ .nil
  | e :: es, calls, m, rs, h => by
    rw [Expr.postorderOfList, evalArgs]
    simp only [Expr.postorderOfList, List.filterMap_append, List.mem_append] at h
    refine .bind (follows_evalExpr e calls m rs fun c hc => h c (.inl hc)) ?_
    rintro v s _ rfl
    refine .bind_pure (follows_evalArgs es calls { m with host := s } (v :: rs)
      fun c hc => h c (.inr hc)) ?_
    rintro _ _ ⟨us, hlength, rfl, rfl⟩
    exact ⟨v :: us, by rw [List.length_cons, List.length_cons, hlength], rfl, by simp⟩

end

end

/-- The host functions that evaluation of an expression calls, in order and with their arguments. -/
def Expr.invocations (host : Host σ) (limit : Nat) (calls : List String) (m : Machine σ)
    (e : Expr) : Option (List Invocation) :=
  (evalExpr host.recording (callFunction host.recording limit) e calls m.recording).record?

section

variable {host : Host σ} {limit : Nat} {calls : List String} {m : Machine σ} {e : Expr}
  {s : σ × List Invocation}

/-- A record that is kept changes nothing else. -/
lemma evalExpr_matches_recording (host : Host σ) (limit : Nat) (calls : List String)
    (m : Machine σ) (e : Expr) : Outcome.Matches host.recordAside (TypedAlike .same)
      (evalExpr host (callFunction host limit) e calls m)
      (evalExpr host.recording (callFunction host.recording limit) e calls m.recording) :=
  (callsMatch host.recordAside limit).evalExpr e (fun _ _ => trivial) calls calls m m.recording
    ⟨rfl, rfl⟩

lemma evalExpr_done_of_recording {v : TypedValue}
    (h : evalExpr host.recording (callFunction host.recording limit) e calls m.recording =
      .done v { m.recording with host := s }) :
    e.invocations host limit calls m = some s.2 ∧
      ∃ m', evalExpr host (callFunction host limit) e calls m = .done v m' ∧ m'.host = s.1 := by
  have hmatches := evalExpr_matches_recording host limit calls m e
  rw [h] at hmatches
  refine ⟨by rw [Expr.invocations, h]; rfl, ?_⟩
  cases hrun : evalExpr host (callFunction host limit) e calls m with
  | done v' m' =>
    rw [hrun] at hmatches
    obtain ⟨result, machines⟩ := hmatches
    obtain rfl := result.eq Likeness.strict_exact
    exact ⟨m', rfl, machines.state⟩
  | failed err m' => rw [hrun] at hmatches; cases hmatches
  | exhausted => rw [hrun] at hmatches; cases hmatches

lemma evalExpr_failed_of_recording {err : RuntimeError}
    (h : evalExpr host.recording (callFunction host.recording limit) e calls m.recording =
      .failed err { m.recording with host := s }) :
    e.invocations host limit calls m = some s.2 ∧
      ∃ m', evalExpr host (callFunction host limit) e calls m = .failed err m' ∧
        m'.host = s.1 := by
  have hmatches := evalExpr_matches_recording host limit calls m e
  rw [h] at hmatches
  refine ⟨by rw [Expr.invocations, h]; rfl, ?_⟩
  cases hrun : evalExpr host (callFunction host limit) e calls m with
  | done v m' => rw [hrun] at hmatches; cases hmatches
  | failed err' m' =>
    rw [hrun] at hmatches
    obtain ⟨⟩ | ⟨error, machines⟩ := hmatches
    obtain rfl := error.eq fun h => h
    exact ⟨m', rfl, machines.state⟩
  | exhausted => rw [hrun] at hmatches; cases hmatches

end

/-- **Effects in post-order.** Let every name that an expression calls be bound to a host function.
Then evaluation comes to an end. If it succeeds, all nodes did their parts in post-order, and left
the value: the host functions called are those of all the calls in post-order, each called once,
with the values that its arguments gave. If it fails, all nodes before some node did their parts,
that node can not do its own, given the results of those before it, and the error is its error; the
host functions called are the first of those. -/
theorem evalExpr_in_order (host : Host σ) (limit : Nat) (calls : List String) (m : Machine σ)
    {e : Expr} (h : ∀ callee ∈ e.callees, (m.env.native? callee).isSome) :
    let outcome := evalExpr host (callFunction host limit) e calls m
    let called := e.callees.map m.env.native?
    (∀ v m', outcome = .done v m' → ∃ record,
      e.invocations host limit calls m = some record ∧
      PerformsAll host m.env e.postorder ⟨[], m.host, []⟩ ⟨[v], m'.host, record⟩ ∧
      record.map (fun i => some i.1) = called) ∧
    (∀ err m', outcome = .failed err m' → ∃ record rs,
      e.invocations host limit calls m = some record ∧
      FailsFirst host m.env e.postorder ⟨[], m.host, []⟩ err ⟨rs, m'.host, record⟩ ∧
      record.map (fun i => some i.1) <+: called) ∧
    outcome ≠ .exhausted := by
  intro outcome called
  have hfollows : Run.Follows host e.postorder
      (evalExpr host.recording (callFunction host.recording limit) e) calls m.recording []
      (fun v rs => rs = [v]) := follows_evalExpr e calls m.recording [] h
  cases hfollows with
  | @done v s _ run results performs =>
    subst results
    obtain ⟨hrecord, m₁, hdone, hhost⟩ := evalExpr_done_of_recording run
    have houtcome : outcome = .done v m₁ := hdone
    obtain ⟨called', hs, hcalled⟩ := performs.record_eq
    obtain rfl : s.2 = called' := hs
    rw [houtcome]
    refine ⟨fun v' m' heq => ?_, nofun, nofun⟩
    obtain ⟨rfl, rfl⟩ := Outcome.done.inj heq
    rw [hhost]
    exact ⟨s.2, hrecord, performs, hcalled⟩
  | @failed err s rs run fails =>
    obtain ⟨hrecord, m₁, hfailed, hhost⟩ := evalExpr_failed_of_recording run
    have houtcome : outcome = .failed err m₁ := hfailed
    obtain ⟨called', hs, hcalled⟩ := fails.record_eq
    obtain rfl : s.2 = called' := hs
    rw [houtcome]
    refine ⟨nofun, fun err' m' heq => ?_, nofun⟩
    obtain ⟨rfl, rfl⟩ := Outcome.failed.inj heq
    rw [hhost]
    exact ⟨s.2, rs, hrecord, fails, hcalled⟩

/-- The operands of a division are evaluated before it fails, calls and all, and what stands after
it is not. The host numbers the calls that it gets. -/
theorem evalExpr_in_order_division :
    let host : Host Nat := ⟨fun _ _ n => (.ok (.int (Int64.ofNat n)), n + 1)⟩
    let f : Native := ⟨"f", 0⟩
    let g : Native := ⟨"g", 1⟩
    let m : Machine Nat :=
      ⟨⟨[], ⟨[⟨"f", .external, .native f⟩, ⟨"g", .external, .native g⟩]⟩⟩, 0, []⟩
    let dividend : Expr := .call "f" [.call "g" [], .call "g" []]
    let divisor : Expr := .binary .sub (.call "g" []) (.int 3)
    let e : Expr := .binary .add (.binary .div dividend divisor) (.call "f" [])
    e.callees = ["g", "g", "f", "g", "f"] ∧
      (∀ callee ∈ e.callees, (m.env.native? callee).isSome) ∧
      evalExpr host (callFunction host 0) e [] m = .failed .divisionByZero { m with host := 4 } ∧
      e.invocations host 0 [] m = some [(g, []), (g, []), (f, [.int 0, .int 1]), (g, [])] ∧
      ∃ rs, FailsFirst host m.env e.postorder ⟨[], 0, []⟩ .divisionByZero
        ⟨rs, 4, [(g, []), (g, []), (f, [.int 0, .int 1]), (g, [])]⟩ := by
  intro host f g m dividend divisor e
  have hcallees : e.callees = ["g", "g", "f", "g", "f"] := by rfl
  have hbound : ∀ callee ∈ e.callees, (m.env.native? callee).isSome := by
    rw [hcallees]
    decide
  have hrun : evalExpr host (callFunction host 0) e [] m =
      .failed .divisionByZero { m with host := 4 } := by
    subst e dividend divisor m host
    cbv
  have hrecord : e.invocations host 0 [] m =
      some [(g, []), (g, []), (f, [.int 0, .int 1]), (g, [])] := by
    subst e dividend divisor m f g host
    cbv
  obtain ⟨record, rs, hinvocations, hfails, -⟩ :=
    (evalExpr_in_order host 0 [] m hbound).2.1 .divisionByZero _ hrun
  obtain rfl := Option.some.inj (hrecord.symm.trans hinvocations)
  exact ⟨hcallees, hbound, hrun, hrecord, rs, hfails⟩

end Flame
