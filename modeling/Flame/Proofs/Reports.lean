import Flame.Proofs.RunLogic
import Flame.Proofs.Scopes

/-!
What a run reports: the tags of its results, and its errors.

A tag is reported apart from the value that it is reported for, and a variable keeps whatever tag it
was bound with. Still a reported tag is that of numbers or the value's own, since the tag of a
variable is never reported with its value: variables are read as numbers. Errors are truthful: what
an error says of names and types is so where it arose. That where a number is wanted the tag found
is never the tag of numbers needs both, because an operand is refused for its reported tag, or, if
that tag is in order, for its form.
-/

namespace Flame

variable {σ α β : Type}

/-- The tag reported for a value is that of numbers, or the value's own. -/
def TypedValue.Honest (v : TypedValue) : Prop := v.tag = .int ∨ v.tag = v.value.tag

/-- What an error says is so, in the environment where it arose. -/
def RuntimeError.Truthful (env : Environment) : RuntimeError → Prop
  | .typeMismatch expected found => expected = .int ∧ found ∈ [.void, .bool, .function, .external]
  | .duplicateDefinition name => env.isDefined name = true
  | .undefinedIdentifier name => env.isDefined name = false
  | .notCallable name tag =>
    ∃ v, env.find? name = some v ∧ v.tag = tag ∧ v.value.tag ∉ [.function, .external]
  | .baseScopeUnderflow => env.inner = []
  | .arityMismatch _ expected found => found < expected
  | .divisionByZero | .native .. => True

/-! ### Values and operands -/

lemma TypedValue.Honest.inferred (v : Value) : (TypedValue.inferred v).Honest := .inr rfl

lemma TypedValue.Honest.int (v : Value) : (⟨.int, v⟩ : TypedValue).Honest := .inl rfl

/-- The tag of a value that is no number is one of four. -/
lemma Value.tag_mem {v : Value} (h : ∀ n, v ≠ .int n) :
    v.tag ∈ [TypeTag.void, .bool, .function, .external] := by
  cases v with
  | int n => exact absurd rfl (h n)
  | _ => simp [Value.tag]

lemma TypedValue.Honest.operand_error {v : TypedValue} (h : v.Honest) {e : RuntimeError}
    (he : v.operand = .error e) (env : Environment) : e.Truthful env := by
  unfold TypedValue.operand at he
  split at he
  · rename_i htag
    obtain rfl := Except.error.inj he
    have hown : v.tag = v.value.tag := h.resolve_left htag
    refine ⟨rfl, ?_⟩
    rw [hown]
    refine Value.tag_mem fun n hn => htag ?_
    rw [hown, hn, Value.tag]
  · split at he
    · cases he
    · rename_i hform
      obtain rfl := Except.error.inj he
      exact ⟨rfl, Value.tag_mem fun n hn => hform n hn⟩

lemma Operator.compute_error {op : Operator} {l r : Int64} {e : RuntimeError}
    (h : op.compute l r = .error e) : e = .divisionByZero := by
  cases op with
  | div =>
    simp only [Operator.compute] at h
    split at h
    · exact (Except.error.inj h).symm
    · cases h
  | _ => cases h

lemma Operator.apply_error {op : Operator} {l r : TypedValue} (hl : l.Honest) (hr : r.Honest)
    {e : RuntimeError} (h : op.apply l r = .error e) (env : Environment) : e.Truthful env := by
  unfold Operator.apply at h
  cases hleft : l.operand with
  | error e' =>
    rw [hleft] at h
    obtain rfl := Except.error.inj h
    exact hl.operand_error hleft env
  | ok a =>
    cases hright : r.operand with
    | error e' =>
      rw [hleft, hright] at h
      obtain rfl := Except.error.inj h
      exact hr.operand_error hright env
    | ok b =>
      rw [hleft, hright] at h
      rw [Operator.compute_error h]
      trivial

lemma Environment.name_of_find? {env : Environment} {name : String} {v : Variable}
    (h : env.find? name = some v) : v.name = name := by
  obtain ⟨s, -, hs⟩ := List.exists_of_findSome?_eq_some h
  simpa using List.find?_some hs

/-! ### Rules -/

namespace Run

/-- What the computation gives has a property, and what it fails with is truthful. -/
def Reports (P : α → Prop) (x : Run σ α) : Prop :=
  x.Ensures (fun _ a _ => P a) (fun _ e m' => e.Truthful m'.env)

variable {P : α → Prop} {Q : β → Prop} {x : Run σ α} {f : α → Run σ β}

lemma reports_pure {a : α} (h : P a) : (pure a : Run σ α).Reports P := .pure fun _ => h

lemma reports_fail {e : RuntimeError} (h : ∀ env, e.Truthful env) :
    (fail e : Run σ α).Reports P :=
  .fail fun m => h m.env

lemma Reports.bind (hx : x.Reports P) (hf : ∀ a, P a → (f a).Reports Q) :
    (x >>= f).Reports Q where
  done heq := by
    obtain ⟨a, m₁, h₁, h₂⟩ := bind_eq_done_iff.1 heq
    exact (hf a (hx.done h₁)).done h₂
  failed heq := by
    rcases bind_eq_failed_iff.1 heq with h | ⟨a, m₁, h₁, h₂⟩
    · exact hx.failed h
    · exact (hf a (hx.done h₁)).failed h₂

lemma reports_ofExcept {r : Except RuntimeError α}
    (h : ∀ e, r = .error e → ∀ env, e.Truthful env) :
    (ofExcept r : Run σ α).Reports fun _ => True := by
  cases r with
  | ok a => exact reports_pure trivial
  | error e => exact reports_fail (h e rfl)

lemma reports_note (event : Event) : (note event : Run σ Unit).Reports fun _ => True where
  done _ := trivial
  failed heq := by cases heq

lemma reports_declare (tag : TypeTag) (name : String) (value : Value) :
    (declare tag name value : Run σ Unit).Reports fun _ => True := by
  refine Ensures.change (fun _ _ _ => trivial) fun m e h => ?_
  unfold Environment.declare at h
  split at h
  · rename_i hdef
    obtain rfl := Except.error.inj h
    exact hdef
  · cases h

lemma reports_openScope : (openScope : Run σ Unit).Reports fun _ => True where
  done _ := trivial
  failed heq := by cases heq

lemma reports_closeScope : (closeScope : Run σ Unit).Reports fun _ => True := by
  have hpop : (change Environment.pop : Run σ Unit).Reports fun _ => True := by
    refine Ensures.change (fun _ _ _ => trivial) fun m e h => ?_
    unfold Environment.pop at h
    split at h
    · rename_i hinner
      obtain rfl := Except.error.inj h
      exact hinner
    · cases h
  refine hpop.bind fun _ _ => ⟨fun _ => trivial, fun heq => ?_⟩
  cases heq

lemma lookup_ensures (name : String) :
    (lookup name : Run σ Variable).Ensures (fun m v m' => m' = m ∧ m.env.find? name = some v)
      (fun m e m' => m' = m ∧ m.env.find? name = none ∧ e = .undefinedIdentifier name) := by
  constructor
  · intro calls m v m' heq
    unfold lookup Environment.lookup at heq
    cases hfind : m.env.find? name with
    | some w =>
      rw [hfind] at heq
      obtain ⟨rfl, rfl⟩ := Outcome.done.inj heq
      exact ⟨rfl, rfl⟩
    | none =>
      rw [hfind] at heq
      cases heq
  · intro calls m e m' heq
    unfold lookup Environment.lookup at heq
    cases hfind : m.env.find? name with
    | some w =>
      rw [hfind] at heq
      cases heq
    | none =>
      rw [hfind] at heq
      obtain ⟨rfl, rfl⟩ := Outcome.failed.inj heq
      exact ⟨rfl, rfl, rfl⟩

/-- A look-up, and then a computation that may rely on what was found. -/
lemma reports_lookup_bind {name : String} {f : Variable → Run σ β}
    (hf : ∀ v, (f v).Ensures (fun _ b _ => Q b)
      (fun m e m' => m.env.find? name = some v → e.Truthful m'.env)) :
    (lookup name >>= f).Reports Q := by
  refine Ensures.bind (lookup_ensures name) hf (fun _ h => h) ?_ ?_
  · rintro m e m' ⟨rfl, hfind, rfl⟩
    change m'.env.isDefined name = false
    rw [Environment.isDefined_eq_isSome_find?, hfind]
    rfl
  · rintro m v m₁ e m' ⟨rfl, hfind⟩ h
    exact h hfind

lemma reports_callNative (host : Host σ) (f : Native) (args : List Value) :
    (callNative host f args).Reports fun _ => True where
  done _ := trivial
  failed {calls m e m'} heq := by
    unfold callNative at heq
    split at heq
    · cases heq
    · obtain ⟨rfl, -⟩ := Outcome.failed.inj heq
      trivial

end Run

/-! ### Trees -/

/-- What a block returns, if anything, is reported honestly. -/
def HonestReturn (r : Option TypedValue) : Prop := ∀ v ∈ r, v.Honest

lemma honestReturn_none : HonestReturn none := fun _ h => by cases h

lemma honestReturn_some {v : TypedValue} (h : v.Honest) : HonestReturn (some v) := by
  rintro w ⟨⟩
  exact h

section

open Run

variable {call : FunctionDef → List Value → Run σ TypedValue} (host : Host σ)

lemma reports_applyName (hcall : ∀ f args, (call f args).Reports TypedValue.Honest)
    (callee : String) (args : List Value) :
    (applyName host call callee args).Reports TypedValue.Honest := by
  refine reports_lookup_bind fun target => ?_
  split
  · refine Ensures.mono ?_ (fun h => h) fun h _ => h
    exact (reports_callNative host _ args).bind fun v _ => reports_pure (.inferred v)
  · exact (hcall _ args).mono (fun h => h) fun h _ => h
  · rename_i hnative hfunction
    refine Ensures.fail fun m hfind => ?_
    have hname := Environment.name_of_find? hfind
    refine ⟨target, by rw [hname, hfind], rfl, ?_⟩
    cases hvalue : target.value with
    | function f => exact absurd hvalue (hfunction f)
    | native f => exact absurd hvalue (hnative f)
    | _ => simp [Value.tag, TypeTag.void, TypeTag.bool, TypeTag.int, TypeTag.function,
        TypeTag.external]

mutual

lemma reports_evalExpr (hcall : ∀ f args, (call f args).Reports TypedValue.Honest) :
    (e : Expr) → (evalExpr host call e).Reports TypedValue.Honest
  | .int n => by
    rw [evalExpr]
    exact reports_pure (.inferred _)
  | .void => by
    rw [evalExpr]
    exact reports_pure (.inferred _)
  | .var name => by
    rw [evalExpr]
    refine reports_lookup_bind fun v => ?_
    exact .pure fun _ => .int v.value
  | .call callee args => by
    rw [evalExpr]
    have hargs := reports_evalArgs hcall args
    exact (hargs.bind fun values _ => reports_applyName host hcall callee values).within
  | .binary op left right => by
    rw [evalExpr]
    refine (reports_evalExpr hcall left).bind fun l hl => ?_
    refine (reports_evalExpr hcall right).bind fun r hr => ?_
    refine (reports_ofExcept fun e he => Operator.apply_error hl hr he).bind fun n _ => ?_
    exact reports_pure (.int _)

lemma reports_evalArgs (hcall : ∀ f args, (call f args).Reports TypedValue.Honest) :
    (es : List Expr) → (evalArgs host call es).Reports fun _ => True
  | [] => by
    rw [evalArgs]
    exact reports_pure trivial
  | e :: es => by
    rw [evalArgs]
    refine (reports_evalExpr hcall e).bind fun v _ => ?_
    exact (reports_evalArgs hcall es).bind fun vs _ => reports_pure trivial

end

mutual

lemma reports_execBlock (hcall : ∀ f args, (call f args).Reports TypedValue.Honest) :
    (b : Block) → (execBlock host call b).Reports HonestReturn
  | [] => by
    rw [execBlock]
    exact reports_pure honestReturn_none
  | s :: ss => by
    rw [execBlock]
    refine (reports_execStmt hcall s).bind fun returned hreturned => ?_
    cases returned with
    | some v => exact reports_pure hreturned
    | none => exact reports_execBlock hcall ss

lemma reports_execStmt (hcall : ∀ f args, (call f args).Reports TypedValue.Honest) :
    (s : Stmt) → (execStmt host call s).Reports HonestReturn
  | .function name params body => by
    rw [execStmt]
    have hdeclare : (declareFunction ⟨name, params, body⟩ : Run σ Unit).Reports fun _ => True :=
      (reports_note _).bind fun _ _ => reports_declare _ _ _
    exact hdeclare.bind fun _ _ => reports_pure honestReturn_none
  | .ret e => by
    rw [execStmt]
    exact (reports_evalExpr host hcall e).bind fun v hv => reports_pure (honestReturn_some hv)
  | .cond condition body => by
    rw [execStmt]
    have hbody := reports_execBlock hcall body
    refine (reports_evalExpr host hcall condition).bind fun c hc => ?_
    refine (reports_ofExcept fun e he => hc.operand_error he).bind fun n _ => ?_
    split
    · exact reports_pure honestReturn_none
    · refine reports_openScope.bind fun _ _ => hbody.bind fun r hr => ?_
      exact reports_closeScope.bind fun _ _ => reports_pure hr
  | .expr e => by
    rw [execStmt]
    exact (reports_evalExpr host hcall e).bind fun _ _ => reports_pure honestReturn_none
  | .bind name init => by
    rw [execStmt]
    refine (reports_evalExpr host hcall init).bind fun v _ => ?_
    refine (reports_note _).bind fun _ _ => (reports_declare _ _ _).bind fun _ _ => ?_
    exact reports_pure honestReturn_none
  | .empty span => by
    rw [execStmt]
    exact (reports_note _).bind fun _ _ => reports_pure honestReturn_none

end

end

lemma reports_bindParams : (params : List Param) → (args : List Value) →
    (bindParams params args : Run σ Unit).Reports fun _ => True
  | p :: params, v :: args => by
    unfold bindParams
    split
    · exact (Run.reports_declare _ _ _).bind fun _ _ => reports_bindParams params args
    · rename_i hform
      exact Run.reports_fail fun _ => ⟨rfl, Value.tag_mem fun n hn => hform n hn⟩
  | [], _ => by
    unfold bindParams
    exact Run.reports_pure trivial
  | _ :: _, [] => by
    unfold bindParams
    exact Run.reports_pure trivial

/-- A call reports honestly and truthfully, however deeply calls nest. -/
lemma reports_callFunction (host : Host σ) (limit : Nat) (f : FunctionDef) (args : List Value) :
    (callFunction host limit f args).Reports TypedValue.Honest := by
  induction limit generalizing f args with
  | zero => exact Run.Ensures.giveUp
  | succ limit ih =>
    have hbody : (Run.openScope >>= fun _ => bindParams f.params args >>= fun _ =>
        execBlock host (callFunction host limit) f.body >>= fun result =>
          Run.closeScope >>= fun _ => pure (result.getD .void)).Reports TypedValue.Honest := by
      refine Run.reports_openScope.bind fun _ _ => ?_
      refine (reports_bindParams f.params args).bind fun _ _ => ?_
      refine (reports_execBlock host ih f.body).bind fun result hresult => ?_
      refine Run.reports_closeScope.bind fun _ _ => Run.reports_pure ?_
      cases result with
      | some v => exact hresult v rfl
      | none => exact .inferred .void
    rw [callFunction]
    split
    · rename_i hlength
      exact Run.reports_fail fun _ => hlength
    · dsimp only
      split
      · exact (Run.reports_note _).bind fun _ _ => hbody
      · exact hbody

/-! ### Reported tags -/

/-- The run gives values that are reported honestly. If it fails because a value is not of the type
that is wanted, then a number is wanted, and what is found is a value of another form. -/
def Outcome.TagsHonest (P : α → Prop) : Outcome RuntimeError (Machine σ) α → Prop
  | .done a _ => P a
  | .failed (.typeMismatch expected found) _ =>
    expected = .int ∧ found ∈ [.void, .bool, .function, .external]
  | .failed _ _ | .exhausted => True

lemma Run.Reports.tagsHonest {P : α → Prop} {x : Run σ α} (hx : x.Reports P)
    (calls : List String) (m : Machine σ) : (x calls m).TagsHonest P := by
  cases heq : x calls m with
  | done a m' => exact hx.done heq
  | failed e m' =>
    have htruthful := hx.failed heq
    cases e with
    | typeMismatch expected found => exact htruthful
    | _ => trivial
  | exhausted => trivial

/-- **Reported tags.** Whatever tags the variables of an environment carry, what an expression or a
block gives is reported under the tag of numbers or under its own; and where a run fails because of
a type, a number was wanted and a value that is none was found, by the tag of its form. -/
theorem run_reports_honest_tags (host : Host σ) (limit : Nat) (calls : List String)
    (m : Machine σ) :
    (∀ e : Expr, (evalExpr host (callFunction host limit) e calls m).TagsHonest
      TypedValue.Honest) ∧
    (∀ b : Block, (execBlock host (callFunction host limit) b calls m).TagsHonest
      fun r => ∀ v ∈ r, v.Honest) ∧
    (∀ program : Block, (m.exec host limit program).TagsHonest fun r => ∀ v ∈ r, v.Honest) := by
  have hcall := reports_callFunction host limit
  refine ⟨fun e => ?_, fun b => ?_, fun program => ?_⟩
  · exact (reports_evalExpr host hcall e).tagsHonest calls m
  · exact (reports_execBlock host hcall b).tagsHonest calls m
  · exact (reports_execBlock host hcall program).tagsHonest [] m

/-- A parameter and a variable of a type of their own are reported as numbers; the variable holds
none, and is refused for what it holds. -/
theorem run_reports_honest_tags_declared_type :
    let price : TypeTag := ⟨"price"⟩
    let identity : FunctionDef := ⟨"identity", [⟨price, "n"⟩], [.ret (.var "n")]⟩
    let host : Host Unit := ⟨fun _ _ s => (.ok .void, s)⟩
    let m : Machine Unit := ⟨⟨[], ⟨[⟨"x", price, .bool true⟩,
      ⟨"identity", .function, .function identity⟩]⟩⟩, (), []⟩
    (∃ m', m.exec host 1 [.ret (.call "identity" [.int 5])] = .done (some ⟨.int, .int 5⟩) m' ∧
      (⟨.int, .int 5⟩ : TypedValue).Honest) ∧
    (∃ m', m.exec host 1 [.cond (.var "x") []] = .failed (.typeMismatch .int .bool) m' ∧
      TypeTag.bool ∈ [TypeTag.void, .bool, .function, .external]) := by
  intro price identity host m
  have h := (run_reports_honest_tags host 1 [] m).2.2
  exact ⟨⟨_, rfl, h [.ret (.call "identity" [.int 5])] _ rfl⟩,
    ⟨_, rfl, (h [.cond (.var "x") []]).2⟩⟩

end Flame
