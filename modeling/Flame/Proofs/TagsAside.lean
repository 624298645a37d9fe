import Flame.Proofs.Units

/-!
Declared types do not matter.

A parameter keeps the type it was declared with, in the function and in the variable that holds an
argument. No decision of a run depends on it: every argument must be a number whatever its parameter
declares, and a variable is read as a number whatever its tag. Programs and environments that are
the same once all such types are taken out therefore run alike. A type shows only where a variable
that holds no function is called, in the words of the error.

Taking the types out is a function, so that to differ in types only is an equation. It comes to the
same as to be alike, and programs that are alike run side by side.
-/

namespace Flame

variable {σ : Type}

/-! ### Types taken out -/

/-- The type in place of one that is taken out. No type of a source text has this name. -/
def TypeTag.blank : TypeTag := ⟨""⟩

def Param.untagged (p : Param) : Param := ⟨.blank, p.name⟩

mutual

/-- The statement without the types of parameters, at any depth. -/
def Stmt.untagged : Stmt → Stmt
  | .function name params body =>
    .function name (params.map Param.untagged) (Block.untagged body)
  | .ret e => .ret e
  | .cond condition body => .cond condition (Block.untagged body)
  | .expr e => .expr e
  | .bind name init => .bind name init
  | .empty span => .empty span

def Block.untagged : List Stmt → List Stmt
  | [] => []
  | s :: ss => s.untagged :: Block.untagged ss

end

def FunctionDef.untagged (f : FunctionDef) : FunctionDef :=
  ⟨f.name, f.params.map Param.untagged, Block.untagged f.body⟩

def Value.untagged : Value → Value
  | .function f => .function f.untagged
  | v => v

/-- The value without the types of parameters. The tag that is reported for it stays. -/
def TypedValue.untagged (v : TypedValue) : TypedValue := ⟨v.tag, v.value.untagged⟩

/-- The variable without its own tag and without the types of parameters. -/
def Variable.untagged (v : Variable) : Variable := ⟨v.name, .blank, v.value.untagged⟩

def Scope.untagged (s : Scope) : Scope := ⟨s.bindings.map Variable.untagged⟩

def Environment.untagged (env : Environment) : Environment :=
  ⟨env.inner.map Scope.untagged, env.global.untagged⟩

/-- The error without the tag of a variable that was called. -/
def RuntimeError.untagged : RuntimeError → RuntimeError
  | .notCallable name _ => .notCallable name .blank
  | e => e

def Invocation.untagged (i : Invocation) : Invocation := (i.1, i.2.map Value.untagged)

/-! ### Runs that differ in types only -/

/-- The answers of a host are the same but for types, and its states are related. -/
inductive AnswersButTags (state : σ → σ → Prop) :
    Except String Value × σ → Except String Value × σ → Prop
  | value {v w : Value} {s t : σ} (hvalue : v.untagged = w.untagged) (hstate : state s t) :
      AnswersButTags state (.ok v, s) (.ok w, t)
  | failure {reason : String} {s t : σ} (hstate : state s t) :
      AnswersButTags state (.error reason, s) (.error reason, t)

/-- Host functions do not look at the types of parameters: from states that are related, they answer
arguments that differ in types only with answers that differ in types only. States may hold
functions that they got, and then differ in the types of these. -/
def Host.IgnoresTags (host : Host σ) (state : σ → σ → Prop) : Prop :=
  ∀ f {args args' s t}, args.map Value.untagged = args'.map Value.untagged → state s t →
    AnswersButTags state (host.call f args s) (host.call f args' t)

/-- Two runs ended the same way, and what they ended with differs in types only. -/
inductive Outcome.SameButTags (state : σ → σ → Prop) :
    Outcome RuntimeError (Machine σ) (Option TypedValue) →
    Outcome RuntimeError (Machine σ) (Option TypedValue) → Prop
  | done {r r' : Option TypedValue} {m m' : Machine σ}
      (result : r.map TypedValue.untagged = r'.map TypedValue.untagged)
      (env : m.env.untagged = m'.env.untagged) (host : state m.host m'.host) :
      SameButTags state (.done r m) (.done r' m')
  | failed {e e' : RuntimeError} {m m' : Machine σ} (error : e.untagged = e'.untagged)
      (env : m.env.untagged = m'.env.untagged) (host : state m.host m'.host) :
      SameButTags state (.failed e m) (.failed e' m')
  | exhausted : SameButTags state .exhausted .exhausted

/-! ### Being alike as an equation -/

/-- The likeness of programs that are the same but for the types of parameters. -/
def Likeness.tagsAside : Likeness where
  name _ := True
  params _ := True
  paramTag _ _ := True
  varTag _ _ := True
  span := Eq
  varTag_refl _ := trivial
  varTag_of_paramTag _ := trivial

lemma forall₂_iff_map_eq {α β : Type} {R : α → α → Prop} {f : α → β}
    (h : ∀ a b, R a b ↔ f a = f b) {as bs : List α} :
    List.Forall₂ R as bs ↔ as.map f = bs.map f := by
  rw [← List.forall₂_eq_eq_eq, List.forall₂_map_left_iff, List.forall₂_map_right_iff,
    show R = fun a b => f a = f b from funext₂ fun a b => propext (h a b)]

lemma paramAlike_iff_untagged (p q : Param) :
    ParamAlike .tagsAside p q ↔ p.untagged = q.untagged := by
  constructor
  · intro h
    rw [Param.untagged, h.name_eq, Param.untagged]
  · intro h
    exact ⟨(Param.mk.inj h).2, trivial, trivial⟩

lemma Expr.allowed_tagsAside (e : Expr) : e.Allowed .tagsAside := fun _ _ => trivial

mutual

lemma StmtAlike.untagged_eq : {s s' : Stmt} → StmtAlike .tagsAside s s' → s.untagged = s'.untagged
  | .function .., _, .function _ _ params body => by
    rw [Stmt.untagged, Stmt.untagged, (forall₂_iff_map_eq paramAlike_iff_untagged).1 params,
      BlockAlike.untagged_eq body]
  | .ret _, _, .ret _ => rfl
  | .cond .., _, .cond _ body => by
    rw [Stmt.untagged, Stmt.untagged, BlockAlike.untagged_eq body]
  | .expr _, _, .expr _ => rfl
  | .bind .., _, .bind _ _ => rfl
  | .empty _, _, .empty span => by
    obtain rfl : _ = _ := span
    rfl

lemma BlockAlike.untagged_eq : {b b' : Block} → BlockAlike .tagsAside b b' →
    Block.untagged b = Block.untagged b'
  | [], _, .nil => rfl
  | _ :: _, _, .cons first others => by
    rw [Block.untagged, Block.untagged, StmtAlike.untagged_eq first, BlockAlike.untagged_eq others]

end

mutual

lemma stmtAlike_of_untagged : {s s' : Stmt} → s.untagged = s'.untagged → StmtAlike .tagsAside s s'
  | .function name params body, s', h => by
    cases s' with
    | function name' params' body' =>
      obtain ⟨rfl, hparams, hbody⟩ := Stmt.function.inj h
      exact .function trivial trivial ((forall₂_iff_map_eq paramAlike_iff_untagged).2 hparams)
        (blockAlike_of_untagged hbody)
    | _ => cases h
  | .cond condition body, s', h => by
    cases s' with
    | cond condition' body' =>
      obtain ⟨rfl, hbody⟩ := Stmt.cond.inj h
      exact .cond condition.allowed_tagsAside (blockAlike_of_untagged hbody)
    | _ => cases h
  | .ret e, s', h => by
    cases s' <;> cases h
    exact .ret e.allowed_tagsAside
  | .expr e, s', h => by
    cases s' <;> cases h
    exact .expr e.allowed_tagsAside
  | .bind name init, s', h => by
    cases s' <;> cases h
    exact .bind trivial init.allowed_tagsAside
  | .empty span, s', h => by
    cases s' <;> cases h
    exact .empty rfl

lemma blockAlike_of_untagged : {b b' : Block} → Block.untagged b = Block.untagged b' →
    BlockAlike .tagsAside b b'
  | [], [], _ => .nil
  | [], _ :: _, h => by cases h
  | _ :: _, [], h => by cases h
  | s :: ss, s' :: ss', h => by
    obtain ⟨hs, hss⟩ := List.cons.inj h
    exact .cons (stmtAlike_of_untagged hs) (blockAlike_of_untagged hss)

end

lemma valueAlike_iff_untagged (v w : Value) :
    ValueAlike .tagsAside v w ↔ v.untagged = w.untagged := by
  constructor
  · intro h
    cases h with
    | function h =>
      rw [Value.untagged, Value.untagged, FunctionDef.untagged, FunctionDef.untagged, h.name_eq,
        (forall₂_iff_map_eq paramAlike_iff_untagged).1 h.params, h.body.untagged_eq]
    | plain _ => rfl
  · intro h
    cases v with
    | function f =>
      cases w with
      | function g =>
        obtain ⟨hname, hparams, hbody⟩ := FunctionDef.mk.inj (Value.function.inj h)
        exact .function ⟨hname, trivial,
          (forall₂_iff_map_eq paramAlike_iff_untagged).2 hparams, blockAlike_of_untagged hbody⟩
      | _ => cases h
    | _ =>
      cases w <;> cases h
      exact .plain fun _ heq => by cases heq

lemma variableAlike_iff_untagged (v w : Variable) :
    VariableAlike .tagsAside v w ↔ v.untagged = w.untagged := by
  constructor
  · intro h
    rw [Variable.untagged, h.name_eq, (valueAlike_iff_untagged _ _).1 h.value, Variable.untagged]
  · intro h
    obtain ⟨hname, -, hvalue⟩ := Variable.mk.inj h
    exact ⟨hname, trivial, (valueAlike_iff_untagged _ _).2 hvalue⟩

lemma scopeAlike_iff_untagged (s t : Scope) :
    ScopeAlike .tagsAside s t ↔ s.untagged = t.untagged := by
  rw [ScopeAlike, forall₂_iff_map_eq variableAlike_iff_untagged, Scope.untagged, Scope.untagged,
    Scope.mk.injEq]

lemma envAlike_iff_untagged (env env' : Environment) :
    EnvAlike .tagsAside env env' ↔ env.untagged = env'.untagged := by
  rw [Environment.untagged, Environment.untagged, Environment.mk.injEq,
    ← forall₂_iff_map_eq scopeAlike_iff_untagged, ← scopeAlike_iff_untagged]
  exact ⟨fun h => ⟨h.inner, h.global⟩, fun h => ⟨h.1, h.2⟩⟩

lemma ReturnsAlike.untagged_eq {r r' : Option TypedValue} (h : ReturnsAlike .tagsAside r r') :
    r.map TypedValue.untagged = r'.map TypedValue.untagged := by
  cases h with
  | none => rfl
  | @some v w hv =>
    rw [Option.map_some, Option.map_some, TypedValue.untagged, TypedValue.untagged, hv.tag_eq,
      (valueAlike_iff_untagged _ _).1 hv.value]

lemma ErrorAlike.untagged_eq {e e' : RuntimeError} (h : ErrorAlike .tagsAside e e') :
    e.untagged = e'.untagged := by
  cases h <;> rfl

lemma InvocationAlike.untagged_eq {i j : Invocation} (h : InvocationAlike .tagsAside i j) :
    Invocation.untagged i = Invocation.untagged j := by
  rw [Invocation.untagged, Invocation.untagged, h.callee_eq,
    (forall₂_iff_map_eq valueAlike_iff_untagged).1 h.args]

lemma answersAlike_iff_untagged {state : σ → σ → Prop} {x y : Except String Value × σ} :
    AnswersAlike .tagsAside state x y ↔ AnswersButTags state x y := by
  constructor
  · intro h
    cases h with
    | value hvalue hstate => exact .value ((valueAlike_iff_untagged _ _).1 hvalue) hstate
    | failure hstate => exact .failure hstate
  · intro h
    cases h with
    | value hvalue hstate => exact .value ((valueAlike_iff_untagged _ _).2 hvalue) hstate
    | failure hstate => exact .failure hstate

/-! ### Two runs -/

/-- Two runs with a host that does not look at types. -/
def Host.IgnoresTags.pairing {host : Host σ} {state : σ → σ → Prop} (h : host.IgnoresTags state) :
    Pairing .tagsAside σ σ where
  toCorrespondence := .alike .tagsAside
  left := host
  right := host
  state := state
  answer f _ _ _ _ hargs hstate :=
    answersAlike_iff_untagged.2 (h f ((forall₂_iff_map_eq valueAlike_iff_untagged).1 hargs) hstate)

lemma sameButTags_of_matches {host : Host σ} {state : σ → σ → Prop} (h : host.IgnoresTags state)
    {x y : Outcome RuntimeError (Machine σ) (Option TypedValue)}
    (hxy : Outcome.Matches h.pairing (ReturnsAlike .tagsAside) x y) : x.SameButTags state y := by
  cases hxy with
  | done result machines =>
    exact .done result.untagged_eq ((envAlike_iff_untagged _ _).1 machines.env) machines.state
  | failed error machines =>
    exact .failed error.untagged_eq ((envAlike_iff_untagged _ _).1 machines.env) machines.state
  | exhausted => exact .exhausted

lemma invocations_untagged {x y : Option (List Invocation)}
    (h : Option.Rel (List.Forall₂ (InvocationAlike .tagsAside)) x y) :
    x.map (·.map Invocation.untagged) = y.map (·.map Invocation.untagged) := by
  cases h with
  | none => rfl
  | some hrecord =>
    have hmap := hrecord.imp fun _ _ hi => hi.untagged_eq
    rw [Option.map_some, Option.map_some, (forall₂_iff_map_eq fun _ _ => Iff.rfl).1 hmap]

/-- The functions of the stock do not look at types, and so write the same. -/
lemma ignoresTags_world : World.host.IgnoresTags Eq := by
  have hself : ∀ v, ValueAlike .tagsAside v v := fun v => (valueAlike_iff_untagged v v).2 rfl
  intro f args args' s t hargs hstate
  have hargs := (forall₂_iff_map_eq valueAlike_iff_untagged).2 hargs
  exact answersAlike_iff_untagged.1 (respects_world_of_self hself f hargs hstate)

/-- **Declared types do not matter.** Let two programs be the same but for the types of parameters,
and two environments the same but for the tags of variables and the types of parameters in
functions. With host functions that do not look at such types, the programs run alike: both return,
with the same tag reported and the same value but for types; or both fail, with the same error but
for the tag of a variable that was called; or the calls of both nest too deeply. They invoke the
same host functions in the same order, with arguments that are the same but for types. The functions
of the stock do not look at types, so that what is printed is the same. -/
theorem exec_untagged :
    (∀ {σ : Type} (host : Host σ) (state : σ → σ → Prop), host.IgnoresTags state →
      ∀ (limit : Nat) (p q : Block) (m m' : Machine σ), Block.untagged p = Block.untagged q →
        m.env.untagged = m'.env.untagged → state m.host m'.host →
        (m.exec host limit p).SameButTags state (m'.exec host limit q) ∧
        (m.invocations host limit p).map (·.map Invocation.untagged) =
          (m'.invocations host limit q).map (·.map Invocation.untagged)) ∧
    World.host.IgnoresTags Eq := by
  refine ⟨fun host state hhost limit p q m m' hprogram henv hstate => ?_, ignoresTags_world⟩
  have hmachines : hhost.pairing.Machines m m' := ⟨(envAlike_iff_untagged _ _).2 henv, hstate⟩
  obtain ⟨houtcome, hrecord⟩ :=
    hhost.pairing.exec_alike (blockAlike_of_untagged hprogram) limit hmachines
  exact ⟨sameButTags_of_matches hhost houtcome, invocations_untagged hrecord⟩

/-- A function is printed that holds another, and a number is called under two tags. -/
theorem exec_untagged_number_called :
    let print : Variable := ⟨"print", .external, .native ⟨"print", 0⟩⟩
    let world : World := ⟨.empty false, .empty false, [(.print false, 0)]⟩
    let machine (tag : TypeTag) : Machine World := ⟨⟨[], ⟨[⟨"x", tag, .int 5⟩, print]⟩⟩, world, []⟩
    let program (tag : TypeTag) : Block :=
      [.function "f" [⟨tag, "n"⟩] [.function "g" [⟨tag, "k"⟩] []],
        .expr (.call "print" [.var "f"]), .expr (.call "x" [])]
    Block.untagged (program .int) = Block.untagged (program .bool) ∧
      (machine .int).env.untagged = (machine .bool).env.untagged ∧
      ((machine .int).exec World.host 1 (program .int)).SameButTags Eq
        ((machine .bool).exec World.host 1 (program .bool)) ∧
      ∀ tag, ∃ m, (machine tag).exec World.host 1 (program tag) = .failed (.notCallable "x" tag) m ∧
        m.host.out.text = "<func f>\n" := by
  intro print world machine program
  have hprogram : Block.untagged (program .int) = Block.untagged (program .bool) := rfl
  have henv : (machine .int).env.untagged = (machine .bool).env.untagged := rfl
  refine ⟨hprogram, henv, ?_, fun tag => ⟨_, rfl, rfl⟩⟩
  exact (exec_untagged.1 World.host Eq exec_untagged.2 1 _ _ _ _ hprogram henv rfl).1

end Flame
