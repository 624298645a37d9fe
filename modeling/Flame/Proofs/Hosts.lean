import Flame.Proofs.SideBySide

/-!
What a run asks of its host.

A host that keeps a record of the calls it gets shows which host functions a run invokes, in which
order and with which arguments. A host *respects* a likeness if it answers alike to arguments that
are alike; with such a host, programs that are alike invoke the same functions with arguments that
are alike. What a host keeps of its arguments is alike then, and no more than that, so this is said
for a relation on the states of the host. A host that makes up no functions of its own respects
every likeness of programs that are the same. Hosts that give the same answers run a program to the
same end, whatever else they do; to keep a record is a case of this.
-/

namespace Flame

variable {σ τ α ε : Type}

/-! ### Records -/

/-- A host function, and the arguments it was called with. -/
abbrev Invocation := Native × List Value

/-- The host that also keeps a record of the calls it gets. -/
def Host.recording (host : Host σ) : Host (σ × List Invocation) where
  call f args s :=
    ((host.call f args s.1).1, (host.call f args s.1).2, s.2 ++ [(f, args)])

/-- The machine with a record of no calls. -/
def Machine.recording (m : Machine σ) : Machine (σ × List Invocation) :=
  ⟨m.env, (m.host, []), m.log⟩

/-- What is on the record at the end. Nothing is known of a run that was given up. -/
def Outcome.record? : Outcome ε (Machine (σ × List Invocation)) α → Option (List Invocation)
  | .done _ m | .failed _ m => some m.host.2
  | .exhausted => none

/-- The host functions that a run of a program invokes, in order and with their arguments. -/
def Machine.invocations (host : Host σ) (limit : Nat) (program : Block) (m : Machine σ) :
    Option (List Invocation) :=
  (m.recording.exec host.recording limit program).record?

structure InvocationAlike (L : Likeness) (i j : Invocation) : Prop where
  callee_eq : i.1 = j.1
  args : List.Forall₂ (ValueAlike L) i.2 j.2

/-! ### Hosts -/

/-- Whatever function a host function answers with is among its arguments. -/
def Host.ReturnsArguments (host : Host σ) : Prop :=
  ∀ {f args s g s'}, host.call f args s = (.ok (.function g), s') → Value.function g ∈ args

/-- The host whose functions answer with their first argument. -/
def Host.echo : Host Unit := ⟨fun _ args s => (.ok (args.headD .void), s)⟩

lemma returnsArguments_echo : Host.echo.ReturnsArguments := by
  intro f args s g s' hcall
  cases args with
  | nil => cases hcall
  | cons v args =>
    obtain rfl : v = .function g := Except.ok.inj (Prod.mk.inj hcall).1
    exact List.mem_cons_self

/-- The host whose functions give nothing, and keep what they are called with. -/
def Host.keeping : Host (List Value) := ⟨fun _ args kept => (.ok .void, kept ++ args)⟩

/-- In states that are related, arguments that are alike are answered alike, and lead to states that
are related. -/
def Host.Respects (L : Likeness) (host : Host σ) (state : σ → σ → Prop) : Prop :=
  ∀ f {args args' s t}, List.Forall₂ (ValueAlike L) args args' → state s t →
    AnswersAlike L state (host.call f args s) (host.call f args' t)

/-- Values that are only kept can be seen later, but do not change what is answered. -/
lemma respects_keeping (L : Likeness) : Host.keeping.Respects L (List.Forall₂ (ValueAlike L)) :=
  fun _ _ _ _ _ hargs hkept =>
    .value (.plain fun _ heq => by cases heq) (List.rel_append hkept hargs)

lemma eq_of_forall₂_valueAlike {L : Likeness} (hL : L.Strict) {vs ws : List Value}
    (h : List.Forall₂ (ValueAlike L) vs ws) : vs = ws := by
  induction h with
  | nil => rfl
  | cons hv _ ih => rw [hv.eq hL, ih]

lemma eq_of_returnsAlike {L : Likeness} (hL : L.Strict) {r r' : Option TypedValue}
    (h : ReturnsAlike L r r') : r = r' := by
  cases h with
  | none => rfl
  | some hv => rw [hv.eq hL]

/-- A host that makes up no functions cannot bring in other names or other functions. -/
lemma Host.ReturnsArguments.respects {host : Host σ} (h : host.ReturnsArguments)
    (name : String → Prop) (params : List Param → Prop) :
    host.Respects (.exact name params) Eq := by
  intro f args args' s t hargs hstate
  obtain rfl : args = args' := eq_of_forall₂_valueAlike Likeness.strict_exact hargs
  obtain rfl : s = t := hstate
  cases hcall : host.call f args s with
  | mk answer s' =>
    cases answer with
    | error reason => exact .failure rfl
    | ok v =>
      refine .value ?_ rfl
      cases v with
      | function g => exact List.forall₂_same.1 hargs _ (h hcall)
      | _ => exact .plain fun _ heq => by cases heq

/-! ### Hosts that answer the same -/

/-- The likeness of programs that are the same, whatever they hold. -/
def Likeness.same : Likeness := .exact (fun _ => True) (fun _ => True)

lemma valueAlike_same (v : Value) : ValueAlike .same v v :=
  valueAlike_self (Likeness.reflexive_exact _ _) (fun _ _ _ _ => trivial) fun _ _ _ _ => trivial

lemma blockAlike_same (b : Block) : BlockAlike .same b b :=
  blockAlike_self (Likeness.reflexive_exact _ _) b (fun _ _ => trivial) fun _ _ => trivial

/-- Environments correspond if they are the same. -/
def Correspondence.same : Correspondence .same where
  env := Eq
  find {e e' x} he _ := by
    obtain rfl : e = e' := he
    cases e.find? x with
    | none => exact .none
    | some v => exact .some ⟨rfl, rfl, valueAlike_same v.value⟩
  push he := congrArg Environment.push he
  insert he _ hvw := by rw [he, hvw.variableAlike.eq]

/-- In states that are related, two hosts give the same answers to the same calls, and these lead to
states that are related. -/
def Host.AnswersLike (left : Host σ) (right : Host τ) (state : σ → τ → Prop) : Prop :=
  ∀ f args {s t}, state s t → (left.call f args s).1 = (right.call f args t).1 ∧
    state (left.call f args s).2 (right.call f args t).2

/-- Runs of one program with hosts that answer the same. -/
def Host.AnswersLike.pairing {left : Host σ} {right : Host τ} {state : σ → τ → Prop}
    (h : left.AnswersLike right state) : Pairing .same σ τ where
  toCorrespondence := .same
  left := left
  right := right
  state := state
  answer f args args' s t hargs hstate := by
    obtain rfl : args = args' := eq_of_forall₂_valueAlike Likeness.strict_exact hargs
    obtain ⟨hanswer, hnext⟩ := h f args hstate
    revert hanswer hnext
    rcases left.call f args s with ⟨r, s₁⟩
    rcases right.call f args t with ⟨r', t₁⟩
    rintro rfl hnext
    cases r with
    | error reason => exact .failure hnext
    | ok v => exact .value (valueAlike_same v) hnext

/-! ### A record changes nothing -/

lemma answersLike_recording (host : Host σ) :
    host.AnswersLike host.recording fun s t => s = t.1 := by
  rintro f args s t rfl
  exact ⟨rfl, rfl⟩

/-- A run with a host, and a run of the same with the host that keeps a record. -/
def Host.recordAside (host : Host σ) : Pairing .same σ (σ × List Invocation) :=
  (answersLike_recording host).pairing

/-- **Records.** Keeping a record changes neither how a run ends nor what it does to the environment
and to the host. -/
theorem exec_recording (host : Host σ) (limit : Nat) (program : Block) (m : Machine σ) :
    Outcome.Matches host.recordAside (ReturnsAlike .same) (m.exec host limit program)
      (m.recording.exec host.recording limit program) :=
  exec_matches host.recordAside (blockAlike_same program) limit ⟨rfl, rfl⟩

/-! ### Programs that are alike -/

namespace Pairing

variable {L : Likeness} (P : Pairing L σ τ)

/-- The runs of a pairing, with hosts that keep a record. -/
def recorded : Pairing L (σ × List Invocation) (τ × List Invocation) where
  toCorrespondence := P.toCorrespondence
  left := P.left.recording
  right := P.right.recording
  state s t := P.state s.1 t.1 ∧ List.Forall₂ (InvocationAlike L) s.2 t.2
  answer f args args' s t hargs hstate := by
    obtain ⟨s, record⟩ := s
    obtain ⟨t, record'⟩ := t
    obtain ⟨hst, hrecord⟩ := hstate
    have hrecord' : List.Forall₂ (InvocationAlike L) (record ++ [(f, args)])
        (record' ++ [(f, args')]) :=
      List.rel_append hrecord (.cons ⟨rfl, hargs⟩ .nil)
    have hanswer := P.answer f hargs hst
    simp only [Host.recording]
    revert hanswer
    rcases P.left.call f args s with ⟨r, s₁⟩
    rcases P.right.call f args' t with ⟨r', t₁⟩
    intro hanswer
    cases hanswer with
    | value hvalue hstate => exact .value hvalue ⟨hstate, hrecord'⟩
    | failure hstate => exact .failure ⟨hstate, hrecord'⟩

lemma record_alike {β : Type} {Q : α → β → Prop}
    {x : Outcome RuntimeError (Machine (σ × List Invocation)) α}
    {y : Outcome RuntimeError (Machine (τ × List Invocation)) β}
    (h : Outcome.Matches P.recorded Q x y) :
    Option.Rel (List.Forall₂ (InvocationAlike L)) x.record? y.record? := by
  cases h with
  | done _ machines => exact .some machines.state.2
  | failed _ machines => exact .some machines.state.2
  | exhausted => exact .none

/-- **Programs that are alike.** From machines that correspond, they end alike and invoke the same
host functions in the same order. -/
theorem exec_alike {b b' : Block} (hb : BlockAlike L b b') (limit : Nat) {m : Machine σ}
    {m' : Machine τ} (hm : P.Machines m m') :
    Outcome.Matches P (ReturnsAlike L) (m.exec P.left limit b) (m'.exec P.right limit b') ∧
      Option.Rel (List.Forall₂ (InvocationAlike L)) (m.invocations P.left limit b)
        (m'.invocations P.right limit b') := by
  refine ⟨exec_matches P hb limit hm, ?_⟩
  exact P.record_alike (exec_matches P.recorded hb limit ⟨hm.env, hm.state, .nil⟩)

end Pairing

/-- Two runs with one host, from states of it that are related. -/
def Correspondence.withHost {L : Likeness} (C : Correspondence L) {host : Host σ}
    {state : σ → σ → Prop} (hhost : host.Respects L state) : Pairing L σ σ where
  toCorrespondence := C
  left := host
  right := host
  state := state
  answer := hhost

end Flame
