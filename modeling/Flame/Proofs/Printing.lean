import Flame.Host.World
import Flame.Proofs.Steps
import Flame.Proofs.Units

/-!
What a submission prints.

An account of a terminal tells from the state of the host what has been written to the two sinks,
and of each call of a host function what it prints. A host that adds up the latter answers as the
one it adds up for, so a submission adds to the sinks what its calls print, in order. In the same
way a submission keeps open what every call keeps open, and does not depend on what no call looks
at. The stock and its buffers have such an account.
-/

namespace Flame

variable {σ τ : Type}

/-! ### Submissions of one text -/

/-- Two runs ended the same way, with one environment and in states of their hosts that are
related. -/
inductive Outcome.Same (state : σ → τ → Prop) :
    Outcome RunError (Machine σ) (Option TypedValue) →
    Outcome RunError (Machine τ) (Option TypedValue) → Prop
  | done {r : Option TypedValue} {m : Machine σ} {m' : Machine τ} (env : m.env = m'.env)
      (host : state m.host m'.host) : Same state (.done r m) (.done r m')
  | failed {e : RunError} {m : Machine σ} {m' : Machine τ} (env : m.env = m'.env)
      (host : state m.host m'.host) : Same state (.failed e m) (.failed e m')
  | exhausted : Same state .exhausted .exhausted

section

variable {left : Host σ} {right : Host τ} {state : σ → τ → Prop} {m : Machine σ} {m' : Machine τ}

lemma same_of_matches (h : left.AnswersLike right state)
    {x : Outcome RuntimeError (Machine σ) (Option TypedValue)}
    {y : Outcome RuntimeError (Machine τ) (Option TypedValue)}
    (hxy : Outcome.Matches h.pairing (ReturnsAlike .same) x y) :
    (x.mapError RunError.runtime).Same state (y.mapError RunError.runtime) := by
  cases hxy with
  | done result machines =>
    rw [eq_of_returnsAlike Likeness.strict_exact result]
    exact .done machines.env machines.state
  | failed error machines =>
    rw [error.eq fun htag => htag]
    exact .failed machines.env machines.state
  | exhausted => exact .exhausted

lemma runSource_same (h : left.AnswersLike right state) (limit : Nat) (source : String)
    (henv : m.env = m'.env) (hstate : state m.host m'.host) :
    (m.runSource left limit source).Same state (m'.runSource right limit source) := by
  cases hparse : (TokenStream.ofSource source).parse.result with
  | error e =>
    obtain ⟨log, hlog⟩ := m.noteReading_eq source
    obtain ⟨log', hlog'⟩ := m'.noteReading_eq source
    rw [Machine.runSource_of_parse_error left limit m hparse,
      Machine.runSource_of_parse_error right limit m' hparse, hlog, hlog']
    exact .failed henv hstate
  | ok program =>
    rw [Machine.runSource_of_parse left limit m hparse,
      Machine.runSource_of_parse right limit m' hparse]
    have hmachines : h.pairing.Machines m m' := ⟨henv, hstate⟩
    exact same_of_matches h
      (readAs_matches h.pairing source source (blockAlike_same program) limit hmachines)

/-- **Submissions of one text.** With hosts that answer the same, they end the same way. -/
theorem submit_same (h : left.AnswersLike right state) (limit : Nat) (source : String)
    (henv : m.env = m'.env) (hstate : state m.host m'.host) :
    (m.submit left limit source).Same state (m'.submit right limit source) := by
  have hrun := runSource_same h limit source henv hstate
  unfold Machine.submit
  revert hrun
  generalize m.runSource left limit source = x
  generalize m'.runSource right limit source = y
  intro hrun
  cases hrun with
  | done env host => exact .done env host
  | @failed e m₁ m₁' env host =>
    refine .failed ?_ ?_
    · rw [Machine.unwind_env, Machine.unwind_env, env]
    · rwa [Machine.unwind_host, Machine.unwind_host]
  | exhausted => exact .exhausted

/-- Where a text can be submitted with one host, it can be with the other. -/
lemma Submits.same {limit : Nat} {source : String} {m₁ : Machine σ}
    (hsubmits : Submits left limit m source m₁) (h : left.AnswersLike right state)
    (henv : m.env = m'.env) (hstate : state m.host m'.host) :
    ∃ m₁', Submits right limit m' source m₁' ∧ m₁.env = m₁'.env ∧ state m₁.host m₁'.host := by
  have hsame := submit_same h limit source henv hstate
  rcases hsubmits with ⟨r, hr⟩ | ⟨e, he⟩
  · rw [hr] at hsame
    generalize hy : m'.submit right limit source = y at hsame
    cases hsame with
    | done env host => exact ⟨_, .inl ⟨r, hy⟩, env, host⟩
  · rw [he] at hsame
    generalize hy : m'.submit right limit source = y at hsame
    cases hsame with
    | failed env host => exact ⟨_, .inr ⟨e, hy⟩, env, host⟩

end

/-! ### Texts on two sinks -/

/-- What is on the two sinks, or is added to them. -/
structure Texts where
  out : String
  err : String

namespace Texts

def empty : Texts := ⟨"", ""⟩

instance : Append Texts := ⟨fun a b => ⟨a.out ++ b.out, a.err ++ b.err⟩⟩

@[simp] lemma append_err (a b : Texts) : (a ++ b).err = a.err ++ b.err := rfl

@[simp] lemma append_empty (a : Texts) : a ++ empty = a :=
  congrArg₂ mk String.append_empty String.append_empty

lemma append_assoc (a b c : Texts) : a ++ b ++ c = a ++ (b ++ c) :=
  congrArg₂ mk String.append_assoc String.append_assoc

/-- Texts one after another. -/
def join : List Texts → Texts
  | [] => empty
  | a :: as => a ++ join as

end Texts

/-! ### Accounts -/

/-- What has been written to the sinks of a terminal, and what calls of host functions print. Of a
text that a sink refuses nothing is said. -/
structure Account (t : Terminal σ) where
  text : σ → Texts
  prints : Invocation → σ → Texts
  write_out : ∀ {x s s'}, t.out.write x s = (.ok (), s') → text s' = text s ++ ⟨x, ""⟩
  flush_out : ∀ {s s'}, t.out.flush s = (.ok (), s') → text s' = text s
  write_err : ∀ {x s s'}, t.err.write x s = (.ok (), s') → text s' = text s ++ ⟨"", x⟩
  call : ∀ f args s, text (t.host.call f args s).2 = text s ++ prints (f, args) s

namespace Account

variable {t : Terminal σ} (A : Account t)

/-- The host that also adds up what its functions print. -/
def tallying : Host (σ × Texts) where
  call f args s :=
    ((t.host.call f args s.1).1, (t.host.call f args s.1).2, s.2 ++ A.prints (f, args) s.1)

/-- What the calls of a source text print. -/
def printed (limit : Nat) (source : String) (m : Machine σ) : Texts :=
  let tallied : Machine (σ × Texts) := ⟨m.env, (m.host, .empty), m.log⟩
  (tallied.submit A.tallying limit source).state?.elim .empty (·.host.2)

/-- What a call keeps true of the state and of the sum, a submission keeps true of them. -/
lemma printed_of_submits {I : σ → Texts → Prop}
    (hcall : ∀ f args s x, I s x → I (t.host.call f args s).2 (x ++ A.prints (f, args) s))
    {limit : Nat} {source : String} {m m' : Machine σ} (h : Submits t.host limit m source m')
    (hstart : I m.host .empty) : I m'.host (A.printed limit source m) := by
  have htallying : t.host.AnswersLike A.tallying fun s u => s = u.1 ∧ I s u.2 := by
    rintro f args s ⟨s, x⟩ ⟨rfl, hs⟩
    exact ⟨rfl, rfl, hcall f args s x hs⟩
  let tallied : Machine (σ × Texts) := ⟨m.env, (m.host, .empty), m.log⟩
  have henv : m.env = tallied.env := rfl
  obtain ⟨m₁, hsubmits, -, -, hend⟩ := h.same htallying henv ⟨rfl, hstart⟩
  have hprinted : A.printed limit source m = m₁.host.2 := by
    unfold printed
    rcases hsubmits with ⟨r, hr⟩ | ⟨e, he⟩
    · exact congrArg (·.state?.elim Texts.empty (·.host.2)) hr
    · exact congrArg (·.state?.elim Texts.empty (·.host.2)) he
  rwa [hprinted]

/-- **Printing.** A submission adds to the sinks what its calls print. -/
theorem text_of_submits {limit : Nat} {source : String} {m m' : Machine σ}
    (h : Submits t.host limit m source m') :
    A.text m'.host = A.text m.host ++ A.printed limit source m := by
  refine A.printed_of_submits (I := fun s x => A.text s = A.text m.host ++ x) ?_ h ?_
  · intro f args s x hs
    rw [A.call, hs, Texts.append_assoc]
  · exact (Texts.append_empty _).symm

/-- If no call prints errors, then no submission does. -/
lemma printed_err (hprints : ∀ call s, (A.prints call s).err = "") {limit : Nat} {source : String}
    {m m' : Machine σ} (h : Submits t.host limit m source m') :
    (A.printed limit source m).err = "" := by
  refine A.printed_of_submits (I := fun _ x => x.err = "") (fun f args s x hx => ?_) h rfl
  rw [Texts.append_err, hx, hprints, String.append_empty]

end Account

/-! ### Open sinks, and sinks that are not looked at -/

namespace Terminal

/-- In states in which the sinks are open they refuse nothing, and whatever is written or called,
they stay open. -/
structure Open (t : Terminal σ) (isOpen : σ → Prop) : Prop where
  write_out : ∀ x {s}, isOpen s →
    (t.out.write x s).1 = .ok () ∧ isOpen (t.out.write x s).2
  flush_out : ∀ {s}, isOpen s → (t.out.flush s).1 = .ok () ∧ isOpen (t.out.flush s).2
  write_err : ∀ x {s}, isOpen s →
    (t.err.write x s).1 = .ok () ∧ isOpen (t.err.write x s).2
  call : ∀ f args {s}, isOpen s → isOpen (t.host.call f args s).2

lemma Open.of_submits {t : Terminal σ} {isOpen : σ → Prop} (h : t.Open isOpen) {limit : Nat}
    {source : String} {m m' : Machine σ} (hsubmits : Submits t.host limit m source m')
    (hopen : isOpen m.host) : isOpen m'.host := by
  have hself : t.host.AnswersLike t.host fun s s' => s = s' ∧ isOpen s := by
    rintro f args s s' ⟨rfl, hs⟩
    exact ⟨rfl, rfl, h.call f args hs⟩
  have henv : m.env = m.env := rfl
  obtain ⟨_, -, -, -, hend⟩ := hsubmits.same hself henv ⟨rfl, hopen⟩
  exact hend

/-- Host functions do not see what is done with the sinks: writing leads to states that they cannot
tell from the one before, and in such states they answer the same. -/
structure Unseen (t : Terminal σ) (same : σ → σ → Prop) : Prop where
  answers : t.host.AnswersLike t.host same
  write_out : ∀ x {s u}, same s u → same (t.out.write x s).2 u
  flush_out : ∀ {s u}, same s u → same (t.out.flush s).2 u
  write_err : ∀ x {s u}, same s u → same (t.err.write x s).2 u

end Terminal

/-! ### The stock and its buffers -/

/-- The buffer with more text in it. -/
def Buffer.after (text : String) (b : Buffer) : Buffer := { b with text := b.text ++ text }

@[simp] lemma Buffer.after_closed (text : String) (b : Buffer) :
    (b.after text).closed = b.closed := rfl

@[simp] lemma Buffer.after_empty (b : Buffer) : b.after "" = b := by
  simp [after]

lemma Sink.write_ofWrite {write : String → σ → Except String σ} {text : String} {s s' : σ} :
    (ofWrite write).write text s = (.ok (), s') ↔ write text s = .ok s' := by
  cases h : write text s <;> simp [ofWrite, h]

/-- What a function of the stock puts on an open output. -/
def Behaviour.line : Behaviour → List Value → String
  | print false, args => renderValues " " args ++ "\n"
  | _, _ => ""

namespace World

lemma writeOut_eq_ok_iff {text : String} {w w' : World} :
    w.writeOut text = .ok w' ↔ w.out.closed = false ∧ w' = { w with out := w.out.after text } := by
  cases h : w.out.closed <;>
    simp [writeOut, Buffer.write, Buffer.after, h, bind, Except.bind, pure, Except.pure, eq_comm]

lemma writeErr_eq_ok_iff {text : String} {w w' : World} :
    w.writeErr text = .ok w' ↔ w.err.closed = false ∧ w' = { w with err := w.err.after text } := by
  cases h : w.err.closed <;>
    simp [writeErr, Buffer.write, Buffer.after, h, bind, Except.bind, pure, Except.pure, eq_comm]

/-- What a call prints: the line of a function that prints, if the output is open. -/
def line (w : World) (call : Invocation) : String :=
  if w.out.closed then "" else w.natives[call.1.id]?.elim "" (·.1.line call.2)

lemma answer_snd (b : Behaviour) (calls : Nat) (args : List Value) (w : World) :
    (answer b calls args w).2 =
      { w with out := w.out.after (if w.out.closed then "" else b.line args) } := by
  cases b with
  | print muted =>
    cases muted with
    | true => simp [answer, Behaviour.line]
    | false =>
      cases h : w.out.closed with
      | true => simp [answer, writeOut, Buffer.write, h, bind, Except.bind]
      | false =>
        simp [answer, Behaviour.line, writeOut, Buffer.write, Buffer.after, h, bind, Except.bind,
          pure, Except.pure]
  | echo => cases args <;> simp [answer, Behaviour.line]
  | _ => simp [answer, Behaviour.line]

/-- An answer depends on the buffers only in that the output may be closed. -/
lemma answer_fst (b : Behaviour) (calls : Nat) (args : List Value) {w u : World}
    (h : w.out.closed = u.out.closed) : (answer b calls args w).1 = (answer b calls args u).1 := by
  cases b with
  | print muted =>
    cases muted with
    | true => rfl
    | false =>
      cases hu : u.out.closed <;>
        simp [answer, writeOut, Buffer.write, h, hu, bind, Except.bind, pure, Except.pure]
  | echo => cases args <;> rfl
  | _ => rfl

lemma call_snd (f : Native) (args : List Value) (w : World) :
    (call f args w).2 =
      ⟨w.out.after (w.line (f, args)), w.err, w.natives.modify f.id fun p => (p.1, p.2 + 1)⟩ := by
  unfold call line
  rw [List.modify_eq_set_getElem?]
  cases w.natives[f.id]? with
  | none => simp
  | some p => simp [answer_snd]

lemma call_fst (f : Native) (args : List Value) {w u : World} (hnatives : w.natives = u.natives)
    (h : w.out.closed = u.out.closed) : (call f args w).1 = (call f args u).1 := by
  unfold call
  rw [hnatives]
  cases u.natives[f.id]? with
  | none => rfl
  | some p => exact answer_fst _ _ _ h

/-- The buffers tell what has been written to them, and each call prints its line. -/
def account : Account terminal where
  text w := ⟨w.out.text, w.err.text⟩
  prints call w := ⟨w.line call, ""⟩
  write_out h := by
    obtain ⟨-, rfl⟩ := writeOut_eq_ok_iff.1 (Sink.write_ofWrite.1 h)
    exact congrArg (Texts.mk _) String.append_empty.symm
  flush_out h := by
    obtain ⟨-, rfl⟩ := Prod.mk.inj h
    rfl
  write_err h := by
    obtain ⟨-, rfl⟩ := writeErr_eq_ok_iff.1 (Sink.write_ofWrite.1 h)
    exact congrArg (Texts.mk · _) String.append_empty.symm
  call f args w := by
    change Texts.mk (World.call f args w).2.out.text (World.call f args w).2.err.text = _
    rw [call_snd]
    exact congrArg (Texts.mk _) String.append_empty.symm

/-- Buffers that are open stay open. -/
lemma open_terminal : terminal.Open fun w => w.out.closed = false ∧ w.err.closed = false where
  write_out x w h := by
    have hwrite : terminal.out.write x w = (.ok (), _) :=
      Sink.write_ofWrite.2 (writeOut_eq_ok_iff.2 ⟨h.1, rfl⟩)
    rw [hwrite]
    exact ⟨rfl, h⟩
  flush_out h := ⟨rfl, h⟩
  write_err x w h := by
    have hwrite : terminal.err.write x w = (.ok (), _) :=
      Sink.write_ofWrite.2 (writeErr_eq_ok_iff.2 ⟨h.2, rfl⟩)
    rw [hwrite]
    exact ⟨rfl, h⟩
  call f args w h := by
    obtain ⟨hout, herr⟩ := h
    change (World.call f args w).2.out.closed = false ∧ (World.call f args w).2.err.closed = false
    rw [call_snd]
    exact ⟨hout, herr⟩

/-- No function of the stock looks at the text in the buffers. -/
lemma unseen_terminal :
    terminal.Unseen fun w u => w.natives = u.natives ∧ w.out.closed = u.out.closed where
  answers f args w u h := by
    obtain ⟨hnatives, hclosed⟩ := h
    change (World.call f args w).1 = (World.call f args u).1 ∧
      (World.call f args w).2.natives = (World.call f args u).2.natives ∧
        (World.call f args w).2.out.closed = (World.call f args u).2.out.closed
    rw [call_fst f args hnatives hclosed, call_snd, call_snd, hnatives]
    exact ⟨rfl, rfl, hclosed⟩
  write_out x w u h := by
    cases hwrite : w.writeOut x with
    | error e => simpa [terminal, Sink.ofWrite, hwrite] using h
    | ok w' =>
      obtain ⟨-, rfl⟩ := writeOut_eq_ok_iff.1 hwrite
      simpa [terminal, Sink.ofWrite, hwrite] using h
  flush_out h := h
  write_err x w u h := by
    cases hwrite : w.writeErr x with
    | error e => simpa [terminal, Sink.ofWrite, hwrite] using h
    | ok w' =>
      obtain ⟨-, rfl⟩ := writeErr_eq_ok_iff.1 hwrite
      simpa [terminal, Sink.ofWrite, hwrite] using h

end World

end Flame
