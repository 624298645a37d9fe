import Flame.Run.Eval
import Mathlib.Tactic.Lemma

/-!
A logic of computations on machines.

`x.Ensures ok err` says how a computation relates the machine it starts from to the machine it ends
with: by `ok` if it gives a value, by `err` if it fails. Nothing is said of a computation that is
given up. The rules follow the ways in which computations are built.
-/

namespace Flame.Run

variable {σ α β : Type}

lemma bind_of_done {x : Run σ α} {f : α → Run σ β} {calls : List String} {m m₁ : Machine σ} {a : α}
    (h : x calls m = .done a m₁) : (x >>= f) calls m = f a calls m₁ := by
  change Run.bind x f calls m = _
  unfold Run.bind
  rw [h]

/-- What a computation that gives a value did to the machine, and what one that fails did. -/
structure Ensures (x : Run σ α) (ok : Machine σ → α → Machine σ → Prop)
    (err : Machine σ → RuntimeError → Machine σ → Prop) : Prop where
  done : ∀ {calls m a m'}, x calls m = .done a m' → ok m a m'
  failed : ∀ {calls m e m'}, x calls m = .failed e m' → err m e m'

namespace Ensures

variable {x : Run σ α} {f : α → Run σ β}
  {ok : Machine σ → α → Machine σ → Prop} {err : Machine σ → RuntimeError → Machine σ → Prop}
  {ok' : α → Machine σ → β → Machine σ → Prop}
  {err' : α → Machine σ → RuntimeError → Machine σ → Prop}
  {okB : Machine σ → β → Machine σ → Prop} {errB : Machine σ → RuntimeError → Machine σ → Prop}

lemma pure {a : α} (h : ∀ m, ok m a m) : (pure a : Run σ α).Ensures ok err where
  done := by
    intro calls m b m' heq
    rw [pure_apply] at heq
    obtain ⟨rfl, rfl⟩ := Outcome.done.inj heq
    exact h m
  failed := by
    intro calls m e m' heq
    rw [pure_apply] at heq
    cases heq

lemma fail {e : RuntimeError} (h : ∀ m, err m e m) : (fail e : Run σ α).Ensures ok err where
  done heq := by cases heq
  failed heq := by
    obtain ⟨rfl, rfl⟩ := Outcome.failed.inj heq
    exact h _

lemma giveUp : (giveUp : Run σ α).Ensures ok err where
  done heq := by cases heq
  failed heq := by cases heq

/-- Two computations in a row: the first may fail, or the second may, from where the first ended. -/
lemma bind (hx : x.Ensures ok err) (hf : ∀ a, (f a).Ensures (ok' a) (err' a))
    (hok : ∀ {m a m₁ b m'}, ok m a m₁ → ok' a m₁ b m' → okB m b m')
    (hfirst : ∀ {m e m'}, err m e m' → errB m e m')
    (hsecond : ∀ {m a m₁ e m'}, ok m a m₁ → err' a m₁ e m' → errB m e m') :
    (x >>= f).Ensures okB errB where
  done heq := by
    obtain ⟨a, m₁, h₁, h₂⟩ := bind_eq_done_iff.1 heq
    exact hok (hx.done h₁) ((hf a).done h₂)
  failed heq := by
    rcases bind_eq_failed_iff.1 heq with h | ⟨a, m₁, h₁, h₂⟩
    · exact hfirst (hx.failed h)
    · exact hsecond (hx.done h₁) ((hf a).failed h₂)

lemma mono {ok₂ : Machine σ → α → Machine σ → Prop}
    {err₂ : Machine σ → RuntimeError → Machine σ → Prop} (hx : x.Ensures ok err)
    (hok : ∀ {m a m'}, ok m a m' → ok₂ m a m')
    (herr : ∀ {m e m'}, err m e m' → err₂ m e m') : x.Ensures ok₂ err₂ where
  done heq := hok (hx.done heq)
  failed heq := herr (hx.failed heq)

lemma change {g : Environment → Except RuntimeError Environment}
    {ok : Machine σ → Unit → Machine σ → Prop}
    (hok : ∀ m env, g m.env = .ok env → ok m () { m with env })
    (herr : ∀ m e, g m.env = .error e → err m e m) : (change g).Ensures ok err where
  done := by
    intro calls m u m' heq
    unfold Run.change at heq
    split at heq
    · obtain ⟨-, rfl⟩ := Outcome.done.inj heq
      exact hok m _ ‹_›
    · cases heq
  failed := by
    intro calls m e m' heq
    unfold Run.change at heq
    split at heq
    · cases heq
    · obtain ⟨rfl, rfl⟩ := Outcome.failed.inj heq
      exact herr m _ ‹_›

lemma within {callee : String} (hx : x.Ensures ok err) : (within callee x).Ensures ok err where
  done heq := hx.done heq
  failed heq := hx.failed heq

end Ensures

end Flame.Run
