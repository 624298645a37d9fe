import Flame.Run.Environment
import Mathlib.Tactic.Lemma

/-!
How one environment grows out of another.

Two relations describe all that running a tree does to its environment. An environment *grows* when
its innermost scope gains variables, each under a name that no active scope binds. One environment
lies *under* another when the other has further scopes on top of it, and is the same below. From the
two together follows what a reader of the environment can rely on: `Extends` for a run that went
well, `Retains` for one that failed.
-/

namespace Flame

namespace Environment

variable {env env₁ env₂ : Environment}

/-- The scope on top. -/
def innermost (env : Environment) : Scope := env.inner.headD env.global

/-- The active scope at a height, where the global scope has height zero. -/
def scopeAt? (env : Environment) (height : Nat) : Option Scope := env.scopes.reverse[height]?

/-- Only the innermost scope differs: it has its old variables, and others under names that no
active scope bound. -/
structure Extends (env env' : Environment) : Prop where
  depth_eq : env'.depth = env.depth
  outer_eq : env'.scopes.tail = env.scopes.tail
  kept : ∀ name v, env.innermost.get? name = some v → env'.innermost.get? name = some v
  fresh : ∀ name, env'.innermost.contains name → ¬ env.innermost.contains name →
    env.isDefined name = false

/-- Every scope is still there, at its height and with its old variables. -/
structure Retains (env env' : Environment) : Prop where
  depth_le : env.depth ≤ env'.depth
  kept : ∀ height s, env.scopeAt? height = some s →
    ∃ s', env'.scopeAt? height = some s' ∧
      ∀ name v, s.get? name = some v → s'.get? name = some v

/-- Variables under new names were added to the innermost scope. -/
inductive Grows (env : Environment) : Environment → Prop
  | refl : Grows env env
  | insert {env₁ : Environment} {v : Variable} (grows : Grows env env₁)
      (fresh : env₁.isDefined v.name = false) : Grows env (env₁.insert v)

/-- Scopes were opened on top of an environment. -/
def Under (env env' : Environment) : Prop :=
  ∃ opened, env' = { env with inner := opened ++ env.inner }

/-! ### Operations seen as lists of scopes -/

lemma depth_eq_length (env : Environment) : env.depth = env.scopes.length := by
  simp [depth, scopes]

lemma scopes_eq_cons (env : Environment) : env.scopes = env.innermost :: env.scopes.tail := by
  obtain ⟨inner, global⟩ := env
  cases inner <;> rfl

lemma scopes_insert (env : Environment) (v : Variable) :
    (env.insert v).scopes = env.innermost.insert v :: env.scopes.tail := by
  obtain ⟨inner, global⟩ := env
  cases inner <;> rfl

lemma innermost_insert (env : Environment) (v : Variable) :
    (env.insert v).innermost = env.innermost.insert v := by
  obtain ⟨inner, global⟩ := env
  cases inner <;> rfl

lemma pop_insert (env : Environment) (v : Variable) : (env.insert v).pop = env.pop := by
  obtain ⟨inner, global⟩ := env
  cases inner <;> rfl

/-- A name is bound if and only if an active scope binds it. -/
lemma isDefined_iff {name : String} :
    env.isDefined name = true ↔ ∃ s ∈ env.scopes, s.contains name = true := by
  unfold isDefined scopes
  simp only [Bool.or_eq_true, List.any_eq_true, List.mem_append, List.mem_singleton]
  constructor
  · rintro (h | ⟨s, hs, h⟩)
    · exact ⟨env.global, .inr rfl, h⟩
    · exact ⟨s, .inl hs, h⟩
  · rintro ⟨s, hs | rfl, h⟩
    · exact .inr ⟨s, hs, h⟩
    · exact .inl h

lemma get?_eq_none_of_mem {name : String} (h : env.isDefined name = false) {s : Scope}
    (hs : s ∈ env.scopes) : s.get? name = none := by
  cases hget : s.get? name with
  | none => rfl
  | some v =>
    have hdef : env.isDefined name = true := isDefined_iff.2 ⟨s, hs, by simp [Scope.contains, hget]⟩
    rw [h] at hdef
    cases hdef

lemma error_of_lookup {name : String} {e : RuntimeError} (h : env.lookup name = .error e) :
    e = .undefinedIdentifier name := by
  unfold lookup at h
  split at h
  · cases h
  · exact (Except.error.inj h).symm

/-! ### Opening scopes -/

lemma Under.refl (env : Environment) : env.Under env := ⟨[], rfl⟩

lemma Under.trans (h₁ : env.Under env₁) (h₂ : env₁.Under env₂) : env.Under env₂ := by
  obtain ⟨opened₁, rfl⟩ := h₁
  obtain ⟨opened₂, rfl⟩ := h₂
  exact ⟨opened₂ ++ opened₁, by simp⟩

lemma under_of_pop {outer : Environment} (h : env.pop = .ok outer) : outer.Under env := by
  obtain ⟨inner, global⟩ := env
  cases inner with
  | nil => cases h
  | cons s inner =>
    obtain rfl := Except.ok.inj h
    exact ⟨[s], rfl⟩

lemma unwind_of_inner_nil (h : env.inner = []) : env.unwind = env := by
  obtain ⟨inner, global⟩ := env
  obtain rfl : inner = [] := h
  rfl

/-- Dropping all scopes above the global one forgets what was opened. -/
lemma Under.unwind_eq (h : env.Under env₁) : env₁.unwind = env.unwind := by
  obtain ⟨opened, rfl⟩ := h
  rfl

lemma Under.retains (h : env.Under env₁) : env.Retains env₁ := by
  obtain ⟨opened, rfl⟩ := h
  refine ⟨?_, fun height s hs => ⟨s, ?_, fun _ _ h => h⟩⟩
  · simp only [depth, List.length_append]
    omega
  · have hscopes : scopes ⟨opened ++ env.inner, env.global⟩ = opened ++ env.scopes := by
      simp [scopes]
    obtain ⟨hlt, -⟩ := List.getElem?_eq_some_iff.1 hs
    unfold scopeAt? at hs ⊢
    rw [hscopes, List.reverse_append, List.getElem?_append_left hlt, hs]

/-! ### Adding variables -/

lemma Grows.trans (h₁ : env.Grows env₁) (h₂ : env₁.Grows env₂) : env.Grows env₂ := by
  induction h₂ with
  | refl => exact h₁
  | insert _ fresh ih => exact .insert ih fresh

lemma grows_of_declare {v : Variable} (h : env.declare v = .ok env₁) : env.Grows env₁ := by
  unfold declare at h
  split at h
  · cases h
  · rename_i hdef
    obtain rfl := Except.ok.inj h
    exact .insert .refl (by simpa using hdef)

lemma error_of_declare {v : Variable} {e : RuntimeError} (h : env.declare v = .error e) :
    e = .duplicateDefinition v.name := by
  unfold declare at h
  split at h
  · exact (Except.error.inj h).symm
  · cases h

/-- Closing the innermost scope forgets what it gained. -/
lemma Grows.pop_eq (h : env.Grows env₁) : env₁.pop = env.pop := by
  induction h with
  | refl => rfl
  | insert _ _ ih => rw [pop_insert, ih]

/-- Where only the global scope is active, it stays so. -/
lemma Grows.inner_eq_nil (h : env.Grows env₁) (hnil : env.inner = []) : env₁.inner = [] := by
  induction h with
  | refl => exact hnil
  | insert _ _ ih =>
    unfold Environment.insert
    rw [ih]

lemma Extends.refl (env : Environment) : env.Extends env :=
  ⟨rfl, rfl, fun _ _ h => h, fun _ h hn => absurd h hn⟩

/-- A name that was bound still is. -/
lemma Extends.isDefined (h : env.Extends env₁) {name : String} (hdef : env.isDefined name = true) :
    env₁.isDefined name = true := by
  obtain ⟨s, hs, hname⟩ := isDefined_iff.1 hdef
  rw [scopes_eq_cons, List.mem_cons] at hs
  rcases hs with rfl | hs
  · obtain ⟨v, hv⟩ := Option.isSome_iff_exists.1 hname
    refine isDefined_iff.2 ⟨env₁.innermost, ?_, ?_⟩
    · rw [scopes_eq_cons]
      exact List.mem_cons_self
    · unfold Scope.contains
      rw [h.kept name v hv]
      rfl
  · rw [← h.outer_eq] at hs
    exact isDefined_iff.2 ⟨s, List.mem_of_mem_tail hs, hname⟩

lemma Extends.insert (h : env.Extends env₁) {v : Variable} (hv : env₁.isDefined v.name = false) :
    env.Extends (env₁.insert v) := by
  have hnone : env₁.innermost.get? v.name = none :=
    get?_eq_none_of_mem hv (by rw [scopes_eq_cons]; exact List.mem_cons_self)
  refine ⟨?_, ?_, ?_, ?_⟩
  · rw [← h.depth_eq, depth_eq_length, depth_eq_length, scopes_insert, scopes_eq_cons env₁]
    rfl
  · rw [scopes_insert, ← h.outer_eq]
    rfl
  · intro name w hw
    have hw₁ := h.kept name w hw
    rw [innermost_insert, Scope.get?_insert, if_neg, hw₁]
    rintro rfl
    rw [hnone] at hw₁
    cases hw₁
  · intro name hname hold
    rw [innermost_insert, Scope.contains, Scope.get?_insert] at hname
    split at hname
    · rename_i heq
      subst heq
      -- The name added last was not bound just before, hence not at the start.
      cases hdef : env.isDefined v.name with
      | false => rfl
      | true =>
        rw [h.isDefined hdef] at hv
        cases hv
    · exact h.fresh name hname hold

lemma Grows.extends (h : env.Grows env₁) : env.Extends env₁ := by
  induction h with
  | refl => exact .refl env
  | insert _ fresh ih => exact ih.insert fresh

/-- Where only the global scope is active, its variables stay. -/
lemma Grows.global_kept (h : env.Grows env₁) (hnil : env.inner = []) {name : String} {v : Variable}
    (hv : env.global.get? name = some v) : env₁.global.get? name = some v := by
  have hkept := h.extends.kept name v
  unfold innermost at hkept
  rw [hnil, h.inner_eq_nil hnil] at hkept
  exact hkept hv

/-- An extended environment has every scope at its old height. -/
lemma Extends.retains (h : env.Extends env₁) : env.Retains env₁ := by
  refine ⟨Nat.le_of_eq h.depth_eq.symm, fun height s hs => ?_⟩
  unfold scopeAt? at hs ⊢
  rw [scopes_eq_cons, List.reverse_cons] at hs ⊢
  rw [h.outer_eq]
  by_cases hlt : height < env.scopes.tail.reverse.length
  · rw [List.getElem?_append_left hlt] at hs ⊢
    exact ⟨s, hs, fun _ _ h => h⟩
  · rw [List.getElem?_append_right (by omega)] at hs ⊢
    rw [List.getElem?_singleton] at hs ⊢
    split at hs
    · obtain rfl := Option.some.inj hs
      exact ⟨env₁.innermost, if_pos ‹_›, h.kept⟩
    · cases hs

lemma Retains.trans (h₁ : env.Retains env₁) (h₂ : env₁.Retains env₂) : env.Retains env₂ := by
  refine ⟨Nat.le_trans h₁.depth_le h₂.depth_le, fun height s hs => ?_⟩
  obtain ⟨s₁, hs₁, hkept₁⟩ := h₁.kept height s hs
  obtain ⟨s₂, hs₂, hkept₂⟩ := h₂.kept height s₁ hs₁
  exact ⟨s₂, hs₂, fun name v hv => hkept₂ name v (hkept₁ name v hv)⟩

end Environment

end Flame
