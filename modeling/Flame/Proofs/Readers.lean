import Flame.Parse.Program
import Mathlib.Tactic.Lemma

/-!
Readers as plain functions of the cursor.

A reader carries a bound on what it leaves. Here the bound is set aside: what remains of a reading
is the tree with the cursor after it, or the error. Each reader has one equation in these terms,
and later proofs use the equations only.
-/

namespace Flame

/-- The kind that stands first when the tokens `w` come before a token of kind `next`. -/
def firstKind (w : List Token) (next : Kind) : Kind :=
  match w with
  | [] => next
  | t :: _ => t.kind

@[simp] lemma firstKind_nil (next : Kind) : firstKind [] next = next := rfl
@[simp] lemma firstKind_cons (t : Token) (w : List Token) (next : Kind) :
    firstKind (t :: w) next = t.kind := rfl

lemma firstKind_append (w v : List Token) (next : Kind) :
    firstKind (w ++ v) next = firstKind w (firstKind v next) := by
  cases w <;> rfl

/-! ### Passing tokens -/

namespace Cursor

/-- The cursor `c'` stands right after the tokens `w`, and `c` right before them. -/
structure Passes (c : Cursor) (w : List Token) (c' : Cursor) : Prop where
  ahead : c.ahead = w ++ c'.ahead
  behind : c'.behind = w.reverse ++ c.behind
  eof : c'.eof = c.eof

variable {c c' c₁ c₂ : Cursor} {w v : List Token} {t : Token} {k : Kind}

lemma Passes.refl (c : Cursor) : c.Passes [] c := ⟨rfl, rfl, rfl⟩

lemma Passes.trans (h₁ : c.Passes w c₁) (h₂ : c₁.Passes v c₂) : c.Passes (w ++ v) c₂ where
  ahead := by rw [h₁.ahead, h₂.ahead, List.append_assoc]
  behind := by rw [h₂.behind, h₁.behind, List.reverse_append, List.append_assoc]
  eof := by rw [h₂.eof, h₁.eof]

lemma Passes.unique (h₁ : c.Passes w c₁) (h₂ : c.Passes w c₂) : c₁ = c₂ := by
  obtain ⟨b₁, a₁, e₁⟩ := c₁
  obtain ⟨b₂, a₂, e₂⟩ := c₂
  have ha : a₁ = a₂ := List.append_cancel_left (h₁.ahead.symm.trans h₂.ahead)
  have hb : b₁ = b₂ := h₁.behind.trans h₂.behind.symm
  have he : e₁ = e₂ := h₁.eof.trans h₂.eof.symm
  rw [ha, hb, he]

lemma passes_of_ahead {rest : List Token} (h : c.ahead = w ++ rest) :
    c.Passes w ⟨w.reverse ++ c.behind, rest, c.eof⟩ := ⟨h, rfl, rfl⟩

lemma Passes.split (h : c.Passes (w ++ v) c₂) : ∃ c₁, c.Passes w c₁ ∧ c₁.Passes v c₂ := by
  have hw : c.ahead = w ++ (v ++ c₂.ahead) := by rw [h.ahead, List.append_assoc]
  refine ⟨_, passes_of_ahead hw, ⟨rfl, ?_, h.eof⟩⟩
  rw [h.behind, List.reverse_append, List.append_assoc]

lemma Passes.split_cons (h : c.Passes (t :: w) c₂) : ∃ c₁, c.Passes [t] c₁ ∧ c₁.Passes w c₂ :=
  Passes.split (w := [t]) h

lemma kind_eq_firstKind (c : Cursor) : c.kind = firstKind c.ahead .eof := by
  obtain ⟨b, a, e⟩ := c
  cases a <;> rfl

lemma nextKind_eq_firstKind (c : Cursor) : c.nextKind = firstKind c.ahead.tail .eof := by
  obtain ⟨b, a, e⟩ := c
  rcases a with _ | ⟨t, _ | ⟨s, a⟩⟩ <;> rfl

lemma Passes.kind (h : c.Passes w c') : c.kind = firstKind w c'.kind := by
  rw [kind_eq_firstKind, h.ahead, firstKind_append, kind_eq_firstKind]

lemma Passes.kind_eq (h : c.Passes (t :: w) c') (ht : t.kind = k) : c.kind = k := by
  rw [h.kind, firstKind_cons, ht]

lemma Passes.nextKind (h : c.Passes (t :: w) c') : c.nextKind = firstKind w c'.kind := by
  rw [nextKind_eq_firstKind, h.ahead, List.cons_append, List.tail_cons, firstKind_append,
    kind_eq_firstKind]

lemma exists_passes (h : c.kind ≠ .eof) : ∃ t c', c.Passes [t] c' ∧ t.kind = c.kind := by
  obtain ⟨b, a, e⟩ := c
  cases a with
  | nil => exact absurd rfl h
  | cons t a => exact ⟨t, ⟨t :: b, a, e⟩, ⟨rfl, rfl, rfl⟩, rfl⟩

lemma passes_singleton_iff :
    c.Passes [t] c' ↔ c.ahead = t :: c'.ahead ∧ c'.behind = t :: c.behind ∧ c'.eof = c.eof :=
  ⟨fun h => ⟨h.ahead, h.behind, h.eof⟩, fun h => ⟨h.1, h.2.1, h.2.2⟩⟩

lemma advance_eq_ok_iff : c.advance = (.ok t, c') ↔ c.Passes [t] c' := by
  obtain ⟨b, a, e⟩ := c
  obtain ⟨b', a', e'⟩ := c'
  rw [passes_singleton_iff]
  cases a with
  | nil => simp [advance]
  | cons s a =>
    simp only [advance, Prod.mk.injEq, Except.ok.injEq, mk.injEq, List.cons.injEq]
    constructor
    · rintro ⟨rfl, rfl, rfl, rfl⟩
      exact ⟨⟨rfl, rfl⟩, rfl, rfl⟩
    · rintro ⟨⟨rfl, rfl⟩, rfl, rfl⟩
      exact ⟨rfl, rfl, rfl, rfl⟩

lemma expect_eq_ok_iff : c.expect k = (.ok t, c') ↔ c.Passes [t] c' ∧ t.kind = k := by
  rw [← advance_eq_ok_iff, expect]
  rcases h : c.advance with ⟨e | s, c₁⟩
  · simp
  · by_cases hk : s.kind = k
    · simp only [hk, if_true, Prod.mk.injEq, Except.ok.injEq]
      constructor
      · rintro ⟨rfl, rfl⟩
        exact ⟨⟨rfl, rfl⟩, hk⟩
      · exact fun h => h.1
    · simp only [hk, if_false, Prod.mk.injEq, reduceCtorEq, false_and, Except.ok.injEq, false_iff]
      rintro ⟨⟨rfl, -⟩, hs⟩
      exact hk hs

lemma expect?_of_passes (h : c.Passes [t] c') (ht : t.kind = k) :
    c.expect? k = (some t, c') := by
  obtain ⟨ha, hb, he⟩ := passes_singleton_iff.1 h
  obtain ⟨b, a, e⟩ := c
  obtain ⟨b', a', e'⟩ := c'
  simp only at ha hb he
  simp [expect?, ha, hb, he, ht]

lemma expect?_of_kind_ne (h : c.kind ≠ k) : c.expect? k = (none, c) := by
  obtain ⟨b, a, e⟩ := c
  cases a with
  | nil => rfl
  | cons s a => exact if_neg h

lemma expect?_cases (c : Cursor) (k : Kind) :
    (∃ t c', c.expect? k = (some t, c') ∧ c.Passes [t] c' ∧ t.kind = k) ∨
      c.expect? k = (none, c) ∧ (k ≠ .eof → c.kind ≠ k) := by
  obtain ⟨b, a, e⟩ := c
  cases a with
  | nil => exact .inr ⟨rfl, fun hk h => hk h.symm⟩
  | cons s a =>
    by_cases hs : s.kind = k
    · have hp : Passes ⟨b, s :: a, e⟩ [s] ⟨s :: b, a, e⟩ := ⟨rfl, rfl, rfl⟩
      exact .inl ⟨s, _, expect?_of_passes hp hs, hp, hs⟩
    · exact .inr ⟨expect?_of_kind_ne hs, fun _ => hs⟩

lemma passes_of_expect? (h : c.expect? k = (some t, c')) : c.Passes [t] c' ∧ t.kind = k := by
  rcases expect?_cases c k with ⟨s, c₁, hs, hp, hk⟩ | ⟨hn, -⟩
  · obtain ⟨ht, rfl⟩ := Prod.mk.inj (hs.symm.trans h)
    obtain rfl := Option.some.inj ht
    exact ⟨hp, hk⟩
  · simp [hn] at h

end Cursor

/-! ### The equations of the readers -/

namespace Reading

variable {α β γ δ : Type} {n : Nat}

/-- How a reading ended, with what it read seen through `f`. -/
def view (f : α → β) (x : Reading α) : Except ParseError β := x.result.map f

/-- The value read and the cursor after it, or the error. -/
abbrev upto (x : Reading (Upto α n)) : Except ParseError (α × Cursor) :=
  x.view fun r => (r.value, r.rest)

/-- The value read and the cursor after it, or the error. -/
abbrev below (x : Reading (Below α n)) : Except ParseError (α × Cursor) :=
  x.view fun r => (r.value, r.rest)

@[simp] lemma view_pure (f : α → β) (a : α) : (pure a : Reading α).view f = .ok (f a) := rfl

@[simp] lemma view_fail (f : α → β) (e : ParseError) :
    (fail e : Reading α).view f = .error e := rfl

/-- Two readings in a row, if the second uses of the first only what is seen of it. -/
lemma view_bind {f : α → β} {g : γ → δ} {x : Reading α} {y : α → Reading γ}
    {z : β → Except ParseError δ} (h : ∀ a, (y a).view g = z (f a)) :
    (x >>= y).view g = (x.view f).bind z := by
  unfold view at h ⊢
  rw [result_bind]
  cases x.result with
  | error e => rfl
  | ok a => exact h a

/-- A reading that is only repackaged ends as before. -/
lemma view_repack {f : γ → β} {g : α → β} {x : Reading α} {h : α → γ} (hg : ∀ a, f (h a) = g a) :
    (x >>= fun a => pure (h a)).view f = x.view g := by
  obtain rfl : (fun a => f (h a)) = g := funext hg
  unfold view
  rw [result_bind]
  cases x.result <;> rfl

lemma exists_upto {x : Reading (Upto α n)} {p : α × Cursor} (h : x.upto = .ok p) :
    ∃ r : Upto α n, p = (r.value, r.rest) := by
  rw [upto, view] at h
  cases hx : x.result with
  | error e => simp [hx, Except.map] at h
  | ok r => exact ⟨r, by simpa [hx, Except.map, eq_comm] using h⟩

lemma exists_below {x : Reading (Below α n)} {p : α × Cursor} (h : x.below = .ok p) :
    ∃ r : Below α n, p = (r.value, r.rest) := by
  rw [below, view] at h
  cases hx : x.result with
  | error e => simp [hx, Except.map] at h
  | ok r => exact ⟨r, by simpa [hx, Except.map, eq_comm] using h⟩

end Reading

lemma bind_eq_ok_iff {α β : Type} {x : Except ParseError α} {f : α → Except ParseError β} {b : β} :
    x.bind f = .ok b ↔ ∃ a, x = .ok a ∧ f a = .ok b := by
  cases x <;> simp [Except.bind]

namespace Cursor

variable {c c' : Cursor} {t : Token} {k : Kind}

lemma take_eq_ok_iff : c.take.below = .ok (t, c') ↔ c.Passes [t] c' := by
  rw [← advance_eq_ok_iff, take]
  split
  · next s c₁ h => simp [h]
  · next e c₁ h => simp [h]

lemma require_eq_ok_iff :
    (c.require k).below = .ok (t, c') ↔ c.Passes [t] c' ∧ t.kind = k := by
  rw [← expect_eq_ok_iff, require]
  split
  · next s c₁ h => simp [h]
  · next e f s c₁ h => rw [h]; simp [Reading.view, Except.map, Except.bind]
  · next e c₁ _ h => simp [h]

/-- Past the last token nothing can be required. -/
lemma require_of_nil (h : c.ahead = []) (k : Kind) :
    (c.require k).below = .error (.cursor (.exhausted c.position 1)) := by
  have hexpect : c.expect k = (.error (.exhausted c.position 1), c) := by
    simp [expect, advance, h]
  rw [require]
  split
  · next heq => simp [hexpect] at heq
  · next heq => simp [hexpect] at heq
  · next heq =>
    obtain ⟨he, -⟩ := Prod.mk.inj (hexpect.symm.trans heq)
    obtain rfl := Except.error.inj he
    rfl

/-- A token of another kind is refused. -/
lemma require_of_ne {rest : List Token} (h : c.ahead = t :: rest) (ht : t.kind ≠ k) :
    (c.require k).below = .error (.cursor (.unexpected k t.kind t.span)) := by
  have hexpect : (c.expect k).1 = .error (.unexpected k t.kind t.span) := by
    simp [expect, advance, h, ht]
  rw [require]
  split
  · next heq => simp [heq] at hexpect
  · next heq =>
    rw [heq] at hexpect
    obtain ⟨rfl, rfl, rfl⟩ := CursorError.unexpected.inj (Except.error.inj hexpect)
    rfl
  · next hne heq =>
    rw [heq] at hexpect
    exact absurd (Except.error.inj hexpect) (hne _ _ _)

lemma accept?_cases (c : Cursor) (k : Kind) :
    (∃ r, c.accept? k = some r ∧ c.expect? k = (some r.value, r.rest)) ∨
      c.accept? k = none ∧ c.expect? k = (none, c) := by
  rw [accept?]
  split
  · next t c₁ h => exact .inl ⟨_, rfl, h⟩
  · next c₁ h =>
    rcases expect?_cases c k with ⟨t, c', he, -⟩ | ⟨he, -⟩
    · simp [he] at h
    · exact .inr ⟨rfl, he⟩

end Cursor

open Reading

lemma readExpr_upto (min : Tier) (c : Cursor) :
    (readExpr min c).upto =
      (readPrimary c).upto.bind fun p => (readOperators min p.1 p.2).upto := by
  rw [readExpr]
  exact view_bind fun p => view_repack fun _ => rfl

/-- No operator of the kind `k` binds as tightly as `min`. -/
def Stops (min : Tier) (k : Kind) : Prop := ∀ op, k = .operator op → ¬min ≤ op.tier

lemma Operator.ofKind?_eq_some_iff {k : Kind} {op : Operator} :
    Operator.ofKind? k = some op ↔ k = .operator op := by
  cases k <;> simp [Operator.ofKind?]

lemma readOperators_stop {min : Tier} {c : Cursor} (h : Stops min c.kind) (left : Expr) :
    (readOperators min left c).upto = .ok (left, c) := by
  rw [readOperators]
  cases hk : Operator.ofKind? c.kind with
  | none => rfl
  | some op =>
    have hmin := h op (Operator.ofKind?_eq_some_iff.1 hk)
    simp only [if_neg hmin]
    rfl

lemma readOperators_more {min : Tier} {c : Cursor} {op : Operator} (hk : c.kind = .operator op)
    (hmin : min ≤ op.tier) (left : Expr) :
    (readOperators min left c).upto =
      c.take.below.bind fun m =>
      (readExpr op.tier.tighter m.2).upto.bind fun r =>
      (readOperators min (.binary op left r.1) r.2).upto := by
  rw [readOperators]
  simp only [hk, Operator.ofKind?, if_pos hmin]
  exact view_bind fun m => view_bind fun r => view_repack fun _ => rfl

section Primary

variable {c : Cursor}

lemma readPrimary_paren (h : c.kind = .symbol .leftParen) :
    (readPrimary c).upto =
      c.take.below.bind fun o =>
      (readExpr .lowest o.2).upto.bind fun e =>
      (e.2.require (.symbol .rightParen)).below.bind fun r =>
      .ok (e.1, r.2) := by
  rw [readPrimary]
  simp only [h]
  exact view_bind fun o => view_bind fun e => view_bind fun r => rfl

lemma readPrimary_nothing (h : c.kind = .symbol .rightParen) :
    (readPrimary c).upto = .ok (.void, c) := by
  rw [readPrimary]
  simp only [h]
  rfl

lemma readPrimary_call (h : c.kind = .identifier) (hn : c.nextKind = .symbol .leftParen) :
    (readPrimary c).upto =
      (c.require .identifier).below.bind fun f =>
      (f.2.require (.symbol .leftParen)).below.bind fun o =>
      (readArgs o.2).upto.bind fun as =>
      (as.2.require (.symbol .rightParen)).below.bind fun r =>
      .ok (.call f.1.lexeme as.1, r.2) := by
  rw [readPrimary]
  simp only [h, if_pos hn]
  exact view_bind fun f => view_bind fun o => view_bind fun as => view_bind fun r => rfl

lemma readPrimary_var (h : c.kind = .identifier) (hn : c.nextKind ≠ .symbol .leftParen) :
    (readPrimary c).upto = c.take.below.bind fun x => .ok (.var x.1.lexeme, x.2) := by
  rw [readPrimary]
  simp only [h, if_neg hn]
  exact view_bind fun x => rfl

lemma readPrimary_number (h : c.kind = .number) :
    (readPrimary c).upto =
      c.take.below.bind fun d =>
      match Text.readInt64? d.1.lexeme.toList with
      | some n => .ok (.int n, d.2)
      | none => .error (.badInteger d.1.lexeme d.1.span) := by
  rw [readPrimary]
  simp only [h]
  refine view_bind fun d => ?_
  cases Text.readInt64? d.value.lexeme.toList <;> rfl

lemma readPrimary_other (h₁ : c.kind ≠ .symbol .leftParen) (h₂ : c.kind ≠ .symbol .rightParen)
    (h₃ : c.kind ≠ .identifier) (h₄ : c.kind ≠ .number) :
    (readPrimary c).upto = .error (.noExpression c.kind c.current.span) := by
  rw [readPrimary]
  split
  · exact absurd ‹_› h₁
  · exact absurd ‹_› h₂
  · exact absurd ‹_› h₃
  · exact absurd ‹_› h₄
  · rfl

end Primary

lemma readArgs_upto (c : Cursor) :
    (readArgs c).upto =
      if c.kind = .symbol .rightParen then .ok ([], c)
      else
        (readExpr .lowest c).upto.bind fun a =>
        match a.2.expect? (.symbol .comma) with
        | (some _, c') => (readArgs c').upto.bind fun as => .ok (a.1 :: as.1, as.2)
        | (none, _) => .ok ([a.1], a.2) := by
  rw [readArgs]
  simp only [Cursor.check, beq_iff_eq]
  split
  · rfl
  · refine view_bind fun a => ?_
    rcases Cursor.accept?_cases a.rest (.symbol .comma) with ⟨r, hr, he⟩ | ⟨hr, he⟩
    · simp only [hr, he]
      exact view_bind fun as => rfl
    · simp only [hr, he]
      rfl

lemma readParams_upto (c : Cursor) :
    (readParams c).upto =
      if c.kind = .identifier then
        (c.require .identifier).below.bind fun t =>
        (t.2.require .identifier).below.bind fun x =>
        match x.2.expect? (.symbol .comma) with
        | (some _, c') =>
          (readParams c').upto.bind fun ps => .ok (⟨⟨t.1.lexeme⟩, x.1.lexeme⟩ :: ps.1, ps.2)
        | (none, _) => .ok ([⟨⟨t.1.lexeme⟩, x.1.lexeme⟩], x.2)
      else .ok ([], c) := by
  rw [readParams]
  simp only [Cursor.check, beq_iff_eq]
  split
  · refine view_bind fun t => view_bind fun x => ?_
    rcases Cursor.accept?_cases x.rest (.symbol .comma) with ⟨r, hr, he⟩ | ⟨hr, he⟩
    · simp only [hr, he]
      exact view_bind fun ps => rfl
    · simp only [hr, he]
      rfl
  · rfl

lemma readBlock_upto (c : Cursor) :
    (readBlock c).upto =
      if c.kind = .symbol .rightBrace ∨ c.kind = .eof then .ok ([], c)
      else
        (readStmt c).below.bind fun s =>
        (readBlock s.2).upto.bind fun ss => .ok (s.1 :: ss.1, ss.2) := by
  rw [readBlock]
  simp only [Cursor.check, Cursor.atEnd, Bool.or_eq_true, beq_iff_eq]
  split
  · rfl
  · exact view_bind fun s => view_bind fun ss => rfl

section Stmt

variable {c : Cursor}

lemma readStmt_function (h : c.kind = .keyword .funcWord) :
    (readStmt c).below =
      (c.require (.keyword .funcWord)).below.bind fun w =>
      (w.2.require .identifier).below.bind fun x =>
      (x.2.require (.symbol .leftParen)).below.bind fun o =>
      (readParams o.2).upto.bind fun ps =>
      (ps.2.require (.symbol .rightParen)).below.bind fun r =>
      (r.2.require (.symbol .leftBrace)).below.bind fun b =>
      (readBlock b.2).upto.bind fun ss =>
      (ss.2.require (.symbol .rightBrace)).below.bind fun l =>
      .ok (.function x.1.lexeme ps.1 ss.1, l.2) := by
  rw [readStmt]
  simp only [h]
  exact view_bind fun w => view_bind fun x => view_bind fun o => view_bind fun ps =>
    view_bind fun r => view_bind fun b => view_bind fun ss => view_bind fun l => rfl

lemma readStmt_ret (h : c.kind = .keyword .returnWord) :
    (readStmt c).below =
      (c.require (.keyword .returnWord)).below.bind fun w =>
      (readExpr .lowest w.2).upto.bind fun e =>
      (e.2.require (.symbol .semicolon)).below.bind fun l =>
      .ok (.ret e.1, l.2) := by
  rw [readStmt]
  simp only [h]
  exact view_bind fun w => view_bind fun e => view_bind fun l => rfl

lemma readStmt_cond (h : c.kind = .keyword .ifWord) :
    (readStmt c).below =
      (c.require (.keyword .ifWord)).below.bind fun w =>
      (readExpr .lowest w.2).upto.bind fun e =>
      (e.2.require (.symbol .leftBrace)).below.bind fun b =>
      (readBlock b.2).upto.bind fun ss =>
      (ss.2.require (.symbol .rightBrace)).below.bind fun l =>
      .ok (.cond e.1 ss.1, l.2) := by
  rw [readStmt]
  simp only [h]
  exact view_bind fun w => view_bind fun e => view_bind fun b => view_bind fun ss =>
    view_bind fun l => rfl

lemma readStmt_bind (h : c.kind = .keyword .letWord) :
    (readStmt c).below =
      (c.require (.keyword .letWord)).below.bind fun w =>
      (w.2.require .identifier).below.bind fun x =>
      (x.2.require (.symbol .equals)).below.bind fun q =>
      (readExpr .lowest q.2).upto.bind fun e =>
      .ok (.bind x.1.lexeme e.1, (e.2.expect? (.symbol .semicolon)).2) := by
  rw [readStmt]
  simp only [h]
  refine view_bind fun w => view_bind fun x => view_bind fun q => view_bind fun e => ?_
  rcases Cursor.accept?_cases e.rest (.symbol .semicolon) with ⟨r, hr, he⟩ | ⟨hr, he⟩
  all_goals
    simp only [hr, he]
    rfl

lemma readStmt_empty (h : c.kind = .symbol .semicolon) :
    (readStmt c).below = c.take.below.bind fun m => .ok (.empty m.1.span, m.2) := by
  rw [readStmt]
  simp only [h]
  exact view_bind fun m => rfl

/-- The kinds of the tokens that can stand before an expression statement. -/
def opensExpr (k : Kind) : Prop :=
  k = .identifier ∨ k = .symbol .leftParen ∨ k = .string ∨ k = .keyword .nullWord ∨ k = .number

lemma readStmt_expr (h : opensExpr c.kind) :
    (readStmt c).below =
      (readExpr .lowest c).upto.bind fun e =>
      (e.2.require (.symbol .semicolon)).below.bind fun l =>
      .ok (.expr e.1, l.2) := by
  rw [readStmt]
  rcases h with h | h | h | h | h
  all_goals
    simp only [h]
    exact view_bind fun e => view_bind fun l => rfl

lemma readStmt_other (hf : c.kind ≠ .keyword .funcWord) (hr : c.kind ≠ .keyword .returnWord)
    (hi : c.kind ≠ .keyword .ifWord) (hl : c.kind ≠ .keyword .letWord)
    (hs : c.kind ≠ .symbol .semicolon) (he : ¬opensExpr c.kind) :
    (readStmt c).below = .error (.noStatement c.kind c.current.span) := by
  simp only [opensExpr, not_or] at he
  obtain ⟨he₁, he₂, he₃, he₄, he₅⟩ := he
  rw [readStmt]
  split
  · exact absurd ‹_› hf
  · exact absurd ‹_› hr
  · exact absurd ‹_› hi
  · exact absurd ‹_› hl
  · exact absurd ‹_› hs
  · exact absurd ‹_› he₁
  · exact absurd ‹_› he₂
  · exact absurd ‹_› he₃
  · exact absurd ‹_› he₄
  · exact absurd ‹_› he₅
  · rfl

end Stmt

lemma parse_eq_ok_iff (ts : TokenStream) (program : Block) :
    ts.parse.result = .ok program ↔
      ∃ c, (readBlock (.start ts)).upto = .ok (program, c) := by
  rw [TokenStream.parse, Reading.result_bind, upto, view]
  cases (readBlock (.start ts)).result with
  | error e => simp [Except.bind, Except.map]
  | ok r => simp [Except.bind, Except.map]

end Flame
