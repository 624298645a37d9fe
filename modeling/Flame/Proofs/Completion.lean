import Flame.Proofs.ParserSound

/-!
Tokens that can be completed.

A start of a phrase is *viable* if some tokens after it make it a whole phrase. What a reader has
passed is viable: a phrase that was read stays one in front of another kind of token, but for two
places. A name in front of an opening parenthesis would be called, and nothing at all is a primary
only in front of a closing parenthesis; there a number can be put instead.
-/

namespace Flame

/-- Some continuation of the tokens is accepted. -/
def Viable (accepts : List Token → Prop) (w : List Token) : Prop := ∃ v, accepts (w ++ v)

section

variable {P Q : List Token → Prop} {w v u : List Token}

lemma Viable.of_append (h : Viable P (w ++ u)) : Viable P w := by
  obtain ⟨v, hv⟩ := h
  exact ⟨u ++ v, by rwa [← List.append_assoc]⟩

lemma viable_of_accepts (h : P w) : Viable P w := ⟨[], by rwa [List.append_nil]⟩

/-- What surrounds a viable start: tokens before it, and tokens after its completion. -/
lemma Viable.surround (h : Viable P w) (before after : List Token)
    (hQ : ∀ x, P x → Q (before ++ (x ++ after))) : Viable Q (before ++ w) := by
  obtain ⟨v, hv⟩ := h
  refine ⟨v ++ after, ?_⟩
  have hall := hQ (w ++ v) hv
  rwa [List.append_assoc, ← List.append_assoc] at hall

end

/-- The tokens form a phrase in front of a token of kind `next`. -/
def Forms (p : Phrase) (next : Kind) (w : List Token) : Prop := ∃ t, Derives p w next t

/-- The tokens form an expression that precedence climbing from `min` may hold. -/
def Climbs (min : Tier) (next : Kind) (w : List Token) : Prop := ∃ e, Climbed min w next e

/-- A kind that no expression goes on with. -/
structure Kind.Closes (k : Kind) : Prop where
  ne_paren : k ≠ .symbol .leftParen
  ne_operator : ∀ op, k ≠ .operator op

/-- A kind that ends a block. -/
def Kind.EndsBlock (k : Kind) : Prop := k = .symbol .rightBrace ∨ k = .eof

lemma Kind.Closes.stops {k : Kind} (h : k.Closes) (min : Tier) : Stops min k :=
  fun op hop => absurd hop (h.ne_operator op)

lemma Kind.EndsBlock.closes {k : Kind} (h : k.EndsBlock) : k.Closes := by
  rcases h with rfl | rfl <;> exact ⟨by simp, by simp⟩

lemma Kind.EndsBlock.ne_semicolon {k : Kind} (h : k.EndsBlock) : k ≠ .symbol .semicolon := by
  rcases h with rfl | rfl <;> simp

/-! ### Tokens to complete with -/

/-- A token of a kind, as a text can have it. -/
def Token.sample (k : Kind) : Token :=
  let lexeme :=
    match k with
    | .number => "0"
    | .identifier => "x"
    | k => k.spelling?.getD ""
  ⟨lexeme, k, .point 0⟩

@[simp] lemma Token.kind_sample (k : Kind) : (Token.sample k).kind = k := rfl

lemma derives_number (next : Kind) :
    Derives .primary [.sample .number] next (Expr.int (Int64.ofInt 0)) := by
  have hdigits : ∀ d ∈ ['0'], d.isDigit := List.forall_mem_singleton.2 rfl
  exact .int rfl (.unsigned (List.cons_ne_nil _ _) hdigits)

lemma derives_sum_number (next : Kind) :
    Derives .sum [.sample .number] next (Expr.int (Int64.ofInt 0)) :=
  .summand (.factor (derives_number next))

lemma viable_primary (next : Kind) : Viable (Forms .primary next) [] :=
  ⟨[.sample .number], _, derives_number next⟩

lemma viable_stmt (next : Kind) : Viable (Forms .stmt next) [] :=
  ⟨[.sample (.symbol .semicolon)], _, .empty rfl⟩

/-! ### Whole phrases in front of another token -/

/-- No tokens are an expression only in front of a closing parenthesis. -/
lemma Derives.eq_rightParen {p : Phrase} {w : List Token} {next : Kind} {t : p.Tree}
    (h : Derives p w next t) (hp : p.IsExpr) (hw : w = []) : next = .symbol .rightParen := by
  induction h with
  | nothing => rfl
  | factor _ ih => exact ih hp hw
  | summand _ ih => exact ih hp hw
  | paren | call | var | int | times | plus => simp at hw
  | _ => exact hp.elim

/-- An expression can be completed in front of any token that does not make its last name a call. -/
lemma Derives.viable_expr {p : Phrase} {w : List Token} {k : Kind} {t : p.Tree}
    (h : Derives p w k t) (hp : p.IsExpr) (next : Kind) (hnext : next ≠ .symbol .leftParen) :
    Viable (Forms p next) w := by
  induction h with
  | paren ho inner hr => exact viable_of_accepts ⟨_, .paren ho inner hr⟩
  | nothing => exact viable_primary next
  | call hf ho inner hr => exact viable_of_accepts ⟨_, .call hf ho inner hr⟩
  | var hx => exact viable_of_accepts ⟨_, .var hx hnext⟩
  | int hd value => exact viable_of_accepts ⟨_, .int hd value⟩
  | factor _ ih =>
    obtain ⟨v, e, hd⟩ := ih hp
    exact ⟨v, e, .factor hd⟩
  | times hop hm left _ _ ih =>
    obtain ⟨v, e, hd⟩ := ih hp
    have hall := Derives.times hop hm left hd
    rw [← List.cons_append, ← List.append_assoc] at hall
    exact ⟨v, _, hall⟩
  | summand _ ih =>
    obtain ⟨v, e, hd⟩ := ih hp
    exact ⟨v, e, .summand hd⟩
  | plus hop hm left _ _ ih =>
    obtain ⟨v, e, hd⟩ := ih hp
    have hall := Derives.plus hop hm left hd
    rw [← List.cons_append, ← List.append_assoc] at hall
    exact ⟨v, _, hall⟩
  | _ => exact hp.elim

lemma Derives.viable_args {w : List Token} {k : Kind} {es : List Expr}
    (h : Derives .args w k es) : Viable (Forms .args (.symbol .rightParen)) w := by
  induction es generalizing w with
  | nil =>
    cases h
    exact viable_of_accepts ⟨_, .noArgs⟩
  | cons e es ih =>
    cases h with
    | lastArg hw arg =>
      obtain ⟨v, e', hd⟩ := arg.viable_expr trivial (.symbol .rightParen) (by simp)
      refine ⟨v, [e'], .lastArg ?_ hd⟩
      -- An argument has a first token, since it does not stand at the closing parenthesis.
      cases w with
      | nil => exact absurd (arg.eq_rightParen trivial rfl) hw
      | cons t w => exact hw
    | moreArgs hw arg hm others =>
      obtain ⟨v, es', hd⟩ := ih others
      refine ⟨v, e :: es', ?_⟩
      rw [List.append_assoc]
      exact .moreArgs hw arg hm hd

lemma Derives.viable_params {w : List Token} {k : Kind} {ps : List Param}
    (h : Derives .params w k ps) : Forms .params (.symbol .rightParen) w := by
  induction ps generalizing w with
  | nil =>
    cases h
    exact ⟨_, .noParams⟩
  | cons p ps ih =>
    cases h with
    | lastParam ht hx => exact ⟨_, .lastParam ht hx⟩
    | moreParams ht hx hm others =>
      obtain ⟨ps', hd⟩ := ih others
      exact ⟨_, .moreParams ht hx hm hd⟩

/-- A statement can be completed at the end of a block. -/
lemma Derives.viable_stmt {w : List Token} {k : Kind} {s : Stmt} (h : Derives .stmt w k s)
    (next : Kind) (hnext : next.EndsBlock) : Viable (Forms .stmt next) w := by
  cases h with
  | function hk hx ho params hr hb body hl =>
    exact viable_of_accepts ⟨_, .function hk hx ho params hr hb body hl⟩
  | ret hk value hl => exact viable_of_accepts ⟨_, .ret hk value hl⟩
  | cond hk condition hb body hl => exact viable_of_accepts ⟨_, .cond hk condition hb body hl⟩
  | expr hw value hl => exact viable_of_accepts ⟨_, .expr hw value hl⟩
  | bindEnded hk hx hq init hl => exact viable_of_accepts ⟨_, .bindEnded hk hx hq init hl⟩
  | bindOpen hk hx hq init =>
    obtain ⟨v, e, hd⟩ := init.viable_expr trivial next hnext.closes.ne_paren
    exact ⟨v, _, .bindOpen hk hx hq hd hnext.ne_semicolon⟩
  | empty hm => exact viable_of_accepts ⟨_, .empty hm⟩

lemma Forms.block_of_stmt {w : List Token} {next : Kind} (h : Forms .stmt next w) :
    Forms .block next w := by
  obtain ⟨s, hd⟩ := h
  rw [← List.append_nil w]
  exact ⟨[s], .cons hd .nil⟩

lemma Viable.block_of_stmt {w : List Token} {next : Kind} (h : Viable (Forms .stmt next) w) :
    Viable (Forms .block next) w := by
  obtain ⟨v, hv⟩ := h
  exact ⟨v, hv.block_of_stmt⟩

/-- A block can be completed in front of another end. -/
lemma Derives.viable_block {w : List Token} {k : Kind} {ss : Block} (h : Derives .block w k ss)
    (next : Kind) (hnext : next.EndsBlock) : Viable (Forms .block next) w := by
  induction ss generalizing w with
  | nil =>
    cases h
    exact viable_of_accepts ⟨_, .nil⟩
  | cons s ss ih =>
    cases h with
    | @cons u x _ _ _ first others =>
      cases x with
      | nil =>
        -- only the last statement stands in front of the end
        rw [List.append_nil]
        exact (first.viable_stmt next hnext).block_of_stmt
      | cons t x =>
        obtain ⟨v, ss', hd⟩ := ih others
        refine ⟨v, s :: ss', ?_⟩
        rw [List.append_assoc]
        exact .cons first hd

/-! ### No sentinel stands in a phrase -/

def SentinelFree (w : List Token) : Prop := ∀ t ∈ w, t.kind ≠ .eof

@[simp] lemma sentinelFree_nil : SentinelFree [] := fun _ h => by cases h

@[simp] lemma sentinelFree_cons {t : Token} {w : List Token} :
    SentinelFree (t :: w) ↔ t.kind ≠ .eof ∧ SentinelFree w := List.forall_mem_cons

@[simp] lemma sentinelFree_append {w v : List Token} :
    SentinelFree (w ++ v) ↔ SentinelFree w ∧ SentinelFree v := List.forall_mem_append

lemma Derives.sentinelFree {p : Phrase} {w : List Token} {next : Kind} {t : p.Tree}
    (h : Derives p w next t) : SentinelFree w := by
  induction h with
  | paren ho _ hr ih => simp [ho, hr, ih]
  | nothing => exact sentinelFree_nil
  | call hf ho _ hr ih => simp [hf, ho, hr, ih]
  | var hx => simp [hx]
  | int hd => simp [hd]
  | factor _ ih => exact ih
  | times _ hm _ _ ihl ihr => simp [hm, ihl, ihr]
  | summand _ ih => exact ih
  | plus _ hm _ _ ihl ihr => simp [hm, ihl, ihr]
  | noArgs => exact sentinelFree_nil
  | lastArg _ _ ih => exact ih
  | moreArgs _ _ hm _ ih ihs => simp [hm, ih, ihs]
  | noParams => exact sentinelFree_nil
  | lastParam ht hx => simp [ht, hx]
  | moreParams ht hx hm _ ih => simp [ht, hx, hm, ih]
  | function hk hx ho _ hr hb _ hl ihp ihb => simp [hk, hx, ho, hr, hb, hl, ihp, ihb]
  | ret hk _ hl ih => simp [hk, hl, ih]
  | cond hk _ hb _ hl ihc ihb => simp [hk, hb, hl, ihc, ihb]
  | expr _ _ hl ih => simp [hl, ih]
  | bindEnded hk hx hq _ hl ih => simp [hk, hx, hq, hl, ih]
  | bindOpen hk hx hq _ _ ih => simp [hk, hx, hq, ih]
  | empty hm => simp [hm]
  | nil => exact sentinelFree_nil
  | cons _ _ ih ihs => exact sentinelFree_append.2 ⟨ih, ihs⟩

end Flame
