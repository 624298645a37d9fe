import Flame.Proofs.ParserSound

/-!
Completeness of the parser: what the grammar derives is read, and read to its end. With soundness
this makes the parser decide the grammar, and the tree that tokens derive unique.
-/

namespace Flame

open Reading

/-- How the readers behave on a phrase between two cursors that derives a tree. Terms and sums are
read up to the point where climbing would look at the next operator. -/
def Phrase.IsRead (c c' : Cursor) : (p : Phrase) → p.Tree → Prop
  | primary, e => (readPrimary c).upto = .ok (e, c')
  | term, e => ∀ min : Tier, min ≤ .multiplicative →
      (readExpr min c).upto = (readOperators min e c').upto
  | sum, e => Stops .multiplicative c'.kind → ∀ min : Tier, min ≤ .additive →
      (readExpr min c).upto = (readOperators min e c').upto
  | args, es => c'.kind = .symbol .rightParen → (readArgs c).upto = .ok (es, c')
  | params, ps => c'.kind = .symbol .rightParen → (readParams c).upto = .ok (ps, c')
  | stmt, s => (∀ op, c'.kind ≠ .operator op) → (readStmt c).below = .ok (s, c')
  | block, ss => c'.kind = .symbol .rightBrace ∨ c'.kind = .eof →
      (readBlock c).upto = .ok (ss, c')

lemma stops_of_ne_operator {min : Tier} {k : Kind} (h : ∀ op, k ≠ .operator op) : Stops min k :=
  fun op hop => absurd hop (h op)

lemma stops_unary (k : Kind) : Stops .unary k := by
  rintro op -
  cases op <;> decide

/-! ### Expressions -/

section Steps

variable {c c₁ c₂ c₃ c₄ c' : Cursor}

/-- A whole expression is read if no operator follows it. -/
lemma Phrase.IsRead.expr {e : Expr} (h : Phrase.IsRead c c' .sum e)
    (hk : ∀ op, c'.kind ≠ .operator op) : (readExpr .lowest c).upto = .ok (e, c') := by
  rw [h (stops_of_ne_operator hk) .lowest (by decide)]
  exact readOperators_stop (stops_of_ne_operator hk) e

/-- Climbing takes an operator if its right operand can be read on its own. -/
lemma readOperators_step {min : Tier} {op : Operator} {m : Token} {l r : Expr}
    (hmin : min ≤ op.tier) (hm : m.kind = .operator op) (hp : c.Passes [m] c₁)
    (hr : (readExpr op.tier.tighter c₁).upto = .ok (r, c')) :
    (readOperators min l c).upto = (readOperators min (.binary op l r) c').upto := by
  have hk : c.kind = .operator op := by rw [hp.kind, firstKind_cons, hm]
  rw [readOperators_more hk hmin, Cursor.take_eq_ok_iff.2 hp, Except.bind, hr, Except.bind]

lemma readExpr_unary {e : Expr} (h : (readPrimary c).upto = .ok (e, c')) :
    (readExpr .unary c).upto = .ok (e, c') := by
  rw [readExpr_upto, h, Except.bind]
  exact readOperators_stop (stops_unary _) e

lemma readExpr_times {min : Tier} {op : Operator} {m : Token} {l r : Expr}
    (hop : op = .mul ∨ op = .div) (hm : m.kind = .operator op) (hmin : min ≤ .multiplicative)
    (left : (readExpr min c).upto = (readOperators min l c₁).upto) (hp : c₁.Passes [m] c₂)
    (right : (readPrimary c₂).upto = .ok (r, c')) :
    (readExpr min c).upto = (readOperators min (.binary op l r) c').upto := by
  have ht : op.tier = .multiplicative := by rcases hop with rfl | rfl <;> rfl
  rw [left]
  refine readOperators_step (by rwa [ht]) hm hp ?_
  rw [ht]
  exact readExpr_unary right

lemma readExpr_plus {min : Tier} {op : Operator} {m : Token} {l r : Expr}
    (hop : op = .add ∨ op = .sub) (hm : m.kind = .operator op) (hmin : min ≤ .additive)
    (left : (readExpr min c).upto = (readOperators min l c₁).upto) (hp : c₁.Passes [m] c₂)
    (right : Phrase.IsRead c₂ c' .term r) (hs : Stops .multiplicative c'.kind) :
    (readExpr min c).upto = (readOperators min (.binary op l r) c').upto := by
  have ht : op.tier = .additive := by rcases hop with rfl | rfl <;> rfl
  rw [left]
  refine readOperators_step (by rwa [ht]) hm hp ?_
  rw [ht]
  exact (right .multiplicative (by decide)).trans (readOperators_stop hs r)

lemma readPrimary_of_paren {o r : Token} {e : Expr} (ho : o.kind = .symbol .leftParen)
    (h₁ : c.Passes [o] c₁) (he : Phrase.IsRead c₁ c₂ .sum e) (h₂ : c₂.Passes [r] c')
    (hr : r.kind = .symbol .rightParen) : (readPrimary c).upto = .ok (e, c') := by
  have hinner := he.expr (by simp [h₂.kind_eq hr])
  simp only [readPrimary_paren (h₁.kind_eq ho), bind_eq_ok_iff]
  exact ⟨_, Cursor.take_eq_ok_iff.2 h₁, _, hinner, _, Cursor.require_eq_ok_iff.2 ⟨h₂, hr⟩, rfl⟩

lemma readPrimary_of_call {f o r : Token} {es : List Expr} (hf : f.kind = .identifier)
    (h₁ : c.Passes [f] c₁) (ho : o.kind = .symbol .leftParen) (h₂ : c₁.Passes [o] c₂)
    (ha : Phrase.IsRead c₂ c₃ .args es) (h₃ : c₃.Passes [r] c')
    (hr : r.kind = .symbol .rightParen) :
    (readPrimary c).upto = .ok (.call f.lexeme es, c') := by
  have hn : c.nextKind = .symbol .leftParen := by
    rw [h₁.nextKind, firstKind_nil, h₂.kind_eq ho]
  simp only [readPrimary_call (h₁.kind_eq hf) hn, bind_eq_ok_iff]
  exact ⟨_, Cursor.require_eq_ok_iff.2 ⟨h₁, hf⟩, _, Cursor.require_eq_ok_iff.2 ⟨h₂, ho⟩,
    _, ha (h₃.kind_eq hr), _, Cursor.require_eq_ok_iff.2 ⟨h₃, hr⟩, rfl⟩

lemma readArgs_of_last {e : Expr} (hk : c.kind ≠ .symbol .rightParen)
    (he : Phrase.IsRead c c' .sum e) (hclose : c'.kind = .symbol .rightParen) :
    (readArgs c).upto = .ok ([e], c') := by
  have hcomma : c'.kind ≠ .symbol .comma := by simp [hclose]
  rw [readArgs_upto, if_neg hk, he.expr (by simp [hclose]), Except.bind]
  simp only [Cursor.expect?_of_kind_ne hcomma]

lemma readArgs_of_more {m : Token} {e : Expr} {es : List Expr}
    (hk : c.kind ≠ .symbol .rightParen) (he : Phrase.IsRead c c₁ .sum e)
    (hm : m.kind = .symbol .comma) (h₁ : c₁.Passes [m] c₂)
    (hes : (readArgs c₂).upto = .ok (es, c')) : (readArgs c).upto = .ok (e :: es, c') := by
  rw [readArgs_upto, if_neg hk, he.expr (by simp [h₁.kind_eq hm]), Except.bind]
  simp only [Cursor.expect?_of_passes h₁ hm, hes, Except.bind]

/-! ### Statements -/

lemma readParams_of_last {t x : Token} (ht : t.kind = .identifier) (h₁ : c.Passes [t] c₁)
    (hx : x.kind = .identifier) (h₂ : c₁.Passes [x] c') (hclose : c'.kind = .symbol .rightParen) :
    (readParams c).upto = .ok ([⟨⟨t.lexeme⟩, x.lexeme⟩], c') := by
  have hcomma : c'.kind ≠ .symbol .comma := by simp [hclose]
  rw [readParams_upto, if_pos (h₁.kind_eq ht), Cursor.require_eq_ok_iff.2 ⟨h₁, ht⟩, Except.bind,
    Cursor.require_eq_ok_iff.2 ⟨h₂, hx⟩, Except.bind]
  simp only [Cursor.expect?_of_kind_ne hcomma]

lemma readParams_of_more {t x m : Token} {ps : List Param} (ht : t.kind = .identifier)
    (h₁ : c.Passes [t] c₁) (hx : x.kind = .identifier) (h₂ : c₁.Passes [x] c₂)
    (hm : m.kind = .symbol .comma) (h₃ : c₂.Passes [m] c₃)
    (hps : (readParams c₃).upto = .ok (ps, c')) :
    (readParams c).upto = .ok (⟨⟨t.lexeme⟩, x.lexeme⟩ :: ps, c') := by
  rw [readParams_upto, if_pos (h₁.kind_eq ht), Cursor.require_eq_ok_iff.2 ⟨h₁, ht⟩, Except.bind,
    Cursor.require_eq_ok_iff.2 ⟨h₂, hx⟩, Except.bind]
  simp only [Cursor.expect?_of_passes h₃ hm, hps, Except.bind]

lemma readStmt_of_function {k x o r b l : Token} {w v : List Token} {ps : List Param} {ss : Block}
    (hk : k.kind = .keyword .funcWord) (hx : x.kind = .identifier)
    (ho : o.kind = .symbol .leftParen) (hr : r.kind = .symbol .rightParen)
    (hb : b.kind = .symbol .leftBrace) (hl : l.kind = .symbol .rightBrace)
    (hp : c.Passes (k :: x :: o :: (w ++ r :: b :: (v ++ [l]))) c')
    (hps : ∀ {c c'}, c.Passes w c' → c'.kind = .symbol .rightParen →
      Phrase.IsRead c c' .params ps)
    (hss : ∀ {c c'}, c.Passes v c' → c'.kind = .symbol .rightBrace →
      Phrase.IsRead c c' .block ss) :
    (readStmt c).below = .ok (.function x.lexeme ps ss, c') := by
  obtain ⟨c₁, h₁, hp⟩ := hp.split_cons
  obtain ⟨c₂, h₂, hp⟩ := hp.split_cons
  obtain ⟨c₃, h₃, hp⟩ := hp.split_cons
  obtain ⟨c₄, h₄, hp⟩ := hp.split
  obtain ⟨c₅, h₅, hp⟩ := hp.split_cons
  obtain ⟨c₆, h₆, hp⟩ := hp.split_cons
  obtain ⟨c₇, h₇, h₈⟩ := hp.split
  have hparams := hps h₄ (h₅.kind_eq hr) (h₅.kind_eq hr)
  have hbody := hss h₇ (h₈.kind_eq hl) (.inl (h₈.kind_eq hl))
  simp only [readStmt_function (h₁.kind_eq hk), bind_eq_ok_iff]
  exact ⟨_, Cursor.require_eq_ok_iff.2 ⟨h₁, hk⟩, _, Cursor.require_eq_ok_iff.2 ⟨h₂, hx⟩,
    _, Cursor.require_eq_ok_iff.2 ⟨h₃, ho⟩, _, hparams, _, Cursor.require_eq_ok_iff.2 ⟨h₅, hr⟩,
    _, Cursor.require_eq_ok_iff.2 ⟨h₆, hb⟩, _, hbody, _, Cursor.require_eq_ok_iff.2 ⟨h₈, hl⟩, rfl⟩

lemma readStmt_of_cond {k b l : Token} {e : Expr} {ss : Block} (hk : k.kind = .keyword .ifWord)
    (h₁ : c.Passes [k] c₁) (he : Phrase.IsRead c₁ c₂ .sum e) (hb : b.kind = .symbol .leftBrace)
    (h₂ : c₂.Passes [b] c₃) (hss : Phrase.IsRead c₃ c₄ .block ss)
    (hl : l.kind = .symbol .rightBrace) (h₃ : c₄.Passes [l] c') :
    (readStmt c).below = .ok (.cond e ss, c') := by
  have hcond := he.expr (by simp [h₂.kind_eq hb])
  have hbody := hss (.inl (h₃.kind_eq hl))
  simp only [readStmt_cond (h₁.kind_eq hk), bind_eq_ok_iff]
  exact ⟨_, Cursor.require_eq_ok_iff.2 ⟨h₁, hk⟩, _, hcond, _, Cursor.require_eq_ok_iff.2 ⟨h₂, hb⟩,
    _, hbody, _, Cursor.require_eq_ok_iff.2 ⟨h₃, hl⟩, rfl⟩

/-- A binding is read up to where the optional semicolon leaves the cursor. -/
lemma readStmt_of_bind {k x q : Token} {e : Expr} (hk : k.kind = .keyword .letWord)
    (h₁ : c.Passes [k] c₁) (hx : x.kind = .identifier) (h₂ : c₁.Passes [x] c₂)
    (hq : q.kind = .symbol .equals) (h₃ : c₂.Passes [q] c₃) (he : Phrase.IsRead c₃ c₄ .sum e)
    (hop : ∀ op, c₄.kind ≠ .operator op) :
    (readStmt c).below = .ok (.bind x.lexeme e, (c₄.expect? (.symbol .semicolon)).2) := by
  simp only [readStmt_bind (h₁.kind_eq hk), bind_eq_ok_iff]
  exact ⟨_, Cursor.require_eq_ok_iff.2 ⟨h₁, hk⟩, _, Cursor.require_eq_ok_iff.2 ⟨h₂, hx⟩,
    _, Cursor.require_eq_ok_iff.2 ⟨h₃, hq⟩, _, he.expr hop, rfl⟩

end Steps

/-- **Completeness**: tokens that derive a tree are read as that tree. -/
theorem Derives.isRead {p : Phrase} {w : List Token} {next : Kind} {t : p.Tree}
    (h : Derives p w next t) {c c' : Cursor} (hp : c.Passes w c') (hnext : c'.kind = next) :
    p.IsRead c c' t := by
  induction h generalizing c c' with
  | paren ho _ hr ih =>
    obtain ⟨c₁, h₁, hp⟩ := hp.split_cons
    obtain ⟨c₂, h₂, h₃⟩ := hp.split
    exact readPrimary_of_paren ho h₁ (ih h₂ (h₃.kind_eq hr)) h₃ hr
  | nothing =>
    obtain rfl := hp.unique (.refl c)
    exact readPrimary_nothing hnext
  | call hf ho _ hr ih =>
    obtain ⟨c₁, h₁, hp⟩ := hp.split_cons
    obtain ⟨c₂, h₂, hp⟩ := hp.split_cons
    obtain ⟨c₃, h₃, h₄⟩ := hp.split
    exact readPrimary_of_call hf h₁ ho h₂ (ih h₃ (h₄.kind_eq hr)) h₄ hr
  | var hx hn =>
    have hn : c.nextKind ≠ .symbol .leftParen := by rwa [hp.nextKind, firstKind_nil, hnext]
    simp only [Phrase.IsRead, readPrimary_var (hp.kind_eq hx) hn, bind_eq_ok_iff]
    exact ⟨_, Cursor.take_eq_ok_iff.2 hp, rfl⟩
  | int hd value =>
    simp only [Phrase.IsRead, readPrimary_number (hp.kind_eq hd), bind_eq_ok_iff]
    refine ⟨_, Cursor.take_eq_ok_iff.2 hp, ?_⟩
    simp only [readInt64?_eq_some_iff.2 value]
  | factor _ ih =>
    intro min _
    have h := ih hp hnext
    simp only [Phrase.IsRead] at h
    rw [readExpr_upto, h, Except.bind]
  | times hop hm _ _ ihl ihr =>
    obtain ⟨c₁, h₁, hp⟩ := hp.split
    obtain ⟨c₂, h₂, h₃⟩ := hp.split_cons
    intro min hmin
    exact readExpr_times hop hm hmin (ihl h₁ (h₂.kind_eq hm) min hmin) h₂ (ihr h₃ hnext)
  | summand _ ih =>
    intro _ min hmin
    exact ih hp hnext min (Nat.le_trans hmin (by decide))
  | plus hop hm _ _ ihl ihr =>
    obtain ⟨c₁, h₁, hp⟩ := hp.split
    obtain ⟨c₂, h₂, h₃⟩ := hp.split_cons
    intro hs min hmin
    have hk₁ := h₂.kind_eq hm
    refine readExpr_plus hop hm hmin (ihl h₁ hk₁ ?_ min hmin) h₂ (ihr h₃ hnext) hs
    -- the left operand stands in front of `+` or `-`
    rw [hk₁]
    intro op' hop'
    obtain rfl := Kind.operator.inj hop'
    rcases hop with rfl | rfl <;> decide
  | noArgs =>
    intro hclose
    obtain rfl := hp.unique (.refl c)
    rw [readArgs_upto, if_pos hclose]
  | lastArg hw _ ih =>
    exact readArgs_of_last (by rwa [hp.kind, hnext]) (ih hp hnext)
  | moreArgs hw _ hm _ ih ihs =>
    intro hclose
    obtain ⟨c₁, h₁, hp⟩ := hp.split
    obtain ⟨c₂, h₂, h₃⟩ := hp.split_cons
    have hk₁ := h₂.kind_eq hm
    exact readArgs_of_more (by rwa [h₁.kind, hk₁]) (ih h₁ hk₁) hm h₂ (ihs h₃ hnext hclose)
  | noParams =>
    intro hclose
    obtain rfl := hp.unique (.refl c)
    rw [readParams_upto, if_neg (by simp [hclose])]
  | lastParam ht hx =>
    obtain ⟨c₁, h₁, h₂⟩ := hp.split_cons
    exact readParams_of_last ht h₁ hx h₂
  | moreParams ht hx hm _ ih =>
    intro hclose
    obtain ⟨c₁, h₁, hp⟩ := hp.split_cons
    obtain ⟨c₂, h₂, hp⟩ := hp.split_cons
    obtain ⟨c₃, h₃, h₄⟩ := hp.split_cons
    exact readParams_of_more ht h₁ hx h₂ hm h₃ (ih h₄ hnext hclose)
  | function hk hx ho _ hr hb _ hl ihp ihb =>
    exact fun _ => readStmt_of_function hk hx ho hr hb hl hp ihp ihb
  | ret hk _ hl ih =>
    intro _
    obtain ⟨c₁, h₁, hp⟩ := hp.split_cons
    obtain ⟨c₂, h₂, h₃⟩ := hp.split
    have hvalue := (ih h₂ (h₃.kind_eq hl)).expr (by simp [h₃.kind_eq hl])
    simp only [readStmt_ret (h₁.kind_eq hk), bind_eq_ok_iff]
    exact ⟨_, Cursor.require_eq_ok_iff.2 ⟨h₁, hk⟩, _, hvalue,
      _, Cursor.require_eq_ok_iff.2 ⟨h₃, hl⟩, rfl⟩
  | cond hk _ hb _ hl ihc ihb =>
    intro _
    obtain ⟨c₁, h₁, hp⟩ := hp.split_cons
    obtain ⟨c₂, h₂, hp⟩ := hp.split
    obtain ⟨c₃, h₃, hp⟩ := hp.split_cons
    obtain ⟨c₄, h₄, h₅⟩ := hp.split
    exact readStmt_of_cond hk h₁ (ihc h₂ (h₃.kind_eq hb)) hb h₃ (ihb h₄ (h₅.kind_eq hl)) hl h₅
  | expr hw _ hl ih =>
    intro _
    obtain ⟨c₁, h₁, h₂⟩ := hp.split
    have hk₁ := h₂.kind_eq hl
    have hvalue := (ih h₁ hk₁).expr (by simp [hk₁])
    have hopens : opensExpr c.kind := by
      rw [h₁.kind, hk₁]
      simp only [List.mem_cons, List.not_mem_nil, or_false] at hw
      rcases hw with hw | hw | hw <;> simp [opensExpr, hw]
    simp only [readStmt_expr hopens, bind_eq_ok_iff]
    exact ⟨_, hvalue, _, Cursor.require_eq_ok_iff.2 ⟨h₂, hl⟩, rfl⟩
  | bindEnded hk hx hq _ hl ih =>
    intro _
    obtain ⟨c₁, h₁, hp⟩ := hp.split_cons
    obtain ⟨c₂, h₂, hp⟩ := hp.split_cons
    obtain ⟨c₃, h₃, hp⟩ := hp.split_cons
    obtain ⟨c₄, h₄, h₅⟩ := hp.split
    have hk₄ := h₅.kind_eq hl
    have h := readStmt_of_bind hk h₁ hx h₂ hq h₃ (ih h₄ hk₄) (by simp [hk₄])
    rwa [Cursor.expect?_of_passes h₅ hl] at h
  | bindOpen hk hx hq _ hn ih =>
    intro hop
    obtain ⟨c₁, h₁, hp⟩ := hp.split_cons
    obtain ⟨c₂, h₂, hp⟩ := hp.split_cons
    obtain ⟨c₃, h₃, h₄⟩ := hp.split_cons
    have h := readStmt_of_bind hk h₁ hx h₂ hq h₃ (ih h₄ hnext) hop
    rwa [Cursor.expect?_of_kind_ne (by rwa [hnext])] at h
  | empty hm =>
    intro _
    simp only [readStmt_empty (hp.kind_eq hm), bind_eq_ok_iff]
    exact ⟨_, Cursor.take_eq_ok_iff.2 hp, rfl⟩
  | nil =>
    intro hend
    obtain rfl := hp.unique (.refl c)
    rw [readBlock_upto, if_pos hend]
  | @cons w v next s ss first others ih ihs =>
    intro hend
    obtain ⟨c₁, h₁, h₂⟩ := hp.split
    have hk₁ : c₁.kind = firstKind v next := by rw [h₂.kind, hnext]
    have hstart := first.firstKind_stmt c₁.kind
    rw [← h₁.kind] at hstart
    -- A statement is followed by another one, or by the end of the block: by no operator.
    have hop : ∀ op, c₁.kind ≠ .operator op := by
      intro op
      rw [hk₁]
      rcases others.firstKind_block with h | h
      · rw [h, ← hnext]
        rcases hend with hend | hend <;> simp [hend]
      · exact ne_operator_of_mem_opensStmt h op
    have hstmt := ih h₁ hk₁ hop
    have hblock := ihs h₂ hnext hend
    rw [readBlock_upto, if_neg, hstmt, Except.bind, hblock, Except.bind]
    rintro (h | h) <;> simp [h, opensStmt] at hstart

/-! ### Programs -/

namespace TokenStream

variable {ts : TokenStream} {program : Block}

/-- A program is cut out of its stream by derived tokens that a closing brace or the end follows. -/
lemma derivesProgram_of_derives {w rest : List Token} (hbody : ts.body = w ++ rest)
    (hend : rest = [] ∨ firstKind rest .eof = .symbol .rightBrace)
    (h : Derives .block w (firstKind rest .eof) program) : ts.DerivesProgram program := by
  have hrest : beforeUnmatched 0 rest = [] := by
    rcases hend with rfl | hend
    · rfl
    · exact beforeUnmatched_closed hend
  have htokens : ts.programTokens = w := by
    rw [programTokens, hbody, h.beforeUnmatched_append, hrest, List.append_nil]
  rw [DerivesProgram, programEnd, htokens, hbody, List.drop_left]
  exact h

lemma derivesProgram_of_parse (h : ts.parse.result = .ok program) : ts.DerivesProgram program := by
  obtain ⟨c, hc⟩ := (parse_eq_ok_iff ts program).1 h
  obtain ⟨w, hp, hd, hend⟩ := readBlock_sound hc
  have hbody : ts.body = w ++ c.ahead := hp.ahead
  rw [c.kind_eq_firstKind] at hd hend
  refine derivesProgram_of_derives hbody ?_ hd
  rcases hend with hend | hend
  · exact .inr hend
  · -- no token of the stream is a sentinel, so nothing is left
    cases hahead : c.ahead with
    | nil => exact .inl rfl
    | cons t rest =>
      rw [hahead] at hend
      refine absurd hend (ts.body_ne_eof t ?_)
      rw [hbody, hahead]
      exact List.mem_append_right w List.mem_cons_self

lemma parse_of_derivesProgram (h : ts.DerivesProgram program) : ts.parse.result = .ok program := by
  obtain ⟨rest, hbody, hend⟩ := beforeUnmatched_rest 0 ts.body
  have hp : (Cursor.start ts).Passes ts.programTokens _ := Cursor.passes_of_ahead hbody
  have hdrop : (ts.programTokens ++ rest).drop ts.programTokens.length = rest := List.drop_left
  rw [programTokens, ← hbody] at hdrop
  rw [DerivesProgram, programEnd, programTokens, hdrop] at h
  refine (parse_eq_ok_iff ts program).2 ⟨_, h.isRead hp (Cursor.kind_eq_firstKind _) ?_⟩
  rw [Cursor.kind_eq_firstKind]
  rcases hend with rfl | hend
  · exact .inr rfl
  · exact .inl hend

/-- **The parser decides the grammar**: it accepts a stream exactly if the tokens of its program
derive a program, and then gives the only program that they derive. -/
theorem parse_iff_derivesProgram (ts : TokenStream) :
    (∀ program, ts.parse.result = .ok program ↔ ts.DerivesProgram program) ∧
      ∀ p q, ts.DerivesProgram p → ts.DerivesProgram q → p = q := by
  refine ⟨fun program => ⟨derivesProgram_of_parse, parse_of_derivesProgram⟩, fun p q hp hq => ?_⟩
  have h := (parse_of_derivesProgram hp).symm.trans (parse_of_derivesProgram hq)
  exact Except.ok.inj h

/-- What follows a closing brace that nothing opened is not read. -/
theorem parse_iff_derivesProgram_stray_brace :
    let ts := ofTokens [⟨";", .symbol .semicolon, ⟨0, 1⟩⟩, ⟨"\x7d", .symbol .rightBrace, ⟨1, 2⟩⟩,
      ⟨")", .symbol .rightParen, ⟨2, 3⟩⟩] 3
    ts.DerivesProgram [.empty ⟨0, 1⟩] ∧ ts.parse.result = .ok [.empty ⟨0, 1⟩] ∧
      ∀ q, ts.DerivesProgram q → q = [.empty ⟨0, 1⟩] := by
  intro ts
  have hd : ts.DerivesProgram [.empty ⟨0, 1⟩] :=
    Derives.cons (w := [⟨";", .symbol .semicolon, ⟨0, 1⟩⟩]) (v := []) (.empty rfl) .nil
  obtain ⟨hiff, hunique⟩ := parse_iff_derivesProgram ts
  exact ⟨hd, (hiff _).2 hd, fun q hq => hunique q _ hq hd⟩

end TokenStream

end Flame
