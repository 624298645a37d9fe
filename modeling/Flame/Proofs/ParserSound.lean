import Flame.Proofs.Grammar

/-!
Soundness of the parser: what is read derives from the tokens that were passed.

Precedence climbing keeps an invariant on the tokens it has passed: what it holds is a primary, a
term or a sum, as far as the tier it started from allows, and a sum is never held in front of an
operator that would have bound its last term first.
-/

namespace Flame

open Reading

/-- What precedence climbing from the tier `min` holds after the tokens `w`, in front of a token
of kind `k`. -/
inductive Climbed (min : Tier) (w : List Token) (k : Kind) (e : Expr) : Prop
  | primary (h : Derives .primary w k e)
  | term (hmin : min ≤ .multiplicative) (h : Derives .term w k e)
  | sum (hmin : min ≤ .additive) (hk : Stops .multiplicative k) (h : Derives .sum w k e)

namespace Climbed

variable {min : Tier} {w v : List Token} {k : Kind} {e l r : Expr}

lemma derives_sum (h : Climbed min w k e) : Derives .sum w k e := by
  cases h with
  | primary h => exact .summand (.factor h)
  | term _ h => exact .summand h
  | sum _ _ h => exact h

lemma derives_term (h : Climbed .multiplicative w k e) : Derives .term w k e := by
  cases h with
  | primary h => exact .factor h
  | term _ h => exact h
  | sum hmin => exact absurd hmin (by decide)

lemma derives_primary (h : Climbed .unary w k e) : Derives .primary w k e := by
  cases h with
  | primary h => exact h
  | term hmin => exact absurd hmin (by decide)
  | sum hmin => exact absurd hmin (by decide)

/-- A step of the climb: an operator that binds tightly enough, and its right operand. -/
lemma step {op : Operator} {m : Token} (hmin : min ≤ op.tier) (hm : m.kind = .operator op)
    (left : Climbed min w (.operator op) l) (right : Climbed op.tier.tighter v k r)
    (hk : Stops op.tier.tighter k) : Climbed min (w ++ m :: v) k (.binary op l r) := by
  have hop : (op = .mul ∨ op = .div) ∨ (op = .add ∨ op = .sub) := by cases op <;> simp
  rcases hop with hop | hop
  · -- the right operand is a primary, and the left one a term
    have ht : op.tier = .multiplicative := by rcases hop with rfl | rfl <;> rfl
    rw [ht] at hmin right
    refine .term hmin (.times hop hm ?_ right.derives_primary)
    cases left with
    | primary h => exact .factor h
    | term _ h => exact h
    | sum _ hs => exact absurd (show Tier.multiplicative ≤ op.tier by rw [ht]; decide) (hs op rfl)
  · -- the right operand is a term, which goes as far as it can
    have ht : op.tier = .additive := by rcases hop with rfl | rfl <;> rfl
    rw [ht] at hmin right hk
    exact .sum hmin hk (.plus hop hm left.derives_sum right.derives_term)

end Climbed

/-! ### Expressions -/

/-- What reading an expression from the tier `min` passes derives what is read. -/
def ExprSound (min : Tier) (c : Cursor) : Prop :=
  ∀ e c', (readExpr min c).upto = .ok (e, c') →
    ∃ w, c.Passes w c' ∧ Climbed min w c'.kind e ∧ Stops min c'.kind

/-- The invariant of climbing: reading on from a climbed expression climbs further. -/
def OperatorsSound (min : Tier) (l : Expr) (c : Cursor) : Prop :=
  ∀ w e c', Climbed min w c.kind l → (readOperators min l c).upto = .ok (e, c') →
    ∃ v, c.Passes v c' ∧ Climbed min (w ++ v) c'.kind e ∧ Stops min c'.kind

def PrimarySound (c : Cursor) : Prop :=
  ∀ e c', (readPrimary c).upto = .ok (e, c') →
    ∃ w, c.Passes w c' ∧ Derives .primary w c'.kind e

def ArgsSound (c : Cursor) : Prop :=
  ∀ es c', (readArgs c).upto = .ok (es, c') → ∃ w, c.Passes w c' ∧ Derives .args w c'.kind es

section Steps

variable {min : Tier} {l : Expr} {c : Cursor}

lemma ExprSound.mk (hp : PrimarySound c)
    (ho : ∀ first : Upto Expr c.left, OperatorsSound min first.value first.rest) :
    ExprSound min c := by
  intro e c' h
  rw [readExpr_upto, bind_eq_ok_iff] at h
  obtain ⟨p, h₁, h₂⟩ := h
  obtain ⟨first, rfl⟩ := exists_upto h₁
  obtain ⟨w, hw, hd⟩ := hp _ _ h₁
  obtain ⟨v, hv, hc, hs⟩ := ho first w e c' (.primary hd) h₂
  exact ⟨w ++ v, hw.trans hv, hc, hs⟩

lemma OperatorsSound.stop (hs : Stops min c.kind) : OperatorsSound min l c := by
  intro w e c' hl h
  rw [readOperators_stop hs] at h
  obtain ⟨rfl, rfl⟩ := Prod.mk.inj (Except.ok.inj h)
  exact ⟨[], .refl c, by rwa [List.append_nil], hs⟩

lemma OperatorsSound.more {op : Operator} (hk : c.kind = .operator op) (hmin : min ≤ op.tier)
    (hr : ∀ mark : Below Token c.left, ExprSound op.tier.tighter mark.rest)
    (ho : ∀ (mark : Below Token c.left) (right : Upto Expr mark.rest.left),
      OperatorsSound min (.binary op l right.value) right.rest) : OperatorsSound min l c := by
  intro w e c' hl h
  rw [readOperators_more hk hmin] at h
  simp only [bind_eq_ok_iff] at h
  obtain ⟨m, hm, r, h₁, h₂⟩ := h
  obtain ⟨mark, rfl⟩ := exists_below hm
  obtain ⟨right, rfl⟩ := exists_upto h₁
  have hmark := Cursor.take_eq_ok_iff.1 hm
  have hop : mark.value.kind = .operator op := hmark.kind.symm.trans hk
  obtain ⟨v, hv, hc, hs⟩ := hr mark _ _ h₁
  rw [hk] at hl
  obtain ⟨u, hu, hcu, hsu⟩ := ho mark right _ _ _ (Climbed.step hmin hop hl hc hs) h₂
  refine ⟨mark.value :: (v ++ u), hmark.trans (hv.trans hu), ?_, hsu⟩
  rwa [← List.cons_append, ← List.append_assoc]

lemma PrimarySound.paren (hk : c.kind = .symbol .leftParen)
    (he : ∀ opening : Below Token c.left, ExprSound .lowest opening.rest) : PrimarySound c := by
  intro e c' h
  simp only [readPrimary_paren hk, bind_eq_ok_iff] at h
  obtain ⟨o, ho, e₁, h₁, r, hr, heq⟩ := h
  obtain ⟨rfl, rfl⟩ := Prod.mk.inj (Except.ok.inj heq)
  obtain ⟨opening, rfl⟩ := exists_below ho
  have ho := Cursor.take_eq_ok_iff.1 ho
  obtain ⟨hr, hrk⟩ := Cursor.require_eq_ok_iff.1 hr
  obtain ⟨w, hw, hc, -⟩ := he opening _ _ h₁
  have hd := hc.derives_sum
  rw [hr.kind, firstKind_cons, hrk] at hd
  exact ⟨_, ho.trans (hw.trans hr), .paren (ho.kind.symm.trans hk) hd hrk⟩

lemma PrimarySound.nothing (hk : c.kind = .symbol .rightParen) : PrimarySound c := by
  intro e c' h
  rw [readPrimary_nothing hk] at h
  obtain ⟨rfl, rfl⟩ := Prod.mk.inj (Except.ok.inj h)
  exact ⟨[], .refl c, by rw [hk]; exact .nothing⟩

lemma PrimarySound.call (hk : c.kind = .identifier) (hn : c.nextKind = .symbol .leftParen)
    (ha : ∀ (callee : Below Token c.left) (opening : Below Token callee.rest.left),
      ArgsSound opening.rest) : PrimarySound c := by
  intro e c' h
  simp only [readPrimary_call hk hn, bind_eq_ok_iff] at h
  obtain ⟨f, hf, o, ho, as, h₁, r, hr, heq⟩ := h
  obtain ⟨rfl, rfl⟩ := Prod.mk.inj (Except.ok.inj heq)
  obtain ⟨callee, rfl⟩ := exists_below hf
  obtain ⟨opening, rfl⟩ := exists_below ho
  obtain ⟨hf, hfk⟩ := Cursor.require_eq_ok_iff.1 hf
  obtain ⟨ho, hok⟩ := Cursor.require_eq_ok_iff.1 ho
  obtain ⟨hr, hrk⟩ := Cursor.require_eq_ok_iff.1 hr
  obtain ⟨w, hw, hd⟩ := ha callee opening _ _ h₁
  rw [hr.kind, firstKind_cons, hrk] at hd
  exact ⟨_, hf.trans (ho.trans (hw.trans hr)), .call hfk hok hd hrk⟩

lemma PrimarySound.var (hk : c.kind = .identifier) (hn : c.nextKind ≠ .symbol .leftParen) :
    PrimarySound c := by
  intro e c' h
  simp only [readPrimary_var hk hn, bind_eq_ok_iff] at h
  obtain ⟨x, hx, heq⟩ := h
  obtain ⟨rfl, rfl⟩ := Prod.mk.inj (Except.ok.inj heq)
  have hx := Cursor.take_eq_ok_iff.1 hx
  refine ⟨_, hx, .var (hx.kind.symm.trans hk) ?_⟩
  rwa [hx.nextKind] at hn

lemma PrimarySound.number (hk : c.kind = .number) : PrimarySound c := by
  intro e c' h
  simp only [readPrimary_number hk, bind_eq_ok_iff] at h
  obtain ⟨d, hd, heq⟩ := h
  have hd := Cursor.take_eq_ok_iff.1 hd
  cases hn : Text.readInt64? d.1.lexeme.toList with
  | none => simp [hn] at heq
  | some n =>
    simp only [hn] at heq
    obtain ⟨rfl, rfl⟩ := Prod.mk.inj (Except.ok.inj heq)
    exact ⟨_, hd, .int (hd.kind.symm.trans hk) (readInt64?_eq_some_iff.1 hn)⟩

lemma ArgsSound.close (hk : c.kind = .symbol .rightParen) : ArgsSound c := by
  intro es c' h
  rw [readArgs_upto, if_pos hk] at h
  obtain ⟨rfl, rfl⟩ := Prod.mk.inj (Except.ok.inj h)
  exact ⟨[], .refl c, .noArgs⟩

lemma ArgsSound.arg (hk : c.kind ≠ .symbol .rightParen) (he : ExprSound .lowest c)
    (ha : ∀ (arg : Upto Expr c.left) (comma : Below Token arg.rest.left), ArgsSound comma.rest) :
    ArgsSound c := by
  intro es c' h
  rw [readArgs_upto, if_neg hk] at h
  simp only [bind_eq_ok_iff] at h
  obtain ⟨a, h₁, h₂⟩ := h
  obtain ⟨w, hw, hc, -⟩ := he _ _ h₁
  have hd := hc.derives_sum
  obtain ⟨arg, rfl⟩ := exists_upto h₁
  rcases Cursor.accept?_cases arg.rest (.symbol .comma) with ⟨comma, -, hcomma⟩ | ⟨-, hcomma⟩
  · obtain ⟨hm, hmk⟩ := Cursor.passes_of_expect? hcomma
    simp only [hcomma, bind_eq_ok_iff] at h₂
    obtain ⟨as, h₃, heq⟩ := h₂
    obtain ⟨rfl, rfl⟩ := Prod.mk.inj (Except.ok.inj heq)
    obtain ⟨v, hv, hds⟩ := ha arg comma _ _ h₃
    rw [hm.kind, firstKind_cons, hmk] at hd
    rw [hw.kind, hm.kind, firstKind_cons, hmk] at hk
    exact ⟨_, hw.trans (hm.trans hv), .moreArgs hk hd hmk hds⟩
  · simp only [hcomma] at h₂
    obtain ⟨rfl, rfl⟩ := Prod.mk.inj (Except.ok.inj h₂)
    rw [hw.kind] at hk
    exact ⟨w, hw, .lastArg hk hd⟩

end Steps

lemma expr_sound :
    (∀ min c, ExprSound min c) ∧ (∀ min l c, OperatorsSound min l c) ∧
      (∀ c, PrimarySound c) ∧ ∀ c, ArgsSound c := by
  apply readExpr.mutual_induct
  · exact fun min c => ExprSound.mk
  · intro min l c hk
    refine .stop fun op hop => ?_
    rw [hop] at hk
    cases hk
  · exact fun min l c op hk => OperatorsSound.more (Operator.ofKind?_eq_some_iff.1 hk)
  · intro min l c op hk hmin
    refine .stop fun op' hop => ?_
    rw [hop] at hk
    obtain rfl := Option.some.inj hk
    exact hmin
  · exact fun c => PrimarySound.paren
  · exact fun c => PrimarySound.nothing
  · exact fun c => PrimarySound.call
  · exact fun c => PrimarySound.var
  · exact fun c => PrimarySound.number
  · intro c h₁ h₂ h₃ h₄ e c' h
    rw [readPrimary_other h₁ h₂ h₃ h₄] at h
    cases h
  · exact fun c hk => ArgsSound.close (by simpa [Cursor.check] using hk)
  · exact fun c hk => ArgsSound.arg (by simpa [Cursor.check] using hk)

lemma readExpr_sound {c c' : Cursor} {e : Expr} (h : (readExpr .lowest c).upto = .ok (e, c')) :
    ∃ w, c.Passes w c' ∧ Derives .sum w c'.kind e := by
  obtain ⟨w, hw, hc, -⟩ := expr_sound.1 .lowest c e c' h
  exact ⟨w, hw, hc.derives_sum⟩

/-- An expression and the token that has to follow it. -/
lemma readExpr_require_sound {c c' : Cursor} {k : Kind} {e : Expr × Cursor} {t : Token}
    (h : (readExpr .lowest c).upto = .ok e) (ht : (e.2.require k).below = .ok (t, c')) :
    ∃ w, c.Passes (w ++ [t]) c' ∧ Derives .sum w k e.1 ∧ t.kind = k := by
  obtain ⟨w, hw, hd⟩ := readExpr_sound h
  obtain ⟨ht, htk⟩ := Cursor.require_eq_ok_iff.1 ht
  rw [ht.kind, firstKind_cons, htk] at hd
  exact ⟨w, hw.trans ht, hd, htk⟩

/-! ### Statements -/

lemma readParams_sound {c c' : Cursor} {ps : List Param}
    (h : (readParams c).upto = .ok (ps, c')) :
    ∃ w, c.Passes w c' ∧ Derives .params w c'.kind ps := by
  induction c using readParams.induct generalizing ps c' with
  | case1 c hk ih =>
    rw [readParams_upto, if_pos (by simpa [Cursor.check] using hk)] at h
    simp only [bind_eq_ok_iff] at h
    obtain ⟨t, ht, x, hx, h₁⟩ := h
    obtain ⟨tag, rfl⟩ := exists_below ht
    obtain ⟨name, rfl⟩ := exists_below hx
    obtain ⟨ht, htk⟩ := Cursor.require_eq_ok_iff.1 ht
    obtain ⟨hx, hxk⟩ := Cursor.require_eq_ok_iff.1 hx
    rcases Cursor.accept?_cases name.rest (.symbol .comma) with ⟨comma, -, hcomma⟩ | ⟨-, hcomma⟩
    · obtain ⟨hm, hmk⟩ := Cursor.passes_of_expect? hcomma
      simp only [hcomma, bind_eq_ok_iff] at h₁
      obtain ⟨qs, h₂, heq⟩ := h₁
      obtain ⟨rfl, rfl⟩ := Prod.mk.inj (Except.ok.inj heq)
      obtain ⟨v, hv, hd⟩ := ih tag name comma h₂
      exact ⟨_, ht.trans (hx.trans (hm.trans hv)), .moreParams htk hxk hmk hd⟩
    · simp only [hcomma] at h₁
      obtain ⟨rfl, rfl⟩ := Prod.mk.inj (Except.ok.inj h₁)
      exact ⟨_, ht.trans hx, .lastParam htk hxk⟩
  | case2 c hk =>
    rw [readParams_upto, if_neg (by simpa [Cursor.check] using hk)] at h
    obtain ⟨rfl, rfl⟩ := Prod.mk.inj (Except.ok.inj h)
    exact ⟨[], .refl c, .noParams⟩

/-- What reading a block passes derives what is read, and a closing brace or the end follows. -/
def BlockSound (c : Cursor) : Prop :=
  ∀ ss c', (readBlock c).upto = .ok (ss, c') →
    ∃ w, c.Passes w c' ∧ Derives .block w c'.kind ss ∧
      (c'.kind = .symbol .rightBrace ∨ c'.kind = .eof)

def StmtSound (c : Cursor) : Prop :=
  ∀ s c', (readStmt c).below = .ok (s, c') → ∃ w, c.Passes w c' ∧ Derives .stmt w c'.kind s

section Steps

variable {c : Cursor}

lemma BlockSound.mk (hk : ¬(c.kind = .symbol .rightBrace ∨ c.kind = .eof)) (hs : StmtSound c)
    (hb : ∀ first : Below Stmt c.left, BlockSound first.rest) : BlockSound c := by
  intro ss c' h
  rw [readBlock_upto, if_neg hk] at h
  simp only [bind_eq_ok_iff] at h
  obtain ⟨s, h₁, rest, h₂, heq⟩ := h
  obtain ⟨rfl, rfl⟩ := Prod.mk.inj (Except.ok.inj heq)
  obtain ⟨first, rfl⟩ := exists_below h₁
  obtain ⟨w, hw, hd⟩ := hs _ _ h₁
  obtain ⟨v, hv, hds, hend⟩ := hb first _ _ h₂
  rw [hv.kind] at hd
  exact ⟨_, hw.trans hv, .cons hd hds, hend⟩

lemma StmtSound.function (hk : c.kind = .keyword .funcWord)
    (hb : ∀ (word : Below Token c.left) (name : Below Token word.rest.left)
      (opening : Below Token name.rest.left) (params : Upto (List Param) opening.rest.left)
      (closing : Below Token params.rest.left) (brace : Below Token closing.rest.left),
      BlockSound brace.rest) : StmtSound c := by
  intro s c' h
  simp only [readStmt_function hk, bind_eq_ok_iff] at h
  obtain ⟨w, hw, x, hx, o, ho, ps, hps, r, hr, b, hb', ss, hss, l, hl, heq⟩ := h
  obtain ⟨rfl, rfl⟩ := Prod.mk.inj (Except.ok.inj heq)
  obtain ⟨word, rfl⟩ := exists_below hw
  obtain ⟨name, rfl⟩ := exists_below hx
  obtain ⟨opening, rfl⟩ := exists_below ho
  obtain ⟨params, rfl⟩ := exists_upto hps
  obtain ⟨closing, rfl⟩ := exists_below hr
  obtain ⟨brace, rfl⟩ := exists_below hb'
  obtain ⟨u, hu, hdp⟩ := readParams_sound hps
  obtain ⟨v, hv, hds, -⟩ := hb word name opening params closing brace _ _ hss
  obtain ⟨hw, hwk⟩ := Cursor.require_eq_ok_iff.1 hw
  obtain ⟨hx, hxk⟩ := Cursor.require_eq_ok_iff.1 hx
  obtain ⟨ho, hok⟩ := Cursor.require_eq_ok_iff.1 ho
  obtain ⟨hr, hrk⟩ := Cursor.require_eq_ok_iff.1 hr
  obtain ⟨hb', hbk⟩ := Cursor.require_eq_ok_iff.1 hb'
  obtain ⟨hl, hlk⟩ := Cursor.require_eq_ok_iff.1 hl
  rw [hr.kind, firstKind_cons, hrk] at hdp
  rw [hl.kind, firstKind_cons, hlk] at hds
  exact ⟨_, hw.trans (hx.trans (ho.trans (hu.trans (hr.trans (hb'.trans (hv.trans hl)))))),
    .function hwk hxk hok hdp hrk hbk hds hlk⟩

lemma StmtSound.ret (hk : c.kind = .keyword .returnWord) : StmtSound c := by
  intro s c' h
  simp only [readStmt_ret hk, bind_eq_ok_iff] at h
  obtain ⟨w, hw, e, he, l, hl, heq⟩ := h
  obtain ⟨rfl, rfl⟩ := Prod.mk.inj (Except.ok.inj heq)
  obtain ⟨hw, hwk⟩ := Cursor.require_eq_ok_iff.1 hw
  obtain ⟨u, hu, hd, hlk⟩ := readExpr_require_sound he hl
  exact ⟨_, hw.trans hu, .ret hwk hd hlk⟩

lemma StmtSound.cond (hk : c.kind = .keyword .ifWord)
    (hb : ∀ (word : Below Token c.left) (condition : Upto Expr word.rest.left)
      (brace : Below Token condition.rest.left), BlockSound brace.rest) : StmtSound c := by
  intro s c' h
  simp only [readStmt_cond hk, bind_eq_ok_iff] at h
  obtain ⟨w, hw, e, he, b, hb', ss, hss, l, hl, heq⟩ := h
  obtain ⟨rfl, rfl⟩ := Prod.mk.inj (Except.ok.inj heq)
  obtain ⟨u, hu, hd, hbk⟩ := readExpr_require_sound he hb'
  obtain ⟨word, rfl⟩ := exists_below hw
  obtain ⟨condition, rfl⟩ := exists_upto he
  obtain ⟨brace, rfl⟩ := exists_below hb'
  obtain ⟨v, hv, hds, -⟩ := hb word condition brace _ _ hss
  obtain ⟨hw, hwk⟩ := Cursor.require_eq_ok_iff.1 hw
  obtain ⟨hl, hlk⟩ := Cursor.require_eq_ok_iff.1 hl
  rw [hl.kind, firstKind_cons, hlk] at hds
  have hp := hw.trans (hu.trans (hv.trans hl))
  rw [List.append_assoc] at hp
  exact ⟨_, hp, .cond hwk hd hbk hds hlk⟩

lemma StmtSound.bind (hk : c.kind = .keyword .letWord) : StmtSound c := by
  intro s c' h
  simp only [readStmt_bind hk, bind_eq_ok_iff] at h
  obtain ⟨w, hw, x, hx, q, hq, e, he, heq⟩ := h
  obtain ⟨rfl, rfl⟩ := Prod.mk.inj (Except.ok.inj heq)
  obtain ⟨hw, hwk⟩ := Cursor.require_eq_ok_iff.1 hw
  obtain ⟨hx, hxk⟩ := Cursor.require_eq_ok_iff.1 hx
  obtain ⟨hq, hqk⟩ := Cursor.require_eq_ok_iff.1 hq
  obtain ⟨u, hu, hd⟩ := readExpr_sound he
  rcases Cursor.expect?_cases e.2 (.symbol .semicolon) with ⟨l, c₁, hl, hp, hlk⟩ | ⟨hl, hlk⟩
  · rw [hl]
    rw [hp.kind, firstKind_cons, hlk] at hd
    exact ⟨_, hw.trans (hx.trans (hq.trans (hu.trans hp))), .bindEnded hwk hxk hqk hd hlk⟩
  · rw [hl]
    exact ⟨_, hw.trans (hx.trans (hq.trans hu)),
      .bindOpen hwk hxk hqk hd (hlk (by decide))⟩

lemma StmtSound.empty (hk : c.kind = .symbol .semicolon) : StmtSound c := by
  intro s c' h
  simp only [readStmt_empty hk, bind_eq_ok_iff] at h
  obtain ⟨m, hm, heq⟩ := h
  obtain ⟨rfl, rfl⟩ := Prod.mk.inj (Except.ok.inj heq)
  have hm := Cursor.take_eq_ok_iff.1 hm
  exact ⟨_, hm, .empty (hm.kind.symm.trans hk)⟩

lemma StmtSound.expr (hk : opensExpr c.kind) : StmtSound c := by
  intro s c' h
  simp only [readStmt_expr hk, bind_eq_ok_iff] at h
  obtain ⟨e, he, l, hl, heq⟩ := h
  obtain ⟨rfl, rfl⟩ := Prod.mk.inj (Except.ok.inj heq)
  obtain ⟨w, hw, hd, hlk⟩ := readExpr_require_sound he hl
  refine ⟨_, hw, .expr ?_ hd hlk⟩
  -- Strings and `null` announce an expression, but none starts with them.
  have hfirst := hd.firstKind_expr trivial
  rw [hw.kind, firstKind_append, firstKind_cons, hlk] at hk
  generalize firstKind w (.symbol .semicolon) = k at hk hfirst
  simp only [List.mem_cons, List.not_mem_nil, or_false] at hfirst ⊢
  rcases hfirst with rfl | rfl | rfl | rfl
  · exact .inl rfl
  · exact .inr (.inl rfl)
  · exact .inr (.inr rfl)
  · simp [opensExpr] at hk

end Steps

lemma block_sound : (∀ c, BlockSound c) ∧ ∀ c, StmtSound c := by
  apply readBlock.mutual_induct
  · intro c hk ss c' h
    have hend : c.kind = .symbol .rightBrace ∨ c.kind = .eof := by
      simpa [Cursor.check, Cursor.atEnd] using hk
    rw [readBlock_upto, if_pos hend] at h
    obtain ⟨rfl, rfl⟩ := Prod.mk.inj (Except.ok.inj h)
    exact ⟨[], .refl c, .nil, hend⟩
  · exact fun c hk => BlockSound.mk (by simpa [Cursor.check, Cursor.atEnd] using hk)
  · exact fun c => StmtSound.function
  · exact fun c => StmtSound.ret
  · exact fun c => StmtSound.cond
  · exact fun c => StmtSound.bind
  · exact fun c => StmtSound.empty
  · exact fun c hk => StmtSound.expr (.inl hk)
  · exact fun c hk => StmtSound.expr (.inr (.inl hk))
  · exact fun c hk => StmtSound.expr (.inr (.inr (.inl hk)))
  · exact fun c hk => StmtSound.expr (.inr (.inr (.inr (.inl hk))))
  · exact fun c hk => StmtSound.expr (.inr (.inr (.inr (.inr hk))))
  · intro c h₁ h₂ h₃ h₄ h₅ h₆ h₇ h₈ h₉ h₁₀ s c' h
    have hother : ¬opensExpr c.kind := by
      simp only [opensExpr, not_or]
      exact ⟨h₆, h₇, h₈, h₉, h₁₀⟩
    rw [readStmt_other h₁ h₂ h₃ h₄ h₅ hother] at h
    cases h

/-- **Soundness**: what a successful reading of a block passes derives the block. -/
theorem readBlock_sound {c c' : Cursor} {ss : Block} (h : (readBlock c).upto = .ok (ss, c')) :
    ∃ w, c.Passes w c' ∧ Derives .block w c'.kind ss ∧
      (c'.kind = .symbol .rightBrace ∨ c'.kind = .eof) :=
  block_sound.1 c ss c' h

end Flame
