import Flame.Proofs.Joining

/-!
Reading does not look at spans.

From tokens that differ in their spans only, the readers take the same decisions: they give trees
that differ in the spans of empty statements only, or errors that differ in their spans only. A
grammar says this of the trees, but not of the errors, so the readers are followed step by step.
-/

namespace Flame

open Reading

/-- The errors are the same, but for the spans in them. -/
inductive ParseErrorAlike : ParseError → ParseError → Prop
  | exhausted {position : Nat} {offset : Int} :
      ParseErrorAlike (.cursor (.exhausted position offset)) (.cursor (.exhausted position offset))
  | unexpected {expected found : Kind} {s t : Span} :
      ParseErrorAlike (.cursor (.unexpected expected found s))
        (.cursor (.unexpected expected found t))
  | noStatement {found : Kind} {s t : Span} :
      ParseErrorAlike (.noStatement found s) (.noStatement found t)
  | noExpression {found : Kind} {s t : Span} :
      ParseErrorAlike (.noExpression found s) (.noExpression found t)
  | badInteger {lexeme : String} {s t : Span} :
      ParseErrorAlike (.badInteger lexeme s) (.badInteger lexeme t)

/-- The cursors stand in tokens that are alike, at the same place. -/
structure CursorAlike (c d : Cursor) : Prop where
  behind : List.Forall₂ TokenAlike c.behind d.behind
  ahead : List.Forall₂ TokenAlike c.ahead d.ahead

/-- Both readers gave trees that are alike and moved their cursors alike, or both failed, with
errors that are alike. -/
inductive ReadAlike {α : Type} (R : α → α → Prop) :
    Except ParseError (α × Cursor) → Except ParseError (α × Cursor) → Prop
  | ok {a b : α} {c d : Cursor} (value : R a b) (cursor : CursorAlike c d) :
      ReadAlike R (.ok (a, c)) (.ok (b, d))
  | error {e e' : ParseError} (h : ParseErrorAlike e e') : ReadAlike R (.error e) (.error e')

section

variable {α β : Type} {R : α → α → Prop} {S : β → β → Prop} {c d : Cursor} {k : Kind}

namespace CursorAlike

lemma kind_eq (h : CursorAlike c d) : d.kind = c.kind := by
  rw [c.kind_eq_firstKind, d.kind_eq_firstKind, firstKind_alike h.ahead]

lemma nextKind_eq (h : CursorAlike c d) : d.nextKind = c.nextKind := by
  have htail := List.forall₂_drop 1 h.ahead
  rw [List.drop_one, List.drop_one] at htail
  rw [c.nextKind_eq_firstKind, d.nextKind_eq_firstKind, firstKind_alike htail]

lemma exists_passes (h : CursorAlike c d) {t : Token} {c' : Cursor} (hp : c.Passes [t] c') :
    ∃ u d', d.Passes [u] d' ∧ TokenAlike t u ∧ CursorAlike c' d' := by
  have hahead := h.ahead
  rw [hp.ahead] at hahead
  cases hd : d.ahead with
  | nil =>
    rw [hd] at hahead
    cases hahead
  | cons u rest =>
    rw [hd] at hahead
    obtain _ | ⟨htu, hrest⟩ := hahead
    refine ⟨u, _, Cursor.passes_of_ahead (w := [u]) hd, htu, ?_, hrest⟩
    rw [hp.behind]
    exact .cons htu h.behind

/-- A token that may be taken is taken from both, or from neither. -/
lemma expect?_cases (h : CursorAlike c d) (hk : k ≠ .eof) :
    (∃ (t : Below Token c.left) (u : Token) (d' : Cursor),
      c.expect? k = (some t.value, t.rest) ∧ d.expect? k = (some u, d') ∧
        CursorAlike t.rest d') ∨
      c.expect? k = (none, c) ∧ d.expect? k = (none, d) := by
  rcases Cursor.accept?_cases c k with ⟨t, -, ht⟩ | ⟨-, hnone⟩
  · obtain ⟨hp, htk⟩ := Cursor.passes_of_expect? ht
    obtain ⟨u, d', hd, htu, hrest⟩ := h.exists_passes hp
    exact .inl ⟨t, u, d', ht, Cursor.expect?_of_passes hd (htu.kind_eq.symm.trans htk), hrest⟩
  · refine .inr ⟨hnone, Cursor.expect?_of_kind_ne ?_⟩
    rw [h.kind_eq]
    rcases Cursor.expect?_cases c k with ⟨t, c', ht, -⟩ | ⟨-, hne⟩
    · rw [hnone] at ht
      cases ht
    · exact hne hk

end CursorAlike

lemma ReadAlike.bind {x y : Except ParseError (α × Cursor)}
    {f g : α × Cursor → Except ParseError (β × Cursor)} (hx : ReadAlike R x y)
    (hf : ∀ {a c b d}, x = .ok (a, c) → R a b → CursorAlike c d →
      ReadAlike S (f (a, c)) (g (b, d))) : ReadAlike S (x.bind f) (y.bind g) := by
  cases hx with
  | ok value cursor => exact hf rfl value cursor
  | error h => exact .error h

lemma ReadAlike.take_bind {f g : Token × Cursor → Except ParseError (β × Cursor)}
    (h : CursorAlike c d) (hk : c.kind ≠ .eof)
    (hf : ∀ (t : Below Token c.left) {u d'}, TokenAlike t.value u → CursorAlike t.rest d' →
      ReadAlike S (f (t.value, t.rest)) (g (u, d'))) :
    ReadAlike S (c.take.below.bind f) (d.take.below.bind g) := by
  obtain ⟨t, c', hp, -⟩ := Cursor.exists_passes hk
  obtain ⟨u, d', hd, htu, hrest⟩ := h.exists_passes hp
  have htake := Cursor.take_eq_ok_iff.2 hp
  rw [htake, Cursor.take_eq_ok_iff.2 hd]
  obtain ⟨taken, htaken⟩ := exists_below htake
  obtain ⟨rfl, rfl⟩ := Prod.mk.inj htaken
  exact hf taken htu hrest

lemma ReadAlike.require_bind {f g : Token × Cursor → Except ParseError (β × Cursor)}
    (h : CursorAlike c d)
    (hf : ∀ (t : Below Token c.left) {u d'}, TokenAlike t.value u → CursorAlike t.rest d' →
      ReadAlike S (f (t.value, t.rest)) (g (u, d'))) :
    ReadAlike S ((c.require k).below.bind f) ((d.require k).below.bind g) := by
  have hahead := h.ahead
  cases hc : c.ahead <;> cases hd : d.ahead <;> rw [hc, hd] at hahead <;> cases hahead
  · rw [Cursor.require_of_nil hc, Cursor.require_of_nil hd, Cursor.position, Cursor.position,
      h.behind.length_eq]
    exact .error .exhausted
  · rename_i t rest u rest' htu _
    have hp := Cursor.passes_of_ahead (w := [t]) hc
    by_cases htk : t.kind = k
    · obtain ⟨u, d', hd, htu, hrest⟩ := h.exists_passes hp
      have hreq := Cursor.require_eq_ok_iff.2 ⟨hp, htk⟩
      rw [hreq, Cursor.require_eq_ok_iff.2 ⟨hd, htu.kind_eq.symm.trans htk⟩]
      obtain ⟨taken, htaken⟩ := exists_below hreq
      obtain ⟨rfl, heq⟩ := Prod.mk.inj htaken
      rw [heq] at hrest ⊢
      exact hf taken htu hrest
    · rw [Cursor.require_of_ne hc htk, Cursor.require_of_ne hd (htu.kind_eq ▸ htk), htu.kind_eq]
      exact .error .unexpected

end

/-! ### Expressions -/

def ExprReadAlike (min : Tier) (c : Cursor) : Prop :=
  ∀ d, CursorAlike c d → ReadAlike Eq (readExpr min c).upto (readExpr min d).upto

def OperatorsReadAlike (min : Tier) (l : Expr) (c : Cursor) : Prop :=
  ∀ d, CursorAlike c d → ReadAlike Eq (readOperators min l c).upto (readOperators min l d).upto

def PrimaryReadAlike (c : Cursor) : Prop :=
  ∀ d, CursorAlike c d → ReadAlike Eq (readPrimary c).upto (readPrimary d).upto

def ArgsReadAlike (c : Cursor) : Prop :=
  ∀ d, CursorAlike c d → ReadAlike Eq (readArgs c).upto (readArgs d).upto

section Steps

variable {min : Tier} {l : Expr} {c : Cursor}

lemma ExprReadAlike.mk (hp : PrimaryReadAlike c)
    (ho : ∀ first : Upto Expr c.left, OperatorsReadAlike min first.value first.rest) :
    ExprReadAlike min c := by
  intro d h
  rw [readExpr_upto, readExpr_upto]
  refine (hp d h).bind fun {e c₁ e' d₁} hread heq hcursor => ?_
  obtain ⟨first, hfirst⟩ := exists_upto hread
  obtain ⟨rfl, rfl⟩ := Prod.mk.inj hfirst
  obtain rfl := heq
  exact ho first d₁ hcursor

lemma OperatorsReadAlike.stop (hs : Stops min c.kind) : OperatorsReadAlike min l c := by
  intro d h
  rw [readOperators_stop hs, readOperators_stop (by rwa [h.kind_eq])]
  exact .ok rfl h

lemma OperatorsReadAlike.more {op : Operator} (hk : c.kind = .operator op) (hmin : min ≤ op.tier)
    (hr : ∀ mark : Below Token c.left, ExprReadAlike op.tier.tighter mark.rest)
    (ho : ∀ (mark : Below Token c.left) (right : Upto Expr mark.rest.left),
      OperatorsReadAlike min (.binary op l right.value) right.rest) :
    OperatorsReadAlike min l c := by
  intro d h
  rw [readOperators_more hk hmin, readOperators_more (h.kind_eq.trans hk) hmin]
  refine ReadAlike.take_bind h (by simp [hk]) fun mark {_ d₁} _ h₁ => ?_
  refine (hr mark d₁ h₁).bind fun {e c₂ e' d₂} hread heq h₂ => ?_
  obtain ⟨right, hright⟩ := exists_upto hread
  obtain ⟨rfl, rfl⟩ := Prod.mk.inj hright
  obtain rfl := heq
  exact ho mark right d₂ h₂

lemma PrimaryReadAlike.paren (hk : c.kind = .symbol .leftParen)
    (he : ∀ opening : Below Token c.left, ExprReadAlike .lowest opening.rest) :
    PrimaryReadAlike c := by
  intro d h
  rw [readPrimary_paren hk, readPrimary_paren (h.kind_eq.trans hk)]
  refine ReadAlike.take_bind h (by simp [hk]) fun opening {_ d₁} _ h₁ => ?_
  refine (he opening d₁ h₁).bind fun _ heq h₂ => ?_
  exact ReadAlike.require_bind h₂ fun _ {_ _} _ h₃ => .ok heq h₃

lemma PrimaryReadAlike.call (hk : c.kind = .identifier) (hn : c.nextKind = .symbol .leftParen)
    (ha : ∀ (callee : Below Token c.left) (opening : Below Token callee.rest.left),
      ArgsReadAlike opening.rest) : PrimaryReadAlike c := by
  intro d h
  rw [readPrimary_call hk hn,
    readPrimary_call (h.kind_eq.trans hk) (h.nextKind_eq.trans hn)]
  refine ReadAlike.require_bind h fun callee {_ d₁} hf h₁ => ?_
  refine ReadAlike.require_bind h₁ fun opening {_ d₂} _ h₂ => ?_
  refine (ha callee opening d₂ h₂).bind fun _ heq h₃ => ?_
  refine ReadAlike.require_bind h₃ fun _ {_ _} _ h₄ => .ok ?_ h₄
  rw [hf.lexeme_eq, heq]

lemma PrimaryReadAlike.var (hk : c.kind = .identifier) (hn : c.nextKind ≠ .symbol .leftParen) :
    PrimaryReadAlike c := by
  intro d h
  rw [readPrimary_var hk hn, readPrimary_var (h.kind_eq.trans hk) (by rwa [h.nextKind_eq])]
  refine ReadAlike.take_bind h (by simp [hk]) fun name {_ _} hx h₁ => .ok ?_ h₁
  rw [hx.lexeme_eq]

lemma PrimaryReadAlike.number (hk : c.kind = .number) : PrimaryReadAlike c := by
  intro d h
  rw [readPrimary_number hk, readPrimary_number (h.kind_eq.trans hk)]
  refine ReadAlike.take_bind h (by simp [hk]) fun digits {_ _} ht h₁ => ?_
  simp only [ht.lexeme_eq]
  split
  · exact .ok rfl h₁
  · exact .error .badInteger

lemma ArgsReadAlike.arg (hk : c.kind ≠ .symbol .rightParen) (he : ExprReadAlike .lowest c)
    (ha : ∀ (arg : Upto Expr c.left) (comma : Below Token arg.rest.left),
      ArgsReadAlike comma.rest) : ArgsReadAlike c := by
  intro d h
  rw [readArgs_upto, readArgs_upto, if_neg hk, if_neg (by rwa [h.kind_eq])]
  refine (he d h).bind fun {e c₁ e' d₁} hread heq h₁ => ?_
  obtain ⟨arg, harg⟩ := exists_upto hread
  obtain ⟨rfl, rfl⟩ := Prod.mk.inj harg
  obtain rfl := heq
  rcases h₁.expect?_cases (k := .symbol .comma) (by simp) with
    ⟨comma, u, d₂, hc, hd, h₂⟩ | ⟨hc, hd⟩
  · simp only [hc, hd]
    refine (ha arg comma d₂ h₂).bind fun _ heqs h₃ => .ok ?_ h₃
    rw [heqs]
  · simp only [hc, hd]
    exact .ok rfl h₁

end Steps

lemma expr_readAlike :
    (∀ min c, ExprReadAlike min c) ∧ (∀ min l c, OperatorsReadAlike min l c) ∧
      (∀ c, PrimaryReadAlike c) ∧ ∀ c, ArgsReadAlike c := by
  apply readExpr.mutual_induct
  · exact fun min c => ExprReadAlike.mk
  · intro min l c hk
    refine .stop fun op hop => ?_
    rw [hop] at hk
    cases hk
  · exact fun min l c op hk => OperatorsReadAlike.more (Operator.ofKind?_eq_some_iff.1 hk)
  · intro min l c op hk hmin
    refine .stop fun op' hop => ?_
    rw [hop] at hk
    obtain rfl := Option.some.inj hk
    exact hmin
  · exact fun c => PrimaryReadAlike.paren
  · intro c hk d h
    rw [readPrimary_nothing hk, readPrimary_nothing (h.kind_eq.trans hk)]
    exact .ok rfl h
  · exact fun c => PrimaryReadAlike.call
  · exact fun c => PrimaryReadAlike.var
  · exact fun c => PrimaryReadAlike.number
  · intro c h₁ h₂ h₃ h₄ d h
    rw [readPrimary_other h₁ h₂ h₃ h₄]
    rw [← h.kind_eq] at h₁ h₂ h₃ h₄ ⊢
    rw [readPrimary_other h₁ h₂ h₃ h₄]
    exact .error .noExpression
  · intro c hk d h
    have hk : c.kind = .symbol .rightParen := by simpa [Cursor.check] using hk
    rw [readArgs_upto, readArgs_upto, if_pos hk, if_pos (h.kind_eq.trans hk)]
    exact .ok rfl h
  · exact fun c hk => ArgsReadAlike.arg (by simpa [Cursor.check] using hk)

/-! ### Statements -/

lemma params_readAlike {c d : Cursor} (h : CursorAlike c d) :
    ReadAlike Eq (readParams c).upto (readParams d).upto := by
  induction c using readParams.induct generalizing d with
  | case1 c hk ih =>
    have hk : c.kind = .identifier := by simpa [Cursor.check] using hk
    rw [readParams_upto, readParams_upto, if_pos hk, if_pos (h.kind_eq.trans hk)]
    refine ReadAlike.require_bind h fun tag {_ d₁} ht h₁ => ?_
    refine ReadAlike.require_bind h₁ fun name {_ d₂} hx h₂ => ?_
    simp only [ht.lexeme_eq, hx.lexeme_eq]
    rcases h₂.expect?_cases (k := .symbol .comma) (by simp) with
      ⟨comma, u, d₃, hc, hd, h₃⟩ | ⟨hc, hd⟩
    · simp only [hc, hd]
      refine (ih tag name comma h₃).bind fun _ heqs h₄ => .ok ?_ h₄
      rw [heqs]
    · simp only [hc, hd]
      exact .ok rfl h₂
  | case2 c hk =>
    have hk : c.kind ≠ .identifier := by simpa [Cursor.check] using hk
    rw [readParams_upto, readParams_upto, if_neg hk, if_neg (by rwa [h.kind_eq])]
    exact .ok rfl h

def BlockReadAlike (c : Cursor) : Prop :=
  ∀ d, CursorAlike c d →
    ReadAlike (BlockAlike .spansAside) (readBlock c).upto (readBlock d).upto

def StmtReadAlike (c : Cursor) : Prop :=
  ∀ d, CursorAlike c d →
    ReadAlike (StmtAlike .spansAside) (readStmt c).below (readStmt d).below

section Steps

variable {c : Cursor}

lemma BlockReadAlike.mk (hk : ¬(c.kind = .symbol .rightBrace ∨ c.kind = .eof))
    (hs : StmtReadAlike c) (hb : ∀ first : Below Stmt c.left, BlockReadAlike first.rest) :
    BlockReadAlike c := by
  intro d h
  rw [readBlock_upto, readBlock_upto, if_neg hk, if_neg (by rwa [h.kind_eq])]
  refine (hs d h).bind fun {s c₁ s' d₁} hread hstmt h₁ => ?_
  obtain ⟨first, hfirst⟩ := exists_below hread
  obtain ⟨rfl, rfl⟩ := Prod.mk.inj hfirst
  exact (hb first d₁ h₁).bind fun _ hblock h₂ => .ok (.cons hstmt hblock) h₂

lemma StmtReadAlike.function (hk : c.kind = .keyword .funcWord)
    (hb : ∀ (word : Below Token c.left) (name : Below Token word.rest.left)
      (opening : Below Token name.rest.left) (params : Upto (List Param) opening.rest.left)
      (closing : Below Token params.rest.left) (brace : Below Token closing.rest.left),
      BlockReadAlike brace.rest) : StmtReadAlike c := by
  intro d h
  rw [readStmt_function hk, readStmt_function (h.kind_eq.trans hk)]
  refine ReadAlike.require_bind h fun word {_ d₁} _ h₁ => ?_
  refine ReadAlike.require_bind h₁ fun name {_ d₂} hx h₂ => ?_
  refine ReadAlike.require_bind h₂ fun opening {_ d₃} _ h₃ => ?_
  refine (params_readAlike h₃).bind fun {ps c₄ ps' d₄} hread heq h₄ => ?_
  obtain ⟨params, hparams⟩ := exists_upto hread
  obtain ⟨rfl, rfl⟩ := Prod.mk.inj hparams
  obtain rfl := heq
  refine ReadAlike.require_bind h₄ fun closing {_ d₅} _ h₅ => ?_
  refine ReadAlike.require_bind h₅ fun brace {_ d₆} _ h₆ => ?_
  refine (hb word name opening params closing brace d₆ h₆).bind fun _ hbody h₇ => ?_
  refine ReadAlike.require_bind h₇ fun _ {_ _} _ h₈ => .ok ?_ h₈
  rw [hx.lexeme_eq]
  exact .function trivial trivial (params_spansAside params.value) hbody

lemma StmtReadAlike.ret (hk : c.kind = .keyword .returnWord) : StmtReadAlike c := by
  intro d h
  rw [readStmt_ret hk, readStmt_ret (h.kind_eq.trans hk)]
  refine ReadAlike.require_bind h fun word {_ d₁} _ h₁ => ?_
  refine (expr_readAlike.1 .lowest word.rest d₁ h₁).bind fun _ heq h₂ => ?_
  refine ReadAlike.require_bind h₂ fun _ {_ _} _ h₃ => .ok ?_ h₃
  rw [heq]
  exact .ret fun _ _ => trivial

lemma StmtReadAlike.cond (hk : c.kind = .keyword .ifWord)
    (hb : ∀ (word : Below Token c.left) (condition : Upto Expr word.rest.left)
      (brace : Below Token condition.rest.left), BlockReadAlike brace.rest) :
    StmtReadAlike c := by
  intro d h
  rw [readStmt_cond hk, readStmt_cond (h.kind_eq.trans hk)]
  refine ReadAlike.require_bind h fun word {_ d₁} _ h₁ => ?_
  refine (expr_readAlike.1 .lowest word.rest d₁ h₁).bind fun {e c₂ e' d₂} hread heq h₂ => ?_
  obtain ⟨condition, hcondition⟩ := exists_upto hread
  obtain ⟨rfl, rfl⟩ := Prod.mk.inj hcondition
  obtain rfl := heq
  refine ReadAlike.require_bind h₂ fun brace {_ d₃} _ h₃ => ?_
  refine (hb word condition brace d₃ h₃).bind fun _ hbody h₄ => ?_
  exact ReadAlike.require_bind h₄ fun _ {_ _} _ h₅ => .ok (.cond (fun _ _ => trivial) hbody) h₅

lemma StmtReadAlike.bind (hk : c.kind = .keyword .letWord) : StmtReadAlike c := by
  intro d h
  rw [readStmt_bind hk, readStmt_bind (h.kind_eq.trans hk)]
  refine ReadAlike.require_bind h fun word {_ d₁} _ h₁ => ?_
  refine ReadAlike.require_bind h₁ fun name {_ d₂} hx h₂ => ?_
  refine ReadAlike.require_bind h₂ fun equals {_ d₃} _ h₃ => ?_
  refine (expr_readAlike.1 .lowest equals.rest d₃ h₃).bind fun _ heq h₄ => ?_
  simp only [hx.lexeme_eq, heq]
  refine .ok (.bind trivial fun _ _ => trivial) ?_
  rcases h₄.expect?_cases (k := .symbol .semicolon) (by simp) with
    ⟨last, u, d₅, hc, hd, h₅⟩ | ⟨hc, hd⟩
  · rw [hc, hd]
    exact h₅
  · rw [hc, hd]
    exact h₄

lemma StmtReadAlike.expr (hk : opensExpr c.kind) : StmtReadAlike c := by
  intro d h
  rw [readStmt_expr hk, readStmt_expr (by rwa [h.kind_eq])]
  refine (expr_readAlike.1 .lowest c d h).bind fun _ heq h₁ => ?_
  refine ReadAlike.require_bind h₁ fun _ {_ _} _ h₂ => .ok ?_ h₂
  rw [heq]
  exact .expr fun _ _ => trivial

end Steps

lemma block_readAlike : (∀ c, BlockReadAlike c) ∧ ∀ c, StmtReadAlike c := by
  apply readBlock.mutual_induct
  · intro c hk d h
    have hend : c.kind = .symbol .rightBrace ∨ c.kind = .eof := by
      simpa [Cursor.check, Cursor.atEnd] using hk
    rw [readBlock_upto, readBlock_upto, if_pos hend, if_pos (by rwa [h.kind_eq])]
    exact .ok .nil h
  · exact fun c hk => BlockReadAlike.mk (by simpa [Cursor.check, Cursor.atEnd] using hk)
  · exact fun c => StmtReadAlike.function
  · exact fun c => StmtReadAlike.ret
  · exact fun c => StmtReadAlike.cond
  · exact fun c => StmtReadAlike.bind
  · intro c hk d h
    rw [readStmt_empty hk, readStmt_empty (h.kind_eq.trans hk)]
    exact ReadAlike.take_bind h (by simp [hk]) fun _ {_ _} _ h₁ => .ok (.empty trivial) h₁
  · exact fun c hk => StmtReadAlike.expr (.inl hk)
  · exact fun c hk => StmtReadAlike.expr (.inr (.inl hk))
  · exact fun c hk => StmtReadAlike.expr (.inr (.inr (.inl hk)))
  · exact fun c hk => StmtReadAlike.expr (.inr (.inr (.inr (.inl hk))))
  · exact fun c hk => StmtReadAlike.expr (.inr (.inr (.inr (.inr hk))))
  · intro c h₁ h₂ h₃ h₄ h₅ h₆ h₇ h₈ h₉ h₁₀ d h
    have hother : ¬opensExpr c.kind := by
      simp only [opensExpr, not_or]
      exact ⟨h₆, h₇, h₈, h₉, h₁₀⟩
    rw [readStmt_other h₁ h₂ h₃ h₄ h₅ hother]
    rw [← h.kind_eq] at h₁ h₂ h₃ h₄ h₅ hother ⊢
    rw [readStmt_other h₁ h₂ h₃ h₄ h₅ hother]
    exact .error .noStatement

/-! ### Streams -/

/-- The results are programs that are the same but for the spans of empty statements, or errors
that are the same but for their spans. -/
inductive ParseAlike : Except ParseError Block → Except ParseError Block → Prop
  | ok {b b' : Block} (h : BlockAlike .spansAside b b') : ParseAlike (.ok b) (.ok b')
  | error {e e' : ParseError} (h : ParseErrorAlike e e') : ParseAlike (.error e) (.error e')

/-- **Spans decide nothing.** Streams with the same words are read alike. -/
theorem TokenStream.parse_alike {ts ts' : TokenStream}
    (h : List.Forall₂ TokenAlike ts.body ts'.body) :
    ParseAlike ts.parse.result ts'.parse.result := by
  have hread := block_readAlike.1 (.start ts) (.start ts') ⟨.nil, h⟩
  unfold TokenStream.parse
  rw [Reading.result_bind, Reading.result_bind]
  rw [upto, upto, view, view] at hread
  cases hx : (readBlock (.start ts)).result <;> cases hy : (readBlock (.start ts')).result <;>
    rw [hx, hy] at hread <;> cases hread
  · exact .error ‹_›
  · exact .ok ‹_›

end Flame
