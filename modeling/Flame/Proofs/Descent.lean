import Flame.Proofs.Completion
import Mathlib

/-!
Reading comes to an end.

The readers are spelled out here as routines that call each other, with no bound on how often: a
loop is a routine that calls itself. What a call comes to is known already, since the readers are
total. What is shown is that the calls alone lead there. A call made by another starts where that
one started, or further on; and where it starts at the same token, it is of a lower rank. So calls
cannot nest forever. It is the callers that see to this: an expression can be read from no token at
all, but only before a closing parenthesis, and there no argument and no statement is read.
-/

namespace Flame

open Reading

/-- The routines of the parser. -/
inductive Routine
  | take
  | require (kind : Kind)
  | accept (kind : Kind)
  | expr (min : Tier)
  /-- The loop over the operators after an expression. -/
  | operators (min : Tier) (left : Expr)
  | primary
  /-- The loop over the arguments of a call. -/
  | args
  /-- The loop over the parameters of a function. -/
  | params
  /-- The loop over the statements of a block. -/
  | block
  | stmt

/-- A routine called at a cursor. -/
structure Call where
  routine : Routine
  cursor : Cursor

namespace Routine

/-- What a routine reads. -/
abbrev Tree : Routine → Type
  | take | require _ => Token
  | accept _ => Option Token
  | expr _ | operators .. | primary => Expr
  | args => List Expr
  | params => List Param
  | block => Block
  | stmt => Stmt

/-- What a routine reads and the cursor after it, or the error. -/
def read : (r : Routine) → Cursor → Except ParseError (r.Tree × Cursor)
  | take, c => c.take.below
  | require k, c => (c.require k).below
  | accept k, c => .ok (c.expect? k)
  | expr min, c => (readExpr min c).upto
  | operators min left, c => (readOperators min left c).upto
  | primary, c => (readPrimary c).upto
  | args, c => (readArgs c).upto
  | params, c => (readParams c).upto
  | block, c => (readBlock c).upto
  | stmt, c => (readStmt c).below

/-- A routine calls at its own cursor only routines of lower rank. -/
def rank : Routine → Nat
  | take | require _ | accept _ => 0
  | operators .. | primary | params => 1
  | expr _ => 2
  | args | stmt => 3
  | block => 4

end Routine

/-- What a routine does: it ends, or makes a call and goes on with what has been read, if that is
no error. -/
inductive Recipe (α : Type)
  | ends (result : Except ParseError α)
  | calls (r : Routine) (c : Cursor) (next : r.Tree × Cursor → Recipe α)

namespace Recipe

variable {α : Type}

/-- How a recipe ends if the calls come to what `call` says. There is no telling if `call` does not
say. -/
def run (call : (r : Routine) → Cursor → Option (Except ParseError (r.Tree × Cursor))) :
    Recipe α → Option (Except ParseError α)
  | ends result => some result
  | calls r c next =>
    match call r c with
    | none => none
    | some (.error e) => some (.error e)
    | some (.ok p) => (next p).run call

/-- A call that a recipe makes when the calls before it have come to what the readers read. -/
inductive Makes : Recipe α → Call → Prop
  | here {r : Routine} {c : Cursor} {next : r.Tree × Cursor → Recipe α} :
    Makes (calls r c next) ⟨r, c⟩
  | later {r : Routine} {c : Cursor} {next : r.Tree × Cursor → Recipe α} {p : r.Tree × Cursor}
    {q : Call} (hread : r.read c = .ok p) (h : (next p).Makes q) : Makes (calls r c next) q

end Recipe

namespace Routine

open Recipe

/-! The recipes mirror the readers, but none looks at how many tokens are left. -/

def exprRecipe (min : Tier) (c : Cursor) : Recipe (Expr × Cursor) :=
  calls primary c fun first =>
  calls (operators min first.1) first.2 fun e => ends (.ok e)

def operatorsRecipe (min : Tier) (left : Expr) (c : Cursor) : Recipe (Expr × Cursor) :=
  match Operator.ofKind? c.kind with
  | none => ends (.ok (left, c))
  | some op =>
    if min ≤ op.tier then
      calls take c fun mark =>
      calls (expr op.tier.tighter) mark.2 fun right =>
      calls (operators min (.binary op left right.1)) right.2 fun e => ends (.ok e)
    else ends (.ok (left, c))

def primaryRecipe (c : Cursor) : Recipe (Expr × Cursor) :=
  match c.kind with
  | .symbol .leftParen =>
    calls take c fun opening =>
    calls (expr .lowest) opening.2 fun inner =>
    calls (require (.symbol .rightParen)) inner.2 fun closing =>
    ends (.ok (inner.1, closing.2))
  | .symbol .rightParen => ends (.ok (.void, c))
  | .identifier =>
    if c.nextKind = .symbol .leftParen then
      calls (require .identifier) c fun callee =>
      calls (require (.symbol .leftParen)) callee.2 fun opening =>
      calls args opening.2 fun as =>
      calls (require (.symbol .rightParen)) as.2 fun closing =>
      ends (.ok (.call callee.1.lexeme as.1, closing.2))
    else calls take c fun name => ends (.ok (.var name.1.lexeme, name.2))
  | .number =>
    calls take c fun digits =>
    match Text.readInt64? digits.1.lexeme.toList with
    | some n => ends (.ok (.int n, digits.2))
    | none => ends (.error (.badInteger digits.1.lexeme digits.1.span))
  | found => ends (.error (.noExpression found c.current.span))

def argsRecipe (c : Cursor) : Recipe (List Expr × Cursor) :=
  if c.kind = .symbol .rightParen then ends (.ok ([], c))
  else
    calls (expr .lowest) c fun arg =>
    calls (accept (.symbol .comma)) arg.2 fun comma =>
    match comma.1 with
    | some _ => calls args comma.2 fun as => ends (.ok (arg.1 :: as.1, as.2))
    | none => ends (.ok ([arg.1], comma.2))

def paramsRecipe (c : Cursor) : Recipe (List Param × Cursor) :=
  if c.kind = .identifier then
    calls (require .identifier) c fun tag =>
    calls (require .identifier) tag.2 fun name =>
    calls (accept (.symbol .comma)) name.2 fun comma =>
    match comma.1 with
    | some _ =>
      calls params comma.2 fun ps => ends (.ok (⟨⟨tag.1.lexeme⟩, name.1.lexeme⟩ :: ps.1, ps.2))
    | none => ends (.ok ([⟨⟨tag.1.lexeme⟩, name.1.lexeme⟩], comma.2))
  else ends (.ok ([], c))

def blockRecipe (c : Cursor) : Recipe (Block × Cursor) :=
  if c.kind = .symbol .rightBrace ∨ c.kind = .eof then ends (.ok ([], c))
  else
    calls stmt c fun first =>
    calls block first.2 fun others => ends (.ok (first.1 :: others.1, others.2))

def stmtRecipe (c : Cursor) : Recipe (Stmt × Cursor) :=
  match c.kind with
  | .keyword .funcWord =>
    calls (require (.keyword .funcWord)) c fun word =>
    calls (require .identifier) word.2 fun name =>
    calls (require (.symbol .leftParen)) name.2 fun opening =>
    calls params opening.2 fun ps =>
    calls (require (.symbol .rightParen)) ps.2 fun closing =>
    calls (require (.symbol .leftBrace)) closing.2 fun brace =>
    calls block brace.2 fun body =>
    calls (require (.symbol .rightBrace)) body.2 fun last =>
    ends (.ok (.function name.1.lexeme ps.1 body.1, last.2))
  | .keyword .returnWord =>
    calls (require (.keyword .returnWord)) c fun word =>
    calls (expr .lowest) word.2 fun value =>
    calls (require (.symbol .semicolon)) value.2 fun last =>
    ends (.ok (.ret value.1, last.2))
  | .keyword .ifWord =>
    calls (require (.keyword .ifWord)) c fun word =>
    calls (expr .lowest) word.2 fun condition =>
    calls (require (.symbol .leftBrace)) condition.2 fun brace =>
    calls block brace.2 fun body =>
    calls (require (.symbol .rightBrace)) body.2 fun last =>
    ends (.ok (.cond condition.1 body.1, last.2))
  | .keyword .letWord =>
    calls (require (.keyword .letWord)) c fun word =>
    calls (require .identifier) word.2 fun name =>
    calls (require (.symbol .equals)) name.2 fun equals =>
    calls (expr .lowest) equals.2 fun init =>
    calls (accept (.symbol .semicolon)) init.2 fun last =>
    ends (.ok (.bind name.1.lexeme init.1, last.2))
  | .symbol .semicolon =>
    calls take c fun mark => ends (.ok (.empty mark.1.span, mark.2))
  | .identifier | .symbol .leftParen | .string | .keyword .nullWord | .number =>
    calls (expr .lowest) c fun value =>
    calls (require (.symbol .semicolon)) value.2 fun last =>
    ends (.ok (.expr value.1, last.2))
  | found => ends (.error (.noStatement found c.current.span))

/-- What a routine does at a cursor. -/
def recipe : (r : Routine) → Cursor → Recipe (r.Tree × Cursor)
  | take, c => ends (take.read c)
  | require k, c => ends ((require k).read c)
  | accept k, c => ends ((accept k).read c)
  | expr min, c => exprRecipe min c
  | operators min left, c => operatorsRecipe min left c
  | primary, c => primaryRecipe c
  | args, c => argsRecipe c
  | params, c => paramsRecipe c
  | block, c => blockRecipe c
  | stmt, c => stmtRecipe c

/-- How a routine ends if calls nest less than `n` deep, and nothing otherwise. -/
def within (n : Nat) (r : Routine) (c : Cursor) : Option (Except ParseError (r.Tree × Cursor)) :=
  match n with
  | 0 => none
  | n + 1 => (r.recipe c).run (within n)

end Routine

/-- The call `next` is made in the course of the call `q`. -/
def Call.Starts (q next : Call) : Prop := (q.routine.recipe q.cursor).Makes next

/-! ### Recipes and readers -/

namespace Recipe

variable {α : Type}

/-- How a recipe ends if the calls come to what the readers read. -/
def result : Recipe α → Except ParseError α
  | ends result => result
  | calls r c next => (r.read c).bind fun p => (next p).result

@[simp] lemma result_ends (x : Except ParseError α) : (ends x).result = x := rfl

@[simp] lemma result_calls (r : Routine) (c : Cursor) (next : r.Tree × Cursor → Recipe α) :
    (calls r c next).result = (r.read c).bind fun p => (next p).result := rfl

/-- It is enough if the calls that are made come to what the readers read. -/
lemma run_eq_result {call : (r : Routine) → Cursor → Option (Except ParseError (r.Tree × Cursor))}
    {x : Recipe α}
    (h : ∀ q : Call, x.Makes q → call q.routine q.cursor = some (q.routine.read q.cursor)) :
    x.run call = some x.result := by
  induction x with
  | ends result => rfl
  | calls r c next ih =>
    have hcall := h ⟨r, c⟩ .here
    simp only at hcall
    rw [run, hcall, result]
    cases hread : r.read c with
    | error e => rfl
    | ok p => exact ih p fun q hq => h q (.later hread hq)

end Recipe

lemma bind_ok {α : Type} (x : Except ParseError α) : (x.bind fun a => .ok a) = x := by
  cases x <;> rfl

namespace Routine

open Recipe

section

variable {c : Cursor}

lemma result_operators (min : Tier) (left : Expr) :
    (operatorsRecipe min left c).result = (operators min left).read c := by
  cases hk : Operator.ofKind? c.kind with
  | none =>
    have hstop : Stops min c.kind := by
      intro op hop
      rw [Operator.ofKind?_eq_some_iff.2 hop] at hk
      cases hk
    simp only [operatorsRecipe, hk, result_ends, read, readOperators_stop hstop]
  | some op =>
    have hop := Operator.ofKind?_eq_some_iff.1 hk
    by_cases hmin : min ≤ op.tier
    · simp only [operatorsRecipe, hk, if_pos hmin, result_calls, result_ends, bind_ok, read,
        readOperators_more hop hmin]
    · have hstop : Stops min c.kind := by
        intro op' hop'
        obtain rfl := Kind.operator.inj (hop.symm.trans hop')
        exact hmin
      simp only [operatorsRecipe, hk, if_neg hmin, result_ends, read, readOperators_stop hstop]

lemma result_primary : (primaryRecipe c).result = primary.read c := by
  unfold primaryRecipe
  split
  · next hk => simp only [result_calls, result_ends, read, readPrimary_paren hk]
  · next hk => simp only [result_ends, read, readPrimary_nothing hk]
  · next hk =>
    split
    · next hn => simp only [result_calls, result_ends, read, readPrimary_call hk hn]
    · next hn => simp only [result_calls, result_ends, read, readPrimary_var hk hn]
  · next hk =>
    simp only [result_calls, read, readPrimary_number hk]
    refine congrArg _ (funext fun digits => ?_)
    cases Text.readInt64? digits.1.lexeme.toList <;> rfl
  · next h₁ h₂ h₃ h₄ =>
    simp only [result_ends, read, readPrimary_other h₁ h₂ h₃ h₄]

lemma result_args : (argsRecipe c).result = args.read c := by
  unfold argsRecipe
  rw [read, readArgs_upto]
  split
  · rfl
  · simp only [result_calls, read]
    refine congrArg _ (funext fun arg => ?_)
    rcases arg.2.expect?_cases (.symbol .comma) with ⟨comma, c', hcomma, -⟩ | ⟨hcomma, -⟩
    · simp only [hcomma, Except.bind, result_calls, result_ends, read]
    · simp only [hcomma, Except.bind, result_ends]

lemma result_params : (paramsRecipe c).result = params.read c := by
  unfold paramsRecipe
  rw [read, readParams_upto]
  split
  · simp only [result_calls, read]
    refine congrArg _ (funext fun tag => congrArg _ (funext fun name => ?_))
    rcases name.2.expect?_cases (.symbol .comma) with ⟨comma, c', hcomma, -⟩ | ⟨hcomma, -⟩
    · simp only [hcomma, Except.bind, result_calls, result_ends, read]
    · simp only [hcomma, Except.bind, result_ends]
  · rfl

lemma result_block : (blockRecipe c).result = block.read c := by
  unfold blockRecipe
  rw [read, readBlock_upto]
  split
  · rfl
  · simp only [result_calls, result_ends, read]

lemma result_stmt : (stmtRecipe c).result = stmt.read c := by
  unfold stmtRecipe
  split
  · next hk => simp only [result_calls, result_ends, read, readStmt_function hk]
  · next hk => simp only [result_calls, result_ends, read, readStmt_ret hk]
  · next hk => simp only [result_calls, result_ends, read, readStmt_cond hk]
  · next hk => simp only [result_calls, result_ends, read, readStmt_bind hk, Except.bind]
  · next hk => simp only [result_calls, result_ends, read, readStmt_empty hk]
  · next hk => simp only [result_calls, result_ends, read, readStmt_expr (.inl hk)]
  · next hk => simp only [result_calls, result_ends, read, readStmt_expr (.inr (.inl hk))]
  · next hk => simp only [result_calls, result_ends, read, readStmt_expr (.inr (.inr (.inl hk)))]
  · next hk =>
    simp only [result_calls, result_ends, read, readStmt_expr (.inr (.inr (.inr (.inl hk))))]
  · next hk =>
    simp only [result_calls, result_ends, read, readStmt_expr (.inr (.inr (.inr (.inr hk))))]
  · next hf hr hi hl hs h₁ h₂ h₃ h₄ h₅ =>
    have hother : ¬opensExpr c.kind := by
      simp only [opensExpr, not_or]
      exact ⟨h₁, h₂, h₃, h₄, h₅⟩
    simp only [result_ends, read, readStmt_other hf hr hi hl hs hother]

end

/-- The readers read what the routines come to. -/
lemma result_recipe (r : Routine) (c : Cursor) : (r.recipe c).result = r.read c := by
  cases r with
  | take | require _ | accept _ => rfl
  | expr min => simp only [recipe, exprRecipe, result_calls, result_ends, bind_ok, read, readExpr_upto]
  | operators min left => exact result_operators min left
  | primary => exact result_primary
  | args => exact result_args
  | params => exact result_params
  | block => exact result_block
  | stmt => exact result_stmt

end Routine

/-! ### Tokens passed -/

/-- No tokens are an expression only if it is void. -/
lemma Derives.heq_void {p : Phrase} {w : List Token} {next : Kind} {t : p.Tree}
    (h : Derives p w next t) (hp : p.IsExpr) (hw : w = []) : HEq t Expr.void := by
  induction h with
  | nothing => rfl
  | factor _ ih => exact ih hp hw
  | summand _ ih => exact ih hp hw
  | paren | call | var | int | times | plus => simp at hw
  | _ => exact hp.elim

/-- An expression that passes no token is void, and stands before a closing parenthesis. -/
lemma readExpr_passes {min : Tier} {c c' : Cursor} {e : Expr}
    (h : (readExpr min c).upto = .ok (e, c')) :
    ∃ w, c.Passes w c' ∧ (w = [] → c.kind = .symbol .rightParen ∧ e = .void) := by
  obtain ⟨w, hw, hclimbed, -⟩ := expr_sound.1 min c e c' h
  have hsum := hclimbed.derives_sum
  refine ⟨w, hw, fun hnil => ⟨?_, eq_of_heq (hsum.heq_void trivial hnil)⟩⟩
  rw [hw.kind, hnil, firstKind_nil]
  exact hsum.eq_rightParen trivial hnil

/-- A statement passes at least one token. -/
lemma readStmt_passes {c c' : Cursor} {s : Stmt} (h : (readStmt c).below = .ok (s, c')) :
    ∃ w, w ≠ [] ∧ c.Passes w c' := by
  obtain ⟨w, hw, hstmt⟩ := block_sound.2 c s c' h
  refine ⟨w, ?_, hw⟩
  rintro rfl
  exact absurd (hstmt.firstKind_stmt .eof) (by decide)

lemma readOperators_passes {min : Tier} {left e : Expr} {c c' : Cursor}
    (h : (readOperators min left c).upto = .ok (e, c')) : ∃ w, c.Passes w c' := by
  induction hn : c.left using Nat.strongRecOn generalizing left c with
  | ind n ih =>
    by_cases hstop : Stops min c.kind
    · rw [readOperators_stop hstop] at h
      obtain ⟨-, rfl⟩ := Prod.mk.inj (Except.ok.inj h)
      exact ⟨[], .refl c⟩
    · simp only [Stops, not_forall, not_not] at hstop
      obtain ⟨op, hk, hmin⟩ := hstop
      rw [readOperators_more hk hmin] at h
      simp only [bind_eq_ok_iff] at h
      obtain ⟨m, hmark, r, hright, hmore⟩ := h
      obtain ⟨mark, rfl⟩ := exists_below hmark
      obtain ⟨right, rfl⟩ := exists_upto hright
      obtain ⟨v, hv, -⟩ := readExpr_passes hright
      have hless : right.rest.left < n := by
        have hmore : mark.rest.left < n := hn ▸ mark.fits
        exact Nat.lt_of_le_of_lt right.fits hmore
      obtain ⟨u, hu⟩ := ih _ hless hmore rfl
      exact ⟨_, (Cursor.take_eq_ok_iff.1 hmark).trans (hv.trans hu)⟩

namespace Routine

/-- What a routine reads stands between the cursor before and the cursor after. -/
lemma exists_passes_of_read {r : Routine} {c : Cursor} {p : r.Tree × Cursor}
    (h : r.read c = .ok p) : ∃ w, c.Passes w p.2 := by
  cases r with
  | take => exact ⟨_, Cursor.take_eq_ok_iff.1 h⟩
  | require k => exact ⟨_, (Cursor.require_eq_ok_iff.1 h).1⟩
  | accept k =>
    obtain rfl := Except.ok.inj h
    rcases c.expect?_cases k with ⟨t, c', hk, hw, -⟩ | ⟨hk, -⟩
    · exact ⟨[t], by rwa [hk]⟩
    · exact ⟨[], by rw [hk]; exact .refl c⟩
  | expr min =>
    obtain ⟨w, hw, -⟩ := readExpr_passes h
    exact ⟨w, hw⟩
  | operators min left => exact readOperators_passes h
  | primary =>
    obtain ⟨w, hw, -⟩ := expr_sound.2.2.1 c _ _ h
    exact ⟨w, hw⟩
  | args =>
    obtain ⟨w, hw, -⟩ := expr_sound.2.2.2 c _ _ h
    exact ⟨w, hw⟩
  | params =>
    obtain ⟨w, hw, -⟩ := readParams_sound h
    exact ⟨w, hw⟩
  | block =>
    obtain ⟨w, hw, -⟩ := readBlock_sound h
    exact ⟨w, hw⟩
  | stmt =>
    obtain ⟨w, -, hw⟩ := readStmt_passes h
    exact ⟨w, hw⟩

end Routine

/-! ### Calls made by a call -/

namespace Call

variable {q next : Call}

/-- The call `next` starts where `q` does, or further on; and if it starts at the same token, it is
of a lower rank. -/
def Above (q next : Call) : Prop :=
  ∃ w, q.cursor.Passes w next.cursor ∧ (w = [] → next.routine.rank < q.routine.rank)

/-- The cursor stands further on than the call starts. -/
def Passed (q : Call) (c : Cursor) : Prop := ∃ w, w ≠ [] ∧ q.cursor.Passes w c

end Call

namespace Recipe

variable {α : Type} {q : Call} {r : Routine} {c : Cursor} {w : List Token}
  {next : r.Tree × Cursor → Recipe α}

/-- The calls that a recipe makes are below the call that follows it. -/
def Descends (x : Recipe α) (q : Call) : Prop := ∀ next, x.Makes next → q.Above next

lemma descends_ends (x : Except ParseError α) : (ends x).Descends q := by
  intro next hnext
  cases hnext

lemma descends_calls (hcall : q.Above ⟨r, c⟩)
    (h : ∀ p, r.read c = .ok p → (next p).Descends q) : (calls r c next).Descends q := by
  intro q' hq'
  cases hq' with
  | here => exact hcall
  | later hread hmakes => exact h _ hread _ hmakes

/-- A call of lower rank can be made anywhere. -/
lemma descends_of_rank (hc : q.cursor.Passes w c) (hrank : r.rank < q.routine.rank)
    (h : ∀ p v, r.read c = .ok p → q.cursor.Passes v p.2 → (next p).Descends q) :
    (calls r c next).Descends q := by
  refine descends_calls ⟨w, hc, fun _ => hrank⟩ fun p hp => ?_
  obtain ⟨v, hv⟩ := Routine.exists_passes_of_read hp
  exact h p _ hp (hc.trans hv)

/-- Further on, any call can be made. -/
lemma descends_of_passed (hc : q.Passed c)
    (h : ∀ p, q.Passed p.2 → (next p).Descends q) : (calls r c next).Descends q := by
  obtain ⟨w, hne, hw⟩ := hc
  refine descends_calls ⟨w, hw, fun hnil => absurd hnil hne⟩ fun p hp => ?_
  obtain ⟨v, hv⟩ := Routine.exists_passes_of_read hp
  exact h p ⟨w ++ v, List.append_ne_nil_of_left_ne_nil hne v, hw.trans hv⟩

lemma descends_of_take {next : Token × Cursor → Recipe α} (hrank : 0 < r.rank)
    (h : ∀ p, Call.Passed ⟨r, c⟩ p.2 → (next p).Descends ⟨r, c⟩) :
    (calls .take c next).Descends ⟨r, c⟩ :=
  descends_of_rank (.refl c) hrank fun p _ hp _ =>
    h p ⟨[p.1], List.cons_ne_nil _ _, Cursor.take_eq_ok_iff.1 hp⟩

lemma descends_of_require {k : Kind} {next : Token × Cursor → Recipe α} (hrank : 0 < r.rank)
    (h : ∀ p, Call.Passed ⟨r, c⟩ p.2 → (next p).Descends ⟨r, c⟩) :
    (calls (.require k) c next).Descends ⟨r, c⟩ :=
  descends_of_rank (.refl c) hrank fun p _ hp _ =>
    h p ⟨[p.1], List.cons_ne_nil _ _, (Cursor.require_eq_ok_iff.1 hp).1⟩

end Recipe

namespace Routine

open Recipe

variable {c : Cursor}

lemma descends_expr (min : Tier) : (exprRecipe min c).Descends ⟨expr min, c⟩ :=
  descends_of_rank (.refl c) (by simp [rank]) fun first _ _ hfirst =>
  descends_of_rank hfirst (by simp [rank]) fun e _ _ _ => descends_ends _

lemma descends_operators (min : Tier) (left : Expr) :
    (operatorsRecipe min left c).Descends ⟨operators min left, c⟩ := by
  unfold operatorsRecipe
  split
  · exact descends_ends _
  · split
    · exact descends_of_take (by simp [rank]) fun mark hmark =>
        descends_of_passed hmark fun right hright =>
        descends_of_passed hright fun e _ => descends_ends _
    · exact descends_ends _

lemma descends_primary : (primaryRecipe c).Descends ⟨primary, c⟩ := by
  unfold primaryRecipe
  split
  · exact descends_of_take (by simp [rank]) fun opening hopening =>
      descends_of_passed hopening fun inner hinner =>
      descends_of_passed hinner fun closing _ => descends_ends _
  · exact descends_ends _
  · split
    · exact descends_of_require (by simp [rank]) fun callee hcallee =>
        descends_of_passed hcallee fun opening hopening =>
        descends_of_passed hopening fun as has =>
        descends_of_passed has fun closing _ => descends_ends _
    · exact descends_of_take (by simp [rank]) fun name _ => descends_ends _
  · refine descends_of_take (by simp [rank]) fun digits _ => ?_
    split <;> exact descends_ends _
  · exact descends_ends _

/-- The rounds of the loop over arguments are set apart by commas. -/
lemma descends_args : (argsRecipe c).Descends ⟨args, c⟩ := by
  unfold argsRecipe
  split
  · exact descends_ends _
  · refine descends_of_rank (.refl c) (by simp [rank]) fun arg w _ harg => ?_
    refine descends_of_rank harg (by simp [rank]) fun comma _ hcomma _ => ?_
    split
    · next t ht =>
      have haccept : arg.2.expect? (.symbol .comma) = (some t, comma.2) := by
        rw [← ht]
        exact Except.ok.inj hcomma
      have hmore : Call.Passed ⟨args, c⟩ comma.2 :=
        ⟨w ++ [t], List.concat_ne_nil t w, harg.trans (Cursor.passes_of_expect? haccept).1⟩
      exact descends_of_passed hmore fun as _ => descends_ends _
    · exact descends_ends _

lemma descends_params : (paramsRecipe c).Descends ⟨params, c⟩ := by
  unfold paramsRecipe
  split
  · refine descends_of_require (by simp [rank]) fun tag htag =>
      descends_of_passed htag fun name hname =>
      descends_of_passed hname fun comma hcomma => ?_
    split
    · exact descends_of_passed hcomma fun ps _ => descends_ends _
    · exact descends_ends _
  · exact descends_ends _

/-- The rounds of the loop over statements are set apart by the statements. -/
lemma descends_block : (blockRecipe c).Descends ⟨block, c⟩ := by
  unfold blockRecipe
  split
  · exact descends_ends _
  · exact descends_of_rank (.refl c) (by simp [rank]) fun first _ hfirst _ =>
      descends_of_passed (readStmt_passes hfirst) fun others _ => descends_ends _

lemma descends_stmt : (stmtRecipe c).Descends ⟨stmt, c⟩ := by
  have hexpr : (calls (expr .lowest) c fun value => calls (require (.symbol .semicolon)) value.2
      fun last => ends (.ok (Stmt.expr value.1, last.2))).Descends ⟨stmt, c⟩ :=
    descends_of_rank (.refl c) (by simp [rank]) fun value _ _ hvalue =>
    descends_of_rank hvalue (by simp [rank]) fun last _ _ _ => descends_ends _
  unfold stmtRecipe
  split
  · exact descends_of_require (by simp [rank]) fun word hword =>
      descends_of_passed hword fun name hname =>
      descends_of_passed hname fun opening hopening =>
      descends_of_passed hopening fun ps hps =>
      descends_of_passed hps fun closing hclosing =>
      descends_of_passed hclosing fun brace hbrace =>
      descends_of_passed hbrace fun body hbody =>
      descends_of_passed hbody fun last _ => descends_ends _
  · exact descends_of_require (by simp [rank]) fun word hword =>
      descends_of_passed hword fun value hvalue =>
      descends_of_passed hvalue fun last _ => descends_ends _
  · exact descends_of_require (by simp [rank]) fun word hword =>
      descends_of_passed hword fun condition hcondition =>
      descends_of_passed hcondition fun brace hbrace =>
      descends_of_passed hbrace fun body hbody =>
      descends_of_passed hbody fun last _ => descends_ends _
  · exact descends_of_require (by simp [rank]) fun word hword =>
      descends_of_passed hword fun name hname =>
      descends_of_passed hname fun equals hequals =>
      descends_of_passed hequals fun init hinit =>
      descends_of_passed hinit fun last _ => descends_ends _
  · exact descends_of_take (by simp [rank]) fun mark _ => descends_ends _
  · exact hexpr
  · exact hexpr
  · exact hexpr
  · exact hexpr
  · exact hexpr
  · exact descends_ends _

end Routine

namespace Call

variable {q next : Call}

/-- A call made by another starts further on, or is of a lower rank. -/
lemma Starts.above (h : q.Starts next) : q.Above next := by
  obtain ⟨r, c⟩ := q
  cases r with
  | take | require _ | accept _ => exact absurd h (by rintro ⟨⟩)
  | expr min => exact Routine.descends_expr min next h
  | operators min left => exact Routine.descends_operators min left next h
  | primary => exact Routine.descends_primary next h
  | args => exact Routine.descends_args next h
  | params => exact Routine.descends_params next h
  | block => exact Routine.descends_block next h
  | stmt => exact Routine.descends_stmt next h

/-- A bound on how deep the calls below a call can nest. -/
def size (q : Call) : Nat := 5 * q.cursor.left + q.routine.rank

lemma Above.size_lt (h : q.Above next) : next.size < q.size := by
  obtain ⟨w, hw, hrank⟩ := h
  have hleft : q.cursor.left = w.length + next.cursor.left := by
    rw [Cursor.left, hw.ahead, List.length_append, Cursor.left]
  have hle : next.routine.rank ≤ 4 := by
    cases next.routine <;> simp [Routine.rank]
  unfold size
  cases w with
  | nil =>
    have hlower := hrank rfl
    rw [List.length_nil] at hleft
    omega
  | cons t w =>
    rw [List.length_cons] at hleft
    omega

/-- No call leads to calls without end. -/
lemma wellFounded_starts : WellFounded fun next q : Call => q.Starts next :=
  Subrelation.wf (fun h => h.above.size_lt) (measure size).wf

/-- The calls alone lead to what is read, if they may nest deep enough. -/
lemma within_eq_read (q : Call) (n : Nat) (h : q.size < n) :
    Routine.within n q.routine q.cursor = some (q.routine.read q.cursor) := by
  induction n generalizing q with
  | zero => exact absurd h (Nat.not_lt_zero _)
  | succ n ih =>
    have hcalls : ∀ next, q.Starts next →
        Routine.within n next.routine next.cursor = some (next.routine.read next.cursor) := by
      intro next hnext
      have hless := hnext.above.size_lt
      exact ih next (by omega)
    rw [Routine.within, Recipe.run_eq_result hcalls, Routine.result_recipe]

end Call

/-! ### Whole streams -/

namespace Cursor

/-- The cursor has come from the start of the stream past tokens of its body, and past nothing
else. -/
def StandsIn (c : Cursor) (ts : TokenStream) : Prop := ∃ w, (start ts).Passes w c

variable {c c' : Cursor} {ts : TokenStream}

lemma StandsIn.of_passes {w : List Token} (h : c.StandsIn ts) (hw : c.Passes w c') :
    c'.StandsIn ts := by
  obtain ⟨v, hv⟩ := h
  exact ⟨v ++ w, hv.trans hw⟩

/-- Requiring a token passes it, whatever it is, unless it is the sentinel. -/
lemma StandsIn.expect (h : c.StandsIn ts) (k : Kind) : (c.expect k).2.StandsIn ts := by
  rcases hadvance : c.advance with ⟨e | t, c₁⟩
  · have hstays : c₁ = c := by
      unfold advance at hadvance
      split at hadvance
      · cases hadvance
      · exact (Prod.mk.inj hadvance).2.symm
    rwa [Cursor.expect, hadvance, hstays]
  · rw [Cursor.expect, hadvance]
    exact h.of_passes (advance_eq_ok_iff.1 hadvance)

end Cursor

lemma Call.standsIn_of_reached {ts : TokenStream} {q : Call}
    (h : Relation.ReflTransGen Starts ⟨.block, .start ts⟩ q) : q.cursor.StandsIn ts := by
  induction h with
  | refl => exact ⟨[], .refl _⟩
  | tail _ hstep ih =>
    obtain ⟨w, hw, -⟩ := hstep.above
    exact ih.of_passes hw

lemma TokenStream.result_parse (ts : TokenStream) :
    ts.parse.result = (readBlock (.start ts)).upto.map Prod.fst := by
  rw [parse, Reading.result_bind, upto, view]
  cases (readBlock (.start ts)).result <;> rfl

/-- **Parsing ends** on every stream. The calls alone lead to the result, if they may nest five times
as deep as there are tokens. No cursor on the way leaves the stream or passes the sentinel. Every
call that another makes, and so every round of a loop, starts further on or is of a lower rank, and
hence no call leads to calls without end. This rests on two facts: a statement passes at least one
token, and an expression passes none only where it is void, before a closing parenthesis. -/
theorem TokenStream.parse_descends (ts : TokenStream) :
    (∀ n ≥ 5 * ts.size,
      (Routine.within n .block (.start ts)).map (Except.map Prod.fst) = some ts.parse.result) ∧
    (∀ q, Relation.ReflTransGen Call.Starts ⟨.block, .start ts⟩ q →
      q.cursor.StandsIn ts ∧ (∀ k, (q.cursor.expect k).2.StandsIn ts) ∧
        ∀ p, q.routine.read q.cursor = .ok p → p.2.StandsIn ts) ∧
    (∀ q next, Call.Starts q next → q.Above next) ∧
    WellFounded (fun next q => Call.Starts q next) ∧
    (∀ c s c', (readStmt c).below = .ok (s, c') → ∃ w, w ≠ [] ∧ c.Passes w c') ∧
    ∀ min c e c', (readExpr min c).upto = .ok (e, c') →
      ∃ w, c.Passes w c' ∧ (w = [] → c.kind = .symbol .rightParen ∧ e = .void) := by
  refine ⟨fun n hn => ?_, fun q hq => ?_, fun q next => Call.Starts.above, Call.wellFounded_starts,
    fun c s c' => readStmt_passes, fun min c e c' => readExpr_passes⟩
  · have hdepth : (Call.mk .block (.start ts)).size < n := by
      rw [size_eq] at hn
      have hleft : (Cursor.start ts).left = ts.body.length := rfl
      simp only [Call.size, Routine.rank, hleft]
      omega
    have hread := Call.within_eq_read ⟨.block, .start ts⟩ n hdepth
    rw [result_parse, hread]
    rfl
  · have hcursor := Call.standsIn_of_reached hq
    refine ⟨hcursor, hcursor.expect, fun p hp => ?_⟩
    obtain ⟨w, hw⟩ := Routine.exists_passes_of_read hp
    exact hcursor.of_passes hw

/-- An operand that passes no token, in the loops over operators and over arguments. -/
theorem TokenStream.parse_descends_void_operand :
    let ts := TokenStream.ofTokens
      [⟨"f", .identifier, ⟨0, 1⟩⟩, ⟨"(", .symbol .leftParen, ⟨1, 2⟩⟩, ⟨"1", .number, ⟨2, 3⟩⟩,
        ⟨"+", .operator .add, ⟨3, 4⟩⟩, ⟨")", .symbol .rightParen, ⟨4, 5⟩⟩,
        ⟨";", .symbol .semicolon, ⟨5, 6⟩⟩] 6
    (Routine.within 35 .block (.start ts)).map (Except.map Prod.fst) =
      some (.ok [.expr (.call "f" [.binary .add (.int 1) .void])]) := by
  intro ts
  have hsize : ts.size = 7 := by
    subst ts
    rfl
  have hparse : ts.parse.result = .ok [.expr (.call "f" [.binary .add (.int 1) .void])] := by
    subst ts
    cbv
  have hends := ts.parse_descends.1 35 (by rw [hsize])
  rwa [hparse] at hends

end Flame
