import Flame.Proofs.Readers

/-!
The grammar of programs, as an inductive relation.

`Derives p w next t` says that the tokens `w`, when a token of kind `next` follows them, form the
tree `t` of a phrase of kind `p`. The rules do not mention readers. What follows matters in three
places only: a name before an opening parenthesis is not a variable, nothing at all is a primary
before a closing parenthesis, and a binding goes on up to a semicolon if there is one.
-/

namespace Flame

/-- The text is a decimal numeral of the number: at most one sign, then digits. -/
inductive Numeral : List Char → Int → Prop
  | unsigned {ds : List Char} (ne : ds ≠ []) (digits : ∀ d ∈ ds, d.isDigit) :
    Numeral ds (Nat.ofDigitChars 10 ds 0)
  | plus {ds : List Char} (ne : ds ≠ []) (digits : ∀ d ∈ ds, d.isDigit) :
    Numeral ('+' :: ds) (Nat.ofDigitChars 10 ds 0)
  | minus {ds : List Char} (ne : ds ≠ []) (digits : ∀ d ∈ ds, d.isDigit) :
    Numeral ('-' :: ds) (-(Nat.ofDigitChars 10 ds 0))

/-- The kinds of phrases. -/
inductive Phrase
  | primary | term | sum | args | params | stmt | block

/-- The trees that phrases of a kind form. -/
abbrev Phrase.Tree : Phrase → Type
  | primary | term | sum => Expr
  | args => List Expr
  | params => List Param
  | stmt => Stmt
  | block => Block

/-- The tokens `w`, followed by a token of kind `next`, form a tree. -/
inductive Derives : (p : Phrase) → (w : List Token) → (next : Kind) → p.Tree → Prop
  -- primaries
  | paren {o r : Token} {w : List Token} {next : Kind} {e : Expr}
    (ho : o.kind = .symbol .leftParen) (inner : Derives .sum w (.symbol .rightParen) e)
    (hr : r.kind = .symbol .rightParen) : Derives .primary (o :: (w ++ [r])) next e
  | nothing : Derives .primary [] (.symbol .rightParen) Expr.void
  | call {f o r : Token} {w : List Token} {next : Kind} {as : List Expr}
    (hf : f.kind = .identifier) (ho : o.kind = .symbol .leftParen)
    (inner : Derives .args w (.symbol .rightParen) as) (hr : r.kind = .symbol .rightParen) :
    Derives .primary (f :: o :: (w ++ [r])) next (Expr.call f.lexeme as)
  | var {x : Token} {next : Kind} (hx : x.kind = .identifier) (hn : next ≠ .symbol .leftParen) :
    Derives .primary [x] next (Expr.var x.lexeme)
  | int {d : Token} {next : Kind} {n : Int64} (hd : d.kind = .number)
    (value : Numeral d.lexeme.toList n.toInt) : Derives .primary [d] next (Expr.int n)
  -- terms and sums, which group to the left
  | factor {w : List Token} {next : Kind} {e : Expr} (inner : Derives .primary w next e) :
    Derives .term w next e
  | times {w v : List Token} {m : Token} {next : Kind} {op : Operator} {l r : Expr}
    (hop : op = .mul ∨ op = .div) (hm : m.kind = .operator op)
    (left : Derives .term w (.operator op) l) (right : Derives .primary v next r) :
    Derives .term (w ++ m :: v) next (Expr.binary op l r)
  | summand {w : List Token} {next : Kind} {e : Expr} (inner : Derives .term w next e) :
    Derives .sum w next e
  | plus {w v : List Token} {m : Token} {next : Kind} {op : Operator} {l r : Expr}
    (hop : op = .add ∨ op = .sub) (hm : m.kind = .operator op)
    (left : Derives .sum w (.operator op) l) (right : Derives .term v next r) :
    Derives .sum (w ++ m :: v) next (Expr.binary op l r)
  -- arguments, none of which stands at a closing parenthesis
  | noArgs {next : Kind} : Derives .args [] next ([] : List Expr)
  | lastArg {w : List Token} {next : Kind} {e : Expr}
    (hw : firstKind w next ≠ .symbol .rightParen) (arg : Derives .sum w next e) :
    Derives .args w next [e]
  | moreArgs {w v : List Token} {m : Token} {next : Kind} {e : Expr} {es : List Expr}
    (hw : firstKind w (.symbol .comma) ≠ .symbol .rightParen)
    (arg : Derives .sum w (.symbol .comma) e) (hm : m.kind = .symbol .comma)
    (others : Derives .args v next es) : Derives .args (w ++ m :: v) next (e :: es)
  -- parameters
  | noParams {next : Kind} : Derives .params [] next ([] : List Param)
  | lastParam {t x : Token} {next : Kind} (ht : t.kind = .identifier) (hx : x.kind = .identifier) :
    Derives .params [t, x] next [⟨⟨t.lexeme⟩, x.lexeme⟩]
  | moreParams {t x m : Token} {v : List Token} {next : Kind} {ps : List Param}
    (ht : t.kind = .identifier) (hx : x.kind = .identifier) (hm : m.kind = .symbol .comma)
    (others : Derives .params v next ps) :
    Derives .params (t :: x :: m :: v) next (⟨⟨t.lexeme⟩, x.lexeme⟩ :: ps)
  -- statements
  | function {k x o r b l : Token} {w v : List Token} {next : Kind} {ps : List Param} {ss : Block}
    (hk : k.kind = .keyword .funcWord) (hx : x.kind = .identifier)
    (ho : o.kind = .symbol .leftParen) (params : Derives .params w (.symbol .rightParen) ps)
    (hr : r.kind = .symbol .rightParen) (hb : b.kind = .symbol .leftBrace)
    (body : Derives .block v (.symbol .rightBrace) ss) (hl : l.kind = .symbol .rightBrace) :
    Derives .stmt (k :: x :: o :: (w ++ r :: b :: (v ++ [l]))) next (.function x.lexeme ps ss)
  | ret {k l : Token} {w : List Token} {next : Kind} {e : Expr}
    (hk : k.kind = .keyword .returnWord) (value : Derives .sum w (.symbol .semicolon) e)
    (hl : l.kind = .symbol .semicolon) : Derives .stmt (k :: (w ++ [l])) next (.ret e)
  | cond {k b l : Token} {w v : List Token} {next : Kind} {e : Expr} {ss : Block}
    (hk : k.kind = .keyword .ifWord) (condition : Derives .sum w (.symbol .leftBrace) e)
    (hb : b.kind = .symbol .leftBrace) (body : Derives .block v (.symbol .rightBrace) ss)
    (hl : l.kind = .symbol .rightBrace) :
    Derives .stmt (k :: (w ++ b :: (v ++ [l]))) next (.cond e ss)
  | expr {l : Token} {w : List Token} {next : Kind} {e : Expr}
    (hw : firstKind w (.symbol .semicolon) ∈ [.identifier, .symbol .leftParen, .number])
    (value : Derives .sum w (.symbol .semicolon) e) (hl : l.kind = .symbol .semicolon) :
    Derives .stmt (w ++ [l]) next (.expr e)
  | bindEnded {k x q l : Token} {w : List Token} {next : Kind} {e : Expr}
    (hk : k.kind = .keyword .letWord) (hx : x.kind = .identifier) (hq : q.kind = .symbol .equals)
    (init : Derives .sum w (.symbol .semicolon) e) (hl : l.kind = .symbol .semicolon) :
    Derives .stmt (k :: x :: q :: (w ++ [l])) next (.bind x.lexeme e)
  | bindOpen {k x q : Token} {w : List Token} {next : Kind} {e : Expr}
    (hk : k.kind = .keyword .letWord) (hx : x.kind = .identifier) (hq : q.kind = .symbol .equals)
    (init : Derives .sum w next e) (hn : next ≠ .symbol .semicolon) :
    Derives .stmt (k :: x :: q :: w) next (.bind x.lexeme e)
  | empty {m : Token} {next : Kind} (hm : m.kind = .symbol .semicolon) :
    Derives .stmt [m] next (.empty m.span)
  -- blocks
  | nil {next : Kind} : Derives .block [] next ([] : Block)
  | cons {w v : List Token} {next : Kind} {s : Stmt} {ss : Block}
    (first : Derives .stmt w (firstKind v next) s) (others : Derives .block v next ss) :
    Derives .block (w ++ v) next (s :: ss)

/-- The tokens before the first closing brace that `depth` opening braces and those among the
tokens do not match: all of them if there is none. -/
def beforeUnmatched (depth : Nat) : List Token → List Token
  | [] => []
  | t :: ts =>
    if t.kind = .symbol .leftBrace then t :: beforeUnmatched (depth + 1) ts
    else if t.kind = .symbol .rightBrace then
      if depth = 0 then [] else t :: beforeUnmatched (depth - 1) ts
    else t :: beforeUnmatched depth ts

/-- The tokens of a stream that belong to its program. -/
def TokenStream.programTokens (ts : TokenStream) : List Token := beforeUnmatched 0 ts.body

/-- The kind of the token that ends the program: a closing brace or the end of the stream. -/
def TokenStream.programEnd (ts : TokenStream) : Kind :=
  firstKind (ts.body.drop ts.programTokens.length) .eof

/-- The tokens of a stream derive a program. -/
def TokenStream.DerivesProgram (ts : TokenStream) (program : Block) : Prop :=
  Derives .block ts.programTokens ts.programEnd program

/-! ### Numerals -/

lemma readNat?_eq_some_iff {ds : List Char} {m : Nat} :
    Text.readNat? ds = some m ↔
      ds ≠ [] ∧ (∀ d ∈ ds, d.isDigit) ∧ m = Nat.ofDigitChars 10 ds 0 := by
  have hval : Text.natOfDigits ds = Nat.ofDigitChars 10 ds 0 := rfl
  unfold Text.readNat?
  simp only [hval, List.all_eq_true]
  split
  · next h =>
    rw [Option.some.injEq, eq_comm]
    exact ⟨fun hm => ⟨h.1, h.2, hm⟩, fun hm => hm.2.2⟩
  · next h =>
    simp only [reduceCtorEq, false_iff]
    rintro ⟨hne, hd, -⟩
    exact h ⟨hne, hd⟩

lemma int64OfInt?_eq_some_iff {z : Int} {n : Int64} :
    Text.int64OfInt? z = some n ↔ n.toInt = z := by
  unfold Text.int64OfInt?
  constructor
  · intro h
    split at h
    · next hz =>
      obtain rfl := Option.some.inj h
      have hmax : Int64.maxValue.toInt < 2 ^ 63 := by decide
      exact Int64.toInt_ofInt_of_le hz.1 (Int.lt_of_le_of_lt hz.2 hmax)
    · cases h
  · rintro rfl
    rw [if_pos ⟨n.minValue_le_toInt, n.toInt_le⟩, Int64.ofInt_toInt]

/-- Reading a number accepts exactly the numerals of 64-bit numbers. -/
lemma readInt64?_eq_some_iff {cs : List Char} {n : Int64} :
    Text.readInt64? cs = some n ↔ Numeral cs n.toInt := by
  constructor
  · intro h
    unfold Text.readInt64? at h
    split at h
    all_goals
      obtain ⟨m, hm, hn⟩ := Option.bind_eq_some_iff.1 h
      obtain ⟨hne, hd, rfl⟩ := readNat?_eq_some_iff.1 hm
      rw [int64OfInt?_eq_some_iff.1 hn]
    · exact .minus hne hd
    · exact .plus hne hd
    · exact .unsigned hne hd
  · intro h
    generalize hz : n.toInt = z at h
    cases h with
    | @unsigned ds hne hd =>
      -- A digit stands first, so the text is not taken for a signed one.
      have hm := readNat?_eq_some_iff.2 ⟨hne, hd, rfl⟩
      unfold Text.readInt64?
      split
      · exact absurd (hd _ List.mem_cons_self) (by decide)
      · exact absurd (hd _ List.mem_cons_self) (by decide)
      · rw [hm]
        exact int64OfInt?_eq_some_iff.2 hz
    | @plus ds hne hd =>
      rw [Text.readInt64?, readNat?_eq_some_iff.2 ⟨hne, hd, rfl⟩]
      exact int64OfInt?_eq_some_iff.2 hz
    | @minus ds hne hd =>
      rw [Text.readInt64?, readNat?_eq_some_iff.2 ⟨hne, hd, rfl⟩]
      exact int64OfInt?_eq_some_iff.2 hz

/-! ### What derived tokens look like -/

/-- The phrases that form expressions. -/
def Phrase.IsExpr : Phrase → Prop
  | primary | term | sum => True
  | args | params | stmt | block => False

/-- An expression stands at one of four kinds, if only at a closing parenthesis. -/
lemma Derives.firstKind_expr {p : Phrase} {w : List Token} {next : Kind} {t : p.Tree}
    (h : Derives p w next t) (hp : p.IsExpr) :
    firstKind w next ∈ [.identifier, .symbol .leftParen, .number, .symbol .rightParen] := by
  induction h with
  | paren ho => simp [ho]
  | nothing => simp
  | call hf => simp [hf]
  | var hx => simp [hx]
  | int hd => simp [hd]
  | factor _ ih => exact ih hp
  | times _ hm _ _ ih =>
    rw [firstKind_append, firstKind_cons, hm]
    exact ih hp
  | summand _ ih => exact ih hp
  | plus _ hm _ _ ih =>
    rw [firstKind_append, firstKind_cons, hm]
    exact ih hp
  | _ => exact hp.elim

/-- The kinds that statements start with. -/
def opensStmt : List Kind :=
  [.keyword .funcWord, .keyword .returnWord, .keyword .ifWord, .keyword .letWord,
    .symbol .semicolon, .identifier, .symbol .leftParen, .number]

lemma Derives.firstKind_stmt {w : List Token} {next : Kind} {s : Stmt}
    (h : Derives .stmt w next s) (k : Kind) : firstKind w k ∈ opensStmt := by
  cases h with
  | function hk => simp [hk, opensStmt]
  | ret hk => simp [hk, opensStmt]
  | cond hk => simp [hk, opensStmt]
  | bindEnded hk => simp [hk, opensStmt]
  | bindOpen hk => simp [hk, opensStmt]
  | empty hm => simp [hm, opensStmt]
  | @expr l w _ _ hw _ hl =>
    rw [firstKind_append, firstKind_cons, hl]
    simp only [List.mem_cons, List.not_mem_nil, or_false] at hw
    rcases hw with hw | hw | hw <;> simp [hw, opensStmt]

lemma Derives.firstKind_block {w : List Token} {next : Kind} {ss : Block}
    (h : Derives .block w next ss) : firstKind w next = next ∨ firstKind w next ∈ opensStmt := by
  cases h with
  | nil => exact .inl rfl
  | cons first _ =>
    rw [firstKind_append]
    exact .inr (first.firstKind_stmt _)

lemma ne_operator_of_mem_opensStmt {k : Kind} (h : k ∈ opensStmt) (op : Operator) :
    k ≠ .operator op := by
  rintro rfl
  simp [opensStmt] at h

/-- The braces among derived tokens match each other. -/
lemma Derives.beforeUnmatched_append {p : Phrase} {w : List Token} {next : Kind} {t : p.Tree}
    (h : Derives p w next t) (depth : Nat) (rest : List Token) :
    beforeUnmatched depth (w ++ rest) = w ++ beforeUnmatched depth rest := by
  induction h generalizing depth rest with
  | paren ho _ hr ih => simp [beforeUnmatched, ho, hr, ih]
  | nothing => rfl
  | call hf ho _ hr ih => simp [beforeUnmatched, hf, ho, hr, ih]
  | var hx => simp [beforeUnmatched, hx]
  | int hd => simp [beforeUnmatched, hd]
  | factor _ ih => exact ih depth rest
  | times _ hm _ _ ihl ihr => simp [beforeUnmatched, hm, ihl, ihr]
  | summand _ ih => exact ih depth rest
  | plus _ hm _ _ ihl ihr => simp [beforeUnmatched, hm, ihl, ihr]
  | noArgs => rfl
  | lastArg _ _ ih => exact ih depth rest
  | moreArgs _ _ hm _ ih ihs => simp [beforeUnmatched, hm, ih, ihs]
  | noParams => rfl
  | lastParam ht hx => simp [beforeUnmatched, ht, hx]
  | moreParams ht hx hm _ ih => simp [beforeUnmatched, ht, hx, hm, ih]
  | function hk hx ho _ hr hb _ hl ihp ihb =>
    simp [beforeUnmatched, hk, hx, ho, hr, hb, hl, ihp, ihb]
  | ret hk _ hl ih => simp [beforeUnmatched, hk, hl, ih]
  | cond hk _ hb _ hl ihc ihb => simp [beforeUnmatched, hk, hb, hl, ihc, ihb]
  | expr _ _ hl ih => simp [beforeUnmatched, hl, ih]
  | bindEnded hk hx hq _ hl ih => simp [beforeUnmatched, hk, hx, hq, hl, ih]
  | bindOpen hk hx hq _ _ ih => simp [beforeUnmatched, hk, hx, hq, ih]
  | empty hm => simp [beforeUnmatched, hm]
  | nil => rfl
  | cons _ _ ih ihs => rw [List.append_assoc, ih, ihs, List.append_assoc]

/-- What is cut off starts with a closing brace, if it is not empty. -/
lemma beforeUnmatched_rest (depth : Nat) (ts : List Token) :
    ∃ rest, ts = beforeUnmatched depth ts ++ rest ∧
      (rest = [] ∨ firstKind rest .eof = .symbol .rightBrace) := by
  induction ts generalizing depth with
  | nil => exact ⟨[], rfl, .inl rfl⟩
  | cons t ts ih =>
    rw [beforeUnmatched]
    split
    · obtain ⟨rest, hrest, hend⟩ := ih (depth + 1)
      exact ⟨rest, by rw [List.cons_append, ← hrest], hend⟩
    · split
      · next hclose =>
        split
        · exact ⟨t :: ts, rfl, .inr hclose⟩
        · obtain ⟨rest, hrest, hend⟩ := ih (depth - 1)
          exact ⟨rest, by rw [List.cons_append, ← hrest], hend⟩
      · obtain ⟨rest, hrest, hend⟩ := ih depth
        exact ⟨rest, by rw [List.cons_append, ← hrest], hend⟩

lemma beforeUnmatched_closed {rest : List Token}
    (h : firstKind rest .eof = .symbol .rightBrace) : beforeUnmatched 0 rest = [] := by
  cases rest with
  | nil => cases h
  | cons t rest =>
    rw [firstKind_cons] at h
    simp [beforeUnmatched, h]

end Flame
