import Flame.Proofs.ParserComplete

/-!
Precedence climbing against the flat reading of an expression.

Before it is grouped, an expression is a chain: a primary, and then operators with a primary after
each. A chain is grouped in two rounds, which know nothing of climbing. It is cut at its additive
operators into terms, and each term is folded to the left; then the terms are folded to the left.
Climbing from a tier reads the longest part of a chain whose operators all bind at least as tightly
as the tier, and gives the tree of that part.

The operators between two additive ones are taken by the call that reads a right operand. It stops
in front of the next additive operator, where the loop that made the call goes on.
-/

namespace Flame

open Reading

/-! ### Chains and their trees -/

/-- An operand, and operators with an operand after each. -/
structure Chain where
  first : Expr
  links : List (Operator × Expr)

namespace Chain

/-- The operators taken from left to right, whatever their tiers. -/
def fold (chain : Chain) : Expr :=
  chain.links.foldl (fun left link => .binary link.1 left link.2) chain.first

/-- Links cut at the additive operators: those before the first of these, and each of these with
the term after it. -/
def cut : List (Operator × Expr) → List (Operator × Expr) × List (Operator × Chain)
  | [] => ([], [])
  | (op, e) :: links =>
    if op.tier = .additive then ([], (op, ⟨e, (cut links).1⟩) :: (cut links).2)
    else ((op, e) :: (cut links).1, (cut links).2)

/-- The tree of a chain: its terms are folded, and then the additive operators between them. -/
def tree (chain : Chain) : Expr :=
  let terms := (cut chain.links).2.map fun (op, term) => (op, term.fold)
  fold ⟨fold ⟨chain.first, (cut chain.links).1⟩, terms⟩

lemma fold_cons (e r : Expr) (op : Operator) (links : List (Operator × Expr)) :
    fold ⟨e, (op, r) :: links⟩ = fold ⟨.binary op e r, links⟩ := rfl

end Chain

lemma Operator.tier_cases (op : Operator) : op.tier = .additive ∨ op.tier = .multiplicative := by
  cases op <;> decide

lemma Operator.tier_le_multiplicative (op : Operator) : op.tier ≤ .multiplicative := by
  cases op <;> decide

namespace Chain

lemma tier_of_mem_cut {links : List (Operator × Expr)} {link : Operator × Expr}
    (h : link ∈ (cut links).1) : link.1.tier = .multiplicative := by
  induction links with
  | nil => cases h
  | cons head links ih =>
    obtain ⟨op, e⟩ := head
    rw [cut] at h
    split at h
    · cases h
    · rename_i hop
      rcases List.mem_cons.1 h with rfl | h
      · exact op.tier_cases.resolve_left hop
      · exact ih h

/-- Where no operator is additive, there is one term. -/
lemma cut_of_multiplicative {links : List (Operator × Expr)}
    (h : ∀ link ∈ links, link.1.tier = .multiplicative) : cut links = (links, []) := by
  induction links with
  | nil => rfl
  | cons head links ih =>
    obtain ⟨op, e⟩ := head
    have hop : op.tier = .multiplicative := h (op, e) List.mem_cons_self
    have hlinks := ih fun link hlink => h link (List.mem_cons_of_mem _ hlink)
    rw [cut, hop, if_neg (by decide), hlinks]

end Chain

/-! ### Chains among tokens -/

namespace Cursor

/-- Where the cursor `c` stands, the tokens `w` are read as a primary, and no others. -/
structure ReadsPrimary (c : Cursor) (w : List Token) (e : Expr) (c' : Cursor) : Prop where
  passes : c.Passes w c'
  read : (readPrimary c).upto = .ok (e, c')

/-- From where the cursor stands, the tokens are operators with a primary after each. -/
inductive ReadsLinks : Cursor → List Token → List (Operator × Expr) → Cursor → Prop
  | nil {c : Cursor} : ReadsLinks c [] [] c
  | cons {c c₁ c₂ c' : Cursor} {m : Token} {op : Operator} {w v : List Token} {e : Expr}
      {links : List (Operator × Expr)} (mark : c.Passes [m] c₁) (hm : m.kind = .operator op)
      (operand : c₁.ReadsPrimary w e c₂) (others : ReadsLinks c₂ v links c') :
      ReadsLinks c (m :: (w ++ v)) ((op, e) :: links) c'

variable {c c' : Cursor} {w : List Token} {links : List (Operator × Expr)}

lemma ReadsLinks.passes (h : c.ReadsLinks w links c') : c.Passes w c' := by
  induction h with
  | nil => exact .refl _
  | cons mark _ operand _ ih => exact mark.trans (operand.passes.trans ih)

lemma ReadsLinks.split {before after : List (Operator × Expr)}
    (h : c.ReadsLinks w (before ++ after) c') :
    ∃ v u stop, w = v ++ u ∧ c.ReadsLinks v before stop ∧ stop.ReadsLinks u after c' := by
  induction before generalizing c w with
  | nil => exact ⟨[], w, c, rfl, .nil, h⟩
  | cons link before ih =>
    cases h with
    | @cons _ _ _ _ m op p _ e _ mark hm operand others =>
      obtain ⟨v, u, stop, rfl, hbefore, hafter⟩ := ih others
      exact ⟨m :: (p ++ v), u, stop, by simp, .cons mark hm operand hbefore, hafter⟩

/-- In front of links stands the operator of the first. -/
lemma ReadsLinks.kind_eq {op : Operator} {e : Expr}
    (h : c.ReadsLinks w ((op, e) :: links) c') : c.kind = .operator op := by
  cases h with
  | cons mark hm _ _ => exact mark.kind_eq hm

end Cursor

/-! ### Climbing along a chain -/

lemma Stops.mono {min min' : Tier} {k : Kind} (h : Stops min k) (hmin : min ≤ min') :
    Stops min' k :=
  fun op hop hle => h op hop (Nat.le_trans hmin hle)

section

variable {c c₀ c' stop : Cursor} {w p v : List Token} {links : List (Operator × Expr)}

/-- The operators of a term are taken one by one, each with a primary as its right operand. -/
lemma readOperators_factors {min : Tier} (hmin : min ≤ .multiplicative)
    (h : c.ReadsLinks w links c') (hlinks : ∀ link ∈ links, link.1.tier = .multiplicative)
    (left : Expr) :
    (readOperators min left c).upto = (readOperators min (Chain.fold ⟨left, links⟩) c').upto := by
  induction h generalizing left with
  | nil => rfl
  | @cons c c₁ c₂ c' m op _ _ e links mark hm operand _ ih =>
    have hop : op.tier = .multiplicative := hlinks (op, e) List.mem_cons_self
    have hread : (readExpr op.tier.tighter c₁).upto = .ok (e, c₂) := by
      rw [hop]
      exact readExpr_unary operand.read
    rw [readOperators_step (by rwa [hop]) hm mark hread, Chain.fold_cons]
    exact ih (fun link hlink => hlinks link (List.mem_cons_of_mem _ hlink)) _

/-- The additive operators are taken one by one, each with a term as its right operand. What is
claimed of the loop starts at the first of them, and reading the term after it ends at the next. -/
lemma readOperators_terms (h : c.ReadsLinks w links c') (hstop : Stops .multiplicative c'.kind) :
    ∃ v stop, c.ReadsLinks v (Chain.cut links).1 stop ∧ Stops .multiplicative stop.kind ∧
      ∀ min : Tier, min ≤ .additive → ∀ left, (readOperators min left stop).upto =
        (readOperators min (Chain.fold ⟨left, (Chain.cut links).2.map fun (op, term) =>
          (op, term.fold)⟩) c').upto := by
  induction h with
  | nil => exact ⟨[], _, .nil, hstop, fun _ _ _ => rfl⟩
  | @cons c c₁ c₂ c' m op w _ e links mark hm operand _ ih =>
    obtain ⟨v, stop, hfactors, hstop', hterms⟩ := ih hstop
    rw [Chain.cut]
    split
    · rename_i hop
      -- The term after the operator is read by a call of its own.
      have hread : (readExpr op.tier.tighter c₁).upto =
          .ok (Chain.fold ⟨e, (Chain.cut links).1⟩, stop) := by
        rw [hop, Tier.tighter, readExpr_upto, operand.read, Except.bind,
          readOperators_factors (Nat.le_refl _) hfactors (fun _ => Chain.tier_of_mem_cut) e]
        exact readOperators_stop hstop' _
      refine ⟨[], c, .nil, ?_, fun min hmin left => ?_⟩
      · rw [mark.kind_eq hm]
        intro op' hop'
        obtain rfl := Kind.operator.inj hop'
        rw [hop]
        decide
      · rw [readOperators_step (by rwa [hop]) hm mark hread, hterms min hmin]
        rfl
    · exact ⟨_, stop, .cons mark hm operand hfactors, hstop', hterms⟩

/-- A chain is read to its end if climbing takes all its operators and stops there. -/
lemma readExpr_of_links {min : Tier} {first : Expr} (hfirst : c.ReadsPrimary p first c₀)
    (h : c₀.ReadsLinks v links stop) (hlinks : ∀ link ∈ links, min ≤ link.1.tier)
    (hstop : Stops min stop.kind) :
    (readExpr min c).upto = .ok (Chain.tree ⟨first, links⟩, stop) := by
  rw [readExpr_upto, hfirst.read, Except.bind]
  by_cases hadd : min ≤ .additive
  · have hmul : min ≤ .multiplicative := Nat.le_trans hadd (by decide)
    obtain ⟨u, middle, hfactors, -, hterms⟩ := readOperators_terms h (hstop.mono hmul)
    rw [readOperators_factors hmul hfactors (fun _ => Chain.tier_of_mem_cut), hterms min hadd]
    exact readOperators_stop hstop _
  · have htier : ∀ link ∈ links, link.1.tier = .multiplicative := by
      intro link hlink
      refine link.1.tier_cases.resolve_left fun htier => hadd ?_
      rw [← htier]
      exact hlinks link hlink
    have htree : Chain.tree ⟨first, links⟩ = Chain.fold ⟨first, links⟩ := by
      rw [Chain.tree, Chain.cut_of_multiplicative htier]
      rfl
    rw [htree]
    by_cases hmul : min ≤ .multiplicative
    · rw [readOperators_factors hmul h htier]
      exact readOperators_stop hstop _
    · -- No operator binds as tightly as the tier.
      cases h with
      | nil => exact readOperators_stop hstop first
      | @cons _ _ _ _ _ op _ _ e _ _ _ _ _ =>
        exact absurd (Nat.le_trans (hlinks (op, e) List.mem_cons_self) op.tier_le_multiplicative)
          hmul

end

/-- **Climbing.** Let tokens be a primary and then operators with a primary after each, with no
operator after them. Read from any tier, they are read up to the first operator that binds less
tightly than the tier, where the cursor stops; and the tree is that of the part read: terms folded
to the left, in a sum folded to the left. -/
theorem readExpr_longest_chain (min : Tier) {c c₀ c' : Cursor} {p w : List Token} {first : Expr}
    {links : List (Operator × Expr)} (hfirst : c.ReadsPrimary p first c₀)
    (hlinks : c₀.ReadsLinks w links c') (hrest : ∀ op, c'.kind ≠ .operator op) :
    let taken := links.takeWhile fun link => min ≤ link.1.tier
    let left := links.dropWhile fun link => min ≤ link.1.tier
    ∃ v u stop, w = v ++ u ∧ c.Passes (p ++ v) stop ∧ c₀.ReadsLinks v taken stop ∧
      stop.ReadsLinks u left c' ∧
      (readExpr min c).upto = .ok (Chain.tree ⟨first, taken⟩, stop) := by
  intro taken left
  have hsplit : taken ++ left = links := List.takeWhile_append_dropWhile
  rw [← hsplit] at hlinks
  obtain ⟨v, u, stop, hw, htaken, hleft⟩ := hlinks.split
  have hmin : ∀ link ∈ taken, min ≤ link.1.tier :=
    fun link hlink => of_decide_eq_true (List.all_eq_true.1 List.all_takeWhile link hlink)
  have hstop : Stops min stop.kind := by
    cases hcase : left with
    | nil =>
      rw [hcase] at hleft
      cases hleft
      exact stops_of_ne_operator hrest
    | cons link others =>
      rw [hcase] at hleft
      intro op hop
      obtain rfl := Kind.operator.inj (hleft.kind_eq.symm.trans hop)
      have hhead := List.head?_dropWhile_not (fun link => decide (min ≤ link.1.tier)) links
      rw [show links.dropWhile _ = link :: others from hcase] at hhead
      simpa using hhead
  exact ⟨v, u, stop, hw, hfirst.passes.trans htaken.passes, htaken, hleft,
    readExpr_of_links hfirst htaken hmin hstop⟩

/-- Read from the tier of products, `2 * 3 - 4 / )` is read up to the minus; read from the lowest, up
to the parenthesis, where the void value stands for the operand that is missing. -/
theorem readExpr_longest_chain_void_operand :
    let mark (op : Operator) : Token := ⟨op.spelling, .operator op, ⟨0, 0⟩⟩
    let digit (text : String) : Token := ⟨text, .number, ⟨0, 0⟩⟩
    let product : Expr := .binary .mul (.int 2) (.int 3)
    let c : Cursor := ⟨[], [digit "2", mark .mul, digit "3", mark .sub, digit "4", mark .div,
      ⟨")", .symbol .rightParen, ⟨0, 0⟩⟩], 0⟩
    (∃ stop, (readExpr .multiplicative c).upto = .ok (product, stop) ∧
      stop.kind = .operator .sub) ∧
    ∃ stop, (readExpr .lowest c).upto =
      .ok (.binary .sub product (.binary .div (.int 4) .void), stop) ∧
      stop.kind = .symbol .rightParen := by
  intro mark digit product c
  let place (k : Nat) : Cursor := ⟨(c.ahead.take k).reverse, c.ahead.drop k, 0⟩
  have hpass : ∀ k, (place k).Passes ((c.ahead.drop k).take 1) (place (k + 1)) := by
    refine fun k => ⟨?_, ?_, rfl⟩
    · simp only [place, ← List.drop_drop, List.take_append_drop]
    · simp only [place, List.take_add, List.reverse_append]
  have hnumber : ∀ {k : Nat} {text : String} {n : Int64},
      (place k).Passes [digit text] (place (k + 1)) → Text.readInt64? text.toList = some n →
      (place k).ReadsPrimary [digit text] (.int n) (place (k + 1)) :=
    fun hp hn => ⟨hp, Derives.isRead (.int rfl (readInt64?_eq_some_iff.1 hn)) hp rfl⟩
  have hquotient : (place 5).ReadsLinks [mark .div] [(.div, .void)] (place 6) :=
    .cons (hpass 5) rfl ⟨.refl _, readPrimary_nothing rfl⟩ .nil
  have hdifference : (place 3).ReadsLinks [mark .sub, digit "4", mark .div]
      [(.sub, .int 4), (.div, .void)] (place 6) :=
    .cons (hpass 3) rfl (hnumber (hpass 4) (by decide)) hquotient
  have hlinks : (place 1).ReadsLinks [mark .mul, digit "3", mark .sub, digit "4", mark .div]
      [(.mul, .int 3), (.sub, .int 4), (.div, .void)] (place 6) :=
    .cons (hpass 1) rfl (hnumber (hpass 2) (by decide)) hdifference
  have hfirst : (place 0).ReadsPrimary [digit "2"] (.int 2) (place 1) :=
    hnumber (hpass 0) (by decide)
  have hrest : ∀ op, (place 6).kind ≠ .operator op := fun op h => by cases h
  refine ⟨?_, ?_⟩
  · obtain ⟨_, _, stop, -, -, -, hleft, hread⟩ :=
      readExpr_longest_chain .multiplicative hfirst hlinks hrest
    exact ⟨stop, hread, hleft.kind_eq⟩
  · obtain ⟨_, _, stop, -, -, -, hleft, hread⟩ :=
      readExpr_longest_chain .lowest hfirst hlinks hrest
    cases hleft
    exact ⟨_, hread, rfl⟩

end Flame
