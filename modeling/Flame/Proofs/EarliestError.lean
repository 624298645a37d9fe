import Flame.Proofs.Completion
import Flame.Proofs.ParserComplete
import Mathlib

/-!
Errors are reported at the earliest token that shows them.

A reader is *local*: what it gives depends on the tokens it passes and on the one it ends at, and on
nothing after that. An error is found at one token, which it names, and the tokens before that one
can still be completed to a program. Both facts are carried through the readers together, since they
are about the same token.
-/

namespace Flame

open Reading

/-- A reader as a function of the cursor: what is read and the cursor after it, or the error. -/
abbrev Reader (α : Type) := Cursor → Except ParseError (α × Cursor)

/-- What an error says of the token at which it was found: the token's index, the token, and whether
it is the last one. -/
def ParseError.Names (index : Nat) (t : Token) (last : Prop) : ParseError → Prop
  | .cursor (.exhausted position offset) => last ∧ position = index ∧ offset = 1
  | .cursor (.unexpected expected found span) =>
    ¬last ∧ found = t.kind ∧ span = t.span ∧ found ≠ expected
  | .noStatement found span => found = t.kind ∧ span = t.span
  | .noExpression found span => found = t.kind ∧ span = t.span
  | .badInteger lexeme span => t.kind = .number ∧ lexeme = t.lexeme ∧ span = t.span

namespace Cursor

/-- The cursors stand at the same token, after the same tokens. -/
structure Meets (c d : Cursor) : Prop where
  behind : d.behind = c.behind
  head : d.ahead.head? = c.ahead.head?
  eof : c.ahead = [] → d.eof = c.eof

variable {c c' d d' : Cursor} {w v : List Token} {t : Token} {k : Kind}

lemma Meets.refl (c : Cursor) : c.Meets c := ⟨rfl, rfl, fun _ => rfl⟩

lemma Meets.current (h : c.Meets d) : d.current = c.current := by
  obtain ⟨b, a, e⟩ := c
  obtain ⟨b', a', e'⟩ := d
  have hhead : a'.head? = a.head? := h.head
  cases a with
  | nil =>
    obtain rfl : a' = [] := List.head?_eq_none_iff.1 hhead
    exact congrArg Token.sentinel (h.eof rfl)
  | cons t a =>
    obtain ⟨x, rfl⟩ := List.head?_eq_some_iff.1 hhead
    rfl

lemma meets_of_current (hbehind : d.behind = c.behind) (hcurrent : d.current = c.current)
    (hend : d.ahead = [] ↔ c.ahead = []) : c.Meets d := by
  obtain ⟨b, a, e⟩ := c
  obtain ⟨b', a', e'⟩ := d
  cases a with
  | nil =>
    obtain rfl : a' = [] := hend.2 rfl
    exact ⟨hbehind, rfl, fun _ => congrArg (fun t => t.span.start) hcurrent⟩
  | cons t a =>
    obtain ⟨s, a', rfl⟩ := List.exists_cons_of_ne_nil fun h => List.cons_ne_nil t a (hend.1 h)
    exact ⟨hbehind, congrArg some hcurrent, fun h => absurd h (List.cons_ne_nil t a)⟩

lemma Meets.kind (h : c.Meets d) : d.kind = c.kind := congrArg Token.kind h.current

/-- Cursors that meet after the same tokens met before them. -/
lemma Meets.before (h : c'.Meets d') (hc : c.Passes w c') (hd : d.Passes w d') : c.Meets d := by
  refine ⟨?_, ?_, fun hnil => ?_⟩
  · have hbehind := h.behind
    rw [hc.behind, hd.behind] at hbehind
    exact List.append_cancel_left hbehind
  · rw [hc.ahead, hd.ahead, List.head?_append, List.head?_append, h.head]
  · rw [hc.ahead, List.append_eq_nil_iff] at hnil
    rw [← hc.eof, ← hd.eof]
    exact h.eof hnil.2

lemma Passes.tokens_unique (h : c.Passes w c') (h' : c.Passes v c') : w = v :=
  List.append_cancel_right (h.ahead.symm.trans h'.ahead)

/-- What is next to one cursor is next to every cursor that meets it. -/
lemma Meets.exists_passes (h : c.Meets d) (hp : c.Passes [t] c') : ∃ d', d.Passes [t] d' := by
  have hhead := h.head
  rw [hp.ahead] at hhead
  obtain ⟨rest, hrest⟩ := List.head?_eq_some_iff.1 hhead
  exact ⟨_, passes_of_ahead (w := [t]) hrest⟩

lemma Passes.current (h : c.Passes [t] c') : c.current = t := by
  have hahead := h.ahead
  unfold Cursor.current
  rw [hahead]
  rfl

end Cursor

/-! ### Local readers -/

/-- Reading from `c` looks no further than the token it ends at. If it fails, then at a token that
the error names, and with `V` true of the tokens before it. -/
structure Local {α : Type} (read : Reader α) (V : List Token → Prop) (c : Cursor) : Prop where
  ok : ∀ {a c'}, read c = .ok (a, c') → ∃ w, c.Passes w c' ∧
    ∀ {d d'}, d.Passes w d' → c'.Meets d' → read d = .ok (a, d')
  error : ∀ {e}, read c = .error e → ∃ w c', c.Passes w c' ∧ V w ∧
    e.Names c'.position c'.current (c'.ahead = []) ∧
    ∀ {d d'}, d.Passes w d' → c'.Meets d' → read d = .error e

section

variable {α β : Type} {x y : Reader α} {V V' : List Token → Prop} {c : Cursor}

lemma Local.mono (h : Local x V c) (hV : ∀ w, V w → V' w) : Local x V' c where
  ok := h.ok
  error heq := by
    obtain ⟨w, c', hp, hw, hnames, hsame⟩ := h.error heq
    exact ⟨w, c', hp, hV w hw, hnames, hsame⟩

/-- A reader may choose what to do by the kind of the token it starts at. -/
lemma Local.congr (h : Local y V c) (heq : ∀ d : Cursor, d.kind = c.kind → x d = y d) :
    Local x V c where
  ok hx := by
    rw [heq c rfl] at hx
    obtain ⟨w, hp, hsame⟩ := h.ok hx
    refine ⟨w, hp, fun hd hmeets => ?_⟩
    rw [heq _ (hmeets.before hp hd).kind]
    exact hsame hd hmeets
  error hx := by
    rw [heq c rfl] at hx
    obtain ⟨w, c', hp, hw, hnames, hsame⟩ := h.error hx
    refine ⟨w, c', hp, hw, hnames, fun hd hmeets => ?_⟩
    rw [heq _ (hmeets.before hp hd).kind]
    exact hsame hd hmeets

lemma local_pure (a : α) : Local (fun c => .ok (a, c)) V c where
  ok heq := by
    obtain ⟨rfl, rfl⟩ := Prod.mk.inj (Except.ok.inj heq)
    exact ⟨[], .refl c, fun hd _ => by rw [hd.unique (.refl _)]⟩
  error heq := by cases heq

/-- Failing at once. -/
lemma local_fail {e : ParseError} (hV : V [])
    (hnames : e.Names c.position c.current (c.ahead = []))
    (hx : ∀ d, c.Meets d → x d = .error e) : Local x V c where
  ok heq := by
    rw [hx c (.refl c)] at heq
    cases heq
  error heq := by
    rw [hx c (.refl c)] at heq
    obtain rfl := Except.error.inj heq
    refine ⟨[], c, .refl c, hV, hnames, fun {d d'} hd hmeets => ?_⟩
    obtain rfl := hd.unique (.refl d)
    exact hx d' hmeets

/-- Two readers in a row. -/
lemma Local.bind {V₁ : List Token → Prop} {f : α × Cursor → Except ParseError (β × Cursor)}
    (hx : Local x V₁ c) (hV : ∀ {w c'}, c.Passes w c' → V₁ w → V w)
    (hf : ∀ {a c₁ w}, x c = .ok (a, c₁) → c.Passes w c₁ →
      Local (fun c => f (a, c)) (fun v => V (w ++ v)) c₁) :
    Local (fun c => (x c).bind f) V c where
  ok heq := by
    obtain ⟨⟨a, c₁⟩, h₁, h₂⟩ := bind_eq_ok_iff.1 heq
    obtain ⟨w, hw, hsame₁⟩ := hx.ok h₁
    obtain ⟨v, hv, hsame₂⟩ := (hf h₁ hw).ok h₂
    refine ⟨w ++ v, hw.trans hv, fun hd hmeets => ?_⟩
    obtain ⟨d₁, hd₁, hd₂⟩ := hd.split
    rw [hsame₁ hd₁ (hmeets.before hv hd₂)]
    exact hsame₂ hd₂ hmeets
  error heq := by
    cases h₁ : x c with
    | error e =>
      rw [h₁] at heq
      obtain rfl := Except.error.inj heq
      obtain ⟨w, c', hp, hw, hnames, hsame⟩ := hx.error h₁
      refine ⟨w, c', hp, hV hp hw, hnames, fun hd hmeets => ?_⟩
      rw [hsame hd hmeets]
      rfl
    | ok p =>
      obtain ⟨a, c₁⟩ := p
      rw [h₁] at heq
      obtain ⟨w, hw, hsame₁⟩ := hx.ok h₁
      obtain ⟨v, c', hv, hV, hnames, hsame₂⟩ := (hf h₁ hw).error heq
      refine ⟨w ++ v, c', hw.trans hv, hV, hnames, fun hd hmeets => ?_⟩
      obtain ⟨d₁, hd₁, hd₂⟩ := hd.split
      rw [hsame₁ hd₁ (hmeets.before hv hd₂)]
      exact hsame₂ hd₂ hmeets

/-- A reader whose value is only put into a tree. -/
lemma Local.map (hx : Local x V c) (g : α → β) :
    Local (fun c => (x c).bind fun p => .ok (g p.1, p.2)) V c :=
  hx.bind (fun _ h => h) fun {a _ _} _ _ => local_pure (g a)

/-! ### Single tokens -/

lemma local_take (hk : c.kind ≠ .eof) : Local (fun c => c.take.below) V c where
  ok heq := by
    have hp := Cursor.take_eq_ok_iff.1 heq
    exact ⟨_, hp, fun hd _ => Cursor.take_eq_ok_iff.2 hd⟩
  error heq := by
    obtain ⟨t, c', hp, -⟩ := Cursor.exists_passes hk
    rw [Cursor.take_eq_ok_iff.2 hp] at heq
    cases heq

/-- A token that is not the one required is the one that the error names. -/
lemma local_require (k : Kind) (hV : V []) : Local (fun c => (c.require k).below) V c := by
  cases hahead : c.ahead with
  | nil =>
    refine local_fail hV (e := .cursor (.exhausted c.position 1)) ⟨hahead, rfl, rfl⟩ ?_
    intro d hmeets
    have hhead := hmeets.head
    rw [hahead] at hhead
    have hposition : d.position = c.position := congrArg List.length hmeets.behind
    rw [Cursor.require_of_nil (List.head?_eq_none_iff.1 hhead), hposition]
  | cons t rest =>
    have hp := Cursor.passes_of_ahead (w := [t]) hahead
    by_cases ht : t.kind = k
    · refine ⟨fun heq => ?_, fun heq => ?_⟩
      · obtain ⟨hp, hk⟩ := Cursor.require_eq_ok_iff.1 heq
        exact ⟨_, hp, fun hd _ => Cursor.require_eq_ok_iff.2 ⟨hd, hk⟩⟩
      · rw [Cursor.require_eq_ok_iff.2 ⟨hp, ht⟩] at heq
        cases heq
    · refine local_fail hV (e := .cursor (.unexpected k t.kind t.span)) ?_ ?_
      · rw [hp.current]
        exact ⟨by simp [hahead], rfl, rfl, ht⟩
      · intro d hmeets
        obtain ⟨d', hd⟩ := hmeets.exists_passes hp
        exact Cursor.require_of_ne hd.ahead ht

/-- A token is taken, and reading goes on after it. -/
lemma Local.take_bind {f : Token × Cursor → Except ParseError (β × Cursor)} (hk : c.kind ≠ .eof)
    (hf : ∀ t : Below Token c.left, c.Passes [t.value] t.rest → t.value.kind = c.kind →
      Local (fun c => f (t.value, c)) (fun w => V (t.value :: w)) t.rest) :
    Local (fun c => c.take.below.bind f) V c := by
  refine (local_take hk).bind (fun _ h => h) fun {t c₁ w} htake hw => ?_
  have hp := Cursor.take_eq_ok_iff.1 htake
  obtain rfl := hw.tokens_unique hp
  obtain ⟨taken, htaken⟩ := exists_below htake
  obtain ⟨rfl, rfl⟩ := Prod.mk.inj htaken
  exact hf taken hp hp.kind.symm

/-- A token is required, and reading goes on after it. -/
lemma Local.require_bind {k : Kind} {f : Token × Cursor → Except ParseError (β × Cursor)}
    (hV : V [])
    (hf : ∀ t : Below Token c.left, c.Passes [t.value] t.rest → t.value.kind = k →
      Local (fun c => f (t.value, c)) (fun w => V (t.value :: w)) t.rest) :
    Local (fun c => (c.require k).below.bind f) V c := by
  refine Local.bind (local_require k hV) (fun _ h => h) fun {t c₁ w} hreq hw => ?_
  obtain ⟨hp, hk⟩ := Cursor.require_eq_ok_iff.1 hreq
  obtain rfl := hw.tokens_unique hp
  obtain ⟨taken, htaken⟩ := exists_below hreq
  obtain ⟨rfl, rfl⟩ := Prod.mk.inj htaken
  exact hf taken hp hk

end

/-! ### Expressions -/

def ExprLocal (min : Tier) (c : Cursor) : Prop :=
  Local (fun c => (readExpr min c).upto)
    (fun w => ∀ next : Kind, next.Closes → Viable (Climbs min next) w) c

/-- What is held before the operators is part of what can be completed. -/
def OperatorsLocal (min : Tier) (l : Expr) (c : Cursor) : Prop :=
  ∀ u, Climbed min u c.kind l → Local (fun c => (readOperators min l c).upto)
    (fun w => ∀ next : Kind, next.Closes → Viable (Climbs min next) (u ++ w)) c

def PrimaryLocal (c : Cursor) : Prop :=
  Local (fun c => (readPrimary c).upto)
    (fun w => ∀ next : Kind, next.Closes → Viable (Forms .primary next) w) c

def ArgsLocal (c : Cursor) : Prop :=
  Local (fun c => (readArgs c).upto) (Viable (Forms .args (.symbol .rightParen))) c

/-- Reads what a name is called with. -/
def readCallOf (f : Token) : Reader Expr := fun c =>
  (c.require (.symbol .leftParen)).below.bind fun o =>
  (readArgs o.2).upto.bind fun as =>
  (as.2.require (.symbol .rightParen)).below.bind fun r =>
  .ok (.call f.lexeme as.1, r.2)

/-- The look-ahead after a name is a look at the token that comes next anyway. -/
lemma readPrimary_name {c : Cursor} (h : c.kind = .identifier) :
    (readPrimary c).upto = c.take.below.bind fun x =>
      if x.2.kind = .symbol .leftParen then readCallOf x.1 x.2 else .ok (.var x.1.lexeme, x.2) := by
  obtain ⟨x, c₁, hp, hx⟩ := Cursor.exists_passes (c := c) (by simp [h])
  have hnext : c.nextKind = c₁.kind := by rw [hp.nextKind, firstKind_nil]
  rw [Cursor.take_eq_ok_iff.2 hp, Except.bind]
  dsimp only
  split
  · next hk =>
    rw [readPrimary_call h (hnext.trans hk), Cursor.require_eq_ok_iff.2 ⟨hp, hx.trans h⟩]
    rfl
  · next hk =>
    rw [readPrimary_var h (hnext ▸ hk), Cursor.take_eq_ok_iff.2 hp]
    rfl

section Steps

variable {α : Type} {min : Tier} {l : Expr} {c : Cursor} {V : List Token → Prop}

lemma closes_symbol {s : Symbol} (hs : s ≠ .leftParen) : (Kind.symbol s).Closes :=
  ⟨by simpa using hs, by simp⟩

/-- An expression, and a token that has to follow it. -/
lemma Local.expr_require {k : Kind} (he : ExprLocal .lowest c) (hk : k.Closes)
    (f : Expr → Token × Cursor → Except ParseError (α × Cursor))
    (hV : ∀ {w c'}, c.Passes w c' → Viable (Forms .sum k) w → V w)
    (hf : ∀ (e : Upto Expr c.left) (t : Below Token e.rest.left) {w},
      c.Passes (w ++ [t.value]) t.rest → Derives .sum w k e.value → t.value.kind = k →
      Local (fun c => f e.value (t.value, c)) (fun v => V (w ++ t.value :: v)) t.rest) :
    Local (fun c => (readExpr .lowest c).upto.bind fun e =>
      (e.2.require k).below.bind (f e.1)) V c := by
  refine he.bind (fun hp hw => hV hp ?_) fun {e c₁ w} hread hp => ?_
  · obtain ⟨v, e, hc⟩ := hw k hk
    exact ⟨v, e, hc.derives_sum⟩
  · obtain ⟨w', hp', hd⟩ := readExpr_sound hread
    obtain rfl := hp.tokens_unique hp'
    obtain ⟨e, he⟩ := exists_upto hread
    obtain ⟨rfl, rfl⟩ := Prod.mk.inj he
    dsimp only
    refine Local.require_bind ?_ fun t ht htk => ?_
    · rw [List.append_nil]
      exact hV hp (hd.viable_expr trivial k hk.ne_paren)
    · rw [ht.kind, firstKind_cons, htk] at hd
      exact hf e t (hp.trans ht) hd htk

lemma ExprLocal.mk (hp : PrimaryLocal c)
    (ho : ∀ first : Upto Expr c.left, OperatorsLocal min first.value first.rest) :
    ExprLocal min c := by
  refine (hp.bind (f := fun p => (readOperators min p.1 p.2).upto) ?_ ?_).congr
    fun d _ => readExpr_upto min d
  · intro w c' _ hw next hnext
    obtain ⟨v, e, hd⟩ := hw next hnext
    exact ⟨v, e, .primary hd⟩
  · intro e c₁ w hread hw
    obtain ⟨w', hw', hd⟩ := expr_sound.2.2.1 c e c₁ hread
    obtain rfl := hw.tokens_unique hw'
    obtain ⟨first, hfirst⟩ := exists_upto hread
    obtain ⟨rfl, rfl⟩ := Prod.mk.inj hfirst
    exact ho first w (.primary hd)

lemma OperatorsLocal.stop (hs : Stops min c.kind) : OperatorsLocal min l c := by
  intro u _
  refine (local_pure l).congr fun d hd => readOperators_stop ?_ l
  rw [hd]
  exact hs

lemma OperatorsLocal.more {op : Operator} (hk : c.kind = .operator op) (hmin : min ≤ op.tier)
    (hr : ∀ mark : Below Token c.left, ExprLocal op.tier.tighter mark.rest)
    (ho : ∀ (mark : Below Token c.left) (right : Upto Expr mark.rest.left),
      OperatorsLocal min (.binary op l right.value) right.rest) : OperatorsLocal min l c := by
  intro u hu
  rw [hk] at hu
  refine Local.congr ?_ fun d hd => readOperators_more (hd.trans hk) hmin l
  refine Local.take_bind (by simp [hk]) fun mark hm hop => ?_
  rw [hk] at hop
  refine (hr mark).bind (fun {v c'} _ hv next hnext => ?_) fun {r c₂ v} hread hv => ?_
  · -- the right operand can be completed, and then the operation is whole
    obtain ⟨x, e, hc⟩ := hv next hnext
    have hstep := Climbed.step hmin hop hu hc (hnext.stops _)
    exact ⟨x, _, by simpa using hstep⟩
  · obtain ⟨v', hv', hc, hs⟩ := expr_sound.1 _ _ r c₂ hread
    obtain rfl := hv.tokens_unique hv'
    obtain ⟨right, hright⟩ := exists_upto hread
    obtain ⟨rfl, rfl⟩ := Prod.mk.inj hright
    refine (ho mark right _ (Climbed.step hmin hop hu hc hs)).mono fun w hw next hnext => ?_
    simpa using hw next hnext

lemma PrimaryLocal.paren (hk : c.kind = .symbol .leftParen)
    (he : ∀ opening : Below Token c.left, ExprLocal .lowest opening.rest) : PrimaryLocal c := by
  refine Local.congr ?_ fun d hd => readPrimary_paren (hd.trans hk)
  refine Local.take_bind (by simp [hk]) fun opening _ ho => ?_
  rw [hk] at ho
  refine Local.expr_require (he opening) (closes_symbol (by decide)) (fun e r => .ok (e, r.2)) ?_
    fun e _ {_} _ _ _ => local_pure e.value
  intro v c' _ hv next _
  exact hv.surround [opening.value] [.sample (.symbol .rightParen)] fun x ⟨e, hd⟩ =>
    ⟨e, .paren ho hd rfl⟩

lemma local_callOf {f : Token} (hf : f.kind = .identifier)
    (ha : ∀ opening : Below Token c.left, ArgsLocal opening.rest) :
    Local (readCallOf f)
      (fun w => ∀ next : Kind, next.Closes → Viable (Forms .primary next) ([f] ++ w)) c := by
  have hclose : ∀ {o : Token} {w : List Token} (next : Kind), o.kind = .symbol .leftParen →
      Viable (Forms .args (.symbol .rightParen)) w → Viable (Forms .primary next) ([f, o] ++ w) :=
    fun next ho hw => hw.surround _ [.sample (.symbol .rightParen)] fun x ⟨es, hd⟩ =>
      ⟨_, .call hf ho hd rfl⟩
  refine Local.require_bind ?_ fun opening _ ho => ?_
  · intro next _
    exact (hclose next (Token.kind_sample _) (viable_of_accepts ⟨_, .noArgs⟩)).of_append (w := [f])
  refine (ha opening).bind (fun _ hv next _ => hclose next ho hv) fun {es c₁ v} hread hv => ?_
  obtain ⟨v', hv', hd⟩ := expr_sound.2.2.2 _ es c₁ hread
  obtain rfl := hv.tokens_unique hv'
  dsimp only
  refine Local.require_bind ?_ fun _ _ _ => local_pure _
  intro next _
  simpa using hclose next ho hd.viable_args

lemma PrimaryLocal.name (hk : c.kind = .identifier)
    (ha : c.nextKind = .symbol .leftParen → ∀ (callee : Below Token c.left)
      (opening : Below Token callee.rest.left), ArgsLocal opening.rest) : PrimaryLocal c := by
  refine Local.congr ?_ fun d hd => readPrimary_name (hd.trans hk)
  refine Local.take_bind (by simp [hk]) fun callee hf hfk => ?_
  rw [hk] at hfk
  dsimp only
  by_cases hopen : callee.rest.kind = .symbol .leftParen
  · have hnext : c.nextKind = .symbol .leftParen := by rw [hf.nextKind, firstKind_nil, hopen]
    exact (local_callOf hfk (ha hnext callee)).congr fun d hd => if_pos (hd.trans hopen)
  · refine (local_pure (.var callee.value.lexeme)).congr fun d hd => if_neg ?_
    rwa [hd]

lemma PrimaryLocal.number (hk : c.kind = .number) : PrimaryLocal c := by
  obtain ⟨t, c₁, hp, ht⟩ := Cursor.exists_passes (c := c) (by simp [hk])
  refine Local.congr ?_ fun d hd => readPrimary_number (hd.trans hk)
  cases hn : Text.readInt64? t.lexeme.toList with
  | some n =>
    refine (local_take (by simp [hk])).bind (fun _ h => h) fun {t' c₂ w} htake _ => ?_
    have htaken := htake.symm.trans (Cursor.take_eq_ok_iff.2 hp)
    obtain ⟨rfl, rfl⟩ := Prod.mk.inj (Except.ok.inj htaken)
    simp only [hn]
    exact local_pure _
  | none =>
    refine local_fail (e := .badInteger t.lexeme t.span) (fun next _ => viable_primary next) ?_ ?_
    · rw [hp.current]
      exact ⟨ht.trans hk, rfl, rfl⟩
    · intro d hmeets
      obtain ⟨d₁, hd⟩ := hmeets.exists_passes hp
      rw [Cursor.take_eq_ok_iff.2 hd, Except.bind]
      simp only [hn]

lemma ArgsLocal.close (hk : c.kind = .symbol .rightParen) : ArgsLocal c := by
  refine (local_pure []).congr fun d hd => ?_
  rw [readArgs_upto, if_pos (hd.trans hk)]

lemma ArgsLocal.arg (hk : c.kind ≠ .symbol .rightParen) (he : ExprLocal .lowest c)
    (ha : ∀ (arg : Upto Expr c.left) (comma : Below Token arg.rest.left), ArgsLocal comma.rest) :
    ArgsLocal c := by
  have heq : ∀ d : Cursor, d.kind = c.kind → (readArgs d).upto = _ := fun d hd => by
    rw [readArgs_upto, if_neg (by rwa [hd])]
  refine Local.congr ?_ heq
  refine he.bind (fun {w c'} hw hv => ?_) fun {e c₁ w} hread hw => ?_
  · cases w with
    | nil => exact viable_of_accepts ⟨_, .noArgs⟩
    | cons t w =>
      obtain ⟨v, e, hc⟩ := hv (.symbol .rightParen) (closes_symbol (by decide))
      rw [hw.kind, firstKind_cons] at hk
      exact ⟨v, [e], .lastArg hk hc.derives_sum⟩
  obtain ⟨w', hw', hd⟩ := readExpr_sound hread
  obtain rfl := hw.tokens_unique hw'
  obtain ⟨arg, harg⟩ := exists_upto hread
  obtain ⟨rfl, rfl⟩ := Prod.mk.inj harg
  dsimp only
  by_cases hcomma : arg.rest.kind = .symbol .comma
  · -- a comma, and more arguments
    refine Local.congr (y := fun c => c.take.below.bind fun m => (readArgs m.2).upto.bind fun as =>
      .ok (arg.value :: as.1, as.2)) ?_ fun d hd => ?_
    · refine Local.take_bind (by simp [hcomma]) fun comma _ hmk => ?_
      rw [hcomma] at hmk
      refine ((ha arg comma).mono fun v hv => ?_).map (arg.value :: ·)
      rw [hw.kind, hcomma] at hk
      rw [hcomma] at hd
      have h := hv.surround (Q := Forms .args (.symbol .rightParen)) (w ++ [comma.value]) []
        fun x ⟨es, hds⟩ => ⟨arg.value :: es, ?_⟩
      · simpa using h
      · simpa using Derives.moreArgs hk hd hmk hds
    · obtain ⟨m, d', hm, hmk⟩ := Cursor.exists_passes (c := d) (by simp [hd, hcomma])
      rw [hd, hcomma] at hmk
      simp only [Cursor.expect?_of_passes hm hmk, Cursor.take_eq_ok_iff.2 hm, Except.bind]
  · refine (local_pure [arg.value]).congr fun d hd => ?_
    simp only [Cursor.expect?_of_kind_ne (c := d) (k := .symbol .comma) (by rwa [hd])]

end Steps

lemma expr_local :
    (∀ min c, ExprLocal min c) ∧ (∀ min l c, OperatorsLocal min l c) ∧
      (∀ c, PrimaryLocal c) ∧ ∀ c, ArgsLocal c := by
  apply readExpr.mutual_induct
  · exact fun min c => ExprLocal.mk
  · intro min l c hk
    refine .stop fun op hop => ?_
    rw [hop] at hk
    cases hk
  · exact fun min l c op hk => OperatorsLocal.more (Operator.ofKind?_eq_some_iff.1 hk)
  · intro min l c op hk hmin
    refine .stop fun op' hop => ?_
    rw [hop] at hk
    obtain rfl := Option.some.inj hk
    exact hmin
  · exact fun c => PrimaryLocal.paren
  · exact fun c hk => (local_pure .void).congr fun d hd => readPrimary_nothing (hd.trans hk)
  · exact fun c hk _ ha => PrimaryLocal.name hk fun _ => ha
  · exact fun c hk hn => PrimaryLocal.name hk fun hnext => absurd hnext hn
  · exact fun c => PrimaryLocal.number
  · intro c h₁ h₂ h₃ h₄
    refine local_fail (fun next _ => viable_primary next) (e := .noExpression c.kind c.current.span)
      ⟨rfl, rfl⟩ fun d hd => ?_
    rw [← hd.current, ← hd.kind]
    rw [← hd.kind] at h₁ h₂ h₃ h₄
    exact readPrimary_other h₁ h₂ h₃ h₄
  · exact fun c hk => ArgsLocal.close (by simpa [Cursor.check] using hk)
  · exact fun c hk => ArgsLocal.arg (by simpa [Cursor.check] using hk)

/-! ### Statements -/

lemma params_local (c : Cursor) :
    Local (fun c => (readParams c).upto) (Viable (Forms .params (.symbol .rightParen))) c := by
  induction c using readParams.induct with
  | case1 c hk ih =>
    have hk : c.kind = .identifier := by simpa [Cursor.check] using hk
    refine Local.congr ?_ fun d hd => (readParams_upto d).trans (if_pos (hd.trans hk))
    refine Local.require_bind (viable_of_accepts ⟨_, .noParams⟩) fun tag _ htk => ?_
    dsimp only
    refine Local.require_bind ⟨[.sample .identifier], _, .lastParam htk rfl⟩ fun name _ hxk => ?_
    dsimp only
    by_cases hcomma : name.rest.kind = .symbol .comma
    · refine Local.congr (y := fun c => c.take.below.bind fun m => (readParams m.2).upto.bind
        fun ps => .ok (⟨⟨tag.value.lexeme⟩, name.value.lexeme⟩ :: ps.1, ps.2)) ?_ fun d hd => ?_
      · refine Local.take_bind (by simp [hcomma]) fun comma _ hmk => ?_
        rw [hcomma] at hmk
        refine ((ih tag name comma).mono fun v hv => ?_).map (_ :: ·)
        refine hv.surround [tag.value, name.value, comma.value] [] fun x hx => ?_
        obtain ⟨ps, hd⟩ := hx
        rw [List.append_nil]
        exact ⟨_, .moreParams htk hxk hmk hd⟩
      · obtain ⟨m, d', hm, hmk⟩ := Cursor.exists_passes (c := d) (by simp [hd, hcomma])
        rw [hd, hcomma] at hmk
        simp only [Cursor.expect?_of_passes hm hmk, Cursor.take_eq_ok_iff.2 hm, Except.bind]
    · refine (local_pure [⟨⟨tag.value.lexeme⟩, name.value.lexeme⟩]).congr fun d hd => ?_
      simp only [Cursor.expect?_of_kind_ne (c := d) (k := .symbol .comma) (by rwa [hd])]
  | case2 c hk =>
    have hk : c.kind ≠ .identifier := by simpa [Cursor.check] using hk
    exact (local_pure []).congr fun d hd => (readParams_upto d).trans (if_neg (by rwa [hd]))

def BlockLocal (c : Cursor) : Prop :=
  Local (fun c => (readBlock c).upto)
    (fun w => ∀ next : Kind, next.EndsBlock → Viable (Forms .block next) w) c

def StmtLocal (c : Cursor) : Prop :=
  Local (fun c => (readStmt c).below)
    (fun w => ∀ next : Kind, next.EndsBlock → Viable (Forms .stmt next) w) c

section Steps

variable {α : Type} {c : Cursor} {V : List Token → Prop}

/-- A block, and the closing brace that has to follow it. -/
lemma Local.block_require (hb : BlockLocal c)
    (f : Block → Token × Cursor → Except ParseError (α × Cursor))
    (hV : ∀ {w}, Viable (Forms .block (.symbol .rightBrace)) w → V w)
    (hf : ∀ {ss t c' v}, Local (fun c => f ss (t, c)) (fun w => V (v ++ w)) c') :
    Local (fun c => (readBlock c).upto.bind fun ss =>
      (ss.2.require (.symbol .rightBrace)).below.bind (f ss.1)) V c := by
  refine hb.bind (fun _ hw => hV (hw _ (.inl rfl))) fun {ss c₁ w} hread hp => ?_
  obtain ⟨w', hp', hd, -⟩ := readBlock_sound hread
  obtain rfl := hp.tokens_unique hp'
  dsimp only
  refine Local.bind (local_require _ ?_) (fun _ h => h) fun {t c₂ v} _ _ => ?_
  · rw [List.append_nil]
    exact hV (hd.viable_block _ (.inl rfl))
  · exact (hf (v := w ++ v)).mono fun u hu => by rwa [← List.append_assoc]

lemma BlockLocal.mk (hk : ¬(c.kind = .symbol .rightBrace ∨ c.kind = .eof)) (hs : StmtLocal c)
    (hb : ∀ first : Below Stmt c.left, BlockLocal first.rest) : BlockLocal c := by
  refine Local.congr ?_ fun d hd => (readBlock_upto d).trans (if_neg (by rwa [hd]))
  refine hs.bind (fun _ hw next hnext => (hw next hnext).block_of_stmt) fun {s c₁ w} hread hw => ?_
  obtain ⟨w', hw', hd⟩ := block_sound.2 c s c₁ hread
  obtain rfl := hw.tokens_unique hw'
  obtain ⟨first, hfirst⟩ := exists_below hread
  obtain ⟨rfl, rfl⟩ := Prod.mk.inj hfirst
  dsimp only
  refine (hb first).bind (fun {v c'} hv hviable next hnext => ?_) fun {ss _ _} _ _ =>
    local_pure (first.value :: ss)
  cases v with
  | nil =>
    rw [List.append_nil]
    exact (hd.viable_stmt next hnext).block_of_stmt
  | cons t v =>
    -- the next statement has begun, so the one before it is as it was read
    obtain ⟨u, ss, hds⟩ := hviable next hnext
    rw [hv.kind] at hd
    refine ⟨u, first.value :: ss, ?_⟩
    rw [List.append_assoc]
    exact .cons hd hds

lemma viable_function {k x o r b : Token} {w v : List Token} {ps : List Param}
    (hk : k.kind = .keyword .funcWord) (hx : x.kind = .identifier)
    (ho : o.kind = .symbol .leftParen) (params : Derives .params w (.symbol .rightParen) ps)
    (hr : r.kind = .symbol .rightParen) (hb : b.kind = .symbol .leftBrace)
    (body : Viable (Forms .block (.symbol .rightBrace)) v) (next : Kind) :
    Viable (Forms .stmt next) (k :: x :: o :: (w ++ r :: b :: v)) := by
  have h := body.surround (Q := Forms .stmt next) (k :: x :: o :: (w ++ [r, b]))
    [.sample (.symbol .rightBrace)] fun y ⟨ss, hd⟩ => ⟨.function x.lexeme ps ss, ?_⟩
  · simpa using h
  · simpa using Derives.function hk hx ho params hr hb hd (Token.kind_sample _)

lemma viable_cond {k b : Token} {w v : List Token} {e : Expr}
    (hk : k.kind = .keyword .ifWord) (condition : Derives .sum w (.symbol .leftBrace) e)
    (hb : b.kind = .symbol .leftBrace)
    (body : Viable (Forms .block (.symbol .rightBrace)) v) (next : Kind) :
    Viable (Forms .stmt next) (k :: (w ++ b :: v)) := by
  have h := body.surround (Q := Forms .stmt next) (k :: (w ++ [b]))
    [.sample (.symbol .rightBrace)] fun y ⟨ss, hd⟩ => ⟨.cond e ss, ?_⟩
  · simpa using h
  · simpa using Derives.cond hk condition hb hd (Token.kind_sample _)

lemma StmtLocal.function (hk : c.kind = .keyword .funcWord)
    (hb : ∀ (word : Below Token c.left) (name : Below Token word.rest.left)
      (opening : Below Token name.rest.left) (params : Upto (List Param) opening.rest.left)
      (closing : Below Token params.rest.left) (brace : Below Token closing.rest.left),
      BlockLocal brace.rest) : StmtLocal c := by
  refine Local.congr ?_ fun d hd => readStmt_function (hd.trans hk)
  have hempty : Viable (Forms .block (.symbol .rightBrace)) [] := viable_of_accepts ⟨_, .nil⟩
  refine Local.require_bind (fun next _ => viable_stmt next) fun word _ hw => ?_
  dsimp only
  refine Local.require_bind (fun next _ => ?_) fun name _ hx => ?_
  · exact (viable_function hw (Token.kind_sample _) (Token.kind_sample _) .noParams
      (Token.kind_sample _) (Token.kind_sample _) hempty next).of_append (w := [word.value])
  dsimp only
  refine Local.require_bind (fun next _ => ?_) fun opening _ ho => ?_
  · exact (viable_function hw hx (Token.kind_sample _) .noParams (Token.kind_sample _)
      (Token.kind_sample _) hempty next).of_append (w := [word.value, name.value])
  dsimp only
  refine (params_local opening.rest).bind (fun {v _} _ hv next _ => ?_) fun {ps c₁ v} hread hv => ?_
  · obtain ⟨u, ps, hps⟩ := hv
    have h := viable_function hw hx ho hps (Token.kind_sample _) (Token.kind_sample _) hempty next
    rw [List.append_assoc] at h
    exact h.of_append (w := word.value :: name.value :: opening.value :: v)
  obtain ⟨v', hv', hps⟩ := readParams_sound hread
  obtain rfl := hv.tokens_unique hv'
  obtain ⟨params, hparams⟩ := exists_upto hread
  obtain ⟨rfl, rfl⟩ := Prod.mk.inj hparams
  dsimp only
  refine Local.require_bind (fun next _ => ?_) fun closing hc hr => ?_
  · obtain ⟨ps, hps⟩ := hps.viable_params
    rw [List.append_nil]
    exact (viable_function hw hx ho hps (Token.kind_sample _) (Token.kind_sample _) hempty
      next).of_append (w := word.value :: name.value :: opening.value :: v)
  rw [hc.kind, firstKind_cons, hr] at hps
  dsimp only
  refine Local.require_bind (fun next _ => ?_) fun brace _ hbrace => ?_
  · have h := viable_function hw hx ho hps hr (Token.kind_sample _) hempty next
    rw [List.append_cons] at h
    exact h.of_append (w := word.value :: name.value :: opening.value :: (v ++ [closing.value]))
  dsimp only
  exact Local.block_require (hb word name opening params closing brace)
    (fun ss l => .ok (Stmt.function name.value.lexeme params.value ss, l.2))
    (fun hbody next _ => viable_function hw hx ho hps hr hbrace hbody next)
    fun {ss _ _ _} => local_pure (Stmt.function name.value.lexeme params.value ss)

lemma StmtLocal.ret (hk : c.kind = .keyword .returnWord) : StmtLocal c := by
  refine Local.congr ?_ fun d hd => readStmt_ret (hd.trans hk)
  refine Local.require_bind (fun next _ => viable_stmt next) fun word _ hw => ?_
  refine Local.expr_require (expr_local.1 _ _) (closes_symbol (by decide))
    (fun e l => .ok (Stmt.ret e, l.2)) ?_ fun e _ {_} _ _ _ => local_pure (Stmt.ret e.value)
  intro v c' _ hv next _
  exact hv.surround [word.value] [.sample (.symbol .semicolon)] fun x ⟨e, hd⟩ =>
    ⟨.ret e, .ret hw hd rfl⟩

lemma StmtLocal.cond (hk : c.kind = .keyword .ifWord)
    (hb : ∀ (word : Below Token c.left) (condition : Upto Expr word.rest.left)
      (brace : Below Token condition.rest.left), BlockLocal brace.rest) : StmtLocal c := by
  refine Local.congr ?_ fun d hd => readStmt_cond (hd.trans hk)
  refine Local.require_bind (fun next _ => viable_stmt next) fun word _ hw => ?_
  refine Local.expr_require (expr_local.1 _ _) (closes_symbol (by decide))
    (fun e b => (readBlock b.2).upto.bind fun ss =>
      (ss.2.require (.symbol .rightBrace)).below.bind fun l => .ok (Stmt.cond e ss.1, l.2)) ?_ ?_
  · rintro v c' - ⟨u, e, hd⟩ next -
    have h := viable_cond hw hd (Token.kind_sample _) (viable_of_accepts (w := []) ⟨_, .nil⟩) next
    rw [List.append_assoc] at h
    exact h.of_append (w := word.value :: v)
  · intro e brace w _ hd hbrace
    exact Local.block_require (hb word e brace) (fun ss l => .ok (Stmt.cond e.value ss, l.2))
      (fun hbody next _ => viable_cond hw hd hbrace hbody next)
      fun {ss _ _ _} => local_pure (Stmt.cond e.value ss)

lemma StmtLocal.bind (hk : c.kind = .keyword .letWord) : StmtLocal c := by
  refine Local.congr ?_ fun d hd => readStmt_bind (hd.trans hk)
  have hinit : ∀ {k x q : Token} {w : List Token} (next : Kind), k.kind = .keyword .letWord →
      x.kind = .identifier → q.kind = .symbol .equals → Viable (Forms .sum (.symbol .semicolon)) w →
      Viable (Forms .stmt next) ([k, x, q] ++ w) :=
    fun next hk hx hq hw => hw.surround _ [.sample (.symbol .semicolon)] fun y ⟨e, hd⟩ =>
      ⟨_, .bindEnded hk hx hq hd rfl⟩
  have hnone : Viable (Forms .sum (.symbol .semicolon)) [] :=
    ⟨[.sample .number], _, derives_sum_number _⟩
  refine Local.require_bind (fun next _ => viable_stmt next) fun word _ hw => ?_
  dsimp only
  refine Local.require_bind (fun next _ => ?_) fun name _ hx => ?_
  · exact (hinit next hw (Token.kind_sample _) (Token.kind_sample _) hnone).of_append
      (w := [word.value])
  dsimp only
  refine Local.require_bind (fun next _ => ?_) fun equals _ hq => ?_
  · exact (hinit next hw hx (Token.kind_sample _) hnone).of_append (w := [word.value, name.value])
  dsimp only
  refine (expr_local.1 .lowest equals.rest).bind (fun {w _} _ hv next _ => ?_)
    fun {e c₁ w} _ _ => ?_
  · obtain ⟨u, e, hc⟩ := hv (.symbol .semicolon) (closes_symbol (by decide))
    exact hinit next hw hx hq ⟨u, e, hc.derives_sum⟩
  dsimp only
  by_cases hend : c₁.kind = .symbol .semicolon
  · refine Local.congr (y := fun c => c.take.below.bind fun m =>
      .ok (.bind name.value.lexeme e, m.2)) ?_ fun d hd => ?_
    · exact Local.take_bind (by simp [hend]) fun _ _ _ => local_pure (Stmt.bind name.value.lexeme e)
    · obtain ⟨m, d', hm, hmk⟩ := Cursor.exists_passes (c := d) (by simp [hd, hend])
      rw [hd, hend] at hmk
      rw [Cursor.expect?_of_passes hm hmk, Cursor.take_eq_ok_iff.2 hm]
      rfl
  · refine (local_pure (Stmt.bind name.value.lexeme e)).congr fun d hd => ?_
    rw [Cursor.expect?_of_kind_ne (by rwa [hd])]

lemma StmtLocal.expr (hk : opensExpr c.kind) : StmtLocal c := by
  refine Local.congr ?_ fun d hd => readStmt_expr (by rwa [hd])
  refine Local.expr_require (expr_local.1 _ _) (closes_symbol (by decide))
    (fun e l => .ok (Stmt.expr e, l.2)) ?_ fun e _ {_} _ _ _ => local_pure (Stmt.expr e.value)
  rintro w c' hw ⟨v, e, hd⟩ next -
  cases w with
  | nil => exact viable_stmt next
  | cons t w =>
    refine ⟨v ++ [.sample (.symbol .semicolon)], .expr e, ?_⟩
    rw [← List.append_assoc]
    refine .expr ?_ hd rfl
    -- Strings and `null` announce an expression, but none starts with them.
    have hfirst := hd.firstKind_expr trivial
    rw [hw.kind, firstKind_cons] at hk
    rw [List.cons_append, firstKind_cons] at hfirst ⊢
    simp only [List.mem_cons, List.not_mem_nil, or_false] at hfirst ⊢
    rcases hfirst with h | h | h | h
    · exact .inl h
    · exact .inr (.inl h)
    · exact .inr (.inr h)
    · simp [h, opensExpr] at hk

end Steps

lemma block_local : (∀ c, BlockLocal c) ∧ ∀ c, StmtLocal c := by
  apply readBlock.mutual_induct
  · intro c hk
    have hend : c.kind = .symbol .rightBrace ∨ c.kind = .eof := by
      simpa [Cursor.check, Cursor.atEnd] using hk
    exact (local_pure []).congr fun d hd => (readBlock_upto d).trans (if_pos (by rwa [hd]))
  · exact fun c hk => BlockLocal.mk (by simpa [Cursor.check, Cursor.atEnd] using hk)
  · exact fun c => StmtLocal.function
  · exact fun c => StmtLocal.ret
  · exact fun c => StmtLocal.cond
  · exact fun c => StmtLocal.bind
  · intro c hk
    refine Local.congr ?_ fun d hd => readStmt_empty (hd.trans hk)
    exact Local.take_bind (by simp [hk]) fun mark _ _ => local_pure (Stmt.empty mark.value.span)
  · exact fun c hk => StmtLocal.expr (.inl hk)
  · exact fun c hk => StmtLocal.expr (.inr (.inl hk))
  · exact fun c hk => StmtLocal.expr (.inr (.inr (.inl hk)))
  · exact fun c hk => StmtLocal.expr (.inr (.inr (.inr (.inl hk))))
  · exact fun c hk => StmtLocal.expr (.inr (.inr (.inr (.inr hk))))
  · intro c h₁ h₂ h₃ h₄ h₅ h₆ h₇ h₈ h₉ h₁₀
    have hother : ¬opensExpr c.kind := by
      simp only [opensExpr, not_or]
      exact ⟨h₆, h₇, h₈, h₉, h₁₀⟩
    refine local_fail (fun next _ => viable_stmt next) (e := .noStatement c.kind c.current.span)
      ⟨rfl, rfl⟩ fun d hd => ?_
    rw [← hd.current, ← hd.kind]
    rw [← hd.kind] at h₁ h₂ h₃ h₄ h₅ hother
    exact readStmt_other h₁ h₂ h₃ h₄ h₅ hother

/-! ### Streams -/

namespace TokenStream

variable {ts ts' : TokenStream} {c : Cursor} {w : List Token}

lemma position_of_passes (h : (Cursor.start ts).Passes w c) : c.position = w.length := by
  rw [Cursor.position, h.behind]
  simp [Cursor.start]

lemma ahead_eq_nil_iff (h : (Cursor.start ts).Passes w c) :
    c.ahead = [] ↔ c.position = ts.body.length := by
  have hbody : ts.body = w ++ c.ahead := h.ahead
  rw [position_of_passes h, hbody, List.length_append, ← List.length_eq_zero_iff]
  omega

/-- The tokens a cursor has passed, and the one it stands at. -/
lemma take_toList_of_passes (h : (Cursor.start ts).Passes w c) :
    ts.toList.take (c.position + 1) = w ++ [c.current] := by
  have hbody : ts.body = w ++ c.ahead := h.ahead
  have heof : c.eof = ts.eof := h.eof
  rw [toList, hbody, position_of_passes h, List.append_assoc, List.take_length_add_append]
  unfold Cursor.current
  cases c.ahead with
  | nil => simp [Cursor.sentinel, heof]
  | cons t rest => simp

lemma getElem?_toList_of_passes (h : (Cursor.start ts).Passes w c) :
    ts.toList[c.position]? = some c.current := by
  rw [← List.getElem?_take_of_lt (Nat.lt_succ_self _), take_toList_of_passes h,
    position_of_passes h, List.getElem?_concat_length]

lemma current_kind_eq_eof_iff (h : (Cursor.start ts).Passes w c) :
    c.kind = .eof ↔ c.ahead = [] := by
  have hbody : ts.body = w ++ c.ahead := h.ahead
  rw [c.kind_eq_firstKind]
  cases hahead : c.ahead with
  | nil => simp
  | cons t rest =>
    rw [hahead] at hbody
    simpa using ts.body_ne_eof t (by simp [hbody])

/-- A stream that agrees with another as far as a cursor has come, with the token it stands at
counted, has a cursor of its own there. -/
lemma exists_meets (h : (Cursor.start ts).Passes w c)
    (hagree : ts'.toList.take (c.position + 1) = ts.toList.take (c.position + 1)) :
    ∃ d, (Cursor.start ts').Passes w d ∧ c.Meets d := by
  have hstart : w ++ [c.current] <+: ts'.toList := by
    rw [← take_toList_of_passes h, ← hagree]
    exact List.take_prefix _ _
  have hw : w <+: ts'.body := by
    rcases List.prefix_concat_iff.1 hstart with hall | hstart
    · obtain ⟨hbody, -⟩ := List.append_inj' hall rfl
      exact hbody ▸ List.prefix_rfl
    · exact (List.prefix_append w _).trans hstart
  obtain ⟨rest, hrest⟩ := hw
  have hd : (Cursor.start ts').Passes w _ := Cursor.passes_of_ahead hrest.symm
  refine ⟨_, hd, ?_⟩
  generalize (⟨w.reverse ++ (Cursor.start ts').behind, rest, (Cursor.start ts').eof⟩ : Cursor) = d
    at hd
  have hbehind : d.behind = c.behind := hd.behind.trans h.behind.symm
  have hcurrent : d.current = c.current := by
    rw [show c.position = d.position from (congrArg List.length hbehind).symm,
      take_toList_of_passes hd, Cursor.position, hbehind, ← Cursor.position,
      take_toList_of_passes h] at hagree
    simpa using hagree
  refine Cursor.meets_of_current hbehind hcurrent ?_
  rw [← current_kind_eq_eof_iff hd, ← current_kind_eq_eof_iff h, Cursor.kind, hcurrent,
    ← Cursor.kind]

/-- Tokens that can be completed to a block start a stream that has a program. -/
lemma exists_parse_of_viable (h : Viable (Forms .block .eof) w) :
    ∃ ts' program, w <+: body ts' ∧ ts'.parse.result = .ok program := by
  obtain ⟨v, program, hd⟩ := h
  refine ⟨⟨w ++ v, 0, hd.sentinelFree⟩, program, List.prefix_append w v, ?_⟩
  exact parse_of_derivesProgram (derivesProgram_of_derives (List.append_nil _).symm (.inl rfl) hd)

lemma parse_eq_error_iff (ts : TokenStream) (e : ParseError) :
    ts.parse.result = .error e ↔ (readBlock (.start ts)).upto = .error e := by
  rw [TokenStream.parse, Reading.result_bind, upto, view]
  cases (readBlock (.start ts)).result with
  | error e => simp [Except.bind, Except.map]
  | ok r => simp [Except.bind, Except.map]

/-- **Errors are reported at the earliest token.** If the parser fails, then at one token, which the
error names: an unexpected token is never the sentinel, and only at the sentinel is the stream
exhausted. Whatever follows this token, the error is the same, and something else in its place
makes the tokens before it start a program. If the parser succeeds, then what follows the token it
stops at does not matter either. -/
theorem parse_decided_at_token (ts : TokenStream) :
    (∀ e, ts.parse.result = .error e → ∃ i t, ts.toList[i]? = some t ∧
      e.Names i t (i = ts.body.length) ∧ (∀ k s, e ≠ .cursor (.unexpected k .eof s)) ∧
      (∀ ts' : TokenStream, ts'.toList.take (i + 1) = ts.toList.take (i + 1) →
        ts'.parse.result = .error e) ∧
      ∃ (ts' : TokenStream) (program : Block), ts'.toList.take i = ts.toList.take i ∧
        ts'.parse.result = .ok program) ∧
    ∀ program, ts.parse.result = .ok program →
      ∃ c, (readBlock (.start ts)).upto = .ok (program, c) ∧
      ts.toList[c.position]? = some c.current ∧
      (c.kind = .symbol .rightBrace ∨ c.position = ts.body.length) ∧
      ∀ ts' : TokenStream, ts'.toList.take (c.position + 1) = ts.toList.take (c.position + 1) →
        ts'.parse.result = .ok program := by
  refine ⟨fun e h => ?_, fun program h => ?_⟩
  · obtain ⟨w, c, hp, hviable, hnames, hsame⟩ :=
      (block_local.1 _).error ((parse_eq_error_iff ts e).1 h)
    rw [propext (ahead_eq_nil_iff hp)] at hnames
    refine ⟨c.position, c.current, getElem?_toList_of_passes hp, hnames, ?_, ?_, ?_⟩
    · rintro k s rfl
      exact hnames.1 ((ahead_eq_nil_iff hp).1 ((current_kind_eq_eof_iff hp).1 hnames.2.1.symm))
    · intro ts' hagree
      obtain ⟨d, hd, hmeets⟩ := exists_meets hp hagree
      exact (parse_eq_error_iff ts' e).2 (hsame hd hmeets)
    · obtain ⟨ts', program, hprefix, hparse⟩ := exists_parse_of_viable (hviable .eof (.inr rfl))
      have hbody : ts.body = w ++ c.ahead := hp.ahead
      refine ⟨ts', program, ?_, hparse⟩
      obtain ⟨v, hv⟩ := hprefix
      rw [position_of_passes hp, toList, toList, hbody, ← hv, List.append_assoc, List.append_assoc,
        List.take_left, List.take_left]
  · obtain ⟨c, hread⟩ := (parse_eq_ok_iff ts program).1 h
    obtain ⟨w, hp, hsame⟩ := (block_local.1 _).ok hread
    obtain ⟨-, -, -, hend⟩ := readBlock_sound hread
    rw [current_kind_eq_eof_iff hp, ahead_eq_nil_iff hp] at hend
    refine ⟨c, hread, getElem?_toList_of_passes hp, hend, fun ts' hagree => ?_⟩
    obtain ⟨d, hd, hmeets⟩ := exists_meets hp hagree
    exact (parse_eq_ok_iff ts' program).2 ⟨d, hsame hd hmeets⟩

/-- Nothing is a primary in front of a closing parenthesis, but `return` does not go on with one:
the error stands there, and `return` alone can be completed. -/
theorem parse_decided_at_token_stray_paren :
    let ts := ofTokens [⟨"return", .keyword .returnWord, ⟨0, 6⟩⟩,
      ⟨")", .symbol .rightParen, ⟨7, 8⟩⟩] 8
    let e := ParseError.cursor (.unexpected (.symbol .semicolon) (.symbol .rightParen) ⟨7, 8⟩)
    ts.parse.result = .error e ∧
      (∀ ts' : TokenStream, ts'.toList.take 2 = ts.toList.take 2 → ts'.parse.result = .error e) ∧
      ∃ (ts' : TokenStream) (program : Block), ts'.toList.take 1 = ts.toList.take 1 ∧
        ts'.parse.result = .ok program := by
  intro ts e
  have h : ts.parse.result = .error e := by cbv
  obtain ⟨i, t, ht, hnames, -, hsame, hviable⟩ := (parse_decided_at_token ts).1 e h
  have hspan : (⟨7, 8⟩ : Span) = t.span := hnames.2.2.1
  -- no other token has this span
  obtain rfl : i = 1 := by
    rcases i with _ | _ | _ | i
    · obtain rfl := Option.some.inj ht
      exact absurd hspan (by decide)
    · rfl
    · obtain rfl := Option.some.inj ht
      exact absurd hspan (by decide)
    · cases ht
  exact ⟨h, hsame, hviable⟩

end TokenStream

end Flame
