import Flame.Proofs.Lexemes
import Flame.Proofs.ParserComplete
import Flame.Syntax.Outline

/-!
Expressions written and read again.

An expression is written with parentheses around every operation, so that its text is a primary of
the grammar, whatever stands around it. Scanning the text gives back the tokens it was put together
from, and the tokens derive the expression.
-/

namespace Flame

mutual

/-- An expression that a text can stand for: its numbers have no sign, and its names are names. -/
def Expr.Printable : Expr → Prop
  | .int n => 0 ≤ n.toInt
  | .void => True
  | .var name => IsName name
  | .call callee args => IsName callee ∧ Expr.AllPrintable args
  | .binary _ left right => left.Printable ∧ right.Printable

def Expr.AllPrintable : List Expr → Prop
  | [] => True
  | e :: es => e.Printable ∧ Expr.AllPrintable es

end

mutual

/-- The expression and all its parts. -/
def Expr.parts : Expr → List Expr
  | .int n => [.int n]
  | .void => [.void]
  | .var name => [.var name]
  | .call callee args => .call callee args :: Expr.partsOfList args
  | .binary op left right => .binary op left right :: (left.parts ++ right.parts)

def Expr.partsOfList : List Expr → List Expr
  | [] => []
  | e :: es => e.parts ++ Expr.partsOfList es

end

mutual

/-- The expressions that occur in a statement, at any depth. -/
def Stmt.exprs : Stmt → List Expr
  | .function _ _ body => Block.exprs body
  | .ret e => e.parts
  | .cond condition body => condition.parts ++ Block.exprs body
  | .expr e => e.parts
  | .bind _ init => init.parts
  | .empty _ => []

def Block.exprs : List Stmt → List Expr
  | [] => []
  | s :: ss => s.exprs ++ Block.exprs ss

end

/-! ### Writing, then reading -/

/-- Digits stand for the number that they were written for. -/
lemma numeral_writeInt64 {n : Int64} (h : 0 ≤ n.toInt) :
    (Text.writeInt64 n).toList ≠ [] ∧ (∀ d ∈ (Text.writeInt64 n).toList, d.isDigit) ∧
      Numeral (Text.writeInt64 n).toList n.toInt := by
  have hdigits : (Text.writeInt64 n).toList = Nat.toDigits 10 n.toInt.natAbs := by
    rw [Text.writeInt64, Text.writeInt, if_neg (by omega), Nat.toList_repr]
  have hne := Nat.toDigits_ne_nil (b := 10) (n := n.toInt.natAbs)
  have hd : ∀ d ∈ Nat.toDigits 10 n.toInt.natAbs, d.isDigit := fun d hmem =>
    Nat.isDigit_of_mem_toDigits (by decide) (by decide) hmem
  have hvalue : Numeral _ _ := .unsigned hne hd
  rw [Nat.ofDigitChars_ten_toDigits, Int.natAbs_of_nonneg h] at hvalue
  rw [hdigits]
  exact ⟨hne, hd, hvalue⟩

/-- An operation on two primaries, in the tier of its operator. -/
lemma derives_binary {op : Operator} {w v : List Token} {m : Token} {next : Kind} {l r : Expr}
    (hl : Derives .primary w (.operator op) l) (hm : m.kind = .operator op)
    (hr : Derives .primary v next r) : Derives .sum (w ++ m :: v) next (.binary op l r) := by
  cases op with
  | add => exact .plus (.inl rfl) hm (.summand (.factor hl)) (.factor hr)
  | sub => exact .plus (.inr rfl) hm (.summand (.factor hl)) (.factor hr)
  | mul => exact .summand (.times (.inl rfl) hm (.factor hl) hr)
  | div => exact .summand (.times (.inr rfl) hm (.factor hl) hr)

/-- The tokens form a primary, if only no opening parenthesis follows. -/
def FormsPrimary (e : Expr) (ts : List Token) : Prop :=
  ∀ next, next ≠ .symbol .leftParen → Derives .primary ts next e

lemma FormsPrimary.firstKind_mem {e : Expr} {ts : List Token} (h : FormsPrimary e ts) (k : Kind) :
    firstKind ts k ∈ [.identifier, .symbol .leftParen, .number] := by
  cases h .eof (by decide) with
  | paren ho => simp [ho]
  | call hf => simp [hf]
  | var hx => simp [hx]
  | int hd => simp [hd]

lemma FormsPrimary.firstKind_ne {e : Expr} {ts : List Token} (h : FormsPrimary e ts) (k : Kind) :
    firstKind ts k ≠ .symbol .rightParen := by
  intro hfirst
  have hmem := h.firstKind_mem k
  rw [hfirst] at hmem
  exact absurd hmem (by decide)

lemma scansTo_leftParen {rest : List Char} :
    ScansTo "(".toList rest (IsToken "(" (.symbol .leftParen)) :=
  scansTo_symbol .leftParen (by decide)

lemma scansTo_rightParen {rest : List Char} :
    ScansTo ")".toList rest (IsToken ")" (.symbol .rightParen)) :=
  scansTo_symbol .rightParen (by decide)

mutual

lemma scansTo_render : (e : Expr) → e.Printable → (rest : List Char) → EndsLexeme rest →
    ScansTo e.render.toList rest (FormsPrimary e)
  | .int n, hn, rest, hrest => by
    obtain ⟨hne, hd, hvalue⟩ := numeral_writeInt64 hn
    refine (scansTo_digits hne hd hrest).mono ?_
    rintro _ ⟨t, rfl, hlexeme, hkind⟩ next -
    refine .int hkind ?_
    rw [hlexeme]
    exact hvalue
  | .void, _, rest, hrest => by
    refine (scansTo_leftParen.append scansTo_rightParen).mono ?_
    rintro _ ⟨_, _, rfl, ⟨o, rfl, -, ho⟩, ⟨r, rfl, -, hr⟩⟩ next -
    exact .paren ho (.summand (.factor .nothing)) hr
  | .var name, hname, rest, hrest => by
    refine (scansTo_name hname hrest).mono ?_
    rintro _ ⟨t, rfl, hlexeme, hkind⟩ next hnext
    rw [← hlexeme]
    exact .var hkind hnext
  | .call callee args, ⟨hcallee, hargs⟩, rest, hrest => by
    simp only [Expr.render, String.toList_append, List.append_assoc]
    refine .mono (.append (scansTo_name hcallee ?_) (.append scansTo_leftParen
      (.append (scansTo_renderList args hargs rest) scansTo_rightParen))) ?_
    · exact endsLexeme_cons _ (by decide)
    rintro _ ⟨_, _, rfl, ⟨f, rfl, hlexeme, hf⟩, _, _, rfl, ⟨o, rfl, -, ho⟩, w, _, rfl, hw,
      ⟨r, rfl, -, hr⟩⟩ next -
    rw [← hlexeme]
    exact .call hf ho hw hr
  | .binary op left right, ⟨hleft, hright⟩, rest, hrest => by
    simp only [Expr.render, String.toList_append, List.append_assoc]
    refine .mono (.append scansTo_leftParen (.append (scansTo_render left hleft _ ?_)
      (.space (.append (scansTo_operator op) (.space (.append (scansTo_render right hright _ ?_)
        scansTo_rightParen)))))) ?_
    · exact endsLexeme_cons _ (by decide)
    · exact endsLexeme_cons _ (by decide)
    rintro _ ⟨_, _, rfl, ⟨o, rfl, -, ho⟩, w, _, rfl, hw, _, _, rfl, ⟨m, rfl, -, hm⟩, v, _, rfl, hv,
      ⟨r, rfl, -, hr⟩⟩ next -
    have hinner : Derives .sum (w ++ m :: v) (.symbol .rightParen) (.binary op left right) :=
      derives_binary (hw _ (by simp)) hm (hv _ (by simp))
    simpa using Derives.paren ho hinner hr

lemma scansTo_renderList : (es : List Expr) → Expr.AllPrintable es → (rest : List Char) →
    ScansTo (", ".intercalate (Expr.renderList es)).toList (")".toList ++ rest)
      (fun ts => Derives .args ts (.symbol .rightParen) es)
  | [], _, rest => by
    refine (scansTo_nil _).mono ?_
    rintro _ rfl
    exact .noArgs
  | [e], ⟨he, _⟩, rest => by
    have hscan := scansTo_render e he (")".toList ++ rest) (endsLexeme_cons _ (by decide))
    simp only [Expr.renderList, String.intercalate_singleton]
    exact hscan.mono fun ts hts =>
      .lastArg (hts.firstKind_ne _) (.summand (.factor (hts _ (by decide))))
  | e :: e' :: es, ⟨he, hes⟩, rest => by
    have hseparator : ", ".toList = ",".toList ++ " ".toList := rfl
    have hothers := scansTo_renderList (e' :: es) hes rest
    simp only [Expr.renderList, String.intercalate_cons_cons, String.toList_append, hseparator,
      List.append_assoc] at hothers ⊢
    refine .mono (.append (scansTo_render e he _ ?_) (.append (scansTo_symbol .comma (by decide))
      (.space hothers))) ?_
    · exact endsLexeme_cons _ (by decide)
    rintro _ ⟨w, _, rfl, hw, _, v, rfl, ⟨m, rfl, -, hm⟩, hv⟩
    exact .moreArgs (hw.firstKind_ne _) (.summand (.factor (hw _ (by decide)))) hm hv

end

/-- What is written is read as the expression it was written for. -/
lemma parse_render_of_printable {e : Expr} (h : e.Printable) :
    (parseSource (e.render ++ ";")).result = .ok [.expr e] := by
  have hends : EndsLexeme (";".toList ++ []) := endsLexeme_cons _ (by decide)
  have hscan := (scansTo_render e h _ hends).append (scansTo_symbol .semicolon (by decide))
  obtain ⟨_, offset, hbody, w, _, rfl, hw, l, rfl, -, hl⟩ := hscan 0
  rw [List.append_nil, scan_nil, ← String.toList_append] at hbody
  have hstmt : Derives .stmt (w ++ [l]) .eof (.expr e) :=
    .expr (hw.firstKind_mem _) (.summand (.factor (hw _ (by decide)))) hl
  have hblock : Derives .block (w ++ [l] ++ []) .eof [.expr e] := .cons hstmt .nil
  rw [List.append_nil] at hblock
  exact TokenStream.parse_of_derivesProgram
    (TokenStream.derivesProgram_of_derives hbody (.inl rfl) hblock)

/-! ### What a source text can hold -/

mutual

lemma Expr.Printable.of_mem_parts : (e : Expr) → e.Printable → ∀ e' ∈ e.parts, e'.Printable
  | .int n, h, _, hmem => by
    obtain rfl := List.mem_singleton.1 hmem
    exact h
  | .void, h, _, hmem => by
    obtain rfl := List.mem_singleton.1 hmem
    exact h
  | .var name, h, _, hmem => by
    obtain rfl := List.mem_singleton.1 hmem
    exact h
  | .call callee args, h, _, hmem => by
    rcases List.mem_cons.1 hmem with rfl | hmem
    · exact h
    · exact Expr.AllPrintable.of_mem_parts args h.2 _ hmem
  | .binary op left right, h, _, hmem => by
    rcases List.mem_cons.1 hmem with rfl | hmem
    · exact h
    · rcases List.mem_append.1 hmem with hmem | hmem
      · exact Expr.Printable.of_mem_parts left h.1 _ hmem
      · exact Expr.Printable.of_mem_parts right h.2 _ hmem

lemma Expr.AllPrintable.of_mem_parts : (es : List Expr) → Expr.AllPrintable es →
    ∀ e' ∈ Expr.partsOfList es, e'.Printable
  | [], _, _, hmem => by cases hmem
  | e :: es, h, _, hmem => by
    rcases List.mem_append.1 hmem with hmem | hmem
    · exact Expr.Printable.of_mem_parts e h.1 _ hmem
    · exact Expr.AllPrintable.of_mem_parts es h.2 _ hmem

end

/-- All expressions in the tree of a phrase can be written. -/
def Phrase.Printable : (p : Phrase) → p.Tree → Prop
  | .primary, e | .term, e | .sum, e => Expr.Printable e
  | .args, es => Expr.AllPrintable es
  | .params, _ => True
  | .stmt, s => ∀ e ∈ Stmt.exprs s, e.Printable
  | .block, b => ∀ e ∈ Block.exprs b, e.Printable

/-- The lexeme of a number has no sign. -/
lemma nonneg_of_numeral {s : String} {z : Int} (hkind : Kind.ofLexeme s = .number)
    (h : Numeral s.toList z) : 0 ≤ z := by
  have hnumber := Kind.isNumber_of_ofLexeme hkind
  generalize s.toList = cs at h hnumber
  cases h with
  | unsigned => exact Int.natCast_nonneg _
  | plus => exact Int.natCast_nonneg _
  | minus => cases hnumber

/-- The tokens have the kinds of their lexemes, as scanned ones do. -/
def Scanned (w : List Token) : Prop := ∀ t ∈ w, t.kind = Kind.ofLexeme t.lexeme

lemma scanned_cons {t : Token} {w : List Token} :
    Scanned (t :: w) ↔ t.kind = Kind.ofLexeme t.lexeme ∧ Scanned w := List.forall_mem_cons

lemma scanned_append {w v : List Token} : Scanned (w ++ v) ↔ Scanned w ∧ Scanned v :=
  List.forall_mem_append

lemma isName_of_scanned {x : Token} (h : x.kind = Kind.ofLexeme x.lexeme)
    (hx : x.kind = .identifier) : IsName x.lexeme :=
  Kind.ofLexeme_eq_identifier_iff.1 (h.symm.trans hx)

/-- Scanned tokens derive only what can be written. -/
lemma Derives.printable {p : Phrase} {w : List Token} {next : Kind} {t : p.Tree}
    (h : Derives p w next t) (hw : Scanned w) : p.Printable t := by
  induction h with
  | paren _ _ _ ih =>
    rw [scanned_cons, scanned_append] at hw
    exact ih hw.2.1
  | nothing => exact trivial
  | call hf _ _ _ ih =>
    rw [scanned_cons, scanned_cons, scanned_append] at hw
    exact ⟨isName_of_scanned hw.1 hf, ih hw.2.2.1⟩
  | var hx => exact isName_of_scanned (scanned_cons.1 hw).1 hx
  | int hd value => exact nonneg_of_numeral ((scanned_cons.1 hw).1.symm.trans hd) value
  | factor _ ih => exact ih hw
  | times _ _ _ _ ihl ihr =>
    rw [scanned_append, scanned_cons] at hw
    exact ⟨ihl hw.1, ihr hw.2.2⟩
  | summand _ ih => exact ih hw
  | plus _ _ _ _ ihl ihr =>
    rw [scanned_append, scanned_cons] at hw
    exact ⟨ihl hw.1, ihr hw.2.2⟩
  | noArgs => exact trivial
  | lastArg _ _ ih => exact ⟨ih hw, trivial⟩
  | moreArgs _ _ _ _ ih ihs =>
    rw [scanned_append, scanned_cons] at hw
    exact ⟨ih hw.1, ihs hw.2.2⟩
  | noParams => exact trivial
  | lastParam => exact trivial
  | moreParams => exact trivial
  | function _ _ _ _ _ _ _ _ _ ih =>
    simp only [scanned_cons, scanned_append] at hw
    exact ih hw.2.2.2.2.2.2.1
  | ret _ _ _ ih =>
    rw [scanned_cons, scanned_append] at hw
    exact Expr.Printable.of_mem_parts _ (ih hw.2.1)
  | cond _ _ _ _ _ ihc ihb =>
    simp only [scanned_cons, scanned_append] at hw
    intro e he
    rcases List.mem_append.1 he with he | he
    · exact Expr.Printable.of_mem_parts _ (ihc hw.2.1) e he
    · exact ihb hw.2.2.2.1 e he
  | expr _ _ _ ih =>
    rw [scanned_append] at hw
    exact Expr.Printable.of_mem_parts _ (ih hw.1)
  | bindEnded _ _ _ _ _ ih =>
    simp only [scanned_cons, scanned_append] at hw
    exact Expr.Printable.of_mem_parts _ (ih hw.2.2.2.1)
  | bindOpen _ _ _ _ _ ih =>
    simp only [scanned_cons] at hw
    exact Expr.Printable.of_mem_parts _ (ih hw.2.2.2)
  | empty => exact fun e he => absurd he List.not_mem_nil
  | nil => exact fun e he => absurd he List.not_mem_nil
  | cons _ _ ih ihs =>
    rw [scanned_append] at hw
    intro e he
    rcases List.mem_append.1 he with he | he
    · exact ih hw.1 e he
    · exact ihs hw.2 e he

lemma scanned_programTokens (source : String) :
    Scanned (TokenStream.ofSource source).programTokens := by
  intro t ht
  obtain ⟨rest, hbody, -⟩ := beforeUnmatched_rest 0 (TokenStream.ofSource source).body
  have hmem : t ∈ (TokenStream.ofSource source).body := by
    rw [hbody]
    exact List.mem_append_left rest ht
  exact kind_of_mem_scan hmem

lemma printable_of_parse {source : String} {program : Block}
    (h : (parseSource source).result = .ok program) : ∀ e ∈ Block.exprs program, e.Printable :=
  Derives.printable (TokenStream.derivesProgram_of_parse h) (scanned_programTokens source)

/-- **Round trip.** An expression with unsigned numbers and proper names is read back from its text.
All expressions of a program that was read from a source text are such expressions. -/
theorem parse_render :
    (∀ e : Expr, e.Printable → (parseSource (e.render ++ ";")).result = .ok [.expr e]) ∧
    (∀ source program, (parseSource source).result = .ok program →
      ∀ e ∈ Block.exprs program,
        e.Printable ∧ (parseSource (e.render ++ ";")).result = .ok [.expr e]) := by
  refine ⟨fun e he => parse_render_of_printable he, fun source program h e he => ?_⟩
  have hprintable : e.Printable := printable_of_parse h e he
  exact ⟨hprintable, parse_render_of_printable hprintable⟩

/-- Nothing as an argument, an operation as another, and the greatest number. -/
theorem parse_render_nested_call :
    let x : Expr := .var "x"
    let e : Expr := .call "f" [.void, .binary .sub x (.int 9223372036854775807)]
    e.render = "f((), (x - 9223372036854775807))" ∧
      (parseSource "f((), (x - 9223372036854775807));").result = .ok [.expr e] ∧
      x ∈ Block.exprs [.expr e] ∧ (parseSource (x.render ++ ";")).result = .ok [.expr x] := by
  intro x e
  have hrender : e.render = "f((), (x - 9223372036854775807))" := by decide +kernel
  have hf : IsName "f" := by decide
  have hx : IsName "x" := by decide
  have hn : 0 ≤ (9223372036854775807 : Int64).toInt := by decide
  have he : e.Printable := ⟨hf, trivial, ⟨hx, hn⟩, trivial⟩
  have hread := parse_render.1 e he
  have hmem : x ∈ Block.exprs [.expr e] := by decide
  refine ⟨hrender, ?_, hmem, (parse_render.2 _ _ hread x hmem).2⟩
  rw [hrender] at hread
  exact hread

end Flame
