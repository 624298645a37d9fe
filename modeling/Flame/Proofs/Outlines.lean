import Flame.Proofs.Places
import Flame.Proofs.RoundTrip
import Mathlib

/-!
Outlines read back.

An outline does not mark where a body ends, where a name starts or what kind a statement is of. It
can be read back all the same. The first word of a line is a reserved word exactly if the statement
starts with it, since no name is one; a name ends where its letters and digits do; and a body ends
at the first line that stands less deep than its lines do.
-/

namespace Flame

/-- What the first line of its outline says of a statement. -/
def Stmt.heading : Stmt → String
  | .function name params _ => "func " ++ name ++ " (" ++ signature params ++ ")"
  | .ret value => "return " ++ value.render
  | .cond condition _ => "if " ++ condition.render
  | .expr e => e.render
  | .bind name init => "let " ++ name ++ " = " ++ init.render
  | .empty span => "; @ " ++ span.render

/-- The statements inside a statement. -/
def Stmt.body : Stmt → Block
  | .function _ _ body | .cond _ body => body
  | _ => []

/-- The statement with nothing inside. -/
def Stmt.bare : Stmt → Stmt
  | .function name params _ => .function name params []
  | .cond condition _ => .cond condition []
  | s => s

/-- The reserved word that a statement starts with. -/
def Stmt.keyword? : Stmt → Option Keyword
  | .function .. => some .funcWord
  | .ret _ => some .returnWord
  | .cond .. => some .ifWord
  | .bind .. => some .letWord
  | .expr _ | .empty _ => none

/-- A parameter that a source text can hold: its type and its name are names. -/
structure Param.Readable (p : Param) : Prop where
  tag : IsName p.tag.name
  name : IsName p.name

mutual

/-- A statement that a source text can hold: its names are names, and its expressions can be
written. -/
def Stmt.Readable : Stmt → Prop
  | .function name params body =>
    IsName name ∧ (∀ p ∈ params, p.Readable) ∧ Block.Readable body
  | .ret e | .expr e => e.Printable
  | .cond condition body => condition.Printable ∧ Block.Readable body
  | .bind name init => IsName name ∧ init.Printable
  | .empty _ => True

def Block.Readable : List Stmt → Prop
  | [] => True
  | s :: ss => s.Readable ∧ Block.Readable ss

end

/-- The lines start less deep than `depth`, if there are any. -/
def Shallow (depth : Nat) (lines : List OutlineLine) : Prop :=
  ∀ line ∈ lines.head?, line.depth < depth

/-! ### What a source text can hold -/

/-- The tree of a phrase can be read back. Nothing is asked of expressions here. -/
def Phrase.Readable : (p : Phrase) → p.Tree → Prop
  | .primary, _ | .term, _ | .sum, _ | .args, _ => True
  | .params, ps => ∀ p ∈ ps, Param.Readable p
  | .stmt, s => Stmt.Readable s
  | .block, b => Block.Readable b

/-- Scanned tokens derive only what can be read back. -/
lemma Derives.readable {p : Phrase} {w : List Token} {next : Kind} {t : p.Tree}
    (h : Derives p w next t) (hw : Scanned w) : p.Readable t := by
  induction h with
  | paren | nothing | call | var | int | factor | times | summand | plus | noArgs | lastArg
  | moreArgs => exact trivial
  | noParams => exact fun p hp => absurd hp List.not_mem_nil
  | lastParam ht hx =>
    simp only [scanned_cons] at hw
    intro p hp
    obtain rfl := List.mem_singleton.1 hp
    exact ⟨isName_of_scanned hw.1 ht, isName_of_scanned hw.2.1 hx⟩
  | moreParams ht hx _ _ ih =>
    simp only [scanned_cons] at hw
    refine List.forall_mem_cons.2 ⟨?_, ih hw.2.2.2⟩
    exact ⟨isName_of_scanned hw.1 ht, isName_of_scanned hw.2.1 hx⟩
  | function _ hx _ _ _ _ _ _ ihps ihss =>
    simp only [scanned_cons, scanned_append] at hw
    exact ⟨isName_of_scanned hw.2.1 hx, ihps hw.2.2.2.1, ihss hw.2.2.2.2.2.2.1⟩
  | ret _ value _ =>
    rw [scanned_cons, scanned_append] at hw
    exact value.printable hw.2.1
  | cond _ condition _ _ _ _ ih =>
    simp only [scanned_cons, scanned_append] at hw
    exact ⟨condition.printable hw.2.1, ih hw.2.2.2.1⟩
  | expr _ value _ =>
    rw [scanned_append] at hw
    exact value.printable hw.1
  | bindEnded _ hx _ init _ =>
    simp only [scanned_cons, scanned_append] at hw
    exact ⟨isName_of_scanned hw.2.1 hx, init.printable hw.2.2.2.1⟩
  | bindOpen _ hx _ init _ =>
    simp only [scanned_cons] at hw
    exact ⟨isName_of_scanned hw.2.1 hx, init.printable hw.2.2.2⟩
  | empty => exact trivial
  | nil => exact trivial
  | cons _ _ ih ihs =>
    rw [scanned_append] at hw
    exact ⟨ih hw.1, ihs hw.2⟩

lemma readable_of_parse {source : String} {program : Block}
    (h : (parseSource source).result = .ok program) : Block.Readable program :=
  Derives.readable (TokenStream.derivesProgram_of_parse h) (scanned_programTokens source)

/-! ### Runs of characters -/

section

variable {p : Char → Bool} {u u' r r' : List Char}

lemma head_fails {c : Char} (hc : p c = false) : ∀ d ∈ (c :: r).head?, p d = false := by
  intro d hd
  rwa [← Option.some.inj hd]

/-- A text comes apart in one way only where a run of characters ends. -/
lemma append_inj_of_run (hu : ∀ c ∈ u, p c) (hr : ∀ c ∈ r.head?, p c = false)
    (hu' : ∀ c ∈ u', p c) (hr' : ∀ c ∈ r'.head?, p c = false) (h : u ++ r = u' ++ r') :
    u = u' ∧ r = r' := by
  have hrun : u = u' := by rw [← takeWhile_run hu hr, h, takeWhile_run hu' hr']
  subst hrun
  exact ⟨rfl, List.append_cancel_left h⟩

end

/-- A name ends where something other than a letter or a digit follows. -/
lemma IsName.append_inj {x x' : String} {c c' : Char} {r r' : List Char} (hx : IsName x)
    (hx' : IsName x') (hc : c.isAlphanum = false) (hc' : c'.isAlphanum = false)
    (h : x.toList ++ c :: r = x'.toList ++ c' :: r') : x = x' ∧ c :: r = c' :: r' := by
  obtain ⟨hname, hrest⟩ :=
    append_inj_of_run hx.alphanum (head_fails hc) hx'.alphanum (head_fails hc') h
  exact ⟨String.toList_inj.1 hname, hrest⟩

/-! ### Parts of a heading -/

lemma Expr.render_inj {e e' : Expr} (he : e.Printable) (he' : e'.Printable)
    (h : e.render = e'.render) : e = e' := by
  have hread := parse_render_of_printable he
  rw [h, parse_render_of_printable he'] at hread
  cases hread
  rfl

lemma repr_inj {m n : Nat} (h : m.repr = n.repr) : m = n := by
  rw [← Nat.ofDigitChars_ten_toDigits (n := m), ← Nat.ofDigitChars_ten_toDigits (n := n),
    ← Nat.toList_repr, ← Nat.toList_repr, h]

lemma Span.render_inj {s s' : Span} (h : s.render = s'.render) : s = s' := by
  have hdigits : ∀ n : Nat, ∀ c ∈ n.repr.toList, c.isDigit := by
    intro n c hc
    rw [Nat.toList_repr] at hc
    exact Nat.isDigit_of_mem_toDigits (by decide) (by decide) hc
  have hdots : ∀ r : List Char, ∀ c ∈ ("..".toList ++ r).head?, c.isDigit = false :=
    fun r => head_fails rfl
  obtain ⟨start, stop⟩ := s
  obtain ⟨start', stop'⟩ := s'
  have h := congrArg String.toList h
  simp only [Span.render, String.toList_append, List.append_assoc] at h
  obtain ⟨hstart, hrest⟩ := append_inj_of_run (hdigits _) (hdots _) (hdigits _) (hdots _) h
  have hstop := List.append_cancel_left hrest
  rw [UInt32.toNat_inj.1 (repr_inj (String.toList_inj.1 hstart)),
    UInt32.toNat_inj.1 (repr_inj (String.toList_inj.1 hstop))]

/-- What comes after the name of a parameter says whether it is the last. -/
lemma exists_signature_cons (p : Param) (ps : List Param) :
    ∃ c r, (signature (p :: ps)).toList ++ [')'] =
        p.tag.name.toList ++ ' ' :: (p.name.toList ++ c :: r) ∧
      (ps = [] ∧ c = ')' ∨ ps ≠ [] ∧ c = ' ' ∧ r = (signature ps).toList ++ [')']) := by
  have hspace : " ".toList = [' '] := rfl
  cases ps with
  | nil =>
    refine ⟨')', [], ?_, .inl ⟨rfl, rfl⟩⟩
    simp [signature, Param.render, hspace]
  | cons q ps =>
    refine ⟨' ', _, ?_, .inr ⟨List.cons_ne_nil q ps, rfl, rfl⟩⟩
    simp [signature, Param.render, hspace, String.intercalate_cons_cons]

lemma signature_inj {ps ps' : List Param} (hps : ∀ p ∈ ps, p.Readable)
    (hps' : ∀ p ∈ ps', p.Readable)
    (h : (signature ps).toList ++ [')'] = (signature ps').toList ++ [')']) : ps = ps' := by
  -- The text of a parameter starts with a letter, so no parenthesis.
  have hne : ∀ {p : Param} {ps : List Param}, p.Readable →
      [')'] ≠ (signature (p :: ps)).toList ++ [')'] := by
    intro p ps hp heq
    obtain ⟨c, r, hcons, -⟩ := exists_signature_cons p ps
    rw [hcons] at heq
    exact hp.tag.toList_ne_nil (append_inj_of_run (by simp) (head_fails rfl) hp.tag.alphanum
      (head_fails rfl) (List.nil_append [')'] ▸ heq)).1.symm
  induction ps generalizing ps' with
  | nil =>
    cases ps' with
    | nil => rfl
    | cons p' ps' => exact absurd h (hne (List.forall_mem_cons.1 hps').1)
  | cons p ps ih =>
    cases ps' with
    | nil => exact absurd h.symm (hne (List.forall_mem_cons.1 hps).1)
    | cons p' ps' =>
      rw [List.forall_mem_cons] at hps hps'
      obtain ⟨c, r, hcons, hends⟩ := exists_signature_cons p ps
      obtain ⟨c', r', hcons', hends'⟩ := exists_signature_cons p' ps'
      have hc : c.isAlphanum = false := by rcases hends with ⟨-, rfl⟩ | ⟨-, rfl, -⟩ <;> rfl
      have hc' : c'.isAlphanum = false := by rcases hends' with ⟨-, rfl⟩ | ⟨-, rfl, -⟩ <;> rfl
      rw [hcons, hcons'] at h
      obtain ⟨htag, hafter⟩ := hps.1.tag.append_inj hps'.1.tag rfl rfl h
      obtain ⟨hname, hrest⟩ := hps.1.name.append_inj hps'.1.name hc hc' (List.cons.inj hafter).2
      obtain ⟨rfl, rfl⟩ := List.cons.inj hrest
      have hp : p = p' := by
        obtain ⟨⟨tag⟩, name⟩ := p
        obtain ⟨⟨tag'⟩, name'⟩ := p'
        obtain rfl : tag = tag' := htag
        obtain rfl : name = name' := hname
        rfl
      rcases hends with ⟨rfl, rfl⟩ | ⟨-, rfl, hr⟩
      · rcases hends' with ⟨rfl, -⟩ | ⟨-, hspace, -⟩
        · rw [hp]
        · cases hspace
      · rcases hends' with ⟨-, hparen⟩ | ⟨-, -, hr'⟩
        · cases hparen
        · rw [hp, ih hps.2 hps'.2 (hr.symm.trans hr')]

/-- The letters and digits that a text starts with. -/
def firstWord (s : String) : List Char := s.toList.takeWhile Char.isAlphanum

lemma firstWord_eq {s : String} {u r : List Char} (hs : s.toList = u ++ r)
    (hu : ∀ c ∈ u, c.isAlphanum) (hr : ∀ c ∈ r.head?, c.isAlphanum = false) : firstWord s = u := by
  rw [firstWord, hs, takeWhile_run hu hr]

lemma IsName.ne_spelling {name : String} (h : IsName name) (k : Keyword) :
    name.toList ≠ k.spelling.toList := by
  intro heq
  rw [String.toList_inj] at heq
  exact h.2 (heq ▸ List.mem_map_of_mem (Keyword.mem_all k))

lemma Keyword.spelling_alphanum (k : Keyword) : ∀ c ∈ k.spelling.toList, c.isAlphanum := by
  have hall : k.spelling.toList.all Char.isAlphanum := by cases k <;> decide
  exact List.all_eq_true.1 hall

/-- The first word of an expression is not reserved. -/
lemma Expr.firstWord_render_ne {e : Expr} (h : e.Printable) (k : Keyword) :
    firstWord e.render ≠ k.spelling.toList := by
  have hnil : [] ≠ k.spelling.toList := by cases k <;> decide
  cases e with
  | int n =>
    obtain ⟨hne, hd, -⟩ := numeral_writeInt64 h
    have hint : (Expr.int n).render.toList = (Text.writeInt64 n).toList ++ [] :=
      (List.append_nil _).symm
    have hnot : ¬ k.spelling.toList.all Char.isDigit := by cases k <;> decide
    rw [firstWord_eq hint (fun c hc => isAlphanum_of_isDigit (hd c hc)) (by simp)]
    exact fun heq => hnot (List.all_eq_true.2 (heq ▸ hd))
  | void => exact hnil
  | var name =>
    have h : IsName name := h
    have hvar : (Expr.var name).render.toList = name.toList ++ [] := (List.append_nil _).symm
    rw [firstWord_eq hvar h.alphanum (by simp)]
    exact h.ne_spelling k
  | call callee args =>
    have hcall : (Expr.call callee args).render.toList =
        callee.toList ++ '(' :: (", ".intercalate (Expr.renderList args) ++ ")").toList := by
      simp [Expr.render]
    rw [firstWord_eq hcall h.1.alphanum (head_fails rfl)]
    exact h.1.ne_spelling k
  | binary op left right =>
    have hparen : (Expr.binary op left right).render.toList =
        [] ++ '(' :: (left.render ++ " " ++ op.spelling ++ " " ++ right.render ++ ")").toList := by
      simp [Expr.render]
    rw [firstWord_eq hparen (by simp) (head_fails rfl)]
    exact hnil

/-- An expression starts with a parenthesis, a letter or a digit. -/
lemma Expr.exists_head {e : Expr} (h : e.Printable) :
    ∃ c ∈ e.render.toList.head?, c = '(' ∨ c.isAlphanum := by
  have hrun : ∀ {u r : List Char}, u ≠ [] → (∀ c ∈ u, c.isAlphanum) →
      ∃ c ∈ (u ++ r).head?, c = '(' ∨ c.isAlphanum := by
    intro u r hne hu
    obtain ⟨c, u, rfl⟩ := List.exists_cons_of_ne_nil hne
    exact ⟨c, rfl, .inr (hu c List.mem_cons_self)⟩
  cases e with
  | int n =>
    obtain ⟨hne, hd, -⟩ := numeral_writeInt64 h
    rw [Expr.render, ← List.append_nil (Text.writeInt64 n).toList]
    exact hrun hne fun c hc => isAlphanum_of_isDigit (hd c hc)
  | void => exact ⟨'(', rfl, .inl rfl⟩
  | var name =>
    have h : IsName name := h
    rw [Expr.render, ← List.append_nil name.toList]
    exact hrun h.toList_ne_nil h.alphanum
  | call callee args =>
    simp only [Expr.render, String.toList_append, List.append_assoc]
    exact hrun h.1.toList_ne_nil h.1.alphanum
  | binary op left right =>
    simp only [Expr.render, String.toList_append, List.append_assoc]
    exact ⟨'(', rfl, .inl rfl⟩

lemma Expr.head?_render_ne {e : Expr} (h : e.Printable) {c : Char} (hparen : c ≠ '(')
    (hc : c.isAlphanum = false) : e.render.toList.head? ≠ some c := by
  intro heq
  obtain ⟨d, hd, hstart⟩ := Expr.exists_head h
  obtain rfl : d = c := Option.some.inj (hd.symm.trans heq)
  rcases hstart with hstart | hstart
  · exact hparen hstart
  · rw [hc] at hstart
    cases hstart

/-! ### Headings -/

lemma Stmt.exists_heading {s : Stmt} {k : Keyword} (h : s.keyword? = some k) :
    ∃ r, s.heading = k.spelling ++ " " ++ r := by
  cases s with
  | function name params body =>
    obtain rfl := Option.some.inj h
    refine ⟨name ++ " (" ++ signature params ++ ")", ?_⟩
    simp only [Stmt.heading, ← String.append_assoc]
    rfl
  | ret value | cond condition body =>
    obtain rfl := Option.some.inj h
    exact ⟨_, rfl⟩
  | bind name init =>
    obtain rfl := Option.some.inj h
    refine ⟨name ++ " = " ++ init.render, ?_⟩
    simp only [Stmt.heading, ← String.append_assoc]
    rfl
  | expr e | empty span => cases h

/-- A statement starts with a reserved word exactly if its heading does. -/
lemma Stmt.keyword?_eq_some_iff {s : Stmt} (hs : s.Readable) (k : Keyword) :
    s.keyword? = some k ↔ firstWord s.heading = k.spelling.toList := by
  cases hk : s.keyword? with
  | some k' =>
    obtain ⟨r, hr⟩ := Stmt.exists_heading hk
    have hcs : s.heading.toList = k'.spelling.toList ++ ' ' :: r.toList := by simp [hr]
    rw [firstWord_eq hcs k'.spelling_alphanum (head_fails rfl)]
    cases k <;> cases k' <;> decide
  | none =>
    refine iff_of_false (by simp) ?_
    cases s with
    | expr e => exact Expr.firstWord_render_ne hs k
    | empty span => cases k <;> simp [firstWord, Stmt.heading, Keyword.spelling]
    | _ => cases hk

lemma Stmt.expr_heading_ne {e : Expr} (he : e.Printable) (span : Span) :
    (Stmt.expr e).heading ≠ (Stmt.empty span).heading := by
  intro h
  have hsemicolon : e.render.toList.head? = some ';' := by
    rw [show e.render = _ from h]
    simp [Stmt.heading]
  exact Expr.head?_render_ne he (by decide) rfl hsemicolon

/-- Headings tell all but what is inside. -/
lemma Stmt.heading_inj {s s' : Stmt} (hs : s.Readable) (hs' : s'.Readable)
    (h : s.heading = s'.heading) : s.bare = s'.bare := by
  have hkeyword : s.keyword? = s'.keyword? := by
    ext k
    rw [Stmt.keyword?_eq_some_iff hs, h, Stmt.keyword?_eq_some_iff hs']
  cases s with
  | function name params body =>
    cases s' with
    | function name' params' body' =>
      have hcs := congrArg String.toList h
      simp only [Stmt.heading, String.toList_append, List.append_assoc] at hcs
      obtain ⟨hname, hrest⟩ := hs.1.append_inj hs'.1 rfl rfl (List.append_cancel_left hcs)
      have hsignature : " (".toList ++ _ = " (".toList ++ _ := hrest
      have hparams := signature_inj hs.2.1 hs'.2.1 (List.append_cancel_left hsignature)
      rw [Stmt.bare, Stmt.bare, hname, hparams]
    | _ => cases hkeyword
  | ret value =>
    cases s' with
    | ret value' => rw [Expr.render_inj hs hs' ((String.append_right_inj _).1 h)]
    | _ => cases hkeyword
  | cond condition body =>
    cases s' with
    | cond condition' body' =>
      rw [Stmt.bare, Stmt.bare, Expr.render_inj hs.1 hs'.1 ((String.append_right_inj _).1 h)]
    | _ => cases hkeyword
  | bind name init =>
    cases s' with
    | bind name' init' =>
      have hcs := congrArg String.toList h
      simp only [Stmt.heading, String.toList_append, List.append_assoc] at hcs
      obtain ⟨hname, hrest⟩ := hs.1.append_inj hs'.1 rfl rfl (List.append_cancel_left hcs)
      have hinit : " = ".toList ++ _ = " = ".toList ++ _ := hrest
      have hinit := String.toList_inj.1 (List.append_cancel_left hinit)
      rw [hname, Expr.render_inj hs.2 hs'.2 hinit]
    | _ => cases hkeyword
  | expr e =>
    cases s' with
    | expr e' => rw [Expr.render_inj hs hs' h]
    | empty span' => exact absurd h (Stmt.expr_heading_ne hs span')
    | _ => cases hkeyword
  | empty span =>
    cases s' with
    | expr e' => exact absurd h.symm (Stmt.expr_heading_ne hs' span)
    | empty span' => rw [Span.render_inj ((String.append_right_inj _).1 h)]
    | _ => cases hkeyword

/-! ### Lines -/

lemma not_mem_of_alphanum {u : List Char} (hu : ∀ c ∈ u, c.isAlphanum) : '\n' ∉ u :=
  fun h => absurd (hu '\n' h) (by decide)

lemma not_mem_toDigits (n : Nat) : '\n' ∉ Nat.toDigits 10 n :=
  fun h => absurd (Nat.isDigit_of_mem_toDigits (by decide) (by decide) h) (by decide)

lemma not_mem_intercalate {sep : String} {ss : List String} (hsep : '\n' ∉ sep.toList)
    (hss : ∀ s ∈ ss, '\n' ∉ s.toList) : '\n' ∉ (sep.intercalate ss).toList := by
  induction ss with
  | nil => simp
  | cons s ss ih =>
    rw [List.forall_mem_cons] at hss
    cases ss with
    | nil => simpa using hss.1
    | cons s' ss =>
      simp only [String.intercalate_cons_cons, String.toList_append, List.mem_append, not_or]
      exact ⟨⟨hss.1, hsep⟩, ih hss.2⟩

mutual

/-- The text of an expression is a single line. -/
lemma Expr.not_mem_render : (e : Expr) → e.Printable → '\n' ∉ e.render.toList
  | .int n, h => by
    obtain ⟨-, hd, -⟩ := numeral_writeInt64 h
    exact fun hmem => absurd (hd '\n' hmem) (by decide)
  | .void, _ => by decide
  | .var name, h => not_mem_of_alphanum (IsName.alphanum h)
  | .call callee args, ⟨hcallee, hargs⟩ => by
    have hname := not_mem_of_alphanum hcallee.alphanum
    have hcomma : '\n' ∉ ", ".toList := by decide
    have hlist := not_mem_intercalate hcomma (Expr.not_mem_renderList args hargs)
    simp only [Expr.render, String.toList_append, List.mem_append, not_or]
    exact ⟨⟨⟨hname, by decide⟩, hlist⟩, by decide⟩
  | .binary op left right, ⟨hleft, hright⟩ => by
    have hl := Expr.not_mem_render left hleft
    have hr := Expr.not_mem_render right hright
    have hop : '\n' ∉ op.spelling.toList := by cases op <;> decide
    simp [Expr.render, hl, hr, hop]

lemma Expr.not_mem_renderList : (es : List Expr) → Expr.AllPrintable es →
    ∀ s ∈ Expr.renderList es, '\n' ∉ s.toList
  | [], _ => by simp [Expr.renderList]
  | e :: es, ⟨he, hes⟩ =>
    List.forall_mem_cons.2 ⟨Expr.not_mem_render e he, Expr.not_mem_renderList es hes⟩

end

lemma not_mem_signature {ps : List Param} (hps : ∀ p ∈ ps, p.Readable) :
    '\n' ∉ (signature ps).toList := by
  refine not_mem_intercalate (by decide) (List.forall_mem_map.2 fun p hp => ?_)
  have htag := not_mem_of_alphanum (hps p hp).tag.alphanum
  have hname := not_mem_of_alphanum (hps p hp).name.alphanum
  simp [Param.render, htag, hname]

/-- The text of a line is a single line, and does not start with a space. -/
structure OutlineLine.Plain (line : OutlineLine) : Prop where
  single : '\n' ∉ line.text.toList
  flush : ∀ c ∈ line.text.toList.head?, c ≠ ' '

lemma Stmt.plain_heading {s : Stmt} (hs : s.Readable) (depth : Nat) :
    OutlineLine.Plain ⟨depth, s.heading⟩ := by
  constructor
  · cases s with
    | function name params body =>
      have hname := not_mem_of_alphanum hs.1.alphanum
      simp [Stmt.heading, hname, not_mem_signature hs.2.1]
    | ret value => simp [Stmt.heading, Expr.not_mem_render value hs]
    | cond condition body => simp [Stmt.heading, Expr.not_mem_render condition hs.1]
    | expr e => exact Expr.not_mem_render e hs
    | bind name init =>
      have hname := not_mem_of_alphanum hs.1.alphanum
      simp [Stmt.heading, hname, Expr.not_mem_render init hs.2]
    | empty span => simp [Stmt.heading, Span.render, not_mem_toDigits]
  · cases hk : s.keyword? with
    | some k =>
      obtain ⟨r, hr⟩ := Stmt.exists_heading hk
      cases k <;> simp [hr, Keyword.spelling]
    | none =>
      cases s with
      | expr e =>
        rintro c hc rfl
        exact Expr.head?_render_ne hs (by decide) rfl hc
      | empty span => simp [Stmt.heading]
      | _ => cases hk

/-- The characters of a line, without the line feed that ends it. -/
def OutlineLine.chars (line : OutlineLine) : List Char :=
  List.replicate (2 * line.depth) ' ' ++ line.text.toList

/-- The line that characters are those of: two spaces stand for each block around it. -/
def OutlineLine.ofChars (cs : List Char) : OutlineLine where
  depth := (cs.takeWhile (· == ' ')).length / 2
  text := String.ofList (cs.dropWhile (· == ' '))

lemma OutlineLine.Plain.ofChars_chars {line : OutlineLine} (h : line.Plain) :
    OutlineLine.ofChars line.chars = line := by
  have hspaces : ∀ c ∈ List.replicate (2 * line.depth) ' ', (c == ' ') = true := by
    intro c hc
    rw [List.eq_of_mem_replicate hc]
    rfl
  have hflush : ∀ c ∈ line.text.toList.head?, (c == ' ') = false := by
    intro c hc
    simpa using h.flush c hc
  have htake := takeWhile_run hspaces hflush
  have hdrop : line.chars.dropWhile (· == ' ') = line.text.toList := by
    have hcs := List.takeWhile_append_dropWhile (p := (· == ' ')) (l := line.chars)
    rw [OutlineLine.chars, htake] at hcs
    exact List.append_cancel_left hcs
  rw [OutlineLine.ofChars, hdrop, OutlineLine.chars, htake, List.length_replicate,
    Nat.mul_div_cancel_left _ (by decide), String.ofList_toList]

/-- The lines of an outline. -/
def outlineLines (text : String) : List OutlineLine :=
  (text.toList.splitOn '\n').dropLast.map .ofChars

lemma outlineLines_join {lines : List OutlineLine} (h : ∀ line ∈ lines, line.Plain) :
    outlineLines (String.join (lines.map OutlineLine.render)) = lines := by
  have htext : (String.join (lines.map OutlineLine.render)).toList =
      Text.endedLines (lines.map OutlineLine.chars) := by
    have hline : ∀ line : OutlineLine, line.render.toList = line.chars ++ ['\n'] := by
      simp [OutlineLine.render, OutlineLine.chars]
    simp only [String.toList_join, Text.endedLines, List.flatMap_map, hline]
  have hsingle : ∀ cs ∈ lines.map OutlineLine.chars, '\n' ∉ cs := by
    refine List.forall_mem_map.2 fun line hline => ?_
    simp [OutlineLine.chars, (h line hline).single]
  have hsplit := Text.splitOn_endedLines hsingle []
  rw [List.append_nil] at hsplit
  rw [outlineLines, htext, hsplit, List.splitOn_nil, List.dropLast_concat, List.map_map]
  refine (List.map_congr_left fun line hline => ?_).trans (List.map_id lines)
  exact (h line hline).ofChars_chars

/-! ### Nesting -/

lemma Stmt.outline_eq (depth : Nat) (s : Stmt) :
    s.outline depth = ⟨depth, s.heading⟩ :: Stmt.outlineList (depth + 1) s.body := by
  cases s <;> rfl

lemma Stmt.Readable.body {s : Stmt} (hs : s.Readable) : Block.Readable s.body := by
  cases s with
  | function => exact hs.2.2
  | cond => exact hs.2
  | _ => exact trivial

lemma Stmt.eq_of_bare {s s' : Stmt} (hbare : s.bare = s'.bare) (hbody : s.body = s'.body) :
    s = s' := by
  cases s <;> cases s' <;> cases hbare <;> cases hbody <;> rfl

lemma Stmt.sizeOf_body_le (s : Stmt) : sizeOf s.body ≤ sizeOf s := by
  cases s <;> simp only [Stmt.body, Stmt.function.sizeOf_spec, Stmt.ret.sizeOf_spec,
    Stmt.cond.sizeOf_spec, Stmt.expr.sizeOf_spec, Stmt.bind.sizeOf_spec, Stmt.empty.sizeOf_spec,
    List.nil.sizeOf_spec] <;> omega

/-- All lines of a program are plain. -/
lemma plain_of_mem_outlineList {depth : Nat} : {program : Block} → Block.Readable program →
    ∀ line ∈ Stmt.outlineList depth program, line.Plain
  | [], _ => by simp [Stmt.outlineList]
  | s :: ss, ⟨hs, hss⟩ => by
    have hsize := s.sizeOf_body_le
    rw [Stmt.outlineList, Stmt.outline_eq, List.forall_mem_append, List.forall_mem_cons]
    exact ⟨⟨Stmt.plain_heading hs depth, plain_of_mem_outlineList hs.body⟩,
      plain_of_mem_outlineList hss⟩
termination_by program => sizeOf program

lemma shallow_outlineList_append {depth : Nat} {lines : List OutlineLine} (program : Block)
    (h : Shallow depth lines) : Shallow (depth + 1) (Stmt.outlineList depth program ++ lines) := by
  intro line hline
  cases program with
  | nil => exact Nat.lt_succ_of_lt (h line hline)
  | cons s ss =>
    rw [Stmt.outlineList, Stmt.outline_eq] at hline
    obtain rfl := Option.some.inj hline
    exact Nat.lt_succ_self depth

lemma not_shallow_outlineList_append {depth : Nat} {lines : List OutlineLine} {s : Stmt}
    {ss : Block} : ¬Shallow depth (Stmt.outlineList depth (s :: ss) ++ lines) := by
  intro h
  rw [Stmt.outlineList, Stmt.outline_eq] at h
  exact Nat.lt_irrefl depth (h _ rfl)

/-- A block is read back from its lines, as long as less deep ones follow them. -/
lemma outlineList_inj {depth : Nat} {lines lines' : List OutlineLine} (hlines : Shallow depth lines)
    (hlines' : Shallow depth lines') : {p q : Block} → Block.Readable p → Block.Readable q →
    Stmt.outlineList depth p ++ lines = Stmt.outlineList depth q ++ lines' →
    p = q ∧ lines = lines'
  | [], [], _, _, h => ⟨rfl, h⟩
  | [], s' :: ss', _, _, h => by
    rw [Stmt.outlineList, List.nil_append] at h
    exact absurd (h ▸ hlines) not_shallow_outlineList_append
  | s :: ss, [], _, _, h => by
    rw [Stmt.outlineList, List.nil_append] at h
    exact absurd (h ▸ hlines') not_shallow_outlineList_append
  | s :: ss, s' :: ss', ⟨hs, hss⟩, ⟨hs', hss'⟩, h => by
    simp only [Stmt.outlineList, Stmt.outline_eq, List.cons_append, List.append_assoc] at h
    obtain ⟨hline, hrest⟩ := List.cons.inj h
    have hbare := Stmt.heading_inj hs hs' (OutlineLine.mk.inj hline).2
    have hsize := s.sizeOf_body_le
    -- What follows the body of the statement is less deep than the body, so the body is read first.
    obtain ⟨hbody, hrest⟩ := outlineList_inj (shallow_outlineList_append ss hlines)
      (shallow_outlineList_append ss' hlines') hs.body hs'.body hrest
    obtain ⟨rfl, hlines⟩ := outlineList_inj hlines hlines' hss hss' hrest
    exact ⟨by rw [Stmt.eq_of_bare hbare hbody], hlines⟩
termination_by p => sizeOf p

lemma Block.outline_inj {p q : Block} (hp : Block.Readable p) (hq : Block.Readable q)
    (h : p.outline = q.outline) : p = q := by
  have hlines := congrArg outlineLines h
  rw [Block.outline, outlineLines_join (plain_of_mem_outlineList hp), Block.outline,
    outlineLines_join (plain_of_mem_outlineList hq)] at hlines
  have hend : Shallow 0 [] := fun line hline => absurd hline (by simp)
  exact (outlineList_inj hend hend hp hq (by rw [hlines])).1

/-- **The outline determines the program.** If the programs that two source texts are read as have
the same outline, then they are the same: in their statements and how these are nested, in the
grouping of expressions, in names, types of parameters and numbers, and in where empty statements
stand. -/
theorem outline_determines_program (a b : String) (p q : Block)
    (ha : (parseSource a).result = .ok p) (hb : (parseSource b).result = .ok q)
    (h : p.outline = q.outline) : p = q :=
  Block.outline_inj (readable_of_parse ha) (readable_of_parse hb) h

/-- Grouping that is written out in one text and left to the operators in the other. -/
theorem outline_determines_program_grouping :
    ∃ p q, (parseSource "func f(int n)\x7b;return 1+n*2;\x7d").result = .ok p ∧
      (parseSource "func f(int n)\x7b;return 1+(n*2);\x7d").result = .ok q ∧
      p.outline = "func f (int n)\n  ; @ 14..15\n  return (1 + (n * 2))\n" ∧
      q.outline = p.outline ∧ p = q := by
  let e : Expr := .binary .add (.int 1) (.binary .mul (.var "n") (.int 2))
  let p : Block := [.function "f" [⟨.int, "n"⟩] [.empty ⟨14, 15⟩, .ret e]]
  have ha : (parseSource "func f(int n)\x7b;return 1+n*2;\x7d").result = .ok p := by cbv
  have hb : (parseSource "func f(int n)\x7b;return 1+(n*2);\x7d").result = .ok p := by cbv
  have houtline : p.outline = "func f (int n)\n  ; @ 14..15\n  return (1 + (n * 2))\n" := by
    decide +kernel
  exact ⟨p, p, ha, hb, houtline, rfl, outline_determines_program _ _ p p ha hb rfl⟩

end Flame
