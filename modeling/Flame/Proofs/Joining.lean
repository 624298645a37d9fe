import Flame.Proofs.Likeness
import Flame.Proofs.LongestMatch
import Flame.Proofs.ParserComplete

/-!
Two source texts with a blank character between them.

The blank ends the last lexeme of the first text, unless that is a string left open. The tokens of
the second text are the same as if it stood alone, but for their spans, and spans show in a tree at
empty statements only. A program ends where its last statement does, if that has an end of its own,
a semicolon or a closing brace; then what follows is read as if nothing stood before it.
-/

namespace Flame

/-! ### Scanning -/

section

variable {w rest : List Char} {b : Char}

/-- Text after a blank character cannot make a lexeme longer. -/
lemma Lexeme.append_blank (h : Lexeme w rest) (hopen : ¬LeftOpen w) (hb : Text.isBlank b = true)
    (more : List Char) : Lexeme w (rest ++ b :: more) := by
  have hne : w ≠ [] := by
    rintro rfl
    exact absurd h.length_pos (by simp)
  have hstart : ∀ v, v <+: w ++ (rest ++ b :: more) → Shaped v → v <+: w ++ rest := by
    intro v hv hshaped
    rw [← List.append_assoc] at hv
    rcases List.prefix_or_prefix_of_prefix hv (List.prefix_append (w ++ rest) (b :: more)) with
      h | ⟨y, rfl⟩
    · exact h
    · cases y with
      | nil => rw [List.append_nil]
      | cons d y =>
        obtain ⟨rfl, -⟩ := List.cons_prefix_cons.1 ((List.prefix_append_right_inj _).1 hv)
        exact absurd ((hshaped.leftOpen_of_blank hb).of_append hne) hopen
  cases h with
  | longest shaped max =>
    exact .longest shaped fun v hv hshaped => max v (hstart v hv hshaped) hshaped
  | single one none => exact .single one fun v hv hshaped => none v (hstart v hv hshaped) hshaped

/-- **Scanning two texts.** With a blank character between them, they are scanned one after the
other, unless the first ends in a string left open. -/
theorem scan_append_blank (offset : Nat) (cs : List Char) (hb : Text.isBlank b = true)
    (more : List Char)
    (hlast : ∀ t ∈ (scan offset cs).getLast?, ¬LeftOpen t.lexeme.toList) :
    scan offset (cs ++ b :: more) =
      scan offset cs ++ scan (offset + Text.byteSize cs + b.utf8Size) more := by
  induction hn : cs.length using Nat.strongRecOn generalizing offset cs with
  | ind n ih =>
    cases cs with
    | nil =>
      rw [List.nil_append, scan_nil, scan_blank hb]
      rfl
    | cons c cs =>
      by_cases hc : Text.isBlank c = true
      · rw [List.cons_append, scan_blank hc, scan_blank hc]
        rw [scan_blank hc] at hlast
        rw [ih cs.length (by simp at hn; omega) _ cs hlast rfl, Text.byteSize_cons, ← Nat.add_assoc]
      · have hfalse : Text.isBlank c = false := by simpa using hc
        obtain ⟨u, rest, rfl, -, h⟩ := extentRight cs c
        have hscan := scan_of_lexeme hfalse h offset
        rw [List.cons_append] at hscan
        have hopen : ¬LeftOpen (c :: u) := by
          intro hopen
          obtain rfl := h.rest_eq_nil hopen
          refine hlast (.ofLexeme (Text.trimEnd (c :: u)) offset) ?_ ?_
          · rw [hscan, scan_nil]
            rfl
          · simpa [Token.ofLexeme] using hopen.trimEnd
        have hrest := ih rest.length (by simp at hn; omega)
          (offset + Text.byteSize (c :: u)) rest ?_ rfl
        · have hjoined := scan_of_lexeme hfalse (h.append_blank hopen hb more) offset
          rw [List.cons_append, ← List.append_assoc] at hjoined
          have hsize : Text.byteSize (c :: (u ++ rest)) =
              Text.byteSize (c :: u) + Text.byteSize rest := by
            rw [← List.cons_append, Text.byteSize_append]
          rw [List.cons_append, hjoined, hrest, hscan, hsize, List.cons_append,
            ← Nat.add_assoc offset]
        · intro t ht
          refine hlast t ?_
          obtain ⟨ts, hts⟩ := List.getLast?_eq_some_iff.1 ht
          rw [hscan, hts, ← List.cons_append, List.getLast?_concat]
          rfl

end

/-! ### Tokens that differ in their spans -/

structure TokenAlike (t u : Token) : Prop where
  lexeme_eq : t.lexeme = u.lexeme
  kind_eq : t.kind = u.kind

/-- Where a text stands matters to the spans only. -/
lemma scan_alike (offset offset' : Nat) (cs : List Char) :
    List.Forall₂ TokenAlike (scan offset cs) (scan offset' cs) := by
  fun_induction scan offset cs generalizing offset' with
  | case1 =>
    rw [scan_nil]
    exact .nil
  | case2 _ _ _ hc ih =>
    rw [scan_blank hc]
    exact ih _
  | case3 _ c cs hc _ ih =>
    rw [scan_lexeme (by simpa using hc)]
    exact .cons ⟨rfl, rfl⟩ (ih _)

lemma firstKind_alike {w w' : List Token} (h : List.Forall₂ TokenAlike w' w) (next : Kind) :
    firstKind w' next = firstKind w next := by
  cases h with
  | nil => rfl
  | cons ht _ => exact ht.kind_eq

lemma exists_append_of_alike {w v x : List Token} (h : List.Forall₂ TokenAlike x (w ++ v)) :
    ∃ w' v', x = w' ++ v' ∧ List.Forall₂ TokenAlike w' w ∧ List.Forall₂ TokenAlike v' v :=
  ⟨_, _, (List.take_append_drop w.length x).symm, List.forall₂_take_append x w v h,
    List.forall₂_drop_append x w v h⟩

/-- The trees are the same, but for the spans of empty statements. -/
def Phrase.Alike : (p : Phrase) → p.Tree → p.Tree → Prop
  | .stmt => StmtAlike .spansAside
  | .block => BlockAlike .spansAside
  | .primary | .term | .sum | .args | .params => Eq

lemma params_spansAside (ps : List Param) : List.Forall₂ (ParamAlike .spansAside) ps ps :=
  List.forall₂_same.2 fun _ _ => ⟨rfl, trivial, rfl⟩

/-- Tokens that differ in their spans derive trees that do. -/
lemma Derives.alike {p : Phrase} {w : List Token} {next : Kind} {t : p.Tree}
    (h : Derives p w next t) {w' : List Token} (hw : List.Forall₂ TokenAlike w' w) :
    ∃ t', Derives p w' next t' ∧ p.Alike t' t := by
  induction h generalizing w' with
  | paren ho _ hr ih =>
    obtain _ | ⟨hto, hrest⟩ := hw
    obtain ⟨v, _, rfl, hv, _ | ⟨htr, _ | _⟩⟩ := exists_append_of_alike hrest
    obtain ⟨e, hd, rfl⟩ := ih hv
    exact ⟨e, .paren (hto.kind_eq.trans ho) hd (htr.kind_eq.trans hr), rfl⟩
  | nothing =>
    cases hw
    exact ⟨_, .nothing, rfl⟩
  | call hf ho _ hr ih =>
    obtain _ | ⟨htf, _ | ⟨hto, hrest⟩⟩ := hw
    obtain ⟨v, _, rfl, hv, _ | ⟨htr, _ | _⟩⟩ := exists_append_of_alike hrest
    obtain ⟨es, hd, rfl⟩ := ih hv
    rw [← htf.lexeme_eq]
    exact ⟨_, .call (htf.kind_eq.trans hf) (hto.kind_eq.trans ho) hd (htr.kind_eq.trans hr), rfl⟩
  | var hx hn =>
    obtain _ | ⟨htx, _ | _⟩ := hw
    rw [← htx.lexeme_eq]
    exact ⟨_, .var (htx.kind_eq.trans hx) hn, rfl⟩
  | int hd value =>
    obtain _ | ⟨htd, _ | _⟩ := hw
    rw [← htd.lexeme_eq] at value
    exact ⟨_, .int (htd.kind_eq.trans hd) value, rfl⟩
  | factor _ ih =>
    obtain ⟨e, hd, rfl⟩ := ih hw
    exact ⟨e, .factor hd, rfl⟩
  | times hop hm _ _ ihl ihr =>
    obtain ⟨u, _, rfl, hu, _ | ⟨htm, hv⟩⟩ := exists_append_of_alike hw
    obtain ⟨l, hl, rfl⟩ := ihl hu
    obtain ⟨r, hr, rfl⟩ := ihr hv
    exact ⟨_, .times hop (htm.kind_eq.trans hm) hl hr, rfl⟩
  | summand _ ih =>
    obtain ⟨e, hd, rfl⟩ := ih hw
    exact ⟨e, .summand hd, rfl⟩
  | plus hop hm _ _ ihl ihr =>
    obtain ⟨u, _, rfl, hu, _ | ⟨htm, hv⟩⟩ := exists_append_of_alike hw
    obtain ⟨l, hl, rfl⟩ := ihl hu
    obtain ⟨r, hr, rfl⟩ := ihr hv
    exact ⟨_, .plus hop (htm.kind_eq.trans hm) hl hr, rfl⟩
  | noArgs =>
    cases hw
    exact ⟨_, .noArgs, rfl⟩
  | lastArg hfirst _ ih =>
    obtain ⟨e, hd, rfl⟩ := ih hw
    rw [← firstKind_alike hw] at hfirst
    exact ⟨_, .lastArg hfirst hd, rfl⟩
  | moreArgs hfirst _ hm _ ih ihs =>
    obtain ⟨u, _, rfl, hu, _ | ⟨htm, hv⟩⟩ := exists_append_of_alike hw
    obtain ⟨e, hd, rfl⟩ := ih hu
    obtain ⟨es, hds, rfl⟩ := ihs hv
    rw [← firstKind_alike hu] at hfirst
    exact ⟨_, .moreArgs hfirst hd (htm.kind_eq.trans hm) hds, rfl⟩
  | noParams =>
    cases hw
    exact ⟨_, .noParams, rfl⟩
  | lastParam ht hx =>
    obtain _ | ⟨htt, _ | ⟨htx, _ | _⟩⟩ := hw
    rw [← htt.lexeme_eq, ← htx.lexeme_eq]
    exact ⟨_, .lastParam (htt.kind_eq.trans ht) (htx.kind_eq.trans hx), rfl⟩
  | moreParams ht hx hm _ ih =>
    obtain _ | ⟨htt, _ | ⟨htx, _ | ⟨htm, hrest⟩⟩⟩ := hw
    obtain ⟨ps, hd, rfl⟩ := ih hrest
    rw [← htt.lexeme_eq, ← htx.lexeme_eq]
    exact ⟨_, .moreParams (htt.kind_eq.trans ht) (htx.kind_eq.trans hx) (htm.kind_eq.trans hm) hd,
      rfl⟩
  | function hk hx ho _ hr hb _ hl ihp ihb =>
    obtain _ | ⟨htk, _ | ⟨htx, _ | ⟨hto, hrest⟩⟩⟩ := hw
    obtain ⟨u, _, rfl, hu, _ | ⟨htr, _ | ⟨htb, hrest⟩⟩⟩ := exists_append_of_alike hrest
    obtain ⟨v, _, rfl, hv, _ | ⟨htl, _ | _⟩⟩ := exists_append_of_alike hrest
    obtain ⟨ps, hps, rfl⟩ := ihp hu
    obtain ⟨ss, hss, hbody⟩ := ihb hv
    rw [← htx.lexeme_eq]
    exact ⟨_, .function (htk.kind_eq.trans hk) (htx.kind_eq.trans hx) (hto.kind_eq.trans ho) hps
      (htr.kind_eq.trans hr) (htb.kind_eq.trans hb) hss (htl.kind_eq.trans hl),
      .function trivial trivial (params_spansAside ps) hbody⟩
  | ret hk _ hl ih =>
    obtain _ | ⟨htk, hrest⟩ := hw
    obtain ⟨v, _, rfl, hv, _ | ⟨htl, _ | _⟩⟩ := exists_append_of_alike hrest
    obtain ⟨e, hd, rfl⟩ := ih hv
    exact ⟨_, .ret (htk.kind_eq.trans hk) hd (htl.kind_eq.trans hl), .ret fun _ _ => trivial⟩
  | cond hk _ hb _ hl ihc ihb =>
    obtain _ | ⟨htk, hrest⟩ := hw
    obtain ⟨u, _, rfl, hu, _ | ⟨htb, hrest⟩⟩ := exists_append_of_alike hrest
    obtain ⟨v, _, rfl, hv, _ | ⟨htl, _ | _⟩⟩ := exists_append_of_alike hrest
    obtain ⟨e, hd, rfl⟩ := ihc hu
    obtain ⟨ss, hss, hbody⟩ := ihb hv
    exact ⟨_, .cond (htk.kind_eq.trans hk) hd (htb.kind_eq.trans hb) hss (htl.kind_eq.trans hl),
      .cond (fun _ _ => trivial) hbody⟩
  | expr hfirst _ hl ih =>
    obtain ⟨v, _, rfl, hv, _ | ⟨htl, _ | _⟩⟩ := exists_append_of_alike hw
    obtain ⟨e, hd, rfl⟩ := ih hv
    rw [← firstKind_alike hv] at hfirst
    exact ⟨_, .expr hfirst hd (htl.kind_eq.trans hl), .expr fun _ _ => trivial⟩
  | bindEnded hk hx hq _ hl ih =>
    obtain _ | ⟨htk, _ | ⟨htx, _ | ⟨htq, hrest⟩⟩⟩ := hw
    obtain ⟨v, _, rfl, hv, _ | ⟨htl, _ | _⟩⟩ := exists_append_of_alike hrest
    obtain ⟨e, hd, rfl⟩ := ih hv
    rw [← htx.lexeme_eq]
    exact ⟨_, .bindEnded (htk.kind_eq.trans hk) (htx.kind_eq.trans hx) (htq.kind_eq.trans hq) hd
      (htl.kind_eq.trans hl), .bind trivial fun _ _ => trivial⟩
  | bindOpen hk hx hq _ hn ih =>
    obtain _ | ⟨htk, _ | ⟨htx, _ | ⟨htq, hrest⟩⟩⟩ := hw
    obtain ⟨e, hd, rfl⟩ := ih hrest
    rw [← htx.lexeme_eq]
    exact ⟨_, .bindOpen (htk.kind_eq.trans hk) (htx.kind_eq.trans hx) (htq.kind_eq.trans hq) hd hn,
      .bind trivial fun _ _ => trivial⟩
  | empty hm =>
    obtain _ | ⟨htm, _ | _⟩ := hw
    exact ⟨_, .empty (htm.kind_eq.trans hm), .empty trivial⟩
  | nil =>
    cases hw
    exact ⟨_, .nil, .nil⟩
  | cons _ _ ih ihs =>
    obtain ⟨u, v, rfl, hu, hv⟩ := exists_append_of_alike hw
    obtain ⟨s, hs, hstmt⟩ := ih hu
    obtain ⟨ss, hss, hblock⟩ := ihs hv
    rw [← firstKind_alike hv] at hs
    exact ⟨_, .cons hs hss, .cons hstmt hblock⟩

/-! ### Programs in a row -/

/-- A semicolon or a closing brace. -/
def Kind.EndsStmt (k : Kind) : Prop := k = .symbol .semicolon ∨ k = .symbol .rightBrace

instance (k : Kind) : Decidable k.EndsStmt := inferInstanceAs (Decidable (_ ∨ _))

/-- None of the tokens is one of these. -/
def EndFree (w : List Token) : Prop := ∀ t ∈ w, ¬t.kind.EndsStmt

@[simp] lemma endFree_nil : EndFree [] := fun _ h => by cases h

@[simp] lemma endFree_cons {t : Token} {w : List Token} :
    EndFree (t :: w) ↔ ¬t.kind.EndsStmt ∧ EndFree w := List.forall_mem_cons

@[simp] lemma endFree_append {w v : List Token} : EndFree (w ++ v) ↔ EndFree w ∧ EndFree v :=
  List.forall_mem_append

/-- Neither stands in an expression. -/
lemma Derives.endFree {p : Phrase} {w : List Token} {next : Kind} {t : p.Tree}
    (h : Derives p w next t) (hp : p.IsExpr ∨ p = .args) : EndFree w := by
  induction h with
  | paren ho _ hr ih => simp [ho, hr, Kind.EndsStmt, ih (.inl trivial)]
  | nothing => exact endFree_nil
  | call hf ho _ hr ih => simp [hf, ho, hr, Kind.EndsStmt, ih (.inr rfl)]
  | var hx => simp [hx, Kind.EndsStmt]
  | int hd => simp [hd, Kind.EndsStmt]
  | factor _ ih => exact ih (.inl trivial)
  | times _ hm _ _ ihl ihr =>
    simp [hm, Kind.EndsStmt, ihl (.inl trivial), ihr (.inl trivial)]
  | summand _ ih => exact ih (.inl trivial)
  | plus _ hm _ _ ihl ihr =>
    simp [hm, Kind.EndsStmt, ihl (.inl trivial), ihr (.inl trivial)]
  | noArgs => exact endFree_nil
  | lastArg _ _ ih => exact ih (.inl trivial)
  | moreArgs _ _ hm _ ih ihs =>
    simp [hm, Kind.EndsStmt, ih (.inl trivial), ihs (.inr rfl)]
  | _ => simp [Phrase.IsExpr] at hp

/-- A statement with an end of its own is the same whatever follows it. -/
lemma Derives.of_endsStmt {w : List Token} {next : Kind} {s : Stmt} (h : Derives .stmt w next s)
    (hlast : ∀ t ∈ w.getLast?, t.kind.EndsStmt) (next' : Kind) : Derives .stmt w next' s := by
  cases h with
  | function hk hx ho params hr hb body hl => exact .function hk hx ho params hr hb body hl
  | ret hk value hl => exact .ret hk value hl
  | cond hk condition hb body hl => exact .cond hk condition hb body hl
  | expr hw value hl => exact .expr hw value hl
  | bindEnded hk hx hq init hl => exact .bindEnded hk hx hq init hl
  | @bindOpen k x q w _ _ hk hx hq init _ =>
    -- without a semicolon, the statement ends with its expression
    have hfree : EndFree (k :: x :: q :: w) := by
      simp [hk, hx, hq, Kind.EndsStmt, init.endFree (.inl trivial)]
    obtain ⟨t, ht⟩ := Option.ne_none_iff_exists'.1
      (mt List.getLast?_eq_none_iff.1 (List.cons_ne_nil k (x :: q :: w)))
    exact absurd (hlast t ht) (hfree t (List.mem_of_getLast? ht))
  | empty hm => exact .empty hm

/-- **Programs in a row.** After a program with an end of its own, another one is read as if nothing
stood before it. -/
theorem Derives.append_block {w v : List Token} {next next' : Kind} {b b' : Block}
    (h : Derives .block w next b) (hlast : ∀ t ∈ w.getLast?, t.kind.EndsStmt)
    (h' : Derives .block v next' b') : Derives .block (w ++ v) next' (b ++ b') := by
  induction b generalizing w with
  | nil =>
    cases h
    exact h'
  | cons s b ih =>
    cases h with
    | @cons u w _ _ _ first others =>
      rw [List.append_assoc]
      refine .cons ?_ (ih others ?_)
      · cases w with
        | nil =>
          rw [List.append_nil] at hlast
          exact first.of_endsStmt hlast _
        | cons t w => exact first
      · intro t ht
        refine hlast t ?_
        rw [List.getLast?_append, Option.mem_def.1 ht]
        rfl

/-- A semicolon or a closing brace is no string. -/
lemma Kind.EndsStmt.not_leftOpen {s : String} (h : (Kind.ofLexeme s).EndsStmt) :
    ¬LeftOpen s.toList := by
  rintro ⟨u, hs, -⟩
  unfold Kind.ofLexeme at h
  split at h
  · next k hk =>
    have hspelling : k.spelling? = some s := by
      simpa using List.find?_some (p := fun k : Kind => k.spelling? == some s) hk
    rcases h with rfl | rfl <;> obtain rfl := Option.some.inj hspelling <;> cases hs
  · split at h
    · next shape _ => cases shape <;> rcases h with h | h <;> cases h
    · rcases h with h | h <;> cases h

lemma TokenStream.DerivesProgram.exists_rest {ts : TokenStream} {program : Block}
    (h : ts.DerivesProgram program) :
    ∃ w rest, ts.body = w ++ rest ∧ (rest = [] ∨ firstKind rest .eof = .symbol .rightBrace) ∧
      Derives .block w (firstKind rest .eof) program := by
  obtain ⟨rest, hbody, hend⟩ := beforeUnmatched_rest 0 ts.body
  have hdrop : (ts.programTokens ++ rest).drop ts.programTokens.length = rest := List.drop_left
  rw [programTokens, ← hbody] at hdrop
  rw [DerivesProgram, programEnd, programTokens, hdrop] at h
  exact ⟨_, rest, hbody, hend, h⟩

/-- The tokens of two texts are those of the first, and those of the second where it stands. -/
lemma body_append {a : String} (b : String)
    (hlast : ∀ t ∈ (TokenStream.ofSource a).body.getLast?, t.kind.EndsStmt) :
    ∃ offset, (TokenStream.ofSource (a ++ "\n" ++ b)).body =
      (TokenStream.ofSource a).body ++ scan offset b.toList := by
  have htext : (a ++ "\n" ++ b).toList = a.toList ++ '\n' :: b.toList := by
    simp [String.toList_append]
  have hscan := scan_append_blank (b := '\n') 0 a.toList (by decide) b.toList fun t ht => by
    have hkind := hlast t ht
    rw [kind_of_mem_scan (List.mem_of_getLast? ht)] at hkind
    exact hkind.not_leftOpen
  exact ⟨_, (congrArg (scan 0) htext).trans hscan⟩

/-- **Reading two texts.** A text that is a program with an end of its own, and after a line feed
another program, are read as the one program and then the other. -/
theorem parse_append {a b : String} {p q : Block}
    (ha : (TokenStream.ofSource a).parse.result = .ok p)
    (hb : (TokenStream.ofSource b).parse.result = .ok q)
    (hmatched : (TokenStream.ofSource a).programTokens = (TokenStream.ofSource a).body)
    (hlast : ∀ t ∈ (TokenStream.ofSource a).body.getLast?, t.kind.EndsStmt) :
    ∃ q', (TokenStream.ofSource (a ++ "\n" ++ b)).parse.result = .ok (p ++ q') ∧
      BlockAlike .spansAside q' q := by
  have hderives := TokenStream.derivesProgram_of_parse ha
  rw [TokenStream.DerivesProgram, hmatched] at hderives
  obtain ⟨w, rest, hbody, hend, hq⟩ := (TokenStream.derivesProgram_of_parse hb).exists_rest
  obtain ⟨offset, hscan⟩ := body_append b hlast
  have halike : List.Forall₂ TokenAlike (scan offset b.toList) (w ++ rest) := by
    rw [← hbody]
    exact scan_alike offset 0 b.toList
  obtain ⟨w', rest', hsplit, hw, hrest⟩ := exists_append_of_alike halike
  obtain ⟨q', hq', hblock⟩ := hq.alike hw
  refine ⟨q', TokenStream.parse_of_derivesProgram ?_, hblock⟩
  have hjoined : (TokenStream.ofSource (a ++ "\n" ++ b)).body =
      ((TokenStream.ofSource a).body ++ w') ++ rest' := by
    rw [hscan, hsplit, List.append_assoc]
  refine TokenStream.derivesProgram_of_derives hjoined ?_ ?_
  · rw [firstKind_alike hrest]
    rcases hend with rfl | hend
    · cases hrest
      exact .inl rfl
    · exact .inr hend
  · rw [firstKind_alike hrest]
    exact hderives.append_block hlast hq'

end Flame
