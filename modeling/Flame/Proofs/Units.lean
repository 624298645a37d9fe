import Flame.Host.World
import Flame.Proofs.Hosts
import Flame.Proofs.Joining
import Flame.Proofs.Sessions

/-!
One source text, or two in turn.

A text that is run as a whole does what its two parts do one after the other: the second part runs
only if the first returns nothing. The trees of the two parts are those of the whole, but for the
spans of the empty statements, and these can be seen in the bodies of functions only. A host that
shows functions by their names, like the one the program comes with, cannot tell the difference, nor
can one that merely keeps them. A host that looks into their bodies can.
-/

namespace Flame

variable {σ τ : Type}

/-- Goes on from where a run ended, if it returned nothing. -/
def Outcome.andThen {ε S α : Type} (x : Outcome ε S (Option α)) (f : S → Outcome ε S (Option α)) :
    Outcome ε S (Option α) :=
  match x with
  | .done none s => f s
  | _ => x

/-- Runs a source text, and then another one if the first returns nothing. -/
def Machine.runInTurn (host : Host σ) (limit : Nat) (a b : String) (m : Machine σ) :
    Outcome RunError (Machine σ) (Option TypedValue) :=
  (m.runSource host limit a).andThen fun m₁ => m₁.runSource host limit b

/-- Two runs ended the same way, in states of the host that are related. The values that were
returned and the environments are the same but for the spans of empty statements in functions. -/
inductive Outcome.SameButSpans (state : σ → σ → Prop) :
    Outcome RunError (Machine σ) (Option TypedValue) →
    Outcome RunError (Machine σ) (Option TypedValue) → Prop
  | done {r r' : Option TypedValue} {m m' : Machine σ} (result : ReturnsAlike .spansAside r r')
      (env : EnvAlike .spansAside m.env m'.env) (host : state m.host m'.host) :
      SameButSpans state (.done r m) (.done r' m')
  | failed {e : RunError} {m m' : Machine σ} (env : EnvAlike .spansAside m.env m'.env)
      (host : state m.host m'.host) : SameButSpans state (.failed e m) (.failed e m')
  | exhausted : SameButSpans state .exhausted .exhausted

/-! ### Blocks in a row -/

/-- The second block runs if the first returns nothing. -/
lemma exec_append (host : Host σ) (limit : Nat) (p q : Block) (m : Machine σ) :
    m.exec host limit (p ++ q) = (m.exec host limit p).andThen (Machine.exec host limit q) := by
  unfold Machine.exec
  induction p generalizing m with
  | nil => rfl
  | cons s p ih =>
    rw [List.cons_append, execBlock, execBlock]
    cases hs : execStmt host (callFunction host limit) s [] m with
    | done r m₁ =>
      rw [Run.bind_of_done hs, Run.bind_of_done hs]
      cases r with
      | none => exact ih m₁
      | some v => rfl
    | failed e m₁ =>
      rw [Run.bind_of_failed hs, Run.bind_of_failed hs]
      rfl
    | exhausted =>
      rw [Run.bind_of_exhausted hs, Run.bind_of_exhausted hs]
      rfl

/-- The machine may do something in between that neither the environment nor the host sees. -/
lemma andThen_matches {L : Likeness} (P : Pairing L σ τ) {p p' q q' : Block}
    (hp : BlockAlike L p p') (hq : BlockAlike L q q') (limit : Nat) {m : Machine σ}
    {m' : Machine τ} (hm : P.Machines m m') {read : Machine τ → Machine τ}
    (hread : ∀ m, (read m).env = m.env ∧ (read m).host = m.host) :
    Outcome.Matches P (ReturnsAlike L) (m.exec P.left limit (p ++ q))
      ((m'.exec P.right limit p').andThen fun m₁ => (read m₁).exec P.right limit q') := by
  rw [exec_append]
  have hfirst := exec_matches P hp limit hm
  generalize m.exec P.left limit p = x at hfirst ⊢
  generalize m'.exec P.right limit p' = y at hfirst ⊢
  cases hfirst with
  | @done _ _ m₁ m₁' result machines =>
    cases result with
    | some hv => exact .done (.some hv) machines
    | none =>
      obtain ⟨henv, hhost⟩ := hread m₁'
      have hm₁ : P.Machines m₁ (read m₁') :=
        ⟨by rw [henv]; exact machines.env, by rw [hhost]; exact machines.state⟩
      exact exec_matches P hq limit hm₁
  | failed error machines => exact .failed error machines
  | exhausted => exact .exhausted

/-! ### Texts in turn -/

namespace Machine

/-- The machine after a source text was read as a program. -/
def readAs (source : String) (program : Block) (m : Machine σ) : Machine σ :=
  (m.noteReading source).note (.unitRead program.length)

lemma readAs_eq (source : String) (program : Block) (m : Machine σ) :
    (m.readAs source program).env = m.env ∧ (m.readAs source program).host = m.host := by
  obtain ⟨log, hlog⟩ := noteReading_eq source m
  unfold readAs
  rw [hlog]
  exact ⟨rfl, rfl⟩

lemma runSource_of_parse_error {source : String} {e : ParseError} (host : Host σ) (limit : Nat)
    (m : Machine σ) (h : (TokenStream.ofSource source).parse.result = .error e) :
    m.runSource host limit source = .failed (.parse e) (m.noteReading source) := by
  unfold runSource runTokens noteReading
  simp only [h]

lemma runSource_of_parse {source : String} {program : Block} (host : Host σ) (limit : Nat)
    (m : Machine σ) (h : (TokenStream.ofSource source).parse.result = .ok program) :
    m.runSource host limit source =
      ((m.readAs source program).exec host limit program).mapError .runtime := by
  unfold runSource runTokens readAs noteReading
  simp only [h]

lemma runInTurn_of_parse {a b : String} {p q : Block} (host : Host σ) (limit : Nat)
    (m : Machine σ) (ha : (TokenStream.ofSource a).parse.result = .ok p)
    (hb : (TokenStream.ofSource b).parse.result = .ok q) :
    m.runInTurn host limit a b =
      (((m.readAs a p).exec host limit p).andThen fun m₁ =>
        (m₁.readAs b q).exec host limit q).mapError .runtime := by
  unfold runInTurn
  rw [runSource_of_parse host limit m ha]
  cases (m.readAs a p).exec host limit p with
  | done r m₁ =>
    cases r with
    | none => exact runSource_of_parse host limit m₁ hb
    | some v => rfl
  | failed e m₁ => rfl
  | exhausted => rfl

end Machine

/-- Programs that are alike, read from two texts on machines that correspond. -/
lemma readAs_matches {L : Likeness} (P : Pairing L σ τ) (a b : String) {p q : Block}
    (hblock : BlockAlike L p q) (limit : Nat) {m : Machine σ} {m' : Machine τ}
    (hm : P.Machines m m') :
    Outcome.Matches P (ReturnsAlike L) ((m.readAs a p).exec P.left limit p)
      ((m'.readAs b q).exec P.right limit q) := by
  obtain ⟨henv, hhost⟩ := m.readAs_eq a p
  obtain ⟨henv', hhost'⟩ := m'.readAs_eq b q
  refine exec_matches P hblock limit ⟨?_, ?_⟩
  · rw [henv, henv']
    exact hm.env
  · rw [hhost, hhost']
    exact hm.state

lemma record?_mapError {α ε ε' : Type} (f : ε → ε')
    (x : Outcome ε (Machine (σ × List Invocation)) α) : (x.mapError f).record? = x.record? := by
  cases x <;> rfl

lemma sameButSpans_of_matches {host : Host σ} {state : σ → σ → Prop}
    (hhost : host.Respects .spansAside state)
    {x y : Outcome RuntimeError (Machine σ) (Option TypedValue)}
    (h : Outcome.Matches ((Correspondence.alike .spansAside).withHost hhost)
      (ReturnsAlike .spansAside) x y) :
    (x.mapError .runtime).SameButSpans state (y.mapError .runtime) := by
  cases h with
  | done result machines => exact .done result machines.env machines.state
  | failed error machines =>
    rw [error.eq fun htag => htag]
    exact .failed machines.env machines.state
  | exhausted => exact .exhausted

lemma Likeness.reflexive_spansAside : Likeness.spansAside.Reflexive :=
  ⟨fun _ => rfl, fun _ => trivial⟩

lemma valueAlike_spansAside (v : Value) : ValueAlike .spansAside v v :=
  valueAlike_self Likeness.reflexive_spansAside (fun _ _ _ _ => trivial) fun _ _ _ _ => trivial

lemma forall₂_spansAside (vs : List Value) : List.Forall₂ (ValueAlike .spansAside) vs vs :=
  List.forall₂_same.2 fun v _ => valueAlike_spansAside v

lemma envAlike_spansAside (env : Environment) : EnvAlike .spansAside env env :=
  EnvAlike.self fun _ _ v _ => valueAlike_spansAside v.value

/-- One program, read from a text, and its two parts, read from two texts in turn. -/
lemma inTurn_matches (P : Pairing .spansAside τ τ) {a b c : String} {p q q' : Block}
    (hq : BlockAlike .spansAside q' q) (limit : Nat) {m : Machine τ} (henv : P.env m.env m.env)
    (hstate : P.state m.host m.host) :
    Outcome.Matches P (ReturnsAlike .spansAside)
      ((m.readAs c (p ++ q')).exec P.left limit (p ++ q'))
      (((m.readAs a p).exec P.right limit p).andThen fun m₁ =>
        (m₁.readAs b q).exec P.right limit q) := by
  have hself : BlockAlike .spansAside p p :=
    blockAlike_self Likeness.reflexive_spansAside p (fun _ _ => trivial) fun _ _ => trivial
  obtain ⟨henv₁, hstate₁⟩ := m.readAs_eq c (p ++ q')
  obtain ⟨henv₂, hstate₂⟩ := m.readAs_eq a p
  refine andThen_matches P hself hq limit ⟨?_, ?_⟩ (Machine.readAs_eq b q)
  · rw [henv₁, henv₂]
    exact henv
  · rw [hstate₁, hstate₂]
    exact hstate

/-! ### The host that the program comes with -/

section

variable {L : Likeness}

lemma render_eq_of_alike {v w : Value} (h : ValueAlike L v w) : v.render = w.render := by
  cases h with
  | function hf => simp only [Value.render, hf.name_eq]
  | plain _ => rfl

lemma asInt?_eq_of_alike {v w : Value} (h : ValueAlike L v w) : v.asInt? = w.asInt? := by
  cases h with
  | function _ => rfl
  | plain _ => rfl

lemma renderValues_eq_of_alike {vs ws : List Value} (h : List.Forall₂ (ValueAlike L) vs ws)
    (separator : String) : renderValues separator vs = renderValues separator ws := by
  have hmap : vs.map Value.render = ws.map Value.render := by
    induction h with
    | nil => rfl
    | cons hv _ ih => rw [List.map_cons, List.map_cons, ih, render_eq_of_alike hv]
  rw [renderValues, renderValues, hmap]

lemma numbers_eq_of_alike {vs ws : List Value} (h : List.Forall₂ (ValueAlike L) vs ws) :
    World.numbers vs = World.numbers ws := by
  unfold World.numbers
  induction h with
  | nil => rfl
  | cons hv _ ih => rw [List.filterMap_cons, List.filterMap_cons, ih, asInt?_eq_of_alike hv]

/-- No function of the stock looks into a function. -/
lemma respects_world_of_self (hself : ∀ v, ValueAlike L v v) : World.host.Respects L Eq := by
  have hsame : ∀ r : Except String Value × World, AnswersAlike L Eq r r := by
    rintro ⟨r, w⟩
    cases r with
    | ok v => exact .value (hself v) rfl
    | error reason => exact .failure rfl
  intro f args args' w w' hargs hstate
  obtain rfl : w = w' := hstate
  change AnswersAlike L Eq (World.call f args w) (World.call f args' w)
  unfold World.call
  split
  · exact .failure rfl
  · rename_i b calls _
    cases b with
    | echo =>
      cases hargs with
      | nil => exact .failure rfl
      | cons hv _ => exact .value hv rfl
    | print muted =>
      cases muted <;> simp only [World.answer, renderValues_eq_of_alike hargs] <;> exact hsame _
    | fail =>
      simp only [World.answer, renderValues_eq_of_alike hargs]
      exact hsame _
    | sum =>
      simp only [World.answer, numbers_eq_of_alike hargs]
      exact hsame _
    | count =>
      simp only [World.answer, hargs.length_eq]
      exact hsame _
    | constant v => exact hsame _
    | next => exact hsame _

end

lemma respects_world : World.host.Respects .spansAside Eq :=
  respects_world_of_self valueAlike_spansAside

/-! ### A text that passes a function on -/

lemma body_semicolon :
    (TokenStream.ofSource ";").body = [⟨";", .symbol .semicolon, ⟨0, 1⟩⟩] := by cbv

lemma parse_semicolon : (TokenStream.ofSource ";").parse.result = .ok [.empty ⟨0, 1⟩] := by cbv

lemma programTokens_semicolon :
    (TokenStream.ofSource ";").programTokens = (TokenStream.ofSource ";").body := by
  rw [TokenStream.programTokens, body_semicolon]
  decide

lemma ended_semicolon : ∀ t ∈ (TokenStream.ofSource ";").body.getLast?,
    t.kind = .symbol .semicolon ∨ t.kind = .symbol .rightBrace := by
  rw [body_semicolon]
  decide

lemma parse_passing : (TokenStream.ofSource "func g()\x7b;\x7dreturn n(g);").parse.result =
    .ok [.function "g" [] [.empty ⟨9, 10⟩], .ret (.call "n" [.var "g"])] := by cbv

lemma parse_semicolon_passing :
    (TokenStream.ofSource (";" ++ "\n" ++ "func g()\x7b;\x7dreturn n(g);")).parse.result =
      .ok [.empty ⟨0, 1⟩, .function "g" [] [.empty ⟨11, 12⟩], .ret (.call "n" [.var "g"])] := by cbv

/-! ### One text, or two in turn -/

/-- **Texts in turn.** Let the first of two texts be a program without an unmatched closing brace
that is empty or has an end of its own, and the second a program. With a line feed between them,
they run like the first and then, if it returned nothing, the second: with the same result,
environment and calls of host functions, all but for the spans of empty statements in functions.
The host must not look at those; the states that it is left in are related as it relates states. -/
theorem runSource_append (host : Host σ) (state : σ → σ → Prop)
    (hhost : host.Respects .spansAside state) (limit : Nat) {a b : String}
    (ha : ∃ p, (TokenStream.ofSource a).parse.result = .ok p)
    (hb : ∃ q, (TokenStream.ofSource b).parse.result = .ok q)
    (hmatched : (TokenStream.ofSource a).programTokens = (TokenStream.ofSource a).body)
    (hlast : ∀ t ∈ (TokenStream.ofSource a).body.getLast?,
      t.kind = .symbol .semicolon ∨ t.kind = .symbol .rightBrace) (m : Machine σ)
    (hstate : state m.host m.host) :
    (m.runSource host limit (a ++ "\n" ++ b)).SameButSpans state
      (m.runInTurn host limit a b) ∧
    Option.Rel (List.Forall₂ (InvocationAlike .spansAside))
      (m.recording.runSource host.recording limit (a ++ "\n" ++ b)).record?
      (m.recording.runInTurn host.recording limit a b).record? := by
  obtain ⟨p, hp⟩ := ha
  obtain ⟨q, hq⟩ := hb
  obtain ⟨q', hjoined, hblock⟩ := parse_append hp hq hmatched hlast
  let P := (Correspondence.alike .spansAside).withHost hhost
  have henv : P.env m.env m.env := envAlike_spansAside m.env
  refine ⟨?_, ?_⟩
  · rw [Machine.runSource_of_parse host limit m hjoined,
      Machine.runInTurn_of_parse host limit m hp hq]
    exact sameButSpans_of_matches hhost (inTurn_matches P hblock limit henv hstate)
  · rw [Machine.runSource_of_parse _ limit _ hjoined, Machine.runInTurn_of_parse _ limit _ hp hq,
      record?_mapError, record?_mapError]
    exact P.record_alike (inTurn_matches P.recorded hblock limit henv ⟨hstate, .nil⟩)

/-- The empty statement in the function that is passed on stands elsewhere in the whole text. The
stock does not look at it, and a host may keep the function. -/
theorem runSource_append_moved_span :
    let b := "func g()\x7b;\x7dreturn n(g);"
    (TokenStream.ofSource b).parse.result =
        .ok [.function "g" [] [.empty ⟨9, 10⟩], .ret (.call "n" [.var "g"])] ∧
      (TokenStream.ofSource (";" ++ "\n" ++ b)).parse.result =
        .ok [.empty ⟨0, 1⟩, .function "g" [] [.empty ⟨11, 12⟩], .ret (.call "n" [.var "g"])] ∧
      (∀ m : Machine World, (m.runSource World.host 1 (";" ++ "\n" ++ b)).SameButSpans Eq
        (m.runInTurn World.host 1 ";" b)) ∧
      ∀ m : Machine (List Value), (m.runSource .keeping 1 (";" ++ "\n" ++ b)).SameButSpans
        (List.Forall₂ (ValueAlike .spansAside)) (m.runInTurn .keeping 1 ";" b) := by
  refine ⟨parse_passing, parse_semicolon_passing, fun m => ?_, fun m => ?_⟩
  · exact (runSource_append World.host Eq respects_world 1 ⟨_, parse_semicolon⟩ ⟨_, parse_passing⟩
      programTokens_semicolon ended_semicolon m rfl).1
  · exact (runSource_append .keeping _ (respects_keeping _) 1 ⟨_, parse_semicolon⟩
      ⟨_, parse_passing⟩ programTokens_semicolon ended_semicolon m (forall₂_spansAside m.host)).1

/-- The value that a run returned. -/
def Outcome.returned? {ε S α : Type} : Outcome ε S (Option α) → Option α
  | .done r _ => r
  | _ => none

lemma Outcome.SameButSpans.returned? {state : σ → σ → Prop}
    {x y : Outcome RunError (Machine σ) (Option TypedValue)} (h : x.SameButSpans state y) :
    ReturnsAlike .spansAside x.returned? y.returned? := by
  cases h with
  | done result _ _ => exact result
  | failed _ _ => exact .none
  | exhausted => exact .none

/-- The host whose functions tell where the empty statement stands that the body of their argument
begins with. -/
def Host.locating : Host Unit where
  call _ args s :=
    match args with
    | [.function ⟨_, _, .empty span :: _⟩] => (.ok (.int (Int64.ofNat span.start.toNat)), s)
    | _ => (.ok .void, s)

/-- A host that looks at the spans of empty statements can tell a text from its parts in turn: what
it answers is returned, and is another number. -/
theorem runSource_append_read_span :
    let a := ";"
    let b := "func g()\x7b;\x7dreturn n(g);"
    let m : Machine Unit := ⟨⟨[], ⟨[⟨"n", .external, .native ⟨"n", 0⟩⟩]⟩⟩, (), []⟩
    (∃ p, (TokenStream.ofSource a).parse.result = .ok p) ∧
      (∃ q, (TokenStream.ofSource b).parse.result = .ok q) ∧
      (TokenStream.ofSource a).programTokens = (TokenStream.ofSource a).body ∧
      (∀ t ∈ (TokenStream.ofSource a).body.getLast?,
        t.kind = .symbol .semicolon ∨ t.kind = .symbol .rightBrace) ∧
      (m.runSource .locating 1 (a ++ "\n" ++ b)).returned? = some ⟨.int, .int 11⟩ ∧
      (m.runInTurn .locating 1 a b).returned? = some ⟨.int, .int 9⟩ ∧
      ∀ state, ¬(m.runSource .locating 1 (a ++ "\n" ++ b)).SameButSpans state
        (m.runInTurn .locating 1 a b) := by
  intro a b m
  have hjoined : (m.runSource .locating 1 (a ++ "\n" ++ b)).returned? =
      some ⟨.int, .int 11⟩ := by
    rw [Machine.runSource_of_parse .locating 1 m parse_semicolon_passing]
    cbv
  have hturn : (m.runInTurn .locating 1 a b).returned? = some ⟨.int, .int 9⟩ := by
    rw [Machine.runInTurn_of_parse .locating 1 m parse_semicolon parse_passing]
    cbv
  refine ⟨⟨_, parse_semicolon⟩, ⟨_, parse_passing⟩, programTokens_semicolon, ended_semicolon,
    hjoined, hturn, fun state h => ?_⟩
  have hreturns := h.returned?
  rw [hjoined, hturn] at hreturns
  cases hreturns with
  | some hv =>
    have hnumber : some (11 : Int64) = some 9 := asInt?_eq_of_alike hv.value
    exact absurd hnumber (by decide)

end Flame
