import Flame.Proofs.Printing
import Flame.Shell.Prompt

/-!
The prompt as a fold of submissions.

A conversation is a row of exchanges: the mark is written, an attempt is made to read a line, what
it gives is submitted, and the reply is written. Any write can be refused, and then the conversation
breaks off there. So a conversation ends in one of three ways, told by the exchanges before its end
and by what happens then, and nothing that follows in the input has a part in it. What the sinks
hold at the end, and to which environment the submissions lead, follows from exchange to exchange.
-/

namespace Flame

variable {σ : Type}

/-! ### Lines -/

namespace Text

lemma pieces_append (a b : List UInt8) : pieces (a ++ lineFeed :: b) = pieces a ++ pieces b := by
  induction a with
  | nil => simp [pieces]
  | cons x a ih =>
    rw [List.cons_append, pieces, pieces, ih]
    split
    · rfl
    · cases hpieces : pieces a with
      | nil => exact absurd hpieces (pieces_ne_nil a)
      | cons p ps => rfl

/-- A line feed ends a line, whatever follows it. -/
lemma lines_append (a b : List UInt8) :
    lines (a ++ lineFeed :: b) = (pieces a).map dropReturn ++ lines b := by
  unfold lines
  rw [pieces_append, List.dropLast_append_of_ne_nil (pieces_ne_nil b), List.map_append,
    List.getLast?_append_of_ne_nil _ (pieces_ne_nil b)]
  split <;> simp [*]

lemma pieces_of_not_mem {line : List UInt8} (h : lineFeed ∉ line) : pieces line = [line] := by
  induction line with
  | nil => rfl
  | cons b line ih =>
    rw [List.mem_cons, not_or] at h
    obtain ⟨hb, hline⟩ := h
    rw [pieces, if_neg (Ne.symm hb), ih hline]

/-- **Lines.** What line feeds end are the lines, without a carriage return at their ends. What is
left after the last line feed is a line as it is, unless it is empty. -/
theorem lines_ended {ended : List (List UInt8)} {rest : List UInt8}
    (hended : ∀ line ∈ ended, lineFeed ∉ line) (hrest : lineFeed ∉ rest) :
    lines ((ended.map (· ++ [lineFeed])).flatten ++ rest) =
      ended.map dropReturn ++ if rest = [] then [] else [rest] := by
  induction ended with
  | nil =>
    rw [List.map_nil, List.flatten_nil, List.nil_append, lines, pieces_of_not_mem hrest]
    cases rest <;> rfl
  | cons line ended ih =>
    obtain ⟨hline, hended⟩ := List.forall_mem_cons.1 hended
    rw [List.map_cons, List.flatten_cons, List.append_assoc, List.append_assoc,
      List.singleton_append, lines_append, pieces_of_not_mem hline, ih hended]
    rfl

end Text

namespace Prompt

/-! ### Attempts and answers -/

/-- What an attempt to read a line gives. -/
inductive Attempt
  /-- No line is left. -/
  | ended
  /-- A line that is not text. -/
  | unreadable
  | farewell
  | blank
  /-- A line to submit, without the blanks at its ends. -/
  | source (text : String)

namespace Attempt

def ofText (text : String) : Attempt :=
  let source := String.ofList (Text.trim text.toList)
  if source = Prompt.farewell then .farewell else if source = "" then .blank else .source source

def ofLine (line : List UInt8) : Attempt := (Text.decode? line).elim .unreadable ofText

/-- Whether the conversation ends here. -/
def stops : Attempt → Bool
  | ended | unreadable | farewell => true
  | blank | source _ => false

/-- What is submitted. -/
def source? : Attempt → Option String
  | source text => some text
  | _ => none

end Attempt

/-- The lines of an input before the conversation ends. -/
def handled (input : List UInt8) : List Attempt :=
  ((Text.lines input).map Attempt.ofLine).takeWhile fun a => !a.stops

/-- The first line that ends the conversation, or the end of the input. -/
def stop (input : List UInt8) : Attempt :=
  (((Text.lines input).map Attempt.ofLine).find? Attempt.stops).getD .ended

/-- All attempts to read a line: one for each line that is handled, and one more. -/
def attempts (input : List UInt8) : List Attempt := handled input ++ [stop input]

/-- What an attempt is answered with. -/
inductive Reply
  | nothing
  /-- Goes to the output. -/
  | value (text : String)
  /-- Goes to the errors. -/
  | error (text : String)

namespace Reply

/-- Writes a reply to the sink that it belongs to. -/
def give (t : Terminal σ) : Reply → σ → Except String Unit × σ
  | nothing, s => (.ok (), s)
  | value text, s => t.out.write text s
  | error text, s => t.err.write text s

/-- What a reply adds to the sinks. -/
def texts : Reply → Texts
  | nothing => .empty
  | value text => ⟨text, ""⟩
  | error text => ⟨"", text⟩

end Reply

/-- The reply to an attempt, and the machine after its submission. There is none if the run is
given up. -/
def answer (host : Host σ) (limit : Nat) (a : Attempt) (m : Machine σ) :
    Option (Reply × Machine σ) :=
  match a with
  | .source text =>
    match m.submit host limit text with
    | .done none m' => some (.nothing, m')
    | .done (some v) m' => some (.value (v.render ++ "\n"), m')
    | .failed e m' => some (.error (e.render text origin ++ "\n"), m')
    | .exhausted => none
  | .unreadable => some (.error unreadable, m)
  | .ended | .farewell | .blank => some (.nothing, m)

/-! ### Conversations -/

/-- One exchange: what was read, the machine it was read on, and the reply. -/
structure Exchange (σ : Type) where
  attempt : Attempt
  asked : Machine σ
  reply : Reply

section

variable (t : Terminal σ) (limit : Nat)

/-- An exchange takes a machine to another: the mark was written and let go of, the attempt was
answered, and the reply was written. -/
inductive Exchanged : Machine σ → Exchange σ → Machine σ → Prop
  | mk {a : Attempt} {r : Reply} {m m₁ : Machine σ} {s s₁ s₂ : σ}
      (written : t.out.write mark m.host = (.ok (), s)) (flushed : t.out.flush s = (.ok (), s₁))
      (answered : answer t.host limit a { m with host := s₁ } = some (r, m₁))
      (given : r.give t m₁.host = (.ok (), s₂)) :
      Exchanged m ⟨a, { m with host := s₁ }, r⟩ { m₁ with host := s₂ }

/-- A sink refuses something, with a reason, and leaves a machine: to write the mark or to let go of
it, and then nothing is read; or to write the reply to an attempt. -/
inductive Refused (a : Attempt) : Machine σ → String → Machine σ → Prop
  | mark {m : Machine σ} {e : String} {s : σ}
      (refused : t.out.write mark m.host = (.error e, s)) : Refused a m e { m with host := s }
  | flush {m : Machine σ} {e : String} {s s₁ : σ} (written : t.out.write mark m.host = (.ok (), s))
      (refused : t.out.flush s = (.error e, s₁)) : Refused a m e { m with host := s₁ }
  | reply {r : Reply} {m m₁ : Machine σ} {e : String} {s s₁ s₂ : σ}
      (written : t.out.write mark m.host = (.ok (), s)) (flushed : t.out.flush s = (.ok (), s₁))
      (answered : answer t.host limit a { m with host := s₁ } = some (r, m₁))
      (refused : r.give t m₁.host = (.error e, s₂)) : Refused a m e { m₁ with host := s₂ }

/-- The submission of an attempt is given up. -/
inductive GivenUp (a : Attempt) : Machine σ → Prop
  | mk {m : Machine σ} {s s₁ : σ} (written : t.out.write mark m.host = (.ok (), s))
      (flushed : t.out.flush s = (.ok (), s₁))
      (unanswered : answer t.host limit a { m with host := s₁ } = none) : GivenUp a m

/-- Exchanges in a row. Each finds the environment as the one before has left it. -/
inductive Conversation : Machine σ → List (Exchange σ) → Machine σ → Prop
  | nil {m : Machine σ} : Conversation m [] m
  | cons {m m₁ m' : Machine σ} {x : Exchange σ} {xs : List (Exchange σ)}
      (first : Exchanged t limit m x m₁) (rest : Conversation m₁ xs m') :
      Conversation m (x :: xs) m'

/-- How a conversation over attempts ends: after an exchange for each of them; or at the first that
something was refused at; or at the first that was given up. -/
inductive Ends (m : Machine σ) (as : List Attempt) : Outcome String (Machine σ) Unit → Prop
  | done {xs : List (Exchange σ)} {m' : Machine σ} (attempts_eq : xs.map Exchange.attempt = as)
      (exchanges : Conversation t limit m xs m') : Ends m as (.done () m')
  | failed {xs : List (Exchange σ)} {a : Attempt} {m₁ m' : Machine σ} {e : String}
      (start : xs.map Exchange.attempt ++ [a] <+: as) (exchanges : Conversation t limit m xs m₁)
      (refused : Refused t limit a m₁ e m') : Ends m as (.failed e m')
  | exhausted {xs : List (Exchange σ)} {a : Attempt} {m₁ : Machine σ}
      (start : xs.map Exchange.attempt ++ [a] <+: as) (exchanges : Conversation t limit m xs m₁)
      (givenUp : GivenUp t limit a m₁) : Ends m as .exhausted

/-! ### Rounds -/

/-- Answers what an attempt gives. -/
def respondTo (a : Attempt) (m : Machine σ) : Turn σ :=
  match answer t.host limit a m with
  | some (r, m') => say (r.give t) (!a.stops) m'
  | none => .exhausted

/-- Writes the mark, and answers what an attempt gives. -/
def round (a : Attempt) (m : Machine σ) : Turn σ :=
  match say t.invite true m with
  | .done _ m => respondTo t limit a m
  | turn => turn

/-- Holds a conversation over attempts, up to the first that ends it. -/
def rounds : List Attempt → Machine σ → Outcome String (Machine σ) Unit
  | [], m => .done () m
  | a :: as, m =>
    match round t limit a m with
    | .failed e m => .failed e m
    | .exhausted => .exhausted
    | .done false m => .done () m
    | .done true m => rounds as m

lemma respond_decode (line : List UInt8) (m : Machine σ) :
    t.respond limit (Text.decode? line) m = respondTo t limit (.ofLine line) m := by
  unfold Attempt.ofLine
  cases Text.decode? line with
  | none => rfl
  | some text =>
    simp only [Terminal.respond, Option.elim, Attempt.ofText]
    split
    · rfl
    · split
      · rfl
      · simp only [respondTo, answer]
        generalize m.submit t.host limit (String.ofList (Text.trim text.toList)) = x
        cases x with
        | done r m' => cases r <;> rfl
        | failed e m' => rfl
        | exhausted => rfl

lemma converse_eq_rounds (lines : List (List UInt8)) (m : Machine σ) :
    t.converse limit lines m = rounds t limit (lines.map .ofLine ++ [.ended]) m := by
  induction lines generalizing m with
  | nil =>
    rw [Terminal.converse, List.map_nil, List.nil_append, rounds, round]
    cases say t.invite true m <;> rfl
  | cons line lines ih =>
    rw [Terminal.converse, List.map_cons, List.cons_append, rounds, round]
    cases say t.invite true m with
    | done goOn m =>
      simp only [respond_decode]
      cases respondTo t limit (.ofLine line) m with
      | done goOn m => cases goOn <;> simp [ih]
      | failed e m => rfl
      | exhausted => rfl
    | failed e m => rfl
    | exhausted => rfl

end

/-! ### One round -/

section

variable {t : Terminal σ} {limit : Nat} {a : Attempt} {m m' m₁ : Machine σ} {x : Exchange σ}

lemma say_of_ok {act : σ → Except String Unit × σ} {s : σ} (h : act m.host = (.ok (), s))
    (goOn : Bool) : say act goOn m = .done goOn { m with host := s } := by
  rw [say, h]

lemma say_of_error {act : σ → Except String Unit × σ} {e : String} {s : σ}
    (h : act m.host = (.error e, s)) (goOn : Bool) :
    say act goOn m = .failed e { m with host := s } := by
  rw [say, h]

lemma invite_of_written {s s₁ : σ} (h : t.out.write mark s = (.ok (), s₁)) :
    t.invite s = t.out.flush s₁ := by
  rw [Terminal.invite, h]

lemma invite_of_refused {e : String} {s s₁ : σ} (h : t.out.write mark s = (.error e, s₁)) :
    t.invite s = (.error e, s₁) := by
  rw [Terminal.invite, h]

lemma round_of_invited {s : σ} (h : t.invite m.host = (.ok (), s)) :
    round t limit a m = respondTo t limit a { m with host := s } := by
  rw [round, say_of_ok h]

lemma round_of_uninvited {e : String} {s : σ} (h : t.invite m.host = (.error e, s)) :
    round t limit a m = .failed e { m with host := s } := by
  rw [round, say_of_error h]

lemma round_of_exchanged (h : Exchanged t limit m x m') :
    round t limit x.attempt m = .done (!x.attempt.stops) m' := by
  cases h with
  | mk written flushed answered given =>
    rw [round_of_invited ((invite_of_written written).trans flushed), respondTo, answered]
    exact say_of_ok given _

lemma round_of_refused {e : String} (h : Refused t limit a m e m') :
    round t limit a m = .failed e m' := by
  cases h with
  | mark refused => exact round_of_uninvited (invite_of_refused refused)
  | flush written refused => exact round_of_uninvited ((invite_of_written written).trans refused)
  | reply written flushed answered refused =>
    rw [round_of_invited ((invite_of_written written).trans flushed), respondTo, answered]
    exact say_of_error refused _

lemma round_of_givenUp (h : GivenUp t limit a m) : round t limit a m = .exhausted := by
  cases h with
  | mk written flushed unanswered =>
    rw [round_of_invited ((invite_of_written written).trans flushed), respondTo, unanswered]

/-- **One round.** There is an exchange, or something is refused, or the submission is given up. -/
theorem round_cases (t : Terminal σ) (limit : Nat) (a : Attempt) (m : Machine σ) :
    (∃ x m', x.attempt = a ∧ Exchanged t limit m x m') ∨ (∃ e m', Refused t limit a m e m') ∨
      GivenUp t limit a m := by
  rcases hwritten : t.out.write mark m.host with ⟨e | _, s⟩
  · exact .inr (.inl ⟨e, _, .mark hwritten⟩)
  rcases hflushed : t.out.flush s with ⟨e | _, s₁⟩
  · exact .inr (.inl ⟨e, _, .flush hwritten hflushed⟩)
  rcases hanswer : answer t.host limit a { m with host := s₁ } with _ | ⟨r, m₁⟩
  · exact .inr (.inr (.mk hwritten hflushed hanswer))
  rcases hgiven : r.give t m₁.host with ⟨e | _, s₂⟩
  · exact .inr (.inl ⟨e, _, .reply hwritten hflushed hanswer hgiven⟩)
  · exact .inl ⟨_, _, rfl, .mk hwritten hflushed hanswer hgiven⟩

/-! ### Many rounds -/

/-- What follows an attempt that ends the conversation is not looked at. -/
lemma rounds_append_of_stops (h : a.stops = true) (before after : List Attempt) (m : Machine σ) :
    rounds t limit (before ++ a :: after) m = rounds t limit (before ++ [a]) m := by
  induction before generalizing m with
  | nil =>
    rw [List.nil_append, List.nil_append, rounds, rounds]
    rcases round_cases t limit a m with ⟨x, m', rfl, hx⟩ | ⟨e, m', hrefused⟩ | hgivenUp
    · rw [round_of_exchanged hx, h]
      rfl
    · rw [round_of_refused hrefused]
    · rw [round_of_givenUp hgivenUp]
  | cons b before ih =>
    rw [List.cons_append, List.cons_append, rounds, rounds]
    cases round t limit b m with
    | done goOn m₁ =>
      cases goOn with
      | true => exact ih m₁
      | false => rfl
    | failed e m₁ => rfl
    | exhausted => rfl

/-- Exchanges that do not end the conversation are made one after another. -/
lemma rounds_of_conversation {xs : List (Exchange σ)} (h : Conversation t limit m xs m')
    (hgoOn : ∀ x ∈ xs, x.attempt.stops = false) (after : List Attempt) :
    rounds t limit (xs.map Exchange.attempt ++ after) m = rounds t limit after m' := by
  induction h with
  | nil => rfl
  | cons first rest ih =>
    obtain ⟨hx, hxs⟩ := List.forall_mem_cons.1 hgoOn
    rw [List.map_cons, List.cons_append, rounds, round_of_exchanged first, hx]
    exact ih hxs

lemma Conversation.exists_of_append {xs ys : List (Exchange σ)}
    (h : Conversation t limit m (xs ++ ys) m') :
    ∃ m₁, Conversation t limit m xs m₁ ∧ Conversation t limit m₁ ys m' := by
  induction xs generalizing m with
  | nil => exact ⟨m, .nil, h⟩
  | cons x xs ih =>
    cases h with
    | cons first rest =>
      obtain ⟨m₁, hxs, hys⟩ := ih rest
      exact ⟨m₁, .cons first hxs, hys⟩

lemma Ends.cons {as : List Attempt} {outcome : Outcome String (Machine σ) Unit}
    (first : Exchanged t limit m x m₁) (h : Ends t limit m₁ as outcome) :
    Ends t limit m (x.attempt :: as) outcome := by
  cases h with
  | done attempts_eq exchanges =>
    refine .done ?_ (.cons first exchanges)
    rw [List.map_cons, attempts_eq]
  | failed start exchanges refused =>
    refine .failed ?_ (.cons first exchanges) refused
    exact (List.prefix_cons_inj x.attempt).2 start
  | exhausted start exchanges givenUp =>
    refine .exhausted ?_ (.cons first exchanges) givenUp
    exact (List.prefix_cons_inj x.attempt).2 start

lemma Ends.of_refused {as : List Attempt} {e : String} (h : Refused t limit a m e m') :
    Ends t limit m (a :: as) (.failed e m') := by
  refine .failed ?_ .nil h
  exact List.prefix_append [a] as

lemma Ends.of_givenUp {as : List Attempt} (h : GivenUp t limit a m) :
    Ends t limit m (a :: as) .exhausted := by
  refine .exhausted ?_ .nil h
  exact List.prefix_append [a] as

/-- **Many rounds.** Attempts of which only the last ends the conversation are gone through up to
the first that something is refused at, or that is given up. -/
theorem rounds_ends {before : List Attempt} (hgoOn : ∀ b ∈ before, b.stops = false)
    (hstops : a.stops = true) (m : Machine σ) :
    Ends t limit m (before ++ [a]) (rounds t limit (before ++ [a]) m) := by
  induction before generalizing m with
  | nil =>
    rw [List.nil_append, rounds]
    rcases round_cases t limit a m with ⟨x, m', rfl, hx⟩ | ⟨e, m', hrefused⟩ | hgivenUp
    · rw [round_of_exchanged hx, hstops]
      exact .done rfl (.cons hx .nil)
    · rw [round_of_refused hrefused]
      exact .of_refused hrefused
    · rw [round_of_givenUp hgivenUp]
      exact .of_givenUp hgivenUp
  | cons b before ih =>
    obtain ⟨hb, hbefore⟩ := List.forall_mem_cons.1 hgoOn
    rw [List.cons_append, rounds]
    rcases round_cases t limit b m with ⟨x, m', rfl, hx⟩ | ⟨e, m', hrefused⟩ | hgivenUp
    · rw [round_of_exchanged hx, hb]
      exact (ih hbefore m').cons hx
    · rw [round_of_refused hrefused]
      exact .of_refused hrefused
    · rw [round_of_givenUp hgivenUp]
      exact .of_givenUp hgivenUp

end

/-! ### What the prompt reads -/

lemma stops_of_mem_handled {input : List UInt8} {a : Attempt} (h : a ∈ handled input) :
    a.stops = false := by
  simpa using List.mem_takeWhile_imp h

lemma stops_stop (input : List UInt8) : (stop input).stops = true := by
  unfold stop
  cases hfind : ((Text.lines input).map Attempt.ofLine).find? Attempt.stops with
  | none => rfl
  | some a => exact List.find?_some hfind

/-- Only the last attempt ends the conversation. -/
lemma goOn_before {input : List UInt8} {before : List Attempt} {a : Attempt}
    (h : before ++ [a] <+: attempts input) : ∀ b ∈ before, b.stops = false := by
  have hbefore : before <+: handled input := by
    rcases List.prefix_concat_iff.1 h with heq | hstart
    · rw [(List.append_inj' heq rfl).1]
    · exact (List.prefix_append before [a]).trans hstart
  exact fun b hb => stops_of_mem_handled (hbefore.subset hb)

/-- Lists that agree up to and including the first element with a property. -/
lemma takeWhile_find?_congr {α : Type} {p : α → Bool} {as as' : List α}
    (h : as'.take ((as.takeWhile (!p ·)).length + 1) = as.take ((as.takeWhile (!p ·)).length + 1)) :
    as'.takeWhile (!p ·) = as.takeWhile (!p ·) ∧ as'.find? p = as.find? p := by
  induction as generalizing as' with
  | nil =>
    obtain rfl : as' = [] := by simpa using h
    exact ⟨rfl, rfl⟩
  | cons a as ih =>
    cases as' with
    | nil => simp at h
    | cons b as' =>
      rw [List.take_succ_cons, List.take_succ_cons] at h
      obtain ⟨rfl, h⟩ := List.cons.inj h
      cases hp : p b with
      | true => simp [hp]
      | false =>
        simp only [List.takeWhile_cons, hp, Bool.not_false, if_true, List.length_cons] at h
        obtain ⟨htake, hfind⟩ := ih h
        simp [hp, htake, hfind]

/-- Inputs that agree up to and including the line that ends the conversation. -/
lemma attempts_congr {input input' : List UInt8}
    (h : (Text.lines input').take (attempts input).length =
      (Text.lines input).take (attempts input).length) : attempts input' = attempts input := by
  have hmap := congrArg (List.map Attempt.ofLine) h
  rw [List.map_take, List.map_take, attempts, List.length_append] at hmap
  obtain ⟨hhandled, hstop⟩ := takeWhile_find?_congr hmap
  unfold attempts handled stop
  rw [hhandled, hstop]

lemma length_attempts_le {input : List UInt8} (h : stop input ≠ .ended) :
    (attempts input).length ≤ (Text.lines input).length := by
  unfold stop at h
  rw [List.find?_eq_head?_dropWhile_not] at h
  rw [attempts, handled, List.length_append, ← List.length_map Attempt.ofLine]
  generalize (Text.lines input).map Attempt.ofLine = as at h ⊢
  conv_rhs => rw [← List.takeWhile_append_dropWhile (p := fun a => !a.stops) (l := as)]
  cases hrest : as.dropWhile fun a => !a.stops with
  | nil => simp [hrest] at h
  | cons a rest => simp

/-- What follows the line that ends the conversation does not matter. -/
lemma attempts_append {input : List UInt8} (rest : List UInt8)
    (h : stop (input ++ [Text.lineFeed]) ≠ .ended) :
    attempts (input ++ Text.lineFeed :: rest) = attempts (input ++ [Text.lineFeed]) := by
  refine attempts_congr ?_
  have hlength := length_attempts_le h
  have hlines : Text.lines (input ++ [Text.lineFeed]) =
      (Text.pieces input).map Text.dropReturn := by
    rw [Text.lines_append]
    exact List.append_nil _
  rw [hlines] at hlength ⊢
  rw [Text.lines_append]
  exact List.take_append_of_le_length hlength

lemma run_eq_rounds (t : Terminal σ) (limit : Nat) (input : List UInt8) (m : Machine σ) :
    t.run limit input m = rounds t limit (attempts input) m := by
  unfold Terminal.run attempts handled stop
  rw [converse_eq_rounds, List.find?_eq_head?_dropWhile_not]
  generalize (Text.lines input).map Attempt.ofLine = as
  nth_rw 1 [← List.takeWhile_append_dropWhile (p := fun a => !a.stops) (l := as)]
  cases hrest : as.dropWhile fun a => !a.stops with
  | nil => simp
  | cons a rest =>
    -- The lines after the first that ends the conversation are read by neither side.
    have ha : a.stops = true := by
      have hhead := List.head?_dropWhile_not (fun a : Attempt => !a.stops) as
      rw [hrest] at hhead
      simpa using hhead
    rw [List.append_assoc, List.cons_append]
    exact rounds_append_of_stops ha _ _ m

section

variable {t : Terminal σ} {limit : Nat} {input : List UInt8} {m m' : Machine σ}
  {xs : List (Exchange σ)}

/-- The run gets to an attempt by exchanges over all before it. -/
lemma run_reaches {a : Attempt} (start : xs.map Exchange.attempt ++ [a] <+: attempts input)
    (h : Conversation t limit m xs m') :
    ∃ after, t.run limit input m = rounds t limit (a :: after) m' := by
  have hgoOn : ∀ x ∈ xs, x.attempt.stops = false := fun x hx =>
    goOn_before start _ (List.mem_map_of_mem hx)
  obtain ⟨after, hafter⟩ := start
  refine ⟨after, ?_⟩
  rw [run_eq_rounds, ← hafter, List.append_assoc]
  exact rounds_of_conversation h hgoOn (a :: after)

/-- **How a conversation ends.** It can end in one way only. -/
theorem run_eq_iff_ends {outcome : Outcome String (Machine σ) Unit} :
    t.run limit input m = outcome ↔ Ends t limit m (attempts input) outcome := by
  constructor
  · rintro rfl
    rw [run_eq_rounds]
    exact rounds_ends (fun b hb => stops_of_mem_handled hb) (stops_stop input) m
  · intro h
    cases h with
    | done attempts_eq exchanges =>
      obtain ⟨ys, zs, rfl, hys, hzs⟩ := List.map_eq_append_iff.1 attempts_eq
      obtain ⟨z, rfl, hz⟩ := List.map_eq_singleton_iff.1 hzs
      obtain ⟨m₁, hbefore, hlast⟩ := exchanges.exists_of_append
      have hstart : ys.map Exchange.attempt ++ [z.attempt] <+: attempts input := by
        rw [hys, hz]
        exact List.prefix_refl _
      obtain ⟨after, hrun⟩ := run_reaches hstart hbefore
      have hstops : z.attempt.stops = true := by rw [hz, stops_stop]
      cases hlast with
      | cons first rest =>
        cases rest
        rw [hrun, rounds, round_of_exchanged first, hstops]
        rfl
    | failed start exchanges refused =>
      obtain ⟨after, hrun⟩ := run_reaches start exchanges
      rw [hrun, rounds, round_of_refused refused]
    | exhausted start exchanges givenUp =>
      obtain ⟨after, hrun⟩ := run_reaches start exchanges
      rw [hrun, rounds, round_of_givenUp givenUp]

end

/-! ### What a conversation leaves -/

/-- What is submitted is submitted, and otherwise nothing happens. -/
lemma submits_of_answer {host : Host σ} {limit : Nat} {a : Attempt} {m m' : Machine σ} {r : Reply}
    (h : answer host limit a m = some (r, m')) :
    (∃ text, a.source? = some text ∧ Submits host limit m text m') ∨ a.source? = none ∧ m' = m := by
  cases a with
  | source text =>
    refine .inl ⟨text, rfl, ?_⟩
    rw [answer] at h
    split at h
    · next hsubmit =>
      obtain ⟨-, rfl⟩ := Prod.mk.inj (Option.some.inj h)
      exact .inl ⟨_, hsubmit⟩
    · next hsubmit =>
      obtain ⟨-, rfl⟩ := Prod.mk.inj (Option.some.inj h)
      exact .inl ⟨_, hsubmit⟩
    · next hsubmit =>
      obtain ⟨-, rfl⟩ := Prod.mk.inj (Option.some.inj h)
      exact .inr ⟨_, hsubmit⟩
    · cases h
  | _ =>
    obtain ⟨-, rfl⟩ := Prod.mk.inj (Option.some.inj h)
    exact .inr ⟨rfl, rfl⟩

section

variable {t : Terminal σ} (A : Account t) (limit : Nat)

/-- What the submission of an attempt prints. -/
def Exchange.printed (x : Exchange σ) : Texts :=
  x.attempt.source?.elim .empty (A.printed limit · x.asked)

/-- What an exchange adds to the sinks: the mark, what the submission prints, and the reply. -/
def Exchange.texts (x : Exchange σ) : Texts :=
  ⟨mark, ""⟩ ++ x.printed A limit ++ x.reply.texts

variable {limit} {m m' : Machine σ} {x : Exchange σ} {xs : List (Exchange σ)}

lemma text_of_give {r : Reply} {s s' : σ} (h : r.give t s = (.ok (), s')) :
    A.text s' = A.text s ++ r.texts := by
  cases r with
  | nothing =>
    obtain ⟨-, rfl⟩ := Prod.mk.inj h
    exact (Texts.append_empty _).symm
  | value text => exact A.write_out h
  | error text => exact A.write_err h

/-- One exchange adds its texts to the sinks. -/
lemma text_of_exchanged (h : Exchanged t limit m x m') :
    A.text m'.host = A.text m.host ++ x.texts A limit := by
  cases h with
  | @mk a r m m₁ s s₁ s₂ written flushed answered given =>
    have hasked : A.text s₁ = A.text m.host ++ ⟨mark, ""⟩ :=
      (A.flush_out flushed).trans (A.write_out written)
    have hprinted : A.text m₁.host =
        A.text s₁ ++ Exchange.printed A limit ⟨a, { m with host := s₁ }, r⟩ := by
      unfold Exchange.printed
      rcases submits_of_answer answered with ⟨text, htext, hsubmits⟩ | ⟨hnone, rfl⟩
      · rw [htext]
        exact A.text_of_submits hsubmits
      · rw [hnone]
        exact (Texts.append_empty _).symm
    calc A.text s₂ = A.text m₁.host ++ r.texts := text_of_give A given
      _ = A.text m.host ++ Exchange.texts A limit ⟨a, { m with host := s₁ }, r⟩ := by
        rw [hprinted, hasked, Exchange.texts]
        simp only [Texts.append_assoc]

/-- A conversation adds the texts of its exchanges to the sinks, in order. -/
lemma text_of_conversation (h : Conversation t limit m xs m') :
    A.text m'.host = A.text m.host ++ .join (xs.map (Exchange.texts A limit)) := by
  induction h with
  | nil => exact (Texts.append_empty _).symm
  | cons first rest ih =>
    rw [ih, text_of_exchanged A first, List.map_cons, Texts.join, Texts.append_assoc]

/-- If no call prints errors, the errors of an exchange are those of its reply. -/
lemma err_of_exchanged (hprints : ∀ call s, (A.prints call s).err = "")
    (h : Exchanged t limit m x m') : (x.texts A limit).err = x.reply.texts.err := by
  cases h with
  | @mk a r m m₁ s s₁ s₂ _ _ answered _ =>
    have hprinted : (Exchange.printed A limit ⟨a, { m with host := s₁ }, r⟩).err = "" := by
      unfold Exchange.printed
      rcases submits_of_answer answered with ⟨text, htext, hsubmits⟩ | ⟨hnone, -⟩
      · rw [htext]
        exact A.printed_err hprints hsubmits
      · rw [hnone]
        rfl
    simp [Exchange.texts, hprinted]

lemma err_of_conversation (hprints : ∀ call s, (A.prints call s).err = "")
    (h : Conversation t limit m xs m') :
    (A.text m'.host).err =
      (A.text m.host).err ++ String.join (xs.map fun x => x.reply.texts.err) := by
  induction h with
  | nil => simp
  | cons first rest ih =>
    rw [ih, text_of_exchanged A first, Texts.append_err, err_of_exchanged A hprints first,
      List.map_cons, String.join_cons, String.append_assoc]

end

section

variable {t : Terminal σ} {limit : Nat} {m m' m₁ : Machine σ} {a : Attempt} {r : Reply}
  {isOpen : σ → Prop} (h : t.Open isOpen)

include h

lemma open_of_asked {s s₁ s₂ : σ} (hopen : isOpen s)
    (written : t.out.write mark s = (.ok (), s₁)) (flushed : t.out.flush s₁ = (.ok (), s₂)) :
    isOpen s₂ := by
  have hwritten := (h.write_out mark hopen).2
  rw [written] at hwritten
  have hflushed := (h.flush_out hwritten).2
  rwa [flushed] at hflushed

lemma open_of_answered (hopen : isOpen m.host)
    (answered : answer t.host limit a m = some (r, m₁)) : isOpen m₁.host := by
  rcases submits_of_answer answered with ⟨text, -, hsubmits⟩ | ⟨-, rfl⟩
  · exact h.of_submits hsubmits hopen
  · exact hopen

lemma give_of_open (r : Reply) {s : σ} (hopen : isOpen s) :
    (r.give t s).1 = .ok () ∧ isOpen (r.give t s).2 := by
  cases r with
  | nothing => exact ⟨rfl, hopen⟩
  | value text => exact h.write_out text hopen
  | error text => exact h.write_err text hopen

lemma open_of_conversation {xs : List (Exchange σ)} (hopen : isOpen m.host)
    (hxs : Conversation t limit m xs m') : isOpen m'.host := by
  induction hxs with
  | nil => exact hopen
  | cons first rest ih =>
    refine ih ?_
    cases first with
    | @mk a r m m₁ s s₁ s₂ written flushed answered given =>
      have hgiven := give_of_open h r (open_of_answered h (open_of_asked h hopen written flushed)
        answered)
      rw [given] at hgiven
      exact hgiven.2

/-- Sinks that are open refuse nothing. -/
lemma not_refused_of_open (hopen : isOpen m.host) {e : String} : ¬Refused t limit a m e m' := by
  intro hrefused
  cases hrefused with
  | mark refused =>
    have hwritten := (h.write_out mark hopen).1
    rw [refused] at hwritten
    cases hwritten
  | flush written refused =>
    have hwritten := (h.write_out mark hopen).2
    rw [written] at hwritten
    have hflushed := (h.flush_out hwritten).1
    rw [refused] at hflushed
    cases hflushed
  | @reply r _ _ _ _ _ _ written flushed answered refused =>
    have hgiven := (give_of_open h r (open_of_answered h (open_of_asked h hopen written flushed)
      answered)).1
    rw [refused] at hgiven
    cases hgiven

end

section

variable {t : Terminal σ} {limit : Nat} {m m' u : Machine σ} {same : σ → σ → Prop}
  (h : t.Unseen same)

include h

lemma unseen_of_give (r : Reply) {s s' : σ} (hsame : same s s') : same (r.give t s).2 s' := by
  cases r with
  | nothing => exact hsame
  | value text => exact h.write_out text hsame
  | error text => exact h.write_err text hsame

/-- An exchange is a submission, or none, for a machine that the sinks are left alone on. -/
lemma session_of_exchanged {x : Exchange σ} (hx : Exchanged t limit m x m') (henv : m.env = u.env)
    (hsame : same m.host u.host) :
    ∃ u', Session t.host limit u ([x.attempt].filterMap Attempt.source?) u' ∧ m'.env = u'.env ∧
      same m'.host u'.host := by
  cases hx with
  | @mk a r m m₁ s s₁ s₂ written flushed answered given =>
    have hasked : same s₁ u.host := by
      have hwritten := h.write_out mark hsame
      rw [written] at hwritten
      have hflushed := h.flush_out hwritten
      rwa [flushed] at hflushed
    have hgiven : ∀ {s'}, same m₁.host s' → same s₂ s' := by
      intro s' hs'
      have hgive := unseen_of_give h r hs'
      rwa [given] at hgive
    rcases submits_of_answer answered with ⟨text, htext, hsubmits⟩ | ⟨hnone, rfl⟩
    · obtain ⟨u', hsubmits', henv', hsame'⟩ := hsubmits.same h.answers henv hasked
      have hsession : Session t.host limit u ([a].filterMap Attempt.source?) u' := by
        rw [List.filterMap_cons_some htext]
        exact .submit .nil hsubmits'
      exact ⟨u', hsession, henv', hgiven hsame'⟩
    · have hsession : Session t.host limit u ([a].filterMap Attempt.source?) u := by
        rw [List.filterMap_cons_none hnone]
        exact .nil
      exact ⟨u, hsession, henv, hgiven hasked⟩

/-- A conversation is a session of its submissions. -/
lemma session_of_conversation {xs : List (Exchange σ)} (hxs : Conversation t limit m xs m')
    (henv : m.env = u.env) (hsame : same m.host u.host) :
    ∃ u', Session t.host limit u ((xs.map Exchange.attempt).filterMap Attempt.source?) u' ∧
      m'.env = u'.env := by
  induction hxs generalizing u with
  | nil => exact ⟨u, .nil, henv⟩
  | @cons _ _ _ x xs first rest ih =>
    obtain ⟨u₁, hfirst, henv₁, hsame₁⟩ := session_of_exchanged h first henv hsame
    obtain ⟨u', hrest, henv'⟩ := ih henv₁ hsame₁
    refine ⟨u', ?_, henv'⟩
    rw [List.map_cons, ← List.singleton_append, List.filterMap_append]
    exact hfirst.trans hrest

end

/-- The terminal whose output takes a number of texts, and then breaks. -/
def breaking : Terminal Nat where
  host := ⟨fun _ _ left => (.ok .void, left)⟩
  out := .ofWrite fun _ left => if left = 0 then .error "broken" else .ok (left - 1)
  err := .ofWrite fun _ left => .ok left

/-- A machine with open buffers, on which the function that prints is bound to `p`. -/
def printingOn (out err : String) (calls : Nat) (log : List LogEntry) : Machine World :=
  ⟨⟨[], ⟨[⟨"p", .external, .native ⟨"print", 0⟩⟩]⟩⟩,
    ⟨⟨out, false⟩, ⟨err, false⟩, [(.print false, calls)]⟩, log⟩

end Prompt

end Flame
