import Flame.Proofs.Descent
import Flame.Proofs.EarliestError

/-!
Where a cursor can be moved.

A cursor keeps the tokens behind it and those ahead of it apart, and so it has no index that could
go wrong. Seen as an index, its position is always that of a token of the stream, the sentinel being
the last; and what an operation gives, and whether and how far it moves, is told by the position and
the stream alone. An offset leads to a token if and only if the sum of the two is the index of one.
The sum is an exact one. It may also be taken in machine words, if what does not fit is noticed.
-/

namespace Flame

/-! ### Sums of words -/

/-- The sum of an unsigned and a signed number, if it fits in 64 bits. The words are added as they
are. They carry over if the signed number is negative and the sum is not, or if neither is and the
sum is too great. -/
def addSigned? (n : UInt64) (offset : Int64) : Option UInt64 :=
  let sum := n + offset.toUInt64
  if decide (sum < n) = decide (offset < 0) then some sum else none

/-- The word of a signed number, taken as an unsigned one. -/
lemma toNat_toUInt64 (offset : Int64) :
    (offset.toUInt64.toNat : Int) =
      if offset.toInt < 0 then offset.toInt + 2 ^ 64 else offset.toInt := by
  have hint : offset.toInt = (offset.toUInt64.toNat : Int).bmod (2 ^ 64) :=
    BitVec.toInt_eq_toNat_bmod offset.toBitVec
  have hlt := offset.toUInt64.toNat_lt
  rw [hint, Int.bmod_def]
  split <;> split <;> omega

lemma addSigned?_eq_some_iff {n k : UInt64} {offset : Int64} :
    addSigned? n offset = some k ↔ (k.toNat : Int) = n.toNat + offset.toInt := by
  have hn := n.toNat_lt
  have hk := k.toNat_lt
  have hle := offset.toInt_lt
  have hge := offset.le_toInt
  have hword := toNat_toUInt64 offset
  have hsum : (n + offset.toUInt64).toNat = (n.toNat + offset.toUInt64.toNat) % 2 ^ 64 :=
    UInt64.toNat_add n offset.toUInt64
  have hneg : offset < 0 ↔ offset.toInt < 0 := by rw [Int64.lt_iff_toInt_lt, Int64.toInt_zero]
  unfold addSigned?
  simp only [Option.ite_none_right_eq_some, Option.some.injEq, decide_eq_decide,
    UInt64.lt_iff_toNat_lt, ← UInt64.toNat_inj, hneg, hsum]
  split at hword <;> omega

namespace Cursor

/-! ### Offsets -/

section

variable {ts : TokenStream} {c : Cursor} {offset : Int}

lemma StandsIn.toList_eq (h : c.StandsIn ts) :
    ts.toList = c.behind.reverse ++ (c.ahead ++ [c.sentinel]) := by
  obtain ⟨w, hw⟩ := h
  have hbody : ts.body = w ++ c.ahead := hw.ahead
  have hbehind : c.behind = w.reverse := by simpa [start] using hw.behind
  have heof : c.eof = ts.eof := hw.eof
  rw [TokenStream.toList, hbody, hbehind, List.reverse_reverse, List.append_assoc, sentinel, heof]

/-- The token at an offset is the one whose index is the sum of the position and the offset. -/
lemma StandsIn.token?_eq (h : c.StandsIn ts) {i : Nat} (hi : c.position + offset = i) :
    c.token? offset = ts.toList[i]? := by
  rw [h.toList_eq]
  unfold position at hi
  cases offset with
  | ofNat n =>
    obtain rfl : i = c.behind.length + n := by
      rw [Int.ofNat_eq_natCast] at hi
      omega
    rw [List.getElem?_append_right (by simp), List.length_reverse, Nat.add_sub_cancel_left, token?]
    rcases Nat.lt_trichotomy n c.ahead.length with hlt | rfl | hgt
    · rw [List.drop_eq_getElem_cons hlt, List.getElem?_append_left hlt,
        List.getElem?_eq_getElem hlt]
    · simp
    · rw [List.drop_eq_nil_of_le (Nat.le_of_lt hgt), List.getElem?_eq_none (by simp; omega)]
      exact if_neg (Nat.ne_of_gt hgt)
  | negSucc n =>
    have hlt : n < c.behind.length := by omega
    rw [token?, List.getElem?_append_left (by simp; omega), List.getElem?_reverse (by omega)]
    congr 1
    omega

/-- No token is before the first. -/
lemma token?_of_neg (h : c.position + offset < 0) : c.token? offset = none := by
  unfold position at h
  cases offset with
  | ofNat n =>
    rw [Int.ofNat_eq_natCast] at h
    omega
  | negSucc n => exact List.getElem?_eq_none (by omega)

/-- The sum of the position and the offset is the index of a token. -/
def Reaches (c : Cursor) (offset : Int) (ts : TokenStream) : Prop :=
  0 ≤ c.position + offset ∧ c.position + offset < ts.size

instance (c : Cursor) (offset : Int) (ts : TokenStream) : Decidable (c.Reaches offset ts) :=
  inferInstanceAs (Decidable (_ ∧ _))

lemma StandsIn.token?_of_reaches (h : c.StandsIn ts) (hreaches : c.Reaches offset ts) :
    ∃ (i : Nat) (t : Token), c.position + offset = i ∧ ts.toList[i]? = some t ∧
      c.token? offset = some t := by
  obtain ⟨i, hi⟩ := Int.eq_ofNat_of_zero_le hreaches.1
  have hlt : i < ts.toList.length := by
    have hsize := hreaches.2
    rw [hi, TokenStream.size] at hsize
    exact_mod_cast hsize
  refine ⟨i, ts.toList[i], hi, List.getElem?_eq_getElem hlt, ?_⟩
  rw [h.token?_eq hi, List.getElem?_eq_getElem hlt]

lemma StandsIn.token?_of_not_reaches (h : c.StandsIn ts) (hreaches : ¬c.Reaches offset ts) :
    c.token? offset = none := by
  rcases lt_or_ge ((c.position : Int) + offset) 0 with hneg | hpos
  · exact token?_of_neg hneg
  · obtain ⟨i, hi⟩ := Int.eq_ofNat_of_zero_le hpos
    rw [h.token?_eq hi, List.getElem?_eq_none]
    by_contra hlt
    refine hreaches ⟨hpos, ?_⟩
    rw [hi, TokenStream.size]
    exact_mod_cast Nat.lt_of_not_ge hlt

/-! ### Shifting -/

/-- What is shifted from the one side to the other stays in its order. -/
lemma StandsIn.shift (h : c.StandsIn ts) (offset : Int) : (c.shift offset).StandsIn ts := by
  cases offset with
  | ofNat n =>
    refine h.of_passes (w := c.ahead.take n) ⟨?_, rfl, rfl⟩
    exact (List.take_append_drop n c.ahead).symm
  | negSucc n =>
    obtain ⟨w, hw⟩ := h
    have hbehind : c.behind = w.reverse := by simpa [start] using hw.behind
    have hsplit : w = (c.behind.drop (n + 1)).reverse ++ (c.behind.take (n + 1)).reverse := by
      rw [← List.reverse_append, List.take_append_drop, hbehind, List.reverse_reverse]
    refine ⟨(c.behind.drop (n + 1)).reverse, ⟨?_, ?_, hw.eof⟩⟩
    · rw [hw.ahead, hsplit, List.append_assoc]
      rfl
    · simp [start, Cursor.shift]

lemma StandsIn.position_lt (h : c.StandsIn ts) : c.position < ts.size := by
  obtain ⟨w, hw⟩ := h
  exact (List.getElem?_eq_some_iff.1 (TokenStream.getElem?_toList_of_passes hw)).1

lemma StandsIn.position_shift (h : c.StandsIn ts) (hreaches : c.Reaches offset ts) :
    ((c.shift offset).position : Int) = c.position + offset := by
  have hsize : ts.size = c.behind.length + (c.ahead.length + 1) := by
    rw [TokenStream.size, h.toList_eq]
    simp
  obtain ⟨hpos, hlt⟩ := hreaches
  rw [hsize] at hlt
  unfold position at hpos hlt ⊢
  cases offset with
  | ofNat n =>
    simp only [Cursor.shift, List.length_append, List.length_reverse, List.length_take,
      Int.ofNat_eq_natCast] at hlt ⊢
    omega
  | negSucc n =>
    simp only [Cursor.shift, List.length_drop]
    omega

/-! ### Operations -/

/-- Looking and moving by an offset succeed together, and exactly if the offset leads to a token. -/
lemma StandsIn.peek_seek (h : c.StandsIn ts) (offset : Int) :
    if c.Reaches offset ts then
      ∃ (i : Nat) (t : Token) (c' : Cursor), c.position + offset = i ∧ ts.toList[i]? = some t ∧
        c.peek offset = .ok t ∧ c.seek offset = (.ok t, c') ∧ c'.position = i
    else
      c.peek offset = .error (.exhausted c.position offset) ∧
        c.seek offset = (.error (.exhausted c.position offset), c) := by
  split
  · next hreaches =>
    obtain ⟨i, t, hi, ht, htoken⟩ := h.token?_of_reaches hreaches
    refine ⟨i, t, c.shift offset, hi, ht, by rw [peek, htoken], by rw [seek, htoken], ?_⟩
    exact_mod_cast (h.position_shift hreaches).trans hi
  · next hreaches =>
    have htoken := h.token?_of_not_reaches hreaches
    exact ⟨by rw [peek, htoken], by rw [seek, htoken]⟩

/-- Looking by a word is looking where the sum of words leads, if the stream can be counted in one
word. -/
lemma StandsIn.peek_word (h : c.StandsIn ts) (hsize : ts.size ≤ 2 ^ 64) (offset : Int64) :
    (c.peek offset.toInt).toOption =
      (addSigned? (.ofNat c.position) offset).bind (ts.toList[·.toNat]?) := by
  have hpeek : (c.peek offset.toInt).toOption = c.token? offset.toInt := by
    unfold peek
    cases c.token? offset.toInt <;> rfl
  have hposition : (UInt64.ofNat c.position).toNat = c.position := by
    have hlt := h.position_lt
    exact UInt64.toNat_ofNat_of_lt' (by unfold UInt64.size; omega)
  rw [hpeek]
  cases hsum : addSigned? (.ofNat c.position) offset with
  | some k =>
    rw [addSigned?_eq_some_iff, hposition] at hsum
    exact h.token?_eq hsum.symm
  | none =>
    refine h.token?_of_not_reaches fun hreaches => ?_
    obtain ⟨i, hi⟩ := Int.eq_ofNat_of_zero_le hreaches.1
    have hlt := hreaches.2
    rw [hi] at hlt
    have hk : (UInt64.ofNat i).toNat = i :=
      UInt64.toNat_ofNat_of_lt' (by unfold UInt64.size; omega)
    have hsome : addSigned? (.ofNat c.position) offset = some (.ofNat i) := by
      rw [addSigned?_eq_some_iff, hposition, hk, hi]
    rw [hsum] at hsome
    cases hsome

/-- Taking a token succeeds exactly if the current one is not the sentinel. -/
lemma StandsIn.advance_eq (h : c.StandsIn ts) :
    if c.kind = .eof then c.advance = (.error (.exhausted c.position 1), c)
    else ∃ c', c.Passes [c.current] c' ∧ c.advance = (.ok c.current, c') := by
  obtain ⟨w, hw⟩ := h
  have hend := TokenStream.current_kind_eq_eof_iff hw
  cases hahead : c.ahead with
  | nil => rw [if_pos (hend.2 hahead), advance, hahead]
  | cons t rest =>
    have hcurrent : c.current = t := by rw [current, hahead]
    rw [if_neg fun hkind => List.cons_ne_nil t rest (hahead ▸ hend.1 hkind), hcurrent]
    exact ⟨⟨t :: c.behind, rest, c.eof⟩, ⟨hahead, rfl, rfl⟩, by rw [advance, hahead]⟩

lemma Passes.position_succ {t : Token} {c' : Cursor} (h : c.Passes [t] c') :
    c'.position = c.position + 1 := by
  rw [position, h.behind]
  rfl

/-- Requiring a kind takes the current token, whatever its kind. -/
lemma StandsIn.expect_eq (h : c.StandsIn ts) (k : Kind) :
    if c.kind = .eof then c.expect k = (.error (.exhausted c.position 1), c)
    else ∃ c', c.Passes [c.current] c' ∧
      c.expect k = (if c.kind = k then .ok c.current else
        .error (.unexpected k c.kind c.current.span), c') := by
  have hadvance := h.advance_eq
  split at hadvance
  · next hend => rw [if_pos hend, Cursor.expect, hadvance]
  · next hend =>
    obtain ⟨c', hpasses, hadvance⟩ := hadvance
    rw [if_neg hend]
    refine ⟨c', hpasses, ?_⟩
    rw [Cursor.expect, hadvance]
    rfl

/-- Accepting a kind takes the current token if it is of that kind and not the sentinel. -/
lemma StandsIn.expect?_eq (h : c.StandsIn ts) (k : Kind) :
    if c.kind = k ∧ k ≠ .eof then
      ∃ c', c.Passes [c.current] c' ∧ c.expect? k = (some c.current, c')
    else c.expect? k = (none, c) := by
  have hadvance := h.advance_eq
  split
  · next htakes =>
    rw [htakes.1, if_neg htakes.2] at hadvance
    obtain ⟨c', hpasses, -⟩ := hadvance
    exact ⟨c', hpasses, expect?_of_passes hpasses htakes.1⟩
  · next hstays =>
    by_cases hkind : c.kind = k
    · obtain rfl : k = .eof := by
        by_contra hne
        exact hstays ⟨hkind, hne⟩
      obtain ⟨w, hw⟩ := h
      rw [expect?, (TokenStream.current_kind_eq_eof_iff hw).1 hkind]
    · exact expect?_of_kind_ne hkind

end

/-! ### Any number of operations -/

/-- What can be asked of a cursor. -/
inductive Move
  | peek (offset : Int)
  | seek (offset : Int)
  | advance
  | expect (kind : Kind)
  | accept (kind : Kind)

/-- The cursor after an operation, whether or not that succeeded. -/
def Move.apply (c : Cursor) : Move → Cursor
  | peek _ => c
  | seek offset => (c.seek offset).2
  | advance => c.advance.2
  | expect kind => (c.expect kind).2
  | accept kind => (c.expect? kind).2

lemma StandsIn.apply {ts : TokenStream} {c : Cursor} (h : c.StandsIn ts) (move : Move) :
    (move.apply c).StandsIn ts := by
  cases move with
  | peek offset => exact h
  | seek offset =>
    change (c.seek offset).2.StandsIn ts
    unfold seek
    split
    · exact h.shift offset
    · exact h
  | advance =>
    have hadvance := h.advance_eq
    change c.advance.2.StandsIn ts
    split at hadvance
    · rwa [hadvance]
    · obtain ⟨c', hpasses, hadvance⟩ := hadvance
      rw [hadvance]
      exact h.of_passes hpasses
  | expect kind => exact h.expect kind
  | accept kind =>
    have haccept := h.expect?_eq kind
    change (c.expect? kind).2.StandsIn ts
    split at haccept
    · obtain ⟨c', hpasses, haccept⟩ := haccept
      rw [haccept]
      exact h.of_passes hpasses
    · rwa [haccept]

lemma StandsIn.foldl_apply {ts : TokenStream} {c : Cursor} (h : c.StandsIn ts)
    (moves : List Move) : (moves.foldl Move.apply c).StandsIn ts := by
  induction moves generalizing c with
  | nil => exact h
  | cons move moves ih => exact ih (h.apply move)

/-- **Moving about.** After any operations on a cursor, its position is the index of a token, the
current one, and it is the last index if and only if that is the sentinel. From there, looking and
moving by an offset succeed if and only if the exact sum is such an index, and both give the token
there; else both fail and name the sum's two parts. A token is taken unless it is the sentinel; one
that is required to be of a kind is taken also if it is of another; one that is accepted only if it
is of the kind, and is then not the sentinel. What fails in another way does not move. Where
positions and offsets are words, adding them with a check comes to the same. -/
theorem moves_stay_in_stream (ts : TokenStream) (moves : List Move) :
    let c := moves.foldl Move.apply (start ts)
    (c.position < ts.size ∧ ts.toList[c.position]? = some c.current) ∧
    (c.kind = .eof ↔ c.position + 1 = ts.size) ∧
    (∀ offset : Int,
      if 0 ≤ c.position + offset ∧ c.position + offset < ts.size then
        ∃ (i : Nat) (t : Token) (c' : Cursor), c.position + offset = i ∧ ts.toList[i]? = some t ∧
          c.peek offset = .ok t ∧ c.seek offset = (.ok t, c') ∧ c'.position = i
      else
        c.peek offset = .error (.exhausted c.position offset) ∧
          c.seek offset = (.error (.exhausted c.position offset), c)) ∧
    (if c.kind = .eof then c.advance = (.error (.exhausted c.position 1), c)
      else ∃ c', c.advance = (.ok c.current, c') ∧ c'.position = c.position + 1) ∧
    (∀ k, if c.kind = .eof then c.expect k = (.error (.exhausted c.position 1), c)
      else ∃ c', c'.position = c.position + 1 ∧
        c.expect k = (if c.kind = k then .ok c.current else
          .error (.unexpected k c.kind c.current.span), c')) ∧
    (∀ k, if c.kind = k ∧ k ≠ .eof then
        ∃ c', c.expect? k = (some c.current, c') ∧ c'.position = c.position + 1
      else c.expect? k = (none, c)) ∧
    (ts.size ≤ 2 ^ 64 → ∀ offset : Int64, (c.peek offset.toInt).toOption =
      (addSigned? (.ofNat c.position) offset).bind (ts.toList[·.toNat]?)) := by
  intro c
  have h : c.StandsIn ts := StandsIn.foldl_apply ⟨[], .refl _⟩ moves
  have ⟨w, hw⟩ := h
  have hadvance := h.advance_eq
  refine ⟨⟨h.position_lt, TokenStream.getElem?_toList_of_passes hw⟩, ?_, h.peek_seek, ?_,
    fun k => ?_, fun k => ?_, h.peek_word⟩
  · rw [TokenStream.current_kind_eq_eof_iff hw, TokenStream.ahead_eq_nil_iff hw,
      TokenStream.size_eq, Nat.add_right_cancel_iff]
  · split at hadvance
    · next hend => rwa [if_pos hend]
    · next hend =>
      obtain ⟨c', hpasses, hadvance⟩ := hadvance
      rw [if_neg hend]
      exact ⟨c', hadvance, hpasses.position_succ⟩
  · have hexpect := h.expect_eq k
    split at hexpect
    · next hend => rwa [if_pos hend]
    · next hend =>
      obtain ⟨c', hpasses, hexpect⟩ := hexpect
      rw [if_neg hend]
      exact ⟨c', hpasses.position_succ, hexpect⟩
  · have haccept := h.expect?_eq k
    split at haccept
    · next htakes =>
      obtain ⟨c', hpasses, haccept⟩ := haccept
      rw [if_pos htakes]
      exact ⟨c', haccept, hpasses.position_succ⟩
    · next hstays => rwa [if_neg hstays]

/-- Past a token that was required to be another, the sentinel is not accepted. The offsets furthest
away lead nowhere; in words, the sum with the greater fits and that with the smaller does not. -/
theorem moves_stay_in_stream_far_offsets :
    let ts := TokenStream.ofTokens [⟨"a", .identifier, ⟨0, 1⟩⟩] 1
    let c := [Move.seek 1, .seek (-1), .expect (.symbol .comma), .accept .eof].foldl Move.apply
      (start ts)
    ts.size ≤ 2 ^ 64 ∧ c.position = 1 ∧ c.kind = .eof ∧
      addSigned? 1 Int64.maxValue = some 9223372036854775808 ∧
      (c.peek Int64.maxValue.toInt).toOption = none ∧
      addSigned? 1 Int64.minValue = none ∧ (c.peek Int64.minValue.toInt).toOption = none := by
  intro ts c
  have hsize : ts.size ≤ 2 ^ 64 := by decide
  have hposition : c.position = 1 := rfl
  obtain ⟨-, hend, -, -, -, -, hwords⟩ := moves_stay_in_stream ts
    [.seek 1, .seek (-1), .expect (.symbol .comma), .accept .eof]
  refine ⟨hsize, hposition, hend.2 rfl, by decide, ?_, by decide, ?_⟩
  · exact (hwords hsize Int64.maxValue).trans (by decide)
  · exact (hwords hsize Int64.minValue).trans (by decide)

end Cursor

end Flame
