import Flame.Text.Place
import Mathlib.Data.List.TakeWhile
import Mathlib.Tactic.Lemma

/-!
What a line and a column stand for.

A text splits at its line feeds into lines. A place leads to a part of the text in the way a reader
would follow it: down to the line of that number, and past as many characters of it as the column
says. The place right after some characters of a text leads to what comes after them.
-/

namespace Flame

namespace Text

/-- The place leads to `rest`: the text splits into lines, those above the place's own, its own, of
which the characters `left` come before its column, and those below. -/
def Place.LeadsTo (p : Place) (text rest : List Char) : Prop :=
  ∃ above left right below, text.splitOn '\n' = above ++ (left ++ right) :: below ∧
    p = ⟨above.length + 1, left.length + 1⟩ ∧ rest = ['\n'].intercalate (right :: below)

lemma Place.LeadsTo.line_le {p : Place} {text rest : List Char} (h : p.LeadsTo text rest) :
    1 ≤ p.line ∧ p.line ≤ (text.splitOn '\n').length := by
  obtain ⟨above, left, right, below, hsplit, rfl, -⟩ := h
  rw [hsplit, List.length_append, List.length_cons]
  exact ⟨Nat.le_add_left 1 _, by dsimp only; omega⟩

/-- Lines with a line feed after each. -/
def endedLines (ls : List (List Char)) : List Char := ls.flatMap (· ++ ['\n'])

@[simp] lemma endedLines_nil : endedLines [] = [] := rfl

@[simp] lemma endedLines_cons (l : List Char) (ls : List (List Char)) :
    endedLines (l :: ls) = l ++ '\n' :: endedLines ls := by
  simp [endedLines]

/-- Every text consists of lines that end, and the characters after them. -/
lemma exists_endedLines (u : List Char) :
    ∃ ls last, u = endedLines ls ++ last ∧ (∀ l ∈ ls, '\n' ∉ l) ∧ '\n' ∉ last := by
  induction u with
  | nil => exact ⟨[], [], rfl, by simp, by simp⟩
  | cons c u ih =>
    obtain ⟨ls, last, rfl, hls, hlast⟩ := ih
    by_cases hc : c = '\n'
    · exact ⟨[] :: ls, last, by simp [hc], by simpa using hls, hlast⟩
    · cases ls with
      | nil => exact ⟨[], c :: last, rfl, by simp, by simp [Ne.symm hc, hlast]⟩
      | cons l ls =>
        rw [List.forall_mem_cons] at hls
        refine ⟨(c :: l) :: ls, last, by simp, List.forall_mem_cons.2 ⟨?_, hls.2⟩, hlast⟩
        simp [Ne.symm hc, hls.1]

lemma count_endedLines {ls : List (List Char)} (hls : ∀ l ∈ ls, '\n' ∉ l) :
    (endedLines ls).count '\n' = ls.length := by
  induction ls with
  | nil => rfl
  | cons l ls ih =>
    rw [List.forall_mem_cons] at hls
    rw [endedLines_cons, List.count_append, List.count_eq_zero.2 hls.1, List.count_cons_self,
      ih hls.2, List.length_cons, Nat.zero_add]

lemma takeWhile_reverse_endedLines (ls : List (List Char)) :
    (endedLines ls).reverse.takeWhile (· ≠ '\n') = [] := by
  rcases List.eq_nil_or_concat ls with rfl | ⟨ls, l, rfl⟩
  · rfl
  · simp [endedLines]

/-- The place after some lines and some characters. -/
lemma Place.after_endedLines {ls : List (List Char)} {last : List Char}
    (hls : ∀ l ∈ ls, '\n' ∉ l) (hlast : '\n' ∉ last) :
    Place.after (endedLines ls ++ last) = ⟨ls.length + 1, last.length + 1⟩ := by
  have hpass : ∀ c ∈ last.reverse, decide (c ≠ '\n') = true := by
    intro c hc
    rw [decide_eq_true_eq]
    rintro rfl
    exact hlast (List.mem_reverse.1 hc)
  rw [Place.after, List.count_append, count_endedLines hls, List.count_eq_zero.2 hlast,
    List.reverse_append, List.takeWhile_append_of_pos hpass, takeWhile_reverse_endedLines,
    List.append_nil, List.length_reverse, Nat.add_zero]

lemma splitOn_endedLines {ls : List (List Char)} (hls : ∀ l ∈ ls, '\n' ∉ l) (v : List Char) :
    (endedLines ls ++ v).splitOn '\n' = ls ++ v.splitOn '\n' := by
  induction ls with
  | nil => rfl
  | cons l ls ih =>
    rw [List.forall_mem_cons] at hls
    rw [endedLines_cons, List.append_assoc, List.cons_append,
      List.splitOn_append_cons_self_of_not_mem hls.1, ih hls.2, List.cons_append]

/-- Characters other than a line feed belong to the first line of what comes after them. -/
lemma splitOn_append_of_not_mem {u v r : List Char} {below : List (List Char)} (hu : '\n' ∉ u)
    (hv : v.splitOn '\n' = r :: below) : (u ++ v).splitOn '\n' = (u ++ r) :: below := by
  induction u with
  | nil => exact hv
  | cons c u ih =>
    rw [List.mem_cons, not_or] at hu
    obtain ⟨hc, hu⟩ := hu
    have hne : ¬(c == '\n') = true := by simpa using Ne.symm hc
    rw [List.cons_append, List.splitOn_cons_eq_if_modifyHead, if_neg hne, ih hu]
    rfl

/-- **Places.** The place right after the first characters of a text leads to the rest of it. -/
theorem Place.leadsTo_after (before rest : List Char) :
    (Place.after before).LeadsTo (before ++ rest) rest := by
  obtain ⟨above, left, rfl, habove, hleft⟩ := exists_endedLines before
  obtain ⟨right, below, hrest⟩ := List.exists_cons_of_ne_nil (List.splitOn_ne_nil '\n' rest)
  refine ⟨above, left, right, below, ?_, Place.after_endedLines habove hleft, ?_⟩
  · rw [List.append_assoc, splitOn_endedLines habove, splitOn_append_of_not_mem hleft hrest]
  · rw [← hrest, List.intercalate_splitOn]

end Text

end Flame
