import Flame.Proofs.SideBySide
import Mathlib.Data.Int.ModEq

/-!
Arithmetic on 64 bits against arithmetic on the integers.

A tree of numbers and operators has an exact value, for which nothing is cut off: sums, differences
and products grow without bound, and only a division first reduces its operands to 64 bits. The
machine reduces after every operator. It gets the same in the end, since to reduce goes well with
sums, differences and products, and since a quotient is that of reduced operands in both. The one
quotient of 64-bit numbers that does not fit, of the least number and minus one, is reduced like
everything else.

A tree has no exact value just if evaluation, from left to right, comes to a division by zero.
-/

namespace Flame

variable {σ : Type}

/-! ### Exact values -/

/-- Trees of numbers and of operators that are allowed. -/
inductive Expr.Numeric (allowed : Operator → Prop) : Expr → Prop
  | int (n : Int64) : Numeric allowed (.int n)
  | binary {op : Operator} {l r : Expr} (hop : allowed op) (left : Numeric allowed l)
      (right : Numeric allowed r) : Numeric allowed (.binary op l r)

/-- The value of a tree without divisions, in the integers. -/
def Expr.exact : Expr → Int
  | .int n => n.toInt
  | .binary .add l r => l.exact + r.exact
  | .binary .sub l r => l.exact - r.exact
  | .binary .mul l r => l.exact * r.exact
  | _ => 0

/-- The signed 64-bit number that an integer becomes when its higher bits are dropped. -/
def reduced (z : Int) : Int := z.bmod Int64.size

/-- The tree has the exact value `z`. A quotient is that of reduced operands, cut off toward zero,
and there is none if the divisor is reduced to zero. -/
inductive Expr.Denotes : Expr → Int → Prop
  | int (n : Int64) : Denotes (.int n) n.toInt
  | add {l r : Expr} {a b : Int} (left : Denotes l a) (right : Denotes r b) :
      Denotes (.binary .add l r) (a + b)
  | sub {l r : Expr} {a b : Int} (left : Denotes l a) (right : Denotes r b) :
      Denotes (.binary .sub l r) (a - b)
  | mul {l r : Expr} {a b : Int} (left : Denotes l a) (right : Denotes r b) :
      Denotes (.binary .mul l r) (a * b)
  | div {l r : Expr} {a b : Int} (left : Denotes l a) (right : Denotes r b)
      (hb : reduced b ≠ 0) : Denotes (.binary .div l r) ((reduced a).tdiv (reduced b))

/-- Evaluation of a tree from left to right comes to a part of it: all that stands before the part
has a value. -/
inductive Expr.ComesTo : Expr → Expr → Prop
  | here {e : Expr} : ComesTo e e
  | left {op : Operator} {l r d : Expr} (h : ComesTo l d) : ComesTo (.binary op l r) d
  | right {op : Operator} {l r d : Expr} {a : Int} (hl : l.Denotes a) (h : ComesTo r d) :
      ComesTo (.binary op l r) d

/-- Evaluation comes to a division whose operands have values, that of the right one being zero. -/
def Expr.DividesByZero (e : Expr) : Prop :=
  ∃ l r a b, e.ComesTo (.binary .div l r) ∧ l.Denotes a ∧ r.Denotes b ∧ reduced b = 0

/-! ### Numbers of 64 bits -/

lemma toInt_ofInt_eq_reduced (z : Int) : (Int64.ofInt z).toInt = reduced z := Int64.toInt_ofInt

/-- A 64-bit number is congruent to an integer just if it is the integer with its higher bits
dropped. -/
lemma toInt_modEq_iff {n : Int64} {z : Int} :
    n.toInt ≡ z [ZMOD 2 ^ 64] ↔ n = Int64.ofInt z := by
  constructor
  · intro h
    have hbmod : n.toInt.bmod (2 ^ 64) = z.bmod (2 ^ 64) := by
      rw [← Int.emod_bmod n.toInt, ← Int.emod_bmod z]
      exact congrArg (Int.bmod · (2 ^ 64)) h
    have hn : Int64.ofInt n.toInt = n := n.ofInt_toInt
    rw [← hn, Int64.ofInt_eq_iff_bmod_eq_toInt, hbmod]
    exact Int64.toInt_ofInt.symm
  · rintro rfl
    rw [toInt_ofInt_eq_reduced, reduced]
    exact Int.bmod_emod

lemma ofInt_eq_zero_iff {z : Int} : Int64.ofInt z = 0 ↔ reduced z = 0 := by
  rw [← toInt_ofInt_eq_reduced, ← Int64.toInt_inj, Int64.toInt_zero]

lemma ofInt_div_ofInt (a b : Int) :
    Int64.ofInt a / Int64.ofInt b = Int64.ofInt ((reduced a).tdiv (reduced b)) := by
  rw [← Int64.toInt_inj, Int64.toInt_div, toInt_ofInt_eq_reduced, toInt_ofInt_eq_reduced,
    toInt_ofInt_eq_reduced]
  rfl

/-! ### Evaluation -/

section

variable {host : Host σ} {call : FunctionDef → List Value → Run σ TypedValue}
  {calls : List String} {m : Machine σ} {op : Operator} {l r : Expr}

/-- The number that a tree gives, if it gives one and changes nothing. -/
def GivesNumber (host : Host σ) (call : FunctionDef → List Value → Run σ TypedValue)
    (calls : List String) (m : Machine σ) (e : Expr) (n : Int64) : Prop :=
  evalExpr host call e calls m = .done ⟨.int, .int n⟩ m

lemma GivesNumber.binary {a b c : Int64} (hl : GivesNumber host call calls m l a)
    (hr : GivesNumber host call calls m r b) (hc : op.compute a b = .ok c) :
    GivesNumber host call calls m (.binary op l r) c := by
  have happly : op.apply ⟨.int, .int a⟩ ⟨.int, .int b⟩ = .ok c := hc
  rw [GivesNumber, evalExpr, Run.bind_of_done hl, Run.bind_of_done hr, happly]
  rfl

lemma GivesNumber.binary_error {a b : Int64} {e : RuntimeError}
    (hl : GivesNumber host call calls m l a) (hr : GivesNumber host call calls m r b)
    (he : op.compute a b = .error e) :
    evalExpr host call (.binary op l r) calls m = .failed e m := by
  have happly : op.apply ⟨.int, .int a⟩ ⟨.int, .int b⟩ = .error e := he
  rw [evalExpr, Run.bind_of_done hl, Run.bind_of_done hr, happly]
  rfl

/-- A tree with an exact value gives it, reduced. -/
lemma Expr.Denotes.givesNumber {e : Expr} {z : Int} (h : e.Denotes z) :
    GivesNumber host call calls m e (Int64.ofInt z) := by
  induction h with
  | int n =>
    rw [GivesNumber, evalExpr, Int64.ofInt_toInt]
    rfl
  | add _ _ ihl ihr =>
    rw [Int64.ofInt_add]
    exact ihl.binary ihr rfl
  | sub _ _ ihl ihr =>
    rw [Int64.ofInt_sub]
    exact ihl.binary ihr rfl
  | mul _ _ ihl ihr =>
    rw [Int64.ofInt_mul]
    exact ihl.binary ihr rfl
  | div _ _ hb ihl ihr =>
    rw [← ofInt_div_ofInt]
    refine ihl.binary ihr ?_
    rw [Operator.compute, if_neg (mt ofInt_eq_zero_iff.1 hb)]

/-- What fails in a part that evaluation comes to fails in the whole. -/
lemma Expr.ComesTo.failed {e d : Expr} {err : RuntimeError} (h : e.ComesTo d)
    (hd : evalExpr host call d calls m = .failed err m) :
    evalExpr host call e calls m = .failed err m := by
  induction h with
  | here => exact hd
  | left _ ih =>
    rw [evalExpr]
    exact Run.bind_of_failed (ih hd)
  | right hl _ ih =>
    rw [evalExpr, Run.bind_of_done hl.givesNumber]
    exact Run.bind_of_failed (ih hd)

lemma Expr.DividesByZero.failed {e : Expr} (h : e.DividesByZero) :
    evalExpr host call e calls m = .failed .divisionByZero m := by
  obtain ⟨l, r, a, b, hcomes, hl, hr, hb⟩ := h
  refine hcomes.failed (hl.givesNumber.binary_error hr.givesNumber ?_)
  rw [Operator.compute, if_pos (ofInt_eq_zero_iff.2 hb)]

end

lemma Expr.DividesByZero.left {op : Operator} {l r : Expr} (h : l.DividesByZero) :
    (Expr.binary op l r).DividesByZero := by
  obtain ⟨l', r', a, b, hcomes, hvalues⟩ := h
  exact ⟨l', r', a, b, .left hcomes, hvalues⟩

lemma Expr.DividesByZero.right {op : Operator} {l r : Expr} {a : Int} (hl : l.Denotes a)
    (h : r.DividesByZero) : (Expr.binary op l r).DividesByZero := by
  obtain ⟨l', r', a', b, hcomes, hvalues⟩ := h
  exact ⟨l', r', a', b, .right hl hcomes, hvalues⟩

/-- A tree has an exact value, unless it divides by zero. -/
lemma Expr.Numeric.denotes_or {e : Expr} (h : e.Numeric fun _ => True) :
    (∃ z, e.Denotes z) ∨ e.DividesByZero := by
  induction h with
  | int n => exact .inl ⟨_, .int n⟩
  | @binary op l r _ _ _ ihl ihr =>
    obtain ⟨a, hl⟩ | hl := ihl
    · obtain ⟨b, hr⟩ | hr := ihr
      · cases op with
        | add => exact .inl ⟨_, hl.add hr⟩
        | sub => exact .inl ⟨_, hl.sub hr⟩
        | mul => exact .inl ⟨_, hl.mul hr⟩
        | div =>
          by_cases hb : reduced b = 0
          · exact .inr ⟨l, r, a, b, .here, hl, hr, hb⟩
          · exact .inl ⟨_, hl.div hr hb⟩
      · exact .inr (hr.right hl)
    · exact .inr hl.left

lemma Expr.Numeric.denotes_exact {e : Expr} (h : e.Numeric (· ≠ .div)) : e.Denotes e.exact := by
  induction h with
  | int n => exact .int n
  | @binary op l r hop _ _ ihl ihr =>
    cases op with
    | add => exact ihl.add ihr
    | sub => exact ihl.sub ihr
    | mul => exact ihl.mul ihr
    | div => exact absurd rfl hop

/-- **Arithmetic.** A tree of numbers and operators has an exact value or divides by zero. In the
first case, in any environment, it gives the only 64-bit number that is congruent to the exact value,
under the tag of numbers. It fails just in the second case, and then with that error. A tree without
divisions has its value in the integers as its exact value. -/
theorem evalExpr_exact (host : Host σ) (call : FunctionDef → List Value → Run σ TypedValue)
    (calls : List String) (m : Machine σ) {e : Expr} (he : e.Numeric fun _ => True) :
    ((∃ z, e.Denotes z) ∨ e.DividesByZero) ∧
    (∀ z, e.Denotes z → ∃ n : Int64, evalExpr host call e calls m = .done ⟨.int, .int n⟩ m ∧
      ∀ k : Int64, k.toInt ≡ z [ZMOD 2 ^ 64] ↔ k = n) ∧
    (evalExpr host call e calls m = .failed .divisionByZero m ↔ e.DividesByZero) ∧
    (e.Numeric (· ≠ .div) → e.Denotes e.exact) := by
  refine ⟨he.denotes_or, fun z hz => ?_, ⟨fun hfailed => ?_, fun h => h.failed⟩,
    fun h => h.denotes_exact⟩
  · exact ⟨Int64.ofInt z, hz.givesNumber, fun k => toInt_modEq_iff⟩
  · obtain ⟨z, hz⟩ | h := he.denotes_or
    · have hdone : evalExpr host call e calls m = .done ⟨.int, .int (Int64.ofInt z)⟩ m :=
        hz.givesNumber
      rw [hdone] at hfailed
      cases hfailed
    · exact h

/-- The greatest number plus one, divided by minus one, is the least number. A quotient by `2 ^ 32`
times itself divides by zero, although the exact product is not zero. -/
theorem evalExpr_exact_edges :
    let host : Host Unit := ⟨fun _ _ s => (.ok .void, s)⟩
    let least : Expr := .binary .div (.binary .add (.int 9223372036854775807) (.int 1)) (.int (-1))
    let fails : Expr := .binary .add least
      (.binary .div (.int 1) (.binary .mul (.int 4294967296) (.int 4294967296)))
    (least.Numeric (fun _ => True) ∧ least.Denotes 9223372036854775808 ∧
      evalExpr host (callFunction host 0) least [] (.start ()) =
        .done ⟨.int, .int Int64.minValue⟩ (.start ())) ∧
    fails.Numeric (fun _ => True) ∧ fails.DividesByZero ∧
      evalExpr host (callFunction host 0) fails [] (.start ()) =
        .failed .divisionByZero (.start ()) := by
  intro host least fails
  have hnumeric : least.Numeric fun _ => True :=
    .binary trivial (.binary trivial (.int _) (.int _)) (.int _)
  have hfails : fails.Numeric fun _ => True :=
    .binary trivial hnumeric (.binary trivial (.int _) (.binary trivial (.int _) (.int _)))
  have hleast : least.Denotes 9223372036854775808 :=
    .div (.add (.int 9223372036854775807) (.int 1)) (.int (-1)) (by decide)
  have hzero : fails.DividesByZero :=
    ⟨_, _, _, _, .right hleast .here, .int 1, .mul (.int 4294967296) (.int 4294967296), by decide⟩
  have hexact := evalExpr_exact host (callFunction host 0) [] (.start ()) hnumeric
  have hfailed := evalExpr_exact host (callFunction host 0) [] (.start ()) hfails
  obtain ⟨n, hdone, hunique⟩ := hexact.2.1 _ hleast
  obtain rfl := (hunique Int64.minValue).1 (by decide)
  exact ⟨⟨hnumeric, hleast, hdone⟩, hfails, hzero, hfailed.2.2.1.2 hzero⟩

end Flame
