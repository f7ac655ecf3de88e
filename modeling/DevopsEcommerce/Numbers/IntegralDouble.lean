import Mathlib.Algebra.Order.Group.Int
import Mathlib.Algebra.Order.Ring.Int
import Mathlib.Data.Int.Order.Basic
import Mathlib.Tactic.NormNum

/-!
# Integral double-precision numbers

Addition of integral IEEE 754 doubles: the exact sum rounded to 53 significant bits, ties
to even, and overflowing to an infinity from `2 ^ 1024` on. Sums below `2 ^ 53` in
magnitude are exact (`add_eq_int`).
-/

namespace Numbers

/-- A double that is an integer or an infinity. -/
inductive IntegralDouble where
  | int (n : ℤ)
  | posInf
  | negInf
deriving DecidableEq, Repr

namespace IntegralDouble

/-- Round a magnitude to 53 significant bits, ties to even. -/
def roundMagnitude (n : ℕ) : ℕ :=
  if n < 2 ^ 53 then n
  else
    let e := Nat.log2 n - 52
    let q := n / 2 ^ e
    let r := n % 2 ^ e
    let half := 2 ^ (e - 1)
    (if r < half ∨ (r = half ∧ q % 2 = 0) then q else q + 1) * 2 ^ e

/-- The double nearest to an integer. -/
def ofInt (n : ℤ) : IntegralDouble :=
  let m := roundMagnitude n.natAbs
  if Nat.log2 m < 1024 then .int (n.sign * m)
  else if 0 < n then .posInf
  else .negInf

/-- `a + b` for a finite `b`. -/
def add : IntegralDouble → ℤ → IntegralDouble
  | .int a, b => ofInt (a + b)
  | .posInf, _ => .posInf
  | .negInf, _ => .negInf

/-- `x < 0` -/
def isNeg : IntegralDouble → Bool
  | .int a => decide (a < 0)
  | .posInf => false
  | .negInf => true

lemma ofInt_eq_int {n : ℤ} (h : n.natAbs < 2 ^ 53) : ofInt n = .int n := by
  have hround : roundMagnitude n.natAbs = n.natAbs := if_pos h
  have hfinite : Nat.log2 n.natAbs < 1024 := by
    by_cases h0 : n.natAbs = 0
    · rw [h0]; decide
    · exact lt_trans ((Nat.log2_lt h0).mpr h) (by decide)
  rw [ofInt]
  simp only [hround, if_pos hfinite]
  rw [Int.sign_mul_natAbs]

/-- Sums of small magnitude are exact. -/
lemma add_eq_int {a b : ℤ} (h : (a + b).natAbs < 2 ^ 53) : (int a).add b = .int (a + b) :=
  ofInt_eq_int h

end IntegralDouble

/-- Past 53 bits an addition can be absorbed. -/
example : (IntegralDouble.int (2 ^ 53)).add 1 = .int (2 ^ 53) := by decide

end Numbers
