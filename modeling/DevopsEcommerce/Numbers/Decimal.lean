import Mathlib.Algebra.Order.Field.Rat
import Mathlib.Algebra.Order.Group.Int
import Mathlib.Algebra.Order.Ring.Int
import Mathlib.Tactic.FieldSimp
import Mathlib.Tactic.NormNum
import Mathlib.Tactic.Ring

/-!
# Decimal numbers and `numeric` columns

A `BigDecimal` is `unscaled * 10 ^ (-scale)`. Storing one in a `numeric(precision, scale)`
column rounds it to `scale` fractional digits, half away from zero, and fails if more than
`precision` digits remain. A value read back from the column is stored unchanged
(`toNumeric_toNumeric`), and the number itself is kept if it has no more fractional digits than
the column (`value_toNumeric_iff`).
-/

namespace Numbers

structure BigDecimal where
  unscaled : ℤ
  scale : ℤ
deriving DecidableEq, Repr

namespace BigDecimal

/-- `n / d` rounded to the nearest integer, halves away from zero. -/
def divRoundHalfUp (n : ℤ) (d : ℕ) : ℤ := n.sign * ((2 * n.natAbs + d) / (2 * d) : ℕ)

/-- The number in units of `10 ^ (-scale)`, rounded. -/
def unscaledAt (x : BigDecimal) (scale : ℤ) : ℤ :=
  if x.scale ≤ scale then x.unscaled * 10 ^ (scale - x.scale).toNat
  else divRoundHalfUp x.unscaled (10 ^ (x.scale - scale).toNat)

/-- What a `numeric(precision, scale)` column stores for the number, if it fits. -/
def toNumeric (precision scale : ℕ) (x : BigDecimal) : Option BigDecimal :=
  let n := x.unscaledAt scale
  if n.natAbs < 10 ^ precision then some ⟨n, scale⟩ else none

/-- Stored numbers are stored as they are. -/
lemma toNumeric_toNumeric {precision scale : ℕ} {x y : BigDecimal}
    (h : x.toNumeric precision scale = some y) : y.toNumeric precision scale = some y := by
  unfold toNumeric at h
  by_cases hfits : (x.unscaledAt scale).natAbs < 10 ^ precision
  · rw [if_pos hfits, Option.some.injEq] at h
    have hy : y.unscaledAt scale = x.unscaledAt scale := by
      rw [← h, unscaledAt, if_pos (le_refl _), sub_self, Int.toNat_zero, pow_zero, mul_one]
    unfold toNumeric
    rw [hy, if_pos hfits, h]
  · rw [if_neg hfits] at h
    exact absurd h (by simp)

/-! ## Values -/

/-- The number that is meant. -/
def value (x : BigDecimal) : ℚ := x.unscaled * (10 : ℚ) ^ (-x.scale)

/-- The number has at most `scale` fractional digits. -/
def FitsScale (x : BigDecimal) (scale : ℤ) : Prop := 10 ^ (x.scale - scale).toNat ∣ x.unscaled

instance (x : BigDecimal) (scale : ℤ) : Decidable (x.FitsScale scale) :=
  inferInstanceAs (Decidable (_ ∣ _))

/-- Rounding gives the quotient if there is one, and only then its multiple. -/
lemma divRoundHalfUp_mul_iff (n : ℤ) {d : ℕ} (hd : 0 < d) :
    divRoundHalfUp n d * d = n ↔ (d : ℤ) ∣ n := by
  constructor
  · intro h
    exact ⟨divRoundHalfUp n d, h.symm.trans (mul_comm _ _)⟩
  · rintro ⟨m, rfl⟩
    have hquotient : (2 * (d * m.natAbs) + d) / (2 * d) = m.natAbs := by
      apply Nat.div_eq_of_lt_le
      · calc m.natAbs * (2 * d) = 2 * (d * m.natAbs) := by ring
          _ ≤ 2 * (d * m.natAbs) + d := Nat.le_add_right _ _
      · calc 2 * (d * m.natAbs) + d < 2 * (d * m.natAbs) + 2 * d := by omega
          _ = (m.natAbs + 1) * (2 * d) := by ring
    have hsign : ((d : ℤ) * m).sign = m.sign := by
      rw [Int.sign_mul, Int.sign_natCast_of_ne_zero (by omega), one_mul]
    unfold divRoundHalfUp
    rw [hsign, Int.natAbs_mul, Int.natAbs_natCast, hquotient, Int.sign_mul_natAbs]
    ring

/-- A column keeps the number itself if and only if it has no more fractional digits. -/
lemma value_toNumeric_iff {precision scale : ℕ} {x y : BigDecimal}
    (h : x.toNumeric precision scale = some y) :
    y.value = x.value ↔ x.FitsScale scale := by
  unfold toNumeric at h
  by_cases hfits : (x.unscaledAt scale).natAbs < 10 ^ precision
  · rw [if_pos hfits, Option.some.injEq] at h
    subst h
    have hten : (10 : ℚ) ≠ 0 := by norm_num
    unfold value FitsScale unscaledAt
    split <;> rename_i hscale
    · -- no digit is lost
      have hdigits : (x.scale - scale).toNat = 0 := by omega
      have hpow : (10 : ℚ) ^ ((scale : ℤ) - x.scale).toNat * 10 ^ (-(scale : ℤ)) =
          10 ^ (-x.scale) := by
        rw [← zpow_natCast, ← zpow_add₀ hten]
        congr 1
        omega
      rw [hdigits, pow_zero]
      refine iff_of_true ?_ (one_dvd _)
      push_cast
      rw [mul_assoc, hpow]
    · -- the digits beyond the column's must be zeros
      have hpow : (10 : ℚ) ^ (-(scale : ℤ)) =
          10 ^ (x.scale - scale).toNat * 10 ^ (-x.scale) := by
        rw [← zpow_natCast, ← zpow_add₀ hten]
        congr 1
        omega
      have hdvd := divRoundHalfUp_mul_iff x.unscaled
        (Nat.pos_of_ne_zero (pow_ne_zero (x.scale - scale).toNat (by decide : 10 ≠ 0)))
      rw [hpow, ← mul_assoc, mul_left_inj' (zpow_ne_zero _ hten)]
      push_cast at hdvd
      rw [← hdvd]
      exact_mod_cast Iff.rfl
  · rw [if_neg hfits] at h
    cases h

/-- Rounding is half away from zero: `-0.125` becomes `-0.13`. -/
example : toNumeric 12 2 ⟨-125, 3⟩ = some ⟨-13, 2⟩ := by decide

end BigDecimal

end Numbers
