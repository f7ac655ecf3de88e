import Mathlib.Data.List.TakeWhile
import DevopsEcommerce.Json.Text

/-!
# Number literals of natural numbers

The decimal digits of a natural number are a number literal, and different numbers have
different ones.
-/

namespace Json

lemma head?_toDigits_ne {n : ℕ} (hn : n ≠ 0) : (Nat.toDigits 10 n).head? ≠ some '0' := by
  induction n using Nat.strongRecOn with
  | _ n ih =>
    rw [Nat.toDigits_eq_if (by decide)]
    split <;> rename_i hlt
    · have hall : ∀ d < 10, d ≠ 0 → [Nat.digitChar d].head? ≠ some '0' := by decide
      exact hall n hlt hn
    · have hrest := ih (n / 10) (by omega) (by omega)
      cases hdigits : Nat.toDigits 10 (n / 10) with
      | nil => exact absurd hdigits Nat.toDigits_ne_nil
      | cons c cs =>
        rw [hdigits] at hrest
        exact hrest

/-- Digits, with or without a minus before them, that do not start with an idle zero. -/
lemma isNumber_of_digits {cs : List Char} (ds : List Char) (hcs : cs = '-' :: ds ∨ cs = ds)
    (hdigits : ∀ c ∈ ds, c.isDigit = true) (hne : ds ≠ [])
    (hint : ds = ['0'] ∨ ds.head? ≠ some '0') : isNumber cs = true := by
  have hchars : ∀ c ∈ ds, isNumberChar c = true := by
    intro c hc
    unfold isNumberChar
    rw [hdigits c hc]
    rfl
  have hbody : (if cs.head? = some '-' then cs.tail else cs) = ds := by
    rcases hcs with rfl | rfl
    · rfl
    · rw [if_neg]
      intro hhead
      obtain ⟨rest, rfl⟩ := List.head?_eq_some_iff.mp hhead
      cases hdigits '-' List.mem_cons_self
  have hall : cs.all isNumberChar = true := by
    rw [List.all_eq_true]
    rcases hcs with rfl | rfl
    · exact List.forall_mem_cons.mpr ⟨rfl, hchars⟩
    · exact hchars
  unfold isNumber
  simp only [hbody, hall, List.takeWhile_eq_self_iff.mpr hdigits,
    List.dropWhile_eq_nil_iff.mpr hdigits]
  rcases hint with rfl | hint
  · rfl
  · simp [hint, hne, isFraction, isExponent]

lemma isDigit_toDigits {n : ℕ} : ∀ c ∈ Nat.toDigits 10 n, c.isDigit = true := fun _ hc =>
  Nat.isDigit_of_mem_toDigits (by decide) (by decide) hc

lemma toDigits_eq_zero_or_head?_ne (n : ℕ) :
    Nat.toDigits 10 n = ['0'] ∨ (Nat.toDigits 10 n).head? ≠ some '0' := by
  by_cases hzero : n = 0
  · left
    rw [hzero]
    rfl
  · exact .inr (head?_toDigits_ne hzero)

/-- The literal of a natural number. -/
def natLiteral (n : ℕ) : NumberLiteral where
  chars := Nat.toDigits 10 n
  valid := isNumber_of_digits _ (.inr rfl) isDigit_toDigits Nat.toDigits_ne_nil
    (toDigits_eq_zero_or_head?_ne n)

lemma natLiteral_injective : Function.Injective natLiteral := by
  intro m n h
  have hdigits : Nat.toDigits 10 m = Nat.toDigits 10 n := congrArg NumberLiteral.chars h
  rw [← Nat.ofDigitChars_ten_toDigits (n := m), hdigits, Nat.ofDigitChars_ten_toDigits]

end Json
