import Mathlib.Algebra.Group.Int.Defs
import DevopsEcommerce.Json.Naturals
import DevopsEcommerce.Json.RoundTrip

/-!
# Integers and JSON in Go

`strconv` on decimal integers and what `encoding/json` does with strings, numbers and the
names of fields. An `int` is an `Int64`. Strings are taken to be valid UTF-8.
-/

open Json

namespace Go

/-! ## `strconv` -/

/-- `strconv.Itoa` -/
def itoa (n : Int64) : List Char :=
  if n.toInt < 0 then '-' :: Nat.toDigits 10 n.toInt.natAbs else Nat.toDigits 10 n.toInt.natAbs

/-- The digits after the sign. -/
def atoiDigits (negative : Bool) (digits : List Char) : Option Int64 :=
  if digits.isEmpty || !digits.all Char.isDigit then none
  else
    let magnitude : ℤ := Nat.ofDigitChars 10 digits 0
    let n := if negative then -magnitude else magnitude
    if -2 ^ 63 ≤ n ∧ n < 2 ^ 63 then some (Int64.ofInt n) else none

/-- `strconv.Atoi` -/
def atoi : List Char → Option Int64
  | [] => none
  | c :: cs =>
    if c = '-' then atoiDigits true cs
    else if c = '+' then atoiDigits false cs
    else atoiDigits false (c :: cs)

lemma atoiDigits_toDigits {n : Int64} (negative : Bool) (hsign : negative = true ↔ n.toInt < 0) :
    atoiDigits negative (Nat.toDigits 10 n.toInt.natAbs) = some n := by
  have hdigits : (Nat.toDigits 10 n.toInt.natAbs).all Char.isDigit = true :=
    List.all_eq_true.mpr fun c hc => Nat.isDigit_of_mem_toDigits (by decide) (by decide) hc
  have hne : (Nat.toDigits 10 n.toInt.natAbs).isEmpty = false := by
    rw [List.isEmpty_eq_false_iff]
    exact Nat.toDigits_ne_nil
  have hlow := n.le_toInt
  have hhigh := n.toInt_lt
  -- the sign and the digits of the magnitude make up the number again
  have hvalue : (if negative then -(n.toInt.natAbs : ℤ) else (n.toInt.natAbs : ℤ)) = n.toInt := by
    cases negative with
    | true =>
      have := hsign.mp rfl
      rw [if_pos rfl]
      omega
    | false =>
      have : ¬ n.toInt < 0 := fun h => by cases hsign.mpr h
      rw [if_neg (by decide)]
      omega
  unfold atoiDigits
  rw [hne, hdigits]
  simp only [Bool.not_true, Bool.or_self, Bool.false_eq_true, if_false,
    Nat.ofDigitChars_ten_toDigits, hvalue]
  rw [if_pos ⟨hlow, hhigh⟩, Int64.ofInt_toInt]

/-- What `Itoa` writes `Atoi` reads. -/
theorem atoi_itoa (n : Int64) : atoi (itoa n) = some n := by
  unfold itoa
  split <;> rename_i hneg
  · exact atoiDigits_toDigits true (iff_of_true rfl hneg)
  · have hpos := atoiDigits_toDigits (n := n) false (iff_of_false (by decide) hneg)
    cases hdigits : Nat.toDigits 10 n.toInt.natAbs with
    | nil => exact absurd hdigits Nat.toDigits_ne_nil
    | cons c cs =>
      rw [hdigits] at hpos
      have hc : c.isDigit = true := by
        refine Nat.isDigit_of_mem_toDigits (b := 10) (n := n.toInt.natAbs) (by decide)
          (by decide) ?_
        rw [hdigits]
        exact List.mem_cons_self
      -- the text starts with a digit, so with no sign
      rw [atoi, if_neg, if_neg]
      · exact hpos
      · rintro rfl
        cases hc
      · rintro rfl
        cases hc

/-! ## `encoding/json` -/

lemma isNumber_itoa (n : Int64) : isNumber (itoa n) = true := by
  refine isNumber_of_digits (Nat.toDigits 10 n.toInt.natAbs) ?_ isDigit_toDigits
    Nat.toDigits_ne_nil (toDigits_eq_zero_or_head?_ne _)
  unfold itoa
  split
  · exact .inl rfl
  · exact .inr rfl

/-- The literal of an `int`. -/
def intLiteral (n : Int64) : NumberLiteral where
  chars := itoa n
  valid := isNumber_itoa n

/-- The escapes of `json.Marshal`, which also protects HTML. -/
def escape (c : Char) : List Char :=
  if c = '"' ∨ c = '\\' then ['\\', c]
  else if c = '\x08' then ['\\', 'b']
  else if c = '\x0c' then ['\\', 'f']
  else if c = '\n' then ['\\', 'n']
  else if c = '\r' then ['\\', 'r']
  else if c = '\t' then ['\\', 't']
  else if c.toNat < 0x20 ∨ c = '<' ∨ c = '>' ∨ c = '&' ∨ c = '\u2028' ∨ c = '\u2029' then
    hexEscape c
  else [c]

theorem unescapes_escape : Unescapes escape := by
  intro c rest
  unfold escape
  split <;> rename_i hquote
  · rcases hquote with rfl | rfl <;> rfl
  split <;> rename_i hb
  · rw [hb]; rfl
  split <;> rename_i hf
  · rw [hf]; rfl
  split <;> rename_i hn
  · rw [hn]; rfl
  split <;> rename_i hr
  · rw [hr]; rfl
  split <;> rename_i ht
  · rw [ht]; rfl
  split <;> rename_i hhex
  · apply readChar_hexEscape
    rcases hhex with h | rfl | rfl | rfl | rfl | rfl
    · omega
    all_goals decide
  · obtain ⟨hopen, hbackslash⟩ := not_or.mp hquote
    rw [List.singleton_append, readChar.eq_def]
    simp only [if_neg hbackslash]
    rw [if_neg]
    rintro (h | h)
    · exact hopen h
    · exact hhex (.inl h)

/-- `json.Marshal`, for the values that the callers build. -/
def marshal (v : Json) : String := String.ofList (print escape v)

/-- The value that `json.Unmarshal` finds: nesting is limited. -/
def unmarshal (text : String) : Option Json :=
  (parse text.toList).filter fun v => v.depth ≤ 10000

lemma unmarshal_marshal {v : Json} (hdepth : v.depth ≤ 10000) :
    unmarshal (marshal v) = some v := by
  unfold unmarshal marshal
  rw [String.toList_ofList, parse_print unescapes_escape, Option.filter_some, if_pos]
  simpa using hdepth

/-- The case folding that field names are compared under. -/
def foldChar (c : Char) : Char :=
  if 'a' ≤ c ∧ c ≤ 'z' then Char.ofNat (c.toNat - 32)
  else if c = '\u017F' then 'S'
  else if c = '\u212A' then 'K'
  else c

/-- The member is for the field: in any case, as `encoding/json` accepts it. -/
def isField (name field : String) : Bool :=
  name.toList.map foldChar = field.toList.map foldChar

/-- Decoding into a `string` field; `null` leaves it alone. -/
def decodeString (old : String) : Json → Option String
  | .string s => some s
  | .null => some old
  | _ => none

/-- Decoding into an `int` field; `null` leaves it alone. -/
def decodeInt (old : Int64) : Json → Option Int64
  | .number n => atoi n.chars
  | .null => some old
  | _ => none

/-- Decoding into a struct, member by member, given what a member does to it. `null` leaves the
zero value; a member of the wrong type makes the whole decoding fail. -/
def decodeStruct {α : Type} (setField : α → String → Json → Option α) (zero : α) :
    Json → Option α
  | .object members => members.foldlM (fun a member => setField a member.1 member.2) zero
  | .null => some zero
  | _ => none

end Go
