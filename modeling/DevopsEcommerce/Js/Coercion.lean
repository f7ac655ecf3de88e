import DevopsEcommerce.Js.Values
import Mathlib.Data.String.Basic

/-!
# Conversions of JavaScript

What `||`, template literals and `JSON.stringify` do with values that `JSON.parse` has read. A
number is here the literal that was read: it counts as false if its value rounds to zero in
double precision, and how JavaScript writes it is the parameter `double`. Of repeated members of
an object the last one counts.
-/

namespace Js

open Json

/-! ## Truth -/

/-- The exponent of a literal, without its sign and its digits before. -/
def exponentOf : List Char → ℤ
  | _ :: '-' :: digits => -(Nat.ofDigitChars 10 digits 0)
  | _ :: '+' :: digits => Nat.ofDigitChars 10 digits 0
  | _ :: digits => Nat.ofDigitChars 10 digits 0
  | [] => 0

/-- The literal is zero in double precision: its value is at most 2 to the -1075, half of the
least positive double, and halves are rounded to even. -/
def roundsToZero (n : NumberLiteral) : Bool :=
  let unsigned := n.chars.dropWhile fun c => c = '-'
  let mantissa := unsigned.takeWhile fun c => c ≠ 'e' && c ≠ 'E'
  let fraction := (mantissa.dropWhile Char.isDigit).tail
  let digits := Nat.ofDigitChars 10 (mantissa.takeWhile Char.isDigit ++ fraction) 0
  let exponent := exponentOf (unsigned.dropWhile fun c => c ≠ 'e' && c ≠ 'E') - fraction.length
  digits * 2 ^ 1075 * 10 ^ exponent.toNat ≤ 10 ^ (-exponent).toNat

def truthy : Json → Bool
  | .null => false
  | .bool b => b
  | .number n => !roundsToZero n
  | .string s => s ≠ ""
  | .array _ | .object _ => true

/-- `a || b`, where a property that is missing is `undefined`. -/
def orElse (a : Option Json) (b : Json) : Json :=
  match a with
  | some v => if truthy v then v else b
  | none => b

/-! ## Template literals -/

/-- A number as it is written. -/
def Number.text : Number → String
  | .finite n => String.ofList n.chars
  | .infinity => "Infinity"
  | .negInfinity => "-Infinity"
  | .nan => "NaN"

section
variable (double : NumberLiteral → Number)

mutual

/-- `${value}`; `none` is a `TypeError`. An object with a member `toString` cannot be converted,
since that is no function. -/
def toText : Json → Option String
  | .null => some "null"
  | .bool b => some (if b then "true" else "false")
  | .number n => some (double n).text
  | .string s => some s
  | .array items => (toTexts items).map fun texts => String.intercalate "," texts
  | .object members =>
    if members.any fun m => m.1 = "toString" then none else some "[object Object]"

/-- The elements of an array, as `join` writes them. -/
def toTexts : List Json → Option (List String)
  | [] => some []
  | .null :: items => (toTexts items).map fun texts => "" :: texts
  | v :: items => (toText v).bind fun text => (toTexts items).map fun texts => text :: texts

end

end

mutual

/-- The value can be converted to a string. -/
def isPrintable : Json → Bool
  | .null | .bool _ | .number _ | .string _ => true
  | .array items => arePrintable items
  | .object members => !members.any fun m => m.1 = "toString"

def arePrintable : List Json → Bool
  | [] => true
  | v :: items => isPrintable v && arePrintable items

end

mutual

theorem isSome_toText (double : NumberLiteral → Number) (v : Json) :
    (toText double v).isSome = isPrintable v := by
  cases v with
  | null => rw [toText, isPrintable, Option.isSome_some]
  | bool b => rw [toText, isPrintable, Option.isSome_some]
  | number n => rw [toText, isPrintable, Option.isSome_some]
  | string s => rw [toText, isPrintable, Option.isSome_some]
  | array items =>
    rw [toText, isPrintable, Option.isSome_map]
    exact isSome_toTexts double items
  | object members =>
    rw [toText, isPrintable]
    cases members.any fun m => m.1 = "toString" <;> rfl

theorem isSome_toTexts (double : NumberLiteral → Number) (items : List Json) :
    (toTexts double items).isSome = arePrintable items := by
  match items with
  | [] => rw [toTexts, arePrintable, Option.isSome_some]
  | v :: items =>
    have hitems := isSome_toTexts double items
    have hv := isSome_toText double v
    rw [arePrintable, ← hitems, ← hv]
    cases v with
    | null =>
      rw [toTexts, Option.isSome_map, toText]
      rfl
    | _ =>
      rw [toTexts]
      · cases toText double _ <;> cases toTexts double items <;> rfl
      · intro h
        cases h

end

lemma isPrintable_orElse_congr (a : Option Json) {b b' : Json}
    (h : isPrintable b = isPrintable b') :
    isPrintable (orElse a b) = isPrintable (orElse a b') := by
  cases a with
  | none => exact h
  | some v => cases hv : truthy v <;> simp [orElse, hv, h]

/-! ## What is written again -/

/-- The name of a member is an array index: such members come first, in numerical order. -/
def isIndex (name : String) : Bool :=
  name ≠ "" && name.toList.all Char.isDigit && (name = "0" || name.toList.head? ≠ some '0') &&
    Nat.ofDigitChars 10 name.toList 0 < 2 ^ 32 - 1

/-- The members in the order in which they are enumerated. -/
def ownProperties (members : List (String × Json)) : List (String × Json) :=
  let names := (members.map Prod.fst).eraseDups
  let indices := (names.filter isIndex).mergeSort fun a b =>
    Nat.ofDigitChars 10 a.toList 0 ≤ Nat.ofDigitChars 10 b.toList 0
  (indices ++ names.filter fun name => !isIndex name).map fun name =>
    (name, (members.reverse.lookup name).getD .null)

section
variable (double : NumberLiteral → Number)

mutual

/-- What `JSON.stringify` writes for a value that `JSON.parse` has read. -/
def written : Json → Json
  | .null => .null
  | .bool b => .bool b
  | .number n => (double n).toJson
  | .string s => .string s
  | .array items => .array (writtenItems items)
  | .object members => .object (ownProperties (writtenMembers members))

def writtenItems : List Json → List Json
  | [] => []
  | v :: items => written v :: writtenItems items

def writtenMembers : List (String × Json) → List (String × Json)
  | [] => []
  | (name, v) :: members => (name, written v) :: writtenMembers members

end

end

end Js
