import DevopsEcommerce.Json.RoundTrip

/-!
# JavaScript values that are JSON

A `Json` stands here for the JavaScript value that `JSON.stringify` writes like this. So a
number literal is the one that JavaScript would write, and the number zero is the literal `0`.
-/

namespace Js

open Json

/-- The escapes of `JSON.stringify`. -/
def escape (c : Char) : List Char :=
  if c = '"' ∨ c = '\\' then ['\\', c]
  else if c = '\x08' then ['\\', 'b']
  else if c = '\x0c' then ['\\', 'f']
  else if c = '\n' then ['\\', 'n']
  else if c = '\r' then ['\\', 'r']
  else if c = '\t' then ['\\', 't']
  else if c.toNat < 0x20 then hexEscape c
  else [c]

theorem unescapes_escape : Unescapes escape := by
  intro c rest
  unfold escape
  split <;> rename_i hquote
  · rcases hquote with rfl | rfl <;> rfl
  split <;> rename_i hb
  · rw [hb]; rfl
  split <;> rename_i hf
  · rw [hf]; rfl
  split <;> rename_i hn
  · rw [hn]; rfl
  split <;> rename_i hr
  · rw [hr]; rfl
  split <;> rename_i ht
  · rw [ht]; rfl
  split <;> rename_i hhex
  · apply readChar_hexEscape
    omega
  · obtain ⟨hopen, hbackslash⟩ := not_or.mp hquote
    rw [List.singleton_append, readChar.eq_def]
    simp only [if_neg hbackslash]
    rw [if_neg]
    rintro (h | h)
    · exact hopen h
    · exact hhex h

/-- `JSON.stringify` -/
def stringify (v : Json) : String := String.ofList (print escape v)

/-- `JSON.parse`; `none` is a `SyntaxError`. -/
def parse (text : String) : Option Json := Json.parse text.toList

@[simp] lemma parse_stringify (v : Json) : parse (stringify v) = some v := by
  unfold parse stringify
  rw [String.toList_ofList, parse_print unescapes_escape]

lemma mapM_parse_stringify (values : List Json) :
    (values.map stringify).mapM parse = some values := by
  induction values with
  | nil => rfl
  | cons v values ih =>
    rw [List.map_cons, List.mapM_cons, parse_stringify, ih]
    rfl

lemma stringify_ne_empty (v : Json) : stringify v ≠ "" := by
  intro hempty
  obtain ⟨c, cs, hprint, -⟩ := print_eq_cons escape v
  have hlist := congrArg String.toList hempty
  unfold stringify at hlist
  rw [String.toList_ofList, hprint] at hlist
  exact absurd hlist (by simp)

/-- White space and line ends, as `trim` takes them off. -/
def isWhitespace (c : Char) : Bool :=
  (0x9 ≤ c.val && c.val ≤ 0xD) || (0x2000 ≤ c.val && c.val ≤ 0x200A) ||
    c.val ∈ [0x20, 0xA0, 0x1680, 0x2028, 0x2029, 0x202F, 0x205F, 0x3000, 0xFEFF]

/-- `!value`, where `none` is `undefined`. -/
def isFalsy : Option Json → Bool
  | none | some .null | some (.bool false) => true
  | some (.number n) => n.chars = ['0']
  | some (.string s) => s = ""
  | some (.bool true) | some (.array _) | some (.object _) => false

/-- `value == null` -/
def isNullish : Option Json → Bool
  | none | some .null => true
  | some _ => false

/-- The property of an object; the last member with its name counts. Other values have none of
the names that are asked for here. -/
def property (value : Json) (name : String) : Option Json :=
  match value with
  | .object members => members.reverse.lookup name
  | _ => none

/-- A number. -/
inductive Number where
  | finite (n : NumberLiteral)
  | infinity
  | negInfinity
  | nan

/-- A number as `JSON.stringify` writes it. -/
def Number.toJson : Number → Json
  | .finite n => .number n
  | .infinity | .negInfinity | .nan => .null

end Js
