import Mathlib.Data.Nat.Notation
import Mathlib.Tactic.Basic

/-!
# JSON values and their texts

The values, a printer without white space and a parser for all of JSON. Numbers are kept as
the literals they were written as, and objects as the list of their members, repetitions
included, since readers differ in what they make of both.

Printers differ in which characters of a string they escape; `print` takes the escapes as a
parameter.
-/

namespace Json

/-! ## Numbers -/

def isNumberChar (c : Char) : Bool :=
  c.isDigit || c = '-' || c = '+' || c = '.' || c = 'e' || c = 'E'

/-- Nothing, or an exponent. -/
def isExponent : List Char → Bool
  | [] => true
  | c :: cs =>
    let digits := if cs.head? = some '+' || cs.head? = some '-' then cs.tail else cs
    (c = 'e' || c = 'E') && !digits.isEmpty && digits.all Char.isDigit

/-- Nothing, or a fraction or an exponent or both. -/
def isFraction (cs : List Char) : Bool :=
  if cs.head? = some '.' then
    !(cs.tail.takeWhile Char.isDigit).isEmpty && isExponent (cs.tail.dropWhile Char.isDigit)
  else isExponent cs

/-- The number literals of JSON: no leading zeros, no sign but a minus. -/
def isNumber (cs : List Char) : Bool :=
  let body := if cs.head? = some '-' then cs.tail else cs
  let int := body.takeWhile Char.isDigit
  cs.all isNumberChar && (int = ['0'] || !int.isEmpty && int.head? ≠ some '0') &&
    isFraction (body.dropWhile Char.isDigit)

structure NumberLiteral where
  chars : List Char
  valid : isNumber chars = true

end Json

/-! ## Values -/

inductive Json where
  | null
  | bool (b : Bool)
  | number (n : Json.NumberLiteral)
  | string (s : String)
  | array (items : List Json)
  | object (members : List (String × Json))

namespace Json

/-! ## Printing -/

/-- `\u` and four hexadecimal digits, for a character of the basic plane. -/
def hexEscape (c : Char) : List Char :=
  ['\\', 'u', (c.toNat / 4096).digitChar, (c.toNat / 256 % 16).digitChar,
    (c.toNat / 16 % 16).digitChar, (c.toNat % 16).digitChar]

section
variable (escape : Char → List Char)

def printString (s : String) : List Char :=
  '"' :: s.toList.flatMap escape ++ ['"']

mutual

def print : Json → List Char
  | null => ['n', 'u', 'l', 'l']
  | bool true => ['t', 'r', 'u', 'e']
  | bool false => ['f', 'a', 'l', 's', 'e']
  | number n => n.chars
  | string s => printString escape s
  | array [] => ['[', ']']
  | array (v :: vs) => '[' :: (print v ++ printItems vs)
  | object [] => ['{', '}']
  | object ((k, v) :: ms) => '{' :: (printString escape k ++ ':' :: (print v ++ printMembers ms))

/-- The items after the first, and the end of the array. -/
def printItems : List Json → List Char
  | [] => [']']
  | v :: vs => ',' :: (print v ++ printItems vs)

/-- The members after the first, and the end of the object. -/
def printMembers : List (String × Json) → List Char
  | [] => ['}']
  | (k, v) :: ms => ',' :: (printString escape k ++ ':' :: (print v ++ printMembers ms))

end

end

/-! ## Parsing -/

def isSpace (c : Char) : Bool := c = ' ' || c = '\t' || c = '\n' || c = '\r'

def skipSpace (cs : List Char) : List Char := cs.dropWhile isSpace

def hexDigit (c : Char) : Option ℕ :=
  if '0' ≤ c ∧ c ≤ '9' then some (c.toNat - 48)
  else if 'a' ≤ c ∧ c ≤ 'f' then some (c.toNat - 87)
  else if 'A' ≤ c ∧ c ≤ 'F' then some (c.toNat - 55)
  else none

/-- Four hexadecimal digits. -/
def readHex : List Char → Option (ℕ × List Char)
  | a :: b :: c :: d :: rest =>
    match hexDigit a, hexDigit b, hexDigit c, hexDigit d with
    | some a, some b, some c, some d => some (a * 4096 + b * 256 + c * 16 + d, rest)
    | _, _, _, _ => none
  | _ => none

/-- The second half of a surrogate pair. -/
def readLowSurrogate : List Char → Option (ℕ × List Char)
  | '\\' :: 'u' :: rest => (readHex rest).filter fun (m, _) => 0xDC00 ≤ m ∧ m < 0xE000
  | _ => none

/-- What follows `\u`. A surrogate that stands alone is read as the replacement character. -/
def readUnicode (text : List Char) : Option (Char × List Char) :=
  (readHex text).map fun (n, rest) =>
    if n < 0xD800 ∨ 0xE000 ≤ n then (Char.ofNat n, rest)
    else if 0xDC00 ≤ n then ('\uFFFD', rest)
    else match readLowSurrogate rest with
      | some (m, rest') => (Char.ofNat (0x10000 + (n - 0xD800) * 0x400 + (m - 0xDC00)), rest')
      | none => ('\uFFFD', rest)

/-- One character of a string, escaped or not. -/
def readChar : List Char → Option (Char × List Char)
  | [] => none
  | c :: rest =>
    if c = '\\' then
      match rest with
      | [] => none
      | e :: rest =>
        if e = 'u' then readUnicode rest
        else if e = '"' ∨ e = '\\' ∨ e = '/' then some (e, rest)
        else if e = 'b' then some ('\x08', rest)
        else if e = 'f' then some ('\x0c', rest)
        else if e = 'n' then some ('\n', rest)
        else if e = 'r' then some ('\r', rest)
        else if e = 't' then some ('\t', rest)
        else none
    else if c = '"' ∨ c.toNat < 0x20 then none
    else some (c, rest)

/-- The characters up to the closing quote. -/
def readChars : ℕ → List Char → Option (List Char × List Char)
  | 0, _ => none
  | n + 1, text =>
    if text.head? = some '"' then some ([], text.tail)
    else
      (readChar text).bind fun (c, rest) =>
        (readChars n rest).map fun (cs, rest) => (c :: cs, rest)

/-- What follows an opening quote. -/
def readString (text : List Char) : Option (String × List Char) :=
  (readChars text.length text).map fun (cs, rest) => (String.ofList cs, rest)

def readNumber (text : List Char) : Option (Json × List Char) :=
  if h : isNumber (text.takeWhile isNumberChar) = true then
    some (number ⟨text.takeWhile isNumberChar, h⟩, text.dropWhile isNumberChar)
  else none

def readWord (word : List Char) (v : Json) (text : List Char) : Option (Json × List Char) :=
  if word.isPrefixOf text then some (v, text.drop word.length) else none

/-- A member's name and the colon after it. -/
def readName (text : List Char) : Option (String × List Char) :=
  match skipSpace text with
  | '"' :: rest =>
    (readString rest).bind fun (k, rest) =>
      match skipSpace rest with
      | ':' :: rest => some (k, rest)
      | _ => none
  | _ => none

mutual

def parseValue : ℕ → List Char → Option (Json × List Char)
  | 0, _ => none
  | n + 1, text =>
    match skipSpace text with
    | [] => none
    | c :: rest =>
      if c = '"' then (readString rest).map fun (s, rest) => (string s, rest)
      else if c = '[' then
        if (skipSpace rest).head? = some ']' then some (array [], (skipSpace rest).tail)
        else
          (parseValue n rest).bind fun (v, rest) =>
            (parseItems n rest).map fun (vs, rest) => (array (v :: vs), rest)
      else if c = '{' then
        if (skipSpace rest).head? = some '}' then some (object [], (skipSpace rest).tail)
        else
          (readName rest).bind fun (k, rest) =>
            (parseValue n rest).bind fun (v, rest) =>
              (parseMembers n rest).map fun (ms, rest) => (object ((k, v) :: ms), rest)
      else if c = 'n' then readWord ['n', 'u', 'l', 'l'] null (c :: rest)
      else if c = 't' then readWord ['t', 'r', 'u', 'e'] (bool true) (c :: rest)
      else if c = 'f' then readWord ['f', 'a', 'l', 's', 'e'] (bool false) (c :: rest)
      else readNumber (c :: rest)

/-- The items after the first, and the end of the array. -/
def parseItems : ℕ → List Char → Option (List Json × List Char)
  | 0, _ => none
  | n + 1, text =>
    match skipSpace text with
    | [] => none
    | c :: rest =>
      if c = ']' then some ([], rest)
      else if c = ',' then
        (parseValue n rest).bind fun (v, rest) =>
          (parseItems n rest).map fun (vs, rest) => (v :: vs, rest)
      else none

/-- The members after the first, and the end of the object. -/
def parseMembers : ℕ → List Char → Option (List (String × Json) × List Char)
  | 0, _ => none
  | n + 1, text =>
    match skipSpace text with
    | [] => none
    | c :: rest =>
      if c = '}' then some ([], rest)
      else if c = ',' then
        (readName rest).bind fun (k, rest) =>
          (parseValue n rest).bind fun (v, rest) =>
            (parseMembers n rest).map fun (ms, rest) => ((k, v) :: ms, rest)
      else none

end

/-- A text that is one value and nothing else. Every recursion of the parser takes at least
every second time a character, so that the text never outlasts the fuel. -/
def parse (text : List Char) : Option Json :=
  (parseValue (2 * text.length) text).bind fun (v, rest) =>
    if skipSpace rest = [] then some v else none

/-! ## Nesting -/

mutual

/-- How deep arrays and objects are nested. -/
def depth : Json → ℕ
  | array vs => depthItems vs + 1
  | object ms => depthMembers ms + 1
  | _ => 0

def depthItems : List Json → ℕ
  | [] => 0
  | v :: vs => max (depth v) (depthItems vs)

def depthMembers : List (String × Json) → ℕ
  | [] => 0
  | (_, v) :: ms => max (depth v) (depthMembers ms)

end

end Json
