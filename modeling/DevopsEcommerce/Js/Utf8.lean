import Mathlib.Data.String.Basic

/-!
# UTF-8 as JavaScript reads it

The decoder takes one byte at a time. Between the bytes of a character it is `Pending`, and the
bytes that may come next form an interval, which leaves out what has a shorter encoding, the
surrogates and what is beyond the last character.

`decode` is `Buffer.toString`: where the bytes go wrong it writes a replacement character, and
takes the offending byte as the first one of another character.
-/

namespace Js.Utf8

/-- A character that is not complete: the bytes that it lacks, the number that the bytes so far
stand for, and the bounds of the next byte. -/
structure Pending where
  lacks : ℕ
  value : ℕ
  lower : ℕ
  upper : ℕ
deriving DecidableEq

/-- The first byte of a character; `none` if there is no such character. -/
def first (b : ℕ) : Option (Char ⊕ Pending) :=
  if b < 0x80 then some (.inl (Char.ofNat b))
  else if b < 0xC2 then none
  else if b < 0xE0 then some (.inr ⟨1, b - 0xC0, 0x80, 0xBF⟩)
  else if b < 0xF0 then
    some (.inr ⟨2, b - 0xE0, if b = 0xE0 then 0xA0 else 0x80, if b = 0xED then 0x9F else 0xBF⟩)
  else if b < 0xF5 then
    some (.inr ⟨3, b - 0xF0, if b = 0xF0 then 0x90 else 0x80, if b = 0xF4 then 0x8F else 0xBF⟩)
  else none

/-- A further byte. -/
def next (p : Pending) (b : ℕ) : Option (Char ⊕ Pending) :=
  if p.lower ≤ b ∧ b ≤ p.upper then
    let value := p.value * 64 + (b - 0x80)
    if p.lacks ≤ 1 then some (.inl (Char.ofNat value))
    else some (.inr ⟨p.lacks - 1, value, 0x80, 0xBF⟩)
  else none

def replacement : Char := '\uFFFD'

/-- What has been read and what is pending then. -/
def emit : Option (Char ⊕ Pending) → List Char × Option Pending
  | some (.inl c) => ([c], none)
  | some (.inr p) => ([], some p)
  | none => ([replacement], none)

/-- One byte more. -/
def read (pending : Option Pending) (b : ℕ) : List Char × Option Pending :=
  match pending with
  | none => emit (first b)
  | some p =>
    match next p b with
    | some r => emit (some r)
    | none => (replacement :: (emit (first b)).1, (emit (first b)).2)

def decodeFrom : Option Pending → List UInt8 → List Char
  | none, [] => []
  | some _, [] => [replacement]
  | pending, b :: bytes =>
    (read pending b.toNat).1 ++ decodeFrom (read pending b.toNat).2 bytes

def decode (bytes : List UInt8) : List Char := decodeFrom none bytes

/-! ## What has been encoded -/

lemma decodeFrom_first {b : ℕ} (hb : b < 256) {p : Pending} (h : first b = some (.inr p))
    (bytes : List UInt8) :
    decodeFrom none (UInt8.ofNat b :: bytes) = decodeFrom (some p) bytes := by
  have hbyte : (UInt8.ofNat b).toNat = b := by simp [Nat.mod_eq_of_lt hb]
  rw [decodeFrom, hbyte, read, h]
  rfl

lemma decodeFrom_next {b : ℕ} (hb : b < 256) {p q : Pending} (h : next p b = some (.inr q))
    (bytes : List UInt8) :
    decodeFrom (some p) (UInt8.ofNat b :: bytes) = decodeFrom (some q) bytes := by
  have hbyte : (UInt8.ofNat b).toNat = b := by simp [Nat.mod_eq_of_lt hb]
  rw [decodeFrom, hbyte, read, h]
  rfl

lemma decodeFrom_last {b : ℕ} (hb : b < 256) {p : Pending} {c : Char}
    (h : next p b = some (.inl c)) (bytes : List UInt8) :
    decodeFrom (some p) (UInt8.ofNat b :: bytes) = c :: decodeFrom none bytes := by
  have hbyte : (UInt8.ofNat b).toNat = b := by simp [Nat.mod_eq_of_lt hb]
  rw [decodeFrom, hbyte, read, h]
  rfl

lemma next_last {p : Pending} {b : ℕ} {c : Char} (hlacks : p.lacks ≤ 1) (hlower : p.lower ≤ b)
    (hupper : b ≤ p.upper) (hvalue : p.value * 64 + (b - 0x80) = c.toNat) :
    next p b = some (.inl c) := by
  rw [next, if_pos ⟨hlower, hupper⟩, if_pos hlacks, hvalue, Char.ofNat_toNat]

lemma next_more {p : Pending} {b : ℕ} (hlacks : 1 < p.lacks) (hlower : p.lower ≤ b)
    (hupper : b ≤ p.upper) :
    next p b = some (.inr ⟨p.lacks - 1, p.value * 64 + (b - 0x80), 0x80, 0xBF⟩) := by
  rw [next, if_pos ⟨hlower, hupper⟩, if_neg (by omega)]

/-- A character of two bytes. -/
lemma decodeFrom_two {b₁ b₂ : ℕ} {c : Char} (h₁ : 0xC2 ≤ b₁ ∧ b₁ < 0xE0)
    (h₂ : 0x80 ≤ b₂ ∧ b₂ ≤ 0xBF) (hvalue : (b₁ - 0xC0) * 64 + (b₂ - 0x80) = c.toNat)
    (bytes : List UInt8) :
    decodeFrom none (UInt8.ofNat b₁ :: UInt8.ofNat b₂ :: bytes) = c :: decodeFrom none bytes := by
  have hfirst : first b₁ = some (.inr ⟨1, b₁ - 0xC0, 0x80, 0xBF⟩) := by
    rw [first, if_neg (by omega), if_neg (by omega), if_pos h₁.2]
  have hlast : next ⟨1, b₁ - 0xC0, 0x80, 0xBF⟩ b₂ = some (.inl c) :=
    next_last (Nat.le_refl 1) h₂.1 h₂.2 hvalue
  rw [decodeFrom_first (by omega) hfirst, decodeFrom_last (by omega) hlast]

/-- A character of three bytes. The second byte is bounded where the encoding would be longer
than it has to be, and where the character would be a surrogate. -/
lemma decodeFrom_three {b₁ b₂ b₃ : ℕ} {c : Char} (h₁ : 0xE0 ≤ b₁ ∧ b₁ < 0xF0)
    (h₂ : 0x80 ≤ b₂ ∧ b₂ ≤ 0xBF) (hlonger : b₁ = 0xE0 → 0xA0 ≤ b₂)
    (hsurrogate : b₁ = 0xED → b₂ ≤ 0x9F) (h₃ : 0x80 ≤ b₃ ∧ b₃ ≤ 0xBF)
    (hvalue : ((b₁ - 0xE0) * 64 + (b₂ - 0x80)) * 64 + (b₃ - 0x80) = c.toNat)
    (bytes : List UInt8) :
    decodeFrom none (UInt8.ofNat b₁ :: UInt8.ofNat b₂ :: UInt8.ofNat b₃ :: bytes) =
      c :: decodeFrom none bytes := by
  have hfirst : first b₁ = some (.inr ⟨2, b₁ - 0xE0, if b₁ = 0xE0 then 0xA0 else 0x80,
      if b₁ = 0xED then 0x9F else 0xBF⟩) := by
    rw [first, if_neg (by omega), if_neg (by omega), if_neg (by omega), if_pos h₁.2]
  have hlower : (if b₁ = 0xE0 then 0xA0 else 0x80) ≤ b₂ := by split <;> omega
  have hupper : b₂ ≤ if b₁ = 0xED then 0x9F else 0xBF := by split <;> omega
  have hlast : next ⟨2 - 1, (b₁ - 0xE0) * 64 + (b₂ - 0x80), 0x80, 0xBF⟩ b₃ = some (.inl c) :=
    next_last (Nat.le_refl 1) h₃.1 h₃.2 hvalue
  rw [decodeFrom_first (by omega) hfirst,
    decodeFrom_next (by omega) (next_more Nat.one_lt_two hlower hupper),
    decodeFrom_last (by omega) hlast]

/-- A character of four bytes. -/
lemma decodeFrom_four {b₁ b₂ b₃ b₄ : ℕ} {c : Char} (h₁ : 0xF0 ≤ b₁ ∧ b₁ < 0xF5)
    (h₂ : 0x80 ≤ b₂ ∧ b₂ ≤ 0xBF) (hlonger : b₁ = 0xF0 → 0x90 ≤ b₂)
    (hbeyond : b₁ = 0xF4 → b₂ ≤ 0x8F) (h₃ : 0x80 ≤ b₃ ∧ b₃ ≤ 0xBF)
    (h₄ : 0x80 ≤ b₄ ∧ b₄ ≤ 0xBF)
    (hvalue : (((b₁ - 0xF0) * 64 + (b₂ - 0x80)) * 64 + (b₃ - 0x80)) * 64 + (b₄ - 0x80) = c.toNat)
    (bytes : List UInt8) :
    decodeFrom none
        (UInt8.ofNat b₁ :: UInt8.ofNat b₂ :: UInt8.ofNat b₃ :: UInt8.ofNat b₄ :: bytes) =
      c :: decodeFrom none bytes := by
  have hfirst : first b₁ = some (.inr ⟨3, b₁ - 0xF0, if b₁ = 0xF0 then 0x90 else 0x80,
      if b₁ = 0xF4 then 0x8F else 0xBF⟩) := by
    rw [first, if_neg (by omega), if_neg (by omega), if_neg (by omega), if_neg (by omega),
      if_pos h₁.2]
  have hlower : (if b₁ = 0xF0 then 0x90 else 0x80) ≤ b₂ := by split <;> omega
  have hupper : b₂ ≤ if b₁ = 0xF4 then 0x8F else 0xBF := by split <;> omega
  have hlast : next ⟨3 - 1 - 1, ((b₁ - 0xF0) * 64 + (b₂ - 0x80)) * 64 + (b₃ - 0x80), 0x80, 0xBF⟩
      b₄ = some (.inl c) :=
    next_last (Nat.le_refl 1) h₄.1 h₄.2 hvalue
  rw [decodeFrom_first (by omega) hfirst,
    decodeFrom_next (by omega) (next_more (by decide : 1 < 3) hlower hupper),
    decodeFrom_next (by omega) (next_more Nat.one_lt_two h₃.1 h₃.2),
    decodeFrom_last (by omega) hlast]

lemma decodeFrom_utf8EncodeChar (c : Char) (bytes : List UInt8) :
    decodeFrom none (String.utf8EncodeChar c ++ bytes) = c :: decodeFrom none bytes := by
  have hvalid : c.toNat < 0xD800 ∨ 0xDFFF < c.toNat ∧ c.toNat < 0x110000 := c.valid
  have htoNat : c.val.toNat = c.toNat := rfl
  unfold String.utf8EncodeChar
  simp only [htoNat]
  generalize hv : c.toNat = v at hvalid
  split
  · rename_i hone
    have hbyte : (UInt8.ofNat v).toNat = v := by simp [Nat.mod_eq_of_lt (by omega : v < 256)]
    show decodeFrom none (UInt8.ofNat v :: bytes) = _
    rw [decodeFrom, hbyte, read, first, if_pos (by omega), ← hv, Char.ofNat_toNat]
    rfl
  split
  · exact decodeFrom_two (by omega) (by omega) (by omega) bytes
  split
  · exact decodeFrom_three (by omega) (by omega) (by omega) (by omega) (by omega) (by omega) bytes
  · exact decodeFrom_four (by omega) (by omega) (by omega) (by omega) (by omega) (by omega)
      (by omega) bytes

theorem decode_encode (cs : List Char) : decode (cs.flatMap String.utf8EncodeChar) = cs := by
  unfold decode
  induction cs with
  | nil => rfl
  | cons c cs ih => rw [List.flatMap_cons, decodeFrom_utf8EncodeChar, ih]

end Js.Utf8
