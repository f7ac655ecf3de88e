import Mathlib.Data.Option.Basic
import Mathlib.Data.Nat.Notation

/-!
# `varchar` columns

What a `varchar(n)` column of PostgreSQL stores for a text. No text may contain NUL. A text that
is too long is an error, unless all characters beyond the first `n` are spaces, which are cut off
without notice. A text read back from the column is stored unchanged (`varchar_varchar`), and the
text itself is kept if it is not too long (`varchar_eq_self_iff`).
-/

namespace Postgres

/-- What a `varchar(n)` column stores for the text, if it takes it. -/
def varchar (n : ℕ) (s : String) : Option String :=
  if s.toList.contains '\x00' then none
  else if s.toList.length ≤ n then some s
  else if (s.toList.drop n).all (· = ' ') then some (String.ofList (s.toList.take n))
  else none

/-- The column stores the text as it is. -/
def keeps (n : ℕ) (s : String) : Bool := varchar n s = some s

section
variable {n : ℕ} {s stored : String}

/-- The text itself is stored, or what is left of it without the spaces at its end. -/
lemma varchar_eq_some (h : varchar n s = some stored) :
    s.toList.contains '\x00' = false ∧
      (s.toList.length ≤ n ∧ stored = s ∨
        n < s.toList.length ∧ stored = String.ofList (s.toList.take n)) := by
  unfold varchar at h
  split at h
  · cases h
  · rename_i hnul
    refine ⟨Bool.eq_false_iff.mpr hnul, ?_⟩
    split at h
    · rename_i hshort
      exact .inl ⟨hshort, (Option.some.inj h).symm⟩
    · rename_i hlong
      split at h
      · exact .inr ⟨Nat.lt_of_not_le hlong, (Option.some.inj h).symm⟩
      · cases h

lemma length_varchar (h : varchar n s = some stored) : stored.toList.length ≤ n := by
  rcases (varchar_eq_some h).2 with ⟨hshort, rfl⟩ | ⟨-, rfl⟩
  · exact hshort
  · rw [String.toList_ofList, List.length_take]
    exact Nat.min_le_left _ _

/-- The column keeps the text itself if and only if it is not too long. -/
lemma varchar_eq_self_iff (h : varchar n s = some stored) :
    stored = s ↔ s.toList.length ≤ n := by
  constructor
  · intro heq
    exact heq ▸ length_varchar h
  · intro hshort
    rcases (varchar_eq_some h).2 with ⟨-, heq⟩ | ⟨hlong, -⟩
    · exact heq
    · exact absurd hshort (Nat.not_le_of_lt hlong)

/-- Stored texts are stored as they are. -/
lemma varchar_varchar (h : varchar n s = some stored) : varchar n stored = some stored := by
  obtain ⟨hnul, hkept⟩ := varchar_eq_some h
  have hstored : stored.toList.contains '\x00' = false := by
    rcases hkept with ⟨-, rfl⟩ | ⟨-, rfl⟩
    · exact hnul
    · rw [String.toList_ofList, ← Bool.not_eq_true, List.contains_iff_mem]
      intro hmem
      rw [← Bool.not_eq_true, List.contains_iff_mem] at hnul
      exact hnul (List.mem_of_mem_take hmem)
  unfold varchar
  rw [hstored, if_neg (by decide), if_pos (length_varchar h)]

end

lemma keeps_eq_true {n : ℕ} {s : String} : keeps n s = true ↔ varchar n s = some s :=
  decide_eq_true_iff

/-- A nullable column also stores null, and what it has stored as it is. -/
lemma mapM_varchar_idem {n : ℕ} {s stored : Option String} (h : s.mapM (varchar n) = some stored) :
    stored.mapM (varchar n) = some stored := by
  cases s with
  | none =>
    obtain rfl := Option.some.inj h
    rfl
  | some s =>
    obtain ⟨text, htext, rfl⟩ := Option.map_eq_some_iff.mp h
    rw [Option.mapM_some, varchar_varchar htext]
    rfl

/-! ## A column that an update may set -/

lemma keeps_getD {n : ℕ} {old : String} (hold : keeps n old = true) (new : Option String) :
    keeps n (new.getD old) = new.all (keeps n) := by
  cases new with
  | none => exact hold
  | some s => rfl

lemma varchar_getD {n : ℕ} {old : String} (hold : keeps n old = true) (new : Option String) :
    varchar n (new.getD old) = (new.mapM (varchar n)).map fun stored => stored.getD old := by
  cases new with
  | none => exact keeps_eq_true.mp hold
  | some s =>
    rw [Option.mapM_some, Option.getD_some]
    cases varchar n s <;> rfl

/-- Too many letters are refused, and too many spaces cut off. -/
example : varchar 2 "abc" = none ∧ varchar 2 "ab " = some "ab" := by decide

end Postgres
