import Mathlib.Data.List.Infix
import Mathlib.Logic.Function.Basic

/-!
# Lists of Redis

The lists that Redis keeps under keys, as far as `LPUSH`, `LTRIM` and `LRANGE` use them; a list
without elements is a key that does not exist.

`Capped` is what holds of a list that many clients push to, each trimming it to a capacity
after its push: it is always the newest part of all that was pushed, and too long by no more
than the pushes that have not been followed by their trim.
-/

namespace Redis

abbrev Lists := String → List String

namespace Lists

/-- `LPUSH` -/
def lpush (lists : Lists) (key value : String) : Lists :=
  Function.update lists key (value :: lists key)

/-- `LTRIM`, from and to positions that are not negative. -/
def ltrim (lists : Lists) (key : String) (start stop : ℕ) : Lists :=
  Function.update lists key (((lists key).take (stop + 1)).drop start)

end Lists

/-- The list is the newest part of the history, with at least what the capacity admits, and
with at most one element in excess for each push that is not trimmed yet. -/
structure Capped {α : Type*} (capacity : ℕ) (history list : List α) (untrimmed : ℕ) : Prop where
  newest : list <+: history
  atLeast : min capacity history.length ≤ list.length
  atMost : list.length ≤ capacity + untrimmed

namespace Capped
variable {α : Type*} {capacity untrimmed : ℕ} {history list : List α}

lemma nil (capacity : ℕ) : Capped capacity ([] : List α) [] 0 :=
  ⟨List.prefix_refl _, Nat.min_le_right _ _, Nat.zero_le _⟩

/-- A push adds to both, and is owed a trim. -/
lemma push (h : Capped capacity history list untrimmed) (x : α) :
    Capped capacity (x :: history) (x :: list) (untrimmed + 1) := by
  have hlow := h.atLeast
  have hhigh := h.atMost
  refine ⟨List.cons_prefix_cons.mpr ⟨rfl, h.newest⟩, ?_, ?_⟩
  · rw [List.length_cons, List.length_cons]
    omega
  · rw [List.length_cons]
    omega

/-- A trim drops what is beyond the capacity, whoever has pushed it. -/
lemma trim (h : Capped capacity history list untrimmed) :
    Capped capacity history (list.take capacity) (untrimmed - 1) := by
  have hlow := h.atLeast
  have hhigh := h.atMost
  refine ⟨(List.take_prefix _ _).trans h.newest, ?_, ?_⟩
  · rw [List.length_take]
    omega
  · rw [List.length_take]
    omega

/-- When all pushes are trimmed the list is determined. -/
lemma eq_take (h : Capped capacity history list 0) : list = history.take capacity := by
  have hlow := h.atLeast
  have hhigh := h.atMost
  have hlength := h.newest.length_le
  rw [List.prefix_iff_eq_take.mp h.newest]
  rcases Nat.le_total capacity history.length with hfull | hshort
  · have hcapacity : list.length = capacity := by omega
    rw [hcapacity]
  · have hwhole : list.length = history.length := by omega
    rw [hwhole, List.take_length, List.take_of_length_le hshort]

end Capped

end Redis
