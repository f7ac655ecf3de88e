import Mathlib.Algebra.Order.BigOperators.Group.List
import Mathlib.Algebra.Order.Group.Nat
import DevopsEcommerce.Messaging.Broker

/-!
# Comparing counts of copies

A broker has at most as many copies of some messages as of more of them (`copies_mono`), and
the copies of messages of two kinds add up (`copies_add_le`).
-/

namespace Messaging.Broker

section
variable {κ μ : Type} [DecidableEq κ]

theorem copies_mono (b : Broker κ μ) (q : κ) {p p' : μ → Bool}
    (h : ∀ m, p m = true → p' m = true) : b.copies q p ≤ b.copies q p' := by
  unfold copies holds
  refine Nat.add_le_add (Nat.add_le_add ?_ ?_) ?_
  · exact List.countP_mono_left fun m _ => h m
  · refine List.sum_le_sum fun ch _ => List.countP_mono_left fun d _ hd => ?_
    rw [Bool.and_eq_true] at hd ⊢
    exact ⟨hd.1, h _ hd.2⟩
  · refine List.countP_mono_left fun r _ hr => ?_
    rw [Bool.and_eq_true] at hr ⊢
    exact ⟨hr.1, h _ hr.2⟩

/-- The elements of two kinds that exclude each other. -/
lemma countP_add_le {α : Type} {p p₁ p₂ : α → Bool} (h₁ : ∀ a, p₁ a = true → p a = true)
    (h₂ : ∀ a, p₂ a = true → p a = true ∧ p₁ a = false) (as : List α) :
    as.countP p₁ + as.countP p₂ ≤ as.countP p := by
  induction as with
  | nil => exact Nat.le_refl 0
  | cons a as ih =>
    have hfirst := h₁ a
    have hsecond := h₂ a
    rw [List.countP_cons, List.countP_cons, List.countP_cons]
    cases hp₁ : p₁ a <;> cases hp₂ : p₂ a <;> simp_all <;> omega

theorem copies_add_le (b : Broker κ μ) (q : κ) {p p₁ p₂ : μ → Bool}
    (h₁ : ∀ m, p₁ m = true → p m = true) (h₂ : ∀ m, p₂ m = true → p m = true ∧ p₁ m = false) :
    b.copies q p₁ + b.copies q p₂ ≤ b.copies q p := by
  have hready := countP_add_le h₁ h₂ (b.ready q)
  -- the same for what comes from the queue
  have hand : ∀ (g : Bool) (m : μ), (g && p₁ m) = true → (g && p m) = true := by
    intro g m h
    rw [Bool.and_eq_true] at h ⊢
    exact ⟨h.1, h₁ m h.2⟩
  have hand' : ∀ (g : Bool) (m : μ), (g && p₂ m) = true →
      (g && p m) = true ∧ (g && p₁ m) = false := by
    intro g m h
    rw [Bool.and_eq_true] at h ⊢
    exact ⟨⟨h.1, (h₂ m h.2).1⟩, by rw [(h₂ m h.2).2, Bool.and_false]⟩
  have hremoved : b.removed.countP (fun r => r.1 = q && p₁ r.2) +
      b.removed.countP (fun r => r.1 = q && p₂ r.2) ≤
        b.removed.countP fun r => r.1 = q && p r.2 :=
    countP_add_le (fun r => hand _ r.2) (fun r => hand' _ r.2) b.removed
  have hheld : (b.channels.map (holds q p₁)).sum + (b.channels.map (holds q p₂)).sum ≤
      (b.channels.map (holds q p)).sum := by
    rw [← List.sum_map_add]
    refine List.sum_le_sum fun ch _ => ?_
    exact countP_add_le (fun d => hand _ d.message) (fun d => hand' _ d.message) ch.unacked
  unfold copies
  omega

end

end Messaging.Broker
