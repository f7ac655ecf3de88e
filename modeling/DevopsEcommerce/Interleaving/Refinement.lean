import DevopsEcommerce.Interleaving.Runs

/-!
# Refinement of a relation

An abstract system says what may happen at a label, not what does: its steps are a relation. A
system refines it if every step has one beside it that leads to related states (`run_refines`).
-/

namespace Interleaving

section
variable {σ α ε : Type*}

/-- A run of the abstract system. -/
inductive RunsBy (next : α → ε → α → Prop) : α → List ε → α → Prop
  | nil (a : α) : RunsBy next a [] a
  | cons {a b c : α} {e : ε} {es : List ε} (hnext : next a e b) (hrest : RunsBy next b es c) :
      RunsBy next a (e :: es) c

/-- `R` relates the states; it may also say something about the labels that are still to come. -/
theorem run_refines {step : σ → ε → Option σ} {next : α → ε → α → Prop}
    {R : List ε → σ → α → Prop}
    (hstep : ∀ e es s a s', R (e :: es) s a → step s e = some s' →
      ∃ b, next a e b ∧ R es s' b)
    {es : List ε} {s s' : σ} {a : α} (hR : R es s a) (hrun : run step s es = some s') :
    ∃ b, RunsBy next a es b ∧ R [] s' b := by
  induction es generalizing s a with
  | nil =>
    rw [run_nil, Option.some.injEq] at hrun
    exact ⟨a, .nil a, hrun ▸ hR⟩
  | cons e es ih =>
    obtain ⟨s₁, hs₁, hrest⟩ := run_cons_eq_some.mp hrun
    obtain ⟨b, hnext, hb⟩ := hstep e es s a s₁ hR hs₁
    obtain ⟨c, hruns, hc⟩ := ih hb hrest
    exact ⟨c, .cons hnext hruns, hc⟩

end

end Interleaving
