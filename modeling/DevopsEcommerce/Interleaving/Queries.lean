import DevopsEcommerce.Interleaving.Program

/-!
# Programs that only ask

A program whose commands leave the system as it is need not be one of its threads. `Asks` runs it
beside a system that goes on between its commands: what it finds there at each of them is a state
that the system has come to by then.
-/

namespace Interleaving

variable {σ ε C : Type} {R : C → Type} {α : Type}

/-- The program, started in `s`, ends with the answer in the state of its last command. Before each
of its commands the system may have made steps. -/
inductive Asks (step : σ → ε → Option σ) (replies : σ → (c : C) → R c → Prop) :
    Program C R α → σ → α → σ → Prop
  | done (a : α) (s : σ) : Asks step replies (.done a) s a s
  | call {c : C} {k : R c → Program C R α} {r : R c} {a : α} {es : List ε} {s t s' : σ}
      (hrun : run step s es = some t) (hreply : replies t c r)
      (hrest : Asks step replies (k r) t a s') : Asks step replies (.call c k) s a s'

variable {step : σ → ε → Option σ} {replies : σ → (c : C) → R c → Prop} {s s' : σ} {a : α}

lemma asks_done {b : α} (h : Asks step replies (.done a) s b s') : b = a ∧ s' = s := by
  cases h
  exact ⟨rfl, rfl⟩

lemma asks_call {c : C} {k : R c → Program C R α} (h : Asks step replies (.call c k) s a s') :
    ∃ es t r, run step s es = some t ∧ replies t c r ∧ Asks step replies (k r) t a s' := by
  cases h with
  | call hrun hreply hrest => exact ⟨_, _, _, hrun, hreply, hrest⟩

end Interleaving
