import DevopsEcommerce.Interleaving.Program

/-!
# Pools that requests arrive at

`Pool.step` serves the requests that a pool has. In an open pool more of them arrive on the
way, in any number, so that one can tell what arrived before a certain moment from what
arrived after it: a thread keeps its number, and a later one gets a higher number.
-/

namespace Interleaving

open Program

/-- What can happen to an open pool. -/
inductive Event (ρ Ω : Type) where
  | arrive (request : ρ)
  | execute (l : ℕ × Ω)
deriving DecidableEq

section
variable {σ ρ C : Type} {R : C → Type} {α Ω : Type}

def Pool.openStep (serve : ρ → Program C R α) (exec : σ → ℕ → (c : C) → Ω → Option (σ × R c))
    (p : Pool σ ρ C R α) : Event ρ Ω → Option (Pool σ ρ C R α)
  | .arrive q => some (p.arrive serve q)
  | .execute l => Pool.step exec p l

variable {serve : ρ → Program C R α} {exec : σ → ℕ → (c : C) → Ω → Option (σ × R c)}

/-- What arrivals and commands preserve. -/
theorem Pool.open_preserved {P : Pool σ ρ C R α → Prop}
    (harrive : ∀ p q, P p → P (p.arrive serve q)) (hexecute : Preserved (Pool.step exec) P) :
    Preserved (Pool.openStep serve exec) P := by
  intro p e p' hp hstep
  cases e with
  | arrive q =>
    obtain rfl := Option.some.inj hstep
    exact harrive p q hp
  | execute l => exact hexecute p l p' hp hstep

theorem Pool.serves_openPreserved : Preserved (Pool.openStep serve exec) (Pool.Serves serve) :=
  Pool.open_preserved (fun _ _ hp => Pool.forall_arrive hp .start) (Pool.serves_preserved serve)

/-- A new thread gets the next number. -/
lemma Pool.getElem?_arrive_new (p : Pool σ ρ C R α) (q : ρ) :
    (p.arrive serve q).threads[p.threads.length]? = some ⟨q, [], serve q⟩ := by
  show (p.threads ++ _)[p.threads.length]? = some _
  rw [List.getElem?_append_right (Nat.le_refl _), Nat.sub_self]
  rfl

/-- A thread of a pool is still there after a step. It has the same request, and has perhaps
had one more reply. -/
lemma Pool.thread_openStep {p p' : Pool σ ρ C R α} {e : Event ρ Ω} {i : ℕ} {t : Thread ρ C R α}
    (hstep : Pool.openStep serve exec p e = some p') (ht : p.threads[i]? = some t) :
    ∃ t', p'.threads[i]? = some t' ∧ t'.request = t.request ∧ t.trace <:+ t'.trace ∧
      (t.program.next? = none → t' = t) := by
  cases e with
  | arrive q =>
    obtain rfl := Option.some.inj hstep
    exact ⟨t, Pool.getElem?_arrive ht, rfl, List.suffix_refl _, fun _ => rfl⟩
  | execute l =>
    obtain ⟨u, c, k, s, r, hu, hk, -, rfl⟩ := Pool.step_eq_some.mp hstep
    by_cases hi : l.1 = i
    · rw [hi] at hu
      obtain rfl := Option.some.inj (ht.symm.trans hu)
      refine ⟨t.receive c r (k r), ?_, rfl, List.suffix_cons _ _, ?_⟩
      · rw [hi]
        exact getElem?_set_moved ht _
      · intro hended
        rw [hk] at hended
        exact absurd hended (by simp [Program.next?])
    · refine ⟨t, ?_, rfl, List.suffix_refl _, fun _ => rfl⟩
      rw [List.getElem?_set_ne hi]
      exact ht

/-- A thread after a step is the one that moved, one from before, or has just arrived. -/
lemma Pool.thread_of_openStep {p p' : Pool σ ρ C R α} {e : Event ρ Ω} {i : ℕ}
    {t' : Thread ρ C R α} (hstep : Pool.openStep serve exec p e = some p')
    (ht' : p'.threads[i]? = some t') :
    p.threads[i]? = some t' ∨
      (∃ q, e = .arrive q ∧ i = p.threads.length ∧ t' = ⟨q, [], serve q⟩) ∨
      ∃ w t c k s r, e = .execute (i, w) ∧ p.threads[i]? = some t ∧ t.program = .call c k ∧
        exec p.store i c w = some (s, r) ∧ p'.store = s ∧ t' = t.receive c r (k r) := by
  cases e with
  | arrive q =>
    obtain rfl := Option.some.inj hstep
    rcases Pool.thread_of_arrive ht' with ht | ⟨hi, rfl⟩
    · exact .inl ht
    · exact .inr (.inl ⟨q, rfl, hi, rfl⟩)
  | execute l =>
    obtain ⟨j, w⟩ := l
    obtain ⟨t, c, k, s, r, ht, hk, hexec, rfl⟩ := Pool.step_eq_some.mp hstep
    rcases getElem?_set_eq_some ht' with ⟨rfl, rfl⟩ | ⟨-, hold⟩
    · exact .inr (.inr ⟨w, t, c, k, s, r, rfl, ht, hk, hexec, rfl, rfl⟩)
    · exact .inl hold

end

end Interleaving
