import DevopsEcommerce.Interleaving.Program

/-!
# What a run shows to one observer

`Same s t` says that an observer sees no difference between `s` and `t`. If what the observer
takes part in leads from states that look the same to states that look the same, and everything
else leaves a state looking as it did, then the rest of a run can be left out
(`run_filter_visible`), and two runs in which the observer takes part in the same way end in
states that look the same (`same_of_filter_eq`).

In a pool an observer watches the threads of certain requests. `Pool.watched_step` and
`Pool.watched_hidden` are the two conditions for these.
-/

namespace Interleaving

section
variable {σ ε : Type*} {step : σ → ε → Option σ} {Same : σ → σ → Prop} {visible : ε → Bool}

/-- What the observer takes part in does the same to states that look the same. -/
def Consistent (step : σ → ε → Option σ) (Same : σ → σ → Prop) (visible : ε → Bool) : Prop :=
  ∀ s t e s', Same s t → visible e = true → step s e = some s' →
    ∃ t', step t e = some t' ∧ Same s' t'

/-- What the observer takes no part in leaves a state looking as it did. -/
def Hides (step : σ → ε → Option σ) (Same : σ → σ → Prop) (visible : ε → Bool) : Prop :=
  ∀ s t e s', Same s t → visible e = false → step s e = some s' → Same s' t

/-- The observer sees the same without all that it takes no part in. -/
theorem run_filter_visible (hvisible : Consistent step Same visible)
    (hhidden : Hides step Same visible) {s t s' : σ} {es : List ε} (hsame : Same s t)
    (hrun : run step s es = some s') :
    ∃ t', run step t (es.filter visible) = some t' ∧ Same s' t' := by
  induction es generalizing s t with
  | nil =>
    rw [run_nil, Option.some.injEq] at hrun
    exact ⟨t, rfl, hrun ▸ hsame⟩
  | cons e es ih =>
    obtain ⟨s₁, hs₁, hrest⟩ := run_cons_eq_some.mp hrun
    cases he : visible e with
    | true =>
      obtain ⟨t₁, ht₁, hsame₁⟩ := hvisible s t e s₁ hsame he hs₁
      obtain ⟨t', hrun', hsame'⟩ := ih hsame₁ hrest
      rw [List.filter_cons_of_pos he]
      exact ⟨t', run_cons_eq_some.mpr ⟨t₁, ht₁, hrun'⟩, hsame'⟩
    | false =>
      rw [List.filter_cons_of_neg (by simp [he])]
      exact ih (hhidden s t e s₁ hsame he hs₁) hrest

/-- Two runs that differ only in what the observer takes no part in end in states that look the
same. -/
theorem same_of_filter_eq (hvisible : Consistent step Same visible)
    (hhidden : Hides step Same visible) (hsymm : ∀ s t, Same s t → Same t s)
    (htrans : ∀ s t u, Same s t → Same t u → Same s u) {s t s' t' : σ} {es fs : List ε}
    (hsame : Same s t) (hs : run step s es = some s') (ht : run step t fs = some t')
    (hfilter : es.filter visible = fs.filter visible) : Same s' t' := by
  have hrefl : Same t t := htrans _ _ _ (hsymm _ _ hsame) hsame
  obtain ⟨t₁, ht₁, hsame₁⟩ := run_filter_visible hvisible hhidden hsame hs
  obtain ⟨t₂, ht₂, hsame₂⟩ := run_filter_visible hvisible hhidden hrefl ht
  rw [hfilter, ht₂, Option.some.injEq] at ht₁
  exact htrans _ _ _ hsame₁ (ht₁ ▸ hsymm _ _ hsame₂)

end

/-! ## Threads that are watched -/

section
variable {σ ρ C : Type} {R : C → Type} {α Ω : Type} (mine : ρ → Bool)

/-- The thread with this number, if its request is one of the observer's. -/
def Pool.watched (p : Pool σ ρ C R α) (i : ℕ) : Option (Thread ρ C R α) :=
  p.threads[i]?.filter fun t => mine t.request

variable {mine} {exec : σ → ℕ → (c : C) → Ω → Option (σ × R c)}

lemma Pool.watched_eq_some {p : Pool σ ρ C R α} {i : ℕ} {t : Thread ρ C R α} :
    p.watched mine i = some t ↔ p.threads[i]? = some t ∧ mine t.request = true :=
  Option.filter_eq_some_iff

/-- Only the thread that moved is watched as another one. -/
lemma Pool.watched_set {p : Pool σ ρ C R α} {i : ℕ} {t t' : Thread ρ C R α} {s : σ}
    (ht : p.threads[i]? = some t) :
    Pool.watched mine ⟨s, p.threads.set i t'⟩ =
      Function.update (p.watched mine) i ((some t').filter fun t => mine t.request) := by
  funext j
  unfold Pool.watched
  by_cases hij : i = j
  · subst hij
    rw [Function.update_self, getElem?_set_moved ht]
  · rw [Function.update_of_ne (Ne.symm hij), List.getElem?_set_ne hij]

/-- Which threads are watched does not change. -/
lemma Pool.isSome_watched_step {p p' : Pool σ ρ C R α} {l : ℕ × Ω} (i : ℕ)
    (hstep : Pool.step exec p l = some p') :
    (p'.watched mine i).isSome = (p.watched mine i).isSome := by
  obtain ⟨t, c, k, s, r, ht, hk, hexec, rfl⟩ := Pool.step_eq_some.mp hstep
  rw [Pool.watched_set ht]
  by_cases hi : i = l.1
  · subst hi
    have hrequest : (t.receive c r (k r)).request = t.request := rfl
    rw [Function.update_self, Pool.watched, ht, Option.filter_some, Option.filter_some, hrequest]
    by_cases hmine : mine t.request = true
    · rw [if_pos hmine, if_pos hmine]
      rfl
    · rw [if_neg hmine, if_neg hmine]
  · rw [Function.update_of_ne hi]

/-- A step of another thread changes nothing about the threads that are watched. -/
lemma Pool.watched_hidden {p p' : Pool σ ρ C R α} {l : ℕ × Ω}
    (hstep : Pool.step exec p l = some p') (hl : p.watched mine l.1 = none) :
    p'.watched mine = p.watched mine := by
  obtain ⟨t, c, k, s, r, ht, hk, hexec, rfl⟩ := Pool.step_eq_some.mp hstep
  have hnot : ¬ mine t.request = true := by
    intro hmine
    rw [Pool.watched_eq_some.mpr ⟨ht, hmine⟩] at hl
    exact absurd hl (by simp)
  have hmoved : (some (t.receive c r (k r))).filter (fun t => mine t.request) = none := by
    rw [Option.filter_some, if_neg]
    exact hnot
  rw [Pool.watched_set ht, hmoved, ← hl]
  exact Function.update_eq_self _ _

/-- A thread that is watched in two pools makes the same step in both, if its command does. -/
lemma Pool.watched_step {p p' q : Pool σ ρ C R α} {l : ℕ × Ω} {t : Thread ρ C R α}
    (hstep : Pool.step exec p l = some p') (hsame : p.watched mine = q.watched mine)
    (hl : p.watched mine l.1 = some t) :
    ∃ c k s r, t.program = .call c k ∧ exec p.store l.1 c l.2 = some (s, r) ∧ p'.store = s ∧
      ∀ s', exec q.store l.1 c l.2 = some (s', r) →
        ∃ q', Pool.step exec q l = some q' ∧ q'.store = s' ∧
          p'.watched mine = q'.watched mine := by
  obtain ⟨ht, hmine⟩ := Pool.watched_eq_some.mp hl
  obtain ⟨ht', -⟩ := Pool.watched_eq_some.mp (hsame ▸ hl)
  obtain ⟨u, c, k, s, r, hu, hk, hexec, rfl⟩ := Pool.step_eq_some.mp hstep
  obtain rfl := Option.some.inj (ht.symm.trans hu)
  refine ⟨c, k, s, r, hk, hexec, rfl, fun s' hexec' => ?_⟩
  refine ⟨⟨s', q.threads.set l.1 (t.receive c r (k r))⟩, ?_, rfl, ?_⟩
  · exact Pool.step_eq_some.mpr ⟨t, c, k, s', r, ht', hk, hexec', rfl⟩
  · rw [Pool.watched_set ht, Pool.watched_set ht', hsame]

end

end Interleaving
