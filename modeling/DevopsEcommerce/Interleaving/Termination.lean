import DevopsEcommerce.Interleaving.Program

/-!
# Pools that come to an end

If each program ends after a bounded number of commands, then so does a pool of them, in whatever
order they are executed. What is left to show is that the threads do not wait for each other for
ever: that there is a step in every state that is not a final one (`Pool.inevitable_of_progress`).
-/

namespace Interleaving

variable {σ ρ C : Type} {R : C → Type} {α Ω : Type}

/-- The program ends after at most so many commands. -/
inductive Program.EndsWithin : ℕ → Program C R α → Prop
  | done (n : ℕ) (a : α) : EndsWithin n (.done a)
  | call {n : ℕ} {c : C} {k : R c → Program C R α} (h : ∀ r, EndsWithin n (k r)) :
      EndsWithin (n + 1) (.call c k)

lemma Program.EndsWithin.succ {n : ℕ} {p : Program C R α} (h : p.EndsWithin n) :
    p.EndsWithin (n + 1) := by
  induction h with
  | done n a => exact .done (n + 1) a
  | call _ ih => exact .call ih

/-- The threads have bounds that add up to `n`. -/
def Pool.EndsWithin (n : ℕ) (p : Pool σ ρ C R α) : Prop :=
  ∃ bounds : List ℕ,
    List.Forall₂ (fun t b => t.program.EndsWithin b) p.threads bounds ∧ bounds.sum = n

/-- If the bound of the thread that moves goes down by one, then so does the sum. -/
lemma exists_bounds_set {τ : Type*} {P : ℕ → τ → Prop} {ts : List τ} {bounds : List ℕ}
    (h : List.Forall₂ (fun t b => P b t) ts bounds) {i : ℕ} {t t' : τ} (ht : ts[i]? = some t)
    (hmove : ∀ b, P b t → ∃ b', b = b' + 1 ∧ P b' t') :
    ∃ bounds', List.Forall₂ (fun t b => P b t) (ts.set i t') bounds' ∧
      bounds.sum = bounds'.sum + 1 := by
  induction h generalizing i with
  | nil => cases ht
  | @cons u b ts bounds hu hrest ih =>
    cases i with
    | zero =>
      obtain rfl := Option.some.inj ht
      obtain ⟨b', rfl, hb'⟩ := hmove b hu
      refine ⟨b' :: bounds, .cons hb' hrest, ?_⟩
      rw [List.sum_cons, List.sum_cons]
      omega
    | succ i =>
      obtain ⟨bounds', hbounds', hsum⟩ := ih ht
      refine ⟨b :: bounds', .cons hu hbounds', ?_⟩
      rw [List.sum_cons, List.sum_cons]
      omega

namespace Pool
variable {exec : σ → ℕ → (c : C) → Ω → Option (σ × R c)} {p p' : Pool σ ρ C R α} {n : ℕ}

lemma endsWithin_init {serve : ρ → Program C R α} (hserve : ∀ q, (serve q).EndsWithin n) (s : σ)
    (requests : List ρ) : (Pool.init serve s requests).EndsWithin (n * requests.length) := by
  refine ⟨List.replicate requests.length n, ?_, ?_⟩
  · rw [Pool.init, List.forall₂_map_left_iff, List.forall₂_iff_zip]
    refine ⟨List.length_replicate.symm, fun {q b} hmem => ?_⟩
    rw [List.eq_of_mem_replicate (List.of_mem_zip hmem).2]
    exact hserve q
  · rw [List.sum_replicate_nat, Nat.mul_comm]

lemma endsWithin_step {l : ℕ × Ω} (h : p.EndsWithin n) (hstep : Pool.step exec p l = some p') :
    ∃ m, n = m + 1 ∧ p'.EndsWithin m := by
  obtain ⟨t, c, k, s, r, ht, hk, -, rfl⟩ := Pool.step_eq_some.mp hstep
  obtain ⟨bounds, hbounds, rfl⟩ := h
  have hmove : ∀ b, t.program.EndsWithin b →
      ∃ b', b = b' + 1 ∧ (t.receive c r (k r)).program.EndsWithin b' := by
    intro b hb
    rw [hk] at hb
    cases hb with
    | call hrest => exact ⟨_, rfl, hrest r⟩
  obtain ⟨bounds', hbounds', hsum⟩ := exists_bounds_set hbounds ht hmove
  exact ⟨bounds'.sum, hsum, bounds', hbounds', rfl⟩

/-- No run executes more commands than the bound. -/
theorem endsWithin_run {es : List (ℕ × Ω)} (h : p.EndsWithin n)
    (hrun : run (Pool.step exec) p es = some p') : ∃ m, n = es.length + m ∧ p'.EndsWithin m := by
  induction es generalizing p n with
  | nil =>
    obtain rfl := Option.some.inj hrun
    exact ⟨n, (Nat.zero_add n).symm, h⟩
  | cons e es ih =>
    obtain ⟨q, hstep, hrest⟩ := run_cons_eq_some.mp hrun
    obtain ⟨m, rfl, hq⟩ := endsWithin_step h hstep
    obtain ⟨m', rfl, hp'⟩ := ih hq hrest
    exact ⟨m', by rw [List.length_cons]; omega, hp'⟩

/-- Where there is always a step, `Q` is inevitable. `step` may be more restricted than the step of
the pool. -/
theorem inevitable_of_progress {ε : Type} {step : Pool σ ρ C R α → ε → Option (Pool σ ρ C R α)}
    {I Q : Pool σ ρ C R α → Prop} (hpool : ∀ p e p', step p e = some p' →
      ∃ l, Pool.step exec p l = some p')
    (hI : Preserved step I) (hprogress : ∀ p, I p → Q p ∨ ∃ e p', step p e = some p')
    (hp : I p) (h : p.EndsWithin n) : Inevitable step Q p := by
  induction n generalizing p with
  | zero =>
    rcases hprogress p hp with hQ | ⟨e, p', hstep⟩
    · exact .now hQ
    · obtain ⟨l, hl⟩ := hpool p e p' hstep
      obtain ⟨m, hm, -⟩ := endsWithin_step h hl
      exact absurd hm.symm (Nat.succ_ne_zero m)
  | succ n ih =>
    rcases hprogress p hp with hQ | hnext
    · exact .now hQ
    · refine .later hnext fun e p' hstep => ih (hI p e p' hp hstep) ?_
      obtain ⟨l, hl⟩ := hpool p e p' hstep
      obtain ⟨m, hm, hp'⟩ := endsWithin_step h hl
      obtain rfl := Nat.succ.inj hm
      exact hp'

end Pool

end Interleaving
