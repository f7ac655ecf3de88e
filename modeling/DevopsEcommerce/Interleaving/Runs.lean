import Mathlib.Data.Option.Basic
import Mathlib.Tactic.Basic

/-!
# Runs of a labelled step function

A system is given by `step : σ → ε → Option σ`: the label says who moves and how the
environment behaves, `none` means that the label is not enabled. This file has the runs
of such a system and the rules every later development uses:

* `run_invariant`, the induction over a run, and `run_invariant_of_stepsMeet`, the same
  under a condition `C` that every step of the run meets;
* `Throughout P`, "`P` holds in every state of the run", and
  `throughout_iff_stepsMeet`, which characterises it by a condition on the single steps;
* `run_simulation`, by which the runs of one system are followed by runs of another, and
  `Inevitable`, what happens in every run that goes on long enough.
-/

namespace Interleaving

section
variable {σ ε : Type*} (step : σ → ε → Option σ)

/-- The state reached from `s` by the labels `es`, taken one after the other. -/
def run : σ → List ε → Option σ
  | s, [] => some s
  | s, e :: es => (step s e).bind fun s' => run s' es

/-- The last state of labels that form a run. -/
def final (s : σ) (es : List ε) (h : (run step s es).isSome = true) : σ :=
  (run step s es).get h

/-- `P` holds in every state that the labels pass through, both ends included. -/
def Throughout (P : σ → Prop) : σ → List ε → Prop
  | s, [] => P s
  | s, e :: es => P s ∧ ∀ s', step s e = some s' → Throughout P s' es

/-- Every step of the run is taken in a state in which `C` allows its label. -/
def StepsMeet (C : σ → ε → Prop) : σ → List ε → Prop
  | _, [] => True
  | s, e :: es => C s e ∧ ∀ s', step s e = some s' → StepsMeet C s' es

/-- The condition on the steps of a run can be evaluated along it. -/
instance decidableStepsMeet {C : σ → ε → Prop} [inst : ∀ s e, Decidable (C s e)] :
    (s : σ) → (es : List ε) → Decidable (StepsMeet step C s es)
  | _, [] => .isTrue trivial
  | s, e :: es =>
    match inst s e, hstep : step s e with
    | .isFalse hC, _ => .isFalse fun h => hC h.1
    | .isTrue hC, none => .isTrue ⟨hC, fun s' hs' => by simp [hstep] at hs'⟩
    | .isTrue hC, some s₁ =>
      match decidableStepsMeet s₁ es with
      | .isTrue hrest => .isTrue ⟨hC, fun s' hs' => by
          rw [hstep, Option.some.injEq] at hs'
          exact hs' ▸ hrest⟩
      | .isFalse hrest => .isFalse fun h => hrest (h.2 s₁ hstep)

/-- `P` is preserved by every step. -/
def Preserved (P : σ → Prop) : Prop :=
  ∀ s e s', P s → step s e = some s' → P s'

variable {step}

/-! ## Taking a run apart -/

@[simp] lemma run_nil (s : σ) : run step s [] = some s := rfl

lemma run_final {s : σ} {es : List ε} (h : (run step s es).isSome = true) :
    run step s es = some (final step s es h) :=
  (Option.some_get h).symm

lemma run_cons_eq_some {s t : σ} {e : ε} {es : List ε} :
    run step s (e :: es) = some t ↔ ∃ s', step s e = some s' ∧ run step s' es = some t := by
  simp only [run, Option.bind_eq_some_iff]

/-! ## Invariants -/

/-- What every allowed step preserves holds at the end of a run of allowed steps. -/
theorem run_invariant_of_stepsMeet {P : σ → Prop} {C : σ → ε → Prop}
    (hstep : ∀ s e s', P s → C s e → step s e = some s' → P s')
    {s t : σ} {es : List ε} (hs : P s) (hC : StepsMeet step C s es)
    (hrun : run step s es = some t) : P t := by
  induction es generalizing s with
  | nil =>
    rw [run_nil, Option.some.injEq] at hrun
    exact hrun ▸ hs
  | cons e es ih =>
    obtain ⟨s', hs', hrest⟩ := run_cons_eq_some.mp hrun
    exact ih (hstep s e s' hs hC.1 hs') (hC.2 s' hs') hrest

/-- What follows at each step from an invariant of the allowed steps. -/
theorem stepsMeet_of_invariant {I : σ → Prop} {A C : σ → ε → Prop}
    (hI : ∀ s e s', I s → C s e → step s e = some s' → I s')
    (hA : ∀ s e, I s → C s e → A s e) {s : σ} {es : List ε} (hs : I s)
    (hC : StepsMeet step C s es) : StepsMeet step A s es := by
  induction es generalizing s with
  | nil => trivial
  | cons e es ih =>
    exact ⟨hA s e hs hC.1, fun s' hs' => ih (hI s e s' hs hC.1 hs') (hC.2 s' hs')⟩

lemma stepsMeet_true (s : σ) (es : List ε) : StepsMeet step (fun _ _ => True) s es := by
  induction es generalizing s with
  | nil => trivial
  | cons e es ih => exact ⟨trivial, fun s' _ => ih s'⟩

/-- A condition on the labels alone. -/
lemma stepsMeet_of_forall {D : ε → Prop} {es : List ε} (h : ∀ e ∈ es, D e) (s : σ) :
    StepsMeet step (fun _ e => D e) s es := by
  induction es generalizing s with
  | nil => trivial
  | cons e es ih =>
    have htail : ∀ e' ∈ es, D e' := fun e' he' => h e' (List.mem_cons_of_mem e he')
    exact ⟨h e List.mem_cons_self, fun s' _ => ih htail s'⟩

/-- What every step preserves holds at the end of a run. -/
theorem run_invariant {P : σ → Prop} (hstep : Preserved step P) {s t : σ} {es : List ε}
    (hs : P s) (hrun : run step s es = some t) : P t :=
  run_invariant_of_stepsMeet (fun s e s' hP _ => hstep s e s' hP) hs (stepsMeet_true s es) hrun

/-! ## Properties of every state of a run -/

lemma Throughout.head {P : σ → Prop} {s : σ} {es : List ε} (h : Throughout step P s es) :
    P s := by
  cases es with
  | nil => exact h
  | cons e es => exact h.1

/-- `Throughout` in terms of the states reached by the prefixes of the labels. -/
lemma throughout_iff_prefixes {P : σ → Prop} {s : σ} {es : List ε} :
    Throughout step P s es ↔
      ∀ es₁ es₂ t, es = es₁ ++ es₂ → run step s es₁ = some t → P t := by
  induction es generalizing s with
  | nil =>
    constructor
    · intro h es₁ es₂ t heq hrun
      obtain ⟨rfl, -⟩ := List.append_eq_nil_iff.mp heq.symm
      rw [run_nil, Option.some.injEq] at hrun
      exact hrun ▸ h
    · intro h
      exact h [] [] s rfl rfl
  | cons e es ih =>
    constructor
    · intro h es₁ es₂ t heq hrun
      cases es₁ with
      | nil =>
        rw [run_nil, Option.some.injEq] at hrun
        exact hrun ▸ h.1
      | cons e₁ es₁ =>
        rw [List.cons_append, List.cons.injEq] at heq
        obtain ⟨rfl, heq⟩ := heq
        obtain ⟨s', hs', hrest⟩ := run_cons_eq_some.mp hrun
        exact ih.mp (h.2 s' hs') es₁ es₂ t heq hrest
    · intro h
      refine ⟨h [] (e :: es) s rfl rfl, fun s' hs' => ih.mpr ?_⟩
      intro es₁ es₂ t heq hrun
      exact h (e :: es₁) es₂ t (by rw [heq, List.cons_append])
        (run_cons_eq_some.mpr ⟨s', hs', hrun⟩)

/-- A property of every state of a run holds in the last one. -/
lemma Throughout.last {P : σ → Prop} {s t : σ} {es : List ε} (h : Throughout step P s es)
    (hrun : run step s es = some t) : P t :=
  throughout_iff_prefixes.mp h es [] t (List.append_nil es).symm hrun

/-- What every allowed step preserves holds in every state of a run of allowed steps. -/
theorem throughout_of_stepsMeet {P : σ → Prop} {C : σ → ε → Prop}
    (hstep : ∀ s e s', P s → C s e → step s e = some s' → P s')
    {s : σ} {es : List ε} (hs : P s) (hC : StepsMeet step C s es) :
    Throughout step P s es := by
  induction es generalizing s with
  | nil => exact hs
  | cons e es ih =>
    exact ⟨hs, fun s' hs' => ih (hstep s e s' hs hC.1 hs') (hC.2 s' hs')⟩

/-- What every step preserves holds in every state of a run. -/
theorem throughout_of_preserved {P : σ → Prop} (hstep : Preserved step P) {s : σ}
    (hs : P s) (es : List ε) : Throughout step P s es :=
  throughout_of_stepsMeet (fun s e s' hP _ => hstep s e s' hP) hs (stepsMeet_true s es)

lemma Throughout.mono {P Q : σ → Prop} (hPQ : ∀ s, P s → Q s) {s : σ} {es : List ε}
    (h : Throughout step P s es) : Throughout step Q s es :=
  throughout_iff_prefixes.mpr fun es₁ es₂ t heq hrun =>
    hPQ t (throughout_iff_prefixes.mp h es₁ es₂ t heq hrun)

lemma StepsMeet.mono {C D : σ → ε → Prop} (hCD : ∀ s e, C s e → D s e) {s : σ}
    {es : List ε} (h : StepsMeet step C s es) : StepsMeet step D s es := by
  induction es generalizing s with
  | nil => trivial
  | cons e es ih => exact ⟨hCD s e h.1, fun s' hs' => ih (h.2 s' hs')⟩

lemma StepsMeet.and {C D : σ → ε → Prop} {s : σ} {es : List ε}
    (hC : StepsMeet step C s es) (hD : StepsMeet step D s es) :
    StepsMeet step (fun s e => C s e ∧ D s e) s es := by
  induction es generalizing s with
  | nil => trivial
  | cons e es ih =>
    exact ⟨⟨hC.1, hD.1⟩, fun s' hs' => ih (hC.2 s' hs') (hD.2 s' hs')⟩

lemma StepsMeet.of_append {C : σ → ε → Prop} {s : σ} {es₁ es₂ : List ε}
    (h : StepsMeet step C s (es₁ ++ es₂)) : StepsMeet step C s es₁ := by
  induction es₁ generalizing s with
  | nil => trivial
  | cons e es₁ ih => exact ⟨h.1, fun s' hs' => ih (h.2 s' hs')⟩

/-- Let every step of a run meet `D`. If in states with the invariant `I` a step meets `A`
exactly when it meets `C`, and steps that meet `C` keep `I`, then all steps of the run meet
`A` exactly when all meet `C`. -/
theorem stepsMeet_iff_stepsMeet {I : σ → Prop} {A C D : σ → ε → Prop}
    (hI : ∀ s e s', I s → D s e → C s e → step s e = some s' → I s')
    (hiff : ∀ s e s', I s → D s e → step s e = some s' → (A s e ↔ C s e))
    {s t : σ} {es : List ε} (hs : I s) (hD : StepsMeet step D s es)
    (hrun : run step s es = some t) : StepsMeet step A s es ↔ StepsMeet step C s es := by
  induction es generalizing s with
  | nil => exact Iff.rfl
  | cons e es ih =>
    obtain ⟨s', hs', hrest⟩ := run_cons_eq_some.mp hrun
    have hnext := hiff s e s' hs hD.1 hs'
    have htail : C s e → ∀ s₁, step s e = some s₁ →
        (StepsMeet step A s₁ es ↔ StepsMeet step C s₁ es) := by
      intro hC s₁ hs₁
      obtain rfl : s' = s₁ := Option.some.inj (hs'.symm.trans hs₁)
      exact ih (hI s e s' hs hD.1 hC hs') (hD.2 s' hs') hrest
    constructor
    · intro h
      exact ⟨hnext.mp h.1, fun s₁ hs₁ => (htail (hnext.mp h.1) s₁ hs₁).mp (h.2 s₁ hs₁)⟩
    · intro h
      exact ⟨hnext.mpr h.1, fun s₁ hs₁ => (htail h.1 s₁ hs₁).mpr (h.2 s₁ hs₁)⟩

/-- Let every step of a run meet `D`. If steps that meet `C` keep `A`, the first that does not
turns it into `B`, and `B` is never left, then the end of the run tells whether all its steps
met `C`. -/
theorem run_dichotomy {A B : σ → Prop} {C D : σ → ε → Prop}
    (hA : ∀ s e s', A s → D s e → C s e → step s e = some s' → A s')
    (hAB : ∀ s e s', A s → D s e → ¬ C s e → step s e = some s' → B s')
    (hB : ∀ s e s', B s → D s e → step s e = some s' → B s')
    {s t : σ} {es : List ε} (hs : A s) (hD : StepsMeet step D s es)
    (hrun : run step s es = some t) :
    (StepsMeet step C s es ∧ A t) ∨ (¬ StepsMeet step C s es ∧ B t) := by
  induction es generalizing s with
  | nil =>
    rw [run_nil, Option.some.injEq] at hrun
    exact .inl ⟨trivial, hrun ▸ hs⟩
  | cons e es ih =>
    obtain ⟨s', hs', hrest⟩ := run_cons_eq_some.mp hrun
    by_cases hC : C s e
    · rcases ih (hA s e s' hs hD.1 hC hs') (hD.2 s' hs') hrest with ⟨hall, ht⟩ | ⟨hsome, ht⟩
      · refine .inl ⟨⟨hC, fun s₁ hs₁ => ?_⟩, ht⟩
        obtain rfl : s' = s₁ := Option.some.inj (hs'.symm.trans hs₁)
        exact hall
      · exact .inr ⟨fun h => hsome (h.2 s' hs'), ht⟩
    · refine .inr ⟨fun h => hC h.1, ?_⟩
      exact run_invariant_of_stepsMeet hB (hAB s e s' hs hD.1 hC hs') (hD.2 s' hs') hrest

/-- A property of all states is one of the first and of all states after a step. -/
lemma throughout_iff_head_and_stepsMeet {P : σ → Prop} {s : σ} {es : List ε} :
    Throughout step P s es ↔
      P s ∧ StepsMeet step (fun s e => ∀ s', step s e = some s' → P s') s es := by
  induction es generalizing s with
  | nil => exact (and_iff_left trivial).symm
  | cons e es ih =>
    constructor
    · rintro ⟨hP, hrest⟩
      exact ⟨hP, fun s' hs' => (hrest s' hs').head, fun s' hs' => (ih.mp (hrest s' hs')).2⟩
    · rintro ⟨hP, hnext, hrest⟩
      exact ⟨hP, fun s' hs' => ih.mpr ⟨hnext s' hs', hrest s' hs'⟩⟩

/-- Let every step of a run meet `D`, and steps that meet `D` keep the invariant `J`. If, as long
as `J` holds, a step that meets `D` keeps `P` exactly when it meets `C`, then the run keeps `P` in
all its states exactly when all its steps meet `C`. -/
theorem throughout_iff_stepsMeet_under {J P : σ → Prop} {C D : σ → ε → Prop}
    (hJ : ∀ s e s', J s → D s e → step s e = some s' → J s')
    (hstep : ∀ s e s', J s → P s → D s e → step s e = some s' → (P s' ↔ C s e))
    {s t : σ} {es : List ε} (hs : J s) (hP : P s) (hD : StepsMeet step D s es)
    (hrun : run step s es = some t) :
    Throughout step P s es ↔ StepsMeet step C s es := by
  rw [throughout_iff_head_and_stepsMeet, and_iff_right hP]
  refine stepsMeet_iff_stepsMeet (I := fun s => J s ∧ P s) ?_ ?_ ⟨hs, hP⟩ hD hrun
  · intro s e s' h hDe hC hs'
    exact ⟨hJ s e s' h.1 hDe hs', (hstep s e s' h.1 h.2 hDe hs').mpr hC⟩
  · intro s e s' h hDe hs'
    rw [← hstep s e s' h.1 h.2 hDe hs']
    constructor
    · intro hnext
      exact hnext s' hs'
    · intro hP' s₁ hs₁
      obtain rfl : s' = s₁ := Option.some.inj (hs'.symm.trans hs₁)
      exact hP'

/-- The same for an invariant that every step keeps. -/
theorem throughout_iff_stepsMeet {J P : σ → Prop} {C D : σ → ε → Prop}
    (hJ : Preserved step J)
    (hstep : ∀ s e s', J s → P s → D s e → step s e = some s' → (P s' ↔ C s e))
    {s t : σ} {es : List ε} (hs : J s) (hP : P s) (hD : StepsMeet step D s es)
    (hrun : run step s es = some t) :
    Throughout step P s es ↔ StepsMeet step C s es :=
  throughout_iff_stepsMeet_under (fun s e s' h _ => hJ s e s' h) hstep hs hP hD hrun

/-! ## Simulation -/

lemma run_append {s t : σ} {es₁ es₂ : List ε} (h : run step s es₁ = some t) :
    run step s (es₁ ++ es₂) = run step t es₂ := by
  induction es₁ generalizing s with
  | nil => rw [← Option.some.inj h, List.nil_append]
  | cons e es₁ ih =>
    obtain ⟨s', hs', hrest⟩ := run_cons_eq_some.mp h
    rw [List.cons_append, run, hs', Option.bind_some, ih hrest]

/-- If every step can be followed by steps of another system, every run can. -/
theorem run_simulation {σ' ε' : Type*} {step' : σ' → ε' → Option σ'} {R : σ → σ' → Prop}
    (hstep : ∀ s t e s', R s t → step s e = some s' →
      ∃ es' t', run step' t es' = some t' ∧ R s' t')
    {s s' : σ} {t : σ'} {es : List ε} (hR : R s t) (hrun : run step s es = some s') :
    ∃ es' t', run step' t es' = some t' ∧ R s' t' := by
  induction es generalizing s t with
  | nil =>
    rw [run_nil, Option.some.injEq] at hrun
    exact ⟨[], t, rfl, hrun ▸ hR⟩
  | cons e es ih =>
    obtain ⟨s₁, hs₁, hrest⟩ := run_cons_eq_some.mp hrun
    obtain ⟨es₁, t₁, hrun₁, hR₁⟩ := hstep s t e s₁ hR hs₁
    obtain ⟨es₂, t₂, hrun₂, hR₂⟩ := ih hR₁ hrest
    exact ⟨es₁ ++ es₂, t₂, (run_append hrun₁).trans hrun₂, hR₂⟩

/-! ## What must happen -/

/-- Whatever happens, `Q` holds after finitely many steps. -/
inductive Inevitable (step : σ → ε → Option σ) (Q : σ → Prop) : σ → Prop
  | now {s : σ} (h : Q s) : Inevitable step Q s
  | later {s : σ} (hprogress : ∃ e s', step s e = some s')
      (hnext : ∀ e s', step s e = some s' → Inevitable step Q s') : Inevitable step Q s

/-- What one can keep from happening for ever is not inevitable. -/
theorem not_inevitable {I Q : σ → Prop} (hI : ∀ s, I s → ¬ Q s)
    (hstep : ∀ s, I s → ∃ e s', step s e = some s' ∧ I s') {s : σ} (hs : I s) :
    ¬ Inevitable step Q s := by
  intro h
  induction h with
  | now hQ => exact hI _ hs hQ
  | later _ _ ih =>
    obtain ⟨e, s', hs', hI'⟩ := hstep _ hs
    exact ih e s' hs' hI'

end

end Interleaving
