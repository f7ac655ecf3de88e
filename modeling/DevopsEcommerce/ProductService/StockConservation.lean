import DevopsEcommerce.ProductService.StockHandler
import Mathlib.Tactic.Ring

/-!
# What concurrent stock adjustments preserve

The stock never becomes negative (`inStock_preserved`). It equals the initial stock plus the
acknowledged adjustments as long as every effective save writes over the very stock its
request had read, and in no other case (`stock_conserved_iff`): the handler adds to a value
that another request may have replaced since, which `stock_lost_update` shows with two
sales of the same units.
-/

open Interleaving Numbers

namespace DevopsEcommerce.ProductService

/-- The units a request has added to the stock, once its save is acknowledged. -/
def appliedUnits (t : StockThread) : ℤ := if hasSaved t.trace then t.request.units else 0

/-- The units of a request that answered 200. -/
def answeredUnits (t : StockThread) : ℤ :=
  match t.program.answer? with
  | some answer => if answer.status = 200 then t.request.units else 0
  | none => 0

/-- The stock is the initial one plus all acknowledged adjustments. -/
def Balanced (stock : ℤ) (p : StockPool) : Prop :=
  p.store = some ⟨.int (stock + (p.threads.map appliedUnits).sum)⟩

/-- The save a request is about to send: the stock it loaded and the stock it assigned. -/
def pendingSave : StockProgram → Option (IntegralDouble × IntegralDouble)
  | .call (.save loaded newStock) _ => some (loaded, newStock)
  | _ => none

/-- The sum assigned is the exact sum of the loaded stock and the adjustment. -/
def ExactSum (a : ℤ) : IntegralDouble × IntegralDouble → Prop
  | (.int n, newStock) => newStock = .int (n + a)
  | _ => False

/-- The document still has the stock that was loaded; a save whose success is not going
to be reported finds the stock it would write. -/
def Undisturbed (store : Option ProductDoc) (loaded newStock : IntegralDouble) : Fault → Prop
  | .none => store = some ⟨loaded⟩
  | .before => True
  | .after => store = some ⟨newStock⟩

/-- If the label executes a save, the double addition behind it was exact. -/
def SaveExact (p : StockPool) (l : ℕ × Fault) : Prop :=
  ∀ t ∈ p.threads[l.1]?, ∀ s ∈ pendingSave t.program, ExactSum t.request.units s

/-- If the label executes a save that changes the stock, no other request has changed the
stock since this request read it. -/
def SaveUndisturbed (p : StockPool) (l : ℕ × Fault) : Prop :=
  ∀ t ∈ p.threads[l.1]?, ∀ s ∈ pendingSave t.program, t.request.units ≠ 0 →
    Undisturbed p.store s.1 s.2 l.2

instance (a : ℤ) : (s : IntegralDouble × IntegralDouble) → Decidable (ExactSum a s)
  | (.int n, newStock) => inferInstanceAs (Decidable (newStock = .int (n + a)))
  | (.posInf, _) => .isFalse id
  | (.negInf, _) => .isFalse id

instance (store : Option ProductDoc) (loaded newStock : IntegralDouble) :
    (fault : Fault) → Decidable (Undisturbed store loaded newStock fault)
  | .none => inferInstanceAs (Decidable (store = some ⟨loaded⟩))
  | .before => .isTrue trivial
  | .after => inferInstanceAs (Decidable (store = some ⟨newStock⟩))

instance (p : StockPool) (l : ℕ × Fault) : Decidable (SaveExact p l) :=
  inferInstanceAs (Decidable (∀ t ∈ p.threads[l.1]?, ∀ s ∈ pendingSave t.program, _))

instance (p : StockPool) (l : ℕ × Fault) : Decidable (SaveUndisturbed p l) :=
  inferInstanceAs (Decidable (∀ t ∈ p.threads[l.1]?, ∀ s ∈ pendingSave t.program, _ → _))

/-! ## The stock is never negative -/

/-- There is a document and its stock is not negative. -/
def InStock (p : StockPool) : Prop :=
  ∃ doc, p.store = some doc ∧ doc.stock.isNeg = false

lemma execSave_inStock {doc : ProductDoc} (loaded newStock : IntegralDouble) (fault : Fault)
    (hdoc : doc.stock.isNeg = false) :
    ∃ doc', (execSave (some doc) loaded newStock fault).1 = some doc' ∧
      doc'.stock.isNeg = false := by
  unfold execSave
  split
  · exact ⟨doc, rfl, hdoc⟩
  · rename_i hneg
    have hsaved : (saved doc loaded newStock).stock.isNeg = false := by
      unfold saved
      split
      · exact hdoc
      · rename_i hne
        simpa using fun h => hneg ⟨hne, h⟩
    cases fault with
    | none => exact ⟨_, rfl, hsaved⟩
    | before => exact ⟨doc, rfl, hdoc⟩
    | after => exact ⟨_, rfl, hsaved⟩

/-- No command makes the stock negative: the validator refuses what the handler's own
check would let through. -/
theorem inStock_preserved : Preserved stockStep InStock := by
  rintro p ⟨i, fault⟩ p' ⟨doc, hstore, hdoc⟩ hstep
  obtain ⟨t, c, k, store, r, -, -, hexec, rfl⟩ := Pool.step_eq_some.mp hstep
  rw [hstore] at hexec
  cases c with
  | findById =>
    cases hexec
    exact ⟨doc, rfl, hdoc⟩
  | save loaded newStock =>
    have hsave := execSave_inStock loaded newStock fault hdoc
    rw [show execSave (some doc) loaded newStock fault = (store, r) from
      Option.some.inj hexec] at hsave
    exact hsave
  | invalidateCache =>
    cases hexec
    exact ⟨doc, rfl, hdoc⟩

/-! ## One step of the balance -/

lemma appliedUnits_receive_of_not_save {t : StockThread} {c : StockCommand} {r : StockReply c}
    {q : StockProgram} (h : hasSaved [⟨c, r⟩] = false) :
    appliedUnits (t.receive c r q) = appliedUnits t := by
  have hcons : hasSaved (⟨c, r⟩ :: t.trace) = (hasSaved [⟨c, r⟩] || hasSaved t.trace) := by
    simp [hasSaved]
  simp only [appliedUnits, Thread.receive, hcons, h, Bool.false_or]

/-- A command that is not a save leaves the balance as it is. -/
lemma balanced_of_store_eq {stock : ℤ} {p : StockPool} {i : ℕ} {t t' : StockThread}
    (hbal : Balanced stock p) (ht : p.threads[i]? = some t)
    (happlied : appliedUnits t' = appliedUnits t) :
    Balanced stock { store := p.store, threads := p.threads.set i t' } := by
  have hsum := sum_map_set ht appliedUnits t'
  rw [happlied] at hsum
  rw [Balanced] at hbal ⊢
  rw [hbal, add_right_cancel hsum]

/-- A save that passes the validator, on a document that is there. -/
lemma execSave_of_not_neg (doc : ProductDoc) (loaded : IntegralDouble) {newStock : IntegralDouble}
    (hneg : newStock.isNeg = false) (fault : Fault) :
    execSave (some doc) loaded newStock fault =
      (if fault = .before then some doc else some (saved doc loaded newStock),
        if fault = .none then .ok () else .error .driverError) := by
  have hvalid : ¬ (newStock ≠ loaded ∧ newStock.isNeg = true) := by
    rintro ⟨-, h⟩
    exact absurd (hneg.symm.trans h) (by decide)
  unfold execSave
  rw [if_neg hvalid]
  cases fault <;> rfl

/-- An adjustment by nothing leaves the path unmodified. -/
lemma saved_add (doc : ProductDoc) (n a : ℤ) :
    saved doc (.int n) (.int (n + a)) = if a = 0 then doc else ⟨.int (n + a)⟩ := by
  have hsame : IntegralDouble.int (n + a) = .int n ↔ a = 0 := by
    rw [IntegralDouble.int.injEq]
    omega
  exact if_congr hsame rfl rfl

/-- What a save does to the balance. -/
lemma balanced_save_iff {stock n a : ℤ} {p : StockPool} {i : ℕ} {t t' : StockThread}
    {fault : Fault} {store : Option ProductDoc} {r : Except SaveError Unit}
    (hbal : Balanced stock p) (ht : p.threads[i]? = some t) (hbefore : appliedUnits t = 0)
    (hneg : (IntegralDouble.int (n + a)).isNeg = false)
    (hexec : execSave p.store (.int n) (.int (n + a)) fault = (store, r))
    (hafter : appliedUnits t' = if r = .ok () then a else 0) :
    Balanced stock { store := store, threads := p.threads.set i t' } ↔
      (a ≠ 0 → Undisturbed p.store (.int n) (.int (n + a)) fault) := by
  have hsum := sum_map_set ht appliedUnits t'
  rw [hbefore, add_zero, hafter] at hsum
  unfold Balanced at hbal ⊢
  simp only [hsum]
  rw [hbal] at hexec ⊢
  rw [execSave_of_not_neg _ _ hneg, saved_add] at hexec
  obtain ⟨rfl, rfl⟩ := Prod.mk.inj hexec
  generalize (p.threads.map appliedUnits).sum = applied
  cases fault with
  | before =>
    -- nothing is written and nothing acknowledged
    simp [Undisturbed]
  | none =>
    by_cases h : a = 0
    · simp [h]
    · -- the new stock is the right one exactly if the old one was the one read
      simp [h, Undisturbed]
      omega
  | after =>
    by_cases h : a = 0
    · simp [h]
    · -- the adjustment is written without being acknowledged
      simp [h, Undisturbed]
      omega

/-- The conditions on a step concern the save that its thread is about to send. -/
lemma saveUndisturbed_iff {p : StockPool} {i : ℕ} {fault : Fault} {t : StockThread}
    (ht : p.threads[i]? = some t) :
    SaveUndisturbed p (i, fault) ↔ ∀ s ∈ pendingSave t.program, t.request.units ≠ 0 →
      Undisturbed p.store s.1 s.2 fault := by
  simp [SaveUndisturbed, ht]

/-- A step of the pool keeps the balance exactly when it is not a disturbed save. -/
lemma balanced_step_iff {stock : ℤ} {p p' : StockPool} {l : ℕ × Fault}
    (hserves : p.Serves patchStock) (hbal : Balanced stock p) (hexact : SaveExact p l)
    (hstep : stockStep p l = some p') : Balanced stock p' ↔ SaveUndisturbed p l := by
  obtain ⟨i, fault⟩ := l
  obtain ⟨⟨req, trace, q⟩, c, k, store, r, ht, hk, hexec, rfl⟩ := Pool.step_eq_some.mp hstep
  have hstage := patchStock_stage (hserves _ (List.mem_of_getElem? ht))
  simp only at hk ht hexec hstage
  subst hk
  rw [saveUndisturbed_iff ht]
  cases hstage with
  | reading a =>
    obtain ⟨rfl, -⟩ := Prod.mk.inj (Option.some.inj hexec)
    exact iff_of_true (balanced_of_store_eq hbal ht (appliedUnits_receive_of_not_save rfl))
      (by simp [pendingSave])
  | invalidating a product =>
    obtain ⟨rfl, -⟩ := Prod.mk.inj (Option.some.inj hexec)
    exact iff_of_true (balanced_of_store_eq hbal ht (appliedUnits_receive_of_not_save rfl))
      (by simp [pendingSave])
  | saving a product hneg =>
    obtain ⟨loaded⟩ := product
    have hsum := hexact _ ht _ rfl
    rcases loaded with n | _ | _
    · -- the request loaded the finite stock `n` and assigned `n + a`
      have hnew : (IntegralDouble.int n).add a = .int (n + a) := hsum
      have hsave : execSave p.store (.int n) ((IntegralDouble.int n).add a) fault = (store, r) :=
        Option.some.inj hexec
      -- with exact sums the save moves the stock by the requested units
      rw [hnew] at hsave hneg
      rw [balanced_save_iff hbal ht rfl hneg hsave]
      · simp [pendingSave, StockRequest.units, hnew]
      · rcases r with e | _ <;> simp [appliedUnits, hasSaved, Thread.receive, StockRequest.units]
    · exact hsum.elim
    · exact hsum.elim

/-! ## Runs -/

lemma balanced_init (stock : ℤ) (requests : List StockRequest) :
    Balanced stock (stockPool stock requests) := by
  have hzero : ((stockPool stock requests).threads.map appliedUnits).sum = 0 := by
    simp [stockPool, Pool.init, appliedUnits, hasSaved, Function.comp_def]
  rw [Balanced, hzero, add_zero]
  rfl

/-- In a finished pool the requests that saved are those that answered 200. -/
lemma appliedUnits_eq_answeredUnits {p : StockPool} (hserves : p.Serves patchStock)
    (hfin : p.Finished) :
    p.threads.map appliedUnits = p.threads.map answeredUnits := by
  refine List.map_congr_left fun t ht => ?_
  have hdone := hfin t ht
  have hstage := patchStock_stage (hserves t ht)
  obtain ⟨req, trace, q⟩ := t
  simp only at hstage hdone
  cases hstage with
  | refused => simp [appliedUnits, answeredUnits, hasSaved, Program.answer?]
  | reading a => cases hdone
  | declined a found answer h =>
    simp [appliedUnits, answeredUnits, hasSaved, Program.answer?, h]
  | saving a product h => cases hdone
  | failed a product e => simp [appliedUnits, answeredUnits, hasSaved, Program.answer?]
  | invalidating a product => cases hdone
  | adjusted a product => simp [appliedUnits, answeredUnits, hasSaved, Program.answer?]

/-- **Stock adjustments.** In every interleaving of `PATCH /:id/stock` requests, whose adjustments
are JavaScript numbers, integral ones, the stock stays non-negative. As long as the double
additions are exact, the stock is in every state the initial stock plus the acknowledged
adjustments if and only if no request saves over a stock other than the one it read; once such a
run has finished, these are the adjustments of the requests that answered 200. -/
theorem stock_conserved_iff (stock : ℤ) (hstock : 0 ≤ stock) (requests : List StockRequest)
    (es : List (ℕ × Fault)) (p : StockPool)
    (hrun : run stockStep (stockPool stock requests) es = some p) :
    Throughout stockStep InStock (stockPool stock requests) es ∧
    (StepsMeet stockStep SaveExact (stockPool stock requests) es →
      (Throughout stockStep (Balanced stock) (stockPool stock requests) es ↔
        StepsMeet stockStep SaveUndisturbed (stockPool stock requests) es) ∧
      (StepsMeet stockStep SaveUndisturbed (stockPool stock requests) es → p.Finished →
        p.store = some ⟨.int (stock + (p.threads.map answeredUnits).sum)⟩)) := by
  have hserves₀ : (stockPool stock requests).Serves patchStock := Pool.serves_init _ _ _
  have hin₀ : InStock (stockPool stock requests) :=
    ⟨⟨.int stock⟩, rfl, by simpa [IntegralDouble.isNeg] using hstock⟩
  refine ⟨throughout_of_preserved inStock_preserved hin₀ es, fun hexact => ?_⟩
  have hiff := throughout_iff_stepsMeet (Pool.serves_preserved patchStock)
    (fun _ _ _ hserves hbal hex hstep => balanced_step_iff hserves hbal hex hstep)
    hserves₀ (balanced_init stock requests) hexact hrun
  refine ⟨hiff, fun hfree hfin => ?_⟩
  have hbal : Balanced stock p := (hiff.mpr hfree).last hrun
  have hserves : p.Serves patchStock :=
    run_invariant (Pool.serves_preserved patchStock) hserves₀ hrun
  rw [← appliedUnits_eq_answeredUnits hserves hfin]
  exact hbal

/-- Two sales one after the other meet the conditions and empty the stock. -/
theorem stock_conserved_iff_serial :
    (final stockStep (stockPool 5 [⟨some (-3)⟩, ⟨some (-2)⟩])
      [(0, .none), (0, .none), (0, .none), (1, .none), (1, .none), (1, .none)]
      (by decide)).store = some ⟨.int (5 + (-3 + -2))⟩ :=
  ((stock_conserved_iff 5 (by decide) [⟨some (-3)⟩, ⟨some (-2)⟩] _ _
    (run_final (by decide))).2 (by decide)).2 (by decide) (by decide)

/-- **A lost update.** Two requests each sell three of five units: both read 5, both pass
the check and both save 2, so that six of five units are sold and two are left. -/
theorem stock_lost_update :
    ¬ ∀ (stock : ℤ) (requests : List StockRequest) (es : List (ℕ × Fault)) (p : StockPool),
      0 ≤ stock → run stockStep (stockPool stock requests) es = some p → p.Finished →
        p.store = some ⟨.int (stock + (p.threads.map answeredUnits).sum)⟩ := by
  intro h
  have hsold := h 5 [⟨some (-3)⟩, ⟨some (-3)⟩]
    [(0, .none), (1, .none), (0, .none), (1, .none), (0, .none), (1, .none)] _
    (by decide) rfl (by decide)
  exact absurd hsold (by decide)

end DevopsEcommerce.ProductService
