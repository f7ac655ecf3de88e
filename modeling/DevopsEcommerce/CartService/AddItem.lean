import Mathlib.Algebra.Order.Ring.Int
import DevopsEcommerce.CartService.UnitSteps

/-!
# Concurrent adds

`handleAddItem` reads an item and writes it back with a larger quantity, in two commands.
`adds_counted_iff` says when the quantities of all adds arrive in the cart: exactly if every
`HSET` still finds the quantity that its `HGET` has read. From the first one that does not
on, the cart is short, and no later add makes up for it.
-/

open Interleaving

namespace DevopsEcommerce.CartService

/-! ## A pool of adds -/

/-- The request adds to one product of one user's cart. -/
def AddsTo (userID product : String) : CartRequest → Prop
  | .addItem body _ => ∀ req, body = some req → req.userID = userID ∧ req.productID = product
  | _ => False

lemma AddsTo.shopsFor {userID product : String} {request : CartRequest}
    (h : AddsTo userID product request) : ShopsFor userID request := by
  cases request with
  | addItem body now => exact fun req hreq => (h req hreq).1
  | _ => exact h.elim

/-- The pool of adds to one product. -/
structure Adding (userID product : String) (p : CartPool) : Prop where
  shopping : Shopping userID (fun field => field = product) p
  requests : ∀ t ∈ p.threads, AddsTo userID product t.request

lemma Adding.init {userID product : String} {carts : String → Cart}
    {requests : List CartRequest}
    (hcart : ∀ raw, (fieldsOf ⟨carts, []⟩ userID).lookup product = some raw →
      Readable product raw)
    (hrequests : ∀ q ∈ requests, AddsTo userID product q) :
    Adding userID product (cartPool carts requests) := by
  refine ⟨Shopping.init ?_ fun q hq => (hrequests q hq).shopsFor, fun t ht => ?_⟩
  · intro field hfield
    rw [hfield]
    exact hcart
  · obtain ⟨q, hq, rfl⟩ := List.mem_map.mp ht
    exact hrequests q hq

theorem adding_preserved (userID product : String) :
    Preserved cartStep (Adding userID product) := by
  intro p l p' hp hstep
  refine ⟨shopping_preserved userID _ p l p' hp.shopping hstep, ?_⟩
  exact Pool.forall_threads_preserved (P := fun t => AddsTo userID product t.request)
    (fun _ _ _ _ _ _ _ h _ _ => h) p l p' hp.requests hstep

lemma shoppingStep_of_adding {userID product : String} {p p' : CartPool} {l : ℕ × Choice}
    (hp : Adding userID product p) (hfault : FaultFree p l) (hstep : cartStep p l = some p') :
    ∃ t t', p.threads[l.1]? = some t ∧ p'.threads = p.threads.set l.1 t' ∧
      ShoppingStep userID p.store p'.store t t' := by
  have hF : ∀ t ∈ p.threads, ∀ req now, t.request = .addItem (some req) now →
      req.productID = product := by
    intro t ht req now hrequest
    have hadds := hp.requests t ht
    rw [hrequest] at hadds
    exact (hadds req rfl).2
  exact shoppingStep_of_step hp.shopping hfault hF hstep

/-! ## The units of all adds -/

/-- The initial quantity and the units added since. -/
def countedUnits (initial : ℤ) (product : String) (p : CartPool) : ℤ :=
  initial + (p.threads.map (addedUnits product)).sum

/-- No add goes on from more than this quantity. -/
def PendingAtMost (bound : ℤ) (p : CartPool) : Prop :=
  ∀ t ∈ p.threads, ∀ add ∈ pendingAdd t, add.2.toInt ≤ bound

/-- All units added are in the cart, and no add goes on from more. -/
structure AllCounted (initial : ℤ) (userID product : String) (p : CartPool) : Prop where
  stored : storedQuantity p.store userID product = countedUnits initial product p
  pending : PendingAtMost (countedUnits initial product p) p

/-- Some units are missing in the cart, and also in what every add goes on from. -/
structure SomeLost (initial : ℤ) (userID product : String) (p : CartPool) : Prop where
  stored : storedQuantity p.store userID product < countedUnits initial product p
  pending : PendingAtMost (countedUnits initial product p - 1) p

/-- The counted units change by those of the thread that moved. -/
lemma countedUnits_set (initial : ℤ) (product : String) {p p' : CartPool} {i : ℕ}
    {t t' : CartThread} (ht : p.threads[i]? = some t) (hthreads : p'.threads = p.threads.set i t') :
    countedUnits initial product p' + addedUnits product t =
      countedUnits initial product p + addedUnits product t' := by
  have hsum := sum_map_set ht (addedUnits product) t'
  unfold countedUnits
  rw [hthreads]
  omega

section
variable {initial : ℤ} {userID product : String} {p p' : CartPool} {l : ℕ × Choice}
  {t t' : CartThread}

lemma Adding.target (hp : Adding userID product p) (ht : p.threads[l.1]? = some t)
    {req : AddItemRequest} {now : String} (hrequest : t.request = .addItem (some req) now) :
    req.userID = userID ∧ req.productID = product := by
  have hadds := hp.requests t (List.mem_of_getElem? ht)
  rw [hrequest] at hadds
  exact hadds req rfl

lemma Adding.pendingClear_eq_none (hp : Adding userID product p)
    (ht : p.threads[l.1]? = some t) : pendingClear t = none := by
  have hmem := List.mem_of_getElem? ht
  have hstage := hp.shopping.stages t hmem
  have hadds := hp.requests t hmem
  obtain ⟨request, trace, q⟩ := t
  simp only at hstage hadds
  cases hstage with
  | refused => rfl
  | adding huser hvalid h => cases h <;> rfl
  | checkingOut h => exact hadds.elim

/-- The bound may grow, if it holds for the thread that moved. -/
lemma PendingAtMost.step {bound bound' : ℤ} (h : PendingAtMost bound p)
    (hthreads : p'.threads = p.threads.set l.1 t') (hle : bound ≤ bound')
    (hmoved : ∀ add ∈ pendingAdd t', add.2.toInt ≤ bound') : PendingAtMost bound' p' := by
  unfold PendingAtMost
  rw [hthreads]
  apply forall_mem_set
  · intro u hu add hadd
    exact (h u hu add hadd).trans hle
  · exact hmoved

/-- The thread that moved does not wait for an `HSET`. -/
lemma PendingAtMost.step_none {bound bound' : ℤ} (h : PendingAtMost bound p)
    (hthreads : p'.threads = p.threads.set l.1 t') (hle : bound ≤ bound')
    (hadd' : pendingAdd t' = none) : PendingAtMost bound' p' := by
  apply h.step hthreads hle
  rw [hadd']
  intro add hadd
  cases hadd

/-- The thread that moved has read a quantity. -/
lemma PendingAtMost.step_some {bound bound' : ℤ} (h : PendingAtMost bound p)
    (hthreads : p'.threads = p.threads.set l.1 t') (hle : bound ≤ bound')
    {req : AddItemRequest} {found : Int64} (hadd' : pendingAdd t' = some (req, found))
    (hfound : found.toInt ≤ bound') : PendingAtMost bound' p' := by
  apply h.step hthreads hle
  rw [hadd']
  intro add hadd
  cases hadd
  exact hfound

lemma allCounted_step (hp : Adding userID product p) (h : AllCounted initial userID product p)
    (hfault : FaultFree p l) (hexact : AdditionExact p l) (hC : AddUndisturbed p l)
    (hstep : cartStep p l = some p') : AllCounted initial userID product p' := by
  obtain ⟨t, t', ht, hthreads, hkind⟩ := shoppingStep_of_adding hp hfault hstep
  have hcounted := countedUnits_set initial product ht hthreads
  have hall := h.stored
  cases hkind with
  | reads req now found hrequest hadd hadd' hclear hfound hkept =>
    obtain ⟨rfl, rfl⟩ := hp.target ht hrequest
    obtain ⟨hstored, hadded, -⟩ := hkept req.productID
    have hsame : countedUnits initial req.productID p' = countedUnits initial req.productID p := by
      omega
    have hread : found.toInt ≤ countedUnits initial req.productID p' := by
      omega
    exact ⟨by omega, h.pending.step_some hthreads hsame.ge hadd' hread⟩
  | writes req now found hrequest huser hadd hadd' hclear hpos hstored hadded hadded' =>
    obtain ⟨rfl, rfl⟩ := hp.target ht hrequest
    have hbefore := hadded req.productID
    have hafter := (hadded' req.productID).trans (if_pos rfl)
    have hwritten := (hstored req.productID).trans (if_pos rfl)
    have hsum := hexact.toInt_add ht hadd
    -- the sum is one of what is still stored
    have hread := (addUndisturbed_iff ht hadd).mp hC
    have hgrown : countedUnits initial req.productID p ≤ countedUnits initial req.productID p' := by
      omega
    have hstored' : storedQuantity p'.store req.userID req.productID =
        countedUnits initial req.productID p' := by
      omega
    exact ⟨hstored', h.pending.step_none hthreads hgrown hadd'⟩
  | clears order hadd hadd' hclear =>
    rw [hp.pendingClear_eq_none ht] at hclear
    cases hclear
  | rests hadd hadd' hclear hkept =>
    obtain ⟨hstored, hadded, -⟩ := hkept product
    exact ⟨by omega, h.pending.step_none hthreads (by omega) hadd'⟩

/-- The first `HSET` that does not find what was read overwrites units. -/
lemma someLost_of_disturbed (hp : Adding userID product p)
    (h : AllCounted initial userID product p) (hfault : FaultFree p l)
    (hexact : AdditionExact p l) (hC : ¬ AddUndisturbed p l) (hstep : cartStep p l = some p') :
    SomeLost initial userID product p' := by
  obtain ⟨t, t', ht, hthreads, hkind⟩ := shoppingStep_of_adding hp hfault hstep
  have hcounted := countedUnits_set initial product ht hthreads
  have hall := h.stored
  cases hkind with
  | reads req now found hrequest hadd => exact absurd (addUndisturbed_of_none ht hadd) hC
  | writes req now found hrequest huser hadd hadd' hclear hpos hstored hadded hadded' =>
    obtain ⟨rfl, rfl⟩ := hp.target ht hrequest
    have hbefore := hadded req.productID
    have hafter := (hadded' req.productID).trans (if_pos rfl)
    have hwritten := (hstored req.productID).trans (if_pos rfl)
    have hsum := hexact.toInt_add ht hadd
    have hread := mt (addUndisturbed_iff ht hadd).mpr hC
    -- the add has read at most what is counted, and not the same
    have hfound : found.toInt ≤ countedUnits initial req.productID p :=
      h.pending t (List.mem_of_getElem? ht) (req, found) hadd
    have hgrown : countedUnits initial req.productID p ≤
        countedUnits initial req.productID p' - 1 := by
      omega
    have hshort : storedQuantity p'.store req.userID req.productID <
        countedUnits initial req.productID p' := by
      omega
    exact ⟨hshort, h.pending.step_none hthreads hgrown hadd'⟩
  | clears order hadd => exact absurd (addUndisturbed_of_none ht hadd) hC
  | rests hadd => exact absurd (addUndisturbed_of_none ht hadd) hC

/-- What is missing stays missing. -/
lemma someLost_step (hp : Adding userID product p) (h : SomeLost initial userID product p)
    (hfault : FaultFree p l) (hexact : AdditionExact p l) (hstep : cartStep p l = some p') :
    SomeLost initial userID product p' := by
  obtain ⟨t, t', ht, hthreads, hkind⟩ := shoppingStep_of_adding hp hfault hstep
  have hcounted := countedUnits_set initial product ht hthreads
  have hsome := h.stored
  cases hkind with
  | reads req now found hrequest hadd hadd' hclear hfound hkept =>
    obtain ⟨rfl, rfl⟩ := hp.target ht hrequest
    obtain ⟨hstored, hadded, -⟩ := hkept req.productID
    have hle : countedUnits initial req.productID p - 1 ≤
        countedUnits initial req.productID p' - 1 := by
      omega
    have hread : found.toInt ≤ countedUnits initial req.productID p' - 1 := by
      omega
    exact ⟨by omega, h.pending.step_some hthreads hle hadd' hread⟩
  | writes req now found hrequest huser hadd hadd' hclear hpos hstored hadded hadded' =>
    obtain ⟨rfl, rfl⟩ := hp.target ht hrequest
    have hbefore := hadded req.productID
    have hafter := (hadded' req.productID).trans (if_pos rfl)
    have hwritten := (hstored req.productID).trans (if_pos rfl)
    have hsum := hexact.toInt_add ht hadd
    -- the sum is one of too little, whatever is stored
    have hfound : found.toInt ≤ countedUnits initial req.productID p - 1 :=
      h.pending t (List.mem_of_getElem? ht) (req, found) hadd
    have hgrown : countedUnits initial req.productID p - 1 ≤
        countedUnits initial req.productID p' - 1 := by
      omega
    have hshort : storedQuantity p'.store req.userID req.productID <
        countedUnits initial req.productID p' := by
      omega
    exact ⟨hshort, h.pending.step_none hthreads hgrown hadd'⟩
  | clears order hadd hadd' hclear =>
    rw [hp.pendingClear_eq_none ht] at hclear
    cases hclear
  | rests hadd hadd' hclear hkept =>
    obtain ⟨hstored, hadded, -⟩ := hkept product
    exact ⟨by omega, h.pending.step_none hthreads (by omega) hadd'⟩

end

/-! ## A whole run -/

/-- The units that a request asks to add. -/
def requestedUnits : CartRequest → ℤ
  | .addItem (some req) _ => req.quantity.toInt
  | _ => 0

/-- An add that was answered with 200 has written. -/
lemma hasWritten_of_answeredOk {userID : String} {req : AddItemRequest} {now : String}
    {trace : List (Σ c, CartReply c)} {q : CartProgram}
    (hstage : ShoppingStage userID (.addItem (some req) now) trace q)
    (hok : q.answer?.map Response.code = some 200) : hasWritten trace = true := by
  cases hstage with
  | refused request answer h => exact absurd (Option.some.inj hok) h
  | adding huser hvalid h =>
    cases h with
    | reading => cases hok
    | writing existing => cases hok
    | failed existing e => exact absurd (Option.some.inj hok) (by decide)
    | expiring existing => cases hok
    | unexpired existing e => exact absurd (Option.some.inj hok) (by decide)
    | answered existing => rfl

lemma addedUnits_of_answeredOk {userID product : String} {t : CartThread}
    (hstage : ShoppingStage userID t.request t.trace t.program)
    (hadds : AddsTo userID product t.request) (hok : AnsweredOk t) :
    addedUnits product t = requestedUnits t.request := by
  obtain ⟨request, trace, q⟩ := t
  simp only at hstage hadds
  cases request with
  | addItem body now =>
    cases body with
    | none => rfl
    | some req => exact if_pos ⟨(hadds req rfl).2, hasWritten_of_answeredOk hstage hok⟩
  | _ => rfl

/-- If all adds are answered with 200, all requested units are counted. -/
lemma countedUnits_of_answeredOk {initial : ℤ} {userID product : String} {p : CartPool}
    (hp : Adding userID product p) (hok : ∀ t ∈ p.threads, AnsweredOk t) :
    countedUnits initial product p =
      initial + ((p.threads.map Thread.request).map requestedUnits).sum := by
  unfold countedUnits
  rw [List.map_map]
  congr 2
  apply List.map_congr_left
  intro t ht
  exact addedUnits_of_answeredOk (hp.shopping.stages t ht) (hp.requests t ht) (hok t ht)

lemma allCounted_init (userID product : String) (carts : String → Cart)
    (requests : List CartRequest) :
    AllCounted (storedQuantity ⟨carts, []⟩ userID product) userID product
      (cartPool carts requests) := by
  refine ⟨?_, fun t ht add hadd => ?_⟩
  · have hzero : ((cartPool carts requests).threads.map (addedUnits product)).sum = 0 := by
      apply List.sum_eq_zero
      intro n hn
      obtain ⟨t, ht, rfl⟩ := List.mem_map.mp hn
      obtain ⟨request, -, rfl⟩ := List.mem_map.mp ht
      exact addedUnits_start product request _
    unfold countedUnits
    rw [hzero, add_zero]
    rfl
  · obtain ⟨request, -, rfl⟩ := List.mem_map.mp ht
    simp [pendingAdd] at hadd

/-- If all adds to one product are answered with 200, their units are in the cart at the end
exactly if every `HSET` of the run finds the quantity that its `HGET` has read. -/
theorem adds_counted_iff {userID product : String} {carts : String → Cart}
    {requests : List CartRequest} {es : List (ℕ × Choice)} {p : CartPool}
    (hcart : ∀ raw, (fieldsOf ⟨carts, []⟩ userID).lookup product = some raw →
      Readable product raw)
    (hrequests : ∀ q ∈ requests, AddsTo userID product q)
    (hfault : StepsMeet cartStep FaultFree (cartPool carts requests) es)
    (hexact : StepsMeet cartStep AdditionExact (cartPool carts requests) es)
    (hrun : run cartStep (cartPool carts requests) es = some p)
    (hok : ∀ t ∈ p.threads, AnsweredOk t) :
    storedQuantity p.store userID product =
        storedQuantity ⟨carts, []⟩ userID product + (requests.map requestedUnits).sum ↔
      StepsMeet cartStep AddUndisturbed (cartPool carts requests) es := by
  let initial := storedQuantity ⟨carts, []⟩ userID product
  have hadding := Adding.init hcart hrequests
  have hcounted : countedUnits initial product p =
      initial + (requests.map requestedUnits).sum := by
    have hsame := run_invariant (Pool.requests_preserved requests)
      (Pool.requests_init serve _ requests) hrun
    rw [← hsame]
    exact countedUnits_of_answeredOk (run_invariant (adding_preserved userID product) hadding hrun)
      hok
  -- the units are all in the cart up to the first step that is not allowed, and never after it
  have hcases := run_dichotomy
    (A := fun p => Adding userID product p ∧ AllCounted initial userID product p)
    (B := fun p => Adding userID product p ∧ SomeLost initial userID product p)
    (C := AddUndisturbed) (D := fun p l => FaultFree p l ∧ AdditionExact p l)
    (fun p l p' h hD hC hstep => ⟨adding_preserved userID product p l p' h.1 hstep,
      allCounted_step h.1 h.2 hD.1 hD.2 hC hstep⟩)
    (fun p l p' h hD hC hstep => ⟨adding_preserved userID product p l p' h.1 hstep,
      someLost_of_disturbed h.1 h.2 hD.1 hD.2 hC hstep⟩)
    (fun p l p' h hD hstep => ⟨adding_preserved userID product p l p' h.1 hstep,
      someLost_step h.1 h.2 hD.1 hD.2 hstep⟩)
    (show _ ∧ _ from ⟨hadding, allCounted_init userID product carts requests⟩)
    (hfault.and hexact) hrun
  rw [← hcounted]
  rcases hcases with ⟨hall, -, hA⟩ | ⟨hsome, -, hB⟩
  · exact iff_of_true hA.stored hall
  · exact iff_of_false hB.stored.ne hsome

def addTwo : CartRequest := .addItem (some ⟨"u", "p", 2⟩) "t"

def addThree : CartRequest := .addItem (some ⟨"u", "p", 3⟩) "t"

lemma addsTo_twoAdds : ∀ q ∈ [addTwo, addThree], AddsTo "u" "p" q := by
  intro q hq
  simp only [List.mem_cons, List.not_mem_nil, or_false] at hq
  rcases hq with rfl | rfl
  · rintro req ⟨⟩
    exact ⟨rfl, rfl⟩
  · rintro req ⟨⟩
    exact ⟨rfl, rfl⟩

/-- Two adds one after the other meet the condition and arrive. -/
theorem adds_counted_iff_serial :
    storedQuantity (final cartStep (cartPool noCarts [addTwo, addThree])
      [(0, healthy), (0, healthy), (0, healthy), (1, healthy), (1, healthy), (1, healthy)]
      (by decide +kernel)).store "u" "p" =
    storedQuantity ⟨noCarts, []⟩ "u" "p" + ([addTwo, addThree].map requestedUnits).sum :=
  (adds_counted_iff (fun _ h => by cases h) addsTo_twoAdds (by decide +kernel)
    (by decide +kernel) (run_final (by decide +kernel)) (by decide +kernel)).mpr
    (by decide +kernel)

/-- **A lost add.** Two adds both find no item; the second `HSET` overwrites the first. -/
theorem add_lost :
    ¬ ∀ (userID product : String) (carts : String → Cart) (requests : List CartRequest)
      (es : List (ℕ × Choice)) (p : CartPool),
      (∀ raw, (fieldsOf ⟨carts, []⟩ userID).lookup product = some raw → Readable product raw) →
      (∀ q ∈ requests, AddsTo userID product q) →
      StepsMeet cartStep FaultFree (cartPool carts requests) es →
      StepsMeet cartStep AdditionExact (cartPool carts requests) es →
      run cartStep (cartPool carts requests) es = some p → (∀ t ∈ p.threads, AnsweredOk t) →
        storedQuantity p.store userID product =
          storedQuantity ⟨carts, []⟩ userID product + (requests.map requestedUnits).sum := by
  intro h
  have hadded := h "u" "p" noCarts [addTwo, addThree]
    [(0, healthy), (1, healthy), (0, healthy), (1, healthy), (0, healthy), (1, healthy)] _
    (fun _ h => by cases h) addsTo_twoAdds (by decide +kernel) (by decide +kernel)
    (run_final (by decide +kernel)) (by decide +kernel)
  exact absurd hadded (by decide +kernel)

end DevopsEcommerce.CartService
