import DevopsEcommerce.CartService.AddItem

/-!
# Checkouts next to adds

`handleCheckout` reads the cart with `HGETALL`, posts what it has read to the order service
and then deletes the whole key. `checkout_conserves_iff` says when no unit is lost or ordered
twice in between: exactly if every `HSET` still finds the quantity that its `HGET` has read,
and every `DEL` the quantities that its checkout has ordered.
-/

open Interleaving

namespace DevopsEcommerce.CartService

/-! ## Steps without faults -/

/-- The order is accepted, and the answer can be read. -/
def OrderResponse.Accepts (response : OrderResponse) : Prop :=
  response.Places ∧ response.body.isSome = true

instance (response : OrderResponse) : Decidable response.Accepts :=
  inferInstanceAs (Decidable (_ ∧ _))

/-- The step has no fault, and an order service that is asked accepts. -/
def Healthy (_p : CartPool) (l : ℕ × Choice) : Prop :=
  l.2.fault = .none ∧ l.2.response.Accepts

instance (p : CartPool) (l : ℕ × Choice) : Decidable (Healthy p l) :=
  inferInstanceAs (Decidable (_ ∧ _))

/-- If the label executes the `DEL` of a checkout, the cart has the quantities of its order. -/
def ClearFresh (p : CartPool) (l : ℕ × Choice) : Prop :=
  ∀ t ∈ p.threads[l.1]?, ∀ order ∈ pendingClear t, ∀ product,
    storedQuantity p.store order.userID product = units product order.items

/-- The cart is as the label's request has read it. -/
def Fresh (p : CartPool) (l : ℕ × Choice) : Prop := AddUndisturbed p l ∧ ClearFresh p l

lemma storedQuantity_of_not_mem {s : CartStore} {userID product : String}
    (h : product ∉ (fieldsOf s userID).keys) : storedQuantity s userID product = 0 := by
  unfold storedQuantity
  rw [AList.lookup_eq_none.mpr h]
  rfl

/-- Products that are neither in the cart nor in the order need no check. -/
lemma quantities_eq_units_iff (s : CartStore) (order : CheckoutRequest) :
    (∀ product ∈ (fieldsOf s order.userID).keys ++ order.items.map CartItem.productID,
      storedQuantity s order.userID product = units product order.items) ↔
    ∀ product, storedQuantity s order.userID product = units product order.items := by
  constructor
  · intro h product
    by_cases hmem : product ∈ (fieldsOf s order.userID).keys ++
        order.items.map CartItem.productID
    · exact h product hmem
    · obtain ⟨hcart, horder⟩ := not_or.mp (mt List.mem_append.mpr hmem)
      rw [storedQuantity_of_not_mem hcart, units_eq_zero]
      intro item hitem heq
      exact horder (List.mem_map.mpr ⟨item, hitem, heq⟩)
  · intro h product _
    exact h product

instance (s : CartStore) (order : CheckoutRequest) :
    Decidable (∀ product, storedQuantity s order.userID product = units product order.items) :=
  decidable_of_iff _ (quantities_eq_units_iff s order)

instance (p : CartPool) (l : ℕ × Choice) : Decidable (ClearFresh p l) :=
  inferInstanceAs (Decidable (∀ t ∈ p.threads[l.1]?, ∀ order ∈ pendingClear t, _))

instance (p : CartPool) (l : ℕ × Choice) : Decidable (Fresh p l) :=
  inferInstanceAs (Decidable (_ ∧ _))

section
variable {p : CartPool} {l : ℕ × Choice} {t : CartThread}

lemma clearFresh_iff {order : CheckoutRequest} (ht : p.threads[l.1]? = some t)
    (hclear : pendingClear t = some order) :
    ClearFresh p l ↔
      ∀ product, storedQuantity p.store order.userID product = units product order.items := by
  simp [ClearFresh, ht, hclear]

lemma clearFresh_of_none (ht : p.threads[l.1]? = some t) (hclear : pendingClear t = none) :
    ClearFresh p l := by
  simp [ClearFresh, ht, hclear]

end

/-- In particular the `DEL` is fresh if the cart has the very fields that were read. -/
lemma clearFresh_of_unchanged {userID : String} {p : CartPool} {l : ℕ × Choice} {t : CartThread}
    {items : List (String × String)} (hp : Shopping userID (fun _ => True) p)
    (ht : p.threads[l.1]? = some t) (hlisted : ⟨.hgetall (cartKey userID), .ok items⟩ ∈ t.trace)
    (hsame : items.Perm (pairs (fieldsOf p.store userID))) : ClearFresh p l := by
  have hstage := hp.stages t (List.mem_of_getElem? ht)
  obtain ⟨request, trace, q⟩ := t
  simp only at hstage hlisted
  cases hstage with
  | refused request answer h => exact absurd hlisted List.not_mem_nil
  | adding huser hvalid h => exact clearFresh_of_none ht (by cases h <;> rfl)
  | checkingOut h =>
    rename_i path now
    cases h with
    | listing => exact absurd hlisted List.not_mem_nil
    | refused listed answer => exact clearFresh_of_none ht rfl
    | posting items' => exact clearFresh_of_none ht rfl
    | declined items' posted answer h => exact clearFresh_of_none ht rfl
    | cleared items' posted body r => exact clearFresh_of_none ht rfl
    | clearing items' posted body =>
      obtain rfl : items = items' := by simpa using hlisted
      rw [clearFresh_iff ht rfl]
      intro product
      show storedQuantity p.store userID product = units product (getCartItems now items)
      rw [units_getCartItems (fun field raw => hp.cart field trivial raw) now hsame]
      rfl

/-! ## The cart and the cleared orders -/

/-- For each product, the units from the start and those added are in the cart or were cleared
by an order. -/
def Conserved (userID : String) (initial : CartStore) (p : CartPool) : Prop :=
  ∀ product,
    storedQuantity initial userID product + (p.threads.map (addedUnits product)).sum =
      storedQuantity p.store userID product + (p.threads.map (clearedUnits product)).sum

lemma conserved_init (userID : String) (carts : String → Cart) (requests : List CartRequest) :
    Conserved userID ⟨carts, []⟩ (cartPool carts requests) := by
  intro product
  have hzero : ∀ t ∈ (cartPool carts requests).threads,
      addedUnits product t = 0 ∧ clearedUnits product t = 0 := by
    intro t ht
    obtain ⟨request, -, rfl⟩ := List.mem_map.mp ht
    exact ⟨addedUnits_start product request _, rfl⟩
  rw [List.sum_eq_zero, List.sum_eq_zero]
  · rfl
  · intro n hn
    obtain ⟨t, ht, rfl⟩ := List.mem_map.mp hn
    exact (hzero t ht).2
  · intro n hn
    obtain ⟨t, ht, rfl⟩ := List.mem_map.mp hn
    exact (hzero t ht).1

/-- A step conserves the units if the thread that moved accounts for the change of the cart. -/
lemma conserved_set_iff {userID : String} {initial : CartStore} {p p' : CartPool} {i : ℕ}
    {t t' : CartThread} (hcons : Conserved userID initial p) (ht : p.threads[i]? = some t)
    (hthreads : p'.threads = p.threads.set i t') :
    Conserved userID initial p' ↔ ∀ product,
      storedQuantity p.store userID product + addedUnits product t' + clearedUnits product t =
        storedQuantity p'.store userID product + addedUnits product t +
          clearedUnits product t' := by
  unfold Conserved
  rw [hthreads]
  apply forall_congr'
  intro product
  have hbefore := hcons product
  have hadds := sum_map_set ht (addedUnits product) t'
  have hclears := sum_map_set ht (clearedUnits product) t'
  omega

/-- A step conserves the units exactly if it is fresh. -/
lemma conserved_step_iff {userID : String} {initial : CartStore} {p p' : CartPool}
    {l : ℕ × Choice} (hp : Shopping userID (fun _ => True) p)
    (hcons : Conserved userID initial p) (hhealthy : Healthy p l) (hexact : AdditionExact p l)
    (hstep : cartStep p l = some p') : Conserved userID initial p' ↔ Fresh p l := by
  obtain ⟨t, t', ht, hthreads, hkind⟩ :=
    shoppingStep_of_step hp hhealthy.1 (fun _ _ _ _ _ => trivial) hstep
  rw [conserved_set_iff hcons ht hthreads]
  have hkeeps : (∀ product, UnitsKept userID product p.store p'.store t t') → ∀ product,
      storedQuantity p.store userID product + addedUnits product t' + clearedUnits product t =
        storedQuantity p'.store userID product + addedUnits product t +
          clearedUnits product t' := by
    intro hkept product
    obtain ⟨hstored, hadded, hcleared⟩ := hkept product
    omega
  cases hkind with
  | reads req now found hrequest hadd hadd' hclear hfound hkept =>
    exact iff_of_true (hkeeps hkept)
      ⟨addUndisturbed_of_none ht hadd, clearFresh_of_none ht hclear⟩
  | writes req now found hrequest huser hadd hadd' hclear hpos hstored hadded hadded' hcleared =>
    subst huser
    have hsum := hexact.toInt_add ht hadd
    constructor
    · -- the balance of the request's own product tells what was stored
      intro h
      refine ⟨(addUndisturbed_iff ht hadd).mpr ?_, clearFresh_of_none ht hclear⟩
      have hown := h req.productID
      rw [hstored, hadded, hadded', hcleared, if_pos rfl, if_pos rfl] at hown
      omega
    · rintro ⟨hread, -⟩ product
      rw [addUndisturbed_iff ht hadd] at hread
      rw [hstored, hadded, hadded', hcleared]
      by_cases hproduct : req.productID = product
      · subst hproduct
        rw [if_pos rfl, if_pos rfl]
        omega
      · rw [if_neg hproduct, if_neg hproduct]
  | clears order hadd hadd' hclear huser hstored hadded hcleared hcleared' =>
    subst huser
    unfold Fresh
    rw [and_iff_right (addUndisturbed_of_none ht hadd), clearFresh_iff ht hclear]
    -- what was stored is gone, what was ordered is cleared
    apply forall_congr'
    intro product
    rw [hstored, hadded, hcleared, hcleared']
    omega
  | rests hadd hadd' hclear hkept =>
    exact iff_of_true (hkeeps hkept)
      ⟨addUndisturbed_of_none ht hadd, clearFresh_of_none ht hclear⟩

/-! ## The accepted orders -/

/-- The units of a product in all orders that were accepted. -/
def orderedUnits (product : String) (s : CartStore) : ℤ :=
  (s.orders.map fun order => units product order.items).sum

/-- The units of a product in the order that a command has placed. -/
def placedUnits (product : String) : (Σ c, CartReply c) → ℤ
  | ⟨.post order, .ok _⟩ => units product order.items
  | _ => 0

/-- The units of a product in the orders that a request has placed. -/
def postedUnits (product : String) (t : CartThread) : ℤ :=
  (t.trace.map (placedUnits product)).sum

/-- The orders are those of the requests. -/
def Recorded (p : CartPool) : Prop :=
  ∀ product, orderedUnits product p.store = (p.threads.map (postedUnits product)).sum

/-- The command has succeeded, and the order was accepted. -/
def Succeeded : (Σ c, CartReply c) → Prop
  | ⟨.expire _ _, r⟩ => r = .ok ()
  | ⟨.del _, r⟩ => r = .ok ()
  | ⟨.post _, r⟩ => ∃ response, r = .ok response ∧ response.Accepts
  | _ => True

/-- What a command does to the orders, if nothing fails. -/
lemma execCart_accepts {s s' : CartStore} {i : ℕ} {c : CartCommand} {choice : Choice}
    {r : CartReply c} (hfault : choice.fault = .none) (haccepts : choice.response.Accepts)
    (hexec : execCart s i c choice = some (s', r)) :
    Succeeded ⟨c, r⟩ ∧
      ∀ product, orderedUnits product s' = orderedUnits product s + placedUnits product ⟨c, r⟩ := by
  obtain ⟨rfl, hreply⟩ := execCart_healthy hfault hexec
  cases c with
  | post order =>
    obtain rfl := Option.some.inj hreply
    refine ⟨⟨_, rfl, haccepts⟩, fun product => ?_⟩
    simp only [cartEffect, if_pos haccepts.1]
    exact add_comm _ _
  | expire key seconds =>
    obtain rfl := Option.some.inj hreply
    exact ⟨rfl, fun product => (add_zero _).symm⟩
  | del key =>
    obtain rfl := Option.some.inj hreply
    exact ⟨rfl, fun product => (add_zero _).symm⟩
  | _ => exact ⟨trivial, fun product => (add_zero _).symm⟩

lemma recorded_init (carts : String → Cart) (requests : List CartRequest) :
    Recorded (cartPool carts requests) := by
  intro product
  rw [List.sum_eq_zero]
  · rfl
  · intro n hn
    obtain ⟨t, ht, rfl⟩ := List.mem_map.mp hn
    obtain ⟨request, -, rfl⟩ := List.mem_map.mp ht
    rfl

lemma recorded_step {p p' : CartPool} {l : ℕ × Choice} (h : Recorded p) (hhealthy : Healthy p l)
    (hstep : cartStep p l = some p') : Recorded p' := by
  obtain ⟨t, c, k, store, r, ht, hk, hexec, rfl⟩ := Pool.step_eq_some.mp hstep
  intro product
  have hsum := sum_map_set ht (postedUnits product) (t.receive c r (k r))
  have horders := (execCart_accepts hhealthy.1 hhealthy.2 hexec).2 product
  have hposted : postedUnits product (t.receive c r (k r)) =
      placedUnits product ⟨c, r⟩ + postedUnits product t := by
    unfold postedUnits Thread.receive
    rw [List.map_cons, List.sum_cons]
  have hbefore := h product
  show orderedUnits product store =
    ((p.threads.set l.1 (t.receive c r (k r))).map (postedUnits product)).sum
  omega

lemma succeeded_init (carts : String → Cart) (requests : List CartRequest) :
    ∀ t ∈ (cartPool carts requests).threads, ∀ entry ∈ t.trace, Succeeded entry := by
  intro t ht entry hentry
  obtain ⟨request, -, rfl⟩ := List.mem_map.mp ht
  exact absurd hentry List.not_mem_nil

lemma succeeded_step {p p' : CartPool} {l : ℕ × Choice}
    (h : ∀ t ∈ p.threads, ∀ entry ∈ t.trace, Succeeded entry) (hhealthy : Healthy p l)
    (hstep : cartStep p l = some p') :
    ∀ t ∈ p'.threads, ∀ entry ∈ t.trace, Succeeded entry := by
  obtain ⟨t, c, k, store, r, ht, hk, hexec, rfl⟩ := Pool.step_eq_some.mp hstep
  refine forall_mem_set _ h fun entry hentry => ?_
  rcases List.mem_cons.mp hentry with rfl | hentry
  · exact (execCart_accepts hhealthy.1 hhealthy.2 hexec).1
  · exact h t (List.mem_of_getElem? ht) entry hentry

/-! ## Finished runs -/

/-- The units of a product that a request has added with the answer 200. -/
def answeredUnits (product : String) (t : CartThread) : ℤ :=
  match t.request with
  | .addItem (some req) _ =>
    if req.productID = product ∧ AnsweredOk t then req.quantity.toInt else 0
  | _ => 0

/-- An add that has ended without faults has written exactly if it was answered with 200. -/
lemma hasWritten_iff {userID : String} {req : AddItemRequest} {now : String}
    {trace : List (Σ c, CartReply c)} {q : CartProgram}
    (hstage : ShoppingStage userID (.addItem (some req) now) trace q)
    (hsucceeded : ∀ entry ∈ trace, Succeeded entry) (hdone : q.answer?.isSome = true) :
    hasWritten trace = true ↔ q.answer?.map Response.code = some 200 := by
  refine ⟨fun hwritten => ?_, fun hok => hasWritten_of_answeredOk hstage hok⟩
  cases hstage with
  | refused => cases hwritten
  | adding huser hvalid h =>
    cases h with
    | reading => cases hwritten
    | writing existing => cases hwritten
    | failed existing e => cases hwritten
    | expiring existing => cases hdone
    | unexpired existing e =>
      have hexpire : Except.error e = Except.ok () := hsucceeded _ List.mem_cons_self
      cases hexpire
    | answered existing => rfl

lemma addedUnits_eq_answeredUnits {userID : String} {t : CartThread}
    (hstage : ShoppingStage userID t.request t.trace t.program)
    (hsucceeded : ∀ entry ∈ t.trace, Succeeded entry)
    (hdone : t.program.answer?.isSome = true) (product : String) :
    addedUnits product t = answeredUnits product t := by
  obtain ⟨request, trace, q⟩ := t
  simp only at hstage hsucceeded hdone
  cases request with
  | addItem body now =>
    cases body with
    | none => rfl
    | some req =>
      exact if_congr (and_congr_right fun _ => hasWritten_iff hstage hsucceeded hdone) rfl rfl
  | _ => rfl

/-- A checkout that has ended without faults has cleared what it has ordered. -/
lemma postedUnits_eq_clearedUnits {userID : String} {t : CartThread}
    (hstage : ShoppingStage userID t.request t.trace t.program)
    (hsucceeded : ∀ entry ∈ t.trace, Succeeded entry)
    (hdone : t.program.answer?.isSome = true) (product : String) :
    postedUnits product t = clearedUnits product t := by
  obtain ⟨request, trace, q⟩ := t
  simp only at hstage hsucceeded hdone
  cases hstage with
  | refused => rfl
  | adding huser hvalid h => cases h <;> simp [postedUnits, placedUnits, clearedUnits]
  | checkingOut h =>
    cases h with
    | listing => cases hdone
    | refused listed answer => rfl
    | posting items => cases hdone
    | declined items posted answer h =>
      obtain ⟨response, rfl, haccepts⟩ := hsucceeded _ List.mem_cons_self
      exact absurd ⟨haccepts.1.2.1, haccepts.1.2.2, haccepts.2⟩ (h response rfl)
    | clearing items posted body => cases hdone
    | cleared items posted body r =>
      obtain rfl : r = .ok () := hsucceeded _ List.mem_cons_self
      obtain ⟨response, rfl, -⟩ := hsucceeded _ (List.mem_cons_of_mem _ List.mem_cons_self)
      simp [postedUnits, placedUnits, clearedUnits]

/-- **Checkouts.** In every interleaving of adds and checkouts of one user without faults, the
units from the start and those added are in every state either in the cart or cleared by an
order, if and only if every step is fresh. Once such a run has finished, they are in the cart
or in the accepted orders. -/
theorem checkout_conserves_iff {userID : String} {carts : String → Cart}
    {requests : List CartRequest} {es : List (ℕ × Choice)} {p : CartPool}
    (hcart : ReadableCart userID (fun _ => True) ⟨carts, []⟩)
    (hrequests : ∀ q ∈ requests, ShopsFor userID q)
    (hhealthy : StepsMeet cartStep Healthy (cartPool carts requests) es)
    (hexact : StepsMeet cartStep AdditionExact (cartPool carts requests) es)
    (hrun : run cartStep (cartPool carts requests) es = some p) :
    (Throughout cartStep (Conserved userID ⟨carts, []⟩) (cartPool carts requests) es ↔
      StepsMeet cartStep Fresh (cartPool carts requests) es) ∧
    (StepsMeet cartStep Fresh (cartPool carts requests) es → p.Finished → ∀ product,
      storedQuantity ⟨carts, []⟩ userID product + (p.threads.map (answeredUnits product)).sum =
        orderedUnits product p.store + storedQuantity p.store userID product) := by
  have hshopping := Shopping.init hcart hrequests
  have hiff := throughout_iff_stepsMeet (shopping_preserved userID (fun _ => True))
    (fun _ _ _ hp hcons hD hstep => conserved_step_iff hp hcons hD.1 hD.2 hstep)
    hshopping (conserved_init userID carts requests) (hhealthy.and hexact) hrun
  refine ⟨hiff, fun hfresh hfin product => ?_⟩
  -- at the end the cleared orders are the accepted ones, and who has written was answered 200
  have hstages := (run_invariant (shopping_preserved userID _) hshopping hrun).stages
  have hsucceeded := run_invariant_of_stepsMeet (fun _ _ _ h hD hstep => succeeded_step h hD hstep)
    (succeeded_init carts requests) hhealthy hrun
  have hrecorded := run_invariant_of_stepsMeet (fun _ _ _ h hD hstep => recorded_step h hD hstep)
    (recorded_init carts requests) hhealthy hrun
  have hconserved := (hiff.mpr hfresh).last hrun product
  have hadds : p.threads.map (addedUnits product) = p.threads.map (answeredUnits product) :=
    List.map_congr_left fun t ht => addedUnits_eq_answeredUnits (hstages t ht)
      (hsucceeded t ht) (hfin t ht) product
  have horders : p.threads.map (postedUnits product) = p.threads.map (clearedUnits product) :=
    List.map_congr_left fun t ht => postedUnits_eq_clearedUnits (hstages t ht)
      (hsucceeded t ht) (hfin t ht) product
  rw [hrecorded product, horders, ← hadds]
  omega

def checkoutRequest : CartRequest := .checkout "/api/cart/u/checkout" fun _ => "t"

/-- The `HGETALL` of a cart with two units of one product. -/
def listTwo : Choice := { healthy with order := [("p", cartItemToJSON ⟨"p", 2, "t"⟩)] }

lemma shopsFor_addsAndCheckout :
    ∀ q ∈ [addTwo, addThree, checkoutRequest], ShopsFor "u" q := by
  intro q hq
  simp only [List.mem_cons, List.not_mem_nil, or_false] at hq
  rcases hq with rfl | rfl | rfl
  · rintro req ⟨⟩
    rfl
  · rintro req ⟨⟩
    rfl
  · intro user huser
    have hpath : userBefore "/checkout" "/api/cart/u/checkout" = some "u" := by decide +kernel
    rw [hpath] at huser
    exact (Option.some.inj huser).symm

/-- An add, the checkout and the other add, one after the other. -/
def addCheckoutAdd : List (ℕ × Choice) :=
  [(0, healthy), (0, healthy), (0, healthy), (2, listTwo), (2, healthy), (2, healthy),
    (1, healthy), (1, healthy), (1, healthy)]

def afterAddCheckoutAdd : CartPool :=
  final cartStep (cartPool noCarts [addTwo, addThree, checkoutRequest]) addCheckoutAdd
    (by decide +kernel)

/-- The order has what the first add has added, the cart has the rest. -/
theorem checkout_conserves_iff_serial :
    storedQuantity ⟨noCarts, []⟩ "u" "p" +
        (afterAddCheckoutAdd.threads.map (answeredUnits "p")).sum =
      orderedUnits "p" afterAddCheckoutAdd.store +
        storedQuantity afterAddCheckoutAdd.store "u" "p" :=
  (checkout_conserves_iff (fun _ _ _ h => by cases h) shopsFor_addsAndCheckout
    (by decide +kernel) (by decide +kernel) (run_final (by decide +kernel))).2
    (by decide +kernel) (by decide +kernel) "p"

def CartRequest.isAdd : CartRequest → Bool
  | .addItem _ _ => true
  | _ => false

/-- If the label starts an add, no other add is under way. -/
def AddsApart (p : CartPool) (l : ℕ × Choice) : Prop :=
  ∀ t ∈ p.threads[l.1]?, t.request.isAdd = true → t.trace.isEmpty = true → ∀ u ∈ p.threads,
    u.request.isAdd = true → u.trace.isEmpty = true ∨ u.program.answer?.isSome = true

instance (p : CartPool) (l : ℕ × Choice) : Decidable (AddsApart p l) :=
  inferInstanceAs (Decidable (∀ t ∈ p.threads[l.1]?, t.request.isAdd = true → _))

/-- **Units lost at a checkout.** An add between the `HGETALL` and the `DEL` of a checkout is
answered with 200 and then deleted, without being in the order. -/
theorem checkout_loses_add :
    ¬ ∀ (userID : String) (carts : String → Cart) (requests : List CartRequest)
      (es : List (ℕ × Choice)) (p : CartPool),
      ReadableCart userID (fun _ => True) ⟨carts, []⟩ →
      (∀ q ∈ requests, ShopsFor userID q) →
      StepsMeet cartStep Healthy (cartPool carts requests) es →
      StepsMeet cartStep AdditionExact (cartPool carts requests) es →
      StepsMeet cartStep AddsApart (cartPool carts requests) es →
      run cartStep (cartPool carts requests) es = some p → p.Finished → ∀ product,
        storedQuantity ⟨carts, []⟩ userID product +
            (p.threads.map (answeredUnits product)).sum =
          orderedUnits product p.store + storedQuantity p.store userID product := by
  intro h
  have hunits := h "u" noCarts [addTwo, addThree, checkoutRequest]
    [(0, healthy), (0, healthy), (0, healthy), (2, listTwo), (1, healthy), (1, healthy),
      (1, healthy), (2, healthy), (2, healthy)] _
    (fun _ _ _ h => by cases h) shopsFor_addsAndCheckout (by decide +kernel)
    (by decide +kernel) (by decide +kernel) (run_final (by decide +kernel))
    (by decide +kernel) "p"
  exact absurd hunits (by decide +kernel)

end DevopsEcommerce.CartService
