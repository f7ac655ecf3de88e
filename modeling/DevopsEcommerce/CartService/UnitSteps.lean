import DevopsEcommerce.CartService.Shopping

/-!
# What a step does to the units

The units of a product that are in the cart, that a request has added and that a checkout has
cleared. A command of a request that adds or checks out reads a quantity, writes a quantity,
clears the cart or touches none of these (`ShoppingStep`).
-/

open Interleaving

namespace DevopsEcommerce.CartService

/-! ## Quantities and units -/

/-- The quantity of a product in a user's cart. -/
def storedQuantity (s : CartStore) (userID product : String) : ℤ :=
  (quantityIn product ((fieldsOf s userID).lookup product)).toInt

/-- The quantity that an add goes on from. -/
def foundQuantity (product : String) : Except CallError (Option String) → Int64
  | .ok stored => quantityIn product stored
  | .error _ => 0

/-- An add that waits for its `HSET`, and the quantity that its `HGET` has found. -/
def pendingAdd (t : CartThread) : Option (AddItemRequest × Int64) :=
  match t.request, t.trace with
  | .addItem (some req) _, [⟨.hget _ _, existing⟩] =>
    some (req, foundQuantity req.productID existing)
  | _, _ => none

/-- The `HSET` of the request has been acknowledged. -/
def hasWritten (trace : List (Σ c, CartReply c)) : Bool :=
  trace.any fun
    | ⟨.hset _ _ _, .ok ()⟩ => true
    | _ => false

/-- The units of a product that a request has added to the cart. -/
def addedUnits (product : String) (t : CartThread) : ℤ :=
  match t.request with
  | .addItem (some req) _ =>
    if req.productID = product ∧ hasWritten t.trace = true then req.quantity.toInt else 0
  | _ => 0

/-- A checkout that waits for its `DEL`, and the order it has posted. -/
def pendingClear (t : CartThread) : Option CheckoutRequest :=
  match t.program, t.trace with
  | .call (.del _) _, ⟨.post order, _⟩ :: _ => some order
  | _, _ => none

/-- The units of a product that a checkout has cleared, by its order. -/
def clearedUnits (product : String) (t : CartThread) : ℤ :=
  match t.trace with
  | ⟨.del _, .ok ()⟩ :: ⟨.post order, _⟩ :: _ => units product order.items
  | _ => 0

/-- The request has been answered with 200. -/
def AnsweredOk (t : CartThread) : Prop := t.program.answer?.map Response.code = some 200

instance (t : CartThread) : Decidable (AnsweredOk t) :=
  inferInstanceAs (Decidable (t.program.answer?.map Response.code = some 200))

/-- The step has no fault. -/
def FaultFree (_p : CartPool) (l : ℕ × Choice) : Prop := l.2.fault = .none

/-- If the label executes the `HSET` of an add, the addition before it did not overflow. -/
def AdditionExact (p : CartPool) (l : ℕ × Choice) : Prop :=
  ∀ t ∈ p.threads[l.1]?, ∀ add ∈ pendingAdd t,
    (add.2 + add.1.quantity).toInt = add.2.toInt + add.1.quantity.toInt

/-- If the label executes the `HSET` of an add, the cart still has the quantity that was read. -/
def AddUndisturbed (p : CartPool) (l : ℕ × Choice) : Prop :=
  ∀ t ∈ p.threads[l.1]?, ∀ add ∈ pendingAdd t,
    storedQuantity p.store add.1.userID add.1.productID = add.2.toInt

instance (p : CartPool) (l : ℕ × Choice) : Decidable (FaultFree p l) :=
  inferInstanceAs (Decidable (l.2.fault = .none))

instance (p : CartPool) (l : ℕ × Choice) : Decidable (AdditionExact p l) :=
  inferInstanceAs (Decidable (∀ t ∈ p.threads[l.1]?, ∀ add ∈ pendingAdd t, _))

instance (p : CartPool) (l : ℕ × Choice) : Decidable (AddUndisturbed p l) :=
  inferInstanceAs (Decidable (∀ t ∈ p.threads[l.1]?, ∀ add ∈ pendingAdd t, _))

/-- A request that has not started has added nothing. -/
lemma addedUnits_start (product : String) (request : CartRequest) (q : CartProgram) :
    addedUnits product ⟨request, [], q⟩ = 0 := by
  unfold addedUnits
  split
  · exact if_neg fun h => Bool.false_ne_true h.2
  · rfl

lemma itemToAdd_quantity (req : AddItemRequest) (now : String)
    {existing : Except CallError (Option String)}
    (hexisting : ∀ raw, existing = .ok (some raw) → Readable req.productID raw) :
    (itemToAdd req now existing).quantity =
      foundQuantity req.productID existing + req.quantity := by
  cases existing with
  | error e =>
    -- a failed `HGET` leaves the string empty, which counts as no item
    exact (Int64.zero_add _).symm
  | ok stored =>
    exact (itemToAdd_of_readable req now fun raw h => hexisting raw (by rw [h])).2

lemma quantityIn_insert (fields : Hash) (item : CartItem) (product : String) :
    quantityIn product ((fields.insert item.productID (cartItemToJSON item)).lookup product) =
      if item.productID = product then item.quantity
      else quantityIn product (fields.lookup product) := by
  split <;> rename_i h
  · rw [← h, AList.lookup_insert, quantityIn_cartItemToJSON]
  · rw [AList.lookup_insert_ne (Ne.symm h)]

/-- What the `HSET` of an add does to the quantities. -/
lemma storedQuantity_hset {s : CartStore} {req : AddItemRequest} {now : String}
    {existing : Except CallError (Option String)} (response : OrderResponse)
    (hexisting : ∀ raw, existing = .ok (some raw) → Readable req.productID raw)
    (product : String) :
    storedQuantity (cartEffect s response (.hset (cartKey req.userID)
      (itemToAdd req now existing).productID (cartItemToJSON (itemToAdd req now existing))))
      req.userID product =
    if req.productID = product then
      (foundQuantity req.productID existing + req.quantity).toInt
    else storedQuantity s req.userID product := by
  unfold storedQuantity
  rw [fieldsOf_cartEffect]
  simp only [fieldsEffect, if_true]
  rw [quantityIn_insert, itemToAdd_productID req now hexisting,
    itemToAdd_quantity req now hexisting]
  split <;> rfl

/-- A command that does not write to a hash leaves the quantities alone. -/
lemma storedQuantity_of_fields {s s' : CartStore} {userID : String}
    (h : fieldsOf s' userID = fieldsOf s userID) (product : String) :
    storedQuantity s' userID product = storedQuantity s userID product := by
  unfold storedQuantity
  rw [h]

section
variable {p : CartPool} {l : ℕ × Choice} {t : CartThread} {req : AddItemRequest} {found : Int64}

lemma addUndisturbed_iff (ht : p.threads[l.1]? = some t)
    (hadd : pendingAdd t = some (req, found)) :
    AddUndisturbed p l ↔ storedQuantity p.store req.userID req.productID = found.toInt := by
  simp [AddUndisturbed, ht, hadd]

lemma addUndisturbed_of_none (ht : p.threads[l.1]? = some t) (hadd : pendingAdd t = none) :
    AddUndisturbed p l := by
  simp [AddUndisturbed, ht, hadd]

lemma AdditionExact.toInt_add (h : AdditionExact p l) (ht : p.threads[l.1]? = some t)
    (hadd : pendingAdd t = some (req, found)) :
    (found + req.quantity).toInt = found.toInt + req.quantity.toInt :=
  h t ht (req, found) hadd

end

/-! ## One step -/

/-- The units of a product that are in the cart, that the request of a thread has added and
that it has cleared are the same before and after. -/
structure UnitsKept (userID product : String) (s s' : CartStore) (t t' : CartThread) :
    Prop where
  stored : storedQuantity s' userID product = storedQuantity s userID product
  added : addedUnits product t' = addedUnits product t
  cleared : clearedUnits product t' = clearedUnits product t

/-- What a command of a request that adds or checks out can do to the units of the products, if
it has no fault. -/
inductive ShoppingStep (userID : String) (s s' : CartStore) (t t' : CartThread) : Prop
  | reads (req : AddItemRequest) (now : String) (found : Int64)
      (hrequest : t.request = .addItem (some req) now) (hadd : pendingAdd t = none)
      (hadd' : pendingAdd t' = some (req, found)) (hclear : pendingClear t = none)
      (hfound : found.toInt = storedQuantity s userID req.productID)
      (hkept : ∀ product, UnitsKept userID product s s' t t')
  | writes (req : AddItemRequest) (now : String) (found : Int64)
      (hrequest : t.request = .addItem (some req) now) (huser : req.userID = userID)
      (hadd : pendingAdd t = some (req, found)) (hadd' : pendingAdd t' = none)
      (hclear : pendingClear t = none) (hpos : 0 < req.quantity.toInt)
      (hstored : ∀ product, storedQuantity s' userID product =
        if req.productID = product then (found + req.quantity).toInt
        else storedQuantity s userID product)
      (hadded : ∀ product, addedUnits product t = 0)
      (hadded' : ∀ product, addedUnits product t' =
        if req.productID = product then req.quantity.toInt else 0)
      (hcleared : ∀ product, clearedUnits product t' = clearedUnits product t)
  | clears (order : CheckoutRequest) (hadd : pendingAdd t = none) (hadd' : pendingAdd t' = none)
      (hclear : pendingClear t = some order) (huser : order.userID = userID)
      (hstored : ∀ product, storedQuantity s' userID product = 0)
      (hadded : ∀ product, addedUnits product t' = addedUnits product t)
      (hcleared : ∀ product, clearedUnits product t = 0)
      (hcleared' : ∀ product, clearedUnits product t' = units product order.items)
  | rests (hadd : pendingAdd t = none) (hadd' : pendingAdd t' = none)
      (hclear : pendingClear t = none) (hkept : ∀ product, UnitsKept userID product s s' t t')

/-- Every step is one of these, if the fields that adds write to are readable. -/
lemma shoppingStep_of_step {userID : String} {F : String → Prop} {p p' : CartPool}
    {l : ℕ × Choice} (hp : Shopping userID F p) (hfault : FaultFree p l)
    (hF : ∀ t ∈ p.threads, ∀ req now, t.request = .addItem (some req) now → F req.productID)
    (hstep : cartStep p l = some p') :
    ∃ t t', p.threads[l.1]? = some t ∧ p'.threads = p.threads.set l.1 t' ∧
      ShoppingStep userID p.store p'.store t t' := by
  obtain ⟨t, c, k, store, r, ht, hk, hexec, rfl⟩ := Pool.step_eq_some.mp hstep
  refine ⟨t, _, ht, rfl, ?_⟩
  have hmem := List.mem_of_getElem? ht
  have hstage := hp.stages t hmem
  have hreads := hp.reads t hmem
  have hfield := hF t hmem
  obtain ⟨request, trace, q⟩ := t
  obtain ⟨rfl, hreply⟩ := execCart_healthy hfault hexec
  simp only at hk hstage hreads hfield
  subst hk
  cases hstage with
  | adding huser hvalid h =>
    rename_i req now
    subst huser
    cases h with
    | reading =>
      obtain rfl := Option.some.inj hreply
      exact .reads req now _ rfl rfl rfl rfl rfl fun product => ⟨rfl, rfl, rfl⟩
    | writing existing =>
      -- the `HSET` writes what was computed from the reply to the `HGET`, however old
      obtain rfl := Option.some.inj hreply
      have hreadable := hreads req.productID (hfield req now rfl) existing List.mem_cons_self
      refine .writes req now (foundQuantity req.productID existing) rfl rfl rfl rfl rfl
        (quantity_pos hvalid) (storedQuantity_hset l.2.response hreadable) (fun product => ?_)
        (fun product => ?_) fun product => rfl
      · exact if_neg fun h => Bool.false_ne_true h.2
      · exact if_congr (and_iff_left rfl) rfl rfl
    | expiring existing =>
      obtain rfl := Option.some.inj hreply
      refine .rests rfl rfl rfl fun product => ⟨storedQuantity_of_fields ?_ product, rfl, rfl⟩
      rw [fieldsOf_cartEffect]
      rfl
  | checkingOut h =>
    cases h with
    | listing => exact .rests rfl rfl rfl fun product => ⟨rfl, rfl, rfl⟩
    | posting items =>
      refine .rests rfl rfl rfl fun product => ⟨storedQuantity_of_fields ?_ product, rfl, rfl⟩
      rw [fieldsOf_cartEffect]
      rfl
    | clearing items posted body =>
      -- the `DEL` removes all fields, whether the order has them or not
      obtain rfl := Option.some.inj hreply
      refine .clears ⟨userID, _⟩ rfl rfl rfl rfl (fun product => ?_) (fun product => rfl)
        (fun product => rfl) fun product => rfl
      unfold storedQuantity
      rw [fieldsOf_cartEffect]
      simp only [fieldsEffect, if_true]
      rfl

end DevopsEcommerce.CartService
