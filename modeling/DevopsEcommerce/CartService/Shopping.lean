import DevopsEcommerce.CartService.Readability

/-!
# Adding items and checking out

Where a request of one user that adds an item or checks out can stand, and what holds of a
pool of such requests in every state, whatever fails.
-/

open Interleaving

namespace DevopsEcommerce.CartService

/-! ## Where a request can stand -/

/-- A valid request that adds an item. -/
inductive AddStage (req : AddItemRequest) (now : String) :
    List (Σ c, CartReply c) → CartProgram → Prop
  | reading : AddStage req now [] (addItem req now)
  | writing (existing : Except CallError (Option String)) :
      AddStage req now [⟨.hget (cartKey req.userID) req.productID, existing⟩]
        (setCartItem (cartKey req.userID) (itemToAdd req now existing)
          (afterSet "item added to cart"))
  | failed (existing : Except CallError (Option String)) (e : CallError) :
      AddStage req now [⟨.hset (cartKey req.userID) (itemToAdd req now existing).productID
          (cartItemToJSON (itemToAdd req now existing)), .error e⟩,
        ⟨.hget (cartKey req.userID) req.productID, existing⟩]
        (.done (errorResponse 500 "failed to update cart"))
  | expiring (existing : Except CallError (Option String)) :
      AddStage req now [⟨.hset (cartKey req.userID) (itemToAdd req now existing).productID
          (cartItemToJSON (itemToAdd req now existing)), .ok ()⟩,
        ⟨.hget (cartKey req.userID) req.productID, existing⟩]
        (.call (.expire (cartKey req.userID) cartTTL) (afterSet "item added to cart"))
  | unexpired (existing : Except CallError (Option String)) (e : CallError) :
      AddStage req now [⟨.expire (cartKey req.userID) cartTTL, .error e⟩,
        ⟨.hset (cartKey req.userID) (itemToAdd req now existing).productID
          (cartItemToJSON (itemToAdd req now existing)), .ok ()⟩,
        ⟨.hget (cartKey req.userID) req.productID, existing⟩]
        (.done (errorResponse 500 "failed to update cart"))
  | answered (existing : Except CallError (Option String)) :
      AddStage req now [⟨.expire (cartKey req.userID) cartTTL, .ok ()⟩,
        ⟨.hset (cartKey req.userID) (itemToAdd req now existing).productID
          (cartItemToJSON (itemToAdd req now existing)), .ok ()⟩,
        ⟨.hget (cartKey req.userID) req.productID, existing⟩]
        (.done ⟨200, "ok", "item added to cart", none⟩)

/-- A checkout of a user. -/
inductive CheckoutStage (userID : String) (now : String → String) :
    List (Σ c, CartReply c) → CartProgram → Prop
  | listing :
      CheckoutStage userID now [] (.call (.hgetall (cartKey userID)) (afterGetCart userID now))
  | refused (listed : Except CallError (List (String × String))) (answer : Response) :
      CheckoutStage userID now [⟨.hgetall (cartKey userID), listed⟩] (.done answer)
  | posting (items : List (String × String)) :
      CheckoutStage userID now [⟨.hgetall (cartKey userID), .ok items⟩]
        (.call (.post ⟨userID, getCartItems now items⟩) (afterPost (cartKey userID)))
  | declined (items : List (String × String)) (posted : Except CallError OrderResponse)
      (answer : Response) (h : ∀ response, posted = .ok response →
        ¬ (200 ≤ response.statusCode ∧ response.statusCode < 300 ∧ response.body.isSome)) :
      CheckoutStage userID now [⟨.post ⟨userID, getCartItems now items⟩, posted⟩,
        ⟨.hgetall (cartKey userID), .ok items⟩] (.done answer)
  | clearing (items : List (String × String)) (posted : Except CallError OrderResponse)
      (body : String) :
      CheckoutStage userID now [⟨.post ⟨userID, getCartItems now items⟩, posted⟩,
        ⟨.hgetall (cartKey userID), .ok items⟩]
        (.call (.del (cartKey userID)) (checkedOut body))
  | cleared (items : List (String × String)) (posted : Except CallError OrderResponse)
      (body : String) (r : Except CallError Unit) :
      CheckoutStage userID now [⟨.del (cartKey userID), r⟩,
        ⟨.post ⟨userID, getCartItems now items⟩, posted⟩,
        ⟨.hgetall (cartKey userID), .ok items⟩] (checkedOut body r)

/-- An add or a checkout, of one user. -/
inductive ShoppingStage (userID : String) :
    CartRequest → List (Σ c, CartReply c) → CartProgram → Prop
  | refused (request : CartRequest) (answer : Response) (h : answer.code ≠ 200) :
      ShoppingStage userID request [] (.done answer)
  | adding {req : AddItemRequest} {now : String} {trace : List (Σ c, CartReply c)}
      {q : CartProgram} (huser : req.userID = userID) (hvalid : req.isValid = true)
      (h : AddStage req now trace q) : ShoppingStage userID (.addItem (some req) now) trace q
  | checkingOut {path : String} {now : String → String} {trace : List (Σ c, CartReply c)}
      {q : CartProgram} (h : CheckoutStage userID now trace q) :
      ShoppingStage userID (.checkout path now) trace q

/-- The request adds an item to the user's cart or checks it out, or is refused as it is. -/
def ShopsFor (userID : String) : CartRequest → Prop
  | .addItem body _ => ∀ req, body = some req → req.userID = userID
  | .checkout path _ => ∀ user, userBefore "/checkout" path = some user → user = userID
  | _ => False

lemma addStage_reply {req : AddItemRequest} {now : String} {trace : List (Σ c, CartReply c)}
    {c : CartCommand} {k : CartReply c → CartProgram} (h : AddStage req now trace (.call c k))
    (r : CartReply c) : AddStage req now (⟨c, r⟩ :: trace) (k r) := by
  cases h with
  | reading => exact .writing r
  | writing existing =>
    cases r with
    | error e => exact .failed existing e
    | ok u => exact .expiring existing
  | expiring existing =>
    cases r with
    | error e => exact .unexpired existing e
    | ok u => exact .answered existing

lemma checkoutStage_reply {userID : String} {now : String → String}
    {trace : List (Σ c, CartReply c)} {c : CartCommand} {k : CartReply c → CartProgram}
    (h : CheckoutStage userID now trace (.call c k)) (r : CartReply c) :
    CheckoutStage userID now (⟨c, r⟩ :: trace) (k r) := by
  cases h with
  | listing =>
    cases r with
    | error e => exact .refused _ _
    | ok items =>
      simp only [afterGetCart]
      split
      · exact .refused _ _
      · exact .posting items
  | posting items =>
    cases r with
    | error e => exact .declined items _ _ fun _ h => by cases h
    | ok response =>
      simp only [afterPost]
      split <;> rename_i hbody
      · exact .declined items _ _ fun _ h => by cases h; simp [hbody]
      · split <;> rename_i hstatus
        · refine .declined items _ _ fun _ h => ?_
          cases h
          omega
        · exact .clearing items _ _
  | clearing items posted body => exact .cleared items posted body r

lemma shoppingStage_serve {userID : String} {request : CartRequest}
    (h : ShopsFor userID request) : ShoppingStage userID request [] (serve request) := by
  cases request with
  | addItem body now =>
    simp only [serve, handleAddItem]
    split
    · exact .refused _ _ (by decide)
    · rename_i req
      split <;> rename_i hvalid
      · exact .adding (h req rfl) hvalid .reading
      · exact .refused _ _ (by simp [errorResponse])
  | checkout path now =>
    simp only [serve, handleCheckout]
    split <;> rename_i huser
    · exact .refused _ _ (by simp [errorResponse])
    · rw [h _ huser]
      exact .checkingOut .listing
  | _ => exact h.elim

lemma shoppingStage_reply {userID : String} {request : CartRequest}
    {trace : List (Σ c, CartReply c)} {c : CartCommand} {k : CartReply c → CartProgram}
    (h : ShoppingStage userID request trace (.call c k)) (r : CartReply c) :
    ShoppingStage userID request (⟨c, r⟩ :: trace) (k r) := by
  cases h with
  | adding huser hvalid h => exact .adding huser hvalid (addStage_reply h r)
  | checkingOut h => exact .checkingOut (checkoutStage_reply h r)

/-! ## Requests that add or check out -/

/-- The requests are in their stages, and the fields in `F` and all that was read of them are
readable. -/
structure Shopping (userID : String) (F : String → Prop) (p : CartPool) : Prop where
  stages : ∀ t ∈ p.threads, ShoppingStage userID t.request t.trace t.program
  writes : ∀ t ∈ p.threads, t.program.Issues WritesItem
  cart : ReadableCart userID F p.store
  reads : ∀ t ∈ p.threads, ∀ field, F field →
    ∀ existing : Except CallError (Option String),
      ⟨.hget (cartKey userID) field, existing⟩ ∈ t.trace →
        ∀ raw, existing = .ok (some raw) → Readable field raw

lemma Shopping.init {userID : String} {F : String → Prop} {carts : String → Cart}
    {requests : List CartRequest} (hcart : ReadableCart userID F ⟨carts, []⟩)
    (hrequests : ∀ q ∈ requests, ShopsFor userID q) :
    Shopping userID F (cartPool carts requests) := by
  refine ⟨fun t ht => ?_, fun t ht => ?_, hcart, fun t ht => ?_⟩
  · obtain ⟨q, hq, rfl⟩ := List.mem_map.mp ht
    exact shoppingStage_serve (hrequests q hq)
  · obtain ⟨q, -, rfl⟩ := List.mem_map.mp ht
    exact serve_writesItem q
  · obtain ⟨q, -, rfl⟩ := List.mem_map.mp ht
    exact fun _ _ _ h => absurd h List.not_mem_nil

theorem shopping_preserved (userID : String) (F : String → Prop) :
    Preserved cartStep (Shopping userID F) := by
  intro p l p' hp hstep
  obtain ⟨hwrites, hcart⟩ := readableCart_preserved userID F p l p' ⟨hp.writes, hp.cart⟩ hstep
  obtain ⟨t, c, k, store, r, ht, hk, hexec, rfl⟩ := Pool.step_eq_some.mp hstep
  have hmem := List.mem_of_getElem? ht
  refine ⟨?_, hwrites, hcart, ?_⟩
  · have hstage := hp.stages t hmem
    rw [hk] at hstage
    exact forall_mem_set _ hp.stages (shoppingStage_reply hstage r)
  · refine forall_mem_set _ hp.reads ?_
    intro field hfield existing hread raw hraw
    rcases List.mem_cons.mp hread with heq | hread
    · -- the reply of the step's own `HGET`
      obtain ⟨rfl, heq⟩ := Sigma.mk.inj heq
      obtain rfl := eq_of_heq heq
      rcases execCart_hget hexec with herror | hok
      · rw [herror] at hraw
        cases hraw
      · rw [hok] at hraw
        exact hp.cart field hfield raw (Except.ok.inj hraw)
    · exact hp.reads t hmem field hfield existing hread raw hraw

end DevopsEcommerce.CartService
