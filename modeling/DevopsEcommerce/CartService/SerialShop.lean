import DevopsEcommerce.CartService.Shop
import DevopsEcommerce.Interleaving.Refinement

/-!
# Requests served one after the other

A request that is served alone, without faults, deals in the shop that the store holds
(`deals_of_serveAlone`). Hence a whole sequence of requests, with keys that expire in between,
is dealt with as in a shop (`serial_refines_shop`).
-/

open Interleaving

namespace DevopsEcommerce.CartService

/-- No command fails. -/
def AllSucceed (choose : ℕ → Choice) : Prop := ∀ n, (choose n).fault = .none

section
variable {s s' : CartStore} {shop : Shop} {choose : ℕ → Choice} {answer : Response}

/-! ## Commands without faults -/

lemma perform_call_healthy (hhealthy : AllSucceed choose) {n : ℕ} {c : CartCommand}
    {k : CartReply c → CartProgram}
    (h : (Program.call c k).perform execCart 0 (fun n _ => choose n) n s = some (s', answer)) :
    ∃ r, cartReply s (choose n) c = some r ∧
      (k r).perform execCart 0 (fun n _ => choose n) (n + 1)
        (cartEffect s (choose n).response c) = some (s', answer) := by
  obtain ⟨s₁, r, hexec, hrest⟩ := Program.perform_call h
  obtain ⟨rfl, hreply⟩ := execCart_healthy (hhealthy n) hexec
  exact ⟨r, hreply, hrest⟩

/-- `HSET` of the item and `EXPIRE`. -/
lemma Keeps.setCartItem (hkeeps : Keeps s shop) (hhealthy : AllSucceed choose) {n : ℕ}
    {user message : String} {item : CartItem}
    (h : (setCartItem (cartKey user) item (afterSet message)).perform execCart 0
      (fun n _ => choose n) n s = some (s', answer)) :
    Keeps s' (shop.setBasket user ((shop.baskets user).put item)) ∧
      answer = ⟨200, "ok", message, none⟩ := by
  obtain ⟨written, hwritten, h⟩ := perform_call_healthy hhealthy h
  obtain rfl := Option.some.inj hwritten
  obtain ⟨expired, hexpired, h⟩ := perform_call_healthy hhealthy h
  obtain rfl := Option.some.inj hexpired
  obtain ⟨rfl, rfl⟩ := Program.perform_done h
  refine ⟨hkeeps.put rfl (storedText_of_hset fun user' => ?_), rfl⟩
  -- the `EXPIRE` touches no field
  rw [fieldsOf_cartEffect, fieldsOf_cartEffect]
  rfl

/-- `HDEL` and `EXPIRE`. -/
lemma Keeps.removal (hkeeps : Keeps s shop) (hhealthy : AllSucceed choose)
    {user product : String} {removed : Except CallError Unit → CartProgram}
    (hok : removed (.ok ()) = .call (.expire (cartKey user) cartTTL) fun _ =>
      .done ⟨200, "ok", "item removed from cart", none⟩)
    (h : (Program.call (.hdel (cartKey user) product) removed).perform execCart 0
      (fun n _ => choose n) 0 s = some (s', answer)) :
    Keeps s' (shop.setBasket user ((shop.baskets user).without product)) ∧
      answer = ⟨200, "ok", "item removed from cart", none⟩ := by
  obtain ⟨reply, hreply, h⟩ := perform_call_healthy hhealthy h
  obtain rfl := Option.some.inj hreply
  rw [hok] at h
  obtain ⟨expired, -, h⟩ := perform_call_healthy hhealthy h
  obtain ⟨rfl, rfl⟩ := Program.perform_done h
  refine ⟨hkeeps.without rfl (storedText_of_hdel fun user' => ?_), rfl⟩
  rw [fieldsOf_cartEffect, fieldsOf_cartEffect]
  rfl

/-- What `HGETALL` lists. -/
lemma Keeps.listing (hkeeps : Keeps s shop) {user : String} (now : String → String)
    {choice : Choice} {listed : Except CallError (List (String × String))}
    (hlisted : cartReply s choice (.hgetall (cartKey user)) = some listed) :
    ∃ order, listed = .ok order ∧ (shop.baskets user).Lists (getCartItems now order) := by
  simp only [cartReply] at hlisted
  split at hlisted
  · rename_i horder
    exact ⟨choice.order, (Option.some.inj hlisted).symm, hkeeps.lists now horder⟩
  · cases hlisted

/-- The item that a change writes after an `HGET` that succeeds. -/
lemma Keeps.itemToChange (hkeeps : Keeps s shop) (user product : String) (quantity : Int64)
    (now : String) (next : Int64 → Int64) :
    itemToChange product quantity now (fun item => { item with quantity := next item.quantity })
        (.ok (storedText s user product)) =
      (shop.baskets user).changed product quantity now next := by
  have hread := itemToChange_hgetReply hkeeps.represented healthy user product quantity now
    fun item => { item with quantity := next item.quantity }
  rw [hkeeps.storedItem_eq] at hread
  exact hread

/-! ## The handlers -/

lemma serve_of_refusal {request : CartRequest} {message : String}
    (h : request.refusal? = some message) :
    serve request = .done (errorResponse 400 message) := by
  cases request with
  | addItem body now =>
    cases body with
    | none =>
      obtain rfl := Option.some.inj h
      rfl
    | some req =>
      simp only [CartRequest.refusal?] at h
      split at h <;> rename_i hvalid
      · cases h
      · obtain rfl := Option.some.inj h
        exact if_neg hvalid
  | updateItem body now =>
    cases body with
    | none =>
      obtain rfl := Option.some.inj h
      rfl
    | some req =>
      simp only [CartRequest.refusal?] at h
      split at h <;> rename_i hnames
      · obtain rfl := Option.some.inj h
        exact if_pos hnames
      split at h <;> rename_i hneg
      · obtain rfl := Option.some.inj h
        exact (if_neg hnames).trans (if_pos hneg)
      · cases h
  | getCart path now | deleteCart path =>
    simp only [CartRequest.refusal?] at h
    split at h <;> rename_i huser
    · obtain rfl := Option.some.inj h
      exact if_pos huser
    · cases h
  | deleteItem path =>
    simp only [CartRequest.refusal?] at h
    split at h <;> rename_i hsplit
    · obtain rfl := Option.some.inj h
      simp only [serve, handleDeleteItem, hsplit]
    · cases h
  | checkout path now =>
    simp only [CartRequest.refusal?] at h
    split at h <;> rename_i huser
    · obtain rfl := Option.some.inj h
      simp only [serve, handleCheckout, huser]
    · cases h
  | getItemCount path =>
    simp only [CartRequest.refusal?] at h
    split at h <;> rename_i huser
    · obtain rfl := Option.some.inj h
      simp only [serve, handleGetItemCount, huser]
    · cases h

/-- The outcome of a request in the shop. -/
def DealsIn (shop : Shop) (choose : ℕ → Choice) (request : CartRequest) (s' : CartStore)
    (answer : Response) : Prop :=
  ∃ shop', Deals shop (choose 1).response request shop' answer ∧ Keeps s' shop'

lemma dealsIn_addItem (hkeeps : Keeps s shop) (hhealthy : AllSucceed choose)
    {req : AddItemRequest} {now : String} (hvalid : req.isValid = true)
    (h : serveAlone choose s (.addItem (some req) now) = some (s', answer)) :
    DealsIn shop choose (.addItem (some req) now) s' answer := by
  unfold serveAlone serve handleAddItem at h
  simp only [if_pos hvalid] at h
  obtain ⟨existing, hexisting, h⟩ := perform_call_healthy hhealthy h
  obtain rfl := Option.some.inj hexisting
  obtain ⟨hs', rfl⟩ := hkeeps.setCartItem hhealthy h
  have hitem : itemToAdd req now (.ok (storedText s req.userID req.productID)) =
      (shop.baskets req.userID).changed req.productID req.quantity now (· + req.quantity) := by
    unfold itemToAdd
    exact hkeeps.itemToChange _ _ _ _ (· + req.quantity)
  exact ⟨_, .added hvalid, hitem ▸ hs'⟩

lemma dealsIn_updateItem (hkeeps : Keeps s shop) (hhealthy : AllSucceed choose)
    {req : UpdateItemRequest} {now : String} (hvalid : req.IsValid)
    (h : serveAlone choose s (.updateItem (some req) now) = some (s', answer)) :
    DealsIn shop choose (.updateItem (some req) now) s' answer := by
  have hchecks := hvalid
  obtain ⟨huser, hproduct, hneg⟩ := hchecks
  unfold serveAlone serve handleUpdateItem at h
  simp only [huser, hproduct, or_self, if_false, hneg] at h
  by_cases hzero : req.quantity = 0
  · rw [if_pos hzero] at h
    obtain ⟨hs', rfl⟩ := hkeeps.removal hhealthy rfl h
    exact ⟨_, .updatedToZero hvalid hzero, hs'⟩
  · rw [if_neg hzero] at h
    obtain ⟨existing, hexisting, h⟩ := perform_call_healthy hhealthy h
    obtain rfl := Option.some.inj hexisting
    obtain ⟨hs', rfl⟩ := hkeeps.setCartItem hhealthy h
    have hitem : itemToChange req.productID req.quantity now
        (fun item => { item with quantity := req.quantity })
          (.ok (storedText s req.userID req.productID)) =
        (shop.baskets req.userID).changed req.productID req.quantity now
          fun _ => req.quantity := hkeeps.itemToChange _ _ _ _ fun _ => req.quantity
    exact ⟨_, .updated hvalid hzero, hitem ▸ hs'⟩

lemma dealsIn_getCart (hkeeps : Keeps s shop) (hhealthy : AllSucceed choose) {path : String}
    {now : String → String} (huser : extractUserID path ≠ "")
    (h : serveAlone choose s (.getCart path now) = some (s', answer)) :
    DealsIn shop choose (.getCart path now) s' answer := by
  unfold serveAlone serve handleGetCart at h
  simp only [if_neg huser] at h
  obtain ⟨listed, hlisted, h⟩ := perform_call_healthy hhealthy h
  obtain ⟨order, rfl, hlists⟩ := hkeeps.listing now hlisted
  obtain ⟨rfl, rfl⟩ := Program.perform_done h
  exact ⟨shop, .listed huser hlists, hkeeps⟩

lemma dealsIn_deleteCart (hkeeps : Keeps s shop) (hhealthy : AllSucceed choose) {path : String}
    (huser : extractUserID path ≠ "")
    (h : serveAlone choose s (.deleteCart path) = some (s', answer)) :
    DealsIn shop choose (.deleteCart path) s' answer := by
  unfold serveAlone serve handleDeleteCart at h
  simp only [if_neg huser] at h
  obtain ⟨cleared, hcleared, h⟩ := perform_call_healthy hhealthy h
  obtain rfl := Option.some.inj hcleared
  obtain ⟨rfl, rfl⟩ := Program.perform_done h
  exact ⟨_, .cleared huser, hkeeps.clear _⟩

lemma dealsIn_deleteItem (hkeeps : Keeps s shop) (hhealthy : AllSucceed choose)
    {path user product : String} (hsplit : splitItems path = some (user, product))
    (h : serveAlone choose s (.deleteItem path) = some (s', answer)) :
    DealsIn shop choose (.deleteItem path) s' answer := by
  unfold serveAlone serve handleDeleteItem at h
  simp only [hsplit] at h
  obtain ⟨hs', rfl⟩ := hkeeps.removal hhealthy rfl h
  exact ⟨_, .removed hsplit, hs'⟩

lemma dealsIn_getItemCount (hkeeps : Keeps s shop) (hhealthy : AllSucceed choose)
    {path user : String} (huser : userBefore "/count" path = some user)
    (h : serveAlone choose s (.getItemCount path) = some (s', answer)) :
    DealsIn shop choose (.getItemCount path) s' answer := by
  unfold serveAlone serve handleGetItemCount at h
  simp only [huser] at h
  obtain ⟨counted, hcounted, h⟩ := perform_call_healthy hhealthy h
  obtain rfl := Option.some.inj hcounted
  obtain ⟨rfl, rfl⟩ := Program.perform_done h
  -- there are as many fields as items that are read from them
  have hlists := hkeeps.lists (fun _ => "") (List.Perm.refl (pairs (fieldsOf s' user)))
  have hlength := hkeeps.represented.length_getCartItems (fun _ => "")
    (List.Perm.refl (pairs (fieldsOf s' user)))
  have hdeals : Deals shop (choose 1).response (.getItemCount path) shop
      ⟨200, "ok", "",
        some (.count (getCartItems (fun _ => "") (pairs (fieldsOf s' user))).length)⟩ :=
    .counted huser hlists
  rw [hlength] at hdeals
  exact ⟨shop, hdeals, hkeeps⟩

lemma dealsIn_checkout (hkeeps : Keeps s shop) (hhealthy : AllSucceed choose)
    {path user : String} {now : String → String} (huser : userBefore "/checkout" path = some user)
    (h : serveAlone choose s (.checkout path now) = some (s', answer)) :
    DealsIn shop choose (.checkout path now) s' answer := by
  unfold serveAlone serve handleCheckout at h
  simp only [huser] at h
  obtain ⟨listed, hlisted, h⟩ := perform_call_healthy hhealthy h
  obtain ⟨order, rfl, hlists⟩ := hkeeps.listing now hlisted
  simp only [afterGetCart] at h
  by_cases hempty : getCartItems now order = []
  · rw [if_pos hempty] at h
    obtain ⟨rfl, rfl⟩ := Program.perform_done h
    exact ⟨shop, .nothingToOrder huser (hempty ▸ hlists), hkeeps⟩
  · rw [if_neg hempty] at h
    obtain ⟨posted, hposted, h⟩ := perform_call_healthy hhealthy h
    obtain rfl := Option.some.inj hposted
    -- the order is placed if the order service says so, whatever becomes of its answer
    have hplaced : Keeps
        (cartEffect s (choose 1).response (.post ⟨user, getCartItems now order⟩))
        (shop.answered (choose 1).response ⟨user, getCartItems now order⟩) := by
      have heffect : cartEffect s (choose 1).response (.post ⟨user, getCartItems now order⟩) =
          if (choose 1).response.Places then
            { s with orders := ⟨user, getCartItems now order⟩ :: s.orders } else s := rfl
      rw [heffect, Shop.answered]
      by_cases hplaces : (choose 1).response.Places
      · rw [if_pos hplaces, if_pos hplaces]
        exact hkeeps.order _
      · rw [if_neg hplaces, if_neg hplaces]
        exact hkeeps
    cases hbody : (choose 1).response.body with
    | none =>
      simp only [afterPost, hbody] at h
      obtain ⟨rfl, rfl⟩ := Program.perform_done h
      exact ⟨_, .unread huser hempty hlists hbody, hplaced⟩
    | some body =>
      simp only [afterPost, hbody] at h
      by_cases hstatus : isSuccess (choose 1).response.statusCode
      · have haccepted : ¬ ((choose 1).response.statusCode < 200 ∨
            300 ≤ (choose 1).response.statusCode) := by
          unfold isSuccess at hstatus
          omega
        rw [if_neg haccepted] at h
        obtain ⟨cleared, -, h⟩ := perform_call_healthy hhealthy h
        obtain ⟨rfl, rfl⟩ := Program.perform_done h
        exact ⟨_, .ordered huser hempty hlists hstatus hbody, hplaced.clear user⟩
      · have hrefused : (choose 1).response.statusCode < 200 ∨
            300 ≤ (choose 1).response.statusCode := by
          unfold isSuccess at hstatus
          omega
        rw [if_pos hrefused] at h
        obtain ⟨rfl, rfl⟩ := Program.perform_done h
        have hunplaced : ¬ (choose 1).response.Places := fun h => hstatus h.2
        rw [Shop.answered, if_neg hunplaced] at hplaced
        exact ⟨shop, .notOrdered huser hempty hlists hstatus hbody, hplaced⟩

/-- A request that is served alone, without faults, deals in the shop of the store. -/
theorem deals_of_serveAlone (hkeeps : Keeps s shop) (hhealthy : AllSucceed choose)
    {request : CartRequest} (h : serveAlone choose s request = some (s', answer)) :
    DealsIn shop choose request s' answer := by
  cases hrefusal : request.refusal? with
  | some message =>
    unfold serveAlone at h
    rw [serve_of_refusal hrefusal] at h
    obtain ⟨rfl, rfl⟩ := Program.perform_done h
    exact ⟨shop, .refused hrefusal, hkeeps⟩
  | none =>
    cases request with
    | addItem body now =>
      cases body with
      | none => cases hrefusal
      | some req =>
        simp only [CartRequest.refusal?] at hrefusal
        split at hrefusal <;> rename_i hvalid
        · exact dealsIn_addItem hkeeps hhealthy hvalid h
        · cases hrefusal
    | updateItem body now =>
      cases body with
      | none => cases hrefusal
      | some req =>
        simp only [CartRequest.refusal?] at hrefusal
        split at hrefusal <;> rename_i hnames
        · cases hrefusal
        split at hrefusal <;> rename_i hneg
        · cases hrefusal
        · rw [not_or] at hnames
          exact dealsIn_updateItem hkeeps hhealthy ⟨hnames.1, hnames.2, hneg⟩ h
    | getCart path now =>
      simp only [CartRequest.refusal?] at hrefusal
      split at hrefusal <;> rename_i huser
      · cases hrefusal
      · exact dealsIn_getCart hkeeps hhealthy huser h
    | deleteCart path =>
      simp only [CartRequest.refusal?] at hrefusal
      split at hrefusal <;> rename_i huser
      · cases hrefusal
      · exact dealsIn_deleteCart hkeeps hhealthy huser h
    | deleteItem path =>
      simp only [CartRequest.refusal?] at hrefusal
      split at hrefusal <;> rename_i hsplit
      · cases hrefusal
      · obtain ⟨⟨user, product⟩, hsplit⟩ := Option.ne_none_iff_exists'.mp hsplit
        exact dealsIn_deleteItem hkeeps hhealthy hsplit h
    | checkout path now =>
      simp only [CartRequest.refusal?] at hrefusal
      split at hrefusal <;> rename_i huser
      · cases hrefusal
      · obtain ⟨user, huser⟩ := Option.ne_none_iff_exists'.mp huser
        exact dealsIn_checkout hkeeps hhealthy huser h
    | getItemCount path =>
      simp only [CartRequest.refusal?] at hrefusal
      split at hrefusal <;> rename_i huser
      · cases hrefusal
      · obtain ⟨user, huser⟩ := Option.ne_none_iff_exists'.mp huser
        exact dealsIn_getItemCount hkeeps hhealthy huser h

end

/-! ## Runs -/

/-- One thing after the other: a request is served, or the cart of a user expires. -/
inductive SerialEvent where
  | serve (request : CartRequest) (choose : ℕ → Choice)
  | expiry (user : String)

/-- The store, and the answers so far, latest first. -/
def serialStep (p : CartStore × List Response) : SerialEvent → Option (CartStore × List Response)
  | .serve request choose =>
    (serveAlone choose p.1 request).map fun (s, answer) => (s, answer :: p.2)
  | .expiry user => some (p.1.setCart (cartKey user) .missing, p.2)

/-- The same in a shop. -/
inductive ShopStep : Shop × List Response → SerialEvent → Shop × List Response → Prop
  | serve {shop shop' : Shop} {request : CartRequest} {choose : ℕ → Choice} {answer : Response}
      {answers : List Response} (hdeals : Deals shop (choose 1).response request shop' answer) :
      ShopStep (shop, answers) (.serve request choose) (shop', answer :: answers)
  | expiry (shop : Shop) (answers : List Response) (user : String) :
      ShopStep (shop, answers) (.expiry user) (shop.setBasket user .empty, answers)

abbrev ShopRun : Shop × List Response → List SerialEvent → Shop × List Response → Prop :=
  RunsBy ShopStep

/-- A store and a shop that it holds, the same answers, and no faults to come. -/
structure Trades (es : List SerialEvent) (p : CartStore × List Response)
    (q : Shop × List Response) : Prop where
  keeps : Keeps p.1 q.1
  answers : p.2 = q.2
  healthy : ∀ request choose, SerialEvent.serve request choose ∈ es → AllSucceed choose

lemma trades_step {e : SerialEvent} {es : List SerialEvent} {p p' : CartStore × List Response}
    {q : Shop × List Response} (h : Trades (e :: es) p q) (hstep : serialStep p e = some p') :
    ∃ q', ShopStep q e q' ∧ Trades es p' q' := by
  obtain ⟨s, answers⟩ := p
  obtain ⟨shop, answers'⟩ := q
  obtain rfl : answers = answers' := h.answers
  have htail : ∀ request choose, SerialEvent.serve request choose ∈ es → AllSucceed choose :=
    fun request choose hmem => h.healthy request choose (List.mem_cons_of_mem e hmem)
  cases e with
  | serve request choose =>
    obtain ⟨⟨s', answer⟩, hserve, rfl⟩ := Option.map_eq_some_iff.mp hstep
    have hchoose := h.healthy request choose List.mem_cons_self
    obtain ⟨shop', hdeals, hkeeps⟩ := deals_of_serveAlone h.keeps hchoose hserve
    exact ⟨_, .serve hdeals, hkeeps, rfl, htail⟩
  | expiry user =>
    obtain rfl := Option.some.inj hstep
    exact ⟨_, .expiry shop answers user, h.keeps.clear user, rfl, htail⟩

/-- Let a store hold a shop. If requests are served there one after the other, in any number and
with carts that expire in between, and no command fails, then all answers are answers of the shop,
and the store holds what has become of it. -/
theorem serial_refines_shop {s s' : CartStore} {shop : Shop} {es : List SerialEvent}
    {answers answers' : List Response} (hkeeps : Keeps s shop)
    (hhealthy : ∀ request choose, SerialEvent.serve request choose ∈ es → AllSucceed choose)
    (hrun : run serialStep (s, answers) es = some (s', answers')) :
    ∃ shop', ShopRun (shop, answers) es (shop', answers') ∧ Keeps s' shop' := by
  have hstart : Trades es (s, answers) (shop, answers) := ⟨hkeeps, rfl, hhealthy⟩
  obtain ⟨⟨shop', _⟩, hshop, hkeeps', rfl, -⟩ :=
    run_refines (fun _ _ _ _ _ => trades_step) hstart hrun
  exact ⟨shop', hshop, hkeeps'⟩

def orderAll : CartRequest := .checkout "/api/cart/u/checkout" fun _ => "t"

def listingSeven : Choice := { healthy with order := [("p", cartItemToJSON ⟨"p", 7, "t"⟩)] }

/-- Two units are added to five and ordered. -/
def shoppingTrip : List SerialEvent :=
  [.serve addFive fun _ => healthy, .expiry "v", .serve addTwoMore fun _ => healthy,
    .serve orderAll fun _ => listingSeven]

lemma isSome_shoppingTrip :
    (run serialStep (⟨noCarts, []⟩, []) shoppingTrip).isSome = true := by decide +kernel

theorem serial_refines_shop_trip :
    ∃ s answers shop, run serialStep (⟨noCarts, []⟩, []) shoppingTrip = some (s, answers) ∧
      ShopRun (Shop.opened, []) shoppingTrip (shop, answers) ∧ Keeps s shop := by
  obtain ⟨⟨s, answers⟩, hrun⟩ := Option.isSome_iff_exists.mp isSome_shoppingTrip
  have hhealthy : ∀ request choose, SerialEvent.serve request choose ∈ shoppingTrip →
      AllSucceed choose := by
    intro request choose h n
    simp only [shoppingTrip, List.mem_cons, SerialEvent.serve.injEq, reduceCtorEq,
      List.not_mem_nil, or_false, false_or] at h
    rcases h with ⟨-, rfl⟩ | ⟨-, rfl⟩ | ⟨-, rfl⟩ <;> rfl
  obtain ⟨shop, hshop, hkeeps⟩ := serial_refines_shop keeps_opened hhealthy hrun
  exact ⟨s, answers, shop, hrun, hshop, hkeeps⟩

end DevopsEcommerce.CartService
