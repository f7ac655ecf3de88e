import DevopsEcommerce.CartService.FailedCommands

/-!
# The cart service as a shop

What the service is for, without Redis and without texts: every user has a basket with at most
one item of each product, and the order service gets orders. `Deals` says what a request does
there and how it may be answered.

`Keeps s shop` says that the store `s` holds the shop. A request served alone without faults
deals in the shop (`deals_of_serveAlone`), so that the service is a shop as long as requests are
served one after the other (`serial_refines_shop`).
-/

open Interleaving

namespace DevopsEcommerce.CartService

/-! ## Baskets -/

/-- At most one item of each product. -/
@[ext]
structure Basket where
  item : String → Option CartItem
  keyed : ∀ {product : String} {i : CartItem}, item product = some i → i.productID = product

namespace Basket

def empty : Basket where
  item := fun _ => none
  keyed := fun h => absurd h (by simp)

/-- With `i` in the place of the item of its product. -/
def put (b : Basket) (i : CartItem) : Basket where
  item := Function.update b.item i.productID (some i)
  keyed := by
    intro product j hj
    by_cases hproduct : product = i.productID
    · subst hproduct
      rw [Function.update_self, Option.some.injEq] at hj
      rw [hj]
    · rw [Function.update_of_ne hproduct] at hj
      exact b.keyed hj

def without (b : Basket) (product : String) : Basket where
  item := Function.update b.item product none
  keyed := by
    intro product' j hj
    by_cases hproduct : product' = product
    · subst hproduct
      rw [Function.update_self] at hj
      cases hj
    · rw [Function.update_of_ne hproduct] at hj
      exact b.keyed hj

/-- The item of the product with another quantity, or a new one if there is none. -/
def changed (b : Basket) (product : String) (quantity : Int64) (now : String)
    (next : Int64 → Int64) : CartItem :=
  (b.item product).elim ⟨product, quantity, now⟩ fun old =>
    { old with quantity := next old.quantity }

/-- A list of the items, each of them once. -/
def Lists (b : Basket) (items : List CartItem) : Prop :=
  (items.map CartItem.productID).Nodup ∧ ∀ i, i ∈ items ↔ b.item i.productID = some i

end Basket

/-! ## The shop -/

structure Shop where
  baskets : String → Basket
  orders : List CheckoutRequest

def Shop.setBasket (shop : Shop) (user : String) (b : Basket) : Shop :=
  { shop with baskets := Function.update shop.baskets user b }

def Shop.order (shop : Shop) (order : CheckoutRequest) : Shop :=
  { shop with orders := order :: shop.orders }

/-- All baskets are empty, and nothing is ordered. -/
def Shop.opened : Shop where
  baskets := fun _ => .empty
  orders := []

/-- What is wrong with a request. -/
def CartRequest.refusal? : CartRequest → Option String
  | .addItem none _ | .updateItem none _ => some "invalid request body"
  | .addItem (some req) _ =>
    if req.isValid then none
    else some "userId, productId, and a positive quantity are required"
  | .updateItem (some req) _ =>
    if req.userID = "" ∨ req.productID = "" then some "userId and productId are required"
    else if req.quantity < 0 then some "quantity must be zero or positive"
    else none
  | .getCart path _ | .deleteCart path =>
    if extractUserID path = "" then some "userId is required" else none
  | .deleteItem path =>
    if splitItems path = none then some "userId and productId are required" else none
  | .checkout path _ =>
    if userBefore "/checkout" path = none then some "userId is required" else none
  | .getItemCount path =>
    if userBefore "/count" path = none then some "userId is required" else none

/-- The shop when the order service has answered about an order. -/
def Shop.answered (shop : Shop) (response : OrderResponse) (order : CheckoutRequest) : Shop :=
  if response.Places then shop.order order else shop

/-- What a request may do in a shop and how it may then be answered; `response` is what
`http.Client.Post` returns if the order service is asked, after any redirects. -/
inductive Deals (shop : Shop) (response : OrderResponse) :
    CartRequest → Shop → Response → Prop
  | refused {request : CartRequest} {message : String} (h : request.refusal? = some message) :
      Deals shop response request shop (errorResponse 400 message)
  | added {req : AddItemRequest} {now : String} (hvalid : req.isValid = true) :
      Deals shop response (.addItem (some req) now)
        (shop.setBasket req.userID ((shop.baskets req.userID).put
          ((shop.baskets req.userID).changed req.productID req.quantity now (· + req.quantity))))
        ⟨200, "ok", "item added to cart", none⟩
  | updated {req : UpdateItemRequest} {now : String} (hvalid : req.IsValid)
      (hpos : req.quantity ≠ 0) :
      Deals shop response (.updateItem (some req) now)
        (shop.setBasket req.userID ((shop.baskets req.userID).put
          ((shop.baskets req.userID).changed req.productID req.quantity now
            fun _ => req.quantity)))
        ⟨200, "ok", "item updated", none⟩
  | updatedToZero {req : UpdateItemRequest} {now : String} (hvalid : req.IsValid)
      (hzero : req.quantity = 0) :
      Deals shop response (.updateItem (some req) now)
        (shop.setBasket req.userID ((shop.baskets req.userID).without req.productID))
        ⟨200, "ok", "item removed from cart", none⟩
  | removed {path user product : String} (hsplit : splitItems path = some (user, product)) :
      Deals shop response (.deleteItem path)
        (shop.setBasket user ((shop.baskets user).without product))
        ⟨200, "ok", "item removed from cart", none⟩
  | cleared {path : String} (huser : extractUserID path ≠ "") :
      Deals shop response (.deleteCart path) (shop.setBasket (extractUserID path) .empty)
        ⟨200, "ok", "cart cleared", none⟩
  | listed {path : String} {now : String → String} {items : List CartItem}
      (huser : extractUserID path ≠ "")
      (hitems : (shop.baskets (extractUserID path)).Lists items) :
      Deals shop response (.getCart path now) shop ⟨200, "ok", "", some (.items items)⟩
  | counted {path user : String} {items : List CartItem}
      (huser : userBefore "/count" path = some user) (hitems : (shop.baskets user).Lists items) :
      Deals shop response (.getItemCount path) shop
        ⟨200, "ok", "", some (.count items.length)⟩
  | nothingToOrder {path user : String} {now : String → String}
      (huser : userBefore "/checkout" path = some user) (hitems : (shop.baskets user).Lists []) :
      Deals shop response (.checkout path now) shop (errorResponse 400 "cart is empty")
  | ordered {path user body : String} {now : String → String} {items : List CartItem}
      (huser : userBefore "/checkout" path = some user) (hne : items ≠ [])
      (hitems : (shop.baskets user).Lists items) (hstatus : isSuccess response.statusCode)
      (hbody : response.body = some body) :
      Deals shop response (.checkout path now)
        ((shop.answered response ⟨user, items⟩).setBasket user .empty)
        ⟨200, "ok", "checkout successful", some (.order body)⟩
  | notOrdered {path user body : String} {now : String → String} {items : List CartItem}
      (huser : userBefore "/checkout" path = some user) (hne : items ≠ [])
      (hitems : (shop.baskets user).Lists items) (hstatus : ¬ isSuccess response.statusCode)
      (hbody : response.body = some body) :
      Deals shop response (.checkout path now) shop
        (errorResponse response.statusCode "order service returned an error")
  /-- The order is placed or not, and the basket stays as it is. -/
  | unread {path user : String} {now : String → String} {items : List CartItem}
      (huser : userBefore "/checkout" path = some user) (hne : items ≠ [])
      (hitems : (shop.baskets user).Lists items) (hbody : response.body = none) :
      Deals shop response (.checkout path now) (shop.answered response ⟨user, items⟩)
        (errorResponse 502 "failed to read order service response")

/-! ## The shop in the store -/

/-- The store holds the items of the shop as their texts, and its orders. -/
def Keeps (s : CartStore) (shop : Shop) : Prop :=
  s.orders = shop.orders ∧ ∀ user product, storedText s user product =
    ((shop.baskets user).item product).map cartItemToJSON

section
variable {s s' : CartStore} {shop : Shop} {choose : ℕ → Choice} {answer : Response}

lemma keeps_opened : Keeps ⟨noCarts, []⟩ Shop.opened := by
  refine ⟨rfl, fun user product => ?_⟩
  simp [storedText, fieldsOf, noCarts, Cart.missing, Shop.opened, Basket.empty]

lemma Keeps.represented (h : Keeps s shop) : Represented s := by
  intro user field raw hraw
  have htext := h.2 user field
  unfold storedText at htext
  rw [htext] at hraw
  obtain ⟨item, hitem, rfl⟩ := Option.map_eq_some_iff.mp hraw
  exact ⟨item, (shop.baskets user).keyed hitem, rfl⟩

lemma Keeps.storedItem_eq (h : Keeps s shop) (user product : String) :
    storedItem s user product = (shop.baskets user).item product := by
  unfold storedItem
  rw [h.2]
  cases (shop.baskets user).item product with
  | none => rfl
  | some item => rw [Option.map_some, Option.bind_some, parseCartItem_cartItemToJSON]

/-- The store that the service leaves behind holds some shop. -/
lemma exists_keeps (hs : Represented s) : ∃ shop, Keeps s shop :=
  ⟨{ baskets := fun user =>
        ⟨storedItem s user, fun h => (hs.storedText_eq user _).2 _ h⟩
     orders := s.orders },
    rfl, fun user product => (hs.storedText_eq user product).1⟩

lemma Keeps.put (h : Keeps s shop) {user : String} {item : CartItem}
    (horders : s'.orders = s.orders)
    (htext : ∀ user' field, storedText s' user' field =
      if (user', field) = (user, item.productID) then some (cartItemToJSON item)
      else storedText s user' field) :
    Keeps s' (shop.setBasket user ((shop.baskets user).put item)) := by
  refine ⟨horders.trans h.1, fun user' field => ?_⟩
  rw [htext, h.2]
  by_cases huser : user' = user
  · subst huser
    simp only [Shop.setBasket, Function.update_self, Basket.put, Prod.mk.injEq, true_and]
    by_cases hfield : field = item.productID
    · rw [if_pos hfield, hfield, Function.update_self]
      rfl
    · rw [if_neg hfield, Function.update_of_ne hfield]
  · rw [if_neg fun heq => huser (Prod.mk.inj heq).1]
    simp only [Shop.setBasket, Function.update_of_ne huser]

lemma Keeps.without (h : Keeps s shop) {user product : String} (horders : s'.orders = s.orders)
    (htext : ∀ user' field, storedText s' user' field =
      if (user', field) = (user, product) then none else storedText s user' field) :
    Keeps s' (shop.setBasket user ((shop.baskets user).without product)) := by
  refine ⟨horders.trans h.1, fun user' field => ?_⟩
  rw [htext, h.2]
  by_cases huser : user' = user
  · subst huser
    simp only [Shop.setBasket, Function.update_self, Basket.without, Prod.mk.injEq, true_and]
    by_cases hfield : field = product
    · rw [if_pos hfield, hfield, Function.update_self]
      rfl
    · rw [if_neg hfield, Function.update_of_ne hfield]
  · rw [if_neg fun heq => huser (Prod.mk.inj heq).1]
    simp only [Shop.setBasket, Function.update_of_ne huser]

/-- A cart that is deleted or has expired. -/
lemma Keeps.clear (h : Keeps s shop) (user : String) :
    Keeps (s.setCart (cartKey user) .missing) (shop.setBasket user .empty) := by
  refine ⟨h.1, fun user' field => ?_⟩
  unfold storedText fieldsOf
  rw [carts_setCart]
  by_cases huser : user' = user
  · subst huser
    rw [if_pos rfl]
    simp only [Shop.setBasket, Function.update_self]
    rfl
  · rw [if_neg fun heq => huser (cartKey_injective heq).symm]
    simp only [Shop.setBasket, Function.update_of_ne huser]
    exact h.2 user' field

lemma Keeps.order (h : Keeps s shop) (order : CheckoutRequest) :
    Keeps { s with orders := order :: s.orders } (shop.order order) :=
  ⟨congrArg (order :: ·) h.1, h.2⟩

/-- What `HGETALL` lists is read as the items of the basket. -/
lemma Keeps.lists (h : Keeps s shop) {user : String} (now : String → String)
    {order : List (String × String)} (horder : order.Perm (pairs (fieldsOf s user))) :
    (shop.baskets user).Lists (getCartItems now order) := by
  refine ⟨h.represented.nodup_productID now horder, fun item => ?_⟩
  have hpairs : (getCartItems now order).map
      (fun item => (item.productID, cartItemToJSON item)) = order := by
    apply map_getCartItems
    intro pr hpr
    exact h.represented user pr.1 pr.2 (mem_pairs.mp (horder.mem_iff.mp hpr))
  -- an item is listed if its product and its text are
  have hmem : item ∈ getCartItems now order ↔ (item.productID, cartItemToJSON item) ∈ order := by
    conv_rhs => rw [← hpairs]
    constructor
    · exact fun hitem => List.mem_map_of_mem hitem
    · intro hitem
      obtain ⟨item', hitem', heq⟩ := List.mem_map.mp hitem
      exact cartItemToJSON_injective (Prod.mk.inj heq).2 ▸ hitem'
  rw [hmem, horder.mem_iff, mem_pairs]
  show storedText s user item.productID = _ ↔ _
  rw [h.2, Option.map_eq_some_iff]
  constructor
  · rintro ⟨item', hitem', heq⟩
    rw [hitem', cartItemToJSON_injective heq]
  · intro hitem
    exact ⟨item, hitem, rfl⟩

end

end DevopsEcommerce.CartService
