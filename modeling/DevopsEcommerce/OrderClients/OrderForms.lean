import DevopsEcommerce.Go.Encoding
import DevopsEcommerce.Js.Values
import DevopsEcommerce.OrderService.RequestBody

/-!
# Orders from the storefront and from the load tests

The bodies that `placeOrder` of the storefront and the scenarios of the load tests send to
`POST /api/orders`, and what becomes of them. The storefront sends its total under a name that
the order service does not know, and the load tests their product and quantity
(`forms_disagree`).
-/

open Interleaving Numbers

namespace DevopsEcommerce.OrderClients

open OrderService

/-! ## The storefront -/

abbrev JsObject := List (String × Json)

/-- Some digit before the exponent is not zero. -/
def isNonzero (n : Json.NumberLiteral) : Bool :=
  (n.chars.takeWhile fun c => c ≠ 'e' && c ≠ 'E').any fun c => '1' ≤ c && c ≤ '9'

/-- The value of a property, if it counts as true. Of members of one name the last counts. -/
def truthy (object : JsObject) (name : String) : Option Json :=
  match object.reverse.lookup name with
  | none | some .null | some (.bool false) => none
  | some (.string s) => if s = "" then none else some (.string s)
  | some (.number n) => if isNonzero n then some (.number n) else none
  | some v => some v

/-- A property of an object that is turned into JSON; one that is undefined is left out. -/
def property (name : String) (value : Option Json) : JsObject :=
  value.toList.map fun v => (name, v)

/-- `state.user.id` after `handleLogin` has got `data`. -/
def handleLogin (data : JsObject) : Option Json :=
  let assigned (own : Option Json) := (truthy data "userId").or ((truthy data "id").or own)
  match truthy data "user" with
  | none | some (.array _) => assigned none
  | some (.object user) => assigned (user.reverse.lookup "id")
  -- a primitive value takes no properties
  | some _ => none

/-- `login` of the user service answers with a `TokenResponse`. -/
def tokenResponse (accessToken : String) : JsObject :=
  [("access_token", .string accessToken), ("token_type", .string "bearer")]

/-- A user who has logged in has no id. -/
lemma handleLogin_tokenResponse (accessToken : String) :
    handleLogin (tokenResponse accessToken) = none := rfl

/-- A line of the cart; `id` may be undefined. -/
structure CartLine (N : Type) where
  id : Option Json
  name : Json
  price : N
  qty : N

/-- `String.prototype.trim` leaves nothing. -/
def isBlank (s : String) : Bool := s.toList.all Js.isWhitespace

section
variable {N : Type} [Zero N] [Add N] [Mul N] (toJson : N → Json)

/-- An element of `items`. -/
def itemJson (line : CartLine N) : Json :=
  .object (property "productId" line.id ++
    [("quantity", toJson line.qty), ("price", toJson line.price)])

def totalAmount (cart : List (CartLine N)) : N :=
  cart.foldl (fun s line => s + line.price * line.qty) 0

/-- The body that `placeOrder` posts for a user who is logged in, over JavaScript's numbers and
what `JSON.stringify` makes of them; `none` if it posts nothing. The address is `none` if the page
has no field for it. -/
def placeOrder (userId : Option Json) (cart : List (CartLine N)) (address : Option String) :
    Option Json :=
  if cart = [] ∨ address.any isBlank then none
  else
    some (.object (property "userId" userId ++
      [("items", .array (cart.map (itemJson toJson))), ("totalAmount", toJson (totalAmount cart)),
        ("shippingAddress", .string (address.getD ""))]))

end

/-! ## The load tests -/

/-- The body of the load tests and of the examples in the documentation. -/
def orderPayload (userId productId : String) (quantity totalPrice : Json) : Json :=
  .object [("userId", .string userId), ("productId", .string productId), ("quantity", quantity),
    ("totalPrice", totalPrice)]

/-! ## What becomes of them -/

/-- The products of an order: those of its items or, without any, its own. -/
def orderedProducts (order : Order) : List (Option String × ℤ) :=
  if order.items = [] then [(order.productId, order.quantity.toInt)]
  else order.items.map fun item => (item.productId, item.quantity.toInt)

/-- The post is answered with 201, and the stored order has this user, this price and exactly
these products. -/
def AgreesWith (posted : Option (OrderStore × Response)) (uuid : String) (userId : Option String)
    (totalPrice : Option BigDecimal) (products : List (Option String × ℤ)) : Prop :=
  ∃ store answer row, posted = some (store, answer) ∧ answer.status = 201 ∧
    findRow store.rows uuid = some row ∧ row.userId = userId ∧ row.totalPrice = totalPrice ∧
    orderedProducts row = products

section
variable {jackson : Jackson} {platform : Platform} {choose : ℕ → Fault} {rows : List Order}
  {uuid : String} {store : OrderStore} {answer : Response}

/-- An order that is placed has no total price, so it is not stored. -/
lemma not_created_of_placeOrder {N : Type} [Zero N] [Add N] [Mul N] {toJson : N → Json}
    {userId : Option Json} {cart : List (CartLine N)} {address : Option String} {body : Json}
    (hplace : placeOrder toJson userId cart address = some body)
    (h : postOrder jackson platform choose rows body uuid = some (store, answer)) :
    answer.status ≠ 201 := by
  intro hok
  obtain ⟨request, order, row, hdecode, horder, hrow, -⟩ := stored_of_created h hok
  unfold placeOrder at hplace
  split at hplace
  · exact absurd hplace (by simp)
  · obtain rfl := Option.some.inj hplace
    have hprice : request.totalPrice = none := by
      refine totalPrice_of_decode (fun m hm => ?_) hdecode
      rcases List.mem_append.mp hm with hm | hm
      · obtain ⟨v, -, rfl⟩ := List.mem_map.mp hm
        simp
      · simp only [List.mem_cons, List.not_mem_nil, or_false] at hm
        rcases hm with rfl | rfl | rfl <;> simp
    rw [← newOrder_totalPrice horder] at hprice
    rw [(Order.stored_of_totalPrice hprice).2] at hrow
    exact absurd hrow (by simp)

/-- A payload is stored as an order of zero units of `N/A`. -/
lemma orderedProducts_of_orderPayload {userId productId : String} {quantity totalPrice : Json}
    {row : Order}
    (h : postOrder jackson platform choose rows
      (orderPayload userId productId quantity totalPrice) uuid = some (store, answer))
    (hok : answer.status = 201) (hrow : findRow store.rows uuid = some row) :
    orderedProducts row = [(some "N/A", 0)] := by
  obtain ⟨request, order, stored, hdecode, horder, hstored, hfound⟩ := stored_of_created h hok
  have hitems : request.items = none := by
    refine items_of_decode (fun m hm => ?_) hdecode
    simp only [List.mem_cons, List.not_mem_nil, or_false] at hm
    rcases hm with rfl | rfl | rfl | rfl <;> simp
  obtain ⟨hproduct, hquantity, hnone⟩ := newOrder_of_items hitems horder
  obtain ⟨hproduct', hquantity', hnone'⟩ := Order.stored_of_items hnone hstored
  obtain rfl := Option.some.inj (hrow.symm.trans hfound)
  unfold orderedProducts
  rw [if_pos hnone', hproduct', hquantity', hproduct, hquantity]
  rfl

/-- No order that the storefront places, and no payload of the load tests, is stored as it was
sent: the first is not stored at all, the second as zero units of `N/A`. -/
theorem forms_disagree (jackson : Jackson) (platform : Platform) (choose : ℕ → Fault)
    (rows : List Order) (uuid : String) :
    (∀ (N : Type) [Zero N] [Add N] [Mul N] (toJson : N → Json) (data : JsObject)
      (cart : List (CartLine N)) (address : Option String) (body : Json)
      (userId : Option String) (totalPrice : Option BigDecimal)
      (products : List (Option String × ℤ)),
      placeOrder toJson (handleLogin data) cart address = some body →
      ¬ AgreesWith (postOrder jackson platform choose rows body uuid) uuid userId totalPrice
        products) ∧
    ∀ (userId productId : String) (quantity totalPrice : Json) (units : ℤ)
      (price : Option BigDecimal), 1 ≤ units →
      ¬ AgreesWith (postOrder jackson platform choose rows
        (orderPayload userId productId quantity totalPrice) uuid) uuid (some userId) price
        [(some productId, units)] := by
  constructor
  · rintro N _ _ _ toJson data cart address body userId totalPrice products hplace
      ⟨store, answer, row, hpost, hok, -⟩
    exact not_created_of_placeOrder hplace hpost hok
  · rintro userId productId quantity totalPrice units price hunits
      ⟨store, answer, row, hpost, hok, hfound, -, -, hproducts⟩
    rw [orderedProducts_of_orderPayload hpost hok hfound] at hproducts
    have hzero : (0 : ℤ) = units := (Prod.mk.inj (List.cons.inj hproducts).1).2
    omega

end

/-! ## Samples -/

/-- The number as `JSON.stringify` writes it. -/
def oneUnit : Json := .number (Go.intLiteral 1)

/-- The payload of the documentation, `29.99` for one unit. -/
def samplePayload : Json :=
  orderPayload "user-1" "prod-1" oneUnit (.number ⟨['2', '9', '.', '9', '9'], by decide⟩)

/-- It is answered with 201. -/
example : (postOrder plainJackson ⟨true, id⟩ (fun _ => .none) [] samplePayload "o1").map
    (fun posted => (posted.2.status, posted.1.rows.map orderedProducts)) =
      some (201, [[(some "N/A", 0)]]) := by
  decide +kernel

/-- A cart of one unit. -/
def sampleCart : List (CartLine Int64) := [⟨some (.string "prod-1"), .string "Pen", 30, 1⟩]

theorem forms_disagree_sample :
    (¬ AgreesWith (postOrder plainJackson ⟨true, id⟩ (fun _ => .none) []
      (.object [("items", .array (sampleCart.map (itemJson fun n => .number (Go.intLiteral n)))),
        ("totalAmount", .number (Go.intLiteral 30)), ("shippingAddress", .string "here")]) "o1")
      "o1" none (some ⟨30, 0⟩) [(some "prod-1", 1)]) ∧
    ¬ AgreesWith (postOrder plainJackson ⟨true, id⟩ (fun _ => .none) [] samplePayload "o1") "o1"
      (some "user-1") (some ⟨2999, 2⟩) [(some "prod-1", 1)] :=
  ⟨(forms_disagree plainJackson ⟨true, id⟩ (fun _ => .none) [] "o1").1 Int64
      (fun n => .number (Go.intLiteral n)) (tokenResponse "token") sampleCart (some "here") _ none
      (some ⟨30, 0⟩) [(some "prod-1", 1)] rfl,
    (forms_disagree plainJackson ⟨true, id⟩ (fun _ => .none) [] "o1").2 "user-1" "prod-1" oneUnit
      _ 1 (some ⟨2999, 2⟩) (by decide)⟩

/-- **An order that loses its product.** One unit is sent, and zero units of `N/A` are stored. -/
theorem payload_loses_product :
    ¬ ∀ (userId productId : String) (quantity totalPrice : Json) (units : Int32)
      (price : BigDecimal), 1 ≤ units.toInt → plainJackson.int quantity = some units →
      plainJackson.bigDecimal totalPrice = some (some price) →
      AgreesWith (postOrder plainJackson ⟨true, id⟩ (fun _ => .none) []
        (orderPayload userId productId quantity totalPrice) "o1") "o1" (some userId) (some price)
        [(some productId, units.toInt)] := by
  intro h
  obtain ⟨store, answer, row, hpost, hok, hfound, -, -, hproducts⟩ :=
    h "user-1" "prod-1" oneUnit (.number ⟨['2', '9', '.', '9', '9'], by decide⟩) 1 ⟨2999, 2⟩
      (by decide) (by decide +kernel) (by decide +kernel)
  rw [orderedProducts_of_orderPayload hpost hok hfound] at hproducts
  exact absurd hproducts (by decide)

end DevopsEcommerce.OrderClients
