import DevopsEcommerce.CartService.Representation
import DevopsEcommerce.OrderService.RequestBody

/-!
# The order that a checkout posts

The body that the cart service posts at a checkout, read by the order service. It names the user
and the products with their quantities, but has no `totalPrice`, `productName` or `unitPrice`,
which the order and its items must have (`checkout_not_storable`).
-/

open Interleaving Numbers

namespace DevopsEcommerce

namespace CartService

def CheckoutRequest.toJson (order : CheckoutRequest) : Json :=
  .object [("userId", .string order.userID), ("items", .array (order.items.map CartItem.toJson))]

/-- `json.Marshal(orderReq)` -/
def checkoutBody (order : CheckoutRequest) : String := Go.marshal order.toJson

end CartService

namespace OrderService

/-- `createOrder` turns the request into an order and items with a value in every column that
must have one, of this user and with exactly these products and quantities. -/
def StorableAs (request : CreateOrderRequest) (uuid userID : String)
    (products : List (String × ℤ)) : Prop :=
  ∃ order, newOrder request uuid = some order ∧ order.hasRequired = true ∧
    order.userId = some userID ∧
    order.items.map (fun item => (item.productId, item.quantity.toInt)) =
      products.map fun product => (some product.1, product.2)

/-- The body of a request as text. -/
def decodeBody (jackson : Jackson) (body : String) : Option CreateOrderRequest :=
  (Json.parse body.toList).bind (decodeRequest jackson)

end OrderService

namespace OrderClients

open CartService OrderService

/-- What the order service reads from the body of a checkout has no total price. -/
lemma totalPrice_of_checkout {jackson : Jackson} {order : CheckoutRequest}
    {request : CreateOrderRequest}
    (h : decodeBody jackson (checkoutBody order) = some request) : request.totalPrice = none := by
  unfold decodeBody checkoutBody Go.marshal at h
  rw [String.toList_ofList, Json.parse_print Go.unescapes_escape, Option.bind_some] at h
  refine totalPrice_of_decode (fun m hm => ?_) h
  simp only [List.mem_cons, List.not_mem_nil, or_false] at hm
  rcases hm with rfl | rfl <;> simp

/-- Hence the order lacks a value that it must have. -/
lemma hasRequired_of_checkout {jackson : Jackson} {request : CreateOrderRequest}
    {checkout : CheckoutRequest} {uuid : String} {order : Order}
    (hdecode : decodeBody jackson (checkoutBody checkout) = some request)
    (horder : newOrder request uuid = some order) : order.hasRequired = false := by
  have hprice := totalPrice_of_checkout hdecode
  rw [← newOrder_totalPrice horder] at hprice
  exact (Order.stored_of_totalPrice hprice).1

/-- No checkout posts an order that the order service can store, whatever the user and the items
are. -/
theorem checkout_not_storable (jackson : Jackson) (userID : String) (items : List CartItem)
    (uuid : String) :
    ¬ ∃ request, decodeBody jackson (checkoutBody ⟨userID, items⟩) = some request ∧
      StorableAs request uuid userID
        (items.map fun item => (item.productID, item.quantity.toInt)) := by
  rintro ⟨request, hdecode, order, horder, hrequired, -⟩
  rw [hasRequired_of_checkout hdecode horder] at hrequired
  exact Bool.false_ne_true hrequired

/-- **A cart that cannot be ordered**, five units of one product. -/
theorem five_units_not_storable :
    ¬ ∀ (jackson : Jackson) (s : CartStore) (userID : String) (now : String → String)
      (order : List (String × String)) (uuid : String), Reachable s →
      order.Perm (pairs (fieldsOf s userID)) → getCartItems now order ≠ [] →
      ∃ request, decodeBody jackson (checkoutBody ⟨userID, getCartItems now order⟩) =
          some request ∧
        StorableAs request uuid userID
          ((getCartItems now order).map fun item => (item.productID, item.quantity.toInt)) := by
  intro h
  obtain ⟨request, hdecode, order, horder, hrequired, -⟩ := h plainJackson cartOfFive "u"
    (fun _ => "t'") _ "o1" reachable_cartOfFive (List.Perm.refl _) (by decide +kernel)
  rw [hasRequired_of_checkout hdecode horder] at hrequired
  exact Bool.false_ne_true hrequired

end OrderClients

end DevopsEcommerce
