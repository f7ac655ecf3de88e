import DevopsEcommerce.Numbers.Decimal
import DevopsEcommerce.Postgres.Varchar

/-!
# Orders

The entities and the request of the order service, and what their columns accept. A Java
reference that may be null is an `Option`. Timestamps and the ids of the items, which no
modelled function reads, are left out; an order's id is the text of its UUID.

`Order.stored` is the row that an INSERT or UPDATE writes, if the columns take it. It may differ
from the order, whose prices are rounded and whose texts may lose spaces at their end; but a row
is stored as it is, whatever its status (`stored_withStatus`).
-/

open Numbers Postgres

namespace DevopsEcommerce.OrderService

inductive OrderStatus where
  | pending
  | confirmed
  | shipped
  | delivered
  | cancelled
deriving DecidableEq, Repr

namespace OrderStatus

/-- `status.name()` -/
def name : OrderStatus → String
  | pending => "PENDING"
  | confirmed => "CONFIRMED"
  | shipped => "SHIPPED"
  | delivered => "DELIVERED"
  | cancelled => "CANCELLED"

/-- `OrderStatus.valueOf`; `none` is the `IllegalArgumentException`. -/
def valueOf (s : String) : Option OrderStatus :=
  [pending, confirmed, shipped, delivered, cancelled].find? fun status => status.name = s

end OrderStatus

structure OrderItem where
  productId : Option String
  productName : Option String
  quantity : Int32
  unitPrice : Option BigDecimal
deriving DecidableEq

structure Order where
  id : String
  userId : Option String
  productId : Option String
  quantity : Int32
  totalPrice : Option BigDecimal
  shippingAddress : Option String
  email : Option String
  status : OrderStatus
  items : List OrderItem
deriving DecidableEq

structure ItemRequest where
  productId : Option String
  productName : Option String
  quantity : Int32
  unitPrice : Option BigDecimal
deriving DecidableEq

structure CreateOrderRequest where
  userId : Option String
  email : Option String
  shippingAddress : Option String
  items : Option (List (Option ItemRequest))
  totalPrice : Option BigDecimal
deriving DecidableEq

/-! ## `createOrder` -/

def newItem (itemReq : ItemRequest) : OrderItem :=
  { productId := itemReq.productId, productName := itemReq.productName,
    quantity := itemReq.quantity, unitPrice := itemReq.unitPrice }

/-- The order that `createOrder` builds; `save` gives it its id. A null element in the list
of items is a `NullPointerException`. -/
def newOrder (request : CreateOrderRequest) (uuid : String) : Option Order :=
  ((request.items.getD []).mapM id).map fun items =>
    { id := uuid
      userId := request.userId
      productId :=
        match items with
        | item :: _ => item.productId
        | [] => some "N/A"
      -- the sum of an `IntStream` wraps around
      quantity := (items.map ItemRequest.quantity).sum
      totalPrice := request.totalPrice
      shippingAddress := request.shippingAddress
      email := request.email
      status := .pending
      items := items.map newItem }

/-- A new order is `PENDING`, under the id that it was given. -/
lemma newOrder_eq {request : CreateOrderRequest} {uuid : String} {order : Order}
    (h : newOrder request uuid = some order) : order.id = uuid ∧ order.status = .pending := by
  obtain ⟨items, -, rfl⟩ := Option.map_eq_some_iff.mp h
  exact ⟨rfl, rfl⟩

lemma newOrder_totalPrice {request : CreateOrderRequest} {uuid : String} {order : Order}
    (h : newOrder request uuid = some order) : order.totalPrice = request.totalPrice := by
  obtain ⟨items, -, rfl⟩ := Option.map_eq_some_iff.mp h
  rfl

/-- Without a list of items the order is one of zero units of `N/A`. -/
lemma newOrder_of_items {request : CreateOrderRequest} {uuid : String} {order : Order}
    (hitems : request.items = none) (h : newOrder request uuid = some order) :
    order.productId = some "N/A" ∧ order.quantity = 0 ∧ order.items = [] := by
  obtain ⟨items, hlist, rfl⟩ := Option.map_eq_some_iff.mp h
  rw [hitems, Option.getD_none, List.mapM_nil] at hlist
  obtain rfl := Option.some.inj hlist
  exact ⟨rfl, rfl, rfl⟩

/-! ## Columns -/

/-- `nullable = false` text columns, which are `varchar(255)`. -/
def requiredText (s : Option String) : Option String := s.bind (varchar 255)

/-- Nullable text columns. -/
def optionalText (s : Option String) : Option (Option String) := s.mapM (varchar 255)

/-- `nullable = false` numeric columns. -/
def requiredNumeric (precision scale : ℕ) (x : Option BigDecimal) : Option BigDecimal :=
  x.bind (·.toNumeric precision scale)

/-- The row of an item in `order_items`. -/
def OrderItem.stored (item : OrderItem) : Option OrderItem := do
  let productId ← requiredText item.productId
  let productName ← requiredText item.productName
  let unitPrice ← requiredNumeric 10 2 item.unitPrice
  return { item with
    productId := some productId, productName := some productName, unitPrice := some unitPrice }

/-- The row of an order in `orders`, with those of its items. -/
def Order.stored (order : Order) : Option Order := do
  let userId ← requiredText order.userId
  let productId ← requiredText order.productId
  let totalPrice ← requiredNumeric 12 2 order.totalPrice
  let shippingAddress ← optionalText order.shippingAddress
  let email ← optionalText order.email
  let items ← order.items.mapM OrderItem.stored
  return { order with
    userId := some userId, productId := some productId, totalPrice := some totalPrice,
    shippingAddress := shippingAddress, email := email, items := items }

/-- Every `nullable = false` property has a value, the items' included. -/
def Order.hasRequired (order : Order) : Bool :=
  order.userId.isSome && order.productId.isSome && order.totalPrice.isSome &&
    order.items.all fun item =>
      item.productId.isSome && item.productName.isSome && item.unitPrice.isSome

/-- `order.setStatus(status)` -/
def Order.withStatus (order : Order) (status : OrderStatus) : Order :=
  { order with status := status }

lemma requiredText_idem {s : Option String} {text : String} (h : requiredText s = some text) :
    requiredText (some text) = some text := by
  obtain ⟨s, -, htext⟩ := Option.bind_eq_some_iff.mp h
  exact varchar_varchar htext

lemma requiredNumeric_idem {precision scale : ℕ} {x : Option BigDecimal} {y : BigDecimal}
    (h : requiredNumeric precision scale x = some y) :
    requiredNumeric precision scale (some y) = some y := by
  obtain ⟨z, -, hz⟩ := Option.bind_eq_some_iff.mp h
  exact BigDecimal.toNumeric_toNumeric hz

/-- The row has what the columns keep of the item. -/
lemma OrderItem.stored_eq_some {item row : OrderItem} (h : item.stored = some row) :
    ∃ productId productName unitPrice,
      requiredText item.productId = some productId ∧
      requiredText item.productName = some productName ∧
      requiredNumeric 10 2 item.unitPrice = some unitPrice ∧
      row = ⟨some productId, some productName, item.quantity, some unitPrice⟩ := by
  obtain ⟨productId, hproduct, h⟩ := Option.bind_eq_some_iff.mp h
  obtain ⟨productName, hname, h⟩ := Option.bind_eq_some_iff.mp h
  obtain ⟨unitPrice, hprice, h⟩ := Option.bind_eq_some_iff.mp h
  exact ⟨productId, productName, unitPrice, hproduct, hname, hprice, (Option.some.inj h).symm⟩

/-- The row has what the columns keep of the order. -/
lemma Order.stored_eq_some {order row : Order} (h : order.stored = some row) :
    ∃ userId productId totalPrice shippingAddress email items,
      requiredText order.userId = some userId ∧
      requiredText order.productId = some productId ∧
      requiredNumeric 12 2 order.totalPrice = some totalPrice ∧
      optionalText order.shippingAddress = some shippingAddress ∧
      optionalText order.email = some email ∧
      order.items.mapM OrderItem.stored = some items ∧
      row = ⟨order.id, some userId, some productId, order.quantity, some totalPrice,
        shippingAddress, email, order.status, items⟩ := by
  obtain ⟨userId, huser, h⟩ := Option.bind_eq_some_iff.mp h
  obtain ⟨productId, hproduct, h⟩ := Option.bind_eq_some_iff.mp h
  obtain ⟨totalPrice, hprice, h⟩ := Option.bind_eq_some_iff.mp h
  obtain ⟨shippingAddress, haddress, h⟩ := Option.bind_eq_some_iff.mp h
  obtain ⟨email, hemail, h⟩ := Option.bind_eq_some_iff.mp h
  obtain ⟨items, hitems, h⟩ := Option.bind_eq_some_iff.mp h
  exact ⟨userId, productId, totalPrice, shippingAddress, email, items, huser, hproduct, hprice,
    haddress, hemail, hitems, (Option.some.inj h).symm⟩

lemma OrderItem.stored_stored {item row : OrderItem} (h : item.stored = some row) :
    row.stored = some row := by
  obtain ⟨productId, productName, unitPrice, hproduct, hname, hprice, rfl⟩ := stored_eq_some h
  simp only [OrderItem.stored, requiredText_idem hproduct, requiredText_idem hname,
    requiredNumeric_idem hprice]
  rfl

lemma mapM_stored_idem {items rows : List OrderItem}
    (h : items.mapM OrderItem.stored = some rows) : rows.mapM OrderItem.stored = some rows := by
  induction items generalizing rows with
  | nil =>
    rw [List.mapM_nil] at h
    obtain rfl := Option.some.inj h
    rfl
  | cons item items ih =>
    rw [List.mapM_cons] at h
    obtain ⟨row, hrow, h⟩ := Option.bind_eq_some_iff.mp h
    obtain ⟨rest, hrest, h⟩ := Option.bind_eq_some_iff.mp h
    obtain rfl := Option.some.inj h
    rw [List.mapM_cons, OrderItem.stored_stored hrow, ih hrest]
    rfl

/-- A row is stored as it is, whatever status it is given. -/
lemma stored_withStatus {order row : Order} (h : order.stored = some row)
    (status : OrderStatus) : (row.withStatus status).stored = some (row.withStatus status) := by
  obtain ⟨userId, productId, totalPrice, shippingAddress, email, items, huser, hproduct, hprice,
    haddress, hemail, hitems, rfl⟩ := Order.stored_eq_some h
  simp only [Order.stored, Order.withStatus, requiredText_idem huser, requiredText_idem hproduct,
    requiredNumeric_idem hprice, optionalText, mapM_varchar_idem haddress,
    mapM_varchar_idem hemail, mapM_stored_idem hitems]
  rfl

/-- An order without a total price is not stored. -/
lemma Order.stored_of_totalPrice {order : Order} (h : order.totalPrice = none) :
    order.hasRequired = false ∧ order.stored = none := by
  constructor
  · simp [Order.hasRequired, h]
  · refine Option.eq_none_iff_forall_ne_some.mpr fun row hrow => ?_
    obtain ⟨-, -, totalPrice, -, -, -, -, -, hprice, -⟩ := Order.stored_eq_some hrow
    rw [h] at hprice
    cases hprice

/-- The row of an order without items has its quantity, and what its column keeps of its
product. -/
lemma Order.stored_of_items {order row : Order} (hitems : order.items = [])
    (h : order.stored = some row) :
    row.productId = requiredText order.productId ∧ row.quantity = order.quantity ∧
      row.items = [] := by
  obtain ⟨-, productId, -, -, -, items, -, hproduct, -, -, -, hrows, rfl⟩ :=
    Order.stored_eq_some h
  rw [hitems, List.mapM_nil] at hrows
  obtain rfl := Option.some.inj hrows
  exact ⟨hproduct.symm, rfl, rfl⟩

/-- What the columns keep of an order: its id and its status. -/
lemma Order.stored_eq {order row : Order} (h : order.stored = some row) :
    row.id = order.id ∧ row.status = order.status := by
  obtain ⟨-, -, -, -, -, -, -, -, -, -, -, -, rfl⟩ := Order.stored_eq_some h
  exact ⟨rfl, rfl⟩

end DevopsEcommerce.OrderService
