import Mathlib.Algebra.BigOperators.Group.List.Basic
import DevopsEcommerce.OrderService.RequestBody

/-!
# What `createOrder` stores

`createOrder` builds an `Order` object and gives it its items one by one; `newOrder` is what it
comes to (`saved_buildOrder`). The order repeats data of its items, their first product and the
sum of their quantities. The sum is one of `int`s; the columns round the unit prices to two
fractional digits and cut the spaces at the end of a text of more than 255 characters. So the order
agrees with the request under these conditions only (`createOrder_stores_iff`).
-/

open Interleaving Numbers Postgres

namespace DevopsEcommerce.OrderService

/-! ## Objects -/

/-- An `OrderItem` object, with the address of the order that it points back to. -/
structure ItemObject where
  item : OrderItem
  order : Option ℕ
deriving DecidableEq

/-- An `Order` object at an address. The list of items of `fields` is not used. -/
structure OrderObject where
  address : ℕ
  fields : Order
  items : List ItemObject
deriving DecidableEq

/-- `items.add(item); item.setOrder(this);` -/
def OrderObject.addItem (order : OrderObject) (item : ItemObject) : OrderObject :=
  { order with items := order.items ++ [{ item with order := some order.address }] }

/-- `OrderItem.builder()` leaves the order null. -/
def buildItem (itemReq : ItemRequest) : ItemObject where
  item := newItem itemReq
  order := none

/-- The object that `createOrder` saves. A null element in the list of items is a
`NullPointerException`; the id is null until then. -/
def buildOrder (request : CreateOrderRequest) (address : ℕ) : Option OrderObject :=
  ((request.items.getD []).mapM id).map fun items =>
    let order : OrderObject :=
      { address := address
        fields :=
          { id := ""
            userId := request.userId
            productId :=
              match items with
              | item :: _ => item.productId
              | [] => some "N/A"
            quantity := (items.map ItemRequest.quantity).sum
            totalPrice := request.totalPrice
            shippingAddress := request.shippingAddress
            email := request.email
            status := .pending
            items := [] }
        items := [] }
    items.foldl (fun order itemReq => order.addItem (buildItem itemReq)) order

/-- The entity after `save`, which gives it its id. -/
def OrderObject.saved (object : OrderObject) (uuid : String) : Order :=
  { object.fields with id := uuid, items := object.items.map ItemObject.item }

/-- Every item points back to the order. -/
def OrderObject.PointsBack (object : OrderObject) : Prop :=
  ∀ item ∈ object.items, item.order = some object.address

/-- The loop adds an item for each request, in order, and they all point back. -/
lemma foldl_addItem (items : List ItemRequest) (order : OrderObject) :
    items.foldl (fun order itemReq => order.addItem (buildItem itemReq)) order =
      { order with
        items := order.items ++
          items.map fun itemReq => ⟨newItem itemReq, some order.address⟩ } := by
  induction items generalizing order with
  | nil => simp
  | cons itemReq items ih =>
    rw [List.foldl_cons, ih]
    simp [OrderObject.addItem, buildItem]

/-- `newOrder` is the saved object. -/
theorem saved_buildOrder (request : CreateOrderRequest) (uuid : String) (address : ℕ) :
    (buildOrder request address).map (fun object => object.saved uuid) =
      newOrder request uuid := by
  unfold buildOrder newOrder
  rw [Option.map_map]
  congr 1
  funext items
  simp only [Function.comp, foldl_addItem, OrderObject.saved, List.nil_append, List.map_map]
  rfl

theorem pointsBack_buildOrder {request : CreateOrderRequest} {address : ℕ}
    {object : OrderObject} (h : buildOrder request address = some object) :
    object.PointsBack := by
  obtain ⟨items, -, rfl⟩ := Option.map_eq_some_iff.mp h
  intro item hitem
  rw [foldl_addItem] at hitem ⊢
  obtain ⟨itemReq, -, rfl⟩ := List.mem_map.mp hitem
  rfl

/-! ## The sum of an `IntStream` -/

lemma toInt_sum (xs : List Int32) :
    xs.sum.toInt = (xs.map Int32.toInt).sum.bmod (2 ^ 32) := by
  induction xs with
  | nil => rfl
  | cons x xs ih =>
    rw [List.sum_cons, List.map_cons, List.sum_cons, Int32.toInt_add, ih, Int.add_bmod_bmod]

/-- The sum is the sum of the integers if and only if this is an `int`. -/
lemma toInt_sum_iff (xs : List Int32) :
    xs.sum.toInt = (xs.map Int32.toInt).sum ↔
      -2 ^ 31 ≤ (xs.map Int32.toInt).sum ∧ (xs.map Int32.toInt).sum < 2 ^ 31 := by
  constructor
  · intro h
    rw [← h]
    exact ⟨Int32.le_toInt _, Int32.toInt_lt _⟩
  · rintro ⟨hlow, hhigh⟩
    rw [toInt_sum]
    apply Int.bmod_eq_of_le <;> omega

/-! ## Orders as requested -/

/-- The item is the requested one, with a price that agrees as `price` says. -/
structure ItemAsRequested (price : Option BigDecimal → Option BigDecimal → Prop)
    (item : OrderItem) (itemReq : ItemRequest) : Prop where
  productId : item.productId = itemReq.productId
  productName : item.productName = itemReq.productName
  quantity : item.quantity = itemReq.quantity
  unitPrice : price item.unitPrice itemReq.unitPrice

/-- The order has the requested items one for one, its product is the first one's, and its
quantity is the exact sum of theirs. -/
structure AsRequested (price : Option BigDecimal → Option BigDecimal → Prop)
    (requested : List ItemRequest) (order : Order) : Prop where
  items : List.Forall₂ (ItemAsRequested price) order.items requested
  productId : order.productId = requested.head?.elim (some "N/A") ItemRequest.productId
  quantity : order.quantity.toInt = (requested.map fun item => item.quantity.toInt).sum

/-- The same price, in whatever scale. -/
def SameValue (x y : Option BigDecimal) : Prop := x.map BigDecimal.value = y.map BigDecimal.value

/-- The sum of the requested quantities is an `int`. -/
def SumFits (requested : List ItemRequest) : Prop :=
  -2 ^ 31 ≤ (requested.map fun item => item.quantity.toInt).sum ∧
    (requested.map fun item => item.quantity.toInt).sum < 2 ^ 31

/-- The text is not longer than its column. -/
def FitsText (s : Option String) : Prop := ∀ text, s = some text → text.toList.length ≤ 255

/-- No text is longer than its column, and the price has at most two fractional digits. -/
structure FitsColumns (itemReq : ItemRequest) : Prop where
  productId : FitsText itemReq.productId
  productName : FitsText itemReq.productName
  unitPrice : ∀ price, itemReq.unitPrice = some price → price.FitsScale 2

/-! ### The entity -/

section
variable {α β : Type} {f : α → Option β}

lemma mapM_eq_some_iff {xs : List α} {ys : List β} :
    xs.mapM f = some ys ↔ List.Forall₂ (fun x y => f x = some y) xs ys := by
  induction xs generalizing ys with
  | nil =>
    rw [List.mapM_nil, List.forall₂_nil_left_iff]
    exact ⟨fun h => (Option.some.inj h).symm, fun h => congrArg some h.symm⟩
  | cons x xs ih =>
    rw [List.mapM_cons, List.forall₂_cons_left_iff]
    constructor
    · intro h
      obtain ⟨y, hy, h⟩ := Option.bind_eq_some_iff.mp h
      obtain ⟨rest, hrest, h⟩ := Option.bind_eq_some_iff.mp h
      exact ⟨y, rest, hy, ih.mp hrest, (Option.some.inj h).symm⟩
    · rintro ⟨y, rest, hy, hrest, rfl⟩
      rw [hy, ih.mpr hrest]
      rfl

/-- Two lists that are related one for one agree in a property of the pairs if it is one of the
elements of the first list. -/
lemma forall₂_iff_of_forall₂ {R : α → β → Prop} {P : β → α → Prop} {C : α → Prop} {xs : List α}
    {ys : List β} (h : List.Forall₂ R xs ys) (hiff : ∀ x y, R x y → (P y x ↔ C x)) :
    List.Forall₂ P ys xs ↔ ∀ x ∈ xs, C x := by
  induction h with
  | nil => exact iff_of_true .nil (fun x hx => absurd hx List.not_mem_nil)
  | cons hxy _ ih => rw [List.forall₂_cons, List.forall_mem_cons, hiff _ _ hxy, ih]

end

/-- A list of items without a null in it. -/
lemma newOrder_of_list {request : CreateOrderRequest} {uuid : String} {order : Order}
    {items : List (Option ItemRequest)} (hitems : request.items = some items)
    (h : newOrder request uuid = some order) :
    ∃ requested : List ItemRequest, items = requested.map some ∧
      order.items = requested.map newItem ∧
      order.productId = requested.head?.elim (some "N/A") ItemRequest.productId ∧
      order.quantity = (requested.map ItemRequest.quantity).sum := by
  obtain ⟨requested, hlist, rfl⟩ := Option.map_eq_some_iff.mp h
  rw [hitems, Option.getD_some] at hlist
  refine ⟨requested, ?_, rfl, ?_, rfl⟩
  · have hnonnull := mapM_eq_some_iff.mp hlist
    rw [← List.forall₂_eq_eq_eq, List.forall₂_map_right_iff]
    exact hnonnull
  · cases requested <;> rfl

lemma quantity_eq_iff {requested : List ItemRequest} {quantity : Int32}
    (h : quantity = (requested.map ItemRequest.quantity).sum) :
    quantity.toInt = (requested.map fun item => item.quantity.toInt).sum ↔ SumFits requested := by
  have hmap : (requested.map ItemRequest.quantity).map Int32.toInt =
      requested.map fun item => item.quantity.toInt := List.map_map
  have hsum := toInt_sum_iff (requested.map ItemRequest.quantity)
  rw [hmap] at hsum
  rw [h]
  exact hsum

/-- The items of a new order are the requested ones. -/
lemma items_asRequested (requested : List ItemRequest) :
    List.Forall₂ (ItemAsRequested Eq) (requested.map newItem) requested := by
  rw [List.forall₂_map_left_iff, List.forall₂_same]
  exact fun itemReq _ => ⟨rfl, rfl, rfl, rfl⟩

/-! ### The rows -/

lemma requiredText_eq_iff {s : Option String} {text : String} (h : requiredText s = some text) :
    some text = s ↔ FitsText s := by
  obtain ⟨given, rfl, hstored⟩ := Option.bind_eq_some_iff.mp h
  have hkept := varchar_eq_self_iff hstored
  constructor
  · intro heq given' hgiven
    obtain rfl := Option.some.inj hgiven
    exact hkept.mp (Option.some.inj heq)
  · intro hfits
    rw [hkept.mpr (hfits given rfl)]

lemma requiredNumeric_sameValue_iff {x : Option BigDecimal} {y : BigDecimal}
    (h : requiredNumeric 10 2 x = some y) :
    SameValue (some y) x ↔ ∀ price, x = some price → price.FitsScale 2 := by
  obtain ⟨price, rfl, hnumeric⟩ := Option.bind_eq_some_iff.mp h
  unfold SameValue
  rw [Option.map_some, Option.map_some, Option.some.injEq, BigDecimal.value_toNumeric_iff hnumeric]
  constructor
  · intro hcents price' hprice'
    obtain rfl := Option.some.inj hprice'
    exact hcents
  · intro hcents
    exact hcents price rfl

/-- The row of an item agrees with what is requested if the columns keep it as it is. -/
lemma item_asRequested_iff {itemReq : ItemRequest} {row : OrderItem}
    (h : (newItem itemReq).stored = some row) :
    ItemAsRequested SameValue row itemReq ↔ FitsColumns itemReq := by
  obtain ⟨productId, productName, unitPrice, hproduct, hname, hprice, rfl⟩ :=
    OrderItem.stored_eq_some h
  have hproduct := requiredText_eq_iff hproduct
  have hname := requiredText_eq_iff hname
  have hprice := requiredNumeric_sameValue_iff hprice
  constructor
  · intro hitem
    exact ⟨hproduct.mp hitem.productId, hname.mp hitem.productName, hprice.mp hitem.unitPrice⟩
  · intro hfits
    exact ⟨hproduct.mpr hfits.productId, hname.mpr hfits.productName, rfl,
      hprice.mpr hfits.unitPrice⟩

/-- The row of an order has its quantity, what its column keeps of its product, and the rows of
its items. -/
lemma Order.stored_items {order row : Order} (h : order.stored = some row) :
    (FitsText order.productId → row.productId = order.productId) ∧
      row.quantity = order.quantity ∧
      List.Forall₂ (fun item row => item.stored = some row) order.items row.items := by
  obtain ⟨-, productId, -, -, -, items, -, hproduct, -, -, -, hitems, rfl⟩ :=
    Order.stored_eq_some h
  exact ⟨(requiredText_eq_iff hproduct).mpr, rfl, mapM_eq_some_iff.mp hitems⟩

/-- The product of an order is one of its items', or no more than three characters. -/
lemma fitsText_head {requested : List ItemRequest}
    (hfits : ∀ itemReq ∈ requested, FitsColumns itemReq) :
    FitsText (requested.head?.elim (some "N/A") ItemRequest.productId) := by
  cases requested with
  | nil =>
    intro text htext
    obtain rfl := Option.some.inj htext
    decide
  | cons itemReq requested => exact (hfits itemReq List.mem_cons_self).productId

/-- **What is stored.** If `createOrder` succeeds for a list of items, then the items of the saved
object point back to it, and the saved order agrees with the request if and only if the sum of the
quantities is an `int`. The rows do so if moreover no product and no name of one has more than 255
characters, and no unit price more than two fractional digits. -/
theorem createOrder_stores_iff {platform : Platform} {choose : ℕ → Fault} {rows : List Order}
    {request : CreateOrderRequest} {uuid : String} {items : List (Option ItemRequest)}
    {store : OrderStore} {answer : Response} (address : ℕ) (hitems : request.items = some items)
    (h : (createOrder platform request uuid).perform execOrder 0 (fun n _ => choose n) 0
      (OrderStore.initial rows) = some (store, answer)) (hok : answer.status = 201) :
    ∃ (requested : List ItemRequest) (object : OrderObject) (order row : Order),
      items = requested.map some ∧
      buildOrder request address = some object ∧ object.PointsBack ∧
      object.saved uuid = order ∧ answer.order = some order ∧
      findRow store.rows uuid = some row ∧
      (AsRequested Eq requested order ↔ SumFits requested) ∧
      (AsRequested SameValue requested row ↔
        SumFits requested ∧ ∀ itemReq ∈ requested, FitsColumns itemReq) := by
  obtain ⟨order, row, horder, hrow, hfound, rfl⟩ := stored_of_createOrder h hok
  obtain ⟨requested, hlist, hnew, hproduct, hquantity⟩ := newOrder_of_list hitems horder
  obtain ⟨object, hobject, hsaved⟩ :=
    Option.map_eq_some_iff.mp ((saved_buildOrder request uuid address).trans horder)
  obtain ⟨hrowProduct, hrowQuantity, hrowItems⟩ := Order.stored_items hrow
  have hsum := quantity_eq_iff hquantity
  refine ⟨requested, object, order, row, hlist, hobject, pointsBack_buildOrder hobject, hsaved,
    rfl, hfound, ?_, ?_⟩
  · constructor
    · intro hrequested
      exact hsum.mp hrequested.quantity
    · intro hfits
      exact ⟨hnew ▸ items_asRequested requested, hproduct, hsum.mpr hfits⟩
  · -- the rows are what the columns keep of the items, one by one
    rw [hnew, List.forall₂_map_left_iff] at hrowItems
    have hkept := forall₂_iff_of_forall₂ hrowItems
      (P := ItemAsRequested SameValue) (C := FitsColumns) fun _ _ => item_asRequested_iff
    rw [← hrowQuantity] at hsum
    constructor
    · intro hrequested
      exact ⟨hsum.mp hrequested.quantity, hkept.mp hrequested.items⟩
    · rintro ⟨hfits, hcolumns⟩
      have hfirst : row.productId = order.productId :=
        hrowProduct (hproduct ▸ fitsText_head hcolumns)
      exact ⟨hkept.mpr hcolumns, hfirst.trans hproduct, hsum.mpr hfits⟩

/-! ## Two pens and too many -/

def pen (quantity : Int32) : ItemRequest := ⟨some "p1", some "Pen", quantity, some ⟨250, 2⟩⟩

/-- A request for pens in these quantities. -/
def penRequest (quantities : List Int32) : CreateOrderRequest :=
  { sampleRequest ⟨500, 2⟩ with items := some ((quantities.map pen).map some) }

/-- `createOrder` for a request, where nothing fails. -/
def createAlone (request : CreateOrderRequest) : Option (OrderStore × Response) :=
  (createOrder ⟨true, id⟩ request "o1").perform execOrder 0 (fun _ _ => .none) 0
    (OrderStore.initial [])

lemma isSome_createTwo : (createAlone (penRequest [1, 1])).isSome = true := by decide +kernel

theorem createOrder_stores_iff_two :
    ∃ order, ((createAlone (penRequest [1, 1])).get isSome_createTwo).2.order = some order ∧
      AsRequested Eq [pen 1, pen 1] order := by
  obtain ⟨requested, object, order, row, hlist, -, -, -, horder, -, hiff, -⟩ :=
    createOrder_stores_iff 0 rfl (Option.some_get isSome_createTwo).symm (by decide +kernel)
  obtain rfl : [pen 1, pen 1] = requested :=
    List.map_injective_iff.mpr (Option.some_injective _) hlist
  exact ⟨order, horder, hiff.mpr ⟨by decide, by decide⟩⟩

lemma isSome_createTooMany : (createAlone (penRequest [2147483647, 1])).isSome = true := by
  decide +kernel

/-- **A negative quantity.** An order of more units than an `int` holds is created, and its
quantity is the least `int`. -/
theorem createOrder_overflows :
    ¬ ∀ (platform : Platform) (choose : ℕ → Fault) (rows : List Order)
      (request : CreateOrderRequest) (uuid : String) (requested : List ItemRequest)
      (store : OrderStore) (answer : Response) (order : Order),
      request.items = some (requested.map some) →
      (createOrder platform request uuid).perform execOrder 0 (fun n _ => choose n) 0
        (OrderStore.initial rows) = some (store, answer) →
      answer.status = 201 → answer.order = some order → AsRequested Eq requested order := by
  intro h
  have hcreated : ∃ order,
      ((createAlone (penRequest [2147483647, 1])).get isSome_createTooMany).2.order = some order ∧
        order.quantity = -2147483648 := by decide +kernel
  obtain ⟨order, horder, hquantity⟩ := hcreated
  have hrequested := h ⟨true, id⟩ (fun _ => .none) [] (penRequest [2147483647, 1]) "o1"
    [pen 2147483647, pen 1] _ _ order rfl (Option.some_get isSome_createTooMany).symm
    (by decide +kernel) horder
  have hsum := hrequested.quantity
  rw [hquantity] at hsum
  exact absurd hsum (by decide)

end DevopsEcommerce.OrderService
