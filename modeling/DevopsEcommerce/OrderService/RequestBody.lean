import DevopsEcommerce.Json.RoundTrip
import DevopsEcommerce.OrderService.Service

/-!
# The body of `POST /api/orders`

How the body becomes a `CreateOrderRequest`, and what the controller method makes of it with no
other request around. Jackson, as the framework sets it up, goes through the members of an
object: one of a known name sets its property, any other is ignored, and a property without a
member stays null. What it makes of single values is a parameter.
-/

open Interleaving Numbers

namespace DevopsEcommerce.OrderService

/-- What Jackson makes of a value where the property is a `String`, an `int` or a `BigDecimal`;
`none` is an exception, which the framework answers with 400. -/
structure Jackson where
  string : Json → Option (Option String)
  int : Json → Option Int32
  bigDecimal : Json → Option (Option BigDecimal)

section
variable (jackson : Jackson)

def ItemRequest.setProperty (item : ItemRequest) (name : String) (v : Json) :
    Option ItemRequest :=
  if name = "productId" then (jackson.string v).map fun x => { item with productId := x }
  else if name = "productName" then (jackson.string v).map fun x => { item with productName := x }
  else if name = "quantity" then (jackson.int v).map fun x => { item with quantity := x }
  else if name = "unitPrice" then (jackson.bigDecimal v).map fun x => { item with unitPrice := x }
  else some item

/-- An element of the list of items. -/
def decodeItem : Json → Option (Option ItemRequest)
  | .null => some none
  | .object members =>
    (members.foldlM (fun item m => ItemRequest.setProperty jackson item m.1 m.2)
      ⟨none, none, 0, none⟩).map some
  | _ => none

def decodeItems : Json → Option (Option (List (Option ItemRequest)))
  | .null => some none
  | .array vs => (vs.mapM (decodeItem jackson)).map some
  | _ => none

def CreateOrderRequest.setProperty (request : CreateOrderRequest) (name : String) (v : Json) :
    Option CreateOrderRequest :=
  if name = "userId" then (jackson.string v).map fun x => { request with userId := x }
  else if name = "email" then (jackson.string v).map fun x => { request with email := x }
  else if name = "shippingAddress" then
    (jackson.string v).map fun x => { request with shippingAddress := x }
  else if name = "items" then (decodeItems jackson v).map fun x => { request with items := x }
  else if name = "totalPrice" then
    (jackson.bigDecimal v).map fun x => { request with totalPrice := x }
  else some request

/-- `none` is the framework's 400. -/
def decodeRequest : Json → Option CreateOrderRequest
  | .object members =>
    members.foldlM (fun request m => CreateOrderRequest.setProperty jackson request m.1 m.2)
      ⟨none, none, none, none, none⟩
  | _ => none

/-- `POST /api/orders` with this body, on a database with these rows and no other request in
between. The `n`-th command of the request fares as `choose n` says. -/
def postOrder (platform : Platform) (choose : ℕ → Fault) (rows : List Order) (body : Json)
    (uuid : String) : Option (OrderStore × Response) :=
  match decodeRequest jackson body with
  | none => some (OrderStore.initial rows, ⟨400, none⟩)
  | some request =>
    (createOrder platform request uuid).perform execOrder 0 (fun n _ => choose n) 0
      (OrderStore.initial rows)

end

/-! ## Members that are missing -/

section
variable {jackson : Jackson}

/-- What no member touches is at the end what it was at the beginning. -/
lemma foldlM_keeps {α β : Type} {f : α → β} {set : α → String × Json → Option α}
    {members : List (String × Json)}
    (h : ∀ m ∈ members, ∀ a a', set a m = some a' → f a' = f a) {a a' : α}
    (hfold : members.foldlM set a = some a') : f a' = f a := by
  induction members generalizing a with
  | nil =>
    rw [List.foldlM_nil] at hfold
    exact congrArg f (Option.some.inj hfold).symm
  | cons m members ih =>
    rw [List.foldlM_cons] at hfold
    obtain ⟨a₁, ha₁, hrest⟩ := Option.bind_eq_some_iff.mp hfold
    have htail := ih (fun m' hm' => h m' (List.mem_cons_of_mem _ hm')) hrest
    exact htail.trans (h m List.mem_cons_self a a₁ ha₁)

lemma setProperty_totalPrice {request request' : CreateOrderRequest} {name : String} {v : Json}
    (hname : name ≠ "totalPrice")
    (h : CreateOrderRequest.setProperty jackson request name v = some request') :
    request'.totalPrice = request.totalPrice := by
  unfold CreateOrderRequest.setProperty at h
  split_ifs at h
  all_goals first
    | exact congrArg _ (Option.some.inj h).symm
    | obtain ⟨x, -, rfl⟩ := Option.map_eq_some_iff.mp h
      rfl

lemma setProperty_items {request request' : CreateOrderRequest} {name : String} {v : Json}
    (hname : name ≠ "items")
    (h : CreateOrderRequest.setProperty jackson request name v = some request') :
    request'.items = request.items := by
  unfold CreateOrderRequest.setProperty at h
  split_ifs at h
  all_goals first
    | exact congrArg _ (Option.some.inj h).symm
    | obtain ⟨x, -, rfl⟩ := Option.map_eq_some_iff.mp h
      rfl

/-- A body without a `totalPrice` leaves it null. -/
lemma totalPrice_of_decode {members : List (String × Json)} {request : CreateOrderRequest}
    (hmissing : ∀ m ∈ members, m.1 ≠ "totalPrice")
    (h : decodeRequest jackson (.object members) = some request) : request.totalPrice = none :=
  foldlM_keeps (fun m hm _ _ hset => setProperty_totalPrice (hmissing m hm) hset) h

/-- A body without `items` leaves them null. -/
lemma items_of_decode {members : List (String × Json)} {request : CreateOrderRequest}
    (hmissing : ∀ m ∈ members, m.1 ≠ "items")
    (h : decodeRequest jackson (.object members) = some request) : request.items = none :=
  foldlM_keeps (fun m hm _ _ hset => setProperty_items (hmissing m hm) hset) h

/-! ## What a 201 has stored -/

variable {platform : Platform} {choose : ℕ → Fault} {store store' : OrderStore}
  {answer answer' : Response}

/-- A commit that is acknowledged has made the row of its transaction the committed one. -/
lemma committed_of_perform {n : ℕ} {row : Order} (hopen : store.uncommitted = [(0, row)])
    (h : (commitThen answer').perform execOrder 0 (fun n _ => choose n) n store =
      some (store', answer)) (hok : answer.status = 201) :
    findRow store'.rows row.id = some row ∧ answer = answer' := by
  simp only [commitThen, Program.perform, execOrder, Option.bind_some] at h
  by_cases hfault : choose n = .none
  · simp only [hfault, if_true, reduceCtorEq, if_false, Program.perform] at h
    obtain ⟨rfl, rfl⟩ := Prod.mk.inj (Option.some.inj h)
    refine ⟨?_, rfl⟩
    simp only [commitRow, hopen, List.lookup_cons, beq_self_eq_true]
    rw [findRow_putRow, if_pos rfl]
  · simp only [hfault, if_false, Program.perform] at h
    obtain ⟨-, rfl⟩ := Prod.mk.inj (Option.some.inj h)
    exact absurd hok (by decide)

/-- An INSERT that is flushed and committed has stored its row. -/
lemma inserted_of_perform {n : ℕ} {order : Order} (hopen : store.uncommitted = [])
    (h : (flushThen (some (.insert order)) answer').perform execOrder 0 (fun n _ => choose n) n
      store = some (store', answer)) (hok : answer.status = 201) :
    ∃ row, order.stored = some row ∧ findRow store'.rows order.id = some row ∧
      answer = answer' := by
  simp only [flushThen, Program.perform] at h
  obtain ⟨⟨s₁, flushed⟩, hexec, h⟩ := Option.bind_eq_some_iff.mp h
  have hrefused : ∀ e : ExternalError, flushed = .error e → False := by
    rintro e rfl
    obtain ⟨-, rfl⟩ := Prod.mk.inj (Option.some.inj h)
    exact absurd hok (by decide)
  simp only [execOrder] at hexec
  split_ifs at hexec with hfault hlocked
  · exact (hrefused _ (Prod.mk.inj (Option.some.inj hexec)).2.symm).elim
  · split at hexec
    · exact (hrefused _ (Prod.mk.inj (Option.some.inj hexec)).2.symm).elim
    · rename_i row hrow
      obtain ⟨rfl, rfl⟩ := Prod.mk.inj (Option.some.inj hexec)
      have hstored := Write.row_stored hrow
      have hid := (Order.stored_eq hstored).1
      refine ⟨row, hstored, ?_⟩
      show findRow store'.rows (Write.insert order).order.id = some row ∧ _
      rw [← hid]
      exact committed_of_perform (by simp [hopen]) h hok

/-- If `createOrder` is answered with 201 the order has been stored, and is the answer. -/
lemma stored_of_createOrder {request : CreateOrderRequest} {rows : List Order} {uuid : String}
    (h : (createOrder platform request uuid).perform execOrder 0 (fun n _ => choose n) 0
      (OrderStore.initial rows) = some (store, answer)) (hok : answer.status = 201) :
    ∃ order row, newOrder request uuid = some order ∧ order.stored = some row ∧
      findRow store.rows uuid = some row ∧ answer = ⟨201, some order⟩ := by
  unfold createOrder at h
  split at h
  · obtain ⟨-, rfl⟩ := Prod.mk.inj (Option.some.inj h)
    exact absurd hok (by decide)
  · rename_i order horder
    split at h
    · obtain ⟨-, rfl⟩ := Prod.mk.inj (Option.some.inj h)
      exact absurd hok (by decide)
    · simp only [publishOrderEvent, Program.perform] at h
      obtain ⟨⟨s₁, sent⟩, hexec, h⟩ := Option.bind_eq_some_iff.mp h
      have hopen : s₁.uncommitted = [] := by
        simp only [execOrder] at hexec
        obtain ⟨rfl, -⟩ := Prod.mk.inj (Option.some.inj hexec)
        split <;> rfl
      obtain ⟨row, hrow, hfound, hanswer⟩ := inserted_of_perform hopen h hok
      rw [(newOrder_eq horder).1] at hfound
      exact ⟨order, row, horder, hrow, hfound, hanswer⟩

/-- If the request is answered with 201 the order it describes has been stored. -/
theorem stored_of_created {jackson : Jackson} {rows : List Order} {body : Json} {uuid : String}
    (h : postOrder jackson platform choose rows body uuid = some (store, answer))
    (hok : answer.status = 201) :
    ∃ request order row, decodeRequest jackson body = some request ∧
      newOrder request uuid = some order ∧ order.stored = some row ∧
      findRow store.rows uuid = some row := by
  unfold postOrder at h
  split at h
  · obtain ⟨-, rfl⟩ := Prod.mk.inj (Option.some.inj h)
    exact absurd hok (by decide)
  · rename_i request hrequest
    obtain ⟨order, row, horder, hrow, hfound, -⟩ := stored_of_createOrder h hok
    exact ⟨request, order, row, hrequest, horder, hrow, hfound⟩

end

/-! ## A reader of plain values -/

/-- Decimal digits with at most one point. -/
def plainDecimal (text : List Char) : Option BigDecimal :=
  let whole := text.takeWhile Char.isDigit
  let fraction := (text.dropWhile Char.isDigit).tail
  if (whole ++ fraction).all Char.isDigit && !whole.isEmpty then
    some ⟨Nat.ofDigitChars 10 (whole ++ fraction) 0, fraction.length⟩
  else none

/-- Strings, and numbers of digits and a point, also as strings. -/
def plainJackson : Jackson where
  string
    | .string s => some (some s)
    | .null => some none
    | _ => none
  int
    | .number n => (plainDecimal n.chars).bind fun x =>
      if x.scale = 0 ∧ x.unscaled < 2 ^ 31 then some (Int32.ofInt x.unscaled) else none
    | .null => some 0
    | _ => none
  bigDecimal
    | .number n => (plainDecimal n.chars).map some
    | .string s => (plainDecimal s.toList).map some
    | .null => some none
    | _ => none

end DevopsEcommerce.OrderService
