import DevopsEcommerce.Interleaving.Program
import DevopsEcommerce.OrderService.Order
import DevopsEcommerce.OrderService.RabbitMQConfig

/-!
# The order service over its database and its broker

`createOrder`, `cancelOrder` and `updateOrderStatus` with the controller methods in front
of them, as programs. A `@Transactional` method reads and publishes in its body; the SQL
of `save` is sent by the flush after the body, followed by the commit. Whatever throws
before the commit rolls the transaction back.

The database runs at READ COMMITTED: `findById` sees committed rows, an UPDATE or INSERT
locks its row until the transaction ends and waits while another transaction has it
locked, and it writes over whatever is committed by then.
-/

open Interleaving Numbers

namespace DevopsEcommerce.OrderService

/-- The map that `publishOrderEvent` sends; an empty list of items stands for the absent
key. -/
structure OrderEvent where
  orderId : String
  userId : Option String
  email : Option String
  totalPrice : Option BigDecimal
  status : String
  items : List OrderItem
deriving DecidableEq

def orderEvent (order : Order) : OrderEvent where
  orderId := order.id
  userId := order.userId
  email := order.email
  totalPrice := order.totalPrice
  status := order.status.name
  items := order.items

/-- The statement a flush sends for an order. -/
inductive Write where
  | insert (order : Order)
  | update (order : Order)
deriving DecidableEq

def Write.order : Write → Order
  | .insert order => order
  | .update order => order

inductive OrderCommand where
  | findById (id : String)
  | convertAndSend (routingKey : String) (event : OrderEvent)
  | flush (write : Write)
  | commit
deriving DecidableEq

/-- A database or broker exception. -/
inductive ExternalError where
  | failed
deriving DecidableEq

abbrev OrderReply : OrderCommand → Type
  | .findById _ => Except ExternalError (Option Order)
  | .convertAndSend _ _ => Except ExternalError Unit
  | .flush _ => Except ExternalError Unit
  | .commit => Except ExternalError Unit

/-- Status code and order of an answer; error bodies are the framework's. -/
structure Response where
  status : ℕ
  order : Option Order
deriving DecidableEq

abbrev OrderProgram := Program OrderCommand OrderReply Response

/-! ## The service -/

/-- The commit at the end of a transactional method that has been flushed. -/
def commitThen (answer : Response) : OrderProgram :=
  .call .commit fun
    | .ok () => .done answer
    | .error _ => .done ⟨500, none⟩

/-- The flush and the commit at the end of a transactional method. -/
def flushThen (write : Option Write) (answer : Response) : OrderProgram :=
  match write with
  | none => commitThen answer
  | some write =>
    .call (.flush write) fun
      | .ok () => commitThen answer
      | .error _ => .done ⟨500, none⟩

/-- `publishOrderEvent`: an exception of the broker is caught and logged. -/
def publishOrderEvent (order : Order) (routingKey : String) (rest : OrderProgram) :
    OrderProgram :=
  .call (.convertAndSend routingKey (orderEvent order)) fun _ => rest

/-- What the service depends on outside its code: whether Hibernate checks not-null
properties in `save`, and `String.toUpperCase` under the default locale. -/
structure Platform where
  checkNullability : Bool
  toUpperCase : String → String

def createOrder (platform : Platform) (request : CreateOrderRequest) (uuid : String) :
    OrderProgram :=
  match newOrder request uuid with
  | none => .done ⟨500, none⟩
  | some order =>
    if platform.checkNullability && !order.hasRequired then .done ⟨500, none⟩
    else
      publishOrderEvent order routingKeyCreated
        (flushThen (some (.insert order)) ⟨201, some order⟩)

/-- The body of `cancelOrder` after `findById`. The exception for an order that is not
`PENDING` becomes a 409. -/
def cancelFound : Except ExternalError (Option Order) → OrderProgram
  | .error _ => .done ⟨500, none⟩
  | .ok none => .done ⟨404, none⟩
  | .ok (some order) =>
    if order.status ≠ .pending then .done ⟨409, none⟩
    else
      let saved := order.withStatus .cancelled
      publishOrderEvent saved routingKeyCancelled
        (flushThen (some (.update saved)) ⟨200, some saved⟩)

def cancelOrder (id : String) : OrderProgram := .call (.findById id) cancelFound

def resolveRoutingKey : OrderStatus → Option String
  | .shipped => some routingKeyShipped
  | .cancelled => some routingKeyCancelled
  | _ => none

/-- Dirty checking: an order whose status did not change is not written. -/
def statusUpdate (order : Order) (status : OrderStatus) : Option Write :=
  if order.status = status then none else some (.update (order.withStatus status))

/-- The body of `updateOrderStatus` after `findById`. -/
def updateFound (status : OrderStatus) : Except ExternalError (Option Order) → OrderProgram
  | .error _ => .done ⟨500, none⟩
  | .ok none => .done ⟨404, none⟩
  | .ok (some order) =>
    let saved := order.withStatus status
    let rest := flushThen (statusUpdate order status) ⟨200, some saved⟩
    match resolveRoutingKey status with
    | some routingKey => publishOrderEvent saved routingKey rest
    | none => rest

/-- `Character.isWhitespace` -/
def isJavaWhitespace (c : Char) : Bool :=
  c.val ∈ [0x20, 0x1680, 0x205F, 0x3000, 0x2028, 0x2029] || (0x9 ≤ c.val && c.val ≤ 0xD) ||
    (0x1C ≤ c.val && c.val ≤ 0x1F) || (0x2000 ≤ c.val && c.val ≤ 0x200A && c.val ≠ 0x2007)

/-- The controller's reading of `body.get("status")`; `none` is a 400. -/
def parseStatus (platform : Platform) (statusValue : Option String) : Option OrderStatus :=
  statusValue.bind fun value =>
    if value.toList.all isJavaWhitespace then none
    else OrderStatus.valueOf (platform.toUpperCase value)

def updateOrderStatus (platform : Platform) (id : String) (statusValue : Option String) :
    OrderProgram :=
  match parseStatus platform statusValue with
  | none => .done ⟨400, none⟩
  | some status => .call (.findById id) (updateFound status)

/-- A writing request, with the UUID a new order is going to get. -/
inductive OrderRequest where
  | create (request : CreateOrderRequest) (uuid : String)
  | cancel (id : String)
  | updateStatus (id : String) (statusValue : Option String)
deriving DecidableEq

/-- The routes of `OrderController` that write. -/
def serve (platform : Platform) : OrderRequest → OrderProgram
  | .create request uuid => createOrder platform request uuid
  | .cancel id => cancelOrder id
  | .updateStatus id statusValue => updateOrderStatus platform id statusValue

/-! ## Database and broker -/

/-- A message that `order.exchange` has received, with the transaction that sent it. -/
structure Message where
  transaction : ℕ
  routingKey : String
  event : OrderEvent
deriving DecidableEq

/-- The committed rows, the row versions written by transactions that are still open (each
holds the lock of its row), the transactions that have committed, and the messages that
the broker has received, latest first. -/
structure OrderStore where
  rows : List Order
  uncommitted : List (ℕ × Order)
  committed : List ℕ
  messages : List Message
deriving DecidableEq

/-- The row with an id. -/
def findRow (rows : List Order) (id : String) : Option Order := rows.find? fun row => row.id = id

/-- Write a row over the one with its id, or append it. -/
def putRow (row : Order) : List Order → List Order
  | [] => [row]
  | r :: rows => if r.id = row.id then row :: rows else r :: putRow row rows

/-- The row version that a statement writes, unless a constraint or a column refuses it. -/
def Write.row (rows : List Order) : Write → Option Order
  | .insert order => if (findRow rows order.id).isSome then none else order.stored
  | .update order => if (findRow rows order.id).isSome then order.stored else none

/-- Another transaction has the row locked. -/
def locked (store : OrderStore) (i : ℕ) (id : String) : Bool :=
  store.uncommitted.any fun u => u.1 ≠ i && u.2.id = id

/-- The transaction ends; its row version becomes the committed one. -/
def commitRow (store : OrderStore) (i : ℕ) : OrderStore where
  rows :=
    match store.uncommitted.lookup i with
    | some row => putRow row store.rows
    | none => store.rows
  uncommitted := store.uncommitted.filter fun u => u.1 ≠ i
  committed := i :: store.committed
  messages := store.messages

/-- The transaction ends and its row version is dropped. -/
def rollback (store : OrderStore) (i : ℕ) : OrderStore :=
  { store with uncommitted := store.uncommitted.filter fun u => u.1 ≠ i }

/-- One command of transaction `i`. A flush that waits for a lock is not enabled. -/
def execOrder (store : OrderStore) (i : ℕ) :
    (c : OrderCommand) → Fault → Option (OrderStore × OrderReply c)
  | .findById id, fault =>
    some (store, if fault = .none then .ok (findRow store.rows id) else .error .failed)
  | .convertAndSend routingKey event, fault =>
    some (if fault = .before then store
        else { store with messages := ⟨i, routingKey, event⟩ :: store.messages },
      if fault = .none then .ok () else .error .failed)
  | .flush write, fault =>
    if fault ≠ .none then some (store, .error .failed)
    else if locked store i write.order.id then none
    else
      match write.row store.rows with
      | none => some (store, .error .failed)
      | some row => some ({ store with uncommitted := (i, row) :: store.uncommitted }, .ok ())
  | .commit, fault =>
    some (if fault = .before then rollback store i else commitRow store i,
      if fault = .none then .ok () else .error .failed)

abbrev OrderThread := Thread OrderRequest OrderCommand OrderReply Response
abbrev OrderPool := Pool OrderStore OrderRequest OrderCommand OrderReply Response

/-- The database with some committed rows, before the first of the requests. -/
def OrderStore.initial (rows : List Order) : OrderStore where
  rows := rows
  uncommitted := []
  committed := []
  messages := []

/-- The requests that are going to arrive, in any number of replicas. -/
def orderPool (platform : Platform) (rows : List Order) (requests : List OrderRequest) :
    OrderPool :=
  Pool.init (serve platform) (OrderStore.initial rows) requests

abbrev orderStep : OrderPool → ℕ × Fault → Option OrderPool := Pool.step execOrder

/-- The committed status of an order. -/
def statusOf (store : OrderStore) (id : String) : Option OrderStatus :=
  (findRow store.rows id).map Order.status

/-- A request for one unit of a product, at a certain total price. -/
def sampleRequest (totalPrice : BigDecimal) : CreateOrderRequest where
  userId := some "u1"
  email := none
  shippingAddress := none
  items := some [some ⟨some "p1", some "Pen", 1, some ⟨250, 2⟩⟩]
  totalPrice := some totalPrice

/-- How many events of an order the broker has received under a routing key. -/
def eventCount (store : OrderStore) (id routingKey : String) : ℕ :=
  (store.messages.filter fun m => m.event.orderId = id && m.routingKey = routingKey).length

/-! ## Rows -/

lemma findRow_eq_some {rows : List Order} {id : String} {row : Order}
    (h : findRow rows id = some row) : row ∈ rows ∧ row.id = id :=
  ⟨List.mem_of_find?_eq_some h, by simpa using List.find?_some h⟩

lemma findRow_putRow (row : Order) (rows : List Order) (id : String) :
    findRow (putRow row rows) id = if row.id = id then some row else findRow rows id := by
  induction rows with
  | nil =>
    unfold putRow findRow
    by_cases h : row.id = id <;> simp [h]
  | cons r rows ih =>
    unfold findRow at ih ⊢
    unfold putRow
    by_cases hr : r.id = row.id
    · by_cases h : row.id = id <;> simp [hr, h]
    · by_cases h : r.id = id
      · have hne : row.id ≠ id := fun heq => hr (h.trans heq.symm)
        rw [if_neg hr, if_neg hne]
        simp [h]
      · simp [hr, h, ih]

/-- How many rows have an id. -/
def countRows (rows : List Order) (id : String) : ℕ := rows.countP fun row => row.id = id

lemma countRows_putRow_of_ne {row : Order} {id : String} (h : row.id ≠ id) (rows : List Order) :
    countRows (putRow row rows) id = countRows rows id := by
  unfold countRows
  induction rows with
  | nil => simp [putRow, h]
  | cons r rows ih =>
    unfold putRow
    by_cases hr : r.id = row.id
    · rw [if_pos hr, List.countP_cons, List.countP_cons, hr]
    · rw [if_neg hr, List.countP_cons, List.countP_cons, ih]

lemma countRows_putRow_self (row : Order) (rows : List Order) :
    countRows (putRow row rows) row.id ≤ max 1 (countRows rows row.id) := by
  unfold countRows
  induction rows with
  | nil => simp [putRow]
  | cons r rows ih =>
    unfold putRow
    by_cases hr : r.id = row.id
    · rw [if_pos hr, List.countP_cons, List.countP_cons, hr]
      exact le_max_right _ _
    · have hno : (if decide (r.id = row.id) = true then 1 else 0) = 0 := by simp [hr]
      rw [if_neg hr, List.countP_cons, List.countP_cons, hno]
      exact ih

/-- Writing a row makes no second row with one id. -/
lemma countRows_putRow_le_one {rows : List Order} {id : String} (row : Order)
    (h : countRows rows id ≤ 1) : countRows (putRow row rows) id ≤ 1 := by
  by_cases hid : row.id = id
  · have hself := countRows_putRow_self row rows
    rw [hid] at hself
    omega
  · rw [countRows_putRow_of_ne hid]
    exact h

/-- A statement writes the row of its order. -/
lemma Write.row_stored {rows : List Order} {write : Write} {row : Order}
    (h : write.row rows = some row) : write.order.stored = some row := by
  cases write with
  | insert order =>
    simp only [Write.row] at h
    split at h
    · exact absurd h (by simp)
    · exact h
  | update order =>
    simp only [Write.row] at h
    split at h
    · exact h
    · exact absurd h (by simp)

end DevopsEcommerce.OrderService
