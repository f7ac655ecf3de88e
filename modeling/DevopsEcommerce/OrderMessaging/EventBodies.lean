import DevopsEcommerce.NotificationWorker.Bodies
import DevopsEcommerce.OrderService.Service

/-!
# The events of one service in the other

`publishOrderEvent` sends a map, which `Jackson2JsonMessageConverter` writes as JSON. The worker
parses the bytes and looks for the fields it knows, with `||` where one may be missing. Whatever
an order contains, it finds the id of the order and of the user, and does with the bytes what
`processMessage` does with these two (`callback_eventBytes`).
-/

open Interleaving Numbers Js

namespace DevopsEcommerce.OrderMessaging

open NotificationWorker.Untyped

/-- How Jackson writes numbers. -/
structure NumberWriter where
  decimal : BigDecimal → Json.NumberLiteral
  integer : Int32 → Json.NumberLiteral

section
variable (writer : NumberWriter)

def priceJson : Option BigDecimal → Json
  | some price => .number (writer.decimal price)
  | none => .null

/-- The map of an item. -/
def itemJson (item : OrderService.OrderItem) : Json :=
  .object [
    ("productId", fieldJson item.productId),
    ("productName", fieldJson item.productName),
    ("quantity", .number (writer.integer item.quantity)),
    ("unitPrice", priceJson writer item.unitPrice)]

/-- The map of `publishOrderEvent`, in the order of its insertions. -/
def eventBody (event : OrderService.OrderEvent) : Json :=
  .object ([
    ("orderId", .string event.orderId),
    ("userId", fieldJson event.userId),
    ("email", fieldJson event.email),
    ("totalPrice", priceJson writer event.totalPrice),
    ("status", .string event.status)] ++
    if event.items = [] then []
    else [("items", .array (event.items.map (itemJson writer)))])

/-- The content of the message, in UTF-8. -/
def eventBytes (escape : Char → List Char) (event : OrderService.OrderEvent) : List UInt8 :=
  ((eventBody writer event).print escape).flatMap String.utf8EncodeChar

end

/-- What the worker is to find in it. -/
def readEvent (event : OrderService.OrderEvent) : NotificationWorker.OrderEvent where
  orderId := some event.orderId
  id := none
  userId := event.userId
  customerId := none

section
variable {writer : NumberWriter} {double : Json.NumberLiteral → Number}

/-! ## Fields -/

/-- The items hide no other field. -/
lemma property_eventBody (event : OrderService.OrderEvent) {name : String}
    (hname : name ≠ "items") :
    property (eventBody writer event) name =
      property (.object [
        ("orderId", .string event.orderId),
        ("userId", fieldJson event.userId),
        ("email", fieldJson event.email),
        ("totalPrice", priceJson writer event.totalPrice),
        ("status", .string event.status)]) name := by
  have hitems : (name == "items") = false := by simpa using hname
  show (_ ++ if event.items = [] then [] else [("items", _)]).reverse.lookup name = _
  split
  · rw [List.append_nil]
    rfl
  · rw [List.reverse_append, List.reverse_singleton, List.singleton_append, List.lookup_cons,
      hitems]
    rfl

lemma orderIdOf_eventBody (event : OrderService.OrderEvent) :
    orderIdOf (eventBody writer event) =
      .string (NotificationWorker.orderIdOf (readEvent event)) := by
  have horderId : property (eventBody writer event) "orderId" =
      some (fieldJson (some event.orderId)) := property_eventBody event (by decide)
  have hid : property (eventBody writer event) "id" = none := property_eventBody event (by decide)
  have hlast : Js.orElse none (.string "unknown") = .string "unknown" := rfl
  rw [orderIdOf, horderId, hid, hlast, orElse_fieldJson]
  rfl

lemma userIdOf_eventBody (event : OrderService.OrderEvent) (otherwise : String) :
    userIdOf (eventBody writer event) otherwise =
      .string (NotificationWorker.orElse event.userId otherwise) := by
  have huserId : property (eventBody writer event) "userId" = some (fieldJson event.userId) :=
    property_eventBody event (by decide)
  have hcustomerId : property (eventBody writer event) "customerId" = none :=
    property_eventBody event (by decide)
  rw [userIdOf, huserId, hcustomerId, ← orElse_fieldJson]
  rfl

/-- The fields that are written somewhere are strings. -/
lemma isReadable_eventBody (queue : String) (event : OrderService.OrderEvent) :
    isReadable queue (eventBody writer event) = true := by
  have hemail : emailOf (eventBody writer event) =
      .string (NotificationWorker.orElse event.email "customer@example.com") := by
    have hfield : property (eventBody writer event) "email" = some (fieldJson event.email) :=
      property_eventBody event (by decide)
    have hcustomer : property (eventBody writer event) "customerEmail" = none :=
      property_eventBody event (by decide)
    rw [emailOf, hfield, hcustomer, ← orElse_fieldJson]
    rfl
  have hphone : phoneOf (eventBody writer event) = .string "+1-555-0100" := by
    have hfield : property (eventBody writer event) "phone" = none :=
      property_eventBody event (by decide)
    have hcustomer : property (eventBody writer event) "customerPhone" = none :=
      property_eventBody event (by decide)
    rw [phoneOf, hfield, hcustomer]
    rfl
  rw [isReadable.eq_2]
  · simp [orderIdOf_eventBody, userIdOf_eventBody, hemail, hphone, isPrintable]
  · exact fun h => by cases h

/-! ## Messages -/

/-- No timer throws. -/
lemma any_isNone_simulate_eventBody {queue : String} (hqueue : queue ∈ NotificationWorker.queues)
    (event : OrderService.OrderEvent) :
    ((NotificationWorker.getChannelsForQueue queue).any fun ch =>
      (simulate double (eventBody writer event) (NotificationWorker.queueToType queue) ch).isNone) =
        false := by
  have hreadable : isReadable queue (eventBody writer event) = true :=
    isReadable_eventBody queue event
  rw [isReadable.eq_2 _ _ (fun h => by cases h)] at hreadable
  rw [any_isNone_simulate hqueue, hreadable]
  rfl

lemma processMessage_eventBody {queue : String} (hqueue : queue ∈ NotificationWorker.queues)
    (event : OrderService.OrderEvent) (stamps : ℕ → NotificationWorker.Stamp) :
    processMessage double queue (eventBody writer event) stamps =
      processMessage double queue (eventJson (readEvent event)) stamps := by
  have hsimulated : ((NotificationWorker.getChannelsForQueue queue).any fun ch =>
      (simulate double (eventBody writer event) (NotificationWorker.queueToType queue) ch).isNone) =
        false := any_isNone_simulate_eventBody hqueue event
  have hsimulated' : ((NotificationWorker.getChannelsForQueue queue).any fun ch =>
      (simulate double (eventJson (readEvent event)) (NotificationWorker.queueToType queue)
        ch).isNone) = false := by
    simp [isNone_simulate_eventJson]
  rw [processMessage, processMessage]
  · simp only [buildNotificationMessage, record, orderIdOf_eventBody, orderIdOf_eventJson,
      userIdOf_eventBody, userIdOf_eventJson, hsimulated, hsimulated']
    rfl
  · exact fun h => by cases h
  · exact fun h => by cases h

/-- Whatever an event contains and whatever Jackson escapes: on the bytes of the event the callback
of each queue stores, for each of its channels, the record of the order in the list of the user of
the order. It neither rejects nor crashes by itself. -/
theorem callback_eventBytes {escape : Char → List Char} (hescape : Json.Unescapes escape)
    {queue : String} (hqueue : queue ∈ NotificationWorker.queues) (event : OrderService.OrderEvent)
    (stamps : ℕ → NotificationWorker.Stamp) :
    callback double queue (eventBytes writer escape event) stamps =
      ((NotificationWorker.processMessage queue (readEvent event) stamps).embed untypedCommand
        typedReply).bind fun result => .done (endingOf result) := by
  have hparse : parse (String.ofList (Utf8.decode (eventBytes writer escape event))) =
      some (eventBody writer event) := by
    rw [eventBytes, Utf8.decode_encode, parse, String.toList_ofList, Json.parse_print hescape]
  rw [callback, hparse]
  exact (processMessage_eventBody hqueue event stamps).trans
    (processMessage_eventJson queue (readEvent event) stamps)

end

/-- A pen is ordered for 2.50. -/
def penEvent : OrderService.OrderEvent where
  orderId := "o1"
  userId := some "u1"
  email := none
  totalPrice := some ⟨250, 2⟩
  status := "PENDING"
  items := [⟨some "p1", some "Pen", 1, some ⟨250, 2⟩⟩]

def penNumbers : NumberWriter where
  decimal := fun _ => ⟨['2', '.', '5', '0'], by decide⟩
  integer := fun _ => ⟨['1'], by decide⟩

theorem callback_eventBytes_pen :
    callback Number.finite "order.created" (eventBytes penNumbers Js.escape penEvent)
        (fun _ => ⟨"n1", "t"⟩) =
      ((NotificationWorker.processMessage "order.created" ⟨some "o1", none, some "u1", none⟩
        fun _ => ⟨"n1", "t"⟩).embed untypedCommand typedReply).bind
          fun result => .done (endingOf result) :=
  callback_eventBytes Js.unescapes_escape (by decide) penEvent _

end DevopsEcommerce.OrderMessaging
