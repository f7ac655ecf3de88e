import DevopsEcommerce.Interleaving.Protocol
import DevopsEcommerce.Js.Coercion
import DevopsEcommerce.NotificationWorker.Processing
import DevopsEcommerce.Redis.Lists

/-!
# The worker on any value

`processMessage` and what it calls, for whatever `JSON.parse` has made of the content of a
message, over the texts that Redis keeps. Fields are looked up in any value and converted as
JavaScript does, which can throw. A `throw` in a function rejects its promise; in the callback
of a timer it ends the process. Limits of the engine, on stack or memory, are not modelled.

On the events of the order service this is the program of `Processing`
(`processMessage_eventJson`).
-/

open Interleaving Js Redis

namespace DevopsEcommerce.NotificationWorker.Untyped

inductive Command where
  | lpush (key value : String)
  | ltrim (key : String) (start stop : ℕ)
  /-- From 0 to -1, that is all of the list. -/
  | lrange (key : String)
deriving DecidableEq

abbrev Reply : Command → Type
  | .lpush .. | .ltrim .. => Except RedisError Unit
  | .lrange _ => Except RedisError (List String)

inductive Exception where
  | redisError
  | syntaxError
  | typeError
  | uriError
deriving DecidableEq

/-- An asynchronous function: its promise resolves, or rejects with an exception. -/
abbrev Async (α : Type) := Program Command Reply (Except Exception α)

/-- How `processMessage` ends: its promise resolves or rejects, or the process ends. -/
inductive Ending where
  | resolved
  | rejected
  | crashed
deriving DecidableEq

/-! ## Redis -/

/-- The lists, and everything that has been pushed on them, latest first. -/
structure Store where
  lists : Redis.Lists
  pushed : List (String × String)

/-- The store after a command. -/
def effect (store : Store) : Command → Store
  | .lpush key value =>
    { lists := store.lists.lpush key value, pushed := (key, value) :: store.pushed }
  | .ltrim key start stop => { store with lists := store.lists.ltrim key start stop }
  | .lrange _ => store

/-- The reply to a command that succeeds. -/
def reply (store : Store) : (c : Command) → Reply c
  | .lpush .. | .ltrim .. => .ok ()
  | .lrange key => .ok (store.lists key)

def failure : (c : Command) → Reply c
  | .lpush .. | .ltrim .. | .lrange _ => .error .failed

/-- One command of any worker. -/
def exec (store : Store) (_thread : ℕ) (c : Command) (o : Outcome) : Option (Store × Reply c) :=
  some (o.apply (effect · c) store, if o.fault = .none then reply store c else failure c)

/-- A command that is sent once and succeeds. -/
lemma exec_once (store : Store) (thread : ℕ) (c : Command) :
    exec store thread c (.once .none) = some (effect store c, reply store c) := rfl

/-! ## The history -/

section
variable (double : Json.NumberLiteral → Number)

/-- `notification` is the value as `JSON.stringify` writes it. -/
def storeNotification (userId notification : Json) : Async Unit :=
  match toText double userId with
  | none => .done (.error .typeError)
  | some text =>
    .call (.lpush (notificationsKey text) (stringify notification)) fun
      | .error _ => .done (.error .redisError)
      | .ok () =>
        .call (.ltrim (notificationsKey text) 0 (maxNotificationsPerUser - 1)) fun
          | .error _ => .done (.error .redisError)
          | .ok () => .done (.ok ())

def getNotificationHistory (userId : String) : Async (List Json) :=
  .call (.lrange (notificationsKey userId)) fun
    | .error _ => .done (.error .redisError)
    | .ok items =>
      .done (match items.mapM parse with
        | none => .error .syntaxError
        | some notifications => .ok notifications)

/-- The loop of `getUnreadCount`, with the count so far. -/
def countUnread : List String → ℕ → Except Exception ℕ
  | [], count => .ok count
  | item :: items, count =>
    match parse item with
    | none => .error .syntaxError
    | some .null => .error .typeError
    | some notification =>
      match property notification "status" with
      | some (.string "unread") => countUnread items (count + 1)
      | _ => countUnread items count

def getUnreadCount (userId : String) : Async ℕ :=
  .call (.lrange (notificationsKey userId)) fun
    | .error _ => .done (.error .redisError)
    | .ok items => .done (countUnread items 0)

/-! ## Processing a message -/

/-- `order.orderId || order.id || "unknown"` -/
def orderIdOf (order : Json) : Json :=
  Js.orElse (property order "orderId") (Js.orElse (property order "id") (.string "unknown"))

/-- `order.userId || order.customerId || …` -/
def userIdOf (order : Json) (otherwise : String) : Json :=
  Js.orElse (property order "userId")
    (Js.orElse (property order "customerId") (.string otherwise))

def emailOf (order : Json) : Json :=
  Js.orElse (property order "email")
    (Js.orElse (property order "customerEmail") (.string "customer@example.com"))

def phoneOf (order : Json) : Json :=
  Js.orElse (property order "phone")
    (Js.orElse (property order "customerPhone") (.string "+1-555-0100"))

/-- What the callback of the timer writes; `none` if it throws. -/
def simulateEmailNotification (order : Json) (notificationType : String) : Option String :=
  (toText double (orderIdOf order)).bind fun orderId =>
    (toText double (emailOf order)).map fun email =>
      "[EMAIL] " ++ notificationType ++ " notification sent for order " ++ orderId ++
        " to " ++ email

def simulateSmsNotification (order : Json) (notificationType : String) : Option String :=
  (toText double (orderIdOf order)).bind fun orderId =>
    (toText double (phoneOf order)).map fun phone =>
      "[SMS]   " ++ notificationType ++ " notification sent for order " ++ orderId ++
        " to " ++ phone

def simulatePushNotification (order : Json) (notificationType : String) : Option String :=
  (toText double (orderIdOf order)).bind fun orderId =>
    (toText double (userIdOf order "unknown")).map fun user =>
      "[PUSH]  " ++ notificationType ++ " notification sent for order " ++ orderId ++
        " to user " ++ user

/-- The `switch` over the channels. -/
def simulate (order : Json) (notificationType ch : String) : Option String :=
  match ch with
  | "email" => simulateEmailNotification double order notificationType
  | "sms" => simulateSmsNotification double order notificationType
  | "push" => simulatePushNotification double order notificationType
  | _ => some ""

/-- `none` is a `TypeError`. -/
def buildNotificationMessage (queue : String) (order : Json) : Option String :=
  (toText double (orderIdOf order)).map fun orderId =>
    match queue with
    | "order.created" =>
      "Your order " ++ orderId ++ " has been confirmed. Thank you for your purchase!"
    | "order.shipped" => "Your order " ++ orderId ++ " has been shipped and is on its way."
    | "order.cancelled" =>
      "Your order " ++ orderId ++
        " has been cancelled. If this was a mistake, please contact support."
    | _ => "Update for order " ++ orderId ++ "."

/-- The record of one channel, as `JSON.stringify` writes it. -/
def record (queue : String) (order : Json) (message ch : String) (stamp : Stamp) : Json :=
  .object [
    ("id", .string stamp.uuid),
    ("type", .string (queueToType queue)),
    ("orderId", written double (orderIdOf order)),
    ("message", .string message),
    ("channel", .string ch),
    ("sentAt", .string stamp.now),
    ("status", .string "unread")]

/-- The loop over the channels. -/
def storeEach (userId : Json) : List Json → Program Command Reply Ending
  | [] => .done .resolved
  | notification :: rest =>
    (storeNotification double userId notification).bind fun
      | .ok () => storeEach userId rest
      | .error _ => .done .rejected

def processMessage (queue : String) (order : Json) (stamps : ℕ → Stamp) :
    Program Command Reply Ending :=
  match order with
  | .null => .done .rejected
  | order =>
    match buildNotificationMessage double queue order with
    | none => .done .rejected
    | some message =>
      let channels := getChannelsForQueue queue
      -- a promise whose timer throws stays pending, but the process does not outlive it
      if channels.any fun ch => (simulate double order (queueToType queue) ch).isNone then
        .done .crashed
      else
        storeEach double (userIdOf order "anonymous")
          (channels.mapIdx fun j ch => record double queue order message ch (stamps j))

end

/-! ## Events of the order service -/

/-- A field that is a string or null. -/
def fieldJson : Option String → Json
  | some text => .string text
  | none => .null

def eventJson (order : OrderEvent) : Json :=
  .object [
    ("orderId", fieldJson order.orderId),
    ("id", fieldJson order.id),
    ("userId", fieldJson order.userId),
    ("customerId", fieldJson order.customerId)]

def notificationJson (notification : Notification) : Json :=
  .object [
    ("id", .string notification.id),
    ("type", .string notification.type),
    ("orderId", .string notification.orderId),
    ("message", .string notification.message),
    ("channel", .string notification.channel),
    ("sentAt", .string notification.sentAt),
    ("status", .string notification.status)]

/-- A command with the text of its record. -/
def untypedCommand : RedisCommand → Command
  | .lpush key notification => .lpush key (stringify (notificationJson notification))
  | .ltrim key start stop => .ltrim key start stop

def typedReply : (c : RedisCommand) → Reply (untypedCommand c) → RedisReply c
  | .lpush .., r => r
  | .ltrim .., r => r

def endingOf : Except RedisError Unit → Ending
  | .ok () => .resolved
  | .error _ => .rejected

section
variable {double : Json.NumberLiteral → Number}

lemma orElse_fieldJson (field : Option String) (otherwise : String) :
    Js.orElse (some (fieldJson field)) (.string otherwise) =
      .string (NotificationWorker.orElse field otherwise) := by
  cases field with
  | none => rfl
  | some text =>
    by_cases hempty : text = ""
    · simp [Js.orElse, truthy, fieldJson, NotificationWorker.orElse, hempty]
    · simp [Js.orElse, truthy, fieldJson, NotificationWorker.orElse, hempty]

lemma orderIdOf_eventJson (order : OrderEvent) :
    orderIdOf (eventJson order) = .string (NotificationWorker.orderIdOf order) := by
  have horderId : property (eventJson order) "orderId" = some (fieldJson order.orderId) := rfl
  have hid : property (eventJson order) "id" = some (fieldJson order.id) := rfl
  rw [orderIdOf, horderId, hid, orElse_fieldJson, orElse_fieldJson]
  rfl

lemma userIdOf_eventJson (order : OrderEvent) (otherwise : String) :
    userIdOf (eventJson order) otherwise = .string (NotificationWorker.orElse order.userId
      (NotificationWorker.orElse order.customerId otherwise)) := by
  have huserId : property (eventJson order) "userId" = some (fieldJson order.userId) := rfl
  have hcustomerId :
    property (eventJson order) "customerId" = some (fieldJson order.customerId) := rfl
  rw [userIdOf, huserId, hcustomerId, orElse_fieldJson, orElse_fieldJson]

lemma buildNotificationMessage_eventJson (queue : String) (order : OrderEvent) :
    buildNotificationMessage double queue (eventJson order) =
      some (NotificationWorker.buildNotificationMessage queue order) := by
  rw [buildNotificationMessage, orderIdOf_eventJson, toText, Option.map_some,
    NotificationWorker.buildNotificationMessage.eq_def]
  split
  · rfl
  · rfl
  · rfl
  · simp only

/-- Events have no address and no telephone number. -/
lemma isNone_simulate_eventJson (order : OrderEvent) (notificationType ch : String) :
    (simulate double (eventJson order) notificationType ch).isNone = false := by
  have hemail : emailOf (eventJson order) = .string "customer@example.com" := rfl
  have hphone : phoneOf (eventJson order) = .string "+1-555-0100" := rfl
  unfold simulate
  split
  · simp [simulateEmailNotification, orderIdOf_eventJson, hemail, toText]
  · simp [simulateSmsNotification, orderIdOf_eventJson, hphone, toText]
  · simp [simulatePushNotification, orderIdOf_eventJson, userIdOf_eventJson, toText]
  · rfl

lemma storeEach_notificationJson (userId : String) (notifications : List Notification) :
    storeEach double (.string userId) (notifications.map notificationJson) =
      ((NotificationWorker.storeEach userId notifications).embed untypedCommand typedReply).bind
        fun result => .done (endingOf result) := by
  induction notifications with
  | nil => rfl
  | cons notification rest ih =>
    rw [List.map_cons, storeEach, NotificationWorker.storeEach, storeNotification, toText]
    refine congrArg (Program.call _) (funext fun pushed => ?_)
    cases pushed with
    | error e => rfl
    | ok u =>
      refine congrArg (Program.call _) (funext fun trimmed => ?_)
      cases trimmed with
      | error e => rfl
      | ok u => exact ih

/-- On an event of the order service, the worker runs the program of `Processing`. -/
theorem processMessage_eventJson (queue : String) (order : OrderEvent) (stamps : ℕ → Stamp) :
    processMessage double queue (eventJson order) stamps =
      ((NotificationWorker.processMessage queue order stamps).embed untypedCommand typedReply).bind
        fun result => .done (endingOf result) := by
  have hsent : ((getChannelsForQueue queue).any fun ch =>
      (simulate double (eventJson order) (queueToType queue) ch).isNone) = false := by
    simp [isNone_simulate_eventJson]
  have hrecords : ((getChannelsForQueue queue).mapIdx fun j ch =>
      record double queue (eventJson order)
        (NotificationWorker.buildNotificationMessage queue order) ch (stamps j)) =
          (recordsFor queue order stamps).map notificationJson := by
    apply List.ext_getElem?
    intro j
    rw [recordsFor, List.getElem?_map, List.getElem?_mapIdx, List.getElem?_mapIdx, Option.map_map]
    simp only [record, orderIdOf_eventJson, written]
    rfl
  rw [processMessage]
  · simp only [buildNotificationMessage_eventJson, hsent, hrecords, userIdOf_eventJson]
    exact storeEach_notificationJson _ _
  · exact fun h => by cases h

end

end DevopsEcommerce.NotificationWorker.Untyped
