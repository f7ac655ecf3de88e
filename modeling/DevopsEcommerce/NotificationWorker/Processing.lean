import DevopsEcommerce.Redis.Resending

/-!
# Processing an order event

`processMessage` of `worker.js` as a program over Redis, with the texts of the notifications
it stores. The simulated sends before the loop only wait; what they wait for, the UUID and
the time of each record come from outside.

The client of Redis leaves `autoResendUnfulfilledCommands` on, so a command may be executed more
than once. The history of a user is a Redis list, latest record first; `received` is the log of all
records that were ever pushed on it.
-/

open Interleaving Redis

namespace DevopsEcommerce.NotificationWorker

/-- The fields of the event that the worker reads; `none` is an absent or null field. -/
structure OrderEvent where
  orderId : Option String
  id : Option String
  userId : Option String
  customerId : Option String
deriving DecidableEq

structure Notification where
  id : String
  type : String
  orderId : String
  message : String
  channel : String
  sentAt : String
  status : String
deriving DecidableEq

/-- `a || b` on strings that may be missing. -/
def orElse (a : Option String) (b : String) : String :=
  match a with
  | some s => if s = "" then b else s
  | none => b

/-- `order.orderId || order.id || "unknown"` -/
def orderIdOf (order : OrderEvent) : String := orElse order.orderId (orElse order.id "unknown")

/-- `order.userId || order.customerId || "anonymous"` -/
def userIdOf (order : OrderEvent) : String :=
  orElse order.userId (orElse order.customerId "anonymous")

def buildNotificationMessage (queue : String) (order : OrderEvent) : String :=
  match queue with
  | "order.created" =>
    "Your order " ++ orderIdOf order ++ " has been confirmed. Thank you for your purchase!"
  | "order.shipped" => "Your order " ++ orderIdOf order ++ " has been shipped and is on its way."
  | "order.cancelled" =>
    "Your order " ++ orderIdOf order ++
      " has been cancelled. If this was a mistake, please contact support."
  | _ => "Update for order " ++ orderIdOf order ++ "."

def queueToType (queue : String) : String :=
  match queue with
  | "order.created" => "order_created"
  | "order.shipped" => "order_shipped"
  | "order.cancelled" => "order_cancelled"
  | _ => "unknown"

def getChannelsForQueue (queue : String) : List String :=
  match queue with
  | "order.created" => ["email", "sms", "push"]
  | "order.shipped" => ["email", "sms", "push"]
  | "order.cancelled" => ["email", "push"]
  | _ => ["email"]

/-- `crypto.randomUUID()` and `new Date().toISOString()` for one record. -/
structure Stamp where
  uuid : String
  now : String

/-- The record of one channel. -/
def notificationFor (queue : String) (order : OrderEvent) (ch : String) (stamp : Stamp) :
    Notification where
  id := stamp.uuid
  type := queueToType queue
  orderId := orderIdOf order
  message := buildNotificationMessage queue order
  channel := ch
  sentAt := stamp.now
  status := "unread"

inductive RedisCommand where
  | lpush (key : String) (notification : Notification)
  | ltrim (key : String) (start stop : ℕ)

inductive RedisError where
  | failed
deriving DecidableEq

abbrev RedisReply (_c : RedisCommand) : Type := Except RedisError Unit

/-- A program that resolves or rejects. -/
abbrev WorkerProgram := Program RedisCommand RedisReply (Except RedisError Unit)

def maxNotificationsPerUser : ℕ := 100

def notificationsKey (userId : String) : String := "notifications:" ++ userId

/-- `await storeNotification(userId, notification)` and what follows it. -/
def storeNotification (userId : String) (notification : Notification) (rest : WorkerProgram) :
    WorkerProgram :=
  .call (.lpush (notificationsKey userId) notification) fun
    | .error e => .done (.error e)
    | .ok () =>
      .call (.ltrim (notificationsKey userId) 0 (maxNotificationsPerUser - 1)) fun
        | .error e => .done (.error e)
        | .ok () => rest

/-- The loop over the channels. -/
def storeEach (userId : String) : List Notification → WorkerProgram
  | [] => .done (.ok ())
  | notification :: rest => storeNotification userId notification (storeEach userId rest)

/-- The records of an event, one for each channel. -/
def recordsFor (queue : String) (order : OrderEvent) (stamps : ℕ → Stamp) : List Notification :=
  (getChannelsForQueue queue).mapIdx fun j ch => notificationFor queue order ch (stamps j)

def processMessage (queue : String) (order : OrderEvent) (stamps : ℕ → Stamp) : WorkerProgram :=
  storeEach (userIdOf order) (recordsFor queue order stamps)

/-! ## Redis -/

/-- The lists, and everything that has been pushed on them, latest first. -/
structure RedisStore where
  lists : String → List Notification
  received : List (String × Notification)

/-- The store after a command. -/
def redisEffect (store : RedisStore) : RedisCommand → RedisStore
  | .lpush key notification =>
    { lists := Function.update store.lists key (notification :: store.lists key)
      received := (key, notification) :: store.received }
  | .ltrim key start stop =>
    { store with lists :=
        Function.update store.lists key (((store.lists key).take (stop + 1)).drop start) }

/-- One command of any worker. -/
def execRedis (store : RedisStore) (_worker : ℕ) (c : RedisCommand) (o : Outcome) :
    Option (RedisStore × RedisReply c) :=
  some (o.apply (redisEffect · c) store, if o.fault = .none then .ok () else .error .failed)

/-- The channels are all different. -/
lemma nodup_getChannelsForQueue (queue : String) : (getChannelsForQueue queue).Nodup := by
  unfold getChannelsForQueue
  split <;> decide

lemma map_channel_recordsFor (queue : String) (order : OrderEvent) (stamps : ℕ → Stamp) :
    (recordsFor queue order stamps).map Notification.channel = getChannelsForQueue queue := by
  apply List.ext_getElem?
  intro j
  rw [recordsFor, List.getElem?_map, List.getElem?_mapIdx, Option.map_map]
  cases (getChannelsForQueue queue)[j]? <;> rfl

end DevopsEcommerce.NotificationWorker
