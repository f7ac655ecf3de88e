import DevopsEcommerce.Messaging.Broker
import DevopsEcommerce.Messaging.TopicExchange
import DevopsEcommerce.NotificationWorker.Processing

/-!
# The consumer

One worker process and the queues it consumes. `connectAndConsume` opens a connection with a
channel, keeps the channel in a variable of the module, and registers a callback on each
queue. A callback runs `processMessage`, one Redis command at a time and interleaved with
all others, and settles its message on the channel that the variable holds by then.

A label says what happens next: the broker delivers, a connection ends, a Redis command is
answered or to be sent again, a callback goes on. Only what concerns channels is kept of the set-up.
-/

open Interleaving Messaging

namespace DevopsEcommerce.NotificationWorker

def exchangeName : String := "order.exchange"

def queues : List String := ["order.created", "order.shipped", "order.cancelled"]

/-- What `connectAndConsume` declares, in its order. -/
def declarations : List Declaration :=
  .exchange exchangeName ::
    queues.flatMap fun queue => [.queue queue, .binding ⟨queue, exchangeName, queue⟩]

/-- `order` is what `JSON.parse` makes of the content; `none` if it throws, or if
`processMessage` can read no fields of it. -/
structure Message where
  id : ℕ
  order : Option OrderEvent
deriving DecidableEq

/-- A call of the callback: its message, the channel that delivered it and the tag there, and
what is left of `processMessage`. -/
structure Handler where
  message : Message
  channel : ℕ
  tag : ℕ
  program : WorkerProgram

/-- The worker and its broker. Channels are numbered in the order in which they were opened,
each on a connection of its own. -/
structure Worker where
  broker : Broker String Message
  published : ℕ
  /-- The variable of the module. -/
  channel : Option ℕ
  /-- Calls of `connectAndConsume` that are to connect next, or wait for it. -/
  starting : ℕ
  /-- Calls of `connectAndConsume` that have their channel. -/
  settingUp : ℕ
  /-- The channels with callbacks and whose connection has the `close` listener, once for
  each set-up. -/
  consuming : List ℕ
  handlers : List Handler
  redis : RedisStore
  /-- The messages for which `processMessage` has resolved. -/
  completed : List ℕ

inductive Label where
  | publish (queue : String) (order : Option OrderEvent)
  | connect
  | consume
  | setupFails
  | deliver (c : ℕ) (queue : String) (j : ℕ) (stamps : ℕ → Stamp)
  | redis (i : ℕ) (fault : Fault)
  /-- Redis executes the command of a callback, but the reply is lost with the connection, and the
  client is going to send the command again. -/
  | resend (i : ℕ)
  | settle (i : ℕ) (noticed : Bool)
  | close (c : ℕ)
  | restart

/-- The body of the `try` up to the acknowledgement. -/
def callback (queue : String) (message : Message) (stamps : ℕ → Stamp) : WorkerProgram :=
  match message.order with
  | some order => processMessage queue order stamps
  | none => .done (.error .failed)

namespace Worker

def initial (lists : String → List Notification) : Worker where
  broker := .empty
  published := 0
  channel := none
  starting := 1
  settingUp := 0
  consuming := []
  handlers := []
  redis := ⟨lists, []⟩
  completed := []

/-- The process ends, and with it all its connections; it is started again. -/
def restarted (s : Worker) : Worker :=
  { s with
    broker := s.broker.closeAll
    channel := none
    starting := 1
    settingUp := 0
    consuming := []
    handlers := [] }

def isOpen (s : Worker) (c : ℕ) : Bool :=
  (s.broker.channels[c]?).any Channel.isOpen

/-- The consumers of the queue on the channel may hold one more message. -/
def hasRoom (prefetch : ℕ) (s : Worker) (c : ℕ) (queue : String) : Bool :=
  (s.broker.channels[c]?).any fun ch =>
    ch.unacked.countP (fun d => d.queue = queue) < prefetch * s.consuming.count c

/-- Handler `i` goes on with `program`. -/
def resume (s : Worker) (i : ℕ) (h : Handler) (redis : RedisStore) (program : WorkerProgram) :
    Worker :=
  { s with
    redis := redis
    handlers := s.handlers.set i { h with program := program }
    completed := match program.answer? with
      | some (.ok ()) => h.message.id :: s.completed
      | _ => s.completed }

/-- `channel.ack(msg)`, or `channel.nack(msg, false, true)` in the `catch`. On a channel that the
client knows to be closed both throw; the rejected callback ends the process. -/
def settle (s : Worker) (i : ℕ) (h : Handler) (result : Except RedisError Unit)
    (noticed : Bool) : Worker :=
  match s.channel with
  | none => s.restarted
  | some c =>
    if !s.isOpen c && noticed then s.restarted
    else
      { s with
        broker := match result with
          | .ok () => s.broker.ack c h.tag
          | .error _ => s.broker.nack c h.tag
        handlers := s.handlers.eraseIdx i }

def step (prefetch : ℕ) (s : Worker) : Label → Option Worker
  | .publish queue order =>
    if queue ∈ queues then
      some { s with
        broker := s.broker.enqueue queue { id := s.published, order := order }
        published := s.published + 1 }
    else none
  | .connect =>
    if s.starting = 0 then none
    else
      some { s with
        broker := s.broker.openChannel
        channel := some s.broker.channels.length
        starting := s.starting - 1
        settingUp := s.settingUp + 1 }
  | .consume =>
    match s.channel with
    | none => none
    | some c =>
      if s.settingUp = 0 then none
      else some { s with consuming := c :: s.consuming, settingUp := s.settingUp - 1 }
  | .setupFails =>
    if s.settingUp = 0 then none
    else some { s with settingUp := s.settingUp - 1, starting := s.starting + 1 }
  | .deliver c queue j stamps =>
    if s.hasRoom prefetch c queue then
      (s.broker.deliver c queue j).map fun bd =>
        { s with
          broker := bd.1
          handlers := s.handlers ++ [{
            message := bd.2.message
            channel := c
            tag := bd.2.tag
            program := callback queue bd.2.message stamps }] }
    else none
  | .redis i fault =>
    match s.handlers[i]? with
    | none => none
    | some h =>
      match h.program with
      | .done _ => none
      | .call c k =>
        (execRedis s.redis i c (.once fault)).map fun sr => s.resume i h sr.1 (k sr.2)
  | .resend i =>
    match s.handlers[i]? with
    | none => none
    | some h =>
      match h.program with
      | .done _ => none
      | .call c _ => some { s with redis := redisEffect s.redis c }
  | .settle i noticed =>
    match s.handlers[i]? with
    | none => none
    | some h => h.program.answer?.map fun result => s.settle i h result noticed
  | .close c =>
    -- every `close` listener of the connection starts `connectAndConsume` again
    some { s with
      broker := s.broker.closeChannel c
      starting := s.starting + s.consuming.count c
      consuming := s.consuming.filter fun c' => c' ≠ c }
  | .restart => some s.restarted

end Worker

end DevopsEcommerce.NotificationWorker
