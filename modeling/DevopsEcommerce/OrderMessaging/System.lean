import DevopsEcommerce.Messaging.Broker
import DevopsEcommerce.NotificationWorker.Consumer
import DevopsEcommerce.OrderService.RabbitMQConfig

/-!
# Both services at the broker

Replicas of the order service connect, declare their side of the exchange and publish;
workers connect, declare theirs and consume their three queues. Every declaration is a step
of its own, so that any part of one side can be in place before any part of the other.

An event is known by its number; `published` keeps its routing key and whether the workers'
queue was bound to that key when it was published.
-/

open Interleaving Messaging

namespace DevopsEcommerce.OrderMessaging

structure Publication where
  key : String
  bound : Bool
deriving DecidableEq

structure System where
  topology : Topology
  broker : Broker String ℕ
  /-- For each replica of the order service what it has still to declare, if connected. -/
  producers : List (Option (List Declaration))
  /-- For each worker its channel and what it has still to declare, if connected. -/
  consumers : List (Option (ℕ × List Declaration))
  published : List Publication

inductive Label where
  | producerConnects (i : ℕ)
  | producerDeclares (i : ℕ)
  | publish (i : ℕ) (key : String)
  | consumerConnects (i : ℕ)
  | consumerDeclares (i : ℕ)
  | consumerCloses (i : ℕ)
  | deliver (i : ℕ) (queue : String) (j : ℕ)
  | settle (i : ℕ) (tag : ℕ) (acks : Bool)

/-- The keys of `resolveRoutingKey` and `createOrder`. -/
def routingKeys : List String :=
  [OrderService.routingKeyCreated, OrderService.routingKeyShipped,
    OrderService.routingKeyCancelled]

/-- The queue that the order service binds to a key. -/
def serviceQueue (key : String) : String :=
  if key = OrderService.routingKeyCreated then OrderService.orderCreatedQueue
  else if key = OrderService.routingKeyShipped then OrderService.orderShippedQueue
  else OrderService.orderCancelledQueue

/-- The binding that a worker declares for a key. -/
def consumerBinding (key : String) : Binding := ⟨key, NotificationWorker.exchangeName, key⟩

namespace System

/-- Nothing is declared, and nobody is connected. -/
def initial (producers consumers : ℕ) : System where
  topology := .empty
  broker := .empty
  producers := List.replicate producers none
  consumers := List.replicate consumers none
  published := []

/-- The exchange copies the event to every queue bound to its key. -/
def publish (s : System) (key : String) : System :=
  { s with
    broker := s.broker.publish (s.topology.route OrderService.exchangeName key)
      s.published.length
    published := s.published ++
      [{ key := key, bound := consumerBinding key ∈ s.topology.bindings }] }

def step (s : System) : Label → Option System
  | .producerConnects i =>
    -- also a replica that is connected may lose its connection and come back
    if i < s.producers.length then
      some { s with producers := s.producers.set i (some OrderService.declarations) }
    else none
  | .producerDeclares i =>
    match s.producers[i]? with
    | some (some (d :: rest)) =>
      some { s with
        topology := s.topology.declare d
        producers := s.producers.set i (some rest) }
    | _ => none
  | .publish i key =>
    match s.producers[i]? with
    | some (some []) => if key ∈ routingKeys then some (s.publish key) else none
    | _ => none
  | .consumerConnects i =>
    match s.consumers[i]? with
    | some none =>
      some { s with
        broker := s.broker.openChannel
        consumers := s.consumers.set i
          (some (s.broker.channels.length, NotificationWorker.declarations)) }
    | _ => none
  | .consumerDeclares i =>
    match s.consumers[i]? with
    | some (some (c, d :: rest)) =>
      some { s with
        topology := s.topology.declare d
        consumers := s.consumers.set i (some (c, rest)) }
    | _ => none
  | .consumerCloses i =>
    match s.consumers[i]? with
    | some (some (c, _)) =>
      some { s with
        broker := s.broker.closeChannel c
        consumers := s.consumers.set i none }
    | _ => none
  | .deliver i queue j =>
    match s.consumers[i]? with
    | some (some (c, [])) =>
      if queue ∈ NotificationWorker.queues then
        (s.broker.deliver c queue j).map fun bd => { s with broker := bd.1 }
      else none
    | _ => none
  | .settle i tag acks =>
    match s.consumers[i]? with
    | some (some (c, [])) =>
      some { s with broker := if acks then s.broker.ack c tag else s.broker.nack c tag }
    | _ => none

/-- The copies of event `n` that came from a queue: waiting, delivered or acknowledged. -/
def copiesOf (s : System) (queue : String) (n : ℕ) : ℕ :=
  s.broker.copies queue fun m => m = n

/-- Every event has one copy, and it is in a queue that the workers consume, delivered from
one, or acknowledged. -/
def OneCopy (s : System) : Prop :=
  ∀ n < s.published.length,
    (NotificationWorker.queues.map fun queue => s.copiesOf queue n).sum = 1 ∧
      ∀ queue ∉ NotificationWorker.queues, s.copiesOf queue n = 0

end System

end DevopsEcommerce.OrderMessaging
