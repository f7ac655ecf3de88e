import DevopsEcommerce.Messaging.TopicExchange

/-!
# Messaging of the order service

The constants of `RabbitMQConfig` and what its beans make the service declare whenever it
connects to the broker: exchanges first, then queues, then bindings.
-/

open Messaging

namespace DevopsEcommerce.OrderService

def exchangeName : String := "order.exchange"

def orderCreatedQueue : String := "order.created.queue"
def orderShippedQueue : String := "order.shipped.queue"
def orderCancelledQueue : String := "order.cancelled.queue"

def routingKeyCreated : String := "order.created"
def routingKeyShipped : String := "order.shipped"
def routingKeyCancelled : String := "order.cancelled"

def orderCreatedBinding : Binding := ⟨orderCreatedQueue, exchangeName, routingKeyCreated⟩
def orderShippedBinding : Binding := ⟨orderShippedQueue, exchangeName, routingKeyShipped⟩
def orderCancelledBinding : Binding := ⟨orderCancelledQueue, exchangeName, routingKeyCancelled⟩

def declarations : List Declaration :=
  [.exchange exchangeName, .queue orderCreatedQueue, .queue orderShippedQueue,
    .queue orderCancelledQueue, .binding orderCreatedBinding, .binding orderShippedBinding,
    .binding orderCancelledBinding]

end DevopsEcommerce.OrderService
