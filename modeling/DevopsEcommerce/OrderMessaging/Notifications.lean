import DevopsEcommerce.NotificationWorker.Deliveries
import DevopsEcommerce.OrderMessaging.EventBodies
import DevopsEcommerce.OrderService.Publications

/-!
# From orders to notifications

The order service and the worker at once, with the queues between them: transactions of any
requests interleave, database, broker and Redis fail, connections close and the worker restarts.

What a user is notified of has been published by a transaction for an order of this user, and the
other way round (`notifications_of_orders`).
-/

open Interleaving

namespace DevopsEcommerce.OrderMessaging

structure NoticeSystem where
  orders : OrderService.OrderPool
  worker : NotificationWorker.Worker

inductive NoticeEvent where
  /-- A request reaches the order service. -/
  | arrive (req : OrderService.OrderRequest)
  /-- A transaction executes its next command. If it publishes something, `bound` says whether
  the queue of the worker is bound to the key by then. -/
  | execute (i : ℕ) (fault : Fault) (bound : Bool)
  /-- What else happens to the worker. -/
  | work (label : NotificationWorker.Label)

/-- The message that a command has sent. -/
def sent? (before after : OrderService.OrderStore) : Option OrderService.Message :=
  if before.messages.length < after.messages.length then after.messages.head? else none

namespace NoticeSystem

def initial (platform : OrderService.Platform) (rows : List OrderService.Order)
    (lists : String → List NotificationWorker.Notification) : NoticeSystem where
  orders := OrderService.orderPool platform rows []
  worker := NotificationWorker.Worker.initial lists

/-- The exchange puts a message into the queue of its key. -/
def hand (prefetch : ℕ) (worker : NotificationWorker.Worker) (message : OrderService.Message) :
    Option NotificationWorker.Worker :=
  worker.step prefetch (.publish message.routingKey (some (readEvent message.event)))

def step (platform : OrderService.Platform) (prefetch : ℕ) (s : NoticeSystem) :
    NoticeEvent → Option NoticeSystem
  | .arrive req =>
    some { s with orders := s.orders.arrive (OrderService.serve platform) req }
  | .execute i fault bound =>
    (OrderService.orderStep s.orders (i, fault)).bind fun orders =>
      match sent? s.orders.store orders.store, bound with
      | some message, true => (hand prefetch s.worker message).map fun worker => ⟨orders, worker⟩
      | _, _ => some { s with orders := orders }
  | .work label =>
    match label with
    | .publish _ _ => none
    | label => (s.worker.step prefetch label).map fun worker => { s with worker := worker }

end NoticeSystem

/-- The database does not refuse a transaction that has published. -/
def Unrefused (s : NoticeSystem) : NoticeEvent → Prop
  | .execute i fault _ => OrderService.NotRefused s.orders (i, fault)
  | _ => True

/-- The worker's queues are bound. -/
def Bound : NoticeEvent → Prop
  | .execute _ _ bound => bound = true
  | _ => True

instance (s : NoticeSystem) : (e : NoticeEvent) → Decidable (Unrefused s e)
  | .execute i fault _ => inferInstanceAs (Decidable (OrderService.NotRefused s.orders (i, fault)))
  | .arrive _ | .work _ => .isTrue trivial

instance : (e : NoticeEvent) → Decidable (Bound e)
  | .execute _ _ bound => inferInstanceAs (Decidable (bound = true))
  | .arrive _ | .work _ => .isTrue trivial

namespace NoticeSystem

section
variable {platform : OrderService.Platform} {prefetch : ℕ} {rows : List OrderService.Order}
  {lists : String → List NotificationWorker.Notification} {s s' : NoticeSystem}

/-! ## Steps of the system -/

/-- A step moves one of the services, or sends a message from one to the other. -/
inductive Moved (platform : OrderService.Platform) (prefetch : ℕ) (s : NoticeSystem) :
    NoticeEvent → NoticeSystem → Prop
  | arrived (req : OrderService.OrderRequest) :
      Moved platform prefetch s (.arrive req)
        { s with orders := s.orders.arrive (OrderService.serve platform) req }
  | executed {i : ℕ} {fault : Fault} {bound : Bool} {orders : OrderService.OrderPool}
      (hstep : OrderService.orderStep s.orders (i, fault) = some orders)
      (hbound : bound = true → orders.store.messages = s.orders.store.messages) :
      Moved platform prefetch s (.execute i fault bound) { s with orders := orders }
  | published {i : ℕ} {fault : Fault} {orders : OrderService.OrderPool}
      {message : OrderService.Message} {worker : NotificationWorker.Worker}
      (hstep : OrderService.orderStep s.orders (i, fault) = some orders)
      (hmessages : orders.store.messages = message :: s.orders.store.messages)
      (hhand : hand prefetch s.worker message = some worker) :
      Moved platform prefetch s (.execute i fault true) ⟨orders, worker⟩
  | worked {label : NotificationWorker.Label} {worker : NotificationWorker.Worker}
      (hpublish : ∀ queue order, label ≠ .publish queue order)
      (hstep : s.worker.step prefetch label = some worker) :
      Moved platform prefetch s (.work label) { s with worker := worker }

/-- A command sends one message, or none. -/
lemma messages_of_step {p p' : OrderService.OrderPool} {l : ℕ × Fault}
    (hstep : OrderService.orderStep p l = some p') :
    p'.store.messages = p.store.messages ∨
      ∃ message, p'.store.messages = message :: p.store.messages := by
  obtain ⟨i, fault⟩ := l
  obtain ⟨t, c, k, store, r, -, -, hexec, rfl⟩ := Pool.step_eq_some.mp hstep
  show store.messages = _ ∨ ∃ message, store.messages = _
  cases c with
  | findById id =>
    obtain ⟨rfl, -⟩ := Prod.mk.inj (Option.some.inj hexec)
    exact .inl rfl
  | convertAndSend routingKey event =>
    obtain ⟨rfl, -⟩ := Prod.mk.inj (Option.some.inj hexec)
    split
    · exact .inl rfl
    · exact .inr ⟨_, rfl⟩
  | flush write =>
    rcases OrderService.execOrder_flush_row hexec with rfl | ⟨row, -, rfl⟩ <;> exact .inl rfl
  | commit =>
    rw [OrderService.execOrder_commit hexec]
    split <;> exact .inl rfl

lemma moved_of_step {e : NoticeEvent} (h : step platform prefetch s e = some s') :
    Moved platform prefetch s e s' := by
  cases e with
  | arrive req =>
    obtain rfl := Option.some.inj h
    exact .arrived req
  | execute i fault bound =>
    obtain ⟨orders, hstep, h⟩ := Option.bind_eq_some_iff.mp h
    rcases messages_of_step hstep with hsame | ⟨message, hmessages⟩
    · have hnone : sent? s.orders.store orders.store = none := by
        unfold sent?
        rw [hsame, if_neg (Nat.lt_irrefl _)]
      rw [hnone] at h
      obtain rfl := Option.some.inj h
      exact .executed hstep fun _ => hsame
    · have hsome : sent? s.orders.store orders.store = some message := by
        unfold sent?
        rw [hmessages, if_pos (by simp)]
        rfl
      rw [hsome] at h
      cases bound with
      | true =>
        obtain ⟨worker, hhand, rfl⟩ := Option.map_eq_some_iff.mp h
        exact .published hstep hmessages hhand
      | false =>
        obtain rfl := Option.some.inj h
        exact .executed hstep fun hbound => absurd hbound (by simp)
  | work label =>
    simp only [step] at h
    split at h
    · exact absurd h (by simp)
    · rename_i hpublish
      obtain ⟨worker, hstep, rfl⟩ := Option.map_eq_some_iff.mp h
      exact .worked hpublish hstep

/-! ## What holds between the services -/

/-- The queues of the worker hold what the order service has sent, and nothing else. -/
structure Noticed (platform : OrderService.Platform) (prefetch : ℕ)
    (rows : List OrderService.Order) (lists : String → List NotificationWorker.Notification)
    (s : NoticeSystem) : Prop where
  backed : OrderService.Backed platform rows (fun _ => True) s.orders
  accounted : NotificationWorker.Worker.Accounted lists s.worker
  history : ∃ es, run (NotificationWorker.Worker.step prefetch)
    (NotificationWorker.Worker.initial lists) es = some s.worker
  sent : ∀ queue m, s.worker.Sent queue m → ∃ message ∈ s.orders.store.messages,
    queue = message.routingKey ∧ m.order = some (readEvent message.event)

lemma noticed_initial (hids : ∀ id, OrderService.countRows rows id ≤ 1) :
    Noticed platform prefetch rows lists (initial platform rows lists) where
  backed := OrderService.backed_init hids
  accounted := .initial lists
  history := ⟨[], rfl⟩
  sent _ _ hm := absurd hm (Nat.lt_irrefl 0)

/-- A step of the worker keeps its accounts. -/
lemma Noticed.work (h : Noticed platform prefetch rows lists s) {label : NotificationWorker.Label}
    {worker : NotificationWorker.Worker} (hstep : s.worker.step prefetch label = some worker) :
    NotificationWorker.Worker.Accounted lists worker ∧
      ∃ es, run (NotificationWorker.Worker.step prefetch)
        (NotificationWorker.Worker.initial lists) es = some worker := by
  obtain ⟨es, hrun⟩ := h.history
  refine ⟨NotificationWorker.Worker.accounted_preserved lists _ _ _ h.accounted hstep,
    es ++ [label], ?_⟩
  rw [run_append hrun]
  exact run_cons_eq_some.mpr ⟨worker, hstep, rfl⟩

lemma noticed_step (hfit : ∀ row ∈ rows, row.stored = some row) {e : NoticeEvent}
    (h : Noticed platform prefetch rows lists s) (hstep : step platform prefetch s e = some s') :
    Noticed platform prefetch rows lists s' := by
  cases moved_of_step hstep with
  | arrived req => exact ⟨h.backed.arrive trivial, h.accounted, h.history, h.sent⟩
  | @executed i fault bound orders hexec hbound =>
    refine ⟨OrderService.backed_step hfit h.backed hexec, h.accounted, h.history, ?_⟩
    intro queue m hm
    obtain ⟨message, hmessage, hkey, horder⟩ := h.sent queue m hm
    have hkept : message ∈ orders.store.messages := by
      rcases messages_of_step hexec with hsame | ⟨new, hnew⟩
      · rw [hsame]
        exact hmessage
      · rw [hnew]
        exact List.mem_cons_of_mem _ hmessage
    exact ⟨message, hkept, hkey, horder⟩
  | @published i fault orders message worker hexec hmessages hhand =>
    obtain ⟨haccounted, hhistory⟩ := h.work hhand
    refine ⟨OrderService.backed_step hfit h.backed hexec, haccounted, hhistory, ?_⟩
    intro queue m hm
    show ∃ message' ∈ orders.store.messages, _
    rw [hmessages]
    rcases NotificationWorker.Worker.published_of_step hhand hm with hold | ⟨-, hnew⟩
    · obtain ⟨message', hmessage', hkey, horder⟩ := h.sent queue m hold
      exact ⟨message', List.mem_cons_of_mem _ hmessage', hkey, horder⟩
    · obtain ⟨hkey, horder⟩ := NotificationWorker.Label.publish.inj hnew
      exact ⟨message, List.mem_cons_self, hkey.symm, horder.symm⟩
  | @worked label worker hpublish hwork =>
    obtain ⟨haccounted, hhistory⟩ := h.work hwork
    refine ⟨h.backed, haccounted, hhistory, fun queue m hm => ?_⟩
    rcases NotificationWorker.Worker.published_of_step hwork hm with hold | ⟨-, hnew⟩
    · exact h.sent queue m hold
    · exact absurd hnew (hpublish _ _)

/-! ## Without refusals, and with all queues bound -/

lemma eventsCommitted_arrive {p : OrderService.OrderPool} (hsenders : OrderService.Senders p)
    (h : OrderService.EventsCommitted p) (req : OrderService.OrderRequest) :
    OrderService.EventsCommitted (p.arrive (OrderService.serve platform) req) := by
  intro m hm t ht hended
  rcases Pool.thread_of_arrive ht with ht | ⟨hnumber, -⟩
  · exact h m hm t ht hended
  · -- what has just arrived has sent nothing
    obtain ⟨u, hu, -⟩ := hsenders.messages m hm
    have hlt := (List.getElem?_eq_some_iff.mp hu).1
    omega

lemma eventsCommitted_step {e : NoticeEvent} (h : Noticed platform prefetch rows lists s)
    (hcommitted : OrderService.EventsCommitted s.orders) (hunrefused : Unrefused s e)
    (hstep : step platform prefetch s e = some s') : OrderService.EventsCommitted s'.orders := by
  have hstages := h.backed.kept.stages
  cases moved_of_step hstep with
  | arrived req => exact eventsCommitted_arrive h.backed.senders hcommitted req
  | executed hexec hbound =>
    exact (OrderService.eventsCommitted_step_iff hstages h.backed.senders hcommitted hexec).mpr
      hunrefused
  | published hexec hmessages hhand =>
    exact (OrderService.eventsCommitted_step_iff hstages h.backed.senders hcommitted hexec).mpr
      hunrefused
  | worked hpublish hwork => exact hcommitted

/-- Every event is in the queue of its key, or has been there. -/
def AllHanded (s : NoticeSystem) : Prop :=
  ∀ message ∈ s.orders.store.messages, ∃ n,
    s.worker.Sent message.routingKey ⟨n, some (readEvent message.event)⟩

lemma sent_of_hand {message : OrderService.Message} {worker : NotificationWorker.Worker}
    (h : hand prefetch s.worker message = some worker) :
    worker.Sent message.routingKey
      ⟨s.worker.published, some (readEvent message.event)⟩ := by
  simp only [hand, NotificationWorker.Worker.step] at h
  split at h
  · obtain rfl := Option.some.inj h
    show 0 < (s.worker.broker.enqueue _ _).copies _ _
    rw [Messaging.Broker.copies_enqueue, if_pos ⟨rfl, decide_eq_true rfl⟩]
    exact Nat.succ_pos _
  · exact absurd h (by simp)

lemma allHanded_step {e : NoticeEvent} (h : AllHanded s) (hbound : Bound e)
    (hstep : step platform prefetch s e = some s') : AllHanded s' := by
  cases moved_of_step hstep with
  | arrived req => exact h
  | @executed i fault bound orders hexec hsame =>
    intro message hmessage
    have hmessages : orders.store.messages = s.orders.store.messages := hsame hbound
    exact h message (hmessages ▸ hmessage)
  | @published i fault orders message worker hexec hmessages hhand =>
    intro message' hmessage'
    have hmem : message' ∈ message :: s.orders.store.messages := hmessages ▸ hmessage'
    rcases List.mem_cons.mp hmem with rfl | hold
    · exact ⟨_, sent_of_hand hhand⟩
    · obtain ⟨n, hn⟩ := h message' hold
      exact ⟨n, hn.of_step hhand⟩
  | @worked label worker hpublish hwork =>
    intro message hmessage
    obtain ⟨n, hn⟩ := h message hmessage
    exact ⟨n, hn.of_step hwork⟩

/-! ## Runs -/

/-- **From orders to notifications.** In every run of the two services:

* a record in a list of Redis was there at the start, or an event that a transaction has published
  is what it tells of, in the list of the user of the event; and if this transaction has
  committed, the order of the event is in the database, under what its column keeps of this user;
* a transaction that has published and ended has committed, if the database never refuses one
  that has published;
* if the worker's queues are bound, every event comes to its queue, and when `processMessage` has
  resolved for it, all channels of the queue have a record in the list of the user. -/
theorem notifications_of_orders (platform : OrderService.Platform) (prefetch : ℕ)
    (rows : List OrderService.Order) (lists : String → List NotificationWorker.Notification)
    (es : List NoticeEvent) (s : NoticeSystem) (hfit : ∀ row ∈ rows, row.stored = some row)
    (hids : ∀ id, OrderService.countRows rows id ≤ 1)
    (hrun : run (step platform prefetch) (initial platform rows lists) es = some s) :
    (∀ key, ∀ r ∈ s.worker.redis.lists key, r ∈ lists key ∨
      ∃ message ∈ s.orders.store.messages,
        key = NotificationWorker.notificationsKey
          (NotificationWorker.userIdOf (readEvent message.event)) ∧
        NotificationWorker.Worker.RecordOf message.routingKey (readEvent message.event) r ∧
        (message.transaction ∈ s.orders.store.committed →
          OrderService.HasOrder s.orders.store.rows message.event.orderId
            message.event.userId)) ∧
    (StepsMeet (step platform prefetch) Unrefused (initial platform rows lists) es →
      OrderService.EventsCommitted s.orders) ∧
    ((∀ e ∈ es, Bound e) → ∀ message ∈ s.orders.store.messages, ∃ n,
      s.worker.Sent message.routingKey ⟨n, some (readEvent message.event)⟩ ∧
        (n ∈ s.worker.completed →
          s.worker.AllRecorded message.routingKey (readEvent message.event))) := by
  have hstart : Noticed platform prefetch rows lists (initial platform rows lists) :=
    noticed_initial hids
  have hnoticed : Noticed platform prefetch rows lists s :=
    run_invariant (fun _ _ _ h hstep => noticed_step hfit h hstep) hstart hrun
  refine ⟨fun key r hr => ?_, fun hunrefused => ?_, fun hbound message hmessage => ?_⟩
  · refine (hnoticed.accounted.listed key r hr).imp_right fun hreceived => ?_
    obtain ⟨queue, m, order, hm, horder, hkey, hrecord⟩ :=
      hnoticed.accounted.received _ hreceived
    obtain ⟨message, hmessage, rfl, hread⟩ := hnoticed.sent queue m hm
    obtain rfl := Option.some.inj (horder.symm.trans hread)
    exact ⟨message, hmessage, hkey, hrecord, hnoticed.backed.stored message hmessage⟩
  · refine (run_invariant_of_stepsMeet (P := fun s => Noticed platform prefetch rows lists s ∧
      OrderService.EventsCommitted s.orders) (fun _ _ _ h he hstep => ?_) ⟨hstart, ?_⟩ hunrefused
        hrun).2
    · exact ⟨noticed_step hfit h.1 hstep, eventsCommitted_step h.1 h.2 he hstep⟩
    · exact fun m hm => absurd hm List.not_mem_nil
  · have hhanded : AllHanded s := by
      refine run_invariant_of_stepsMeet (C := fun _ e => Bound e)
        (fun _ _ _ h he hstep => allHanded_step h he hstep) ?_ (stepsMeet_of_forall hbound _) hrun
      exact fun message hmessage => absurd hmessage List.not_mem_nil
    obtain ⟨n, hsent⟩ := hhanded message hmessage
    refine ⟨n, hsent, fun hcompleted => ?_⟩
    obtain ⟨queue, m, order, hid, hm, horder, hall⟩ := hnoticed.accounted.completed n hcompleted
    obtain ⟨es', hhistory⟩ := hnoticed.history
    have hqueue := (NotificationWorker.Worker.published_of_initial hhistory hsent).1
    have hqueue' := (NotificationWorker.Worker.published_of_initial hhistory hm).1
    -- there is no other message with this number
    obtain ⟨rfl, rfl⟩ := hsent.unique hhistory hm hqueue hqueue' hid
    obtain rfl := Option.some.inj horder
    exact hall

end

/-- The event of an order is delivered as soon as it is published, and the transaction commits
after the worker has stored the notifications. -/
def penRun : List NoticeEvent :=
  let stamps : ℕ → NotificationWorker.Stamp := fun _ => ⟨"n1", "2024-01-01T00:00:00.000Z"⟩
  [.work .connect, .work .consume, .arrive (.create (OrderService.sampleRequest ⟨250, 2⟩) "o1"),
    .execute 0 .none true, .execute 0 .none true,
    .work (.deliver 0 "order.created" 0 stamps)] ++
  List.replicate 6 (.work (.redis 0 .none)) ++ [.work (.settle 0 false), .execute 0 .none true]

theorem notifications_of_orders_pen :
    ∃ s, run (step ⟨true, id⟩ 10) (initial ⟨true, id⟩ [] fun _ => []) penRun = some s ∧
      (s.worker.redis.lists "notifications:u1").length = 3 ∧
      (∀ r ∈ s.worker.redis.lists "notifications:u1", ∃ message ∈ s.orders.store.messages,
        NotificationWorker.Worker.RecordOf message.routingKey (readEvent message.event) r) ∧
      OrderService.EventsCommitted s.orders := by
  have hsome : (run (step ⟨true, id⟩ 10) (initial ⟨true, id⟩ [] fun _ => []) penRun).isSome := by
    decide
  have hlength : ((final (step ⟨true, id⟩ 10) (initial ⟨true, id⟩ [] fun _ => []) penRun
      hsome).worker.redis.lists "notifications:u1").length = 3 := by
    decide +revert
  obtain ⟨hlisted, hcommitted, -⟩ := notifications_of_orders ⟨true, id⟩ 10 [] (fun _ => []) penRun
    _ (by simp) (by simp [OrderService.countRows]) (run_final hsome)
  refine ⟨_, run_final hsome, hlength, fun r hr => ?_, hcommitted (by decide)⟩
  rcases hlisted _ r hr with hstart | ⟨message, hmessage, -, hrecord, -⟩
  · exact absurd hstart List.not_mem_nil
  · exact ⟨message, hmessage, hrecord⟩

end NoticeSystem

end DevopsEcommerce.OrderMessaging
