import DevopsEcommerce.OrderMessaging.System

/-!
# Where the events go

The two services agree on the exchange and the keys, but not on the queues: each binds queues
of its own. `events_accounted` counts the copies of every event over all runs: one stays in
the queue of the order service, which nobody consumes, and a second one reaches the workers
if their binding was there before the event.
-/

open Interleaving Messaging

namespace DevopsEcommerce.OrderMessaging
namespace System

/-! ## What a step can be -/

/-- What a step can be; the checks that no invariant needs are left out. -/
inductive Stepped (s : System) : Label → System → Prop
  | producerConnects (i : ℕ) :
      Stepped s (.producerConnects i)
        { s with producers := s.producers.set i (some OrderService.declarations) }
  | producerDeclares (i : ℕ) {d : Declaration} {rest : List Declaration}
      (hi : s.producers[i]? = some (some (d :: rest))) :
      Stepped s (.producerDeclares i)
        { s with topology := s.topology.declare d, producers := s.producers.set i (some rest) }
  | publish (i : ℕ) {key : String} (hi : s.producers[i]? = some (some []))
      (hkey : key ∈ routingKeys) : Stepped s (.publish i key) (s.publish key)
  | consumerConnects (i : ℕ) :
      Stepped s (.consumerConnects i)
        { s with
          broker := s.broker.openChannel
          consumers := s.consumers.set i
            (some (s.broker.channels.length, NotificationWorker.declarations)) }
  | consumerDeclares (i : ℕ) {c : ℕ} {d : Declaration} {rest : List Declaration}
      (hi : s.consumers[i]? = some (some (c, d :: rest))) :
      Stepped s (.consumerDeclares i)
        { s with
          topology := s.topology.declare d, consumers := s.consumers.set i (some (c, rest)) }
  | consumerCloses (i c : ℕ) :
      Stepped s (.consumerCloses i)
        { s with broker := s.broker.closeChannel c, consumers := s.consumers.set i none }
  | deliver (i j : ℕ) {c : ℕ} {queue : String} {b : Broker String ℕ} {d : Delivery String ℕ}
      (hqueue : queue ∈ NotificationWorker.queues)
      (hdeliver : s.broker.deliver c queue j = some (b, d)) :
      Stepped s (.deliver i queue j) { s with broker := b }
  | acks (i c tag : ℕ) : Stepped s (.settle i tag true) { s with broker := s.broker.ack c tag }
  | nacks (i c tag : ℕ) :
      Stepped s (.settle i tag false) { s with broker := s.broker.nack c tag }

lemma stepped_of_step {s s' : System} {e : Label} (h : s.step e = some s') : Stepped s e s' := by
  cases e with
  | producerConnects i =>
    simp only [step, Option.ite_none_right_eq_some, Option.some.injEq] at h
    obtain ⟨-, rfl⟩ := h
    exact .producerConnects i
  | producerDeclares i =>
    simp only [step] at h
    split at h
    · rename_i hi
      obtain rfl := Option.some.inj h
      exact .producerDeclares i hi
    · cases h
  | publish i key =>
    simp only [step] at h
    split at h
    · rename_i hi
      rw [Option.ite_none_right_eq_some, Option.some.injEq] at h
      obtain ⟨hkey, rfl⟩ := h
      exact .publish i hi hkey
    · cases h
  | consumerConnects i =>
    simp only [step] at h
    split at h
    · obtain rfl := Option.some.inj h
      exact .consumerConnects i
    · cases h
  | consumerDeclares i =>
    simp only [step] at h
    split at h
    · rename_i hi
      obtain rfl := Option.some.inj h
      exact .consumerDeclares i hi
    · cases h
  | consumerCloses i =>
    simp only [step] at h
    split at h
    · obtain rfl := Option.some.inj h
      exact .consumerCloses i _
    · cases h
  | deliver i queue j =>
    simp only [step] at h
    split at h
    · rw [Option.ite_none_right_eq_some, Option.map_eq_some_iff] at h
      obtain ⟨hqueue, ⟨b, d⟩, hdeliver, rfl⟩ := h
      exact .deliver i j hqueue hdeliver
    · cases h
  | settle i tag acks =>
    simp only [step] at h
    split at h
    · obtain rfl := Option.some.inj h
      cases acks with
      | true => exact .acks i _ tag
      | false => exact .nacks i _ tag
    · cases h

/-! ## Declarations -/

/-- What is declared, and what the connected clients have still to declare. -/
structure Declares (s : System) : Prop where
  declared : ∀ d, s.topology.Declared d →
    d ∈ OrderService.declarations ∨ d ∈ NotificationWorker.declarations
  producer_todo : ∀ todo, some todo ∈ s.producers → ∀ d ∈ OrderService.declarations,
    d ∈ todo ∨ s.topology.Declared d
  producer_known : ∀ todo, some todo ∈ s.producers → ∀ d ∈ todo, d ∈ OrderService.declarations
  consumer_known : ∀ c todo, some (c, todo) ∈ s.consumers → ∀ d ∈ todo,
    d ∈ NotificationWorker.declarations

lemma Declares.initial (producers consumers : ℕ) : Declares (initial producers consumers) where
  declared d hd := by cases d <;> exact absurd hd List.not_mem_nil
  producer_todo todo h := by cases List.eq_of_mem_replicate h
  producer_known todo h := by cases List.eq_of_mem_replicate h
  consumer_known c todo h := by cases List.eq_of_mem_replicate h

/-- A declared thing stays declared. -/
lemma Declares.declare {s s' : System} {d : Declaration} (hs : Declares s)
    (hd : d ∈ OrderService.declarations ∨ d ∈ NotificationWorker.declarations)
    (htopology : s'.topology = s.topology.declare d)
    (hproducers : ∀ todo, some todo ∈ s'.producers → some todo ∈ s.producers ∨
      some (d :: todo) ∈ s.producers)
    (hconsumers : ∀ c todo, some (c, todo) ∈ s'.consumers → some (c, todo) ∈ s.consumers ∨
      some (c, d :: todo) ∈ s.consumers) : Declares s' := by
  constructor
  · intro d' hd'
    rw [htopology, Topology.declared_declare_iff] at hd'
    rcases hd' with hd' | rfl
    · exact hs.declared d' hd'
    · exact hd
  · intro todo htodo d' hd'
    rw [htopology, Topology.declared_declare_iff]
    -- either this producer did not move, or it has just declared the head of its list
    rcases hproducers todo htodo with h | h
    · exact (hs.producer_todo todo h d' hd').imp_right .inl
    · rcases hs.producer_todo _ h d' hd' with h | h
      · rcases List.mem_cons.mp h with rfl | h
        · exact .inr (.inr rfl)
        · exact .inl h
      · exact .inr (.inl h)
  · intro todo htodo d' hd'
    rcases hproducers todo htodo with h | h
    · exact hs.producer_known todo h d' hd'
    · exact hs.producer_known _ h d' (List.mem_cons_of_mem _ hd')
  · intro c todo htodo d' hd'
    rcases hconsumers c todo htodo with h | h
    · exact hs.consumer_known c todo h d' hd'
    · exact hs.consumer_known c _ h d' (List.mem_cons_of_mem _ hd')

/-- Clients may come and go. -/
lemma Declares.of_clients {s s' : System} (hs : Declares s) (htopology : s'.topology = s.topology)
    (hproducers : ∀ todo, some todo ∈ s'.producers → some todo ∈ s.producers ∨
      todo = OrderService.declarations)
    (hconsumers : ∀ c todo, some (c, todo) ∈ s'.consumers → some (c, todo) ∈ s.consumers ∨
      todo = NotificationWorker.declarations) : Declares s' := by
  constructor
  · rw [htopology]
    exact hs.declared
  · intro todo htodo d hd
    rw [htopology]
    rcases hproducers todo htodo with h | rfl
    · exact hs.producer_todo todo h d hd
    · exact .inl hd
  · intro todo htodo d hd
    rcases hproducers todo htodo with h | rfl
    · exact hs.producer_known todo h d hd
    · exact hd
  · intro c todo htodo d hd
    rcases hconsumers c todo htodo with h | rfl
    · exact hs.consumer_known c todo h d hd
    · exact hd

theorem declares_preserved : Preserved step Declares := by
  intro s e s' hs h
  -- most steps change neither the topology nor what the clients have to declare
  have hkept : ∀ {s' : System}, s'.topology = s.topology → s'.producers = s.producers →
      s'.consumers = s.consumers → Declares s' := by
    intro s' htopology hproducers hconsumers
    apply hs.of_clients htopology
    · intro todo htodo
      exact .inl (hproducers ▸ htodo)
    · intro c todo htodo
      exact .inl (hconsumers ▸ htodo)
  cases stepped_of_step h with
  | producerConnects i =>
    refine hs.of_clients rfl ?_ ?_
    · intro todo htodo
      rcases List.mem_or_eq_of_mem_set htodo with h | h
      · exact .inl h
      · exact .inr (Option.some.inj h)
    · exact fun _ _ h => .inl h
  | producerDeclares i hi =>
    have hmem := List.mem_of_getElem? hi
    apply hs.declare (.inl (hs.producer_known _ hmem _ List.mem_cons_self)) rfl
    · intro todo htodo
      rcases List.mem_or_eq_of_mem_set htodo with h | h
      · exact .inl h
      · rw [Option.some.inj h]
        exact .inr hmem
    · exact fun _ _ h => .inl h
  | consumerConnects i =>
    refine hs.of_clients rfl ?_ ?_
    · exact fun _ h => .inl h
    · intro c todo htodo
      rcases List.mem_or_eq_of_mem_set htodo with h | h
      · exact .inl h
      · exact .inr (Prod.mk.inj (Option.some.inj h)).2
  | consumerDeclares i hi =>
    have hmem := List.mem_of_getElem? hi
    apply hs.declare (.inr (hs.consumer_known _ _ hmem _ List.mem_cons_self)) rfl
    · exact fun _ h => .inl h
    · intro c todo htodo
      rcases List.mem_or_eq_of_mem_set htodo with h | h
      · exact .inl h
      · obtain ⟨rfl, rfl⟩ := Prod.mk.inj (Option.some.inj h)
        exact .inr hmem
  | consumerCloses i c =>
    refine hs.of_clients rfl ?_ ?_
    · exact fun _ h => .inl h
    · intro c todo htodo
      rcases List.mem_or_eq_of_mem_set htodo with h | h
      · exact .inl h
      · cases h
  | publish i hi hkey => exact hkept rfl rfl rfl
  | deliver i j hqueue hdeliver => exact hkept rfl rfl rfl
  | acks i c tag => exact hkept rfl rfl rfl
  | nacks i c tag => exact hkept rfl rfl rfl

/-! ## The route of an event -/

/-- The bindings of either service are plain, and bind the key to the queue of the order
service or, under the key's own name, to that of the workers. -/
lemma known_binding {b : Binding}
    (hb : .binding b ∈ OrderService.declarations ∨ .binding b ∈ NotificationWorker.declarations) :
    IsPlain b.key ∧ (b.queue = serviceQueue b.key ∨ b = consumerBinding b.key) := by
  have hall : ∀ b ∈ (OrderService.declarations ++ NotificationWorker.declarations).filterMap
      Declaration.binding?,
      IsPlain b.key ∧ (b.queue = serviceQueue b.key ∨ b = consumerBinding b.key) := by decide
  exact hall b (List.mem_filterMap.mpr ⟨.binding b, List.mem_append.mpr hb, rfl⟩)

lemma serviceQueue_declared {key : String} (hkey : key ∈ routingKeys) :
    .binding ⟨serviceQueue key, OrderService.exchangeName, key⟩ ∈ OrderService.declarations := by
  have hall : ∀ key ∈ routingKeys,
      Declaration.binding ⟨serviceQueue key, OrderService.exchangeName, key⟩ ∈
        OrderService.declarations := by decide
  exact hall key hkey

/-- An event is copied to the queue of the order service, and to that of the workers if it is
bound. -/
lemma mem_route_iff {s : System} (hs : Declares s) {i : ℕ} (hi : s.producers[i]? = some (some []))
    {key : String} (hkey : key ∈ routingKeys) (queue : String) :
    queue ∈ s.topology.route OrderService.exchangeName key ↔
      queue = serviceQueue key ∨ queue = key ∧ consumerBinding key ∈ s.topology.bindings := by
  have hplain : IsPlain key := by
    have hall : ∀ key ∈ routingKeys, IsPlain key := by decide
    exact hall key hkey
  -- no declared key has wildcards, so that only equal keys match
  rw [Topology.mem_route]
  constructor
  · rintro ⟨b, hb, -, hmatch, rfl⟩
    obtain ⟨hbplain, hqueue⟩ := known_binding (hs.declared _ hb)
    obtain rfl := (topicMatches_iff_of_plain hbplain key).mp hmatch
    rcases hqueue with hqueue | hqueue
    · exact .inl hqueue
    · right
      refine ⟨by rw [hqueue]; rfl, ?_⟩
      rw [← hqueue]
      exact hb
  · rintro (rfl | ⟨rfl, hbound⟩)
    · -- who publishes has nothing left to declare
      have hdeclared := hs.producer_todo [] (List.mem_of_getElem? hi) _ (serviceQueue_declared hkey)
      rcases hdeclared with h | hdeclared
      · cases h
      · exact ⟨_, hdeclared, rfl, (topicMatches_iff_of_plain hplain key).mpr rfl, rfl⟩
    · exact ⟨_, hbound, rfl, (topicMatches_iff_of_plain hplain queue).mpr rfl, rfl⟩

/-! ## Counting copies -/

/-- The step publishes nothing. -/
def Silent : Label → Prop
  | .publish _ _ => False
  | _ => True

/-- A step publishes an event, or it leaves the events and their copies as they are. -/
lemma step_copies {s s' : System} {e : Label} (h : s.step e = some s') :
    (∃ i key, e = .publish i key ∧ s.producers[i]? = some (some []) ∧ key ∈ routingKeys ∧
      s' = s.publish key) ∨
    (Silent e ∧ s'.published = s.published ∧
      ∀ queue n, s'.copiesOf queue n = s.copiesOf queue n) := by
  cases stepped_of_step h with
  | publish i hi hkey => exact .inl ⟨i, _, rfl, hi, hkey, rfl⟩
  | producerConnects i => exact .inr ⟨trivial, rfl, fun _ _ => rfl⟩
  | producerDeclares i hi => exact .inr ⟨trivial, rfl, fun _ _ => rfl⟩
  | consumerDeclares i hi => exact .inr ⟨trivial, rfl, fun _ _ => rfl⟩
  | consumerConnects i =>
    exact .inr ⟨trivial, rfl, fun queue n => Broker.copies_openChannel s.broker queue _⟩
  | consumerCloses i c =>
    exact .inr ⟨trivial, rfl, fun queue n => Broker.copies_closeChannel s.broker c queue _⟩
  | deliver i j hqueue hdeliver =>
    exact .inr ⟨trivial, rfl, fun queue n => Broker.copies_deliver hdeliver queue _⟩
  | acks i c tag =>
    exact .inr ⟨trivial, rfl, fun queue n => Broker.copies_ack s.broker c tag queue _⟩
  | nacks i c tag =>
    exact .inr ⟨trivial, rfl, fun queue n => Broker.copies_nack s.broker c tag queue _⟩

/-- The copies that an event should have, by what was bound when it was published. -/
def copiesAtPublication (queue : String) : Option Publication → ℕ
  | some e => if queue = serviceQueue e.key ∨ queue = e.key ∧ e.bound then 1 else 0
  | none => 0

structure Accounted (s : System) : Prop where
  declares : Declares s
  keys : ∀ e ∈ s.published, e.key ∈ routingKeys
  copies : ∀ queue n, s.copiesOf queue n = copiesAtPublication queue s.published[n]?

lemma Accounted.initial (producers consumers : ℕ) : Accounted (initial producers consumers) where
  declares := .initial producers consumers
  keys _ he := absurd he List.not_mem_nil
  copies _ _ := rfl

theorem accounted_preserved : Preserved step Accounted := by
  intro s e s' hs h
  refine ⟨declares_preserved s e s' hs.declares h, ?_, ?_⟩
  · rcases step_copies h with ⟨i, key, -, -, hkey, rfl⟩ | ⟨-, hpublished, -⟩
    · intro e he
      rcases List.mem_append.mp he with he | he
      · exact hs.keys e he
      · rw [List.mem_singleton.mp he]
        exact hkey
    · rw [hpublished]
      exact hs.keys
  · rcases step_copies h with ⟨i, key, -, hi, hkey, rfl⟩ | ⟨-, hpublished, hcopies⟩
    · intro queue n
      have hpublish := Broker.copies_publish
        (s.topology.nodup_route OrderService.exchangeName key) s.broker queue s.published.length
        fun m => m = n
      have hroute := mem_route_iff hs.declares hi hkey queue
      have hbefore := hs.copies queue n
      unfold copiesOf at hbefore ⊢
      simp only [publish]
      rw [hpublish, hbefore, List.getElem?_append]
      simp only [decide_eq_true_eq, hroute]
      -- an older event, the new one, or one that does not exist yet
      rcases Nat.lt_trichotomy n s.published.length with hlt | rfl | hgt
      · simp [hlt, Nat.ne_of_gt hlt]
      · simp [copiesAtPublication]
      · have hnone : s.published[n]? = none := List.getElem?_eq_none (by omega)
        have hlast : [({ key := key, bound := consumerBinding key ∈ s.topology.bindings } :
            Publication)][n - s.published.length]? = none := by
          rw [List.getElem?_eq_none]
          simp only [List.length_singleton]
          omega
        rw [if_neg (by omega : ¬ n < s.published.length), hlast, hnone,
          if_neg (by omega : ¬ (_ ∧ s.published.length = n)), Nat.add_zero]
    · intro queue n
      rw [hcopies, hpublished]
      exact hs.copies queue n

/-- Nothing but messages from the queues of the workers is delivered or removed. -/
structure Consumed (b : Broker String ℕ) : Prop where
  unacked : ∀ (c : ℕ) (ch : Channel String ℕ), b.channels[c]? = some ch →
    ∀ d ∈ ch.unacked, d.queue ∈ NotificationWorker.queues
  removed : ∀ r ∈ b.removed, r.1 ∈ NotificationWorker.queues

lemma Consumed.of_holdsLess {b b' : Broker String ℕ} (hb : Consumed b) (hless : b.HoldsLess b')
    (hremoved : ∀ r ∈ b'.removed, r.1 ∈ NotificationWorker.queues) : Consumed b' := by
  refine ⟨fun c ch' hch' d hd => ?_, hremoved⟩
  obtain ⟨ch, hch, -, hunacked⟩ := hless.2 c ch' hch'
  exact hb.unacked c ch hch d (hunacked d hd)

lemma Consumed.ack {b : Broker String ℕ} (hb : Consumed b) (c tag : ℕ) :
    Consumed (b.ack c tag) := by
  refine hb.of_holdsLess (Broker.holdsLess_ack b c tag) fun r hr => ?_
  rw [Broker.ack_removed] at hr
  rcases List.mem_append.mp hr with hr | hr
  · cases hd : b.outstanding c tag with
    | none => simp [hd] at hr
    | some d =>
      obtain ⟨ch, hch, -, hfind⟩ := Broker.outstanding_eq_some hd
      obtain rfl : r = (d.queue, d.message) := by simpa [hd] using hr
      exact hb.unacked c ch hch d (List.mem_of_find?_eq_some hfind)
  · exact hb.removed r hr

lemma Consumed.nack {b : Broker String ℕ} (hb : Consumed b) (c tag : ℕ) :
    Consumed (b.nack c tag) :=
  hb.of_holdsLess (Broker.holdsLess_nack b c tag) (by rw [Broker.nack_removed]; exact hb.removed)

lemma Consumed.openChannel {b : Broker String ℕ} (hb : Consumed b) : Consumed b.openChannel := by
  refine ⟨fun c ch hch d hd => ?_, hb.removed⟩
  rw [Broker.openChannel, List.getElem?_append] at hch
  split at hch
  · exact hb.unacked c ch hch d hd
  · rw [List.getElem?_singleton] at hch
    split at hch
    · rw [← Option.some.inj hch] at hd
      cases hd
    · cases hch

lemma Consumed.deliver {b b' : Broker String ℕ} {c j : ℕ} {queue : String}
    {d : Delivery String ℕ} (hb : Consumed b) (hqueue : queue ∈ NotificationWorker.queues)
    (h : b.deliver c queue j = some (b', d)) : Consumed b' := by
  obtain ⟨ch₀, hch₀, -, -, hdqueue, -, hremoved, -, hchannels⟩ := Broker.deliver_eq_some h
  refine ⟨fun c' ch hch d' hd' => ?_, by rw [hremoved]; exact hb.removed⟩
  rw [hchannels] at hch
  rcases Interleaving.getElem?_set_eq_some hch with ⟨rfl, rfl⟩ | ⟨-, hold⟩
  · rcases List.mem_append.mp hd' with hd' | hd'
    · exact hb.unacked _ ch₀ hch₀ d' hd'
    · rw [List.mem_singleton.mp hd', hdqueue]
      exact hqueue
  · exact hb.unacked c' ch hold d' hd'

theorem consumed_preserved : Preserved step fun s => Consumed s.broker := by
  intro s e s' hs h
  cases stepped_of_step h with
  | producerConnects i => exact hs
  | producerDeclares i hi => exact hs
  | consumerDeclares i hi => exact hs
  | publish i hi hkey =>
    apply hs.of_holdsLess (.of_channels_eq (Broker.publish_channels _ _ _))
    rw [Broker.publish_removed]
    exact hs.removed
  | consumerConnects i => exact hs.openChannel
  | consumerCloses i c =>
    apply hs.of_holdsLess (Broker.holdsLess_closeChannel _ _)
    rw [Broker.closeChannel_removed]
    exact hs.removed
  | deliver i j hqueue hdeliver => exact hs.deliver hqueue hdeliver
  | acks i c tag => exact hs.ack c tag
  | nacks i c tag => exact hs.nack c tag

/-- All copies from a queue that is not consumed are still waiting. -/
lemma Consumed.waiting {b : Broker String ℕ} (hb : Consumed b) {queue : String}
    (hqueue : queue ∉ NotificationWorker.queues) (p : ℕ → Bool) :
    b.copies queue p = (b.ready queue).countP p := by
  have hheld : (b.channels.map (Broker.holds queue p)).sum = 0 := by
    apply List.sum_eq_zero
    intro k hk
    obtain ⟨ch, hch, rfl⟩ := List.mem_map.mp hk
    obtain ⟨c, hc⟩ := List.mem_iff_getElem?.mp hch
    refine List.countP_eq_zero.mpr fun d hd h => hqueue ?_
    rw [← (by simpa using h : d.queue = queue ∧ _).1]
    exact hb.unacked c ch hc d hd
  have hremoved : (b.removed.countP fun r => r.1 = queue && p r.2) = 0 := by
    refine List.countP_eq_zero.mpr fun r hr h => hqueue ?_
    rw [← (by simpa using h : r.1 = queue ∧ _).1]
    exact hb.removed r hr
  unfold Broker.copies
  omega

/-! ## The accounts of a run -/

lemma serviceQueue_not_consumed (key : String) : serviceQueue key ∉ NotificationWorker.queues := by
  unfold serviceQueue
  split_ifs <;> decide

/-- A publication leaves a copy where no worker looks for it. -/
lemma oneCopy_step_iff {s s' : System} {e : Label} (hs : Accounted s) (hP : s.OneCopy)
    (h : s.step e = some s') : s'.OneCopy ↔ Silent e := by
  rcases step_copies h with ⟨i, key, rfl, -, -, rfl⟩ | ⟨hsilent, hpublished, hcopies⟩
  · refine iff_of_false (fun hone => ?_) id
    have hs' := accounted_preserved _ _ _ hs h
    have hstranded := (hone s.published.length (by simp [publish])).2 (serviceQueue key)
      (serviceQueue_not_consumed key)
    rw [hs'.copies] at hstranded
    simp [publish, copiesAtPublication] at hstranded
  · refine iff_of_true ?_ hsilent
    unfold OneCopy
    simp only [hpublished, hcopies]
    exact hP

/-- **The accounts of the events.** In every run of the two services, each published event
has one copy in the queue that the order service has bound to its key; it waits there, and
will not be consumed. The workers' queue of the key has a second copy, waiting, delivered or
acknowledged, if it was bound when the event was published, and no other queue has any. So
the events have one copy each, on the workers' side, exactly as long as there are none. -/
theorem events_accounted {producers consumers : ℕ} {es : List Label} {t : System}
    (hrun : run step (initial producers consumers) es = some t) :
    (Throughout step OneCopy (initial producers consumers) es ↔
      StepsMeet step (fun _ e => Silent e) (initial producers consumers) es) ∧
    ∀ n e, t.published[n]? = some e →
      serviceQueue e.key ∉ NotificationWorker.queues ∧
      (t.broker.ready (serviceQueue e.key)).count n = 1 ∧
      ∀ queue, t.copiesOf queue n =
        if queue = serviceQueue e.key ∨ queue = e.key ∧ e.bound then 1 else 0 := by
  have hinitial := Accounted.initial producers consumers
  constructor
  · refine throughout_iff_stepsMeet (J := Accounted) (D := fun _ _ => True)
      accounted_preserved ?_ hinitial ?_ (stepsMeet_true _ _) hrun
    · intro s e s' hs hP _ h
      exact oneCopy_step_iff hs hP h
    · exact fun n hn => absurd hn (Nat.not_lt_zero n)
  · intro n e he
    have ht := run_invariant accounted_preserved hinitial hrun
    have hconsumed : Consumed t.broker := run_invariant consumed_preserved
      ⟨fun c ch hch => (by cases hch), fun r hr => absurd hr List.not_mem_nil⟩ hrun
    have hcopies : ∀ queue, t.copiesOf queue n =
        if queue = serviceQueue e.key ∨ queue = e.key ∧ e.bound then 1 else 0 := by
      intro queue
      rw [ht.copies, he]
      rfl
    refine ⟨serviceQueue_not_consumed e.key, ?_, hcopies⟩
    -- nobody consumes the queue of the service, so that its copies all wait
    have hwaiting := hconsumed.waiting (serviceQueue_not_consumed e.key) fun m => m = n
    have hone := hcopies (serviceQueue e.key)
    rw [if_pos (.inl rfl)] at hone
    unfold copiesOf at hone
    rw [hwaiting] at hone
    exact hone

/-- One replica of the order service comes up and publishes. -/
def firstEvent : List Label :=
  .producerConnects 0 :: List.replicate 7 (.producerDeclares 0) ++ [.publish 0 "order.created"]

theorem events_accounted_first :
    ∃ t, run step (initial 1 1) firstEvent = some t ∧
      t.copiesOf "order.created.queue" 0 = 1 ∧ t.copiesOf "order.created" 0 = 0 := by
  have hrun : run step (initial 1 1) firstEvent = some _ := run_final (by decide)
  have hcopies := ((events_accounted hrun).2 0 ⟨"order.created", false⟩ (by decide)).2.2
  refine ⟨_, hrun, ?_, ?_⟩
  · rw [hcopies]
    decide
  · rw [hcopies]
    decide

/-- The event waits in a queue that no worker consumes. -/
theorem event_stranded :
    ¬ ∀ (producers consumers : ℕ) (es : List Label) (t : System),
      run step (initial producers consumers) es = some t →
        Throughout step OneCopy (initial producers consumers) es := by
  intro hall
  have hrun : run step (initial 1 1) firstEvent = some _ := run_final (by decide)
  have hone := (hall 1 1 _ _ hrun).last hrun
  have hstranded := (hone 0 (by decide)).2 "order.created.queue" (by decide)
  exact absurd hstranded (by decide)

end System
end DevopsEcommerce.OrderMessaging
