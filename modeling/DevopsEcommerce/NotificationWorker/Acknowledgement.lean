import DevopsEcommerce.NotificationWorker.Consumer

/-!
# Acknowledgements and the messages they remove

A callback that has waited for `processMessage` acknowledges its own tag, but on the channel
that the module's variable holds by then. `removed_only_completed_iff` says what that costs:
the broker removes nothing but completed messages exactly as long as no acknowledgement on a
replacement channel meets, under its tag, a message that nobody has completed.

No message gets lost or doubled on the way: `one_copy` counts them over every run.
-/

open Interleaving Messaging

namespace DevopsEcommerce.NotificationWorker
namespace Worker

variable {prefetch : ℕ}

/-! ## What a step can be, and what it removes -/

/-- The delivery that the step acknowledges. -/
def acked (s : Worker) : Label → Option (Delivery String Message)
  | .settle i _ =>
    match s.handlers[i]?, s.channel with
    | some h, some c =>
      if h.program.answer? = some (.ok ()) then s.broker.outstanding c h.tag else none
    | _, _ => none
  | _ => none

lemma answer?_callback (queue : String) (message : Message) (stamps : ℕ → Stamp) :
    (callback queue message stamps).answer? ≠ some (.ok ()) := by
  unfold callback
  split
  · rename_i order _
    unfold processMessage
    cases hrecords : recordsFor queue order stamps with
    | nil =>
      have := map_channel_recordsFor queue order stamps
      rw [hrecords, List.map_nil] at this
      unfold getChannelsForQueue at this
      split at this <;> cases this
    | cons r rs => exact fun h => by cases h
  · exact fun h => by cases h

lemma mem_completed_resume {s : Worker} (i : ℕ) (h : Handler) (redis : RedisStore)
    (program : WorkerProgram) {m : ℕ} : m ∈ (s.resume i h redis program).completed ↔
      m ∈ s.completed ∨ m = h.message.id ∧ program.answer? = some (.ok ()) := by
  unfold resume
  cases program.answer? with
  | none => simp
  | some result =>
    cases result with
    | ok u => simp [or_comm]
    | error err => simp

lemma outstanding_of_closed {s : Worker} {c tag : ℕ} (h : s.isOpen c = false) :
    s.broker.outstanding c tag = none := by
  unfold isOpen at h
  unfold Broker.outstanding
  cases hch : s.broker.channels[c]? with
  | none => rfl
  | some ch =>
    rw [hch, Option.any_some] at h
    simp [h]

/-- What a step can be. A callback that settles acknowledges or rejects its message on the channel
that the variable holds, or the process starts again. -/
inductive Stepped (s : Worker) : Label → Worker → Prop
  | publish {queue : String} (order : Option OrderEvent) (hqueue : queue ∈ queues) :
      Stepped s (.publish queue order)
        { s with
          broker := s.broker.enqueue queue { id := s.published, order := order }
          published := s.published + 1 }
  | connect :
      Stepped s .connect
        { s with
          broker := s.broker.openChannel
          channel := some s.broker.channels.length
          starting := s.starting - 1
          settingUp := s.settingUp + 1 }
  | consume (c : ℕ) :
      Stepped s .consume { s with consuming := c :: s.consuming, settingUp := s.settingUp - 1 }
  | setupFails :
      Stepped s .setupFails { s with settingUp := s.settingUp - 1, starting := s.starting + 1 }
  | deliver {c j : ℕ} {queue : String} {b : Broker String Message}
      {d : Delivery String Message} (stamps : ℕ → Stamp)
      (hdeliver : s.broker.deliver c queue j = some (b, d)) :
      Stepped s (.deliver c queue j stamps)
        { s with
          broker := b
          handlers := s.handlers ++ [{
            message := d.message
            channel := c
            tag := d.tag
            program := callback queue d.message stamps }] }
  | redis {i : ℕ} {h : Handler} (fault : Fault) (redis : RedisStore) (program : WorkerProgram)
      (hi : s.handlers[i]? = some h) : Stepped s (.redis i fault) (s.resume i h redis program)
  | resends (i : ℕ) (redis : RedisStore) : Stepped s (.resend i) { s with redis := redis }
  | acks {i : ℕ} (h : Handler) (c : ℕ) (noticed : Bool)
      (hacked : s.acked (.settle i noticed) = s.broker.outstanding c h.tag) :
      Stepped s (.settle i noticed)
        { s with broker := s.broker.ack c h.tag, handlers := s.handlers.eraseIdx i }
  | nacks {i : ℕ} (h : Handler) (c : ℕ) (noticed : Bool)
      (hacked : s.acked (.settle i noticed) = none) :
      Stepped s (.settle i noticed)
        { s with broker := s.broker.nack c h.tag, handlers := s.handlers.eraseIdx i }
  | close (c : ℕ) :
      Stepped s (.close c)
        { s with
          broker := s.broker.closeChannel c
          starting := s.starting + s.consuming.count c
          consuming := s.consuming.filter fun c' => c' ≠ c }
  | restarts (e : Label) (hacked : s.acked e = none) : Stepped s e s.restarted

lemma stepped_of_settle {s : Worker} {i : ℕ} {h : Handler} {result : Except RedisError Unit}
    (hi : s.handlers[i]? = some h) (hresult : h.program.answer? = some result) (noticed : Bool) :
    Stepped s (.settle i noticed) (s.settle i h result noticed) := by
  have hacked : ∀ c, s.channel = some c → s.acked (.settle i noticed) =
      if result = .ok () then s.broker.outstanding c h.tag else none := by
    intro c hchannel
    simp only [acked, hi, hchannel, hresult, Option.some.injEq]
  unfold settle
  split
  · rename_i hchannel
    exact .restarts _ (by simp only [acked, hi, hchannel])
  · rename_i c hchannel
    have hown := hacked c hchannel
    split
    · -- the client knows that the channel is closed, and it holds nothing any more
      rename_i hclosed
      rw [Bool.and_eq_true, Bool.not_eq_true'] at hclosed
      rw [outstanding_of_closed hclosed.1, ite_self] at hown
      exact .restarts _ hown
    · cases result with
      | ok u => exact .acks h c noticed (hown.trans (if_pos rfl))
      | error err => exact .nacks h c noticed (hown.trans (if_neg (by simp)))

lemma stepped_of_step {s s' : Worker} {e : Label} (h : s.step prefetch e = some s') :
    Stepped s e s' := by
  cases e with
  | publish queue order =>
    simp only [step, Option.ite_none_right_eq_some, Option.some.injEq] at h
    obtain ⟨hqueue, rfl⟩ := h
    exact .publish order hqueue
  | connect =>
    simp only [step, Option.ite_none_left_eq_some, Option.some.injEq] at h
    obtain ⟨-, rfl⟩ := h
    exact .connect
  | consume =>
    simp only [step] at h
    split at h
    · cases h
    · simp only [Option.ite_none_left_eq_some, Option.some.injEq] at h
      obtain ⟨-, rfl⟩ := h
      exact .consume _
  | setupFails =>
    simp only [step, Option.ite_none_left_eq_some, Option.some.injEq] at h
    obtain ⟨-, rfl⟩ := h
    exact .setupFails
  | deliver c queue j stamps =>
    simp only [step, Option.ite_none_right_eq_some, Option.map_eq_some_iff] at h
    obtain ⟨-, ⟨b, d⟩, hdeliver, rfl⟩ := h
    exact .deliver stamps hdeliver
  | redis i fault =>
    simp only [step] at h
    split at h
    · cases h
    · rename_i hi
      split at h
      · cases h
      · obtain ⟨⟨store, r⟩, -, rfl⟩ := Option.map_eq_some_iff.mp h
        exact .redis fault store _ hi
  | resend i =>
    simp only [step] at h
    split at h
    · cases h
    · split at h
      · cases h
      · obtain rfl := Option.some.inj h
        exact .resends i _
  | settle i noticed =>
    simp only [step] at h
    split at h
    · cases h
    · rename_i hi
      obtain ⟨result, hresult, rfl⟩ := Option.map_eq_some_iff.mp h
      exact stepped_of_settle hi hresult noticed
  | close c =>
    obtain rfl := Option.some.inj h
    exact .close c
  | restart =>
    obtain rfl := Option.some.inj h
    exact .restarts _ rfl

/-- The acknowledgements are the only removals, and no step forgets a completed message. -/
lemma step_removed {s s' : Worker} {e : Label} (h : s.step prefetch e = some s') :
    s'.broker.removed =
        ((s.acked e).map fun d => (d.queue, d.message)).toList ++ s.broker.removed ∧
      (∀ m ∈ s.completed, m ∈ s'.completed) ∧
      ((s.acked e).isSome = true → s'.completed = s.completed) := by
  cases stepped_of_step h with
  | publish order hqueue => exact ⟨rfl, fun m hm => hm, fun h => by cases h⟩
  | connect => exact ⟨rfl, fun m hm => hm, fun h => by cases h⟩
  | consume c => exact ⟨rfl, fun m hm => hm, fun h => by cases h⟩
  | setupFails => exact ⟨rfl, fun m hm => hm, fun h => by cases h⟩
  | deliver stamps hdeliver =>
    obtain ⟨-, -, -, -, -, -, hremoved, -⟩ := Broker.deliver_eq_some hdeliver
    exact ⟨hremoved, fun m hm => hm, fun h => by cases h⟩
  | redis fault redis program hi =>
    exact ⟨rfl, fun m hm => (mem_completed_resume _ _ _ _).mpr (.inl hm), fun h => by cases h⟩
  | resends i redis => exact ⟨rfl, fun m hm => hm, fun h => by cases h⟩
  | acks hd c noticed hacked =>
    rw [hacked]
    exact ⟨Broker.ack_removed _ _ _, fun m hm => hm, fun _ => rfl⟩
  | nacks hd c noticed hacked =>
    rw [hacked]
    exact ⟨Broker.nack_removed _ _ _, fun m hm => hm, fun _ => rfl⟩
  | close c => exact ⟨Broker.closeChannel_removed _ _, fun m hm => hm, fun h => by cases h⟩
  | restarts e hacked =>
    rw [hacked]
    exact ⟨Broker.closeAll_removed _, fun m hm => hm, fun _ => rfl⟩

/-! ## Tags and the messages behind them -/

/-- What ties the callbacks to the channels. -/
structure TagsMatch (s : Worker) : Prop where
  unacked_tag_le : ∀ (c : ℕ) (ch : Channel String Message), s.broker.channels[c]? = some ch →
    ∀ d ∈ ch.unacked, d.tag ≤ ch.lastTag
  handler_tag_le : ∀ h ∈ s.handlers, ∃ ch, s.broker.channels[h.channel]? = some ch ∧
    h.tag ≤ ch.lastTag
  /-- On its own channel, the tag of a callback can only stand for its message. -/
  handler_message : ∀ h ∈ s.handlers, ∀ (ch : Channel String Message),
    s.broker.channels[h.channel]? = some ch → ∀ d ∈ ch.unacked, d.tag = h.tag →
      d.message = h.message
  completed : ∀ h ∈ s.handlers, h.program.answer? = some (.ok ()) → h.message.id ∈ s.completed

lemma TagsMatch.initial (lists : String → List Notification) : TagsMatch (initial lists) where
  unacked_tag_le c ch hch := by cases hch
  handler_tag_le h hh := absurd hh List.not_mem_nil
  handler_message h hh := absurd hh List.not_mem_nil
  completed h hh := absurd hh List.not_mem_nil

/-- Channels may let go of messages, and callbacks may end. -/
lemma TagsMatch.of_holdsLess {s s' : Worker} (hs : TagsMatch s)
    (hbroker : s.broker.HoldsLess s'.broker) (hhandlers : ∀ h ∈ s'.handlers, h ∈ s.handlers)
    (hcompleted : ∀ m ∈ s.completed, m ∈ s'.completed) : TagsMatch s' := by
  constructor
  · intro c ch' hch' d hd
    obtain ⟨ch, hch, htag, hunacked⟩ := hbroker.2 c ch' hch'
    rw [htag]
    exact hs.unacked_tag_le c ch hch d (hunacked d hd)
  · intro h hh
    obtain ⟨ch, hch, hle⟩ := hs.handler_tag_le h (hhandlers h hh)
    obtain ⟨hlt, -⟩ := List.getElem?_eq_some_iff.mp hch
    rw [← hbroker.1] at hlt
    obtain ⟨ch₀, hch₀, htag, -⟩ := hbroker.2 h.channel _ (List.getElem?_eq_getElem hlt)
    rw [hch, Option.some.injEq] at hch₀
    exact ⟨_, List.getElem?_eq_getElem hlt, by rw [htag, ← hch₀]; exact hle⟩
  · intro h hh ch' hch' d hd
    obtain ⟨ch, hch, -, hunacked⟩ := hbroker.2 h.channel ch' hch'
    exact hs.handler_message h (hhandlers h hh) ch hch d (hunacked d hd)
  · exact fun h hh hok => hcompleted _ (hs.completed h (hhandlers h hh) hok)

/-- A new channel has given out no tags. -/
lemma TagsMatch.openChannel {s s' : Worker} (hs : TagsMatch s)
    (hbroker : s'.broker = s.broker.openChannel) (hhandlers : s'.handlers = s.handlers)
    (hcompleted : s'.completed = s.completed) : TagsMatch s' := by
  -- a channel is an old one, or the new one, which has nothing outstanding
  have hold : ∀ (c : ℕ) (ch : Channel String Message), s'.broker.channels[c]? = some ch →
      s.broker.channels[c]? = some ch ∨ ch.unacked = [] := by
    intro c ch hch
    rw [hbroker, Broker.openChannel] at hch
    rw [List.getElem?_append] at hch
    split at hch
    · exact .inl hch
    · right
      rw [List.getElem?_singleton] at hch
      split at hch
      · rw [← Option.some.inj hch]
      · cases hch
  constructor
  · intro c ch hch d hd
    rcases hold c ch hch with h | h
    · exact hs.unacked_tag_le c ch h d hd
    · rw [h] at hd
      cases hd
  · intro h hh
    obtain ⟨ch, hch, hle⟩ := hs.handler_tag_le h (hhandlers ▸ hh)
    refine ⟨ch, ?_, hle⟩
    rw [hbroker, Broker.openChannel, List.getElem?_append_left]
    · exact hch
    · exact (List.getElem?_eq_some_iff.mp hch).1
  · intro h hh ch hch d hd htag
    rcases hold h.channel ch hch with hch | hnone
    · exact hs.handler_message h (hhandlers ▸ hh) ch hch d hd htag
    · rw [hnone] at hd
      cases hd
  · rw [hhandlers, hcompleted]
    exact hs.completed

/-- A delivery gets a tag that no older delivery and no older callback has. -/
lemma TagsMatch.deliver {s s' : Worker} {c j : ℕ} {queue : String} {b : Broker String Message}
    {d : Delivery String Message} {program : WorkerProgram} (hs : TagsMatch s)
    (hdeliver : s.broker.deliver c queue j = some (b, d)) (hbroker : s'.broker = b)
    (hhandlers : s'.handlers = s.handlers ++ [⟨d.message, c, d.tag, program⟩])
    (hprogram : program.answer? ≠ some (.ok ())) (hcompleted : s'.completed = s.completed) :
    TagsMatch s' := by
  obtain ⟨ch₀, hch₀, -, -, -, htag₀, -, -, hchannels⟩ := Broker.deliver_eq_some hdeliver
  rw [← hbroker] at hchannels
  have hnew := Interleaving.getElem?_set_moved hch₀
    { ch₀ with lastTag := ch₀.lastTag + 1, unacked := ch₀.unacked ++ [d] }
  constructor
  · intro c' ch hch d' hd'
    rw [hchannels] at hch
    rcases Interleaving.getElem?_set_eq_some hch with ⟨rfl, rfl⟩ | ⟨-, hold⟩
    · rcases List.mem_append.mp hd' with hd' | hd'
      · exact Nat.le_succ_of_le (hs.unacked_tag_le _ _ hch₀ d' hd')
      · rw [List.mem_singleton.mp hd']
        exact Nat.le_of_eq htag₀
    · exact hs.unacked_tag_le c' ch hold d' hd'
  · intro h hh
    rw [hhandlers] at hh
    rw [hchannels]
    rcases List.mem_append.mp hh with hh | hh
    · obtain ⟨ch, hch, hle⟩ := hs.handler_tag_le h hh
      by_cases hc : h.channel = c
      · rw [hc, hch₀, Option.some.injEq] at hch
        subst hch
        rw [hc]
        exact ⟨_, hnew, Nat.le_succ_of_le hle⟩
      · exact ⟨ch, by rw [List.getElem?_set_ne (Ne.symm hc)]; exact hch, hle⟩
    · rw [List.mem_singleton.mp hh]
      exact ⟨_, hnew, Nat.le_of_eq htag₀⟩
  · intro h hh ch hch d' hd' htag
    rw [hhandlers] at hh
    rw [hchannels] at hch
    rcases List.mem_append.mp hh with hh | hh
    · rcases Interleaving.getElem?_set_eq_some hch with ⟨hc, rfl⟩ | ⟨-, hold⟩
      · rw [← hc] at hch₀
        rcases List.mem_append.mp hd' with hd' | hd'
        · exact hs.handler_message h hh ch₀ hch₀ d' hd' htag
        · -- the callback is older than the tag
          obtain ⟨ch, hch, hle⟩ := hs.handler_tag_le h hh
          rw [hch₀, Option.some.injEq] at hch
          rw [List.mem_singleton.mp hd', htag₀] at htag
          rw [← hch] at hle
          omega
      · exact hs.handler_message h hh ch hold d' hd' htag
    · obtain rfl := List.mem_singleton.mp hh
      rw [hnew, Option.some.injEq] at hch
      subst hch
      rcases List.mem_append.mp hd' with hd' | hd'
      · -- the delivery is older than the tag
        have hle := hs.unacked_tag_le c ch₀ hch₀ d' hd'
        have hlt : d'.tag = ch₀.lastTag + 1 := htag.trans htag₀
        omega
      · rw [List.mem_singleton.mp hd']
  · intro h hh hok
    rw [hhandlers] at hh
    rw [hcompleted]
    rcases List.mem_append.mp hh with hh | hh
    · exact hs.completed h hh hok
    · rw [List.mem_singleton.mp hh] at hok
      exact absurd hok hprogram

/-- A callback that goes on keeps its message and its tag. -/
lemma TagsMatch.resume {s : Worker} {i : ℕ} {h : Handler} (hs : TagsMatch s)
    (hi : s.handlers[i]? = some h) (redis : RedisStore) (program : WorkerProgram) :
    TagsMatch (s.resume i h redis program) := by
  have hmem := List.mem_of_getElem? hi
  constructor
  · exact hs.unacked_tag_le
  · exact forall_mem_set i hs.handler_tag_le (hs.handler_tag_le h hmem)
  · exact forall_mem_set i hs.handler_message (hs.handler_message h hmem)
  · apply forall_mem_set
    · intro h' hh' hok
      exact (mem_completed_resume _ _ _ _).mpr (.inl (hs.completed h' hh' hok))
    · intro hok
      exact (mem_completed_resume _ _ _ _).mpr (.inr ⟨rfl, hok⟩)

lemma TagsMatch.restarted {s : Worker} (hs : TagsMatch s) : TagsMatch s.restarted :=
  hs.of_holdsLess (Broker.holdsLess_closeAll _) (fun _ hh => absurd hh List.not_mem_nil)
    fun _ hm => hm

theorem tagsMatch_preserved : Preserved (step prefetch) TagsMatch := by
  intro s e s' hs h
  have hsame : s.broker.HoldsLess s.broker := .of_channels_eq rfl
  have herased : ∀ i, ∀ h ∈ s.handlers.eraseIdx i, h ∈ s.handlers :=
    fun _ _ hh => List.mem_of_mem_eraseIdx hh
  cases stepped_of_step h with
  | publish order hqueue =>
    exact hs.of_holdsLess (.of_channels_eq rfl) (fun _ hh => hh) fun _ hm => hm
  | connect => exact hs.openChannel rfl rfl rfl
  | consume c => exact hs.of_holdsLess hsame (fun _ hh => hh) fun _ hm => hm
  | setupFails => exact hs.of_holdsLess hsame (fun _ hh => hh) fun _ hm => hm
  | deliver stamps hdeliver => exact hs.deliver hdeliver rfl rfl (answer?_callback _ _ _) rfl
  | redis fault redis program hi => exact hs.resume hi redis program
  | resends i redis => exact hs.of_holdsLess hsame (fun _ hh => hh) fun _ hm => hm
  | acks hd c noticed hacked =>
    exact hs.of_holdsLess (Broker.holdsLess_ack _ _ _) (herased _) fun _ hm => hm
  | nacks hd c noticed hacked =>
    exact hs.of_holdsLess (Broker.holdsLess_nack _ _ _) (herased _) fun _ hm => hm
  | close c =>
    exact hs.of_holdsLess (Broker.holdsLess_closeChannel _ _) (fun _ hh => hh) fun _ hm => hm
  | restarts e hacked => exact hs.restarted

/-! ## Messages are neither lost nor doubled -/

/-- The copies of message `n` that came from a queue. -/
def copiesOf (s : Worker) (queue : String) (n : ℕ) : ℕ :=
  s.broker.copies queue fun m => m.id = n

/-- Only a publication changes the number of copies. -/
lemma step_copies {s s' : Worker} {e : Label} (h : s.step prefetch e = some s') (n : ℕ) :
    (s'.published = s.published ∧ ∀ queue, s'.copiesOf queue n = s.copiesOf queue n) ∨
      ∃ queue' ∈ queues, s'.published = s.published + 1 ∧ ∀ queue, s'.copiesOf queue n =
        s.copiesOf queue n + if queue' = queue ∧ s.published = n then 1 else 0 := by
  cases stepped_of_step h with
  | publish order hqueue =>
    refine .inr ⟨_, hqueue, rfl, fun queue => ?_⟩
    unfold copiesOf
    simp only [Broker.copies_enqueue, decide_eq_true_eq]
  | connect => exact .inl ⟨rfl, fun queue => Broker.copies_openChannel s.broker queue _⟩
  | consume c => exact .inl ⟨rfl, fun _ => rfl⟩
  | setupFails => exact .inl ⟨rfl, fun _ => rfl⟩
  | deliver stamps hdeliver => exact .inl ⟨rfl, fun queue => Broker.copies_deliver hdeliver queue _⟩
  | redis fault redis program hi => exact .inl ⟨rfl, fun _ => rfl⟩
  | resends i redis => exact .inl ⟨rfl, fun _ => rfl⟩
  | acks hd c noticed hacked =>
    exact .inl ⟨rfl, fun queue => Broker.copies_ack s.broker _ _ queue _⟩
  | nacks hd c noticed hacked =>
    exact .inl ⟨rfl, fun queue => Broker.copies_nack s.broker _ _ queue _⟩
  | close c => exact .inl ⟨rfl, fun queue => Broker.copies_closeChannel s.broker c queue _⟩
  | restarts e hacked => exact .inl ⟨rfl, fun queue => Broker.copies_closeAll s.broker queue _⟩

/-- Each published message has one copy: it waits in its queue, is held by a channel, or has
been removed. -/
theorem one_copy {lists : String → List Notification} {es : List Label} {t : Worker}
    (hrun : run (step prefetch) (initial lists) es = some t) (n : ℕ) :
    (queues.map fun queue => t.copiesOf queue n).sum = if n < t.published then 1 else 0 := by
  refine run_invariant (P := fun s =>
    (queues.map fun queue => s.copiesOf queue n).sum = if n < s.published then 1 else 0)
    ?_ rfl hrun
  intro s e s' hs h
  rcases step_copies h n with ⟨hpublished, hcopies⟩ | ⟨queue', hqueue', hpublished, hcopies⟩
  · simp only [hpublished, hcopies]
    exact hs
  · have hone : (queues.map fun queue => if queue' = queue ∧ s.published = n then 1 else 0).sum =
        if s.published = n then 1 else 0 := by
      simp only [queues, List.mem_cons, List.not_mem_nil, or_false] at hqueue'
      rcases hqueue' with rfl | rfl | rfl <;> simp [queues]
    simp only [hpublished, hcopies, List.sum_map_add, hs, hone]
    split_ifs <;> omega

/-! ## Only completed messages are removed -/

/-- Nothing has been removed that is not completed. -/
def RemovedCompleted (s : Worker) : Prop :=
  ∀ r ∈ s.broker.removed, r.2.id ∈ s.completed

instance (s : Worker) : Decidable s.RemovedCompleted :=
  inferInstanceAs (Decidable (∀ r ∈ s.broker.removed, r.2.id ∈ s.completed))

/-- An acknowledgement that is not sent on the channel of its message meets no delivery under
its tag, or one of a completed message. -/
def SafeAck (s : Worker) : Label → Prop
  | .settle i _ => ∀ h c d, s.handlers[i]? = some h → h.program.answer? = some (.ok ()) →
      s.channel = some c → c ≠ h.channel → s.broker.outstanding c h.tag = some d →
        d.message.id ∈ s.completed
  | _ => True

/-- The variable still holds the channel that delivered the message. -/
def OwnChannel (s : Worker) : Label → Prop
  | .settle i _ => match s.handlers[i]? with
    | some h => s.channel = some h.channel
    | none => True
  | _ => True

instance (s : Worker) (e : Label) : Decidable (OwnChannel s e) := by
  unfold OwnChannel
  split
  · split <;> infer_instance
  · infer_instance

/-- A step acknowledges a message that is not completed exactly if the acknowledgement is not
safe. -/
lemma acked_completed_iff {s : Worker} (hs : TagsMatch s) (e : Label) :
    (∀ d, s.acked e = some d → d.message.id ∈ s.completed) ↔ SafeAck s e := by
  cases e with
  | settle i noticed =>
    simp only [acked, SafeAck]
    constructor
    · intro hall h c d hi hok hchannel _ hd
      refine hall d ?_
      rw [hi, hchannel]
      simp only [hok, if_true]
      exact hd
    · intro hsafe d hd
      split at hd
      · rename_i h c hi hchannel
        simp only [Option.ite_none_right_eq_some] at hd
        obtain ⟨hok, hd⟩ := hd
        by_cases hc : c = h.channel
        · -- on its own channel the tag stands for the message of the callback
          have hmem := List.mem_of_getElem? hi
          obtain ⟨ch, hch, -, hfind⟩ := Broker.outstanding_eq_some hd
          have htag : d.tag = h.tag := by simpa using List.find?_some hfind
          rw [hs.handler_message h hmem ch (hc ▸ hch) d (List.mem_of_find?_eq_some hfind) htag]
          exact hs.completed h hmem hok
        · exact hsafe h c d hi hok hchannel hc hd
      · cases hd
  | publish => exact iff_of_true (fun d hd => by cases hd) trivial
  | connect => exact iff_of_true (fun d hd => by cases hd) trivial
  | consume => exact iff_of_true (fun d hd => by cases hd) trivial
  | setupFails => exact iff_of_true (fun d hd => by cases hd) trivial
  | deliver => exact iff_of_true (fun d hd => by cases hd) trivial
  | redis => exact iff_of_true (fun d hd => by cases hd) trivial
  | resend => exact iff_of_true (fun d hd => by cases hd) trivial
  | close => exact iff_of_true (fun d hd => by cases hd) trivial
  | restart => exact iff_of_true (fun d hd => by cases hd) trivial

lemma removedCompleted_step_iff {s s' : Worker} {e : Label} (hs : TagsMatch s)
    (hP : s.RemovedCompleted) (h : s.step prefetch e = some s') :
    s'.RemovedCompleted ↔ SafeAck s e := by
  obtain ⟨hremoved, hkept, hsame⟩ := step_removed h
  rw [← acked_completed_iff hs e]
  unfold RemovedCompleted
  rw [hremoved]
  constructor
  · intro hall d hd
    rw [← hsame (by rw [hd]; rfl)]
    exact hall (d.queue, d.message) (by simp [hd])
  · intro hacked r hr
    rcases List.mem_append.mp hr with hr | hr
    · cases hd : s.acked e with
      | none => simp [hd] at hr
      | some d =>
        rw [hd] at hr
        obtain rfl : r = (d.queue, d.message) := by simpa using hr
        exact hkept _ (hacked d hd)
    · exact hkept _ (hP r hr)

lemma OwnChannel.safeAck {s : Worker} {e : Label} (h : OwnChannel s e) : SafeAck s e := by
  cases e with
  | settle i noticed =>
    intro hd c d hi _ hchannel hc
    simp only [OwnChannel, hi] at h
    exact absurd (Option.some.inj (hchannel.symm.trans h)) hc
  | _ => trivial

/-- **Acknowledgements.** In every run of the worker, whatever the connections, Redis and the
order of all events do, the broker has removed only messages for which `processMessage` has
resolved, if and only if every acknowledgement was safe. In particular this is so if every
callback finds the channel of its message still in the variable. -/
theorem removed_only_completed_iff {lists : String → List Notification} {es : List Label}
    {t : Worker} (hrun : run (step prefetch) (initial lists) es = some t) :
    (Throughout (step prefetch) RemovedCompleted (initial lists) es ↔
      StepsMeet (step prefetch) SafeAck (initial lists) es) ∧
    (StepsMeet (step prefetch) OwnChannel (initial lists) es →
      Throughout (step prefetch) RemovedCompleted (initial lists) es) := by
  have hiff : Throughout (step prefetch) RemovedCompleted (initial lists) es ↔
      StepsMeet (step prefetch) SafeAck (initial lists) es := by
    refine throughout_iff_stepsMeet (J := TagsMatch) (D := fun _ _ => True)
      tagsMatch_preserved ?_ (TagsMatch.initial lists) ?_ (stepsMeet_true _ _) hrun
    · intro s e s' hs hP _ h
      exact removedCompleted_step_iff hs hP h
    · exact fun r hr => absurd hr List.not_mem_nil
  exact ⟨hiff, fun hown => hiff.mpr (hown.mono fun _ _ => OwnChannel.safeAck)⟩

/-- Message 0 is published, delivered, processed and acknowledged. If the connection ends in
between, message 1 is delivered on the next one under the same tag 1, before the processing of
message 0 is over. -/
def oneMessage (reconnects : Bool) : List Label :=
  let stamps : ℕ → Stamp := fun _ => ⟨"n1", "2024-01-01T00:00:00.000Z"⟩
  let order : OrderEvent := ⟨some "o1", none, some "u1", none⟩
  [.connect, .consume, .publish "order.shipped" (some order),
    .deliver 0 "order.shipped" 0 stamps] ++
  (if reconnects then [.publish "order.created" (some order), .close 0, .connect, .consume,
    .deliver 1 "order.created" 0 stamps] else []) ++
  List.replicate 6 (.redis 0 .none) ++ [.settle 0 false]

theorem removed_only_completed_one_connection :
    Throughout (step 10) RemovedCompleted (initial fun _ => []) (oneMessage false) := by
  have hrun : run (step 10) (initial fun _ => []) (oneMessage false) = some _ :=
    run_final (by decide)
  exact (removed_only_completed_iff hrun).2 (by decide)

/-- The acknowledgement of message 0 removes message 1. -/
theorem other_message_removed :
    ¬ ∀ (prefetch : ℕ) (lists : String → List Notification) (es : List Label) (t : Worker),
      run (step prefetch) (initial lists) es = some t →
        Throughout (step prefetch) RemovedCompleted (initial lists) es := by
  intro hall
  have hrun : run (step 10) (initial fun _ => []) (oneMessage true) = some _ :=
    run_final (by decide)
  exact absurd ((hall 10 (fun _ => []) _ _ hrun).last hrun) (by decide)

end Worker
end DevopsEcommerce.NotificationWorker
