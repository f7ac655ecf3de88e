import DevopsEcommerce.Messaging.Copies
import DevopsEcommerce.NotificationWorker.Acknowledgement

/-!
# From an event to its notifications

What has been recorded for a user, traced back to the events that were published, and the
other way round (`notifications_accounted`). `Sent queue m` says that `m` came from the queue: it
waits there, is held by a channel, or has been removed. Each callback is somewhere in the loop
over the channels of its message, with the records before it pushed (`Stage`).
-/

open Interleaving Messaging

namespace DevopsEcommerce.NotificationWorker
namespace Worker

variable {prefetch : ℕ} {s s' : Worker}

/-! ## Messages of a queue -/

/-- The message is one of the queue's, wherever it is by now. -/
def Sent (s : Worker) (queue : String) (m : Message) : Prop :=
  0 < s.broker.copies queue fun m' => m' = m

lemma copies_step_le {e : Label} (h : s.step prefetch e = some s') (queue : String)
    (p : Message → Bool) : s.broker.copies queue p ≤ s'.broker.copies queue p := by
  cases stepped_of_step h with
  | publish order hqueue =>
    show _ ≤ (s.broker.enqueue _ _).copies queue p
    rw [Broker.copies_enqueue]
    exact Nat.le_add_right _ _
  | connect => exact Nat.le_of_eq (Broker.copies_openChannel s.broker queue p).symm
  | consume c => exact Nat.le_refl _
  | setupFails => exact Nat.le_refl _
  | deliver stamps hdeliver => exact Nat.le_of_eq (Broker.copies_deliver hdeliver queue p).symm
  | redis fault redis program hi => exact Nat.le_refl _
  | resends i redis => exact Nat.le_refl _
  | acks hd c noticed hacked => exact Nat.le_of_eq (Broker.copies_ack s.broker c _ queue p).symm
  | nacks hd c noticed hacked => exact Nat.le_of_eq (Broker.copies_nack s.broker c _ queue p).symm
  | close c => exact Nat.le_of_eq (Broker.copies_closeChannel s.broker c queue p).symm
  | restarts e hacked => exact Nat.le_of_eq (Broker.copies_closeAll s.broker queue p).symm

lemma Sent.of_step {queue : String} {m : Message} (hm : s.Sent queue m) {e : Label}
    (h : s.step prefetch e = some s') : s'.Sent queue m :=
  Nat.lt_of_lt_of_le hm (copies_step_le h queue _)

/-- What is delivered was waiting in the queue. -/
lemma sent_of_deliver {c j : ℕ} {queue : String} {b : Broker String Message}
    {d : Delivery String Message} (h : s.broker.deliver c queue j = some (b, d)) :
    0 < b.copies queue fun m => m = d.message := by
  obtain ⟨ch, -, -, hm, -⟩ := Broker.deliver_eq_some h
  rw [Broker.copies_deliver h]
  have hwaits : 0 < (s.broker.ready queue).countP fun m => m = d.message :=
    List.countP_pos_iff.mpr ⟨d.message, List.mem_of_getElem? hm, decide_eq_true rfl⟩
  unfold Broker.copies
  omega

/-- There is no other message with its number. -/
lemma Sent.unique {lists : String → List Notification} {es : List Label}
    (hrun : run (step prefetch) (initial lists) es = some s) {queue queue' : String}
    {m m' : Message} (hm : s.Sent queue m) (hm' : s.Sent queue' m') (hqueue : queue ∈ queues)
    (hqueue' : queue' ∈ queues) (hid : m'.id = m.id) : queue' = queue ∧ m' = m := by
  have hone := one_copy hrun m.id
  have hle : (queues.map fun queue => s.copiesOf queue m.id).sum ≤ 1 := by
    rw [hone]
    split <;> omega
  have hcopies : ∀ {q : String} {m₁ : Message}, s.Sent q m₁ → m₁.id = m.id →
      0 < s.copiesOf q m.id := by
    intro q m₁ hsent hm₁
    refine Nat.lt_of_lt_of_le hsent (Broker.copies_mono _ _ fun m₂ h => ?_)
    rw [of_decide_eq_true h, hm₁]
    exact decide_eq_true rfl
  have hsame : queue' = queue := by
    have hfirst := hcopies hm rfl
    have hsecond := hcopies hm' hid
    simp only [queues, List.mem_cons, List.not_mem_nil, or_false] at hqueue hqueue'
    simp only [queues, List.map_cons, List.map_nil, List.sum_cons, List.sum_nil] at hle
    rcases hqueue with rfl | rfl | rfl <;> rcases hqueue' with rfl | rfl | rfl <;>
      first | rfl | omega
  subst hsame
  refine ⟨rfl, ?_⟩
  by_contra hne
  -- both messages would count
  have htwo : s.broker.copies queue' (fun m₁ => m₁ = m) +
      s.broker.copies queue' (fun m₁ => m₁ = m') ≤ s.copiesOf queue' m.id := by
    refine Broker.copies_add_le _ _ (fun m₁ h => ?_) fun m₁ h => ⟨?_, ?_⟩
    · rw [of_decide_eq_true h]
      exact decide_eq_true rfl
    · rw [of_decide_eq_true h]
      exact decide_eq_true hid
    · rw [of_decide_eq_true h]
      exact decide_eq_false hne
  have hlimit : s.copiesOf queue' m.id ≤ 1 := by
    refine Nat.le_trans ?_ hle
    exact List.single_le_sum (by simp) _ (List.mem_map_of_mem hqueue')
  unfold Sent at hm hm'
  omega

/-! ## Callbacks -/

/-- The record has been pushed for the user. -/
def Recorded (s : Worker) (order : OrderEvent) (r : Notification) : Prop :=
  (notificationsKey (userIdOf order), r) ∈ s.redis.received

/-- What follows the `LPUSH` of a record: the `LTRIM`, and then the rest of the loop. -/
def trimming (userId : String) (rest : WorkerProgram) : WorkerProgram :=
  .call (.ltrim (notificationsKey userId) 0 (maxNotificationsPerUser - 1)) fun
    | .error e => .done (.error e)
    | .ok () => rest

/-- A callback is in the loop over the records of its message: those before it have been pushed,
and `todo` are those after it. Or it has failed. -/
inductive Stage (s : Worker) (queue : String) (order : OrderEvent) : WorkerProgram → Prop
  | pushes {stamps : ℕ → Stamp} {before todo : List Notification}
      (hrecords : recordsFor queue order stamps = before ++ todo)
      (hbefore : ∀ r ∈ before, s.Recorded order r) :
      Stage s queue order (storeEach (userIdOf order) todo)
  | trims {stamps : ℕ → Stamp} {before todo : List Notification}
      (hrecords : recordsFor queue order stamps = before ++ todo)
      (hbefore : ∀ r ∈ before, s.Recorded order r) :
      Stage s queue order (trimming (userIdOf order) (storeEach (userIdOf order) todo))
  | failed (e : RedisError) : Stage s queue order (.done (.error e))

/-- All records of the message have been pushed. -/
def AllRecorded (s : Worker) (queue : String) (order : OrderEvent) : Prop :=
  ∃ stamps, ∀ r ∈ recordsFor queue order stamps, s.Recorded order r

lemma Stage.allRecorded {queue : String} {order : OrderEvent} {program : WorkerProgram}
    (h : s.Stage queue order program) (hok : program.answer? = some (.ok ())) :
    s.AllRecorded queue order := by
  cases h with
  | @pushes stamps before todo hrecords hbefore =>
    cases todo with
    | nil =>
      rw [List.append_nil] at hrecords
      exact ⟨stamps, fun r hr => hbefore r (hrecords ▸ hr)⟩
    | cons r rest => cases hok
  | trims hrecords hbefore => cases hok
  | failed e => cases hok

lemma Stage.mono {queue : String} {order : OrderEvent} {program : WorkerProgram}
    (h : s.Stage queue order program)
    (hreceived : ∀ r ∈ s.redis.received, r ∈ s'.redis.received) :
    s'.Stage queue order program := by
  cases h with
  | pushes hrecords hbefore =>
    exact .pushes hrecords fun r hr => hreceived _ (hbefore r hr)
  | trims hrecords hbefore => exact .trims hrecords fun r hr => hreceived _ (hbefore r hr)
  | failed e => exact .failed e

lemma stage_processMessage (queue : String) (order : OrderEvent) (stamps : ℕ → Stamp) :
    s.Stage queue order (processMessage queue order stamps) := by
  have hrecords : recordsFor queue order stamps = [] ++ recordsFor queue order stamps := rfl
  exact .pushes hrecords fun _ hr => absurd hr List.not_mem_nil

/-- A record of an event for one of the channels of its queue. -/
def RecordOf (queue : String) (order : OrderEvent) (r : Notification) : Prop :=
  ∃ ch ∈ getChannelsForQueue queue, ∃ stamp, r = notificationFor queue order ch stamp

lemma recordOf_of_mem {queue : String} {order : OrderEvent} {stamps : ℕ → Stamp}
    {r : Notification} (hr : r ∈ recordsFor queue order stamps) : RecordOf queue order r := by
  unfold recordsFor at hr
  obtain ⟨j, hj⟩ := List.mem_iff_getElem?.mp hr
  rw [List.getElem?_mapIdx] at hj
  obtain ⟨ch, hch, rfl⟩ := Option.map_eq_some_iff.mp hj
  exact ⟨ch, List.mem_of_getElem? hch, stamps j, rfl⟩

/-- What a command can do to the lists and to the log of what has been pushed. -/
lemma execRedis_cases {store store' : RedisStore} {worker : ℕ} {c : RedisCommand} {fault : Fault}
    {reply : RedisReply c} (h : execRedis store worker c (.once fault) = some (store', reply)) :
    (fault = .none ∧ reply = .ok () ∨ reply = .error .failed) ∧
      (store' = redisEffect store c ∨ fault ≠ .none ∧ store' = store) := by
  cases fault with
  | none =>
    obtain ⟨rfl, rfl⟩ := Prod.mk.inj (Option.some.inj h)
    exact ⟨.inl ⟨rfl, rfl⟩, .inl rfl⟩
  | before =>
    obtain ⟨rfl, rfl⟩ := Prod.mk.inj (Option.some.inj h)
    exact ⟨.inr rfl, .inr ⟨by simp, rfl⟩⟩
  | after =>
    obtain ⟨rfl, rfl⟩ := Prod.mk.inj (Option.some.inj h)
    exact ⟨.inr rfl, .inl rfl⟩

lemma mem_received_redisEffect {store : RedisStore} {c : RedisCommand} {r : String × Notification} :
    r ∈ (redisEffect store c).received ↔ r ∈ store.received ∨ c = .lpush r.1 r.2 := by
  cases c with
  | lpush key notification =>
    show r ∈ (key, notification) :: store.received ↔ _
    rw [List.mem_cons, or_comm, RedisCommand.lpush.injEq, Prod.ext_iff, eq_comm, @eq_comm _ r.2]
  | ltrim key start stop => exact (or_iff_left (by simp)).symm

/-- A list gets nothing but what is pushed. -/
lemma lists_redisEffect {store : RedisStore} {c : RedisCommand} {key : String} {r : Notification}
    (hr : r ∈ (redisEffect store c).lists key) :
    r ∈ store.lists key ∨ (key, r) ∈ (redisEffect store c).received := by
  cases c with
  | lpush key' notification =>
    simp only [redisEffect] at hr ⊢
    by_cases hkey : key = key'
    · subst hkey
      rw [Function.update_self] at hr
      rcases List.mem_cons.mp hr with rfl | hr
      · exact .inr List.mem_cons_self
      · exact .inl hr
    · rw [Function.update_of_ne hkey] at hr
      exact .inl hr
  | ltrim key' start stop =>
    simp only [redisEffect] at hr
    by_cases hkey : key = key'
    · subst hkey
      rw [Function.update_self] at hr
      exact .inl (List.mem_of_mem_take (List.mem_of_mem_drop hr))
    · rw [Function.update_of_ne hkey] at hr
      exact .inl hr

section
variable {store store' : RedisStore} {worker : ℕ} {c : RedisCommand} {fault : Fault}
  {reply : RedisReply c}

/-- What has been pushed stays, and only a push adds to it. -/
lemma received_execRedis (h : execRedis store worker c (.once fault) = some (store', reply)) :
    (∀ r ∈ store.received, r ∈ store'.received) ∧
      ∀ r ∈ store'.received, r ∈ store.received ∨ c = .lpush r.1 r.2 := by
  rcases (execRedis_cases h).2 with rfl | ⟨-, rfl⟩
  · exact ⟨fun r hr => mem_received_redisEffect.mpr (.inl hr),
      fun r hr => mem_received_redisEffect.mp hr⟩
  · exact ⟨fun r hr => hr, fun r hr => .inl hr⟩

lemma lists_execRedis (h : execRedis store worker c (.once fault) = some (store', reply))
    {key : String} {r : Notification} (hr : r ∈ store'.lists key) :
    r ∈ store.lists key ∨ (key, r) ∈ store'.received := by
  rcases (execRedis_cases h).2 with rfl | ⟨-, rfl⟩
  · exact lists_redisEffect hr
  · exact .inl hr

end

/-- What a callback pushes is a record of its message, for its user. -/
lemma Stage.lpush {queue : String} {order : OrderEvent} {key : String} {r : Notification}
    {k : RedisReply (.lpush key r) → WorkerProgram}
    (h : s.Stage queue order (.call (.lpush key r) k)) :
    key = notificationsKey (userIdOf order) ∧ RecordOf queue order r := by
  generalize hprogram : (Program.call (.lpush key r) k : WorkerProgram) = program at h
  cases h with
  | @pushes stamps before todo hrecords hbefore =>
    cases todo with
    | nil => cases hprogram
    | cons r' rest =>
      cases hprogram
      have hr : r ∈ recordsFor queue order stamps := by
        rw [hrecords]
        exact List.mem_append_right _ List.mem_cons_self
      exact ⟨rfl, recordOf_of_mem hr⟩
  | trims hrecords hbefore => cases hprogram
  | failed e => cases hprogram

/-- The callback after a command. -/
lemma Stage.command {queue : String} {order : OrderEvent} {c : RedisCommand}
    {k : RedisReply c → WorkerProgram} (h : s.Stage queue order (.call c k)) {worker : ℕ}
    {fault : Fault} {reply : RedisReply c}
    (hexec : execRedis s.redis worker c (.once fault) = some (s'.redis, reply)) :
    s'.Stage queue order (k reply) := by
  generalize hprogram : (Program.call c k : WorkerProgram) = program at h
  obtain ⟨hreply, hstore⟩ := execRedis_cases hexec
  cases h with
  | @pushes stamps before todo hrecords hbefore =>
    cases todo with
    | nil => cases hprogram
    | cons r rest =>
      cases hprogram
      rcases hreply with ⟨rfl, rfl⟩ | rfl
      · -- the record is the next one that has been pushed
        have heffect := hstore.resolve_right fun h => h.1 rfl
        have hsplit : recordsFor queue order stamps = before ++ [r] ++ rest := by
          rw [hrecords, List.append_assoc]
          rfl
        refine .trims hsplit fun r' hr' => ?_
        unfold Recorded
        rw [heffect]
        rcases List.mem_append.mp hr' with hr' | hr'
        · exact List.mem_cons_of_mem _ (hbefore r' hr')
        · rw [List.mem_singleton.mp hr']
          exact List.mem_cons_self
      · exact .failed _
  | @trims stamps before todo hrecords hbefore =>
    cases hprogram
    rcases hreply with ⟨rfl, rfl⟩ | rfl
    · have heffect := hstore.resolve_right fun h => h.1 rfl
      refine .pushes hrecords fun r hr => ?_
      unfold Recorded
      rw [heffect]
      exact hbefore r hr
    · exact .failed _
  | failed e => cases hprogram

/-! ## The invariant -/

/-- A callback of a message that could be read. One that could not has failed at once. -/
def Follows (s : Worker) (h : Handler) : Prop :=
  ∃ queue, s.Sent queue h.message ∧
    ∀ order, h.message.order = some order → s.Stage queue order h.program

structure Accounted (lists : String → List Notification) (s : Worker) : Prop where
  follows : ∀ h ∈ s.handlers, s.Follows h
  unread : ∀ h ∈ s.handlers, h.message.order = none → h.program = .done (.error .failed)
  /-- What is recorded is a record of a message. -/
  received : ∀ r ∈ s.redis.received, ∃ queue m order, s.Sent queue m ∧ m.order = some order ∧
    r.1 = notificationsKey (userIdOf order) ∧ RecordOf queue order r.2
  listed : ∀ key, ∀ r ∈ s.redis.lists key, r ∈ lists key ∨ (key, r) ∈ s.redis.received
  completed : ∀ n ∈ s.completed, ∃ queue m order, m.id = n ∧ s.Sent queue m ∧
    m.order = some order ∧ s.AllRecorded queue order

lemma Accounted.initial (lists : String → List Notification) :
    Accounted lists (initial lists) where
  follows _ hh := absurd hh List.not_mem_nil
  unread _ hh := absurd hh List.not_mem_nil
  received _ hr := absurd hr List.not_mem_nil
  listed _ _ hr := .inl hr
  completed _ hn := absurd hn List.not_mem_nil

lemma Follows.mono {h : Handler} (hfollows : s.Follows h)
    (hsent : ∀ queue m, s.Sent queue m → s'.Sent queue m)
    (hreceived : ∀ r ∈ s.redis.received, r ∈ s'.redis.received) : s'.Follows h := by
  obtain ⟨queue, hmessage, hstage⟩ := hfollows
  exact ⟨queue, hsent _ _ hmessage, fun order horder => (hstage order horder).mono hreceived⟩

lemma AllRecorded.mono {queue : String} {order : OrderEvent} (h : s.AllRecorded queue order)
    (hreceived : ∀ r ∈ s.redis.received, r ∈ s'.redis.received) :
    s'.AllRecorded queue order := by
  obtain ⟨stamps, hall⟩ := h
  exact ⟨stamps, fun r hr => hreceived _ (hall r hr)⟩

/-- A step that leaves Redis alone and starts no callback. -/
lemma Accounted.of_redis_eq {lists : String → List Notification} (h : Accounted lists s)
    (hsent : ∀ queue m, s.Sent queue m → s'.Sent queue m) (hredis : s'.redis = s.redis)
    (hhandlers : ∀ h ∈ s'.handlers, h ∈ s.handlers) (hcompleted : s'.completed = s.completed) :
    Accounted lists s' := by
  have hreceived : ∀ r ∈ s.redis.received, r ∈ s'.redis.received := fun r hr => hredis ▸ hr
  constructor
  · exact fun h₁ hh₁ => (h.follows h₁ (hhandlers h₁ hh₁)).mono hsent hreceived
  · exact fun h₁ hh₁ => h.unread h₁ (hhandlers h₁ hh₁)
  · intro r hr
    rw [hredis] at hr
    obtain ⟨queue, m, order, hm, horder, hkey, hrecord⟩ := h.received r hr
    exact ⟨queue, m, order, hsent _ _ hm, horder, hkey, hrecord⟩
  · rw [hredis]
    exact h.listed
  · intro n hn
    rw [hcompleted] at hn
    obtain ⟨queue, m, order, hid, hm, horder, hall⟩ := h.completed n hn
    exact ⟨queue, m, order, hid, hsent _ _ hm, horder, hall.mono hreceived⟩

/-- A callback with a command belongs to a message that could be read. -/
lemma Accounted.stage {lists : String → List Notification} (hs : Accounted lists s) {h : Handler}
    {c : RedisCommand} {k : RedisReply c → WorkerProgram} (hmem : h ∈ s.handlers)
    (hprogram : h.program = .call c k) :
    ∃ queue order, s.Sent queue h.message ∧ h.message.order = some order ∧
      s.Stage queue order (.call c k) := by
  obtain ⟨queue, hmessage, hstage⟩ := hs.follows h hmem
  cases horder : h.message.order with
  | none =>
    have hfailed := hs.unread h hmem horder
    rw [hprogram] at hfailed
    cases hfailed
  | some order => exact ⟨queue, order, hmessage, rfl, hprogram ▸ hstage order horder⟩

/-- What follows the step of a callback. -/
lemma Accounted.resume {lists : String → List Notification} (hs : Accounted lists s) {i : ℕ}
    {h : Handler} {c : RedisCommand} {k : RedisReply c → WorkerProgram} {fault : Fault}
    {store : RedisStore} {reply : RedisReply c} (hi : s.handlers[i]? = some h)
    (hprogram : h.program = .call c k)
    (hexec : execRedis s.redis i c (.once fault) = some (store, reply)) :
    Accounted lists (s.resume i h store (k reply)) := by
  obtain ⟨queue, order, hmessage, horder, hstage⟩ := hs.stage (List.mem_of_getElem? hi) hprogram
  have hnext : (s.resume i h store (k reply)).Stage queue order (k reply) := hstage.command hexec
  obtain ⟨hreceived, hpushed⟩ := received_execRedis hexec
  have hsent : ∀ queue m, s.Sent queue m → (s.resume i h store (k reply)).Sent queue m :=
    fun _ _ hm => hm
  constructor
  · refine forall_mem_set _ (fun h₁ hh₁ => (hs.follows h₁ hh₁).mono hsent hreceived) ?_
    refine ⟨queue, hmessage, fun order' horder' => ?_⟩
    obtain rfl := Option.some.inj (horder.symm.trans horder')
    exact hnext
  · refine forall_mem_set _ (fun h₁ hh₁ => hs.unread h₁ hh₁) fun hnone => ?_
    exact absurd (horder.symm.trans hnone) (by simp)
  · intro r hr
    rcases hpushed r hr with hold | rfl
    · exact hs.received r hold
    · exact ⟨queue, h.message, order, hmessage, horder, hstage.lpush⟩
  · intro key r hr
    rcases lists_execRedis hexec hr with hlisted | hnew
    · exact (hs.listed key r hlisted).imp_right fun h => hreceived _ h
    · exact .inr hnew
  · intro n hn
    rcases (mem_completed_resume i h store (k reply)).mp hn with hold | ⟨rfl, hok⟩
    · obtain ⟨queue', m, order', hid, hm, horder', hall⟩ := hs.completed n hold
      exact ⟨queue', m, order', hid, hm, horder', hall.mono hreceived⟩
    · exact ⟨queue, h.message, order, rfl, hmessage, horder, hnext.allRecorded hok⟩

/-- A command that is going to be sent again has its effect all the same. -/
lemma Accounted.resend {lists : String → List Notification} (hs : Accounted lists s) {i : ℕ}
    {h : Handler} {c : RedisCommand} {k : RedisReply c → WorkerProgram}
    (hi : s.handlers[i]? = some h) (hprogram : h.program = .call c k) :
    Accounted lists { s with redis := redisEffect s.redis c } := by
  obtain ⟨queue, order, hmessage, horder, hstage⟩ := hs.stage (List.mem_of_getElem? hi) hprogram
  have hreceived : ∀ r ∈ s.redis.received, r ∈ (redisEffect s.redis c).received :=
    fun r hr => mem_received_redisEffect.mpr (.inl hr)
  constructor
  · exact fun h₁ hh₁ => (hs.follows h₁ hh₁).mono (fun _ _ hm => hm) hreceived
  · exact hs.unread
  · intro r hr
    rcases mem_received_redisEffect.mp hr with hold | rfl
    · exact hs.received r hold
    · exact ⟨queue, h.message, order, hmessage, horder, hstage.lpush⟩
  · intro key r hr
    rcases lists_redisEffect hr with hlisted | hnew
    · exact (hs.listed key r hlisted).imp_right fun h => hreceived _ h
    · exact .inr hnew
  · intro n hn
    obtain ⟨queue, m, order, hid, hm, horder, hall⟩ := hs.completed n hn
    exact ⟨queue, m, order, hid, hm, horder, hall.mono hreceived⟩

theorem accounted_preserved (lists : String → List Notification) :
    Preserved (step prefetch) (Accounted lists) := by
  intro s e s' hs h
  have hsent : ∀ queue m, s.Sent queue m → s'.Sent queue m := fun _ _ hm => hm.of_step h
  have herased : ∀ i, ∀ h ∈ s.handlers.eraseIdx i, h ∈ s.handlers :=
    fun _ _ hh => List.mem_of_mem_eraseIdx hh
  cases stepped_of_step h with
  | publish order hqueue => exact hs.of_redis_eq hsent rfl (fun _ hh => hh) rfl
  | connect => exact hs.of_redis_eq hsent rfl (fun _ hh => hh) rfl
  | consume c => exact hs.of_redis_eq hsent rfl (fun _ hh => hh) rfl
  | setupFails => exact hs.of_redis_eq hsent rfl (fun _ hh => hh) rfl
  | @deliver c j queue b d stamps hdeliver =>
    -- the callback starts with nothing pushed
    have hmessage : 0 < b.copies queue fun m => m = d.message := sent_of_deliver hdeliver
    refine ⟨fun hd hhd => ?_, fun hd hhd hnone => ?_, fun r hr => ?_, hs.listed, fun n hn => ?_⟩
    · rcases List.mem_append.mp hhd with hhd | hhd
      · exact (hs.follows hd hhd).mono hsent fun r hr => hr
      · obtain rfl := List.mem_singleton.mp hhd
        refine ⟨queue, hmessage, fun order (horder : d.message.order = some order) => ?_⟩
        show Stage _ queue order (callback queue d.message stamps)
        simp only [callback, horder]
        exact stage_processMessage queue order stamps
    · rcases List.mem_append.mp hhd with hhd | hhd
      · exact hs.unread hd hhd hnone
      · obtain rfl := List.mem_singleton.mp hhd
        have hnone : d.message.order = none := hnone
        show callback queue d.message stamps = _
        simp only [callback, hnone]
    · obtain ⟨queue', m, order, hm, horder, hkey, hrecord⟩ := hs.received r hr
      exact ⟨queue', m, order, hsent _ _ hm, horder, hkey, hrecord⟩
    · obtain ⟨queue', m, order, hid, hm, horder, hall⟩ := hs.completed n hn
      exact ⟨queue', m, order, hid, hsent _ _ hm, horder, hall.mono fun r hr => hr⟩
  | redis fault redis program hi =>
    simp only [step] at h
    split at h
    · cases h
    · rename_i hi'
      split at h
      · cases h
      · rename_i hprogram
        obtain ⟨⟨store, reply⟩, hexec, heq⟩ := Option.map_eq_some_iff.mp h
        rw [← heq]
        exact hs.resume hi' hprogram hexec
  | resends i redis =>
    simp only [step] at h
    split at h
    · cases h
    · rename_i hi
      split at h
      · cases h
      · rename_i hprogram
        rw [← Option.some.inj h]
        exact hs.resend hi hprogram
  | acks hd c noticed hacked => exact hs.of_redis_eq hsent rfl (herased _) rfl
  | nacks hd c noticed hacked => exact hs.of_redis_eq hsent rfl (herased _) rfl
  | close c => exact hs.of_redis_eq hsent rfl (fun _ hh => hh) rfl
  | restarts e hacked =>
    exact hs.of_redis_eq hsent rfl (fun _ hh => absurd hh List.not_mem_nil) rfl

/-! ## Publications -/

/-- A message that is new in a queue has just been published. -/
lemma published_of_step {e : Label} (h : s.step prefetch e = some s') {queue : String}
    {m : Message} (hm : s'.Sent queue m) :
    s.Sent queue m ∨ queue ∈ queues ∧ e = .publish queue m.order := by
  have hsame : s'.broker.copies queue (fun m' => m' = m) =
      s.broker.copies queue (fun m' => m' = m) → s.Sent queue m := by
    intro heq
    unfold Sent at hm ⊢
    rwa [heq] at hm
  cases stepped_of_step h with
  | @publish queue' order hqueue =>
    unfold Sent at hm ⊢
    rw [Broker.copies_enqueue] at hm
    by_cases hnew : queue' = queue ∧ decide ((⟨s.published, order⟩ : Message) = m) = true
    · obtain ⟨rfl, hmessage⟩ := hnew
      obtain rfl := of_decide_eq_true hmessage
      exact .inr ⟨hqueue, rfl⟩
    · rw [if_neg hnew] at hm
      exact .inl hm
  | connect => exact .inl (hsame (Broker.copies_openChannel s.broker queue _))
  | consume c => exact .inl hm
  | setupFails => exact .inl hm
  | deliver stamps hdeliver => exact .inl (hsame (Broker.copies_deliver hdeliver queue _))
  | redis fault redis program hi => exact .inl hm
  | resends i redis => exact .inl hm
  | acks hd c noticed hacked => exact .inl (hsame (Broker.copies_ack s.broker c _ queue _))
  | nacks hd c noticed hacked => exact .inl (hsame (Broker.copies_nack s.broker c _ queue _))
  | close c => exact .inl (hsame (Broker.copies_closeChannel s.broker c queue _))
  | restarts e hacked => exact .inl (hsame (Broker.copies_closeAll s.broker queue _))

lemma published_of_sent {es : List Label} (hrun : run (step prefetch) s es = some s')
    {queue : String} {m : Message} (hm : s'.Sent queue m) :
    s.Sent queue m ∨ queue ∈ queues ∧ .publish queue m.order ∈ es := by
  induction es generalizing s with
  | nil =>
    rw [run_nil, Option.some.injEq] at hrun
    exact .inl (hrun ▸ hm)
  | cons e es ih =>
    obtain ⟨s₁, hs₁, hrest⟩ := run_cons_eq_some.mp hrun
    rcases ih hrest with hold | ⟨hqueue, hpublish⟩
    · rcases published_of_step hs₁ hold with hfirst | ⟨hqueue, rfl⟩
      · exact .inl hfirst
      · exact .inr ⟨hqueue, List.mem_cons_self⟩
    · exact .inr ⟨hqueue, List.mem_cons_of_mem e hpublish⟩

lemma published_of_initial {lists : String → List Notification} {es : List Label}
    (hrun : run (step prefetch) (initial lists) es = some s) {queue : String} {m : Message}
    (hm : s.Sent queue m) : queue ∈ queues ∧ .publish queue m.order ∈ es :=
  (published_of_sent hrun hm).resolve_left (Nat.lt_irrefl 0)

lemma sent_of_removed {queue : String} {m : Message} (h : (queue, m) ∈ s.broker.removed) :
    s.Sent queue m := by
  have hcount : 0 < s.broker.removed.countP fun r => r.1 = queue && decide (r.2 = m) := by
    refine List.countP_pos_iff.mpr ⟨(queue, m), h, ?_⟩
    simp
  unfold Sent Broker.copies
  exact Nat.lt_of_lt_of_le hcount (Nat.le_add_left _ _)

/-- **From events to notifications.** In every run of the worker, whatever the connections, Redis
and the order of all events do: a record is pushed only for an event that was published, in the
list of its user and for a channel of its queue, and a list holds nothing else but what it held at
the start; a message that is removed from its queue after `processMessage` has resolved for it has
a record for each channel of its queue in the list of its user. If every callback finds the
channel of its message still in the variable, this is so for every message that is removed. -/
theorem notifications_accounted {lists : String → List Notification} {es : List Label}
    {t : Worker} (hrun : run (step prefetch) (initial lists) es = some t) :
    (∀ key r, (key, r) ∈ t.redis.received → ∃ queue order, .publish queue (some order) ∈ es ∧
      key = notificationsKey (userIdOf order) ∧ RecordOf queue order r) ∧
    (∀ key, ∀ r ∈ t.redis.lists key, r ∈ lists key ∨ (key, r) ∈ t.redis.received) ∧
    (∀ queue m, (queue, m) ∈ t.broker.removed → m.id ∈ t.completed →
      ∃ order, m.order = some order ∧ t.AllRecorded queue order) ∧
    (StepsMeet (step prefetch) OwnChannel (initial lists) es →
      ∀ queue m, (queue, m) ∈ t.broker.removed →
        ∃ order, m.order = some order ∧ t.AllRecorded queue order) := by
  have ht : Accounted lists t :=
    run_invariant (accounted_preserved lists) (Accounted.initial lists) hrun
  have hcompleted : ∀ queue m, (queue, m) ∈ t.broker.removed → m.id ∈ t.completed →
      ∃ order, m.order = some order ∧ t.AllRecorded queue order := by
    intro queue m hm hid
    obtain ⟨queue', m', order, hid', hm', horder, hall⟩ := ht.completed m.id hid
    have hsent := sent_of_removed hm
    -- there is only one message with this number
    obtain ⟨rfl, rfl⟩ := hsent.unique hrun hm' (published_of_initial hrun hsent).1
      (published_of_initial hrun hm').1 hid'
    exact ⟨order, horder, hall⟩
  refine ⟨fun key r hr => ?_, ht.listed, hcompleted, fun hown queue m hm => ?_⟩
  · obtain ⟨queue, m, order, hm, horder, hkey, hrecord⟩ := ht.received _ hr
    exact ⟨queue, order, horder ▸ (published_of_initial hrun hm).2, hkey, hrecord⟩
  · have hremoved : TagsMatch t ∧ t.RemovedCompleted := by
      refine run_invariant_of_stepsMeet (P := fun s => TagsMatch s ∧ s.RemovedCompleted)
        (fun s e s' h he hstep => ?_) ⟨TagsMatch.initial lists, ?_⟩ hown hrun
      · exact ⟨tagsMatch_preserved s e s' h.1 hstep,
          (removedCompleted_step_iff h.1 h.2 hstep).mpr he.safeAck⟩
      · exact fun r hr => absurd hr List.not_mem_nil
    exact hcompleted queue m hm (hremoved.2 _ hm)

/-- An event is published, processed and removed. -/
theorem notifications_accounted_one :
    ∃ t, run (step 10) (initial fun _ => []) (oneMessage false) = some t ∧
      ("order.shipped", ⟨0, some ⟨some "o1", none, some "u1", none⟩⟩) ∈ t.broker.removed ∧
      ∃ order, some (⟨some "o1", none, some "u1", none⟩ : OrderEvent) = some order ∧
        t.AllRecorded "order.shipped" order := by
  have hrun : run (step 10) (initial fun _ => []) (oneMessage false) = some _ :=
    run_final (by decide)
  have hremoved : ("order.shipped", (⟨0, some ⟨some "o1", none, some "u1", none⟩⟩ : Message)) ∈
      (final (step 10) (initial fun _ => []) (oneMessage false) (by decide)).broker.removed := by
    decide
  exact ⟨_, hrun, hremoved,
    (notifications_accounted hrun).2.2.2 (by decide) "order.shipped" _ hremoved⟩

end Worker
end DevopsEcommerce.NotificationWorker
