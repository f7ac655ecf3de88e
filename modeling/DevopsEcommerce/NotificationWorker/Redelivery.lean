import DevopsEcommerce.NotificationWorker.Processing
import Mathlib.Algebra.BigOperators.Group.List.Basic
import Mathlib.Data.List.Nodup

/-!
# Redelivered events

An event is delivered again and again until one attempt of `processMessage` succeeds. The
attempts know nothing of each other: each stores its records from the first channel on, up
to the first Redis command that fails. And a command that succeeds may have been sent again, and
so have been executed more than once. `records_of_attempts` counts what the history has received
for each channel when the message is acknowledged at last.
-/

open Interleaving Redis

namespace DevopsEcommerce.NotificationWorker

/-- One delivery: the stamps of its records, and what becomes of its Redis commands, in
their order. -/
structure Attempt where
  stamps : ℕ → Stamp
  outcomes : ℕ → Outcome

/-- The message is in the queue or acknowledged. -/
structure Delivery where
  redis : RedisStore
  acked : Bool

/-- One delivery of the message: the callback acknowledges it if `processMessage` resolves,
and puts it back into the queue if it rejects. -/
def deliver (queue : String) (order : OrderEvent) (d : Delivery) (a : Attempt) :
    Option Delivery :=
  if d.acked then none
  else
    ((processMessage queue order a.stamps).perform execRedis 0 (fun n _ => a.outcomes n) 0
      d.redis).map fun sr => ⟨sr.1, match sr.2 with | .ok () => true | .error _ => false⟩

/-- The message waits in its queue, and nothing has been received for it. -/
def Delivery.initial (lists : String → List Notification) : Delivery where
  redis := ⟨lists, []⟩
  acked := false

/-- All commands of the attempt succeed. -/
def Attempt.Succeeds (queue : String) (a : Attempt) : Prop :=
  ∀ m < 2 * (getChannelsForQueue queue).length, (a.outcomes m).fault = .none

/-- How often the `LPUSH` of channel `j` is executed: all commands before it must succeed. -/
def Attempt.pushes (a : Attempt) (j : ℕ) : ℕ :=
  if ∀ m < 2 * j, (a.outcomes m).fault = .none then (a.outcomes (2 * j)).executions else 0

/-- How many records the user's history has received for a channel. -/
def receivedFor (d : Delivery) (order : OrderEvent) (ch : String) : ℕ :=
  d.redis.received.countP fun r => r.1 = notificationsKey (userIdOf order) && r.2.channel = ch

/-! ## One attempt -/

/-- The records that get pushed by the commands from number `n` on. -/
def pushedRecords (outcomes : ℕ → Outcome) : ℕ → List Notification → List Notification
  | _, [] => []
  | n, r :: rs =>
    List.replicate (outcomes n).executions r ++
      if (outcomes n).fault = .none ∧ (outcomes (n + 1)).fault = .none then
        pushedRecords outcomes (n + 2) rs
      else []

/-- The commands of a record and those of the records after it. -/
lemma noFault_succ_iff (outcomes : ℕ → Outcome) (j n : ℕ) :
    (∀ m < 2 * (j + 1), (outcomes (n + m)).fault = .none) ↔
      ((outcomes n).fault = .none ∧ (outcomes (n + 1)).fault = .none) ∧
        ∀ m < 2 * j, (outcomes (n + 2 + m)).fault = .none := by
  constructor
  · intro h
    refine ⟨⟨h 0 (by omega), h 1 (by omega)⟩, fun m hm => ?_⟩
    have hlater := h (m + 2) (by omega)
    rwa [show n + (m + 2) = n + 2 + m by omega] at hlater
  · rintro ⟨⟨hpush, htrim⟩, hlater⟩ m hm
    match m with
    | 0 => exact hpush
    | 1 => exact htrim
    | m + 2 =>
      rw [show n + (m + 2) = n + 2 + m by omega]
      exact hlater m (by omega)

lemma received_lpush (o : Outcome) (store : RedisStore) (key : String) (r : Notification) :
    (o.apply (redisEffect · (.lpush key r)) store).received =
      List.replicate o.executions (key, r) ++ store.received := by
  unfold Outcome.apply
  induction o.executions with
  | zero => rfl
  | succ n ih =>
    rw [Function.iterate_succ_apply', List.replicate_succ, List.cons_append, ← ih]
    rfl

lemma received_ltrim (o : Outcome) (store : RedisStore) (key : String) (start stop : ℕ) :
    (o.apply (redisEffect · (.ltrim key start stop)) store).received = store.received := by
  unfold Outcome.apply
  induction o.executions with
  | zero => rfl
  | succ n ih =>
    rw [Function.iterate_succ_apply', ← ih]
    rfl

/-- What the loop over the channels does: it pushes records until a command fails, and
resolves if none does. -/
lemma perform_storeEach (outcomes : ℕ → Outcome) (userId : String) (records : List Notification)
    (n : ℕ) (store : RedisStore) :
    ∃ store' result,
      (storeEach userId records).perform execRedis 0 (fun n _ => outcomes n) n store =
        some (store', result) ∧
      store'.received = ((pushedRecords outcomes n records).map fun r =>
        (notificationsKey userId, r)).reverse ++ store.received ∧
      (result = .ok () ↔ ∀ m < 2 * records.length, (outcomes (n + m)).fault = .none) := by
  induction records generalizing n store with
  | nil => exact ⟨store, .ok (), rfl, rfl, by simp⟩
  | cons r rs ih =>
    let pushed := (outcomes n).apply (redisEffect · (.lpush (notificationsKey userId) r)) store
    let trimmed := (outcomes (n + 1)).apply
      (redisEffect · (.ltrim (notificationsKey userId) 0 (maxNotificationsPerUser - 1))) pushed
    have hpushed : pushed.received = _ := received_lpush _ _ _ _
    have htrimmed : trimmed.received = pushed.received := received_ltrim _ _ _ _ _
    by_cases hpush : (outcomes n).fault = .none
    · by_cases htrim : (outcomes (n + 1)).fault = .none
      · -- both commands succeed, and the loop goes on two commands later
        obtain ⟨store', result, hrun, hreceived, hresult⟩ := ih (n + 2) trimmed
        refine ⟨store', result, ?_, ?_, ?_⟩
        · rw [← hrun]
          simp [storeEach, storeNotification, Program.perform, execRedis, hpush, htrim, trimmed,
            pushed]
        · rw [hreceived, htrimmed, hpushed]
          simp [pushedRecords, hpush, htrim]
        · rw [hresult, List.length_cons, noFault_succ_iff, and_iff_right ⟨hpush, htrim⟩]
      · refine ⟨trimmed, .error .failed, ?_, ?_, ?_⟩
        · simp [storeEach, storeNotification, Program.perform, execRedis, hpush, htrim, trimmed,
            pushed]
        · rw [htrimmed, hpushed]
          simp [pushedRecords, hpush, htrim]
        · refine iff_of_false (by simp) fun h => htrim ?_
          exact h 1 (by rw [List.length_cons]; omega)
    · -- the record may be stored, but the `await` throws
      refine ⟨pushed, .error .failed, ?_, ?_, ?_⟩
      · simp [storeEach, storeNotification, Program.perform, execRedis, hpush, pushed]
      · rw [hpushed]
        simp [pushedRecords, hpush]
      · exact iff_of_false (by simp) fun h => hpush (h 0 (by simp))

lemma pushedRecords_subset (outcomes : ℕ → Outcome) (n : ℕ) (records : List Notification) :
    ∀ r ∈ pushedRecords outcomes n records, r ∈ records := by
  induction records generalizing n with
  | nil => exact fun r hr => hr
  | cons r rs ih =>
    intro r' hr'
    rcases List.mem_append.mp hr' with hown | hlater
    · rw [List.eq_of_mem_replicate hown]
      exact List.mem_cons_self
    · split at hlater
      · exact List.mem_cons_of_mem _ (ih (n + 2) r' hlater)
      · exact absurd hlater List.not_mem_nil

/-- A channel's record is pushed as often as its `LPUSH` is executed, if all commands before it
succeed, and otherwise not at all. -/
lemma count_pushedRecords (outcomes : ℕ → Outcome) {records : List Notification} {ch : String}
    {j n : ℕ} (hnodup : (records.map Notification.channel).Nodup)
    (hch : (records.map Notification.channel)[j]? = some ch) :
    (pushedRecords outcomes n records).countP (fun r => r.channel = ch) =
      if ∀ m < 2 * j, (outcomes (n + m)).fault = .none then (outcomes (n + 2 * j)).executions
      else 0 := by
  induction records generalizing j n with
  | nil => exact absurd hch (by simp)
  | cons r rs ih =>
    rw [List.map_cons, List.nodup_cons] at hnodup
    rw [pushedRecords, List.countP_append, List.countP_replicate]
    cases j with
    | zero =>
      -- the first record is the channel's own, and no later one is
      obtain rfl : r.channel = ch := Option.some.inj hch
      have hlater : (pushedRecords outcomes (n + 2) rs).countP
          (fun r' => r'.channel = r.channel) = 0 := by
        rw [List.countP_eq_zero]
        intro r' hr'
        have hmem := List.mem_map_of_mem (pushedRecords_subset outcomes (n + 2) rs r' hr')
          (f := Notification.channel)
        simpa using fun h : r'.channel = r.channel => hnodup.1 (h ▸ hmem)
      have hrest : List.countP (fun r' => decide (r'.channel = r.channel))
          (if (outcomes n).fault = .none ∧ (outcomes (n + 1)).fault = .none then
            pushedRecords outcomes (n + 2) rs else []) = 0 := by
        split
        · exact hlater
        · rfl
      rw [hrest, if_pos (decide_eq_true rfl), if_pos fun m hm => absurd hm (by omega)]
      rfl
    | succ j =>
      have hne : r.channel ≠ ch := fun h =>
        hnodup.1 (h ▸ List.mem_of_getElem? (i := j) (by simpa using hch))
      have htail := ih (n := n + 2) hnodup.2 (by simpa using hch)
      -- the first record is another channel's, and the rest is pushed two commands later
      have hlast : n + 2 * (j + 1) = n + 2 + 2 * j := by omega
      simp only [noFault_succ_iff, hlast, decide_eq_true_eq, if_neg hne, Nat.zero_add]
      by_cases hboth : (outcomes n).fault = .none ∧ (outcomes (n + 1)).fault = .none
      · rw [if_pos hboth, htail]
        simp only [and_iff_right hboth]
      · rw [if_neg hboth, if_neg fun h => hboth h.1, List.countP_nil]

/-! ## One delivery -/

/-- What a delivery does: it is acknowledged if the attempt succeeds, and each channel gets
the records that the attempt pushes for it. -/
lemma deliver_eq_some {queue : String} {order : OrderEvent} {d d' : Delivery} {a : Attempt}
    (h : deliver queue order d a = some d') :
    d.acked = false ∧ (d'.acked = true ↔ a.Succeeds queue) ∧
      ∀ j ch, (getChannelsForQueue queue)[j]? = some ch →
        receivedFor d' order ch = receivedFor d order ch + a.pushes j := by
  unfold deliver at h
  cases hacked : d.acked with
  | true => simp [hacked] at h
  | false =>
    obtain ⟨store, result, hrun, hreceived, hresult⟩ := perform_storeEach a.outcomes
      (userIdOf order) (recordsFor queue order a.stamps) 0 d.redis
    rw [hacked, if_neg (by simp), processMessage, hrun, Option.map_some, Option.some.injEq] at h
    subst h
    have hlength : (recordsFor queue order a.stamps).length = (getChannelsForQueue queue).length :=
      List.length_mapIdx
    -- first the acknowledgement, then the records of each channel
    refine ⟨rfl, ?_, ?_⟩
    · rw [hlength] at hresult
      simp only [Nat.zero_add] at hresult
      unfold Attempt.Succeeds
      rw [← hresult]
      cases result <;> simp
    · intro j ch hch
      have hchannels := map_channel_recordsFor queue order a.stamps
      have hcount := count_pushedRecords a.outcomes (n := 0)
        (hchannels ▸ nodup_getChannelsForQueue queue) (hchannels.symm ▸ hch)
      simp only [Nat.zero_add] at hcount
      unfold receivedFor Attempt.pushes
      rw [hreceived, List.countP_append, List.countP_reverse, List.countP_map, Nat.add_comm,
        ← hcount]
      congr 2
      funext r
      simp

/-! ## All deliveries -/

/-- The deliveries up to the acknowledgement: all but the last fail, and each channel gets from
every attempt the records that it pushes. -/
lemma deliveries_of_acked {queue : String} {order : OrderEvent} {d t : Delivery}
    {es : List Attempt} (hopen : d.acked = false) (hrun : run (deliver queue order) d es = some t)
    (hacked : t.acked = true) :
    ∃ earlier last, es = earlier ++ [last] ∧ (∀ a ∈ earlier, ¬ a.Succeeds queue) ∧
      last.Succeeds queue ∧ ∀ j ch, (getChannelsForQueue queue)[j]? = some ch →
        receivedFor t order ch =
          receivedFor d order ch + (earlier.map (·.pushes j)).sum + last.pushes j := by
  induction es generalizing d with
  | nil =>
    rw [run_nil, Option.some.injEq] at hrun
    exact absurd hacked (by simp [← hrun, hopen])
  | cons a es ih =>
    obtain ⟨d', hstep, hrest⟩ := run_cons_eq_some.mp hrun
    obtain ⟨-, hsucceeds, hreceived⟩ := deliver_eq_some hstep
    cases hacked' : d'.acked with
    | true =>
      -- an acknowledged message is not delivered again
      cases es with
      | nil =>
        rw [run_nil, Option.some.injEq] at hrest
        subst hrest
        exact ⟨[], a, rfl, by simp, hsucceeds.mp hacked', hreceived⟩
      | cons b es =>
        obtain ⟨d'', hagain, -⟩ := run_cons_eq_some.mp hrest
        exact absurd (deliver_eq_some hagain).1 (by simp [hacked'])
    | false =>
      obtain ⟨earlier, last, rfl, hfailed, hlast, hcount⟩ := ih hacked' hrest
      refine ⟨a :: earlier, last, rfl, ?_, hlast, fun j ch hch => ?_⟩
      · intro b hb
        rcases List.mem_cons.mp hb with rfl | hb
        · exact fun h => absurd (hsucceeds.mpr h) (by simp [hacked'])
        · exact hfailed b hb
      · rw [hcount j ch hch, hreceived j ch hch, List.map_cons, List.sum_cons]
        omega

/-- A successful attempt pushes a record for every channel, once if it is not sent again. -/
lemma Attempt.Succeeds.pushes_eq {queue : String} {a : Attempt} (h : a.Succeeds queue) {j : ℕ}
    (hj : j < (getChannelsForQueue queue).length) :
    a.pushes j = (a.outcomes (2 * j)).resent + 1 := by
  unfold Attempt.pushes
  rw [if_pos fun m hm => h m (by omega), Outcome.executions_of_answered (h (2 * j) (by omega))]

/-- The first channel is served first. -/
lemma pushes_zero (a : Attempt) : a.pushes 0 = (a.outcomes 0).executions :=
  if_pos fun m hm => absurd hm (by omega)

/-- An attempt that has not pushed a first record has pushed none. -/
lemma pushes_eq_zero {a : Attempt} (h : (a.outcomes 0).executions = 0) (j : ℕ) :
    a.pushes j = 0 := by
  match j with
  | 0 => exact (pushes_zero a).trans h
  | j + 1 =>
    refine if_neg fun hbefore => ?_
    rw [Outcome.executions_of_answered (hbefore 0 (by omega))] at h
    exact absurd h (Nat.succ_ne_zero _)

/-- **Records of a redelivered event.** When a message is acknowledged, all its deliveries but
the last have failed. The history has received for each channel one record for each time that the
channel's `LPUSH` has been executed, in the last delivery once at least; it has exactly one for
every channel if and only if no failed attempt has got as far as to push the first, and in the last
no push has been sent again. -/
theorem records_of_attempts {queue : String} {order : OrderEvent}
    {lists : String → List Notification} {es : List Attempt} {d : Delivery}
    (hrun : run (deliver queue order) (Delivery.initial lists) es = some d)
    (hacked : d.acked = true) :
    ∃ failed last, es = failed ++ [last] ∧ (∀ a ∈ failed, ¬ a.Succeeds queue) ∧
      last.Succeeds queue ∧
      (∀ j ch, (getChannelsForQueue queue)[j]? = some ch → receivedFor d order ch =
        1 + (last.outcomes (2 * j)).resent + (failed.map (·.pushes j)).sum) ∧
      ((∀ ch ∈ getChannelsForQueue queue, receivedFor d order ch = 1) ↔
        (∀ a ∈ failed, (a.outcomes 0).executions = 0) ∧
          ∀ j < (getChannelsForQueue queue).length, (last.outcomes (2 * j)).resent = 0) := by
  obtain ⟨failed, last, rfl, hfailed, hlast, hcount⟩ := deliveries_of_acked rfl hrun hacked
  have hreceived : ∀ j ch, (getChannelsForQueue queue)[j]? = some ch → receivedFor d order ch =
      1 + (last.outcomes (2 * j)).resent + (failed.map (·.pushes j)).sum := by
    intro j ch hch
    obtain ⟨hj, -⟩ := List.getElem?_eq_some_iff.mp hch
    have hinitial : receivedFor (Delivery.initial lists) order ch = 0 := rfl
    rw [hcount j ch hch, hinitial, hlast.pushes_eq hj]
    omega
  refine ⟨failed, last, rfl, hfailed, hlast, hreceived, ?_⟩
  constructor
  · intro hone
    have hparts : ∀ j < (getChannelsForQueue queue).length,
        (last.outcomes (2 * j)).resent = 0 ∧ (failed.map (·.pushes j)).sum = 0 := by
      intro j hj
      have hch := List.getElem?_eq_getElem hj
      have hsum := hreceived j _ hch
      rw [hone _ (List.mem_of_getElem? hch)] at hsum
      omega
    refine ⟨fun a ha => ?_, fun j hj => (hparts j hj).1⟩
    -- every queue has a first channel
    have hfirst : 0 < (getChannelsForQueue queue).length := by
      unfold getChannelsForQueue
      split <;> decide
    rw [← pushes_zero]
    exact List.sum_eq_zero_iff_forall_eq_nat.mp (hparts 0 hfirst).2 _ (List.mem_map_of_mem ha)
  · rintro ⟨hnone, honce⟩ ch hch
    obtain ⟨j, hj⟩ := List.mem_iff_getElem?.mp hch
    have hzero : (failed.map (·.pushes j)).sum = 0 := by
      refine List.sum_eq_zero fun n hn => ?_
      obtain ⟨a, ha, rfl⟩ := List.mem_map.mp hn
      exact pushes_eq_zero (hnone a ha) j
    obtain ⟨hlength, -⟩ := List.getElem?_eq_some_iff.mp hj
    rw [hreceived j ch hj, honce j hlength, hzero]

/-- The event that an order was created. -/
def sampleEvent : OrderEvent where
  orderId := some "o1"
  id := none
  userId := some "u1"
  customerId := none

def stampAt (uuid : String) : ℕ → Stamp := fun _ => ⟨uuid, "2024-01-01T00:00:00.000Z"⟩

/-- One attempt that cannot reach Redis, and one without faults. -/
def lateAttempts : List Attempt :=
  [⟨stampAt "a", fun _ => .once .before⟩, ⟨stampAt "b", fun _ => .once .none⟩]

/-- One attempt that loses Redis at its second record, and one without faults. -/
def brokenAttempts : List Attempt :=
  [⟨stampAt "a", fun n => .once (if n = 2 then .before else .none)⟩,
    ⟨stampAt "b", fun _ => .once .none⟩]

/-- One attempt, the first `LPUSH` of which loses its reply and is sent again. -/
def resentAttempts : List Attempt :=
  [⟨stampAt "a", fun n => ⟨if n = 0 then 1 else 0, .none⟩⟩]

theorem records_of_attempts_late :
    ∃ d, run (deliver "order.created" sampleEvent) (Delivery.initial fun _ => []) lateAttempts =
        some d ∧ receivedFor d sampleEvent "email" = 1 := by
  obtain ⟨d, hd⟩ := Option.isSome_iff_exists.mp
    (show (run (deliver "order.created" sampleEvent) (Delivery.initial fun _ => [])
      lateAttempts).isSome = true by decide)
  have hacked : d.acked = true := by
    have : (run (deliver "order.created" sampleEvent) (Delivery.initial fun _ => [])
        lateAttempts).map Delivery.acked = some true := by decide
    rw [hd] at this
    exact Option.some.inj this
  obtain ⟨failed, last, hes, -, -, -, hone⟩ := records_of_attempts hd hacked
  obtain ⟨rfl, hlast⟩ := List.append_inj' (show failed ++ [last] =
    [⟨stampAt "a", fun _ => .once .before⟩] ++ [_] from hes.symm) rfl
  obtain rfl := List.singleton_inj.mp hlast
  exact ⟨d, hd, hone.mpr ⟨by simp [Outcome.once, Outcome.executions], fun _ _ => rfl⟩ "email"
    (by decide)⟩

/-- A lost reply is enough: the email record is pushed twice, in one attempt that succeeds. -/
example : (run (deliver "order.created" sampleEvent) (Delivery.initial fun _ => [])
    resentAttempts).map (fun d => (d.acked, receivedFor d sampleEvent "email")) =
      some (true, 2) := by
  decide

/-- The failed attempt has stored its email record already: the history receives two. -/
theorem email_recorded_twice :
    ¬ ∀ (queue : String) (order : OrderEvent) (lists : String → List Notification)
      (es : List Attempt) (d : Delivery),
      run (deliver queue order) (Delivery.initial lists) es = some d → d.acked = true →
        ∀ ch ∈ getChannelsForQueue queue, receivedFor d order ch = 1 := by
  intro hall
  obtain ⟨d, hd⟩ := Option.isSome_iff_exists.mp
    (show (run (deliver "order.created" sampleEvent) (Delivery.initial fun _ => [])
      brokenAttempts).isSome = true by decide)
  have htwo : (run (deliver "order.created" sampleEvent) (Delivery.initial fun _ => [])
      brokenAttempts).map (fun d => (d.acked, receivedFor d sampleEvent "email")) =
        some (true, 2) := by decide
  rw [hd, Option.map_some, Option.some.injEq, Prod.mk.injEq] at htwo
  have hone := hall "order.created" sampleEvent (fun _ => []) brokenAttempts d hd htwo.1 "email"
    (by decide)
  omega

end DevopsEcommerce.NotificationWorker
