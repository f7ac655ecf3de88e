import DevopsEcommerce.NotificationWorker.Consumer

/-!
# Connections of a worker process

`connectAndConsume` and all that can call it: the server once it listens, and the timers that the
`close` listeners of connections set. A call runs from one `await` to the next; in between it
assigns the variables of the module, and at the end of its `try` it registers listeners and
consumers on what they hold by then.

`amqplib` emits `close` at most once on a connection. A connection can also be lost without it.
-/

open Interleaving

namespace DevopsEcommerce.NotificationWorker

def initialRetryDelay : ℕ := 1000

def maxRetryDelay : ℕ := 30000

/-- A connection that `amqplib.connect` has opened. -/
structure Connection where
  isOpen : Bool
  /-- `close` has been emitted. -/
  hasClosed : Bool
  /-- The delays of the timers that its `close` listeners set. -/
  closeListeners : List ℕ
  /-- The queues of the consumers on its channel. -/
  consumers : List String

def Connection.opened : Connection where
  isOpen := true
  hasClosed := false
  closeListeners := []
  consumers := []

/-- The `close` listeners that are still to be called. -/
def Connection.pending (conn : Connection) : ℕ :=
  if conn.hasClosed then 0 else conn.closeListeners.length

/-- Consumers are registered together with a listener. -/
structure Connection.Watched (conn : Connection) : Prop where
  listened : ∀ queue, conn.consumers.count queue ≤ conn.closeListeners.length
  hasClosed_of_isOpen : conn.isOpen = true → conn.hasClosed = false

/-- What a call of `connectAndConsume` waits for. -/
inductive Await where
  | connect
  | createChannel (c : ℕ)
  | assertExchange
  /-- With the queues that come after it. -/
  | assertQueue (queue : String) (rest : List String)
  | bindQueue (queue : String) (rest : List String)
  | sleep
deriving DecidableEq

structure Call where
  retryDelay : ℕ
  await : Await

/-- The first `await` of `connectAndConsume`. -/
def Call.start : Call where
  retryDelay := initialRetryDelay
  await := .connect

/-- A worker process, as far as its connections go. -/
structure Connector where
  listening : Bool
  calls : List Call
  /-- The delays of the pending `setTimeout(connectAndConsume, retryDelay)`. -/
  timers : List ℕ
  /-- In the order in which they were opened. -/
  connections : List Connection
  /-- The variable of the module. -/
  connection : Option ℕ
  /-- The variable of the module, by the connection that the channel is on. -/
  channel : Option ℕ
  /-- `connectionStatus` -/
  connectionStatus : ℕ
  /-- The intervals that are running. -/
  intervals : List ℕ
  /-- How many intervals have been set. -/
  intervalsSet : ℕ
  /-- The variable of the module. -/
  depthInterval : Option ℕ

inductive ConnectorLabel where
  | listen
  | resolve (i : ℕ)
  | reject (i : ℕ)
  | timeout (j : ℕ)
  | close (c : ℕ)
  | lose (c : ℕ)
  | error (c : ℕ)

namespace Connector

def initial : Connector where
  listening := false
  calls := []
  timers := []
  connections := []
  connection := none
  channel := none
  connectionStatus := 0
  intervals := []
  intervalsSet := 0
  depthInterval := none

def setAwait (s : Connector) (i : ℕ) (call : Call) (await : Await) : Connector :=
  { s with calls := s.calls.set i { call with await := await } }

def onConnection (s : Connector) (c : ℕ) (f : Connection → Connection) : Connector :=
  match s.connections[c]? with
  | some conn => { s with connections := s.connections.set c (f conn) }
  | none => s

/-- The `catch`. -/
def caught (s : Connector) (i : ℕ) (call : Call) : Connector :=
  { s with connectionStatus := 0 }.setAwait i call .sleep

/-- The `close` listener that `connection.on` adds. -/
def listenClose (retryDelay : ℕ) (conn : Connection) : Connection :=
  { conn with closeListeners := conn.closeListeners ++ [retryDelay] }

/-- `channel.consume` for each of the queues. -/
def consumeAll (conn : Connection) : Connection :=
  { conn with consumers := conn.consumers ++ queues }

/-- `depthInterval = setInterval(pollQueueDepths, 15_000)` -/
def startPolling (s : Connector) : Connector :=
  { s with
    intervals := s.intervals ++ [s.intervalsSet]
    intervalsSet := s.intervalsSet + 1
    depthInterval := some s.intervalsSet }

/-- `if (depthInterval) clearInterval(depthInterval)` -/
def stopPolling (s : Connector) : Connector :=
  match s.depthInterval with
  | some interval => { s with intervals := s.intervals.filter fun j => j ≠ interval }
  | none => s

/-- What follows the loop over the queues, up to the `break`. -/
def setUp (s : Connector) (i : ℕ) (call : Call) : Connector :=
  match s.connection, s.channel with
  | some c, some d =>
    let s := { s with connectionStatus := 1, calls := s.calls.eraseIdx i }
    ((s.onConnection c (listenClose initialRetryDelay)).onConnection d consumeAll).startPolling
  | _, _ => s.caught i call

/-- The next round of the loop over the queues. -/
def nextQueue (s : Connector) (i : ℕ) (call : Call) : List String → Connector
  | [] => s.setUp i call
  | queue :: rest => s.setAwait i call (.assertQueue queue rest)

/-- What call `i` waits for is there. -/
def resume (s : Connector) (i : ℕ) (call : Call) : Connector :=
  match call.await with
  | .connect =>
    { s with
      connections := s.connections ++ [Connection.opened]
      connection := some s.connections.length }.setAwait i call
        (.createChannel s.connections.length)
  | .createChannel c => { s with channel := some c }.setAwait i call .assertExchange
  | .assertExchange => s.nextQueue i call queues
  | .assertQueue queue rest => s.setAwait i call (.bindQueue queue rest)
  | .bindQueue _ rest => s.nextQueue i call rest
  | .sleep =>
    s.setAwait i { call with retryDelay := min (call.retryDelay * 2) maxRetryDelay } .connect

/-- A `close` listener. -/
def onClose (s : Connector) (retryDelay : ℕ) : Connector :=
  { { s with connectionStatus := 0 }.stopPolling with timers := s.timers ++ [retryDelay] }

def step (s : Connector) : ConnectorLabel → Option Connector
  | .listen =>
    if s.listening then none
    else some { s with listening := true, calls := s.calls ++ [.start] }
  | .resolve i => s.calls[i]?.map fun call => s.resume i call
  | .reject i =>
    (s.calls[i]?.filter fun call => call.await ≠ .sleep).map fun call => s.caught i call
  | .timeout j =>
    s.timers[j]?.map fun _ =>
      { s with timers := s.timers.eraseIdx j, calls := s.calls ++ [.start] }
  | .close c =>
    (s.connections[c]?.filter fun conn => !conn.hasClosed).map fun conn =>
      conn.closeListeners.foldl onClose
        { s with connections :=
            s.connections.set c { conn with isOpen := false, hasClosed := true } }
  | .lose c =>
    s.connections[c]?.map fun conn =>
      { s with connections := s.connections.set c { conn with isOpen := false } }
  | .error c =>
    -- without the listener the process ends
    (s.connections[c]?.filter fun conn => conn.closeListeners ≠ []).map fun _ =>
      { s with connectionStatus := 0 }

/-! ## What keeps the calls apart -/

/-- The calls that run or are to come: one when the server listens, one for each timer, and one
for each `close` listener that is still to be called. -/
def expected (s : Connector) : ℕ :=
  s.calls.length + s.timers.length + (s.connections.map Connection.pending).sum +
    if s.listening then 0 else 1

/-- The variables of the module hold what the call has put into them. -/
def Holds (s : Connector) : Await → Prop
  | .createChannel c => s.connection = some c
  | .assertExchange | .assertQueue .. | .bindQueue .. =>
    ∃ c, s.connection = some c ∧ s.channel = some c
  | .connect | .sleep => True

lemma Holds.of_eq {s s' : Connector} {await : Await} (h : s.Holds await)
    (hconnection : s'.connection = s.connection) (hchannel : s'.channel = s.channel) :
    s'.Holds await := by
  cases await with
  | connect => trivial
  | sleep => trivial
  | createChannel c => exact hconnection.trans h
  | assertExchange =>
    obtain ⟨c, hc, hd⟩ := h
    exact ⟨c, hconnection.trans hc, hchannel.trans hd⟩
  | assertQueue queue rest =>
    obtain ⟨c, hc, hd⟩ := h
    exact ⟨c, hconnection.trans hc, hchannel.trans hd⟩
  | bindQueue queue rest =>
    obtain ⟨c, hc, hd⟩ := h
    exact ⟨c, hconnection.trans hc, hchannel.trans hd⟩

structure Single (s : Connector) : Prop where
  expected_le : s.expected ≤ 1
  holds : ∀ call ∈ s.calls, s.Holds call.await
  watched : ∀ conn ∈ s.connections, conn.Watched

lemma Single.initial : Single initial where
  expected_le := Nat.le_refl 1
  holds _ hcall := absurd hcall List.not_mem_nil
  watched _ hconn := absurd hconn List.not_mem_nil

/-- While a call runs, no other is there or to come. -/
lemma Single.of_call {s : Connector} (h : Single s) {i : ℕ} {call : Call}
    (hi : s.calls[i]? = some call) :
    i = 0 ∧ s.calls = [call] ∧ s.timers = [] ∧ (s.connections.map Connection.pending).sum = 0 ∧
      s.listening = true := by
  have hle := h.expected_le
  obtain ⟨hlt, -⟩ := List.getElem?_eq_some_iff.mp hi
  unfold expected at hle
  have hlength : s.calls.length = 1 := by omega
  have hzero : i = 0 := by omega
  subst hzero
  obtain ⟨call', hcalls⟩ := List.length_eq_one_iff.mp hlength
  rw [hcalls, List.getElem?_cons_zero, Option.some.injEq] at hi
  refine ⟨rfl, hi ▸ hcalls, List.length_eq_zero_iff.mp (by omega), by omega, ?_⟩
  by_contra hlistening
  rw [if_neg hlistening] at hle
  omega

/-- The call waits for something else, and may have opened a connection. -/
lemma Single.goesOn {s s' : Connector} (h : Single s) {i : ℕ} {call call' : Call}
    (hi : s.calls[i]? = some call) (hcalls : s'.calls = s.calls.set i call')
    (htimers : s'.timers = s.timers) (hlistening : s'.listening = s.listening)
    (hconnections : s'.connections = s.connections ∨
      s'.connections = s.connections ++ [Connection.opened])
    (hholds : s'.Holds call'.await) : Single s' := by
  obtain ⟨rfl, hone, -, -, -⟩ := h.of_call hi
  constructor
  · have hpending : (s'.connections.map Connection.pending).sum =
        (s.connections.map Connection.pending).sum := by
      rcases hconnections with hsame | hopened
      · rw [hsame]
      · rw [hopened, List.map_append, List.sum_append]
        rfl
    have hle := h.expected_le
    unfold expected at hle ⊢
    rw [hcalls, htimers, hpending, hlistening, List.length_set]
    exact hle
  · intro call₁ hcall₁
    rw [hcalls, hone, List.set_cons_zero, List.mem_singleton] at hcall₁
    rw [hcall₁]
    exact hholds
  · intro conn hconn
    rcases hconnections with hsame | hopened
    · exact h.watched conn (hsame ▸ hconn)
    · rw [hopened] at hconn
      rcases List.mem_append.mp hconn with hold | hnew
      · exact h.watched conn hold
      · -- a connection that has just opened has neither listeners nor consumers
        rw [List.mem_singleton.mp hnew]
        exact ⟨fun _ => Nat.le_refl 0, fun _ => rfl⟩

lemma Single.caught {s : Connector} (h : Single s) {i : ℕ} {call : Call}
    (hi : s.calls[i]? = some call) : Single (s.caught i call) :=
  h.goesOn hi rfl rfl rfl (.inl rfl) trivial

lemma nodup_queues : queues.Nodup := by decide

/-- A new listener, and consumers together with it. -/
lemma watched_setUp {conn : Connection} (h : conn.Watched) :
    (consumeAll (listenClose initialRetryDelay conn)).Watched where
  listened queue := by
    have hold := h.listened queue
    have hnew := List.nodup_iff_count_le_one.mp nodup_queues queue
    show (conn.consumers ++ queues).count queue ≤ (conn.closeListeners ++ [_]).length
    rw [List.count_append, List.length_append, List.length_singleton]
    omega
  hasClosed_of_isOpen := h.hasClosed_of_isOpen

lemma pending_setUp_le (conn : Connection) :
    (consumeAll (listenClose initialRetryDelay conn)).pending ≤ conn.pending + 1 := by
  show (if conn.hasClosed then 0 else (conn.closeListeners ++ [_]).length) ≤ _
  unfold Connection.pending
  rw [List.length_append, List.length_singleton]
  split <;> omega

/-- The set-up, when both variables are about one connection. -/
lemma setUp_eq {s : Connector} {c : ℕ} (i : ℕ) (call : Call) (hconnection : s.connection = some c)
    (hchannel : s.channel = some c) :
    (s.setUp i call).calls = s.calls.eraseIdx i ∧ (s.setUp i call).timers = s.timers ∧
      (s.setUp i call).listening = s.listening ∧ (s.setUp i call).channel = s.channel ∧
      ((s.setUp i call).connections = s.connections ∧ s.connections[c]? = none ∨
        ∃ conn, s.connections[c]? = some conn ∧ (s.setUp i call).connections =
          s.connections.set c (consumeAll (listenClose initialRetryDelay conn))) := by
  unfold setUp
  simp only [hconnection, hchannel, onConnection, startPolling]
  cases hc : s.connections[c]? with
  | none => simp [hc]
  | some conn => simp [getElem?_set_moved hc]

/-- The call ends, and its connection gets a listener. -/
lemma Single.setUp {s : Connector} (h : Single s) {i : ℕ} {call : Call}
    (hi : s.calls[i]? = some call)
    (hholds : ∃ c, s.connection = some c ∧ s.channel = some c) : Single (s.setUp i call) := by
  obtain ⟨c, hconnection, hchannel⟩ := hholds
  obtain ⟨rfl, hone, htimers, hpending, hlistening⟩ := h.of_call hi
  obtain ⟨hcalls', htimers', hlistening', -, hconnections'⟩ :=
    setUp_eq 0 call hconnection hchannel
  have hnone : (s.setUp 0 call).calls = [] := by rw [hcalls', hone]; rfl
  constructor
  · have hpending' : ((s.setUp 0 call).connections.map Connection.pending).sum ≤ 1 := by
      rcases hconnections' with ⟨hsame, -⟩ | ⟨conn, hc, hset⟩
      · rw [hsame, hpending]
        exact Nat.zero_le 1
      · have hsum := sum_map_set hc Connection.pending
          (consumeAll (listenClose initialRetryDelay conn))
        have hle := pending_setUp_le conn
        rw [hset]
        omega
    unfold expected
    rw [hnone, htimers', htimers, hlistening', hlistening]
    simpa using hpending'
  · rw [hnone]
    exact fun call' hcall' => absurd hcall' List.not_mem_nil
  · rcases hconnections' with ⟨hsame, -⟩ | ⟨conn, hc, hset⟩
    · rw [hsame]
      exact h.watched
    · rw [hset]
      exact forall_mem_set _ h.watched (watched_setUp (h.watched conn (List.mem_of_getElem? hc)))

lemma Single.nextQueue {s : Connector} (h : Single s) {i : ℕ} {call : Call}
    (hi : s.calls[i]? = some call) (hholds : ∃ c, s.connection = some c ∧ s.channel = some c)
    (rest : List String) : Single (s.nextQueue i call rest) := by
  cases rest with
  | nil => exact h.setUp hi hholds
  | cons queue rest => exact h.goesOn hi rfl rfl rfl (.inl rfl) hholds

lemma Single.resume {s : Connector} (h : Single s) {i : ℕ} {call : Call}
    (hi : s.calls[i]? = some call) : Single (s.resume i call) := by
  have hholds := h.holds call (List.mem_of_getElem? hi)
  unfold Connector.resume
  cases hawait : call.await with
  | connect => exact h.goesOn hi rfl rfl rfl (.inr rfl) rfl
  | createChannel c =>
    rw [hawait] at hholds
    exact h.goesOn hi rfl rfl rfl (.inl rfl) ⟨c, hholds, rfl⟩
  | assertExchange =>
    rw [hawait] at hholds
    exact h.nextQueue hi hholds _
  | assertQueue queue rest =>
    rw [hawait] at hholds
    exact h.goesOn hi rfl rfl rfl (.inl rfl) hholds
  | bindQueue queue rest =>
    rw [hawait] at hholds
    exact h.nextQueue hi hholds rest
  | sleep => exact h.goesOn hi rfl rfl rfl (.inl rfl) trivial

lemma foldl_onClose (s : Connector) (delays : List ℕ) :
    (delays.foldl onClose s).timers = s.timers ++ delays ∧
      (delays.foldl onClose s).calls = s.calls ∧
      (delays.foldl onClose s).connections = s.connections ∧
      (delays.foldl onClose s).connection = s.connection ∧
      (delays.foldl onClose s).channel = s.channel ∧
      (delays.foldl onClose s).listening = s.listening := by
  induction delays generalizing s with
  | nil => exact ⟨(List.append_nil _).symm, rfl, rfl, rfl, rfl, rfl⟩
  | cons delay delays ih =>
    obtain ⟨htimers, hcalls, hconnections, hconnection, hchannel, hlistening⟩ :=
      ih (s.onClose delay)
    have hclose : s.onClose delay = { s with
        connectionStatus := 0
        timers := s.timers ++ [delay]
        intervals := (s.onClose delay).intervals } := by
      unfold onClose stopPolling
      split <;> rfl
    rw [List.foldl_cons, htimers, hcalls, hconnections, hconnection, hchannel, hlistening, hclose]
    exact ⟨List.append_assoc _ _ _, rfl, rfl, rfl, rfl, rfl⟩

/-- Another call starts, since the server listens or a timer has run out. -/
lemma Single.start {s s' : Connector} (h : Single s) (hcalls : s'.calls = s.calls ++ [.start])
    (hconnections : s'.connections = s.connections) (hconnection : s'.connection = s.connection)
    (hchannel : s'.channel = s.channel)
    (hexpected : s'.timers.length + (if s'.listening then 0 else 1) + 1 ≤
      s.timers.length + if s.listening then 0 else 1) : Single s' := by
  constructor
  · have hle := h.expected_le
    unfold expected at hle ⊢
    rw [hcalls, hconnections, List.length_append, List.length_singleton]
    omega
  · intro call hcall
    rw [hcalls] at hcall
    rcases List.mem_append.mp hcall with hold | hnew
    · exact (h.holds call hold).of_eq hconnection hchannel
    · rw [List.mem_singleton.mp hnew]
      trivial
  · rw [hconnections]
    exact h.watched

/-- The `close` listeners of a connection are called, and each sets a timer. -/
lemma Single.close {s : Connector} (h : Single s) {c : ℕ} {conn : Connection}
    (hc : s.connections[c]? = some conn) (hopen : conn.hasClosed = false) :
    Single (conn.closeListeners.foldl onClose
      { s with connections :=
          s.connections.set c { conn with isOpen := false, hasClosed := true } }) := by
  obtain ⟨htimers, hcalls, hconnections, hconnection, hchannel, hlistening⟩ := foldl_onClose
    { s with connections := s.connections.set c { conn with isOpen := false, hasClosed := true } }
    conn.closeListeners
  constructor
  · have hle := h.expected_le
    have hsum := sum_map_set hc Connection.pending { conn with isOpen := false, hasClosed := true }
    have hbefore : conn.pending = conn.closeListeners.length := by simp [Connection.pending, hopen]
    have hafter : ({ conn with isOpen := false, hasClosed := true } : Connection).pending = 0 :=
      if_pos rfl
    rw [hbefore, hafter] at hsum
    unfold expected at hle ⊢
    rw [htimers, hcalls, hconnections, hlistening, List.length_append]
    simp only
    omega
  · rw [hcalls]
    exact fun call hcall => (h.holds call hcall).of_eq hconnection hchannel
  · rw [hconnections]
    have hwatched := h.watched conn (List.mem_of_getElem? hc)
    exact forall_mem_set _ h.watched ⟨hwatched.listened, fun hopen => by cases hopen⟩

/-- A connection is lost. -/
lemma Single.lose {s : Connector} (h : Single s) {c : ℕ} {conn : Connection}
    (hc : s.connections[c]? = some conn) :
    Single { s with connections := s.connections.set c { conn with isOpen := false } } where
  expected_le := by
    have hle := h.expected_le
    have hsum := sum_map_set hc Connection.pending { conn with isOpen := false }
    have hsame : ({ conn with isOpen := false } : Connection).pending = conn.pending := rfl
    unfold expected at hle ⊢
    simp only
    omega
  holds := h.holds
  watched := by
    have hwatched := h.watched conn (List.mem_of_getElem? hc)
    exact forall_mem_set _ h.watched ⟨hwatched.listened, fun hopen => by cases hopen⟩

theorem Single.preserved : Preserved Connector.step Single := by
  intro s e s' h hstep
  cases e with
  | listen =>
    simp only [Connector.step, Option.ite_none_left_eq_some, Option.some.injEq] at hstep
    obtain ⟨hlistening, rfl⟩ := hstep
    refine h.start rfl rfl rfl rfl ?_
    rw [if_neg hlistening]
    exact Nat.le_refl _
  | resolve i =>
    obtain ⟨call, hi, rfl⟩ := Option.map_eq_some_iff.mp hstep
    exact h.resume hi
  | reject i =>
    obtain ⟨call, hi, rfl⟩ := Option.map_eq_some_iff.mp hstep
    exact h.caught (Option.filter_eq_some_iff.mp hi).1
  | timeout j =>
    obtain ⟨delay, hj, rfl⟩ := Option.map_eq_some_iff.mp hstep
    refine h.start rfl rfl rfl rfl ?_
    have hlength := List.length_eraseIdx_add_one (List.getElem?_eq_some_iff.mp hj).1
    show (s.timers.eraseIdx j).length + (if s.listening then 0 else 1) + 1 ≤ _
    omega
  | close c =>
    obtain ⟨conn, hc, rfl⟩ := Option.map_eq_some_iff.mp hstep
    obtain ⟨hc, hopen⟩ := Option.filter_eq_some_iff.mp hc
    exact h.close hc (by simpa using hopen)
  | lose c =>
    obtain ⟨conn, hc, rfl⟩ := Option.map_eq_some_iff.mp hstep
    exact h.lose hc
  | error c =>
    obtain ⟨conn, hc, rfl⟩ := Option.map_eq_some_iff.mp hstep
    exact ⟨h.expected_le, h.holds, h.watched⟩

/-! ## Polling -/

/-- Nothing polls, or the interval of the module's variable does, and no call is there that could
set another one. -/
def Polls (s : Connector) : Prop :=
  s.intervals = [] ∨
    s.calls = [] ∧ s.timers = [] ∧ s.listening = true ∧
      ∃ interval, s.intervals = [interval] ∧ s.depthInterval = some interval

lemma Polls.of_call {s : Connector} (h : Polls s) {i : ℕ} {call : Call}
    (hi : s.calls[i]? = some call) : s.intervals = [] := by
  rcases h with hnone | ⟨hcalls, -⟩
  · exact hnone
  · rw [hcalls] at hi
    cases hi

lemma setUp_intervals {s : Connector} {c : ℕ} (i : ℕ) (call : Call)
    (hconnection : s.connection = some c) (hchannel : s.channel = some c) :
    (s.setUp i call).intervals = s.intervals ++ [s.intervalsSet] ∧
      (s.setUp i call).depthInterval = some s.intervalsSet := by
  unfold setUp
  simp only [hconnection, hchannel, onConnection, startPolling]
  cases hc : s.connections[c]? with
  | none => simp [hc]
  | some conn => simp [getElem?_set_moved hc]

lemma Polls.nextQueue {s : Connector} (h : Single s) (hnone : s.intervals = []) {i : ℕ}
    {call : Call} (hi : s.calls[i]? = some call)
    (hholds : ∃ c, s.connection = some c ∧ s.channel = some c) (rest : List String) :
    Polls (s.nextQueue i call rest) := by
  cases rest with
  | cons queue rest => exact .inl hnone
  | nil =>
    obtain ⟨c, hconnection, hchannel⟩ := hholds
    obtain ⟨rfl, hone, htimers, -, hlistening⟩ := h.of_call hi
    obtain ⟨hcalls', htimers', hlistening', -, -⟩ := setUp_eq 0 call hconnection hchannel
    obtain ⟨hintervals, hinterval⟩ := setUp_intervals 0 call hconnection hchannel
    rw [hone] at hcalls'
    rw [hnone] at hintervals
    exact .inr ⟨hcalls', htimers'.trans htimers, hlistening'.trans hlistening, _, hintervals,
      hinterval⟩

/-- The first of the listeners stops the polling. -/
lemma polls_foldl_onClose {s : Connector} (h : Polls s) (delays : List ℕ) :
    Polls (delays.foldl onClose s) := by
  have hstop : ∀ s : Connector, Polls s → ∀ delay, (s.onClose delay).intervals = [] := by
    rintro s (hnone | ⟨-, -, -, interval, hintervals, hinterval⟩) delay
    · unfold onClose stopPolling
      split
      · show s.intervals.filter _ = []
        rw [hnone, List.filter_nil]
      · exact hnone
    · unfold onClose stopPolling
      simp [hinterval, hintervals]
  induction delays generalizing s with
  | nil => exact h
  | cons delay delays ih => exact ih (.inl (hstop s h delay))

theorem Polls.preserved : Preserved Connector.step fun s => Single s ∧ Polls s := by
  rintro s e s' ⟨hsingle, h⟩ hstep
  refine ⟨Single.preserved s e s' hsingle hstep, ?_⟩
  cases e with
  | listen =>
    simp only [Connector.step, Option.ite_none_left_eq_some, Option.some.injEq] at hstep
    obtain ⟨hlistening, rfl⟩ := hstep
    rcases h with hnone | ⟨-, -, hlistens, -⟩
    · exact .inl hnone
    · exact absurd hlistens hlistening
  | resolve i =>
    obtain ⟨call, hi, rfl⟩ := Option.map_eq_some_iff.mp hstep
    have hnone := h.of_call hi
    have hholds := hsingle.holds call (List.mem_of_getElem? hi)
    unfold Connector.resume
    cases hawait : call.await with
    | connect => exact .inl hnone
    | createChannel c => exact .inl hnone
    | assertExchange =>
      rw [hawait] at hholds
      exact Polls.nextQueue hsingle hnone hi hholds queues
    | assertQueue queue rest => exact .inl hnone
    | bindQueue queue rest =>
      rw [hawait] at hholds
      exact Polls.nextQueue hsingle hnone hi hholds rest
    | sleep => exact .inl hnone
  | reject i =>
    obtain ⟨call, hi, rfl⟩ := Option.map_eq_some_iff.mp hstep
    exact .inl (h.of_call (Option.filter_eq_some_iff.mp hi).1)
  | timeout j =>
    obtain ⟨delay, hj, rfl⟩ := Option.map_eq_some_iff.mp hstep
    rcases h with hnone | ⟨-, htimers, -⟩
    · exact .inl hnone
    · -- while something polls, no timer is there that could expire
      rw [htimers] at hj
      cases hj
  | close c =>
    obtain ⟨conn, hc, rfl⟩ := Option.map_eq_some_iff.mp hstep
    have hclosed : Polls
        { s with
          connections := s.connections.set c { conn with isOpen := false, hasClosed := true } } := h
    exact polls_foldl_onClose hclosed conn.closeListeners
  | lose c =>
    obtain ⟨conn, hc, rfl⟩ := Option.map_eq_some_iff.mp hstep
    exact h
  | error c =>
    obtain ⟨conn, hc, rfl⟩ := Option.map_eq_some_iff.mp hstep
    exact h

/-- The depths of the queues are polled by at most one interval. -/
theorem one_interval {es : List ConnectorLabel} {s : Connector}
    (hrun : run Connector.step initial es = some s) : s.intervals.length ≤ 1 := by
  obtain ⟨-, hnone | ⟨-, -, -, interval, hintervals, -⟩⟩ :=
    run_invariant Polls.preserved ⟨Single.initial, .inl rfl⟩ hrun
  · rw [hnone]
    exact Nat.zero_le 1
  · rw [hintervals]
    exact Nat.le_refl 1

/-! ## At most one consumer -/

/-- An open connection has a listener that is to be called for each consumer of a queue. -/
lemma count_le_pending {conn : Connection} (h : conn.Watched) (hopen : conn.isOpen = true)
    (queue : String) : conn.consumers.count queue ≤ conn.pending := by
  rw [Connection.pending, h.hasClosed_of_isOpen hopen]
  exact h.listened queue

lemma countP_le_sum_pending {connections : List Connection}
    (h : ∀ conn ∈ connections, conn.Watched) :
    connections.countP (fun conn => conn.isOpen && !conn.consumers.isEmpty) ≤
      (connections.map Connection.pending).sum := by
  refine countP_le_sum_map fun conn hconn hconsumes => ?_
  rw [Bool.and_eq_true, Bool.not_eq_true', List.isEmpty_eq_false_iff] at hconsumes
  obtain ⟨queue, hqueue⟩ := List.exists_mem_of_ne_nil _ hconsumes.2
  have hlistened := count_le_pending (h conn hconn) hconsumes.1 queue
  exact Nat.le_trans (List.count_pos_iff.mpr hqueue) hlistened

lemma sum_count_le_sum_pending {connections : List Connection}
    (h : ∀ conn ∈ connections, conn.Watched) (queue : String) :
    ((connections.filter Connection.isOpen).map fun conn => conn.consumers.count queue).sum ≤
      (connections.map Connection.pending).sum := by
  induction connections with
  | nil => exact Nat.le_refl 0
  | cons conn connections ih =>
    have hrest := ih fun conn' hconn' => h conn' (List.mem_cons_of_mem _ hconn')
    have hwatched := h conn List.mem_cons_self
    rw [List.map_cons, List.sum_cons, List.filter_cons]
    split
    · rename_i hopen
      have hlistened := count_le_pending hwatched hopen queue
      rw [List.map_cons, List.sum_cons]
      omega
    · omega

/-- A worker process consumes over at most one connection, and while it does no call of
`connectAndConsume` runs or is to come. No queue has two consumers. -/
theorem one_consumer {es : List ConnectorLabel} {s : Connector}
    (hrun : run Connector.step initial es = some s) :
    s.calls.length + s.timers.length +
        s.connections.countP (fun conn => conn.isOpen && !conn.consumers.isEmpty) ≤ 1 ∧
      ∀ queue, ((s.connections.filter Connection.isOpen).map fun conn =>
        conn.consumers.count queue).sum ≤ 1 := by
  have h : Single s := run_invariant Single.preserved Single.initial hrun
  have hle := h.expected_le
  unfold expected at hle
  constructor
  · have hconsuming := countP_le_sum_pending h.watched
    omega
  · intro queue
    have hqueue := sum_count_le_sum_pending h.watched queue
    omega

/-- The first set-up, the end of its connection, and a second set-up that fails once. -/
def reconnection : List ConnectorLabel :=
  [.listen] ++ List.replicate 9 (.resolve 0) ++ [.close 0, .timeout 0, .resolve 0, .reject 0] ++
    List.replicate 10 (.resolve 0)

theorem one_consumer_reconnection :
    ∃ s, run Connector.step initial reconnection = some s ∧
      s.connections.countP (fun conn => conn.isOpen && !conn.consumers.isEmpty) = 1 ∧
      s.calls.length + s.timers.length +
        s.connections.countP (fun conn => conn.isOpen && !conn.consumers.isEmpty) ≤ 1 := by
  have hrun : (run Connector.step initial reconnection).isSome = true := rfl
  exact ⟨_, run_final hrun, by decide +revert, (one_consumer (run_final hrun)).1⟩

theorem one_interval_reconnection :
    ∃ s, run Connector.step initial reconnection = some s ∧ s.intervals.length ≤ 1 := by
  have hrun : (run Connector.step initial reconnection).isSome = true := rfl
  exact ⟨_, run_final hrun, one_interval (run_final hrun)⟩

end Connector

end DevopsEcommerce.NotificationWorker
