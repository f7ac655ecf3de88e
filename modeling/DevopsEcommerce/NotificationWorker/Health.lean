import DevopsEcommerce.NotificationWorker.HttpServer
import DevopsEcommerce.NotificationWorker.Reconnection

/-!
# Health of a worker process

`/health` looks at the variable `channel`, which is assigned when a channel is created and never
again. The gauge `notification_rabbitmq_connected` goes to 1 at the end of a set-up, and back to 0
in the `error` and `close` listeners and in the `catch`. The two part as soon as something goes
wrong after the first channel has been created (`health_iff`).
-/

open Interleaving Js

namespace DevopsEcommerce.NotificationWorker.Connector

open Untyped (Process Replies HttpCommand Response listener)

/-- What the listener of the HTTP server finds in its process. -/
def process (base : Process) (s : Connector) : Process :=
  { base with hasChannel := s.channel.isSome }

/-- The statuses of the responses that a request of `/health` gets. -/
def healthStatuses (base : Process) (method : String) (reply : Replies) (s : Connector) : List ℕ :=
  (((listener (s.process base) method "/health").asked reply).filterMap
    HttpCommand.response?).map Response.status

/-- No set-up is in progress. A call that sleeps has given up its last one. -/
def Quiet (s : Connector) : Prop :=
  ∀ call ∈ s.calls, call.await = .sleep

instance (s : Connector) : Decidable s.Quiet :=
  inferInstanceAs (Decidable (∀ call ∈ s.calls, call.await = .sleep))

/-- The connection that the channel is on is open. -/
def HasOpenChannel (s : Connector) : Prop :=
  ∃ c conn, s.channel = some c ∧ s.connections[c]? = some conn ∧ conn.isOpen = true

instance (s : Connector) : Decidable s.HasOpenChannel :=
  decidable_of_iff
    (((s.channel.bind fun c => s.connections[c]?).any Connection.isOpen) = true) (by
      unfold HasOpenChannel
      cases s.channel <;> simp [Option.any_eq_true])

/-- The call waits for the last thing that a set-up asks for. -/
def endsSetUp (call : Call) : Bool :=
  match call.await with
  | .bindQueue _ [] => true
  | _ => false

/-- The step takes nothing away that the worker has set up, and no set-up fails after a channel
has been created. -/
def Unharmed (s : Connector) : ConnectorLabel → Prop
  | .reject _ => s.channel = none
  | .close c => s.Quiet → ∀ conn, s.connections[c]? = some conn → conn.closeListeners = []
  | .error _ => ¬ s.Quiet
  | _ => True

/-- The step leaves the connection of the channel open, or finds it open when it ends a set-up. -/
def KeptOpen (s : Connector) : ConnectorLabel → Prop
  | .resolve i =>
    ∀ call, s.calls[i]? = some call → endsSetUp call = true → s.HasOpenChannel
  | .lose c => s.Quiet → s.channel ≠ some c
  | _ => True

instance (s : Connector) : (e : ConnectorLabel) → Decidable (s.Unharmed e)
  | .reject _ => inferInstanceAs (Decidable (s.channel = none))
  | .close c =>
    inferInstanceAs (Decidable (s.Quiet → ∀ conn ∈ s.connections[c]?, conn.closeListeners = []))
  | .error _ => inferInstanceAs (Decidable (¬ s.Quiet))
  | .listen | .resolve _ | .timeout _ | .lose _ => .isTrue trivial

instance (s : Connector) : (e : ConnectorLabel) → Decidable (s.KeptOpen e)
  | .resolve i =>
    inferInstanceAs (Decidable (∀ call ∈ s.calls[i]?, endsSetUp call = true → s.HasOpenChannel))
  | .lose c => inferInstanceAs (Decidable (s.Quiet → s.channel ≠ some c))
  | .listen | .reject _ | .timeout _ | .close _ | .error _ => .isTrue trivial

variable {base : Process} {method : String} {reply : Replies}

@[simp] lemma healthStatuses_eq (s : Connector) :
    s.healthStatuses base method reply = [if s.channel.isSome then 200 else 503] := by
  unfold healthStatuses listener
  rw [if_neg (by decide), if_pos rfl]
  rfl

lemma healthStatuses_eq_ok_iff {s : Connector} :
    s.healthStatuses base method reply = [200] ↔ s.channel ≠ none := by
  rw [healthStatuses_eq]
  cases s.channel <;> simp

/-! ## What a set-up leaves behind -/

/-- A connection with listeners has been set up together with a channel, and the gauge is at 1
only while nothing has happened to it since. -/
structure Remembers (s : Connector) : Prop where
  single : Single s
  inRange : ∀ c, s.connection = some c → c < s.connections.length
  channel_ne_none : ∀ conn ∈ s.connections, conn.closeListeners ≠ [] → s.channel ≠ none
  of_connected : s.connectionStatus = 1 →
    s.calls = [] ∧ s.timers = [] ∧ s.listening = true ∧
      ∃ c conn, s.channel = some c ∧ s.connections[c]? = some conn ∧ conn.closeListeners ≠ []

lemma Remembers.initial : Remembers initial where
  single := .initial
  inRange c hc := by cases hc
  channel_ne_none conn hconn := absurd hconn List.not_mem_nil
  of_connected h := by cases h

lemma Remembers.status_ne_one {s : Connector} (h : Remembers s) {i : ℕ} {call : Call}
    (hi : s.calls[i]? = some call) : s.connectionStatus ≠ 1 := by
  intro hconnected
  rw [(h.of_connected hconnected).1] at hi
  cases hi

/-- The call goes on, with the connections as they are or one more. -/
lemma Remembers.goesOn {s s' : Connector} (h : Remembers s) (hsingle : Single s')
    (hinRange : ∀ c, s'.connection = some c → c < s'.connections.length)
    (hconnections : s'.connections = s.connections ∨
      s'.connections = s.connections ++ [Connection.opened])
    (hchannel : s.channel ≠ none → s'.channel ≠ none) (hstatus : s'.connectionStatus ≠ 1) :
    Remembers s' where
  single := hsingle
  inRange := hinRange
  channel_ne_none conn hconn hlisteners := by
    rcases hconnections with hsame | hopened
    · exact hchannel (h.channel_ne_none conn (hsame ▸ hconn) hlisteners)
    · rw [hopened] at hconn
      rcases List.mem_append.mp hconn with hold | hnew
      · exact hchannel (h.channel_ne_none conn hold hlisteners)
      · rw [List.mem_singleton.mp hnew] at hlisteners
        exact absurd rfl hlisteners
  of_connected hconnected := absurd hconnected hstatus

lemma setUp_of_getElem? {s : Connector} {c : ℕ} {conn : Connection} (i : ℕ) (call : Call)
    (hconnection : s.connection = some c) (hchannel : s.channel = some c)
    (hc : s.connections[c]? = some conn) :
    s.setUp i call = startPolling { s with
      connectionStatus := 1
      calls := s.calls.eraseIdx i
      connections := s.connections.set c
        (consumeAll (listenClose initialRetryDelay conn)) } := by
  unfold setUp
  simp only [hconnection, hchannel, onConnection, hc, getElem?_set_moved hc, List.set_set]

lemma Remembers.setUp {s : Connector} (h : Remembers s) {i : ℕ} {call : Call}
    (hi : s.calls[i]? = some call)
    (hholds : ∃ c, s.connection = some c ∧ s.channel = some c) : Remembers (s.setUp i call) := by
  have hsingle := h.single.setUp hi hholds
  obtain ⟨c, hconnection, hchannel⟩ := hholds
  obtain ⟨rfl, hone, htimers, -, hlistening⟩ := h.single.of_call hi
  have hlt := h.inRange c hconnection
  have hc := List.getElem?_eq_getElem hlt
  rw [setUp_of_getElem? 0 call hconnection hchannel hc] at hsingle ⊢
  refine ⟨hsingle, ?_, ?_, fun _ => ⟨?_, htimers, hlistening, c, _, hchannel,
    getElem?_set_moved hc _, ?_⟩⟩
  · intro d hd
    exact lt_of_lt_of_eq (h.inRange d hd) List.length_set.symm
  · intro conn _ _
    exact hchannel ▸ Option.some_ne_none c
  · show s.calls.eraseIdx 0 = []
    rw [hone]
    rfl
  · exact List.append_ne_nil_of_right_ne_nil _ (List.cons_ne_nil _ _)

lemma Remembers.nextQueue {s : Connector} (h : Remembers s) {i : ℕ} {call : Call}
    (hi : s.calls[i]? = some call) (hholds : ∃ c, s.connection = some c ∧ s.channel = some c)
    (rest : List String) : Remembers (s.nextQueue i call rest) := by
  cases rest with
  | nil => exact h.setUp hi hholds
  | cons queue rest =>
    exact h.goesOn (h.single.nextQueue hi hholds (queue :: rest)) h.inRange (.inl rfl) id
      (h.status_ne_one hi)

lemma Remembers.resume {s : Connector} (h : Remembers s) {i : ℕ} {call : Call}
    (hi : s.calls[i]? = some call) : Remembers (s.resume i call) := by
  have hsingle := h.single.resume hi
  have hstatus := h.status_ne_one hi
  have hholds := h.single.holds call (List.mem_of_getElem? hi)
  unfold Connector.resume at hsingle ⊢
  cases hawait : call.await with
  | connect =>
    rw [hawait] at hsingle
    refine h.goesOn hsingle ?_ (.inr rfl) id hstatus
    rintro c ⟨⟩
    show s.connections.length < (s.connections ++ [Connection.opened]).length
    rw [List.length_append]
    exact Nat.lt_succ_self _
  | createChannel c =>
    rw [hawait] at hsingle
    exact h.goesOn hsingle h.inRange (.inl rfl) (fun _ => Option.some_ne_none c) hstatus
  | assertExchange =>
    rw [hawait] at hholds
    exact h.nextQueue hi hholds _
  | assertQueue queue rest =>
    rw [hawait] at hsingle
    exact h.goesOn hsingle h.inRange (.inl rfl) id hstatus
  | bindQueue queue rest =>
    rw [hawait] at hholds
    exact h.nextQueue hi hholds rest
  | sleep =>
    rw [hawait] at hsingle
    exact h.goesOn hsingle h.inRange (.inl rfl) id hstatus

lemma status_foldl_onClose (s : Connector) {delays : List ℕ} (h : delays ≠ []) :
    (delays.foldl onClose s).connectionStatus = 0 := by
  have hclose : ∀ (s : Connector) delay, (s.onClose delay).connectionStatus = 0 := by
    intro s delay
    unfold onClose stopPolling
    split <;> rfl
  obtain ⟨init, last, rfl⟩ := List.eq_nil_or_concat delays |>.resolve_left h
  rw [List.concat_eq_append, List.foldl_append]
  exact hclose _ _

/-- A connection is changed in other respects than its listeners. -/
lemma Remembers.change {s s' : Connector} (h : Remembers s) (hsingle : Single s') {c : ℕ}
    {conn conn' : Connection} (hc : s.connections[c]? = some conn)
    (hconnections : s'.connections = s.connections.set c conn')
    (hlisteners : conn'.closeListeners = conn.closeListeners)
    (hconnection : s'.connection = s.connection) (hchannel : s'.channel = s.channel)
    (hrest : s'.connectionStatus = 1 → s.connectionStatus = 1 ∧ s'.calls = s.calls ∧
      s'.timers = s.timers ∧ s'.listening = s.listening) : Remembers s' where
  single := hsingle
  inRange d hd := by
    rw [hconnections, List.length_set]
    exact h.inRange d (hconnection ▸ hd)
  channel_ne_none := by
    rw [hconnections, hchannel]
    exact forall_mem_set _ h.channel_ne_none
      (hlisteners ▸ h.channel_ne_none conn (List.mem_of_getElem? hc))
  of_connected hconnected := by
    obtain ⟨hbefore, hcalls, htimers, hlistening⟩ := hrest hconnected
    obtain ⟨hnone, hno, hlistens, d, watched, hd, hwatched, hne⟩ := h.of_connected hbefore
    refine ⟨hcalls.trans hnone, htimers.trans hno, hlistening.trans hlistens, d, ?_⟩
    rw [hchannel, hconnections]
    by_cases hdc : d = c
    · subst hdc
      obtain rfl : conn = watched := Option.some.inj (hc.symm.trans hwatched)
      exact ⟨conn', hd, getElem?_set_moved hc conn', hlisteners ▸ hne⟩
    · exact ⟨watched, hd, (List.getElem?_set_ne (Ne.symm hdc)).trans hwatched, hne⟩

theorem Remembers.preserved : Preserved Connector.step Remembers := by
  intro s e s' h hstep
  have hsingle := Single.preserved s e s' h.single hstep
  cases e with
  | listen =>
    simp only [Connector.step, Option.ite_none_left_eq_some, Option.some.injEq] at hstep
    obtain ⟨hlistening, rfl⟩ := hstep
    exact ⟨hsingle, h.inRange, h.channel_ne_none,
      fun hconnected => absurd (h.of_connected hconnected).2.2.1 hlistening⟩
  | resolve i =>
    obtain ⟨call, hi, rfl⟩ := Option.map_eq_some_iff.mp hstep
    exact h.resume hi
  | reject i =>
    obtain ⟨call, hi, rfl⟩ := Option.map_eq_some_iff.mp hstep
    exact h.goesOn hsingle h.inRange (.inl rfl) id Nat.zero_ne_one
  | timeout j =>
    obtain ⟨delay, hj, rfl⟩ := Option.map_eq_some_iff.mp hstep
    refine ⟨hsingle, h.inRange, h.channel_ne_none, fun hconnected => ?_⟩
    rw [(h.of_connected hconnected).2.1] at hj
    cases hj
  | close c =>
    obtain ⟨conn, hc, rfl⟩ := Option.map_eq_some_iff.mp hstep
    obtain ⟨hc, -⟩ := Option.filter_eq_some_iff.mp hc
    obtain ⟨htimers, hcalls, hconnections, hconnection, hchannel, hlistening⟩ := foldl_onClose
      { s with connections := s.connections.set c { conn with isOpen := false, hasClosed := true } }
      conn.closeListeners
    refine h.change hsingle hc hconnections rfl hconnection hchannel fun hconnected => ?_
    by_cases hlisteners : conn.closeListeners = []
    · rw [hlisteners] at hconnected ⊢
      exact ⟨hconnected, rfl, rfl, rfl⟩
    · -- a listener has set the gauge to 0
      rw [status_foldl_onClose _ hlisteners] at hconnected
      cases hconnected
  | lose c =>
    obtain ⟨conn, hc, rfl⟩ := Option.map_eq_some_iff.mp hstep
    exact h.change hsingle hc rfl rfl rfl rfl fun hconnected => ⟨hconnected, rfl, rfl, rfl⟩
  | error c =>
    obtain ⟨conn, hc, rfl⟩ := Option.map_eq_some_iff.mp hstep
    exact ⟨hsingle, h.inRange, h.channel_ne_none, fun hconnected => by cases hconnected⟩

/-! ## When `/health` and the gauge agree -/

/-- What `/health` looks at is what the gauge reads. -/
def Agrees (s : Connector) : Prop :=
  s.Quiet → (s.channel ≠ none ↔ s.connectionStatus = 1)

/-- The gauge tells whether the worker has an open channel. -/
def Truthful (s : Connector) : Prop :=
  s.Quiet → (s.connectionStatus = 1 ↔ s.HasOpenChannel)

lemma Quiet.of_calls {s s' : Connector} (h : s'.Quiet) (hcalls : s'.calls = s.calls) :
    s.Quiet :=
  fun call hcall => h call (hcalls ▸ hcall)

/-- A call that waits for something else than the end of its sleep sets up. -/
lemma not_quiet {s : Connector} {call : Call} (hcall : call ∈ s.calls)
    (hawait : call.await ≠ .sleep) : ¬ s.Quiet :=
  fun h => hawait (h call hcall)

lemma not_quiet_setAwait {s : Connector} {i : ℕ} {call call' : Call} {await : Await}
    (hi : s.calls[i]? = some call) (hawait : await ≠ .sleep) :
    ¬ (s.setAwait i call' await).Quiet :=
  not_quiet (List.mem_of_getElem? (getElem?_set_moved hi { call' with await := await })) hawait

lemma not_quiet_start {s s' : Connector} (hcalls : s'.calls = s.calls ++ [.start]) :
    ¬ s'.Quiet := by
  have hstart : Call.start ∈ s'.calls := by
    rw [hcalls]
    exact List.mem_append_right _ (List.mem_singleton_self _)
  exact not_quiet hstart fun h => by cases h

/-- The call of a state with the invariant goes on with its set-up, or ends it. -/
lemma resume_cases {s : Connector} (h : Remembers s) {i : ℕ} {call : Call}
    (hi : s.calls[i]? = some call) :
    (¬ (s.resume i call).Quiet ∧ endsSetUp call = false) ∨
      ∃ c conn, endsSetUp call = true ∧ s.channel = some c ∧
        s.connections[c]? = some conn ∧ s.resume i call = startPolling { s with
          connectionStatus := 1
          calls := []
          connections := s.connections.set c
            (consumeAll (listenClose initialRetryDelay conn)) } := by
  have hholds := h.single.holds call (List.mem_of_getElem? hi)
  unfold Connector.resume endsSetUp
  cases hawait : call.await with
  | connect => exact .inl ⟨not_quiet_setAwait hi (by simp), rfl⟩
  | createChannel c => exact .inl ⟨not_quiet_setAwait hi (by simp), rfl⟩
  | assertExchange => exact .inl ⟨not_quiet_setAwait hi (by simp), rfl⟩
  | assertQueue queue rest => exact .inl ⟨not_quiet_setAwait hi (by simp), rfl⟩
  | sleep => exact .inl ⟨not_quiet_setAwait hi (by simp), rfl⟩
  | bindQueue queue rest =>
    cases rest with
    | cons next rest => exact .inl ⟨not_quiet_setAwait hi (by simp), rfl⟩
    | nil =>
      rw [hawait] at hholds
      obtain ⟨c, hconnection, hchannel⟩ := hholds
      obtain ⟨rfl, hone, -⟩ := h.single.of_call hi
      have hc := List.getElem?_eq_getElem (h.inRange c hconnection)
      have hset := setUp_of_getElem? 0 call hconnection hchannel hc
      rw [hone] at hset
      exact .inr ⟨c, _, rfl, hchannel, hc, hset⟩

/-- The close of a connection without listeners changes nothing else, the close of another sets
the gauge to 0 and leaves the channel. -/
lemma closed_eq {s : Connector} {c : ℕ} (conn : Connection) :
    let s' := conn.closeListeners.foldl onClose
      { s with connections :=
          s.connections.set c { conn with isOpen := false, hasClosed := true } }
    s'.calls = s.calls ∧ s'.channel = s.channel ∧
      s'.connections = s.connections.set c { conn with isOpen := false, hasClosed := true } ∧
      s'.connectionStatus = if conn.closeListeners = [] then s.connectionStatus else 0 := by
  intro s'
  obtain ⟨-, hcalls, hconnections, -, hchannel, -⟩ := foldl_onClose
    { s with connections := s.connections.set c { conn with isOpen := false, hasClosed := true } }
    conn.closeListeners
  refine ⟨hcalls, hchannel, hconnections, ?_⟩
  split
  · rename_i hnone
    show (conn.closeListeners.foldl onClose _).connectionStatus = _
    rw [hnone, List.foldl_nil]
  · rename_i hsome
    exact status_foldl_onClose _ hsome

/-- A set-up that fails ends in the sleep before the next try. -/
lemma Remembers.quiet_caught {s : Connector} (h : Remembers s) {i : ℕ} {call : Call}
    (hi : s.calls[i]? = some call) : (s.caught i call).Quiet := by
  obtain ⟨rfl, hone, -⟩ := h.single.of_call hi
  intro call' hcall'
  unfold caught setAwait at hcall'
  simp only [hone, List.set_cons_zero, List.mem_singleton] at hcall'
  rw [hcall']

/-- A step keeps the agreement exactly when it does no harm. -/
lemma agrees_iff {s s' : Connector} {e : ConnectorLabel} (h : Remembers s) (hagrees : s.Agrees)
    (hstep : s.step e = some s') : s'.Agrees ↔ s.Unharmed e := by
  cases e with
  | listen =>
    simp only [Connector.step, Option.ite_none_left_eq_some, Option.some.injEq] at hstep
    obtain ⟨-, rfl⟩ := hstep
    exact iff_of_true (fun hquiet => absurd hquiet (not_quiet_start rfl)) trivial
  | resolve i =>
    obtain ⟨call, hi, rfl⟩ := Option.map_eq_some_iff.mp hstep
    refine iff_of_true (fun hquiet => ?_) trivial
    rcases resume_cases h hi with ⟨hnot, -⟩ | ⟨c, conn, -, hchannel, -, hset⟩
    · exact absurd hquiet hnot
    · rw [hset]
      exact iff_of_true (hchannel ▸ Option.some_ne_none c) rfl
  | reject i =>
    obtain ⟨call, hi, rfl⟩ := Option.map_eq_some_iff.mp hstep
    obtain ⟨hi, -⟩ := Option.filter_eq_some_iff.mp hi
    have hquiet := h.quiet_caught hi
    constructor
    · intro h'
      by_contra hne
      exact absurd ((h' hquiet).mp hne) Nat.zero_ne_one
    · intro hnone _
      exact iff_of_false (not_not_intro hnone) Nat.zero_ne_one
  | timeout j =>
    obtain ⟨delay, hj, rfl⟩ := Option.map_eq_some_iff.mp hstep
    exact iff_of_true (fun hquiet => absurd hquiet (not_quiet_start rfl)) trivial
  | close c =>
    obtain ⟨conn, hc, rfl⟩ := Option.map_eq_some_iff.mp hstep
    obtain ⟨hc, -⟩ := Option.filter_eq_some_iff.mp hc
    obtain ⟨hcalls, hchannel, -, hstatus⟩ := closed_eq (s := s) (c := c) conn
    unfold Agrees
    rw [hchannel, hstatus]
    constructor
    · intro h' hquiet conn' hconn'
      obtain rfl : conn = conn' := Option.some.inj (hc.symm.trans hconn')
      by_contra hlisteners
      rw [if_neg hlisteners] at h'
      have hchannel := h.channel_ne_none conn (List.mem_of_getElem? hc) hlisteners
      exact absurd ((h' (hquiet.of_calls hcalls.symm)).mp hchannel) Nat.zero_ne_one
    · intro hunharmed hquiet
      have hbefore := hquiet.of_calls hcalls
      rw [if_pos (hunharmed hbefore conn hc)]
      exact hagrees hbefore
  | lose c =>
    obtain ⟨conn, hc, rfl⟩ := Option.map_eq_some_iff.mp hstep
    exact iff_of_true hagrees trivial
  | error c =>
    obtain ⟨conn, hc, rfl⟩ := Option.map_eq_some_iff.mp hstep
    obtain ⟨hc, hlisteners⟩ := Option.filter_eq_some_iff.mp hc
    have hchannel := h.channel_ne_none conn (List.mem_of_getElem? hc) (by simpa using hlisteners)
    constructor
    · intro h' hquiet
      exact absurd ((h' hquiet).mp hchannel) Nat.zero_ne_one
    · intro hnot hquiet
      exact absurd hquiet hnot

lemma hasOpenChannel_iff_of_set {s s' : Connector} {c : ℕ} {conn conn' : Connection}
    (hc : s.connections[c]? = some conn) (hconnections : s'.connections = s.connections.set c conn')
    (hchannel : s'.channel = s.channel)
    (hopen : s.channel = some c → conn'.isOpen = conn.isOpen) :
    s'.HasOpenChannel ↔ s.HasOpenChannel := by
  unfold HasOpenChannel
  rw [hconnections, hchannel]
  refine exists_congr fun d => ?_
  by_cases hdc : d = c
  · subst hdc
    rw [getElem?_set_moved hc conn', hc]
    constructor
    · rintro ⟨_, hd, ⟨⟩, h⟩
      exact ⟨conn, hd, rfl, (hopen hd).symm.trans h⟩
    · rintro ⟨_, hd, ⟨⟩, h⟩
      exact ⟨conn', hd, rfl, (hopen hd).trans h⟩
  · rw [List.getElem?_set_ne (Ne.symm hdc)]

/-- An unharmed worker that tells the truth goes on to do so exactly when its channel stays
open. -/
lemma truthful_iff {s s' : Connector} {e : ConnectorLabel} (h : Remembers s)
    (hagrees : s.Agrees) (htruthful : s.Truthful) (hunharmed : s.Unharmed e)
    (hstep : s.step e = some s') : s'.Truthful ↔ s.KeptOpen e := by
  cases e with
  | listen =>
    simp only [Connector.step, Option.ite_none_left_eq_some, Option.some.injEq] at hstep
    obtain ⟨-, rfl⟩ := hstep
    exact iff_of_true (fun hquiet => absurd hquiet (not_quiet_start rfl)) trivial
  | resolve i =>
    obtain ⟨call, hi, rfl⟩ := Option.map_eq_some_iff.mp hstep
    have hkept : s.KeptOpen (.resolve i) ↔ (endsSetUp call = true → s.HasOpenChannel) := by
      show (∀ call, s.calls[i]? = some call → _) ↔ _
      simp only [hi, Option.some.injEq, forall_eq']
    rw [hkept]
    rcases resume_cases h hi with ⟨hnot, hawait⟩ | ⟨c, conn, hawait, hchannel, hc, hset⟩
    · exact iff_of_true (fun hquiet => absurd hquiet hnot) fun hends => by
        rw [hawait] at hends
        cases hends
    · have hopen : (s.resume i call).HasOpenChannel ↔ s.HasOpenChannel := by
        rw [hset]
        exact hasOpenChannel_iff_of_set hc rfl rfl fun _ => rfl
      have hquiet : (s.resume i call).Quiet := by
        rw [hset]
        exact fun call' hcall' => absurd hcall' List.not_mem_nil
      have hstatus : (s.resume i call).connectionStatus = 1 := by
        rw [hset]
        rfl
      unfold Truthful
      rw [hopen, hstatus]
      constructor
      · intro h' _
        exact (h' hquiet).mp rfl
      · intro hopens _
        exact iff_of_true rfl (hopens hawait)
  | reject i =>
    obtain ⟨call, hi, rfl⟩ := Option.map_eq_some_iff.mp hstep
    refine iff_of_true (fun _ => iff_of_false Nat.zero_ne_one ?_) trivial
    rintro ⟨c, conn, hchannel, -⟩
    exact Option.some_ne_none c (hchannel.symm.trans hunharmed)
  | timeout j =>
    obtain ⟨delay, hj, rfl⟩ := Option.map_eq_some_iff.mp hstep
    exact iff_of_true (fun hquiet => absurd hquiet (not_quiet_start rfl)) trivial
  | close c =>
    obtain ⟨conn, hc, rfl⟩ := Option.map_eq_some_iff.mp hstep
    obtain ⟨hc, -⟩ := Option.filter_eq_some_iff.mp hc
    obtain ⟨hcalls, hchannel, hconnections, hstatus⟩ := closed_eq (s := s) (c := c) conn
    refine iff_of_true (fun hquiet => ?_) trivial
    have hbefore := hquiet.of_calls hcalls
    have hnone := hunharmed hbefore conn hc
    have hother : s.channel ≠ some c := by
      intro hsome
      -- the channel of a quiet worker is on a connection with listeners
      have hconnected := (hagrees hbefore).mp (hsome ▸ Option.some_ne_none c)
      obtain ⟨-, -, -, d, watched, hd, hwatched, hne⟩ := h.of_connected hconnected
      obtain rfl : d = c := Option.some.inj (hd.symm.trans hsome)
      obtain rfl : conn = watched := Option.some.inj (hc.symm.trans hwatched)
      exact hne hnone
    rw [hstatus, if_pos hnone, hasOpenChannel_iff_of_set hc hconnections hchannel
      fun hsome => absurd hsome hother]
    exact htruthful hbefore
  | lose c =>
    obtain ⟨conn, hc, rfl⟩ := Option.map_eq_some_iff.mp hstep
    unfold KeptOpen
    refine forall_congr' fun hquiet => ?_
    constructor
    · intro h' hsome
      have hconnected := (hagrees hquiet).mp (hsome ▸ Option.some_ne_none c)
      obtain ⟨d, lost, hd, hlost, hopen⟩ := h'.mp hconnected
      obtain rfl : d = c := Option.some.inj (hd.symm.trans hsome)
      rw [getElem?_set_moved hc, Option.some.injEq] at hlost
      rw [← hlost] at hopen
      cases hopen
    · intro hother
      refine (htruthful hquiet).trans (Iff.symm ?_)
      exact hasOpenChannel_iff_of_set hc rfl rfl fun hsome => absurd hsome hother
  | error c =>
    obtain ⟨conn, hc, rfl⟩ := Option.map_eq_some_iff.mp hstep
    exact iff_of_true (fun hquiet => absurd hquiet hunharmed) trivial

/-- While no set-up is in progress, `/health` and the gauge tell the same as long as nothing goes
wrong after a channel has been created. They tell whether the worker has an open channel as long
as its connection moreover stays open until the worker hears of its end. -/
theorem health_iff (base : Process) (method : String) (reply : Replies)
    {es : List ConnectorLabel} {s : Connector} (hrun : run Connector.step initial es = some s) :
    (Throughout Connector.step
        (fun s => s.Quiet →
          (s.healthStatuses base method reply = [200] ↔ s.connectionStatus = 1)) initial es ↔
      StepsMeet Connector.step Unharmed initial es) ∧
    (Throughout Connector.step
        (fun s => s.Quiet →
          (s.healthStatuses base method reply = [200] ↔ s.connectionStatus = 1) ∧
            (s.connectionStatus = 1 ↔ s.HasOpenChannel)) initial es ↔
      StepsMeet Connector.step (fun s e => s.Unharmed e ∧ s.KeptOpen e) initial es) := by
  have hquiet : Agrees initial ∧ Truthful initial :=
    ⟨fun _ => by decide, fun _ => iff_of_false Nat.zero_ne_one fun ⟨c, conn, hc, _⟩ => by cases hc⟩
  simp only [healthStatuses_eq_ok_iff, imp_and]
  constructor
  · exact throughout_iff_stepsMeet (D := fun _ _ => True) Remembers.preserved
      (fun s e s' h hagrees _ hstep => agrees_iff h hagrees hstep) .initial hquiet.1
      (stepsMeet_true _ _) hrun
  · refine throughout_iff_stepsMeet (P := fun s => s.Agrees ∧ s.Truthful) (D := fun _ _ => True)
      Remembers.preserved ?_ .initial hquiet (stepsMeet_true _ _) hrun
    intro s e s' h hP _ hstep
    rw [agrees_iff h hP.1 hstep]
    exact and_congr_right fun hunharmed => truthful_iff h hP.1 hP.2 hunharmed hstep

/-- The first connect fails, the second set-up succeeds. -/
def lateStart : List ConnectorLabel :=
  [.listen, .reject 0] ++ List.replicate 10 (.resolve 0)

/-- A set-up, and the end of its connection. -/
def lateEnd : List ConnectorLabel :=
  [.listen] ++ List.replicate 9 (.resolve 0) ++ [.close 0]

theorem health_iff_lateStart :
    (run Connector.step initial lateStart).isSome = true ∧
      StepsMeet Connector.step (fun s e => s.Unharmed e ∧ s.KeptOpen e) initial lateStart ∧
      Throughout Connector.step
        (fun s => s.Quiet →
          (s.healthStatuses ⟨Number.finite, "text/plain", fun _ => "", false⟩ "GET"
              Untyped.emptyReplies = [200] ↔ s.connectionStatus = 1) ∧
            (s.connectionStatus = 1 ↔ s.HasOpenChannel)) initial lateStart := by
  have hrun : (run Connector.step initial lateStart).isSome = true := rfl
  have hmeets : StepsMeet Connector.step (fun s e => s.Unharmed e ∧ s.KeptOpen e) initial
      lateStart := by decide
  exact ⟨hrun, hmeets, (health_iff _ _ _ (run_final hrun)).2.mpr hmeets⟩

/-- The worker is not connected any more and waits for a timer; `/health` is answered with 200. -/
theorem healthy_without_connection :
    ∃ s, run Connector.step initial lateEnd = some s ∧ s.Quiet ∧
      s.healthStatuses ⟨Number.finite, "text/plain", fun _ => "", false⟩ "GET"
        Untyped.emptyReplies = [200] ∧
      s.connectionStatus = 0 ∧ ¬ s.HasOpenChannel := by
  have hrun : (run Connector.step initial lateEnd).isSome = true := rfl
  exact ⟨_, run_final hrun, by decide +revert⟩

end DevopsEcommerce.NotificationWorker.Connector
