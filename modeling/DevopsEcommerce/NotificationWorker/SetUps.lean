import DevopsEcommerce.NotificationWorker.Reconnection

/-!
# Set-ups of the consumer

The `Worker` of `Consumer` knows of a call of `connectAndConsume` only whether it has its
channel. Every run of the calls as they are, from one `await` to the next, is followed by a run
of the worker (`connector_refines_worker`): what the worker leaves out are steps that it does not
take.
-/

open Interleaving Messaging

namespace DevopsEcommerce.NotificationWorker

/-- The call has its channel. -/
def Call.hasChannel (call : Call) : Bool :=
  match call.await with
  | .assertExchange | .assertQueue .. | .bindQueue .. => true
  | .connect | .createChannel _ | .sleep => false

namespace Connector

/-- The calls that are to connect next, or wait for it, or for a timer. -/
def starting (s : Connector) : ℕ :=
  s.calls.countP (fun call => !call.hasChannel) + s.timers.length + if s.listening then 0 else 1

def settingUp (s : Connector) : ℕ := s.calls.countP Call.hasChannel

lemma starting_of_call {s : Connector} {call : Call} (hcalls : s.calls = [call])
    (htimers : s.timers = []) (hlistening : s.listening = true) :
    s.starting = if call.hasChannel then 0 else 1 := by
  rw [starting, hcalls, htimers, hlistening, List.countP_singleton]
  cases call.hasChannel <;> rfl

lemma settingUp_of_call {s : Connector} {call : Call} (hcalls : s.calls = [call]) :
    s.settingUp = if call.hasChannel then 1 else 0 := by
  rw [settingUp, hcalls, List.countP_singleton]

/-- The channels of a worker are on the connections `conns`: a channel is consumed on as often as
its connection has close listeners. -/
structure Listened (conns : List ℕ) (connections : List Connection) (consuming : List ℕ) :
    Prop where
  nodup : conns.Nodup
  lt_of_mem : ∀ c ∈ conns, c < connections.length
  consuming_lt : ∀ k ∈ consuming, k < conns.length
  listeners : ∀ k c conn, conns[k]? = some c → connections[c]? = some conn →
    conn.hasClosed = false → consuming.count k = conn.closeListeners.length
  no_listeners : ∀ c conn, connections[c]? = some conn → c ∉ conns → conn.closeListeners = []

namespace Listened

variable {conns : List ℕ} {connections connections' : List Connection} {consuming : List ℕ}

/-- Connections open, fail or close, and nobody listens anew. -/
lemma of_listeners (h : Listened conns connections consuming)
    (hlength : connections.length ≤ connections'.length)
    (hlisteners : ∀ c conn', connections'[c]? = some conn' →
      (∃ conn, connections[c]? = some conn ∧ conn'.closeListeners = conn.closeListeners ∧
        (conn'.hasClosed = false → conn.hasClosed = false)) ∨
      connections.length ≤ c ∧ conn'.closeListeners = []) :
    Listened conns connections' consuming where
  nodup := h.nodup
  lt_of_mem c hc := Nat.lt_of_lt_of_le (h.lt_of_mem c hc) hlength
  consuming_lt := h.consuming_lt
  listeners k c conn' hk hc hopen := by
    rcases hlisteners c conn' hc with ⟨conn, hconn, heq, hclosed⟩ | ⟨hle, -⟩
    · rw [heq]
      exact h.listeners k c conn hk hconn (hclosed hopen)
    · have hlt := h.lt_of_mem c (List.mem_of_getElem? hk)
      omega
  no_listeners c conn' hc hmem := by
    rcases hlisteners c conn' hc with ⟨conn, hconn, heq, -⟩ | ⟨-, hnil⟩
    · rw [heq]
      exact h.no_listeners c conn hconn hmem
    · exact hnil

lemma connect (h : Listened conns connections consuming) :
    Listened conns (connections ++ [Connection.opened]) consuming := by
  refine h.of_listeners ?_ fun c conn' hconn' => ?_
  · rw [List.length_append]
    exact Nat.le_add_right _ _
  · rcases Nat.lt_or_ge c connections.length with hlt | hge
    · rw [List.getElem?_append_left hlt] at hconn'
      exact .inl ⟨conn', hconn', rfl, id⟩
    · rw [List.getElem?_append_right hge, List.getElem?_singleton,
        Option.ite_none_right_eq_some] at hconn'
      exact .inr ⟨hge, (Option.some.inj hconn'.2) ▸ rfl⟩

/-- The first channel on a connection, on which nothing consumes yet. -/
lemma openChannel (h : Listened conns connections consuming) {c : ℕ} (hlt : c < connections.length)
    (hmem : c ∉ conns) : Listened (conns ++ [c]) connections consuming where
  nodup := by
    refine List.nodup_append.mpr ⟨h.nodup, List.nodup_singleton c, ?_⟩
    rintro a ha b hb rfl
    exact hmem (List.mem_singleton.mp hb ▸ ha)
  lt_of_mem c' hc' := by
    rcases List.mem_append.mp hc' with hold | hnew
    · exact h.lt_of_mem c' hold
    · rw [List.mem_singleton.mp hnew]
      exact hlt
  consuming_lt k hk := by
    rw [List.length_append]
    exact Nat.lt_add_right _ (h.consuming_lt k hk)
  listeners k c' conn hk hconn hopen := by
    rcases Nat.lt_or_ge k conns.length with hold | hnew
    · rw [List.getElem?_append_left hold] at hk
      exact h.listeners k c' conn hk hconn hopen
    · rw [List.getElem?_append_right hnew, List.getElem?_singleton,
        Option.ite_none_right_eq_some] at hk
      obtain ⟨-, hc'⟩ := hk
      obtain rfl := Option.some.inj hc'
      rw [h.no_listeners c conn hconn hmem, List.length_nil, List.count_eq_zero]
      exact fun hk => absurd (h.consuming_lt k hk) (Nat.not_lt.mpr hnew)
  no_listeners c' conn hconn hc' :=
    h.no_listeners c' conn hconn fun hold => hc' (List.mem_append_left _ hold)

/-- One more consumer on a channel, and one more listener on its connection. -/
lemma consume (h : Listened conns connections consuming) {k c : ℕ} (hk : conns[k]? = some c)
    {conn conn' : Connection} (hconn : connections[c]? = some conn)
    (hlisteners : conn'.closeListeners.length = conn.closeListeners.length + 1)
    (hclosed : conn'.hasClosed = conn.hasClosed) :
    Listened conns (connections.set c conn') (k :: consuming) where
  nodup := h.nodup
  lt_of_mem c' hc' := by
    rw [List.length_set]
    exact h.lt_of_mem c' hc'
  consuming_lt k' hk' := by
    rcases List.mem_cons.mp hk' with rfl | hold
    · exact (List.getElem?_eq_some_iff.mp hk).1
    · exact h.consuming_lt k' hold
  listeners k' c' conn₁ hk' hconn₁ hopen := by
    rcases getElem?_set_eq_some hconn₁ with ⟨rfl, rfl⟩ | ⟨hne, hold⟩
    · obtain rfl : k' = k := (List.getElem?_inj (List.getElem?_eq_some_iff.mp hk').1 h.nodup).mp
        (hk'.trans hk.symm)
      rw [List.count_cons_self, hlisteners, h.listeners k' c' conn hk' hconn (hclosed ▸ hopen)]
    · have hother : k' ≠ k := by
        rintro rfl
        exact hne (Option.some.inj (hk'.symm.trans hk))
      rw [List.count_cons_of_ne (Ne.symm hother)]
      exact h.listeners k' c' conn₁ hk' hold hopen
  no_listeners c' conn₁ hconn₁ hc' := by
    rcases getElem?_set_eq_some hconn₁ with ⟨rfl, -⟩ | ⟨-, hold⟩
    · exact absurd (List.mem_of_getElem? hk) hc'
    · exact h.no_listeners c' conn₁ hold hc'

/-- The connection of a channel closes, and with it what consumes there. -/
lemma close (h : Listened conns connections consuming) {k c : ℕ} (hk : conns[k]? = some c)
    {conn' : Connection} (hclosed : conn'.hasClosed = true) :
    Listened conns (connections.set c conn') (consuming.filter (· ≠ k)) where
  nodup := h.nodup
  lt_of_mem c' hc' := by
    rw [List.length_set]
    exact h.lt_of_mem c' hc'
  consuming_lt k' hk' := h.consuming_lt k' (List.mem_filter.mp hk').1
  listeners k' c' conn₁ hk' hconn₁ hopen := by
    rcases getElem?_set_eq_some hconn₁ with ⟨-, rfl⟩ | ⟨hne, hold⟩
    · cases hclosed.symm.trans hopen
    · have hother : k' ≠ k := by
        rintro rfl
        exact hne (Option.some.inj (hk'.symm.trans hk))
      rw [List.count_filter (by simpa using hother)]
      exact h.listeners k' c' conn₁ hk' hold hopen
  no_listeners c' conn₁ hconn₁ hc' := by
    rcases getElem?_set_eq_some hconn₁ with ⟨rfl, -⟩ | ⟨-, hold⟩
    · exact absurd (List.mem_of_getElem? hk) hc'
    · exact h.no_listeners c' conn₁ hold hc'

end Listened

/-- The worker `w` is where the process `s` is. Its channels are on the connections `conns`. -/
structure Refines (conns : List ℕ) (s : Connector) (w : Worker) : Prop where
  single : Single s
  starting_eq : w.starting = s.starting
  settingUp_eq : w.settingUp = s.settingUp
  length_channels : w.broker.channels.length = conns.length
  listened : Listened conns s.connections w.consuming
  channel : ∀ c, s.channel = some c → ∃ k, w.channel = some k ∧ conns[k]? = some c
  /-- The channel that a call waits for is the first one on its connection. -/
  awaited : ∀ call ∈ s.calls, ∀ c, call.await = .createChannel c →
    c < s.connections.length ∧ c ∉ conns

namespace Refines

variable {conns : List ℕ} {s s' : Connector} {w : Worker}

lemma initial (lists : String → List Notification) :
    Refines [] Connector.initial (Worker.initial lists) where
  single := .initial
  starting_eq := rfl
  settingUp_eq := rfl
  length_channels := rfl
  listened := {
    nodup := List.nodup_nil
    lt_of_mem := fun _ hc => absurd hc List.not_mem_nil
    consuming_lt := fun _ hk => absurd hk List.not_mem_nil
    listeners := fun _ _ _ hc => by cases hc
    no_listeners := fun _ _ hconn => by cases hconn }
  channel _ hc := by cases hc
  awaited _ hcall := absurd hcall List.not_mem_nil

/-- A step that the worker does not take. The listeners and the channels stay as they are. -/
lemma stutter (h : Refines conns s w) (hsingle : Single s') (hstarting : s'.starting = s.starting)
    (hsettingUp : s'.settingUp = s.settingUp) (hchannel : s'.channel = s.channel)
    (hlistened : Listened conns s'.connections w.consuming)
    (hawaited : ∀ call ∈ s'.calls, ∀ c, call.await = .createChannel c →
      c < s'.connections.length ∧ c ∉ conns) : Refines conns s' w where
  single := hsingle
  starting_eq := h.starting_eq.trans hstarting.symm
  settingUp_eq := h.settingUp_eq.trans hsettingUp.symm
  length_channels := h.length_channels
  listened := hlistened
  channel c hc := h.channel c (hchannel.symm.trans hc)
  awaited := hawaited

/-- A call goes on, with or without its channel as before. -/
lemma goesOn (h : Refines conns s w) (hsingle : Single s') {i : ℕ} {call call' : Call}
    (hi : s.calls[i]? = some call) (hcalls : s'.calls = s.calls.set i call')
    (hhas : call'.hasChannel = call.hasChannel) (htimers : s'.timers = s.timers)
    (hlistening : s'.listening = s.listening) (hchannel : s'.channel = s.channel)
    (hlistened : Listened conns s'.connections w.consuming)
    (hawaited : ∀ c, call'.await = .createChannel c →
      c < s'.connections.length ∧ c ∉ conns) : Refines conns s' w := by
  obtain ⟨rfl, hone, hnone, -, hlistens⟩ := h.single.of_call hi
  rw [hone, List.set_cons_zero] at hcalls
  refine h.stutter hsingle ?_ ?_ hchannel hlistened ?_
  · rw [starting_of_call hcalls (htimers.trans hnone) (hlistening.trans hlistens),
      starting_of_call hone hnone hlistens, hhas]
  · rw [settingUp_of_call hcalls, settingUp_of_call hone, hhas]
  · intro call₁ hcall₁ c hc
    rw [hcalls, List.mem_singleton] at hcall₁
    exact hawaited c (hcall₁ ▸ hc)

variable {prefetch : ℕ}

/-- What a step of the connector is followed by. -/
def Followed (prefetch : ℕ) (s' : Connector) (w : Worker) : Prop :=
  ∃ labels w', run (Worker.step prefetch) w labels = some w' ∧ ∃ conns', Refines conns' s' w'

lemma stays (h : Refines conns s' w) : Followed prefetch s' w := ⟨[], w, rfl, conns, h⟩

lemma takes {conns' : List ℕ} {w' : Worker} {label : Label}
    (hstep : w.step prefetch label = some w') (h : Refines conns' s' w') :
    Followed prefetch s' w := by
  refine ⟨[label], w', ?_, conns', h⟩
  rw [run, hstep]
  rfl

/-- The call gets its channel. -/
lemma connect (h : Refines conns s w) {i c : ℕ} {call : Call} (hi : s.calls[i]? = some call)
    (hawait : call.await = .createChannel c) : Followed prefetch (s.resume i call) w := by
  have hsingle := h.single.resume hi
  obtain ⟨rfl, hone, htimers, -, hlistening⟩ := h.single.of_call hi
  obtain ⟨hlt, hmem⟩ := h.awaited call (List.mem_of_getElem? hi) c hawait
  have hresume : s.resume 0 call = { s with
      channel := some c, calls := [{ call with await := .assertExchange }] } := by
    unfold resume setAwait
    rw [hawait, hone]
    rfl
  have hhas : call.hasChannel = false := by rw [Call.hasChannel, hawait]
  have hstarting : w.starting = 1 := by
    rw [h.starting_eq, starting_of_call hone htimers hlistening, hhas]
    rfl
  have hsettingUp : w.settingUp = 0 := by
    rw [h.settingUp_eq, settingUp_of_call hone, hhas]
    rfl
  rw [hresume] at hsingle ⊢
  have hconnect : w.step prefetch .connect = some { w with
      broker := w.broker.openChannel
      channel := some w.broker.channels.length
      starting := w.starting - 1
      settingUp := w.settingUp + 1 } :=
    if_neg (by rw [hstarting]; exact Nat.one_ne_zero)
  refine takes hconnect (?_ : Refines (conns ++ [c]) _ _)
  refine ⟨hsingle, ?_, ?_, ?_, h.listened.openChannel hlt hmem, ?_, ?_⟩
  · refine Eq.trans ?_ (starting_of_call (s := { s with
      channel := some c, calls := [{ call with await := .assertExchange }] })
      rfl htimers hlistening).symm
    show w.starting - 1 = 0
    rw [hstarting]
  · refine Eq.trans ?_ (settingUp_of_call rfl).symm
    show w.settingUp + 1 = 1
    rw [hsettingUp]
  · show (w.broker.channels ++ [_]).length = _
    rw [List.length_append, List.length_append, h.length_channels]
    rfl
  · intro c' hc'
    obtain rfl := Option.some.inj hc'
    refine ⟨w.broker.channels.length, rfl, ?_⟩
    rw [h.length_channels, List.getElem?_concat_length]
  · intro call' hcall' c' hc'
    rw [List.mem_singleton.mp hcall'] at hc'
    cases hc'

/-- The call has a channel and is set up. -/
lemma consume (h : Refines conns s w) {i : ℕ} {call : Call} (hi : s.calls[i]? = some call)
    (hhas : call.hasChannel = true) (hholds : ∃ c, s.connection = some c ∧ s.channel = some c) :
    Followed prefetch (s.setUp i call) w := by
  have hsingle := h.single.setUp hi hholds
  obtain ⟨c, hconnection, hchannel⟩ := hholds
  obtain ⟨k, hk, hconns⟩ := h.channel c hchannel
  obtain ⟨rfl, hone, htimers, -, hlistening⟩ := h.single.of_call hi
  have hstarting : w.starting = 0 := by
    rw [h.starting_eq, starting_of_call hone htimers hlistening, hhas]
    rfl
  have hsettingUp : w.settingUp = 1 := by
    rw [h.settingUp_eq, settingUp_of_call hone, hhas]
    rfl
  obtain ⟨conn, hconn⟩ : ∃ conn, s.connections[c]? = some conn :=
    ⟨_, List.getElem?_eq_getElem (h.listened.lt_of_mem c (List.mem_of_getElem? hconns))⟩
  obtain ⟨hcalls', htimers', hlistening', hchannel', hconnections'⟩ :=
    setUp_eq 0 call hconnection hchannel
  rw [hone] at hcalls'
  have hset : (s.setUp 0 call).connections =
      s.connections.set c (consumeAll (listenClose initialRetryDelay conn)) := by
    rcases hconnections' with ⟨-, hnone⟩ | ⟨conn', hconn', hset⟩
    · cases hnone.symm.trans hconn
    · rw [hset, Option.some.inj (hconn'.symm.trans hconn)]
  have hconsume : w.step prefetch .consume = some { w with
      consuming := k :: w.consuming, settingUp := w.settingUp - 1 } := by
    simp only [Worker.step, hk]
    rw [if_neg]
    rw [hsettingUp]
    exact Nat.one_ne_zero
  refine takes hconsume (?_ : Refines conns _ _)
  refine ⟨hsingle, ?_, ?_, h.length_channels, ?_, ?_, ?_⟩
  · show w.starting = _
    rw [hstarting, starting, hcalls', htimers', htimers, hlistening', hlistening]
    rfl
  · show w.settingUp - 1 = _
    rw [hsettingUp, settingUp, hcalls']
    rfl
  · rw [hset]
    exact h.listened.consume hconns hconn List.length_append rfl
  · intro c' hc'
    exact h.channel c' (hchannel'.symm.trans hc')
  · intro call' hcall'
    rw [hcalls'] at hcall'
    cases hcall'

/-- A connection closes, and each of its listeners sets a timer. -/
lemma close (h : Refines conns s w) {c : ℕ} {conn : Connection}
    (hc : s.connections[c]? = some conn) (hopen : conn.hasClosed = false) :
    Followed prefetch (conn.closeListeners.foldl onClose
      { s with connections :=
          s.connections.set c { conn with isOpen := false, hasClosed := true } }) w := by
  have hsingle := h.single.close hc hopen
  obtain ⟨htimers, hcalls, hconnections, -, hchannel, hlistening⟩ := foldl_onClose
    { s with connections := s.connections.set c { conn with isOpen := false, hasClosed := true } }
    conn.closeListeners
  generalize List.foldl _ _ _ = s' at hsingle htimers hcalls hconnections hchannel hlistening ⊢
  have hawaited : ∀ call ∈ s'.calls, ∀ c', call.await = .createChannel c' →
      c' < s'.connections.length ∧ c' ∉ conns := by
    intro call hcall c' hc'
    rw [hconnections, List.length_set]
    exact h.awaited call (hcalls ▸ hcall) c' hc'
  by_cases hmem : c ∈ conns
  · obtain ⟨k, hk⟩ := List.mem_iff_getElem?.mp hmem
    have hcount := h.listened.listeners k c conn hk hc hopen
    refine takes (rfl : w.step prefetch (.close k) = some _) (?_ : Refines conns _ _)
    refine ⟨hsingle, ?_, ?_, ?_, ?_, ?_, hawaited⟩
    · show w.starting + w.consuming.count k = _
      rw [h.starting_eq, hcount, starting, starting, hcalls, htimers, hlistening,
        List.length_append]
      simp only
      omega
    · show w.settingUp = _
      rw [h.settingUp_eq, settingUp, settingUp, hcalls]
    · show (w.broker.closeChannel k).channels.length = _
      rw [(Broker.holdsLess_closeChannel w.broker k).1, h.length_channels]
    · rw [hconnections]
      exact h.listened.close hk rfl
    · intro c' hc'
      exact h.channel c' (hchannel.symm.trans hc')
  · -- the worker has no channel there, and nobody listens
    have hnil := h.listened.no_listeners c conn hc hmem
    refine stays (h.stutter hsingle ?_ ?_ hchannel (h.listened.of_listeners ?_ ?_) hawaited)
    · rw [starting, starting, hcalls, htimers, hlistening, hnil, List.append_nil]
    · rw [settingUp, settingUp, hcalls]
    · exact Nat.le_of_eq (by rw [hconnections, List.length_set])
    · intro c' conn' hconn'
      rw [hconnections] at hconn'
      rcases getElem?_set_eq_some hconn' with ⟨rfl, rfl⟩ | ⟨-, hold⟩
      · exact .inl ⟨conn, hc, rfl, fun hclosed => by cases hclosed⟩
      · exact .inl ⟨conn', hold, rfl, id⟩

/-- A call goes on. -/
lemma resumes (h : Refines conns s w) {i : ℕ} {call : Call} (hi : s.calls[i]? = some call) :
    Followed prefetch (s.resume i call) w := by
  have hsingle := h.single.resume hi
  have hholds := h.single.holds call (List.mem_of_getElem? hi)
  -- after the exchange and after each queue: the next queue, or the consumer
  have hnext : call.hasChannel = true → (∃ c, s.connection = some c ∧ s.channel = some c) →
      ∀ rest, Followed prefetch (s.nextQueue i call rest) w := by
    intro hhas hholds rest
    have hsingle := h.single.nextQueue hi hholds rest
    cases rest with
    | nil => exact h.consume hi hhas hholds
    | cons queue rest =>
      exact stays (h.goesOn hsingle hi rfl hhas.symm rfl rfl rfl h.listened
        fun c hc => by cases hc)
  cases hawait : call.await with
  | createChannel c => exact h.connect hi hawait
  | connect =>
    have hhas : call.hasChannel = false := by rw [Call.hasChannel, hawait]
    unfold Connector.resume at hsingle ⊢
    rw [hawait] at hsingle ⊢
    have hlength : s.connections.length < (s.connections ++ [Connection.opened]).length := by
      rw [List.length_append]
      exact Nat.lt_succ_self _
    refine stays (h.goesOn hsingle hi rfl hhas.symm rfl rfl rfl h.listened.connect fun c hc => ?_)
    obtain rfl : s.connections.length = c := Await.createChannel.inj hc
    exact ⟨hlength, fun hmem => absurd (h.listened.lt_of_mem _ hmem) (Nat.lt_irrefl _)⟩
  | assertExchange =>
    rw [hawait] at hholds
    have hround := hnext (by rw [Call.hasChannel, hawait]) hholds queues
    unfold Connector.resume
    rw [hawait]
    exact hround
  | assertQueue queue rest =>
    have hhas : call.hasChannel = true := by rw [Call.hasChannel, hawait]
    unfold Connector.resume at hsingle ⊢
    rw [hawait] at hsingle ⊢
    exact stays (h.goesOn hsingle hi rfl hhas.symm rfl rfl rfl h.listened
      fun c hc => by cases hc)
  | bindQueue queue rest =>
    rw [hawait] at hholds
    have hround := hnext (by rw [Call.hasChannel, hawait]) hholds rest
    unfold Connector.resume
    rw [hawait]
    exact hround
  | sleep =>
    have hhas : call.hasChannel = false := by rw [Call.hasChannel, hawait]
    unfold Connector.resume at hsingle ⊢
    rw [hawait] at hsingle ⊢
    exact stays (h.goesOn hsingle hi rfl hhas.symm rfl rfl rfl h.listened
      fun c hc => by cases hc)

/-- What a call waits for has failed. -/
lemma rejects (h : Refines conns s w) {i : ℕ} {call : Call} (hi : s.calls[i]? = some call) :
    Followed prefetch (s.caught i call) w := by
  have hsingle := h.single.caught hi
  cases hhas : call.hasChannel with
  | false =>
    exact stays (h.goesOn hsingle hi rfl hhas.symm rfl rfl rfl h.listened
      fun c hc => by cases hc)
  | true =>
    obtain ⟨rfl, hone, htimers, -, hlistening⟩ := h.single.of_call hi
    have hstarting : w.starting = 0 := by
      rw [h.starting_eq, starting_of_call hone htimers hlistening, hhas]
      rfl
    have hsettingUp : w.settingUp = 1 := by
      rw [h.settingUp_eq, settingUp_of_call hone, hhas]
      rfl
    have hcalls : (s.caught 0 call).calls = [{ call with await := .sleep }] := by
      show s.calls.set 0 _ = _
      rw [hone, List.set_cons_zero]
    have hfails : w.step prefetch .setupFails = some { w with
        settingUp := w.settingUp - 1, starting := w.starting + 1 } :=
      if_neg (by rw [hsettingUp]; exact Nat.one_ne_zero)
    refine takes hfails (?_ : Refines conns _ _)
    refine ⟨hsingle, ?_, ?_, h.length_channels, h.listened, h.channel, ?_⟩
    · refine Eq.trans ?_ (starting_of_call hcalls htimers hlistening).symm
      show w.starting + 1 = 1
      rw [hstarting]
    · refine Eq.trans ?_ (settingUp_of_call hcalls).symm
      show w.settingUp - 1 = 0
      rw [hsettingUp]
    · intro call' hcall' c hc
      rw [hcalls, List.mem_singleton] at hcall'
      rw [hcall'] at hc
      cases hc

/-- Another call starts. -/
lemma starts (h : Refines conns s w) (hsingle : Single s') (hcalls : s'.calls = s.calls ++ [.start])
    (hstarting : s'.timers.length + (if s'.listening then 0 else 1) + 1 =
      s.timers.length + if s.listening then 0 else 1)
    (hchannel : s'.channel = s.channel) (hconnections : s'.connections = s.connections) :
    Refines conns s' w := by
  refine h.stutter hsingle ?_ ?_ hchannel (hconnections ▸ h.listened) ?_
  · rw [starting, starting, hcalls, List.countP_append]
    show _ + 1 + _ + _ = _
    omega
  · rw [settingUp, settingUp, hcalls, List.countP_append]
    rfl
  · intro call hcall c hc
    rw [hcalls] at hcall
    rw [hconnections]
    rcases List.mem_append.mp hcall with hold | hnew
    · exact h.awaited call hold c hc
    · rw [List.mem_singleton.mp hnew] at hc
      cases hc

theorem step (h : Refines conns s w) {e : ConnectorLabel} (hstep : s.step e = some s') :
    Followed prefetch s' w := by
  have hsingle := Single.preserved s e s' h.single hstep
  cases e with
  | listen =>
    simp only [Connector.step, Option.ite_none_left_eq_some, Option.some.injEq] at hstep
    obtain ⟨hlistening, rfl⟩ := hstep
    refine stays (h.starts hsingle rfl ?_ rfl rfl)
    rw [if_neg hlistening]
    rfl
  | resolve i =>
    obtain ⟨call, hi, rfl⟩ := Option.map_eq_some_iff.mp hstep
    exact h.resumes hi
  | reject i =>
    obtain ⟨call, hi, rfl⟩ := Option.map_eq_some_iff.mp hstep
    exact h.rejects (Option.filter_eq_some_iff.mp hi).1
  | timeout j =>
    obtain ⟨delay, hj, rfl⟩ := Option.map_eq_some_iff.mp hstep
    refine stays (h.starts hsingle rfl ?_ rfl rfl)
    have hlength := List.length_eraseIdx_add_one (List.getElem?_eq_some_iff.mp hj).1
    show (s.timers.eraseIdx j).length + (if s.listening then 0 else 1) + 1 = _
    omega
  | close c =>
    obtain ⟨conn, hc, rfl⟩ := Option.map_eq_some_iff.mp hstep
    obtain ⟨hc, hopen⟩ := Option.filter_eq_some_iff.mp hc
    exact h.close hc (by simpa using hopen)
  | lose c =>
    obtain ⟨conn, hc, rfl⟩ := Option.map_eq_some_iff.mp hstep
    refine stays (h.stutter hsingle rfl rfl rfl (h.listened.of_listeners ?_ ?_) ?_)
    · exact Nat.le_of_eq List.length_set.symm
    · intro c' conn' hconn'
      rcases getElem?_set_eq_some hconn' with ⟨rfl, rfl⟩ | ⟨-, hold⟩
      · exact .inl ⟨conn, hc, rfl, id⟩
      · exact .inl ⟨conn', hold, rfl, id⟩
    · intro call hcall c' hc'
      show c' < (s.connections.set c _).length ∧ _
      rw [List.length_set]
      exact h.awaited call hcall c' hc'
  | error c =>
    obtain ⟨conn, hc, rfl⟩ := Option.map_eq_some_iff.mp hstep
    exact stays (h.stutter hsingle rfl rfl rfl h.listened h.awaited)

end Refines

/-- Every run of a worker process is followed by a run of the worker of `Consumer`, whatever the
lists of Redis and the prefetch limit. -/
theorem connector_refines_worker (prefetch : ℕ) (lists : String → List Notification)
    {es : List ConnectorLabel} {s : Connector} (hrun : run Connector.step initial es = some s) :
    ∃ labels w, run (Worker.step prefetch) (Worker.initial lists) labels = some w ∧
      ∃ conns, Refines conns s w := by
  refine run_simulation (R := fun s w => ∃ conns, Refines conns s w) ?_ ⟨[], .initial lists⟩ hrun
  rintro s w e s' ⟨conns, h⟩ hstep
  exact h.step hstep

theorem connector_refines_worker_reconnection :
    ∃ s labels w, run Connector.step initial reconnection = some s ∧
      run (Worker.step 10) (Worker.initial fun _ => []) labels = some w ∧
      ∃ conns, Refines conns s w := by
  have hrun : (run Connector.step initial reconnection).isSome = true := rfl
  obtain ⟨labels, w, hw, hrefines⟩ := connector_refines_worker 10 (fun _ => []) (run_final hrun)
  exact ⟨_, labels, w, run_final hrun, hw, hrefines⟩

end Connector

end DevopsEcommerce.NotificationWorker
