import DevopsEcommerce.OrderService.Locks

/-!
# Events and the transactions they belong to

`publishOrderEvent` hands its message to the broker inside the transaction, before the SQL
and the commit. `events_committed_iff` says in which runs every message belongs to a
transaction that commits: in those where the database refuses neither flush nor commit of
a transaction that has published. `event_of_no_order` is a run of the other kind.
-/

open Interleaving Numbers

namespace DevopsEcommerce.OrderService

/-- Every message of a transaction that has ended belongs to one that has committed. -/
def EventsCommitted (p : OrderPool) : Prop :=
  ∀ m ∈ p.store.messages, ∀ t ∈ p.threads[m.transaction]?, t.program.answer?.isSome = true →
    m.transaction ∈ p.store.committed

/-- The database does what the program asks for: it takes its statement or its commit. -/
def granted (store : OrderStore) (i : ℕ) (fault : Fault) : OrderProgram → Bool
  | .call (.flush write) _ => accepted store i write fault
  | .call .commit _ => fault ≠ .before
  | _ => true

/-- If the label executes the flush or the commit of a transaction that has published, the
database does not refuse it. -/
def NotRefused (p : OrderPool) (l : ℕ × Fault) : Prop :=
  ∀ m ∈ p.store.messages, m.transaction = l.1 → ∀ t ∈ p.threads[l.1]?,
    granted p.store l.1 l.2 t.program = true

instance (p : OrderPool) : Decidable (EventsCommitted p) :=
  inferInstanceAs (Decidable (∀ m ∈ p.store.messages, ∀ t ∈ p.threads[m.transaction]?, _ → _))

instance (p : OrderPool) (l : ℕ × Fault) : Decidable (NotRefused p l) :=
  inferInstanceAs (Decidable (∀ m ∈ p.store.messages, _ → ∀ t ∈ p.threads[l.1]?, _))

/-! ## Senders -/

/-- Messages come from requests that have sent one, commits from requests that have
ended. -/
structure Senders (p : OrderPool) : Prop where
  messages : ∀ m ∈ p.store.messages, ∃ t, p.threads[m.transaction]? = some t ∧
    hasSent t.trace = true
  committed : ∀ i ∈ p.store.committed, ∃ t, p.threads[i]? = some t ∧ t.program.next? = none

lemma hasSent_cons (e : Σ c, OrderReply c) (trace : List (Σ c, OrderReply c)) :
    hasSent (e :: trace) = (hasSent [e] || hasSent trace) := by
  simp [hasSent]

/-- What a command adds to the messages and to the commits is its own transaction's. -/
lemma execOrder_log {store store' : OrderStore} {i : ℕ} {c : OrderCommand} {fault : Fault}
    {r : OrderReply c} (h : execOrder store i c fault = some (store', r)) :
    (∀ m ∈ store'.messages, m ∈ store.messages ∨
      m.transaction = i ∧ hasSent [⟨c, r⟩] = true) ∧
    (∀ j ∈ store'.committed, j ∈ store.committed ∨ j = i ∧ c = .commit) ∧
    (∀ j ∈ store.committed, j ∈ store'.committed) := by
  cases c with
  | findById id =>
    obtain ⟨rfl, -⟩ := Prod.mk.inj (Option.some.inj h)
    exact ⟨fun m hm => .inl hm, fun j hj => .inl hj, fun j hj => hj⟩
  | convertAndSend routingKey event =>
    obtain ⟨rfl, -⟩ := Prod.mk.inj (Option.some.inj h)
    split
    · exact ⟨fun m hm => .inl hm, fun j hj => .inl hj, fun j hj => hj⟩
    · refine ⟨fun m hm => ?_, fun j hj => .inl hj, fun j hj => hj⟩
      rcases List.mem_cons.mp hm with rfl | hm
      · exact .inr ⟨rfl, rfl⟩
      · exact .inl hm
  | flush write =>
    rcases execOrder_flush h with ⟨-, rfl, -⟩ | ⟨-, -, row, -, rfl, -⟩ <;>
      exact ⟨fun m hm => .inl hm, fun j hj => .inl hj, fun j hj => hj⟩
  | commit =>
    rw [execOrder_commit h]
    split
    · exact ⟨fun m hm => .inl hm, fun j hj => .inl hj, fun j hj => hj⟩
    · refine ⟨fun m hm => .inl hm, fun j hj => ?_, fun j hj => List.mem_cons_of_mem _ hj⟩
      rcases List.mem_cons.mp hj with rfl | hj
      · exact .inr ⟨rfl, rfl⟩
      · exact .inl hj

section
variable {platform : Platform}

/-- A commit is the last command of a request. -/
lemma next_after_commit {req : OrderRequest} {trace : List (Σ c, OrderReply c)}
    {k : Except ExternalError Unit → OrderProgram}
    (h : OrderStage platform req trace (.call .commit k))
    (r : Except ExternalError Unit) : (k r).next? = none := by
  cases h with
  | committing hjob htrace => rcases r with e | _ <;> rfl

lemma senders_preserved {p p' : OrderPool} {l : ℕ × Fault} (hstages : InStages platform p)
    (h : Senders p) (hstep : orderStep p l = some p') : Senders p' := by
  obtain ⟨i, fault⟩ := l
  obtain ⟨⟨req, trace, q⟩, c, k, store, r, ht, hk, hexec, rfl⟩ := Pool.step_eq_some.mp hstep
  have hstage := hstages _ (List.mem_of_getElem? ht)
  simp only at hk hstage hexec ht
  subst hk
  obtain ⟨hmessages, hcommitted, -⟩ := execOrder_log hexec
  refine ⟨?_, ?_⟩
  · intro m hm
    by_cases hmi : m.transaction = i
    · refine ⟨Thread.receive ⟨req, trace, .call c k⟩ c r (k r), ?_, ?_⟩
      · rw [hmi]
        exact getElem?_set_moved ht _
      show hasSent (⟨c, r⟩ :: trace) = true
      rw [hasSent_cons]
      -- the message is an old one of the same transaction, or sent by this step
      rcases hmessages m hm with hm | ⟨-, hsent⟩
      · obtain ⟨t, htm, hsent⟩ := h.messages m hm
        rw [hmi, ht] at htm
        obtain rfl := Option.some.inj htm
        rw [hsent, Bool.or_true]
      · rw [hsent, Bool.true_or]
    · rw [List.getElem?_set_ne (Ne.symm hmi)]
      exact h.messages m ((hmessages m hm).resolve_right fun hnew => hmi hnew.1)
  · intro j hj
    rcases hcommitted j hj with hj | ⟨rfl, rfl⟩
    · obtain ⟨t, htj, hnext⟩ := h.committed j hj
      have hij : i ≠ j := by
        rintro rfl
        obtain rfl := Option.some.inj (ht.symm.trans htj)
        exact absurd hnext (by simp [Program.next?])
      rw [List.getElem?_set_ne hij]
      exact ⟨t, htj, hnext⟩
    · exact ⟨_, getElem?_set_moved ht _, next_after_commit hstage r⟩

lemma senders_init (rows : List Order) (requests : List OrderRequest) :
    Senders (orderPool platform rows requests) where
  messages m hm := absurd hm (by simp [orderPool, Pool.init, OrderStore.initial])
  committed i hi := absurd hi (by simp [orderPool, Pool.init, OrderStore.initial])

lemma Senders.arrive {p : OrderPool} (h : Senders p) (req : OrderRequest) :
    Senders (p.arrive (serve platform) req) where
  messages m hm :=
    let ⟨t, ht, hsent⟩ := h.messages m hm
    ⟨t, Pool.getElem?_arrive ht, hsent⟩
  committed i hi :=
    let ⟨t, ht, hnext⟩ := h.committed i hi
    ⟨t, Pool.getElem?_arrive ht, hnext⟩

/-! ## One step -/

/-- A request that has not published yet has no message. -/
lemma no_messages {p : OrderPool} (h : Senders p) {i : ℕ} {t : OrderThread}
    (ht : p.threads[i]? = some t) (hsent : hasSent t.trace = false) :
    ∀ m ∈ p.store.messages, m.transaction ≠ i := by
  rintro m hm rfl
  obtain ⟨u, hu, hsentu⟩ := h.messages m hm
  obtain rfl := Option.some.inj (ht.symm.trans hu)
  exact absurd (hsent.symm.trans hsentu) (by simp)

/-- How many messages the broker has received from a transaction. -/
def countMessages (store : OrderStore) (i : ℕ) : ℕ :=
  store.messages.countP fun message => message.transaction = i

/-- No transaction publishes twice. -/
def PublishOnce (p : OrderPool) : Prop := ∀ i, countMessages p.store i ≤ 1

lemma countMessages_sent (store : OrderStore) (i j : ℕ) (routingKey : String)
    (event : OrderEvent) :
    countMessages { store with messages := ⟨i, routingKey, event⟩ :: store.messages } j =
      countMessages store j + if i = j then 1 else 0 := by
  unfold countMessages
  rw [List.countP_cons]
  simp only [decide_eq_true_eq]

lemma publishOnce_preserved {p p' : OrderPool} {l : ℕ × Fault} (hstages : InStages platform p)
    (hsenders : Senders p) (h : PublishOnce p) (hstep : orderStep p l = some p') :
    PublishOnce p' := by
  obtain ⟨i, fault⟩ := l
  obtain ⟨⟨req, trace, q⟩, c, k, store, r, ht, hk, hexec, rfl⟩ := Pool.step_eq_some.mp hstep
  have hstage := hstages _ (List.mem_of_getElem? ht)
  simp only at hk hstage hexec ht
  subst hk
  -- by the stage of the transaction that moves; only `sending` adds a message
  show ∀ j, countMessages store j ≤ 1
  cases hstage with
  | finding hfinds =>
    obtain ⟨rfl, -⟩ := Prod.mk.inj (Option.some.inj hexec)
    exact h
  | sending hjob hkey =>
    obtain ⟨rfl, -⟩ := Prod.mk.inj (Option.some.inj hexec)
    split
    · exact h
    · -- the only message of this transaction
      intro j
      rw [countMessages_sent]
      split
      · rename_i hij
        have hnone := no_messages hsenders ht (hasSent_foundTrace _ _)
        have hzero : countMessages p.store j = 0 := by
          unfold countMessages
          rw [List.countP_eq_zero]
          intro m hm
          have hne := hnone m hm
          rw [hij] at hne
          simpa using hne
        omega
      · exact h j
  | flushing hjob htrace hwrite =>
    have hmessages : store.messages = p.store.messages := by
      rcases execOrder_flush hexec with ⟨-, rfl, -⟩ | ⟨-, -, row, -, rfl, -⟩ <;> rfl
    intro j
    unfold countMessages
    rw [hmessages]
    exact h j
  | committing hjob htrace =>
    have hmessages : store.messages = p.store.messages := by
      rw [execOrder_commit hexec]
      split <;> rfl
    intro j
    unfold countMessages
    rw [hmessages]
    exact h j

/-- After a step only the messages of the transaction that moved need a look. -/
lemma eventsCommitted_moved_iff {p : OrderPool} (hp : EventsCommitted p) {i : ℕ} {t : OrderThread}
    {c : OrderCommand} {r : OrderReply c} {q : OrderProgram} {fault : Fault} {store : OrderStore}
    (ht : p.threads[i]? = some t) (hexec : execOrder p.store i c fault = some (store, r)) :
    EventsCommitted { store := store, threads := p.threads.set i (t.receive c r q) } ↔
      (q.answer?.isSome = true → i ∉ store.committed →
        ∀ m ∈ store.messages, m.transaction ≠ i) := by
  obtain ⟨hmessages, -, hkept⟩ := execOrder_log hexec
  constructor
  · rintro h hended hopen m hm rfl
    exact hopen (h m hm _ (getElem?_set_moved ht _) hended)
  · intro h m hm u hu hended
    simp only at hm hu ⊢
    rcases getElem?_set_eq_some hu with ⟨hmi, rfl⟩ | ⟨hmi, hu⟩
    · -- the transaction that moved
      by_contra hopen
      rw [hmi] at hopen
      exact h hended hopen m hm hmi
    · have hm' := (hmessages m hm).resolve_right fun hnew => hmi hnew.1
      exact hkept _ (hp m hm' u hu hended)

lemma answer?_flushThen (write : Option Write) (answer : Response) :
    (flushThen write answer).answer? = none := by
  cases write <;> rfl

/-- A step keeps the messages with committed transactions exactly when it does not refuse
one that has published. -/
lemma eventsCommitted_step_iff {p p' : OrderPool} {l : ℕ × Fault} (hstages : InStages platform p)
    (h : Senders p) (hp : EventsCommitted p) (hstep : orderStep p l = some p') :
    EventsCommitted p' ↔ NotRefused p l := by
  obtain ⟨i, fault⟩ := l
  obtain ⟨⟨req, trace, q⟩, c, k, store, r, ht, hk, hexec, rfl⟩ := Pool.step_eq_some.mp hstep
  have hstage := hstages _ (List.mem_of_getElem? ht)
  simp only at hk hstage hexec ht
  subst hk
  rw [eventsCommitted_moved_iff hp ht hexec]
  have hopen : i ∉ p.store.committed := by
    intro hi
    obtain ⟨t, hti, hnext⟩ := h.committed i hi
    obtain rfl := Option.some.inj (ht.symm.trans hti)
    exact absurd hnext (by simp [Program.next?])
  have hgranted : NotRefused p (i, fault) ↔
      (granted p.store i fault (.call c k) = false →
        ∀ m ∈ p.store.messages, m.transaction ≠ i) := by
    constructor
    · intro hn hg m hm hmi
      exact absurd (hg.symm.trans (hn m hm hmi _ ht)) (by simp)
    · intro hn m hm hmi t hti
      obtain rfl := Option.some.inj (ht.symm.trans hti)
      by_contra hg
      exact hn (by simpa using hg) m hm hmi
  rw [hgranted]
  cases hstage with
  | finding hfinds =>
    -- `findById` comes before anything is published
    obtain ⟨rfl, -⟩ := Prod.mk.inj (Option.some.inj hexec)
    exact iff_of_true (fun _ _ => no_messages h ht rfl) (fun hg => absurd hg (by simp [granted]))
  | sending hjob hkey =>
    -- the flush or the commit is still to come
    refine iff_of_true (fun hended => ?_) (fun hg => absurd hg (by simp [granted]))
    rw [answer?_flushThen] at hended
    exact absurd hended (by simp)
  | flushing hjob htrace hwrite =>
    rcases execOrder_flush hexec with ⟨hno, rfl, rfl⟩ | ⟨hyes, -, row, -, rfl, rfl⟩
    · -- the request ends without a commit
      constructor
      · intro hended _
        exact hended rfl hopen
      · intro hmessages _ _
        exact hmessages hno
    · exact iff_of_true (fun hended => absurd hended (by simp [commitThen, Program.answer?]))
        (fun hg => absurd (hg.symm.trans hyes) (by simp))
  | committing hjob htrace =>
    have hstore := execOrder_commit hexec
    by_cases hfault : fault = .before
    · -- the commit is refused, which is a rollback
      rw [if_pos hfault] at hstore
      subst hstore
      constructor
      · intro hended _
        exact hended (by rcases r with e | _ <;> rfl) hopen
      · intro hmessages _ _
        exact hmessages (by simp [granted, hfault])
    · rw [if_neg hfault] at hstore
      subst hstore
      exact iff_of_true (fun _ hout => absurd List.mem_cons_self hout)
        (fun hg => absurd hg (by simp [granted, hfault]))

end

/-! ## Runs -/

/-- **Events only for committed changes.** In every interleaving of order transactions over
a failing database and a failing broker, in every state each message of a transaction that
has ended belongs to one that has committed if and only if the database refuses neither
flush nor commit of a transaction that has published. -/
theorem events_committed_iff (platform : Platform) (rows : List Order)
    (requests : List OrderRequest) (es : List (ℕ × Fault)) (p : OrderPool)
    (hrun : run orderStep (orderPool platform rows requests) es = some p) :
    Throughout orderStep EventsCommitted (orderPool platform rows requests) es ↔
      StepsMeet orderStep NotRefused (orderPool platform rows requests) es := by
  have hinit : EventsCommitted (orderPool platform rows requests) := by
    intro m hm
    exact absurd hm (by simp [orderPool, Pool.init, OrderStore.initial])
  have hpreserved : Preserved orderStep fun p => InStages platform p ∧ Senders p := by
    intro p l p' h hstep
    exact ⟨inStages_preserved p l p' h.1 hstep, senders_preserved h.1 h.2 hstep⟩
  have hstart : InStages platform (orderPool platform rows requests) ∧
      Senders (orderPool platform rows requests) :=
    ⟨inStages_init rows requests, senders_init rows requests⟩
  refine throughout_iff_stepsMeet hpreserved ?_ hstart hinit (stepsMeet_true _ _) hrun
  intro s e s' h hp _ hstep
  exact eventsCommitted_step_iff h.1 h.2 hp hstep

/-- An order is created while the broker is down, and then cancelled. -/
theorem events_committed_iff_created :
    EventsCommitted (final orderStep
      (orderPool ⟨true, id⟩ [] [.create (sampleRequest ⟨250, 2⟩) "o1", .cancel "o1"])
      [(0, .before), (0, .none), (0, .none), (1, .none), (1, .none), (1, .none), (1, .none)]
      (by decide)) :=
  ((events_committed_iff _ _ _ _ _ (run_final (by decide))).mpr (by decide)).last
    (run_final (by decide))

/-- **An event of no order.** A total price of ten billion does not fit `numeric(12, 2)`:
the event is out when the flush is refused, and the order is never stored. -/
theorem event_of_no_order :
    ¬ ∀ (platform : Platform) (rows : List Order) (requests : List OrderRequest)
        (es : List (ℕ × Fault)) (p : OrderPool),
      run orderStep (orderPool platform rows requests) es = some p → EventsCommitted p := by
  intro h
  have hcommitted := h ⟨true, id⟩ [] [.create (sampleRequest ⟨10000000000, 0⟩) "o1"]
    [(0, .none), (0, .none)] _ (run_final (by decide))
  exact absurd hcommitted (by decide)

end DevopsEcommerce.OrderService
