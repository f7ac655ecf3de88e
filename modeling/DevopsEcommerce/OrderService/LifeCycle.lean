import DevopsEcommerce.OrderService.Jobs

/-!
# The life cycle of an order

Requests handled one after the other, over a healthy database and any broker. Only
`cancelOrder` looks at the status it replaces; `updateOrderStatus` writes and publishes
whatever it is asked for. `order_life_cycle_iff` says which status updates the life cycle
PENDING < CONFIRMED < SHIPPED < DELIVERED, with CANCELLED entered from PENDING only, can
take; `order_moves_backwards` is a run that leaves it.
-/

open Interleaving Numbers

namespace DevopsEcommerce.OrderService

/-! ## Sequential handling -/

/-- The broker misbehaves as given; the database answers. -/
def brokerFault (fault : Fault) (_n : ℕ) : OrderCommand → Fault
  | .convertAndSend _ _ => fault
  | _ => .none

/-- One request handled from beginning to end. -/
def handle (platform : Platform) (store : OrderStore) (l : OrderRequest × Fault) :
    Option OrderStore :=
  ((serve platform l.1).perform execOrder 0 (brokerFault l.2) 0 store).map Prod.fst

/-- The store after a job has published. -/
def publish (store : OrderStore) (job : Job) (fault : Fault) : OrderStore :=
  match job.routingKey with
  | none => store
  | some routingKey =>
    if fault = .before then store
    else { store with messages := ⟨0, routingKey, orderEvent job.saved⟩ :: store.messages }

/-- The store after the flush and the commit of a statement. -/
def save (store : OrderStore) (write : Option Write) : OrderStore :=
  match write with
  | none => { store with committed := 0 :: store.committed }
  | some write =>
    match write.row store.rows with
    | none => store
    | some row =>
      { store with rows := putRow row store.rows, committed := 0 :: store.committed }

lemma perform_flushThen {store : OrderStore} (hopen : store.uncommitted = []) (fault : Fault)
    (write : Option Write) (answer : Response) (n : ℕ) :
    ((flushThen write answer).perform execOrder 0 (brokerFault fault) n store).map Prod.fst =
      some (save store write) := by
  obtain ⟨rows, uncommitted, committed, messages⟩ := store
  simp only at hopen
  subst hopen
  cases write with
  | none => rfl
  | some write =>
    cases hrow : write.row rows with
    | none => simp [flushThen, Program.perform, execOrder, brokerFault, locked, save, hrow]
    | some row =>
      simp [flushThen, commitThen, Program.perform, execOrder, brokerFault, locked, save, hrow,
        commitRow]

lemma perform_program {store : OrderStore} (hopen : store.uncommitted = []) (fault : Fault)
    (job : Job) (n : ℕ) :
    (job.program.perform execOrder 0 (brokerFault fault) n store).map Prod.fst =
      some (save (publish store job fault) job.write) := by
  unfold Job.program publish
  cases job.routingKey with
  | none => exact perform_flushThen hopen fault job.write job.answer n
  | some routingKey =>
    cases fault with
    | before => exact perform_flushThen hopen .before job.write job.answer (n + 1)
    | _ =>
      apply perform_flushThen
      exact hopen

section
variable {platform : Platform}

/-- The effect of a request on the row of its order, and on nothing else: its job, or
nothing if it has none. -/
def Effect (platform : Platform) (store : OrderStore) (req : OrderRequest) (fault : Fault)
    (store' : OrderStore) : Prop :=
  (∃ job, JobOf platform req (findRow store.rows req.orderId) job ∧
    store' = save (publish store job fault) job.write) ∨
  store' = store ∧ ∀ job, ¬ JobOf platform req (findRow store.rows req.orderId) job

lemma effect_of_decides {store : OrderStore} (hopen : store.uncommitted = [])
    {req : OrderRequest} (fault : Fault) {q : OrderProgram}
    (h : Decides platform req (findRow store.rows req.orderId) q) (n : ℕ) :
    ∃ store', (q.perform execOrder 0 (brokerFault fault) n store).map Prod.fst = some store' ∧
      Effect platform store req fault store' := by
  rcases h with ⟨job, hjob, rfl⟩ | ⟨⟨answer, -, rfl⟩, hnone⟩
  · exact ⟨_, perform_program hopen fault job n, .inl ⟨job, hjob, rfl⟩⟩
  · exact ⟨store, rfl, .inr ⟨rfl, hnone⟩⟩

/-- Every request is handled, with its effect. -/
theorem handle_effect {store : OrderStore} (hopen : store.uncommitted = [])
    (req : OrderRequest) (fault : Fault) :
    ∃ store', handle platform store (req, fault) = some store' ∧
      Effect platform store req fault store' := by
  have hid : ∀ order ∈ findRow store.rows req.orderId, order.id = req.orderId :=
    fun order horder => (findRow_eq_some horder).2
  cases req with
  | create request uuid =>
    exact effect_of_decides hopen fault (createOrder_decides request uuid _) 0
  | cancel id =>
    have h : Decides platform (.cancel id) _ (cancelFound (.ok (findRow store.rows id))) :=
      cancelFound_decides hid
    have heffect := effect_of_decides hopen fault h 1
    exact heffect
  | updateStatus id statusValue =>
    cases hparse : parseStatus platform statusValue with
    | none =>
      -- the controller answers 400 before any command
      refine ⟨store, ?_, .inr ⟨rfl, fun job hjob => ?_⟩⟩
      · show ((updateOrderStatus platform id statusValue).perform _ _ _ _ _).map _ = _
        unfold updateOrderStatus
        rw [hparse]
        rfl
      · generalize findRow store.rows _ = found at hjob
        cases hjob with
        | update _ hparse' => exact absurd (hparse.symm.trans hparse') (by simp)
    | some status =>
      have h := effect_of_decides hopen fault (updateFound_decides hid hparse) 1
      show ∃ store', ((updateOrderStatus platform id statusValue).perform _ _ _ _ _).map _ = _ ∧ _
      unfold updateOrderStatus
      rw [hparse]
      exact h

end

/-! ## Life cycles -/

/-- The position in PENDING < CONFIRMED < SHIPPED < DELIVERED. -/
def OrderStatus.position : OrderStatus → Option ℕ
  | .pending => some 0
  | .confirmed => some 1
  | .shipped => some 2
  | .delivered => some 3
  | .cancelled => none

/-- The status changes of the life cycle: none, forward, or from `PENDING` to
`CANCELLED`. -/
def Moves (old new : OrderStatus) : Prop :=
  old = new ∨ (∃ m ∈ old.position, ∃ n ∈ new.position, m < n) ∨
    (old = .pending ∧ new = .cancelled)

instance (old new : OrderStatus) : Decidable (Moves old new) :=
  inferInstanceAs (Decidable (old = new ∨ (∃ m ∈ old.position, ∃ n ∈ new.position, m < n) ∨ _))

/-- Between the two stores every order moved within its life cycle, new ones entered as
`PENDING`, and none has had two events of one kind. -/
structure Orderly (store store' : OrderStore) : Prop where
  moves : ∀ id old new, statusOf store id = some old → statusOf store' id = some new →
    Moves old new
  enters : ∀ id new, statusOf store id = none → statusOf store' id = some new → new = .pending
  once : ∀ id routingKey, eventCount store' id routingKey ≤ 1

/-- Handling the request is orderly. -/
def OrderlyStep (platform : Platform) (store : OrderStore) (l : OrderRequest × Fault) : Prop :=
  ∀ store', handle platform store l = some store' → Orderly store store'

/-- A status update is within the life cycle of its order, and if it repeats the status, no
event of this status is going to be published for a second time. -/
def LawfulUpdate (platform : Platform) (store : OrderStore) (l : OrderRequest × Fault) : Prop :=
  match l.1 with
  | .updateStatus id statusValue =>
    ∀ new ∈ parseStatus platform statusValue, ∀ old ∈ statusOf store id,
      Moves old new ∧
      (old = new → l.2 ≠ .before → ∀ routingKey ∈ resolveRoutingKey new,
        eventCount store id routingKey = 0)
  | _ => True

/-- The UUID of a new order is new. -/
def FreshUuid (store : OrderStore) (l : OrderRequest × Fault) : Prop :=
  match l.1 with
  | .create _ uuid => findRow store.rows uuid = none ∧ ∀ m ∈ store.messages, m.event.orderId ≠ uuid
  | _ => True

instance (platform : Platform) (store : OrderStore) :
    (l : OrderRequest × Fault) → Decidable (LawfulUpdate platform store l)
  | (.updateStatus id statusValue, fault) =>
    inferInstanceAs (Decidable (∀ new ∈ parseStatus platform statusValue,
      ∀ old ∈ statusOf store id, Moves old new ∧ (old = new → fault ≠ .before →
        ∀ routingKey ∈ resolveRoutingKey new, eventCount store id routingKey = 0)))
  | (.create _ _, _) => .isTrue trivial
  | (.cancel _, _) => .isTrue trivial

instance (store : OrderStore) : (l : OrderRequest × Fault) → Decidable (FreshUuid store l)
  | (.create _ uuid, _) =>
    inferInstanceAs (Decidable (findRow store.rows uuid = none ∧
      ∀ m ∈ store.messages, m.event.orderId ≠ uuid))
  | (.updateStatus _ _, _) => .isTrue trivial
  | (.cancel _, _) => .isTrue trivial

/-- What ties the events of a store to its orders, as long as all steps were orderly. -/
structure Tracked (store : OrderStore) : Prop where
  noneOpen : store.uncommitted = []
  rowsFit : ∀ row ∈ store.rows, ∀ status,
    (row.withStatus status).stored = some (row.withStatus status)
  shipped : ∀ id, eventCount store id routingKeyShipped ≠ 0 →
    statusOf store id = some .shipped ∨ statusOf store id = some .delivered
  cancelled : ∀ id, eventCount store id routingKeyCancelled ≠ 0 →
    statusOf store id = some .cancelled
  once : ∀ id routingKey, eventCount store id routingKey ≤ 1

/-! ## What a job changes -/

@[simp] lemma rows_publish (store : OrderStore) (job : Job) (fault : Fault) :
    (publish store job fault).rows = store.rows := by
  unfold publish
  split
  · rfl
  · split <;> rfl

@[simp] lemma uncommitted_publish (store : OrderStore) (job : Job) (fault : Fault) :
    (publish store job fault).uncommitted = store.uncommitted := by
  unfold publish
  split
  · rfl
  · split <;> rfl

lemma uncommitted_save (store : OrderStore) (write : Option Write) :
    (save store write).uncommitted = store.uncommitted := by
  unfold save
  split
  · rfl
  · split <;> rfl

lemma messages_save (store : OrderStore) (write : Option Write) :
    (save store write).messages = store.messages := by
  unfold save
  split
  · rfl
  · split <;> rfl

/-- A job adds at most its own event. -/
lemma eventCount_job (store : OrderStore) (job : Job) (fault : Fault) (write : Option Write)
    (id routingKey : String) :
    eventCount (save (publish store job fault) write) id routingKey =
      eventCount store id routingKey +
        if job.saved.id = id ∧ job.routingKey = some routingKey ∧ fault ≠ .before then 1
        else 0 := by
  unfold eventCount
  rw [messages_save]
  unfold publish
  cases hkey : job.routingKey with
  | none => simp
  | some key =>
    by_cases hfault : fault = .before
    · simp [hfault]
    · by_cases hid : job.saved.id = id
      · by_cases hk : key = routingKey <;> simp [hfault, hid, hk, orderEvent]
      · simp [hfault, hid, orderEvent]

lemma statusOf_publish (store : OrderStore) (job : Job) (fault : Fault) (id : String) :
    statusOf (publish store job fault) id = statusOf store id := by
  unfold statusOf
  rw [rows_publish]

/-- A refused statement changes no status. -/
lemma statusOf_save_of_refused {store : OrderStore} {write : Write}
    (hrow : write.row store.rows = none) (id : String) :
    statusOf (save store (some write)) id = statusOf store id := by
  unfold statusOf save
  simp only [hrow]

/-- A statement sets the status of its row. -/
lemma statusOf_save {store : OrderStore} {write : Write} {row : Order}
    (hrow : write.row store.rows = some row) (id : String) :
    statusOf (save store (some write)) id =
      if row.id = id then some row.status else statusOf store id := by
  unfold statusOf save
  simp only [hrow, findRow_putRow]
  split <;> rfl

lemma mem_putRow {row r : Order} {rows : List Order} (h : r ∈ putRow row rows) :
    r = row ∨ r ∈ rows := by
  induction rows with
  | nil => exact .inl (List.mem_singleton.mp h)
  | cons a rows ih =>
    unfold putRow at h
    split at h
    · rcases List.mem_cons.mp h with rfl | h
      · exact .inl rfl
      · exact .inr (List.mem_cons_of_mem _ h)
    · rcases List.mem_cons.mp h with rfl | h
      · exact .inr List.mem_cons_self
      · exact (ih h).imp_right (List.mem_cons_of_mem _)

/-- Rows that the columns take stay so. -/
lemma rowsFit_save {store : OrderStore} (write : Option Write)
    (h : ∀ row ∈ store.rows, ∀ status,
      (row.withStatus status).stored = some (row.withStatus status)) :
    ∀ row ∈ (save store write).rows, ∀ status,
      (row.withStatus status).stored = some (row.withStatus status) := by
  intro row hrow
  unfold save at hrow
  cases write with
  | none => exact h row hrow
  | some write =>
    cases hwrite : write.row store.rows with
    | none =>
      simp only [hwrite] at hrow
      exact h row hrow
    | some written =>
      simp only [hwrite] at hrow
      rcases mem_putRow hrow with rfl | hrow
      · exact stored_withStatus (Write.row_stored hwrite)
      · exact h row hrow

/-- A cancellation is the update of a `PENDING` order to `CANCELLED`. -/
lemma cancelJob_eq {order : Order} (h : order.status = .pending) :
    cancelJob order = updateJob order .cancelled := by
  unfold cancelJob updateJob statusUpdate
  rw [h]
  rfl

/-! ## Status updates -/

section
variable {store : OrderStore} {id : String} {order : Order}

lemma statusOf_of_found (hfound : findRow store.rows id = some order) :
    statusOf store id = some order.status := by
  unfold statusOf
  rw [hfound]
  rfl

/-- An update sets the status of its order, and of no other. -/
lemma statusOf_update (h : Tracked store) (hfound : findRow store.rows id = some order)
    (status : OrderStatus) (fault : Fault) (x : String) :
    statusOf (save (publish store (updateJob order status) fault) (statusUpdate order status)) x =
      if x = id then some status else statusOf store x := by
  obtain ⟨hmem, hid⟩ := findRow_eq_some hfound
  have hold := statusOf_of_found hfound
  unfold statusUpdate
  by_cases hsame : order.status = status
  · -- dirty checking: nothing is written, and nothing has to be
    rw [if_pos hsame]
    show statusOf (publish store (updateJob order status) fault) x = _
    rw [statusOf_publish]
    split
    · rename_i hx
      rw [hx, hold, hsame]
    · rfl
  · rw [if_neg hsame]
    -- the write is accepted, since the row fits its columns
    have hrow : (Write.update (order.withStatus status)).row
        (publish store (updateJob order status) fault).rows = some (order.withStatus status) := by
      have hfound' : findRow store.rows (order.withStatus status).id = some order := by
        rw [← hfound, ← hid]
        rfl
      unfold Write.row
      rw [rows_publish]
      simp only [hfound', Option.isSome_some, if_true]
      exact h.rowsFit order hmem status
    rw [statusOf_save hrow]
    have hrowId : (order.withStatus status).id = id := hid
    rw [hrowId]
    by_cases hx : x = id
    · rw [if_pos hx.symm, if_pos hx]
      rfl
    · rw [if_neg (Ne.symm hx), if_neg hx, statusOf_publish]

/-- A status that is really new has not been announced before. -/
lemma eventCount_eq_zero_of_moves (h : Tracked store) {old new : OrderStatus}
    (hold : statusOf store id = some old) (hmoves : Moves old new) (hne : old ≠ new) :
    ∀ routingKey ∈ resolveRoutingKey new, eventCount store id routingKey = 0 := by
  intro routingKey hkey
  by_contra hcount
  cases new with
  | shipped =>
    obtain rfl := Option.some.inj hkey
    rcases h.shipped id hcount with hs | hs
    · exact hne (Option.some.inj (hold.symm.trans hs))
    · obtain rfl := Option.some.inj (hold.symm.trans hs)
      exact absurd hmoves (by decide)
  | cancelled =>
    obtain rfl := Option.some.inj hkey
    exact hne (Option.some.inj (hold.symm.trans (h.cancelled id hcount)))
  | _ => exact absurd hkey (by simp [resolveRoutingKey])

/-- The store after an update. -/
def updated (store : OrderStore) (order : Order) (status : OrderStatus) (fault : Fault) :
    OrderStore :=
  save (publish store (updateJob order status) fault) (statusUpdate order status)

lemma eventCount_updated (hfound : findRow store.rows id = some order) (status : OrderStatus)
    (fault : Fault) (x routingKey : String) :
    eventCount (updated store order status fault) x routingKey = eventCount store x routingKey +
      if id = x ∧ resolveRoutingKey status = some routingKey ∧ fault ≠ .before then 1 else 0 := by
  unfold updated
  rw [eventCount_job, ← (findRow_eq_some hfound).2]
  rfl

/-- An update is orderly exactly when it is lawful. -/
lemma orderly_updated_iff (h : Tracked store) (hfound : findRow store.rows id = some order)
    (status : OrderStatus) (fault : Fault) :
    Orderly store (updated store order status fault) ↔
      Moves order.status status ∧
        (order.status = status → fault ≠ .before → ∀ routingKey ∈ resolveRoutingKey status,
          eventCount store id routingKey = 0) := by
  have hold := statusOf_of_found hfound
  have hstatus := statusOf_update h hfound status fault
  have hcount := eventCount_updated hfound status fault
  constructor
  · intro ho
    refine ⟨ho.moves id _ _ hold (by rw [updated, hstatus, if_pos rfl]), ?_⟩
    intro _ hfault routingKey hkey
    have honce := ho.once id routingKey
    rw [hcount, if_pos ⟨rfl, hkey, hfault⟩] at honce
    omega
  · rintro ⟨hmoves, hrepeat⟩
    refine ⟨?_, ?_, ?_⟩
    · intro x old new hx hx'
      rw [updated, hstatus] at hx'
      split at hx'
      · rename_i hid
        subst hid
        obtain rfl := Option.some.inj (hold.symm.trans hx)
        obtain rfl := Option.some.inj hx'
        exact hmoves
      · exact .inl (Option.some.inj (hx.symm.trans hx'))
    · intro x new hx hx'
      rw [updated, hstatus] at hx'
      split at hx'
      · rename_i hid
        rw [hid, hold] at hx
        exact absurd hx (by simp)
      · exact absurd (hx.symm.trans hx') (by simp)
    · intro x routingKey
      rw [hcount]
      split
      · rename_i hsent
        obtain ⟨rfl, hkey, hfault⟩ := hsent
        -- a repeated status has had no event, and a new one could not have had any
        have hzero : eventCount store id routingKey = 0 := by
          by_cases hsame : order.status = status
          · exact hrepeat hsame hfault routingKey hkey
          · exact eventCount_eq_zero_of_moves h hold hmoves hsame routingKey hkey
        omega
      · exact h.once x routingKey

/-- Let `S` hold of the statuses that are announced under a key, and let the life cycle not leave
`S`. If it holds of all orders announced under the key, a lawful update keeps it so. -/
lemma announced_updated (h : Tracked store) (hfound : findRow store.rows id = some order)
    {status : OrderStatus} (hmoves : Moves order.status status) (fault : Fault)
    {routingKey : String} {S : OrderStatus → Prop}
    (hkey : ∀ new, resolveRoutingKey new = some routingKey → S new)
    (hstays : ∀ old new, S old → Moves old new → S new)
    (hbefore : ∀ x, eventCount store x routingKey ≠ 0 → ∃ s, statusOf store x = some s ∧ S s)
    (x : String) (hx : eventCount (updated store order status fault) x routingKey ≠ 0) :
    ∃ s, statusOf (updated store order status fault) x = some s ∧ S s := by
  rw [eventCount_updated hfound] at hx
  rw [updated, statusOf_update h hfound]
  by_cases hxid : x = id
  · subst hxid
    rw [if_pos rfl]
    refine ⟨status, rfl, ?_⟩
    by_cases hzero : eventCount store x routingKey = 0
    · -- the event is new, so this is an update to its status
      rw [hzero, zero_add, ne_eq, ite_eq_right_iff, not_forall] at hx
      obtain ⟨⟨-, hnew, -⟩, -⟩ := hx
      exact hkey status hnew
    · -- the order has been announced before and can only have moved on
      obtain ⟨old, hold, hS⟩ := hbefore x hzero
      obtain rfl := Option.some.inj ((statusOf_of_found hfound).symm.trans hold)
      exact hstays _ _ hS hmoves
  · rw [if_neg hxid]
    rw [if_neg (fun hc => hxid hc.1.symm), add_zero] at hx
    exact hbefore x hx

/-- A lawful update keeps the events tied to the orders. -/
lemma tracked_updated (h : Tracked store) (hfound : findRow store.rows id = some order)
    {status : OrderStatus} {fault : Fault}
    (ho : Orderly store (updated store order status fault)) :
    Tracked (updated store order status fault) := by
  have hmoves : Moves order.status status :=
    ((orderly_updated_iff h hfound status fault).mp ho).1
  refine ⟨?_, ?_, ?_, ?_, ho.once⟩
  · unfold updated
    rw [uncommitted_save, uncommitted_publish]
    exact h.noneOpen
  · unfold updated
    apply rowsFit_save
    rw [rows_publish]
    exact h.rowsFit
  · intro x hx
    -- an order that was announced as shipped stays `SHIPPED` or gets `DELIVERED`
    have hshipped := announced_updated h hfound hmoves fault
      (S := fun s => s = .shipped ∨ s = .delivered) ?_ ?_ ?_ x hx
    · obtain ⟨s, hs, rfl | rfl⟩ := hshipped
      · exact .inl hs
      · exact .inr hs
    · intro new hkey
      cases new <;> first | exact .inl rfl | exact absurd hkey (by decide)
    · rintro old new (rfl | rfl) hmove <;> revert hmove <;> cases new <;> decide
    · intro y hy
      rcases h.shipped y hy with hs | hs
      · exact ⟨_, hs, .inl rfl⟩
      · exact ⟨_, hs, .inr rfl⟩
  · intro x hx
    -- `CANCELLED` is final
    have hcancelled := announced_updated h hfound hmoves fault
      (S := fun s => s = .cancelled) ?_ ?_ ?_ x hx
    · obtain ⟨s, hs, rfl⟩ := hcancelled
      exact hs
    · intro new hkey
      cases new <;> first | rfl | exact absurd hkey (by decide)
    · rintro old new rfl hmove
      revert hmove
      cases new <;> decide
    · intro y hy
      exact ⟨_, h.cancelled y hy, rfl⟩

end

/-! ## New orders -/

section
variable {store : OrderStore} {order : Order}

/-- The store after a creation. -/
def created (store : OrderStore) (order : Order) (fault : Fault) : OrderStore :=
  save (publish store (createJob order) fault) (some (.insert order))

/-- A new row appears as `PENDING`, or not at all if a column refuses it. -/
lemma statusOf_created (hstatus : order.status = .pending) (fault : Fault) (x : String) :
    statusOf (created store order fault) x = statusOf store x ∨
      (x = order.id ∧ statusOf (created store order fault) x = some .pending) := by
  unfold created
  cases hwrite : (Write.insert order).row (publish store (createJob order) fault).rows with
  | none =>
    rw [statusOf_save_of_refused hwrite, statusOf_publish]
    exact .inl rfl
  | some row =>
    obtain ⟨hid, hst⟩ := Order.stored_eq (Write.row_stored hwrite)
    have hrow : row.id = order.id ∧ row.status = .pending := ⟨hid, hst.trans hstatus⟩
    rw [statusOf_save hwrite, statusOf_publish, hrow.1, hrow.2]
    by_cases hx : order.id = x
    · rw [if_pos hx]
      exact .inr ⟨hx.symm, rfl⟩
    · rw [if_neg hx]
      exact .inl rfl

lemma eventCount_created (fault : Fault) (x routingKey : String) :
    eventCount (created store order fault) x routingKey = eventCount store x routingKey +
      if order.id = x ∧ some routingKeyCreated = some routingKey ∧ fault ≠ .before
        then 1 else 0 := by
  unfold created
  rw [eventCount_job]
  rfl

/-- A new order is orderly and keeps the events tied to the orders. -/
lemma orderly_created (h : Tracked store) (hstatus : order.status = .pending)
    (hfresh : findRow store.rows order.id = none)
    (hsilent : ∀ m ∈ store.messages, m.event.orderId ≠ order.id) (fault : Fault) :
    Orderly store (created store order fault) ∧ Tracked (created store order fault) := by
  have hzero : ∀ routingKey, eventCount store order.id routingKey = 0 := by
    intro routingKey
    unfold eventCount
    rw [List.length_eq_zero_iff, List.filter_eq_nil_iff]
    intro m hm
    simp [hsilent m hm]
  have hnone : statusOf store order.id = none := by
    unfold statusOf
    rw [hfresh]
    rfl
  have honce : ∀ x routingKey, eventCount (created store order fault) x routingKey ≤ 1 := by
    intro x routingKey
    rw [eventCount_created]
    split
    · rename_i hsent
      obtain ⟨rfl, -, -⟩ := hsent
      rw [hzero]
    · exact h.once x routingKey
  -- an order with another event was there before and has kept its status
  have hother : ∀ x routingKey, routingKeyCreated ≠ routingKey →
      eventCount (created store order fault) x routingKey ≠ 0 →
      eventCount store x routingKey ≠ 0 ∧
        statusOf (created store order fault) x = statusOf store x := by
    intro x routingKey hkey hx
    rw [eventCount_created, if_neg (fun hc => hkey (Option.some.inj hc.2.1)), add_zero] at hx
    refine ⟨hx, (statusOf_created hstatus fault x).resolve_right ?_⟩
    rintro ⟨rfl, -⟩
    exact hx (hzero routingKey)
  refine ⟨⟨?_, ?_, honce⟩, ⟨?_, ?_, ?_, ?_, honce⟩⟩
  · intro x old new hx hx'
    rcases statusOf_created hstatus fault x with hsame | ⟨rfl, -⟩
    · exact .inl (Option.some.inj (hx.symm.trans (hsame ▸ hx')))
    · exact absurd (hnone.symm.trans hx) (by simp)
  · intro x new hx hx'
    rcases statusOf_created hstatus fault x with hsame | ⟨-, hpending⟩
    · exact absurd (hx.symm.trans (hsame ▸ hx')) (by simp)
    · exact (Option.some.inj (hpending.symm.trans hx')).symm
  · unfold created
    rw [uncommitted_save, uncommitted_publish]
    exact h.noneOpen
  · unfold created
    apply rowsFit_save
    rw [rows_publish]
    exact h.rowsFit
  · intro x hx
    obtain ⟨hbefore, hsame⟩ := hother x _ (by decide) hx
    rw [hsame]
    exact h.shipped x hbefore
  · intro x hx
    obtain ⟨hbefore, hsame⟩ := hother x _ (by decide) hx
    rw [hsame]
    exact h.cancelled x hbefore

end

/-! ## Runs -/

section
variable {platform : Platform}

/-- A request without a job leaves everything as it is. -/
lemma orderly_refl {store : OrderStore} (h : Tracked store) : Orderly store store where
  moves _ _ _ hx hx' := .inl (Option.some.inj (hx.symm.trans hx'))
  enters _ _ hx hx' := absurd (hx.symm.trans hx') (by simp)
  once := h.once

/-- One handled request: orderly exactly when it is lawful, and then the events stay tied
to the orders. -/
lemma orderlyStep_iff {store store' : OrderStore} {l : OrderRequest × Fault}
    (h : Tracked store) (hfresh : FreshUuid store l)
    (hstep : handle platform store l = some store') :
    (Orderly store store' ↔ LawfulUpdate platform store l) ∧
      (Orderly store store' → Tracked store') := by
  obtain ⟨req, fault⟩ := l
  obtain ⟨store₁, hstore₁, heffect⟩ : ∃ store₁, handle platform store (req, fault) = some store₁ ∧
      Effect platform store req fault store₁ := handle_effect h.noneOpen req fault
  obtain rfl : store₁ = store' := Option.some.inj (hstore₁.symm.trans hstep)
  rcases heffect with ⟨job, hjob, hstore'⟩ | ⟨rfl, hnone⟩
  · generalize hfound : findRow store.rows req.orderId = found at hjob
    cases hjob with
    | @create request uuid order found hnew hrequired =>
      -- whatever becomes of the INSERT, the event has gone out once
      obtain ⟨hid, hstatus⟩ := newOrder_eq hnew
      subst hid
      obtain ⟨ho, ht⟩ := orderly_created h hstatus hfresh.1 hfresh.2 fault
      have hcreated : store₁ = created store order fault := hstore'
      rw [hcreated]
      exact ⟨iff_of_true ho trivial, fun _ => ht⟩
    | @cancel id order hid hpending =>
      -- a cancellation has checked that its update is lawful
      rw [cancelJob_eq hpending] at hstore'
      have hupdated : store₁ = updated store order .cancelled fault := hstore'
      have ho := (orderly_updated_iff h hfound .cancelled fault).mpr
        ⟨.inr (.inr ⟨hpending, rfl⟩), fun hsame => absurd (hpending.symm.trans hsame) (by decide)⟩
      rw [hupdated]
      exact ⟨iff_of_true ho trivial, fun _ => tracked_updated h hfound ho⟩
    | @update id statusValue order status hid hparse =>
      have hfound' : findRow store.rows id = some order := hfound
      have hupdated : store₁ = updated store order status fault := hstore'
      have hold := statusOf_of_found hfound'
      have hlawful : LawfulUpdate platform store (.updateStatus id statusValue, fault) ↔
          Orderly store (updated store order status fault) := by
        rw [orderly_updated_iff h hfound']
        simp [LawfulUpdate, hparse, hold]
      rw [hupdated, hlawful]
      exact ⟨Iff.rfl, tracked_updated h hfound'⟩
  · refine ⟨iff_of_true (orderly_refl h) ?_, fun _ => h⟩
    cases req with
    | create request uuid => trivial
    | cancel id => trivial
    | updateStatus id statusValue =>
      -- a known order and a known status would have given a job
      intro new hnew old hold
      obtain ⟨order, hfound, -⟩ := Option.map_eq_some_iff.mp hold
      have hjob :
          JobOf platform (.updateStatus id statusValue) (some order) (updateJob order new) :=
        .update (findRow_eq_some hfound).2 hnew
      exact absurd hjob (hfound ▸ hnone _)

lemma tracked_initial : Tracked (OrderStore.initial []) where
  noneOpen := rfl
  rowsFit := by simp [OrderStore.initial]
  shipped := by simp [eventCount, OrderStore.initial]
  cancelled := by simp [eventCount, OrderStore.initial]
  once := by simp [eventCount, OrderStore.initial]

end

/-- **The life cycle of orders.** When requests are handled one after the other on an
empty database, and new orders get new UUIDs, every step keeps every order in its life
cycle and its events unrepeated if and only if every status update is lawful. -/
theorem order_life_cycle_iff (platform : Platform) (es : List (OrderRequest × Fault))
    (store : OrderStore) (hrun : run (handle platform) (OrderStore.initial []) es = some store)
    (hfresh : StepsMeet (handle platform) FreshUuid (OrderStore.initial []) es) :
    StepsMeet (handle platform) (OrderlyStep platform) (OrderStore.initial []) es ↔
      StepsMeet (handle platform) (LawfulUpdate platform) (OrderStore.initial []) es := by
  have horderly : ∀ s e s', Tracked s → FreshUuid s e → handle platform s e = some s' →
      (OrderlyStep platform s e ↔ Orderly s s') := by
    intro s e s' _ _ hstep
    constructor
    · intro h
      exact h s' hstep
    · intro h s₁ hs₁
      obtain rfl : s' = s₁ := Option.some.inj (hstep.symm.trans hs₁)
      exact h
  refine stepsMeet_iff_stepsMeet (I := Tracked) ?_ ?_ tracked_initial hfresh hrun
  · intro s e s' h hf hlawful hstep
    obtain ⟨hiff, htracked⟩ := orderlyStep_iff h hf hstep
    exact htracked (hiff.mpr hlawful)
  · intro s e s' h hf hstep
    rw [horderly s e s' h hf hstep]
    exact (orderlyStep_iff h hf hstep).1

/-- An order that is confirmed, shipped and delivered. -/
theorem order_life_cycle_iff_delivered :
    StepsMeet (handle ⟨true, id⟩) (OrderlyStep ⟨true, id⟩) (OrderStore.initial [])
      [(.create (sampleRequest ⟨250, 2⟩) "o1", .none),
        (.updateStatus "o1" (some "CONFIRMED"), .none),
        (.updateStatus "o1" (some "SHIPPED"), .none),
        (.updateStatus "o1" (some "DELIVERED"), .none), (.cancel "o1", .none)] :=
  (order_life_cycle_iff ⟨true, id⟩ _ _ (run_final (by decide)) (by decide)).mpr (by decide)

/-- **An order that moves backwards.** A shipped order is set to `PENDING` again. -/
theorem order_moves_backwards :
    ¬ ∀ (platform : Platform) (es : List (OrderRequest × Fault)) (store : OrderStore),
      run (handle platform) (OrderStore.initial []) es = some store →
      StepsMeet (handle platform) FreshUuid (OrderStore.initial []) es →
      StepsMeet (handle platform) (OrderlyStep platform) (OrderStore.initial []) es := by
  intro h
  have horderly := h ⟨true, id⟩ [(.create (sampleRequest ⟨250, 2⟩) "o1", .none),
    (.updateStatus "o1" (some "SHIPPED"), .none), (.updateStatus "o1" (some "PENDING"), .none)]
    _ (run_final (by decide)) (by decide)
  have hcreated := horderly.2 _ (Option.some_get (by decide)).symm
  have hshipped := hcreated.2 _ (Option.some_get (by decide)).symm
  have hlast := hshipped.1 _ (Option.some_get (by decide)).symm
  exact absurd (hlast.moves "o1" .shipped .pending (by decide) (by decide)) (by decide)

end DevopsEcommerce.OrderService
