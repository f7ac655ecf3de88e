import DevopsEcommerce.OrderService.Events
import DevopsEcommerce.OrderService.Provenance

/-!
# What an event says

A message comes from a transaction in the middle of its job, and tells of the order that this job
saves. If the transaction has committed, the order is in the database, under the id that the event
names and what the column keeps of the user (`Backed`). The row that a transaction commits is what
its flush has written, or, where there was nothing to write, what its `findById` has found.
-/

open Interleaving

namespace DevopsEcommerce.OrderService

section
variable {platform : Platform}

/-- The job of a request, which follows from what it has found. -/
def Doing (platform : Platform) (t : OrderThread) (job : Job) : Prop :=
  ∃ found, JobOf platform t.request found job ∧ foundTrace t.request found <:+ t.trace

lemma JobOf.unique {req : OrderRequest} {found : Option Order} {job job' : Job}
    (h : JobOf platform req found job) (h' : JobOf platform req found job') : job = job' := by
  cases h with
  | create found hnew hrequired =>
    cases h' with
    | create found hnew' hrequired' =>
      obtain rfl := Option.some.inj (hnew.symm.trans hnew')
      rfl
  | cancel hid hpending =>
    cases h' with
    | cancel hid' hpending' => rfl
  | update hid hparse =>
    cases h' with
    | update hid' hparse' =>
      obtain rfl := Option.some.inj (hparse.symm.trans hparse')
      rfl

lemma Doing.unique {t : OrderThread} {job job' : Job} (h : Doing platform t job)
    (h' : Doing platform t job') : job = job' := by
  obtain ⟨found, hjob, htrace⟩ := h
  obtain ⟨found', hjob', htrace'⟩ := h'
  cases hreq : t.request with
  | create request uuid =>
    rw [hreq] at hjob hjob'
    cases hjob with
    | create _ hnew hrequired =>
      cases hjob' with
      | create _ hnew' hrequired' =>
        obtain rfl := Option.some.inj (hnew.symm.trans hnew')
        rfl
  | cancel id | updateStatus id =>
    -- both are what the first command has found
    rw [hreq] at hjob hjob' htrace htrace'
    have hsame := (List.suffix_of_suffix_length_le htrace htrace' (Nat.le_refl 1)).eq_of_length rfl
    simp only [foundTrace, List.cons.injEq, Sigma.mk.injEq, heq_eq_eq, Except.ok.injEq, true_and,
      and_true] at hsame
    subst hsame
    exact hjob.unique hjob'

lemma Doing.receive {t : OrderThread} {job : Job} (h : Doing platform t job) (c : OrderCommand)
    (r : OrderReply c) (q : OrderProgram) : Doing platform (t.receive c r q) job := by
  obtain ⟨found, hjob, htrace⟩ := h
  exact ⟨found, hjob, htrace.trans (List.suffix_cons _ _)⟩

/-- After a step a request still does its job. -/
lemma Doing.set {threads : List OrderThread} {i j : ℕ} {t u : OrderThread} {job : Job}
    (h : Doing platform u job) (hu : threads[j]? = some u) (ht : threads[i]? = some t)
    (c : OrderCommand) (r : OrderReply c) (q : OrderProgram) :
    ∃ u', (threads.set i (t.receive c r q))[j]? = some u' ∧ Doing platform u' job := by
  by_cases hij : i = j
  · subst hij
    obtain rfl := Option.some.inj (ht.symm.trans hu)
    exact ⟨_, getElem?_set_moved ht _, h.receive c r q⟩
  · exact ⟨u, by rw [List.getElem?_set_ne hij]; exact hu, h⟩

/-- The row has what its column keeps of the user. -/
lemma Order.stored_userId {order row : Order} (h : order.stored = some row) :
    row.userId = requiredText order.userId := by
  obtain ⟨userId, -, -, -, -, -, huser, -, -, -, -, -, rfl⟩ := Order.stored_eq_some h
  exact huser.symm

/-- The column keeps the user of a derived row. -/
lemma Stems.userId_kept {rows : List Order} {asked : OrderRequest → Prop} {row : Order}
    (hfit : ∀ row ∈ rows, row.stored = some row) (h : Stems platform rows asked row) :
    row.userId = requiredText row.userId :=
  Order.stored_userId (h.stored hfit row.status)

lemma Order.Alike.userId_eq {order order' : Order} (h : order.Alike order') :
    order.userId = order'.userId :=
  (Order.mk.inj h).2.1

/-- An order with this id, of this user as the column keeps it, is in the database. -/
def HasOrder (rows : List Order) (id : String) (userId : Option String) : Prop :=
  ∃ row ∈ rows, row.id = id ∧ row.userId = requiredText userId

/-- What is known of the messages and of the transactions that send them. -/
structure Backed (platform : Platform) (rows : List Order) (asked : OrderRequest → Prop)
    (p : OrderPool) : Prop where
  kept : Kept platform rows asked p
  senders : Senders p
  messages : ∀ m ∈ p.store.messages, ∃ t job, p.threads[m.transaction]? = some t ∧
    Doing platform t job ∧ job.routingKey = some m.routingKey ∧ m.event = orderEvent job.saved
  written : ∀ u ∈ p.store.uncommitted, ∃ t job, p.threads[u.1]? = some t ∧
    Doing platform t job ∧ u.2.id = job.saved.id ∧ u.2.userId = requiredText job.saved.userId
  flushed : ∀ i t job, p.threads[i]? = some t → Doing platform t job →
    t.program.next? = some .commit → job.write ≠ none → ∃ row, (i, row) ∈ p.store.uncommitted
  stored : ∀ m ∈ p.store.messages, m.transaction ∈ p.store.committed →
    HasOrder p.store.rows m.event.orderId m.event.userId

variable {rows : List Order} {asked : OrderRequest → Prop}

/-- A transaction that has something to commit has found the order, or has written it. -/
lemma Backed.hasOrder {p : OrderPool} (hfit : ∀ row ∈ rows, row.stored = some row)
    (h : Backed platform rows asked p) {i : ℕ} {t : OrderThread} {job : Job}
    (ht : p.threads[i]? = some t) (hjob : Doing platform t job)
    (hnext : t.program.next? = some .commit) :
    HasOrder (commitRow p.store i).rows job.saved.id job.saved.userId := by
  unfold commitRow
  cases hlookup : p.store.uncommitted.lookup i with
  | some row =>
    obtain ⟨before, after, heq, -⟩ := List.lookup_eq_some_iff.mp hlookup
    have hrow : (i, row) ∈ p.store.uncommitted := by
      rw [heq]
      exact List.mem_append_right _ List.mem_cons_self
    obtain ⟨t', job', ht', hjob', hid, huser⟩ := h.written _ hrow
    obtain rfl := Option.some.inj (ht.symm.trans ht')
    obtain rfl := hjob.unique hjob'
    have hfound : findRow (putRow row p.store.rows) row.id = some row := by
      rw [findRow_putRow, if_pos rfl]
    exact ⟨row, (findRow_eq_some hfound).1, hid, huser⟩
  | none =>
    have hwrite : job.write = none := by
      by_contra hsome
      obtain ⟨row, hrow⟩ := h.flushed i t job ht hjob hnext hsome
      rw [List.lookup_eq_none_iff] at hlookup
      exact absurd (hlookup _ hrow) (by simp)
    obtain ⟨found, hjob, htrace⟩ := hjob
    cases hreq : t.request with
    | create request uuid =>
      rw [hreq] at hjob
      cases hjob
      exact absurd hwrite (by simp [createJob])
    | cancel id =>
      rw [hreq] at hjob
      cases hjob
      exact absurd hwrite (by simp [cancelJob])
    | updateStatus id statusValue =>
      rw [hreq] at hjob htrace
      cases hjob with
      | @update _ _ order status hid hparse =>
        -- the order has the status already
        have hfound : ⟨.findById id, .ok (some order)⟩ ∈ t.trace :=
          htrace.subset List.mem_cons_self
        obtain ⟨hstems, row, hrow, halike⟩ :=
          h.kept.derived.found t (List.mem_of_getElem? ht) id order hfound
        exact ⟨row, (findRow_eq_some hrow).1, halike.id_eq,
          halike.userId_eq.trans (hstems.userId_kept hfit)⟩

/-! ## Steps -/

section
variable {p : OrderPool} {i : ℕ} {fault : Fault} {req : OrderRequest}
  {trace : List (Σ c, OrderReply c)} {c : OrderCommand} {k : OrderReply c → OrderProgram}
  {r : OrderReply c} {store : OrderStore}

/-- A new message is the one that its transaction sends in its job. -/
lemma message_of_exec (hstage : OrderStage platform req trace (.call c k))
    (hexec : execOrder p.store i c fault = some (store, r)) {m : Message}
    (hm : m ∈ store.messages) : m ∈ p.store.messages ∨
      m.transaction = i ∧ ∃ job, Doing platform ⟨req, trace, .call c k⟩ job ∧
        job.routingKey = some m.routingKey ∧ m.event = orderEvent job.saved := by
  cases hstage with
  | finding hfinds =>
    obtain ⟨rfl, -⟩ := Prod.mk.inj (Option.some.inj hexec)
    exact .inl hm
  | @sending found job routingKey hjob hkey =>
    obtain ⟨rfl, -⟩ := Prod.mk.inj (Option.some.inj hexec)
    split at hm
    · exact .inl hm
    · rcases List.mem_cons.mp hm with rfl | hm
      · exact .inr ⟨rfl, job, ⟨found, hjob, List.suffix_refl _⟩, hkey, rfl⟩
      · exact .inl hm
  | flushing hjob htrace hwrite =>
    rcases execOrder_flush hexec with ⟨-, rfl, -⟩ | ⟨-, -, row, -, rfl, -⟩ <;> exact .inl hm
  | committing hjob htrace =>
    rw [execOrder_commit hexec] at hm
    split at hm <;> exact .inl hm

/-- A new version of a row is the one that its transaction saves in its job. -/
lemma version_of_exec (hstage : OrderStage platform req trace (.call c k))
    (hexec : execOrder p.store i c fault = some (store, r)) {u : ℕ × Order}
    (hu : u ∈ store.uncommitted) : u ∈ p.store.uncommitted ∨
      u.1 = i ∧ ∃ job, Doing platform ⟨req, trace, .call c k⟩ job ∧
        u.2.id = job.saved.id ∧ u.2.userId = requiredText job.saved.userId := by
  cases hstage with
  | finding hfinds =>
    rw [(execOrder_database hexec (by simp) (by simp)).2] at hu
    exact .inl hu
  | sending hjob hkey =>
    rw [(execOrder_database hexec (by simp) (by simp)).2] at hu
    exact .inl hu
  | @flushing found job write trace hjob htrace hwrite =>
    rcases execOrder_flush_row hexec with rfl | ⟨row, hrow, rfl⟩
    · exact .inl hu
    · rcases List.mem_cons.mp hu with rfl | hu
      · have hstored := Write.row_stored hrow
        rw [hjob.write_order hwrite] at hstored
        exact .inr ⟨rfl, job, ⟨found, hjob, htrace⟩, (Order.stored_eq hstored).1,
          Order.stored_userId hstored⟩
      · exact .inl hu
  | committing hjob htrace =>
    rw [execOrder_commit hexec] at hu
    split at hu <;> exact .inl (List.mem_filter.mp hu).1

/-- Only a commit or a rollback takes a version away, and only that of its transaction. -/
lemma version_kept (hexec : execOrder p.store i c fault = some (store, r)) {u : ℕ × Order}
    (hu : u ∈ p.store.uncommitted) (hother : u.1 ≠ i) : u ∈ store.uncommitted := by
  cases c with
  | commit =>
    have hfilter : u ∈ p.store.uncommitted.filter fun u => u.1 ≠ i :=
      List.mem_filter.mpr ⟨hu, decide_eq_true hother⟩
    rw [execOrder_commit hexec]
    split <;> exact hfilter
  | flush write =>
    rcases execOrder_flush_row hexec with rfl | ⟨row, -, rfl⟩
    · exact hu
    · exact List.mem_cons_of_mem _ hu
  | _ =>
    rw [(execOrder_database hexec (by simp) (by simp)).2]
    exact hu

lemma next_flushThen {write : Option Write} {answer : Response}
    (h : (flushThen write answer).next? = some .commit) : write = none := by
  cases write with
  | none => rfl
  | some write => exact absurd (Option.some.inj h) (by simp)

/-- A transaction comes to its commit by a flush, unless there is nothing to write. -/
lemma write_of_next (hstage : OrderStage platform req trace (.call c k))
    (hexec : execOrder p.store i c fault = some (store, r))
    (hnext : (k r).next? = some .commit) {job : Job}
    (hjob : Doing platform (Thread.receive ⟨req, trace, .call c k⟩ c r (k r)) job) :
    job.write = none ∨ ∃ row, (i, row) ∈ store.uncommitted := by
  cases hstage with
  | @finding id k hfinds =>
    cases r with
    | error e =>
      cases hfinds <;> exact absurd hnext (by simp [cancelFound, updateFound, Program.next?])
    | ok found =>
      cases hfinds with
      | cancel id =>
        cases found with
        | none => exact absurd hnext (by simp [cancelFound, Program.next?])
        | some order =>
          simp only [cancelFound] at hnext
          split at hnext <;> exact absurd hnext (by simp [publishOrderEvent, Program.next?])
      | @update id statusValue status hparse =>
        cases found with
        | none => exact absurd hnext (by simp [updateFound, Program.next?])
        | some order =>
          have hid : order.id = id := by
            obtain ⟨-, hr⟩ := Prod.mk.inj (Option.some.inj hexec)
            split at hr
            · exact (findRow_eq_some (Except.ok.inj hr)).2
            · exact absurd hr (by simp)
          have hsame : job = updateJob order status :=
            hjob.unique ⟨some order, .update hid hparse, List.suffix_refl _⟩
          simp only [updateFound] at hnext
          split at hnext
          · exact absurd hnext (by simp [publishOrderEvent, Program.next?])
          · rw [hsame]
            exact .inl (next_flushThen hnext)
  | @sending found job' routingKey hjob' hkey =>
    have hsame : job = job' := hjob.unique ⟨found, hjob', List.suffix_cons _ _⟩
    rw [hsame]
    exact .inl (next_flushThen hnext)
  | flushing hjob' htrace hwrite =>
    rcases execOrder_flush hexec with ⟨-, -, rfl⟩ | ⟨-, -, row, -, rfl, -⟩
    · exact absurd hnext (by simp [Program.next?])
    · exact .inr ⟨row, List.mem_cons_self⟩
  | committing hjob' htrace =>
    rcases r with e | _ <;> exact absurd hnext (by simp [Program.next?])

end

/-- A command keeps the messages backed. -/
lemma backed_step (hfit : ∀ row ∈ rows, row.stored = some row) {p p' : OrderPool}
    {l : ℕ × Fault} (h : Backed platform rows asked p) (hstep : orderStep p l = some p') :
    Backed platform rows asked p' := by
  obtain ⟨hkept, hkeep⟩ := kept_step hfit h.kept hstep
  have hsenders := senders_preserved h.kept.stages h.senders hstep
  obtain ⟨i, fault⟩ := l
  obtain ⟨⟨req, trace, q⟩, c, k, store, r, ht, hk, hexec, rfl⟩ := Pool.step_eq_some.mp hstep
  have hstage := h.kept.stages _ (List.mem_of_getElem? ht)
  simp only at hk hstage hexec ht hkeep
  subst hk
  refine ⟨hkept, hsenders, fun m hm => ?_, fun u hu => ?_, fun j t job hj hjob hnext hwrite => ?_,
    fun m hm hcommitted => ?_⟩
  · rcases message_of_exec hstage hexec hm with hold | ⟨rfl, job, hjob, hkey, hevent⟩
    · obtain ⟨t, job, htm, hjob, hkey, hevent⟩ := h.messages m hold
      obtain ⟨t', ht', hjob'⟩ := hjob.set htm ht c r (k r)
      exact ⟨t', job, ht', hjob', hkey, hevent⟩
    · exact ⟨_, job, getElem?_set_moved ht _, hjob.receive c r (k r), hkey, hevent⟩
  · rcases version_of_exec hstage hexec hu with hold | ⟨rfl, job, hjob, hid, huser⟩
    · obtain ⟨t, job, htu, hjob, hid, huser⟩ := h.written u hold
      obtain ⟨t', ht', hjob'⟩ := hjob.set htu ht c r (k r)
      exact ⟨t', job, ht', hjob', hid, huser⟩
    · exact ⟨_, job, getElem?_set_moved ht _, hjob.receive c r (k r), hid, huser⟩
  · rcases getElem?_set_eq_some hj with ⟨rfl, rfl⟩ | ⟨hne, hold⟩
    · exact (write_of_next hstage hexec hnext hjob).resolve_left hwrite
    · obtain ⟨row, hrow⟩ := h.flushed j t job hold hjob hnext hwrite
      exact ⟨row, version_kept hexec hrow hne⟩
  · obtain ⟨-, hlog, -⟩ := execOrder_log hexec
    rcases hlog _ hcommitted with hold | ⟨hmi, rfl⟩
    · -- it was committed before, and so was the message sent
      have hsent : m ∈ p.store.messages := by
        refine (message_of_exec hstage hexec hm).resolve_right fun hnew => ?_
        obtain ⟨t, hti, hended⟩ := h.senders.committed _ hold
        rw [hnew.1, ht] at hti
        obtain rfl := Option.some.inj hti
        exact absurd hended (by simp [Program.next?])
      obtain ⟨row, hrow, hid, huser⟩ := h.stored m hsent hold
      obtain ⟨row', hrow', halike⟩ := hkeep row hrow
      exact ⟨row', hrow', halike.id_eq.symm.trans hid, halike.userId_eq.symm.trans huser⟩
    · rw [execOrder_commit hexec] at hm hcommitted ⊢
      split at hm <;> rename_i hfault
      · rw [if_pos hfault] at hcommitted ⊢
        obtain ⟨row, hrow, hid, huser⟩ := h.stored m hm hcommitted
        exact ⟨row, hrow, hid, huser⟩
      · rw [if_neg hfault]
        obtain ⟨t, job, htm, hjob, -, hevent⟩ := h.messages m hm
        rw [hmi, ht] at htm
        obtain rfl := Option.some.inj htm
        rw [hevent]
        exact h.hasOrder hfit ht hjob rfl

lemma backed_init (hids : ∀ id, countRows rows id ≤ 1) :
    Backed platform rows asked (orderPool platform rows []) where
  kept := kept_init hids (by simp)
  senders := senders_init rows []
  messages m hm := absurd hm List.not_mem_nil
  written u hu := absurd hu List.not_mem_nil
  flushed i t job ht := absurd ht (by simp [orderPool, Pool.init])
  stored m hm := absurd hm List.not_mem_nil

/-- No request starts with its commit. -/
lemma next_serve (req : OrderRequest) : (serve platform req).next? ≠ some .commit := by
  cases req with
  | create request uuid =>
    show (createOrder platform request uuid).next? ≠ _
    unfold createOrder
    split
    · simp [Program.next?]
    · split <;> simp [publishOrderEvent, Program.next?]
  | cancel id => simp [serve, cancelOrder, Program.next?]
  | updateStatus id statusValue =>
    show (updateOrderStatus platform id statusValue).next? ≠ _
    unfold updateOrderStatus
    split <;> simp [Program.next?]

lemma Backed.arrive {p : OrderPool} (h : Backed platform rows asked p) {req : OrderRequest}
    (hreq : asked req) : Backed platform rows asked (p.arrive (serve platform) req) where
  kept := h.kept.arrive hreq
  senders := h.senders.arrive req
  messages m hm := by
    obtain ⟨t, job, ht, hrest⟩ := h.messages m hm
    exact ⟨t, job, Pool.getElem?_arrive ht, hrest⟩
  written u hu := by
    obtain ⟨t, job, ht, hrest⟩ := h.written u hu
    exact ⟨t, job, Pool.getElem?_arrive ht, hrest⟩
  flushed i t job ht hjob hnext hwrite := by
    rcases Pool.thread_of_arrive ht with ht | ⟨-, rfl⟩
    · exact h.flushed i t job ht hjob hnext hwrite
    · exact absurd hnext (next_serve req)
  stored := h.stored

end

end DevopsEcommerce.OrderService
