import DevopsEcommerce.OrderService.Locks

/-!
# Concurrent cancellations

The check of `cancelOrder` reads a row without locking it, and its UPDATE writes over
whatever has been committed in between. `cancellation_safe_when` says when cancellations
are safe all the same: they commit over `PENDING` if each UPDATE still finds the status
that its check saw, and cancel and announce an order at most once if no two of them read
it as `PENDING`. `cancelled_twice` is a run in which two do.
-/

open Interleaving Numbers

namespace DevopsEcommerce.OrderService

/-- The statement that a request is about to send. -/
def pendingWrite : OrderProgram → Option Write
  | .call (.flush write) _ => some write
  | _ => none

/-- If the label commits a cancellation, the order is committed as `PENDING` by then. -/
def CancelOverPending (p : OrderPool) (l : ℕ × Fault) : Prop :=
  ∀ t ∈ p.threads[l.1]?, ∀ id ∈ t.request.cancels, t.program.next? = some .commit →
    l.2 ≠ .before → statusOf p.store id = some .pending

/-- If the label executes the UPDATE of a cancellation, the order is still committed with
the status that its check saw. -/
def CancelFresh (p : OrderPool) (l : ℕ × Fault) : Prop :=
  ∀ t ∈ p.threads[l.1]?, ∀ id ∈ t.request.cancels, ∀ write ∈ pendingWrite t.program,
    accepted p.store l.1 write l.2 = true → statusOf p.store id = some .pending

/-- If the label executes a commit, the database does not refuse it. -/
def CommitAccepted (p : OrderPool) (l : ℕ × Fault) : Prop :=
  ∀ t ∈ p.threads[l.1]?, t.program.next? = some .commit → l.2 ≠ .before

instance (p : OrderPool) (l : ℕ × Fault) : Decidable (CancelOverPending p l) :=
  inferInstanceAs (Decidable (∀ t ∈ p.threads[l.1]?, ∀ id ∈ t.request.cancels, _ → _ → _))

instance (p : OrderPool) (l : ℕ × Fault) : Decidable (CancelFresh p l) :=
  inferInstanceAs (Decidable (∀ t ∈ p.threads[l.1]?, ∀ id ∈ t.request.cancels,
    ∀ write ∈ pendingWrite t.program, _ → _))

instance (p : OrderPool) (l : ℕ × Fault) : Decidable (CommitAccepted p l) :=
  inferInstanceAs (Decidable (∀ t ∈ p.threads[l.1]?, _ → _))

section
variable {platform : Platform}

/-! ## Committing over `PENDING` -/

/-- The invariant of the runs whose cancellations are fresh: the order of a cancellation
that is about to commit is committed as `PENDING`. -/
def ReadyPending (p : OrderPool) : Prop :=
  ∀ (i : ℕ) (t : OrderThread) (id : String), p.threads[i]? = some t → id ∈ t.request.cancels →
    t.program.next? = some .commit → statusOf p.store id = some .pending

lemma readyPending_step {p p' : OrderPool} {l : ℕ × Fault} (hstages : InStages platform p)
    (hlocks : Locks p) (h : ReadyPending p) (hfresh : CancelFresh p l)
    (hstep : orderStep p l = some p') : ReadyPending p' := by
  obtain ⟨i, fault⟩ := l
  obtain ⟨⟨req, trace, q⟩, c, k, store, r, ht, hk, hexec, rfl⟩ := Pool.step_eq_some.mp hstep
  have hstage := hstages _ (List.mem_of_getElem? ht)
  simp only at hk hstage hexec ht
  subst hk
  intro j t id hj hid hcommit
  simp only
  rcases getElem?_set_eq_some hj with ⟨rfl, rfl⟩ | ⟨hne, hj⟩
  · rcases uncommitted_cases hstage hexec with ⟨-, -, -, hnot⟩ |
      ⟨write, row, rfl, haccepted, -, -, rfl, -⟩ | ⟨-, -, hnext⟩
    · exact absurd hcommit (hnot id hid)
    · exact hfresh _ ht id hid write rfl haccepted
    · exact absurd (hnext.symm.trans hcommit) (by simp)
  · -- another transaction has its row locked
    obtain ⟨row, hrow, hrowId⟩ := hlocks.cancels j t id hj hid hcommit
    have hstatus := statusOf_execOrder hlocks hexec hrow (Ne.symm hne)
    rw [hrowId] at hstatus
    rw [hstatus]
    exact h j t id hj hid hcommit

/-! ## Committing over something else -/

/-- A cancellation is about to commit over a row that is not `PENDING`. -/
def ReadyOtherwise (p : OrderPool) : Prop :=
  ∃ (i : ℕ) (t : OrderThread) (id : String) (row : Order), p.threads[i]? = some t ∧
    id ∈ t.request.cancels ∧ t.program.next? = some .commit ∧
    (i, row) ∈ p.store.uncommitted ∧ row.id = id ∧ statusOf p.store id ≠ some .pending

/-- It stays about to, until it does. -/
lemma readyOtherwise_step {p p' : OrderPool} {l : ℕ × Fault} (hstages : InStages platform p)
    (hlocks : Locks p) (h : ReadyOtherwise p) (haccepted : CommitAccepted p l)
    (hpending : CancelOverPending p l) (hstep : orderStep p l = some p') :
    ReadyOtherwise p' := by
  obtain ⟨i, fault⟩ := l
  obtain ⟨⟨req, trace, q⟩, c, k, store, r, ht, hk, hexec, rfl⟩ := Pool.step_eq_some.mp hstep
  have hstage := hstages _ (List.mem_of_getElem? ht)
  simp only at hk hstage hexec ht
  subst hk
  obtain ⟨j, t, id, row, hj, hid, hcommit, hrow, hrowId, hstatus⟩ := h
  by_cases hij : i = j
  · -- its commit would be over a row that is not `PENDING`
    subst hij
    exact absurd (hpending t hj id hid hcommit (haccepted t hj hcommit)) hstatus
  · -- the row is locked, so that its status stays
    have hsame := statusOf_execOrder hlocks hexec hrow hij
    rw [hrowId] at hsame
    refine ⟨j, t, id, row, ?_, hid, hcommit, ?_, hrowId, ?_⟩
    · rw [List.getElem?_set_ne hij]
      exact hj
    · rcases uncommitted_cases hstage hexec with ⟨-, -, hkeep, -⟩ |
        ⟨write, own, -, -, -, -, rfl, -⟩ | ⟨-, hfilter, -⟩
      · simp only [hkeep]
        exact hrow
      · exact List.mem_cons_of_mem _ hrow
      · simp only [hfilter]
        exact List.mem_filter.mpr ⟨hrow, by simpa using Ne.symm hij⟩
    · simp only
      rw [hsame]
      exact hstatus

/-- An UPDATE that finds another status leads there. -/
lemma readyOtherwise_of_not_fresh {p p' : OrderPool} {l : ℕ × Fault}
    (hstages : InStages platform p) (hfresh : ¬ CancelFresh p l)
    (hstep : orderStep p l = some p') : ReadyOtherwise p' := by
  obtain ⟨i, fault⟩ := l
  obtain ⟨⟨req, trace, q⟩, c, k, store, r, ht, hk, hexec, rfl⟩ := Pool.step_eq_some.mp hstep
  have hstage := hstages _ (List.mem_of_getElem? ht)
  simp only at hk hstage hexec ht
  subst hk
  simp only [CancelFresh, not_forall] at hfresh
  obtain ⟨t, hti, id, hid, write, hwrite, haccepted, hstatus⟩ := hfresh
  obtain rfl := Option.some.inj (ht.symm.trans hti)
  have hc : c = .flush write := by
    cases c with
    | flush write' =>
      obtain rfl := Option.some.inj hwrite
      rfl
    | _ => exact absurd hwrite (by simp [pendingWrite])
  rcases uncommitted_cases hstage hexec with ⟨-, hrefused, -, -⟩ |
    ⟨write, row, -, -, -, hrowId, rfl, hnext⟩ | ⟨hcommit, -, -⟩
  · exact absurd ((hrefused write hc).symm.trans haccepted) (by simp)
  · exact ⟨i, _, id, row, getElem?_set_moved ht _, hid, hnext, List.mem_cons_self,
      hrowId.trans (orderId_of_cancels hid), hstatus⟩
  · exact absurd (hcommit.symm.trans hc) (by simp)

/-- In a finished run without refused commits, cancellations that commit over `PENDING`
have been fresh. -/
lemma fresh_of_overPending {p q : OrderPool} {es : List (ℕ × Fault)}
    (hstages : InStages platform p) (hlocks : Locks p)
    (haccepted : StepsMeet orderStep CommitAccepted p es)
    (hpending : StepsMeet orderStep CancelOverPending p es)
    (hrun : run orderStep p es = some q) (hfin : q.Finished) :
    StepsMeet orderStep CancelFresh p es := by
  induction es generalizing p with
  | nil => trivial
  | cons e es ih =>
    obtain ⟨p', hp', hrest⟩ := run_cons_eq_some.mp hrun
    have hstages' := inStages_preserved p e p' hstages hp'
    have hlocks' := locks_preserved hstages hlocks hp'
    refine ⟨?_, fun s' hs' => ?_⟩
    · -- who has not been fresh would still be about to commit at the end
      by_contra hfresh
      have hready' := readyOtherwise_of_not_fresh hstages hfresh hp'
      have hready : InStages platform q ∧ Locks q ∧ ReadyOtherwise q := by
        refine run_invariant_of_stepsMeet
          (P := fun p => InStages platform p ∧ Locks p ∧ ReadyOtherwise p) ?_
          ⟨hstages', hlocks', hready'⟩ ((haccepted.2 p' hp').and (hpending.2 p' hp')) hrest
        intro s e s' h hC hs'
        have hnext := readyOtherwise_step h.1 h.2.1 h.2.2 hC.1 hC.2 hs'
        exact ⟨inStages_preserved s e s' h.1 hs', locks_preserved h.1 h.2.1 hs', hnext⟩
      obtain ⟨-, -, i, t, id, row, ht, -, hcommit, -⟩ := hready
      have hdone := hfin t (List.mem_of_getElem? ht)
      cases hprogram : t.program with
      | done a => exact absurd hcommit (by simp [hprogram, Program.next?])
      | call c k => exact absurd hdone (by simp [hprogram, Program.answer?])
    · obtain rfl : p' = s' := Option.some.inj (hp'.symm.trans hs')
      exact ih hstages' hlocks' (haccepted.2 p' hp') (hpending.2 p' hp') hrest

/-! ## At most once -/

/-- The request has read its order as `PENDING`. -/
def foundPending (trace : List (Σ c, OrderReply c)) : Bool :=
  trace.any fun
    | ⟨.findById _, .ok (some order)⟩ => order.status = .pending
    | _ => false

/-- The request cancels the order, having read it as `PENDING`. -/
def cancelling (id : String) (t : OrderThread) : Bool :=
  t.request.cancels = some id && foundPending t.trace

def isSending : OrderProgram → Bool
  | .call (.convertAndSend _ _) _ => true
  | _ => false

/-- The request is about to announce the cancellation. -/
def announcing (id : String) (t : OrderThread) : Bool :=
  t.request.cancels = some id && isSending t.program

/-- The request has cancelled the order. -/
def cancelledOk (id : String) (t : OrderThread) : Bool :=
  t.request.cancels = some id && t.program.answer?.any fun answer => answer.status = 200

/-- Every order has been cancelled and announced as such at most once. -/
def CancelledOnce (p : OrderPool) : Prop :=
  ∀ id, p.threads.countP (cancelledOk id) ≤ 1 ∧ eventCount p.store id routingKeyCancelled ≤ 1

/-- If the label executes the check of a cancellation and it is going to pass, no other
cancellation of the order has passed its own. -/
def ReadOnce (p : OrderPool) (l : ℕ × Fault) : Prop :=
  l.2 = .none → ∀ t ∈ p.threads[l.1]?, ∀ id ∈ t.request.cancels,
    t.program.next? = some (.findById id) → statusOf p.store id = some .pending →
      ∀ u ∈ p.threads, cancelling id u = false

instance (p : OrderPool) (l : ℕ × Fault) : Decidable (ReadOnce p l) :=
  inferInstanceAs (Decidable (_ → ∀ t ∈ p.threads[l.1]?, ∀ id ∈ t.request.cancels, _ → _ →
    ∀ u ∈ p.threads, cancelling id u = false))

def OrderRequest.isUpdate : OrderRequest → Bool
  | .updateStatus _ _ => true
  | _ => false

/-- The invariant of the runs without updates whose checks pass once: each order has one
cancellation past its check, which has announced it or is still going to. -/
structure ChecksOnce (p : OrderPool) : Prop where
  noUpdates : ∀ t ∈ p.threads, t.request.isUpdate = false
  once : ∀ id, p.threads.countP (cancelling id) ≤ 1
  announced : ∀ id, eventCount p.store id routingKeyCancelled + p.threads.countP (announcing id) ≤
    p.threads.countP (cancelling id)

lemma foundPending_cons (e : Σ c, OrderReply c) (trace : List (Σ c, OrderReply c)) :
    foundPending (e :: trace) = (foundPending [e] || foundPending trace) := by
  simp [foundPending]

lemma foundPending_of_suffix {trace trace' : List (Σ c, OrderReply c)} (h : trace <:+ trace')
    (hfound : foundPending trace = true) : foundPending trace' = true := by
  obtain ⟨later, rfl⟩ := h
  unfold foundPending at hfound ⊢
  rw [List.any_append, hfound, Bool.or_true]

/-- The job of a cancellation starts from an order found `PENDING`. -/
lemma JobOf.foundPending {req : OrderRequest} {found : Option Order} {job : Job} {id : String}
    (h : JobOf platform req found job) (hid : id ∈ req.cancels) :
    foundPending (foundTrace req found) = true := by
  cases h with
  | cancel hid' hpending => simp [foundTrace, OrderService.foundPending, hpending]
  | _ => exact absurd hid (by simp [OrderRequest.cancels])

/-- Only a cancellation announces one, and only for its own order. -/
lemma JobOf.event {req : OrderRequest} {found : Option Order} {job : Job} {routingKey : String}
    (h : JobOf platform req found job) (hreq : req.isUpdate = false)
    (hkey : job.routingKey = some routingKey) :
    routingKey ≠ routingKeyCancelled ∨ req.cancels = some (orderEvent job.saved).orderId := by
  cases h with
  | create found hnew hrequired =>
    obtain rfl := Option.some.inj hkey
    exact .inl (by decide)
  | cancel hid hpending =>
    subst hid
    exact .inr rfl
  | update hid hparse => exact absurd hreq (by simp [OrderRequest.isUpdate])

/-- A command other than a send leaves the events as they are. -/
lemma messages_execOrder {store store' : OrderStore} {i : ℕ} {c : OrderCommand} {fault : Fault}
    {r : OrderReply c} (h : execOrder store i c fault = some (store', r))
    (hsend : ∀ routingKey event, c ≠ .convertAndSend routingKey event) :
    store'.messages = store.messages := by
  cases c with
  | findById id =>
    obtain ⟨rfl, -⟩ := Prod.mk.inj (Option.some.inj h)
    rfl
  | convertAndSend routingKey event => exact absurd rfl (hsend routingKey event)
  | flush write => rcases execOrder_flush h with ⟨-, rfl, -⟩ | ⟨-, -, row, -, rfl, -⟩ <;> rfl
  | commit =>
    rw [execOrder_commit h]
    split <;> rfl

lemma eventCount_execOrder {store store' : OrderStore} {i : ℕ} {c : OrderCommand}
    {fault : Fault} {r : OrderReply c} (h : execOrder store i c fault = some (store', r))
    (hsend : ∀ routingKey event, c ≠ .convertAndSend routingKey event) (id routingKey : String) :
    eventCount store' id routingKey = eventCount store id routingKey := by
  unfold eventCount
  rw [messages_execOrder h hsend]

/-- A send adds at most its event. -/
lemma eventCount_send {store store' : OrderStore} {i : ℕ} {routingKey : String}
    {event : OrderEvent} {fault : Fault} {r : Except ExternalError Unit}
    (h : execOrder store i (.convertAndSend routingKey event) fault = some (store', r))
    (id key : String) :
    eventCount store' id key ≤ eventCount store id key +
      if event.orderId = id ∧ routingKey = key then 1 else 0 := by
  obtain ⟨rfl, -⟩ := Prod.mk.inj (Option.some.inj h)
  unfold eventCount
  by_cases hfault : fault = .before
  · rw [if_pos hfault]
    exact Nat.le_add_right _ _
  · rw [if_neg hfault, List.filter_cons]
    by_cases hmatch : event.orderId = id ∧ routingKey = key
    · simp [hmatch]
    · have hskip : (decide (event.orderId = id) && decide (routingKey = key)) = false := by
        simpa using hmatch
      simp only [hskip]
      simp [hmatch]

/-- What a command of a cancellation does: it passes the check, it sends the announcement
that the check allowed, or neither. -/
lemma cancellation_cases {req : OrderRequest} {trace : List (Σ c, OrderReply c)}
    {c : OrderCommand} {k : OrderReply c → OrderProgram} {r : OrderReply c}
    {store store' : OrderStore} {i : ℕ} {fault : Fault} {id : String}
    (h : OrderStage platform req trace (.call c k)) (hid : id ∈ req.cancels)
    (hexec : execOrder store i c fault = some (store', r)) :
    (c = .findById id ∧ fault = .none ∧ statusOf store id = some .pending ∧
      foundPending (⟨c, r⟩ :: trace) = true) ∨
    (isSending (.call c k) = true ∧ foundPending trace = true ∧ isSending (k r) = false) ∨
    (isSending (.call c k) = false ∧ isSending (k r) = false ∧
      foundPending (⟨c, r⟩ :: trace) = foundPending trace) := by
  cases h with
  | finding h =>
    cases h with
    | update hparse => exact absurd hid (by simp [OrderRequest.cancels])
    | cancel id' =>
      obtain rfl := Option.some.inj hid
      have hr := (Prod.mk.inj (Option.some.inj hexec)).2
      rcases r with e | _ | order
      · exact .inr (.inr ⟨rfl, rfl, rfl⟩)
      · exact .inr (.inr ⟨rfl, rfl, rfl⟩)
      · by_cases hpending : order.status = .pending
        · -- only the check of a `PENDING` order passes
          split at hr
          · rename_i hfault
            have hfound : findRow store.rows _ = some order := Except.ok.inj hr
            exact .inl ⟨rfl, hfault, by simp [statusOf, hfound, hpending],
              by simp [foundPending, hpending]⟩
          · exact absurd hr (by simp)
        · refine .inr (.inr ⟨rfl, ?_, by simp [foundPending, hpending]⟩)
          unfold cancelFound
          simp only
          rw [if_pos hpending]
          rfl
  | sending hjob hkey =>
    -- the job of a cancellation is built from an order that was `PENDING`
    have hfound := hjob.foundPending hid
    refine .inr (.inl ⟨rfl, hfound, ?_⟩)
    cases hjob with
    | cancel hid hpending => rfl
    | _ => exact absurd hid (by simp [OrderRequest.cancels])
  | flushing hjob htrace hwrite =>
    refine .inr (.inr ⟨rfl, ?_, ?_⟩)
    · rcases r with e | _ <;> rfl
    · rw [foundPending_cons]
      rfl
  | committing hjob htrace =>
    refine .inr (.inr ⟨rfl, ?_, ?_⟩)
    · rcases r with e | _ <;> rfl
    · rw [foundPending_cons]
      rfl

/-- A step of another kind of request does not announce the cancellation of the order. -/
lemma eventCount_of_not_cancels {req : OrderRequest} {trace : List (Σ c, OrderReply c)}
    {c : OrderCommand} {k : OrderReply c → OrderProgram} {r : OrderReply c}
    {store store' : OrderStore} {i : ℕ} {fault : Fault} {id : String}
    (h : OrderStage platform req trace (.call c k)) (hreq : req.isUpdate = false)
    (hid : id ∉ req.cancels) (hexec : execOrder store i c fault = some (store', r)) :
    eventCount store' id routingKeyCancelled ≤ eventCount store id routingKeyCancelled := by
  cases h with
  | sending hjob hkey =>
    have hsend := eventCount_send hexec id routingKeyCancelled
    rw [if_neg] at hsend
    · exact hsend
    · rintro ⟨rfl, rfl⟩
      rcases hjob.event hreq hkey with hne | hcancels
      · exact hne rfl
      · exact hid hcancels
  | _ => exact (eventCount_execOrder hexec (by simp) id routingKeyCancelled).le

/-- The counts of one order after a step, from those before. -/
lemma counts_step {p p' : OrderPool} {l : ℕ × Fault} (hstages : InStages platform p)
    (h : ChecksOnce p) (honce : ReadOnce p l) (hstep : orderStep p l = some p') (id : String) :
    p'.threads.countP (cancelling id) ≤ 1 ∧
      eventCount p'.store id routingKeyCancelled + p'.threads.countP (announcing id) ≤
        p'.threads.countP (cancelling id) := by
  obtain ⟨i, fault⟩ := l
  obtain ⟨⟨req, trace, q⟩, c, k, store, r, ht, hk, hexec, rfl⟩ := Pool.step_eq_some.mp hstep
  have hstage := hstages _ (List.mem_of_getElem? ht)
  have hreq := h.noUpdates _ (List.mem_of_getElem? ht)
  simp only at hk hstage hexec ht hreq
  subst hk
  have hchecks := countP_set ht (cancelling id) (Thread.receive ⟨req, trace, .call c k⟩ c r (k r))
  have hannounces :=
    countP_set ht (announcing id) (Thread.receive ⟨req, trace, .call c k⟩ c r (k r))
  have hone := h.once id
  have hannounced := h.announced id
  simp only
  by_cases hid : req.cancels = some id
  · simp only [cancelling, announcing, Thread.receive, hid, decide_true, Bool.true_and]
      at hchecks hannounces
    rcases cancellation_cases hstage hid hexec with ⟨rfl, hfault, hstatus, hfound⟩ |
      ⟨hsending, hfound, hsent⟩ | ⟨hsending, hsent, hfound⟩
    · -- the check passes, and no other one has passed before
      have hzero : p.threads.countP (cancelling id) = 0 := by
        rw [List.countP_eq_zero]
        intro u hu
        simp [honce hfault _ ht id hid rfl hstatus u hu]
      have hbefore : foundPending trace = false := by
        simpa [cancelling, hid] using
          honce hfault _ ht id hid rfl hstatus _ (List.mem_of_getElem? ht)
      have hsame := eventCount_execOrder hexec (by simp) id routingKeyCancelled
      rw [hfound, hbefore, if_pos rfl, if_neg (by simp)] at hchecks
      have hle : (if isSending (k r) = true then 1 else 0) ≤ 1 := by split <;> omega
      simp only [Thread.receive] at hchecks hannounces ⊢
      omega
    · -- the announcement is sent
      have hevent : eventCount store id routingKeyCancelled ≤
          eventCount p.store id routingKeyCancelled + 1 := by
        cases c with
        | convertAndSend routingKey event =>
          refine (eventCount_send hexec id routingKeyCancelled).trans ?_
          split <;> omega
        | _ => exact absurd hsending (by simp [isSending])
      have hfound' : foundPending (⟨c, r⟩ :: trace) = true :=
        foundPending_of_suffix (List.suffix_cons _ _) hfound
      rw [hfound, hfound'] at hchecks
      rw [hsending, hsent, if_pos rfl, if_neg (by simp)] at hannounces
      simp only [Thread.receive] at hchecks hannounces ⊢
      omega
    · -- neither: only the command itself has to be no send
      have hsame := eventCount_execOrder hexec (by
        rintro routingKey event rfl
        exact absurd hsending (by simp [isSending])) id routingKeyCancelled
      rw [hfound] at hchecks
      rw [hsending, hsent] at hannounces
      simp only [Thread.receive] at hchecks hannounces ⊢
      omega
  · -- the request is no cancellation of this order
    have hevent := eventCount_of_not_cancels hstage hreq hid hexec
    simp only [cancelling, announcing, Thread.receive, hid, decide_false, Bool.false_and]
      at hchecks hannounces
    simp only [Thread.receive] at hchecks hannounces ⊢
    omega

lemma noUpdates_preserved :
    Preserved orderStep fun p : OrderPool => ∀ t ∈ p.threads, t.request.isUpdate = false :=
  Pool.forall_threads_preserved fun t c k r _ _ _ (hreq : t.request.isUpdate = false) _ _ =>
    (hreq : (t.receive c r (k r)).request.isUpdate = false)

lemma checksOnce_step {p p' : OrderPool} {l : ℕ × Fault} (hstages : InStages platform p)
    (h : ChecksOnce p) (honce : ReadOnce p l) (hstep : orderStep p l = some p') :
    ChecksOnce p' where
  noUpdates := noUpdates_preserved p l p' h.noUpdates hstep
  once id := (counts_step hstages h honce hstep id).1
  announced id := (counts_step hstages h honce hstep id).2

lemma checksOnce_init {rows : List Order} {requests : List OrderRequest}
    (hreqs : ∀ req ∈ requests, req.isUpdate = false) :
    ChecksOnce (orderPool platform rows requests) := by
  have hnone : ∀ f : String → OrderThread → Bool,
      (∀ id req, f id ⟨req, [], serve platform req⟩ = false) →
        ∀ id, (orderPool platform rows requests).threads.countP (f id) = 0 := by
    intro f hf id
    rw [List.countP_eq_zero]
    intro t ht
    obtain ⟨req, -, rfl⟩ := List.mem_map.mp ht
    simp [hf id req]
  have hchecks : ∀ id, (orderPool platform rows requests).threads.countP (cancelling id) = 0 :=
    hnone cancelling fun id req => by simp [cancelling, foundPending]
  have hannounces : ∀ id,
      (orderPool platform rows requests).threads.countP (announcing id) = 0 := by
    refine hnone announcing fun id req => ?_
    cases req with
    | cancel id' => simp [announcing, serve, cancelOrder, isSending]
    | _ => simp [announcing, OrderRequest.cancels]
  refine ⟨?_, fun id => ?_, fun id => ?_⟩
  · intro t ht
    obtain ⟨req, hreq, rfl⟩ := List.mem_map.mp ht
    exact hreqs req hreq
  · rw [hchecks]
    exact Nat.zero_le _
  · rw [hchecks, hannounces]
    rfl

/-- A cancellation that has answered 200 has passed its check. -/
lemma cancelling_of_cancelledOk {t : OrderThread} {id : String}
    (hstage : OrderStage platform t.request t.trace t.program) (h : cancelledOk id t = true) :
    cancelling id t = true := by
  obtain ⟨req, trace, q⟩ := t
  simp only [cancelledOk, Bool.and_eq_true, decide_eq_true_eq] at h
  obtain ⟨hid, hok⟩ := h
  simp only at hstage
  have hfound : foundPending trace = true := by
    cases hstage with
    | ended hjob htrace => exact foundPending_of_suffix htrace (hjob.foundPending hid)
    | refused hstatus =>
      simp only [Program.answer?, Option.any_some, decide_eq_true_eq] at hok
      omega
    | _ => exact absurd hok (by simp [Program.answer?, publishOrderEvent, flushThen, commitThen])
  simp [cancelling, hid, hfound]

lemma cancelledOnce_of_checksOnce {p : OrderPool} (hstages : InStages platform p)
    (h : ChecksOnce p) : CancelledOnce p := by
  intro id
  have hone := h.once id
  have hannounced := h.announced id
  have hle : p.threads.countP (cancelledOk id) ≤ p.threads.countP (cancelling id) :=
    List.countP_mono_left fun t ht hok => cancelling_of_cancelledOk (hstages t ht) hok
  exact ⟨hle.trans hone, by omega⟩

end

/-! ## Runs -/

/-- **Safe cancellations.** In every interleaving of order transactions, cancellations
commit over `PENDING` rows if each of their UPDATEs finds the row as the check saw it, and,
once all requests have been answered and no commit was refused, only if they do. Without
status updates, no order is cancelled or announced as cancelled twice if no two
cancellations of it pass their check. -/
theorem cancellation_safe_when (platform : Platform) (rows : List Order)
    (requests : List OrderRequest) (es : List (ℕ × Fault)) (p : OrderPool)
    (hrun : run orderStep (orderPool platform rows requests) es = some p) :
    (StepsMeet orderStep CancelFresh (orderPool platform rows requests) es →
      StepsMeet orderStep CancelOverPending (orderPool platform rows requests) es) ∧
    (p.Finished → StepsMeet orderStep CommitAccepted (orderPool platform rows requests) es →
      StepsMeet orderStep CancelOverPending (orderPool platform rows requests) es →
        StepsMeet orderStep CancelFresh (orderPool platform rows requests) es) ∧
    ((∀ req ∈ requests, req.isUpdate = false) →
      StepsMeet orderStep ReadOnce (orderPool platform rows requests) es →
        Throughout orderStep CancelledOnce (orderPool platform rows requests) es) := by
  have hstages₀ : InStages platform (orderPool platform rows requests) :=
    inStages_init rows requests
  have hlocks₀ : Locks (orderPool platform rows requests) := locks_init rows requests
  refine ⟨fun hfresh => ?_, fun hfin haccepted hpending => ?_, fun hreqs honce => ?_⟩
  · -- nobody is about to commit in the beginning
    have hready₀ : ReadyPending (orderPool platform rows requests) := by
      intro i t id ht hid hcommit
      obtain ⟨row, hrow, -⟩ := hlocks₀.cancels i t id ht hid hcommit
      exact absurd hrow (by simp [orderPool, Pool.init, OrderStore.initial])
    refine stepsMeet_of_invariant
      (I := fun p => InStages platform p ∧ Locks p ∧ ReadyPending p) ?_ ?_
      ⟨hstages₀, hlocks₀, hready₀⟩ hfresh
    · intro s e s' h hC hstep
      have hready := readyPending_step h.1 h.2.1 h.2.2 hC hstep
      exact ⟨inStages_preserved s e s' h.1 hstep, locks_preserved h.1 h.2.1 hstep, hready⟩
    · intro s e h _ t ht id hid hcommit _
      exact h.2.2 e.1 t id ht hid hcommit
  · exact fresh_of_overPending hstages₀ hlocks₀ haccepted hpending hrun hfin
  · have hthroughout : Throughout orderStep (fun p => InStages platform p ∧ ChecksOnce p)
        (orderPool platform rows requests) es := by
      refine throughout_of_stepsMeet ?_ ⟨hstages₀, checksOnce_init hreqs⟩ honce
      intro s e s' h hC hstep
      exact ⟨inStages_preserved s e s' h.1 hstep, checksOnce_step h.1 h.2 hC hstep⟩
    exact hthroughout.mono fun p h => cancelledOnce_of_checksOnce h.1 h.2

/-- A `PENDING` order as its row. -/
def pendingRow : Order where
  id := "o1"
  userId := some "u1"
  productId := some "p1"
  quantity := 1
  totalPrice := some ⟨250, 2⟩
  shippingAddress := none
  email := none
  status := .pending
  items := []

/-- A second cancellation after the first one has committed answers 409. -/
theorem cancellation_safe_when_serial :
    StepsMeet orderStep CancelOverPending
        (orderPool ⟨true, id⟩ [pendingRow] [.cancel "o1", .cancel "o1"])
        [(0, .none), (0, .none), (0, .none), (0, .none), (1, .none)] ∧
      Throughout orderStep CancelledOnce
        (orderPool ⟨true, id⟩ [pendingRow] [.cancel "o1", .cancel "o1"])
        [(0, .none), (0, .none), (0, .none), (0, .none), (1, .none)] := by
  have h := cancellation_safe_when ⟨true, id⟩ [pendingRow] [.cancel "o1", .cancel "o1"]
    [(0, .none), (0, .none), (0, .none), (0, .none), (1, .none)] _ (run_final (by decide))
  exact ⟨h.1 (by decide), h.2.2 (by decide) (by decide)⟩

/-- **An order cancelled twice.** Both requests find the order `PENDING`, both publish the
event, and the second UPDATE waits for the first commit and writes over it. -/
theorem cancelled_twice :
    ¬ ∀ (platform : Platform) (rows : List Order) (requests : List OrderRequest)
        (es : List (ℕ × Fault)) (p : OrderPool),
      run orderStep (orderPool platform rows requests) es = some p →
      StepsMeet orderStep CancelOverPending (orderPool platform rows requests) es ∧
        ((∀ req ∈ requests, req.isUpdate = false) → CancelledOnce p) := by
  intro h
  have hsafe := h ⟨true, id⟩ [pendingRow] [.cancel "o1", .cancel "o1"]
    [(0, .none), (1, .none), (0, .none), (1, .none), (0, .none), (0, .none), (1, .none),
      (1, .none)] _ (run_final (by decide))
  exact absurd (hsafe.2 (by decide) "o1").1 (by decide)

end DevopsEcommerce.OrderService
