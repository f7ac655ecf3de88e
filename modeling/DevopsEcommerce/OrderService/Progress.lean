import DevopsEcommerce.Interleaving.Termination
import DevopsEcommerce.OrderService.Locks

/-!
# Every request is answered

An UPDATE or INSERT waits while another transaction has its row locked. A transaction locks its row
with its last statement and has only the commit left, so that whoever is waited for can go on.
Hence the transactions never wait for each other for ever, and all requests come to an answer
(`requests_answered`).
-/

open Interleaving

namespace DevopsEcommerce.OrderService

/-! ## How long a request takes -/

lemma endsWithin_flushThen (write : Option Write) (answer : Response) :
    (flushThen write answer).EndsWithin 2 := by
  have hcommit : (commitThen answer).EndsWithin 1 := by
    refine .call fun r => ?_
    cases r with
    | ok u => exact .done 0 _
    | error e => exact .done 0 _
  cases write with
  | none => exact hcommit.succ
  | some write =>
    refine .call fun r => ?_
    cases r with
    | ok u => exact hcommit
    | error e => exact .done 1 _

lemma endsWithin_publishOrderEvent {n : ℕ} {rest : OrderProgram} (h : rest.EndsWithin n)
    (order : Order) (routingKey : String) :
    (publishOrderEvent order routingKey rest).EndsWithin (n + 1) :=
  .call fun _ => h

lemma endsWithin_cancelFound (found : Except ExternalError (Option Order)) :
    (cancelFound found).EndsWithin 3 := by
  unfold cancelFound
  split
  · exact .done 3 _
  · exact .done 3 _
  · split
    · exact .done 3 _
    · exact endsWithin_publishOrderEvent (endsWithin_flushThen _ _) _ _

lemma endsWithin_updateFound (status : OrderStatus)
    (found : Except ExternalError (Option Order)) : (updateFound status found).EndsWithin 3 := by
  unfold updateFound
  split
  · exact .done 3 _
  · exact .done 3 _
  · rename_i order
    have hrest := endsWithin_flushThen (statusUpdate order status)
      ⟨200, some (order.withStatus status)⟩
    simp only
    split
    · exact endsWithin_publishOrderEvent hrest _ _
    · exact hrest.succ

/-- A lookup, an event, a flush and a commit. -/
lemma endsWithin_serve (platform : Platform) (req : OrderRequest) :
    (serve platform req).EndsWithin 4 := by
  cases req with
  | create request uuid =>
    show (createOrder platform request uuid).EndsWithin 4
    unfold createOrder
    split
    · exact .done 4 _
    · split
      · exact .done 4 _
      · exact (endsWithin_publishOrderEvent (endsWithin_flushThen _ _) _ _).succ
  | cancel id => exact .call fun found => endsWithin_cancelFound found
  | updateStatus id statusValue =>
    show (updateOrderStatus platform id statusValue).EndsWithin 4
    unfold updateOrderStatus
    split
    · exact .done 4 _
    · exact .call fun found => endsWithin_updateFound _ found

/-! ## Progress -/

/-- All requests have been answered, and no row is locked any more. -/
def Settled (p : OrderPool) : Prop := p.Finished ∧ p.store.uncommitted = []

/-- The next command of a thread, answered without a fault. -/
def goOn (p : OrderPool) (i : ℕ) : Option OrderPool := orderStep p (i, .none)

section
variable {p : OrderPool} {i : ℕ} {t : OrderThread} {c : OrderCommand}

lemma exists_goOn (ht : p.threads[i]? = some t) (hc : t.program.next? = some c)
    (hexec : (execOrder p.store i c .none).isSome = true) : ∃ p', goOn p i = some p' := by
  cases hk : t.program with
  | done answer =>
    rw [hk] at hc
    cases hc
  | call c' k =>
    rw [hk] at hc
    obtain rfl := Option.some.inj hc
    obtain ⟨⟨store, r⟩, hr⟩ := Option.isSome_iff_exists.mp hexec
    exact ⟨_, Pool.step_eq_some.mpr ⟨t, c', k, store, r, ht, hk, hr, rfl⟩⟩

/-- Without locks no command waits. -/
lemma isSome_execOrder {store : OrderStore} (hfree : store.uncommitted = []) (i : ℕ)
    (c : OrderCommand) : (execOrder store i c .none).isSome = true := by
  cases c with
  | flush write =>
    have hunlocked : locked store i write.order.id = false := by
      unfold locked
      rw [hfree]
      rfl
    simp only [execOrder, hunlocked]
    cases write.row store.rows <;> rfl
  | _ => rfl

/-- Who has a row locked can commit; and if nobody has, everyone can go on. -/
lemma settled_or_goOn (hlocks : Locks p) : Settled p ∨ ∃ i p', goOn p i = some p' := by
  cases hfree : p.store.uncommitted with
  | cons u rest =>
    obtain ⟨t, ht, hcommit⟩ := hlocks.owners u (hfree ▸ List.mem_cons_self)
    exact .inr ⟨u.1, exists_goOn ht hcommit rfl⟩
  | nil =>
    by_cases hfinished : p.Finished
    · exact .inl ⟨hfinished, hfree⟩
    · unfold Pool.Finished at hfinished
      simp only [not_forall] at hfinished
      obtain ⟨t, hmem, hopen⟩ := hfinished
      obtain ⟨i, ht⟩ := List.mem_iff_getElem?.mp hmem
      cases hk : t.program with
      | done answer => exact absurd (by rw [hk]; rfl) hopen
      | call c k =>
        have hnext : t.program.next? = some c := by
          rw [hk]
          rfl
        exact .inr ⟨i, exists_goOn ht hnext (isSome_execOrder hfree i c)⟩

end

/-! ## Runs -/

/-- **No deadlocks.** However the commands of the requests interleave and whatever fails, no run
executes more than four of them for each request, and wherever a run has come, it is inevitable that
all requests are answered and that no row stays locked. That is also so if nothing fails any more,
so that no request needs a failure of another one to go on. -/
theorem requests_answered (platform : Platform) (rows : List Order) (requests : List OrderRequest)
    (es : List (ℕ × Fault)) (p : OrderPool)
    (hrun : run orderStep (orderPool platform rows requests) es = some p) :
    es.length ≤ 4 * requests.length ∧ Inevitable orderStep Settled p ∧
      Inevitable goOn Settled p := by
  have hstart : (orderPool platform rows requests).EndsWithin (4 * requests.length) :=
    Pool.endsWithin_init (endsWithin_serve platform) (OrderStore.initial rows) requests
  obtain ⟨m, hlength, hends⟩ := Pool.endsWithin_run hstart hrun
  have hpreserved : Preserved orderStep fun p => InStages platform p ∧ Locks p :=
    fun p l p' h hstep =>
      ⟨inStages_preserved p l p' h.1 hstep, locks_preserved h.1 h.2 hstep⟩
  have hinv : InStages platform p ∧ Locks p :=
    run_invariant hpreserved ⟨inStages_init rows requests, locks_init rows requests⟩ hrun
  refine ⟨hlength ▸ Nat.le_add_right _ _, ?_, ?_⟩
  · refine Pool.inevitable_of_progress (fun p l p' hstep => ⟨l, hstep⟩) hpreserved
      (fun p h => ?_) hinv hends
    exact (settled_or_goOn h.2).imp_right fun ⟨i, p', hstep⟩ => ⟨(i, .none), p', hstep⟩
  · have hpool : ∀ p i p', goOn p i = some p' → ∃ l, orderStep p l = some p' :=
      fun p i p' hstep => ⟨(i, .none), hstep⟩
    exact Pool.inevitable_of_progress hpool (fun p i p' => hpreserved p (i, .none) p')
      (fun p h => settled_or_goOn h.2) hinv hends

/-- Two cancellations of one order. -/
def twoCancellations : OrderPool :=
  orderPool ⟨true, id⟩ (newOrder (sampleRequest ⟨250, 2⟩) "o1").toList
    [.cancel "o1", .cancel "o1"]

/-- Both have read and published, and the first one has flushed. -/
def firstFlushes : List (ℕ × Fault) := [(0, .none), (1, .none), (0, .none), (1, .none), (0, .none)]

lemma isSome_firstFlushes : (run orderStep twoCancellations firstFlushes).isSome = true := by
  decide

/-- The second one waits for the lock of the first one, and yet both are going to be answered. -/
theorem requests_answered_waiting :
    (goOn (final _ _ _ isSome_firstFlushes) 1).isNone = true ∧
      Inevitable goOn Settled (final _ _ _ isSome_firstFlushes) := by
  have hrun := run_final isSome_firstFlushes
  exact ⟨by decide, (requests_answered _ _ _ _ _ hrun).2.2⟩

end DevopsEcommerce.OrderService
