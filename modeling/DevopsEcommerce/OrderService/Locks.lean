import DevopsEcommerce.OrderService.Jobs
import Mathlib.Data.List.Nodup

/-!
# Row locks

What the commands of concurrent transactions do to the uncommitted row versions and to the
committed status of an order. A transaction that has flushed keeps its row locked until it
ends, so that the row keeps the status that the flush wrote over (`statusOf_execOrder`).
-/

open Interleaving Numbers

namespace DevopsEcommerce.OrderService

/-- The order that a request wants to cancel. -/
def OrderRequest.cancels : OrderRequest → Option String
  | .cancel id => some id
  | _ => none

lemma orderId_of_cancels {req : OrderRequest} {id : String} (h : id ∈ req.cancels) :
    req.orderId = id := by
  cases req with
  | cancel id' => exact Option.some.inj h
  | _ => exact absurd h (by simp [OrderRequest.cancels])

/-- The statement is sent, is not refused and does not have to wait. -/
def accepted (store : OrderStore) (i : ℕ) (write : Write) (fault : Fault) : Bool :=
  fault = .none && !locked store i write.order.id && (write.row store.rows).isSome

/-! ## Commands -/

/-- A flush is refused, or it locks its row and writes a version of it. -/
lemma execOrder_flush {store store' : OrderStore} {i : ℕ} {write : Write} {fault : Fault}
    {r : Except ExternalError Unit}
    (h : execOrder store i (.flush write) fault = some (store', r)) :
    (accepted store i write fault = false ∧ store' = store ∧ r = .error .failed) ∨
    (accepted store i write fault = true ∧ locked store i write.order.id = false ∧ ∃ row,
      row.id = write.order.id ∧
      store' = { store with uncommitted := (i, row) :: store.uncommitted } ∧ r = .ok ()) := by
  simp only [execOrder] at h
  split at h
  · rename_i hfault
    obtain ⟨rfl, rfl⟩ := Prod.mk.inj (Option.some.inj h)
    exact .inl ⟨by simp [accepted, hfault], rfl, rfl⟩
  · rename_i hfault
    split at h
    · exact absurd h (by simp)
    · rename_i hlocked
      have hfree : locked store i write.order.id = false := by simpa using hlocked
      split at h
      · rename_i hrow
        obtain ⟨rfl, rfl⟩ := Prod.mk.inj (Option.some.inj h)
        exact .inl ⟨by simp [accepted, hrow], rfl, rfl⟩
      · rename_i row hrow
        obtain ⟨rfl, rfl⟩ := Prod.mk.inj (Option.some.inj h)
        exact .inr ⟨by simp [accepted, hrow, not_not.mp hfault, hfree], hfree, row,
          (Order.stored_eq (Write.row_stored hrow)).1, rfl, rfl⟩

/-- A commit ends the transaction one way or the other. -/
lemma execOrder_commit {store store' : OrderStore} {i : ℕ} {fault : Fault}
    {r : Except ExternalError Unit} (h : execOrder store i .commit fault = some (store', r)) :
    store' = if fault = .before then rollback store i else commitRow store i :=
  (Prod.mk.inj (Option.some.inj h)).1.symm

/-- Reading and publishing leave the database as it is. -/
lemma execOrder_database {store store' : OrderStore} {i : ℕ} {c : OrderCommand} {fault : Fault}
    {r : OrderReply c} (h : execOrder store i c fault = some (store', r))
    (hflush : ∀ write, c ≠ .flush write) (hcommit : c ≠ .commit) :
    store'.rows = store.rows ∧ store'.uncommitted = store.uncommitted := by
  cases c with
  | findById id =>
    obtain ⟨rfl, -⟩ := Prod.mk.inj (Option.some.inj h)
    exact ⟨rfl, rfl⟩
  | convertAndSend routingKey event =>
    obtain ⟨rfl, -⟩ := Prod.mk.inj (Option.some.inj h)
    split <;> exact ⟨rfl, rfl⟩
  | flush write => exact absurd rfl (hflush write)
  | commit => exact absurd rfl hcommit

/-- A step of the pool leaves the committed rows or writes one of them. -/
lemma orderStep_rows {p p' : OrderPool} {l : ℕ × Fault} (hstep : orderStep p l = some p') :
    p'.store.rows = p.store.rows ∨ ∃ row, p'.store.rows = putRow row p.store.rows := by
  obtain ⟨i, fault⟩ := l
  obtain ⟨t, c, k, store, r, ht, hk, hexec, rfl⟩ := Pool.step_eq_some.mp hstep
  show store.rows = p.store.rows ∨ ∃ row, store.rows = putRow row p.store.rows
  cases c with
  | commit =>
    rw [execOrder_commit hexec]
    split
    · exact .inl rfl
    · unfold commitRow
      cases p.store.uncommitted.lookup i with
      | none => exact .inl rfl
      | some row => exact .inr ⟨row, rfl⟩
  | flush write =>
    rcases execOrder_flush hexec with ⟨-, rfl, -⟩ | ⟨-, -, row, -, rfl, -⟩ <;> exact .inl rfl
  | _ => exact .inl (execOrder_database hexec (by simp) (by simp)).1

/-! ## Locks -/

/-- Every uncommitted row version locks a row of its own for a transaction that is going to
commit it, and a cancellation that is going to commit has locked its row. -/
structure Locks (p : OrderPool) : Prop where
  ids : (p.store.uncommitted.map fun u => u.2.id).Nodup
  owners : ∀ u ∈ p.store.uncommitted, ∃ t, p.threads[u.1]? = some t ∧
    t.program.next? = some .commit
  cancels : ∀ i t id, p.threads[i]? = some t → id ∈ t.request.cancels →
    t.program.next? = some .commit → ∃ row, (i, row) ∈ p.store.uncommitted ∧ row.id = id

lemma locked_eq_false {store : OrderStore} {i : ℕ} {id : String} :
    locked store i id = false ↔ ∀ u ∈ store.uncommitted, u.1 ≠ i → u.2.id ≠ id := by
  simp [locked]

/-- Only a commit touches a row, and only the one that its transaction has locked. -/
lemma statusOf_execOrder {p : OrderPool} (hlocks : Locks p) {store' : OrderStore} {i j : ℕ}
    {c : OrderCommand} {fault : Fault} {r : OrderReply c} {row : Order}
    (hexec : execOrder p.store i c fault = some (store', r))
    (hrow : (j, row) ∈ p.store.uncommitted) (hij : i ≠ j) :
    statusOf store' row.id = statusOf p.store row.id := by
  cases c with
  | commit =>
    rw [execOrder_commit hexec]
    split
    · -- a rollback leaves the committed rows as they are
      rfl
    · unfold statusOf commitRow
      cases hlookup : p.store.uncommitted.lookup i with
      | none => rfl
      | some own =>
        -- the transaction's own row is another one than `row`
        have hown : (i, own) ∈ p.store.uncommitted := by
          obtain ⟨before, after, heq, -⟩ := List.lookup_eq_some_iff.mp hlookup
          rw [heq]
          exact List.mem_append_right _ List.mem_cons_self
        have hne : own.id ≠ row.id := by
          intro heq
          have := List.inj_on_of_nodup_map hlocks.ids hown hrow heq
          exact hij (Prod.mk.inj this).1
        simp only
        rw [findRow_putRow, if_neg hne]
  | flush write =>
    rcases execOrder_flush hexec with ⟨-, rfl, -⟩ | ⟨-, -, own, -, rfl, -⟩ <;> rfl
  | _ =>
    obtain ⟨hrows, -⟩ := execOrder_database hexec (by simp) (by simp)
    unfold statusOf
    rw [hrows]

section
variable {platform : Platform}

/-- What a command does to the locks: nothing, a new one for its transaction, which is going
to commit it, or the release of those that its transaction has. -/
lemma uncommitted_cases {req : OrderRequest} {trace : List (Σ c, OrderReply c)}
    {c : OrderCommand} {k : OrderReply c → OrderProgram} {r : OrderReply c}
    {store store' : OrderStore} {i : ℕ} {fault : Fault}
    (h : OrderStage platform req trace (.call c k))
    (hexec : execOrder store i c fault = some (store', r)) :
    (c ≠ .commit ∧ (∀ write, c = .flush write → accepted store i write fault = false) ∧
      store'.uncommitted = store.uncommitted ∧
      ∀ id ∈ req.cancels, (k r).next? ≠ some .commit) ∨
    (∃ write row, c = .flush write ∧ accepted store i write fault = true ∧
      locked store i row.id = false ∧ row.id = req.orderId ∧
      store' = { store with uncommitted := (i, row) :: store.uncommitted } ∧
      (k r).next? = some .commit) ∨
    (c = .commit ∧ store'.uncommitted = store.uncommitted.filter (fun u => u.1 ≠ i) ∧
      (k r).next? = none) := by
  cases h with
  | finding h =>
    refine .inl ⟨by simp, by simp, (execOrder_database hexec (by simp) (by simp)).2, ?_⟩
    intro id hid
    cases h with
    | cancel id =>
      rcases r with e | _ | order
      · simp [cancelFound, Program.next?]
      · simp [cancelFound, Program.next?]
      · unfold cancelFound
        simp only
        split <;> simp [publishOrderEvent, Program.next?]
    | update hparse => exact absurd hid (by simp [OrderRequest.cancels])
  | sending hjob hkey =>
    refine .inl ⟨by simp, by simp, (execOrder_database hexec (by simp) (by simp)).2, ?_⟩
    intro id hid
    cases hjob with
    | cancel hid hpending => simp [cancelJob, flushThen, Program.next?]
    | _ => exact absurd hid (by simp [OrderRequest.cancels])
  | flushing hjob htrace hwrite =>
    rcases execOrder_flush hexec with ⟨hrefused, rfl, rfl⟩ | ⟨haccepted, hfree, row, hid, rfl, rfl⟩
    · -- after a refused flush the request answers 500 without a commit
      refine .inl ⟨by simp, ?_, rfl, fun _ _ => by simp [Program.next?]⟩
      rintro write' hwrite'
      obtain rfl := OrderCommand.flush.inj hwrite'
      exact hrefused
    · -- an accepted flush locks the row of the request's own order
      rw [← hid] at hfree
      rw [hjob.write_order hwrite, hjob.saved_id] at hid
      exact .inr (.inl ⟨_, row, rfl, haccepted, hfree, hid, rfl, rfl⟩)
  | committing hjob htrace =>
    refine .inr (.inr ⟨rfl, ?_, ?_⟩)
    · rw [execOrder_commit hexec]
      split <;> rfl
    · rcases r with e | _ <;> rfl

lemma locks_preserved {p p' : OrderPool} {l : ℕ × Fault} (hstages : InStages platform p)
    (h : Locks p) (hstep : orderStep p l = some p') : Locks p' := by
  obtain ⟨i, fault⟩ := l
  obtain ⟨⟨req, trace, q⟩, c, k, store, r, ht, hk, hexec, rfl⟩ := Pool.step_eq_some.mp hstep
  have hstage := hstages _ (List.mem_of_getElem? ht)
  simp only at hk hstage hexec ht
  subst hk
  have hmoved : (p.threads.set i (Thread.receive ⟨req, trace, .call c k⟩ c r (k r)))[i]? =
      some (Thread.receive ⟨req, trace, .call c k⟩ c r (k r)) := getElem?_set_moved ht _
  -- the transactions that hold locks are about to commit, so `i` holds none otherwise
  have hothers : c ≠ .commit → ∀ u ∈ p.store.uncommitted, u.1 ≠ i := by
    intro hc u hu hui
    obtain ⟨t, htu, hcommit⟩ := h.owners u hu
    rw [hui, ht] at htu
    obtain rfl := Option.some.inj htu
    exact hc (Option.some.inj hcommit)
  have howners : ∀ u ∈ p.store.uncommitted, u.1 ≠ i → ∃ t,
      (p.threads.set i (Thread.receive ⟨req, trace, .call c k⟩ c r (k r)))[u.1]? = some t ∧
        t.program.next? = some .commit := by
    intro u hu hui
    rw [List.getElem?_set_ne (Ne.symm hui)]
    exact h.owners u hu
  rcases uncommitted_cases hstage hexec with ⟨hc, -, hsame, hnot⟩ |
    ⟨write, row, hflush, -, hfree, hid, rfl, hnext⟩ | ⟨hc, hfilter, hnext⟩
  · -- the locks stay as they are
    refine ⟨?_, ?_, ?_⟩
    · simp only [hsame]
      exact h.ids
    · intro u hu
      simp only [hsame] at hu
      exact howners u hu (hothers hc u hu)
    · intro j t id hj hid hcommit
      simp only [hsame]
      rcases getElem?_set_eq_some hj with ⟨rfl, rfl⟩ | ⟨-, hj⟩
      · exact absurd hcommit (hnot id hid)
      · exact h.cancels j t id hj hid hcommit
  · -- a row is locked for `i`
    have hc : c ≠ .commit := by simp [hflush]
    refine ⟨?_, ?_, ?_⟩
    · -- the row was not locked by another transaction, nor by `i` itself
      simp only [List.map_cons, List.nodup_cons]
      refine ⟨?_, h.ids⟩
      intro hmem
      obtain ⟨u, hu, huid⟩ := List.mem_map.mp hmem
      exact locked_eq_false.mp hfree u hu (hothers hc u hu) huid
    · intro u hu
      rcases List.mem_cons.mp hu with rfl | hu
      · exact ⟨_, hmoved, hnext⟩
      · exact howners u hu (hothers hc u hu)
    · intro j t id hj hjid hcommit
      rcases getElem?_set_eq_some hj with ⟨rfl, rfl⟩ | ⟨-, hj⟩
      · exact ⟨row, List.mem_cons_self, hid.trans (orderId_of_cancels hjid)⟩
      · obtain ⟨row', hrow', hid'⟩ := h.cancels j t id hj hjid hcommit
        exact ⟨row', List.mem_cons_of_mem _ hrow', hid'⟩
  · -- `i` ends
    refine ⟨?_, ?_, ?_⟩
    · simp only [hfilter]
      exact h.ids.sublist (List.filter_sublist.map _)
    · intro u hu
      simp only [hfilter, List.mem_filter, decide_eq_true_eq] at hu
      exact howners u hu.1 hu.2
    · intro j t id hj hjid hcommit
      rcases getElem?_set_eq_some hj with ⟨rfl, rfl⟩ | ⟨hne, hj⟩
      · exact absurd (hnext.symm.trans hcommit) (by simp)
      · obtain ⟨row', hrow', hid'⟩ := h.cancels j t id hj hjid hcommit
        simp only [hfilter]
        exact ⟨row', List.mem_filter.mpr ⟨hrow', by simpa using hne⟩, hid'⟩

lemma locks_init (rows : List Order) (requests : List OrderRequest) :
    Locks (orderPool platform rows requests) where
  ids := List.nodup_nil
  owners u hu := absurd hu (by simp [orderPool, Pool.init, OrderStore.initial])
  cancels i t id ht hid hcommit := by
    obtain ⟨req, -, rfl⟩ := List.mem_map.mp (List.mem_of_getElem? ht)
    cases req with
    | cancel id' => exact absurd hcommit (by simp [serve, cancelOrder, Program.next?])
    | _ => exact absurd hid (by simp [OrderRequest.cancels])

end

end DevopsEcommerce.OrderService
