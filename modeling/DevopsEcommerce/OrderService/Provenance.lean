import DevopsEcommerce.OrderService.Locks
import DevopsEcommerce.OrderService.LifeCycle

/-!
# Where the rows of the database come from

Concurrent requests, a database that fails at any command, a broker that does what it
likes: whatever is committed can be derived from the first rows and the requests
(`Stems`), an order that is committed stays, and nothing of it changes but its status
(`orders_immutable`).

A request writes over a row what it has read before, which may be an old version by then.
The columns survive because two versions of a row differ in their status only (`Alike`).
-/

open Interleaving

namespace DevopsEcommerce.OrderService

/-- The same order, but for its status. -/
def Order.Alike (order order' : Order) : Prop :=
  order.withStatus .pending = order'.withStatus .pending

instance (order order' : Order) : Decidable (order.Alike order') :=
  inferInstanceAs (Decidable (order.withStatus .pending = order'.withStatus .pending))

lemma Order.alike_withStatus (order : Order) (status : OrderStatus) :
    order.Alike (order.withStatus status) := rfl

lemma Order.Alike.symm {order order' : Order} (h : order.Alike order') : order'.Alike order :=
  Eq.symm h

lemma Order.Alike.trans {a b c : Order} (hab : a.Alike b) (hbc : b.Alike c) : a.Alike c :=
  Eq.trans hab hbc

lemma Order.Alike.id_eq {order order' : Order} (h : order.Alike order') :
    order.id = order'.id :=
  (Order.mk.inj h).1

/-- The rows that can be derived: those of the beginning, the stored new order of a request,
and either with the status that a request for it sets. -/
inductive Stems (platform : Platform) (rows : List Order) (asked : OrderRequest → Prop) :
    Order → Prop
  | given {row : Order} (hrow : row ∈ rows) : Stems platform rows asked row
  | created {request : CreateOrderRequest} {uuid : String} {order row : Order}
      (hreq : asked (.create request uuid)) (hnew : newOrder request uuid = some order)
      (hstored : order.stored = some row) : Stems platform rows asked row
  | cancelled {row : Order} (h : Stems platform rows asked row)
      (hreq : asked (.cancel row.id)) (hpending : row.status = .pending) :
      Stems platform rows asked (row.withStatus .cancelled)
  | updated {row : Order} {statusValue : Option String} {status : OrderStatus}
      (h : Stems platform rows asked row)
      (hreq : asked (.updateStatus row.id statusValue))
      (hparse : parseStatus platform statusValue = some status) :
      Stems platform rows asked (row.withStatus status)

section
variable {platform : Platform} {rows : List Order} {asked : OrderRequest → Prop}

/-- The columns take a derived row as it is, with any status. -/
lemma Stems.stored {row : Order} (hfit : ∀ row ∈ rows, row.stored = some row)
    (h : Stems platform rows asked row) (status : OrderStatus) :
    (row.withStatus status).stored = some (row.withStatus status) := by
  induction h generalizing status with
  | given hrow => exact stored_withStatus (hfit _ hrow) status
  | created hreq hnew hstored => exact stored_withStatus hstored status
  | cancelled h hreq hpending ih => exact ih status
  | updated h hreq hparse ih => exact ih status

/-- A derived row, and a version of the row that is committed under its id. -/
def VersionOf (platform : Platform) (rows : List Order) (asked : OrderRequest → Prop)
    (committed : List Order) (order : Order) : Prop :=
  Stems platform rows asked order ∧
    ∃ row, findRow committed order.id = some row ∧ row.Alike order

/-- Every committed row is derived. A version that waits for its commit is the first of its
row or a version of it; what a `findById` has found is one too. -/
structure Derived (platform : Platform) (rows : List Order) (asked : OrderRequest → Prop)
    (p : OrderPool) : Prop where
  ids : ∀ id, countRows p.store.rows id ≤ 1
  committed : ∀ row ∈ p.store.rows, Stems platform rows asked row
  versions : ∀ u ∈ p.store.uncommitted, Stems platform rows asked u.2 ∧
    ∀ row ∈ findRow p.store.rows u.2.id, row.Alike u.2
  found : ∀ t ∈ p.threads, ∀ id order, ⟨.findById id, .ok (some order)⟩ ∈ t.trace →
    VersionOf platform rows asked p.store.rows order

/-! ## Writing a row -/

/-- A version of its row, or the first, written over a row. -/
lemma VersionOf.putRow {committed : List Order} {order row : Order}
    (h : VersionOf platform rows asked committed order)
    (hrow : ∀ old ∈ findRow committed row.id, old.Alike row) :
    VersionOf platform rows asked (putRow row committed) order := by
  obtain ⟨hstems, old, hfound, halike⟩ := h
  refine ⟨hstems, ?_⟩
  rw [findRow_putRow]
  by_cases hid : row.id = order.id
  · rw [if_pos hid]
    rw [← hid] at hfound
    exact ⟨row, rfl, (hrow old hfound).symm.trans halike⟩
  · rw [if_neg hid]
    exact ⟨old, hfound, halike⟩

/-- An UPDATE that sets the status of a version writes just that. -/
lemma VersionOf.row_of_update {committed : List Order} {order row : Order} {status : OrderStatus}
    (hfit : ∀ row ∈ rows, row.stored = some row)
    (h : VersionOf platform rows asked committed order)
    (hrow : (Write.update (order.withStatus status)).row committed = some row) :
    row = order.withStatus status ∧ ∀ old ∈ findRow committed row.id, old.Alike row := by
  obtain ⟨hstems, old, hold, halike⟩ := h
  have hstored : (order.withStatus status).stored = some row := Write.row_stored hrow
  rw [hstems.stored hfit] at hstored
  obtain rfl := Option.some.inj hstored
  refine ⟨rfl, fun old' hold' => ?_⟩
  obtain rfl := Option.some.inj (hold.symm.trans hold')
  exact halike.trans (order.alike_withStatus status)

/-- What a job writes is derived from what the request has found. -/
lemma stems_of_write {req : OrderRequest} {found : Option Order} {job : Job} {write : Write}
    {trace : List (Σ c, OrderReply c)} {committed : List Order} {row : Order}
    (hfit : ∀ row ∈ rows, row.stored = some row) (hreq : asked req)
    (hjob : JobOf platform req found job) (htrace : foundTrace req found <:+ trace)
    (hwrite : job.write = some write)
    (hfound : ∀ id order, ⟨.findById id, .ok (some order)⟩ ∈ trace →
      VersionOf platform rows asked committed order)
    (hrow : write.row committed = some row) :
    Stems platform rows asked row ∧ ∀ old ∈ findRow committed row.id, old.Alike row := by
  cases hjob with
  | @create request uuid order found hnew hrequired =>
    obtain rfl := Option.some.inj hwrite
    have hstored : order.stored = some row := Write.row_stored hrow
    refine ⟨.created hreq hnew hstored, fun old hold => ?_⟩
    -- an INSERT is refused where the id is there
    rw [(Order.stored_eq hstored).1] at hold
    simp [Write.row, Option.mem_def.mp hold] at hrow
  | @cancel id order hid hpending =>
    obtain rfl := Option.some.inj hwrite
    have hversion := hfound id order (htrace.subset List.mem_cons_self)
    obtain ⟨rfl, halike⟩ := hversion.row_of_update hfit hrow
    exact ⟨.cancelled hversion.1 (hid ▸ hreq) hpending, halike⟩
  | @update id statusValue order status hid hparse =>
    have hupdate : statusUpdate order status = some write := hwrite
    unfold statusUpdate at hupdate
    split at hupdate
    · exact absurd hupdate (by simp)
    · obtain rfl := Option.some.inj hupdate
      have hversion := hfound id order (htrace.subset List.mem_cons_self)
      obtain ⟨rfl, halike⟩ := hversion.row_of_update hfit hrow
      exact ⟨.updated hversion.1 (hid ▸ hreq) hparse, halike⟩

/-- A flush changes nothing, or it writes a version of a row. -/
lemma execOrder_flush_row {store store' : OrderStore} {i : ℕ} {write : Write} {fault : Fault}
    {r : Except ExternalError Unit}
    (h : execOrder store i (.flush write) fault = some (store', r)) :
    store' = store ∨ ∃ row, write.row store.rows = some row ∧
      store' = { store with uncommitted := (i, row) :: store.uncommitted } := by
  simp only [execOrder] at h
  split at h
  · exact .inl (Prod.mk.inj (Option.some.inj h)).1.symm
  · split at h
    · exact absurd h (by simp)
    · split at h
      · exact .inl (Prod.mk.inj (Option.some.inj h)).1.symm
      · rename_i row hrow
        exact .inr ⟨row, hrow, (Prod.mk.inj (Option.some.inj h)).1.symm⟩

/-! ## Runs -/

/-- What a commit leaves: the rows as they were, or with the version that its transaction has
written. -/
lemma commitRow_rows (store : OrderStore) (i : ℕ) :
    (commitRow store i).rows = store.rows ∨
      ∃ row, (i, row) ∈ store.uncommitted ∧ (commitRow store i).rows = putRow row store.rows := by
  unfold commitRow
  cases hlookup : store.uncommitted.lookup i with
  | none => exact .inl rfl
  | some row =>
    obtain ⟨before, after, heq, -⟩ := List.lookup_eq_some_iff.mp hlookup
    refine .inr ⟨row, ?_, rfl⟩
    rw [heq]
    exact List.mem_append_right _ List.mem_cons_self

/-- What a command does to the database: the rows stay, and a new version of one is derived;
or a version is committed, and no other version of its row is left. -/
lemma database_cases {p : OrderPool} {req : OrderRequest} {trace : List (Σ c, OrderReply c)}
    {c : OrderCommand} {k : OrderReply c → OrderProgram} {r : OrderReply c} {store' : OrderStore}
    {i : ℕ} {fault : Fault} (hfit : ∀ row ∈ rows, row.stored = some row) (hreq : asked req)
    (hlocks : Locks p) (hstage : OrderStage platform req trace (.call c k))
    (hfound : ∀ id order, ⟨.findById id, .ok (some order)⟩ ∈ trace →
      VersionOf platform rows asked p.store.rows order)
    (hexec : execOrder p.store i c fault = some (store', r)) :
    (store'.rows = p.store.rows ∧ ∀ u ∈ store'.uncommitted, u ∈ p.store.uncommitted ∨
      Stems platform rows asked u.2 ∧ ∀ old ∈ findRow p.store.rows u.2.id, old.Alike u.2) ∨
    ∃ row, (i, row) ∈ p.store.uncommitted ∧ store'.rows = putRow row p.store.rows ∧
      ∀ u ∈ store'.uncommitted, u ∈ p.store.uncommitted ∧ u.2.id ≠ row.id := by
  cases hstage with
  | finding h =>
    obtain ⟨hrows, hsame⟩ := execOrder_database hexec (by simp) (by simp)
    exact .inl ⟨hrows, fun u hu => .inl (hsame ▸ hu)⟩
  | sending hjob hkey =>
    obtain ⟨hrows, hsame⟩ := execOrder_database hexec (by simp) (by simp)
    exact .inl ⟨hrows, fun u hu => .inl (hsame ▸ hu)⟩
  | flushing hjob htrace hwrite =>
    rcases execOrder_flush_row hexec with rfl | ⟨row, hrow, rfl⟩
    · exact .inl ⟨rfl, fun u hu => .inl hu⟩
    · refine .inl ⟨rfl, fun u hu => ?_⟩
      rcases List.mem_cons.mp hu with rfl | hu
      · exact .inr (stems_of_write hfit hreq hjob htrace hwrite hfound hrow)
      · exact .inl hu
  | committing hjob htrace =>
    rw [execOrder_commit hexec]
    split
    · exact .inl ⟨rfl, fun u hu => .inl (List.mem_filter.mp hu).1⟩
    · rcases commitRow_rows p.store i with hrows | ⟨row, hrow, hrows⟩
      · exact .inl ⟨hrows, fun u hu => .inl (List.mem_filter.mp hu).1⟩
      · refine .inr ⟨row, hrow, hrows, fun u hu => ?_⟩
        obtain ⟨hmem, hother⟩ := List.mem_filter.mp hu
        refine ⟨hmem, fun hid => ?_⟩
        have heq : u = (i, row) := List.inj_on_of_nodup_map hlocks.ids hmem hrow hid
        simp [heq] at hother

/-- Writing a version over its row leaves all the orders that were there. -/
lemma alike_putRow {committed : List Order} {row : Order}
    (hrow : ∀ old ∈ findRow committed row.id, old.Alike row) :
    ∀ old ∈ committed, ∃ new ∈ putRow row committed, old.Alike new := by
  induction committed with
  | nil => exact fun old hold => absurd hold (by simp)
  | cons r committed ih =>
    intro old hold
    unfold putRow
    by_cases hr : r.id = row.id
    · rw [if_pos hr]
      rcases List.mem_cons.mp hold with rfl | hold
      · exact ⟨row, List.mem_cons_self, hrow old (by simp [findRow, hr])⟩
      · exact ⟨old, List.mem_cons_of_mem _ hold, rfl⟩
    · rw [if_neg hr]
      rcases List.mem_cons.mp hold with rfl | hold
      · exact ⟨old, List.mem_cons_self, rfl⟩
      · have hrest : ∀ old ∈ findRow committed row.id, old.Alike row := by
          intro old hold
          exact hrow old (by simpa [findRow, hr] using hold)
        obtain ⟨new, hnew, halike⟩ := ih hrest old hold
        exact ⟨new, List.mem_cons_of_mem _ hnew, halike⟩

/-- A command keeps the rows derived, whatever it is, and keeps every order. -/
lemma derived_step {p p' : OrderPool} {l : ℕ × Fault} (hfit : ∀ row ∈ rows, row.stored = some row)
    (hstages : InStages platform p) (hlocks : Locks p)
    (hreqs : ∀ t ∈ p.threads, asked t.request)
    (h : Derived platform rows asked p) (hstep : orderStep p l = some p') :
    Derived platform rows asked p' ∧
      ∀ row ∈ p.store.rows, ∃ row' ∈ p'.store.rows, row.Alike row' := by
  obtain ⟨i, fault⟩ := l
  obtain ⟨⟨req, trace, q⟩, c, k, store, r, ht, hk, hexec, rfl⟩ := Pool.step_eq_some.mp hstep
  have hstage := hstages _ (List.mem_of_getElem? ht)
  have hfound := h.found _ (List.mem_of_getElem? ht)
  have hreq : asked req := hreqs _ (List.mem_of_getElem? ht)
  simp only at hk hstage hexec ht hfound
  subst hk
  -- what the request is told now is what is committed now
  have htold : ∀ id order, (⟨c, r⟩ : Σ c, OrderReply c) = ⟨.findById id, .ok (some order)⟩ →
      VersionOf platform rows asked p.store.rows order ∧ store.rows = p.store.rows := by
    intro id order he
    cases he
    obtain ⟨rfl, hreply⟩ := Prod.mk.inj (Option.some.inj hexec)
    split at hreply
    · obtain ⟨hmem, hid⟩ := findRow_eq_some (Except.ok.inj hreply)
      exact ⟨⟨h.committed order hmem, order, hid ▸ Except.ok.inj hreply, rfl⟩, rfl⟩
    · exact absurd hreply (by simp)
  rcases database_cases hfit hreq hlocks hstage hfound hexec with ⟨hrows, hversions⟩ |
    ⟨row, hrow, hrows, hothers⟩
  · refine ⟨⟨?_, ?_, ?_, ?_⟩, fun row hrow => ⟨row, hrows ▸ hrow, rfl⟩⟩
    · simp only [hrows]
      exact h.ids
    · simp only [hrows]
      exact h.committed
    · intro u hu
      simp only [hrows]
      rcases hversions u hu with hold | hnew
      · exact h.versions u hold
      · exact hnew
    · simp only [hrows]
      refine forall_mem_set i h.found fun id order he => ?_
      rcases List.mem_cons.mp he with he | he
      · exact (htold id order he.symm).1
      · exact hfound id order he
  · obtain ⟨hstems, halike⟩ := h.versions _ hrow
    refine ⟨⟨?_, ?_, ?_, ?_⟩, ?_⟩
    · simp only [hrows]
      exact fun id => countRows_putRow_le_one row (h.ids id)
    · simp only [hrows]
      intro new hnew
      rcases mem_putRow hnew with rfl | hold
      · exact hstems
      · exact h.committed new hold
    · intro u hu
      obtain ⟨hmem, hne⟩ := hothers u hu
      simp only [hrows]
      rw [findRow_putRow, if_neg (Ne.symm hne)]
      exact h.versions u hmem
    · simp only [hrows]
      refine forall_mem_set i (fun t ht id order he => ?_) fun id order he => ?_
      · exact (h.found t ht id order he).putRow halike
      · rcases List.mem_cons.mp he with he | he
        · exact (htold id order he.symm).1.putRow halike
        · exact (hfound id order he).putRow halike
    · simp only [hrows]
      exact alike_putRow halike

/-- What the steps of the order service keep up. -/
structure Kept (platform : Platform) (rows : List Order) (asked : OrderRequest → Prop)
    (p : OrderPool) : Prop where
  stages : InStages platform p
  locks : Locks p
  requests : ∀ t ∈ p.threads, asked t.request
  derived : Derived platform rows asked p

lemma kept_init (hids : ∀ id, countRows rows id ≤ 1) {requests : List OrderRequest}
    (hreqs : ∀ req ∈ requests, asked req) :
    Kept platform rows asked (orderPool platform rows requests) where
  stages := inStages_init rows requests
  locks := locks_init rows requests
  requests := by
    intro t ht
    obtain ⟨req, hreq, rfl⟩ := List.mem_map.mp ht
    exact hreqs req hreq
  derived :=
    { ids := hids
      committed := fun _ hrow => .given hrow
      versions := fun u hu => absurd hu (by simp [orderPool, Pool.init, OrderStore.initial])
      found := by
        intro t ht id order he
        obtain ⟨req, -, rfl⟩ := List.mem_map.mp ht
        exact absurd he (by simp) }

lemma kept_step (hfit : ∀ row ∈ rows, row.stored = some row) {p p' : OrderPool} {l : ℕ × Fault}
    (h : Kept platform rows asked p) (hstep : orderStep p l = some p') :
    Kept platform rows asked p' ∧ ∀ row ∈ p.store.rows, ∃ row' ∈ p'.store.rows,
      row.Alike row' := by
  obtain ⟨hderived, hkeep⟩ := derived_step hfit h.stages h.locks h.requests h.derived hstep
  exact ⟨⟨inStages_preserved p l p' h.stages hstep, locks_preserved h.stages h.locks hstep,
    Pool.forall_threads_preserved (fun _ _ _ _ _ _ _ hreq _ _ => hreq) p l p' h.requests hstep,
    hderived⟩, hkeep⟩

/-- A new transaction has no lock. -/
lemma Locks.arrive {p : OrderPool} (h : Locks p) (req : OrderRequest) :
    Locks (p.arrive (serve platform) req) where
  ids := h.ids
  owners u hu := by
    obtain ⟨t, ht, hcommit⟩ := h.owners u hu
    exact ⟨t, Pool.getElem?_arrive ht, hcommit⟩
  cancels i t id ht hid hcommit := by
    rcases Pool.thread_of_arrive ht with ht | ⟨-, rfl⟩
    · exact h.cancels i t id ht hid hcommit
    · cases req with
      | cancel id' => exact absurd hcommit (by simp [serve, cancelOrder, Program.next?])
      | _ => exact absurd hid (by simp [OrderRequest.cancels])

lemma Kept.arrive {p : OrderPool} (h : Kept platform rows asked p) {req : OrderRequest}
    (hreq : asked req) : Kept platform rows asked (p.arrive (serve platform) req) where
  stages := Pool.forall_arrive h.stages (orderStage_serve req)
  locks := h.locks.arrive req
  requests := Pool.forall_arrive h.requests hreq
  derived :=
    { ids := h.derived.ids
      committed := h.derived.committed
      versions := h.derived.versions
      found := Pool.forall_arrive h.derived.found fun _ _ he => absurd he (by simp) }

/-- Along a run from such a state every order stays. -/
lemma alike_run (hfit : ∀ row ∈ rows, row.stored = some row) {p p' : OrderPool}
    {es : List (ℕ × Fault)} (h : Kept platform rows asked p)
    (hrun : run orderStep p es = some p') :
    ∀ row ∈ p.store.rows, ∃ row' ∈ p'.store.rows, row.Alike row' := by
  induction es generalizing p with
  | nil =>
    obtain rfl := Option.some.inj hrun
    exact fun row hrow => ⟨row, hrow, rfl⟩
  | cons l es ih =>
    obtain ⟨q, hstep, hrest⟩ := run_cons_eq_some.mp hrun
    obtain ⟨hkept, hkeep⟩ := kept_step hfit h hstep
    intro row hrow
    obtain ⟨row₁, hrow₁, halike₁⟩ := hkeep row hrow
    obtain ⟨row₂, hrow₂, halike₂⟩ := ih hkept hrest row₁ hrow₁
    exact ⟨row₂, hrow₂, halike₁.trans halike₂⟩

end

end DevopsEcommerce.OrderService
