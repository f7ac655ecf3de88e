import DevopsEcommerce.Interleaving.Arrivals
import DevopsEcommerce.Interleaving.Queries
import DevopsEcommerce.OrderService.Publications
import DevopsEcommerce.Pagination.Growth

/-!
# Reading orders back

`getOrderById` and `getOrders` between the transactions that write. `getOrders` asks for a page of
the orders, the latest first, and most times for their number after that, and other transactions
may commit before each of the two.

Orders are never deleted and keep their user and their creation time. So a client that reads the
pages one after the other, up to the one that says that it is the last, sees every order that has
been confirmed before it began, whatever is ordered meanwhile (`order_history_complete`). A single
one is found by its id (`confirmed_order_found`).
-/

open Interleaving Pagination

namespace DevopsEcommerce.OrderService

/-! ## The handlers -/

/-- The queries of the repository. Without a user they are about all orders. -/
inductive ReadCommand where
  | findById (id : String)
  | findPage (userId : Option String) (page size : ℕ)
  | count (userId : Option String)

abbrev ReadReply : ReadCommand → Type
  | .findById _ => Except ExternalError (Option Order)
  | .findPage _ _ _ => Except ExternalError (List Order)
  | .count _ => Except ExternalError ℕ

abbrev ReadProgram (α : Type) := Program ReadCommand ReadReply α

def getOrderById (id : String) : ReadProgram Response :=
  .call (.findById id) fun
    | .error _ => .done ⟨500, none⟩
    | .ok none => .done ⟨404, none⟩
    | .ok (some order) => .done ⟨200, some order⟩

/-- A `PageImpl`, as far as its JSON tells of the orders. -/
structure OrderPage where
  content : List Order
  number : ℕ
  size : ℕ
  totalElements : ℕ

/-- `number + 1 < totalPages` does not hold. -/
def OrderPage.isLast (page : OrderPage) : Bool :=
  page.totalElements ≤ (page.number + 1) * page.size

/-- The total of a `PageImpl` that gets a count: of the last page it is corrected. -/
def correctedTotal (content : List Order) (page size counted : ℕ) : ℕ :=
  if content ≠ [] ∧ counted < page * size + size then page * size + content.length else counted

/-- The user that the orders are filtered by. -/
def userFilter (userId : Option String) : Option String :=
  userId.filter fun userId => !userId.toList.all isJavaWhitespace

/-- The answer is `none` for a status other than 200. -/
def getOrders (userId : Option String) (page size : ℤ) : ReadProgram (ℕ × Option OrderPage) :=
  -- the exception of `PageRequest.of`
  if page < 0 ∨ size < 1 then .done (500, none)
  else
    .call (.findPage (userFilter userId) page.toNat size.toNat) fun
      | .error _ => .done (500, none)
      | .ok content =>
        let answer (total : ℕ) := (200, some ⟨content, page.toNat, size.toNat, total⟩)
        -- a page that is not full tells the number
        if content.length < size.toNat ∧ (page = 0 ∨ content ≠ []) then
          .done (answer (page.toNat * size.toNat + content.length))
        else
          .call (.count (userFilter userId)) fun
            | .error _ => .done (500, none)
            | .ok counted =>
              .done (answer (correctedTotal content page.toNat size.toNat counted))

/-! ## The database -/

/-- The rows that a query is about. -/
def selectRows (userId : Option String) (rows : List Order) : List Order :=
  match userId with
  | none => rows
  | some userId => rows.filter fun row => row.userId = some userId

section
variable {κ : Type} [LinearOrder κ] (createdAt : String → κ)

/-- The sort of a page, the latest first. An order keeps the `created_at` of its INSERT. -/
def latestFirst (row : Order) : κᵒᵈ := OrderDual.toDual (createdAt row.id)

/-- A query that does not succeed. -/
def ReadCommand.failure : (c : ReadCommand) → ReadReply c
  | .findById _ | .findPage _ _ _ | .count _ => .error .failed

/-- What PostgreSQL may reply. Rows of the same time come in any order. -/
inductive Replies (rows : List Order) : (c : ReadCommand) → ReadReply c → Prop
  | found (id : String) : Replies rows (.findById id) (.ok (findRow rows id))
  | paged {userId : Option String} {order : List Order} (page size : ℕ)
      (hsort : SortOf (latestFirst createdAt) (selectRows userId rows) order) :
      Replies rows (.findPage userId page size) (.ok (Pagination.page order page size))
  | counted (userId : Option String) :
      Replies rows (.count userId) (.ok (selectRows userId rows).length)
  | failed (c : ReadCommand) : Replies rows c c.failure

/-- Requests that write arrive and are served. -/
abbrev openStep (platform : Platform) : OrderPool → Event OrderRequest Fault → Option OrderPool :=
  Pool.openStep (serve platform) execOrder

/-- The program asks while other requests are served. -/
abbrev Reads (platform : Platform) {α : Type} :
    ReadProgram α → OrderPool → α → OrderPool → Prop :=
  Asks (openStep platform) fun p => Replies createdAt p.store.rows

end

/-! ## What a page tells -/

section
variable {κ : Type} [LinearOrder κ] {createdAt : String → κ} {platform : Platform}
  {p p' : OrderPool}

/-- The content of a page is a slice of the rows of some moment, and if the page says that it is
the last, they end with it. -/
lemma content_of_reads {userId : Option String} {page size : ℕ} {answer : OrderPage}
    (hgrowth : ∀ es es' q q', run (openStep platform) p es = some q →
      run (openStep platform) q es' = some q' →
        (selectRows (userFilter userId) q.store.rows).length ≤
          (selectRows (userFilter userId) q'.store.rows).length)
    (h : Reads createdAt platform (getOrders userId page size) p (200, some answer) p') :
    ∃ es es' q order, run (openStep platform) p es = some q ∧
      run (openStep platform) q es' = some p' ∧
      SortOf (latestFirst createdAt) (selectRows (userFilter userId) q.store.rows) order ∧
      answer.content = Pagination.page order page size ∧
      (answer.isLast = true →
        (selectRows (userFilter userId) q.store.rows).length ≤ (page + 1) * size) := by
  unfold getOrders at h
  split at h
  · exact absurd (asks_done h).1 (by simp)
  · rename_i hvalid
    simp only [Int.toNat_natCast] at h
    obtain ⟨es, q, r, hrun, hreply, hrest⟩ := asks_call h
    cases hreply with
    | failed => exact absurd (asks_done hrest).1 (by simp)
    | @paged _ order _ _ hsort =>
      have hlength : (Pagination.page order page size).length =
          min size ((selectRows (userFilter userId) q.store.rows).length - page * size) := by
        rw [Pagination.page, List.length_take, List.length_drop, hsort.perm.length_eq]
      dsimp only at hrest
      split at hrest
      · rename_i hshort
        obtain ⟨hanswer, rfl⟩ := asks_done hrest
        obtain rfl := Option.some.inj (Prod.mk.inj hanswer).2
        refine ⟨es, [], _, order, hrun, rfl, hsort, rfl, fun _ => ?_⟩
        have hshort := hshort.1
        rw [hlength] at hshort
        rw [Nat.succ_mul]
        omega
      · obtain ⟨es', q', r', hrun', hreply', hrest'⟩ := asks_call hrest
        cases hreply' with
        | failed => exact absurd (asks_done hrest').1 (by simp)
        | counted =>
          obtain ⟨hanswer, rfl⟩ := asks_done hrest'
          obtain rfl := Option.some.inj (Prod.mk.inj hanswer).2
          refine ⟨es, es', q, order, hrun, hrun', hsort, rfl, fun hlast => ?_⟩
          have hle := hgrowth es es' q _ hrun hrun'
          have htotal := of_decide_eq_true hlast
          simp only [correctedTotal, Nat.succ_mul] at htotal ⊢
          -- a count that is corrected is not beyond the page either
          split at htotal <;> omega

end

/-! ## What the writers keep -/

/-- What a request has been answered with is committed. -/
def Confirmed (p : OrderPool) : Prop :=
  ∀ t ∈ p.threads, ∀ status order, t.program = .done ⟨status, some order⟩ →
    HasOrder p.store.rows order.id order.userId

section
variable {platform : Platform} {rows : List Order} {p p' : OrderPool}

lemma JobOf.answer_order {req : OrderRequest} {found : Option Order} {job : Job}
    (h : JobOf platform req found job) : job.answer.order = some job.saved := by
  cases h <;> rfl

lemma HasOrder.mono {committed committed' : List Order} {id : String} {userId : Option String}
    (h : HasOrder committed id userId)
    (hkeep : ∀ row ∈ committed, ∃ row' ∈ committed', row.Alike row') :
    HasOrder committed' id userId := by
  obtain ⟨row, hrow, hid, huser⟩ := h
  obtain ⟨row', hrow', halike⟩ := hkeep row hrow
  exact ⟨row', hrow', halike.id_eq.symm.trans hid, halike.userId_eq.symm.trans huser⟩

/-- The end of a job starts with a command. -/
lemma flushThen_ne_done (write : Option Write) (answer answer' : Response) :
    flushThen write answer ≠ .done answer' := by
  cases write <;> exact fun h => by cases h

lemma finds_ne_done {req : OrderRequest} {id : String}
    {k : Except ExternalError (Option Order) → OrderProgram} (h : Finds platform req id k)
    (r : Except ExternalError (Option Order)) (status : ℕ) (order : Order) :
    k r ≠ .done ⟨status, some order⟩ := by
  intro hended
  cases h with
  | cancel id =>
    rcases r with e | _ | found
    · cases hended
    · cases hended
    · simp only [cancelFound] at hended
      split at hended
      · cases hended
      · exact absurd hended (by simp [publishOrderEvent])
  | update =>
    rcases r with e | _ | found
    · cases hended
    · cases hended
    · simp only [updateFound] at hended
      split at hended
      · exact absurd hended (by simp [publishOrderEvent])
      · exact flushThen_ne_done _ _ _ hended

/-- A request that ends with an order has just committed it. -/
lemma committed_of_answer {req : OrderRequest} {trace : List (Σ c, OrderReply c)}
    {c : OrderCommand} {k : OrderReply c → OrderProgram} {r : OrderReply c} {status : ℕ}
    {order : Order} (hstage : OrderStage platform req trace (.call c k))
    (hended : k r = .done ⟨status, some order⟩) :
    ∃ found job, JobOf platform req found job ∧ foundTrace req found <:+ trace ∧
      job.saved = order ∧ (⟨c, r⟩ : Σ c, OrderReply c) = ⟨.commit, .ok ()⟩ := by
  generalize hprogram : Program.call c k = program at hstage
  cases hstage with
  | refused => cases hprogram
  | finding h =>
    cases hprogram
    exact absurd hended (finds_ne_done h r status order)
  | sending hjob hkey =>
    cases hprogram
    exact absurd hended (flushThen_ne_done _ _ _)
  | flushing hjob htrace hwrite =>
    cases hprogram
    rcases r with e | _ <;> cases hended
  | @committing found job _ hjob htrace =>
    cases hprogram
    rcases r with e | _
    · cases hended
    · have hanswer : job.answer = ⟨status, some order⟩ := Program.done.inj hended
      have horder := hjob.answer_order
      rw [hanswer] at horder
      exact ⟨found, job, hjob, htrace, (Option.some.inj horder).symm, rfl⟩
  | ended => cases hprogram

lemma confirmed_step (hfit : ∀ row ∈ rows, row.stored = some row) {l : ℕ × Fault}
    (hbacked : Backed platform rows (fun _ => True) p) (h : Confirmed p)
    (hstep : orderStep p l = some p') : Confirmed p' := by
  obtain ⟨-, hkeep⟩ := kept_step hfit hbacked.kept hstep
  obtain ⟨i, fault⟩ := l
  obtain ⟨⟨req, trace, q⟩, c, k, store, r, ht, hk, hexec, rfl⟩ := Pool.step_eq_some.mp hstep
  have hstage := hbacked.kept.stages _ (List.mem_of_getElem? ht)
  simp only at hk hstage hexec ht hkeep
  subst hk
  refine forall_mem_set i (fun t ht status order hended => ?_) fun status order hended => ?_
  · exact (h t ht status order hended).mono hkeep
  · obtain ⟨found, job, hjob, htrace, rfl, hcommit⟩ := committed_of_answer hstage hended
    cases hcommit
    obtain ⟨hstore, hreply⟩ := Prod.mk.inj (Option.some.inj hexec)
    have hfault : fault = .none := by
      by_contra hfault
      rw [if_neg hfault] at hreply
      cases hreply
    rw [if_neg (by simp [hfault])] at hstore
    rw [← hstore]
    exact hbacked.hasOrder hfit ht ⟨found, hjob, htrace⟩ rfl

/-- No order is lost, and none changes but for its status. -/
def Keeps (p p' : OrderPool) : Prop := ∀ row ∈ p.store.rows, ∃ row' ∈ p'.store.rows, row.Alike row'

lemma Keeps.refl (p : OrderPool) : Keeps p p := fun row hrow => ⟨row, hrow, rfl⟩

lemma Keeps.trans {q : OrderPool} (h : Keeps p q) (h' : Keeps q p') : Keeps p p' := by
  intro row hrow
  obtain ⟨row₁, hrow₁, halike₁⟩ := h row hrow
  obtain ⟨row₂, hrow₂, halike₂⟩ := h' row₁ hrow₁
  exact ⟨row₂, hrow₂, halike₁.trans halike₂⟩

/-- What holds between the steps of an order service that requests arrive at. -/
structure Recorded (platform : Platform) (rows : List Order) (p : OrderPool) : Prop where
  backed : Backed platform rows (fun _ => True) p
  confirmed : Confirmed p

lemma recorded_init (hids : ∀ id, countRows rows id ≤ 1) :
    Recorded platform rows (orderPool platform rows []) where
  backed := backed_init hids
  confirmed _ ht := absurd ht List.not_mem_nil

lemma serve_ne_done (req : OrderRequest) (status : ℕ) (order : Order) :
    serve platform req ≠ .done ⟨status, some order⟩ := by
  intro hended
  cases req with
  | create request uuid =>
    simp only [serve, createOrder] at hended
    split at hended
    · cases hended
    · split at hended
      · cases hended
      · exact absurd hended (by simp [publishOrderEvent])
  | cancel id => exact absurd hended (by simp [serve, cancelOrder])
  | updateStatus id statusValue =>
    simp only [serve, updateOrderStatus] at hended
    split at hended
    · cases hended
    · exact absurd hended (by simp)

/-- Every step keeps what is recorded, and every order. -/
lemma recorded_step (hfit : ∀ row ∈ rows, row.stored = some row) {e : Event OrderRequest Fault}
    (h : Recorded platform rows p) (hstep : openStep platform p e = some p') :
    Recorded platform rows p' ∧ Keeps p p' := by
  cases e with
  | arrive req =>
    obtain rfl := Option.some.inj hstep
    refine ⟨⟨h.backed.arrive trivial, ?_⟩, .refl p⟩
    exact Pool.forall_arrive h.confirmed fun status order hended =>
      absurd hended (serve_ne_done req status order)
  | execute l =>
    exact ⟨⟨backed_step hfit h.backed hstep, confirmed_step hfit h.backed h.confirmed hstep⟩,
      (kept_step hfit h.backed.kept hstep).2⟩

lemma recorded_run (hfit : ∀ row ∈ rows, row.stored = some row)
    {es : List (Event OrderRequest Fault)} (h : Recorded platform rows p)
    (hrun : run (openStep platform) p es = some p') : Recorded platform rows p' ∧ Keeps p p' := by
  induction es generalizing p with
  | nil =>
    obtain rfl := Option.some.inj hrun
    exact ⟨h, .refl p⟩
  | cons e es ih =>
    obtain ⟨q, hstep, hrest⟩ := run_cons_eq_some.mp hrun
    obtain ⟨hq, hkeep⟩ := recorded_step hfit h hstep
    obtain ⟨hp', hkeep'⟩ := ih hq hrest
    exact ⟨hp', hkeep.trans hkeep'⟩

/-! ## The selection of a user -/

lemma nodup_id_of_countRows {committed : List Order} (hids : ∀ id, countRows committed id ≤ 1) :
    (committed.map Order.id).Nodup := by
  rw [List.nodup_iff_count_le_one]
  intro id
  rw [List.count, List.countP_map]
  exact hids id

lemma mem_selectRows {userId : Option String} {committed : List Order} {row : Order}
    (hrow : row ∈ committed) (huser : ∀ user ∈ userId, row.userId = some user) :
    row ∈ selectRows userId committed := by
  cases userId with
  | none => exact hrow
  | some userId => exact List.mem_filter.mpr ⟨hrow, decide_eq_true (huser userId rfl)⟩

lemma selectRows_sublist (userId : Option String) (committed : List Order) :
    (selectRows userId committed).Sublist committed := by
  cases userId with
  | none => exact List.Sublist.refl _
  | some userId => exact List.filter_sublist

lemma mem_of_mem_selectRows {userId : Option String} {committed : List Order} {row : Order}
    (h : row ∈ selectRows userId committed) : row ∈ committed :=
  (selectRows_sublist userId committed).subset h

lemma mem_selectRows_of_alike {userId : Option String} {committed committed' : List Order}
    {row row' : Order} (hrow : row ∈ selectRows userId committed) (hrow' : row' ∈ committed')
    (halike : row.Alike row') : row' ∈ selectRows userId committed' := by
  refine mem_selectRows hrow' fun user huser => ?_
  obtain rfl := Option.mem_def.mp huser
  rw [← halike.userId_eq]
  exact of_decide_eq_true (List.mem_filter.mp hrow).2

/-- The ids of the selected orders only get more. -/
lemma subperm_selectRows (userId : Option String) {committed committed' : List Order}
    (hids : ∀ id, countRows committed id ≤ 1)
    (hkeep : ∀ row ∈ committed, ∃ row' ∈ committed', row.Alike row') :
    ((selectRows userId committed).map Order.id).Subperm
      ((selectRows userId committed').map Order.id) := by
  have hsublist := (selectRows_sublist userId committed).map Order.id
  refine ((nodup_id_of_countRows hids).sublist hsublist).subperm fun id hid => ?_
  obtain ⟨row, hrow, rfl⟩ := List.mem_map.mp hid
  obtain ⟨row', hrow', halike⟩ := hkeep row (mem_of_mem_selectRows hrow)
  rw [halike.id_eq]
  exact List.mem_map_of_mem (mem_selectRows_of_alike hrow hrow' halike)

/-! ## Reading all pages -/

variable {κ : Type} [LinearOrder κ] {createdAt : String → κ} {userId : Option String}

/-- What reading one page tells: the content is a slice of the orders of some moment. -/
structure Slice (createdAt : String → κ) (platform : Platform) (rows : List Order)
    (userId : Option String) (page size : ℕ) (answer : OrderPage) (p q p' : OrderPool)
    (order : List Order) : Prop where
  recorded : Recorded platform rows q
  before : Keeps p q
  after : Keeps q p'
  sort : SortOf (latestFirst createdAt) (selectRows (userFilter userId) q.store.rows) order
  content : answer.content = Pagination.page order page size
  last : answer.isLast = true →
    (selectRows (userFilter userId) q.store.rows).length ≤ (page + 1) * size

lemma slice_of_reads (hfit : ∀ row ∈ rows, row.stored = some row) (h : Recorded platform rows p)
    {page size : ℕ} {answer : OrderPage}
    (hreads : Reads createdAt platform (getOrders userId page size) p (200, some answer) p') :
    Recorded platform rows p' ∧
      ∃ q order, Slice createdAt platform rows userId page size answer p q p' order := by
  obtain ⟨es, es', q, order, hrun, hrun', hsort, hcontent, hlast⟩ :=
    content_of_reads (fun es es' q q' hrun hrun' => by
      obtain ⟨hq, -⟩ := recorded_run hfit h hrun
      have hsubperm := subperm_selectRows (userFilter userId) hq.backed.kept.derived.ids
        (recorded_run hfit hq hrun').2
      simpa using hsubperm.length_le) hreads
  obtain ⟨hq, hbefore⟩ := recorded_run hfit h hrun
  obtain ⟨hp', hafter⟩ := recorded_run hfit hq hrun'
  exact ⟨hp', q, order, hq, hbefore, hafter, hsort, hcontent, hlast⟩

variable {size K : ℕ} {moments q : ℕ → OrderPool} {pages : ℕ → OrderPage} {orders : ℕ → List Order}

/-- Pages that are read in turn: page `k` is a slice of the orders of the moment `q k`. -/
def Slices (createdAt : String → κ) (platform : Platform) (rows : List Order)
    (userId : Option String) (size K : ℕ) (moments q : ℕ → OrderPool) (pages : ℕ → OrderPage)
    (orders : ℕ → List Order) : Prop :=
  ∀ k ≤ K, Slice createdAt platform rows userId k size (pages k) (moments k) (q k)
    (moments (k + 1)) (orders k)

lemma exists_slices (hfit : ∀ row ∈ rows, row.stored = some row)
    (hstart : Recorded platform rows (moments 0))
    (hreads : ∀ k ≤ K, Reads createdAt platform (getOrders userId k size) (moments k)
      (200, some (pages k)) (moments (k + 1))) :
    ∃ q orders, Slices createdAt platform rows userId size K moments q pages orders := by
  have hmoments : ∀ k ≤ K, Recorded platform rows (moments k) := by
    intro k hk
    induction k with
    | zero => exact hstart
    | succ k ih =>
      have hk' := Nat.le_of_succ_le hk
      exact (slice_of_reads hfit (ih hk') (hreads k hk')).1
  have hslices := fun k (hk : k ≤ K) => (slice_of_reads hfit (hmoments k hk) (hreads k hk)).2
  have hnonempty : Nonempty OrderPool := ⟨moments 0⟩
  choose! q orders hslices using hslices
  exact ⟨q, orders, hslices⟩

namespace Slices

lemma keeps (h : Slices createdAt platform rows userId size K moments q pages orders) {j k : ℕ}
    (hjk : j ≤ k) (hk : k ≤ K) : Keeps (q j) (q k) := by
  refine rel_of_le Keeps.refl Keeps.trans (fun k hk => ?_) hjk hk
  exact (h k (Nat.le_of_lt hk)).after.trans (h (k + 1) hk).before

lemma keeps_last (h : Slices createdAt platform rows userId size K moments q pages orders) {k : ℕ}
    (hk : k ≤ K) : Keeps (q k) (moments (K + 1)) :=
  (h.keeps hk (Nat.le_refl K)).trans (h K (Nat.le_refl K)).after

lemma nodup_id (h : Slices createdAt platform rows userId size K moments q pages orders) {k : ℕ}
    (hk : k ≤ K) : ((q k).store.rows.map Order.id).Nodup :=
  nodup_id_of_countRows (h k hk).recorded.backed.kept.derived.ids

/-- Orders of one time are one order, whenever they are read. -/
lemma id_eq (h : Slices createdAt platform rows userId size K moments q pages orders)
    (hdistinct : ∀ row ∈ (moments (K + 1)).store.rows, ∀ row' ∈ (moments (K + 1)).store.rows,
      createdAt row.id = createdAt row'.id → row.id = row'.id) {j k : ℕ} {row row' : Order}
    (hj : j ≤ K) (hk : k ≤ K) (hrow : row ∈ (q j).store.rows) (hrow' : row' ∈ (q k).store.rows)
    (hkey : latestFirst createdAt row = latestFirst createdAt row') : row.id = row'.id := by
  obtain ⟨last, hmem, halike⟩ := h.keeps_last hj row hrow
  obtain ⟨last', hmem', halike'⟩ := h.keeps_last hk row' hrow'
  have hcreated : createdAt row.id = createdAt row'.id := OrderDual.toDual_inj.mp hkey
  rw [halike.id_eq, halike'.id_eq] at hcreated ⊢
  exact hdistinct last hmem last' hmem' hcreated

lemma growth (h : Slices createdAt platform rows userId size K moments q pages orders) (k : ℕ)
    (hk : k < K) : ((selectRows (userFilter userId) (q k).store.rows).map
      (latestFirst createdAt)).Subperm
        ((selectRows (userFilter userId) (q (k + 1)).store.rows).map (latestFirst createdAt)) := by
  obtain ⟨ids, hperm, hsublist⟩ := subperm_selectRows (userFilter userId)
    (h k (Nat.le_of_lt hk)).recorded.backed.kept.derived.ids (h.keeps (Nat.le_succ k) hk)
  refine ⟨ids.map fun id => OrderDual.toDual (createdAt id), ?_, ?_⟩
  · exact (hperm.map _).trans (by rw [List.map_map]; rfl)
  · exact (hsublist.map _).trans (by rw [List.map_map]; rfl)

lemma nodup_latestFirst (h : Slices createdAt platform rows userId size K moments q pages orders)
    (hdistinct : ∀ row ∈ (moments (K + 1)).store.rows, ∀ row' ∈ (moments (K + 1)).store.rows,
      createdAt row.id = createdAt row'.id → row.id = row'.id) :
    ((selectRows (userFilter userId) (q K).store.rows).map (latestFirst createdAt)).Nodup := by
  have hK := Nat.le_refl K
  have hselected := (h.nodup_id hK).of_map.sublist (selectRows_sublist (userFilter userId) _)
  refine hselected.map_on fun row hrow row' hrow' hkey => ?_
  have hmem := mem_of_mem_selectRows hrow
  have hmem' := mem_of_mem_selectRows hrow'
  exact List.inj_on_of_nodup_map (h.nodup_id hK) hmem hmem'
    (h.id_eq hdistinct hK hK hmem hmem' hkey)

/-- No order of the start is passed over; a page shows the version of the moment it is read. -/
lemma exists_on_page (h : Slices createdAt platform rows userId size K moments q pages orders)
    (hlast : (pages K).isLast = true)
    (hdistinct : ∀ row ∈ (moments (K + 1)).store.rows, ∀ row' ∈ (moments (K + 1)).store.rows,
      createdAt row.id = createdAt row'.id → row.id = row'.id) {row : Order}
    (hrow : row ∈ selectRows (userFilter userId) (moments 0).store.rows) :
    ∃ k ≤ K, ∃ row' ∈ (pages k).content, row.Alike row' := by
  have hzero := Nat.zero_le K
  obtain ⟨first, hfirst, halike⟩ := (h 0 hzero).before row (mem_of_mem_selectRows hrow)
  obtain ⟨k, hk, seen, hpage, hkey⟩ := exists_mem_page_of_growth (fun k hk => (h k hk).sort)
    h.growth (h.nodup_latestFirst hdistinct) ((h K (Nat.le_refl K)).last hlast)
    (mem_selectRows_of_alike hrow hfirst halike)
  have hmem : seen ∈ (q k).store.rows :=
    mem_of_mem_selectRows ((h k hk).sort.perm.subset (mem_of_mem_page hpage))
  have hid : seen.id = first.id := h.id_eq hdistinct hk hzero hmem hfirst hkey
  obtain ⟨version, hversion, halike'⟩ := h.keeps (Nat.zero_le k) hk first hfirst
  obtain rfl : version = seen := List.inj_on_of_nodup_map (h.nodup_id hk) hversion hmem
    (halike'.id_eq.symm.trans hid.symm)
  refine ⟨k, hk, version, ?_, halike.trans halike'⟩
  rw [(h k hk).content]
  exact hpage

end Slices

end

/-- **The history of orders is complete.** A client reads the pages of a user's orders, or of all,
one after the other, up to the one that says that it is the last. Other requests come in at any
time between the queries, and whatever fails, these reads do not. If no two orders have been created
at the same time, then every order that was committed when the client began is on one of the
pages, and so is every order that a request has been answered with by then, if its user, as the
column keeps it, is the one that the client asks for. -/
theorem order_history_complete {κ : Type} [LinearOrder κ] (platform : Platform)
    (createdAt : String → κ) (rows : List Order) (es : List (Event OrderRequest Fault))
    (userId : Option String) (size K : ℕ) (moments : ℕ → OrderPool) (pages : ℕ → OrderPage)
    (hfit : ∀ row ∈ rows, row.stored = some row) (hids : ∀ id, countRows rows id ≤ 1)
    (hrun : run (openStep platform) (orderPool platform rows []) es = some (moments 0))
    (hreads : ∀ k ≤ K, Reads createdAt platform (getOrders userId k size) (moments k)
      (200, some (pages k)) (moments (k + 1)))
    (hlast : (pages K).isLast = true)
    (hdistinct : ∀ row ∈ (moments (K + 1)).store.rows, ∀ row' ∈ (moments (K + 1)).store.rows,
      createdAt row.id = createdAt row'.id → row.id = row'.id) :
    (∀ row ∈ selectRows (userFilter userId) (moments 0).store.rows,
      ∃ k ≤ K, ∃ row' ∈ (pages k).content, row.Alike row') ∧
    ∀ t ∈ (moments 0).threads, ∀ status order, t.program = .done ⟨status, some order⟩ →
      (∀ user ∈ userFilter userId, requiredText order.userId = some user) →
        ∃ k ≤ K, ∃ row ∈ (pages k).content, row.id = order.id := by
  have hstart := (recorded_run hfit (recorded_init hids) hrun).1
  obtain ⟨q, orders, hslices⟩ := exists_slices hfit hstart hreads
  have hseen : ∀ row ∈ selectRows (userFilter userId) (moments 0).store.rows,
      ∃ k ≤ K, ∃ row' ∈ (pages k).content, row.Alike row' := fun row hrow =>
    hslices.exists_on_page hlast hdistinct hrow
  refine ⟨hseen, fun t ht status order hended huser => ?_⟩
  obtain ⟨row, hrow, hid, hrowUser⟩ := hstart.confirmed t ht status order hended
  obtain ⟨k, hk, row', hrow', halike⟩ := hseen row
    (mem_selectRows hrow fun user hu => hrowUser.trans (huser user hu))
  exact ⟨k, hk, row', hrow', halike.id_eq.symm.trans hid⟩

/-- A stored order of one pen. -/
def penRow (id : String) : Order where
  id := id
  userId := some "u1"
  productId := some "p1"
  quantity := 1
  totalPrice := some ⟨250, 2⟩
  shippingAddress := none
  email := none
  status := .pending
  items := []

lemma countRows_twoPens (id : String) : countRows [penRow "1", penRow "22"] id ≤ 1 := by
  by_cases hid : "22" = id
  · subst hid
    decide
  · simp only [countRows, penRow, List.countP_cons, List.countP_nil, if_neg, hid,
      decide_false, Bool.false_eq_true, not_false_eq_true]
    split <;> omega

/-- Two orders; and a third one is created. -/
def twoOrders : OrderPool := orderPool ⟨true, id⟩ [penRow "1", penRow "22"] []

def thirdOrder : List (Event OrderRequest Fault) :=
  .arrive (.create (sampleRequest ⟨250, 2⟩) "333") :: List.replicate 3 (.execute (0, .none))

lemma isSome_thirdOrder : (run (openStep ⟨true, id⟩) twoOrders thirdOrder).isSome = true := by
  decide

def threeOrders : OrderPool := final (openStep ⟨true, id⟩) twoOrders thirdOrder isSome_thirdOrder

/-- A full page, read where orders with longer ids are later. -/
lemma reads_of_sort {p q : OrderPool} {es : List (Event OrderRequest Fault)} {order : List Order}
    {page : ℕ} (hrun : run (openStep ⟨true, id⟩) p es = some q)
    (hsort : SortOf (latestFirst String.length) q.store.rows order)
    (hfull : (Pagination.page order page 1).length = 1) :
    Reads String.length ⟨true, id⟩ (getOrders none page 1) p
      (200, some ⟨Pagination.page order page 1, page, 1,
        correctedTotal (Pagination.page order page 1) page 1 q.store.rows.length⟩) q := by
  have hquery : Replies String.length q.store.rows (.findPage none page 1)
      (.ok (Pagination.page order page 1)) := .paged page 1 hsort
  refine .call hrun hquery ?_
  dsimp only
  rw [if_neg (by rw [hfull]; simp)]
  have hstay : run (openStep ⟨true, id⟩) q [] = some q := rfl
  exact .call hstay (.counted none) (.done _ _)

/-- The third order comes after the first page. -/
def moment (k : ℕ) : OrderPool := if k ≤ 1 then twoOrders else threeOrders

def penPage (k : ℕ) : OrderPage :=
  let rows := (moment (k + 1)).store.rows
  let content := Pagination.page rows.reverse k 1
  ⟨content, k, 1, correctedTotal content k 1 rows.length⟩

/-- The order that is pushed to the next page is seen twice, and none is passed over. -/
theorem order_history_complete_growing :
    (List.range 3).map (fun k => (penPage k).content.map Order.id) = [["22"], ["22"], ["1"]] ∧
      ∀ row ∈ twoOrders.store.rows, ∃ k ≤ 2, ∃ row' ∈ (penPage k).content, row.Alike row' := by
  have hruns : ∀ k ≤ 2, ∃ es, run (openStep ⟨true, id⟩) (moment k) es = some (moment (k + 1)) := by
    intro k hk
    rcases k with _ | _ | _ | k
    · exact ⟨[], rfl⟩
    · exact ⟨thirdOrder, run_final isSome_thirdOrder⟩
    · exact ⟨[], rfl⟩
    · omega
  have hsorted : ∀ k ≤ 2, (moment (k + 1)).store.rows.reverse.Pairwise fun a b =>
      latestFirst String.length a ≤ latestFirst String.length b := by
    decide
  have hfull : ∀ k ≤ 2, (Pagination.page (moment (k + 1)).store.rows.reverse k 1).length = 1 := by
    decide
  have hreads : ∀ k : ℕ, k ≤ 2 → Reads String.length ⟨true, id⟩ (getOrders none k 1) (moment k)
      (200, some (penPage k)) (moment (k + 1)) := by
    intro k hk
    obtain ⟨es, hrun⟩ := hruns k hk
    exact reads_of_sort hrun ⟨List.reverse_perm _, hsorted k hk⟩ (hfull k hk)
  refine ⟨by decide, ?_⟩
  exact (order_history_complete ⟨true, id⟩ String.length [penRow "1", penRow "22"] [] none 1 2
    moment penPage (by decide) countRows_twoPens rfl hreads (by decide) (by decide)).1

/-- An order that some request has been answered with is found from then on: `getOrderById` answers
with it, under its user as the column keeps it, whatever else goes on, unless its query fails. -/
theorem confirmed_order_found {κ : Type} [LinearOrder κ] (platform : Platform)
    (createdAt : String → κ) (rows : List Order) (es : List (Event OrderRequest Fault))
    (p p' : OrderPool) (t : OrderThread) (status : ℕ) (order : Order) (answer : Response)
    (hfit : ∀ row ∈ rows, row.stored = some row) (hids : ∀ id, countRows rows id ≤ 1)
    (hrun : run (openStep platform) (orderPool platform rows []) es = some p)
    (ht : t ∈ p.threads) (hended : t.program = .done ⟨status, some order⟩)
    (hreads : Reads createdAt platform (getOrderById order.id) p answer p') :
    answer = ⟨500, none⟩ ∨
      ∃ row, answer = ⟨200, some row⟩ ∧ row.id = order.id ∧
        row.userId = requiredText order.userId := by
  obtain ⟨hstart, -⟩ := recorded_run hfit (recorded_init hids) hrun
  obtain ⟨es', q, r, hrun', hreply, hrest⟩ := asks_call hreads
  obtain ⟨hq, hkeep⟩ := recorded_run hfit hstart hrun'
  obtain ⟨row, hrow, hid, huser⟩ := (hstart.confirmed t ht status order hended).mono hkeep
  cases hreply with
  | failed => exact .inl (asks_done hrest).1
  | found =>
    cases hfound : findRow q.store.rows order.id with
    | none =>
      have hnone := List.find?_eq_none.mp hfound row hrow
      exact absurd (decide_eq_true hid) hnone
    | some row' =>
      obtain ⟨hrow', hid'⟩ := findRow_eq_some hfound
      obtain rfl : row = row' := List.inj_on_of_nodup_map
        (nodup_id_of_countRows hq.backed.kept.derived.ids) hrow hrow' (hid.trans hid'.symm)
      rw [hfound] at hrest
      exact .inr ⟨row, (asks_done hrest).1, hid, huser⟩

/-- What the third request has been answered with. -/
def thirdSaved : Order := (newOrder (sampleRequest ⟨250, 2⟩) "333").get (by decide)

theorem confirmed_order_found_third :
    ∃ row, Reads String.length ⟨true, id⟩ (getOrderById "333") threeOrders ⟨200, some row⟩
        threeOrders ∧
      (Response.mk 200 (some row) = ⟨500, none⟩ ∨ ∃ row', Response.mk 200 (some row) =
        ⟨200, some row'⟩ ∧ row'.id = thirdSaved.id ∧
          row'.userId = requiredText thirdSaved.userId) := by
  have hanswers : threeOrders.threads.map (fun t => t.program.answer?) =
      [some ⟨201, some thirdSaved⟩] := by decide
  obtain ⟨t, ht, hanswer⟩ : ∃ t ∈ threeOrders.threads,
      t.program.answer? = some ⟨201, some thirdSaved⟩ :=
    List.mem_map.mp (hanswers ▸ List.mem_singleton_self _)
  obtain ⟨row, hfound⟩ : ∃ row, findRow threeOrders.store.rows "333" = some row :=
    Option.isSome_iff_exists.mp (by decide)
  have hreads : Reads String.length ⟨true, id⟩ (getOrderById "333") threeOrders ⟨200, some row⟩
      threeOrders := by
    have hstay : run (openStep ⟨true, id⟩) threeOrders [] = some threeOrders := rfl
    have hquery : Replies String.length threeOrders.store.rows (.findById "333")
        (.ok (findRow threeOrders.store.rows "333")) := .found "333"
    rw [hfound] at hquery
    exact .call hstay hquery (.done _ _)
  exact ⟨row, hreads, confirmed_order_found ⟨true, id⟩ String.length [penRow "1", penRow "22"]
    thirdOrder threeOrders threeOrders t 201 thirdSaved ⟨200, some row⟩ (by decide)
    countRows_twoPens (run_final isSome_thirdOrder) ht (Program.answer?_eq_some hanswer) hreads⟩

end DevopsEcommerce.OrderService
