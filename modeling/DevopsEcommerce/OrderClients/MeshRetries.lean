import Mathlib.Algebra.Order.BigOperators.Group.List
import DevopsEcommerce.OrderService.Events

/-!
# One request, several tries

The mesh in front of the order service sends a `POST /api/orders` again when a try fails or
takes too long, up to three times. The service has no means to tell a second try from a second
order: each try is a `createOrder` of its own, with a new UUID, and one that the mesh has given
up may still commit. So a request stores an order for each try that commits
(`two_orders_stored`). What holds is that no try stores or publishes twice, that there are four
tries at most, and that all but the last have been given up (`orders_of_tries`).
-/

open Interleaving Numbers

namespace DevopsEcommerce.OrderClients

open OrderService

/-- `retries.attempts` -/
def attempts : ℕ := 3

/-- `retryOn`: `5xx`, and `retriable-4xx`, which is 409. -/
def retryOn (status : ℕ) : Bool := (500 ≤ status && status < 600) || status = 409

/-- One try of the request: the transaction that serves it, if the try has reached the service,
and whether the mesh has given it up. -/
structure Try where
  transaction : Option ℕ
  givenUp : Bool
deriving DecidableEq

/-- The order service with the tries of one request, latest first, and whether the mesh is done
with the request. -/
structure Mesh where
  orders : OrderPool
  tries : List Try
  answered : Bool

inductive MeshEvent where
  /-- The next try is sent; it may fail to reach the service. -/
  | send (reaches : Bool)
  /-- A transaction of the service executes its next command. -/
  | execute (transaction : ℕ) (fault : Fault)
  /-- The answer to the latest try reaches the mesh. -/
  | receive
  /-- `perTryTimeout`, a reset or a failed connection. -/
  | giveUp
  /-- The `timeout` of the route, or the client goes away. -/
  | timeout
deriving DecidableEq

/-- The answer of a transaction. -/
def answerOf (p : OrderPool) (i : ℕ) : Option Response :=
  p.threads[i]?.bind fun t => t.program.answer?

/-- The service with the next try, if this one reaches it: a `createOrder` with a new UUID. -/
def deliver (platform : Platform) (request : CreateOrderRequest) (uuid : ℕ → String)
    (p : OrderPool) (reaches : Bool) : OrderPool :=
  if reaches then p.arrive (serve platform) (.create request (uuid p.threads.length)) else p

def sendTry (platform : Platform) (request : CreateOrderRequest) (uuid : ℕ → String) (m : Mesh)
    (reaches : Bool) : Mesh where
  orders := deliver platform request uuid m.orders reaches
  tries := ⟨if reaches then some m.orders.threads.length else none, false⟩ :: m.tries
  answered := m.answered

/-- A try is sent while none is under way, the first one and up to `attempts` more. -/
def mayTry (m : Mesh) : Bool :=
  !m.answered && m.tries.all Try.givenUp && m.tries.length ≤ attempts

/-- An answer that asks for a retry gives the try up; any other one is the client's. -/
def receiveAnswer (m : Mesh) (latest : Try) (earlier : List Try) (answer : Response) : Mesh :=
  if retryOn answer.status then { m with tries := { latest with givenUp := true } :: earlier }
  else { m with answered := true }

def meshStep (platform : Platform) (request : CreateOrderRequest) (uuid : ℕ → String) (m : Mesh) :
    MeshEvent → Option Mesh
  | .send reaches =>
    if mayTry m then some (sendTry platform request uuid m reaches) else none
  | .execute transaction fault =>
    (orderStep m.orders (transaction, fault)).map fun orders => { m with orders := orders }
  | .receive =>
    match m.tries with
    | [] => none
    | latest :: earlier =>
      if latest.givenUp || m.answered then none
      else
        (latest.transaction.bind (answerOf m.orders)).map (receiveAnswer m latest earlier)
  | .giveUp =>
    match m.tries with
    | [] => none
    | latest :: earlier =>
      if latest.givenUp || m.answered then none
      else some { m with tries := { latest with givenUp := true } :: earlier }
  | .timeout => if m.answered then none else some { m with answered := true }

/-- Before the first try, with other requests that the service is going to serve as well. -/
def Mesh.initial (platform : Platform) (rows : List Order) (others : List OrderRequest) : Mesh where
  orders := orderPool platform rows others
  tries := []
  answered := false

/-! ## What a request leaves behind -/

/-- How many orders a try has stored. -/
def Mesh.storedBy (uuid : ℕ → String) (m : Mesh) (t : Try) : ℕ :=
  t.transaction.elim 0 fun i => countRows m.orders.store.rows (uuid i)

/-- How many events a try has published. -/
def Mesh.publishedBy (m : Mesh) (t : Try) : ℕ :=
  t.transaction.elim 0 fun i => countMessages m.orders.store i

/-- How many orders all tries of the request have stored. -/
def Mesh.stored (uuid : ℕ → String) (m : Mesh) : ℕ := (m.tries.map (m.storedBy uuid)).sum

/-- How many events all tries of the request have published. -/
def Mesh.published (m : Mesh) : ℕ := (m.tries.map m.publishedBy).sum

section
variable {platform : Platform} {request : CreateOrderRequest} {uuid : ℕ → String}

/-! ## What the service keeps -/

/-- No transaction of the service publishes twice, and no UUID of a try is the id of two
rows. -/
structure Sound (platform : Platform) (uuid : ℕ → String) (p : OrderPool) : Prop where
  stages : InStages platform p
  senders : Senders p
  publishOnce : PublishOnce p
  storeOnce : ∀ i, countRows p.store.rows (uuid i) ≤ 1

lemma sound_initial {rows : List Order} (hfresh : ∀ i, findRow rows (uuid i) = none)
    (others : List OrderRequest) : Sound platform uuid (orderPool platform rows others) where
  stages := inStages_init rows others
  senders := senders_init rows others
  publishOnce _ := Nat.zero_le 1
  storeOnce i := by
    show countRows rows (uuid i) ≤ 1
    have hzero : countRows rows (uuid i) = 0 := by
      unfold countRows
      rw [List.countP_eq_zero]
      exact List.find?_eq_none.mp (hfresh i)
    omega

lemma Sound.step {p p' : OrderPool} {l : ℕ × Fault} (h : Sound platform uuid p)
    (hstep : orderStep p l = some p') : Sound platform uuid p' where
  stages := inStages_preserved p l p' h.stages hstep
  senders := senders_preserved h.stages h.senders hstep
  publishOnce := publishOnce_preserved h.stages h.senders h.publishOnce hstep
  storeOnce i := by
    rcases orderStep_rows hstep with hrows | ⟨row, hrows⟩
    · rw [hrows]
      exact h.storeOnce i
    · rw [hrows]
      exact countRows_putRow_le_one row (h.storeOnce i)

lemma Sound.arrive {p : OrderPool} (h : Sound platform uuid p) (req : OrderRequest) :
    Sound platform uuid (p.arrive (serve platform) req) where
  stages := Pool.forall_arrive h.stages (orderStage_serve req)
  senders := h.senders.arrive req
  publishOnce := h.publishOnce
  storeOnce := h.storeOnce

lemma Sound.deliver {p : OrderPool} (h : Sound platform uuid p) (reaches : Bool) :
    Sound platform uuid (deliver platform request uuid p reaches) := by
  unfold OrderClients.deliver
  split
  · exact h.arrive _
  · exact h

/-! ## What the mesh keeps -/

/-- All tries but the latest have been given up, and there are not too many. -/
structure Tried (platform : Platform) (uuid : ℕ → String) (m : Mesh) : Prop where
  sound : Sound platform uuid m.orders
  earlier : ∀ t ∈ m.tries.tail, t.givenUp = true
  few : m.tries.length ≤ attempts + 1

/-- Marking the latest try keeps what is known. -/
lemma Tried.mark {m : Mesh} {latest : Try} {earlier : List Try} (h : Tried platform uuid m)
    (htries : m.tries = latest :: earlier) (t : Try) :
    Tried platform uuid { m with tries := t :: earlier } where
  sound := h.sound
  earlier := by
    have htail := h.earlier
    rw [htries] at htail
    exact htail
  few := by
    have hfew := h.few
    rw [htries] at hfew
    exact hfew

theorem tried_preserved :
    Preserved (meshStep platform request uuid) (Tried platform uuid) := by
  intro m e m' h hstep
  cases e with
  | send reaches =>
    simp only [meshStep, Option.ite_none_right_eq_some, Option.some.injEq] at hstep
    obtain ⟨hmay, rfl⟩ := hstep
    simp only [mayTry, Bool.and_eq_true, List.all_eq_true, decide_eq_true_eq] at hmay
    -- the mesh only tries again when it has given up all tries so far
    refine ⟨h.sound.deliver reaches, hmay.1.2, ?_⟩
    show m.tries.length + 1 ≤ attempts + 1
    have hlength := hmay.2
    omega
  | execute transaction fault =>
    simp only [meshStep, Option.map_eq_some_iff] at hstep
    obtain ⟨orders, horders, rfl⟩ := hstep
    exact ⟨h.sound.step horders, h.earlier, h.few⟩
  | receive =>
    simp only [meshStep] at hstep
    split at hstep
    · exact absurd hstep (by simp)
    · rename_i latest earlier htries
      split at hstep
      · exact absurd hstep (by simp)
      · obtain ⟨answer, -, rfl⟩ := Option.map_eq_some_iff.mp hstep
        -- an answer that may be retried marks its try as given up
        unfold receiveAnswer
        split
        · exact h.mark htries _
        · exact ⟨h.sound, h.earlier, h.few⟩
  | giveUp =>
    simp only [meshStep] at hstep
    split at hstep
    · exact absurd hstep (by simp)
    · rename_i latest earlier htries
      split at hstep
      · exact absurd hstep (by simp)
      · obtain rfl := Option.some.inj hstep
        exact h.mark htries _
  | timeout =>
    simp only [meshStep] at hstep
    split at hstep
    · exact absurd hstep (by simp)
    · obtain rfl := Option.some.inj hstep
      exact ⟨h.sound, h.earlier, h.few⟩

/-! ## Runs -/

lemma Sound.storedBy_le_one {m : Mesh} (h : Sound platform uuid m.orders) (t : Try) :
    m.storedBy uuid t ≤ 1 := by
  unfold Mesh.storedBy
  cases t.transaction with
  | none => exact Nat.zero_le 1
  | some i => exact h.storeOnce i

lemma Sound.publishedBy_le_one {m : Mesh} (h : Sound platform uuid m.orders) (t : Try) :
    m.publishedBy t ≤ 1 := by
  unfold Mesh.publishedBy
  cases t.transaction with
  | none => exact Nat.zero_le 1
  | some i => exact h.publishOnce i

/-- If the tries that have been given up count for nothing, only the latest one counts. -/
lemma sum_tries_le_one {tries : List Try} {count : Try → ℕ}
    (hearlier : ∀ t ∈ tries.tail, t.givenUp = true) (hone : ∀ t, count t ≤ 1)
    (hnone : ∀ t ∈ tries, t.givenUp = true → count t = 0) : (tries.map count).sum ≤ 1 := by
  cases tries with
  | nil => exact Nat.zero_le 1
  | cons latest earlier =>
    have hzero : (earlier.map count).sum = 0 := by
      apply List.sum_eq_zero
      intro n hn
      obtain ⟨t, ht, rfl⟩ := List.mem_map.mp hn
      exact hnone t (List.mem_cons_of_mem _ ht) (hearlier t ht)
    have hlatest := hone latest
    rw [List.map_cons, List.sum_cons]
    omega

lemma sum_tries_le_length {tries : List Try} {count : Try → ℕ} (hone : ∀ t, count t ≤ 1) :
    (tries.map count).sum ≤ tries.length := by
  have hsum := List.sum_le_card_nsmul (tries.map count) 1 fun n hn => by
    obtain ⟨t, -, rfl⟩ := List.mem_map.mp hn
    exact hone t
  rw [List.length_map, nsmul_eq_mul, mul_one, Nat.cast_id] at hsum
  exact hsum

/-- **At most one order and one event per try.** Whatever the timing of tries, commits, lost
answers and other requests: there are at most four tries, each stores at most one order and
publishes at most one event, and as long as no try that was given up has stored one (published
one), the request has stored (published) at most one. -/
theorem orders_of_tries {rows : List Order} {others : List OrderRequest} {es : List MeshEvent}
    {m : Mesh} (hfresh : ∀ i, findRow rows (uuid i) = none)
    (hrun : run (meshStep platform request uuid) (Mesh.initial platform rows others) es = some m) :
    m.tries.length ≤ attempts + 1 ∧
      (∀ t ∈ m.tries, m.storedBy uuid t ≤ 1 ∧ m.publishedBy t ≤ 1) ∧
      m.stored uuid ≤ m.tries.length ∧ m.published ≤ m.tries.length ∧
      ((∀ t ∈ m.tries, t.givenUp = true → m.storedBy uuid t = 0) → m.stored uuid ≤ 1) ∧
      ((∀ t ∈ m.tries, t.givenUp = true → m.publishedBy t = 0) → m.published ≤ 1) := by
  have hinitial : Tried platform uuid (Mesh.initial platform rows others) :=
    ⟨sound_initial hfresh others, fun t ht => absurd ht (by simp [Mesh.initial]),
      Nat.zero_le _⟩
  have htried : Tried platform uuid m := run_invariant tried_preserved hinitial hrun
  have hstored := htried.sound.storedBy_le_one
  have hpublished := htried.sound.publishedBy_le_one
  refine ⟨htried.few, fun t _ => ⟨hstored t, hpublished t⟩, sum_tries_le_length hstored,
    sum_tries_le_length hpublished, ?_, ?_⟩
  · exact sum_tries_le_one htried.earlier hstored
  · exact sum_tries_le_one htried.earlier hpublished

end

/-! ## A try that commits late -/

/-- UUIDs that differ. -/
def sampleUuid (i : ℕ) : String := String.ofList (List.replicate i 'o')

lemma sampleUuid_injective : Function.Injective sampleUuid := by
  intro i j h
  have hlist : List.replicate i 'o' = List.replicate j 'o' := by
    have htext := congrArg String.toList h
    unfold sampleUuid at htext
    rw [String.toList_ofList, String.toList_ofList] at htext
    exact htext
  have hlength := congrArg List.length hlist
  rw [List.length_replicate, List.length_replicate] at hlength
  exact hlength

/-- The first try publishes and sends its `INSERT` before it times out, and commits when the
second has been sent, which succeeds. -/
def lateCommit : List MeshEvent :=
  [.send true, .execute 0 .none, .execute 0 .none, .giveUp, .send true, .execute 0 .none,
    .execute 1 .none, .execute 1 .none, .execute 1 .none, .receive]

lemma isSome_lateCommit :
    (run (meshStep ⟨true, id⟩ (sampleRequest ⟨250, 2⟩) sampleUuid)
      (Mesh.initial ⟨true, id⟩ [] []) lateCommit).isSome = true := by
  decide +kernel

/-- The mesh in the end. -/
theorem orders_of_tries_late :
    (final _ _ _ isSome_lateCommit).tries.length ≤ attempts + 1 ∧
      (final _ _ _ isSome_lateCommit).stored sampleUuid ≤
        (final _ _ _ isSome_lateCommit).tries.length :=
  have h := orders_of_tries (fun _ => rfl) (run_final isSome_lateCommit)
  ⟨h.1, h.2.2.1⟩

/-- **Two orders for one request.** -/
theorem two_orders_stored :
    ¬ ∀ (platform : Platform) (request : CreateOrderRequest) (uuid : ℕ → String)
        (rows : List Order) (others : List OrderRequest) (es : List MeshEvent) (m : Mesh),
      Function.Injective uuid → (∀ i, findRow rows (uuid i) = none) →
      run (meshStep platform request uuid) (Mesh.initial platform rows others) es = some m →
      m.stored uuid ≤ 1 ∧ m.published ≤ 1 := by
  intro h
  have hone := h _ _ sampleUuid [] [] lateCommit _ sampleUuid_injective (fun _ => rfl)
    (run_final isSome_lateCommit)
  exact absurd hone.1 (by decide +kernel)

end DevopsEcommerce.OrderClients
