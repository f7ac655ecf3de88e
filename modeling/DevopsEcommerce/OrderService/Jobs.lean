import DevopsEcommerce.OrderService.Service

/-!
# What a request does once it has its order

The three transactional methods end alike: publish an event, flush a statement, commit. A
`Job` says with which values, and `JobOf` when a request gets to that point. `OrderStage`
lists where a request can stand between its commands; `stages_preserved` says that it
always stands at one of these places.
-/

open Interleaving Numbers

namespace DevopsEcommerce.OrderService

/-- The order as saved, the key it is published under, the statement of the flush and the
answer after the commit. -/
structure Job where
  saved : Order
  routingKey : Option String
  write : Option Write
  answer : Response

def Job.program (job : Job) : OrderProgram :=
  match job.routingKey with
  | some routingKey => publishOrderEvent job.saved routingKey (flushThen job.write job.answer)
  | none => flushThen job.write job.answer

def createJob (order : Order) : Job where
  saved := order
  routingKey := some routingKeyCreated
  write := some (.insert order)
  answer := ⟨201, some order⟩

def cancelJob (order : Order) : Job where
  saved := order.withStatus .cancelled
  routingKey := some routingKeyCancelled
  write := some (.update (order.withStatus .cancelled))
  answer := ⟨200, some (order.withStatus .cancelled)⟩

def updateJob (order : Order) (status : OrderStatus) : Job where
  saved := order.withStatus status
  routingKey := resolveRoutingKey status
  write := statusUpdate order status
  answer := ⟨200, some (order.withStatus status)⟩

/-- The order a request is about. -/
def OrderRequest.orderId : OrderRequest → String
  | .create _ uuid => uuid
  | .cancel id => id
  | .updateStatus id _ => id

/-- The request, having found a certain row or none, goes on with the job. -/
inductive JobOf (platform : Platform) : OrderRequest → Option Order → Job → Prop
  | create {request : CreateOrderRequest} {uuid : String} {order : Order} (found : Option Order)
      (hnew : newOrder request uuid = some order)
      (hrequired : (platform.checkNullability && !order.hasRequired) = false) :
      JobOf platform (.create request uuid) found (createJob order)
  | cancel {id : String} {order : Order} (hid : order.id = id)
      (hpending : order.status = .pending) :
      JobOf platform (.cancel id) (some order) (cancelJob order)
  | update {id : String} {statusValue : Option String} {order : Order} {status : OrderStatus}
      (hid : order.id = id) (hparse : parseStatus platform statusValue = some status) :
      JobOf platform (.updateStatus id statusValue) (some order) (updateJob order status)

section
variable {platform : Platform}

/-- A job saves the order of its request. -/
lemma JobOf.saved_id {req : OrderRequest} {found : Option Order} {job : Job}
    (h : JobOf platform req found job) : job.saved.id = req.orderId := by
  cases h with
  | create found hnew hrequired => exact (newOrder_eq hnew).1
  | cancel hid hpending => exact hid
  | update hid hparse => exact hid

/-- What a job writes is what it saves. -/
lemma JobOf.write_order {req : OrderRequest} {found : Option Order} {job : Job} {write : Write}
    (h : JobOf platform req found job) (hwrite : job.write = some write) :
    write.order = job.saved := by
  cases h with
  | create found hnew hrequired =>
    obtain rfl := Option.some.inj hwrite
    rfl
  | cancel hid hpending =>
    obtain rfl := Option.some.inj hwrite
    rfl
  | @update id statusValue order status hid hparse =>
    have hupdate : statusUpdate order status = some write := hwrite
    unfold statusUpdate at hupdate
    split at hupdate
    · exact absurd hupdate (by simp)
    · obtain rfl := Option.some.inj hupdate
      rfl

/-! ## What the methods decide -/

/-- The program `q` is what is left once the order of a request has been looked up: its
job, or an error answer if the request has none. -/
def Decides (platform : Platform) (req : OrderRequest) (found : Option Order)
    (q : OrderProgram) : Prop :=
  (∃ job, JobOf platform req found job ∧ q = job.program) ∨
  (∃ answer, 400 ≤ answer.status ∧ q = .done answer) ∧ ∀ job, ¬ JobOf platform req found job

lemma createOrder_decides (request : CreateOrderRequest) (uuid : String) (found : Option Order) :
    Decides platform (.create request uuid) found (createOrder platform request uuid) := by
  unfold createOrder
  cases hnew : newOrder request uuid with
  | none =>
    refine .inr ⟨⟨_, by decide, rfl⟩, fun job hjob => ?_⟩
    cases hjob with
    | create found hnew' => exact absurd (hnew.symm.trans hnew') (by simp)
  | some order =>
    cases hrequired : platform.checkNullability && !order.hasRequired with
    | true =>
      refine .inr ⟨⟨⟨500, none⟩, by decide, by simp only [hrequired, if_true]⟩, ?_⟩
      intro job hjob
      cases hjob with
      | create found hnew' hrequired' =>
        obtain rfl := Option.some.inj (hnew.symm.trans hnew')
        exact absurd (hrequired.symm.trans hrequired') (by simp)
    | false =>
      refine .inl ⟨createJob order, .create found hnew hrequired, ?_⟩
      simp only [hrequired, Bool.false_eq_true, if_false]
      rfl

lemma cancelFound_decides {id : String} {found : Option Order}
    (hid : ∀ order ∈ found, order.id = id) :
    Decides platform (.cancel id) found (cancelFound (.ok found)) := by
  cases found with
  | none => exact .inr ⟨⟨_, by decide, rfl⟩, fun job hjob => by cases hjob⟩
  | some order =>
    unfold cancelFound
    by_cases hpending : order.status = .pending
    · refine .inl ⟨cancelJob order, .cancel (hid order rfl) hpending, ?_⟩
      simp only [hpending, ne_eq, not_true_eq_false, if_false]
      rfl
    · refine .inr ⟨⟨_, by decide, if_pos hpending⟩, fun job hjob => ?_⟩
      cases hjob with
      | cancel _ hpending' => exact hpending hpending'

lemma updateFound_decides {id : String} {statusValue : Option String} {status : OrderStatus}
    {found : Option Order} (hid : ∀ order ∈ found, order.id = id)
    (hparse : parseStatus platform statusValue = some status) :
    Decides platform (.updateStatus id statusValue) found (updateFound status (.ok found)) := by
  cases found with
  | none => exact .inr ⟨⟨_, by decide, rfl⟩, fun job hjob => by cases hjob⟩
  | some order => exact .inl ⟨updateJob order status, .update (hid order rfl) hparse, rfl⟩

/-! ## Stages -/

/-- The trace of a request at the start of its job. -/
def foundTrace : OrderRequest → Option Order → List (Σ c, OrderReply c)
  | .create _ _, _ => []
  | .cancel id, found => [⟨.findById id, .ok found⟩]
  | .updateStatus id _, found => [⟨.findById id, .ok found⟩]

/-- The transaction has handed a message to the broker, with whatever result. -/
def hasSent (trace : List (Σ c, OrderReply c)) : Bool :=
  trace.any fun
    | ⟨.convertAndSend _ _, _⟩ => true
    | _ => false

/-- Nothing is published before the job. -/
lemma hasSent_foundTrace (req : OrderRequest) (found : Option Order) :
    hasSent (foundTrace req found) = false := by
  cases req <;> rfl

/-- The `findById` of a request and what follows it. -/
inductive Finds (platform : Platform) :
    OrderRequest → String → (Except ExternalError (Option Order) → OrderProgram) → Prop
  | cancel (id : String) : Finds platform (.cancel id) id cancelFound
  | update {id : String} {statusValue : Option String} {status : OrderStatus}
      (hparse : parseStatus platform statusValue = some status) :
      Finds platform (.updateStatus id statusValue) id (updateFound status)

/-- The stages of a request. -/
inductive OrderStage (platform : Platform) :
    OrderRequest → List (Σ c, OrderReply c) → OrderProgram → Prop
  | refused {req : OrderRequest} {trace : List (Σ c, OrderReply c)} {answer : Response}
      (hstatus : 400 ≤ answer.status) :
      OrderStage platform req trace (.done answer)
  | finding {req : OrderRequest} {id : String}
      {k : Except ExternalError (Option Order) → OrderProgram} (h : Finds platform req id k) :
      OrderStage platform req [] (.call (.findById id) k)
  | sending {req : OrderRequest} {found : Option Order} {job : Job} {routingKey : String}
      (hjob : JobOf platform req found job) (hkey : job.routingKey = some routingKey) :
      OrderStage platform req (foundTrace req found)
        (publishOrderEvent job.saved routingKey (flushThen job.write job.answer))
  | flushing {req : OrderRequest} {found : Option Order} {job : Job} {write : Write}
      {trace : List (Σ c, OrderReply c)} (hjob : JobOf platform req found job)
      (htrace : foundTrace req found <:+ trace) (hwrite : job.write = some write) :
      OrderStage platform req trace (flushThen (some write) job.answer)
  | committing {req : OrderRequest} {found : Option Order} {job : Job}
      {trace : List (Σ c, OrderReply c)} (hjob : JobOf platform req found job)
      (htrace : foundTrace req found <:+ trace) :
      OrderStage platform req trace (commitThen job.answer)
  | ended {req : OrderRequest} {found : Option Order} {job : Job}
      {trace : List (Σ c, OrderReply c)} (hjob : JobOf platform req found job)
      (htrace : foundTrace req found <:+ trace) :
      OrderStage platform req trace (.done job.answer)

/-- The end of a job is one of two stages. -/
lemma orderStage_flushThen {req : OrderRequest} {found : Option Order} {job : Job}
    {trace : List (Σ c, OrderReply c)} (hjob : JobOf platform req found job)
    (htrace : foundTrace req found <:+ trace) :
    OrderStage platform req trace (flushThen job.write job.answer) := by
  cases hwrite : job.write with
  | none => exact .committing hjob htrace
  | some write => exact .flushing hjob htrace hwrite

lemma orderStage_program {req : OrderRequest} {found : Option Order} {job : Job}
    (hjob : JobOf platform req found job) :
    OrderStage platform req (foundTrace req found) job.program := by
  unfold Job.program
  cases hkey : job.routingKey with
  | none => exact orderStage_flushThen hjob (List.suffix_refl _)
  | some routingKey => exact .sending hjob hkey

lemma orderStage_of_decides {req : OrderRequest} {found : Option Order} {q : OrderProgram}
    (h : Decides platform req found q) : OrderStage platform req (foundTrace req found) q := by
  rcases h with ⟨job, hjob, rfl⟩ | ⟨⟨answer, hstatus, rfl⟩, -⟩
  · exact orderStage_program hjob
  · exact .refused hstatus

lemma orderStage_serve (req : OrderRequest) : OrderStage platform req [] (serve platform req) := by
  cases req with
  | create request uuid => exact orderStage_of_decides (createOrder_decides request uuid none)
  | cancel id => exact .finding (.cancel id)
  | updateStatus id statusValue =>
    show OrderStage platform _ [] (updateOrderStatus platform id statusValue)
    unfold updateOrderStatus
    cases hparse : parseStatus platform statusValue with
    | none => exact .refused (by decide)
    | some status => exact .finding (.update hparse)

/-- What `findById` finds has the id asked for. -/
lemma orderStage_found {req : OrderRequest} {id : String}
    {k : Except ExternalError (Option Order) → OrderProgram} (h : Finds platform req id k)
    {r : Except ExternalError (Option Order)} (hr : ∀ order, r = .ok (some order) → order.id = id) :
    OrderStage platform req [⟨.findById id, r⟩] (k r) := by
  cases r with
  | error e => cases h <;> exact .refused (by decide)
  | ok found =>
    have hid : ∀ order ∈ found, order.id = id := by
      rintro order rfl
      exact hr order rfl
    cases h with
    | cancel id => exact orderStage_of_decides (cancelFound_decides hid)
    | update hparse => exact orderStage_of_decides (updateFound_decides hid hparse)

/-- A reply takes a request to its next stage. -/
lemma orderStage_reply {req : OrderRequest} {trace : List (Σ c, OrderReply c)}
    {c : OrderCommand} {k : OrderReply c → OrderProgram} {r : OrderReply c}
    {store store' : OrderStore} {l : ℕ × Fault} (h : OrderStage platform req trace (.call c k))
    (hexec : execOrder store l.1 c l.2 = some (store', r)) :
    OrderStage platform req (⟨c, r⟩ :: trace) (k r) := by
  cases h with
  | finding h =>
    refine orderStage_found h fun order hr => ?_
    obtain ⟨-, rfl⟩ := Prod.mk.inj (Option.some.inj hexec)
    split at hr
    · exact (findRow_eq_some (Except.ok.inj hr)).2
    · exact absurd hr (by simp)
  | sending hjob hkey =>
    exact orderStage_flushThen hjob (List.suffix_cons _ _)
  | flushing hjob htrace hwrite =>
    rcases r with e | _
    · exact .refused (by decide)
    · exact .committing hjob (htrace.trans (List.suffix_cons _ _))
  | committing hjob htrace =>
    rcases r with e | _
    · exact .refused (by decide)
    · exact .ended hjob (htrace.trans (List.suffix_cons _ _))

/-- Every request of the pool is at one of its stages. -/
def InStages (platform : Platform) (p : OrderPool) : Prop :=
  ∀ t ∈ p.threads, OrderStage platform t.request t.trace t.program

lemma inStages_init (rows : List Order) (requests : List OrderRequest) :
    InStages platform (orderPool platform rows requests) := by
  intro t ht
  obtain ⟨req, -, rfl⟩ := List.mem_map.mp ht
  exact orderStage_serve req

theorem inStages_preserved : Preserved orderStep (InStages platform) :=
  Pool.forall_threads_preserved fun _ _ _ _ _ _ _ hstage hk hexec =>
    orderStage_reply (hk ▸ hstage) hexec

end

end DevopsEcommerce.OrderService
