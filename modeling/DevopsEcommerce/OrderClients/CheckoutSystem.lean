import DevopsEcommerce.CartService.SafeCheckout
import DevopsEcommerce.Interleaving.Arrivals
import DevopsEcommerce.OrderClients.CartCheckout
import DevopsEcommerce.OrderClients.MeshRetries
import DevopsEcommerce.OrderService.Provenance

/-!
# The cart service in front of the order service

Both services at once, with the mesh in between: checkouts post their orders, which become
transactions of the order service next to those of other clients. A post may be sent any number
of times, and be answered by any of its tries, by the framework, by the mesh or not at all.

A checkout posts no total price, and an order without one is never stored. So no checkout
succeeds and none clears its cart, and the database is as if there were none
(`checkouts_never_order`).
-/

open Interleaving Interleaving.Program

namespace DevopsEcommerce.OrderClients

open CartService OrderService

/-- The two services, and for each try of a checkout its number here and there. -/
structure CheckoutSystem where
  carts : CartPool
  orders : OrderPool
  tries : List (ℕ × ℕ)

inductive CheckoutEvent where
  /-- A request of the cart service executes a command of Redis. -/
  | redis (i : ℕ) (choice : Choice)
  /-- The order that a checkout posts reaches the order service, for the first time or again. -/
  | send (i : ℕ) (uuid : String)
  /-- A transaction of the order service executes its next command. -/
  | execute (j : ℕ) (fault : Fault)
  /-- A request of another client reaches the order service. -/
  | arrive (req : OrderRequest)
  /-- The answer to a try reaches its checkout. -/
  | receive (i j : ℕ) (body : Option String)
  /-- The framework, which cannot read the body, or the mesh answers with an error. -/
  | refuse (i statusCode : ℕ) (body : Option String)
  /-- There is no answer. -/
  | lose (i : ℕ)

namespace CheckoutSystem

def initial (carts : String → Cart) (requests : List CartRequest) (rows : List Order) :
    CheckoutSystem where
  carts := cartPool carts requests
  orders := ⟨OrderStore.initial rows, []⟩
  tries := []

/-- The order that a request of the cart service is posting. -/
def posting (s : CheckoutSystem) (i : ℕ) : Option CheckoutRequest :=
  s.carts.threads[i]?.bind fun t =>
    match t.program.next? with
    | some (.post order) => some order
    | _ => none

/-- The post of request `i` ends like this. -/
def respond (s : CheckoutSystem) (i : ℕ) (choice : Choice) : Option CheckoutSystem :=
  if (s.posting i).isSome then
    (cartStep s.carts (i, choice)).map fun carts => { s with carts := carts }
  else none

def step (jackson : Jackson) (platform : Platform) (s : CheckoutSystem) :
    CheckoutEvent → Option CheckoutSystem
  | .redis i choice =>
    if (s.posting i).isSome then none
    else (cartStep s.carts (i, choice)).map fun carts => { s with carts := carts }
  | .send i uuid =>
    (s.posting i).bind fun order =>
      (decodeBody jackson (checkoutBody order)).map fun request =>
        { s with
          orders := s.orders.arrive (OrderService.serve platform) (.create request uuid)
          tries := (i, s.orders.threads.length) :: s.tries }
  | .execute j fault =>
    (orderStep s.orders (j, fault)).map fun orders => { s with orders := orders }
  | .arrive req => some { s with orders := s.orders.arrive (OrderService.serve platform) req }
  | .receive i j body =>
    if (i, j) ∈ s.tries then
      (answerOf s.orders j).bind fun answer =>
        s.respond i ⟨.none, [], ⟨.none, answer.status, body⟩⟩
    else none
  | .refuse i statusCode body =>
    if 400 ≤ statusCode then s.respond i ⟨.none, [], ⟨.none, statusCode, body⟩⟩ else none
  | .lose i => s.respond i ⟨.before, [], ⟨.none, 0, none⟩⟩

end CheckoutSystem

/-! ## Orders without a price -/

section
variable {platform : Platform}

/-- A new order without a total price. -/
def Unpriced : OrderRequest → Prop
  | .create request _ => request.totalPrice = none
  | _ => False

/-- The transaction does not commit, and is not answered with success. -/
def Fails (q : OrderProgram) : Prop :=
  q.next? ≠ some .commit ∧ ∀ answer, q.answer? = some answer → 400 ≤ answer.status

lemma fails_done {answer : OrderService.Response} (h : 400 ≤ answer.status) :
    Fails (.done answer) := by
  refine ⟨by simp [Program.next?], fun answer' hanswer => ?_⟩
  obtain rfl := Option.some.inj hanswer
  exact h

lemma fails_call {c : OrderCommand} {k : OrderReply c → OrderProgram} (h : c ≠ .commit) :
    Fails (.call c k) :=
  ⟨fun hc => h (Option.some.inj hc), fun _ hanswer => absurd hanswer (by simp [Program.answer?])⟩

/-- The order of such a request is not stored. -/
lemma stored_of_unpriced {request : CreateOrderRequest} {uuid : String} {order : Order}
    (h : request.totalPrice = none) (hnew : newOrder request uuid = some order) :
    order.stored = none :=
  (Order.stored_of_totalPrice ((newOrder_totalPrice hnew).trans h)).2

lemma fails_serve (req : OrderRequest) (h : Unpriced req) :
    Fails (OrderService.serve platform req) := by
  cases req with
  | create request uuid =>
    show Fails (createOrder platform request uuid)
    unfold createOrder
    split
    · exact fails_done (by decide)
    · split
      · exact fails_done (by decide)
      · exact fails_call (by simp)
  | _ => exact h.elim

/-- It goes on failing: the flush is refused. -/
lemma fails_reply {req : OrderRequest} {trace : List (Σ c, OrderReply c)} {c : OrderCommand}
    {k : OrderReply c → OrderProgram} {r : OrderReply c} {store store' : OrderStore}
    {l : ℕ × Fault} (hreq : Unpriced req) (hstage : OrderStage platform req trace (.call c k))
    (h : Fails (.call c k)) (hexec : execOrder store l.1 c l.2 = some (store', r)) :
    Fails (k r) := by
  cases hstage with
  | finding hfinds => cases hfinds <;> exact hreq.elim
  | sending hjob hkey =>
    cases hjob with
    | create found hnew hrequired => exact fails_call (by simp)
    | _ => exact hreq.elim
  | flushing hjob htrace hwrite =>
    cases hjob with
    | @create request uuid order found hnew hrequired =>
      obtain rfl := Option.some.inj hwrite
      rcases r with e | _
      · exact fails_done (by decide)
      · -- a flush that succeeds has stored the order
        rcases execOrder_flush hexec with ⟨-, -, hr⟩ | ⟨haccepted, -⟩
        · exact absurd hr (by simp)
        · simp only [accepted, Bool.and_eq_true, Option.isSome_iff_exists] at haccepted
          obtain ⟨-, row, hrow⟩ := haccepted
          have hstored : order.stored = some row := Write.row_stored hrow
          exact absurd (hstored.symm.trans (stored_of_unpriced hreq hnew)) (by simp)
    | _ => exact hreq.elim
  | committing hjob htrace => exact absurd rfl h.1

/-- No row can be derived from such requests. -/
lemma stems_of_unpriced {rows : List Order} {asked asked' : OrderRequest → Prop}
    (hasked : ∀ req, asked' req → asked req ∨ Unpriced req) {row : Order}
    (h : Stems platform rows asked' row) : Stems platform rows asked row := by
  induction h with
  | given hrow => exact .given hrow
  | created hreq hnew hstored =>
    rcases hasked _ hreq with hreq | hunpriced
    · exact .created hreq hnew hstored
    · exact absurd (hstored.symm.trans (stored_of_unpriced hunpriced hnew)) (by simp)
  | cancelled h hreq hpending ih =>
    exact .cancelled ih ((hasked _ hreq).resolve_right id) hpending
  | updated h hreq hparse ih => exact .updated ih ((hasked _ hreq).resolve_right id) hparse

end

/-! ## Posts that are refused -/

/-- No post of the trace has been answered with success. -/
def Refused (trace : List (Σ c, CartReply c)) : Prop :=
  ∀ order response, ⟨.post order, .ok response⟩ ∈ trace → ¬ isSuccess response.statusCode

/-- The checkout has neither succeeded nor cleared the cart, and is not about to clear it. -/
structure LeavesCart (trace : List (Σ c, CartReply c)) (q : CartProgram) : Prop where
  uncleared : ∀ e ∈ trace, ∀ key, e.1 ≠ .del key
  next : ∀ key, q.next? ≠ some (.del key)
  answer : ∀ answer, q.answer? = some answer → ¬ isSuccess answer.code

lemma leavesCart_done {answer : CartService.Response} (h : ¬ isSuccess answer.code) :
    LeavesCart [] (.done answer) where
  uncleared e he := absurd he List.not_mem_nil
  next key := by simp [Program.next?]
  answer answer' hanswer := by
    obtain rfl := Option.some.inj hanswer
    exact h

lemma LeavesCart.append {trace : List (Σ c, CartReply c)} {q : CartProgram}
    (h : LeavesCart trace q) {e : Σ c, CartReply c} (he : ∀ key, e.1 ≠ .del key) :
    LeavesCart (trace ++ [e]) q where
  uncleared e' he' := by
    rcases List.mem_append.mp he' with he' | he'
    · exact h.uncleared e' he'
    · rw [List.mem_singleton.mp he']
      exact he
  next := h.next
  answer := h.answer

/-- Where a program may stand that has issued a command other than `DEL`. -/
lemma leavesCart_call {c : CartCommand} {k : CartReply c → CartProgram}
    {trace : List (Σ c, CartReply c)} {q : CartProgram} (h : Follows (.call c k) trace q)
    (hc : ∀ key, c ≠ .del key)
    (hrest : ∀ r trace', ⟨c, r⟩ ∈ trace → (∀ e ∈ trace', e ∈ trace) → Follows (k r) trace' q →
      LeavesCart trace' q) : LeavesCart trace q := by
  rcases follows_call h with ⟨rfl, rfl⟩ | ⟨r, trace', rfl, hfollows⟩
  · exact ⟨fun e he => absurd he List.not_mem_nil, fun key hkey => hc key (Option.some.inj hkey),
      fun _ hanswer => absurd hanswer (by simp [Program.answer?])⟩
  · have htrace' := hrest r trace' (List.mem_append_right _ List.mem_cons_self)
      (fun e he => List.mem_append_left _ he) hfollows
    exact htrace'.append hc

/-- A checkout whose posts are all refused leaves its cart alone. -/
lemma leavesCart_of_refused {path : String} {now : String → String}
    {trace : List (Σ c, CartReply c)} {q : CartProgram}
    (h : Follows (handleCheckout path now) trace q) (hrefused : Refused trace) :
    LeavesCart trace q := by
  have hdone : ∀ {answer : CartService.Response} {trace' : List (Σ c, CartReply c)},
      ¬ isSuccess answer.code → Follows (.done answer) trace' q → LeavesCart trace' q := by
    intro answer trace' hanswer hfollows
    obtain ⟨rfl, rfl⟩ := follows_done hfollows
    exact leavesCart_done hanswer
  unfold handleCheckout at h
  split at h
  · exact hdone (by decide) h
  · refine leavesCart_call h (by simp) fun listed trace₁ _ htrace₁ h₁ => ?_
    cases listed with
    | error e => exact hdone (by decide) h₁
    | ok items =>
      simp only [afterGetCart] at h₁
      split at h₁
      · exact hdone (by decide) h₁
      · refine leavesCart_call h₁ (by simp) fun posted trace₂ hposted _ h₂ => ?_
        cases posted with
        | error e => exact hdone (by decide) h₂
        | ok response =>
          have hstatus := hrefused _ response (htrace₁ _ hposted)
          simp only [afterPost] at h₂
          split at h₂
          · exact hdone (by decide) h₂
          · have hrange : response.statusCode < 200 ∨ 300 ≤ response.statusCode := by
              unfold isSuccess at hstatus
              omega
            rw [if_pos hrange] at h₂
            exact hdone hstatus h₂

/-! ## Runs of the two services -/

namespace CheckoutSystem

/-- No post has been accepted, since no try of a checkout can be. -/
structure NoneAccepted (platform : Platform) (rows : List Order) (asked : OrderRequest → Prop)
    (s : CheckoutSystem) : Prop where
  serves : s.carts.Serves CartService.serve
  refused : ∀ t ∈ s.carts.threads, Refused t.trace
  kept : Kept platform rows (fun req => asked req ∨ Unpriced req) s.orders
  fails : ∀ t ∈ s.orders.threads, Unpriced t.request → Fails t.program
  tries : ∀ e ∈ s.tries, ∃ t, s.orders.threads[e.2]? = some t ∧ Unpriced t.request

section
variable {jackson : Jackson} {platform : Platform} {rows : List Order}
  {asked : OrderRequest → Prop} {s s' : CheckoutSystem}

lemma posting_eq_some {i : ℕ} {t : CartThread} {order : CheckoutRequest}
    {k : CartReply (.post order) → CartProgram} (ht : s.carts.threads[i]? = some t)
    (hk : t.program = .call (.post order) k) : s.posting i = some order := by
  simp [posting, ht, hk, Program.next?]

/-- A command other than a post, or one that is not answered with success. -/
lemma NoneAccepted.cartStep (h : NoneAccepted platform rows asked s) {i : ℕ} {choice : Choice}
    {carts : CartPool} (hstep : cartStep s.carts (i, choice) = some carts)
    (hpost : s.posting i = none ∨ choice.fault ≠ .none ∨
      ¬ isSuccess choice.response.statusCode) :
    NoneAccepted platform rows asked { s with carts := carts } := by
  refine ⟨Pool.serves_preserved _ _ _ _ h.serves hstep, ?_, h.kept, h.fails, h.tries⟩
  obtain ⟨t, c, k, store, r, ht, hk, hexec, rfl⟩ := Pool.step_eq_some.mp hstep
  refine forall_mem_set i h.refused fun order response he => ?_
  rcases List.mem_cons.mp he with he | he
  · cases he
    rcases hpost with hnone | hfault | hstatus
    · rw [posting_eq_some ht hk] at hnone
      exact absurd hnone (by simp)
    · simp only [execCart] at hexec
      split at hexec
      · exact absurd ‹_› hfault
      · exact absurd (Prod.mk.inj (Option.some.inj hexec)).2 (by simp [cartError])
      · exact absurd (Prod.mk.inj (Option.some.inj hexec)).2 (by simp [cartError])
    · simp only [execCart] at hexec
      split at hexec
      · obtain ⟨reply, hreply, hpair⟩ := Option.map_eq_some_iff.mp hexec
        obtain rfl := Option.some.inj hreply
        obtain rfl := Except.ok.inj (Prod.mk.inj hpair).2
        exact hstatus
      · exact absurd (Prod.mk.inj (Option.some.inj hexec)).2 (by simp [cartError])
      · exact absurd (Prod.mk.inj (Option.some.inj hexec)).2 (by simp [cartError])
  · exact h.refused t (List.mem_of_getElem? ht) order response he

lemma NoneAccepted.respond (h : NoneAccepted platform rows asked s) {i : ℕ} {choice : Choice}
    (hstep : s.respond i choice = some s')
    (hpost : choice.fault ≠ .none ∨ ¬ isSuccess choice.response.statusCode) :
    NoneAccepted platform rows asked s' := by
  unfold CheckoutSystem.respond at hstep
  split at hstep
  · obtain ⟨carts, hcarts, rfl⟩ := Option.map_eq_some_iff.mp hstep
    exact h.cartStep hcarts (.inr hpost)
  · exact absurd hstep (by simp)

/-- A request reaches the order service. -/
lemma NoneAccepted.arrive (h : NoneAccepted platform rows asked s) {req : OrderRequest}
    (hreq : asked req ∨ Unpriced req) :
    NoneAccepted platform rows asked
      { s with orders := s.orders.arrive (OrderService.serve platform) req } where
  serves := h.serves
  refused := h.refused
  kept := h.kept.arrive hreq
  fails := Pool.forall_arrive h.fails (fails_serve req)
  tries e he := by
    obtain ⟨t, ht, hunpriced⟩ := h.tries e he
    exact ⟨t, Pool.getElem?_arrive ht, hunpriced⟩

lemma noneAccepted_step (hfit : ∀ row ∈ rows, row.stored = some row) {e : CheckoutEvent}
    (h : NoneAccepted platform rows asked s) (hasked : ∀ req, e = .arrive req → asked req)
    (hstep : step jackson platform s e = some s') : NoneAccepted platform rows asked s' := by
  cases e with
  | redis i choice =>
    simp only [step] at hstep
    split at hstep
    · exact absurd hstep (by simp)
    · rename_i hposting
      obtain ⟨carts, hcarts, rfl⟩ := Option.map_eq_some_iff.mp hstep
      exact h.cartStep hcarts (.inl (Option.not_isSome_iff_eq_none.mp hposting))
  | send i uuid =>
    obtain ⟨order, -, hstep⟩ := Option.bind_eq_some_iff.mp hstep
    obtain ⟨request, hrequest, rfl⟩ := Option.map_eq_some_iff.mp hstep
    have hunpriced : Unpriced (.create request uuid) := totalPrice_of_checkout hrequest
    have harrived := h.arrive (.inr hunpriced)
    refine ⟨harrived.serves, harrived.refused, harrived.kept, harrived.fails, fun e he => ?_⟩
    rcases List.mem_cons.mp he with rfl | he
    · exact ⟨_, Pool.getElem?_arrive_new s.orders _, hunpriced⟩
    · exact harrived.tries e he
  | execute j fault =>
    obtain ⟨orders, horders, rfl⟩ := Option.map_eq_some_iff.mp hstep
    refine ⟨h.serves, h.refused, (kept_step hfit h.kept horders).1, ?_, fun e he => ?_⟩
    · obtain ⟨t, c, k, store, r, ht, hk, hexec, rfl⟩ := Pool.step_eq_some.mp horders
      have hmem := List.mem_of_getElem? ht
      refine forall_mem_set j h.fails fun hunpriced => ?_
      have hstage := h.kept.stages t hmem
      have hfails := h.fails t hmem hunpriced
      rw [hk] at hstage hfails
      exact fails_reply hunpriced hstage hfails hexec
    · obtain ⟨t, ht, hunpriced⟩ := h.tries e he
      have hopen : Pool.openStep (OrderService.serve platform) execOrder s.orders
        (.execute (j, fault)) = some orders := horders
      obtain ⟨t', ht', hrequest, -⟩ := Pool.thread_openStep hopen ht
      exact ⟨t', ht', hrequest ▸ hunpriced⟩
  | arrive req =>
    obtain rfl := Option.some.inj hstep
    exact h.arrive (.inl (hasked req rfl))
  | receive i j body =>
    simp only [step] at hstep
    split at hstep
    · rename_i htry
      obtain ⟨answer, hanswer, hstep⟩ := Option.bind_eq_some_iff.mp hstep
      obtain ⟨t, ht, hunpriced⟩ := h.tries _ htry
      unfold answerOf at hanswer
      rw [ht, Option.bind_some] at hanswer
      have hstatus := (h.fails t (List.mem_of_getElem? ht) hunpriced).2 answer hanswer
      refine h.respond hstep (.inr ?_)
      show ¬ isSuccess answer.status
      unfold isSuccess
      omega
    · exact absurd hstep (by simp)
  | refuse i statusCode body =>
    simp only [step] at hstep
    split at hstep
    · refine h.respond hstep (.inr ?_)
      show ¬ isSuccess statusCode
      unfold isSuccess
      omega
    · exact absurd hstep (by simp)
  | lose i => exact h.respond hstep (.inl (by simp))

end

/-- **Checkouts never order.** Whatever carts, requests and rows there are, and however the two
services, the mesh, Redis, the database and the broker behave: no checkout is answered with
success, none clears its cart, and every row of the database can be derived from the first rows
and the requests of other clients, less the orders without a total price. -/
theorem checkouts_never_order (jackson : Jackson) (platform : Platform) (carts : String → Cart)
    (requests : List CartRequest) (rows : List Order) (es : List CheckoutEvent)
    (s : CheckoutSystem) (hfit : ∀ row ∈ rows, row.stored = some row)
    (hids : ∀ id, countRows rows id ≤ 1)
    (hrun : run (step jackson platform) (initial carts requests rows) es = some s) :
    (∀ t ∈ s.carts.threads, ∀ path now, t.request = .checkout path now →
      LeavesCart t.trace t.program) ∧
    ∀ row ∈ s.orders.store.rows,
      Stems platform rows (fun req => .arrive req ∈ es ∧ ¬ Unpriced req) row := by
  have hkept : Kept platform rows (fun req => .arrive req ∈ es ∨ Unpriced req)
      (orderPool platform rows []) := kept_init hids (by simp)
  have hinit : NoneAccepted platform rows (fun req => .arrive req ∈ es)
      (initial carts requests rows) :=
    { serves := Pool.serves_init _ _ _
      refused := by
        intro t ht order response he
        obtain ⟨req, -, rfl⟩ := List.mem_map.mp ht
        exact absurd he List.not_mem_nil
      kept := hkept
      fails := fun t ht => absurd ht List.not_mem_nil
      tries := fun e he => absurd he List.not_mem_nil }
  have hs : NoneAccepted platform rows (fun req => .arrive req ∈ es) s := by
    refine run_invariant_of_stepsMeet (C := fun _ e => ∀ req, e = .arrive req → .arrive req ∈ es)
      (fun _ _ _ h he hstep => noneAccepted_step hfit h he hstep) hinit ?_ hrun
    exact stepsMeet_of_forall (fun e he req heq => heq ▸ he) _
  refine ⟨fun t ht path now hrequest => ?_, fun row hrow => ?_⟩
  · have hfollows := hs.serves t ht
    rw [hrequest] at hfollows
    exact leavesCart_of_refused hfollows (hs.refused t ht)
  · refine stems_of_unpriced (fun req hreq => ?_) (hs.kept.derived.committed row hrow)
    by_cases hunpriced : Unpriced req
    · exact .inr hunpriced
    · exact .inl ⟨hreq.resolve_right hunpriced, hunpriced⟩

lemma isSome_five : (run (step plainJackson ⟨true, id⟩)
    (initial cartOfFive.carts [checkoutOfFive] [])
    [.redis 0 { healthy with order := [("p", cartItemToJSON ⟨"p", 5, "t"⟩)] }, .send 0 "o1",
      .receive 0 0 (some "{}")]).isSome = true := by
  decide +kernel

/-- A cart of five units is checked out; the order service answers 500. -/
theorem checkouts_never_order_five :
    ∃ s, run (step plainJackson ⟨true, id⟩)
        (initial cartOfFive.carts [checkoutOfFive] [])
        [.redis 0 { healthy with order := [("p", cartItemToJSON ⟨"p", 5, "t"⟩)] }, .send 0 "o1",
          .receive 0 0 (some "{}")] = some s ∧
      ∀ t ∈ s.carts.threads, ∀ path now, t.request = .checkout path now →
        LeavesCart t.trace t.program := by
  obtain ⟨s, hrun⟩ := Option.isSome_iff_exists.mp isSome_five
  exact ⟨s, hrun, (checkouts_never_order _ _ _ _ _ _ _ (by simp) (by simp [countRows]) hrun).1⟩

end CheckoutSystem

end DevopsEcommerce.OrderClients
