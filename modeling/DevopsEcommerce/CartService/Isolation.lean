import DevopsEcommerce.CartService.Conduct
import DevopsEcommerce.CartService.Representation
import DevopsEcommerce.Interleaving.Unwinding

/-!
# Users do not see each other

All carts are in one Redis, and all replicas of the service serve all users. What a user can
see is their cart, their orders and the answers to the requests about their cart. None of it
depends on what others have in their carts, on what they request, or on when their commands are
executed and fail (`cart_isolated`).
-/

open Interleaving

namespace DevopsEcommerce.CartService

/-- The request is about the cart of `user`. -/
def CartRequest.isAbout (user : String) (request : CartRequest) : Bool :=
  request.user? = some user

/-- The requests about the cart of `user`, under their numbers. -/
def requestsOf (user : String) (requests : List CartRequest) (i : ℕ) : Option CartRequest :=
  requests[i]?.filter (CartRequest.isAbout user)

/-- What `user` has part in. -/
def CartEvent.concerns (user : String) (requests : List CartRequest) : CartEvent → Bool
  | .command thread _ => (requestsOf user requests thread).isSome
  | .expiry key => key = cartKey user

structure View where
  cart : Cart
  orders : List CheckoutRequest
  threads : ℕ → Option CartThread

/-- What there is to see for `user`. -/
def viewOf (user : String) (p : CartPool) : View where
  cart := p.store.carts (cartKey user)
  orders := p.store.orders.filter fun order => order.userID = user
  threads := p.watched (CartRequest.isAbout user)

section
variable {user : String}

/-! ## Commands -/

/-- What a request orders, it orders for its own user. -/
lemma Allows.post_userID {request : CartRequest} {log : CartLog} {order : CheckoutRequest}
    (h : Allows request log (.post order)) : request.user? = some order.userID := by
  obtain ⟨user, huser, h⟩ := h
  split at h
  · exact absurd h.2 (by simp)
  · cases h with
    | checkoutPosts hlisted hne hcleared => exact huser

/-- What `user` sees of a store. -/
def SeenAlike (user : String) (s t : CartStore) : Prop :=
  s.carts (cartKey user) = t.carts (cartKey user) ∧
    s.orders.filter (fun order => order.userID = user) =
      t.orders.filter (fun order => order.userID = user)

lemma seenAlike_setCart {s t : CartStore} (h : SeenAlike user s t) (cart : Cart) :
    SeenAlike user (s.setCart (cartKey user) cart) (t.setCart (cartKey user) cart) := by
  refine ⟨?_, h.2⟩
  rw [carts_setCart, carts_setCart, if_pos rfl, if_pos rfl]

/-- A command on the user's cart or for the user has the same effect where the user sees the
same. -/
lemma seenAlike_cartEffect {s t : CartStore} (h : SeenAlike user s t) {c : CartCommand}
    (response : OrderResponse) (hkey : ∀ key, c.key? = some key → key = cartKey user) :
    SeenAlike user (cartEffect s response c) (cartEffect t response c) := by
  cases c with
  | hget key field | hgetall key | hlen key => exact h
  | hset key field value | expire key seconds | hdel key field | del key =>
    obtain rfl := hkey key rfl
    simp only [cartEffect, h.1]
    exact seenAlike_setCart h _
  | post order =>
    simp only [cartEffect]
    split
    · refine ⟨h.1, ?_⟩
      show (order :: s.orders).filter _ = (order :: t.orders).filter _
      rw [List.filter_cons, List.filter_cons, h.2]
    · exact h

/-- It has the same reply. -/
lemma cartReply_congr {s t : CartStore} (h : s.carts (cartKey user) = t.carts (cartKey user))
    {c : CartCommand} (choice : Choice) (hkey : ∀ key, c.key? = some key → key = cartKey user) :
    cartReply s choice c = cartReply t choice c := by
  cases c with
  | hget key field | hgetall key | hlen key =>
    obtain rfl := hkey key rfl
    simp only [cartReply, h]
  | hset key field value | expire key seconds | hdel key field | del key | post order => rfl

/-- The user's own commands. -/
lemma execCart_seenAlike {s t s' : CartStore} (h : SeenAlike user s t) {i : ℕ} {c : CartCommand}
    {choice : Choice} {r : CartReply c} (hkey : ∀ key, c.key? = some key → key = cartKey user)
    (hexec : execCart s i c choice = some (s', r)) :
    ∃ t', execCart t i c choice = some (t', r) ∧ SeenAlike user s' t' := by
  unfold execCart at hexec ⊢
  split at hexec
  · obtain ⟨r', hreply, heq⟩ := Option.map_eq_some_iff.mp hexec
    obtain ⟨rfl, rfl⟩ := Prod.mk.inj heq
    refine ⟨cartEffect t choice.response c, ?_, seenAlike_cartEffect h _ hkey⟩
    simp only [← cartReply_congr h.1 choice hkey, hreply, Option.map_some]
  · obtain ⟨rfl, rfl⟩ := Prod.mk.inj (Option.some.inj hexec)
    exact ⟨t, rfl, h⟩
  · obtain ⟨rfl, rfl⟩ := Prod.mk.inj (Option.some.inj hexec)
    exact ⟨_, rfl, seenAlike_cartEffect h _ hkey⟩

/-- The commands of others. -/
lemma seenAlike_execCart_of_other {s s' : CartStore} {request : CartRequest} {log : CartLog}
    {i : ℕ} {c : CartCommand} {choice : Choice} {r : CartReply c}
    (hallowed : Allows request log c) (hother : request.user? ≠ some user)
    (hexec : execCart s i c choice = some (s', r)) : SeenAlike user s' s := by
  have hkey : c.key? ≠ some (cartKey user) := by
    intro hkey
    obtain ⟨owner, howner, heq⟩ := hallowed.key hkey
    exact hother (cartKey_injective heq ▸ howner)
  refine ⟨carts_execCart_of_key hkey hexec, ?_⟩
  rcases execCart_store hexec with rfl | rfl
  · rfl
  · cases c with
    | post order =>
      have hne : order.userID ≠ user := fun heq => hother (heq ▸ hallowed.post_userID)
      simp only [cartEffect]
      split
      · exact List.filter_cons_of_neg (by simp [hne])
      · rfl
    | hget key field | hgetall key | hlen key | hset key field value | expire key seconds
    | hdel key field | del key => rfl

/-! ## Steps -/

/-- Two pools with handlers of the service that look the same to `user`, who has the requests
with the numbers in `numbers`. -/
def LooksAlike (user : String) (numbers : ℕ → Bool) (p q : CartPool) : Prop :=
  p.Serves serve ∧ q.Serves serve ∧
    (∀ i, (p.watched (CartRequest.isAbout user) i).isSome = numbers i) ∧
    viewOf user p = viewOf user q

variable {numbers : ℕ → Bool}

lemma LooksAlike.symm {p q : CartPool} (h : LooksAlike user numbers p q) :
    LooksAlike user numbers q p := by
  obtain ⟨hp, hq, hnumbers, hview⟩ := h
  have hthreads : p.watched (CartRequest.isAbout user) = q.watched (CartRequest.isAbout user) :=
    congrArg View.threads hview
  exact ⟨hq, hp, fun i => hthreads ▸ hnumbers i, hview.symm⟩

lemma LooksAlike.trans {p q r : CartPool} (hpq : LooksAlike user numbers p q)
    (hqr : LooksAlike user numbers q r) : LooksAlike user numbers p r :=
  ⟨hpq.1, hqr.2.1, hpq.2.2.1, hpq.2.2.2.trans hqr.2.2.2⟩

lemma seenAlike_of_viewOf {p q : CartPool} (h : viewOf user p = viewOf user q) :
    SeenAlike user p.store q.store :=
  ⟨congrArg View.cart h, congrArg View.orders h⟩

lemma viewOf_eq {p q : CartPool} (hstore : SeenAlike user p.store q.store)
    (hthreads : p.watched (CartRequest.isAbout user) = q.watched (CartRequest.isAbout user)) :
    viewOf user p = viewOf user q := by
  simp only [viewOf, View.mk.injEq]
  exact ⟨hstore.1, hstore.2, hthreads⟩

/-- `concerns`, for the numbers of the user's requests. -/
def concernsNumbers (user : String) (numbers : ℕ → Bool) : CartEvent → Bool
  | .command thread _ => numbers thread
  | .expiry key => key = cartKey user

lemma cartEvent_consistent :
    Consistent cartEvent (LooksAlike user numbers) (concernsNumbers user numbers) := by
  rintro p q e p' ⟨hp, hq, hnumbers, hview⟩ he hstep
  cases e with
  | command thread choice =>
    obtain ⟨t, ht⟩ := Option.isSome_iff_exists.mp ((hnumbers thread).trans he)
    obtain ⟨hthread, hmine⟩ := Pool.watched_eq_some.mp ht
    obtain ⟨c, k, s, r, hk, hexec, hs, hfollow⟩ :=
      Pool.watched_step hstep (congrArg View.threads hview) ht
    -- the request is the user's, so is its command
    have hkey : ∀ key, c.key? = some key → key = cartKey user := by
      intro key hkey
      have hconducts := conducts_of_serves hp (List.mem_of_getElem? hthread)
      rw [hk] at hconducts
      obtain ⟨owner, howner, rfl⟩ := hconducts.allowed_of_call.key hkey
      rw [Option.some.inj (howner.symm.trans (of_decide_eq_true hmine))]
    obtain ⟨s', hexec', hseen⟩ := execCart_seenAlike (seenAlike_of_viewOf hview) hkey hexec
    obtain ⟨q', hstep', rfl, hthreads⟩ := hfollow s' hexec'
    refine ⟨q', hstep', Pool.serves_preserved serve p _ p' hp hstep,
      Pool.serves_preserved serve q _ q' hq hstep', fun i => ?_, viewOf_eq (hs ▸ hseen) hthreads⟩
    rw [Pool.isSome_watched_step i hstep]
    exact hnumbers i
  | expiry key =>
    obtain rfl := of_decide_eq_true he
    obtain rfl := Option.some.inj hstep
    refine ⟨_, rfl, hp, hq, hnumbers, viewOf_eq ?_ (congrArg View.threads hview)⟩
    exact seenAlike_setCart (seenAlike_of_viewOf hview) _

lemma cartEvent_hides :
    Hides cartEvent (LooksAlike user numbers) (concernsNumbers user numbers) := by
  rintro p q e p' ⟨hp, hq, hnumbers, hview⟩ he hstep
  cases e with
  | command thread choice =>
    have hnone : p.watched (CartRequest.isAbout user) thread = none := by
      rw [← Option.not_isSome_iff_eq_none, hnumbers thread]
      exact ne_true_of_eq_false he
    have hthreads := Pool.watched_hidden hstep hnone
    have hserves := Pool.serves_preserved serve p _ p' hp hstep
    obtain ⟨t, c, k, s, r, ht, hk, hallowed, hexec, rfl⟩ := cartStep_cases hp hstep
    have hother : t.request.user? ≠ some user := by
      intro hmine
      rw [Pool.watched_eq_some.mpr ⟨ht, decide_eq_true hmine⟩] at hnone
      exact absurd hnone (by simp)
    refine ⟨hserves, hq, fun i => ?_, (viewOf_eq ?_ hthreads).trans hview⟩
    · rw [hthreads]
      exact hnumbers i
    · exact seenAlike_execCart_of_other hallowed hother hexec
  | expiry key =>
    have hkey : key ≠ cartKey user := of_decide_eq_false he
    obtain rfl := Option.some.inj hstep
    have hseen : SeenAlike user (p.store.setCart key .missing) p.store :=
      ⟨(carts_setCart _ _ _ _).trans (if_neg hkey), rfl⟩
    exact ⟨hp, hq, hnumbers, Eq.trans (viewOf_eq hseen rfl) hview⟩

/-! ## Runs -/

/-- The threads of a pool at the start are watched where their requests are the user's. -/
lemma watched_cartPool (carts : String → Cart) (requests : List CartRequest) (i : ℕ) :
    (cartPool carts requests).watched (CartRequest.isAbout user) i =
      (requestsOf user requests i).map fun request => ⟨request, [], serve request⟩ := by
  unfold Pool.watched requestsOf
  show ((requests.map _)[i]?).filter _ = _
  rw [List.getElem?_map]
  cases requests[i]? with
  | none => rfl
  | some request =>
    rw [Option.map_some, Option.filter_some, Option.filter_some]
    cases request.isAbout user <;> rfl

lemma concerns_eq (requests : List CartRequest) :
    CartEvent.concerns user requests =
      concernsNumbers user fun i => (requestsOf user requests i).isSome := by
  funext e
  cases e <;> rfl

lemma looksAlike_cartPool {carts carts' : String → Cart} {requests requests' : List CartRequest}
    (hcart : carts (cartKey user) = carts' (cartKey user))
    (hrequests : requestsOf user requests = requestsOf user requests') :
    LooksAlike user (fun i => (requestsOf user requests i).isSome) (cartPool carts requests)
      (cartPool carts' requests') := by
  refine ⟨Pool.serves_init serve _ _, Pool.serves_init serve _ _, fun i => ?_, ?_⟩
  · rw [watched_cartPool, Option.isSome_map]
  · refine viewOf_eq ⟨hcart, rfl⟩ (funext fun i => ?_)
    rw [watched_cartPool, watched_cartPool, hrequests]

/-- Take two starts with the same cart of the user and the same requests about it, whatever the
other carts and the other requests are. After a run from the one, the user's own part of it can be
run from the other, and every run from there in which the user has the same part ends with the
same cart, the same orders and the same answers for the user. -/
theorem cart_isolated {carts carts' : String → Cart} {requests requests' : List CartRequest}
    {es : List CartEvent} {p : CartPool} (hcart : carts (cartKey user) = carts' (cartKey user))
    (hrequests : requestsOf user requests = requestsOf user requests')
    (hrun : run cartEvent (cartPool carts requests) es = some p) :
    (∃ q, run cartEvent (cartPool carts' requests')
        (es.filter (CartEvent.concerns user requests)) = some q ∧
      viewOf user p = viewOf user q) ∧
    ∀ fs q, run cartEvent (cartPool carts' requests') fs = some q →
      es.filter (CartEvent.concerns user requests) =
        fs.filter (CartEvent.concerns user requests') → viewOf user p = viewOf user q := by
  have hstart := looksAlike_cartPool hcart hrequests
  have hconcerns : CartEvent.concerns user requests' = CartEvent.concerns user requests := by
    rw [concerns_eq, concerns_eq, hrequests]
  rw [hconcerns, concerns_eq]
  constructor
  · obtain ⟨q, hq, hlooks⟩ :=
      run_filter_visible cartEvent_consistent cartEvent_hides hstart hrun
    exact ⟨q, hq, hlooks.2.2.2⟩
  · intro fs q hq hfilter
    have hlooks := same_of_filter_eq cartEvent_consistent cartEvent_hides
      (fun _ _ h => h.symm) (fun _ _ _ h h' => h.trans h') hstart hrun hq hfilter
    exact hlooks.2.2.2

end

/-! ## Two users add an item at the same time -/

def addForU : CartRequest := .addItem (some ⟨"u", "p", 5⟩) "t"

def addForV : CartRequest := .addItem (some ⟨"v", "p", 7⟩) "t"

/-- The commands of the two requests, one after the other; the other user's `HSET` fails. -/
def alternating : List CartEvent :=
  [.command 0 healthy, .command 1 healthy, .command 0 healthy,
    .command 1 ⟨.before, [], ⟨.none, 201, none⟩⟩, .expiry "cart:v", .command 0 healthy]

lemma isSome_alternating :
    (run cartEvent (cartPool noCarts [addForU, addForV]) alternating).isSome = true := by
  decide +kernel

theorem cart_isolated_alternating :
    ∃ q, run cartEvent (cartPool noCarts [addForU])
        (alternating.filter (CartEvent.concerns "u" [addForU, addForV])) = some q ∧
      viewOf "u" (final cartEvent _ _ isSome_alternating) = viewOf "u" q :=
  (cart_isolated rfl (by
    funext i
    match i with
    | 0 => rfl
    | 1 => simp [requestsOf, addForV, CartRequest.isAbout, CartRequest.user?]
    | i + 2 => rfl) (run_final isSome_alternating)).1

end DevopsEcommerce.CartService
