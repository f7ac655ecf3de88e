import DevopsEcommerce.CartService.Conduct
import DevopsEcommerce.CartService.Representation
import DevopsEcommerce.CartService.Shopping

/-!
# Which checkouts lose a cart

A checkout that nobody disturbs on its cart leaves it alone if it is answered with an error, and
clears it when its request to the order service has ended in success. The client follows redirects,
some of which turn the request into a `GET`, and the handler takes the success of that for an
accepted order. `checkout_keeps_cart_iff` says that a cart is lost exactly so, and
`cart_lost_to_redirect` is such a run.
-/

open Interleaving

namespace DevopsEcommerce.CartService

/-! ## The log of a checkout -/

/-- The cart of `user` is as in `s`, or has expired, which only happens if `E`. -/
def CartKept (s : CartStore) (user : String) (E : Prop) (store : CartStore) : Prop :=
  store.carts (cartKey user) = s.carts (cartKey user) ∨
    E ∧ store.carts (cartKey user) = .missing

/-- What the log of a checkout says about the store `s` that it has found, and the present one. -/
structure CheckoutLogged (s : CartStore) (user : String) (now : String → String) (E : Prop)
    (store : CartStore) (log : CartLog) : Prop where
  owed : log.owed = none
  listed : ∀ items, log.listed = some items → items ≠ [] → items.Perm (pairs (fieldsOf s user))
  kept : log.cleared = false → CartKept s user E store
  ordered : log.cleared = true → ∃ items, log.listed = some items ∧ getCartItems now items ≠ [] ∧
    log.answered = some ⟨user, getCartItems now items⟩

section
variable {s store store' : CartStore} {i : ℕ} {user path : String} {now : String → String}
  {E : Prop} {log : CartLog} {choice : Choice}

lemma CartKept.of_carts (h : CartKept s user E store)
    (hcart : store'.carts (cartKey user) = store.carts (cartKey user)) :
    CartKept s user E store' := by
  unfold CartKept
  rw [hcart]
  exact h

/-- Reading the cart leaves it alone. -/
lemma carts_execCart_hgetall {key key' : String}
    {listed : Except CallError (List (String × String))}
    (hexec : execCart store i (.hgetall key) choice = some (store', listed)) :
    store'.carts key' = store.carts key' := by
  rcases execCart_store hexec with rfl | rfl <;> rfl

/-- What is listed of a cart that has perhaps expired is nothing, or what it held. -/
lemma CartKept.listed (h : CartKept s user E store) {items : List (String × String)}
    (hperm : items.Perm (pairs (store.carts (cartKey user)).fields)) (hne : items ≠ []) :
    items.Perm (pairs (fieldsOf s user)) := by
  rcases h with hcart | ⟨-, hmissing⟩
  · rw [hcart] at hperm
    exact hperm
  · rw [hmissing] at hperm
    exact absurd hperm.eq_nil hne

lemma CartKept.mono {E' : Prop} (h : CartKept s user E store) (hE : E → E') :
    CartKept s user E' store :=
  h.imp_right (And.imp_left hE)

lemma CheckoutLogged.hgetall (h : CheckoutLogged s user now E store .start)
    {listed : Except CallError (List (String × String))}
    (hexec : execCart store i (.hgetall (cartKey user)) choice = some (store', listed)) :
    CheckoutLogged s user now E store' (CartLog.start.next (.hgetall (cartKey user)) listed) := by
  have hkept := (h.kept rfl).of_carts (carts_execCart_hgetall hexec)
  cases listed with
  | error e =>
    exact ⟨rfl, fun items hitems => (by cases hitems), fun _ => hkept, fun hc => (by cases hc)⟩
  | ok items =>
    refine ⟨rfl, fun items' hitems hne => ?_, fun _ => hkept, fun hc => (by cases hc)⟩
    obtain rfl : items = items' := Option.some.inj hitems
    exact (h.kept rfl).listed (perm_of_execCart_hgetall hexec) hne

lemma CheckoutLogged.post (h : CheckoutLogged s user now E store log) {order : CheckoutRequest}
    {posted : Except CallError OrderResponse} (hcleared : log.cleared = false)
    (hexec : execCart store i (.post order) choice = some (store', posted)) :
    CheckoutLogged s user now E store' (log.next (.post order) posted) := by
  have hkey : (CartCommand.post order).key? ≠ some (cartKey user) := by simp [CartCommand.key?]
  have hkept := (h.kept hcleared).of_carts (carts_execCart_of_key hkey hexec)
  have huncleared : log.cleared ≠ true := by simp [hcleared]
  cases posted with
  | error e => exact ⟨h.owed, h.listed, fun _ => hkept, fun hc => absurd hc huncleared⟩
  | ok response =>
    by_cases hsucceeds : response.Succeeds
    · simp only [CartLog.next, if_pos hsucceeds]
      exact ⟨h.owed, h.listed, fun _ => hkept, fun hc => absurd hc huncleared⟩
    · simp only [CartLog.next, if_neg hsucceeds]
      exact ⟨h.owed, h.listed, fun _ => hkept, fun hc => absurd hc huncleared⟩

/-- The checkout's own command: it reads the cart, orders what it has read, and clears the cart
after a success. -/
lemma CheckoutLogged.next (h : CheckoutLogged s user now E store log) {c : CartCommand}
    {r : CartReply c} (huser : userBefore "/checkout" path = some user)
    (hallows : Allows (.checkout path now) log c)
    (hexec : execCart store i c choice = some (store', r)) :
    CheckoutLogged s user now E store' (log.next c r) := by
  obtain ⟨u, hu, htakes⟩ := hallows
  obtain rfl : user = u := Option.some.inj (huser.symm.trans hu)
  rw [h.owed] at htakes
  cases htakes with
  | checkoutLists hstart =>
    subst hstart
    exact h.hgetall hexec
  | checkoutPosts hlisted hne hcleared => exact h.post hcleared hexec
  | checkoutClears hlisted hne hanswered =>
    exact ⟨h.owed, h.listed, fun hc => (by cases hc), fun _ => ⟨_, hlisted, hne, hanswered⟩⟩

/-- What happens on other carts, and expiry, change nothing for the checkout. -/
lemma CheckoutLogged.of_kept (h : CheckoutLogged s user now E store log)
    (hkept : CartKept s user E store → CartKept s user E store') :
    CheckoutLogged s user now E store' log :=
  ⟨h.owed, h.listed, fun hcleared => hkept (h.kept hcleared), h.ordered⟩

end

/-! ## The pool of the checkout -/

/-- Request `i` checks out the cart of `user`, and the others are about other carts. -/
structure CheckingOut (s : CartStore) (i : ℕ) (user path : String) (now : String → String)
    (E : Prop) (p : CartPool) : Prop where
  serves : p.Serves serve
  request : ∀ t, p.threads[i]? = some t → t.request = .checkout path now
  others : ∀ j t, p.threads[j]? = some t → j ≠ i → t.request.user? ≠ some user
  logged : ∀ t, p.threads[i]? = some t → CheckoutLogged s user now E p.store (cartLog t)
  stage : ∀ t, p.threads[i]? = some t → CheckoutStage user now t.trace t.program

section
variable {s : CartStore} {i : ℕ} {user path : String} {now : String → String} {E : Prop}
  {p p' : CartPool}

lemma CheckingOut.init {requests : List CartRequest}
    (hi : requests[i]? = some (.checkout path now))
    (huser : userBefore "/checkout" path = some user)
    (hothers : ∀ (j : ℕ) (q : CartRequest), requests[j]? = some q → j ≠ i →
      q.user? ≠ some user) :
    CheckingOut s i user path now E (Pool.init serve s requests) := by
  have hstart : ∀ (j : ℕ) (t : CartThread), (Pool.init serve s requests).threads[j]? = some t →
      requests[j]? = some t.request ∧ cartLog t = .start ∧
        t = ⟨t.request, [], serve t.request⟩ := by
    intro j t ht
    unfold Pool.init at ht
    rw [List.getElem?_map] at ht
    obtain ⟨q, hq, rfl⟩ := Option.map_eq_some_iff.mp ht
    exact ⟨hq, rfl, rfl⟩
  constructor
  · exact Pool.serves_init serve s requests
  · intro t ht
    exact Option.some.inj ((hstart i t ht).1.symm.trans hi)
  · intro j t ht hj
    exact hothers j _ (hstart j t ht).1 hj
  · intro t ht
    rw [(hstart i t ht).2.1]
    exact ⟨rfl, fun items h => (by cases h), fun _ => .inl rfl, fun h => (by cases h)⟩
  · intro t ht
    obtain ⟨hq, -, hthread⟩ := hstart i t ht
    have hrequest : t.request = .checkout path now := Option.some.inj (hq.symm.trans hi)
    rw [hthread, hrequest]
    show CheckoutStage user now [] (handleCheckout path now)
    rw [handleCheckout, huser]
    exact .listing

lemma CheckingOut.command {l : ℕ × Choice} (hp : CheckingOut s i user path now E p)
    (huser : userBefore "/checkout" path = some user) (hstep : cartStep p l = some p') :
    CheckingOut s i user path now E p' := by
  have hserves := Pool.serves_preserved serve p l p' hp.serves hstep
  obtain ⟨j, choice⟩ := l
  obtain ⟨t, c, k, store, r, ht, hk, hallows, hexec, rfl⟩ := cartStep_cases hp.serves hstep
  simp only at ht hexec
  refine ⟨hserves, ?_, ?_, ?_, ?_⟩
  · intro u hu
    rcases getElem?_set_eq_some hu with ⟨rfl, rfl⟩ | ⟨-, hold⟩
    · exact hp.request t ht
    · exact hp.request u hold
  · intro m u hu hm
    rcases getElem?_set_eq_some hu with ⟨rfl, rfl⟩ | ⟨-, hold⟩
    · exact hp.others _ t ht hm
    · exact hp.others m u hold hm
  · intro u hu
    rcases getElem?_set_eq_some hu with ⟨rfl, rfl⟩ | ⟨hij, hold⟩
    · rw [hp.request t ht] at hallows
      exact (hp.logged t ht).next huser hallows hexec
    · -- the command of another request is about another cart
      have hkey : c.key? ≠ some (cartKey user) := by
        intro hkey
        obtain ⟨v, hv, heq⟩ := hallows.key hkey
        obtain rfl := cartKey_injective heq
        exact hp.others j t ht (Ne.symm hij) hv
      have hcart := carts_execCart_of_key hkey hexec
      exact (hp.logged u hold).of_kept fun hkept => hkept.of_carts hcart
  · intro u hu
    rcases getElem?_set_eq_some hu with ⟨rfl, rfl⟩ | ⟨-, hold⟩
    · have hstage := hp.stage t ht
      rw [hk] at hstage
      exact checkoutStage_reply hstage r
    · exact hp.stage u hold

/-- A command or the expiry of a key, which may be that of the cart if `E`. -/
lemma CheckingOut.event {e : CartEvent} (hp : CheckingOut s i user path now E p)
    (huser : userBefore "/checkout" path = some user) (he : e = .expiry (cartKey user) → E)
    (hstep : cartEvent p e = some p') : CheckingOut s i user path now E p' := by
  cases e with
  | command thread choice => exact hp.command huser hstep
  | expiry key =>
    obtain rfl := Option.some.inj hstep
    refine ⟨hp.serves, hp.request, hp.others, fun t ht => (hp.logged t ht).of_kept ?_, hp.stage⟩
    intro hkept
    by_cases hkey : key = cartKey user
    · subst hkey
      exact .inr ⟨he rfl, (carts_setCart _ _ _ _).trans (if_pos rfl)⟩
    · exact hkept.of_carts ((carts_setCart _ _ _ _).trans (if_neg hkey))

/-! ## Orders before deletion -/

/-- The order service has accepted, from this request, an order of `user` with exactly the items
that the cart has in `s`, each once. -/
def OrderedBy (s : CartStore) (user : String) (t : CartThread) : Prop :=
  ∃ order response, ⟨.post order, .ok response⟩ ∈ t.trace ∧ response.Places ∧
    order.userID = user ∧ order.items ≠ [] ∧ (order.items.map CartItem.productID).Nodup ∧
    (order.items.map fun item => (item.productID, cartItemToJSON item)).Perm
      (pairs (fieldsOf s user))

/-- If request `i` is answered with an error, the cart of `user` is as it was in `s` (or has
expired, if `E`). It is changed, and its `DEL` is issued, only when the order service has accepted
an order of exactly its items. -/
def KeepsCart (s : CartStore) (i : ℕ) (user : String) (E : Prop) (p : CartPool) : Prop :=
  ∀ t, p.threads[i]? = some t →
    (∀ answer, t.program.answer? = some answer → ¬ isSuccess answer.code →
      CartKept s user E p.store) ∧
    (¬ CartKept s user E p.store ∨ t.program.next? = some (.del (cartKey user)) →
      OrderedBy s user t)

/-- The order that a request is posting. -/
def posting (t : CartThread) : Option CheckoutRequest :=
  match t.program.next? with
  | some (.post order) => some order
  | _ => none

/-- A redirect after which a `POST` becomes a `GET` leads the post of request `i` to a success. -/
def Misled (i : ℕ) (p : CartPool) : CartEvent → Prop
  | .command thread choice => thread = i ∧ (∃ t ∈ p.threads[i]?, (posting t).isSome = true) ∧
      choice.fault = .none ∧ choice.response.Succeeds ∧
      ∃ r ∈ choice.response.redirects.followed, Go.redirectMethod .post r = .get
  | .expiry _ => False

instance (i : ℕ) (p : CartPool) : (e : CartEvent) → Decidable (Misled i p e)
  | .command _ _ => inferInstanceAs (Decidable (_ ∧ (∃ t ∈ p.threads[i]?, _) ∧ _))
  | .expiry _ => inferInstanceAs (Decidable False)

/-- All successes that request `i` has been told of are those of a `POST`. -/
def ToldOfPosts (i : ℕ) (p : CartPool) : Prop :=
  ∀ t, p.threads[i]? = some t → ∀ order response, ⟨.post order, .ok response⟩ ∈ t.trace →
    response.Succeeds → response.Places

/-- If more may expire, less is asked of the checkout. -/
lemma KeepsCart.mono {E' : Prop} (h : KeepsCart s i user E p) (hE : E → E') :
    KeepsCart s i user E' p := by
  intro t ht
  obtain ⟨hanswered, hordered⟩ := h t ht
  refine ⟨fun answer hanswer hfailed => (hanswered answer hanswer hfailed).mono hE, ?_⟩
  rintro (hlost | hdel)
  · exact hordered (.inl fun hkept => hlost (hkept.mono hE))
  · exact hordered (.inr hdel)

lemma posting_eq_some {t : CartThread} {order : CheckoutRequest} (h : posting t = some order) :
    ∃ k, t.program = .call (.post order) k := by
  unfold posting at h
  split at h
  · rename_i order' hnext
    obtain rfl := Option.some.inj h
    cases hprogram : t.program with
    | done answer =>
      rw [hprogram] at hnext
      cases hnext
    | call c k =>
      rw [hprogram] at hnext
      obtain rfl := Option.some.inj hnext
      exact ⟨k, rfl⟩
  · cases h

/-- A success that no such redirect has led to is that of the order. -/
lemma places_of_not_misled {response : OrderResponse} (hsucceeds : response.Succeeds)
    (hnone : ¬ ∃ r ∈ response.redirects.followed, Go.redirectMethod .post r = .get) :
    response.Places := by
  refine ⟨Go.Redirects.lastMethod_post_iff.mpr fun r hr => ?_, hsucceeds.1⟩
  cases hmethod : Go.redirectMethod .post r with
  | get => exact absurd ⟨r, hr, hmethod⟩ hnone
  | post => rfl

lemma execCart_post {store : CartStore} {thread : ℕ} {order : CheckoutRequest} {choice : Choice}
    (hfault : choice.fault = .none) :
    execCart store thread (.post order) choice =
      some (cartEffect store choice.response (.post order), .ok choice.response) := by
  unfold execCart
  rw [hfault]
  rfl

/-- A post that is answered has not failed. -/
lemma execCart_post_ok {store store' : CartStore} {thread : ℕ} {order : CheckoutRequest}
    {choice : Choice} {response : OrderResponse}
    (hexec : execCart store thread (.post order) choice = some (store', .ok response)) :
    choice.fault = .none ∧ choice.response = response := by
  unfold execCart at hexec
  split at hexec
  · rename_i hfault
    obtain ⟨r, hr, heq⟩ := Option.map_eq_some_iff.mp hexec
    obtain rfl := Option.some.inj hr
    exact ⟨hfault, Except.ok.inj (congrArg Prod.snd heq)⟩
  · cases hexec
  · cases hexec

lemma toldOfPosts_init (requests : List CartRequest) :
    ToldOfPosts i (Pool.init serve s requests) := by
  intro t ht order response hmem
  obtain ⟨q, -, rfl⟩ := List.mem_map.mp (List.mem_of_getElem? ht)
  exact absurd hmem List.not_mem_nil

lemma ToldOfPosts.event {e : CartEvent} (h : ToldOfPosts i p) (hnot : ¬ Misled i p e)
    (hstep : cartEvent p e = some p') : ToldOfPosts i p' := by
  cases e with
  | expiry key =>
    obtain rfl := Option.some.inj hstep
    exact h
  | command thread choice =>
    obtain ⟨t, c, k, store, r, ht, hk, hexec, rfl⟩ := Pool.step_eq_some.mp hstep
    intro u hu order response hmem hsucceeds
    rcases getElem?_set_eq_some hu with ⟨rfl, rfl⟩ | ⟨-, hold⟩
    · rcases List.mem_cons.mp hmem with heq | hmem
      · -- the answer that has just come
        obtain ⟨rfl, hr⟩ := Sigma.mk.inj heq
        obtain ⟨hfault, rfl⟩ := execCart_post_ok (eq_of_heq hr ▸ hexec)
        have hposting : ∃ t ∈ p.threads[i]?, (posting t).isSome = true :=
          ⟨t, ht, by rw [posting, hk]; rfl⟩
        exact places_of_not_misled hsucceeds fun hget =>
          hnot ⟨rfl, hposting, hfault, hsucceeds, hget⟩
      · exact h t ht order response hmem hsucceeds
    · exact h u hold order response hmem hsucceeds

/-- What a checkout has listed and been told the success of is an order of the cart as `s` has
it. -/
lemma CheckoutLogged.orderedBy {store : CartStore} {t : CartThread}
    {items : List (String × String)} (hs : Represented s)
    (h : CheckoutLogged s user now E store (cartLog t)) (hlisted : (cartLog t).listed = some items)
    (hne : getCartItems now items ≠ [])
    (hanswered : (cartLog t).answered = some ⟨user, getCartItems now items⟩)
    (htold : ∀ order response, ⟨.post order, .ok response⟩ ∈ t.trace → response.Succeeds →
      response.Places) :
    OrderedBy s user t := by
  obtain ⟨response, hposted, hsucceeds⟩ := answered_of_trace hanswered
  have hitems : items ≠ [] := by
    rintro rfl
    exact hne rfl
  have hperm := h.listed items hlisted hitems
  have htexts : (getCartItems now items).map
      (fun item => (item.productID, cartItemToJSON item)) = items := by
    apply map_getCartItems
    intro pr hpr
    exact hs user pr.1 pr.2 (mem_pairs.mp (hperm.mem_iff.mp hpr))
  refine ⟨_, response, hposted, htold _ _ hposted hsucceeds, rfl, hne,
    hs.nodup_productID now hperm, ?_⟩
  rw [htexts]
  exact hperm

/-- A checkout that has been told of nothing but its order keeps to the rule. -/
lemma CheckingOut.keepsCart (hs : Represented s) (hp : CheckingOut s i user path now E p)
    (huser : userBefore "/checkout" path = some user) (htold : ToldOfPosts i p) :
    KeepsCart s i user E p := by
  intro t ht
  have hlogged := hp.logged t ht
  have hconducts := conducts_of_serves hp.serves (List.mem_of_getElem? ht)
  rw [hp.request t ht] at hconducts
  refine ⟨fun answer hanswer hfailed => ?_, ?_⟩
  · rw [Program.answer?_eq_some hanswer] at hconducts
    cases hconducts with
    | done hconcludes => exact hlogged.kept (hconcludes.2 path now rfl hfailed)
  · rintro (hlost | hdel)
    · -- the cart is lost by the `DEL` of the checkout only
      have hcleared : (cartLog t).cleared = true := by
        by_contra h
        exact hlost (hlogged.kept (Bool.eq_false_iff.mpr h))
      obtain ⟨items, hlisted, hne, hanswered⟩ := hlogged.ordered hcleared
      exact hlogged.orderedBy hs hlisted hne hanswered (htold t ht)
    · cases hprogram : t.program with
      | done a =>
        rw [hprogram] at hdel
        cases hdel
      | call c k =>
        rw [hprogram] at hdel hconducts
        obtain rfl : c = .del (cartKey user) := Option.some.inj hdel
        obtain ⟨u, hu, htakes⟩ := hconducts.allowed_of_call
        obtain rfl : user = u := Option.some.inj (huser.symm.trans hu)
        rw [hlogged.owed] at htakes
        cases htakes with
        | checkoutClears hlisted hne hanswered =>
          exact hlogged.orderedBy hs hlisted hne hanswered (htold t ht)

/-- After the success of a `GET` the handler clears the cart, and there is no order. -/
lemma CheckingOut.not_misled (hp : CheckingOut s i user path now E p) {e : CartEvent}
    (hkeeps : ∀ p', cartEvent p e = some p' → KeepsCart s i user E p') : ¬ Misled i p e := by
  intro hmisled
  cases e with
  | expiry key => exact hmisled
  | command thread choice =>
    obtain ⟨rfl, ⟨t, ht, hposting⟩, hfault, hsucceeds, r, hr, hget⟩ := hmisled
    obtain ⟨order, hposting⟩ := Option.isSome_iff_exists.mp hposting
    obtain ⟨k, hk⟩ := posting_eq_some hposting
    have hstage := hp.stage t ht
    rw [hk] at hstage
    generalize htrace : t.trace = trace at hstage
    cases hstage with
    | posting items =>
      have hstep : cartEvent p (.command thread choice) = some _ :=
        Pool.step_eq_some.mpr ⟨t, _, _, _, _, ht, hk, execCart_post hfault, rfl⟩
      obtain ⟨body, hclears⟩ := afterPost_of_succeeds (cartKey user) hsucceeds
      have hnext : (afterPost (cartKey user) (.ok choice.response)).next? =
          some (.del (cartKey user)) := by
        rw [hclears]
        rfl
      obtain ⟨order, response, hmem, hplaces, -⟩ :=
        (hkeeps _ hstep _ (getElem?_set_moved ht _)).2 (.inr hnext)
      -- the one answer to a post is that of the `GET`
      have hresponse : response = choice.response := by
        change _ ∈ (_ :: t.trace) at hmem
        rw [htrace] at hmem
        simp only [List.mem_cons, List.not_mem_nil, or_false] at hmem
        rcases hmem with hmem | hmem
        · exact Except.ok.inj (eq_of_heq (Sigma.mk.inj hmem).2)
        · cases hmem
      rw [hresponse] at hplaces
      have hpost := Go.Redirects.lastMethod_post_iff.mp hplaces.1 r hr
      exact absurd (hget.symm.trans hpost) (by decide)

/-- **When a checkout loses a cart.** Let a request check out a cart that the service can reach,
while the other requests are about other carts, with any outcome of every command. In every state
of the run, an answer with an error has left the cart as it was (or it has expired), and the cart
is cleared only when the order service has accepted an order of the user with exactly the items of
the cart, each once: if and only if at no time a redirect that makes a `GET` of a `POST` leads the
request to a success. -/
theorem checkout_keeps_cart_iff {requests : List CartRequest} {es : List CartEvent}
    (hs : Reachable s) (hi : requests[i]? = some (.checkout path now))
    (huser : userBefore "/checkout" path = some user)
    (hothers : ∀ (j : ℕ) (q : CartRequest), requests[j]? = some q → j ≠ i →
      q.user? ≠ some user) :
    (∀ es₁ es₂ p, es = es₁ ++ es₂ → run cartEvent (Pool.init serve s requests) es₁ = some p →
      KeepsCart s i user (.expiry (cartKey user) ∈ es₁) p) ↔
    StepsMeet cartEvent (fun p e => ¬ Misled i p e) (Pool.init serve s requests) es := by
  constructor
  · intro hkeeps
    have hweak : Throughout cartEvent (KeepsCart s i user True) (Pool.init serve s requests) es :=
      throughout_iff_prefixes.mpr fun es₁ es₂ p heq hrun =>
        (hkeeps es₁ es₂ p heq hrun).mono fun _ => trivial
    refine stepsMeet_of_invariant (I := CheckingOut s i user path now True) ?_ ?_
      (.init hi huser hothers) (throughout_iff_head_and_stepsMeet.mp hweak).2
    · exact fun p e p' hp _ hstep => hp.event huser (fun _ => trivial) hstep
    · exact fun p e hp hnext => hp.not_misled hnext
  · rintro hmeets es₁ es₂ p rfl hrun
    have hlabels : StepsMeet cartEvent (fun _ e => e ∈ es₁) (Pool.init serve s requests) es₁ :=
      stepsMeet_of_forall (fun e he => he) _
    have hinvariant : CheckingOut s i user path now (.expiry (cartKey user) ∈ es₁) p ∧
        ToldOfPosts i p := by
      refine run_invariant_of_stepsMeet
        (P := fun p => CheckingOut s i user path now (.expiry (cartKey user) ∈ es₁) p ∧
          ToldOfPosts i p) ?_ ⟨.init hi huser hothers, toldOfPosts_init requests⟩
        (hmeets.of_append.and hlabels) hrun
      rintro p e p' ⟨hp, htold⟩ ⟨hnot, he⟩ hstep
      exact ⟨hp.event huser (fun heq => heq ▸ he) hstep, htold.event hnot hstep⟩
    exact hinvariant.1.keepsCart (represented_of_reachable hs) huser hinvariant.2

end

/-! ## An order service that refuses, and one that redirects -/

def checkoutOfFive : CartRequest := .checkout "/api/cart/u/checkout" fun _ => "t"

/-- The cart is read. -/
def listingFive : CartEvent :=
  .command 0 { healthy with order := [("p", cartItemToJSON ⟨"p", 5, "t"⟩)] }

/-- The order is answered with 500. -/
def refusing : List CartEvent :=
  [listingFive, .command 0 { healthy with response := ⟨.none, 500, some "{}"⟩ }]

lemma isSome_refusing :
    (run cartEvent (Pool.init serve cartOfFive [checkoutOfFive]) refusing).isSome = true := by
  decide +kernel

lemma others_checkoutOfFive : ∀ (j : ℕ) (q : CartRequest), [checkoutOfFive][j]? = some q → j ≠ 0 →
    q.user? ≠ some "u" := by
  intro j q hq hj
  rw [List.getElem?_singleton, if_neg hj] at hq
  cases hq

theorem checkout_keeps_cart_iff_refusing :
    KeepsCart cartOfFive 0 "u" (.expiry (cartKey "u") ∈ refusing)
      (final _ _ _ isSome_refusing) := by
  have hmeets : StepsMeet cartEvent (fun p e => ¬ Misled 0 p e)
      (Pool.init serve cartOfFive [checkoutOfFive]) refusing := by
    decide +kernel
  exact (checkout_keeps_cart_iff reachable_cartOfFive rfl (by decide +kernel)
    others_checkoutOfFive).mpr hmeets refusing [] _ (List.append_nil _).symm
      (run_final isSome_refusing)

/-- The order is answered with 302, and the `GET` that the client sends then with 200. -/
def redirecting : List CartEvent :=
  [listingFive,
    .command 0 { healthy with response := ⟨⟨[.found], by decide⟩, 200, some "[]"⟩ },
    .command 0 healthy]

lemma isSome_redirecting :
    (run cartEvent (Pool.init serve cartOfFive [checkoutOfFive]) redirecting).isSome = true := by
  decide +kernel

/-- The answers to posts in a trace are all to a `GET`. -/
def answeredByGet (trace : List (Σ c, CartReply c)) : Bool :=
  trace.all fun
    | ⟨.post _, .ok response⟩ => response.method = .get
    | _ => true

lemma after_redirecting :
    ((final _ _ _ isSome_redirecting).store.carts (cartKey "u")).fields.entries.length = 0 ∧
      (final _ _ _ isSome_redirecting).store.orders.length = 0 ∧
      ((final _ _ _ isSome_redirecting).threads[0]?.any fun t => answeredByGet t.trace) = true := by
  decide +kernel

/-- The cart is empty and there is no order. -/
theorem cart_lost_to_redirect :
    ¬ ∀ (s : CartStore) (requests : List CartRequest) (i : ℕ) (user path : String)
      (now : String → String) (es : List CartEvent) (p : CartPool), Reachable s →
      requests[i]? = some (.checkout path now) → userBefore "/checkout" path = some user →
      (∀ (j : ℕ) (q : CartRequest), requests[j]? = some q → j ≠ i → q.user? ≠ some user) →
      run cartEvent (Pool.init serve s requests) es = some p →
      KeepsCart s i user (.expiry (cartKey user) ∈ es) p := by
  intro h
  obtain ⟨hempty, -, hget⟩ := after_redirecting
  obtain ⟨t, ht, hget⟩ := (Option.any_eq_true _ _).mp hget
  have hlost : ¬ CartKept cartOfFive "u" (.expiry (cartKey "u") ∈ redirecting)
      (final _ _ _ isSome_redirecting).store := by
    rintro (hkept | ⟨hexpired, -⟩)
    · rw [hkept] at hempty
      exact absurd hempty (by decide +kernel)
    · simp [redirecting, listingFive] at hexpired
  obtain ⟨order, response, hmem, hplaces, -⟩ :=
    (h cartOfFive [checkoutOfFive] 0 "u" _ _ redirecting _ reachable_cartOfFive rfl
      (by decide +kernel) others_checkoutOfFive (run_final isSome_redirecting) t ht).2 (.inl hlost)
  -- the answer to the post is that of the `GET`
  have hanswered := List.all_eq_true.mp hget _ hmem
  have hmethod : response.method = .get := decide_eq_true_iff.mp hanswered
  exact absurd (hmethod.symm.trans hplaces.1) (by decide)

end DevopsEcommerce.CartService
