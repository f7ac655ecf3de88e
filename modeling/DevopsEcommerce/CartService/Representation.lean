import DevopsEcommerce.CartService.Paths
import DevopsEcommerce.CartService.Readability

/-!
# What the fields of a cart hold

Every field of a cart holds the text of an item of the field's product, in every state that the
service reaches from an empty store, whatever is served, fails or expires (`cart_represented`).
Hence a cart is listed completely and without repetition, and its count is that of the list.
-/

open Interleaving

namespace DevopsEcommerce.CartService

/-- What can happen to the carts: a request has its command executed, or a key expires. -/
inductive CartEvent where
  | command (thread : ℕ) (choice : Choice)
  | expiry (key : String)

def cartEvent (p : CartPool) : CartEvent → Option CartPool
  | .command thread choice => cartStep p (thread, choice)
  | .expiry key => some { p with store := p.store.setCart key .missing }

/-- Every field of every cart holds the text of an item of the field's product. -/
def Represented (s : CartStore) : Prop :=
  ∀ userID field raw, (fieldsOf s userID).lookup field = some raw →
    ∃ item : CartItem, item.productID = field ∧ raw = cartItemToJSON item

/-! ## The invariant -/

lemma represented_cartEffect {s : CartStore} (hs : Represented s) {c : CartCommand}
    (hc : WritesItem c) (response : OrderResponse) : Represented (cartEffect s response c) := by
  intro userID field raw hraw
  rw [fieldsOf_cartEffect] at hraw
  rcases lookup_fieldsEffect hraw with hold | rfl
  · exact hs userID field raw hold
  · exact hc

lemma represented_expiry {s : CartStore} (hs : Represented s) (key : String) :
    Represented (s.setCart key .missing) := by
  intro userID field raw hraw
  unfold fieldsOf at hraw
  rw [carts_setCart] at hraw
  by_cases hkey : key = cartKey userID
  · rw [if_pos hkey] at hraw
    exact absurd hraw (by simp [Cart.missing])
  · rw [if_neg hkey] at hraw
    exact hs userID field raw hraw

theorem represented_preserved :
    Preserved cartEvent fun p =>
      (∀ t ∈ p.threads, t.program.Issues WritesItem) ∧ Represented p.store := by
  intro p e p' hp hstep
  cases e with
  | command thread choice =>
    have hissues := Pool.issues_preserved WritesItem p (thread, choice) p' hp.1 hstep
    refine ⟨hissues, ?_⟩
    obtain ⟨t, c, k, store, r, ht, hk, hexec, rfl⟩ := Pool.step_eq_some.mp hstep
    have hnext := hp.1 t (List.mem_of_getElem? ht)
    rw [hk] at hnext
    cases hnext with
    | call hc _ =>
      rcases execCart_store hexec with rfl | rfl
      · exact hp.2
      · exact represented_cartEffect hp.2 hc _
  | expiry key =>
    obtain rfl := Option.some.inj hstep
    exact ⟨hp.1, represented_expiry hp.2 key⟩

/-- The states of the store that the service can leave behind. -/
def Reachable (s : CartStore) : Prop :=
  ∃ requests es p, run cartEvent (cartPool noCarts requests) es = some p ∧ p.store = s

theorem represented_of_reachable {s : CartStore} (hs : Reachable s) : Represented s := by
  obtain ⟨requests, es, p, hrun, rfl⟩ := hs
  have hstart : ∀ t ∈ (cartPool noCarts requests).threads, t.program.Issues WritesItem := by
    intro t ht
    obtain ⟨request, -, rfl⟩ := List.mem_map.mp ht
    exact serve_writesItem request
  have hempty : Represented (cartPool noCarts requests).store := by
    intro userID field raw hraw
    exact absurd hraw (by simp [fieldsOf, cartPool, Pool.init, noCarts, Cart.missing])
  exact (run_invariant represented_preserved ⟨hstart, hempty⟩ hrun).2

/-! ## What is read from a cart -/

lemma Represented.parse {s : CartStore} (hs : Represented s) {userID field raw : String}
    (hraw : (fieldsOf s userID).lookup field = some raw) (now : String) :
    ∃ item, parseCartItem now field raw = some item ∧ item.productID = field := by
  obtain ⟨item, hproduct, rfl⟩ := hs userID field raw hraw
  exact ⟨item, parseCartItem_cartItemToJSON now field item, hproduct⟩

/-- The loop of `getCartItems` keeps every field whose text is an item of its product: the items
have the very fields and texts that they were read from. -/
lemma map_getCartItems (now : String → String) {order : List (String × String)}
    (horder : ∀ pr ∈ order, ∃ item : CartItem, item.productID = pr.1 ∧
      pr.2 = cartItemToJSON item) :
    (getCartItems now order).map (fun item => (item.productID, cartItemToJSON item)) = order := by
  induction order with
  | nil => rfl
  | cons pr order ih =>
    obtain ⟨item, hproduct, hraw⟩ := horder pr List.mem_cons_self
    have hrest := ih fun pr hpr => horder pr (List.mem_cons_of_mem _ hpr)
    have hparse : parseCartItem (now pr.1) pr.1 pr.2 = some item := by
      rw [hraw]
      exact parseCartItem_cartItemToJSON _ _ _
    have hcons : getCartItems now (pr :: order) = item :: getCartItems now order := by
      unfold getCartItems
      exact List.filterMap_cons_some hparse
    rw [hcons, List.map_cons, hrest, hproduct, ← hraw]

lemma map_productID_getCartItems (now : String → String) {order : List (String × String)}
    (horder : ∀ pr ∈ order, ∃ item : CartItem, item.productID = pr.1 ∧
      pr.2 = cartItemToJSON item) :
    (getCartItems now order).map CartItem.productID = order.map Prod.fst := by
  have hpairs := congrArg (List.map Prod.fst) (map_getCartItems now horder)
  rw [List.map_map] at hpairs
  exact hpairs

lemma Represented.map_productID {s : CartStore} (hs : Represented s) {userID : String}
    (now : String → String) {order : List (String × String)}
    (horder : order.Perm (pairs (fieldsOf s userID))) :
    (getCartItems now order).map CartItem.productID = order.map Prod.fst := by
  apply map_productID_getCartItems
  intro pr hpr
  exact hs userID pr.1 pr.2 (mem_pairs.mp (horder.mem_iff.mp hpr))

lemma Represented.nodup_productID {s : CartStore} (hs : Represented s) {userID : String}
    (now : String → String) {order : List (String × String)}
    (horder : order.Perm (pairs (fieldsOf s userID))) :
    ((getCartItems now order).map CartItem.productID).Nodup := by
  rw [hs.map_productID now horder, (horder.map Prod.fst).nodup_iff]
  exact nodup_fields _

lemma Represented.length_getCartItems {s : CartStore} (hs : Represented s) {userID : String}
    (now : String → String) {order : List (String × String)}
    (horder : order.Perm (pairs (fieldsOf s userID))) :
    (getCartItems now order).length = (fieldsOf s userID).entries.length := by
  have hlength := congrArg List.length (hs.map_productID now horder)
  have hperm := horder.length_eq
  unfold pairs at hperm
  rw [List.length_map, List.length_map] at hlength
  rw [List.length_map] at hperm
  omega

/-! ## What the handlers report -/

lemma execCart_hgetall {s s' : CartStore} {i : ℕ} {key : String} {choice : Choice}
    {listed : Except CallError (List (String × String))} (hfault : choice.fault = .none)
    (h : execCart s i (.hgetall key) choice = some (s', listed)) :
    ∃ order, order.Perm (pairs (s.carts key).fields) ∧ listed = .ok order := by
  obtain ⟨-, hreply⟩ := execCart_healthy hfault h
  simp only [cartReply] at hreply
  split at hreply
  · rename_i horder
    exact ⟨_, horder, (Option.some.inj hreply).symm⟩
  · exact absurd hreply (by simp)

/-- `handleGetCart` without faults lists what it reads from the cart. -/
lemma perform_handleGetCart {s s' : CartStore} {i : ℕ} {choose : ℕ → CartCommand → Choice}
    {path : String} {now : String → String} {answer : Response}
    (hfault : ∀ n c, (choose n c).fault = .none) (huser : extractUserID path ≠ "")
    (h : (handleGetCart path now).perform execCart i choose 0 s = some (s', answer)) :
    ∃ order, order.Perm (pairs (fieldsOf s (extractUserID path))) ∧
      answer = ⟨200, "ok", "", some (.items (getCartItems now order))⟩ := by
  unfold handleGetCart at h
  simp only [if_neg huser, Program.perform] at h
  obtain ⟨⟨s₁, listed⟩, hexec, h⟩ := Option.bind_eq_some_iff.mp h
  obtain ⟨order, horder, rfl⟩ := execCart_hgetall (hfault _ _) hexec
  exact ⟨order, horder, (Prod.mk.inj (Option.some.inj h)).2.symm⟩

/-- `handleGetItemCount` without faults reports the number of fields. -/
lemma perform_handleGetItemCount {s s' : CartStore} {i : ℕ}
    {choose : ℕ → CartCommand → Choice} {path userID : String} {answer : Response}
    (hfault : ∀ n c, (choose n c).fault = .none) (huser : userBefore "/count" path = some userID)
    (h : (handleGetItemCount path).perform execCart i choose 0 s = some (s', answer)) :
    answer = ⟨200, "ok", "", some (.count (fieldsOf s userID).entries.length)⟩ := by
  unfold handleGetItemCount at h
  simp only [huser, Program.perform] at h
  obtain ⟨⟨s₁, counted⟩, hexec, h⟩ := Option.bind_eq_some_iff.mp h
  obtain ⟨-, hreply⟩ := execCart_healthy (hfault _ _) hexec
  obtain rfl := Option.some.inj hreply
  exact (Prod.mk.inj (Option.some.inj h)).2.symm

/-- Every field of every cart is read as an item of the field's product, in every state that the
service reaches from an empty store. Hence reading a cart drops nothing and lists each product
once, and the count that is reported is the number of items that are listed. -/
theorem cart_represented {requests : List CartRequest} {es : List CartEvent} {p : CartPool}
    (hrun : run cartEvent (cartPool noCarts requests) es = some p) :
    (∀ userID field raw now, (fieldsOf p.store userID).lookup field = some raw →
      ∃ item, parseCartItem now field raw = some item ∧ item.productID = field) ∧
    (∀ userID now (order : List (String × String)),
      order.Perm (pairs (fieldsOf p.store userID)) →
        (getCartItems now order).map CartItem.productID = order.map Prod.fst ∧
        ((getCartItems now order).map CartItem.productID).Nodup) ∧
    ∀ (i : ℕ) (choose : ℕ → CartCommand → Choice) (countPath cartPath : String)
      (now : String → String) (s₁ s₂ : CartStore) (counted listed : Response),
      (∀ n c, (choose n c).fault = .none) →
      userBefore "/count" countPath = some (extractUserID cartPath) →
      (handleGetItemCount countPath).perform execCart i choose 0 p.store = some (s₁, counted) →
      (handleGetCart cartPath now).perform execCart i choose 0 p.store = some (s₂, listed) →
        ∃ items, listed = ⟨200, "ok", "", some (.items items)⟩ ∧
          counted = ⟨200, "ok", "", some (.count items.length)⟩ := by
  have hp : Represented p.store := represented_of_reachable ⟨requests, es, p, hrun, rfl⟩
  refine ⟨fun userID field raw now hraw => hp.parse hraw now, ?_, ?_⟩
  · intro userID now order horder
    exact ⟨hp.map_productID now horder, hp.nodup_productID now horder⟩
  · intro i choose countPath cartPath now s₁ s₂ counted listed hfault huser hcount hlist
    obtain ⟨order, horder, rfl⟩ :=
      perform_handleGetCart hfault (ne_empty_of_userBefore huser) hlist
    have hcounted := perform_handleGetItemCount hfault huser hcount
    rw [← hp.length_getCartItems now horder] at hcounted
    exact ⟨_, rfl, hcounted⟩

/-! ## A cart with five units -/

def addFive : CartRequest := .addItem (some ⟨"u", "p", 5⟩) "t"

def addingFive : List CartEvent :=
  [.command 0 healthy, .command 0 healthy, .command 0 healthy, .expiry "cart:v"]

lemma isSome_addingFive :
    (run cartEvent (cartPool noCarts [addFive]) addingFive).isSome = true := by decide +kernel

def cartOfFive : CartStore :=
  (final cartEvent (cartPool noCarts [addFive]) addingFive isSome_addingFive).store

lemma reachable_cartOfFive : Reachable cartOfFive :=
  ⟨[addFive], addingFive, _, run_final isSome_addingFive, rfl⟩

theorem cart_represented_added :
    ∃ item, parseCartItem "t'" "p" (cartItemToJSON ⟨"p", 5, "t"⟩) = some item ∧
      item.productID = "p" :=
  (cart_represented (run_final isSome_addingFive)).1 "u" "p" _ "t'" (by decide +kernel)

end DevopsEcommerce.CartService
