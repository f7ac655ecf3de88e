import DevopsEcommerce.CartService.Readability
import DevopsEcommerce.Interleaving.Protocol

/-!
# What the handlers may do

A request keeps a log of what it has been answered. `Allows` lists the commands that its handler
may issue with such a log, and `serve_obeys` says that it issues no others, whatever fails. So
what holds of a cart in all states can be read off this list, without another look at the
handlers.
-/

open Interleaving Interleaving.Program

namespace DevopsEcommerce.CartService

/-- The user whose cart the request is about; `none` if it names nobody. -/
def CartRequest.user? : CartRequest → Option String
  | .addItem body _ => body.map AddItemRequest.userID
  | .updateItem body _ => body.map UpdateItemRequest.userID
  | .getCart path _ | .deleteCart path => some (extractUserID path)
  | .deleteItem path => (splitItems path).map Prod.fst
  | .checkout path _ => userBefore "/checkout" path
  | .getItemCount path => userBefore "/count" path

/-- The key that a command is about. -/
def CartCommand.key? : CartCommand → Option String
  | .hget key _ | .hset key _ _ | .expire key _ | .hgetall key | .hlen key | .hdel key _
  | .del key => some key
  | .post _ => none

/-- The status codes of success. -/
def isSuccess (code : ℕ) : Prop := 200 ≤ code ∧ code < 300

instance (code : ℕ) : Decidable (isSuccess code) := inferInstanceAs (Decidable (_ ∧ _))

/-- The answer says success, and can be read. -/
def OrderResponse.Succeeds (response : OrderResponse) : Prop :=
  isSuccess response.statusCode ∧ response.body.isSome = true

instance (response : OrderResponse) : Decidable response.Succeeds :=
  inferInstanceAs (Decidable (_ ∧ _))

/-! ## The log of a request -/

structure CartLog where
  /-- The reply to `HGET`. -/
  read : Option (Except CallError (Option String))
  /-- What `HGETALL` has returned. -/
  listed : Option (List (String × String))
  /-- The order whose request has ended in success. -/
  answered : Option CheckoutRequest
  /-- `DEL` has been issued. -/
  cleared : Bool
  /-- A key that has been written and not yet been given its `EXPIRE`. -/
  owed : Option String

namespace CartLog

def start : CartLog where
  read := none
  listed := none
  answered := none
  cleared := false
  owed := none

/-- The log after a reply. -/
def next (log : CartLog) : (c : CartCommand) → CartReply c → CartLog
  | .hget _ _, existing => { log with read := some existing }
  | .hset key _ _, .ok () => { log with owed := some key }
  | .expire _ _, _ => { log with owed := none }
  | .hgetall _, .ok items => { log with listed := some items }
  | .post order, .ok response =>
    if response.Succeeds then { log with answered := some order } else log
  | .del _, _ => { log with cleared := true }
  | _, _ => log

section
variable {log : CartLog} {c : CartCommand} {r : CartReply c}

/-- The log has a reply to `HGET` from before, or this is it. -/
lemma read_next {existing : Except CallError (Option String)}
    (h : (log.next c r).read = some existing) :
    log.read = some existing ∨
      ∃ key field, (⟨c, r⟩ : Σ c, CartReply c) = ⟨.hget key field, existing⟩ := by
  cases c with
  | hget key field =>
    obtain rfl : r = existing := Option.some.inj h
    exact .inr ⟨key, field, rfl⟩
  | post order =>
    cases r with
    | error e => exact .inl h
    | ok response =>
      simp only [next] at h
      split at h
      · exact .inl h
      · exact .inl h
  | hset key field value => cases r <;> exact .inl h
  | hgetall key => cases r <;> exact .inl h
  | _ => exact .inl h

/-- The items have been listed before, or are so now. -/
lemma listed_next {items : List (String × String)} (h : (log.next c r).listed = some items) :
    log.listed = some items ∨
      ∃ key, (⟨c, r⟩ : Σ c, CartReply c) = ⟨.hgetall key, .ok items⟩ := by
  cases c with
  | hgetall key =>
    cases r with
    | error e => exact .inl h
    | ok items' =>
      obtain rfl : items' = items := Option.some.inj h
      exact .inr ⟨key, rfl⟩
  | post order =>
    cases r with
    | error e => exact .inl h
    | ok response =>
      simp only [next] at h
      split at h
      · exact .inl h
      · exact .inl h
  | hset key field value => cases r <;> exact .inl h
  | _ => exact .inl h

end

end CartLog

/-! ## The commands of a request -/

/-- The commands that a request about the cart of `user` may issue while it owes no `EXPIRE`. -/
inductive Takes (user : String) : CartRequest → CartLog → CartCommand → Prop
  | addReads {req : AddItemRequest} {now : String} {log : CartLog} (hvalid : req.isValid = true) :
      Takes user (.addItem (some req) now) log (.hget (cartKey user) req.productID)
  | addWrites {req : AddItemRequest} {now : String} {log : CartLog}
      {existing : Except CallError (Option String)} (hvalid : req.isValid = true)
      (hread : log.read = some existing) :
      Takes user (.addItem (some req) now) log (.hset (cartKey user)
        (itemToAdd req now existing).productID (cartItemToJSON (itemToAdd req now existing)))
  | updateReads {req : UpdateItemRequest} {now : String} {log : CartLog} :
      Takes user (.updateItem (some req) now) log (.hget (cartKey user) req.productID)
  | updateWrites {req : UpdateItemRequest} {now : String} {log : CartLog} {item : CartItem}
      (hpos : 0 < req.quantity) (hquantity : item.quantity = req.quantity) :
      Takes user (.updateItem (some req) now) log
        (.hset (cartKey user) item.productID (cartItemToJSON item))
  | updateRemoves {req : UpdateItemRequest} {now : String} {log : CartLog} :
      Takes user (.updateItem (some req) now) log (.hdel (cartKey user) req.productID)
  | updateProlongs {req : UpdateItemRequest} {now : String} {log : CartLog} :
      Takes user (.updateItem (some req) now) log (.expire (cartKey user) cartTTL)
  | lists {path : String} {now : String → String} {log : CartLog} :
      Takes user (.getCart path now) log (.hgetall (cartKey user))
  | clears {path : String} {log : CartLog} :
      Takes user (.deleteCart path) log (.del (cartKey user))
  | removes {path product : String} {log : CartLog} :
      Takes user (.deleteItem path) log (.hdel (cartKey user) product)
  | prolongs {path : String} {log : CartLog} :
      Takes user (.deleteItem path) log (.expire (cartKey user) cartTTL)
  | checkoutLists {path : String} {now : String → String} {log : CartLog} (hstart : log = .start) :
      Takes user (.checkout path now) log (.hgetall (cartKey user))
  | checkoutPosts {path : String} {now : String → String} {log : CartLog}
      {items : List (String × String)} (hlisted : log.listed = some items)
      (hne : getCartItems now items ≠ []) (hcleared : log.cleared = false) :
      Takes user (.checkout path now) log (.post ⟨user, getCartItems now items⟩)
  | checkoutClears {path : String} {now : String → String} {log : CartLog}
      {items : List (String × String)} (hlisted : log.listed = some items)
      (hne : getCartItems now items ≠ [])
      (hanswered : log.answered = some ⟨user, getCartItems now items⟩) :
      Takes user (.checkout path now) log (.del (cartKey user))
  | counts {path : String} {log : CartLog} :
      Takes user (.getItemCount path) log (.hlen (cartKey user))

/-- The commands that a request may issue: an `EXPIRE` if it owes one. -/
def Allows (request : CartRequest) (log : CartLog) (c : CartCommand) : Prop :=
  ∃ user, request.user? = some user ∧
    match log.owed with
    | some key => key = cartKey user ∧ c = .expire key cartTTL
    | none => Takes user request log c

/-- What holds of the log when the request answers. -/
def Concludes (request : CartRequest) (log : CartLog) (answer : Response) : Prop :=
  log.owed = none ∧
    ∀ path now, request = .checkout path now → ¬ isSuccess answer.code → log.cleared = false

/-- The handler has become `q`, with this log. -/
abbrev Conducts (request : CartRequest) (log : CartLog) (q : CartProgram) : Prop :=
  Obeys CartLog.next (Allows request) (Concludes request) log q

section
variable {request : CartRequest} {log : CartLog} {user : String}

lemma Takes.allows {c : CartCommand} (h : Takes user request log c)
    (huser : request.user? = some user) (howed : log.owed = none) : Allows request log c := by
  refine ⟨user, huser, ?_⟩
  rw [howed]
  exact h

/-- A request that is no checkout may answer anything, once it owes nothing. -/
lemma conducts_done {answer : Response} (howed : log.owed = none)
    (hrequest : ∀ path now, request ≠ .checkout path now) : Conducts request log (.done answer) :=
  .done ⟨howed, fun path now h => absurd h (hrequest path now)⟩

/-- `setCartItem`, if its `HSET` may be issued. -/
lemma conducts_setCartItem {item : CartItem} {message : String}
    (huser : request.user? = some user) (howed : log.owed = none)
    (hrequest : ∀ path now, request ≠ .checkout path now)
    (h : Takes user request log (.hset (cartKey user) item.productID (cartItemToJSON item))) :
    Conducts request log (setCartItem (cartKey user) item (afterSet message)) := by
  refine .call (h.allows huser howed) fun written => ?_
  cases written with
  | error e => exact conducts_done howed hrequest
  | ok u =>
    -- the key is owed its `EXPIRE`, and given it
    refine .call ⟨user, huser, rfl, rfl⟩ fun expired => ?_
    cases expired with
    | error e => exact conducts_done rfl hrequest
    | ok u => exact conducts_done rfl hrequest

/-- `HDEL` and the `EXPIRE` after it, whose outcome nobody looks at. -/
lemma conducts_removal {removed : Except CallError Unit → CartProgram} {product : String}
    (huser : request.user? = some user) (howed : log.owed = none)
    (hrequest : ∀ path now, request ≠ .checkout path now)
    (hremove : Takes user request log (.hdel (cartKey user) product))
    (hprolong : Takes user request log (.expire (cartKey user) cartTTL))
    (herror : ∀ e, ∃ answer, removed (.error e) = .done answer)
    (hok : ∃ answer, removed (.ok ()) = .call (.expire (cartKey user) cartTTL) fun _ =>
      .done answer) : Conducts request log (.call (.hdel (cartKey user) product) removed) := by
  refine .call (hremove.allows huser howed) fun reply => ?_
  cases reply with
  | error e =>
    obtain ⟨answer, hanswer⟩ := herror e
    rw [hanswer]
    exact conducts_done howed hrequest
  | ok u =>
    obtain ⟨answer, hanswer⟩ := hok
    rw [hanswer]
    exact .call (hprolong.allows huser howed) fun _ => conducts_done rfl hrequest

/-! ## The handlers -/

lemma addItem_conducts (body : Option AddItemRequest) (now : String) :
    Conducts (.addItem body now) .start (handleAddItem body now) := by
  unfold handleAddItem
  split
  · exact conducts_done rfl (by simp)
  · rename_i req
    split <;> rename_i hvalid
    · refine .call ⟨req.userID, rfl, .addReads hvalid⟩ fun existing => ?_
      exact conducts_setCartItem rfl rfl (by simp) (.addWrites hvalid rfl)
    · exact conducts_done rfl (by simp)

lemma updateItem_conducts (body : Option UpdateItemRequest) (now : String) :
    Conducts (.updateItem body now) .start (handleUpdateItem body now) := by
  unfold handleUpdateItem
  split
  · exact conducts_done rfl (by simp)
  · rename_i req
    split
    · exact conducts_done rfl (by simp)
    split
    · exact conducts_done rfl (by simp)
    split
    · exact conducts_removal rfl rfl (by simp) .updateRemoves .updateProlongs
        (fun _ => ⟨_, rfl⟩) ⟨_, rfl⟩
    · rename_i hnonneg hzero
      have hpos : 0 < req.quantity := by
        rcases Int64.lt_or_eq_of_le (Int64.not_lt.mp hnonneg) with hpos | heq
        · exact hpos
        · exact absurd heq.symm hzero
      refine .call ⟨req.userID, rfl, .updateReads⟩ fun existing => ?_
      refine conducts_setCartItem rfl rfl (by simp) (.updateWrites hpos ?_)
      unfold itemToChange
      split
      · split <;> rfl
      · rfl
      · rfl

lemma getCart_conducts (path : String) (now : String → String) :
    Conducts (.getCart path now) .start (handleGetCart path now) := by
  unfold handleGetCart
  simp only
  split
  · exact conducts_done rfl (by simp)
  · refine .call ⟨extractUserID path, rfl, .lists⟩ fun listed => ?_
    cases listed with
    | error e => exact conducts_done rfl (by simp)
    | ok items => exact conducts_done rfl (by simp)

lemma deleteCart_conducts (path : String) :
    Conducts (.deleteCart path) .start (handleDeleteCart path) := by
  unfold handleDeleteCart
  simp only
  split
  · exact conducts_done rfl (by simp)
  · refine .call ⟨extractUserID path, rfl, .clears⟩ fun cleared => ?_
    cases cleared with
    | error e => exact conducts_done rfl (by simp)
    | ok u => exact conducts_done rfl (by simp)

lemma deleteItem_conducts (path : String) :
    Conducts (.deleteItem path) .start (handleDeleteItem path) := by
  unfold handleDeleteItem
  split
  · exact conducts_done rfl (by simp)
  · rename_i user product hsplit
    have huser : (CartRequest.deleteItem path).user? = some user := by
      show (splitItems path).map Prod.fst = some user
      rw [hsplit]
      rfl
    exact conducts_removal huser rfl (by simp) .removes .prolongs (fun _ => ⟨_, rfl⟩) ⟨_, rfl⟩

/-- A success makes the checkout clear the cart, whatever request it answers. -/
lemma afterPost_of_succeeds (key : String) {response : OrderResponse}
    (h : response.Succeeds) :
    ∃ body, afterPost key (.ok response) = .call (.del key) (checkedOut body) := by
  obtain ⟨hstatus, hbody⟩ := h
  obtain ⟨body, hbody⟩ := Option.isSome_iff_exists.mp hbody
  have haccepted : ¬ (response.statusCode < 200 ∨ 300 ≤ response.statusCode) := by
    unfold isSuccess at hstatus
    omega
  refine ⟨body, ?_⟩
  simp only [afterPost, hbody]
  rw [if_neg haccepted]

/-- What follows the request to the order service: its success lets the checkout clear the cart,
and nothing else does. -/
lemma afterPost_conducts {path user : String} {now : String → String}
    {items : List (String × String)} (huser : userBefore "/checkout" path = some user)
    (hne : getCartItems now items ≠ [])
    (posted : Except CallError OrderResponse) :
    Conducts (.checkout path now)
      (CartLog.next { CartLog.start with listed := some items }
        (.post ⟨user, getCartItems now items⟩) posted)
      (afterPost (cartKey user) posted) := by
  cases posted with
  | error e => exact .done ⟨rfl, fun _ _ _ _ => rfl⟩
  | ok response =>
    by_cases hsucceeds : response.Succeeds
    · have hlog : CartLog.next { CartLog.start with listed := some items }
          (.post ⟨user, getCartItems now items⟩) (.ok response) =
            { CartLog.start with
              listed := some items
              answered := some ⟨user, getCartItems now items⟩ } := if_pos hsucceeds
      have hallowed : Allows (.checkout path now)
          { CartLog.start with
            listed := some items
            answered := some ⟨user, getCartItems now items⟩ } (.del (cartKey user)) :=
        ⟨user, huser, .checkoutClears rfl hne rfl⟩
      obtain ⟨body, hprogram⟩ := afterPost_of_succeeds (cartKey user) hsucceeds
      rw [hlog, hprogram]
      refine .call hallowed fun cleared => ?_
      exact .done ⟨rfl, fun _ _ _ h => absurd (show isSuccess 200 by decide) h⟩
    · have hlog : CartLog.next { CartLog.start with listed := some items }
          (.post ⟨user, getCartItems now items⟩) (.ok response) =
            { CartLog.start with listed := some items } := if_neg hsucceeds
      rw [hlog]
      simp only [afterPost]
      split
      · exact .done ⟨rfl, fun _ _ _ _ => rfl⟩
      · rename_i body hbody
        have hrefused : response.statusCode < 200 ∨ 300 ≤ response.statusCode := by
          by_contra hstatus
          refine hsucceeds ⟨?_, by rw [hbody]; rfl⟩
          unfold isSuccess
          omega
        rw [if_pos hrefused]
        exact .done ⟨rfl, fun _ _ _ _ => rfl⟩

lemma checkout_conducts (path : String) (now : String → String) :
    Conducts (.checkout path now) .start (handleCheckout path now) := by
  unfold handleCheckout
  split
  · exact .done ⟨rfl, fun _ _ _ _ => rfl⟩
  · rename_i user huser
    refine .call ⟨user, huser, .checkoutLists rfl⟩ fun listed => ?_
    cases listed with
    | error e => exact .done ⟨rfl, fun _ _ _ _ => rfl⟩
    | ok items =>
      simp only [afterGetCart]
      split <;> rename_i hne
      · exact .done ⟨rfl, fun _ _ _ _ => rfl⟩
      · refine .call ⟨user, huser, .checkoutPosts rfl hne rfl⟩ fun posted => ?_
        exact afterPost_conducts huser hne posted

lemma getItemCount_conducts (path : String) :
    Conducts (.getItemCount path) .start (handleGetItemCount path) := by
  unfold handleGetItemCount
  split
  · exact conducts_done rfl (by simp)
  · rename_i user huser
    refine .call ⟨user, huser, .counts⟩ fun counted => ?_
    cases counted with
    | error e => exact conducts_done rfl (by simp)
    | ok n => exact conducts_done rfl (by simp)

/-- Every handler keeps to the list. -/
theorem serve_conducts (request : CartRequest) : Conducts request .start (serve request) := by
  cases request with
  | addItem body now => exact addItem_conducts body now
  | updateItem body now => exact updateItem_conducts body now
  | getCart path now => exact getCart_conducts path now
  | deleteCart path => exact deleteCart_conducts path
  | deleteItem path => exact deleteItem_conducts path
  | checkout path now => exact checkout_conducts path now
  | getItemCount path => exact getItemCount_conducts path

end

/-! ## Threads and their logs -/

def cartLog (t : CartThread) : CartLog := stateAfter CartLog.next .start t.trace

lemma conducts_of_serves {p : CartPool} (hp : p.Serves serve) {t : CartThread}
    (ht : t ∈ p.threads) : Conducts t.request (cartLog t) t.program :=
  (serve_conducts t.request).follows (hp t ht)

/-- A step of the pool is a command that the list allows. -/
theorem cartStep_cases {p p' : CartPool} {l : ℕ × Choice} (hp : p.Serves serve)
    (h : cartStep p l = some p') :
    ∃ t c k s r, p.threads[l.1]? = some t ∧ t.program = .call c k ∧
      Allows t.request (cartLog t) c ∧ execCart p.store l.1 c l.2 = some (s, r) ∧
      p' = { store := s, threads := p.threads.set l.1 (t.receive c r (k r)) } := by
  obtain ⟨t, c, k, s, r, ht, hk, hexec, rfl⟩ := Pool.step_eq_some.mp h
  have hconducts := conducts_of_serves hp (List.mem_of_getElem? ht)
  rw [hk] at hconducts
  exact ⟨t, c, k, s, r, ht, hk, hconducts.allowed_of_call, hexec, rfl⟩

/-- The order in the log is one whose request has been answered so. -/
lemma answered_of_trace {order : CheckoutRequest} {tr : List (Σ c, CartReply c)}
    (h : (stateAfter CartLog.next .start tr).answered = some order) :
    ∃ response, ⟨.post order, .ok response⟩ ∈ tr ∧ response.Succeeds := by
  induction tr with
  | nil => exact absurd h (by simp [stateAfter, CartLog.start])
  | cons e tr ih =>
    obtain ⟨c, r⟩ := e
    have hlater : (stateAfter CartLog.next .start tr).answered = some order →
        ∃ response, ⟨.post order, .ok response⟩ ∈ (⟨c, r⟩ :: tr) ∧ response.Succeeds := by
      intro hold
      obtain ⟨response, hmem, hsucceeds⟩ := ih hold
      exact ⟨response, List.mem_cons_of_mem _ hmem, hsucceeds⟩
    cases c with
    | post order' =>
      cases r with
      | error e => exact hlater h
      | ok response =>
        simp only [stateAfter, CartLog.next] at h
        split at h
        · rename_i hsucceeds
          obtain rfl := Option.some.inj h
          exact ⟨response, List.mem_cons_self, hsucceeds⟩
        · exact hlater h
    | hset key field value => cases r <;> exact hlater h
    | hgetall key => cases r <;> exact hlater h
    | _ => exact hlater h

/-! ## What is written and what is ordered -/

section
variable {request : CartRequest} {log : CartLog}

/-- What is written is the item of an add, or one with the quantity of an update. -/
lemma Allows.hset {key field value : String} (h : Allows request log (.hset key field value)) :
    ∃ item : CartItem, item.productID = field ∧ cartItemToJSON item = value ∧
      ((∃ req now existing, request = .addItem (some req) now ∧ req.isValid = true ∧
          log.read = some existing ∧ item = itemToAdd req now existing) ∨
        (∃ req now, request = .updateItem (some req) now ∧ 0 < item.quantity)) := by
  obtain ⟨user, -, h⟩ := h
  split at h
  · exact absurd h.2 (by simp)
  · cases h with
    | addWrites hvalid hread =>
      exact ⟨_, rfl, rfl, .inl ⟨_, _, _, rfl, hvalid, hread, rfl⟩⟩
    | updateWrites hpos hquantity =>
      exact ⟨_, rfl, rfl, .inr ⟨_, _, rfl, hquantity ▸ hpos⟩⟩

/-- What is ordered is what has been listed. -/
lemma Allows.post {order : CheckoutRequest} (h : Allows request log (.post order)) :
    ∃ now items, log.listed = some items ∧ order.items = getCartItems now items := by
  obtain ⟨user, -, h⟩ := h
  split at h
  · exact absurd h.2 (by simp)
  · cases h with
    | checkoutPosts hlisted hne hcleared => exact ⟨_, _, hlisted, rfl⟩

/-- An add reads the field of its product. -/
lemma Allows.hget {req : AddItemRequest} {now key field : String}
    (h : Allows (.addItem (some req) now) log (.hget key field)) :
    key = cartKey req.userID ∧ field = req.productID := by
  obtain ⟨user, huser, h⟩ := h
  obtain rfl := Option.some.inj huser
  split at h
  · exact absurd h.2 (by simp)
  · cases h with
    | addReads hvalid => exact ⟨rfl, rfl⟩

end

/-! ## Other carts -/

/-- A request issues commands on its own user's cart only. -/
lemma Allows.key {request : CartRequest} {log : CartLog} {c : CartCommand} {key : String}
    (h : Allows request log c) (hkey : c.key? = some key) :
    ∃ user, request.user? = some user ∧ key = cartKey user := by
  obtain ⟨user, huser, h⟩ := h
  refine ⟨user, huser, ?_⟩
  split at h
  · obtain ⟨rfl, rfl⟩ := h
    exact (Option.some.inj hkey).symm
  · cases h with
    | checkoutPosts => exact absurd hkey (by simp [CartCommand.key?])
    | _ => exact (Option.some.inj hkey).symm

/-- A command leaves the carts alone that it is not about. -/
lemma carts_cartEffect_of_key {s : CartStore} {response : OrderResponse} {c : CartCommand}
    {key : String} (h : c.key? ≠ some key) :
    (cartEffect s response c).carts key = s.carts key := by
  cases c with
  | post order =>
    simp only [cartEffect]
    split <;> rfl
  | hget key' field | hgetall key' | hlen key' => rfl
  | hset key' field value | expire key' seconds | hdel key' field | del key' =>
    have hne : key' ≠ key := fun heq => h (congrArg some heq)
    exact (carts_setCart _ _ _ _).trans (if_neg hne)

lemma carts_execCart_of_key {s s' : CartStore} {i : ℕ} {c : CartCommand} {choice : Choice}
    {r : CartReply c} {key : String} (hkey : c.key? ≠ some key)
    (hexec : execCart s i c choice = some (s', r)) : s'.carts key = s.carts key := by
  rcases execCart_store hexec with rfl | rfl
  · rfl
  · exact carts_cartEffect_of_key hkey

lemma cartKey_injective : Function.Injective cartKey := fun _ _ h =>
  (String.append_right_inj "cart:").mp h

end DevopsEcommerce.CartService
