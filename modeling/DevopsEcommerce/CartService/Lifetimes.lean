import DevopsEcommerce.CartService.Conduct
import DevopsEcommerce.CartService.Representation

/-!
# No cart outlives its TTL

An `HSET` may create a cart without a TTL, and the `EXPIRE` comes after it as a command of its
own. A cart without a TTL is then one that some request has written and still owes its `EXPIRE`,
whatever others do to the key in between (`InTime`). So when no request is in progress, every cart
has its TTL (`cart_expires`).
-/

open Interleaving

namespace DevopsEcommerce.CartService

/-- The key does not exist, or expires within 24 hours. -/
def Cart.Expires (cart : Cart) : Prop :=
  cart.fields.entries = [] ∨ ∃ seconds, cart.ttl = some seconds ∧ seconds ≤ 24 * 60 * 60

/-- The command of the event is not one of Redis, or it succeeds. -/
def RedisSucceeds (p : CartPool) : CartEvent → Prop
  | .command thread choice => ∀ t, p.threads[thread]? = some t → ∀ c, t.program.next? = some c →
      c.key?.isSome = true → choice.fault = .none
  | .expiry _ => True

/-- No request is in progress: each has not started or has answered. -/
def Idle (p : CartPool) : Prop :=
  ∀ t ∈ p.threads, t.trace = [] ∨ t.program.answer?.isSome = true

instance (p : CartPool) : Decidable (Idle p) :=
  inferInstanceAs (Decidable (∀ t ∈ p.threads, t.trace = [] ∨ t.program.answer?.isSome = true))

/-! ## What commands do to a TTL -/

section
variable {s : CartStore} {response : OrderResponse} {key : String}

lemma expires_missing : Cart.missing.Expires := .inl rfl

lemma expires_ofFields {fields : Hash} {ttl : Option ℕ}
    (h : fields.entries ≠ [] → ∃ seconds, ttl = some seconds ∧ seconds ≤ 24 * 60 * 60) :
    (Cart.ofFields fields ttl).Expires := by
  unfold Cart.ofFields
  split
  · exact expires_missing
  · rename_i hne
    exact .inr (h hne)

/-- A key that is given its TTL. -/
lemma expires_expire (s : CartStore) (response : OrderResponse) (key : String) :
    ((cartEffect s response (.expire key cartTTL)).carts key).Expires := by
  simp only [cartEffect, carts_setCart, if_true]
  exact expires_ofFields fun _ => ⟨cartTTL, rfl, Nat.le_refl _⟩

/-- A command that does not write to the key, and gives no other TTL than that of the service,
leaves a key as short-lived as it was. -/
lemma Cart.Expires.effect (h : (s.carts key).Expires) {c : CartCommand}
    (hwrite : ∀ field value, c ≠ .hset key field value)
    (hexpire : ∀ seconds, c = .expire key seconds → seconds = cartTTL) :
    ((cartEffect s response c).carts key).Expires := by
  by_cases hkey : c.key? = some key
  · cases c with
    | hget key' field | hgetall key' | hlen key' => exact h
    | hset key' field value =>
      obtain rfl := Option.some.inj hkey
      exact absurd rfl (hwrite field value)
    | expire key' seconds =>
      obtain rfl := Option.some.inj hkey
      obtain rfl := hexpire seconds rfl
      exact expires_expire _ _ _
    | hdel key' field =>
      obtain rfl := Option.some.inj hkey
      simp only [cartEffect, carts_setCart, if_true]
      refine expires_ofFields fun hne => h.resolve_left fun hempty => hne ?_
      -- what is left was there before
      have hleft := List.kerase_sublist field (s.carts key').fields.entries
      exact List.sublist_nil.mp (hleft.trans (hempty ▸ List.Sublist.refl _))
    | del key' =>
      obtain rfl := Option.some.inj hkey
      simp only [cartEffect, carts_setCart, if_true]
      exact expires_missing
    | post order => cases hkey
  · rw [carts_cartEffect_of_key hkey]
    exact h

end

/-! ## The invariant -/

/-- Some request has written to the key and owes it its `EXPIRE`. -/
def Owed (p : CartPool) (key : String) : Prop := ∃ t ∈ p.threads, (cartLog t).owed = some key

/-- Every cart expires or is owed its `EXPIRE`. -/
structure InTime (p : CartPool) : Prop where
  serves : p.Serves serve
  expires : ∀ key, (p.store.carts key).Expires ∨ Owed p key

lemma InTime.init {carts : String → Cart} (hcarts : ∀ key, (carts key).Expires)
    (requests : List CartRequest) : InTime (cartPool carts requests) :=
  ⟨Pool.serves_init serve _ requests, fun key => .inl (hcarts key)⟩

section
variable {p p' : CartPool} {t : CartThread} {thread : ℕ} {choice : Choice} {key : String}

/-- The debt of another thread is not touched. -/
lemma Owed.set (ht : p.threads[thread]? = some t) {t' : CartThread} {store : CartStore}
    (howed : Owed p key) (hkeep : (cartLog t).owed = some key → (cartLog t').owed = some key) :
    Owed { store := store, threads := p.threads.set thread t' } key := by
  obtain ⟨u, hu, hkey⟩ := howed
  obtain ⟨j, hj⟩ := List.getElem?_of_mem hu
  by_cases hij : thread = j
  · subst hij
    obtain rfl := Option.some.inj (ht.symm.trans hj)
    exact ⟨t', List.mem_of_getElem? (getElem?_set_moved ht t'), hkeep hkey⟩
  · refine ⟨u, List.mem_of_getElem? (i := j) ?_, hkey⟩
    rw [List.getElem?_set_ne hij]
    exact hj

/-- A request that owes an `EXPIRE` issues it, and any other one leaves a debt if it writes. -/
lemma Allows.expire {request : CartRequest} {log : CartLog} {seconds : ℕ}
    (h : Allows request log (.expire key seconds)) :
    seconds = cartTTL ∧ ∀ key', log.owed = some key' → key' = key := by
  obtain ⟨user, -, h⟩ := h
  split at h
  · rename_i owed howed
    obtain ⟨rfl, heq⟩ := h
    cases heq
    refine ⟨rfl, fun key' hkey' => ?_⟩
    exact Option.some.inj (hkey'.symm.trans howed)
  · rename_i howed
    refine ⟨?_, fun key' hkey' => ?_⟩
    · cases h <;> rfl
    · rw [howed] at hkey'
      cases hkey'

/-- A request that owes an `EXPIRE` issues no other command. -/
lemma Allows.of_owed {request : CartRequest} {log : CartLog} {c : CartCommand}
    (h : Allows request log c) (howed : log.owed = some key) : c = .expire key cartTTL := by
  obtain ⟨user, -, h⟩ := h
  rw [howed] at h
  exact h.2

/-- One command. -/
lemma InTime.command (hp : InTime p) (hredis : RedisSucceeds p (.command thread choice))
    (hstep : cartStep p (thread, choice) = some p') : InTime p' := by
  have hserves := Pool.serves_preserved serve p (thread, choice) p' hp.serves hstep
  obtain ⟨t, c, k, store, r, ht, hk, hallows, hexec, rfl⟩ := cartStep_cases hp.serves hstep
  simp only at ht hexec
  refine ⟨hserves, fun key => ?_⟩
  have hnext : t.program.next? = some c := by
    rw [hk]
    rfl
  by_cases hkey : c.key? = some key
  · have hfault := hredis t ht c hnext (by rw [hkey]; rfl)
    obtain ⟨rfl, hreply⟩ := execCart_healthy hfault hexec
    by_cases howed : (cartLog t).owed = some key
    · -- the debt is paid
      obtain rfl := hallows.of_owed howed
      exact .inl (expires_expire p.store choice.response key)
    · by_cases hwrite : ∃ field value, c = .hset key field value
      · -- a new debt
        obtain ⟨field, value, rfl⟩ := hwrite
        obtain rfl := Option.some.inj hreply
        exact .inr ⟨_, List.mem_of_getElem? (getElem?_set_moved ht _), rfl⟩
      · rcases hp.expires key with hexpires | hother
        · refine .inl (hexpires.effect (fun field value heq => hwrite ⟨field, value, heq⟩) ?_)
          rintro seconds rfl
          exact hallows.expire.1
        · exact .inr (hother.set ht fun h => absurd h howed)
  · -- a command on another key
    rcases hp.expires key with hexpires | hother
    · rw [← carts_execCart_of_key hkey hexec] at hexpires
      exact .inl hexpires
    · refine .inr (hother.set ht fun howed => ?_)
      obtain rfl := hallows.of_owed howed
      exact absurd rfl hkey

lemma InTime.event {e : CartEvent} (hp : InTime p) (hredis : RedisSucceeds p e)
    (hstep : cartEvent p e = some p') : InTime p' := by
  cases e with
  | command thread choice => exact hp.command hredis hstep
  | expiry key =>
    obtain rfl := Option.some.inj hstep
    refine ⟨hp.serves, fun key' => ?_⟩
    rcases hp.expires key' with hexpires | howed
    · left
      rw [carts_setCart]
      split
      · exact expires_missing
      · exact hexpires
    · exact .inr howed

/-- Who has not started or has answered owes nothing. -/
lemma not_owed_of_idle (hserves : p.Serves serve) (hidle : Idle p) (key : String) :
    ¬ Owed p key := by
  rintro ⟨t, ht, howed⟩
  rcases hidle t ht with hstart | hdone
  · unfold cartLog at howed
    rw [hstart] at howed
    cases howed
  · have hconducts := conducts_of_serves hserves ht
    obtain ⟨answer, hanswer⟩ := Option.isSome_iff_exists.mp hdone
    rw [Program.answer?_eq_some hanswer] at hconducts
    cases hconducts with
    | done hconcludes =>
      rw [hconcludes.1] at howed
      cases howed

end

/-- **No cart outlives its TTL.** Let any requests be served from carts that all have their TTL,
such as none, in any interleaving in which all Redis commands succeed, and let keys expire at any
time. In every state in which no request is in progress, every cart key does not exist or carries
a TTL of at most 24 hours. -/
theorem cart_expires {carts : String → Cart} {requests : List CartRequest} {es : List CartEvent}
    {p : CartPool} (hcarts : ∀ key, (carts key).Expires)
    (hredis : StepsMeet cartEvent RedisSucceeds (cartPool carts requests) es)
    (hrun : run cartEvent (cartPool carts requests) es = some p) (hidle : Idle p) (key : String) :
    (p.store.carts key).Expires := by
  have hp := run_invariant_of_stepsMeet (fun _ _ _ h hD hstep => InTime.event h hD hstep)
    (InTime.init hcarts requests) hredis hrun
  exact (hp.expires key).resolve_right (not_owed_of_idle hp.serves hidle key)

/-! ## A cart that is cleared between `HSET` and `EXPIRE` -/

def addsAndClear : List CartRequest :=
  [addFive, .deleteCart "/api/cart/u", .addItem (some ⟨"u", "q", 1⟩) "t"]

/-- The cart is cleared before the first add has issued its `EXPIRE`, and the other add writes. -/
def clearedBetween : List CartEvent :=
  [.command 0 healthy, .command 0 healthy, .command 1 healthy, .command 2 healthy,
    .command 2 healthy, .command 0 healthy, .command 2 healthy]

lemma isSome_clearedBetween :
    (run cartEvent (cartPool noCarts addsAndClear) clearedBetween).isSome = true := by
  decide +kernel

theorem cart_expires_cleared :
    ((final cartEvent (cartPool noCarts addsAndClear) clearedBetween
      isSome_clearedBetween).store.carts "cart:u").Expires := by
  have hhealthy : ∀ e ∈ clearedBetween, ∃ thread, e = .command thread healthy := by
    intro e he
    simp only [clearedBetween, List.mem_cons, List.not_mem_nil, or_false] at he
    rcases he with rfl | rfl | rfl | rfl | rfl | rfl | rfl <;> exact ⟨_, rfl⟩
  refine cart_expires (fun key => expires_missing) ?_ (run_final isSome_clearedBetween)
    (by decide +kernel) "cart:u"
  refine (stepsMeet_of_forall hhealthy _).mono ?_
  rintro p e ⟨thread, rfl⟩ t ht c hc hkey
  rfl

end DevopsEcommerce.CartService
