import DevopsEcommerce.CartService.Conduct
import DevopsEcommerce.CartService.Representation
import DevopsEcommerce.CartService.UnitSteps

/-!
# Quantities stay positive

Each request checks its own quantity, and an add is the only one to add anything up, in 64 bits
and unchecked. In every run from an empty store, whatever is served and whatever fails, all
quantities in the carts and in the orders stay positive if and only if no addition that is written
exceeds 64 bits (`quantities_positive_iff`).
-/

open Interleaving

namespace DevopsEcommerce.CartService

/-- Every item that is read from a cart has a positive quantity. -/
def QuantitiesPositive (s : CartStore) : Prop :=
  ∀ userID field raw now item, (fieldsOf s userID).lookup field = some raw →
    parseCartItem now field raw = some item → 0 < item.quantity

/-- So has every item of an order that is about to be submitted. -/
def OrdersPositive (p : CartPool) : Prop :=
  ∀ t ∈ p.threads, ∀ order, t.program.next? = some (.post order) →
    ∀ item ∈ order.items, 0 < item.quantity

def Positive (p : CartPool) : Prop := QuantitiesPositive p.store ∧ OrdersPositive p

/-- If the event lets the `HSET` of an add take effect, then the quantity that the add has read
and its own have a sum that an `int` can hold. -/
def AddFits (p : CartPool) : CartEvent → Prop
  | .command thread choice =>
    choice.fault ≠ .before → ∀ t, p.threads[thread]? = some t →
      ∀ req now existing, t.request = .addItem (some req) now →
        (cartLog t).read = some existing →
        (∃ key field value, t.program.next? = some (.hset key field value)) →
          (foundQuantity req.productID existing).toInt + req.quantity.toInt < 2 ^ 63
  | .expiry _ => True

/-! ## Texts of positive quantity -/

/-- The text is that of an item of the field's product, of positive quantity. -/
def TextPositive (field raw : String) : Prop :=
  ∃ item : CartItem, item.productID = field ∧ raw = cartItemToJSON item ∧ 0 < item.quantity

lemma TextPositive.readable {field raw : String} (h : TextPositive field raw) :
    Readable field raw := by
  obtain ⟨item, rfl, rfl, -⟩ := h
  exact readable_cartItemToJSON item

/-- The item that an add writes is positive if and only if its addition fits. -/
lemma itemToAdd_pos_iff {req : AddItemRequest} {now : String}
    {existing : Except CallError (Option String)} (hvalid : req.isValid = true)
    (hread : ∀ raw, existing = .ok (some raw) → TextPositive req.productID raw) :
    0 < (itemToAdd req now existing).quantity ↔
      (foundQuantity req.productID existing).toInt + req.quantity.toInt < 2 ^ 63 := by
  have hfound : 0 ≤ (foundQuantity req.productID existing).toInt := by
    cases existing with
    | error e => exact Int.le_refl _
    | ok stored =>
      cases stored with
      | none => exact Int.le_refl _
      | some raw =>
        obtain ⟨item, -, rfl, hpos⟩ := hread raw rfl
        have hquantity : foundQuantity req.productID (.ok (some (cartItemToJSON item))) =
            item.quantity := quantityIn_cartItemToJSON _ _
        rw [hquantity]
        exact Int.le_of_lt (Int64.lt_iff_toInt_lt.mp hpos)
  have hquantity := quantity_pos hvalid
  have hsum := toInt_add_cases (foundQuantity req.productID existing) hquantity
  rw [itemToAdd_quantity req now fun raw h => (hread raw h).readable, Int64.lt_iff_toInt_lt]
  have hzero : (0 : Int64).toInt = 0 := rfl
  have hlt := req.quantity.toInt_lt
  have hlt' := (foundQuantity req.productID existing).toInt_lt
  omega

/-! ## The invariant -/

/-- What holds of a pool as long as additions fit: the carts have positive quantities, and so has
whatever was read from them. -/
structure PositiveSoFar (p : CartPool) : Prop where
  serves : p.Serves serve
  stored : ∀ userID field raw, (fieldsOf p.store userID).lookup field = some raw →
    TextPositive field raw
  read : ∀ t ∈ p.threads, ∀ req now raw, t.request = .addItem (some req) now →
    (cartLog t).read = some (.ok (some raw)) → TextPositive req.productID raw
  listed : ∀ t ∈ p.threads, ∀ items, (cartLog t).listed = some items →
    ∀ pr ∈ items, TextPositive pr.1 pr.2

lemma PositiveSoFar.init (requests : List CartRequest) :
    PositiveSoFar (cartPool noCarts requests) := by
  have hstart : ∀ t ∈ (cartPool noCarts requests).threads, cartLog t = .start := by
    intro t ht
    obtain ⟨request, -, rfl⟩ := List.mem_map.mp ht
    rfl
  constructor
  · exact Pool.serves_init serve _ requests
  · intro userID field raw hraw
    exact absurd hraw (by simp [fieldsOf, cartPool, Pool.init, noCarts, Cart.missing])
  · intro t ht req now raw _ hread
    rw [hstart t ht] at hread
    cases hread
  · intro t ht items hlisted
    rw [hstart t ht] at hlisted
    cases hlisted

/-- Hence nothing that is stored or about to be ordered is zero or negative. -/
lemma PositiveSoFar.positive {p : CartPool} (hp : PositiveSoFar p) : Positive p := by
  refine ⟨?_, ?_⟩
  · intro userID field raw now item hraw hparse
    obtain ⟨item', -, rfl, hpos⟩ := hp.stored userID field raw hraw
    rw [parseCartItem_cartItemToJSON] at hparse
    exact Option.some.inj hparse ▸ hpos
  · intro t ht order hpost item hitem
    have hconducts := conducts_of_serves hp.serves ht
    cases hprogram : t.program with
    | done a =>
      rw [hprogram] at hpost
      cases hpost
    | call c k =>
      rw [hprogram] at hpost hconducts
      obtain rfl : c = .post order := Option.some.inj hpost
      obtain ⟨now, items, hlisted, hitems⟩ := hconducts.allowed_of_call.post
      -- the items of the order are those that were listed
      rw [hitems] at hitem
      obtain ⟨⟨field, raw⟩, hpr, hparse⟩ := List.mem_filterMap.mp hitem
      obtain ⟨item', -, hraw, hpos⟩ := hp.listed t ht _ hlisted _ hpr
      simp only at hraw hparse
      rw [hraw, parseCartItem_cartItemToJSON] at hparse
      exact Option.some.inj hparse ▸ hpos

/-! ## A step -/

section
variable {p p' : CartPool} {t : CartThread} {thread : ℕ} {choice : Choice}

/-- What is written is positive if and only if the addition before it fits. -/
lemma PositiveSoFar.hset (hp : PositiveSoFar p) (ht : t ∈ p.threads) {key field value : String}
    (hallows : Allows t.request (cartLog t) (.hset key field value)) :
    ∃ item : CartItem, item.productID = field ∧ cartItemToJSON item = value ∧
      (0 < item.quantity ↔ ∀ req now existing, t.request = .addItem (some req) now →
        (cartLog t).read = some existing →
          (foundQuantity req.productID existing).toInt + req.quantity.toInt < 2 ^ 63) := by
  obtain ⟨item, hfield, hvalue, hitem⟩ := hallows.hset
  refine ⟨item, hfield, hvalue, ?_⟩
  rcases hitem with ⟨req, now, existing, hrequest, hvalid, hread, rfl⟩ |
    ⟨req, now, hrequest, hpos⟩
  · have hiff : 0 < (itemToAdd req now existing).quantity ↔ _ :=
      itemToAdd_pos_iff hvalid fun raw hraw => hp.read t ht req now raw hrequest (hraw ▸ hread)
    rw [hiff]
    constructor
    · intro hfits req' now' existing' hrequest' hread'
      cases hrequest.symm.trans hrequest'
      cases hread.symm.trans hread'
      exact hfits
    · intro h
      exact h req now existing hrequest hread
  · refine iff_of_true hpos fun req' now' existing hrequest' => ?_
    cases hrequest.symm.trans hrequest'

/-- If the addition fits, what is stored after a command is positive. -/
lemma PositiveSoFar.stored_command (hp : PositiveSoFar p) (ht : p.threads[thread]? = some t)
    {c : CartCommand} {k : CartReply c → CartProgram} (hk : t.program = .call c k)
    (hallows : Allows t.request (cartLog t) c) (hfits : AddFits p (.command thread choice))
    {store : CartStore} {r : CartReply c}
    (hexec : execCart p.store thread c choice = some (store, r)) {userID field raw : String}
    (hraw : (fieldsOf store userID).lookup field = some raw) : TextPositive field raw := by
  by_cases hfault : choice.fault = .before
  · rw [execCart_before hfault hexec] at hraw
    exact hp.stored userID field raw hraw
  · rw [execCart_effect hfault hexec, fieldsOf_cartEffect] at hraw
    rcases lookup_fieldsEffect hraw with hold | rfl
    · exact hp.stored userID field raw hold
    · obtain ⟨item, hfield, hvalue, hiff⟩ := hp.hset (List.mem_of_getElem? ht) hallows
      refine ⟨item, hfield, hvalue.symm, hiff.mpr fun req now existing hrequest hread => ?_⟩
      have hnext : t.program.next? = some (.hset (cartKey userID) field raw) := by
        rw [hk]
        rfl
      exact hfits hfault t ht req now existing hrequest hread ⟨_, _, _, hnext⟩

/-- An event whose addition fits. -/
lemma PositiveSoFar.next {e : CartEvent} (hp : PositiveSoFar p) (hfits : AddFits p e)
    (hstep : cartEvent p e = some p') : PositiveSoFar p' := by
  cases e with
  | expiry key =>
    obtain rfl := Option.some.inj hstep
    refine ⟨hp.serves, fun userID field raw hraw => ?_, hp.read, hp.listed⟩
    unfold fieldsOf at hraw
    rw [carts_setCart] at hraw
    split at hraw
    · exact absurd hraw (by simp [Cart.missing])
    · exact hp.stored userID field raw hraw
  | command thread choice =>
    have hserves := Pool.serves_preserved serve p (thread, choice) p' hp.serves hstep
    obtain ⟨t, c, k, store, r, ht, hk, hallows, hexec, rfl⟩ := cartStep_cases hp.serves hstep
    have hmem := List.mem_of_getElem? ht
    refine ⟨hserves, ?_, ?_, ?_⟩
    · intro userID field raw hraw
      exact hp.stored_command ht hk hallows hfits hexec hraw
    · refine forall_mem_set _ hp.read fun req now raw hrequest hread => ?_
      rcases CartLog.read_next hread with hold | ⟨key, field, heq⟩
      · exact hp.read t hmem req now raw hrequest hold
      · -- the reply to the `HGET` is a text of the store
        obtain ⟨rfl, hreply⟩ := Sigma.mk.inj heq
        obtain rfl := eq_of_heq hreply
        rw [show t.request = .addItem (some req) now from hrequest] at hallows
        obtain ⟨rfl, rfl⟩ := hallows.hget
        rcases execCart_hget hexec with herror | hok
        · cases herror
        · exact hp.stored req.userID req.productID raw (Except.ok.inj hok).symm
    · refine forall_mem_set _ hp.listed fun items hlisted => ?_
      rcases CartLog.listed_next hlisted with hold | ⟨key, heq⟩
      · exact hp.listed t hmem items hold
      · obtain ⟨rfl, hreply⟩ := Sigma.mk.inj heq
        obtain rfl := eq_of_heq hreply
        obtain ⟨user, -, rfl⟩ : ∃ user, _ ∧ key = cartKey user := hallows.key rfl
        intro pr hpr
        exact hp.stored user pr.1 pr.2
          (mem_pairs.mp ((perm_of_execCart_hgetall hexec).mem_iff.mp hpr))

/-- An event whose addition does not fit leaves a quantity that is not positive. -/
lemma PositiveSoFar.not_positive {e : CartEvent} (hp : PositiveSoFar p) (hfits : ¬ AddFits p e)
    (hstep : cartEvent p e = some p') : ¬ Positive p' := by
  cases e with
  | expiry key => exact absurd trivial hfits
  | command thread choice =>
    unfold AddFits at hfits
    push Not at hfits
    obtain ⟨hfault, t, ht, req, now, existing, hrequest, hread, ⟨key, field, value, hnext⟩, hsum⟩ :=
      hfits
    obtain ⟨t', c, k, store, r, ht', hk, hallows, hexec, rfl⟩ := cartStep_cases hp.serves hstep
    obtain rfl := Option.some.inj (ht.symm.trans ht')
    rw [hk] at hnext
    obtain rfl : c = .hset key field value := Option.some.inj hnext
    obtain ⟨item, rfl, rfl, hiff⟩ := hp.hset (List.mem_of_getElem? ht) hallows
    obtain ⟨user, -, rfl⟩ : ∃ user, _ ∧ key = cartKey user := hallows.key rfl
    rintro ⟨hpositive, -⟩
    have hraw : (fieldsOf store user).lookup item.productID = some (cartItemToJSON item) := by
      rw [execCart_effect hfault hexec, fieldsOf_cartEffect, fieldsEffect, if_pos rfl]
      exact AList.lookup_insert _
    have hpos := hpositive user item.productID _ "" item hraw (parseCartItem_cartItemToJSON _ _ _)
    have hlt := hiff.mp hpos req now existing hrequest hread
    omega

end

/-- **Positive quantities.** In a run from an empty store, of any requests with any faults, every
quantity that is stored or about to be ordered is positive in every state, if and only if every
addition that is written has a sum below 2 to the 63. -/
theorem quantities_positive_iff {requests : List CartRequest} {es : List CartEvent} {p : CartPool}
    (hrun : run cartEvent (cartPool noCarts requests) es = some p) :
    Throughout cartEvent Positive (cartPool noCarts requests) es ↔
      StepsMeet cartEvent AddFits (cartPool noCarts requests) es := by
  have hinit := PositiveSoFar.init requests
  rw [throughout_iff_head_and_stepsMeet, and_iff_right hinit.positive]
  refine stepsMeet_iff_stepsMeet (I := PositiveSoFar) (D := fun _ _ => True) ?_ ?_ hinit
    (stepsMeet_true _ _) hrun
  · intro p e p' hp _ hfits hstep
    exact hp.next hfits hstep
  · intro p e p' hp _ hstep
    constructor
    · intro hpositive
      by_contra hfits
      exact hp.not_positive hfits hstep (hpositive p' hstep)
    · intro hfits p'' hstep'
      obtain rfl := Option.some.inj (hstep.symm.trans hstep')
      exact (hp.next hfits hstep).positive

theorem quantities_positive_iff_five :
    Throughout cartEvent Positive (cartPool noCarts [addFive]) addingFive ↔
      StepsMeet cartEvent AddFits (cartPool noCarts [addFive]) addingFive :=
  quantities_positive_iff (run_final isSome_addingFive)

/-! ## An addition that does not fit -/

/-- The largest quantity is added, and then one more unit. -/
def addsBeyond : List CartRequest :=
  [.addItem (some ⟨"u", "p", 9223372036854775807⟩) "t", .addItem (some ⟨"u", "p", 1⟩) "t"]

def oneAfterTheOther : List CartEvent :=
  [.command 0 healthy, .command 0 healthy, .command 0 healthy,
    .command 1 healthy, .command 1 healthy, .command 1 healthy]

lemma isSome_oneAfterTheOther :
    (run cartEvent (cartPool noCarts addsBeyond) oneAfterTheOther).isSome = true := by
  decide +kernel

/-- **A negative quantity.** Two adds that are both accepted leave the least `int` in the cart. -/
theorem add_overflows :
    ¬ ∀ (requests : List CartRequest) (es : List CartEvent) (p : CartPool),
      (∀ q ∈ requests, ∃ req now, q = .addItem (some req) now) →
      run cartEvent (cartPool noCarts requests) es = some p →
      (∀ t ∈ p.threads, AnsweredOk t) → QuantitiesPositive p.store := by
  intro h
  have hadds : ∀ q ∈ addsBeyond, ∃ req now, q = .addItem (some req) now := by
    intro q hq
    simp only [addsBeyond, List.mem_cons, List.not_mem_nil, or_false] at hq
    rcases hq with rfl | rfl
    · exact ⟨_, _, rfl⟩
    · exact ⟨_, _, rfl⟩
  have hpositive := h addsBeyond oneAfterTheOther _ hadds
    (run_final isSome_oneAfterTheOther) (by decide +kernel)
  have hraw : (fieldsOf (final cartEvent (cartPool noCarts addsBeyond) oneAfterTheOther
      isSome_oneAfterTheOther).store "u").lookup "p" =
        some (cartItemToJSON ⟨"p", -9223372036854775808, "t"⟩) := by decide +kernel
  have hpos := hpositive "u" "p" _ "t" _ hraw (parseCartItem_cartItemToJSON _ _ _)
  exact absurd hpos (by decide)

end DevopsEcommerce.CartService
