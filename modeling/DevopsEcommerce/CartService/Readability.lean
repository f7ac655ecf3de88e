import DevopsEcommerce.CartService.Quantities

/-!
# Carts stay readable

What the commands do to the fields of a cart, and that the service can read what it has
written: readable fields stay readable, whatever requests are served and whatever fails
(`readableCart_throughout`).
-/

open Interleaving

namespace DevopsEcommerce.CartService

/-! ## What commands do to a cart -/

def fieldsOf (s : CartStore) (userID : String) : Hash := (s.carts (cartKey userID)).fields

/-- What a command that takes effect does to the fields of a key. -/
def fieldsEffect (key : String) (fields : Hash) : CartCommand → Hash
  | .hset key' field value => if key' = key then fields.insert field value else fields
  | .hdel key' field => if key' = key then fields.erase field else fields
  | .del key' => if key' = key then ∅ else fields
  | _ => fields

lemma carts_setCart (s : CartStore) (key key' : String) (cart : Cart) :
    (s.setCart key cart).carts key' = if key = key' then cart else s.carts key' := by
  unfold CartStore.setCart
  by_cases h : key = key'
  · subst h
    rw [if_pos rfl]
    exact Function.update_self _ _ _
  · rw [if_neg h]
    exact Function.update_of_ne (Ne.symm h) _ _

lemma fieldsOf_cartEffect (s : CartStore) (userID : String) (response : OrderResponse)
    (c : CartCommand) :
    fieldsOf (cartEffect s response c) userID =
      fieldsEffect (cartKey userID) (fieldsOf s userID) c := by
  unfold fieldsOf
  cases c with
  | post order =>
    simp only [cartEffect, fieldsEffect]
    split <;> rfl
  | hget key field => rfl
  | hgetall key => rfl
  | hlen key => rfl
  | hset key field value =>
    simp only [cartEffect, fieldsEffect, carts_setCart]
    split <;> rename_i h
    · rw [h]
    · rfl
  | expire key seconds =>
    simp only [cartEffect, fieldsEffect, carts_setCart]
    split <;> rename_i h
    · rw [fields_ofFields, h]
    · rfl
  | hdel key field =>
    simp only [cartEffect, fieldsEffect, carts_setCart]
    split <;> rename_i h
    · rw [fields_ofFields, h]
    · rfl
  | del key =>
    simp only [cartEffect, fieldsEffect, carts_setCart]
    split <;> rfl

/-- What a field holds after a command it held before, or the command has written it. -/
lemma lookup_fieldsEffect {key field raw : String} {fields : Hash} {c : CartCommand}
    (h : (fieldsEffect key fields c).lookup field = some raw) :
    fields.lookup field = some raw ∨ c = .hset key field raw := by
  cases c with
  | hset key' field' value =>
    simp only [fieldsEffect] at h
    split at h
    · rename_i hkey
      subst hkey
      -- the field itself has been written, every other one of the cart is as before
      by_cases hfield : field = field'
      · subst hfield
        rw [AList.lookup_insert, Option.some.injEq] at h
        rw [h]
        exact .inr rfl
      · rw [AList.lookup_insert_ne hfield] at h
        exact .inl h
    · exact .inl h
  | hdel key' field' =>
    simp only [fieldsEffect] at h
    split at h
    · by_cases hfield : field = field'
      · rw [hfield, AList.lookup_erase] at h
        exact absurd h (by simp)
      · rw [AList.lookup_erase_ne hfield] at h
        exact .inl h
    · exact .inl h
  | del key' =>
    simp only [fieldsEffect] at h
    split at h
    · exact absurd h (by simp [AList.lookup_empty])
    · exact .inl h
  | _ => exact .inl h

/-- A command takes effect or does nothing. -/
lemma execCart_store {s s' : CartStore} {i : ℕ} {c : CartCommand} {choice : Choice}
    {r : CartReply c} (h : execCart s i c choice = some (s', r)) :
    s' = s ∨ s' = cartEffect s choice.response c := by
  unfold execCart at h
  split at h
  · obtain ⟨_, -, heq⟩ := Option.map_eq_some_iff.mp h
    exact .inr (Prod.mk.inj heq).1.symm
  · exact .inl (Prod.mk.inj (Option.some.inj h)).1.symm
  · exact .inr (Prod.mk.inj (Option.some.inj h)).1.symm

/-- A command that does not fail before it is executed takes effect. -/
lemma execCart_effect {s s' : CartStore} {i : ℕ} {c : CartCommand} {choice : Choice}
    {r : CartReply c} (hfault : choice.fault ≠ .before) (h : execCart s i c choice = some (s', r)) :
    s' = cartEffect s choice.response c := by
  unfold execCart at h
  split at h
  · obtain ⟨_, -, heq⟩ := Option.map_eq_some_iff.mp h
    exact (Prod.mk.inj heq).1.symm
  · rename_i hbefore
    exact absurd hbefore hfault
  · exact (Prod.mk.inj (Option.some.inj h)).1.symm

lemma execCart_before {s s' : CartStore} {i : ℕ} {c : CartCommand} {choice : Choice}
    {r : CartReply c} (hfault : choice.fault = .before) (h : execCart s i c choice = some (s', r)) :
    s' = s := by
  unfold execCart at h
  rw [hfault] at h
  exact (Prod.mk.inj (Option.some.inj h)).1.symm

/-- A command without faults takes effect and is answered. -/
lemma execCart_healthy {s s' : CartStore} {i : ℕ} {c : CartCommand} {choice : Choice}
    {r : CartReply c} (hfault : choice.fault = .none)
    (h : execCart s i c choice = some (s', r)) :
    s' = cartEffect s choice.response c ∧ cartReply s choice c = some r := by
  unfold execCart at h
  simp only [hfault] at h
  obtain ⟨_, hr, heq⟩ := Option.map_eq_some_iff.mp h
  obtain ⟨rfl, rfl⟩ := Prod.mk.inj heq
  exact ⟨rfl, hr⟩

/-- `HGET` reads what the field holds, if it succeeds. -/
lemma execCart_hget {s s' : CartStore} {i : ℕ} {key field : String} {choice : Choice}
    {existing : Except CallError (Option String)}
    (h : execCart s i (.hget key field) choice = some (s', existing)) :
    existing = .error .failed ∨ existing = .ok ((s.carts key).fields.lookup field) := by
  unfold execCart at h
  split at h
  · exact .inr (Prod.mk.inj (Option.some.inj h)).2.symm
  · exact .inl (Prod.mk.inj (Option.some.inj h)).2.symm
  · exact .inl (Prod.mk.inj (Option.some.inj h)).2.symm

/-- `HGETALL` lists the fields with their values, if it succeeds. -/
lemma perm_of_execCart_hgetall {s s' : CartStore} {i : ℕ} {key : String} {choice : Choice}
    {items : List (String × String)}
    (h : execCart s i (.hgetall key) choice = some (s', .ok items)) :
    items.Perm (pairs (s.carts key).fields) := by
  unfold execCart at h
  split at h
  · obtain ⟨listed, hlisted, heq⟩ := Option.map_eq_some_iff.mp h
    simp only [cartReply] at hlisted
    split at hlisted
    · rename_i hperm
      obtain rfl := Option.some.inj hlisted
      rw [Except.ok.inj (Prod.mk.inj heq).2] at hperm
      exact hperm
    · cases hlisted
  · cases h
  · cases h

/-! ## Carts stay readable -/

/-- The fields in `F` are readable. -/
def ReadableCart (userID : String) (F : String → Prop) (s : CartStore) : Prop :=
  ∀ field, F field → ∀ raw, (fieldsOf s userID).lookup field = some raw → Readable field raw

/-- What is written to a hash is an item under its own product. -/
def WritesItem : CartCommand → Prop
  | .hset _ field value => ∃ item : CartItem, item.productID = field ∧ value = cartItemToJSON item
  | _ => True

lemma setCartItem_writesItem {key : String} (item : CartItem)
    {rest : Except CallError Unit → CartProgram} (hrest : ∀ r, (rest r).Issues WritesItem) :
    (setCartItem key item rest).Issues WritesItem := by
  refine .call ⟨item, rfl, rfl⟩ fun r => ?_
  cases r with
  | error e => exact hrest _
  | ok u => exact .call trivial hrest

lemma afterSet_writesItem (message : String) (r : Except CallError Unit) :
    (afterSet message r).Issues WritesItem := by
  cases r with
  | error e => exact .done _
  | ok u => exact .done _

lemma afterPost_writesItem (key : String) (posted : Except CallError OrderResponse) :
    (afterPost key posted).Issues WritesItem := by
  cases posted with
  | error e => exact .done _
  | ok response =>
    simp only [afterPost]
    split
    · exact .done _
    · split
      · exact .done _
      · exact .call trivial fun _ => .done _

/-- Every handler writes nothing but items. -/
lemma serve_writesItem (request : CartRequest) : (serve request).Issues WritesItem := by
  cases request with
  | addItem body now =>
    simp only [serve, handleAddItem]
    split
    · exact .done _
    · split
      · exact .call trivial fun existing => setCartItem_writesItem _ (afterSet_writesItem _)
      · exact .done _
  | updateItem body now =>
    simp only [serve, handleUpdateItem]
    split
    · exact .done _
    · split_ifs
      · exact .done _
      · exact .done _
      · refine .call trivial fun r => ?_
        cases r with
        | error e => exact .done _
        | ok u => exact .call trivial fun _ => .done _
      · exact .call trivial fun existing => setCartItem_writesItem _ (afterSet_writesItem _)
  | getCart path now =>
    simp only [serve, handleGetCart]
    split
    · exact .done _
    · refine .call trivial fun r => ?_
      cases r <;> exact .done _
  | deleteCart path =>
    simp only [serve, handleDeleteCart]
    split
    · exact .done _
    · refine .call trivial fun r => ?_
      cases r <;> exact .done _
  | deleteItem path =>
    simp only [serve, handleDeleteItem]
    split
    · exact .done _
    · refine .call trivial fun r => ?_
      cases r with
      | error e => exact .done _
      | ok u => exact .call trivial fun _ => .done _
  | checkout path now =>
    simp only [serve, handleCheckout]
    split
    · exact .done _
    · refine .call trivial fun listed => ?_
      cases listed with
      | error e => exact .done _
      | ok items =>
        -- an empty cart is refused, any other one is posted and then deleted
        simp only [afterGetCart]
        split
        · exact .done _
        · exact .call trivial fun posted => afterPost_writesItem _ posted
  | getItemCount path =>
    simp only [serve, handleGetItemCount]
    split
    · exact .done _
    · refine .call trivial fun r => ?_
      cases r <;> exact .done _

lemma readableCart_cartEffect {userID : String} {F : String → Prop} {s : CartStore}
    (hs : ReadableCart userID F s) {c : CartCommand} (hc : WritesItem c)
    (response : OrderResponse) : ReadableCart userID F (cartEffect s response c) := by
  intro field hfield raw hraw
  rw [fieldsOf_cartEffect] at hraw
  rcases lookup_fieldsEffect hraw with hold | rfl
  · exact hs field hfield raw hold
  · obtain ⟨item, rfl, rfl⟩ := hc
    exact readable_cartItemToJSON item

/-- Whatever requests are served and whatever fails, readable fields stay readable. -/
theorem readableCart_preserved (userID : String) (F : String → Prop) :
    Preserved cartStep fun p =>
      (∀ t ∈ p.threads, t.program.Issues WritesItem) ∧ ReadableCart userID F p.store := by
  intro p l p' hp hstep
  refine ⟨Pool.issues_preserved WritesItem p l p' hp.1 hstep, ?_⟩
  obtain ⟨t, c, k, store, r, ht, hk, hexec, rfl⟩ := Pool.step_eq_some.mp hstep
  have hissues := hp.1 t (List.mem_of_getElem? ht)
  rw [hk] at hissues
  cases hissues with
  | call hc _ =>
    rcases execCart_store hexec with rfl | rfl
    · exact hp.2
    · exact readableCart_cartEffect hp.2 hc _

/-- The service can read what it has written: a cart that is readable at the start, such as one
that does not exist, is so in every state of every run. -/
theorem readableCart_throughout {userID : String} {F : String → Prop} {carts : String → Cart}
    (hcart : ReadableCart userID F ⟨carts, []⟩) (requests : List CartRequest)
    (es : List (ℕ × Choice)) :
    Throughout cartStep (fun p => ReadableCart userID F p.store) (cartPool carts requests) es := by
  have hstart : ∀ t ∈ (cartPool carts requests).threads, t.program.Issues WritesItem := by
    intro t ht
    obtain ⟨request, -, rfl⟩ := List.mem_map.mp ht
    exact serve_writesItem request
  exact (throughout_of_preserved (readableCart_preserved userID F) ⟨hstart, hcart⟩ es).mono
    fun p hp => hp.2

end DevopsEcommerce.CartService
