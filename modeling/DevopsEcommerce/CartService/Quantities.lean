import Mathlib.Algebra.Ring.Int.Defs
import DevopsEcommerce.CartService.Handlers

/-!
# The quantities in a cart

A cart is readable if every field holds a text that is read as an item of that product. Then
its quantities can be read off its fields (`itemToAdd_of_readable`), and the items read from
it have these quantities (`units_getCartItems`).
-/

open Interleaving

namespace DevopsEcommerce.CartService

/-! ## Quantities -/

/-- The quantity that a handler finds under a field. -/
def quantityIn (field : String) (stored : Option String) : Int64 :=
  (stored.bind fun raw => (parseCartItem "" field raw).map CartItem.quantity).getD 0

/-- The text is empty, which counts as absent, or an item of the field's product. -/
def Readable (field raw : String) : Prop :=
  raw = "" ∨ ∃ item, parseCartItem "" field raw = some item ∧ item.productID = field

/-- The units of a product in a list of items. -/
def units (product : String) (items : List CartItem) : ℤ :=
  (items.map fun item => if item.productID = product then item.quantity.toInt else 0).sum

lemma quantity_pos {req : AddItemRequest} (h : req.isValid = true) : 0 < req.quantity.toInt := by
  unfold AddItemRequest.isValid at h
  simp only [Bool.and_eq_true, decide_eq_true_eq] at h
  exact Int64.lt_iff_toInt_lt.mp h.2

/-- An addition is exact or exceeds an `int`. -/
lemma toInt_add_cases (found : Int64) {quantity : Int64} (hpos : 0 < quantity.toInt) :
    (found.toInt + quantity.toInt < 2 ^ 63 ∧
      (found + quantity).toInt = found.toInt + quantity.toInt) ∨
    (2 ^ 63 ≤ found.toInt + quantity.toInt ∧
      (found + quantity).toInt = found.toInt + quantity.toInt - 2 ^ 64) := by
  have hfound := found.toInt_lt
  have hfound' := found.le_toInt
  have hquantity := quantity.toInt_lt
  rw [Int64.toInt_add, Int.bmod_def]
  split <;> omega

lemma parseCartItem_empty (now field : String) : parseCartItem now field "" = none := rfl

lemma readable_cartItemToJSON (item : CartItem) :
    Readable item.productID (cartItemToJSON item) :=
  .inr ⟨item, parseCartItem_cartItemToJSON _ _ _, rfl⟩

lemma quantityIn_cartItemToJSON (field : String) (item : CartItem) :
    quantityIn field (some (cartItemToJSON item)) = item.quantity := by
  unfold quantityIn
  rw [Option.bind_some, parseCartItem_cartItemToJSON]
  rfl

/-- An add writes an item of its product, with the quantity found and its own together. -/
lemma itemToAdd_of_readable (req : AddItemRequest) (now : String) {stored : Option String}
    (hstored : ∀ raw, stored = some raw → Readable req.productID raw) :
    (itemToAdd req now (.ok stored)).productID = req.productID ∧
      (itemToAdd req now (.ok stored)).quantity =
        quantityIn req.productID stored + req.quantity := by
  unfold itemToAdd itemToChange quantityIn
  cases stored with
  | none => exact ⟨rfl, (Int64.zero_add _).symm⟩
  | some raw =>
    simp only [Option.bind_some]
    by_cases hraw : raw = ""
    · rw [if_pos hraw, hraw, parseCartItem_empty]
      exact ⟨rfl, (Int64.zero_add _).symm⟩
    · obtain ⟨item, hitem, hproduct⟩ := (hstored raw rfl).resolve_left hraw
      have hmap := parseCartItem_map (f := fun item => (item.productID, item.quantity))
        (fun _ _ _ _ => rfl) now "" req.productID raw
      rw [hitem] at hmap ⊢
      obtain ⟨item', hitem', heq⟩ := Option.map_eq_some_iff.mp hmap
      obtain ⟨hproduct', hquantity'⟩ := Prod.mk.inj heq
      rw [if_neg hraw, hitem']
      refine ⟨hproduct'.trans hproduct, ?_⟩
      show item'.quantity + _ = _
      rw [hquantity']
      rfl

/-- The item that an add writes is always one of its product. -/
lemma itemToAdd_productID (req : AddItemRequest) (now : String)
    {existing : Except CallError (Option String)}
    (hexisting : ∀ raw, existing = .ok (some raw) → Readable req.productID raw) :
    (itemToAdd req now existing).productID = req.productID := by
  cases existing with
  | error e => rfl
  | ok stored =>
    exact (itemToAdd_of_readable req now fun raw h => hexisting raw (by rw [h])).1

/-! ## The items of a cart -/

lemma fields_ofFields (fields : Hash) (ttl : Option ℕ) : (Cart.ofFields fields ttl).fields =
    fields := by
  unfold Cart.ofFields
  split <;> rename_i h
  · exact (AList.ext h).symm
  · rfl

lemma mem_pairs {fields : Hash} {field raw : String} :
    (field, raw) ∈ pairs fields ↔ fields.lookup field = some raw := by
  rw [← Option.mem_def, AList.mem_lookup_iff]
  unfold pairs
  rw [List.mem_map]
  constructor
  · rintro ⟨e, he, heq⟩
    obtain ⟨rfl, rfl⟩ := Prod.mk.inj heq
    exact he
  · intro he
    exact ⟨_, he, rfl⟩

lemma nodup_fields (fields : Hash) : ((pairs fields).map Prod.fst).Nodup := by
  have h := fields.nodupKeys
  unfold pairs
  rw [List.map_map]
  exact h

/-- Items without the product have no units of it. -/
lemma units_eq_zero {product : String} {items : List CartItem}
    (h : ∀ item ∈ items, item.productID ≠ product) : units product items = 0 := by
  unfold units
  apply List.sum_eq_zero
  intro n hn
  obtain ⟨item, hitem, rfl⟩ := List.mem_map.mp hn
  exact if_neg (h item hitem)

/-- What is read from a readable field is an item of its product. -/
lemma productID_of_readable {now field raw : String} (h : Readable field raw) {item : CartItem}
    (hitem : parseCartItem now field raw = some item) : item.productID = field := by
  rcases h with rfl | ⟨item', hitem', hproduct⟩
  · rw [parseCartItem_empty] at hitem
    cases hitem
  · have hmap := parseCartItem_map (f := CartItem.productID) (fun _ _ _ _ => rfl) now "" field raw
    rw [hitem, hitem', Option.map_some, Option.map_some, Option.some.injEq] at hmap
    exact hmap.trans hproduct

/-- The units under the product's own field. -/
lemma units_of_field (now : String → String) {product raw : String}
    (h : Readable product raw) :
    units product (getCartItems now [(product, raw)]) =
      (quantityIn product (some raw)).toInt := by
  have hmap := parseCartItem_map (f := CartItem.quantity) (fun _ _ _ _ => rfl) (now product) ""
    product raw
  unfold quantityIn
  rw [Option.bind_some, ← hmap]
  cases hitem : parseCartItem (now product) product raw with
  | none =>
    have hitems : getCartItems now [(product, raw)] = [] := by simp [getCartItems, hitem]
    rw [hitems]
    rfl
  | some item =>
    have hitems : getCartItems now [(product, raw)] = [item] := by simp [getCartItems, hitem]
    rw [hitems]
    simp [units, productID_of_readable h hitem]

/-- The items read from a cart have for each product the quantity under its field. -/
lemma units_getCartItems {fields : Hash} (hfields : ∀ field raw, fields.lookup field = some raw →
    Readable field raw) (now : String → String) {order : List (String × String)}
    (horder : order.Perm (pairs fields)) (product : String) :
    units product (getCartItems now order) =
      (quantityIn product (fields.lookup product)).toInt := by
  have hperm : ∀ {ps qs : List (String × String)}, ps.Perm qs →
      units product (getCartItems now ps) = units product (getCartItems now qs) :=
    fun h => ((h.filterMap _).map _).sum_eq
  have hother : ∀ ps : List (String × String), (∀ pr ∈ ps, pr ∈ pairs fields) →
      (∀ pr ∈ ps, pr.1 ≠ product) → units product (getCartItems now ps) = 0 := by
    intro ps hmem hne
    refine units_eq_zero fun item hitem => ?_
    obtain ⟨⟨field, raw⟩, hpr, hparse⟩ := List.mem_filterMap.mp hitem
    rw [productID_of_readable (hfields field raw (mem_pairs.mp (hmem _ hpr))) hparse]
    exact hne _ hpr
  rw [hperm horder]
  cases hlookup : fields.lookup product with
  | none =>
    refine hother _ (fun _ h => h) ?_
    rintro ⟨field, raw⟩ hpr rfl
    rw [mem_pairs, hlookup] at hpr
    cases hpr
  | some raw =>
    -- the product's own field, and the others
    have hmem : (product, raw) ∈ pairs fields := mem_pairs.mpr hlookup
    have hsplit := List.perm_cons_erase hmem
    have hnodup := ((hsplit.map Prod.fst).nodup_iff).mp (nodup_fields fields)
    rw [List.map_cons, List.nodup_cons] at hnodup
    rw [hperm hsplit, ← List.singleton_append]
    unfold getCartItems units
    rw [List.filterMap_append, List.map_append, List.sum_append]
    have hown := units_of_field now (hfields product raw hlookup)
    have hrest := hother ((pairs fields).erase (product, raw)) (fun _ h => List.mem_of_mem_erase h)
      fun pr hpr hproduct => hnodup.1 (List.mem_map.mpr ⟨pr, hpr, hproduct⟩)
    unfold getCartItems units at hown hrest
    rw [hown, hrest, add_zero]

end DevopsEcommerce.CartService
