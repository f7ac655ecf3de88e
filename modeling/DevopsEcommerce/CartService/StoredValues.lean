import DevopsEcommerce.CartService.FailedCommands

/-!
# Adding to a cart that holds anything

The fields of a cart may hold any texts. An add without faults changes the field of its product
only, and adds its quantity to what is read there, if and only if that field holds nothing, the
empty text or an item of the product (`add_touches_own_field_iff`). What else it holds is read as
an item of another product, and this one is written.
-/

open Interleaving

namespace DevopsEcommerce.CartService

/-- Of all fields only that of the product has changed, and it holds an item of the product, with
a quantity as `Sum` says. -/
def AddedOnly (s s' : CartStore) (req : AddItemRequest) (Sum : Int64 → Prop) : Prop :=
  OthersKept s s' req.userID req.productID ∧
    ∃ item, storedItem s' req.userID req.productID = some item ∧
      item.productID = req.productID ∧ Sum item.quantity

/-- The quantity that is read from the product's field before the add; 0 if there is none. -/
def oldQuantity (s : CartStore) (req : AddItemRequest) : Int64 :=
  quantityIn req.productID (storedText s req.userID req.productID)

/-- The product's field holds nothing, the empty text, or an item of the product. -/
def HoldsOwnItem (s : CartStore) (req : AddItemRequest) : Prop :=
  ∀ raw, storedText s req.userID req.productID = some raw → Readable req.productID raw

section
variable {s s' : CartStore} {choose : ℕ → Choice} {req : AddItemRequest} {now : String}
  {answer : Response}

/-- The item that is written is one of the product only if the one that is read was. -/
lemma readable_of_itemToAdd {stored : Option String} (hproduct : req.productID ≠ "")
    (h : (itemToAdd req now (.ok stored)).productID = req.productID) :
    ∀ raw, stored = some raw → Readable req.productID raw := by
  rintro raw rfl
  unfold itemToAdd itemToChange at h
  by_cases hraw : raw = ""
  · exact .inl hraw
  · simp only [if_neg hraw] at h
    cases hparse : parseCartItem now req.productID raw with
    | none =>
      -- what cannot be read counts as the zero value
      rw [hparse] at h
      exact absurd h.symm hproduct
    | some item =>
      rw [hparse] at h
      have hmap := parseCartItem_map (f := CartItem.productID) (fun _ _ _ _ => rfl) now ""
        req.productID raw
      rw [hparse] at hmap
      obtain ⟨item', hitem', heq⟩ := Option.map_eq_some_iff.mp hmap.symm
      exact .inr ⟨item', hitem', heq.trans h⟩

/-- An add without faults writes its item and answers 200. -/
lemma storedText_of_add (hvalid : req.isValid = true) (hhealthy : ∀ n, (choose n).fault = .none)
    (h : serveAlone choose s (.addItem (some req) now) = some (s', answer)) :
    answer.code = 200 ∧ ∀ user field, storedText s' user field =
      if (user, field) =
          (req.userID, (itemToAdd req now (.ok (storedText s req.userID req.productID))).productID)
      then some (cartItemToJSON (itemToAdd req now (.ok (storedText s req.userID req.productID))))
      else storedText s user field := by
  have hclean : FailsClean choose := by
    intro n
    rw [hhealthy n]
    exact Fault.noConfusion
  unfold serveAlone serve handleAddItem at h
  simp only [if_pos hvalid] at h
  have hset := itemSet_of_perform hclean h
  unfold hgetReply at hset
  rw [if_pos (hhealthy 0)] at hset
  rcases hset with ⟨hfault, -⟩ | ⟨-, hfields, hanswer⟩
  · exact absurd (hhealthy 1) hfault
  · rw [if_pos (hhealthy 2)] at hanswer
    exact ⟨hanswer, storedText_of_hset hfields⟩

/-- What the add has done is seen on the item that it writes. -/
lemma addedOnly_iff (hvalid : req.isValid = true)
    (htext : ∀ user field, storedText s' user field =
      if (user, field) =
          (req.userID, (itemToAdd req now (.ok (storedText s req.userID req.productID))).productID)
      then some (cartItemToJSON (itemToAdd req now (.ok (storedText s req.userID req.productID))))
      else storedText s user field) (Sum : Int64 → Prop) :
    AddedOnly s s' req Sum ↔ HoldsOwnItem s req ∧ Sum (oldQuantity s req + req.quantity) := by
  have hproduct : req.productID ≠ "" := by
    unfold AddItemRequest.isValid at hvalid
    simp only [Bool.and_eq_true, decide_eq_true_eq] at hvalid
    exact hvalid.1.2
  by_cases hown : HoldsOwnItem s req
  · -- the item is written under the product, with both quantities together
    obtain ⟨hitem, hquantity⟩ := itemToAdd_of_readable req now hown
    rw [hitem] at htext
    have hstored : storedItem s' req.userID req.productID =
        some (itemToAdd req now (.ok (storedText s req.userID req.productID))) := by
      unfold storedItem
      rw [htext, if_pos rfl, Option.bind_some, parseCartItem_cartItemToJSON]
    unfold AddedOnly oldQuantity
    rw [and_iff_right hown, ← hquantity]
    constructor
    · rintro ⟨-, item, hread, -, hsum⟩
      rw [hstored, Option.some.injEq] at hread
      exact hread ▸ hsum
    · intro hsum
      refine ⟨fun user field hne => ?_, _, hstored, hitem, hsum⟩
      rw [htext, if_neg hne]
  · -- the item is written elsewhere, and the product's field is as it was
    rw [iff_false_right fun h => hown h.1]
    rintro ⟨-, item, hread, hitem, -⟩
    have hother : (req.userID, req.productID) ≠
        (req.userID, (itemToAdd req now (.ok (storedText s req.userID req.productID))).productID) :=
      fun heq => hown (readable_of_itemToAdd hproduct (Prod.mk.inj heq).2.symm)
    unfold storedItem at hread
    rw [htext, if_neg hother] at hread
    obtain ⟨raw, hraw, hparse⟩ := Option.bind_eq_some_iff.mp hread
    apply hown
    intro raw' hraw'
    obtain rfl := Option.some.inj (hraw.symm.trans hraw')
    exact .inr ⟨item, hparse, hitem⟩

/-- **Adding to any cart.** A valid add without faults to a cart with any texts has changed the
field of its product only, which then holds an item of the product and of the quantity that was
read there and its own together, if and only if this field held nothing, the empty text or an item
of the product. The sum is that of the integers if moreover it is one that an `int` can hold. -/
theorem add_touches_own_field_iff (hvalid : req.isValid = true)
    (hhealthy : ∀ n, (choose n).fault = .none)
    (h : serveAlone choose s (.addItem (some req) now) = some (s', answer)) :
    ((answer.code = 200 → AddedOnly s s' req fun n => n = oldQuantity s req + req.quantity) ↔
      HoldsOwnItem s req) ∧
    ((answer.code = 200 → AddedOnly s s' req fun n =>
        n.toInt = (oldQuantity s req).toInt + req.quantity.toInt) ↔
      HoldsOwnItem s req ∧ (oldQuantity s req).toInt + req.quantity.toInt < 2 ^ 63) := by
  obtain ⟨hanswer, htext⟩ := storedText_of_add hvalid hhealthy h
  rw [forall_prop_of_true hanswer, forall_prop_of_true hanswer, addedOnly_iff hvalid htext,
    addedOnly_iff hvalid htext]
  refine ⟨and_iff_left rfl, and_congr_right fun _ => ?_⟩
  have hsum := toInt_add_cases (oldQuantity s req) (quantity_pos hvalid)
  omega

end

/-! ## A bare quantity and a `null` -/

/-- A cart with this text under the product `p`. -/
def cartOfText (raw : String) : CartStore :=
  cartEffect ⟨noCarts, []⟩ healthy.response (.hset "cart:u" "p" raw)

def addOne : AddItemRequest := ⟨"u", "p", 1⟩

lemma isSome_addOne (s : CartStore) :
    (serveAlone (fun _ => healthy) s (.addItem (some addOne) "t")).isSome = true := rfl

/-- The store and the answer after the add. -/
def afterAddOne (s : CartStore) : CartStore × Response :=
  (serveAlone (fun _ => healthy) s (.addItem (some addOne) "t")).get (isSome_addOne s)

theorem add_touches_own_field_iff_bare :
    (afterAddOne (cartOfText "5")).2.code = 200 ∧
      AddedOnly (cartOfText "5") (afterAddOne (cartOfText "5")).1 addOne fun n =>
        n = oldQuantity (cartOfText "5") addOne + addOne.quantity := by
  have hown : HoldsOwnItem (cartOfText "5") addOne := by
    intro raw hraw
    have htext : storedText (cartOfText "5") "u" "p" = some "5" := by decide +kernel
    obtain rfl := Option.some.inj (htext.symm.trans hraw)
    exact .inr ⟨⟨"p", 5, ""⟩, by decide +kernel, rfl⟩
  have hcode : (afterAddOne (cartOfText "5")).2.code = 200 := by decide +kernel
  exact ⟨hcode, (add_touches_own_field_iff (by decide) (fun _ => rfl)
    (Option.some_get (isSome_addOne (cartOfText "5"))).symm).1.mpr hown hcode⟩

/-- **A stored `null`.** It is read as the zero item, whose product is the empty id: the add
answers 200 and writes the field of that id, and the product's own field is still `null`. -/
theorem add_to_null :
    ¬ ∀ (s s' : CartStore) (choose : ℕ → Choice) (req : AddItemRequest) (now : String)
      (answer : Response), req.isValid = true → (∀ n, (choose n).fault = .none) →
      serveAlone choose s (.addItem (some req) now) = some (s', answer) → answer.code = 200 →
        AddedOnly s s' req fun n => n = oldQuantity s req + req.quantity := by
  intro h
  obtain ⟨-, item, hread, hproduct, -⟩ := h (cartOfText "null") _ (fun _ => healthy) addOne "t" _
    (by decide) (fun _ => rfl) (Option.some_get (isSome_addOne (cartOfText "null"))).symm
    (by decide +kernel)
  have hzero : storedItem (afterAddOne (cartOfText "null")).1 "u" "p" = some .zero := by
    decide +kernel
  obtain rfl := Option.some.inj (hzero.symm.trans hread)
  exact absurd hproduct (by decide)

end DevopsEcommerce.CartService
