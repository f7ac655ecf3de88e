import DevopsEcommerce.CartService.Conduct
import DevopsEcommerce.CartService.Representation

/-!
# Changes of a cart whose commands fail

One request alone, each of whose commands may fail without effect. What a change that is
answered with 200 has done (`successful_change_iff`), and what one that is answered with an
error has left behind (`failed_change_iff`).
-/

open Interleaving

namespace DevopsEcommerce.CartService

/-- A request served alone; its `n`-th command fares as `choose n` says. -/
def serveAlone (choose : ℕ → Choice) (s : CartStore) (request : CartRequest) :
    Option (CartStore × Response) :=
  (serve request).perform execCart 0 (fun n _ => choose n) 0 s

/-- A failing command has no effect. -/
def FailsClean (choose : ℕ → Choice) : Prop := ∀ n, (choose n).fault ≠ .after

/-- The check of `handleUpdateItem`. -/
def UpdateItemRequest.IsValid (req : UpdateItemRequest) : Prop :=
  req.userID ≠ "" ∧ req.productID ≠ "" ∧ ¬ req.quantity < 0

def storedText (s : CartStore) (userID field : String) : Option String :=
  (fieldsOf s userID).lookup field

def storedItem (s : CartStore) (userID product : String) : Option CartItem :=
  (storedText s userID product).bind (parseCartItem "" product)

/-- Every field of every cart but one is as before. -/
def OthersKept (s s' : CartStore) (userID product : String) : Prop :=
  ∀ user field, (user, field) ≠ (userID, product) →
    storedText s' user field = storedText s user field

/-- The cart has the product in this quantity, and an item that was there has kept its time. -/
def HoldsItem (s s' : CartStore) (userID product : String) (quantity : Int64) : Prop :=
  ∃ item, storedItem s' userID product = some item ∧ item.quantity = quantity ∧
    ∀ old, storedItem s userID product = some old → item.addedAt = old.addedAt

/-- What a successful add says it did. -/
def Added (s s' : CartStore) (req : AddItemRequest) : Prop :=
  HoldsItem s s' req.userID req.productID
    (((storedItem s req.userID req.productID).map CartItem.quantity).getD 0 + req.quantity) ∧
  OthersKept s s' req.userID req.productID

/-- What a successful update says it did. -/
def Updated (s s' : CartStore) (req : UpdateItemRequest) : Prop :=
  (if req.quantity = 0 then storedText s' req.userID req.productID = none
    else HoldsItem s s' req.userID req.productID req.quantity) ∧
  OthersKept s s' req.userID req.productID

/-! ## One command -/

lemma execCart_clean {s s' : CartStore} {i : ℕ} {c : CartCommand} {choice : Choice}
    {r : CartReply c} (hclean : choice.fault ≠ .after)
    (h : execCart s i c choice = some (s', r)) :
    (choice.fault = .none ∧ s' = cartEffect s choice.response c ∧
      cartReply s choice c = some r) ∨
    (choice.fault ≠ .none ∧ s' = s ∧ r = cartError c) := by
  by_cases hfault : choice.fault = .none
  · obtain ⟨hs', hr⟩ := execCart_healthy hfault h
    exact .inl ⟨hfault, hs', hr⟩
  · refine .inr ⟨hfault, ?_⟩
    unfold execCart at h
    split at h
    · rename_i hnone
      exact absurd hnone hfault
    · obtain ⟨rfl, rfl⟩ := Prod.mk.inj (Option.some.inj h)
      exact ⟨rfl, rfl⟩
    · rename_i hafter
      exact absurd hafter hclean

/-- What the `HGET` of a change finds. -/
def hgetReply (choice : Choice) (stored : Option String) : Except CallError (Option String) :=
  if choice.fault = .none then .ok stored else .error .failed

/-- Redis refuses the `HSET`, or the item is set and the `EXPIRE` decides on the answer. -/
def ItemSet (choose : ℕ → Choice) (s s' : CartStore) (userID : String) (item : CartItem)
    (answer : Response) : Prop :=
  ((choose 1).fault ≠ .none ∧ s' = s ∧ answer.code = 500) ∨
  ((choose 1).fault = .none ∧
    (∀ user, fieldsOf s' user = fieldsEffect (cartKey user) (fieldsOf s user)
      (.hset (cartKey userID) item.productID (cartItemToJSON item))) ∧
    answer.code = if (choose 2).fault = .none then 200 else 500)

section
variable {choose : ℕ → Choice} {s s' : CartStore} {answer : Response}

/-- `setCartItem`, with the `HGET` before it. -/
lemma itemSet_of_perform (hclean : FailsClean choose) {i : ℕ} {userID product message : String}
    {change : Except CallError (Option String) → CartItem}
    (h : (Program.call (.hget (cartKey userID) product) fun existing =>
      setCartItem (cartKey userID) (change existing) (afterSet message)).perform execCart i
        (fun n _ => choose n) 0 s = some (s', answer)) :
    ItemSet choose s s' userID
      (change (hgetReply (choose 0) (storedText s userID product))) answer := by
  simp only [Program.perform] at h
  obtain ⟨⟨s₁, existing⟩, hget, h⟩ := Option.bind_eq_some_iff.mp h
  have hs₁ : s₁ = s ∧ existing = hgetReply (choose 0) (storedText s userID product) := by
    unfold hgetReply
    rcases execCart_clean (hclean 0) hget with ⟨hfault, rfl, hreply⟩ | ⟨hfault, rfl, rfl⟩
    · rw [if_pos hfault]
      exact ⟨rfl, (Option.some.inj hreply).symm⟩
    · rw [if_neg hfault]
      exact ⟨rfl, rfl⟩
  -- the `HGET` has changed nothing, whatever it answers
  obtain ⟨rfl, rfl⟩ := hs₁
  simp only [setCartItem, Program.perform] at h
  obtain ⟨⟨s₂, written⟩, hset, h⟩ := Option.bind_eq_some_iff.mp h
  rcases execCart_clean (hclean 1) hset with ⟨hfault, rfl, hreply⟩ | ⟨hfault, rfl, rfl⟩
  · obtain rfl := Option.some.inj hreply
    simp only [Program.perform] at h
    obtain ⟨⟨s₃, expired⟩, hexpire, h⟩ := Option.bind_eq_some_iff.mp h
    -- the item is set; the `EXPIRE` touches no field, and only its reply counts
    refine .inr ⟨hfault, ?_⟩
    rcases execCart_clean (hclean 2) hexpire with ⟨hfault', rfl, hreply'⟩ | ⟨hfault', rfl, rfl⟩
    · obtain rfl := Option.some.inj hreply'
      obtain ⟨rfl, rfl⟩ := Prod.mk.inj (Option.some.inj h)
      rw [if_pos hfault']
      refine ⟨fun user => ?_, rfl⟩
      rw [fieldsOf_cartEffect, fieldsOf_cartEffect]
      rfl
    · obtain ⟨rfl, rfl⟩ := Prod.mk.inj (Option.some.inj h)
      rw [if_neg hfault']
      exact ⟨fun user => by rw [fieldsOf_cartEffect], rfl⟩
  · obtain ⟨rfl, rfl⟩ := Prod.mk.inj (Option.some.inj h)
    exact .inl ⟨hfault, rfl, rfl⟩

/-- `HDEL` and the `EXPIRE` after it, whose outcome nobody looks at. -/
lemma itemRemoved_of_perform (hclean : FailsClean choose) {userID product : String}
    {removed : Except CallError Unit → CartProgram}
    (herror : ∀ e, removed (.error e) = .done (errorResponse 500 "failed to remove item"))
    (hok : removed (.ok ()) = .call (.expire (cartKey userID) cartTTL) fun _ =>
      .done ⟨200, "ok", "item removed from cart", none⟩)
    (h : (Program.call (.hdel (cartKey userID) product) removed).perform execCart 0
      (fun n _ => choose n) 0 s = some (s', answer)) :
    (s' = s ∧ answer.code = 500) ∨
      ((∀ user, fieldsOf s' user = fieldsEffect (cartKey user) (fieldsOf s user)
        (.hdel (cartKey userID) product)) ∧ answer.code = 200) := by
  simp only [Program.perform] at h
  obtain ⟨⟨s₁, reply⟩, hdel, h⟩ := Option.bind_eq_some_iff.mp h
  rcases execCart_clean (hclean 0) hdel with ⟨hfault, rfl, hreply⟩ | ⟨hfault, rfl, rfl⟩
  · obtain rfl := Option.some.inj hreply
    rw [hok] at h
    simp only [Program.perform] at h
    obtain ⟨⟨s₂, expired⟩, hexpire, h⟩ := Option.bind_eq_some_iff.mp h
    obtain ⟨rfl, rfl⟩ := Prod.mk.inj (Option.some.inj h)
    refine .inr ⟨fun user => ?_, rfl⟩
    rcases execCart_clean (hclean 1) hexpire with ⟨-, rfl, -⟩ | ⟨-, rfl, -⟩
    · rw [fieldsOf_cartEffect, fieldsOf_cartEffect]
      rfl
    · rw [fieldsOf_cartEffect]
  · change (removed (.error .failed)).perform execCart 0 _ _ _ = _ at h
    rw [herror] at h
    obtain ⟨rfl, rfl⟩ := Prod.mk.inj (Option.some.inj h)
    exact .inl ⟨rfl, rfl⟩

/-! ## The texts after a change -/

/-- A command on one field of one cart changes what this field holds, and nothing else. -/
lemma storedText_of_command {userID product : String} {text : Option String} {c : CartCommand}
    (hother : ∀ key fields, cartKey userID ≠ key → fieldsEffect key fields c = fields)
    (hlookup : ∀ fields field, (fieldsEffect (cartKey userID) fields c).lookup field =
      if field = product then text else fields.lookup field)
    (h : ∀ user, fieldsOf s' user = fieldsEffect (cartKey user) (fieldsOf s user) c)
    (user field : String) :
    storedText s' user field =
      if (user, field) = (userID, product) then text else storedText s user field := by
  unfold storedText
  rw [h user]
  by_cases huser : user = userID
  · subst huser
    rw [hlookup]
    simp only [Prod.mk.injEq, true_and]
  · have hkey : cartKey userID ≠ cartKey user := fun heq => huser (cartKey_injective heq).symm
    rw [hother _ _ hkey, if_neg fun heq => huser (Prod.mk.inj heq).1]

/-- After an `HSET` of an item its field holds its text, and every other field what it held. -/
lemma storedText_of_hset {userID : String} {item : CartItem}
    (h : ∀ user, fieldsOf s' user = fieldsEffect (cartKey user) (fieldsOf s user)
      (.hset (cartKey userID) item.productID (cartItemToJSON item))) (user field : String) :
    storedText s' user field =
      if (user, field) = (userID, item.productID) then some (cartItemToJSON item)
      else storedText s user field := by
  apply storedText_of_command _ _ h
  · intro key fields hkey
    rw [fieldsEffect, if_neg hkey]
  · intro fields field
    rw [fieldsEffect, if_pos rfl]
    by_cases hfield : field = item.productID
    · rw [if_pos hfield, hfield, AList.lookup_insert]
    · rw [if_neg hfield, AList.lookup_insert_ne hfield]

lemma storedText_of_hdel {userID product : String}
    (h : ∀ user, fieldsOf s' user = fieldsEffect (cartKey user) (fieldsOf s user)
      (.hdel (cartKey userID) product)) (user field : String) :
    storedText s' user field =
      if (user, field) = (userID, product) then none else storedText s user field := by
  apply storedText_of_command _ _ h
  · intro key fields hkey
    rw [fieldsEffect, if_neg hkey]
  · intro fields field
    rw [fieldsEffect, if_pos rfl]
    by_cases hfield : field = product
    · rw [if_pos hfield, hfield, AList.lookup_erase]
    · rw [if_neg hfield, AList.lookup_erase_ne hfield]

lemma cartItemToJSON_injective : Function.Injective cartItemToJSON := by
  intro item item' h
  have hitem := parseCartItem_cartItemToJSON "" "" item
  rw [h, parseCartItem_cartItemToJSON, Option.some.injEq] at hitem
  exact hitem.symm

/-- In a reachable cart a field holds the text of the item that is read from it. -/
lemma Represented.storedText_eq (hs : Represented s) (userID product : String) :
    storedText s userID product = (storedItem s userID product).map cartItemToJSON ∧
      ∀ item, storedItem s userID product = some item → item.productID = product := by
  unfold storedItem
  cases htext : storedText s userID product with
  | none => exact ⟨rfl, fun item h => absurd h (by simp)⟩
  | some raw =>
    obtain ⟨item, hproduct, rfl⟩ := hs userID product raw htext
    rw [Option.bind_some, parseCartItem_cartItemToJSON]
    exact ⟨rfl, fun item' h => Option.some.inj h ▸ hproduct⟩

/-! ## The item that a change writes -/

lemma cartItemToJSON_ne_empty (item : CartItem) : cartItemToJSON item ≠ "" := by
  intro h
  have hitem := parseCartItem_cartItemToJSON "" "" item
  rw [h, parseCartItem_empty] at hitem
  cases hitem

/-- A change starts from the stored item if its `HGET` finds one, and else makes a new one. -/
lemma itemToChange_hgetReply (hs : Represented s) (choice : Choice) (userID product : String)
    (quantity : Int64) (now : String) (change : CartItem → CartItem) :
    itemToChange product quantity now change
        (hgetReply choice (storedText s userID product)) =
      if choice.fault = .none then
        (storedItem s userID product).elim ⟨product, quantity, now⟩ change
      else ⟨product, quantity, now⟩ := by
  unfold hgetReply
  by_cases hfault : choice.fault = .none
  · rw [if_pos hfault, if_pos hfault, (hs.storedText_eq userID product).1]
    cases storedItem s userID product with
    | none => rfl
    | some item =>
      show (if cartItemToJSON item = "" then _ else _) = change item
      rw [if_neg (cartItemToJSON_ne_empty item), parseCartItem_cartItemToJSON]
      rfl
  · rw [if_neg hfault, if_neg hfault]
    rfl

/-- The item that a change with this effect on the quantity writes. -/
def changedItem (choice : Choice) (s : CartStore) (userID product : String) (quantity : Int64)
    (now : String) (next : Int64 → Int64) : CartItem :=
  if choice.fault = .none then
    (storedItem s userID product).elim ⟨product, quantity, now⟩
      fun old => { old with quantity := next old.quantity }
  else ⟨product, quantity, now⟩

lemma changedItem_productID (hs : Represented s) (choice : Choice) (userID product : String)
    (quantity : Int64) (now : String) (next : Int64 → Int64) :
    (changedItem choice s userID product quantity now next).productID = product := by
  unfold changedItem
  split
  · cases hold : storedItem s userID product with
    | none => rfl
    | some old => exact (hs.storedText_eq userID product).2 old hold
  · rfl

/-- The `HGET` fails, and what follows it succeeds. -/
def ReadOverlooked (choose : ℕ → Choice) : Prop :=
  (choose 0).fault ≠ .none ∧ (choose 1).fault = .none ∧ (choose 2).fault = .none

/-- The `HSET` succeeds, and the `EXPIRE` after it fails. -/
def HalfDone (choose : ℕ → Choice) : Prop :=
  (choose 1).fault = .none ∧ (choose 2).fault ≠ .none

instance (choose : ℕ → Choice) : Decidable (ReadOverlooked choose) :=
  inferInstanceAs (Decidable (_ ∧ _))

instance (choose : ℕ → Choice) : Decidable (HalfDone choose) :=
  inferInstanceAs (Decidable (_ ∧ _))

section
variable {userID product now : String} {quantity : Int64} {next : Int64 → Int64}

lemma storedText_of_itemSet (hs : Represented s)
    (h : ∀ user, fieldsOf s' user = fieldsEffect (cartKey user) (fieldsOf s user)
      (.hset (cartKey userID)
        (changedItem (choose 0) s userID product quantity now next).productID
        (cartItemToJSON (changedItem (choose 0) s userID product quantity now next))))
    (user field : String) :
    storedText s' user field =
      if (user, field) = (userID, product) then
        some (cartItemToJSON (changedItem (choose 0) s userID product quantity now next))
      else storedText s user field := by
  rw [storedText_of_hset h, changedItem_productID hs]

/-- A change that is answered with 200 has had the effect it should have, unless it took a failed
`HGET` for an absent item. -/
lemma correct_iff_of_itemSet (hs : Represented s)
    (h : ItemSet choose s s' userID
      (changedItem (choose 0) s userID product quantity now next) answer) :
    (answer.code = 200 →
      HoldsItem s s' userID product
        ((storedItem s userID product).elim quantity fun old => next old.quantity) ∧
      OthersKept s s' userID product) ↔
    (ReadOverlooked choose → ∀ old, storedItem s userID product = some old →
      next old.quantity = quantity ∧ old.addedAt = now) := by
  unfold ReadOverlooked
  rcases h with ⟨hset, -, hcode⟩ | ⟨hset, hfields, hcode⟩
  · refine iff_of_true (fun hok => ?_) fun hread => absurd hread.2.1 hset
    omega
  · by_cases hexpire : (choose 2).fault = .none
    · rw [if_pos hexpire] at hcode
      -- the answer is 200: both sides are about the item that has been written
      have htext := storedText_of_itemSet hs hfields
      have hothers : OthersKept s s' userID product := by
        intro user field hne
        rw [htext, if_neg hne]
      have hitem : storedItem s' userID product =
          some (changedItem (choose 0) s userID product quantity now next) := by
        unfold storedItem
        rw [htext, if_pos rfl, Option.bind_some, parseCartItem_cartItemToJSON]
      have hholds : ∀ target, HoldsItem s s' userID product target ↔
          (changedItem (choose 0) s userID product quantity now next).quantity = target ∧
          ∀ old, storedItem s userID product = some old →
            (changedItem (choose 0) s userID product quantity now next).addedAt =
              old.addedAt := by
        intro target
        unfold HoldsItem
        rw [hitem]
        simp only [Option.some.injEq, exists_eq_left']
      simp only [hcode, hset, hexpire, and_true, forall_const, hothers, hholds]
      unfold changedItem
      -- only an item that was not read can be the wrong one
      by_cases hget : (choose 0).fault = .none
      · simp only [ne_eq, hget, not_true_eq_false, false_imp_iff, iff_true, if_true]
        cases storedItem s userID product with
        | none => exact ⟨rfl, fun old hold => absurd hold (by simp)⟩
        | some old =>
          refine ⟨rfl, fun old' hold => ?_⟩
          obtain rfl := Option.some.inj hold
          rfl
      · simp only [ne_eq, hget, not_false_eq_true, forall_const, if_false]
        cases storedItem s userID product with
        | none => simp
        | some old =>
          simp only [Option.elim_some, Option.some.injEq, forall_eq']
          exact and_congr eq_comm eq_comm
    · rw [if_neg hexpire] at hcode
      refine iff_of_true (fun hok => ?_) fun hread => absurd hread.2.2 hexpire
      omega

/-- A change that is answered with an error has changed nothing, unless its item was written
before the error and differs from what was stored. -/
lemma unchanged_iff_of_itemSet (hs : Represented s)
    (h : ItemSet choose s s' userID
      (changedItem (choose 0) s userID product quantity now next) answer) :
    (¬ (200 ≤ answer.code ∧ answer.code < 300) →
      ∀ user field, storedText s' user field = storedText s user field) ↔
    (HalfDone choose → storedItem s userID product =
      some (changedItem (choose 0) s userID product quantity now next)) := by
  unfold HalfDone
  rcases h with ⟨hset, rfl, hcode⟩ | ⟨hset, hfields, hcode⟩
  · exact iff_of_true (fun _ _ _ => rfl) fun hhalf => absurd hhalf.1 hset
  · have htext := storedText_of_itemSet hs hfields
    by_cases hexpire : (choose 2).fault = .none
    · rw [if_pos hexpire] at hcode
      exact iff_of_true (fun herror => absurd ⟨by omega, by omega⟩ herror)
        fun hhalf => absurd hexpire hhalf.2
    · rw [if_neg hexpire] at hcode
      have herror : ¬ (200 ≤ answer.code ∧ answer.code < 300) := by omega
      simp only [herror, not_false_eq_true, forall_const, hset, ne_eq, hexpire, and_self]
      -- an item is stored as its text, which no other item has
      have hstored : storedText s userID product =
          some (cartItemToJSON (changedItem (choose 0) s userID product quantity now next)) ↔
          storedItem s userID product =
            some (changedItem (choose 0) s userID product quantity now next) := by
        rw [(hs.storedText_eq userID product).1, Option.map_eq_some_iff]
        constructor
        · rintro ⟨item, hitem, heq⟩
          rw [hitem, cartItemToJSON_injective heq]
        · intro hitem
          exact ⟨_, hitem, rfl⟩
      rw [← hstored]
      constructor
      · intro hsame
        rw [← hsame, htext, if_pos rfl]
      · intro hsame user field
        rw [htext]
        split <;> rename_i heq
        · obtain ⟨rfl, rfl⟩ := Prod.mk.inj heq
          exact hsame.symm
        · rfl

end

end

/-! ## Commands that fail -/

/-- These commands fail, the others succeed. -/
def failing (commands : List ℕ) (n : ℕ) : Choice :=
  { healthy with fault := if n ∈ commands then .before else .none }

lemma failsClean_failing (commands : List ℕ) : FailsClean (failing commands) := by
  intro n
  unfold failing
  by_cases h : n ∈ commands <;> simp [h]

/-- Two more units. -/
def addTwoMore : CartRequest := .addItem (some ⟨"u", "p", 2⟩) "t'"

lemma isSome_addTwoMore (commands : List ℕ) (hcommands : commands ∈ [[], [0], [1], [2]]) :
    (serveAlone (failing commands) cartOfFive addTwoMore).isSome = true := by
  revert commands
  decide +kernel

/-! ## Changes that succeed -/

section
variable {choose : ℕ → Choice} {s s' : CartStore} {answer : Response}

lemma itemSet_of_addItem (hs : Represented s) (hclean : FailsClean choose)
    {req : AddItemRequest} {now : String} (hvalid : req.isValid = true)
    (h : serveAlone choose s (.addItem (some req) now) = some (s', answer)) :
    ItemSet choose s s' req.userID
      (changedItem (choose 0) s req.userID req.productID req.quantity now (· + req.quantity))
      answer := by
  unfold serveAlone serve handleAddItem at h
  simp only [if_pos hvalid] at h
  have hset := itemSet_of_perform hclean h
  unfold itemToAdd at hset
  rw [itemToChange_hgetReply hs] at hset
  exact hset

lemma itemSet_of_updateItem (hs : Represented s) (hclean : FailsClean choose)
    {req : UpdateItemRequest} {now : String} (hvalid : req.IsValid) (hpos : req.quantity ≠ 0)
    (h : serveAlone choose s (.updateItem (some req) now) = some (s', answer)) :
    ItemSet choose s s' req.userID
      (changedItem (choose 0) s req.userID req.productID req.quantity now fun _ => req.quantity)
      answer := by
  obtain ⟨huser, hproduct, hneg⟩ := hvalid
  unfold serveAlone serve handleUpdateItem at h
  simp only [huser, hproduct, or_self, if_false, hneg, hpos] at h
  have hset := itemSet_of_perform hclean h
  rw [itemToChange_hgetReply hs] at hset
  exact hset

lemma itemRemoved_of_updateItem (hclean : FailsClean choose) {req : UpdateItemRequest}
    {now : String} (hvalid : req.IsValid) (hzero : req.quantity = 0)
    (h : serveAlone choose s (.updateItem (some req) now) = some (s', answer)) :
    (s' = s ∧ answer.code = 500) ∨
      ((∀ user, fieldsOf s' user = fieldsEffect (cartKey user) (fieldsOf s user)
        (.hdel (cartKey req.userID) req.productID)) ∧ answer.code = 200) := by
  obtain ⟨huser, hproduct, hneg⟩ := hvalid
  unfold serveAlone serve handleUpdateItem at h
  simp only [huser, hproduct, or_self, if_false, hneg] at h
  rw [if_pos hzero] at h
  exact itemRemoved_of_perform hclean (fun _ => rfl) rfl h

/-- If an add or an update alone answers 200 it has done what it says, unless its `HGET` has
failed, which nobody has looked at, and the cart had another item of the product than a new one
would be. -/
theorem successful_change_iff (hs : Reachable s) (hclean : FailsClean choose) :
    (∀ (req : AddItemRequest) (now : String) (s' : CartStore) (answer : Response),
      req.isValid = true → serveAlone choose s (.addItem (some req) now) = some (s', answer) →
      ((answer.code = 200 → Added s s' req) ↔
        (ReadOverlooked choose → ∀ old, storedItem s req.userID req.productID = some old →
          old.quantity = 0 ∧ old.addedAt = now))) ∧
    (∀ (req : UpdateItemRequest) (now : String) (s' : CartStore) (answer : Response),
      req.IsValid → serveAlone choose s (.updateItem (some req) now) = some (s', answer) →
      ((answer.code = 200 → Updated s s' req) ↔
        (req.quantity ≠ 0 → ReadOverlooked choose →
          ∀ old, storedItem s req.userID req.productID = some old → old.addedAt = now))) := by
  have hrep := represented_of_reachable hs
  constructor
  · intro req now s' answer hvalid hrun
    have htarget : ((storedItem s req.userID req.productID).elim req.quantity fun old =>
        old.quantity + req.quantity) =
        ((storedItem s req.userID req.productID).map CartItem.quantity).getD 0 +
          req.quantity := by
      cases storedItem s req.userID req.productID with
      | none => exact (Int64.zero_add _).symm
      | some old => rfl
    -- in wrapping arithmetic too, only zero is neutral
    have hzero : ∀ old : CartItem, old.quantity + req.quantity = req.quantity ↔
        old.quantity = 0 := by
      intro old
      grind
    have hiff := correct_iff_of_itemSet hrep (itemSet_of_addItem hrep hclean hvalid hrun)
    rw [htarget] at hiff
    simp only [hzero] at hiff
    exact hiff
  · intro req now s' answer hvalid hrun
    by_cases hzero : req.quantity = 0
    · refine iff_of_true (fun hok => ?_) fun hpos => absurd hzero hpos
      unfold Updated
      rw [if_pos hzero]
      rcases itemRemoved_of_updateItem hclean hvalid hzero hrun with ⟨-, hcode⟩ | ⟨hfields, -⟩
      · omega
      · have htext := storedText_of_hdel hfields
        refine ⟨by rw [htext, if_pos rfl], fun user field hne => ?_⟩
        rw [htext, if_neg hne]
    · have htarget : ((storedItem s req.userID req.productID).elim req.quantity fun _ =>
          req.quantity) = req.quantity := by
        cases storedItem s req.userID req.productID <;> rfl
      have hiff :=
        correct_iff_of_itemSet hrep (itemSet_of_updateItem hrep hclean hvalid hzero hrun)
      rw [htarget] at hiff
      simp only [true_and] at hiff
      unfold Updated
      rw [if_neg hzero, hiff]
      exact ⟨fun h _ => h, fun h => h hzero⟩

/-- Adding two units to five without a failure. -/
theorem successful_change_iff_healthy :
    Added cartOfFive
      ((serveAlone (failing []) cartOfFive addTwoMore).get (isSome_addTwoMore [] (by decide))).1
      ⟨"u", "p", 2⟩ :=
  ((successful_change_iff reachable_cartOfFive (failsClean_failing [])).1 _ "t'" _ _
    (by decide) (Option.some_get (isSome_addTwoMore [] (by decide))).symm).mpr
    (fun hread => absurd hread (by decide +kernel)) (by decide +kernel)

/-- **An add overwrites.** Its `HGET` fails, it sets two units where there were five, and answers
200. -/
theorem add_overwrites :
    ¬ ∀ (s : CartStore) (choose : ℕ → Choice) (req : AddItemRequest) (now : String)
      (s' : CartStore) (answer : Response), Reachable s → FailsClean choose →
      req.isValid = true → serveAlone choose s (.addItem (some req) now) = some (s', answer) →
      answer.code = 200 → Added s s' req := by
  intro h
  obtain ⟨⟨item, hitem, hquantity, -⟩, -⟩ := h cartOfFive (failing [0]) ⟨"u", "p", 2⟩ "t'" _ _
    reachable_cartOfFive (failsClean_failing [0]) (by decide)
    (Option.some_get (isSome_addTwoMore [0] (by decide))).symm (by decide +kernel)
  have htwo : storedItem
      ((serveAlone (failing [0]) cartOfFive addTwoMore).get
        (isSome_addTwoMore [0] (by decide))).1 "u" "p" = some ⟨"p", 2, "t'"⟩ := by
    decide +kernel
  have hseven : ((storedItem cartOfFive "u" "p").map CartItem.quantity).getD 0 + 2 = 7 := by
    decide +kernel
  obtain rfl := Option.some.inj (htwo.symm.trans hitem)
  exact absurd (hquantity.trans hseven) (by decide)

/-! ## Changes that fail -/

/-- The requests that change a cart. -/
def CartRequest.ChangesCart : CartRequest → Prop
  | .addItem _ _ | .updateItem _ _ | .deleteCart _ | .deleteItem _ => True
  | _ => False

/-- The request comes to set an item. -/
def CartRequest.SetsItem : CartRequest → Prop
  | .addItem (some req) _ => req.isValid = true
  | .updateItem (some req) _ => req.IsValid ∧ req.quantity ≠ 0
  | _ => False

/-- What the request writes is what is stored: an update to the present quantity, or a new item
after a failed `HGET` that is the stored one by chance. -/
def RepeatsStored (choose : ℕ → Choice) (s : CartStore) : CartRequest → Prop
  | .addItem (some req) now => (choose 0).fault ≠ .none ∧
      storedItem s req.userID req.productID = some ⟨req.productID, req.quantity, now⟩
  | .updateItem (some req) now => ∃ old, storedItem s req.userID req.productID = some old ∧
      old.quantity = req.quantity ∧ ((choose 0).fault ≠ .none → old.addedAt = now)
  | _ => False

/-- An add never repeats the item that it has read. -/
lemma storedItem_eq_changedItem_add {choice : Choice} {req : AddItemRequest} {now : String}
    (hvalid : req.isValid = true) :
    storedItem s req.userID req.productID =
        some (changedItem choice s req.userID req.productID req.quantity now
          (· + req.quantity)) ↔
      choice.fault ≠ .none ∧
        storedItem s req.userID req.productID = some ⟨req.productID, req.quantity, now⟩ := by
  have hpos : req.quantity ≠ 0 := by
    unfold AddItemRequest.isValid at hvalid
    simp only [Bool.and_eq_true, decide_eq_true_eq] at hvalid
    rintro hzero
    exact absurd (hzero ▸ hvalid.2) (by decide)
  unfold changedItem
  by_cases hget : choice.fault = .none
  · simp only [hget, if_true, ne_eq, not_true_eq_false, false_and, iff_false]
    cases storedItem s req.userID req.productID with
    | none => simp
    | some old =>
      intro heq
      have hquantity := congrArg CartItem.quantity (Option.some.inj heq)
      simp only [Option.elim_some] at hquantity
      exact hpos (by grind)
  · simp only [hget, if_false, ne_eq, not_false_eq_true, true_and]

/-- An update repeats the item that it has read if it asks for the present quantity. -/
lemma storedItem_eq_changedItem_update (hs : Represented s) {choice : Choice}
    {req : UpdateItemRequest} {now : String} :
    storedItem s req.userID req.productID =
        some (changedItem choice s req.userID req.productID req.quantity now
          fun _ => req.quantity) ↔
      ∃ old, storedItem s req.userID req.productID = some old ∧ old.quantity = req.quantity ∧
        (choice.fault ≠ .none → old.addedAt = now) := by
  have hproduct := (hs.storedText_eq req.userID req.productID).2
  unfold changedItem
  cases hold : storedItem s req.userID req.productID with
  | none => simp
  | some old =>
    have hfield := hproduct old hold
    obtain ⟨field, quantity, addedAt⟩ := old
    simp only at hfield
    subst hfield
    by_cases hget : choice.fault = .none
    · simp [hget]
    · simp [hget]

/-- A request that sets no item and is answered with an error has left the store alone. -/
lemma unchanged_of_error (hclean : FailsClean choose) {request : CartRequest}
    (hrequest : request.ChangesCart) (hset : ¬ request.SetsItem)
    (hrun : serveAlone choose s request = some (s', answer))
    (herror : ¬ (200 ≤ answer.code ∧ answer.code < 300)) : s' = s := by
  have hdone : ∀ refusal : Response, (Program.done refusal : CartProgram).perform execCart 0
      (fun n _ => choose n) 0 s = some (s', answer) → s' = s :=
    fun refusal h => (Prod.mk.inj (Option.some.inj h)).1.symm
  cases request with
  | addItem body now =>
    cases body with
    | none => exact hdone _ hrun
    | some req =>
      unfold serveAlone serve handleAddItem at hrun
      simp only [show ¬ req.isValid = true from hset, Bool.false_eq_true, if_false] at hrun
      exact hdone _ hrun
  | updateItem body now =>
    cases body with
    | none => exact hdone _ hrun
    | some req =>
      by_cases hvalid : req.IsValid
      · -- a valid update that sets nothing is one to zero units, a removal
        have hzero : req.quantity = 0 := by
          by_contra hpos
          exact hset ⟨hvalid, hpos⟩
        rcases itemRemoved_of_updateItem hclean hvalid hzero hrun with ⟨rfl, -⟩ | ⟨-, hcode⟩
        · rfl
        · omega
      · unfold serveAlone serve handleUpdateItem at hrun
        unfold UpdateItemRequest.IsValid at hvalid
        simp only at hrun
        split at hrun
        · exact hdone _ hrun
        · split at hrun
          · exact hdone _ hrun
          · tauto
  | deleteCart path =>
    unfold serveAlone serve handleDeleteCart at hrun
    simp only at hrun
    split at hrun
    · exact hdone _ hrun
    · simp only [Program.perform] at hrun
      -- a `DEL` that succeeds is answered with 200
      obtain ⟨⟨s₁, cleared⟩, hdel, hrun⟩ := Option.bind_eq_some_iff.mp hrun
      rcases execCart_clean (hclean 0) hdel with ⟨-, rfl, hreply⟩ | ⟨-, rfl, rfl⟩
      · obtain rfl := Option.some.inj hreply
        obtain ⟨-, rfl⟩ := Prod.mk.inj (Option.some.inj hrun)
        exact absurd ⟨by decide, by decide⟩ herror
      · exact hdone _ hrun
  | deleteItem path =>
    unfold serveAlone serve handleDeleteItem at hrun
    simp only at hrun
    split at hrun
    · exact hdone _ hrun
    · rcases itemRemoved_of_perform hclean (fun _ => rfl) rfl hrun with ⟨rfl, -⟩ | ⟨-, hcode⟩
      · rfl
      · omega
  | _ => exact hrequest.elim

/-- If a change alone is answered with an error it has changed no field of any cart, unless its
`HSET` has taken effect and its `EXPIRE` has failed, and the item it has set is not the one that
was there. -/
theorem failed_change_iff (hs : Reachable s) (hclean : FailsClean choose) {request : CartRequest}
    (hrequest : request.ChangesCart) (hrun : serveAlone choose s request = some (s', answer)) :
    (¬ (200 ≤ answer.code ∧ answer.code < 300) →
      ∀ user field, storedText s' user field = storedText s user field) ↔
    (request.SetsItem → HalfDone choose → RepeatsStored choose s request) := by
  have hrep := represented_of_reachable hs
  by_cases hset : request.SetsItem
  · simp only [hset, forall_const]
    cases request with
    | addItem body now =>
      cases body with
      | none => exact hset.elim
      | some req =>
        rw [unchanged_iff_of_itemSet hrep (itemSet_of_addItem hrep hclean hset hrun),
          storedItem_eq_changedItem_add hset]
        exact Iff.rfl
    | updateItem body now =>
      cases body with
      | none => exact hset.elim
      | some req =>
        rw [unchanged_iff_of_itemSet hrep
          (itemSet_of_updateItem hrep hclean hset.1 hset.2 hrun),
          storedItem_eq_changedItem_update hrep]
        exact Iff.rfl
    | _ => exact hset.elim
  · refine iff_of_true (fun herror user field => ?_) fun h => absurd h hset
    rw [unchanged_of_error hclean hrequest hset hrun herror]

/-- An add whose `HSET` fails leaves the five units. -/
theorem failed_change_iff_refused :
    storedText ((serveAlone (failing [1]) cartOfFive addTwoMore).get
      (isSome_addTwoMore [1] (by decide))).1 "u" "p" = storedText cartOfFive "u" "p" :=
  (failed_change_iff reachable_cartOfFive (failsClean_failing [1])
    (show addTwoMore.ChangesCart from trivial)
    (Option.some_get (isSome_addTwoMore [1] (by decide))).symm).mpr
    (fun _ hhalf => absurd hhalf (by decide +kernel)) (by decide +kernel) "u" "p"

/-- **A failed add has added.** Its `EXPIRE` fails, it answers 500, and there are seven units. -/
theorem failed_add_adds :
    ¬ ∀ (s : CartStore) (choose : ℕ → Choice) (request : CartRequest) (s' : CartStore)
      (answer : Response), Reachable s → FailsClean choose → request.ChangesCart →
      serveAlone choose s request = some (s', answer) →
      ¬ (200 ≤ answer.code ∧ answer.code < 300) →
      ∀ user field, storedText s' user field = storedText s user field := by
  intro h
  have hsame := h cartOfFive (failing [2]) addTwoMore _ _ reachable_cartOfFive
    (failsClean_failing [2]) trivial (Option.some_get (isSome_addTwoMore [2] (by decide))).symm
    (by decide +kernel) "u" "p"
  exact absurd hsame (by decide +kernel)

end

end DevopsEcommerce.CartService
