import Mathlib.Order.Defs.LinearOrder
import DevopsEcommerce.OrderClients.OrderForms
import DevopsEcommerce.ProductService.Routes

/-!
# The cart of the storefront

`index.html` in the tabs of one browser. Each tab keeps a cart in its `state`, and all of them
save theirs under one name in `localStorage`. Clicks, responses and reloads come in any order.

Whatever the user does, a cart has at most one line of each product, with a positive quantity, and
so has every order that is posted (`storefront_carts_valid`).

The product service sends documents without `id`, so that all products are one to the storefront.
What follows is in `NamelessProducts`.
-/

open Interleaving

namespace DevopsEcommerce.OrderClients

/-- What the pages read of a product. `id` is a string or undefined, `price` is
`Number(product.price)`. -/
structure Product (N : Type) where
  id : Option String
  name : Json
  price : N

/-- A line of `state.cart`. -/
structure Line (N : Type) where
  id : Option String
  name : Json
  price : N
  qty : N

def Line.toCartLine {N : Type} (line : Line N) : CartLine N :=
  ⟨line.id.map .string, line.name, line.price, line.qty⟩

/-- How JSON writes numbers and reads them. -/
structure JsonNumbers (N : Type) where
  toJson : N → Json
  ofJson : Json → N
  ofJson_toJson : ∀ n, ofJson (toJson n) = n

/-! ## The cart in `localStorage` -/

section
variable {N : Type} (numbers : JsonNumbers N)

def lineJson (line : Line N) : Json :=
  .object (property "id" (line.id.map .string) ++
    [("name", line.name), ("price", numbers.toJson line.price), ("qty", numbers.toJson line.qty)])

/-- What `saveCart` saves. -/
def cartText (cart : List (Line N)) : String :=
  Js.stringify (.array (cart.map (lineJson numbers)))

/-- `undefined` or a string. -/
def readId : Option Json → Option (Option String)
  | none => some none
  | some (.string s) => some (some s)
  | some _ => none

/-- A line that has been saved; `none` for other values. -/
def readLine (v : Json) : Option (Line N) :=
  match Js.property v "name", Js.property v "price", Js.property v "qty" with
  | some name, some price, some qty =>
    (readId (Js.property v "id")).map fun id =>
      ⟨id, name, numbers.ofJson price, numbers.ofJson qty⟩
  | _, _, _ => none

/-- `loadCart`; `none` for a text that `saveCart` does not save. -/
def loadCart : Option String → Option (List (Line N))
  | none => some []
  | some text =>
    match Js.parse text with
    | some (.array items) => items.mapM (readLine numbers)
    | some _ => none
    | none => some []

@[simp] lemma readLine_lineJson (line : Line N) :
    readLine numbers (lineJson numbers line) = some line := by
  obtain ⟨id, name, price, qty⟩ := line
  have hread : readLine numbers (lineJson numbers ⟨id, name, price, qty⟩) =
      some ⟨id, name, numbers.ofJson (numbers.toJson price),
        numbers.ofJson (numbers.toJson qty)⟩ := by
    cases id <;> rfl
  rw [hread, numbers.ofJson_toJson, numbers.ofJson_toJson]

lemma loadCart_cartText (cart : List (Line N)) :
    loadCart numbers (some (cartText numbers cart)) = some cart := by
  rw [loadCart, cartText, Js.parse_stringify]
  show (cart.map (lineJson numbers)).mapM (readLine numbers) = some cart
  induction cart with
  | nil => rfl
  | cons line cart ih =>
    rw [List.map_cons, List.mapM_cons, readLine_lineJson, ih]
    rfl

end

/-! ## The page -/

section
variable {N : Type}

/-- `item.qty += delta` for the first line with this id. -/
def addQty [Add N] (id : Option String) (delta : N) : List (Line N) → List (Line N)
  | [] => []
  | line :: rest =>
    if line.id = id then { line with qty := line.qty + delta } :: rest
    else line :: addQty id delta rest

/-- The cart after `addToCart`. -/
def addToCart [Add N] (cart : List (Line N)) (product : Product N) (qty : N) : List (Line N) :=
  if cart.any fun line => line.id = product.id then addQty product.id qty cart
  else cart ++ [⟨product.id, product.name, product.price, qty⟩]

/-- The cart after `removeCartItem`. The page names the line by a string. -/
def removeCartItem (cart : List (Line N)) (id : String) : List (Line N) :=
  cart.filter fun line => line.id ≠ some id

/-- The cart after `updateCartQty`; `none` if there is no such line. -/
def updateCartQty [Add N] [Zero N] [LinearOrder N] (cart : List (Line N)) (id : String)
    (delta : N) : Option (List (Line N)) :=
  (cart.find? fun line => line.id = some id).map fun item =>
    if item.qty + delta ≤ 0 then removeCartItem cart id else addQty (some id) delta cart

/-- The `state` of one tab, and the orders that it waits for. -/
structure Tab (N : Type) where
  cart : List (Line N)
  detailProduct : Option (Product N)
  /-- `state._detailQty || 1` -/
  detailQty : N
  /-- the id of `state.user` -/
  user : Option (Option Json)
  waiting : List Json

/-- What the tabs share. -/
structure Browser (N : Type) where
  /-- `cart` in `localStorage` -/
  cart : Option String
  /-- the id of `auth_user` in `localStorage` -/
  auth : Option (Option Json)
  tabs : List (Tab N)
  /-- what has been posted to `/api/orders`, latest first -/
  posted : List Json
  /-- what `addToCart` has been called with, latest first -/
  added : List (Product N × N)

def Browser.initial : Browser N where
  cart := none
  auth := none
  tabs := []
  posted := []
  added := []

inductive TabEvent (N : Type) where
  /-- The page is loaded again. -/
  | load
  /-- `renderProductDetail` gets a product. -/
  | productArrived (product : Product N)
  | adjustDetailQty (delta : N)
  | addToCartFromDetail
  | updateCartQty (id : String) (delta : N)
  | removeCartItem (id : String)
  /-- `handleLogin` or `handleRegister` gets `data`. -/
  | authenticated (data : JsObject)
  | logout
  /-- `placeOrder`, with the address that the page shows. -/
  | placeOrder (address : Option String)
  /-- The promise of a posted order is resolved or rejected. -/
  | answered (j : ℕ) (ok : Bool)

inductive BrowserEvent (N : Type) where
  | openTab
  | inTab (i : ℕ) (e : TabEvent N)

namespace Browser
variable [Zero N] [One N] [Add N] [Mul N] [LinearOrder N] (numbers : JsonNumbers N)

def setTab (b : Browser N) (i : ℕ) (tab : Tab N) : Browser N :=
  { b with tabs := b.tabs.set i tab }

/-- A tab changes its cart, and `saveCart`. -/
def saveCart (b : Browser N) (i : ℕ) (tab : Tab N) : Browser N :=
  { b.setTab i tab with cart := some (cartText numbers tab.cart) }

/-- The page right after it has been loaded. -/
def loaded (b : Browser N) : Option (Tab N) :=
  (loadCart numbers b.cart).map fun cart =>
    { cart, detailProduct := none, detailQty := 1, user := b.auth, waiting := [] }

def act (b : Browser N) (i : ℕ) (tab : Tab N) : TabEvent N → Option (Browser N)
  | .load => (b.loaded numbers).map (b.setTab i)
  | .productArrived product =>
    some (b.setTab i { tab with detailProduct := some product, detailQty := 1 })
  | .adjustDetailQty delta =>
    some (b.setTab i { tab with detailQty := max 1 (tab.detailQty + delta) })
  | .addToCartFromDetail =>
    match tab.detailProduct with
    | none => some b
    | some product =>
      let tab' := { tab with cart := addToCart tab.cart product tab.detailQty }
      some { b.saveCart numbers i tab' with added := (product, tab.detailQty) :: b.added }
  | .updateCartQty id delta =>
    match updateCartQty tab.cart id delta with
    | none => some b
    | some cart => some (b.saveCart numbers i { tab with cart })
  | .removeCartItem id =>
    some (b.saveCart numbers i { tab with cart := removeCartItem tab.cart id })
  | .authenticated data =>
    let id := handleLogin data
    some { b.setTab i { tab with user := some id } with
      auth := (truthy data "token").map fun _ => id }
  | .logout => some { b.setTab i { tab with user := none } with auth := none }
  | .placeOrder address =>
    match tab.user with
    | none => some b
    | some userId =>
      match placeOrder numbers.toJson userId (tab.cart.map Line.toCartLine) address with
      | none => some b
      | some body =>
        some { b.setTab i { tab with waiting := tab.waiting ++ [body] } with
          posted := body :: b.posted }
  | .answered j ok =>
    if j < tab.waiting.length then
      let tab' := { tab with waiting := tab.waiting.eraseIdx j }
      if ok then some (b.saveCart numbers i { tab' with cart := [] }) else some (b.setTab i tab')
    else none

def step (b : Browser N) : BrowserEvent N → Option (Browser N)
  | .openTab => (b.loaded numbers).map fun tab => { b with tabs := b.tabs ++ [tab] }
  | .inTab i e => b.tabs[i]?.bind fun tab => b.act numbers i tab e

/-! ## What an event changes -/

variable {numbers : JsonNumbers N} {b b' : Browser N} {i : ℕ} {tab : Tab N}

/-- The cart after an event that changes and saves it. -/
def edited (tab : Tab N) : TabEvent N → Option (List (Line N))
  | .addToCartFromDetail =>
    tab.detailProduct.map fun product => addToCart tab.cart product tab.detailQty
  | .updateCartQty id delta => OrderClients.updateCartQty tab.cart id delta
  | .removeCartItem id => some (OrderClients.removeCartItem tab.cart id)
  | .answered _ true => some []
  | _ => none

/-- What an event puts into the cart. -/
def adding (tab : Tab N) : TabEvent N → Option (Product N × N)
  | .addToCartFromDetail => tab.detailProduct.map fun product => (product, tab.detailQty)
  | _ => none

/-- `placeOrder` posts this body for this cart. -/
def Posts (numbers : JsonNumbers N) (cart : List (Line N)) (body : Json) : Prop :=
  ∃ userId address,
    OrderClients.placeOrder numbers.toJson userId (cart.map Line.toCartLine) address = some body

/-- What else an event does to its tab. -/
structure Continues (numbers : JsonNumbers N) (tab : Tab N) (e : TabEvent N) (tab' : Tab N) :
    Prop where
  qty : 1 ≤ tab'.detailQty ∨ tab'.detailQty = tab.detailQty
  product : ∀ product ∈ tab'.detailProduct,
    product ∈ tab.detailProduct ∨ e = .productArrived product
  waiting : ∀ body ∈ tab'.waiting, body ∈ tab.waiting ∨ Posts numbers tab.cart body

lemma Continues.same {e : TabEvent N} {tab' : Tab N} (hqty : tab'.detailQty = tab.detailQty)
    (hproduct : tab'.detailProduct = tab.detailProduct)
    (hwaiting : ∀ body ∈ tab'.waiting, body ∈ tab.waiting) : Continues numbers tab e tab' where
  qty := .inr hqty
  product _ h := .inl (hproduct ▸ h)
  waiting body h := .inl (hwaiting body h)

/-- An event edits the cart of its tab and saves it; or it leaves the cart alone, or loads the one
that has been saved. -/
inductive Moved (numbers : JsonNumbers N) (b : Browser N) (i : ℕ) (tab : Tab N)
    (e : TabEvent N) (b' : Browser N) : Prop
  | turned (tab' : Tab N) (htabs : b'.tabs = b.tabs.set i tab')
      (htab : Continues numbers tab e tab') (hedit : edited tab e = none)
      (hsaved : b'.cart = b.cart) (hadded : b'.added = b.added)
      (hcart : tab'.cart = tab.cart ∨ loadCart numbers b.cart = some tab'.cart)
      (hposted : ∀ body ∈ b'.posted, body ∈ b.posted ∨ Posts numbers tab.cart body)
  | edited (tab' : Tab N) (htabs : b'.tabs = b.tabs.set i tab')
      (htab : Continues numbers tab e tab') (hedit : edited tab e = some tab'.cart)
      (hsaved : b'.cart = some (cartText numbers tab'.cart))
      (hadded : b'.added = (adding tab e).toList ++ b.added) (hposted : b'.posted = b.posted)

lemma moved_unchanged {e : TabEvent N} (htab : b.tabs[i]? = some tab)
    (hedit : edited tab e = none) : Moved numbers b i tab e b := by
  have hset : b.tabs = b.tabs.set i tab := by
    obtain ⟨hi, rfl⟩ := List.getElem?_eq_some_iff.mp htab
    exact (List.set_getElem_self hi).symm
  exact .turned tab hset (.same rfl rfl fun _ h => h) hedit rfl rfl (.inl rfl) fun _ => .inl

lemma moved_of_act {e : TabEvent N} (htab : b.tabs[i]? = some tab)
    (h : b.act numbers i tab e = some b') : Moved numbers b i tab e b' := by
  cases e with
  | load =>
    obtain ⟨tab', hloaded, rfl⟩ := Option.map_eq_some_iff.mp h
    obtain ⟨cart, hcart, rfl⟩ := Option.map_eq_some_iff.mp hloaded
    refine .turned _ rfl ⟨.inl le_rfl, ?_, ?_⟩ rfl rfl rfl (.inr hcart) fun _ => .inl
    · exact fun _ hproduct => absurd hproduct (by simp)
    · exact fun _ hbody => absurd hbody List.not_mem_nil
  | productArrived product =>
    obtain rfl := Option.some.inj h
    refine .turned _ rfl ⟨.inl le_rfl, ?_, fun _ => .inl⟩ rfl rfl rfl (.inl rfl) fun _ => .inl
    intro product' hproduct
    obtain rfl := Option.mem_some.mp hproduct
    exact .inr rfl
  | adjustDetailQty delta =>
    obtain rfl := Option.some.inj h
    exact .turned _ rfl ⟨.inl (le_max_left _ _), fun _ => .inl, fun _ => .inl⟩ rfl rfl rfl
      (.inl rfl) fun _ => .inl
  | addToCartFromDetail =>
    cases hproduct : tab.detailProduct with
    | none =>
      simp only [act, hproduct] at h
      obtain rfl := Option.some.inj h
      exact moved_unchanged htab (by simp [edited, hproduct])
    | some product =>
      simp only [act, hproduct] at h
      obtain rfl := Option.some.inj h
      exact .edited _ rfl (.same rfl hproduct.symm fun _ h => h) (by simp [edited, hproduct]) rfl
        (by simp [adding, hproduct]) rfl
  | updateCartQty id delta =>
    cases hcart : OrderClients.updateCartQty tab.cart id delta with
    | none =>
      simp only [act, hcart] at h
      obtain rfl := Option.some.inj h
      exact moved_unchanged htab hcart
    | some cart =>
      simp only [act, hcart] at h
      obtain rfl := Option.some.inj h
      exact .edited _ rfl (.same rfl rfl fun _ h => h) hcart rfl rfl rfl
  | removeCartItem id =>
    obtain rfl := Option.some.inj h
    exact .edited _ rfl (.same rfl rfl fun _ h => h) rfl rfl rfl rfl
  | authenticated data =>
    obtain rfl := Option.some.inj h
    exact .turned _ rfl (.same rfl rfl fun _ h => h) rfl rfl rfl (.inl rfl) fun _ => .inl
  | logout =>
    obtain rfl := Option.some.inj h
    exact .turned _ rfl (.same rfl rfl fun _ h => h) rfl rfl rfl (.inl rfl) fun _ => .inl
  | placeOrder address =>
    simp only [act] at h
    split at h
    · obtain rfl := Option.some.inj h
      exact moved_unchanged htab rfl
    · rename_i userId huser
      split at h
      · obtain rfl := Option.some.inj h
        exact moved_unchanged htab rfl
      · rename_i body hbody
        obtain rfl := Option.some.inj h
        have hposts : Posts numbers tab.cart body := ⟨userId, address, hbody⟩
        refine .turned _ rfl ⟨.inr rfl, fun _ => .inl, ?_⟩ rfl rfl rfl (.inl rfl) ?_
        · intro body' hbody'
          rcases List.mem_append.mp hbody' with hold | hnew
          · exact .inl hold
          · obtain rfl := List.mem_singleton.mp hnew
            exact .inr hposts
        · intro body' hbody'
          rcases List.mem_cons.mp hbody' with rfl | hold
          · exact .inr hposts
          · exact .inl hold
  | answered j ok =>
    simp only [act] at h
    split at h
    · cases ok with
      | true =>
        obtain rfl := Option.some.inj h
        exact .edited _ rfl (.same rfl rfl fun _ => List.mem_of_mem_eraseIdx) rfl rfl rfl rfl
      | false =>
        obtain rfl := Option.some.inj h
        exact .turned _ rfl (.same rfl rfl fun _ => List.mem_of_mem_eraseIdx) rfl rfl rfl (.inl rfl)
          fun _ => .inl
    · exact absurd h (by simp)

/-- What holds of a page that has just been loaded, and of a tab after each of its events, holds of
all tabs. -/
lemma tabs_step {Q : Tab N → Prop} {e : BrowserEvent N}
    (hloaded : ∀ tab, b.loaded numbers = some tab → Q tab)
    (hcontinues : ∀ i te tab tab', e = .inTab i te → Q tab → Continues numbers tab te tab' → Q tab')
    (h : ∀ tab ∈ b.tabs, Q tab) (hstep : step numbers b e = some b') : ∀ tab ∈ b'.tabs, Q tab := by
  cases e with
  | openTab =>
    obtain ⟨tab, hnew, rfl⟩ := Option.map_eq_some_iff.mp hstep
    intro u hu
    rcases List.mem_append.mp hu with hold | hu
    · exact h u hold
    · obtain rfl := List.mem_singleton.mp hu
      exact hloaded u hnew
  | inTab i e =>
    obtain ⟨tab, htab, hact⟩ := Option.bind_eq_some_iff.mp hstep
    have hset : ∀ tab', Continues numbers tab e tab' → b'.tabs = b.tabs.set i tab' →
        ∀ u ∈ b'.tabs, Q u := by
      intro tab' hcont htabs u hu
      rw [htabs] at hu
      rcases List.mem_or_eq_of_mem_set hu with hold | rfl
      · exact h u hold
      · exact hcontinues i e tab u rfl (h tab (List.mem_of_getElem? htab)) hcont
    cases moved_of_act htab hact with
    | turned tab' htabs hcont => exact hset tab' hcont htabs
    | edited tab' htabs hcont => exact hset tab' hcont htabs

/-- `P` holds of all carts: of those in the tabs, of the one that has been saved, and of those for
which an order has been posted. -/
structure Carts (numbers : JsonNumbers N) (P : List (Line N) → Prop) (b : Browser N) : Prop where
  tabs : ∀ tab ∈ b.tabs, P tab.cart
  saved : ∃ cart, loadCart numbers b.cart = some cart ∧ P cart
  posted : ∀ body ∈ b.posted, ∃ cart, P cart ∧ Posts numbers cart body

omit [One N] [LinearOrder N] in
lemma carts_initial {P : List (Line N) → Prop} (hempty : P []) : Carts numbers P .initial where
  tabs _ htab := absurd htab List.not_mem_nil
  saved := ⟨[], rfl, hempty⟩
  posted _ hbody := absurd hbody List.not_mem_nil

/-- What edits make of `P`, holds of all carts after a step. -/
lemma carts_step {P P' : List (Line N) → Prop} {e : BrowserEvent N}
    (hmono : ∀ cart, P cart → P' cart)
    (hedit : ∀ i te tab cart, e = .inTab i te → b.tabs[i]? = some tab → P tab.cart →
      edited tab te = some cart → P' cart)
    (h : Carts numbers P b) (hstep : step numbers b e = some b') : Carts numbers P' b' := by
  obtain ⟨saved, hsaved, hPsaved⟩ := h.saved
  have hposted : ∀ body ∈ b.posted, ∃ cart, P' cart ∧ Posts numbers cart body := by
    intro body hbody
    obtain ⟨cart, hP, hposts⟩ := h.posted body hbody
    exact ⟨cart, hmono _ hP, hposts⟩
  cases e with
  | openTab =>
    obtain ⟨tab, hloaded, rfl⟩ := Option.map_eq_some_iff.mp hstep
    obtain ⟨cart, hcart, rfl⟩ := Option.map_eq_some_iff.mp hloaded
    refine ⟨fun tab' htab' => ?_, ⟨saved, hsaved, hmono _ hPsaved⟩, hposted⟩
    rcases List.mem_append.mp htab' with hold | hnew
    · exact hmono _ (h.tabs tab' hold)
    · obtain rfl := List.mem_singleton.mp hnew
      obtain rfl := Option.some.inj (hcart.symm.trans hsaved)
      exact hmono _ hPsaved
  | inTab i e =>
    obtain ⟨tab, htab, hact⟩ := Option.bind_eq_some_iff.mp hstep
    have hPtab := h.tabs tab (List.mem_of_getElem? htab)
    cases moved_of_act htab hact with
    | turned tab' htabs hcont hedited hsame hadded hcart hbodies =>
      refine ⟨fun u hu => ?_, ⟨saved, by rw [hsame, hsaved], hmono _ hPsaved⟩, fun body hbody => ?_⟩
      · rw [htabs] at hu
        rcases List.mem_or_eq_of_mem_set hu with hold | rfl
        · exact hmono _ (h.tabs u hold)
        · rcases hcart with hcart | hcart
          · rw [hcart]
            exact hmono _ hPtab
          · obtain rfl := Option.some.inj (hcart.symm.trans hsaved)
            exact hmono _ hPsaved
      · rcases hbodies body hbody with hold | hnew
        · exact hposted body hold
        · exact ⟨tab.cart, hmono _ hPtab, hnew⟩
    | edited tab' htabs hcont hedited hnew hadded hbodies =>
      have hP' := hedit i e tab _ rfl htab hPtab hedited
      refine ⟨fun u hu => ?_, ⟨tab'.cart, by rw [hnew, loadCart_cartText], hP'⟩, ?_⟩
      · rw [htabs] at hu
        rcases List.mem_or_eq_of_mem_set hu with hold | rfl
        · exact hmono _ (h.tabs u hold)
        · exact hP'
      · rw [hbodies]
        exact hposted

end Browser

/-! ## Valid carts -/

/-- One line of each product, with a positive quantity. -/
structure ValidCart [Zero N] [LT N] (cart : List (Line N)) : Prop where
  nodup : (cart.map Line.id).Nodup
  positive : ∀ line ∈ cart, 0 < line.qty

lemma map_id_addQty [Add N] (id : Option String) (delta : N) (cart : List (Line N)) :
    (addQty id delta cart).map Line.id = cart.map Line.id := by
  induction cart with
  | nil => rfl
  | cons line rest ih =>
    rw [addQty]
    split
    · rfl
    · rw [List.map_cons, List.map_cons, ih]

/-- The line of the product gets the new quantity, all others stay. -/
lemma mem_addQty [Add N] {id : Option String} {delta : N} {cart : List (Line N)} {line' : Line N}
    (h : line' ∈ addQty id delta cart) :
    line' ∈ cart ∨ ∃ item, cart.find? (fun line => line.id = id) = some item ∧
      line' = { item with qty := item.qty + delta } := by
  induction cart with
  | nil => exact absurd h List.not_mem_nil
  | cons line rest ih =>
    rw [addQty] at h
    split at h
    · rename_i hid
      rcases List.mem_cons.mp h with rfl | hrest
      · exact .inr ⟨line, by rw [List.find?_cons_of_pos (by simpa using hid)], rfl⟩
      · exact .inl (List.mem_cons_of_mem _ hrest)
    · rename_i hid
      rcases List.mem_cons.mp h with rfl | hrest
      · exact .inl List.mem_cons_self
      · rw [List.find?_cons_of_neg (by simpa using hid)]
        exact (ih hrest).imp_left (List.mem_cons_of_mem _)

section
variable [Zero N] [Add N] [LinearOrder N] {cart cart' : List (Line N)}

omit [Add N] in
lemma ValidCart.remove (h : ValidCart cart) (id : String) : ValidCart (removeCartItem cart id) where
  nodup := h.nodup.sublist (List.filter_sublist.map _)
  positive line hline := h.positive line (List.mem_of_mem_filter hline)

lemma ValidCart.add (hadd : ∀ a c : N, 0 < a → 0 < c → 0 < a + c) (h : ValidCart cart)
    (product : Product N) {qty : N} (hqty : 0 < qty) : ValidCart (addToCart cart product qty) := by
  unfold addToCart
  split
  · refine ⟨by rw [map_id_addQty]; exact h.nodup, fun line hline => ?_⟩
    rcases mem_addQty hline with hold | ⟨item, hfind, rfl⟩
    · exact h.positive line hold
    · exact hadd _ _ (h.positive item (List.mem_of_find?_eq_some hfind)) hqty
  · rename_i hnew
    refine ⟨?_, fun line hline => ?_⟩
    · rw [List.map_append, List.nodup_append]
      refine ⟨h.nodup, List.nodup_singleton _, fun id hid id' hid' heq => hnew ?_⟩
      obtain ⟨line, hline, rfl⟩ := List.mem_map.mp hid
      obtain rfl := List.mem_singleton.mp hid'
      exact List.any_eq_true.mpr ⟨line, hline, decide_eq_true heq⟩
    · rcases List.mem_append.mp hline with hold | hline
      · exact h.positive line hold
      · obtain rfl := List.mem_singleton.mp hline
        exact hqty

lemma ValidCart.update (h : ValidCart cart) {id : String} {delta : N}
    (hupdate : updateCartQty cart id delta = some cart') : ValidCart cart' := by
  obtain ⟨item, hitem, rfl⟩ := Option.map_eq_some_iff.mp hupdate
  split
  · exact h.remove id
  · rename_i hpositive
    refine ⟨by rw [map_id_addQty]; exact h.nodup, fun line hline => ?_⟩
    rcases mem_addQty hline with hold | ⟨item', hitem', rfl⟩
    · exact h.positive line hold
    · obtain rfl := Option.some.inj (hitem.symm.trans hitem')
      exact not_le.mp hpositive

end

namespace Browser
variable [Zero N] [One N] [Add N] [Mul N] [LinearOrder N] {numbers : JsonNumbers N}

/-- The only tab has the cart that a reload would give it. -/
def Mirrored (numbers : JsonNumbers N) (b : Browser N) : Prop :=
  b.tabs.length ≤ 1 → ∀ tab ∈ b.tabs, loadCart numbers b.cart = some tab.cart

lemma mirrored_step {b b' : Browser N} {e : BrowserEvent N} (h : Mirrored numbers b)
    (hstep : step numbers b e = some b') : Mirrored numbers b' := by
  cases e with
  | openTab =>
    obtain ⟨tab, hloaded, rfl⟩ := Option.map_eq_some_iff.mp hstep
    obtain ⟨cart, hcart, rfl⟩ := Option.map_eq_some_iff.mp hloaded
    intro hone u hu
    rw [List.length_append] at hone
    have hnil : b.tabs = [] := List.eq_nil_of_length_eq_zero (by simpa using hone)
    rw [hnil] at hu
    obtain rfl := List.mem_singleton.mp hu
    exact hcart
  | inTab i e =>
    obtain ⟨tab, htab, hact⟩ := Option.bind_eq_some_iff.mp hstep
    have honly : ∀ tab', b'.tabs = b.tabs.set i tab' → b'.tabs.length ≤ 1 →
        b.tabs.length ≤ 1 ∧ ∀ u ∈ b'.tabs, u = tab' := by
      intro tab' htabs hone
      rw [htabs, List.length_set] at hone
      refine ⟨hone, fun u hu => ?_⟩
      have hi := (List.getElem?_eq_some_iff.mp htab).1
      have hmem : tab' ∈ b'.tabs := by
        rw [htabs]
        exact List.mem_set hi tab'
      have hlength : b'.tabs.length ≤ 1 := by rw [htabs, List.length_set]; exact hone
      obtain ⟨j, hj, rfl⟩ := List.mem_iff_getElem.mp hu
      obtain ⟨k, hk, rfl⟩ := List.mem_iff_getElem.mp hmem
      obtain rfl : j = k := by omega
      rfl
    cases moved_of_act htab hact with
    | turned tab' htabs hcont hedited hsaved hadded hcart =>
      intro hone u hu
      obtain ⟨hone, hu'⟩ := honly tab' htabs hone
      rw [hu' u hu, hsaved]
      rcases hcart with hcart | hcart
      · rw [hcart]
        exact h hone tab (List.mem_of_getElem? htab)
      · exact hcart
    | edited tab' htabs hcont hedited hsaved =>
      intro hone u hu
      rw [(honly tab' htabs hone).2 u hu, hsaved, loadCart_cartText]

/-- In every run of the browser, whatever products the pages get and however its tabs interfere:
each cart, the saved one, and each order that is posted have at most one line of each product and
positive quantities only. As long as there is one tab, no reload changes its cart. -/
theorem storefront_carts_valid (hone : (0 : N) < 1) (hadd : ∀ a c : N, 0 < a → 0 < c → 0 < a + c)
    {es : List (BrowserEvent N)} {b : Browser N} (hrun : run (step numbers) initial es = some b) :
    Carts numbers ValidCart b ∧ Mirrored numbers b := by
  have hempty : ValidCart ([] : List (Line N)) :=
    ⟨List.nodup_nil, fun _ h => absurd h List.not_mem_nil⟩
  refine ⟨(run_invariant (P := fun b => (∀ tab ∈ b.tabs, 0 < tab.detailQty) ∧
    Carts numbers ValidCart b) (fun b e b' h hstep => ⟨?_, ?_⟩) ⟨?_, carts_initial hempty⟩ hrun).2,
    run_invariant (fun _ _ _ h hstep => mirrored_step h hstep) ?_ hrun⟩
  · refine tabs_step (fun tab hloaded => ?_) (fun i te tab tab' _ hqty hcont => ?_) h.1 hstep
    · obtain ⟨cart, -, rfl⟩ := Option.map_eq_some_iff.mp hloaded
      exact hone
    · rcases hcont.qty with hge | hsame
      · exact hone.trans_le hge
      · rw [hsame]
        exact hqty
  · refine carts_step (fun _ hvalid => hvalid) (fun i te tab cart _ htab hvalid hedited => ?_) h.2
      hstep
    cases te with
    | addToCartFromDetail =>
      obtain ⟨product, -, rfl⟩ := Option.map_eq_some_iff.mp hedited
      exact hvalid.add hadd product (h.1 tab (List.mem_of_getElem? htab))
    | updateCartQty id delta => exact hvalid.update hedited
    | removeCartItem id =>
      obtain rfl := Option.some.inj hedited
      exact hvalid.remove id
    | answered j ok =>
      cases ok with
      | true =>
        obtain rfl := Option.some.inj hedited
        exact hempty
      | false => exact absurd hedited (by simp [edited])
    | load | productArrived | adjustDetailQty | authenticated | logout | placeOrder =>
      exact absurd hedited (by simp [edited])
  · exact fun _ htab => absurd htab List.not_mem_nil
  · exact fun _ _ htab => absurd htab List.not_mem_nil

end Browser

/-- Natural numbers by their digits. -/
def naturals : JsonNumbers ℕ where
  toJson n := .number (Json.natLiteral n)
  ofJson
    | .number n => Nat.ofDigitChars 10 n.chars 0
    | _ => 0
  ofJson_toJson _ := Nat.ofDigitChars_ten_toDigits

/-- Two pens are added, another one after a reload, and a notebook while the order is on its way. -/
def shoppingTrip : List (BrowserEvent ℕ) :=
  [.openTab, .inTab 0 (.productArrived ⟨some "p1", .string "Pen", 250⟩),
    .inTab 0 (.adjustDetailQty 1), .inTab 0 .addToCartFromDetail, .inTab 0 .load,
    .inTab 0 (.updateCartQty "p1" 1), .inTab 0 (.authenticated [("id", .string "u1")]),
    .inTab 0 (.placeOrder (some "here")),
    .inTab 0 (.productArrived ⟨some "p2", .string "Notebook", 400⟩),
    .inTab 0 .addToCartFromDetail]

theorem storefront_carts_valid_trip :
    ∃ b, run (Browser.step naturals) .initial shoppingTrip = some b ∧
      b.tabs.map (fun tab => tab.cart.map fun line => (line.id, line.qty)) =
        [[(some "p1", 3), (some "p2", 1)]] ∧
      Browser.Carts naturals ValidCart b := by
  have hsome : (run (Browser.step naturals) .initial shoppingTrip).isSome := by
    decide +kernel
  have hcart : (final (Browser.step naturals) .initial shoppingTrip hsome).tabs.map
      (fun tab => tab.cart.map fun line => (line.id, line.qty)) =
        [[(some "p1", 3), (some "p2", 1)]] := by
    decide +kernel +revert
  exact ⟨_, run_final hsome, hcart,
    (Browser.storefront_carts_valid (by decide) (fun _ _ ha _ => Nat.add_pos_left ha _)
      (run_final hsome)).1⟩

end

end DevopsEcommerce.OrderClients
