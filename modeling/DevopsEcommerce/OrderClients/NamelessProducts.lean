import DevopsEcommerce.OrderClients.Storefront

/-!
# Products without `id`

`GET /api/products/:id` answers with a lean document, which has an `_id` and no `id`. The storefront
takes all such products for one. Its buttons name a line by the string `undefined`, which no line
has as its id, and the order service accepts no order of the storefront. So the cart only grows:
it is what has been added to it, under the name and at the price of the first product
(`storefront_keeps_one_line`).
-/

open Interleaving

namespace DevopsEcommerce.OrderClients

/-! ## What the services answer -/

/-- The fields of a stored product: `_id`, those of the schema, and those of Mongoose. -/
def productPaths : List String :=
  ["_id", "name", "description", "price", "category", "imageUrl", "stock", "reviews", "ratings",
    "createdAt", "updatedAt", "__v"]

/-- What the storefront reads of a document. `number` is what `Number` makes of a property. -/
structure Shows {N : Type} (number : Option Json → N) (d : ProductRoutes.LeanDocument)
    (product : Product N) : Prop where
  id : Js.property d.toJson "id" = product.id.map .string
  name : Js.property d.toJson "name" = some product.name
  price : number (Js.property d.toJson "price") = product.price

lemma Shows.id_eq_none {N : Type} {number : Option Json → N} {d : ProductRoutes.LeanDocument}
    {product : Product N} (h : Shows number d product)
    (hpaths : ∀ m ∈ d.members, m.1 ∈ productPaths) : product.id = none := by
  have hlookup : d.members.reverse.lookup "id" = none := by
    rw [List.lookup_eq_none_iff]
    intro m hm
    refine bne_iff_ne.mpr fun hid => ?_
    have hpath := hpaths m (List.mem_reverse.mp hm)
    rw [← hid] at hpath
    exact absurd hpath (by decide)
  have hid := h.id
  rw [show Js.property d.toJson "id" = d.members.reverse.lookup "id" from rfl, hlookup] at hid
  exact Option.map_eq_none_iff.mp hid.symm

lemma within_createOrder (platform : OrderService.Platform)
    (request : OrderService.CreateOrderRequest) (uuid : String) :
    (OrderService.createOrder platform request uuid).Within (fun _ => True)
      fun answer => answer.status = 201 ∨ answer.status = 500 := by
  unfold OrderService.createOrder
  split
  · exact .done (.inr rfl)
  · split
    · exact .done (.inr rfl)
    · refine .call trivial fun _ => .call trivial fun flushed => ?_
      cases flushed with
      | error e => exact .done (.inr rfl)
      | ok u =>
        refine .call trivial fun committed => ?_
        cases committed with
        | error e => exact .done (.inr rfl)
        | ok u => exact .done (.inl rfl)

/-- The order service answers the body with a status that is `ok` to `fetch`. -/
def Accepted (body : Json) : Prop :=
  ∃ jackson platform choose rows uuid store answer,
    OrderService.postOrder jackson platform choose rows body uuid = some (store, answer) ∧
      200 ≤ answer.status ∧ answer.status < 300

/-- No order of the storefront is accepted. -/
lemma not_accepted {N : Type} [Zero N] [Add N] [Mul N] {numbers : JsonNumbers N}
    {cart : List (Line N)} {body : Json} (h : Browser.Posts numbers cart body) :
    ¬ Accepted body := by
  rintro ⟨jackson, platform, choose, rows, uuid, store, answer, hpost, hge, hlt⟩
  obtain ⟨userId, address, hplace⟩ := h
  have hne := not_created_of_placeOrder hplace hpost
  unfold OrderService.postOrder at hpost
  split at hpost
  · obtain ⟨-, rfl⟩ := Prod.mk.inj (Option.some.inj hpost)
    exact absurd hlt (by decide)
  · rcases (within_createOrder platform _ uuid).perform hpost with hcreated | hfailed
    · exact hne hcreated
    · omega

/-! ## The cart -/

section
variable {N : Type}

/-- What has been added, latest first, as one line under the name and at the price of the first
product. -/
def cartOf [Add N] : List (Product N × N) → List (Line N)
  | [] => []
  | (product, qty) :: earlier =>
    match cartOf earlier with
    | [] => [⟨none, product.name, product.price, qty⟩]
    | line :: rest => { line with qty := line.qty + qty } :: rest

lemma cartOf_cases [Add N] (adds : List (Product N × N)) :
    cartOf adds = [] ∨ ∃ line, cartOf adds = [line] ∧ line.id = none := by
  induction adds with
  | nil => exact .inl rfl
  | cons add earlier ih =>
    obtain ⟨product, qty⟩ := add
    right
    rcases ih with hnil | ⟨line, hline, hid⟩
    · rw [cartOf, hnil]
      exact ⟨_, rfl, rfl⟩
    · rw [cartOf, hline]
      exact ⟨_, rfl, hid⟩

lemma addToCart_cartOf [Add N] (adds : List (Product N × N)) {product : Product N}
    (hid : product.id = none) (qty : N) :
    addToCart (cartOf adds) product qty = cartOf ((product, qty) :: adds) := by
  rw [cartOf]
  rcases cartOf_cases adds with hnil | ⟨line, hline, hnone⟩
  · rw [hnil]
    simp [addToCart, hid]
  · rw [hline]
    simp [addToCart, addQty, hid, hnone]

/-- No line has a string as its id. -/
lemma id_ne_of_mem_cartOf [Add N] {adds : List (Product N × N)} {line : Line N}
    (hline : line ∈ cartOf adds) (id : String) : line.id ≠ some id := by
  rcases cartOf_cases adds with hnil | ⟨line', hline', hnone⟩
  · rw [hnil] at hline
    exact absurd hline List.not_mem_nil
  · rw [hline'] at hline
    obtain rfl := List.mem_singleton.mp hline
    rw [hnone]
    simp

lemma removeCartItem_cartOf [Add N] (adds : List (Product N × N)) (id : String) :
    removeCartItem (cartOf adds) id = cartOf adds :=
  List.filter_eq_self.mpr fun _ hline => decide_eq_true (id_ne_of_mem_cartOf hline id)

namespace Browser
variable [Zero N] [One N] [Add N] [Mul N] [LinearOrder N] {numbers : JsonNumbers N}
  {b b' : Browser N} {i : ℕ} {tab : Tab N}

omit [One N] [Mul N] in
lemma updateCartQty_cartOf (adds : List (Product N × N)) (id : String) (delta : N) :
    OrderClients.updateCartQty (cartOf adds) id delta = none := by
  have hfind : (cartOf adds).find? (fun line => line.id = some id) = none := by
    rw [List.find?_eq_none]
    intro line hline hid
    exact id_ne_of_mem_cartOf hline id (of_decide_eq_true hid)
  rw [OrderClients.updateCartQty, hfind, Option.map_none]

/-- A tab that shows only products without id, and waits only for orders that it has posted. -/
structure Nameless (numbers : JsonNumbers N) (tab : Tab N) : Prop where
  product : ∀ product ∈ tab.detailProduct, product.id = none
  waiting : ∀ body ∈ tab.waiting, ∃ cart, Posts numbers cart body

omit [One N] in
lemma edited_cartOf {e : TabEvent N} {adds : List (Product N × N)} {cart : List (Line N)}
    (htab : Nameless numbers tab) (hanswered : ∀ j, e ≠ .answered j true)
    (hcart : tab.cart = cartOf adds) (h : edited tab e = some cart) :
    cart = cartOf ((adding tab e).toList ++ adds) := by
  cases e with
  | addToCartFromDetail =>
    obtain ⟨product, hproduct, rfl⟩ := Option.map_eq_some_iff.mp h
    simp only [adding, hproduct, hcart]
    exact addToCart_cartOf adds (htab.product product hproduct) tab.detailQty
  | updateCartQty id delta =>
    rw [edited, hcart, updateCartQty_cartOf] at h
    exact absurd h (by simp)
  | removeCartItem id =>
    obtain rfl := Option.some.inj h
    rw [hcart]
    exact removeCartItem_cartOf adds id
  | answered j ok =>
    cases ok with
    | true => exact absurd rfl (hanswered j)
    | false => exact absurd h (by simp [edited])
  | load | productArrived | adjustDetailQty | authenticated | logout | placeOrder =>
    exact absurd h (by simp [edited])

/-- What comes in from the services: products are documents of the schema, and a promise is
resolved only if the order service has accepted the order. -/
def Served (number : Option Json → N) (b : Browser N) : BrowserEvent N → Prop
  | .inTab _ (.productArrived product) =>
    ∃ d : ProductRoutes.LeanDocument, (∀ m ∈ d.members, m.1 ∈ productPaths) ∧ Shows number d product
  | .inTab i (.answered j true) =>
    ∀ tab body, b.tabs[i]? = some tab → tab.waiting[j]? = some body → Accepted body
  | _ => True

/-- Every cart is what some of the products make that have been added; the cart of a single tab is
what all of them make. -/
structure Nondescript (numbers : JsonNumbers N) (b : Browser N) : Prop where
  tabs : ∀ tab ∈ b.tabs, Nameless numbers tab
  carts : Carts numbers (fun cart => ∃ adds, adds.Sublist b.added ∧ cart = cartOf adds) b
  mirrored : Mirrored numbers b
  single : b.tabs.length ≤ 1 → loadCart numbers b.cart = some (cartOf b.added)

omit [One N] [LinearOrder N] in
lemma nondescript_initial : Nondescript numbers initial where
  tabs _ htab := absurd htab List.not_mem_nil
  carts := carts_initial ⟨[], List.Sublist.refl _, rfl⟩
  mirrored _ _ htab := absurd htab List.not_mem_nil
  single _ := rfl

lemma nameless_step {number : Option Json → N} {e : BrowserEvent N}
    (h : ∀ tab ∈ b.tabs, Nameless numbers tab) (hserved : Served number b e)
    (hstep : step numbers b e = some b') : ∀ tab ∈ b'.tabs, Nameless numbers tab := by
  refine tabs_step (fun tab hloaded => ?_) (fun i te tab tab' he htab hcont => ⟨?_, ?_⟩) h hstep
  · obtain ⟨cart, -, rfl⟩ := Option.map_eq_some_iff.mp hloaded
    exact ⟨fun _ hp => absurd hp (by simp), fun _ hb => absurd hb List.not_mem_nil⟩
  · intro product hproduct
    rcases hcont.product product hproduct with hold | rfl
    · exact htab.product product hold
    · subst he
      obtain ⟨d, hpaths, hshows⟩ := hserved
      exact hshows.id_eq_none hpaths
  · intro body hbody
    rcases hcont.waiting body hbody with hold | hnew
    · exact htab.waiting body hold
    · exact ⟨tab.cart, hnew⟩

/-- No order comes back with success. -/
lemma not_answered {number : Option Json → N} {e : TabEvent N}
    (h : Nameless numbers tab) (htab : b.tabs[i]? = some tab)
    (hserved : Served number b (.inTab i e)) (hact : b.act numbers i tab e = some b') (j : ℕ) :
    e ≠ .answered j true := by
  rintro rfl
  simp only [act] at hact
  split at hact
  · rename_i hj
    have hbody : tab.waiting[j]? = some tab.waiting[j] := List.getElem?_eq_getElem hj
    obtain ⟨cart, hposts⟩ := h.waiting _ (List.mem_of_getElem? hbody)
    exact not_accepted hposts (hserved tab _ htab hbody)
  · exact absurd hact (by simp)

lemma nondescript_step {number : Option Json → N} {e : BrowserEvent N} (h : Nondescript numbers b)
    (hserved : Served number b e) (hstep : step numbers b e = some b') :
    Nondescript numbers b' := by
  have htabs := nameless_step h.tabs hserved hstep
  have hmirrored := mirrored_step h.mirrored hstep
  cases e with
  | openTab =>
    obtain ⟨tab, hloaded, rfl⟩ := Option.map_eq_some_iff.mp hstep
    refine ⟨htabs, ?_, hmirrored, fun hone => h.single ?_⟩
    · exact carts_step (fun _ hP => hP) (fun _ _ _ _ he => by cases he) h.carts hstep
    · rw [List.length_append] at hone
      exact Nat.le_of_add_right_le hone
  | inTab i e =>
    obtain ⟨tab, htab, hact⟩ := Option.bind_eq_some_iff.mp hstep
    have hmem := List.mem_of_getElem? htab
    have hedited : ∀ {adds : List (Product N × N)} {cart : List (Line N)},
        tab.cart = cartOf adds → edited tab e = some cart →
          cart = cartOf ((adding tab e).toList ++ adds) := fun hcart hedit =>
      edited_cartOf (h.tabs tab hmem) (not_answered (h.tabs tab hmem) htab hserved hact) hcart hedit
    have hcarts : ∀ {added' : List (Product N × N)}, b.added.Sublist added' →
        (∀ cart, edited tab e = some cart → added' = (adding tab e).toList ++ b.added) →
          Carts numbers (fun cart => ∃ adds, adds.Sublist added' ∧ cart = cartOf adds) b' := by
      intro added' hsublist hadding
      refine carts_step (fun cart hP => ?_) (fun i' te tab₁ cart he htab₁ hP hedit => ?_) h.carts
        hstep
      · obtain ⟨adds, hadds, rfl⟩ := hP
        exact ⟨adds, hadds.trans hsublist, rfl⟩
      · obtain ⟨adds, hadds, hcart⟩ := hP
        obtain ⟨rfl, rfl⟩ := BrowserEvent.inTab.inj he
        obtain rfl := Option.some.inj (htab.symm.trans htab₁)
        refine ⟨_, ?_, hedited hcart hedit⟩
        rw [hadding cart hedit]
        exact hadds.append_left _
    cases moved_of_act htab hact with
    | turned tab' hset hcont hedit hsaved hadded =>
      refine ⟨htabs, ?_, hmirrored, fun hone => ?_⟩
      · rw [hadded]
        exact hcarts (List.Sublist.refl _) fun cart hcart =>
          absurd (hedit.symm.trans hcart) (by simp)
      · rw [hset, List.length_set] at hone
        rw [hsaved, hadded]
        exact h.single hone
    | edited tab' hset hcont hedit hsaved hadded =>
      refine ⟨htabs, ?_, hmirrored, fun hone => ?_⟩
      · rw [hadded]
        exact hcarts (List.sublist_append_right _ _) fun _ _ => rfl
      · rw [hset, List.length_set] at hone
        have hcart : tab.cart = cartOf b.added :=
          Option.some.inj ((h.mirrored hone tab hmem).symm.trans (h.single hone))
        rw [hsaved, loadCart_cartText, hadded, hedited hcart hedit]

/-- If all products come from the product service, and orders succeed only if the order service
accepts them, then in every run of the browser each cart, the saved one and that of each posted
order is empty or one line without a product: the first of some of the products that have been
added, with the quantities of all of these. While there is one tab, these are all that have been
added: no button, no order and no reload has taken anything from its cart. -/
theorem storefront_keeps_one_line (number : Option Json → N) {es : List (BrowserEvent N)}
    {b : Browser N} (hserved : StepsMeet (step numbers) (Served number) initial es)
    (hrun : run (step numbers) initial es = some b) :
    Carts numbers (fun cart => ∃ adds, adds.Sublist b.added ∧ cart = cartOf adds) b ∧
      (b.tabs.length ≤ 1 → ∀ tab ∈ b.tabs, tab.cart = cartOf b.added) := by
  have h : Nondescript numbers b :=
    run_invariant_of_stepsMeet (fun _ _ _ h hserved hstep => nondescript_step h hserved hstep)
      nondescript_initial hserved hrun
  exact ⟨h.carts, fun hone tab htab =>
    Option.some.inj ((h.mirrored hone tab htab).symm.trans (h.single hone))⟩

end Browser

end

/-- A stored product of which only the name and the price count. -/
def plainDocument (name : String) (price : ℕ) : ProductRoutes.LeanDocument where
  members := [("_id", .string "65a1"), ("name", .string name), ("price", naturals.toJson price)]
  hasId := by simp

lemma shows_plainDocument (name : String) (price : ℕ) :
    Shows (fun v => v.elim 0 naturals.ofJson) (plainDocument name price)
      ⟨none, .string name, price⟩ where
  id := rfl
  name := rfl
  price := naturals.ofJson_toJson price

/-- A notebook goes into the line of the pens, which cannot be removed. -/
def namelessTrip : List (BrowserEvent ℕ) :=
  [.openTab, .inTab 0 (.productArrived ⟨none, .string "Pen", 250⟩),
    .inTab 0 (.adjustDetailQty 1), .inTab 0 .addToCartFromDetail,
    .inTab 0 (.productArrived ⟨none, .string "Notebook", 400⟩), .inTab 0 .addToCartFromDetail,
    .inTab 0 (.removeCartItem "undefined"), .inTab 0 (.authenticated (tokenResponse "token")),
    .inTab 0 (.placeOrder (some "here"))]

theorem storefront_keeps_one_line_trip :
    ∃ b, run (Browser.step naturals) .initial namelessTrip = some b ∧ b.tabs.length = 1 ∧
      ∀ tab ∈ b.tabs, tab.cart = [⟨none, .string "Pen", 250, 3⟩] := by
  have hserved : ∀ e ∈ namelessTrip, ∀ b : Browser ℕ,
      Browser.Served (fun v => v.elim 0 naturals.ofJson) b e := by
    have hpaths : ∀ name price, ∀ m ∈ (plainDocument name price).members, m.1 ∈ productPaths := by
      simp [plainDocument, productPaths]
    unfold namelessTrip
    simp only [List.forall_mem_cons, List.not_mem_nil, false_implies, implies_true,
      Browser.Served, and_true, true_and]
    exact ⟨fun _ => ⟨_, hpaths "Pen" 250, shows_plainDocument "Pen" 250⟩,
      fun _ => ⟨_, hpaths "Notebook" 400, shows_plainDocument "Notebook" 400⟩⟩
  have hadded : (run (Browser.step naturals) .initial namelessTrip).map
      (fun b => (b.tabs.length, b.added)) =
        some (1, [(⟨none, .string "Notebook", 400⟩, 1), (⟨none, .string "Pen", 250⟩, 2)]) := by
    rfl
  obtain ⟨b, hrun, hb⟩ := Option.map_eq_some_iff.mp hadded
  obtain ⟨hone, hlog⟩ := Prod.mk.inj hb
  refine ⟨b, hrun, hone, fun tab htab => ?_⟩
  rw [(Browser.storefront_keeps_one_line (fun v => v.elim 0 naturals.ofJson)
    ((stepsMeet_of_forall hserved _).mono fun b e he => he b) hrun).2 hone.le tab htab, hlog]
  rfl

end DevopsEcommerce.OrderClients
