import DevopsEcommerce.ProductService.Routes

/-!
# The answers of the `GET` handlers

A `GET` handler only reads. What it answers with another status than 200 has the body of a
failure, and a success tells all the replies that it was made from. So a body from the cache, sent
with the status 200, is right exactly if it was a success and the replies would be the same again
(`cached_answer_iff`).
-/

open Interleaving Interleaving.Program

namespace DevopsEcommerce.ProductRoutes

/-! ## What the handlers of the reads ask and answer -/

/-- The body is that of a failure. -/
def IsFailure (body : Json) : Prop := ∃ message, body = .object [("error", message)]

/-- The answer is a failure unless its status is 200. -/
def Answer.Proper (a : Answer) : Prop := a.status = 200 ↔ ¬ IsFailure a.body

lemma Answer.proper_error {status : ℕ} {message : String} (h : status ≠ 200) :
    (Answer.error status message).Proper :=
  iff_of_false h (not_not_intro ⟨_, rfl⟩)

lemma page_not_failure (total : ℕ) (limit offset : Js.Number) (products : List LeanDocument) :
    ¬ IsFailure (page total limit offset products) := by
  intro h
  obtain ⟨message, hbody⟩ := h
  have hnames : ["total", "limit", "offset", "products"] = ["error"] :=
    congrArg (List.map Prod.fst) (Json.object.inj hbody)
  exact absurd hnames (by decide)

lemma LeanDocument.not_failure (d : LeanDocument) : ¬ IsFailure d.toJson := by
  intro h
  obtain ⟨message, hbody⟩ := h
  have hmembers : d.members = [("error", message)] := Json.object.inj hbody
  have hid : "_id" ∈ d.members.map Prod.fst := d.hasId
  rw [hmembers] at hid
  have hname : "_id" ∈ ["error"] := hid
  exact absurd hname (by decide)

section
variable {platform : Platform}

/-- A page takes two commands. -/
lemma findAndCount_within (countFirst : Bool) (filter : Filter) (sort : SortOption)
    (limit offset : Js.Number) {failure : Answer} (hfailure : failure.Proper) :
    (findAndCount countFirst filter sort limit offset failure).Within
      (fun c => c = .find filter sort offset limit ∨ c = .countDocuments filter)
      Answer.Proper := by
  have hpage : ∀ total products, Answer.Proper ⟨200, page total limit offset products⟩ :=
    fun total products => iff_of_true rfl (page_not_failure total limit offset products)
  unfold findAndCount
  split
  · refine .call (.inr rfl) fun total => ?_
    cases total with
    | error e => exact .done hfailure
    | ok total =>
      refine .call (.inl rfl) fun products => ?_
      cases products with
      | error e => exact .done hfailure
      | ok products => exact .done (hpage total products)
  · refine .call (.inl rfl) fun products => ?_
    cases products with
    | error e => exact .done hfailure
    | ok products =>
      refine .call (.inr rfl) fun total => ?_
      cases total with
      | error e => exact .done hfailure
      | ok total => exact .done (hpage total products)

lemma findAndCount_reads (countFirst : Bool) (filter : Filter) (sort : SortOption)
    (limit offset : Js.Number) {failure : Answer} (hfailure : failure.Proper) :
    (findAndCount countFirst filter sort limit offset failure).Within
      (fun c => c.isRead = true) Answer.Proper := by
  refine (findAndCount_within countFirst filter sort limit offset hfailure).mono ?_ fun _ => id
  intro c hc
  rcases hc with rfl | rfl
  · rfl
  · rfl

lemma getSearch_reads (countFirst : Bool) (query : Json) :
    (getSearch platform countFirst query).Within (fun c => c.isRead = true) Answer.Proper := by
  unfold getSearch
  split
  · exact .done (Answer.proper_error (by decide))
  split
  · split
    · exact .done (Answer.proper_error (by decide))
    split
    · exact .done (Answer.proper_error (by decide))
    split
    · exact .done (Answer.proper_error (by decide))
    · exact findAndCount_reads _ _ _ _ _ (Answer.proper_error (by decide))
  · exact .done (Answer.proper_error (by decide))

lemma getProducts_reads (countFirst : Bool) (query : Json) :
    (getProducts platform countFirst query).Within (fun c => c.isRead = true) Answer.Proper := by
  unfold getProducts
  split
  · exact findAndCount_reads _ _ _ _ _ (Answer.proper_error (by decide))
  · exact .done (Answer.proper_error (by decide))

variable (platform) in
/-- A `GET` only reads, and what it answers with another status than 200 is a failure. -/
theorem getHandler_reads (countFirst : Bool) (route : GetRoute) :
    (getHandler platform countFirst route).Within (fun c => c.isRead = true) Answer.Proper := by
  cases route with
  | search query => exact getSearch_reads countFirst query
  | categories =>
    refine .call rfl fun categories => ?_
    cases categories with
    | error e => exact .done (Answer.proper_error (by decide))
    | ok categories =>
      refine .done (iff_of_true rfl fun h => ?_)
      obtain ⟨message, hbody⟩ := h
      exact absurd hbody (by simp)
  | list query => exact getProducts_reads countFirst query
  | byId id =>
    refine .call rfl fun product => ?_
    split
    · exact .done (Answer.proper_error (by decide))
    · exact .done (Answer.proper_error (by decide))
    · exact .done (Answer.proper_error (by decide))
    · rename_i product
      exact .done (iff_of_true rfl product.not_failure)

end

/-! ## Answers and the replies they come from -/

section
variable {platform : Platform}

/-- Which of the two queries comes first makes no difference to the answer. -/
lemma evaluate_findAndCount (countFirst : Bool) (filter : Filter) (sort : SortOption)
    (limit offset : Js.Number) (failure : Answer) (reply : (c : DbCommand) → DbReply c) :
    (findAndCount countFirst filter sort limit offset failure).evaluate reply =
      match reply (.find filter sort offset limit), reply (.countDocuments filter) with
      | .ok products, .ok total => ⟨200, page total limit offset products⟩
      | _, _ => failure := by
  unfold findAndCount
  split
  · rw [evaluate]
    cases reply (.countDocuments filter) with
    | error e => cases reply (.find filter sort offset limit) <;> rfl
    | ok total =>
      simp only [evaluate]
      cases reply (.find filter sort offset limit) <;> rfl
  · rw [evaluate]
    cases reply (.find filter sort offset limit) with
    | error e => cases reply (.countDocuments filter) <;> rfl
    | ok products =>
      simp only [evaluate]
      cases reply (.countDocuments filter) <;> rfl

lemma LeanDocument.toJson_injective : Function.Injective LeanDocument.toJson := by
  intro d d' h
  have hsame : d.members = d'.members := Json.object.inj h
  cases d
  cases d'
  cases hsame
  rfl

lemma page_injective {total total' : ℕ} {limit offset : Js.Number}
    {products products' : List LeanDocument}
    (h : page total limit offset products = page total' limit offset products') :
    total = total' ∧ products = products' := by
  have hmembers := Json.object.inj h
  simp only [List.cons.injEq, Prod.mk.injEq, true_and, and_true, Json.number.injEq,
    Json.array.injEq] at hmembers
  obtain ⟨htotal, hproducts⟩ := hmembers
  exact ⟨Json.natLiteral_injective htotal,
    List.map_injective_iff.mpr LeanDocument.toJson_injective hproducts⟩

/-- A successful answer tells every reply that the program has had. -/
def Telling (p : DbProgram Answer) : Prop :=
  ∀ reply reply', (p.evaluate reply).status = 200 → (p.evaluate reply').status = 200 →
    (p.evaluate reply).body = (p.evaluate reply').body → ∀ c ∈ p.asked reply, reply' c = reply c

lemma telling_done (a : Answer) : Telling (.done a) := by
  intro reply reply' _ _ _ c hc
  exact absurd hc (by simp [asked])

lemma telling_findAndCount (countFirst : Bool) (filter : Filter) (sort : SortOption)
    (limit offset : Js.Number) {failure : Answer} (hfailure : failure.Proper)
    (hstatus : failure.status ≠ 200) :
    Telling (findAndCount countFirst filter sort limit offset failure) := by
  intro reply reply' h h' hbody c hc
  have hcommand := (findAndCount_within countFirst filter sort limit offset hfailure).asked reply
    c hc
  rw [evaluate_findAndCount] at h h' hbody
  rw [evaluate_findAndCount] at hbody
  split at h
  · rename_i products total hfind hcount
    split at h'
    · rename_i products' total' hfind' hcount'
      rw [hfind, hcount, hfind', hcount'] at hbody
      obtain ⟨rfl, rfl⟩ := page_injective hbody
      rcases hcommand with rfl | rfl
      · rw [hfind, hfind']
      · rw [hcount, hcount']
    · exact absurd h' hstatus
  · exact absurd h hstatus

lemma getCategories_ok {reply : (c : DbCommand) → DbReply c}
    (h : (getCategories.evaluate reply).status = 200) :
    ∃ categories, reply .aggregate = .ok categories ∧
      (getCategories.evaluate reply).body = .array categories := by
  unfold getCategories at h ⊢
  rw [evaluate] at h ⊢
  cases hfound : reply .aggregate with
  | error e =>
    rw [hfound] at h
    exact absurd h (show ¬ 500 = 200 by decide)
  | ok categories => exact ⟨categories, rfl, rfl⟩

lemma telling_getCategories : Telling getCategories := by
  intro reply reply' h h' hbody c hc
  obtain ⟨categories, hfound, hcategories⟩ := getCategories_ok h
  obtain ⟨categories', hfound', hcategories'⟩ := getCategories_ok h'
  have hsame : categories = categories' := by
    apply Json.array.inj
    rw [← hcategories, ← hcategories', hbody]
  unfold getCategories at hc
  rw [asked, hfound] at hc
  obtain rfl : c = .aggregate := List.mem_singleton.mp hc
  rw [hfound, hfound', hsame]

lemma getProduct_ok {id : String} {reply : (c : DbCommand) → DbReply c}
    (h : ((getProduct id).evaluate reply).status = 200) :
    ∃ product, reply (.findLeanById id) = .ok (some product) ∧
      ((getProduct id).evaluate reply).body = product.toJson := by
  unfold getProduct at h ⊢
  rw [evaluate] at h ⊢
  split at h
  · exact absurd h (show ¬ 400 = 200 by decide)
  · exact absurd h (show ¬ 500 = 200 by decide)
  · exact absurd h (show ¬ 404 = 200 by decide)
  · rename_i product hfound
    exact ⟨product, hfound, rfl⟩

lemma telling_getProduct (id : String) : Telling (getProduct id) := by
  intro reply reply' h h' hbody c hc
  obtain ⟨product, hfound, hproduct⟩ := getProduct_ok h
  obtain ⟨product', hfound', hproduct'⟩ := getProduct_ok h'
  have hsame : product = product' := by
    apply LeanDocument.toJson_injective
    rw [← hproduct, ← hproduct', hbody]
  unfold getProduct at hc
  rw [asked, hfound] at hc
  obtain rfl : c = .findLeanById id := List.mem_singleton.mp hc
  rw [hfound, hfound', hsame]

/-- The answer of every `GET` handler tells what MongoDB has replied. -/
theorem telling_getHandler (countFirst : Bool) (route : GetRoute) :
    Telling (getHandler platform countFirst route) := by
  cases route with
  | search query =>
    show Telling (getSearch platform countFirst query)
    unfold getSearch
    split
    · exact telling_done _
    split
    · split
      · exact telling_done _
      split
      · exact telling_done _
      split
      · exact telling_done _
      · exact telling_findAndCount _ _ _ _ _ (Answer.proper_error (by decide)) (by decide)
    · exact telling_done _
  | categories => exact telling_getCategories
  | list query =>
    show Telling (getProducts platform countFirst query)
    unfold getProducts
    split
    · exact telling_findAndCount _ _ _ _ _ (Answer.proper_error (by decide)) (by decide)
    · exact telling_done _
  | byId id => exact telling_getProduct id

/-- The order of the two queries makes no difference to the answer. -/
theorem evaluate_getHandler (order order' : Bool) (route : GetRoute)
    (reply : (c : DbCommand) → DbReply c) :
    (getHandler platform order route).evaluate reply =
      (getHandler platform order' route).evaluate reply := by
  cases route with
  | search query =>
    show (getSearch platform order query).evaluate reply =
      (getSearch platform order' query).evaluate reply
    unfold getSearch
    split
    · rfl
    split
    · split
      · rfl
      split
      · rfl
      split
      · rfl
      · rw [evaluate_findAndCount, evaluate_findAndCount]
    · rfl
  | categories => rfl
  | list query =>
    show (getProducts platform order query).evaluate reply =
      (getProducts platform order' query).evaluate reply
    unfold getProducts
    split
    · rw [evaluate_findAndCount, evaluate_findAndCount]
    · rfl
  | byId id => rfl

/-- The body of one answer with the status 200 is another answer exactly when the first was a
success, and all that was asked for it has the same replies. -/
theorem cached_answer_iff (order order' : Bool) (route : GetRoute)
    (reply reply' : (c : DbCommand) → DbReply c) :
    (⟨200, ((getHandler platform order route).evaluate reply).body⟩ : Answer) =
        (getHandler platform order' route).evaluate reply' ↔
      ((getHandler platform order route).evaluate reply).status = 200 ∧
        ∀ c ∈ (getHandler platform order' route).asked reply, reply' c = reply c := by
  rw [evaluate_getHandler order order']
  have hproper := (getHandler_reads platform order' route).evaluate reply
  have hproper' := (getHandler_reads platform order' route).evaluate reply'
  constructor
  · intro h
    have hstatus' : ((getHandler platform order' route).evaluate reply').status = 200 :=
      (congrArg Answer.status h).symm
    have hbody := congrArg Answer.body h
    -- a failure does not look like a success
    have hstatus : ((getHandler platform order' route).evaluate reply).status = 200 := by
      apply hproper.mpr
      show ¬ IsFailure ((getHandler platform order' route).evaluate reply).body
      have hsame : ((getHandler platform order' route).evaluate reply).body =
        ((getHandler platform order' route).evaluate reply').body := hbody
      rw [hsame]
      exact hproper'.mp hstatus'
    exact ⟨hstatus, telling_getHandler order' route reply reply' hstatus hstatus' hbody⟩
  · intro h
    rw [evaluate_congr h.2, ← h.1]

end

end DevopsEcommerce.ProductRoutes
