import Mathlib.Order.OrderDual
import DevopsEcommerce.Pagination.Pages
import DevopsEcommerce.ProductService.GetAnswers

/-!
# The pages of a catalogue that nobody changes

`GET /api/products` sorts by `price` or by `createdAt` alone, with each page anew. Products that
are equal there come in any order, so a product can be on two pages or on none: the pages cover
the catalogue, whatever MongoDB does, exactly if none of them ends among products that are equal
(`pages_cover_iff`).
-/

open Interleaving Interleaving.Program Pagination

namespace DevopsEcommerce.ProductRoutes

/-- A number that is a natural one. -/
def count (n : ℕ) : Js.Number := .finite (Json.natLiteral n)

/-- The products and what MongoDB knows of them: which of them a filter asks for, and the values
of two columns, in the order in which MongoDB compares values. -/
structure Shelf (κ : Type) where
  products : List LeanDocument
  nodup : products.Nodup
  satisfies : Filter → LeanDocument → Bool
  price : LeanDocument → κ
  createdAt : LeanDocument → κ

namespace Shelf
variable {κ : Type} [LinearOrder κ] (shelf : Shelf κ)

def matching (filter : Filter) : List LeanDocument :=
  shelf.products.filter (shelf.satisfies filter)

/-- The products are sorted by the option, and in any order where that says nothing. -/
def Sorts (sort : SortOption) (xs order : List LeanDocument) : Prop :=
  match sort with
  | .priceAsc => SortOf shelf.price xs order
  | .priceDesc => SortOf (fun product => OrderDual.toDual (shelf.price product)) xs order
  | .newest => SortOf (fun product => OrderDual.toDual (shelf.createdAt product)) xs order

/-- The position is inside of a class of products that are equal for the option. -/
def Ties (sort : SortOption) (xs : List LeanDocument) (b : ℕ) : Prop :=
  match sort with
  | .priceAsc => TieAt shelf.price xs b
  | .priceDesc => TieAt (fun product => OrderDual.toDual (shelf.price product)) xs b
  | .newest => TieAt (fun product => OrderDual.toDual (shelf.createdAt product)) xs b

/-- What MongoDB replies to the two queries of a page. -/
structure Serves (filter : Filter) (sort : SortOption) (skip limit : ℕ)
    (reply : (c : DbCommand) → DbReply c) : Prop where
  total : reply (.countDocuments filter) = .ok (shelf.matching filter).length
  find : ∃ order, shelf.Sorts sort (shelf.matching filter) order ∧
    reply (.find filter sort (count skip) (count limit)) = .ok ((order.drop skip).take limit)

end Shelf

/-- The request for the page at the offset `k * L`. -/
structure AsksPage (platform : Platform) (filter : Filter) (sort : SortOption) (L k : ℕ)
    (query : Json) : Prop where
  filter : listFilter platform query = some filter
  sort : sortOption (Js.property query "sort") = sort
  numbers : limitAndOffset platform query = some (count L, count (k * L))

/-- The answers for the offsets below the total are pages with this total, and together they
contain every product once. -/
def Cover (xs : List LeanDocument) (L : ℕ) (answers : ℕ → Answer) : Prop :=
  ∃ docs : ℕ → List LeanDocument,
    (∀ k, k * L < xs.length →
      answers k = ⟨200, page xs.length (count L) (count (k * L)) (docs k)⟩) ∧
    ((List.range (pageCount xs.length L)).flatMap docs).Perm xs

/-! ## Handlers -/

section
variable {κ : Type} [LinearOrder κ] {platform : Platform} {shelf : Shelf κ} {filter : Filter}
  {sort : SortOption} {L k : ℕ} {query : Json} {reply : (c : DbCommand) → DbReply c}

lemma getProducts_page (hasks : AsksPage platform filter sort L k query) (countFirst : Bool)
    {total : ℕ} {docs : List LeanDocument} (htotal : reply (.countDocuments filter) = .ok total)
    (hdocs : reply (.find filter sort (count (k * L)) (count L)) = .ok docs) :
    (getProducts platform countFirst query).evaluate reply =
      ⟨200, page total (count L) (count (k * L)) docs⟩ := by
  unfold getProducts
  rw [hasks.filter, hasks.numbers, hasks.sort]
  simp only [evaluate_findAndCount, hdocs, htotal]

omit [LinearOrder κ] in
lemma Shelf.nodup_matching (shelf : Shelf κ) (filter : Filter) : (shelf.matching filter).Nodup :=
  shelf.nodup.filter _

/-- The general fact about pages, for the three sorts. -/
lemma Shelf.perm_iff (shelf : Shelf κ) (sort : SortOption) {xs : List LeanDocument}
    (hnodup : xs.Nodup) (hL : 0 < L) :
    (∀ orders : ℕ → List LeanDocument, (∀ k, shelf.Sorts sort xs (orders k)) →
        ((List.range (pageCount xs.length L)).flatMap fun k =>
          Pagination.page (orders k) k L).Perm xs) ↔
      ∀ k, 0 < k → k * L < xs.length → ¬ shelf.Ties sort xs (k * L) := by
  cases sort with
  | priceAsc => exact perm_flatMap_page_iff hnodup hL
  | priceDesc => exact perm_flatMap_page_iff hnodup hL
  | newest => exact perm_flatMap_page_iff hnodup hL

/-- The replies to the queries of one page. -/
def pageReplies (total : ℕ) (docs : List LeanDocument) : (c : DbCommand) → DbReply c
  | .find .. => .ok docs
  | .countDocuments _ => .ok total
  | .aggregate => .error .other
  | .findLeanById _ => .error .other
  | .create _ => .error .other
  | .findByIdAndUpdate _ _ => .error .other
  | .findById _ => .error .other
  | .save _ _ => .error .other
  | .findByIdAndDelete _ => .error .other

/-- If the answers are pages of these documents, a cover says that these documents are all. -/
lemma perm_of_cover {xs : List LeanDocument} {answers : ℕ → Answer} (hL : 0 < L)
    (hcover : Cover xs L answers) {docs : ℕ → List LeanDocument}
    (hanswers : ∀ k, k * L < xs.length →
      answers k = ⟨200, page xs.length (count L) (count (k * L)) (docs k)⟩) :
    ((List.range (pageCount xs.length L)).flatMap docs).Perm xs := by
  obtain ⟨docs', hanswers', hperm⟩ := hcover
  have hsame : ∀ k ∈ List.range (pageCount xs.length L), docs k = docs' k := by
    intro k hk
    have hlt := (lt_pageCount_iff hL).mp (List.mem_range.mp hk)
    have hbody := congrArg Answer.body ((hanswers k hlt).symm.trans (hanswers' k hlt))
    exact (page_injective hbody).2
  rw [List.flatMap_congr hsame]
  exact hperm

end

/-- **Which pages cover the catalogue.** For requests for the pages at the offsets `0`, `L`, `2 * L`
and so on below the total, each with the same filter and the same sort, the pages together contain
every matching product exactly once, whatever order MongoDB chooses for each page among products
that are equal under the sort, if and only if no such offset is inside of a class of products that
are equal. -/
theorem pages_cover_iff {κ : Type} [LinearOrder κ] (platform : Platform) (shelf : Shelf κ)
    (filter : Filter) (sort : SortOption) {L : ℕ} (hL : 0 < L) {queries : ℕ → Json}
    (hqueries : ∀ k, k * L < (shelf.matching filter).length →
      AsksPage platform filter sort L k (queries k)) (countFirst : ℕ → Bool) :
    (∀ replies : ℕ → (c : DbCommand) → DbReply c,
        (∀ k, shelf.Serves filter sort (k * L) L (replies k)) →
        Cover (shelf.matching filter) L fun k =>
          (getProducts platform (countFirst k) (queries k)).evaluate (replies k)) ↔
      ∀ k, 0 < k → k * L < (shelf.matching filter).length →
        ¬ shelf.Ties sort (shelf.matching filter) (k * L) := by
  rw [← shelf.perm_iff sort (shelf.nodup_matching filter) hL]
  constructor
  · intro h orders hsorts
    have hserves : ∀ k, shelf.Serves filter sort (k * L) L (pageReplies
        (shelf.matching filter).length (Pagination.page (orders k) k L)) :=
      fun k => ⟨rfl, orders k, hsorts k, rfl⟩
    refine perm_of_cover hL (h _ hserves) fun k hlt => ?_
    exact getProducts_page (hqueries k hlt) (countFirst k) rfl rfl
  · intro h replies hserves
    choose orders hsorts hfind using fun k => (hserves k).find
    refine ⟨fun k => Pagination.page (orders k) k L, fun k hlt => ?_, h orders hsorts⟩
    exact getProducts_page (hqueries k hlt) (countFirst k) (hserves k).total (hfind k)

/-! ## Two products -/

/-- `Number` of digits. -/
def digitPages : Platform where
  getRoute _ := .categories
  number v :=
    match v with
    | .number n => some (.finite n)
    | .string s => some (count (Nat.ofDigitChars 10 s.toList 0))
    | _ => some .nan
  isRegExp _ := true
  add _ _ := .nan
  isNegative _ := false

/-- `?sort=price_asc&limit=…&offset=…` -/
def cheapestFirst (limit offset : ℕ) : Json :=
  .object [("sort", .string "price_asc"),
    ("limit", .string (String.ofList (Nat.toDigits 10 limit))),
    ("offset", .string (String.ofList (Nat.toDigits 10 offset)))]

def everything : Filter := .within none none none

lemma asksPage_cheapestFirst (L k : ℕ) :
    AsksPage digitPages everything .priceAsc L k (cheapestFirst L (k * L)) where
  filter := rfl
  sort := rfl
  numbers := by
    have hnumber : ∀ n, digitPages.number (.string (String.ofList (Nat.toDigits 10 n))) =
        some (count n) := by
      intro n
      show some (count (Nat.ofDigitChars 10 (String.ofList (Nat.toDigits 10 n)).toList 0)) = _
      rw [String.toList_ofList, Nat.ofDigitChars_ten_toDigits]
    have hlimit : Js.property (cheapestFirst L (k * L)) "limit" =
        some (.string (String.ofList (Nat.toDigits 10 L))) := rfl
    have hoffset : Js.property (cheapestFirst L (k * L)) "offset" =
        some (.string (String.ofList (Nat.toDigits 10 (k * L)))) := rfl
    unfold limitAndOffset
    rw [hlimit, hoffset, Option.getD_some, Option.getD_some, hnumber, hnumber]
    rfl

def furniture (id : String) (price : ℕ) : LeanDocument where
  members := [("_id", .string id), ("price", .number (Json.natLiteral price))]
  hasId := List.mem_cons_self

lemma furniture_ne {id id' : String} (hid : id ≠ id') (price price' : ℕ) :
    furniture id price ≠ furniture id' price' := by
  intro heq
  have hmembers := congrArg LeanDocument.members heq
  simp only [furniture, List.cons.injEq, Prod.mk.injEq, Json.string.injEq, true_and] at hmembers
  exact hid hmembers.1

/-- The price among the members of a document, 0 if there is none. -/
def priceOf (product : LeanDocument) : ℕ :=
  match product.members.lookup "price" with
  | some (.number n) => Nat.ofDigitChars 10 n.chars 0
  | _ => 0

@[simp] lemma priceOf_furniture (id : String) (price : ℕ) : priceOf (furniture id price) = price :=
  Nat.ofDigitChars_ten_toDigits

/-- A chair and a table at these prices. -/
def chairAndTable (price price' : ℕ) : Shelf ℕ where
  products := [furniture "chair" price, furniture "table" price']
  nodup := by
    rw [List.nodup_cons, List.mem_singleton]
    exact ⟨furniture_ne (by decide) _ _, List.nodup_singleton _⟩
  satisfies _ _ := true
  price := priceOf
  createdAt _ := 0

lemma matching_chairAndTable (price price' : ℕ) (filter : Filter) :
    (chairAndTable price price').matching filter =
      [furniture "chair" price, furniture "table" price'] := rfl

/-- The replies that page `k` of one gets if MongoDB has sorted the products so. -/
def replyInOrder (order : List LeanDocument) (k : ℕ) : (c : DbCommand) → DbReply c :=
  pageReplies 2 (Pagination.page order k 1)

lemma serves_replyInOrder {price price' : ℕ} {order : List LeanDocument}
    (hsort : SortOf priceOf [furniture "chair" price, furniture "table" price'] order) (k : ℕ) :
    (chairAndTable price price').Serves everything .priceAsc (k * 1) 1 (replyInOrder order k) :=
  ⟨rfl, order, hsort, rfl⟩

lemma sortOf_chairAndTable {price price' : ℕ} (hle : price ≤ price') :
    SortOf priceOf [furniture "chair" price, furniture "table" price']
      [furniture "chair" price, furniture "table" price'] where
  perm := .refl _
  sorted := by simpa using hle

/-- A chair and a cheaper table fill two pages. -/
theorem pages_cover_iff_chairAndTable :
    Cover ((chairAndTable 5 7).matching everything) 1 fun k =>
      (getProducts digitPages false (cheapestFirst 1 (k * 1))).evaluate
        (replyInOrder [furniture "chair" 5, furniture "table" 7] k) := by
  refine (pages_cover_iff digitPages (chairAndTable 5 7) everything .priceAsc Nat.one_pos
    (fun k _ => asksPage_cheapestFirst 1 k) (fun _ => false)).mpr ?_ _
    (serves_replyInOrder (sortOf_chairAndTable (by decide)))
  rintro k hk hlt ⟨product, hproduct, hbelow, habove⟩
  rw [matching_chairAndTable] at hlt hproduct hbelow habove
  have hone : k * 1 = 1 := by
    simp only [List.length_cons, List.length_nil] at hlt
    omega
  rw [hone] at hbelow habove
  -- below the chair there is nothing, and up to the table there is one thing less than both
  rcases List.mem_pair.mp hproduct with rfl | rfl
  · simp [chairAndTable] at habove
  · simp [chairAndTable] at hbelow

/-- **A product on two pages.** A chair and a table cost the same: MongoDB may return the chair for
both pages. -/
theorem chair_on_both_pages :
    ¬ ∀ (platform : Platform) (shelf : Shelf ℕ) (filter : Filter) (sort : SortOption) (L : ℕ)
        (queries : ℕ → Json) (countFirst : ℕ → Bool)
        (replies : ℕ → (c : DbCommand) → DbReply c), 0 < L →
      (∀ k, k * L < (shelf.matching filter).length →
        AsksPage platform filter sort L k (queries k)) →
      (∀ k, shelf.Serves filter sort (k * L) L (replies k)) →
      Cover (shelf.matching filter) L fun k =>
        (getProducts platform (countFirst k) (queries k)).evaluate (replies k) := by
  intro h
  -- the second page is one of a sort with the table first
  let replies : ℕ → (c : DbCommand) → DbReply c := fun k => replyInOrder
    (if k = 0 then [furniture "chair" 5, furniture "table" 5]
      else [furniture "table" 5, furniture "chair" 5]) k
  have hserves : ∀ k, (chairAndTable 5 5).Serves everything .priceAsc (k * 1) 1 (replies k) := by
    intro k
    refine serves_replyInOrder ?_ k
    split
    · exact sortOf_chairAndTable (Nat.le_refl 5)
    · exact ⟨List.Perm.swap _ _ _, by simp⟩
  have hcover := h digitPages (chairAndTable 5 5) everything .priceAsc 1
    (fun k => cheapestFirst 1 (k * 1)) (fun _ => false) replies Nat.one_pos
    (fun k _ => asksPage_cheapestFirst 1 k) hserves
  have hperm := perm_of_cover Nat.one_pos hcover fun k _ =>
    getProducts_page (asksPage_cheapestFirst 1 k) false rfl rfl
  have htable : furniture "table" 5 ∈ [furniture "chair" 5, furniture "chair" 5] :=
    hperm.mem_iff.mpr (List.mem_cons_of_mem _ List.mem_cons_self)
  rcases List.mem_pair.mp htable with heq | heq
  · exact furniture_ne (by decide) 5 5 heq
  · exact furniture_ne (by decide) 5 5 heq

end DevopsEcommerce.ProductRoutes
