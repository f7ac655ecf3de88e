import DevopsEcommerce.Pagination.Pages
import DevopsEcommerce.ReviewService.Listings
import Mathlib.Data.UInt

/-!
# Pages of reviews

`(page - 1) * limit` wraps at `2 ^ 64`, and a limit from `2 ^ 63` on becomes a negative number, for
which the driver hands out a single batch. The two handlers answer with the slice of the reviews
that was asked for as long as neither makes a difference (`page_is_slice_iff`).
-/

open Interleaving Mongo Pagination

namespace DevopsEcommerce.ReviewService

/-- How many reviews stand before the page. -/
def preceding (page limit : UInt64) : ℕ := (page.toNat - 1) * limit.toNat

/-- The answer with the slice of the reviews that is asked for. -/
def slicePage (reviews : List Review) (page limit : UInt64) : PaginatedResponse where
  reviews := Pagination.page reviews (page.toNat - 1) limit.toNat
  total := UInt64.ofNat reviews.length
  page := page
  limit := limit

/-- The driver takes the numbers, and the arithmetic makes no difference to a page of `n` reviews:
the page is beyond the end even where it wraps to, or it does not wrap and a limit that is taken
for a negative number still allows all of the page. -/
def Fits (driver : Driver) (page limit : UInt64) (n : ℕ) : Prop :=
  driver.takes (findOptions page limit) = true ∧
    (n ≤ preceding page limit % 2 ^ 64 ∨
      preceding page limit < 2 ^ 64 ∧ (limit.toNat < 2 ^ 63 ∨
        min limit.toNat (n - preceding page limit) ≤ min (2 ^ 64 - limit.toNat) driver.batch))

instance (driver : Driver) (page limit : UInt64) (n : ℕ) : Decidable (Fits driver page limit n) :=
  inferInstanceAs (Decidable (_ ∧ (_ ∨ _ ∧ (_ ∨ _))))

/-! ## The numbers that reach the driver -/

section
variable {page limit : UInt64}

lemma one_le_max (n : UInt64) : 1 ≤ (max n 1).toNat := by
  show 1 ≤ (if n ≤ 1 then 1 else n).toNat
  split
  · exact Nat.le_refl 1
  · rename_i hlt
    exact Nat.le_of_not_le fun hle => hlt (UInt64.le_iff_toNat_le.mpr hle)

lemma one_le_pageOf (page : Option UInt64) : 1 ≤ (pageOf page).toNat := one_le_max _

lemma one_le_limitOf (limit : Option UInt64) : 1 ≤ (limitOf limit).toNat := one_le_max _

lemma skip_findOptions (hpage : 1 ≤ page.toNat) :
    (findOptions page limit).skip.toNat = preceding page limit % 2 ^ 64 := by
  have hone : (1 : UInt64) ≤ page := UInt64.le_iff_toNat_le.mpr hpage
  show ((page - 1) * limit).toNat = _
  rw [UInt64.toNat_mul, UInt64.toNat_sub_of_le _ _ hone]
  rfl

lemma toInt_toInt64 (limit : UInt64) :
    limit.toInt64.toInt =
      if limit.toNat < 2 ^ 63 then (limit.toNat : ℤ) else (limit.toNat : ℤ) - 2 ^ 64 := by
  show limit.toBitVec.toInt = _
  rw [BitVec.toInt_eq_toNat_cond]
  have hlt := limit.toNat_lt
  simp only [UInt64.toNat_toBitVec]
  split <;> split <;> omega

/-- The most that a page can hold. -/
def pageSize (driver : Driver) (limit : UInt64) : ℕ :=
  if limit.toNat < 2 ^ 63 then limit.toNat else min (2 ^ 64 - limit.toNat) driver.batch

lemma pageSize_le (driver : Driver) (limit : UInt64) : pageSize driver limit ≤ limit.toNat := by
  unfold pageSize
  split <;> omega

lemma pageSize_pos (driver : Driver) (hlimit : 1 ≤ limit.toNat) : 0 < pageSize driver limit := by
  have hbatch := driver.batch_pos
  have hlt := limit.toNat_lt
  unfold pageSize
  split <;> omega

/-- What the driver selects for the options of the handlers. -/
lemma selection_findOptions {α : Type} (driver : Driver) (xs : List α) (hpage : 1 ≤ page.toNat)
    (hlimit : 1 ≤ limit.toNat) :
    driver.selection (findOptions page limit) xs =
      (xs.drop (preceding page limit % 2 ^ 64)).take (pageSize driver limit) := by
  have hlt := limit.toNat_lt
  have hint : (findOptions page limit).limit.toInt = _ := toInt_toInt64 limit
  have hne : (findOptions page limit).limit ≠ 0 := by
    intro hzero
    rw [hzero] at hint
    change (0 : ℤ) = _ at hint
    split at hint <;> omega
  unfold Driver.selection pageSize
  rw [skip_findOptions hpage, if_neg hne, hint]
  by_cases hsmall : limit.toNat < 2 ^ 63
  · rw [if_pos hsmall, if_pos hsmall, if_pos (by omega), Int.toNat_natCast]
  · rw [if_neg hsmall, if_neg hsmall, if_neg (by omega)]
    congr 2
    omega

end

/-! ## Slices -/

/-- A slice that begins at another position, and may be shorter, is the right one if there is
nothing in either, or it begins at the right position and is long enough. -/
lemma take_drop_eq_iff {α : Type} {xs : List α} {skip skip' size size' : ℕ} (hsize : size ≤ size')
    (hpos : 0 < size) (hskip : skip ≠ skip' → xs.length ≤ skip') :
    (xs.drop skip).take size = (xs.drop skip').take size' ↔
      xs.length ≤ skip ∧ xs.length ≤ skip' ∨
        skip = skip' ∧ min size' (xs.length - skip') ≤ size := by
  constructor
  · intro h
    have hlength := congrArg List.length h
    rw [List.length_take, List.length_take, List.length_drop, List.length_drop] at hlength
    by_cases heq : skip = skip'
    · right
      omega
    · have hbeyond := hskip heq
      left
      omega
  · rintro (⟨hle, hle'⟩ | ⟨rfl, hle⟩)
    · rw [List.drop_eq_nil_of_le hle, List.drop_eq_nil_of_le hle', List.take_nil, List.take_nil]
    · by_cases hshort : xs.length - skip ≤ size
      · have hdrop : (xs.drop skip).length ≤ size := by rwa [List.length_drop]
        rw [List.take_of_length_le hdrop, List.take_of_length_le (Nat.le_trans hdrop hsize)]
      · have hsame : size = size' := by omega
        rw [hsame]

lemma listing_evaluate (driver : Driver) (reviews : List Review) (productId : Option String)
    (page limit : Option UInt64) :
    (listing (listFilter productId) page limit).evaluate
        (driver.replies (reviews.map reviewToDocument)) =
      if driver.takes (findOptions (pageOf page) (limitOf limit)) = true then
        ⟨200, .page
          { reviews := driver.selection (findOptions (pageOf page) (limitOf limit))
              (matchedReviews productId reviews)
            total := UInt64.ofNat (matchedReviews productId reviews).length
            page := pageOf page
            limit := limitOf limit }⟩
      else ⟨500, .error "Failed to query reviews"⟩ := by
  have hmatching := matching_listFilter productId reviews
  unfold listing
  by_cases htakes : driver.takes (findOptions (pageOf page) (limitOf limit)) = true
  · simp only [Program.evaluate, Driver.replies, Driver.find, hmatching, List.length_map,
      Driver.selection_map, if_pos htakes, collectReviews_map]
  · simp only [Program.evaluate, Driver.replies, Driver.find, if_neg htakes]

/-- The selection is the slice exactly if the arithmetic makes no difference. -/
lemma selection_eq_page_iff (driver : Driver) {reviews : List Review} {page limit : UInt64}
    (hlength : reviews.length < 2 ^ 64) (hpage : 1 ≤ page.toNat) (hlimit : 1 ≤ limit.toNat) :
    driver.selection (findOptions page limit) reviews =
        Pagination.page reviews (page.toNat - 1) limit.toNat ↔
      (reviews.length ≤ preceding page limit % 2 ^ 64 ∨
        preceding page limit < 2 ^ 64 ∧ (limit.toNat < 2 ^ 63 ∨
          min limit.toNat (reviews.length - preceding page limit) ≤
            min (2 ^ 64 - limit.toNat) driver.batch)) := by
  have hmod := Nat.mod_le (preceding page limit) (2 ^ 64)
  rw [selection_findOptions driver reviews hpage hlimit, Pagination.page, ← preceding,
    take_drop_eq_iff (pageSize_le driver limit) (pageSize_pos driver hlimit) (by omega)]
  unfold pageSize
  by_cases hwraps : preceding page limit < 2 ^ 64
  · rw [Nat.mod_eq_of_lt hwraps]
    split <;> omega
  · have hne : preceding page limit % 2 ^ 64 ≠ preceding page limit := by
      have hlt := Nat.mod_lt (preceding page limit) (Nat.two_pow_pos 64)
      omega
    simp only [hne, hwraps, false_and, or_false]
    omega

lemma listing_eq_slicePage_iff (driver : Driver) {reviews : List Review}
    (hlength : reviews.length < 2 ^ 64) (productId : Option String) (page limit : Option UInt64) :
    (listing (listFilter productId) page limit).evaluate
        (driver.replies (reviews.map reviewToDocument)) =
        ⟨200, .page (slicePage (matchedReviews productId reviews) (pageOf page) (limitOf limit))⟩ ↔
      Fits driver (pageOf page) (limitOf limit) (matchedReviews productId reviews).length := by
  have hmatched : (matchedReviews productId reviews).length < 2 ^ 64 :=
    Nat.lt_of_le_of_lt (List.length_filter_le _ _) hlength
  rw [listing_evaluate, Fits,
    ← selection_eq_page_iff driver hmatched (one_le_pageOf page) (one_le_limitOf limit)]
  by_cases htakes : driver.takes (findOptions (pageOf page) (limitOf limit)) = true
  · rw [if_pos htakes, and_iff_right htakes]
    constructor
    · intro h
      exact congrArg PaginatedResponse.reviews (QueryBody.page.inj (congrArg QueryResponse.body h))
    · intro h
      rw [h]
      rfl
  · rw [if_neg htakes]
    refine iff_of_false (fun h => ?_) fun h => htakes h.1
    exact absurd (congrArg QueryResponse.status h) (show (500 : ℕ) ≠ 200 by decide)

/-- **Pages of reviews.** Over reviews that nobody changes, the two handlers answer with the slice
of the matching reviews that page and limit name exactly if these fit. Slices of one limit, one
after the other, list the reviews in their order. -/
theorem page_is_slice_iff (driver : Driver) (reviews : List Review)
    (hlength : reviews.length < 2 ^ 64) :
    (∀ productId query,
      (getProductReviews productId query).evaluate
          (driver.replies (reviews.map reviewToDocument)) =
          ⟨200, .page (slicePage (matchedReviews (some productId) reviews) (pageOf query.page)
            (limitOf query.limit))⟩ ↔
        Fits driver (pageOf query.page) (limitOf query.limit)
          (matchedReviews (some productId) reviews).length) ∧
    (∀ query,
      (listReviews query).evaluate (driver.replies (reviews.map reviewToDocument)) =
          ⟨200, .page (slicePage (matchedReviews query.productId reviews) (pageOf query.page)
            (limitOf query.limit))⟩ ↔
        Fits driver (pageOf query.page) (limitOf query.limit)
          (matchedReviews query.productId reviews).length) ∧
    ∀ productId (limit : UInt64) (K : ℕ), K < 2 ^ 64 →
      ((List.range K).flatMap fun k =>
        (slicePage (matchedReviews productId reviews) (UInt64.ofNat (k + 1)) limit).reviews) =
        (matchedReviews productId reviews).take (K * limit.toNat) := by
  refine ⟨fun productId query => ?_, fun query => ?_, fun productId limit K hK => ?_⟩
  · exact listing_eq_slicePage_iff driver hlength (some productId) query.page query.limit
  · exact listing_eq_slicePage_iff driver hlength query.productId query.page query.limit
  · rw [← flatMap_page]
    refine List.flatMap_congr fun k hk => ?_
    have hlt : k + 1 < 2 ^ 64 := by
      have hk' := List.mem_range.mp hk
      omega
    unfold slicePage
    rw [UInt64.toNat_ofNat_of_lt' hlt, Nat.add_sub_cancel]

/-- It takes numbers below `2 ^ 63`. -/
def signedDriver : Driver where
  takes options := options.skip < 2 ^ 63
  batch := 101
  batch_pos := by decide

def threeReviews : List Review :=
  [⟨"r1", "p1", "u1", 5, "good", "t1", "t1"⟩, ⟨"r2", "p2", "u1", 4, "fine", "t2", "t2"⟩,
    ⟨"r3", "p1", "u2", 1, "bad", "t3", "t3"⟩]

/-- The second page of one review each. -/
theorem page_is_slice_iff_second :
    (getProductReviews "p1" ⟨some 2, some 1⟩).evaluate
        (signedDriver.replies (threeReviews.map reviewToDocument)) =
      ⟨200, .page (slicePage (matchedReviews (some "p1") threeReviews) 2 1)⟩ :=
  ((page_is_slice_iff signedDriver threeReviews (by decide +kernel)).1 "p1" ⟨some 2, some 1⟩).mpr
    ⟨by decide +kernel, .inr ⟨by decide +kernel, .inl (by decide +kernel)⟩⟩

/-- A page far beyond the end wraps to the first one. -/
theorem far_page_is_first :
    ¬ ∀ (reviews : List Review) (productId : String) (query : PaginationQuery),
      (getProductReviews productId query).evaluate
          (signedDriver.replies (reviews.map reviewToDocument)) =
        ⟨200, .page (slicePage (matchedReviews (some productId) reviews) (pageOf query.page)
          (limitOf query.limit))⟩ := by
  intro h
  have hlength : threeReviews.length < 2 ^ 64 := by decide +kernel
  have hfits := (listing_eq_slicePage_iff signedDriver hlength (some "p1") (some (2 ^ 63 + 1))
    (some 2)).mp (h threeReviews "p1" ⟨some (2 ^ 63 + 1), some 2⟩)
  exact absurd hfits (by decide +kernel)

end DevopsEcommerce.ReviewService
