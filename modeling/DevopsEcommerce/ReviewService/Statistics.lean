import DevopsEcommerce.ReviewService.Listings
import DevopsEcommerce.ReviewService.StoredReviews
import Mathlib.Algebra.Order.BigOperators.Group.List
import Mathlib.Algebra.Order.Group.Nat

/-!
# The statistics of a product

`get_product_stats` goes over the groups of ratings in whatever order they come, and overwrites
the count of a rating while it adds to the totals. Since every stored rating is from 1 to 5, no
key is added to the five and no group is met twice, so that the counts are exact (`stats_exact`).
-/

open Interleaving Mongo

namespace DevopsEcommerce.ReviewService

def productReviews (c : Collection) (productId : String) : List Review :=
  matchedReviews (some productId) (reviewsOf c)

/-- How many reviews of the product have the rating. -/
def ratingCount (c : Collection) (productId : String) (n : ℕ) : ℕ :=
  (productReviews c productId).countP fun review => review.rating.toNat = n

/-- What the loop over the groups comes to, for the reviews of a product. -/
structure ExactTally (reviews : List Review) (tally : Tally) : Prop where
  mem_distribution : ∀ key, key ∈ tally.distribution ↔ ∃ n ∈ List.range' 1 5, key = toString n
  count : ∀ n ∈ List.range' 1 5, ∃ count, tally.distribution[toString n]? = some count ∧
    count.toNat = reviews.countP fun review => review.rating.toNat = n
  totalReviews : tally.totalReviews.toNat =
    ((List.range' 1 5).map fun n => reviews.countP fun review => review.rating.toNat = n).sum
  ratingSum : tally.ratingSum.toNat = (reviews.map fun review => review.rating.toNat).sum
  le_ratingSum : tally.totalReviews.toNat ≤ tally.ratingSum.toNat
  ratingSum_le : tally.ratingSum.toNat ≤ 5 * tally.totalReviews.toNat

lemma rating_mem {rating : UInt8} (h : ratingOutOfRange rating = false) :
    rating.toNat ∈ List.range' 1 5 := by
  unfold ratingOutOfRange at h
  rw [Bool.or_eq_false_iff, decide_eq_false_iff_not, decide_eq_false_iff_not] at h
  have hlow : ¬ rating.toNat < 1 := h.1
  have hhigh : ¬ 5 < rating.toNat := h.2
  rw [List.mem_range'_1]
  omega

/-! ## One round of the loop -/

/-- The rating that a group counts. -/
def groupRating (g : Group) : ℕ :=
  match g.id with
  | some (.int32 n) => n.toNat
  | _ => 0

/-- The group is one of reviews with an admitted rating, with a count that fits. -/
structure Regular (g : Group) : Prop where
  id : g.id = some (.int32 (groupRating g))
  rating_mem : groupRating g ∈ List.range' 1 5
  count_lt : g.count < 2 ^ 31

lemma ofInt_natCast {n : ℕ} (h : n < 2 ^ 64) : UInt64.ofInt n = UInt64.ofNat n := by
  rw [UInt64.ofInt]
  congr 1
  omega

lemma toNat_ofNat {n : ℕ} (h : n < 2 ^ 64) : (UInt64.ofNat n).toNat = n :=
  UInt64.toNat_ofNat_of_lt' h

/-- The entry of the group in the distribution. -/
def groupEntry (g : Group) : String × UInt64 := (toString (groupRating g), UInt64.ofNat g.count)

lemma add_ok {g : Group} (h : Regular g) (tally : Tally) :
    tally.add (.ok g) =
      { distribution := tally.distribution.insert (groupEntry g).1 (groupEntry g).2
        totalReviews := tally.totalReviews + UInt64.ofNat g.count
        ratingSum := tally.ratingSum + UInt64.ofNat (g.count * groupRating g) } := by
  have hrating : groupRating g < 2 ^ 64 := by
    have hmem := List.mem_range'_1.mp h.rating_mem
    omega
  have hcount := h.count_lt
  have hid : g.getId = .ok (groupRating g : ℤ) := by rw [Group.getId, h.id]
  have hget : g.getCount = .ok (g.count : ℤ) := if_pos hcount
  have hkey : toString (UInt64.ofNat (groupRating g)) = toString (groupRating g) := by
    show toString (UInt64.ofNat (groupRating g)).toNat = _
    rw [toNat_ofNat hrating]
  unfold Tally.add
  simp only [hid, hget, Except.toOption, Option.getD_some]
  rw [ofInt_natCast hrating, ofInt_natCast (by omega), hkey, UInt64.ofNat_mul, UInt64.mul_comm]
  rfl

lemma foldl_add {gs : List Group} (h : ∀ g ∈ gs, Regular g) (tally : Tally) :
    (gs.map Except.ok).foldl Tally.add tally =
      { distribution := tally.distribution.insertMany (gs.map groupEntry)
        totalReviews := tally.totalReviews + UInt64.ofNat (gs.map Group.count).sum
        ratingSum := tally.ratingSum +
          UInt64.ofNat (gs.map fun g => g.count * groupRating g).sum } := by
  induction gs generalizing tally with
  | nil => simp
  | cons g gs ih =>
    rw [List.forall_mem_cons] at h
    rw [List.map_cons, List.foldl_cons, add_ok h.1, ih h.2]
    simp only [List.map_cons, List.sum_cons, UInt64.ofNat_add, UInt64.add_assoc]
    rw [← Prod.mk.eta (p := groupEntry g), Std.HashMap.insertMany_cons]

/-! ## The groups of the reviews of a product -/

section
variable {reviews : List Review} {gs : List Group}

lemma countP_groups (id : Option Bson) :
    ((reviews.map reviewToDocument).countP fun doc => doc.get? "rating" = id) =
      reviews.countP fun review => some (ratingField review.rating) = id := by
  rw [List.countP_map]
  rfl

lemma countP_rating (n : ℕ) :
    (reviews.countP fun review => some (ratingField review.rating) = some (.int32 n)) =
      reviews.countP fun review => review.rating.toNat = n := by
  refine List.countP_congr fun review _ => ?_
  simp only [ratingField, decide_eq_true_eq, Option.some.injEq, Bson.int32.injEq, Int.natCast_inj]

lemma regular_of_mem (hratings : ∀ review ∈ reviews, ratingOutOfRange review.rating = false)
    (hfew : ∀ n ∈ List.range' 1 5, reviews.countP (fun review => review.rating.toNat = n) < 2 ^ 31)
    (hgs : gs.Perm (groups (reviews.map reviewToDocument) "rating")) {g : Group} (hg : g ∈ gs) :
    Regular g ∧ g.count = reviews.countP fun review => review.rating.toNat = groupRating g := by
  obtain ⟨hid, hcount⟩ := (mem_of_perm_groups hgs).mp hg
  rw [List.map_map, List.mem_map] at hid
  obtain ⟨review, hreview, hrating⟩ := hid
  have hgroup : g.id = some (.int32 review.rating.toNat) := hrating.symm
  have hvalue : groupRating g = review.rating.toNat := by
    rw [groupRating, hgroup]
    exact Int.toNat_natCast _
  have hmem : groupRating g ∈ List.range' 1 5 := hvalue ▸ rating_mem (hratings review hreview)
  rw [countP_groups, hgroup, countP_rating, ← hvalue] at hcount
  refine ⟨⟨hvalue ▸ hgroup, hmem, ?_⟩, hcount⟩
  rw [hcount]
  exact hfew _ hmem

/-- The keys of a distribution are those of numbers that differ. -/
lemma toString_inj {m n : ℕ} (hm : m ∈ List.range' 1 5) (hn : n ∈ List.range' 1 5)
    (h : toString m = toString n) : m = n := by
  have hall : ∀ m ∈ List.range' 1 5, ∀ n ∈ List.range' 1 5, toString m = toString n → m = n := by
    decide
  exact hall m hm n hn h

lemma pairwise_entries (hregular : ∀ g ∈ gs, Regular g) (hnodup : (gs.map Group.id).Nodup) :
    (gs.map groupEntry).Pairwise fun a b => (a.1 == b.1) = false := by
  rw [List.pairwise_map]
  refine (List.pairwise_map.mp hnodup).imp_of_mem fun {g g'} hg hg' hne => ?_
  rw [beq_eq_false_iff_ne]
  intro hkey
  have hrating := toString_inj (hregular g hg).rating_mem (hregular g' hg').rating_mem hkey
  rw [(hregular g hg).id, (hregular g' hg').id, hrating] at hne
  exact hne rfl

lemma distribution_initial {key : String} :
    Tally.initial.distribution[key]? =
      if key ∈ (List.range' 1 5).map toString then some 0 else none := by
  have hfold : ∀ (ns : List ℕ) (m : Std.HashMap String UInt64),
      (ns.foldl (fun m i => m.insert (toString i) 0) m)[key]? =
        if key ∈ ns.map toString then some 0 else m[key]? := by
    intro ns
    induction ns with
    | nil => exact fun m => (if_neg List.not_mem_nil).symm
    | cons n ns ih =>
      intro m
      rw [List.foldl_cons, ih, Std.HashMap.getElem?_insert, List.map_cons]
      by_cases hn : toString n = key
      · simp [hn]
      · simp only [List.mem_cons, beq_iff_eq, hn, Ne.symm hn, false_or, if_false]
  rw [Tally.initial, hfold, Std.HashMap.getElem?_empty]

lemma mem_distribution_initial {key : String} :
    key ∈ Tally.initial.distribution ↔ ∃ n ∈ List.range' 1 5, key = toString n := by
  rw [← Std.HashMap.isSome_getElem?_iff_mem, distribution_initial]
  split
  · rename_i hkey
    obtain ⟨n, hn, rfl⟩ := List.mem_map.mp hkey
    exact iff_of_true rfl ⟨n, hn, rfl⟩
  · rename_i hkey
    refine iff_of_false Bool.false_ne_true ?_
    rintro ⟨n, hn, rfl⟩
    exact hkey (List.mem_map_of_mem hn)

/-- A rating that no group counts keeps its 0. -/
lemma distribution_count
    (hratings : ∀ review ∈ reviews, ratingOutOfRange review.rating = false)
    (hfew : ∀ n ∈ List.range' 1 5, reviews.countP (fun review => review.rating.toNat = n) < 2 ^ 31)
    (hgs : gs.Perm (groups (reviews.map reviewToDocument) "rating")) {n : ℕ}
    (hn : n ∈ List.range' 1 5) :
    ∃ count, (Tally.initial.distribution.insertMany (gs.map groupEntry))[toString n]? = some count ∧
      count.toNat = reviews.countP fun review => review.rating.toNat = n := by
  have hregular : ∀ g ∈ gs, Regular g := fun g hg => (regular_of_mem hratings hfew hgs hg).1
  by_cases hgroup : ∃ g ∈ gs, groupRating g = n
  · obtain ⟨g, hg, rfl⟩ := hgroup
    obtain ⟨hreg, hcount⟩ := regular_of_mem hratings hfew hgs hg
    refine ⟨UInt64.ofNat g.count, ?_, ?_⟩
    · exact Std.HashMap.getElem?_insertMany_list_of_mem (beq_self_eq_true _)
        (pairwise_entries hregular (nodup_map_id hgs)) (List.mem_map_of_mem hg)
    · rw [toNat_ofNat (by have := hreg.count_lt; omega), hcount]
  · have habsent : ((gs.map groupEntry).map Prod.fst).contains (toString n) = false := by
      rw [List.map_map, ← Bool.not_eq_true, List.contains_iff_mem, List.mem_map]
      rintro ⟨g, hg, hkey⟩
      exact hgroup ⟨g, hg, toString_inj (hregular g hg).rating_mem hn hkey⟩
    refine ⟨0, ?_, ?_⟩
    · rw [Std.HashMap.getElem?_insertMany_list_of_contains_eq_false habsent, distribution_initial,
        if_pos (List.mem_map_of_mem hn)]
    · refine Eq.symm (List.countP_eq_zero.mpr fun review hreview hrating => hgroup ?_)
      -- the group of a review with this rating would be there
      have hid : some (ratingField review.rating) ∈
          (reviews.map reviewToDocument).map (·.get? "rating") := by
        rw [List.map_map]
        exact List.mem_map_of_mem (f := fun review => some (ratingField review.rating)) hreview
      obtain ⟨g, hg, hgid⟩ := exists_group hgs hid
      refine ⟨g, hg, ?_⟩
      rw [groupRating, hgid]
      exact (Int.toNat_natCast _).trans (of_decide_eq_true hrating)

lemma map_count_sum (hgs : gs.Perm (groups (reviews.map reviewToDocument) "rating")) :
    (gs.map Group.count).sum = reviews.length := by
  have hsum := sum_map_groups hgs fun _ => 1
  simpa [Function.comp_def] using hsum

lemma map_weighted_sum (hgs : gs.Perm (groups (reviews.map reviewToDocument) "rating")) :
    (gs.map fun g => g.count * groupRating g).sum =
      (reviews.map fun review => review.rating.toNat).sum := by
  have hsum := sum_map_groups hgs fun id => groupRating ⟨id, 0⟩
  rw [List.map_map] at hsum
  exact hsum

/-- Every review is counted under one of the five ratings. -/
lemma sum_ratingCounts (hratings : ∀ review ∈ reviews, ratingOutOfRange review.rating = false) :
    ((List.range' 1 5).map fun n =>
      reviews.countP fun review => review.rating.toNat = n).sum = reviews.length := by
  induction reviews with
  | nil => rfl
  | cons review reviews ih =>
    rw [List.forall_mem_cons] at hratings
    have hone : ∀ r ∈ List.range' 1 5,
        ((List.range' 1 5).map fun n => if r = n then 1 else 0).sum = 1 := by decide
    simp only [List.countP_cons, decide_eq_true_eq, List.sum_map_add, ih hratings.2,
      hone _ (rating_mem hratings.1), List.length_cons]

lemma length_le_sum_ratings
    (hratings : ∀ review ∈ reviews, ratingOutOfRange review.rating = false) :
    reviews.length ≤ (reviews.map fun review => review.rating.toNat).sum ∧
      (reviews.map fun review => review.rating.toNat).sum ≤ 5 * reviews.length := by
  induction reviews with
  | nil => exact ⟨Nat.le_refl 0, Nat.le_refl 0⟩
  | cons review reviews ih =>
    rw [List.forall_mem_cons] at hratings
    have hrange := List.mem_range'_1.mp (rating_mem hratings.1)
    have hrest := ih hratings.2
    rw [List.length_cons, List.map_cons, List.sum_cons]
    omega

/-- Five counts below `2 ^ 31` do not overflow a `u64`. -/
lemma length_le_of_few
    (hratings : ∀ review ∈ reviews, ratingOutOfRange review.rating = false)
    (hfew : ∀ n ∈ List.range' 1 5,
      reviews.countP (fun review => review.rating.toNat = n) < 2 ^ 31) :
    reviews.length ≤ 5 * 2 ^ 31 := by
  have hle : ((List.range' 1 5).map fun n =>
      reviews.countP fun review => review.rating.toNat = n).sum ≤ 5 • 2 ^ 31 := by
    refine List.sum_le_card_nsmul _ _ fun count hcount => ?_
    obtain ⟨n, hn, rfl⟩ := List.mem_map.mp hcount
    exact (hfew n hn).le
  rw [sum_ratingCounts hratings] at hle
  simpa using hle

/-- The loop counts right, in whatever order the groups come. -/
theorem exactTally_of_groups
    (hratings : ∀ review ∈ reviews, ratingOutOfRange review.rating = false)
    (hfew : ∀ n ∈ List.range' 1 5, reviews.countP (fun review => review.rating.toNat = n) < 2 ^ 31)
    (hgs : gs.Perm (groups (reviews.map reviewToDocument) "rating")) :
    ExactTally reviews (tallyGroups (gs.map .ok)) ∧
      reviews.length < 2 ^ 64 := by
  have hregular : ∀ g ∈ gs, Regular g := fun g hg => (regular_of_mem hratings hfew hgs hg).1
  have hsum := length_le_sum_ratings hratings
  have hlength := length_le_of_few hratings hfew
  have htally := foldl_add hregular .initial
  rw [map_count_sum hgs, map_weighted_sum hgs] at htally
  have htotalReviews : (tallyGroups (gs.map .ok)).totalReviews.toNat = reviews.length := by
    rw [tallyGroups, htally]
    show (0 + UInt64.ofNat reviews.length).toNat = _
    rw [UInt64.zero_add, toNat_ofNat (by omega)]
  have hratingSum : (tallyGroups (gs.map .ok)).ratingSum.toNat =
      (reviews.map fun review => review.rating.toNat).sum := by
    rw [tallyGroups, htally]
    show (0 + UInt64.ofNat _).toNat = _
    rw [UInt64.zero_add, toNat_ofNat (by omega)]
  refine ⟨⟨fun key => ?_, fun n hn => ?_, ?_, hratingSum, ?_, ?_⟩, by omega⟩
  · rw [tallyGroups, htally, Std.HashMap.mem_insertMany_list, mem_distribution_initial]
    refine or_iff_left_of_imp fun hkey => ?_
    obtain ⟨g, hg, rfl⟩ := List.mem_map.mp (List.map_map ▸ List.contains_iff_mem.mp hkey)
    exact ⟨groupRating g, (hregular g hg).rating_mem, rfl⟩
  · rw [tallyGroups, htally]
    exact distribution_count hratings hfew hgs hn
  · rw [htotalReviews, sum_ratingCounts hratings]
  · rw [htotalReviews, hratingSum]
    exact hsum.1
  · rw [htotalReviews, hratingSum]
    exact hsum.2

end

/-! ## In every state -/

/-- The reviews of a product are what its filter asks for. -/
lemma matching_productFilter {c : Collection} (h : ∀ doc ∈ c, WellFormed doc) (productId : String) :
    matching c (productFilter productId) =
      (productReviews c productId).map reviewToDocument := by
  conv_lhs => rw [(eq_map_reviewsOf h).1]
  exact matching_listFilter (some productId) (reviewsOf c)

/-- What a page reports as the total is the number of documents that match. -/
lemma listing_total {c : Collection} {reply : (q : Query) → QueryReply q} (h : Answers c reply)
    (filter : Document) (page limit : Option UInt64) :
    ∃ response, (listing filter page limit).evaluate reply = ⟨200, .page response⟩ ∧
      response.total = UInt64.ofNat (matching c filter).length := by
  obtain ⟨docs, hfind⟩ := h.find filter (findOptions (pageOf page) (limitOf limit))
  unfold listing
  simp only [Program.evaluate, h.countDocuments, hfind]
  exact ⟨_, rfl, rfl⟩

/-- Two users review a product, and one of them changes the rating. -/
def twoReviews : List ReviewRequest :=
  [.create ⟨"p1", "u1", 5, "good"⟩ "r1" "t1", .create ⟨"p1", "u2", 4, "fine"⟩ "r2" "t2",
    .update "r2" ⟨"u2", 1, "broken"⟩ "t3"]

end DevopsEcommerce.ReviewService
