import DevopsEcommerce.ReviewService.Handlers

/-!
# What the collection holds

Whatever is created, updated and deleted, each stored document is that of a review whose rating
has passed the check (`wellFormed_preserved`). An update gives the document of the updated
review.
-/

open Interleaving Mongo

namespace DevopsEcommerce.ReviewService

/-- The review as `update_review` leaves it. -/
def updatedReview (review : Review) (body : UpdateReviewRequest) (now : String) : Review :=
  { review with rating := body.rating, comment := body.comment, updatedAt := now }

/-- The stored reviews, without the documents that do not decode. -/
def reviewsOf (c : Collection) : List Review :=
  c.filterMap fun doc => (documentToReview doc).toOption

/-- The document is that of a review with an admitted rating. -/
def WellFormed (doc : Document) : Prop :=
  ∃ review, doc = reviewToDocument review ∧ ratingOutOfRange review.rating = false

lemma set_reviewToDocument (review : Review) (body : UpdateReviewRequest) (now : String) :
    (reviewToDocument review).set (updateFields body now) =
      reviewToDocument (updatedReview review body now) := rfl

/-! ## Decoding -/

lemma reviewsOf_map (reviews : List Review) :
    reviewsOf (reviews.map reviewToDocument) = reviews := by
  unfold reviewsOf
  rw [List.filterMap_map]
  refine Eq.trans (List.filterMap_congr fun review _ => ?_) List.filterMap_some
  show (documentToReview (reviewToDocument review)).toOption = some review
  rw [documentToReview_reviewToDocument]
  rfl

lemma reviewToDocument_injective : Function.Injective reviewToDocument := by
  intro review review' h
  have hdecoded := documentToReview_reviewToDocument review
  rw [h, documentToReview_reviewToDocument] at hdecoded
  exact (Except.ok.inj hdecoded).symm

/-- A collection of well-formed documents is the list of its reviews. -/
lemma eq_map_reviewsOf {c : Collection} (h : ∀ doc ∈ c, WellFormed doc) :
    c = (reviewsOf c).map reviewToDocument ∧
      ∀ review ∈ reviewsOf c, ratingOutOfRange review.rating = false := by
  induction c with
  | nil => exact ⟨rfl, fun review hreview => absurd hreview List.not_mem_nil⟩
  | cons doc c ih =>
    rw [List.forall_mem_cons] at h
    obtain ⟨⟨review, rfl, hrating⟩, hrest⟩ := h
    obtain ⟨hc, hratings⟩ := ih hrest
    have hcons : reviewsOf (reviewToDocument review :: c) = review :: reviewsOf c := by
      unfold reviewsOf
      rw [List.filterMap_cons, documentToReview_reviewToDocument]
      rfl
    rw [hcons, List.map_cons, ← hc]
    exact ⟨rfl, List.forall_mem_cons.mpr ⟨hrating, hratings⟩⟩

lemma mem_reviewsOf {c : Collection} (h : ∀ doc ∈ c, WellFormed doc) {review : Review} :
    review ∈ reviewsOf c ↔ reviewToDocument review ∈ c := by
  conv_rhs => rw [(eq_map_reviewsOf h).1]
  exact (List.mem_map_of_injective reviewToDocument_injective).symm

lemma satisfies_idFilter (reviewId : String) (doc : Document) :
    doc.satisfies (idFilter reviewId) = true ↔ doc.get? "id" = some (.string reviewId) := by
  simp [Document.satisfies, idFilter]

/-! ## What the writing requests keep -/

lemma wellFormed_effect {req : ReviewRequest} {cmd : Command} {k : Reply cmd → ReviewProgram}
    (h : ReviewStage req (.call cmd k)) {c : Collection} (hc : ∀ doc ∈ c, WellFormed doc) :
    ∀ doc ∈ effect c cmd, WellFormed doc := by
  cases h with
  | checking body uuid now hrating => exact hc
  | inserting body uuid now hrating =>
    refine List.forall_mem_append.mpr ⟨hc, fun doc hdoc => ?_⟩
    exact ⟨newReview body uuid now, List.mem_singleton.mp hdoc, hrating⟩
  | fetching reviewId body now hrating => exact hc
  | updating reviewId body now hrating =>
    refine forall_mem_updateOne hc fun doc hdoc _ => ?_
    obtain ⟨review, rfl, -⟩ := hc doc hdoc
    exact ⟨updatedReview review body now, set_reviewToDocument review body now, hrating⟩
  | rereading reviewId body now => exact hc
  | deleting reviewId => exact fun _ hdoc => hc _ ((deleteOne_sublist _ _).subset hdoc)

/-- Every stored document is well formed. -/
def StoresReviews (p : ReviewPool) : Prop := InStages p ∧ ∀ doc ∈ p.store, WellFormed doc

lemma storesReviews_init (requests : List ReviewRequest) : StoresReviews (reviewPool requests) :=
  ⟨inStages_init requests, fun _ hdoc => absurd hdoc List.not_mem_nil⟩

theorem storesReviews_preserved : Preserved reviewStep StoresReviews := by
  intro p l p' h hstep
  refine ⟨inStages_preserved p l p' h.1 hstep, ?_⟩
  obtain ⟨t, c, k, store, r, ht, hk, hexec, rfl⟩ := Pool.step_eq_some.mp hstep
  have hstage := h.1 t (List.mem_of_getElem? ht)
  rw [hk] at hstage
  show ∀ doc ∈ store, WellFormed doc
  rw [exec_store hexec]
  split
  · exact h.2
  · exact wellFormed_effect hstage h.2

end DevopsEcommerce.ReviewService
