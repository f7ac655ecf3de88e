import DevopsEcommerce.Interleaving.Refinement
import DevopsEcommerce.ReviewService.Listings
import DevopsEcommerce.ReviewService.Ownership
import Mathlib.Data.Set.Function

/-!
# The review service as a board

What the service is for, without documents: a board of reviews, of which no two have one id, or
one product and one user. `Acts` says what a request does to the board and how it is answered.

`Holds c board` says that the collection `c` holds the board. A request that is served alone and
without faults acts on the board, so that the service is a board as long as requests come one
after the other (`serial_refines_board`).
-/

open Interleaving Mongo

namespace DevopsEcommerce.ReviewService

/-! ## The handlers that read -/

/-- `find_one`, and `find` without options -/
inductive Read where
  | findOne (filter : Document)
  | find (filter : Document)

abbrev ReadReply : Read → Type
  | .findOne _ => Except DriverError (Option Document)
  | .find _ => Except DriverError (Cursor Document)

inductive ReadBody where
  | error (message : String)
  | review (review : Review)
  | reviews (reviews : List Review)
deriving DecidableEq

structure ReadResponse where
  status : ℕ
  body : ReadBody
deriving DecidableEq

abbrev ReadProgram := Program Read ReadReply ReadResponse

def getReview (reviewId : String) : ReadProgram :=
  .call (.findOne (idFilter reviewId)) fun
    | .ok (some doc) =>
      match documentToReview doc with
      | .ok review => .done ⟨200, .review review⟩
      | .error _ => .done ⟨500, .error "Failed to deserialize review"⟩
    | .ok none => .done ⟨404, .error "Review not found"⟩
    | .error _ => .done ⟨500, .error "Failed to fetch review"⟩

/-- `doc! { "userId": … }` -/
def userFilter (userId : String) : Document := [("userId", .string userId)]

def getUserReviews (userId : String) : ReadProgram :=
  .call (.find (userFilter userId)) fun
    | .error _ => .done ⟨500, .error "Failed to query reviews"⟩
    | .ok cursor => .done ⟨200, .reviews (collectReviews cursor)⟩

/-! ## Boards -/

/-- The product and the user of a review. -/
def Review.pair (review : Review) : String × String := (review.productId, review.userId)

structure Board where
  reviews : Set Review
  ids : reviews.InjOn Review.id
  pairs : reviews.InjOn Review.pair

/-- The review with an update, if it is the one with the id. -/
def edited (reviewId : String) (body : UpdateReviewRequest) (now : String) (review : Review) :
    Review :=
  if review.id = reviewId then updatedReview review body now else review

namespace Board

def empty : Board where
  reviews := ∅
  ids := Set.injOn_empty _
  pairs := Set.injOn_empty _

def post (board : Board) (review : Review) (hid : review.id ∉ Review.id '' board.reviews)
    (hpair : review.pair ∉ Review.pair '' board.reviews) : Board where
  reviews := insert review board.reviews
  ids := (Set.injOn_insert fun h => hid ⟨review, h, rfl⟩).mpr ⟨board.ids, hid⟩
  pairs := (Set.injOn_insert fun h => hid ⟨review, h, rfl⟩).mpr ⟨board.pairs, hpair⟩

/-- An update touches neither the id nor the pair of a review. -/
def edit (board : Board) (reviewId : String) (body : UpdateReviewRequest) (now : String) :
    Board where
  reviews := edited reviewId body now '' board.reviews
  ids := by
    rintro _ ⟨review, hreview, rfl⟩ _ ⟨review', hreview', rfl⟩ heq
    have hid : ∀ review, (edited reviewId body now review).id = review.id := by
      intro review
      unfold edited
      split <;> rfl
    rw [hid, hid] at heq
    rw [board.ids hreview hreview' heq]
  pairs := by
    rintro _ ⟨review, hreview, rfl⟩ _ ⟨review', hreview', rfl⟩ heq
    have hpair : ∀ review, (edited reviewId body now review).pair = review.pair := by
      intro review
      unfold edited
      split <;> rfl
    rw [hpair, hpair] at heq
    rw [board.pairs hreview hreview' heq]

def withdraw (board : Board) (reviewId : String) : Board where
  reviews := {review ∈ board.reviews | review.id ≠ reviewId}
  ids := board.ids.mono (Set.sep_subset _ _)
  pairs := board.pairs.mono (Set.sep_subset _ _)

/-- A list of the reviews of the board that meet a condition, each of them once. -/
def Lists (board : Board) (P : Review → Prop) (reviews : List Review) : Prop :=
  reviews.Nodup ∧ ∀ review, review ∈ reviews ↔ review ∈ board.reviews ∧ P review

end Board

inductive BoardRequest where
  | write (req : ReviewRequest)
  | getReview (reviewId : String)
  | getUserReviews (userId : String)

inductive BoardAnswer where
  | write (response : Response)
  | read (response : ReadResponse)

/-- The rating that a request brings. -/
def ReviewRequest.rating? : ReviewRequest → Option UInt8
  | .create body _ _ => some body.rating
  | .update _ body _ => some body.rating
  | .delete _ => none

/-- The review that a request is about. -/
def ReviewRequest.reviewId? : ReviewRequest → Option String
  | .create _ _ _ => none
  | .update reviewId _ _ => some reviewId
  | .delete reviewId => some reviewId

/-- What a request does to a board and how it is answered. -/
inductive Acts (board : Board) : BoardRequest → Board → BoardAnswer → Prop
  | badRating {req : ReviewRequest} (h : req.rating?.any ratingOutOfRange = true) :
      Acts board (.write req) board
        (.write ⟨400, .error "Rating must be between 1 and 5"⟩)
  | alreadyReviewed {body : CreateReviewRequest} {uuid now : String}
      (hrating : ratingOutOfRange body.rating = false)
      (hpair : (body.productId, body.userId) ∈ Review.pair '' board.reviews) :
      Acts board (.write (.create body uuid now)) board
        (.write ⟨409, .error "User has already reviewed this product"⟩)
  | created {body : CreateReviewRequest} {uuid now : String}
      (hrating : ratingOutOfRange body.rating = false)
      (hid : (newReview body uuid now).id ∉ Review.id '' board.reviews)
      (hpair : (newReview body uuid now).pair ∉ Review.pair '' board.reviews) :
      Acts board (.write (.create body uuid now)) (board.post (newReview body uuid now) hid hpair)
        (.write ⟨201, .review (newReview body uuid now)⟩)
  | notFound {req : ReviewRequest} {reviewId : String} (hreq : req.reviewId? = some reviewId)
      (hrating : req.rating?.any ratingOutOfRange = false)
      (hid : reviewId ∉ Review.id '' board.reviews) :
      Acts board (.write req) board (.write ⟨404, .error "Review not found"⟩)
  | notAuthorized {review : Review} {body : UpdateReviewRequest} {now : String}
      (hrating : ratingOutOfRange body.rating = false) (hreview : review ∈ board.reviews)
      (huser : review.userId ≠ body.userId) :
      Acts board (.write (.update review.id body now)) board
        (.write ⟨403, .error "Not authorized to update this review"⟩)
  | updated {review : Review} {body : UpdateReviewRequest} {now : String}
      (hrating : ratingOutOfRange body.rating = false) (hreview : review ∈ board.reviews)
      (huser : review.userId = body.userId) :
      Acts board (.write (.update review.id body now)) (board.edit review.id body now)
        (.write ⟨200, .review (updatedReview review body now)⟩)
  | deleted {review : Review} (hreview : review ∈ board.reviews) :
      Acts board (.write (.delete review.id)) (board.withdraw review.id) (.write ⟨204, .empty⟩)
  | got {review : Review} (hreview : review ∈ board.reviews) :
      Acts board (.getReview review.id) board (.read ⟨200, .review review⟩)
  | gotNone {reviewId : String} (hid : reviewId ∉ Review.id '' board.reviews) :
      Acts board (.getReview reviewId) board (.read ⟨404, .error "Review not found"⟩)
  | listed {userId : String} {reviews : List Review}
      (hreviews : board.Lists (fun review => review.userId = userId) reviews) :
      Acts board (.getUserReviews userId) board (.read ⟨200, .reviews reviews⟩)

/-! ## The board in the collection -/

/-- The collection holds the documents of the reviews of the board, each of them once. -/
def Holds (c : Collection) (board : Board) : Prop :=
  ∃ reviews, c = reviews.map reviewToDocument ∧ board.Lists (fun _ => True) reviews

section
variable {board : Board} {reviews : List Review}

lemma Board.Lists.mem (h : board.Lists (fun _ => True) reviews) {review : Review} :
    review ∈ reviews ↔ review ∈ board.reviews := by
  rw [h.2, and_true]

lemma Board.Lists.nodup_ids (h : board.Lists (fun _ => True) reviews) :
    (reviews.map Review.id).Nodup :=
  h.1.map_on fun _ hx _ hy heq => board.ids (h.mem.mp hx) (h.mem.mp hy) heq

lemma findOne_map {filter : Document} {p : Review → Bool}
    (h : ∀ review, (reviewToDocument review).satisfies filter = p review)
    (reviews : List Review) :
    findOne (reviews.map reviewToDocument) filter = (reviews.find? p).map reviewToDocument := by
  unfold findOne
  rw [List.find?_map, show (fun doc : Document => doc.satisfies filter) ∘ reviewToDocument = p from
    funext h]

/-- What `find_one` finds under an id. -/
lemma findOne_idFilter (reviews : List Review) (reviewId : String) :
    findOne (reviews.map reviewToDocument) (idFilter reviewId) =
      (reviews.find? fun review => review.id = reviewId).map reviewToDocument :=
  findOne_map (fun review => by simp [Document.satisfies, idFilter, reviewToDocument]) reviews

lemma findOne_pairFilter (reviews : List Review) (productId userId : String) :
    findOne (reviews.map reviewToDocument) (pairFilter productId userId) =
      (reviews.find? fun review => review.pair = (productId, userId)).map reviewToDocument :=
  findOne_map (fun review => by simp [Document.satisfies, pairFilter, reviewToDocument,
    Review.pair]) reviews

/-- A review that the board has is found under its id. -/
lemma Board.Lists.find (h : board.Lists (fun _ => True) reviews) {review : Review}
    (hreview : review ∈ board.reviews) :
    reviews.find? (fun r => r.id = review.id) = some review := by
  have hsome : (reviews.find? fun r => r.id = review.id).isSome = true := by
    rw [List.find?_isSome]
    exact ⟨review, h.mem.mpr hreview, by simp⟩
  obtain ⟨r, hr⟩ := Option.isSome_iff_exists.mp hsome
  have hid : r.id = review.id := by simpa using List.find?_some hr
  rw [hr, board.ids (h.mem.mp (List.mem_of_find?_eq_some hr)) hreview hid]

/-! ## Writes -/

lemma holds_post (h : board.Lists (fun _ => True) reviews) {review : Review}
    (hid : review.id ∉ Review.id '' board.reviews)
    (hpair : review.pair ∉ Review.pair '' board.reviews) :
    Holds (insertOne (reviews.map reviewToDocument) (reviewToDocument review))
      (board.post review hid hpair) := by
  refine ⟨reviews ++ [review], by rw [List.map_append]; rfl, ?_, fun r => ?_⟩
  · rw [List.nodup_append]
    refine ⟨h.1, List.nodup_singleton _, ?_⟩
    rintro r hr _ hr' rfl
    rw [List.mem_singleton.mp hr'] at hr
    exact hid ⟨review, h.mem.mp hr, rfl⟩
  · rw [List.mem_append, List.mem_singleton, h.mem, and_true]
    exact or_comm

/-- No two reviews have the id, so that an update is made in all places. -/
lemma updateReviews_eq_map {reviewId now : String} {body : UpdateReviewRequest}
    (hids : (reviews.map Review.id).Nodup) :
    updateReviews reviewId body now reviews = reviews.map (edited reviewId body now) := by
  induction reviews with
  | nil => rfl
  | cons review reviews ih =>
    rw [List.map_cons, List.nodup_cons] at hids
    unfold updateReviews edited
    rw [List.map_cons]
    by_cases hid : review.id = reviewId
    · rw [if_pos hid, if_pos hid]
      congr 1
      refine (List.map_id reviews).symm.trans (List.map_congr_left fun r hr => ?_)
      have hne : r.id ≠ reviewId := fun heq =>
        hids.1 (hid ▸ heq ▸ List.mem_map_of_mem hr)
      rw [if_neg hne, id_eq]
    · rw [if_neg hid, if_neg hid, ih hids.2]
      rfl

lemma holds_edit (h : board.Lists (fun _ => True) reviews) (reviewId now : String)
    (body : UpdateReviewRequest) :
    Holds (updateOne (idFilter reviewId) (updateFields body now) (reviews.map reviewToDocument))
      (board.edit reviewId body now) := by
  rw [updateOne_map, updateReviews_eq_map h.nodup_ids]
  have hid : ∀ review, (edited reviewId body now review).id = review.id := by
    intro review
    unfold edited
    split <;> rfl
  refine ⟨_, rfl, ?_, fun r => ?_⟩
  · refine List.Nodup.of_map Review.id ?_
    rw [List.map_map, show Review.id ∘ edited reviewId body now = Review.id from funext hid]
    exact h.nodup_ids
  · rw [List.mem_map, and_true]
    constructor
    · rintro ⟨review, hreview, rfl⟩
      exact ⟨review, h.mem.mp hreview, rfl⟩
    · rintro ⟨review, hreview, rfl⟩
      exact ⟨review, h.mem.mpr hreview, rfl⟩

lemma deleteOne_eq_filter {reviewId : String} (hids : (reviews.map Review.id).Nodup) :
    deleteOne (reviews.map reviewToDocument) (idFilter reviewId) =
      (reviews.filter fun review => review.id ≠ reviewId).map reviewToDocument := by
  induction reviews with
  | nil => rfl
  | cons review reviews ih =>
    rw [List.map_cons, List.nodup_cons] at hids
    have hsat : (reviewToDocument review).satisfies (idFilter reviewId) =
        decide (review.id = reviewId) := by
      simp [Document.satisfies, idFilter, reviewToDocument]
    have htail := ih hids.2
    unfold deleteOne at htail ⊢
    rw [List.map_cons, List.eraseP_cons, List.filter_cons, hsat]
    by_cases hid : review.id = reviewId
    · have hrest : reviews.filter (fun r => decide (r.id ≠ reviewId)) = reviews := by
        refine List.filter_eq_self.mpr fun r hr => decide_eq_true fun heq => ?_
        exact hids.1 (hid ▸ heq ▸ List.mem_map_of_mem hr)
      simp only [hid, decide_true, cond_true, ne_eq, not_true_eq_false, decide_false,
        Bool.false_eq_true, if_false]
      rw [hrest]
    · simp only [hid, decide_false, cond_false, ne_eq, not_false_eq_true, decide_true, if_true,
        List.map_cons]
      rw [htail]

lemma holds_withdraw (h : board.Lists (fun _ => True) reviews) (reviewId : String) :
    Holds (deleteOne (reviews.map reviewToDocument) (idFilter reviewId))
      (board.withdraw reviewId) := by
  rw [deleteOne_eq_filter h.nodup_ids]
  refine ⟨_, rfl, h.1.filter _, fun r => ?_⟩
  rw [List.mem_filter, h.mem, decide_eq_true_eq, and_true]
  rfl

/-! ## Requests served alone -/

/-- The replies about a collection that nobody writes. -/
def Read.reply (c : Collection) : (r : Read) → ReadReply r
  | .findOne filter => .ok (Mongo.findOne c filter)
  | .find filter => .ok ((matching c filter).map .ok)

/-- A request that is served from beginning to end, and without faults. -/
def serveAlone (c : Collection) : BoardRequest → Option (Collection × BoardAnswer)
  | .write req =>
    ((serve req).perform exec 0 (fun _ _ => Fault.none) 0 c).map fun (c', response) =>
      (c', .write response)
  | .getReview reviewId => some (c, .read ((getReview reviewId).evaluate (Read.reply c)))
  | .getUserReviews userId => some (c, .read ((getUserReviews userId).evaluate (Read.reply c)))

/-- The id that a creation takes is new. -/
def FreshId (c : Collection) : BoardRequest → Prop
  | .write (.create _ uuid _) => ∀ doc ∈ c, doc.get? "id" ≠ some (.string uuid)
  | _ => True

/-- The request acts on the board that the collection holds. -/
def ActsIn (c' : Collection) (board : Board) (request : BoardRequest) (answer : BoardAnswer) :
    Prop :=
  ∃ board', Acts board request board' answer ∧ Holds c' board'

lemma actsIn_create {body : CreateReviewRequest} {uuid now : String}
    (h : board.Lists (fun _ => True) reviews)
    (hfresh : FreshId (reviews.map reviewToDocument) (.write (.create body uuid now)))
    {c' : Collection} {answer : BoardAnswer}
    (hserve : serveAlone (reviews.map reviewToDocument) (.write (.create body uuid now)) =
      some (c', answer)) : ActsIn c' board (.write (.create body uuid now)) answer := by
  have hholds : Holds (reviews.map reviewToDocument) board := ⟨reviews, rfl, h⟩
  obtain ⟨⟨c₁, response⟩, hperform, heq⟩ := Option.map_eq_some_iff.mp hserve
  obtain ⟨rfl, rfl⟩ := Prod.mk.inj heq
  change (createReview body uuid now).perform _ _ _ _ _ = _ at hperform
  unfold createReview at hperform
  split at hperform <;> rename_i hrating
  · obtain ⟨rfl, rfl⟩ := Program.perform_done hperform
    exact ⟨board, .badRating (by simpa [ReviewRequest.rating?] using hrating), hholds⟩
  · obtain ⟨c₂, found, hexec, hperform⟩ := Program.perform_call hperform
    obtain ⟨rfl, rfl⟩ := Prod.mk.inj (Option.some.inj hexec)
    have hrating' : ratingOutOfRange body.rating = false := by simpa using hrating
    simp only [okReply, effect, findOne_pairFilter] at hperform
    cases hfind : reviews.find? fun review => review.pair = (body.productId, body.userId) with
    | some review =>
      rw [hfind, Option.map_some] at hperform
      obtain ⟨rfl, rfl⟩ := Program.perform_done hperform
      have hpair : review.pair = (body.productId, body.userId) := by
        simpa using List.find?_some hfind
      have hreview := h.mem.mp (List.mem_of_find?_eq_some hfind)
      exact ⟨board, .alreadyReviewed hrating' ⟨review, hreview, hpair⟩, hholds⟩
    | none =>
      rw [hfind, Option.map_none] at hperform
      obtain ⟨c₃, inserted, hexec, hperform⟩ := Program.perform_call hperform
      obtain ⟨rfl, rfl⟩ := Prod.mk.inj (Option.some.inj hexec)
      obtain ⟨rfl, rfl⟩ := Program.perform_done hperform
      rw [List.find?_eq_none] at hfind
      have hid : (newReview body uuid now).id ∉ Review.id '' board.reviews := by
        rintro ⟨review, hreview, heq⟩
        have hget : (reviewToDocument review).get? "id" = some (.string review.id) := rfl
        refine hfresh _ (List.mem_map_of_mem (h.mem.mpr hreview)) ?_
        rw [hget, heq]
        rfl
      have hpair : (newReview body uuid now).pair ∉ Review.pair '' board.reviews := by
        rintro ⟨review, hreview, heq⟩
        exact hfind review (h.mem.mpr hreview) (decide_eq_true heq)
      exact ⟨board.post _ hid hpair, .created hrating' hid hpair, holds_post h hid hpair⟩

/-- The id of a review that is found is the one asked for. -/
lemma Board.Lists.of_find (h : board.Lists (fun _ => True) reviews) {reviewId : String}
    {review : Review} (hfind : reviews.find? (fun r => r.id = reviewId) = some review) :
    review ∈ board.reviews ∧ review.id = reviewId :=
  ⟨h.mem.mp (List.mem_of_find?_eq_some hfind), by simpa using List.find?_some hfind⟩

/-- What is not found is not on the board. -/
lemma Board.Lists.not_mem_ids (h : board.Lists (fun _ => True) reviews) {reviewId : String}
    (hfind : reviews.find? (fun r => r.id = reviewId) = none) :
    reviewId ∉ Review.id '' board.reviews := by
  rintro ⟨review, hreview, rfl⟩
  rw [h.find hreview] at hfind
  cases hfind

lemma actsIn_update {reviewId : String} {body : UpdateReviewRequest} {now : String}
    (h : board.Lists (fun _ => True) reviews) {c' : Collection} {answer : BoardAnswer}
    (hserve : serveAlone (reviews.map reviewToDocument) (.write (.update reviewId body now)) =
      some (c', answer)) : ActsIn c' board (.write (.update reviewId body now)) answer := by
  have hholds : Holds (reviews.map reviewToDocument) board := ⟨reviews, rfl, h⟩
  obtain ⟨⟨c₁, response⟩, hperform, heq⟩ := Option.map_eq_some_iff.mp hserve
  obtain ⟨rfl, rfl⟩ := Prod.mk.inj heq
  change (updateReview reviewId body now).perform _ _ _ _ _ = _ at hperform
  unfold updateReview at hperform
  split at hperform <;> rename_i hrating
  · obtain ⟨rfl, rfl⟩ := Program.perform_done hperform
    exact ⟨board, .badRating (by simpa [ReviewRequest.rating?] using hrating), hholds⟩
  · obtain ⟨c₂, found, hexec, hperform⟩ := Program.perform_call hperform
    obtain ⟨rfl, rfl⟩ := Prod.mk.inj (Option.some.inj hexec)
    have hrating' : ratingOutOfRange body.rating = false := by simpa using hrating
    simp only [okReply, effect, findOne_idFilter] at hperform
    cases hfind : reviews.find? fun review => review.id = reviewId with
    | none =>
      rw [hfind, Option.map_none] at hperform
      obtain ⟨rfl, rfl⟩ := Program.perform_done hperform
      exact ⟨board, .notFound rfl (by simpa [ReviewRequest.rating?] using hrating')
        (h.not_mem_ids hfind), hholds⟩
    | some review =>
      obtain ⟨hreview, rfl⟩ := h.of_find hfind
      rw [hfind, Option.map_some] at hperform
      have howner : (reviewToDocument review).getStr "userId" = .ok review.userId := rfl
      simp only [afterFetch, howner] at hperform
      split at hperform <;> rename_i huser
      · obtain ⟨rfl, rfl⟩ := Program.perform_done hperform
        exact ⟨board, .notAuthorized hrating' hreview huser, hholds⟩
      · obtain ⟨c₃, updated, hexec, hperform⟩ := Program.perform_call hperform
        obtain ⟨rfl, rfl⟩ := Prod.mk.inj (Option.some.inj hexec)
        obtain ⟨c₄, reread, hexec, hperform⟩ := Program.perform_call hperform
        obtain ⟨rfl, rfl⟩ := Prod.mk.inj (Option.some.inj hexec)
        obtain ⟨reviews', hreviews', hlists'⟩ := holds_edit h review.id now body
        have hedited : updatedReview review body now ∈ (board.edit review.id body now).reviews :=
          ⟨review, hreview, if_pos rfl⟩
        have hfind' := hlists'.find hedited
        simp only [okReply, effect] at hperform
        rw [hreviews', findOne_idFilter,
          show (fun r : Review => decide (r.id = review.id)) =
            fun r => decide (r.id = (updatedReview review body now).id) from rfl,
          hfind', Option.map_some] at hperform
        simp only [afterReread, documentToReview_reviewToDocument] at hperform
        obtain ⟨rfl, rfl⟩ := Program.perform_done hperform
        exact ⟨_, .updated hrating' hreview (not_not.mp huser), ⟨reviews', rfl, hlists'⟩⟩

lemma actsIn_delete {reviewId : String} (h : board.Lists (fun _ => True) reviews)
    {c' : Collection} {answer : BoardAnswer}
    (hserve : serveAlone (reviews.map reviewToDocument) (.write (.delete reviewId)) =
      some (c', answer)) : ActsIn c' board (.write (.delete reviewId)) answer := by
  obtain ⟨⟨c₁, response⟩, hperform, heq⟩ := Option.map_eq_some_iff.mp hserve
  obtain ⟨rfl, rfl⟩ := Prod.mk.inj heq
  obtain ⟨c₂, deleted, hexec, hperform⟩ := Program.perform_call hperform
  obtain ⟨rfl, rfl⟩ := Prod.mk.inj (Option.some.inj hexec)
  have hcount : deletedCount (reviews.map reviewToDocument) (idFilter reviewId) =
      if (reviews.find? fun r => r.id = reviewId).isSome then 1 else 0 := by
    unfold deletedCount
    rw [findOne_idFilter, Option.isSome_map]
  simp only [okReply, effect, afterDelete, hcount] at hperform
  cases hfind : reviews.find? fun r => r.id = reviewId with
  | none =>
    rw [hfind] at hperform
    obtain ⟨rfl, rfl⟩ := Program.perform_done hperform
    have hid := h.not_mem_ids hfind
    -- nothing is deleted
    have hsame : deleteOne (reviews.map reviewToDocument) (idFilter reviewId) =
        reviews.map reviewToDocument := by
      rw [deleteOne_eq_filter h.nodup_ids]
      congr 1
      exact List.filter_eq_self.mpr fun r hr => decide_eq_true fun heq =>
        hid ⟨r, h.mem.mp hr, heq⟩
    rw [hsame]
    exact ⟨board, .notFound rfl rfl hid, reviews, rfl, h⟩
  | some review =>
    obtain ⟨hreview, rfl⟩ := h.of_find hfind
    rw [hfind] at hperform
    obtain ⟨rfl, rfl⟩ := Program.perform_done hperform
    exact ⟨_, .deleted hreview, holds_withdraw h review.id⟩

/-- The reviews of a user, out of all of them. -/
lemma matching_userFilter (reviews : List Review) (userId : String) :
    matching (reviews.map reviewToDocument) (userFilter userId) =
      (reviews.filter fun review => review.userId = userId).map reviewToDocument := by
  unfold matching
  rw [List.filter_map]
  refine congrArg _ (List.filter_congr fun review _ => ?_)
  simp [Document.satisfies, userFilter, reviewToDocument]

/-- A request that is served alone acts on the board. -/
theorem acts_of_serveAlone {c c' : Collection} {request : BoardRequest} {answer : BoardAnswer}
    (hholds : Holds c board) (hfresh : FreshId c request)
    (hserve : serveAlone c request = some (c', answer)) : ActsIn c' board request answer := by
  obtain ⟨reviews, rfl, h⟩ := hholds
  cases request with
  | write req =>
    cases req with
    | create body uuid now => exact actsIn_create h hfresh hserve
    | update reviewId body now => exact actsIn_update h hserve
    | delete reviewId => exact actsIn_delete h hserve
  | getReview reviewId =>
    obtain ⟨rfl, rfl⟩ := Prod.mk.inj (Option.some.inj hserve)
    simp only [getReview, Program.evaluate, Read.reply, findOne_idFilter]
    cases hfind : reviews.find? fun r => r.id = reviewId with
    | none => exact ⟨board, .gotNone (h.not_mem_ids hfind), reviews, rfl, h⟩
    | some review =>
      obtain ⟨hreview, rfl⟩ := h.of_find hfind
      simp only [Option.map_some, documentToReview_reviewToDocument]
      exact ⟨board, .got hreview, reviews, rfl, h⟩
  | getUserReviews userId =>
    obtain ⟨rfl, rfl⟩ := Prod.mk.inj (Option.some.inj hserve)
    simp only [getUserReviews, Program.evaluate, Read.reply, matching_userFilter,
      collectReviews_map]
    refine ⟨board, .listed ⟨h.1.filter _, fun review => ?_⟩, reviews, rfl, h⟩
    rw [List.mem_filter, h.mem, decide_eq_true_eq]

end

/-! ## Runs -/

/-- One request after the other. The collection, and the answers so far, latest first. -/
def serialStep (p : Collection × List BoardAnswer) (request : BoardRequest) :
    Option (Collection × List BoardAnswer) :=
  (serveAlone p.1 request).map fun (c, answer) => (c, answer :: p.2)

/-- The same on a board. -/
inductive BoardStep : Board × List BoardAnswer → BoardRequest → Board × List BoardAnswer → Prop
  | serve {board board' : Board} {request : BoardRequest} {answer : BoardAnswer}
      {answers : List BoardAnswer} (hacts : Acts board request board' answer) :
      BoardStep (board, answers) request (board', answer :: answers)

abbrev BoardRun : Board × List BoardAnswer → List BoardRequest → Board × List BoardAnswer → Prop :=
  RunsBy BoardStep

/-- The UUID that a request takes. -/
def BoardRequest.uuid? : BoardRequest → Option String
  | .write (.create _ uuid _) => some uuid
  | _ => none

def uuids (requests : List BoardRequest) : List String := requests.filterMap BoardRequest.uuid?

section
variable {board board' : Board} {request : BoardRequest} {answer : BoardAnswer}

lemma holds_empty : Holds [] Board.empty :=
  ⟨[], rfl, List.nodup_nil, fun review => by simp [Board.empty]⟩

lemma freshId_of_uuid? {c : Collection} (hholds : Holds c board)
    (h : ∀ uuid, request.uuid? = some uuid → uuid ∉ Review.id '' board.reviews) :
    FreshId c request := by
  obtain ⟨reviews, rfl, hlists⟩ := hholds
  cases request with
  | write req =>
    cases req with
    | create body uuid now =>
      intro doc hdoc hget
      obtain ⟨review, hreview, rfl⟩ := List.mem_map.mp hdoc
      obtain rfl : review.id = uuid := by simpa [reviewToDocument] using hget
      exact h _ rfl ⟨review, hlists.mem.mp hreview, rfl⟩
    | update | delete => trivial
  | getReview | getUserReviews => trivial

/-- No request brings another id to the board than its UUID. -/
lemma Acts.ids (hacts : Acts board request board' answer) {id : String}
    (hid : id ∈ Review.id '' board'.reviews) :
    id ∈ Review.id '' board.reviews ∨ request.uuid? = some id := by
  cases hacts with
  | badRating | alreadyReviewed | notFound | notAuthorized | got | gotNone | listed =>
    exact .inl hid
  | created =>
    obtain ⟨review, hreview, rfl⟩ := hid
    rcases hreview with rfl | hreview
    · exact .inr rfl
    · exact .inl ⟨review, hreview, rfl⟩
  | updated =>
    obtain ⟨_, ⟨review, hreview, rfl⟩, rfl⟩ := hid
    refine .inl ⟨review, hreview, ?_⟩
    unfold edited
    split <;> rfl
  | deleted =>
    obtain ⟨review, hreview, rfl⟩ := hid
    exact .inl ⟨review, hreview.1, rfl⟩

end

/-- A collection and a board that it holds, the same answers, and new UUIDs to come. -/
structure Posted (requests : List BoardRequest) (p : Collection × List BoardAnswer)
    (q : Board × List BoardAnswer) : Prop where
  holds : Holds p.1 q.1
  answers : p.2 = q.2
  nodup : (uuids requests).Nodup
  fresh : ∀ uuid ∈ uuids requests, uuid ∉ Review.id '' q.1.reviews

lemma posted_step {request : BoardRequest} {requests : List BoardRequest}
    {p p' : Collection × List BoardAnswer} {q : Board × List BoardAnswer}
    (h : Posted (request :: requests) p q) (hstep : serialStep p request = some p') :
    ∃ q', BoardStep q request q' ∧ Posted requests p' q' := by
  obtain ⟨c, answers⟩ := p
  obtain ⟨board, answers'⟩ := q
  obtain rfl : answers = answers' := h.answers
  obtain ⟨⟨c', answer⟩, hserve, rfl⟩ := Option.map_eq_some_iff.mp hstep
  have hmem : ∀ uuid, request.uuid? = some uuid → uuid ∈ uuids (request :: requests) :=
    fun uuid huuid => List.mem_filterMap.mpr ⟨request, List.mem_cons_self, huuid⟩
  have hfresh := freshId_of_uuid? h.holds fun uuid huuid => h.fresh uuid (hmem uuid huuid)
  obtain ⟨board', hacts, hholds⟩ := acts_of_serveAlone h.holds hfresh hserve
  have hsub : (uuids requests).Sublist (uuids (request :: requests)) :=
    (List.sublist_cons_self _ _).filterMap _
  refine ⟨_, .serve hacts, hholds, rfl, h.nodup.sublist hsub, fun uuid huuid hid => ?_⟩
  rcases hacts.ids hid with hold | htaken
  · exact h.fresh uuid (hsub.subset huuid) hold
  · -- the UUID of this request comes a second time
    have hcons : uuids (request :: requests) = uuid :: uuids requests :=
      List.filterMap_cons_some htaken
    have hnodup := h.nodup
    rw [hcons] at hnodup
    exact (List.nodup_cons.mp hnodup).1 huuid

/-- Let the collection hold a board. If requests are served one after the other and without
faults, and the UUIDs are new, then all answers are answers of the board, and the collection
holds what has become of it. -/
theorem serial_refines_board {c c' : Collection} {board : Board} {requests : List BoardRequest}
    {answers answers' : List BoardAnswer} (hholds : Holds c board)
    (hnodup : (uuids requests).Nodup)
    (hnew : ∀ uuid ∈ uuids requests, uuid ∉ Review.id '' board.reviews)
    (hrun : run serialStep (c, answers) requests = some (c', answers')) :
    ∃ board', BoardRun (board, answers) requests (board', answers') ∧ Holds c' board' := by
  have hstart : Posted requests (c, answers) (board, answers) := ⟨hholds, rfl, hnodup, hnew⟩
  obtain ⟨⟨board', _⟩, hboard, hholds', rfl, -, -⟩ :=
    run_refines (fun _ _ _ _ _ => posted_step) hstart hrun
  exact ⟨board', hboard, hholds'⟩

def fiveStars : CreateReviewRequest := ⟨"p", "u", 5, "good"⟩

/-- A review is posted twice, changed, read and withdrawn. -/
def boardVisit : List BoardRequest :=
  [.write (.create fiveStars "r" "t"), .write (.create fiveStars "r'" "t"),
    .write (.update "r" ⟨"u", 1, "bad"⟩ "t'"), .getReview "r", .getUserReviews "u",
    .write (.delete "r"), .getReview "r"]

lemma isSome_boardVisit : (run serialStep ([], []) boardVisit).isSome = true := by
  decide +kernel

theorem serial_refines_board_visit :
    ∃ c answers board, run serialStep ([], []) boardVisit = some (c, answers) ∧
      BoardRun (Board.empty, []) boardVisit (board, answers) ∧ Holds c board := by
  obtain ⟨⟨c, answers⟩, hrun⟩ := Option.isSome_iff_exists.mp isSome_boardVisit
  have hnew : ∀ uuid ∈ uuids boardVisit, uuid ∉ Review.id '' Board.empty.reviews := by
    rintro uuid - ⟨review, hreview, -⟩
    exact hreview
  obtain ⟨board, hboard, hholds⟩ := serial_refines_board holds_empty (by decide) hnew hrun
  exact ⟨c, answers, board, hrun, hboard, hholds⟩

end DevopsEcommerce.ReviewService
