import DevopsEcommerce.ReviewService.Document

/-!
# The handlers that write reviews

`create_review`, `update_review` and `delete_review` of `main.rs` as programs over the
collection. What they take from outside the request body, the fresh UUID and the clock,
comes with the request.
-/

open Interleaving Mongo

namespace DevopsEcommerce.ReviewService

inductive ResponseBody where
  | error (message : String)
  | review (review : Review)
  | empty
deriving DecidableEq

structure Response where
  status : ℕ
  body : ResponseBody
deriving DecidableEq

abbrev ReviewProgram := Program Command Reply Response

/-- `body.rating < 1 || body.rating > 5` -/
def ratingOutOfRange (rating : UInt8) : Bool := rating < 1 || rating > 5

/-! ## `create_review` -/

/-- `doc! { "productId": …, "userId": … }` -/
def pairFilter (productId userId : String) : Document :=
  [("productId", .string productId), ("userId", .string userId)]

def newReview (body : CreateReviewRequest) (uuid now : String) : Review :=
  { id := uuid, productId := body.productId, userId := body.userId, rating := body.rating,
    comment := body.comment, createdAt := now, updatedAt := now }

/-- What follows `insert_one`. -/
def afterInsert (review : Review) : Except DriverError Unit → ReviewProgram
  | .ok () => .done ⟨201, .review review⟩
  | .error _ => .done ⟨500, .error "Failed to create review"⟩

/-- What follows the `find_one` for an existing review. -/
def afterCheck (body : CreateReviewRequest) (uuid now : String) :
    Except DriverError (Option Document) → ReviewProgram
  | .ok (some _) => .done ⟨409, .error "User has already reviewed this product"⟩
  | .error _ => .done ⟨500, .error "Failed to create review"⟩
  | .ok none =>
    let review := newReview body uuid now
    .call (.insertOne (reviewToDocument review)) (afterInsert review)

def createReview (body : CreateReviewRequest) (uuid now : String) : ReviewProgram :=
  if ratingOutOfRange body.rating then
    .done ⟨400, .error "Rating must be between 1 and 5"⟩
  else
    .call (.findOne (pairFilter body.productId body.userId)) (afterCheck body uuid now)

/-! ## `update_review` -/

/-- `doc! { "id": … }` -/
def idFilter (reviewId : String) : Document := [("id", .string reviewId)]

/-- The `$set` of `update_review`. -/
def updateFields (body : UpdateReviewRequest) (now : String) : Document :=
  [("rating", ratingField body.rating), ("comment", .string body.comment),
    ("updatedAt", .string now)]

/-- What follows the `find_one` that fetches the updated review. -/
def afterReread : Except DriverError (Option Document) → ReviewProgram
  | .ok (some doc) =>
    match documentToReview doc with
    | .ok review => .done ⟨200, .review review⟩
    | .error _ => .done ⟨500, .error "Failed to deserialize review"⟩
  | _ => .done ⟨500, .error "Failed to fetch updated review"⟩

/-- What follows `update_one`. -/
def afterUpdate (reviewId : String) : Except DriverError Unit → ReviewProgram
  | .ok () => .call (.findOne (idFilter reviewId)) afterReread
  | .error _ => .done ⟨500, .error "Failed to update review"⟩

/-- What follows the `find_one` that fetches the review to update. -/
def afterFetch (reviewId : String) (body : UpdateReviewRequest) (now : String) :
    Except DriverError (Option Document) → ReviewProgram
  | .ok none => .done ⟨404, .error "Review not found"⟩
  | .error _ => .done ⟨500, .error "Failed to fetch review"⟩
  | .ok (some existing) =>
    match existing.getStr "userId" with
    | .error _ => .done ⟨500, .error "Failed to read review owner"⟩
    | .ok ownerId =>
      if ownerId ≠ body.userId then
        .done ⟨403, .error "Not authorized to update this review"⟩
      else
        .call (.updateOne (idFilter reviewId) (updateFields body now)) (afterUpdate reviewId)

def updateReview (reviewId : String) (body : UpdateReviewRequest) (now : String) :
    ReviewProgram :=
  if ratingOutOfRange body.rating then
    .done ⟨400, .error "Rating must be between 1 and 5"⟩
  else
    .call (.findOne (idFilter reviewId)) (afterFetch reviewId body now)

/-! ## `delete_review` -/

/-- What follows `delete_one`. -/
def afterDelete : Except DriverError ℕ → ReviewProgram
  | .ok deletedCount =>
    if deletedCount = 0 then .done ⟨404, .error "Review not found"⟩ else .done ⟨204, .empty⟩
  | .error _ => .done ⟨500, .error "Failed to delete review"⟩

def deleteReview (reviewId : String) : ReviewProgram :=
  .call (.deleteOne (idFilter reviewId)) afterDelete

/-! ## The service -/

/-- A writing request, with the UUID and the time the service takes for it. -/
inductive ReviewRequest where
  | create (body : CreateReviewRequest) (uuid now : String)
  | update (reviewId : String) (body : UpdateReviewRequest) (now : String)
  | delete (reviewId : String)
deriving DecidableEq

/-- The routes of the three methods. -/
def serve : ReviewRequest → ReviewProgram
  | .create body uuid now => createReview body uuid now
  | .update reviewId body now => updateReview reviewId body now
  | .delete reviewId => deleteReview reviewId

abbrev ReviewThread := Thread ReviewRequest Command Reply Response
abbrev ReviewPool := Pool Collection ReviewRequest Command Reply Response

/-- The requests that are going to arrive at a service with an empty collection. -/
def reviewPool (requests : List ReviewRequest) : ReviewPool := Pool.init serve [] requests

abbrev reviewStep : ReviewPool → ℕ × Fault → Option ReviewPool := Pool.step Mongo.exec

/-! ## Where a request can stand -/

/-- The stages of a request. -/
inductive ReviewStage : ReviewRequest → ReviewProgram → Prop
  | answered (req : ReviewRequest) (answer : Response) : ReviewStage req (.done answer)
  | checking (body : CreateReviewRequest) (uuid now : String)
      (h : ratingOutOfRange body.rating = false) :
      ReviewStage (.create body uuid now)
        (.call (.findOne (pairFilter body.productId body.userId)) (afterCheck body uuid now))
  | inserting (body : CreateReviewRequest) (uuid now : String)
      (h : ratingOutOfRange body.rating = false) :
      ReviewStage (.create body uuid now)
        (.call (.insertOne (reviewToDocument (newReview body uuid now)))
          (afterInsert (newReview body uuid now)))
  | fetching (reviewId : String) (body : UpdateReviewRequest) (now : String)
      (h : ratingOutOfRange body.rating = false) :
      ReviewStage (.update reviewId body now)
        (.call (.findOne (idFilter reviewId)) (afterFetch reviewId body now))
  | updating (reviewId : String) (body : UpdateReviewRequest) (now : String)
      (h : ratingOutOfRange body.rating = false) :
      ReviewStage (.update reviewId body now)
        (.call (.updateOne (idFilter reviewId) (updateFields body now)) (afterUpdate reviewId))
  | rereading (reviewId : String) (body : UpdateReviewRequest) (now : String) :
      ReviewStage (.update reviewId body now)
        (.call (.findOne (idFilter reviewId)) afterReread)
  | deleting (reviewId : String) :
      ReviewStage (.delete reviewId) (.call (.deleteOne (idFilter reviewId)) afterDelete)

lemma reviewStage_serve (req : ReviewRequest) : ReviewStage req (serve req) := by
  cases req with
  | create body uuid now =>
    rw [serve, createReview]
    split
    · exact .answered _ _
    · rename_i h
      exact .checking body uuid now (by simpa using h)
  | update reviewId body now =>
    rw [serve, updateReview]
    split
    · exact .answered _ _
    · rename_i h
      exact .fetching reviewId body now (by simpa using h)
  | delete reviewId => exact .deleting reviewId

/-- A reply takes a request to one of its stages. -/
lemma reviewStage_reply {req : ReviewRequest} {c : Command} {k : Reply c → ReviewProgram}
    (h : ReviewStage req (.call c k)) (r : Reply c) : ReviewStage req (k r) := by
  cases h with
  | checking body uuid now h =>
    rcases r with e | _ | doc
    · exact .answered _ _
    · exact .inserting body uuid now h
    · exact .answered _ _
  | inserting body uuid now h => rcases r with e | _ <;> exact .answered _ _
  | fetching reviewId body now h =>
    rcases r with e | _ | existing
    · exact .answered _ _
    · exact .answered _ _
    · -- a review whose owner cannot be read is an error, one of another user is refused
      simp only [afterFetch]
      split
      · exact .answered _ _
      · split
        · exact .answered _ _
        · exact .updating reviewId body now h
  | updating reviewId body now h =>
    rcases r with e | _
    · exact .answered _ _
    · exact .rereading reviewId body now
  | rereading reviewId body now =>
    rcases r with e | _ | doc
    · exact .answered _ _
    · exact .answered _ _
    · simp only [afterReread]
      split <;> exact .answered _ _
  | deleting reviewId =>
    rcases r with e | n
    · exact .answered _ _
    · simp only [afterDelete]
      split <;> exact .answered _ _

/-- Every request of the pool is in one of its stages. -/
def InStages (p : ReviewPool) : Prop := ∀ t ∈ p.threads, ReviewStage t.request t.program

lemma inStages_init (requests : List ReviewRequest) : InStages (reviewPool requests) := by
  intro t ht
  obtain ⟨req, -, rfl⟩ := List.mem_map.mp ht
  exact reviewStage_serve req

theorem inStages_preserved : Preserved reviewStep InStages :=
  Pool.forall_threads_preserved fun _ _ _ r _ _ _ hstage hk _ =>
    reviewStage_reply (hk ▸ hstage) r

end DevopsEcommerce.ReviewService
