import DevopsEcommerce.Mongo.Collection

/-!
# Reviews and their documents

The `Review` of `main.rs` and the two conversions between a review and the document that
stores it. A stored review decodes to itself (`documentToReview_reviewToDocument`).
-/

open Mongo

namespace DevopsEcommerce.ReviewService

structure Review where
  id : String
  productId : String
  userId : String
  rating : UInt8
  comment : String
  createdAt : String
  updatedAt : String
deriving DecidableEq

structure CreateReviewRequest where
  productId : String
  userId : String
  rating : UInt8
  comment : String
deriving DecidableEq

structure UpdateReviewRequest where
  userId : String
  rating : UInt8
  comment : String
deriving DecidableEq

/-- `rating as i32` -/
def ratingField (rating : UInt8) : Bson := .int32 rating.toNat

def reviewToDocument (review : Review) : Document :=
  [("id", .string review.id), ("productId", .string review.productId),
    ("userId", .string review.userId), ("rating", ratingField review.rating),
    ("comment", .string review.comment), ("createdAt", .string review.createdAt),
    ("updatedAt", .string review.updatedAt)]

def documentToReview (doc : Document) : Except ValueAccessError Review := do
  let id ← doc.getStr "id"
  let productId ← doc.getStr "productId"
  let userId ← doc.getStr "userId"
  -- `as u8` keeps the low eight bits
  let rating ← doc.getI32 "rating"
  let comment ← doc.getStr "comment"
  let createdAt ← doc.getStr "createdAt"
  let updatedAt ← doc.getStr "updatedAt"
  return { id, productId, userId, rating := UInt8.ofInt rating, comment, createdAt, updatedAt }

/-- `as u8` undoes `as i32`. -/
lemma ofInt_toNat (rating : UInt8) : UInt8.ofInt rating.toNat = rating := by
  have hlt : ((rating.toNat : ℤ) % 2 ^ 8).toNat = rating.toNat := by
    have := rating.toNat_lt
    omega
  rw [UInt8.ofInt, hlt, UInt8.ofNat_toNat]

/-- Storing a review and reading it back gives the review. -/
theorem documentToReview_reviewToDocument (review : Review) :
    documentToReview (reviewToDocument review) = .ok review := by
  show Except.ok { review with rating := UInt8.ofInt review.rating.toNat } = .ok review
  rw [ofInt_toNat]

end DevopsEcommerce.ReviewService
