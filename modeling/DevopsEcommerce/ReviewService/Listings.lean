import DevopsEcommerce.Interleaving.Protocol
import DevopsEcommerce.Mongo.Queries
import DevopsEcommerce.ReviewService.Document

/-!
# The handlers that list reviews

`list_reviews`, `get_product_reviews` and `get_product_stats` of `main.rs` as programs over the
queries. Numbers are machine integers, with the arithmetic of a release build.
-/

open Interleaving Mongo

namespace DevopsEcommerce.ReviewService

structure ReviewQuery where
  productId : Option String
  page : Option UInt64
  limit : Option UInt64

structure PaginationQuery where
  page : Option UInt64
  limit : Option UInt64

structure PaginatedResponse where
  reviews : List Review
  total : UInt64
  page : UInt64
  limit : UInt64

structure RatingStats where
  productId : String
  averageRating : Float
  totalReviews : UInt64
  distribution : Std.HashMap String UInt64

inductive QueryBody where
  | error (message : String)
  | page (page : PaginatedResponse)
  | stats (stats : RatingStats)

structure QueryResponse where
  status : ℕ
  body : QueryBody

abbrev QueryProgram := Program Query QueryReply QueryResponse

/-! ## Pages -/

/-- The loop of `collect_reviews`: what does not decode is left out, and so are errors. -/
def collectReviews : Cursor Document → List Review
  | [] => []
  | .ok doc :: cursor =>
    match documentToReview doc with
    | .ok review => review :: collectReviews cursor
    | .error _ => collectReviews cursor
  | .error _ :: cursor => collectReviews cursor

/-- `unwrap_or(1).max(1)` -/
def pageOf (page : Option UInt64) : UInt64 := max (page.getD 1) 1

/-- `unwrap_or(20).max(1)` -/
def limitOf (limit : Option UInt64) : UInt64 := max (limit.getD 20) 1

/-- The product wraps, and `limit as i64` takes the bits for a signed number. -/
def findOptions (page limit : UInt64) : FindOptions where
  skip := (page - 1) * limit
  limit := limit.toInt64

/-- The two handlers that answer with a page, for a filter. -/
def listing (filter : Document) (page limit : Option UInt64) : QueryProgram :=
  let page := pageOf page
  let limit := limitOf limit
  .call (.countDocuments filter) fun
    | .error _ => .done ⟨500, .error "Failed to query reviews"⟩
    | .ok total =>
      .call (.find filter (findOptions page limit)) fun
        | .error _ => .done ⟨500, .error "Failed to query reviews"⟩
        | .ok cursor =>
          .done ⟨200, .page { reviews := collectReviews cursor, total, page, limit }⟩

/-- `doc! { "productId": … }` -/
def productFilter (productId : String) : Document := [("productId", .string productId)]

def listFilter : Option String → Document
  | some productId => productFilter productId
  | none => []

def listReviews (query : ReviewQuery) : QueryProgram :=
  listing (listFilter query.productId) query.page query.limit

def getProductReviews (productId : String) (query : PaginationQuery) : QueryProgram :=
  listing (productFilter productId) query.page query.limit

/-! ## Statistics -/

/-- The variables that the loop over the groups changes. -/
structure Tally where
  distribution : Std.HashMap String UInt64
  totalReviews : UInt64
  ratingSum : UInt64

/-- Every rating from 1 to 5, with a count of 0. -/
def Tally.initial : Tally where
  distribution := (List.range' 1 5).foldl (fun m i => m.insert (toString i) 0) ∅
  totalReviews := 0
  ratingSum := 0

/-- One round of the loop. A value that is no `int32` counts as 0, and `as u64` extends the
sign. -/
def Tally.add (tally : Tally) : Except DriverError Group → Tally
  | .ok group =>
    let rating := UInt64.ofInt (group.getId.toOption.getD 0)
    let count := UInt64.ofInt (group.getCount.toOption.getD 0)
    { distribution := tally.distribution.insert (toString rating) count
      totalReviews := tally.totalReviews + count
      ratingSum := tally.ratingSum + rating * count }
  | .error _ => tally

def tallyGroups (cursor : Cursor Group) : Tally := cursor.foldl Tally.add .initial

/-- Rounded to one decimal. -/
def averageRating (totalReviews ratingSum : UInt64) : Float :=
  if totalReviews > 0 then (ratingSum.toFloat / totalReviews.toFloat * 10.0).round / 10.0 else 0.0

def Tally.stats (tally : Tally) (productId : String) : RatingStats where
  productId := productId
  averageRating := averageRating tally.totalReviews tally.ratingSum
  totalReviews := tally.totalReviews
  distribution := tally.distribution

def getProductStats (productId : String) : QueryProgram :=
  .call (.aggregate (productFilter productId) "rating") fun
    | .error _ => .done ⟨500, .error "Failed to get product stats"⟩
    | .ok cursor => .done ⟨200, .stats ((tallyGroups cursor).stats productId)⟩

/-! ## What the filters ask for -/

def matchedReviews (productId : Option String) (reviews : List Review) : List Review :=
  reviews.filter fun review => productId.all fun id => review.productId = id

lemma matching_listFilter (productId : Option String) (reviews : List Review) :
    matching (reviews.map reviewToDocument) (listFilter productId) =
      (matchedReviews productId reviews).map reviewToDocument := by
  unfold matching matchedReviews
  rw [List.filter_map]
  refine congrArg _ (List.filter_congr fun review _ => ?_)
  cases productId with
  | none => rfl
  | some id => simp [Document.satisfies, listFilter, productFilter, reviewToDocument]

/-- A cursor over documents of reviews gives the reviews. -/
lemma collectReviews_map (reviews : List Review) :
    collectReviews ((reviews.map reviewToDocument).map .ok) = reviews := by
  induction reviews with
  | nil => rfl
  | cons review reviews ih =>
    simp only [List.map_cons, collectReviews, documentToReview_reviewToDocument, ih]

end DevopsEcommerce.ReviewService
