import DevopsEcommerce.Interleaving.Program
import DevopsEcommerce.Numbers.IntegralDouble

/-!
# `PATCH /api/products/:id/stock`

The handler of `routes/products.js` as a program over the document it adjusts. Its
database commands are the `findById` and the `save()`; the `:id` is that of one fixed
product, whose document the pool's store holds (`none` when there is no such product).

`save()` sends a `$set` of `stock` only if the assignment changed the path, and without a
version check, as Mongoose does for a schema without `optimisticConcurrency`.
-/

open Interleaving Numbers

namespace DevopsEcommerce.ProductService

/-- What the handler reads of a product document. -/
structure ProductDoc where
  stock : IntegralDouble
deriving DecidableEq

/-- Why `save()` rejects: the `min: 0` validator of the schema, a document that is gone,
or the driver. -/
inductive SaveError where
  | validationError
  | documentNotFoundError
  | driverError
deriving DecidableEq

/-- The request body: `adjustment` when it is a number, `none` when it is missing, null or of
another type. A number has been through `JSON.parse`, so the integer is one that a double
represents. -/
structure StockRequest where
  adjustment : Option ℤ
deriving DecidableEq

inductive ResponseBody where
  | error (message : String)
  | insufficientStock (currentStock : IntegralDouble) (requestedAdjustment : ℤ)
  | adjusted (stock : IntegralDouble)
deriving DecidableEq

structure Response where
  status : ℕ
  body : ResponseBody
deriving DecidableEq

/-- The commands of the handler: `findById`, `product.save()` after the stock read as
`loaded` was assigned `newStock`, and `invalidateCache`, which never rejects. -/
inductive StockCommand where
  | findById
  | save (loaded newStock : IntegralDouble)
  | invalidateCache

abbrev StockReply : StockCommand → Type
  | .findById => Option (Option ProductDoc)
  | .save _ _ => Except SaveError Unit
  | .invalidateCache => Unit

abbrev StockProgram := Program StockCommand StockReply Response

/-- What follows `await product.save()`. -/
def afterSave (newStock : IntegralDouble) : Except SaveError Unit → StockProgram
  | .error _ => .done ⟨500, .error "Failed to adjust stock"⟩
  | .ok () => .call .invalidateCache fun _ => .done ⟨200, .adjusted newStock⟩

/-- What follows `await Product.findById(req.params.id)`; `none` is a rejection. -/
def afterFind (adjustment : ℤ) : Option (Option ProductDoc) → StockProgram
  | none => .done ⟨500, .error "Failed to adjust stock"⟩
  | some none => .done ⟨404, .error "Product not found"⟩
  | some (some product) =>
    let newStock := product.stock.add adjustment
    if newStock.isNeg then .done ⟨400, .insufficientStock product.stock adjustment⟩
    else .call (.save product.stock newStock) (afterSave newStock)

/-- `router.patch("/:id/stock", …)` -/
def patchStock (req : StockRequest) : StockProgram :=
  match req.adjustment with
  | none => .done ⟨400, .error "adjustment (number) is required"⟩
  | some adjustment => .call .findById (afterFind adjustment)

/-- The document after `save()`: only a modified path is written. -/
def saved (doc : ProductDoc) (loaded newStock : IntegralDouble) : ProductDoc :=
  if newStock = loaded then doc else { doc with stock := newStock }

/-- `product.save()` on the database: the `min: 0` validator runs on a modified stock,
then the update of the modified paths. -/
def execSave (store : Option ProductDoc) (loaded newStock : IntegralDouble) (fault : Fault) :
    Option ProductDoc × Except SaveError Unit :=
  if newStock ≠ loaded ∧ newStock.isNeg then (store, .error .validationError)
  else
    match store, fault with
    | store, .before => (store, .error .driverError)
    | none, _ => (none, .error .documentNotFoundError)
    | some doc, .none => (some (saved doc loaded newStock), .ok ())
    | some doc, .after => (some (saved doc loaded newStock), .error .driverError)

/-- One command on the product's document. -/
def execStock (store : Option ProductDoc) (_thread : ℕ) :
    (c : StockCommand) → Fault → Option (Option ProductDoc × StockReply c)
  | .findById, fault => some (store, if fault = .none then some store else none)
  | .save loaded newStock, fault => some (execSave store loaded newStock fault)
  | .invalidateCache, _ => some (store, ())

abbrev StockThread := Thread StockRequest StockCommand StockReply Response
abbrev StockPool := Pool (Option ProductDoc) StockRequest StockCommand StockReply Response

/-- The product with `stock` units and the requests that are going to arrive. -/
def stockPool (stock : ℤ) (requests : List StockRequest) : StockPool :=
  Pool.init patchStock (some ⟨.int stock⟩) requests

abbrev stockStep : StockPool → ℕ × Fault → Option StockPool := Pool.step execStock

/-! ## Where a request can stand -/

/-- The trace of a request whose save has been acknowledged. -/
def hasSaved (trace : List (Σ c, StockReply c)) : Bool :=
  trace.any fun
    | ⟨.save _ _, .ok ()⟩ => true
    | _ => false

/-- The adjustment asked for; a body without one asks for nothing. -/
def StockRequest.units (req : StockRequest) : ℤ := req.adjustment.getD 0

/-- The stages of a request: what it has had answered and what is left of the handler. -/
inductive StockStage : StockRequest → List (Σ c, StockReply c) → StockProgram → Prop
  | refused : StockStage ⟨none⟩ [] (.done ⟨400, .error "adjustment (number) is required"⟩)
  | reading (a : ℤ) : StockStage ⟨some a⟩ [] (.call .findById (afterFind a))
  | declined (a : ℤ) (found : Option (Option ProductDoc)) (answer : Response)
      (h : answer.status ≠ 200) : StockStage ⟨some a⟩ [⟨.findById, found⟩] (.done answer)
  | saving (a : ℤ) (product : ProductDoc) (h : (product.stock.add a).isNeg = false) :
      StockStage ⟨some a⟩ [⟨.findById, some (some product)⟩]
        (.call (.save product.stock (product.stock.add a)) (afterSave (product.stock.add a)))
  | failed (a : ℤ) (product : ProductDoc) (e : SaveError) :
      StockStage ⟨some a⟩ [⟨.save product.stock (product.stock.add a), .error e⟩,
        ⟨.findById, some (some product)⟩] (.done ⟨500, .error "Failed to adjust stock"⟩)
  | invalidating (a : ℤ) (product : ProductDoc) :
      StockStage ⟨some a⟩ [⟨.save product.stock (product.stock.add a), .ok ()⟩,
        ⟨.findById, some (some product)⟩]
        (.call .invalidateCache fun _ => .done ⟨200, .adjusted (product.stock.add a)⟩)
  | adjusted (a : ℤ) (product : ProductDoc) :
      StockStage ⟨some a⟩ [⟨.invalidateCache, ()⟩,
        ⟨.save product.stock (product.stock.add a), .ok ()⟩,
        ⟨.findById, some (some product)⟩] (.done ⟨200, .adjusted (product.stock.add a)⟩)

/-- The handler is always in one of its stages. -/
theorem patchStock_stage {req : StockRequest} {trace : List (Σ c, StockReply c)}
    {q : StockProgram} (h : Program.Follows (patchStock req) trace q) :
    StockStage req trace q := by
  induction h with
  | start =>
    obtain ⟨_ | a⟩ := req
    · exact .refused
    · exact .reading a
  | reply r _ ih =>
    cases ih with
    | reading a =>
      rcases r with _ | _ | product
      · exact .declined a none _ (by decide)
      · exact .declined a (some none) _ (by decide)
      · cases hneg : (product.stock.add a).isNeg with
        | true =>
          simp only [afterFind, hneg, if_true]
          exact .declined a (some (some product)) _ (by simp)
        | false =>
          simp only [afterFind, hneg, Bool.false_eq_true, if_false]
          exact .saving a product hneg
    | saving a product hneg =>
      rcases r with e | _
      · exact .failed a product e
      · exact .invalidating a product
    | invalidating a product => exact .adjusted a product

end DevopsEcommerce.ProductService
