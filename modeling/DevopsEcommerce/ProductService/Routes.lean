import DevopsEcommerce.Interleaving.Protocol
import DevopsEcommerce.Js.Values
import DevopsEcommerce.Json.Naturals

/-!
# `routes/products.js` behind `middleware/cache.js`

Every route as a program over the commands that the service sends to MongoDB and to Redis. A
handler talks to MongoDB only, so it is a program over `DbCommand`; `serve` puts the middleware
around it.

What a program cannot know is a parameter: the route and the parameters that Express finds in a
URL, and how JavaScript converts and adds the numbers that are not ours.

`Promise.all` has a query and a count on the way at once. A request says which of the two
MongoDB gets first.
-/

open Interleaving Json

namespace DevopsEcommerce.ProductRoutes

/-- What `res.status(status).json(body)` sends. -/
structure Answer where
  status : ℕ
  body : Json

/-- `res.status(status).json({ error: message })` -/
def Answer.error (status : ℕ) (message : String) : Answer :=
  ⟨status, .object [("error", .string message)]⟩

/-! ## MongoDB -/

/-- A stored document, as `lean()` hands it out. -/
structure LeanDocument where
  members : List (String × Json)
  hasId : "_id" ∈ members.map Prod.fst

def LeanDocument.toJson (d : LeanDocument) : Json := .object d.members

/-- A hydrated product, as far as the stock route reads it. The stock is a number or null. -/
structure StockDocument where
  id : Json
  stock : Json

inductive Filter where
  /-- `{ $or: [{ name: regex }, { description: regex }] }` with `new RegExp(q, "i")` -/
  | matching (q : String)
  /-- `category` and the bounds `$gte` and `$lte` of `price`, those of them that are set -/
  | within (category : Option Json) (gte lte : Option Js.Number)

inductive SortOption where
  | priceAsc
  | priceDesc
  | newest

inductive DbCommand where
  | find (filter : Filter) (sort : SortOption) (skip limit : Js.Number)
  | countDocuments (filter : Filter)
  /-- the number of products of each category, the largest first -/
  | aggregate
  | findLeanById (id : String)
  | create (fields : List (String × Option Json))
  | findByIdAndUpdate (id : String) (set : Json)
  | findById (id : String)
  | save (product : StockDocument) (stock : Js.Number)
  | findByIdAndDelete (id : String)

/-- Why a command rejects, by the name of the error. -/
inductive DbError where
  | castError
  | validationError (message : String)
  | other

abbrev DbReply : DbCommand → Type
  | .find _ _ _ _ => Except DbError (List LeanDocument)
  | .countDocuments _ => Except DbError ℕ
  | .aggregate => Except DbError (List Json)
  | .findLeanById _ => Except DbError (Option LeanDocument)
  | .create _ => Except DbError Json
  | .findByIdAndUpdate _ _ => Except DbError (Option Json)
  | .findById _ => Except DbError (Option StockDocument)
  | .save _ _ => Except DbError Unit
  | .findByIdAndDelete _ => Except DbError (Option Unit)

/-- The commands that only ask. -/
def DbCommand.isRead : DbCommand → Bool
  | .find .. | .countDocuments _ | .aggregate | .findLeanById _ | .findById _ => true
  | .create _ | .findByIdAndUpdate .. | .save .. | .findByIdAndDelete _ => false

abbrev DbProgram (α : Type) := Program DbCommand DbReply α

/-! ## `GET` -/

/-- The `GET` routes, with the parameters that they read. -/
inductive GetRoute where
  | search (query : Json)
  | categories
  | list (query : Json)
  | byId (id : String)

/-- What Express and JavaScript do for the routes. -/
structure Platform where
  /-- the route that serves a URL, asked only of URLs that the router serves -/
  getRoute : String → GetRoute
  /-- `Number(value)`; `none` is a `TypeError` -/
  number : Json → Option Js.Number
  /-- `new RegExp(q, "i")` does not throw -/
  isRegExp : String → Bool
  /-- `stock + adjustment` -/
  add : Json → Js.Number → Js.Number
  /-- `value < 0` -/
  isNegative : Js.Number → Bool

/-- `{ total, limit: Number(limit), offset: Number(offset), products }` -/
def page (total : ℕ) (limit offset : Js.Number) (products : List LeanDocument) : Json :=
  .object [("total", .number (natLiteral total)), ("limit", limit.toJson),
    ("offset", offset.toJson), ("products", .array (products.map LeanDocument.toJson))]

/-- `Promise.all` of the page's query and the count, and the response to both. -/
def findAndCount (countFirst : Bool) (filter : Filter) (sort : SortOption)
    (limit offset : Js.Number) (failure : Answer) : DbProgram Answer :=
  if countFirst then
    .call (.countDocuments filter) fun
      | .error _ => .done failure
      | .ok total => .call (.find filter sort offset limit) fun
        | .error _ => .done failure
        | .ok products => .done ⟨200, page total limit offset products⟩
  else
    .call (.find filter sort offset limit) fun
      | .error _ => .done failure
      | .ok products => .call (.countDocuments filter) fun
        | .error _ => .done failure
        | .ok total => .done ⟨200, page total limit offset products⟩

section
variable (platform : Platform)

/-- `Number(limit)` and `Number(offset)`, with the defaults of the routes. -/
def limitAndOffset (query : Json) : Option (Js.Number × Js.Number) :=
  (platform.number ((Js.property query "limit").getD (.number (natLiteral 50)))).bind fun limit =>
    (platform.number ((Js.property query "offset").getD (.number (natLiteral 0)))).map fun offset =>
      (limit, offset)

/-- `router.get("/search", …)` -/
def getSearch (countFirst : Bool) (query : Json) : DbProgram Answer :=
  let failure := Answer.error 500 "Failed to search products"
  if Js.isFalsy (Js.property query "q") then
    .done (.error 400 "Query parameter 'q' is required")
  else
    match Js.property query "q" with
    | some (.string q) =>
      if q.toList.all Js.isWhitespace then .done (.error 400 "Query parameter 'q' is required")
      else if !platform.isRegExp q then .done failure
      else
        match limitAndOffset platform query with
        | none => .done failure
        | some (limit, offset) =>
          findAndCount countFirst (.matching q) .newest limit offset failure
    -- other values have no `trim`
    | _ => .done failure

/-- `router.get("/categories", …)` -/
def getCategories : DbProgram Answer :=
  .call .aggregate fun
    | .error _ => .done (.error 500 "Failed to fetch categories")
    | .ok categories => .done ⟨200, .array categories⟩

/-- `Number(…)` of a bound, if it is there. -/
def priceBound (value : Option Json) : Option (Option Js.Number) :=
  match value with
  | none => some none
  | some v => (platform.number v).map some

/-- The filter of a list; `none` is a `TypeError`. -/
def listFilter (query : Json) : Option Filter :=
  let category := Js.property query "category"
  (priceBound platform (Js.property query "minPrice")).bind fun gte =>
    (priceBound platform (Js.property query "maxPrice")).map fun lte =>
      .within (if Js.isFalsy category then none else category) gte lte

def sortOption : Option Json → SortOption
  | some (.string s) =>
    if s = "price_asc" then .priceAsc else if s = "price_desc" then .priceDesc else .newest
  | _ => .newest

/-- `router.get("/", …)` -/
def getProducts (countFirst : Bool) (query : Json) : DbProgram Answer :=
  let failure := Answer.error 500 "Failed to fetch products"
  match listFilter platform query, limitAndOffset platform query with
  | some filter, some (limit, offset) =>
    findAndCount countFirst filter (sortOption (Js.property query "sort")) limit offset failure
  | _, _ => .done failure

/-- `router.get("/:id", …)` -/
def getProduct (id : String) : DbProgram Answer :=
  .call (.findLeanById id) fun
    | .error .castError => .done (.error 400 "Invalid product ID")
    | .error _ => .done (.error 500 "Failed to fetch product")
    | .ok none => .done (.error 404 "Product not found")
    | .ok (some product) => .done ⟨200, product.toJson⟩

/-- The handler of a `GET` route. -/
def getHandler (countFirst : Bool) : GetRoute → DbProgram Answer
  | .search query => getSearch platform countFirst query
  | .categories => getCategories
  | .list query => getProducts platform countFirst query
  | .byId id => getProduct id

/-- `cacheMiddleware(redis, ttl)`, in seconds -/
def GetRoute.ttl : GetRoute → ℕ
  | .categories => 120
  | .search _ | .list _ | .byId _ => 60

end

/-! ## `POST`, `PUT`, `PATCH` and `DELETE` -/

/-- Where the handler of a write has got to when it leaves MongoDB: an answer to send at once, or
one to send after `invalidateCache`. -/
inductive Outcome where
  | refused (answer : Answer)
  | written (answer : Answer)

/-- `router.post("/", …)` -/
def postProduct (body : Json) : DbProgram Outcome :=
  let fields := ["name", "description", "price", "category", "imageUrl", "stock", "reviews"]
  if Js.isFalsy (Js.property body "name") || Js.isNullish (Js.property body "price") then
    .done (.refused (.error 400 "name and price are required"))
  else
    .call (.create (fields.map fun field => (field, Js.property body field))) fun
      | .error (.validationError message) => .done (.refused (.error 400 message))
      | .error _ => .done (.refused (.error 500 "Failed to create product"))
      | .ok product => .done (.written ⟨201, product⟩)

/-- `router.put("/:id", …)` -/
def putProduct (id : String) (body : Json) : DbProgram Outcome :=
  .call (.findByIdAndUpdate id body) fun
    | .error .castError => .done (.refused (.error 400 "Invalid product ID"))
    | .error (.validationError message) => .done (.refused (.error 400 message))
    | .error .other => .done (.refused (.error 500 "Failed to update product"))
    | .ok none => .done (.refused (.error 404 "Product not found"))
    | .ok (some product) => .done (.written ⟨200, product⟩)

/-- `router.patch("/:id/stock", …)`. The adjustment is that of the body if it is a number. -/
def patchStock (platform : Platform) (id : String) (adjustment : Option Js.Number) :
    DbProgram Outcome :=
  match adjustment with
  | none => .done (.refused (.error 400 "adjustment (number) is required"))
  | some adjustment =>
    .call (.findById id) fun
      | .error .castError => .done (.refused (.error 400 "Invalid product ID"))
      | .error _ => .done (.refused (.error 500 "Failed to adjust stock"))
      | .ok none => .done (.refused (.error 404 "Product not found"))
      | .ok (some product) =>
        let newStock := platform.add product.stock adjustment
        if platform.isNegative newStock then
          .done (.refused ⟨400, .object [("error", .string "Insufficient stock"),
            ("currentStock", product.stock), ("requestedAdjustment", adjustment.toJson)]⟩)
        else
          .call (.save product newStock) fun
            | .error .castError => .done (.refused (.error 400 "Invalid product ID"))
            | .error _ => .done (.refused (.error 500 "Failed to adjust stock"))
            | .ok () => .done (.written ⟨200,
                .object [("id", product.id), ("stock", newStock.toJson)]⟩)

/-- `router.delete("/:id", …)` -/
def deleteProduct (id : String) : DbProgram Outcome :=
  .call (.findByIdAndDelete id) fun
    | .error .castError => .done (.refused (.error 400 "Invalid product ID"))
    | .error _ => .done (.refused (.error 500 "Failed to delete product"))
    | .ok none => .done (.refused (.error 404 "Product not found"))
    | .ok (some ()) => .done (.written ⟨200,
        .object [("message", .string "Product deleted"), ("id", .string id)]⟩)

/-! ## Redis -/

/-- What a request does, in the order in which it can be told apart: commands to MongoDB and to
Redis, and its response. A `SCAN` takes as many round trips as it takes; here are its start and
its end. -/
inductive Command where
  | db (c : DbCommand)
  | get (key : String)
  | set (key text : String) (ttl : ℕ)
  | scanStart (keyPrefix : String)
  | scanEnd (keyPrefix : String)
  | del (key : String)
  | respond (answer : Answer)

inductive RedisError where
  | failed

abbrev Reply : Command → Type
  | .db c => DbReply c
  | .get _ => Except RedisError (Option String)
  | .set _ _ _ => Except RedisError Unit
  | .scanStart _ => Except RedisError Unit
  | .scanEnd _ => Except RedisError (List String)
  | .del _ => Except RedisError Unit
  | .respond _ => Unit

abbrev ServiceProgram := Program Command Reply Answer

/-- A handler as a part of the service. -/
def onDb {α : Type} (handler : DbProgram α) : Program Command Reply α :=
  handler.embed .db fun _ r => r

def respond (answer : Answer) : ServiceProgram :=
  .call (.respond answer) fun _ => .done answer

def cachePrefix : String := "cache:/api/products"

def cacheKey (originalUrl : String) : String := "cache:" ++ originalUrl

/-- The intercepted `res.json`. Nobody waits for the `SET`, and what it replies is only logged;
the response it goes with concerns neither store, so it is first. -/
def respondAndStore (key : String) (ttl : ℕ) (answer : Answer) : ServiceProgram :=
  .call (.respond answer) fun _ =>
    .call (.set key (Js.stringify answer.body) ttl) fun _ => .done answer

/-- What follows `await redis.get(key)`. -/
def afterGet (key : String) (ttl : ℕ) (handler : DbProgram Answer) :
    Except RedisError (Option String) → ServiceProgram
  | .error _ => (onDb handler).bind respond
  | .ok none => (onDb handler).bind (respondAndStore key ttl)
  | .ok (some cached) =>
    if cached = "" then (onDb handler).bind (respondAndStore key ttl)
    else
      match Js.parse cached with
      | none => (onDb handler).bind respond
      | some body => respond ⟨200, body⟩

/-- `cacheMiddleware(redis, ttl)` around a handler. -/
def cacheMiddleware (originalUrl : String) (ttl : ℕ) (handler : DbProgram Answer) :
    ServiceProgram :=
  let key := cacheKey originalUrl
  .call (.get key) (afterGet key ttl handler)

/-- `pipeline.exec()`: what the single deletions reply is not looked at. -/
def delAll : List String → ServiceProgram → ServiceProgram
  | [], rest => rest
  | key :: keys, rest => .call (.del key) fun _ => delAll keys rest

/-- `await invalidateCache(redis, prefix)`; errors are only logged. -/
def invalidateCache (keyPrefix : String) (rest : ServiceProgram) : ServiceProgram :=
  .call (.scanStart keyPrefix) fun
    | .error _ => rest
    | .ok () => .call (.scanEnd keyPrefix) fun
      | .error _ => rest
      | .ok keys => delAll keys rest

/-- The end of a write. -/
def finish : Outcome → ServiceProgram
  | .refused answer => respond answer
  | .written answer => invalidateCache cachePrefix (respond answer)

/-! ## Requests -/

inductive WriteRequest where
  | post (body : Json)
  | put (id : String) (body : Json)
  | patchStock (id : String) (adjustment : Option Js.Number)
  | delete (id : String)

inductive Request where
  | get (url : String) (countFirst : Bool)
  | write (w : WriteRequest)

def Request.isGet : Request → Bool
  | .get _ _ => true
  | .write _ => false

section
variable (platform : Platform)

def writeHandler : WriteRequest → DbProgram Outcome
  | .post body => postProduct body
  | .put id body => putProduct id body
  | .patchStock id adjustment => patchStock platform id adjustment
  | .delete id => deleteProduct id

/-- The service, with or without `cacheMiddleware` before its `GET` handlers. -/
def serve (withCache : Bool) : Request → ServiceProgram
  | .get url countFirst =>
    let route := platform.getRoute url
    let handler := getHandler platform countFirst route
    if withCache then cacheMiddleware url route.ttl handler else (onDb handler).bind respond
  | .write w => (onDb (writeHandler platform w)).bind finish

end

end DevopsEcommerce.ProductRoutes
