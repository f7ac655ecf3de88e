import Mathlib.Data.List.AList
import DevopsEcommerce.CartService.CartItem
import DevopsEcommerce.Go.HttpClient
import DevopsEcommerce.Interleaving.Program

/-!
# The handlers of the cart service

The handlers of `main.go` as programs over Redis and the order service. A request comes with
what its handler gets from outside: the decoded body or the path, and the clock.

The store holds the hashes and the orders that the order service has accepted. An empty hash
is a key that does not exist. `range` over the map of `HGETALL` goes through the fields in
any order, which is part of the environment's choice.
-/

open Interleaving

namespace DevopsEcommerce.CartService

/-! ## Requests and responses -/

structure AddItemRequest where
  userID : String
  productID : String
  quantity : Int64
deriving DecidableEq

structure UpdateItemRequest where
  userID : String
  productID : String
  quantity : Int64
deriving DecidableEq

structure CheckoutRequest where
  userID : String
  items : List CartItem
deriving DecidableEq

/-- The body is `none` if `Decode` fails. -/
inductive CartRequest where
  | addItem (body : Option AddItemRequest) (now : String)
  | updateItem (body : Option UpdateItemRequest) (now : String)
  | getCart (path : String) (now : String → String)
  | deleteCart (path : String)
  | deleteItem (path : String)
  | checkout (path : String) (now : String → String)
  | getItemCount (path : String)

inductive Data where
  | items (items : List CartItem)
  | count (n : ℕ)
  /-- The answer of the order service. -/
  | order (body : String)
deriving DecidableEq

structure Response where
  code : ℕ
  status : String
  message : String
  data : Option Data
deriving DecidableEq

def errorResponse (code : ℕ) (message : String) : Response := ⟨code, "error", message, none⟩

/-! ## Redis and the order service -/

/-- Redis or the order service does not answer, or with an error. -/
inductive CallError where
  | failed
deriving DecidableEq

/-- What `http.Client.Post` returns: the last answer, and the redirects that have led to it. The
body is `none` if reading it fails. -/
structure OrderResponse where
  redirects : Go.Redirects
  statusCode : ℕ
  body : Option String

/-- The method of the request that has been answered. -/
def OrderResponse.method (response : OrderResponse) : Go.Method :=
  response.redirects.lastMethod .post

/-- The order service has accepted the order: a `GET` places none. -/
def OrderResponse.Places (response : OrderResponse) : Prop :=
  response.method = .post ∧ 200 ≤ response.statusCode ∧ response.statusCode < 300

instance (response : OrderResponse) : Decidable response.Places :=
  inferInstanceAs (Decidable (_ ∧ _ ∧ _))

inductive CartCommand where
  | hget (key field : String)
  | hset (key field value : String)
  | expire (key : String) (seconds : ℕ)
  | hgetall (key : String)
  | hlen (key : String)
  | hdel (key field : String)
  | del (key : String)
  | post (order : CheckoutRequest)

abbrev CartReply : CartCommand → Type
  | .hget _ _ => Except CallError (Option String)
  | .hset _ _ _ | .expire _ _ | .hdel _ _ | .del _ => Except CallError Unit
  | .hgetall _ => Except CallError (List (String × String))
  | .hlen _ => Except CallError ℕ
  | .post _ => Except CallError OrderResponse

abbrev CartProgram := Program CartCommand CartReply Response

/-! ## Handlers -/

/-- 24 hours. -/
def cartTTL : ℕ := 86400

def cartKey (userID : String) : String := "cart:" ++ userID

/-- `setCartItem` and what follows it. -/
def setCartItem (key : String) (item : CartItem) (rest : Except CallError Unit → CartProgram) :
    CartProgram :=
  .call (.hset key item.productID (cartItemToJSON item)) fun
    | .error err => rest (.error err)
    | .ok () => .call (.expire key cartTTL) rest

/-- The item to change: `HGET` found nothing (or failed, which leaves the string empty too), or
what is stored, as far as it can be read. -/
def itemToChange (productID : String) (quantity : Int64) (now : String)
    (change : CartItem → CartItem) (existing : Except CallError (Option String)) : CartItem :=
  match existing with
  | .ok (some raw) =>
    if raw = "" then ⟨productID, quantity, now⟩
    else change ((parseCartItem now productID raw).getD .zero)
  | .ok none => ⟨productID, quantity, now⟩
  | .error _ => ⟨productID, quantity, now⟩

def afterSet (message : String) : Except CallError Unit → CartProgram
  | .error _ => .done (errorResponse 500 "failed to update cart")
  | .ok () => .done ⟨200, "ok", message, none⟩

def itemToAdd (req : AddItemRequest) (now : String) (existing : Except CallError (Option String)) :
    CartItem :=
  itemToChange req.productID req.quantity now
    (fun item => { item with quantity := item.quantity + req.quantity }) existing

def addItem (req : AddItemRequest) (now : String) : CartProgram :=
  .call (.hget (cartKey req.userID) req.productID) fun existing =>
    setCartItem (cartKey req.userID) (itemToAdd req now existing) (afterSet "item added to cart")

/-- The check of `handleAddItem`. -/
def AddItemRequest.isValid (req : AddItemRequest) : Bool :=
  req.userID ≠ "" && req.productID ≠ "" && 0 < req.quantity

def handleAddItem (body : Option AddItemRequest) (now : String) : CartProgram :=
  match body with
  | none => .done (errorResponse 400 "invalid request body")
  | some req =>
    if req.isValid then addItem req now
    else
      .done (errorResponse 400 "userId, productId, and a positive quantity are required")

def handleUpdateItem (body : Option UpdateItemRequest) (now : String) : CartProgram :=
  match body with
  | none => .done (errorResponse 400 "invalid request body")
  | some req =>
    if req.userID = "" ∨ req.productID = "" then
      .done (errorResponse 400 "userId and productId are required")
    else if req.quantity < 0 then
      .done (errorResponse 400 "quantity must be zero or positive")
    else if req.quantity = 0 then
      .call (.hdel (cartKey req.userID) req.productID) fun
        | .error _ => .done (errorResponse 500 "failed to remove item")
        | .ok () => .call (.expire (cartKey req.userID) cartTTL) fun _ =>
            .done ⟨200, "ok", "item removed from cart", none⟩
    else
      .call (.hget (cartKey req.userID) req.productID) fun existing =>
        setCartItem (cartKey req.userID)
          (itemToChange req.productID req.quantity now
            (fun item => { item with quantity := req.quantity }) existing)
          (afterSet "item updated")

/-- The loop of `getCartItems`: what cannot be read is skipped. -/
def getCartItems (now : String → String) (items : List (String × String)) : List CartItem :=
  items.filterMap fun (field, raw) => parseCartItem (now field) field raw

/-- `strings.TrimPrefix` -/
def trimPrefix (s start : List Char) : List Char :=
  if start.isPrefixOf s then s.drop start.length else s

/-- `strings.TrimSuffix` -/
def trimSuffix (s finish : List Char) : List Char :=
  if finish.isSuffixOf s then s.take (s.length - finish.length) else s

/-- What stands before the first occurrence of the separator and what stands after it. -/
def cut (separator : List Char) : List Char → Option (List Char × List Char)
  | [] => if separator.isEmpty then some ([], []) else none
  | c :: cs =>
    if separator.isPrefixOf (c :: cs) then some ([], (c :: cs).drop separator.length)
    else (cut separator cs).map fun (before, after) => (c :: before, after)

/-- `path` without `/api/cart/`. -/
def trimmedPath (path : String) : List Char := trimPrefix path.toList "/api/cart/".toList

/-- `extractUserID(path, "/api/cart/")` -/
def extractUserID (path : String) : String :=
  String.ofList ((trimmedPath path).takeWhile fun c => c ≠ '/')

def handleGetCart (path : String) (now : String → String) : CartProgram :=
  let userID := extractUserID path
  if userID = "" then .done (errorResponse 400 "userId is required")
  else
    .call (.hgetall (cartKey userID)) fun
      | .error _ => .done (errorResponse 500 "failed to retrieve cart")
      | .ok items => .done ⟨200, "ok", "", some (.items (getCartItems now items))⟩

def handleDeleteCart (path : String) : CartProgram :=
  let userID := extractUserID path
  if userID = "" then .done (errorResponse 400 "userId is required")
  else
    .call (.del (cartKey userID)) fun
      | .error _ => .done (errorResponse 500 "failed to clear cart")
      | .ok () => .done ⟨200, "ok", "cart cleared", none⟩

/-- `strings.Split(rest, "/items/")` has the two parts user and product. -/
def splitItems (path : String) : Option (String × String) :=
  match cut "/items/".toList (trimmedPath path) with
  | none => none
  | some (user, product) =>
    if user = [] ∨ product = [] ∨ (cut "/items/".toList product).isSome then none
    else some (String.ofList user, String.ofList product)

def handleDeleteItem (path : String) : CartProgram :=
  match splitItems path with
  | none => .done (errorResponse 400 "userId and productId are required")
  | some (userID, productID) =>
    .call (.hdel (cartKey userID) productID) fun
      | .error _ => .done (errorResponse 500 "failed to remove item")
      | .ok () => .call (.expire (cartKey userID) cartTTL) fun _ =>
          .done ⟨200, "ok", "item removed from cart", none⟩

/-- The user of a path that ends in `suffix`; `none` if there is none. -/
def userBefore (finish path : String) : Option String :=
  let userID := trimSuffix (trimmedPath path) finish.toList
  if userID = [] ∨ userID = trimmedPath path then none else some (String.ofList userID)

/-- What follows the `DEL`, which may fail. -/
def checkedOut (body : String) (_cleared : Except CallError Unit) : CartProgram :=
  .done ⟨200, "ok", "checkout successful", some (.order body)⟩

/-- What follows the request to the order service. -/
def afterPost (key : String) : Except CallError OrderResponse → CartProgram
  | .error _ => .done (errorResponse 502 "failed to reach order service")
  | .ok response =>
    match response.body with
    | none => .done (errorResponse 502 "failed to read order service response")
    | some body =>
      if response.statusCode < 200 ∨ 300 ≤ response.statusCode then
        .done (errorResponse response.statusCode "order service returned an error")
      else .call (.del key) (checkedOut body)

/-- What follows the `HGETALL`. -/
def afterGetCart (userID : String) (now : String → String) :
    Except CallError (List (String × String)) → CartProgram
  | .error _ => .done (errorResponse 500 "failed to retrieve cart")
  | .ok items =>
    if getCartItems now items = [] then .done (errorResponse 400 "cart is empty")
    else .call (.post ⟨userID, getCartItems now items⟩) (afterPost (cartKey userID))

def handleCheckout (path : String) (now : String → String) : CartProgram :=
  match userBefore "/checkout" path with
  | none => .done (errorResponse 400 "userId is required")
  | some userID => .call (.hgetall (cartKey userID)) (afterGetCart userID now)

def handleGetItemCount (path : String) : CartProgram :=
  match userBefore "/count" path with
  | none => .done (errorResponse 400 "userId is required")
  | some userID =>
    .call (.hlen (cartKey userID)) fun
      | .error _ => .done (errorResponse 500 "failed to count items")
      | .ok count => .done ⟨200, "ok", "", some (.count count)⟩

def serve : CartRequest → CartProgram
  | .addItem body now => handleAddItem body now
  | .updateItem body now => handleUpdateItem body now
  | .getCart path now => handleGetCart path now
  | .deleteCart path => handleDeleteCart path
  | .deleteItem path => handleDeleteItem path
  | .checkout path now => handleCheckout path now
  | .getItemCount path => handleGetItemCount path

/-! ## The store -/

abbrev Hash := AList fun _ : String => String

structure Cart where
  fields : Hash
  /-- Seconds, as last set; `none` is a key without expiry. -/
  ttl : Option ℕ

structure CartStore where
  carts : String → Cart
  /-- What the order service has accepted, latest first. -/
  orders : List CheckoutRequest

def Cart.missing : Cart where
  fields := ∅
  ttl := none

/-- The fields with their values. -/
def pairs (fields : Hash) : List (String × String) := fields.entries.map fun e => (e.1, e.2)

/-- A key without fields does not exist. -/
def Cart.ofFields (fields : Hash) (ttl : Option ℕ) : Cart :=
  if fields.entries = [] then .missing else ⟨fields, ttl⟩

def CartStore.setCart (s : CartStore) (key : String) (cart : Cart) : CartStore :=
  { s with carts := Function.update s.carts key cart }

/-- The environment's choices: whether the command fails, in which order `range` goes through the
fields, and what the request to the order service comes to, after redirects if there are any. -/
structure Choice where
  fault : Fault
  order : List (String × String)
  response : OrderResponse

/-- The store after a command that takes effect. -/
def cartEffect (s : CartStore) (response : OrderResponse) : CartCommand → CartStore
  | .hget _ _ | .hgetall _ | .hlen _ => s
  | .hset key field value =>
    s.setCart key ⟨(s.carts key).fields.insert field value, (s.carts key).ttl⟩
  | .expire key seconds =>
    s.setCart key (.ofFields (s.carts key).fields (some seconds))
  | .hdel key field =>
    s.setCart key (.ofFields ((s.carts key).fields.erase field) (s.carts key).ttl)
  | .del key => s.setCart key .missing
  | .post order => if response.Places then { s with orders := order :: s.orders } else s

/-- The reply to a command that succeeds; `none` if the chosen order is not one of the fields. -/
def cartReply (s : CartStore) (choice : Choice) : (c : CartCommand) → Option (CartReply c)
  | .hget key field => some (.ok ((s.carts key).fields.lookup field))
  | .hset _ _ _ => some (.ok ())
  | .expire _ _ => some (.ok ())
  | .hgetall key =>
    if choice.order.Perm (pairs (s.carts key).fields) then some (.ok choice.order) else none
  | .hlen key => some (.ok (s.carts key).fields.entries.length)
  | .hdel _ _ => some (.ok ())
  | .del _ => some (.ok ())
  | .post _ => some (.ok choice.response)

/-- The reply to a command that fails. -/
def cartError : (c : CartCommand) → CartReply c
  | .hget _ _ => .error .failed
  | .hset _ _ _ => .error .failed
  | .expire _ _ => .error .failed
  | .hgetall _ => .error .failed
  | .hlen _ => .error .failed
  | .hdel _ _ => .error .failed
  | .del _ => .error .failed
  | .post _ => .error .failed

/-- One command of any replica. -/
def execCart (s : CartStore) (_thread : ℕ) (c : CartCommand) (choice : Choice) :
    Option (CartStore × CartReply c) :=
  match choice.fault with
  | .none => (cartReply s choice c).map fun r => (cartEffect s choice.response c, r)
  | .before => some (s, cartError c)
  | .after => some (cartEffect s choice.response c, cartError c)

abbrev CartThread := Thread CartRequest CartCommand CartReply Response
abbrev CartPool := Pool CartStore CartRequest CartCommand CartReply Response

/-- The carts of `store`, no order yet, and the requests that are going to arrive. -/
def cartPool (carts : String → Cart) (requests : List CartRequest) : CartPool :=
  Pool.init serve ⟨carts, []⟩ requests

abbrev cartStep : CartPool → ℕ × Choice → Option CartPool := Pool.step execCart

def noCarts : String → Cart := fun _ => .missing

/-- A command that succeeds, and an order service that accepts. -/
def healthy : Choice := ⟨.none, [], ⟨.none, 201, some "{}"⟩⟩

end DevopsEcommerce.CartService
