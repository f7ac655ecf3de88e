import DevopsEcommerce.Go.Encoding

/-!
# Cart items and their texts

A cart is a hash from product ids to texts. The service writes JSON; what it reads may also
be a bare quantity, as earlier versions of the service left it.
-/

open Go

namespace DevopsEcommerce.CartService

structure CartItem where
  productID : String
  quantity : Int64
  addedAt : String
deriving DecidableEq

/-- The zero value. -/
def CartItem.zero : CartItem where
  productID := ""
  quantity := 0
  addedAt := ""

def CartItem.toJson (item : CartItem) : Json :=
  .object [("productId", .string item.productID), ("quantity", .number (intLiteral item.quantity)),
    ("addedAt", .string item.addedAt)]

def cartItemToJSON (item : CartItem) : String := marshal item.toJson

/-- What `json.Unmarshal` does with one member. -/
def CartItem.setField (item : CartItem) (name : String) (v : Json) : Option CartItem :=
  if isField name "productId" then
    (decodeString item.productID v).map fun s => { item with productID := s }
  else if isField name "quantity" then
    (decodeInt item.quantity v).map fun n => { item with quantity := n }
  else if isField name "addedAt" then
    (decodeString item.addedAt v).map fun s => { item with addedAt := s }
  else some item

def unmarshalCartItem (raw : String) : Option CartItem :=
  (unmarshal raw).bind (decodeStruct CartItem.setField .zero)

/-- `none` is an error; the callers go on with the zero value then. `now` is the time at which
a bare quantity is read. -/
def parseCartItem (now field raw : String) : Option CartItem :=
  match unmarshalCartItem raw with
  | some item => some item
  | none => (atoi raw.toList).map fun qty => { productID := field, quantity := qty, addedAt := now }

/-- An item is read as it was written, under whatever field. -/
theorem parseCartItem_cartItemToJSON (now field : String) (item : CartItem) :
    parseCartItem now field (cartItemToJSON item) = some item := by
  have hdepth : item.toJson.depth ≤ 10000 := by
    simp [CartItem.toJson, Json.depth, Json.depthMembers]
  have hjson : unmarshal (cartItemToJSON item) = some item.toJson := unmarshal_marshal hdepth
  have hproduct : CartItem.zero.setField "productId" (.string item.productID) =
      some ⟨item.productID, 0, ""⟩ := by
    rw [CartItem.setField, if_pos (by decide)]
    rfl
  have hquantity : CartItem.setField ⟨item.productID, 0, ""⟩
      "quantity" (.number (intLiteral item.quantity)) =
        some ⟨item.productID, item.quantity, ""⟩ := by
    rw [CartItem.setField, if_neg (by decide), if_pos (by decide)]
    show Option.map _ (atoi (itoa item.quantity)) = _
    rw [atoi_itoa]
    rfl
  have haddedAt : CartItem.setField ⟨item.productID, item.quantity, ""⟩
      "addedAt" (.string item.addedAt) = some item := by
    rw [CartItem.setField, if_neg (by decide), if_neg (by decide), if_pos (by decide)]
    rfl
  have hdecode : decodeStruct CartItem.setField .zero item.toJson = some item := by
    unfold CartItem.toJson decodeStruct
    simp only [List.foldlM_cons, List.foldlM_nil, hproduct, hquantity, haddedAt,
      Option.bind_eq_bind, Option.bind_some]
    rfl
  unfold parseCartItem unmarshalCartItem
  rw [hjson, Option.bind_some, hdecode]

/-- The time only goes into bare quantities. -/
lemma parseCartItem_map {α : Type} {f : CartItem → α}
    (hf : ∀ p q t t', f ⟨p, q, t⟩ = f ⟨p, q, t'⟩) (now now' field raw : String) :
    (parseCartItem now field raw).map f = (parseCartItem now' field raw).map f := by
  unfold parseCartItem
  split
  · rfl
  · rw [Option.map_map, Option.map_map]
    congr 1
    funext qty
    exact hf field qty now now'

end DevopsEcommerce.CartService
