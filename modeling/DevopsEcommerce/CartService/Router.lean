import DevopsEcommerce.CartService.Paths

/-!
# The router of the cart service

`cartRouter` tries overlapping tests of the path in order, and each handler takes the path apart
once more. `Grammar` lists the paths that the service offers, with the ids in them. The router
follows it but for the kinds of paths in `Misrouted` (`cartRouter_follows_iff`).
-/

open Interleaving

namespace DevopsEcommerce.CartService

/-! ## The router -/

/-- A request as the router gets it. The body is given as the two handlers that read it decode it,
and the clock as it is read for the items of a cart and by these two. -/
structure HttpRequest where
  method : String
  path : String
  addBody : Option AddItemRequest
  updateBody : Option UpdateItemRequest
  now : String
  clock : String → String

def cartRouter (r : HttpRequest) : CartProgram :=
  if r.path = "/api/cart" ∧ r.method = "POST" then handleAddItem r.addBody r.now
  else if r.path = "/api/cart/items" ∧ r.method = "PUT" then handleUpdateItem r.updateBody r.now
  else if hasSuffix r.path "/checkout" ∧ hasPrefix r.path "/api/cart/" ∧ r.method = "POST" then
    handleCheckout r.path r.clock
  else if hasSuffix r.path "/count" ∧ hasPrefix r.path "/api/cart/" ∧ r.method = "GET" then
    handleGetItemCount r.path
  else if contains r.path "/items/" ∧ hasPrefix r.path "/api/cart/" ∧ r.method = "DELETE" then
    handleDeleteItem r.path
  else if hasPrefix r.path "/api/cart/" ∧ r.method = "GET" then handleGetCart r.path r.clock
  else if hasPrefix r.path "/api/cart/" ∧ r.method = "DELETE" then handleDeleteCart r.path
  else .done (errorResponse 404 "not found")

/-! ## The grammar -/

/-- What the service offers, with the ids of the user and the product. -/
inductive Route where
  | add
  | update
  | checkout (user : String)
  | count (user : String)
  | remove (user product : String)
  | list (user : String)
  | clear (user : String)

/-- An id that can stand in a path. -/
def IsSegment (id : String) : Prop := id ≠ "" ∧ '/' ∉ id.toList

inductive Grammar : String → String → Route → Prop
  | add : Grammar "POST" "/api/cart" .add
  | update : Grammar "PUT" "/api/cart/items" .update
  | checkout {u : String} (hu : IsSegment u) :
      Grammar "POST" ("/api/cart/" ++ u ++ "/checkout") (.checkout u)
  | count {u : String} (hu : IsSegment u) :
      Grammar "GET" ("/api/cart/" ++ u ++ "/count") (.count u)
  | remove {u p : String} (hu : IsSegment u) (hp : IsSegment p) :
      Grammar "DELETE" ("/api/cart/" ++ u ++ "/items/" ++ p) (.remove u p)
  | list {u : String} (hu : IsSegment u) : Grammar "GET" ("/api/cart/" ++ u) (.list u)
  | clear {u : String} (hu : IsSegment u) : Grammar "DELETE" ("/api/cart/" ++ u) (.clear u)

def countItems (user : String) : CartProgram :=
  .call (.hlen (cartKey user)) fun
    | .error _ => .done (errorResponse 500 "failed to count items")
    | .ok count => .done ⟨200, "ok", "", some (.count count)⟩

def removeItem (user product : String) : CartProgram :=
  .call (.hdel (cartKey user) product) fun
    | .error _ => .done (errorResponse 500 "failed to remove item")
    | .ok () => .call (.expire (cartKey user) cartTTL) fun _ =>
        .done ⟨200, "ok", "item removed from cart", none⟩

def listCart (user : String) (clock : String → String) : CartProgram :=
  .call (.hgetall (cartKey user)) fun
    | .error _ => .done (errorResponse 500 "failed to retrieve cart")
    | .ok items => .done ⟨200, "ok", "", some (.items (getCartItems clock items))⟩

def clearCart (user : String) : CartProgram :=
  .call (.del (cartKey user)) fun
    | .error _ => .done (errorResponse 500 "failed to clear cart")
    | .ok () => .done ⟨200, "ok", "cart cleared", none⟩

/-- What is to be done for a route, with exactly its ids. -/
def Route.program (r : HttpRequest) : Route → CartProgram
  | .add => handleAddItem r.addBody r.now
  | .update => handleUpdateItem r.updateBody r.now
  | .checkout user => .call (.hgetall (cartKey user)) (afterGetCart user r.clock)
  | .count user => countItems user
  | .remove user product => removeItem user product
  | .list user => listCart user r.clock
  | .clear user => clearCart user

/-- The request is refused with a code between 400 and 499, without any command. -/
def Refused (q : CartProgram) : Prop :=
  ∃ answer, q = .done answer ∧ 400 ≤ answer.code ∧ answer.code < 500

/-- The router does what the grammar says, and refuses what is not in it. -/
def FollowsGrammar (r : HttpRequest) : Prop :=
  (∀ route, Grammar r.method r.path route → cartRouter r = route.program r) ∧
    ((∀ route, ¬ Grammar r.method r.path route) → Refused (cartRouter r))

/-- The requests that are routed otherwise: the cart of a user called `count` cannot be listed,
and paths with other segments than the service offers are taken for the one or the other. -/
inductive Misrouted : String → String → Prop
  | keyword : Misrouted "GET" "/api/cart/count"
  | checkout {w : String} (hw : '/' ∈ w.toList) :
      Misrouted "POST" ("/api/cart/" ++ w ++ "/checkout")
  | count {w : String} (hw : '/' ∈ w.toList) : Misrouted "GET" ("/api/cart/" ++ w ++ "/count")
  /-- `/items/` stands between `u` and `p` and nowhere else, but one of them has a slash. -/
  | remove {u p : String} (hu : u ≠ "") (hp : p ≠ "")
      (hfirst : contains (u ++ "/items") "/items/" = false)
      (honly : contains p "/items/" = false) (hslash : '/' ∈ u.toList ∨ '/' ∈ p.toList) :
      Misrouted "DELETE" ("/api/cart/" ++ u ++ "/items/" ++ p)
  | list {u tail : String} (hu : IsSegment u)
      (hcount : hasSuffix ("/api/cart/" ++ u ++ "/" ++ tail) "/count" = false) :
      Misrouted "GET" ("/api/cart/" ++ u ++ "/" ++ tail)
  | clear {u tail : String} (hu : IsSegment u)
      (hitems : contains ("/api/cart/" ++ u ++ "/" ++ tail) "/items/" = false) :
      Misrouted "DELETE" ("/api/cart/" ++ u ++ "/" ++ tail)

/-! ## The router by methods -/

section
variable {r : HttpRequest} {u p w tail : String}

lemma cartRouter_get (hm : r.method = "GET") (hstarts : hasPrefix r.path "/api/cart/" = true) :
    cartRouter r = if hasSuffix r.path "/count" then handleGetItemCount r.path
      else handleGetCart r.path r.clock := by
  simp [cartRouter, hm, hstarts]

lemma cartRouter_delete (hm : r.method = "DELETE")
    (hstarts : hasPrefix r.path "/api/cart/" = true) :
    cartRouter r = if contains r.path "/items/" then handleDeleteItem r.path
      else handleDeleteCart r.path := by
  simp [cartRouter, hm, hstarts]

lemma cartRouter_post (hm : r.method = "POST") :
    cartRouter r = if r.path = "/api/cart" then handleAddItem r.addBody r.now
      else if hasSuffix r.path "/checkout" ∧ hasPrefix r.path "/api/cart/" then
        handleCheckout r.path r.clock
      else .done (errorResponse 404 "not found") := by
  simp [cartRouter, hm]

lemma cartRouter_put (hm : r.method = "PUT") :
    cartRouter r = if r.path = "/api/cart/items" then handleUpdateItem r.updateBody r.now
      else .done (errorResponse 404 "not found") := by
  simp [cartRouter, hm]

/-- A path that is not under `/api/cart/` can only be the one to add to. -/
lemma cartRouter_of_not_hasPrefix (hstarts : hasPrefix r.path "/api/cart/" = false)
    (hadd : ¬ (r.path = "/api/cart" ∧ r.method = "POST"))
    (hupdate : ¬ (r.path = "/api/cart/items" ∧ r.method = "PUT")) :
    cartRouter r = .done (errorResponse 404 "not found") := by
  simp [cartRouter, hstarts, hadd, hupdate]

lemma cartRouter_of_method (hget : r.method ≠ "GET") (hdelete : r.method ≠ "DELETE")
    (hpost : r.method ≠ "POST") (hput : r.method ≠ "PUT") :
    cartRouter r = .done (errorResponse 404 "not found") := by
  simp [cartRouter, hget, hdelete, hpost, hput]

/-! ## What is done for which path -/

lemma cartRouter_checkout (hm : r.method = "POST") (hw : w ≠ "")
    (hpath : r.path = "/api/cart/" ++ w ++ "/checkout") :
    cartRouter r = (Route.checkout w).program r := by
  have hstarts : hasPrefix r.path "/api/cart/" = true := by
    rw [hpath, String.append_assoc]
    exact hasPrefix_append _
  have hsuffix : hasSuffix r.path "/checkout" = true := by
    rw [hpath]
    exact hasSuffix_append _ _
  have hne : r.path ≠ "/api/cart" := by
    intro h
    rw [h] at hstarts
    exact absurd hstarts (by decide)
  rw [cartRouter_post hm, if_neg hne, if_pos ⟨hsuffix, hstarts⟩]
  unfold handleCheckout
  rw [hpath, userBefore_append hw (by decide)]
  rfl

lemma cartRouter_count (hm : r.method = "GET") (hw : w ≠ "")
    (hpath : r.path = "/api/cart/" ++ w ++ "/count") :
    cartRouter r = (Route.count w).program r := by
  have hstarts : hasPrefix r.path "/api/cart/" = true := by
    rw [hpath, String.append_assoc]
    exact hasPrefix_append _
  have hsuffix : hasSuffix r.path "/count" = true := by
    rw [hpath]
    exact hasSuffix_append _ _
  rw [cartRouter_get hm hstarts, if_pos hsuffix]
  unfold handleGetItemCount
  rw [hpath, userBefore_append hw (by decide)]
  rfl

lemma cartRouter_remove (hm : r.method = "DELETE") (hu : u ≠ "") (hp : p ≠ "")
    (hfirst : contains (u ++ "/items") "/items/" = false)
    (honly : contains p "/items/" = false)
    (hpath : r.path = "/api/cart/" ++ u ++ "/items/" ++ p) :
    cartRouter r = (Route.remove u p).program r := by
  have hstarts : hasPrefix r.path "/api/cart/" = true := by
    rw [hpath, String.append_assoc, String.append_assoc]
    exact hasPrefix_append _
  have hcontains : contains r.path "/items/" = true := by
    rw [hpath]
    unfold contains
    rw [isSome_cut_iff, String.toList_append, String.toList_append]
    exact ⟨_, _, rfl⟩
  rw [cartRouter_delete hm hstarts, if_pos hcontains]
  unfold handleDeleteItem
  rw [hpath, splitItems_append hu hp hfirst honly]
  rfl

lemma cartRouter_list (hm : r.method = "GET") (hstarts : hasPrefix r.path "/api/cart/" = true)
    (hcount : hasSuffix r.path "/count" = false) (hu : extractUserID r.path ≠ "") :
    cartRouter r = (Route.list (extractUserID r.path)).program r := by
  rw [cartRouter_get hm hstarts, if_neg (by simp [hcount])]
  unfold handleGetCart
  simp only [if_neg hu]
  rfl

lemma cartRouter_clear (hm : r.method = "DELETE")
    (hstarts : hasPrefix r.path "/api/cart/" = true)
    (hitems : contains r.path "/items/" = false) (hu : extractUserID r.path ≠ "") :
    cartRouter r = (Route.clear (extractUserID r.path)).program r := by
  rw [cartRouter_delete hm hstarts, if_neg (by simp [hitems])]
  unfold handleDeleteCart
  simp only [if_neg hu]
  rfl

/-! ## The grammar, forwards -/

/-- The router does what the grammar says, except for the user called `count`. -/
lemma cartRouter_of_grammar {route : Route} (h : Grammar r.method r.path route)
    (hkeyword : ¬ (r.method = "GET" ∧ r.path = "/api/cart/count")) :
    cartRouter r = route.program r := by
  generalize hm : r.method = method at h hkeyword
  generalize hpath : r.path = path at h hkeyword
  cases h with
  | add => rw [cartRouter_post hm, if_pos hpath]; rfl
  | update => rw [cartRouter_put hm, if_pos hpath]; rfl
  | checkout hu => exact cartRouter_checkout hm hu.1 hpath
  | count hu => exact cartRouter_count hm hu.1 hpath
  | @remove u p hu hp =>
    -- the ids have no slashes, so that `/items/` stands between them only
    have hfirst : contains (u ++ "/items") "/items/" = false := by
      apply contains_items_of_count
      rw [String.toList_append, List.count_append, List.count_eq_zero.mpr hu.2]
      decide
    have honly : contains p "/items/" = false := by
      apply contains_items_of_count
      rw [List.count_eq_zero.mpr hp.2]
      decide
    exact cartRouter_remove hm hu.1 hp.1 hfirst honly hpath
  | @list u hu =>
    have hcount : hasSuffix r.path "/count" = false := by
      rw [hpath, ← Bool.not_eq_true]
      intro hsuffix
      obtain rfl := eq_count_of_hasSuffix hu.2 hsuffix
      exact hkeyword ⟨rfl, rfl⟩
    have huser : extractUserID r.path = u := by
      rw [hpath]
      exact extractUserID_segment hu.2
    have hlist := cartRouter_list hm (hpath ▸ hasPrefix_append u) hcount (huser ▸ hu.1)
    rw [huser] at hlist
    exact hlist
  | @clear u hu =>
    have hitems : contains r.path "/items/" = false := by
      rw [hpath]
      exact contains_items_segment hu.2
    have huser : extractUserID r.path = u := by
      rw [hpath]
      exact extractUserID_segment hu.2
    have hclear := cartRouter_clear hm (hpath ▸ hasPrefix_append u) hitems (huser ▸ hu.1)
    rw [huser] at hclear
    exact hclear

/-! ## The grammar, backwards -/

lemma refused_error {code : ℕ} (hcode : 400 ≤ code ∧ code < 500) (message : String) :
    Refused (.done (errorResponse code message)) := ⟨_, rfl, hcode⟩

lemma refused_get (hm : r.method = "GET") (hstarts : hasPrefix r.path "/api/cart/" = true)
    (hgrammar : ∀ route, ¬ Grammar r.method r.path route) (h : ¬ Misrouted r.method r.path) :
    Refused (cartRouter r) := by
  rw [cartRouter_get hm hstarts]
  rw [hm] at hgrammar h
  split <;> rename_i hcount
  · unfold handleGetItemCount
    split
    · exact refused_error (by decide) _
    · rename_i w hw
      have hpath := eq_append_of_userBefore hstarts hw
      rw [hpath] at hgrammar h
      by_cases hslash : '/' ∈ w.toList
      · exact absurd (.count hslash) h
      · exact absurd (.count ⟨ne_empty_of_userBefore hw, hslash⟩) (hgrammar _)
  · unfold handleGetCart
    simp only
    split
    · exact refused_error (by decide) _
    · rename_i hu
      obtain ⟨hslash, hpath | ⟨tail, hpath⟩⟩ := eq_append_of_extractUserID hstarts
      · rw [hpath] at hgrammar
        exact absurd (.list ⟨hu, hslash⟩) (hgrammar _)
      · rw [Bool.not_eq_true] at hcount
        rw [hpath] at h hcount
        exact absurd (.list ⟨hu, hslash⟩ hcount) h

lemma refused_delete (hm : r.method = "DELETE") (hstarts : hasPrefix r.path "/api/cart/" = true)
    (hgrammar : ∀ route, ¬ Grammar r.method r.path route) (h : ¬ Misrouted r.method r.path) :
    Refused (cartRouter r) := by
  rw [cartRouter_delete hm hstarts]
  rw [hm] at hgrammar h
  split <;> rename_i hitems
  · unfold handleDeleteItem
    split
    · exact refused_error (by decide) _
    · rename_i u p hsplit
      obtain ⟨hu, hp, hfirst, honly, hpath⟩ := eq_append_of_splitItems hstarts hsplit
      rw [hpath] at hgrammar h
      by_cases hslash : '/' ∈ u.toList ∨ '/' ∈ p.toList
      · exact absurd (.remove hu hp hfirst honly hslash) h
      · rw [not_or] at hslash
        exact absurd (.remove ⟨hu, hslash.1⟩ ⟨hp, hslash.2⟩) (hgrammar _)
  · unfold handleDeleteCart
    simp only
    split
    · exact refused_error (by decide) _
    · rename_i hu
      obtain ⟨hslash, hpath | ⟨tail, hpath⟩⟩ := eq_append_of_extractUserID hstarts
      · rw [hpath] at hgrammar
        exact absurd (.clear ⟨hu, hslash⟩) (hgrammar _)
      · rw [Bool.not_eq_true] at hitems
        rw [hpath] at h hitems
        exact absurd (.clear ⟨hu, hslash⟩ hitems) h

lemma refused_post (hm : r.method = "POST")
    (hgrammar : ∀ route, ¬ Grammar r.method r.path route) (h : ¬ Misrouted r.method r.path) :
    Refused (cartRouter r) := by
  rw [cartRouter_post hm]
  rw [hm] at hgrammar h
  split
  · rename_i hadd
    rw [hadd] at hgrammar
    exact absurd .add (hgrammar _)
  split
  · rename_i hcheckout
    unfold handleCheckout
    split
    · exact refused_error (by decide) _
    · rename_i w hw
      have hpath := eq_append_of_userBefore hcheckout.2 hw
      rw [hpath] at hgrammar h
      by_cases hslash : '/' ∈ w.toList
      · exact absurd (.checkout hslash) h
      · exact absurd (.checkout ⟨ne_empty_of_userBefore hw, hslash⟩) (hgrammar _)
  · exact refused_error (by decide) _

/-- What is neither in the grammar nor misrouted is refused. -/
lemma refused_of_not_grammar (hgrammar : ∀ route, ¬ Grammar r.method r.path route)
    (h : ¬ Misrouted r.method r.path) : Refused (cartRouter r) := by
  by_cases hpost : r.method = "POST"
  · exact refused_post hpost hgrammar h
  by_cases hput : r.method = "PUT"
  · rw [cartRouter_put hput]
    split
    · rename_i hpath
      rw [hput, hpath] at hgrammar
      exact absurd .update (hgrammar _)
    · exact refused_error (by decide) _
  by_cases hstarts : hasPrefix r.path "/api/cart/" = true
  · by_cases hget : r.method = "GET"
    · exact refused_get hget hstarts hgrammar h
    by_cases hdelete : r.method = "DELETE"
    · exact refused_delete hdelete hstarts hgrammar h
    · rw [cartRouter_of_method hget hdelete hpost hput]
      exact refused_error (by decide) _
  · rw [Bool.not_eq_true] at hstarts
    rw [cartRouter_of_not_hasPrefix hstarts (fun hadd => hpost hadd.2)
      fun hupdate => hput hupdate.2]
    exact refused_error (by decide) _

/-! ## The misrouted requests -/

lemma not_refused_call {c : CartCommand} {k : CartReply c → CartProgram} :
    ¬ Refused (.call c k) := by
  rintro ⟨answer, hanswer, -⟩
  cases hanswer

lemma count_slash_append (u tail : String) :
    (u ++ tail).toList.count '/' = u.toList.count '/' + tail.toList.count '/' := by
  rw [String.toList_append, List.count_append]

lemma count_slash_segment {u : String} (hu : IsSegment u) : u.toList.count '/' = 0 :=
  List.count_eq_zero.mpr hu.2

/-- How many slashes the paths of a method have. -/
lemma Grammar.count_slash {method path : String} {route : Route} (h : Grammar method path route) :
    (method = "POST" → path.toList.count '/' ≤ 4) ∧
    (method = "GET" → path.toList.count '/' = 3 ∨
      path.toList.count '/' = 4 ∧ hasSuffix path "/count" = true) ∧
    (method = "DELETE" → path.toList.count '/' = 3 ∨
      path.toList.count '/' = 5 ∧ contains path "/items/" = true) := by
  have hroot : "/api/cart/".toList.count '/' = 3 := by decide
  cases h with
  | add => decide
  | update => decide
  | checkout hu =>
    have hlast : "/checkout".toList.count '/' = 1 := by decide
    refine ⟨fun _ => ?_, fun h => absurd h (by decide), fun h => absurd h (by decide)⟩
    rw [count_slash_append, count_slash_append, count_slash_segment hu]
    omega
  | count hu =>
    have hlast : "/count".toList.count '/' = 1 := by decide
    refine ⟨fun h => absurd h (by decide), fun _ => .inr ⟨?_, hasSuffix_append _ _⟩,
      fun h => absurd h (by decide)⟩
    rw [count_slash_append, count_slash_append, count_slash_segment hu]
    omega
  | remove hu hp =>
    have hitems : "/items/".toList.count '/' = 2 := by decide
    refine ⟨fun h => absurd h (by decide), fun h => absurd h (by decide), fun _ => .inr ⟨?_, ?_⟩⟩
    · rw [count_slash_append, count_slash_append, count_slash_append, count_slash_segment hu,
        count_slash_segment hp]
      omega
    · unfold contains
      rw [isSome_cut_iff, String.toList_append, String.toList_append]
      exact ⟨_, _, rfl⟩
  | list hu =>
    refine ⟨fun h => absurd h (by decide), fun _ => .inl ?_, fun h => absurd h (by decide)⟩
    rw [count_slash_append, count_slash_segment hu]
    omega
  | clear hu =>
    refine ⟨fun h => absurd h (by decide), fun h => absurd h (by decide), fun _ => .inl ?_⟩
    rw [count_slash_append, count_slash_segment hu]
    omega

/-- What is misrouted, but for the one user, is not in the grammar. -/
lemma not_grammar_of_misrouted {method path : String} (h : Misrouted method path)
    (hkeyword : ¬ (method = "GET" ∧ path = "/api/cart/count")) (route : Route) :
    ¬ Grammar method path route := by
  intro hgrammar
  obtain ⟨hpost, hget, hdelete⟩ := hgrammar.count_slash
  have hroot : "/api/cart/".toList.count '/' = 3 := by decide
  -- every kind has a slash too many, or lacks the word that the longer paths contain
  cases h with
  | keyword => exact hkeyword ⟨rfl, rfl⟩
  | @checkout w hw =>
    have hlast : "/checkout".toList.count '/' = 1 := by decide
    have hpos := List.count_pos_iff.mpr hw
    have hcount := hpost rfl
    rw [count_slash_append, count_slash_append] at hcount
    omega
  | @count w hw =>
    have hlast : "/count".toList.count '/' = 1 := by decide
    have hpos := List.count_pos_iff.mpr hw
    have hcount := hget rfl
    rw [count_slash_append, count_slash_append] at hcount
    omega
  | @remove u p hu hp hfirst honly hslash =>
    have hitems : "/items/".toList.count '/' = 2 := by decide
    have hpos : 0 < u.toList.count '/' + p.toList.count '/' := by
      rcases hslash with hslash | hslash
      · exact Nat.add_pos_left (List.count_pos_iff.mpr hslash) _
      · exact Nat.add_pos_right _ (List.count_pos_iff.mpr hslash)
    have hcount := hdelete rfl
    rw [count_slash_append, count_slash_append, count_slash_append] at hcount
    omega
  | @list u tail hu hcount =>
    have hslash : "/".toList.count '/' = 1 := by decide
    rcases hget rfl with hslashes | ⟨-, hsuffix⟩
    · rw [count_slash_append, count_slash_append, count_slash_append] at hslashes
      omega
    · rw [hcount] at hsuffix
      cases hsuffix
  | @clear u tail hu hitems =>
    have hslash : "/".toList.count '/' = 1 := by decide
    rcases hdelete rfl with hslashes | ⟨-, hcontains⟩
    · rw [count_slash_append, count_slash_append, count_slash_append] at hslashes
      omega
    · rw [hitems] at hcontains
      cases hcontains

/-- What is misrouted issues a command. -/
lemma not_refused_of_misrouted (h : Misrouted r.method r.path)
    (hkeyword : ¬ (r.method = "GET" ∧ r.path = "/api/cart/count")) : ¬ Refused (cartRouter r) := by
  generalize hm : r.method = method at h hkeyword
  generalize hpath : r.path = path at h hkeyword
  cases h with
  | keyword => exact absurd ⟨rfl, rfl⟩ hkeyword
  | @checkout w hw =>
    have hne : w ≠ "" := by
      rintro rfl
      exact absurd hw (by decide)
    rw [cartRouter_checkout hm hne hpath]
    exact not_refused_call
  | @count w hw =>
    have hne : w ≠ "" := by
      rintro rfl
      exact absurd hw (by decide)
    rw [cartRouter_count hm hne hpath]
    exact not_refused_call
  | remove hu hp hfirst honly hslash =>
    rw [cartRouter_remove hm hu hp hfirst honly hpath]
    exact not_refused_call
  | @list u tail hu hcount =>
    have huser : extractUserID r.path = u := by
      rw [hpath]
      exact extractUserID_append hu.2 tail
    have hstarts : hasPrefix r.path "/api/cart/" = true := by
      rw [hpath, String.append_assoc, String.append_assoc]
      exact hasPrefix_append _
    rw [cartRouter_list hm hstarts (hpath ▸ hcount) (huser ▸ hu.1)]
    exact not_refused_call
  | @clear u tail hu hitems =>
    have huser : extractUserID r.path = u := by
      rw [hpath]
      exact extractUserID_append hu.2 tail
    have hstarts : hasPrefix r.path "/api/cart/" = true := by
      rw [hpath, String.append_assoc, String.append_assoc]
      exact hasPrefix_append _
    rw [cartRouter_clear hm hstarts (hpath ▸ hitems) (huser ▸ hu.1)]
    exact not_refused_call

/-- The cart of a user called `count` is not listed. -/
lemma not_followsGrammar_keyword (hm : r.method = "GET") (hpath : r.path = "/api/cart/count") :
    ¬ FollowsGrammar r := by
  intro h
  have hgrammar : Grammar r.method r.path (.list "count") := by
    rw [hm, hpath]
    exact .list (u := "count") ⟨by decide, by decide⟩
  have hstarts : hasPrefix r.path "/api/cart/" = true := by
    rw [hpath]
    decide
  have hsuffix : hasSuffix r.path "/count" = true := by
    rw [hpath]
    decide
  have hlist := h.1 _ hgrammar
  rw [cartRouter_get hm hstarts, if_pos hsuffix, hpath] at hlist
  have hnone : userBefore "/count" "/api/cart/count" = none := by decide
  unfold handleGetItemCount at hlist
  rw [hnone] at hlist
  cases hlist

/-- **The routes.** For every method and path, the router does exactly what the grammar offers,
with the ids in the path, and refuses everything else without a command, if and only if the
request is not one of the misrouted kinds. -/
theorem cartRouter_follows_iff (r : HttpRequest) :
    FollowsGrammar r ↔ ¬ Misrouted r.method r.path := by
  constructor
  · intro h hmisrouted
    by_cases hkeyword : r.method = "GET" ∧ r.path = "/api/cart/count"
    · exact not_followsGrammar_keyword hkeyword.1 hkeyword.2 h
    · exact not_refused_of_misrouted hmisrouted hkeyword
        (h.2 (not_grammar_of_misrouted hmisrouted hkeyword))
  · intro h
    refine ⟨fun route hgrammar => cartRouter_of_grammar hgrammar ?_,
      fun hgrammar => refused_of_not_grammar hgrammar h⟩
    rintro ⟨hm, hpath⟩
    rw [hm, hpath] at h
    exact h .keyword

end

/-- **A cart is cleared on the way.** `DELETE /api/cart/u/items` is no route of the service, and
deletes the whole cart of `u`. -/
theorem delete_clears_cart : ¬ ∀ r : HttpRequest, FollowsGrammar r := by
  intro h
  let r : HttpRequest := ⟨"DELETE", "/api/cart/u/items", none, none, "t", fun _ => "t"⟩
  have hmisrouted : Misrouted r.method ("/api/cart/" ++ "u" ++ "/" ++ "items") :=
    .clear ⟨by decide, by decide⟩ (by decide)
  have hkeyword : ¬ (r.method = "GET" ∧ r.path = "/api/cart/count") := by decide
  exact not_refused_of_misrouted hmisrouted hkeyword
    ((h r).2 (not_grammar_of_misrouted hmisrouted hkeyword))

end DevopsEcommerce.CartService
