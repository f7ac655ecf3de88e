import Mathlib.Data.Nat.Notation
import Mathlib.Tactic.Basic

/-!
# Redirects in Go's HTTP client

What `http.Client` does without a `CheckRedirect` where a server answers with a redirect: it sends
a request to the `Location`, follows a redirect there too, and so on for ten requests at most. After
307 and 308 the request is sent again, with its body, which a `bytes.Reader` gives out as often as
it is asked. After 301, 302 and 303 a `GET` is sent in place of a `POST`. The caller sees the last
answer only.
-/

namespace Go

inductive Method where
  | get
  | post
deriving DecidableEq

/-- A status that the client follows, if the answer has a `Location`. -/
inductive Redirect where
  | movedPermanently
  | found
  | seeOther
  | temporaryRedirect
  | permanentRedirect
deriving DecidableEq

/-- `redirectBehavior`, as far as the method of the next request is concerned. -/
def redirectMethod (method : Method) : Redirect → Method
  | .movedPermanently | .found | .seeOther => .get
  | .temporaryRedirect | .permanentRedirect => method

/-- The redirects that a call follows, the first one first. `defaultCheckRedirect` stops the client
before its eleventh request. -/
structure Redirects where
  followed : List Redirect
  bounded : followed.length < 10

namespace Redirects

/-- The first answer is the last one. -/
def none : Redirects := ⟨[], by decide⟩

/-- The method of the request that gets the last answer. -/
def lastMethod (redirects : Redirects) (method : Method) : Method :=
  redirects.followed.foldl redirectMethod method

lemma foldl_redirectMethod_get (followed : List Redirect) :
    followed.foldl redirectMethod .get = .get := by
  induction followed with
  | nil => rfl
  | cons r rest ih =>
    have hget : redirectMethod .get r = .get := by cases r <;> rfl
    rw [List.foldl_cons, hget, ih]

/-- A `POST` gets the last answer if and only if no redirect has turned it into a `GET`. -/
lemma lastMethod_post_iff {redirects : Redirects} :
    redirects.lastMethod .post = .post ↔
      ∀ r ∈ redirects.followed, redirectMethod .post r = .post := by
  unfold lastMethod
  induction redirects.followed with
  | nil => exact iff_of_true rfl (List.forall_mem_nil _)
  | cons r rest ih =>
    rw [List.foldl_cons, List.forall_mem_cons]
    cases hmethod : redirectMethod .post r with
    | get =>
      rw [foldl_redirectMethod_get]
      exact iff_of_false (by decide) fun h => absurd h.1 (by decide)
    | post => exact ih.trans (and_iff_right rfl).symm

/-- Once it is a `GET`, it remains one. -/
example : lastMethod ⟨[.temporaryRedirect], by decide⟩ .post = .post ∧
    lastMethod ⟨[.temporaryRedirect, .found, .permanentRedirect], by decide⟩ .post = .get := by
  decide

end Redirects

end Go
