import DevopsEcommerce.Js.Utf8
import DevopsEcommerce.Json.Text

/-!
# Percent-encoded texts

`decodeURIComponent`: each `%` is followed by the hexadecimal digits of one byte, and the bytes
are UTF-8.
-/

namespace Js.Uri

open Utf8

/-- What has been read with the byte. -/
def readByte (pending : Option Pending) (b : ℕ) : Option (Char ⊕ Pending) :=
  match pending with
  | none => first b
  | some p => next p b

/-- The text from a place on where a character may be pending. -/
def decodeFrom : Option Pending → List Char → Option (List Char)
  | none, [] => some []
  | some _, [] => none
  | pending, '%' :: a :: b :: text =>
    match Json.hexDigit a, Json.hexDigit b with
    | some high, some low =>
      match readByte pending (16 * high + low) with
      | none => none
      | some (.inl c) => (decodeFrom none text).map fun cs => c :: cs
      | some (.inr p) => decodeFrom (some p) text
    | _, _ => none
  | some _, _ :: _ => none
  | none, c :: text => if c = '%' then none else (decodeFrom none text).map fun cs => c :: cs

/-- `none` is a `URIError`. -/
def decodeURIComponent (text : String) : Option String :=
  (decodeFrom none text.toList).map String.ofList

/-- Other characters stand for themselves. -/
lemma decodeURIComponent_of_forall_ne {text : String} (h : ∀ c ∈ text.toList, c ≠ '%') :
    decodeURIComponent text = some text := by
  have hdecode : ∀ cs : List Char, (∀ c ∈ cs, c ≠ '%') → decodeFrom none cs = some cs := by
    intro cs hcs
    induction cs with
    | nil => rw [decodeFrom]
    | cons c cs ih =>
      have hc := hcs c List.mem_cons_self
      rw [decodeFrom, if_neg hc, ih fun c' hc' => hcs c' (List.mem_cons_of_mem _ hc'),
        Option.map_some]
      intro a b rest hpercent _
      exact hc hpercent
  rw [decodeURIComponent, hdecode _ h, Option.map_some, String.ofList_toList]

example : decodeURIComponent "u%C3%A9" = some "ué" := by decide

example : decodeURIComponent "%C3" = none := by decide

end Js.Uri
