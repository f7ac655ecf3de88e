import Mathlib.Data.List.Nodup
import Mathlib.Data.List.Perm.Basic
import Mathlib.Order.Lattice

/-!
# Pages

A list is read page by page. If every page is a slice of the same list, the pages tile it. If each
page is a slice of a list that is sorted anew, with equal keys in any order, they do so exactly if
no page ends between two elements with the same key (`perm_flatMap_page_iff`).
-/

namespace Pagination

variable {α : Type*}

/-- The elements at the positions from `k * L` up to `(k + 1) * L`. -/
def page (xs : List α) (k L : ℕ) : List α := (xs.drop (k * L)).take L

/-- How many pages begin before the end of the list. -/
def pageCount (n L : ℕ) : ℕ := (n + L - 1) / L

lemma take_add_one_mul (xs : List α) (k L : ℕ) :
    xs.take ((k + 1) * L) = xs.take (k * L) ++ page xs k L := by
  rw [page, Nat.succ_mul, List.take_add]

lemma page_eq_drop_take (xs : List α) (k L : ℕ) :
    page xs k L = (xs.take ((k + 1) * L)).drop (k * L) := by
  rw [List.drop_take, Nat.succ_mul, Nat.add_sub_cancel_left, page]

/-- The first pages are the first elements. -/
theorem flatMap_page (xs : List α) (K L : ℕ) :
    (List.range K).flatMap (fun k => page xs k L) = xs.take (K * L) := by
  induction K with
  | zero => simp
  | succ K ih =>
    rw [List.range_succ, List.flatMap_append, ih, take_add_one_mul]
    simp

lemma le_pageCount_mul {n L : ℕ} (hL : 0 < L) : n ≤ pageCount n L * L := by
  have hmod := Nat.div_add_mod (n + L - 1) L
  have hlt := Nat.mod_lt (n + L - 1) hL
  rw [pageCount, Nat.mul_comm]
  omega

lemma lt_pageCount_iff {n L k : ℕ} (hL : 0 < L) : k < pageCount n L ↔ k * L < n := by
  rw [pageCount, Nat.lt_iff_add_one_le, Nat.le_div_iff_mul_le hL, Nat.succ_mul]
  omega

/-! ## Sorted anew for each page -/

section
variable {κ : Type*} [LinearOrder κ] (key : α → κ)

/-- A sort of the list by the keys. -/
structure SortOf (xs order : List α) : Prop where
  perm : order.Perm xs
  sorted : order.Pairwise fun a b => key a ≤ key b

/-- The position `b` is inside of a class of elements with the same key. -/
def TieAt (xs : List α) (b : ℕ) : Prop :=
  ∃ a ∈ xs, xs.countP (fun x => key x < key a) < b ∧ b < xs.countP fun x => key x ≤ key a

variable {key} {xs order order' : List α} {b : ℕ}

lemma SortOf.tieAt_iff (h : SortOf key xs order) : TieAt key order b ↔ TieAt key xs b := by
  unfold TieAt
  simp only [h.perm.mem_iff, h.perm.countP_eq]

lemma exists_sortOf (key : α → κ) (xs : List α) : ∃ order, SortOf key xs order := by
  refine ⟨xs.mergeSort fun a b => key a ≤ key b, List.mergeSort_perm _ _, ?_⟩
  have htrans : ∀ a b c, decide (key a ≤ key b) = true → decide (key b ≤ key c) = true →
      decide (key a ≤ key c) = true := fun a b c hab hbc =>
    decide_eq_true (le_trans (of_decide_eq_true hab) (of_decide_eq_true hbc))
  have htotal : ∀ a b, (decide (key a ≤ key b) || decide (key b ≤ key a)) = true := fun a b => by
    simpa using le_total (key a) (key b)
  have hsorted := List.pairwise_mergeSort htrans htotal xs
  exact hsorted.imp fun h => of_decide_eq_true h

/-- What stands before the position has few elements below it, what stands after it many. -/
lemma countP_of_append {before after : List α}
    (h : (before ++ after).Pairwise fun a b => key a ≤ key b) :
    (∀ x ∈ before, (before ++ after).countP (fun y => key y < key x) < before.length) ∧
      ∀ x ∈ after, before.length < (before ++ after).countP fun y => key y ≤ key x := by
  obtain ⟨-, -, hle⟩ := List.pairwise_append.mp h
  constructor
  · intro x hx
    rw [List.countP_append]
    have hafter : after.countP (fun y => key y < key x) = 0 :=
      List.countP_eq_zero.mpr fun y hy hlt => absurd (of_decide_eq_true hlt) (hle x hx y hy).not_gt
    have hbefore : before.countP (fun y => key y < key x) ≠ before.length := by
      intro hall
      exact absurd (of_decide_eq_true (List.countP_eq_length.mp hall x hx)) (lt_irrefl _)
    have hbound := List.countP_le_length (p := fun y => decide (key y < key x)) (l := before)
    omega
  · intro x hx
    rw [List.countP_append]
    have hbefore : before.countP (fun y => key y ≤ key x) = before.length :=
      List.countP_eq_length.mpr fun y hy => decide_eq_true (hle y hy x hx)
    have hafter : 0 < after.countP fun y => key y ≤ key x :=
      List.countP_pos_iff.mpr ⟨x, hx, decide_eq_true le_rfl⟩
    omega

/-- Without a tie at the position, which elements stand before it does not depend on the sort. -/
lemma SortOf.take_eq_filter (h : SortOf key xs order) (hb : b ≤ order.length)
    (htie : ¬ TieAt key xs b) :
    order.take b = order.filter fun x => order.countP (fun y => key y ≤ key x) ≤ b := by
  obtain ⟨hbefore, hafter⟩ := countP_of_append (List.take_append_drop b order ▸ h.sorted)
  rw [List.take_append_drop, List.length_take, Nat.min_eq_left hb] at hbefore hafter
  rw [← h.tieAt_iff] at htie
  have htake : (order.take b).filter (fun x => order.countP (fun y => key y ≤ key x) ≤ b) =
      order.take b := by
    refine List.filter_eq_self.mpr fun x hx => decide_eq_true ?_
    by_contra hgt
    exact htie ⟨x, List.mem_of_mem_take hx, hbefore x hx, Nat.lt_of_not_le hgt⟩
  have hdrop : (order.drop b).filter (fun x => order.countP (fun y => key y ≤ key x) ≤ b) = [] := by
    refine List.filter_eq_nil_iff.mpr fun x hx hle => ?_
    exact absurd (of_decide_eq_true hle) (Nat.not_le_of_lt (hafter x hx))
  conv_rhs => rw [← List.take_append_drop b order, List.filter_append]
  rw [List.take_append_drop, htake, hdrop, List.append_nil]

lemma SortOf.take_perm (h : SortOf key xs order) (h' : SortOf key xs order')
    (htie : b < xs.length → ¬ TieAt key xs b) : (order.take b).Perm (order'.take b) := by
  have hperm := h.perm.trans h'.perm.symm
  by_cases hb : b < xs.length
  · rw [h.take_eq_filter (h.perm.length_eq ▸ Nat.le_of_lt hb) (htie hb),
      h'.take_eq_filter (h'.perm.length_eq ▸ Nat.le_of_lt hb) (htie hb)]
    simp only [hperm.countP_eq]
    exact hperm.filter _
  · have hle := Nat.le_of_not_lt hb
    rw [List.take_of_length_le (h.perm.length_eq ▸ hle),
      List.take_of_length_le (h'.perm.length_eq ▸ hle)]
    exact hperm

lemma le_countP_append {p : α → Prop} [DecidablePred p] {before : List α} (after : List α)
    (h : ∀ x ∈ before, p x) : before.length ≤ (before ++ after).countP fun x => p x := by
  rw [List.countP_append, List.countP_eq_length.mpr fun x hx => decide_eq_true (h x hx)]
  exact Nat.le_add_right _ _

lemma countP_append_le {p : α → Prop} [DecidablePred p] (before : List α) {after : List α}
    (h : ∀ x ∈ after, ¬ p x) : ((before ++ after).countP fun x => p x) ≤ before.length := by
  have hafter : after.countP (fun x => p x) = 0 :=
    List.countP_eq_zero.mpr fun x hx hpx => h x hx (of_decide_eq_true hpx)
  rw [List.countP_append, hafter]
  exact List.countP_le_length

omit [LinearOrder κ] in
lemma exists_append_pair (hpos : 0 < b) (hb : b < order.length) :
    ∃ before u v after, order = before ++ u :: v :: after ∧ before.length + 1 = b := by
  have hsplit := List.drop_eq_getElem_cons (Nat.lt_of_le_of_lt (Nat.sub_le b 1) hb)
  rw [Nat.sub_add_cancel hpos, List.drop_eq_getElem_cons hb] at hsplit
  refine ⟨order.take (b - 1), order[b - 1], order[b], order.drop (b + 1), ?_, ?_⟩
  · rw [← hsplit, List.take_append_drop]
  · rw [List.length_take]
    omega

/-- If the position splits a class, another sort exchanges the elements on its two sides. -/
lemma SortOf.exists_exchange (h : SortOf key xs order) (htie : TieAt key xs b) :
    ∃ before u v after, order = before ++ u :: v :: after ∧ before.length + 1 = b ∧
      SortOf key xs (before ++ v :: u :: after) := by
  obtain ⟨a, -, hlow, hhigh⟩ := h.tieAt_iff.mpr htie
  have hlength : b < order.length := Nat.lt_of_lt_of_le hhigh List.countP_le_length
  obtain ⟨before, u, v, after, horder, hbefore⟩ :=
    exists_append_pair (Nat.zero_lt_of_lt hlow) hlength
  have hsorted := h.sorted
  rw [horder] at hsorted hlow hhigh
  have hassoc : before ++ u :: v :: after = (before ++ [u]) ++ v :: after := by simp
  obtain ⟨hsortedBefore, hsortedRest, hle⟩ := List.pairwise_append.mp hsorted
  rw [List.pairwise_cons, List.pairwise_cons] at hsortedRest
  obtain ⟨hu, hv, hsortedAfter⟩ := hsortedRest
  -- both keys are that of the class
  have hau : key a ≤ key u := by
    by_contra hlt
    have hall : ∀ x ∈ before ++ [u], key x < key a := by
      refine List.forall_mem_append.mpr ⟨fun x hx => ?_, fun x hx => ?_⟩
      · exact lt_of_le_of_lt (hle x hx u List.mem_cons_self) (not_le.mp hlt)
      · exact List.mem_singleton.mp hx ▸ not_le.mp hlt
    have hcount := le_countP_append (v :: after) hall
    rw [← hassoc, List.length_append, List.length_singleton] at hcount
    omega
  have hva : key v ≤ key a := by
    by_contra hlt
    have hnone : ∀ x ∈ v :: after, ¬ key x ≤ key a := by
      refine List.forall_mem_cons.mpr ⟨hlt, fun x hx hxa => ?_⟩
      exact hlt (le_trans (hv x hx) hxa)
    have hcount := countP_append_le (before ++ [u]) hnone
    rw [← hassoc, List.length_append, List.length_singleton] at hcount
    omega
  have huv : key u = key v := le_antisymm (hu v List.mem_cons_self) (le_trans hva hau)
  refine ⟨before, u, v, after, horder, hbefore, ?_, ?_⟩
  · refine List.Perm.trans ?_ (horder ▸ h.perm)
    exact (List.Perm.swap u v after).append_left before
  · rw [List.pairwise_append, List.pairwise_cons, List.pairwise_cons]
    refine ⟨hsortedBefore, ⟨?_, fun x hx => hu x (List.mem_cons_of_mem _ hx), hsortedAfter⟩, ?_⟩
    · exact List.forall_mem_cons.mpr ⟨le_of_eq huv.symm, hv⟩
    · intro x hx y hy
      refine hle x hx y ?_
      simp only [List.mem_cons] at hy ⊢
      tauto

/-- Pages of several sorts, one page of each. -/
lemma flatMap_page_perm {orders : ℕ → List α} (hsort : ∀ k, SortOf key xs (orders k)) {L : ℕ}
    (htie : ∀ k, 0 < k → k * L < xs.length → ¬ TieAt key xs (k * L)) (K : ℕ) :
    ((List.range K).flatMap fun k => page (orders k) k L).Perm ((orders 0).take (K * L)) := by
  rw [← flatMap_page]
  refine List.Perm.flatMap_left _ fun k _ => ?_
  have htake : ∀ j, ((orders k).take (j * L)).Perm ((orders 0).take (j * L)) := by
    intro j
    cases j with
    | zero => simp
    | succ j => exact (hsort k).take_perm (hsort 0) (htie (j + 1) (Nat.succ_pos j))
  have hnext := htake (k + 1)
  rw [take_add_one_mul, take_add_one_mul] at hnext
  have hsame : (((orders k).take (k * L)) ++ page (orders 0) k L).Perm
      ((orders 0).take (k * L) ++ page (orders 0) k L) := (htake k).append_right _
  exact (List.perm_append_left_iff _).mp (hnext.trans hsame.symm)

omit [LinearOrder κ] in
/-- Where a page end stands between two elements that are exchanged, the first of them is on the
page before the end and on the page after it. -/
lemma mem_pages_of_exchange {before after : List α} {u v : α} {k L : ℕ} (hk : 0 < k) (hL : 0 < L)
    (hbefore : before.length + 1 = k * L) :
    u ∈ page (before ++ u :: v :: after) (k - 1) L ∧ u ∈ page (before ++ v :: u :: after) k L := by
  constructor
  · have hend : (k - 1 + 1) * L = before.length + 1 := by
      rw [Nat.sub_add_cancel hk, hbefore]
    have hstart : (k - 1) * L ≤ before.length := by
      rw [Nat.succ_mul] at hend
      omega
    have hpage : page (before ++ u :: v :: after) (k - 1) L =
        before.drop ((k - 1) * L) ++ [u] := by
      rw [page_eq_drop_take, hend, List.append_cons, List.take_left' (by simp),
        List.drop_append_of_le_length hstart]
    rw [hpage]
    exact List.mem_append_right _ (List.mem_singleton_self u)
  · have hdrop : (before ++ v :: u :: after).drop (k * L) = u :: after := by
      rw [← hbefore, List.append_cons]
      exact List.drop_left' (by simp)
    rw [page, hdrop]
    obtain ⟨L', rfl⟩ := Nat.exists_eq_succ_of_ne_zero (Nat.ne_of_gt hL)
    exact List.mem_cons_self

/-- The pages that begin before the end contain every element once, whatever sort each of them is
a slice of, exactly if no two elements with the same key stand on two sides of a page end. -/
theorem perm_flatMap_page_iff (hnodup : xs.Nodup) {L : ℕ} (hL : 0 < L) :
    (∀ orders : ℕ → List α, (∀ k, SortOf key xs (orders k)) →
        ((List.range (pageCount xs.length L)).flatMap fun k => page (orders k) k L).Perm xs) ↔
      ∀ k, 0 < k → k * L < xs.length → ¬ TieAt key xs (k * L) := by
  constructor
  · intro h k hk hlt htie
    obtain ⟨order, hsort⟩ := exists_sortOf key xs
    obtain ⟨before, u, v, after, rfl, hbefore, hexchanged⟩ := hsort.exists_exchange htie
    -- the first `k` pages of one sort, the others of the other
    have hpages := h
      (fun j => if j < k then before ++ u :: v :: after else before ++ v :: u :: after) fun j => by
        by_cases hj : j < k
        · rw [if_pos hj]
          exact hsort
        · rw [if_neg hj]
          exact hexchanged
    have hdisjoint := (List.nodup_flatMap.mp (hpages.nodup_iff.mpr hnodup)).2
    rw [List.pairwise_iff_getElem] at hdisjoint
    have hk' : k < pageCount xs.length L := (lt_pageCount_iff hL).mpr hlt
    have hapart := hdisjoint (k - 1) k (by rw [List.length_range]; omega)
      (by rw [List.length_range]; exact hk') (by omega)
    simp only [Function.onFun, List.getElem_range, if_neg (Nat.lt_irrefl k),
      if_pos (Nat.sub_lt hk Nat.one_pos)] at hapart
    -- the element before the page end stands after it in the other sort
    obtain ⟨hfirst, hsecond⟩ := mem_pages_of_exchange hk hL hbefore
    exact hapart hfirst hsecond
  · intro htie orders hsort
    refine (flatMap_page_perm hsort htie _).trans ?_
    rw [List.take_of_length_le]
    · exact (hsort 0).perm
    · rw [(hsort 0).perm.length_eq]
      exact le_pageCount_mul hL

end

end Pagination
