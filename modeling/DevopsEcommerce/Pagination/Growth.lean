import Mathlib.Data.List.Perm.Subperm
import DevopsEcommerce.Pagination.Pages

/-!
# Pages of a growing list

A list is read page by page, and elements are inserted between the reads, at any place of its
order. Insertions push elements to later pages only. So a reader who goes from the first page on
passes over none, if the last page reaches the end (`exists_mem_page_of_growth`), and otherwise only
over those behind it (`mem_drop_of_unseen`).
-/

namespace Pagination

/-- A position that never goes back, and that is on none of the pages that are read in turn, is
behind each of them. -/
theorem le_of_monotone {position : ℕ → ℕ} {L K : ℕ}
    (hmono : ∀ k < K, position k ≤ position (k + 1))
    (hunseen : ∀ k ≤ K, k * L ≤ position k → ¬ position k < (k + 1) * L) :
    ∀ k ≤ K, (k + 1) * L ≤ position k := by
  intro k hk
  induction k with
  | zero => exact Nat.le_of_not_lt (hunseen 0 hk (by simp))
  | succ k ih =>
    have hbehind := (ih (Nat.le_of_succ_le hk)).trans (hmono k hk)
    exact Nat.le_of_not_lt (hunseen (k + 1) hk hbehind)

variable {α : Type*}

lemma mem_of_mem_page {xs : List α} {k L : ℕ} {x : α} (h : x ∈ page xs k L) : x ∈ xs :=
  List.mem_of_mem_drop (List.mem_of_mem_take h)

lemma mem_page_of_getElem? {xs : List α} {i k L : ℕ} {x : α} (hx : xs[i]? = some x)
    (hge : k * L ≤ i) (hlt : i < (k + 1) * L) : x ∈ page xs k L := by
  refine List.mem_of_getElem? (i := i - k * L) ?_
  rw [Nat.succ_mul] at hlt
  rw [page, List.getElem?_take_of_lt (by omega), List.getElem?_drop, Nat.add_sub_cancel' hge, hx]

lemma mem_drop_of_getElem? {xs : List α} {i n : ℕ} {x : α} (hx : xs[i]? = some x) (hge : n ≤ i) :
    x ∈ xs.drop n := by
  refine List.mem_of_getElem? (i := i - n) ?_
  rw [List.getElem?_drop, Nat.add_sub_cancel' hge, hx]

/-- What relates each moment to the next one relates it to all later ones. -/
lemma rel_of_le {β : Type*} {r : β → β → Prop} (hrefl : ∀ b, r b b)
    (htrans : ∀ {a b c}, r a b → r b c → r a c) {moments : ℕ → β} {n : ℕ}
    (hstep : ∀ k < n, r (moments k) (moments (k + 1))) {j k : ℕ} (hjk : j ≤ k) (hk : k ≤ n) :
    r (moments j) (moments k) := by
  induction hjk with
  | refl => exact hrefl _
  | step _ ih => exact htrans (ih (Nat.le_of_succ_le hk)) (hstep _ hk)

variable {κ : Type*} {key : α → κ} [LinearOrder κ]

/-- Where all keys differ, an element stands at the position that counts the smaller keys. -/
lemma SortOf.getElem?_countP {xs order : List α} (h : SortOf key xs order)
    (hdistinct : (xs.map key).Nodup) {x : α} (hx : x ∈ xs) :
    order[(xs.map key).countP fun c => c < key x]? = some x := by
  obtain ⟨before, after, horder⟩ := List.append_of_mem (h.perm.mem_iff.mpr hx)
  have hperm := (h.perm.map key).symm
  rw [hperm.countP_eq, horder]
  have hnodup := hperm.nodup hdistinct
  have hsorted := h.sorted
  rw [horder, List.map_append, List.map_cons, List.nodup_append] at hnodup
  rw [horder, List.pairwise_append, List.pairwise_cons] at hsorted
  have hbefore : (before.map key).countP (fun c => c < key x) = before.length := by
    rw [← List.length_map (f := key), List.countP_eq_length]
    intro c hc
    obtain ⟨y, hy, rfl⟩ := List.mem_map.mp hc
    have hne := hnodup.2.2 (key y) hc (key x) List.mem_cons_self
    exact decide_eq_true (lt_of_le_of_ne (hsorted.2.2 y hy x List.mem_cons_self) hne)
  have hafter : (key x :: after.map key).countP (fun c => c < key x) = 0 := by
    rw [List.countP_eq_zero]
    intro c hc hlt
    rcases List.mem_cons.mp hc with rfl | hc
    · exact lt_irrefl _ (of_decide_eq_true hlt)
    · obtain ⟨y, hy, rfl⟩ := List.mem_map.mp hc
      exact (hsorted.2.1.1 y hy).not_gt (of_decide_eq_true hlt)
  rw [List.map_append, List.map_cons, List.countP_append, hbefore, hafter]
  simp

/-- The elements of a page are before those that are behind it. -/
lemma SortOf.le_of_page {xs order : List α} (h : SortOf key xs order) {k L : ℕ} {y z : α}
    (hy : y ∈ page order k L) (hz : z ∈ order.drop ((k + 1) * L)) : key y ≤ key z := by
  have hsorted := h.sorted
  rw [← List.take_append_drop ((k + 1) * L) order, List.pairwise_append] at hsorted
  rw [page_eq_drop_take] at hy
  exact hsorted.2.2 y (List.mem_of_mem_drop hy) z hz

/-! ## Reading a list that grows -/

section
variable {xs orders : ℕ → List α} {L K : ℕ}

/-- Page `k` is read from a sort of `xs k`, and the keys only get more. Then a key that is there at
first and that no page shows stands behind every page that has been read. -/
theorem mem_drop_of_unseen (hsort : ∀ k ≤ K, SortOf key (xs k) (orders k))
    (hgrowth : ∀ k < K, ((xs k).map key).Subperm ((xs (k + 1)).map key))
    (hdistinct : ((xs K).map key).Nodup) {c : κ} (hc : c ∈ (xs 0).map key)
    (hunseen : ∀ k ≤ K, c ∉ (page (orders k) k L).map key) {k : ℕ} (hk : k ≤ K) :
    c ∈ ((orders k).drop ((k + 1) * L)).map key := by
  have hsubperm : ∀ {j k : ℕ}, j ≤ k → k ≤ K → ((xs j).map key).Subperm ((xs k).map key) :=
    rel_of_le (r := fun xs ys : List α => (xs.map key).Subperm (ys.map key))
      (fun _ => List.Subperm.refl _) List.Subperm.trans hgrowth
  have hat : ∀ k ≤ K, ∃ y, key y = c ∧
      (orders k)[((xs k).map key).countP fun d => d < c]? = some y := by
    intro k hk
    obtain ⟨keys, hperm, hsublist⟩ := hsubperm hk (Nat.le_refl K)
    have hnodup := hperm.nodup_iff.mp (hdistinct.sublist hsublist)
    obtain ⟨y, hy, rfl⟩ := List.mem_map.mp ((hsubperm (Nat.zero_le k) hk).subset hc)
    exact ⟨y, rfl, (hsort k hk).getElem?_countP hnodup hy⟩
  have hbehind := le_of_monotone (L := L)
    (fun k hk => (hgrowth k hk).countP_le fun d => decide (d < c)) fun k hk hge hlt => by
      obtain ⟨y, hkey, hy⟩ := hat k hk
      exact hunseen k hk (hkey ▸ List.mem_map_of_mem (mem_page_of_getElem? hy hge hlt))
  obtain ⟨y, hkey, hy⟩ := hat k hk
  exact List.mem_map.mpr ⟨y, mem_drop_of_getElem? hy (hbehind k hk), hkey⟩

/-- No element of the start is passed over, if the last page that is read reaches the end. -/
theorem exists_mem_page_of_growth (hsort : ∀ k ≤ K, SortOf key (xs k) (orders k))
    (hgrowth : ∀ k < K, ((xs k).map key).Subperm ((xs (k + 1)).map key))
    (hdistinct : ((xs K).map key).Nodup) (hend : (xs K).length ≤ (K + 1) * L) {x : α}
    (hx : x ∈ xs 0) : ∃ k ≤ K, ∃ y ∈ page (orders k) k L, key y = key x := by
  by_contra hunseen
  have hdrop := mem_drop_of_unseen hsort hgrowth hdistinct (List.mem_map_of_mem hx)
    (fun k hk hmem => hunseen ⟨k, hk, List.mem_map.mp hmem⟩) (Nat.le_refl K)
  rw [← (hsort K (Nat.le_refl K)).perm.length_eq] at hend
  rw [List.drop_eq_nil_of_le hend] at hdrop
  exact List.not_mem_nil hdrop

/-- If it does not, then it passes over no more elements than there are behind it. -/
theorem length_unseen_le (hsort : ∀ k ≤ K, SortOf key (xs k) (orders k))
    (hgrowth : ∀ k < K, ((xs k).map key).Subperm ((xs (k + 1)).map key))
    (hdistinct : ((xs K).map key).Nodup) {unseen : List κ} (hnodup : unseen.Nodup)
    (hstart : unseen ⊆ (xs 0).map key)
    (hunseen : ∀ c ∈ unseen, ∀ k ≤ K, c ∉ (page (orders k) k L).map key) :
    unseen.length ≤ (xs K).length - (K + 1) * L := by
  have hsubset : unseen ⊆ ((orders K).drop ((K + 1) * L)).map key := fun c hc =>
    mem_drop_of_unseen hsort hgrowth hdistinct (hstart hc) (hunseen c hc) (Nat.le_refl K)
  have hlength := (hnodup.subperm hsubset).length_le
  rw [List.length_map, List.length_drop, (hsort K (Nat.le_refl K)).perm.length_eq] at hlength
  exact hlength

end

end Pagination
