import DevopsEcommerce.ReviewService.Handlers
import Mathlib.Algebra.Order.Group.Multiset

/-!
# One review per user and product

The duplicate check of `create_review` is a `find_one` followed by a separate
`insert_one`, over a collection without a unique index. `review_unique_iff` says in which
interleavings the collection keeps one review per pair: those in which every insert still
finds what its check found, for instance those in which no two creates of one pair are
between check and insert at the same time. `review_duplicated` is a run of the other kind.
-/

open Interleaving Mongo

namespace DevopsEcommerce.ReviewService

/-- The product and the user of a stored review. -/
def pairOf (d : Document) : Option Bson × Option Bson := (d.get? "productId", d.get? "userId")

/-- No two stored reviews are of one product by one user. -/
def OnePerPair (p : ReviewPool) : Prop := (p.store.map pairOf).Nodup

/-- The review a request is about to insert. -/
def pendingInsert : ReviewProgram → Option Document
  | .call (.insertOne d) _ => some d
  | _ => none

/-- The pair a request is about to check. -/
def pendingCheck (t : ReviewThread) : Option (Option Bson × Option Bson) :=
  match t.request, t.program with
  | .create body _ _, .call (.findOne _) _ =>
    some (some (.string body.productId), some (.string body.userId))
  | _, _ => none

/-- If the label executes an insert, the check before it would still find nothing. -/
def CheckHolds (p : ReviewPool) (l : ℕ × Fault) : Prop :=
  ∀ t ∈ p.threads[l.1]?, ∀ d ∈ pendingInsert t.program, l.2 ≠ .before →
    pairOf d ∉ p.store.map pairOf

/-- If the label executes the check of a create, no create of the same pair is between
its check and its insert. -/
def CheckedAlone (p : ReviewPool) (l : ℕ × Fault) : Prop :=
  ∀ t ∈ p.threads[l.1]?, ∀ pair ∈ pendingCheck t,
    ∀ u ∈ p.threads, ∀ d ∈ pendingInsert u.program, pairOf d ≠ pair

instance (p : ReviewPool) : Decidable (OnePerPair p) :=
  inferInstanceAs (Decidable (List.Nodup _))

instance (p : ReviewPool) (l : ℕ × Fault) : Decidable (CheckHolds p l) :=
  inferInstanceAs (Decidable (∀ t ∈ p.threads[l.1]?, ∀ d ∈ pendingInsert t.program, _ → _))

instance (p : ReviewPool) (l : ℕ × Fault) : Decidable (CheckedAlone p l) :=
  inferInstanceAs (Decidable (∀ t ∈ p.threads[l.1]?, ∀ pair ∈ pendingCheck t,
    ∀ u ∈ p.threads, ∀ d ∈ pendingInsert u.program, pairOf d ≠ pair))

/-! ## Pairs -/

/-- An update does not touch the pair. -/
lemma pairOf_set_updateFields (body : UpdateReviewRequest) (now : String) (d : Document) :
    pairOf (d.set (updateFields body now)) = pairOf d := by
  rw [pairOf, Document.get?_set_of_not_mem (by simp [updateFields]),
    Document.get?_set_of_not_mem (by simp [updateFields]), pairOf]

lemma satisfies_pairFilter (productId userId : String) (d : Document) :
    d.satisfies (pairFilter productId userId) = true ↔
      pairOf d = (some (.string productId), some (.string userId)) := by
  simp [Document.satisfies, pairFilter, pairOf]

/-- The check of a create finds nothing exactly when its pair is not stored. -/
lemma findOne_pairFilter_eq_none {c : Collection} {productId userId : String} :
    findOne c (pairFilter productId userId) = none ↔
      (some (.string productId), some (.string userId)) ∉ c.map pairOf := by
  rw [findOne_eq_none, List.mem_map, not_exists]
  refine forall_congr' fun d => ?_
  rw [← Bool.not_eq_true, satisfies_pairFilter, not_and]

/-! ## One step -/

lemma nodup_insert_iff {c : Collection} {d : Document} (h : (c.map pairOf).Nodup) :
    ((insertOne c d).map pairOf).Nodup ↔ pairOf d ∉ c.map pairOf := by
  rw [insertOne, List.map_append, List.map_singleton, List.nodup_append]
  constructor
  · rintro ⟨-, -, hne⟩ hmem
    exact hne _ hmem _ (List.mem_singleton.mpr rfl) rfl
  · intro hnew
    refine ⟨h, List.nodup_singleton _, ?_⟩
    rintro x hx y hy rfl
    exact hnew (List.mem_singleton.mp hy ▸ hx)

lemma checkHolds_iff {p : ReviewPool} {i : ℕ} {fault : Fault} {t : ReviewThread}
    (ht : p.threads[i]? = some t) :
    CheckHolds p (i, fault) ↔ ∀ d ∈ pendingInsert t.program, fault ≠ .before →
      pairOf d ∉ p.store.map pairOf := by
  simp [CheckHolds, ht]

/-- A step keeps one review per pair exactly when it is not an insert whose check no
longer holds. -/
lemma onePerPair_step_iff {p p' : ReviewPool} {l : ℕ × Fault} (hstages : InStages p)
    (huniq : OnePerPair p) (hstep : reviewStep p l = some p') :
    OnePerPair p' ↔ CheckHolds p l := by
  obtain ⟨i, fault⟩ := l
  obtain ⟨⟨req, trace, q⟩, c, k, store, r, ht, hk, hexec, rfl⟩ := Pool.step_eq_some.mp hstep
  have hstage := hstages _ (List.mem_of_getElem? ht)
  have hstore := exec_store hexec
  simp only at hk hstage hstore
  subst hk
  rw [checkHolds_iff ht, OnePerPair, hstore]
  by_cases hfault : fault = .before
  · rw [if_pos hfault]
    exact iff_of_true huniq fun d _ h => absurd hfault h
  · rw [if_neg hfault]
    -- only an insert can add a pair
    cases hstage with
    | checking body uuid now => exact iff_of_true huniq (by simp [pendingInsert])
    | fetching reviewId body now => exact iff_of_true huniq (by simp [pendingInsert])
    | rereading reviewId body now => exact iff_of_true huniq (by simp [pendingInsert])
    | inserting body uuid now =>
      rw [effect, nodup_insert_iff huniq]
      simp [pendingInsert, hfault]
    | updating reviewId body now =>
      refine iff_of_true ?_ (by simp [pendingInsert])
      rw [effect, map_updateOne (pairOf_set_updateFields body now)]
      exact huniq
    | deleting reviewId =>
      refine iff_of_true ?_ (by simp [pendingInsert])
      exact List.Nodup.sublist ((deleteOne_sublist _ _).map pairOf) huniq

/-! ## Exclusive checks -/

/-- The pair a request has checked and is about to insert. -/
def claimedPair (t : ReviewThread) : Multiset (Option Bson × Option Bson) :=
  (pendingInsert t.program).elim 0 fun d => {pairOf d}

lemma claimedPair_answered {t : ReviewThread} (h : pendingInsert t.program = none) :
    claimedPair t = 0 := by
  rw [claimedPair, h, Option.elim_none]

/-- The pairs of the stored reviews. -/
def storedPairs (c : Collection) : Multiset (Option Bson × Option Bson) := (c.map pairOf : List _)

/-- The pairs about to be inserted and the stored ones are all different. -/
def ClaimsApart (p : ReviewPool) : Prop :=
  ((p.threads.map claimedPair).sum + storedPairs p.store).Nodup

lemma mem_sum_claimedPair {ts : List ReviewThread} {pair : Option Bson × Option Bson} :
    pair ∈ (ts.map claimedPair).sum ↔
      ∃ u ∈ ts, ∃ d ∈ pendingInsert u.program, pairOf d = pair := by
  induction ts with
  | nil => simp
  | cons t ts ih =>
    rw [List.map_cons, List.sum_cons, Multiset.mem_add, ih]
    cases h : pendingInsert t.program <;> simp [claimedPair, h, eq_comm]

/-- Only a create claims a pair. -/
lemma pendingInsert_eq_none {req : ReviewRequest} {q : ReviewProgram} (h : ReviewStage req q)
    (hreq : ∀ body uuid now, req ≠ .create body uuid now) : pendingInsert q = none := by
  cases h with
  | inserting body uuid now => exact absurd rfl (hreq body uuid now)
  | _ => rfl

/-- A step after which no more pairs are claimed or stored keeps them apart. -/
lemma claimsApart_of_le {p : ReviewPool} {i : ℕ} {t t' : ReviewThread} {store : Collection}
    (hapart : ClaimsApart p) (ht : p.threads[i]? = some t)
    (hle : storedPairs store + claimedPair t' ≤ storedPairs p.store + claimedPair t) :
    ClaimsApart { store := store, threads := p.threads.set i t' } := by
  refine Multiset.nodup_of_le ?_ hapart
  have hsum := sum_map_set ht claimedPair t'
  refine le_of_add_le_add_right (a := claimedPair t) ?_
  simp only
  rw [add_right_comm, hsum, add_assoc, add_assoc, add_comm (claimedPair t')]
  exact add_le_add_right hle _

/-- A pair that is neither stored nor claimed can be claimed. -/
lemma claimsApart_claim {p : ReviewPool} {i : ℕ} {t t' : ReviewThread}
    {pair : Option Bson × Option Bson} (hapart : ClaimsApart p) (ht : p.threads[i]? = some t)
    (hold : claimedPair t = 0) (hnew : claimedPair t' = {pair})
    (hother : pair ∉ (p.threads.map claimedPair).sum) (hstored : pair ∉ p.store.map pairOf) :
    ClaimsApart { store := p.store, threads := p.threads.set i t' } := by
  have hsum := sum_map_set ht claimedPair t'
  rw [hold, hnew, add_zero] at hsum
  rw [ClaimsApart, hsum, add_right_comm, add_comm _ ({pair} : Multiset _),
    Multiset.singleton_add, Multiset.nodup_cons, Multiset.mem_add, not_or]
  exact ⟨⟨hother, hstored⟩, hapart⟩

/-- An insert turns a claimed pair into a stored one. -/
lemma storedPairs_insertOne (c : Collection) (d : Document) :
    storedPairs (insertOne c d) = storedPairs c + {pairOf d} := by
  rw [storedPairs, insertOne, List.map_append, ← Multiset.coe_add]
  rfl

/-- Updates and deletions add no pair to the collection. -/
lemma pairs_effect_le {req : ReviewRequest} {c : Command} {k : Reply c → ReviewProgram}
    (h : ReviewStage req (.call c k)) (hreq : ∀ body uuid now, req ≠ .create body uuid now)
    (reviews : Collection) :
    storedPairs (effect reviews c) ≤ storedPairs reviews := by
  cases h with
  | checking body uuid now => exact absurd rfl (hreq body uuid now)
  | inserting body uuid now => exact absurd rfl (hreq body uuid now)
  | fetching reviewId body now => exact le_refl _
  | rereading reviewId body now => exact le_refl _
  | updating reviewId body now =>
    rw [effect, storedPairs, map_updateOne (pairOf_set_updateFields body now), storedPairs]
  | deleting reviewId =>
    exact Multiset.coe_le.mpr ((deleteOne_sublist _ _).map pairOf).subperm

/-- Claims stay apart if every check is made alone. -/
lemma claimsApart_step {p p' : ReviewPool} {l : ℕ × Fault} (hstages : InStages p)
    (hapart : ClaimsApart p) (halone : CheckedAlone p l) (hstep : reviewStep p l = some p') :
    ClaimsApart p' := by
  obtain ⟨i, fault⟩ := l
  obtain ⟨⟨req, trace, q⟩, c, k, store, r, ht, hk, hexec, rfl⟩ := Pool.step_eq_some.mp hstep
  have hstage := hstages _ (List.mem_of_getElem? ht)
  have hstore := exec_store hexec
  simp only at hk hstage hstore hexec
  subst hk
  by_cases hreq : ∀ body uuid now, req ≠ .create body uuid now
  · -- updates and deletions claim nothing
    refine claimsApart_of_le hapart ht ?_
    have hnone := pendingInsert_eq_none (reviewStage_reply hstage r) hreq
    rw [claimedPair_answered hnone, add_zero, hstore]
    refine le_trans ?_ (Multiset.le_add_right _ _)
    split
    · exact le_refl _
    · exact pairs_effect_le hstage hreq _
  · cases hstage with
    | checking body uuid now h =>
      have hsame : store = p.store := by rw [hstore]; split <;> rfl
      subst hsame
      rcases r with e | _ | doc
      · -- a check that fails claims nothing
        exact claimsApart_of_le hapart ht (le_refl _)
      · -- the check found nothing, and nobody else claims the pair
        have hfound : findOne p.store (pairFilter body.productId body.userId) = none := by
          rcases exec_reply hexec with h | h
          · exact (Except.ok.inj h).symm
          · exact absurd h (by simp [errorReply])
        have hnew := findOne_pairFilter_eq_none.mp hfound
        have hother : (some (.string body.productId), some (.string body.userId)) ∉
            (p.threads.map claimedPair).sum := by
          rw [mem_sum_claimedPair]
          rintro ⟨u, hu, d, hd, hpair⟩
          exact halone _ ht _ rfl u hu d hd hpair
        exact claimsApart_claim hapart ht rfl rfl hother hnew
      · exact claimsApart_of_le hapart ht (le_refl _)
    | inserting body uuid now h =>
      -- the claimed pair becomes a stored one, or is dropped
      refine claimsApart_of_le hapart ht ?_
      rw [claimedPair_answered (by rcases r with e | _ <;> rfl), add_zero, hstore]
      split
      · exact Multiset.le_add_right _ _
      · exact (storedPairs_insertOne _ _).le
    | _ => exact absurd (fun _ _ _ => ReviewRequest.noConfusion) hreq

/-! ## Runs -/

lemma onePerPair_of_claimsApart {p : ReviewPool} (h : ClaimsApart p) : OnePerPair p :=
  Multiset.coe_nodup.mp (Multiset.nodup_of_le (Multiset.le_add_left _ _) h)

/-- No request starts with an insert. -/
lemma pendingInsert_serve (req : ReviewRequest) : pendingInsert (serve req) = none := by
  cases req with
  | create body uuid now =>
    rw [serve, createReview]
    split <;> rfl
  | update reviewId body now =>
    rw [serve, updateReview]
    split <;> rfl
  | delete reviewId => rfl

lemma claimsApart_init (requests : List ReviewRequest) : ClaimsApart (reviewPool requests) := by
  have hzero : ((reviewPool requests).threads.map claimedPair).sum = 0 := by
    rw [reviewPool, Pool.init, List.map_map]
    refine List.sum_eq_zero fun claimed hclaimed => ?_
    obtain ⟨req, -, rfl⟩ := List.mem_map.mp hclaimed
    exact claimedPair_answered (pendingInsert_serve req)
  rw [ClaimsApart, hzero]
  exact Multiset.nodup_zero

/-- **One review per user and product.** In an interleaving of creates, updates and
deletions from an empty collection, every state has at most one review of each pair if
and only if every insert that takes effect finds its pair still absent, as its check did.
That is the case when no check is made while another create of the pair is between its
check and its insert. -/
theorem review_unique_iff (requests : List ReviewRequest) (es : List (ℕ × Fault))
    (p : ReviewPool) (hrun : run reviewStep (reviewPool requests) es = some p) :
    (Throughout reviewStep OnePerPair (reviewPool requests) es ↔
      StepsMeet reviewStep CheckHolds (reviewPool requests) es) ∧
    (StepsMeet reviewStep CheckedAlone (reviewPool requests) es →
      Throughout reviewStep OnePerPair (reviewPool requests) es) := by
  constructor
  · have hunique₀ := onePerPair_of_claimsApart (claimsApart_init requests)
    refine throughout_iff_stepsMeet inStages_preserved ?_ (inStages_init requests) hunique₀
      (stepsMeet_true _ _) hrun
    intro s e s' hstages huniq _ hstep
    exact onePerPair_step_iff hstages huniq hstep
  · intro halone
    have hapart : Throughout reviewStep (fun p => InStages p ∧ ClaimsApart p)
        (reviewPool requests) es := by
      refine throughout_of_stepsMeet ?_ ⟨inStages_init requests, claimsApart_init requests⟩ halone
      intro s e s' h hC hstep
      exact ⟨inStages_preserved s e s' h.1 hstep, claimsApart_step h.1 h.2 hC hstep⟩
    exact hapart.mono fun _ h => onePerPair_of_claimsApart h.2

/-- A user reviews two products and another user one of them, one after the other. -/
theorem review_unique_iff_serial :
    OnePerPair (final reviewStep
      (reviewPool [.create ⟨"p1", "u1", 5, "good"⟩ "r1" "t1",
        .create ⟨"p2", "u1", 4, "fine"⟩ "r2" "t2", .create ⟨"p1", "u2", 1, "bad"⟩ "r3" "t3"])
      [(0, .none), (0, .none), (1, .none), (1, .none), (2, .none), (2, .none)]
      (by decide)) :=
  ((review_unique_iff _ _ _ (run_final (by decide))).2 (by decide)).last (run_final _)

/-- **A duplicated review.** A form sent twice: both creates find no review of the pair,
and both insert one. -/
theorem review_duplicated :
    ¬ ∀ (requests : List ReviewRequest) (es : List (ℕ × Fault)) (p : ReviewPool),
      run reviewStep (reviewPool requests) es = some p →
        Throughout reviewStep OnePerPair (reviewPool requests) es := by
  intro h
  have hunique := h [.create ⟨"p1", "u1", 5, "good"⟩ "r1" "t1",
    .create ⟨"p1", "u1", 5, "good"⟩ "r2" "t2"]
    [(0, .none), (1, .none), (0, .none), (1, .none)] _ (run_final (by decide))
  exact absurd (hunique.last (run_final (by decide))) (by decide)

end DevopsEcommerce.ReviewService
