import DevopsEcommerce.ReviewService.StoredReviews
import Mathlib.Data.List.Nodup

/-!
# Only the author changes a review

`update_review` compares the owner of a review that it has read earlier. The comparison still
holds when the update comes through: no stored review changes its id or its owner, an id that has
been stored once is not given to another review, and it belongs to one review at a time
(`only_author_changes`).
-/

open Interleaving Mongo

namespace DevopsEcommerce.ReviewService

/-- The UUID that a create takes. -/
def uuidOf : ReviewRequest → Option String
  | .create _ uuid _ => some uuid
  | .update .. | .delete _ => none

/-- Where a review that is stored after a step of a request comes from. -/
inductive Origin (reviews : List Review) (req : ReviewRequest) (review : Review) : Prop
  | kept (h : review ∈ reviews)
  | created (body : CreateReviewRequest) (uuid now : String)
      (hreq : req = .create body uuid now) (hreview : review = newReview body uuid now)
      (hfresh : ∀ old ∈ reviews, old.id ≠ uuid)
  | updated (old : Review) (body : UpdateReviewRequest) (now : String) (hold : old ∈ reviews)
      (hreq : req = .update old.id body now) (hauthor : body.userId = old.userId)
      (hreview : review = updatedReview old body now)

/-! ## What a command does to the stored reviews -/

/-- `$set` on the first review with the id. -/
def updateReviews (reviewId : String) (body : UpdateReviewRequest) (now : String) :
    List Review → List Review
  | [] => []
  | review :: reviews =>
    if review.id = reviewId then updatedReview review body now :: reviews
    else review :: updateReviews reviewId body now reviews

/-- The program waits for the write of an update. -/
def pendingUpdate : ReviewProgram → Bool
  | .call (.updateOne ..) _ => true
  | _ => false

/-- The effect of a command of a request that goes on from the program `q` to `q'`. -/
inductive Change (req : ReviewRequest) (q q' : ReviewProgram) (reviews : List Review) :
    List Review → Prop
  | sublist {reviews' : List Review} (h : reviews'.Sublist reviews) :
      Change req q q' reviews reviews'
  | created (body : CreateReviewRequest) (uuid now : String) (hreq : req = .create body uuid now)
      (hanswered : q'.answer? ≠ none) :
      Change req q q' reviews (reviews ++ [newReview body uuid now])
  | updated (reviewId : String) (body : UpdateReviewRequest) (now : String)
      (hreq : req = .update reviewId body now) (hpending : pendingUpdate q = true) :
      Change req q q' reviews (updateReviews reviewId body now reviews)

section
variable {reviewId now : String} {body : UpdateReviewRequest} {reviews : List Review}

lemma updateOne_map :
    updateOne (idFilter reviewId) (updateFields body now) (reviews.map reviewToDocument) =
      (updateReviews reviewId body now reviews).map reviewToDocument := by
  induction reviews with
  | nil => rfl
  | cons review reviews ih =>
    rw [List.map_cons, updateOne, updateReviews]
    by_cases hid : review.id = reviewId
    · have hsat : (reviewToDocument review).satisfies (idFilter reviewId) = true :=
        (satisfies_idFilter _ _).mpr (by simp [reviewToDocument, hid])
      rw [if_pos hsat, if_pos hid, List.map_cons, set_reviewToDocument]
    · have hsat : ¬ (reviewToDocument review).satisfies (idFilter reviewId) = true := by
        rw [satisfies_idFilter]
        simpa [reviewToDocument] using hid
      rw [if_neg hsat, if_neg hid, List.map_cons, ih]

lemma map_id_updateReviews :
    (updateReviews reviewId body now reviews).map Review.id = reviews.map Review.id := by
  induction reviews with
  | nil => rfl
  | cons review reviews ih =>
    unfold updateReviews
    split
    · rfl
    · rw [List.map_cons, ih, List.map_cons]

lemma mem_updateReviews {review : Review}
    (h : review ∈ updateReviews reviewId body now reviews) :
    review ∈ reviews ∨
      ∃ old ∈ reviews, old.id = reviewId ∧ review = updatedReview old body now := by
  induction reviews with
  | nil => exact absurd h List.not_mem_nil
  | cons first reviews ih =>
    unfold updateReviews at h
    split at h
    · rename_i hid
      rcases List.mem_cons.mp h with rfl | hrest
      · exact .inr ⟨first, List.mem_cons_self, hid, rfl⟩
      · exact .inl (List.mem_cons_of_mem _ hrest)
    · rcases List.mem_cons.mp h with rfl | hrest
      · exact .inl List.mem_cons_self
      · rcases ih hrest with hold | ⟨old, hold, hid, hreview⟩
        · exact .inl (List.mem_cons_of_mem _ hold)
        · exact .inr ⟨old, List.mem_cons_of_mem _ hold, hid, hreview⟩

end

lemma change_effect {req : ReviewRequest} {cmd : Command} {k : Reply cmd → ReviewProgram}
    (h : ReviewStage req (.call cmd k)) {c : Collection} (hc : ∀ doc ∈ c, WellFormed doc)
    (r : Reply cmd) : Change req (.call cmd k) (k r) (reviewsOf c) (reviewsOf (effect c cmd)) := by
  cases h with
  | checking body uuid now hrating => exact .sublist (.refl _)
  | fetching reviewId body now hrating => exact .sublist (.refl _)
  | rereading reviewId body now => exact .sublist (.refl _)
  | deleting reviewId => exact .sublist ((deleteOne_sublist _ _).filterMap _)
  | inserting body uuid now hrating =>
    have hinsert : reviewsOf (insertOne c (reviewToDocument (newReview body uuid now))) =
        reviewsOf c ++ [newReview body uuid now] := by
      unfold insertOne reviewsOf
      rw [List.filterMap_append]
      exact congrArg _ (reviewsOf_map [newReview body uuid now])
    rw [effect, hinsert]
    exact .created body uuid now rfl (by rcases r with e | _ <;> exact Option.some_ne_none _)
  | updating reviewId body now hrating =>
    have hupdate : reviewsOf (updateOne (idFilter reviewId) (updateFields body now) c) =
        updateReviews reviewId body now (reviewsOf c) := by
      conv_lhs => rw [(eq_map_reviewsOf hc).1, updateOne_map, reviewsOf_map]
    rw [effect, hupdate]
    exact .updated reviewId body now rfl rfl

/-! ## What an ownership check leaves behind -/

/-- A create that has not been answered is going to store a review under the id, if any. -/
def Awaits (p : ReviewPool) (id : String) : Prop :=
  ∃ t ∈ p.threads, t.program.answer? = none ∧ uuidOf t.request = some id

/-- An id is given to one review only, and an update that has passed its check is about the
review of its author. -/
structure Owned (p : ReviewPool) : Prop where
  stores : StoresReviews p
  uuids : (p.threads.filterMap fun t => uuidOf t.request).Nodup
  ids : ((reviewsOf p.store).map Review.id).Nodup
  fresh : ∀ review ∈ reviewsOf p.store, ¬ Awaits p review.id
  checked : ∀ t ∈ p.threads, pendingUpdate t.program = true → ∀ reviewId body now,
    t.request = .update reviewId body now → ¬ Awaits p reviewId ∧
      ∀ review ∈ reviewsOf p.store, review.id = reviewId → review.userId = body.userId

section
variable {p : ReviewPool} {i : ℕ} {t : ReviewThread} {c : Command} {k : Reply c → ReviewProgram}
  {r : Reply c} {store : Collection}

lemma awaits_of_step (ht : p.threads[i]? = some t) (hk : t.program = .call c k) {id : String}
    (h : Awaits { store := store, threads := p.threads.set i (t.receive c r (k r)) } id) :
    Awaits p id := by
  obtain ⟨u, hu, hrunning, huuid⟩ := h
  rcases List.mem_or_eq_of_mem_set hu with hold | rfl
  · exact ⟨u, hold, hrunning, huuid⟩
  · exact ⟨t, List.mem_of_getElem? ht, by rw [hk]; rfl, huuid⟩

lemma change_of_exec (h : StoresReviews p) (ht : p.threads[i]? = some t)
    (hk : t.program = .call c k) {fault : Fault}
    (hexec : exec p.store i c fault = some (store, r)) :
    Change t.request t.program (k r) (reviewsOf p.store) (reviewsOf store) := by
  have hstage := h.1 t (List.mem_of_getElem? ht)
  rw [hk] at hstage ⊢
  rw [exec_store hexec]
  split
  · exact .sublist (.refl _)
  · exact change_effect hstage h.2 r

/-- No two creates take the same UUID. -/
lemma eq_of_uuidOf (h : (p.threads.filterMap fun t => uuidOf t.request).Nodup) {j : ℕ}
    {u : ReviewThread} (ht : p.threads[i]? = some t) (hu : p.threads[j]? = some u) {uuid : String}
    (htuuid : uuidOf t.request = some uuid) (huuuid : uuidOf u.request = some uuid) : i = j := by
  have hpairwise := List.pairwise_filterMap.mp h
  rw [List.pairwise_iff_getElem] at hpairwise
  obtain ⟨hi, rfl⟩ := List.getElem?_eq_some_iff.mp ht
  obtain ⟨hj, rfl⟩ := List.getElem?_eq_some_iff.mp hu
  rcases Nat.lt_trichotomy i j with hlt | heq | hgt
  · exact absurd rfl (hpairwise i j hi hj hlt uuid htuuid uuid huuuid)
  · exact heq
  · exact absurd rfl (hpairwise j i hj hi hgt uuid huuuid uuid htuuid)

/-- Once the create of a UUID is answered, none awaits it. -/
lemma not_awaits_of_answered (h : (p.threads.filterMap fun t => uuidOf t.request).Nodup)
    (ht : p.threads[i]? = some t) {uuid : String} (huuid : uuidOf t.request = some uuid)
    (hanswered : (k r).answer? ≠ none) :
    ¬ Awaits { store := store, threads := p.threads.set i (t.receive c r (k r)) } uuid := by
  rintro ⟨u, hu, hrunning, huuid'⟩
  obtain ⟨j, hj⟩ := List.getElem?_of_mem hu
  rcases getElem?_set_eq_some hj with ⟨-, rfl⟩ | ⟨hne, hold⟩
  · exact hanswered hrunning
  · exact hne (eq_of_uuidOf h ht hold huuid huuid').symm

/-- An update waits for its write only after it has found a review of its author. -/
lemma pendingUpdate_reply {req : ReviewRequest} {fault : Fault}
    (h : ReviewStage req (.call c k)) (hexec : exec p.store i c fault = some (store, r))
    (hpending : pendingUpdate (k r) = true) :
    store = p.store ∧ ∃ reviewId body now doc, req = .update reviewId body now ∧
      findOne p.store (idFilter reviewId) = some doc ∧ doc.getStr "userId" = .ok body.userId := by
  have hreply := exec_reply hexec
  have hstore := exec_store hexec
  cases h with
  | checking body uuid now hrating => rcases r with e | _ | doc <;> cases hpending
  | inserting body uuid now hrating => rcases r with e | _ <;> cases hpending
  | updating reviewId body now hrating => rcases r with e | _ <;> cases hpending
  | rereading reviewId body now =>
    rcases r with e | _ | doc
    · cases hpending
    · cases hpending
    · simp only [afterReread] at hpending
      split at hpending <;> cases hpending
  | deleting reviewId =>
    rcases r with e | n
    · cases hpending
    · simp only [afterDelete] at hpending
      split at hpending <;> cases hpending
  | fetching reviewId body now hrating =>
    rcases r with e | _ | doc
    · cases hpending
    · cases hpending
    · refine ⟨hstore.trans (ite_self _), reviewId, body, now, doc, rfl, ?_, ?_⟩
      · rcases hreply with hok | herror
        · exact (Except.ok.inj hok).symm
        · cases herror
      · simp only [afterFetch] at hpending
        split at hpending
        · cases hpending
        · rename_i ownerId howner
          split at hpending
          · cases hpending
          · rename_i hsame
            rw [howner, not_not.mp hsame]

end

/-! ## Runs -/

lemma pendingUpdate_serve (req : ReviewRequest) : pendingUpdate (serve req) = false := by
  cases req with
  | create body uuid now =>
    rw [serve, createReview]
    split <;> rfl
  | update reviewId body now =>
    rw [serve, updateReview]
    split <;> rfl
  | delete reviewId => rfl

lemma Owned.init {requests : List ReviewRequest} (h : (requests.filterMap uuidOf).Nodup) :
    Owned (reviewPool requests) where
  stores := storesReviews_init requests
  uuids := by
    unfold reviewPool Pool.init
    rw [List.filterMap_map]
    exact h
  ids := List.nodup_nil
  fresh _ hreview := absurd hreview List.not_mem_nil
  checked t ht hpending := by
    obtain ⟨req, -, rfl⟩ := List.mem_map.mp ht
    exact absurd hpending (by rw [pendingUpdate_serve]; exact Bool.false_ne_true)

section
variable {req : ReviewRequest} {q q' : ReviewProgram} {reviews reviews' : List Review}

/-- A review after a change is one from before, with the same id and owner, or a new one. -/
lemma Change.id_owner (h : Change req q q' reviews reviews') {review : Review}
    (hreview : review ∈ reviews') :
    (∃ old ∈ reviews, review.id = old.id ∧ review.userId = old.userId) ∨
      uuidOf req = some review.id ∧ q'.answer? ≠ none := by
  cases h with
  | sublist hsub => exact .inl ⟨review, hsub.subset hreview, rfl, rfl⟩
  | created body uuid now hreq hanswered =>
    rcases List.mem_append.mp hreview with hold | hnew
    · exact .inl ⟨review, hold, rfl, rfl⟩
    · rw [List.mem_singleton.mp hnew, hreq]
      exact .inr ⟨rfl, hanswered⟩
  | updated reviewId body now hreq hpending =>
    rcases mem_updateReviews hreview with hold | ⟨old, hold, -, rfl⟩
    · exact .inl ⟨review, hold, rfl, rfl⟩
    · exact .inl ⟨old, hold, rfl, rfl⟩

lemma Change.nodup_ids (h : Change req q q' reviews reviews') (hids : (reviews.map Review.id).Nodup)
    (hfresh : ∀ review ∈ reviews, uuidOf req ≠ some review.id) :
    (reviews'.map Review.id).Nodup := by
  cases h with
  | sublist hsub => exact hids.sublist (hsub.map _)
  | created body uuid now hreq hanswered =>
    rw [List.map_append, List.nodup_append]
    refine ⟨hids, List.nodup_singleton _, ?_⟩
    rintro id hid _ hnew rfl
    obtain ⟨review, hreview, rfl⟩ := List.mem_map.mp hid
    rw [hreq] at hfresh
    exact hfresh review hreview (congrArg some (List.mem_singleton.mp hnew).symm)
  | updated reviewId body now hreq hpending =>
    rw [map_id_updateReviews]
    exact hids

end

theorem Owned.preserved : Preserved reviewStep Owned := by
  intro p l p' h hstep
  have hstores := storesReviews_preserved p l p' h.stores hstep
  obtain ⟨t, c, k, store, r, ht, hk, hexec, rfl⟩ := Pool.step_eq_some.mp hstep
  have hchange := change_of_exec h.stores ht hk hexec
  have hawaits : ∀ id, ¬ Awaits p id →
      ¬ Awaits { store := store, threads := p.threads.set l.1 (t.receive c r (k r)) } id :=
    fun id hnot hawaits => hnot (awaits_of_step ht hk hawaits)
  have hrunning : ∀ uuid, uuidOf t.request = some uuid → Awaits p uuid := fun uuid huuid =>
    ⟨t, List.mem_of_getElem? ht, by rw [hk]; rfl, huuid⟩
  refine ⟨hstores, ?_, ?_, ?_, ?_⟩
  · have huuids : (p.threads.set l.1 (t.receive c r (k r))).filterMap (fun t => uuidOf t.request) =
        p.threads.filterMap fun t => uuidOf t.request := filterMap_set_of_eq ht rfl
    exact huuids ▸ h.uuids
  · exact hchange.nodup_ids h.ids fun review hreview huuid =>
      h.fresh review hreview (hrunning _ huuid)
  · intro review hreview
    rcases hchange.id_owner hreview with ⟨old, hold, hid, -⟩ | ⟨huuid, hanswered⟩
    · exact hid ▸ hawaits _ (h.fresh old hold)
    · exact not_awaits_of_answered h.uuids ht huuid hanswered
  · intro u hu hpending reviewId body now hreq
    rcases List.mem_or_eq_of_mem_set hu with hold | rfl
    · -- the check of another update stands
      obtain ⟨hnot, howner⟩ := h.checked u hold hpending reviewId body now hreq
      refine ⟨hawaits _ hnot, fun review hreview hid => ?_⟩
      rcases hchange.id_owner hreview with ⟨old, hold, hid', howner'⟩ | ⟨huuid, -⟩
      · exact howner'.trans (howner old hold (hid'.symm.trans hid))
      · exact absurd (hrunning _ (hid ▸ huuid)) hnot
    · -- this update has just made its check
      have hstage := h.stores.1 t (List.mem_of_getElem? ht)
      rw [hk] at hstage
      obtain ⟨rfl, reviewId', body', now', doc, hreq', hdoc, howner⟩ :=
        pendingUpdate_reply hstage hexec hpending
      obtain ⟨rfl, rfl, rfl⟩ := ReviewRequest.update.inj (hreq'.symm.trans hreq)
      obtain ⟨old, rfl, -⟩ := h.stores.2 doc (List.mem_of_find?_eq_some hdoc)
      have hold := (mem_reviewsOf h.stores.2).mpr (List.mem_of_find?_eq_some hdoc)
      have hid : old.id = reviewId' := by
        have hsat : (reviewToDocument old).satisfies (idFilter reviewId') = true :=
          List.find?_some (p := fun d : Document => d.satisfies (idFilter reviewId')) hdoc
        simpa [reviewToDocument] using (satisfies_idFilter _ _).mp hsat
      have hauthor : old.userId = body'.userId := Except.ok.inj howner
      refine ⟨hid ▸ hawaits _ (h.fresh old hold), fun review hreview hsame => ?_⟩
      rw [List.inj_on_of_nodup_map h.ids hreview hold (hsame.trans hid.symm)]
      exact hauthor

/-- Where the reviews after a step come from. -/
lemma Owned.origin {p p' : ReviewPool} {l : ℕ × Fault} (h : Owned p)
    (hstep : reviewStep p l = some p') :
    ∃ t, p.threads[l.1]? = some t ∧ t.program.answer? = none ∧
      ∀ review ∈ reviewsOf p'.store, Origin (reviewsOf p.store) t.request review := by
  obtain ⟨t, c, k, store, r, ht, hk, hexec, rfl⟩ := Pool.step_eq_some.mp hstep
  have hmem := List.mem_of_getElem? ht
  have hchange := change_of_exec h.stores ht hk hexec
  have hrunning : t.program.answer? = none := by rw [hk]; rfl
  refine ⟨t, ht, hrunning, fun review hreview => ?_⟩
  change review ∈ reviewsOf store at hreview
  generalize reviewsOf store = reviews' at hchange hreview
  cases hchange with
  | sublist hsub => exact .kept (hsub.subset hreview)
  | created body uuid now hreq hanswered =>
    rcases List.mem_append.mp hreview with hold | hnew
    · exact .kept hold
    · refine .created body uuid now hreq (List.mem_singleton.mp hnew) fun old hold hid => ?_
      exact h.fresh old hold ⟨t, hmem, hrunning, by rw [hreq, hid]; rfl⟩
  | updated reviewId body now hreq hpending =>
    rcases mem_updateReviews hreview with hold | ⟨old, hold, rfl, hupdated⟩
    · exact .kept hold
    · have howner := (h.checked t hmem hpending old.id body now hreq).2 old hold rfl
      exact .updated old body now hold hreq howner.symm hupdated

/-- The review is what it was, or what an update by its author has made of it. -/
def AuthorsChange (requests : List ReviewRequest) (review review' : Review) : Prop :=
  review' = review ∨ ∃ body now, ReviewRequest.update review.id body now ∈ requests ∧
    body.userId = review.userId ∧ review' = updatedReview review body now

/-- An update by the author follows on another. -/
lemma AuthorsChange.trans_updated {requests : List ReviewRequest} {review old : Review}
    {body : UpdateReviewRequest} {now : String} (h : AuthorsChange requests review old)
    (hmem : ReviewRequest.update old.id body now ∈ requests) (hauthor : body.userId = old.userId) :
    AuthorsChange requests review (updatedReview old body now) := by
  rcases h with rfl | ⟨body', now', -, -, rfl⟩
  · exact .inr ⟨body, now, hmem, hauthor, rfl⟩
  · exact .inr ⟨body, now, hmem, hauthor, rfl⟩

/-- What is stored under the id of a review comes from it, and no create awaits the id. -/
structure Succeeds (requests : List ReviewRequest) (review : Review) (p : ReviewPool) : Prop where
  owned : Owned p
  requests_eq : p.threads.map Thread.request = requests
  not_awaits : ¬ Awaits p review.id
  authors : ∀ review' ∈ reviewsOf p.store, review'.id = review.id →
    AuthorsChange requests review review'

theorem Succeeds.preserved (requests : List ReviewRequest) (review : Review) :
    Preserved reviewStep (Succeeds requests review) := by
  intro p l p' h hstep
  refine ⟨Owned.preserved p l p' h.owned hstep,
    Pool.requests_preserved requests p l p' h.requests_eq hstep, ?_, ?_⟩
  · obtain ⟨t, c, k, store, r, ht, hk, -, rfl⟩ := Pool.step_eq_some.mp hstep
    exact fun hawaits => h.not_awaits (awaits_of_step ht hk hawaits)
  · obtain ⟨t, ht, hrunning, horigin⟩ := h.owned.origin hstep
    have hmem := List.mem_of_getElem? ht
    intro review' hreview' hid
    cases horigin review' hreview' with
    | kept hold => exact h.authors review' hold hid
    | created body uuid now hreq hnew =>
      -- the create would have awaited the id
      refine absurd ⟨t, hmem, hrunning, ?_⟩ h.not_awaits
      rw [hreq, ← hid, hnew]
      rfl
    | updated old body now hold hreq hauthor hupdated =>
      rw [hupdated] at hid ⊢
      refine (h.authors old hold hid).trans_updated ?_ hauthor
      rw [← hreq, ← h.requests_eq]
      exact List.mem_map_of_mem hmem

/-- **Only the author changes a review.** In every interleaving of creates, updates and deletions,
a step keeps each stored review, inserts a review under an id that is not stored, or is the write
of an update by the author. Hence what is stored under one id at two times differs at most by an
update of its author, which leaves the id, the product, the user and the time of creation. -/
theorem only_author_changes {requests : List ReviewRequest} {es : List (ℕ × Fault)}
    {p : ReviewPool} (huuids : (requests.filterMap uuidOf).Nodup)
    (hrun : run reviewStep (reviewPool requests) es = some p) :
    p.store = (reviewsOf p.store).map reviewToDocument ∧
      ((reviewsOf p.store).map Review.id).Nodup ∧
      (∀ l p', reviewStep p l = some p' → ∃ req, requests[l.1]? = some req ∧
        ∀ review ∈ reviewsOf p'.store, Origin (reviewsOf p.store) req review) ∧
      ∀ es' p', run reviewStep p es' = some p' →
        ∀ review ∈ reviewsOf p.store, ∀ review' ∈ reviewsOf p'.store, review'.id = review.id →
          AuthorsChange requests review review' := by
  have h := run_invariant Owned.preserved (Owned.init huuids) hrun
  have hrequests := run_invariant (Pool.requests_preserved requests)
    (Pool.requests_init serve [] requests) hrun
  refine ⟨(eq_map_reviewsOf h.stores.2).1, h.ids, ?_, ?_⟩
  · intro l p' hstep
    obtain ⟨t, ht, -, horigin⟩ := h.origin hstep
    refine ⟨t.request, ?_, horigin⟩
    rw [← hrequests, List.getElem?_map, ht]
    rfl
  · intro es' p' hrun' review hreview
    refine (run_invariant (Succeeds.preserved requests review) ?_ hrun').authors
    refine ⟨h, hrequests, h.fresh review hreview, fun review' hreview' hid => .inl ?_⟩
    exact List.inj_on_of_nodup_map h.ids hreview' hreview hid

/-- An update comes through after its author has updated the review again, and another user's is
refused. -/
theorem only_author_changes_race :
    ∃ p, run reviewStep
        (reviewPool [.create ⟨"p1", "u1", 5, "good"⟩ "r1" "t1", .update "r1" ⟨"u1", 2, "worn"⟩ "t2",
          .update "r1" ⟨"u1", 1, "broken"⟩ "t3", .update "r1" ⟨"u2", 3, "mine"⟩ "t4"])
        [(0, .none), (0, .none), (1, .none), (2, .none), (3, .none), (2, .none), (1, .none)] =
        some p ∧
      reviewsOf p.store = [⟨"r1", "p1", "u1", 2, "worn", "t1", "t2"⟩] ∧
      ((reviewsOf p.store).map Review.id).Nodup := by
  have hrun : (run reviewStep
      (reviewPool [.create ⟨"p1", "u1", 5, "good"⟩ "r1" "t1", .update "r1" ⟨"u1", 2, "worn"⟩ "t2",
        .update "r1" ⟨"u1", 1, "broken"⟩ "t3", .update "r1" ⟨"u2", 3, "mine"⟩ "t4"])
      [(0, .none), (0, .none), (1, .none), (2, .none), (3, .none), (2, .none),
        (1, .none)]).isSome = true := by decide
  exact ⟨_, run_final hrun, by decide +revert,
    (only_author_changes (by decide) (run_final hrun)).2.1⟩

end DevopsEcommerce.ReviewService
