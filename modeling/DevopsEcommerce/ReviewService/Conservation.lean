import DevopsEcommerce.ReviewService.StoredReviews

/-!
# Every review is accounted for

Creations, updates and deletions in any interleaving, with any failures: what was created and
acknowledged is stored or has been deleted, and what is stored or was deleted has been created.
Where no acknowledgement is lost, the three numbers add up (`reviews_accounted`).
-/

open Interleaving Mongo

namespace DevopsEcommerce.ReviewService

/-- The request creates the review with this id. -/
def creates (id : String) : ReviewRequest → Bool
  | .create _ uuid _ => uuid = id
  | _ => false

/-- The request deletes it. -/
def deletes (id : String) : ReviewRequest → Bool
  | .delete reviewId => reviewId = id
  | _ => false

/-- The request has been answered with one of the codes. -/
def answeredWith (codes : List ℕ) (q : ReviewProgram) : Bool :=
  q.answer?.any fun answer => answer.status ∈ codes

/-- How many requests of a kind have been answered with one of the codes. -/
def answers (kind : ReviewRequest → Bool) (codes : List ℕ) (p : ReviewPool) : ℕ :=
  p.threads.countP fun t => kind t.request && answeredWith codes t.program

/-- How many documents have an id. -/
def storedUnder (c : Collection) (id : String) : ℕ := c.countP (·.satisfies (idFilter id))

/-- The reply of the step is not lost on the way. -/
def ReplyArrives (_p : ReviewPool) (l : ℕ × Fault) : Prop := l.2 ≠ .after

instance (p : ReviewPool) (l : ℕ × Fault) : Decidable (ReplyArrives p l) :=
  inferInstanceAs (Decidable (l.2 ≠ .after))

/-! ## Commands -/

lemma storedUnder_insertOne (c : Collection) (review : Review) (id : String) :
    storedUnder (insertOne c (reviewToDocument review)) id =
      storedUnder c id + if review.id = id then 1 else 0 := by
  have hid : (reviewToDocument review).satisfies (idFilter id) = decide (review.id = id) := by
    simp [Document.satisfies, idFilter, reviewToDocument]
  unfold storedUnder insertOne
  rw [List.countP_append, List.countP_singleton, hid]
  simp

lemma storedUnder_updateOne (c : Collection) (body : UpdateReviewRequest) (now : String)
    (filter : Document) (id : String) :
    storedUnder (updateOne filter (updateFields body now) c) id = storedUnder c id := by
  have hkeep : ∀ d : Document, (d.set (updateFields body now)).satisfies (idFilter id) =
      d.satisfies (idFilter id) := by
    intro d
    have hget : (d.set (updateFields body now)).get? "id" = d.get? "id" :=
      Document.get?_set_of_not_mem (by simp [updateFields])
    simp [Document.satisfies, idFilter, hget]
  have hmap := map_updateOne (f := fun d => d.satisfies (idFilter id)) hkeep filter c
  have hcount : ∀ c : Collection, storedUnder c id =
      (c.map fun d => d.satisfies (idFilter id)).count true := by
    intro c
    unfold storedUnder
    rw [List.count, List.countP_map]
    refine List.countP_congr fun d _ => ?_
    simp
  rw [hcount, hcount, hmap]

lemma storedUnder_deleteOne (c : Collection) (reviewId id : String) :
    storedUnder (deleteOne c (idFilter reviewId)) id +
      (if reviewId = id then deletedCount c (idFilter reviewId) else 0) = storedUnder c id := by
  by_cases h : reviewId = id
  · subst h
    rw [if_pos rfl]
    exact countP_deleteOne c _
  · rw [if_neg h, Nat.add_zero]
    refine countP_deleteOne_of_ne (fun d hd => ?_) c
    rw [satisfies_idFilter] at hd
    rw [Bool.eq_false_iff, ne_eq, satisfies_idFilter, hd]
    simpa using h

/-- `delete_review` answers 204 exactly if it has taken out a document. -/
lemma answeredWith_afterDelete {codes : List ℕ} (hcodes : 204 ∈ codes) (hmissing : 404 ∉ codes)
    (n : ℕ) : answeredWith codes (afterDelete (.ok n)) = decide (n ≠ 0) := by
  unfold answeredWith afterDelete
  by_cases hzero : n = 0
  · simp [hzero, Program.answer?, hmissing]
  · simp [hzero, Program.answer?, hcodes]

/-- What a command changes, of the documents with an id and the answers about it. -/
structure Balanced (id : String) (c c' : Collection) (req : ReviewRequest) (q : ReviewProgram)
    (fault : Fault) : Prop where
  kept : (creates id req && answeredWith [201] q).toNat + storedUnder c id ≤
    storedUnder c' id + (deletes id req && answeredWith [204, 500] q).toNat
  made : storedUnder c' id + (deletes id req && answeredWith [204] q).toNat ≤
    storedUnder c id + (creates id req && answeredWith [201, 500] q).toNat
  exact : fault ≠ .after → (creates id req && answeredWith [201] q).toNat + storedUnder c id =
    storedUnder c' id + (deletes id req && answeredWith [204] q).toNat

lemma balanced_insert {review : Review} {id : String} {body : CreateReviewRequest} {now : String}
    {r : Except DriverError Unit} {c c' : Collection} {i : ℕ} {fault : Fault}
    (hexec : exec c i (.insertOne (reviewToDocument review)) fault = some (c', r)) :
    Balanced id c c' (.create body review.id now) (afterInsert review r) fault := by
  have hcount := storedUnder_insertOne c review id
  cases fault <;> obtain ⟨rfl, rfl⟩ := Prod.mk.inj (Option.some.inj hexec)
  all_goals by_cases hid : review.id = id
  all_goals
    simp only [hid, if_true, if_false] at hcount
    constructor <;>
      simp [creates, deletes, answeredWith, okReply, errorReply, afterInsert, Program.answer?, hid,
        effect, hcount] <;> omega

lemma balanced_delete {reviewId id : String} {r : Except DriverError ℕ} {c c' : Collection}
    {i : ℕ} {fault : Fault}
    (hexec : exec c i (.deleteOne (idFilter reviewId)) fault = some (c', r)) :
    Balanced id c c' (.delete reviewId) (afterDelete r) fault := by
  have hcount := storedUnder_deleteOne c reviewId id
  have hle : deletedCount c (idFilter reviewId) ≤ 1 := by unfold deletedCount; split <;> omega
  have hcreates : creates id (.delete reviewId) = false := rfl
  by_cases hid : reviewId = id
  · subst hid
    rw [if_pos rfl] at hcount
    have hdeletes : deletes reviewId (.delete reviewId) = true := by simp [deletes]
    cases fault with
    | none =>
      obtain ⟨rfl, rfl⟩ := Prod.mk.inj (Option.some.inj hexec)
      -- 204 is answered for the document that has gone
      have hanswer : ∀ codes, 204 ∈ codes → 404 ∉ codes →
          (answeredWith codes (afterDelete (.ok (deletedCount c (idFilter reviewId))))).toNat =
            deletedCount c (idFilter reviewId) := by
        intro codes hcodes hmissing
        rw [answeredWith_afterDelete hcodes hmissing]
        rcases Nat.le_one_iff_eq_zero_or_eq_one.mp hle with hzero | hone
        · rw [hzero]
          rfl
        · rw [hone]
          rfl
      have h₁ := hanswer [204] (by decide) (by decide)
      have h₂ := hanswer [204, 500] (by decide) (by decide)
      constructor <;>
        simp only [effect, okReply, hcreates, hdeletes, Bool.false_and, Bool.true_and,
          Bool.toNat_false] <;> omega
    | before =>
      obtain ⟨rfl, rfl⟩ := Prod.mk.inj (Option.some.inj hexec)
      constructor <;>
        simp [hcreates, hdeletes, answeredWith, errorReply, afterDelete, Program.answer?]
    | after =>
      obtain ⟨rfl, rfl⟩ := Prod.mk.inj (Option.some.inj hexec)
      constructor <;>
        simp [hcreates, hdeletes, answeredWith, errorReply, afterDelete, Program.answer?,
          effect] <;> omega
  · rw [if_neg hid, Nat.add_zero] at hcount
    have hdeletes : deletes id (.delete reviewId) = false := by simp [deletes, hid]
    have hsame : storedUnder c' id = storedUnder c id := by
      rw [exec_store hexec]
      split
      · rfl
      · exact hcount
    constructor <;> simp [hcreates, hdeletes, hsame]

/-- What the commands of the handlers change. -/
lemma balanced_reply {req : ReviewRequest} {cmd : Command} {k : Reply cmd → ReviewProgram}
    {r : Reply cmd} {c c' : Collection} {i : ℕ} {fault : Fault} (id : String)
    (hstage : ReviewStage req (.call cmd k)) (hexec : exec c i cmd fault = some (c', r)) :
    Balanced id c c' req (k r) fault := by
  have hstore := exec_store hexec
  cases hstage with
  | checking body uuid now hrating =>
    obtain rfl : c' = c := by rw [hstore]; split <;> rfl
    rcases r with e | _ | doc <;> constructor <;>
      simp [creates, deletes, answeredWith, afterCheck, Program.answer?]
  | inserting body uuid now hrating => exact balanced_insert hexec
  | fetching reviewId body now hrating =>
    obtain rfl : c' = c := by rw [hstore]; split <;> rfl
    constructor <;> simp [creates, deletes]
  | updating reviewId body now hrating =>
    have hsame : storedUnder c' id = storedUnder c id := by
      rw [hstore]
      split
      · rfl
      · exact storedUnder_updateOne c body now _ id
    constructor <;> simp [creates, deletes, hsame]
  | rereading reviewId body now =>
    obtain rfl : c' = c := by rw [hstore]; split <;> rfl
    constructor <;> simp [creates, deletes]
  | deleting reviewId => exact balanced_delete hexec

/-! ## Runs -/

/-- The request that moved has had no answer before; the count grows by its answer. -/
lemma answers_step {p : ReviewPool} {i : ℕ} {t : ReviewThread} {cmd : Command}
    {k : Reply cmd → ReviewProgram} (ht : p.threads[i]? = some t) (hk : t.program = .call cmd k)
    (kind : ReviewRequest → Bool) (codes : List ℕ) (store : Collection) (r : Reply cmd) :
    answers kind codes ⟨store, p.threads.set i (t.receive cmd r (k r))⟩ =
      answers kind codes p + (kind t.request && answeredWith codes (k r)).toNat := by
  have hcount := countP_set ht (fun t => kind t.request && answeredWith codes t.program)
    (t.receive cmd r (k r))
  have hbefore : (kind t.request && answeredWith codes t.program) = false := by
    rw [hk]
    exact Bool.and_false _
  simp only [hbefore, Bool.false_eq_true, if_false, Nat.add_zero] at hcount
  unfold answers
  rw [hcount]
  show _ + (if (kind t.request && answeredWith codes (k r)) = true then 1 else 0) = _
  cases kind t.request && answeredWith codes (k r) <;> rfl

/-- What the numbers of answers say about the collection, with any failures. -/
structure Bounded (id : String) (p : ReviewPool) : Prop where
  kept : answers (creates id) [201] p ≤
    storedUnder p.store id + answers (deletes id) [204, 500] p
  made : storedUnder p.store id + answers (deletes id) [204] p ≤
    answers (creates id) [201, 500] p

/-- As many reviews have been created as are stored or have been deleted. -/
def Conserved (id : String) (p : ReviewPool) : Prop :=
  answers (creates id) [201] p = storedUnder p.store id + answers (deletes id) [204] p

/-- A request that is refused at once is answered 400. -/
lemma answers_init {codes : List ℕ} (hcodes : 400 ∉ codes) (requests : List ReviewRequest)
    (kind : ReviewRequest → Bool) : answers kind codes (reviewPool requests) = 0 := by
  unfold answers
  rw [List.countP_eq_zero]
  intro t ht
  obtain ⟨req, -, rfl⟩ := List.mem_map.mp ht
  have hserve : answeredWith codes (serve req) = false := by
    cases req with
    | create body uuid now =>
      show answeredWith codes (createReview body uuid now) = false
      unfold createReview answeredWith
      split <;> simp [Program.answer?, hcodes]
    | update reviewId body now =>
      show answeredWith codes (updateReview reviewId body now) = false
      unfold updateReview answeredWith
      split <;> simp [Program.answer?, hcodes]
    | delete reviewId => rfl
  simp [hserve]

lemma bounded_init (id : String) (requests : List ReviewRequest) :
    Bounded id (reviewPool requests) where
  kept := by
    rw [answers_init (by decide)]
    exact Nat.zero_le _
  made := by
    rw [answers_init (by decide)]
    exact Nat.zero_le _

/-- A step changes the numbers as its command does. -/
lemma balanced_step {p p' : ReviewPool} {l : ℕ × Fault} (hstages : InStages p)
    (hstep : reviewStep p l = some p') (id : String) :
    ∃ req q, Balanced id p.store p'.store req q l.2 ∧ ∀ kind codes,
      answers kind codes p' = answers kind codes p + (kind req && answeredWith codes q).toNat := by
  obtain ⟨t, cmd, k, store, r, ht, hk, hexec, rfl⟩ := Pool.step_eq_some.mp hstep
  have hstage := hstages t (List.mem_of_getElem? ht)
  rw [hk] at hstage
  exact ⟨t.request, k r, balanced_reply id hstage hexec,
    fun kind codes => answers_step ht hk kind codes store r⟩

lemma bounded_step {p p' : ReviewPool} {l : ℕ × Fault} {id : String} (hstages : InStages p)
    (h : Bounded id p) (hstep : reviewStep p l = some p') : Bounded id p' := by
  obtain ⟨req, q, hbalanced, hanswers⟩ := balanced_step hstages hstep id
  have hkept := h.kept
  have hmade := h.made
  constructor
  · rw [hanswers, hanswers]
    have := hbalanced.kept
    omega
  · rw [hanswers, hanswers]
    have := hbalanced.made
    omega

lemma conserved_step {p p' : ReviewPool} {l : ℕ × Fault} {id : String} (hstages : InStages p)
    (h : Conserved id p) (harrives : ReplyArrives p l) (hstep : reviewStep p l = some p') :
    Conserved id p' := by
  obtain ⟨req, q, hbalanced, hanswers⟩ := balanced_step hstages hstep id
  unfold Conserved at h ⊢
  rw [hanswers, hanswers]
  have := hbalanced.exact harrives
  omega

/-- **Reviews are accounted for.** In every state of every run and for every id: the creations
answered 201 are no more than the reviews that are stored or have perhaps been deleted, and the
reviews stored or surely deleted are no more than those perhaps created. If the reply of no
command is lost, as many have been created as are stored or have been deleted. -/
theorem reviews_accounted {requests : List ReviewRequest} {es : List (ℕ × Fault)} {p : ReviewPool}
    (hrun : run reviewStep (reviewPool requests) es = some p) (id : String) :
    answers (creates id) [201] p ≤ storedUnder p.store id + answers (deletes id) [204, 500] p ∧
      storedUnder p.store id + answers (deletes id) [204] p ≤ answers (creates id) [201, 500] p ∧
      (StepsMeet reviewStep ReplyArrives (reviewPool requests) es →
        answers (creates id) [201] p = storedUnder p.store id + answers (deletes id) [204] p) := by
  have hbounded : InStages p ∧ Bounded id p := by
    refine run_invariant (P := fun p => InStages p ∧ Bounded id p) (fun p l p' h hstep => ?_)
      ⟨inStages_init requests, bounded_init id requests⟩ hrun
    exact ⟨inStages_preserved p l p' h.1 hstep, bounded_step h.1 h.2 hstep⟩
  refine ⟨hbounded.2.kept, hbounded.2.made, fun harrive => ?_⟩
  have hconserved : InStages p ∧ Conserved id p := by
    refine run_invariant_of_stepsMeet (P := fun p => InStages p ∧ Conserved id p)
      (fun p l p' h hl hstep => ?_) ⟨inStages_init requests, ?_⟩ harrive hrun
    · exact ⟨inStages_preserved p l p' h.1 hstep, conserved_step h.1 h.2 hl hstep⟩
    · unfold Conserved
      rw [answers_init (by decide), answers_init (by decide)]
      rfl
  exact hconserved.2

/-- A review is created, and of two deletions one answers 204. -/
theorem reviews_accounted_deleted :
    ∃ p, run reviewStep (reviewPool [.create ⟨"p1", "u1", 5, "good"⟩ "r1" "t1", .delete "r1",
        .delete "r1"]) [(0, .none), (0, .none), (2, .none), (1, .none)] = some p ∧
      answers (creates "r1") [201] p = storedUnder p.store "r1" + answers (deletes "r1") [204] p :=
  ⟨_, run_final (by decide), (reviews_accounted (run_final (by decide)) "r1").2.2 (by decide)⟩

end DevopsEcommerce.ReviewService
