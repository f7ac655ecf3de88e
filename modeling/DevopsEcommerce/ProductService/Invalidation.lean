import DevopsEcommerce.ProductService.GetAnswers

/-!
# Writing and invalidating

The order of things in a request, as an automaton over its commands: MongoDB first, then, if it
has confirmed a change, `SCAN` and the deletion of every key found, and only then the response.
-/

open Interleaving Interleaving.Program

namespace DevopsEcommerce.ProductRoutes

/-- How far a request has got: whether MongoDB has confirmed a change, whether a `SCAN` has begun
and, from its end or the response on, the keys that are still to be deleted. -/
structure Stage where
  written : Bool
  scanned : Bool
  left : Option (List String)

def Stage.start : Stage := ⟨false, false, none⟩

/-- The reply says that the command has changed the catalogue. -/
def confirms : (c : DbCommand) → DbReply c → Bool
  | .create _, .ok _ => true
  | .findByIdAndUpdate _ _, .ok (some _) => true
  | .save _ _, .ok () => true
  | .findByIdAndDelete _, .ok (some ()) => true
  | _, _ => false

lemma confirms_of_isRead {c : DbCommand} (h : c.isRead = true) (r : DbReply c) :
    confirms c r = false := by
  cases c with
  | find | countDocuments | aggregate | findLeanById | findById => rfl
  | create | findByIdAndUpdate | save | findByIdAndDelete => exact absurd h Bool.false_ne_true

def Stage.nextDb (s : Stage) (c : DbCommand) (r : DbReply c) : Stage :=
  { s with written := s.written || confirms c r }

def Stage.next (s : Stage) : (c : Command) → Reply c → Stage
  | .db c, r => s.nextDb c r
  | .scanStart _, .ok () => { s with scanned := true }
  | .scanStart _, .error _ => { s with left := some [] }
  | .scanEnd _, .error _ => { s with left := some [] }
  | .scanEnd _, .ok keys => { s with left := some keys }
  | .del key, _ => { s with left := s.left.map fun keys => keys.filter (· ≠ key) }
  | .respond _, _ => { s with left := some [] }
  | _, _ => s

/-- What may come next. -/
def Stage.Allows (s : Stage) : Command → Prop
  | .db _ => s.scanned = false ∧ s.left = none
  | .scanStart keyPrefix => keyPrefix = cachePrefix
  | .scanEnd keyPrefix => keyPrefix = cachePrefix ∧ s.scanned = true ∧ s.left = none
  | .respond _ => s.written = true → s.left = some []
  | .get _ | .set _ _ _ | .del _ => True

lemma Stage.written_next {s : Stage} (hs : s.written = true) (c : Command) (r : Reply c) :
    (s.next c r).written = true := by
  unfold Stage.next
  split
  · show (s.written || _) = true
    rw [hs, Bool.true_or]
  all_goals exact hs

/-- Once everything is deleted it stays so. -/
lemma Stage.left_next {s : Stage} {c : Command} (hs : s.left = some []) (hc : s.Allows c)
    (r : Reply c) : (s.next c r).left = some [] := by
  unfold Stage.next
  split
  · exact hs
  · exact hs
  · rfl
  · rfl
  · exact absurd (hs.symm.trans hc.2.2) (by simp)
  · show s.left.map _ = _
    rw [hs]
    rfl
  · rfl
  · exact hs

/-- Who is scanning now was scanning before. -/
lemma Stage.scanned_of_next {s : Stage} {c : Command} {r : Reply c}
    (hc : ∀ keyPrefix, c ≠ .scanStart keyPrefix) (hleft : (s.next c r).left = none) :
    s.left = none ∧ s.scanned = (s.next c r).scanned := by
  cases c with
  | db c => exact ⟨hleft, rfl⟩
  | get key => exact ⟨hleft, rfl⟩
  | set key text ttl => exact ⟨hleft, rfl⟩
  | scanStart keyPrefix => exact absurd rfl (hc keyPrefix)
  | scanEnd keyPrefix => cases r <;> exact absurd hleft (by simp [Stage.next])
  | del key => exact ⟨Option.map_eq_none_iff.mp hleft, rfl⟩
  | respond a => exact absurd hleft (by simp [Stage.next])

abbrev Obedient {α : Type} (Q : Stage → α → Prop) (s : Stage) (p : Program Command Reply α) :
    Prop :=
  Obeys Stage.next Stage.Allows Q s p

/-- What a handler obeys on MongoDB, it obeys in the service. -/
lemma obedient_onDb {α : Type} {Q : Stage → α → Prop} {s : Stage} {p : DbProgram α}
    (hp : Obeys Stage.nextDb (fun s _ => s.scanned = false ∧ s.left = none) Q s p) :
    Obedient Q s (onDb p) :=
  hp.embed (fun _ _ _ => rfl) fun _ _ h => h

/-! ## Reads -/

lemma nextDb_of_isRead {s : Stage} {c : DbCommand} (h : c.isRead = true) (r : DbReply c) :
    s.nextDb c r = s := by
  unfold Stage.nextDb
  rw [confirms_of_isRead h, Bool.or_false]

lemma obedient_respond {s : Stage} (hs : s.written = true → s.left = some [])
    (answer : Answer) : Obedient (fun _ _ => True) s (respond answer) :=
  .call hs fun _ => .done trivial

section
variable {platform : Platform}

/-- A `GET` never gets beyond the start. -/
lemma obedient_getHandler (countFirst : Bool) (route : GetRoute) {f : Answer → ServiceProgram}
    (hf : ∀ answer, Obedient (fun _ _ => True) Stage.start (f answer)) :
    Obedient (fun _ _ => True) Stage.start
      ((onDb (getHandler platform countFirst route)).bind f) := by
  have hreads : Obeys Stage.nextDb (fun s _ => s.scanned = false ∧ s.left = none)
      (fun s answer => s = Stage.start ∧ answer.Proper) Stage.start
      (getHandler platform countFirst route) :=
    (getHandler_reads platform countFirst route).obeys (fun c r hc => nextDb_of_isRead hc r)
      fun _ _ => ⟨rfl, rfl⟩
  refine (obedient_onDb hreads).bind ?_
  intro s answer hs
  rw [hs.1]
  exact hf answer

lemma obedient_cacheMiddleware (url : String) (ttl : ℕ) (countFirst : Bool) (route : GetRoute) :
    Obedient (fun _ _ => True) Stage.start
      (cacheMiddleware url ttl (getHandler platform countFirst route)) := by
  have hrespond : ∀ answer, Obedient (fun _ _ => True) Stage.start (respond answer) :=
    obedient_respond fun h => absurd h (by decide)
  have hstoring : Obedient (fun _ _ => True) Stage.start
      ((onDb (getHandler platform countFirst route)).bind
        (respondAndStore (cacheKey url) ttl)) := by
    refine obedient_getHandler countFirst route fun answer => ?_
    exact .call (fun h => absurd h (by decide)) fun _ => .call trivial fun _ => .done trivial
  refine .call trivial fun cached => ?_
  unfold afterGet
  split
  · exact obedient_getHandler countFirst route hrespond
  · exact hstoring
  · split
    · exact hstoring
    · split
      · exact obedient_getHandler countFirst route hrespond
      · exact hrespond _

end

/-! ## Writes -/

/-- What a handler ends with says whether the catalogue has changed. -/
def Reports (s : Stage) (o : Outcome) : Prop :=
  s.left = none ∧ (s.written = true → ∃ answer, o = .written answer)

section
variable {platform : Platform}

lemma reports_refused {answer : Answer} {s : Stage} (hleft : s.left = none)
    (hs : s.written = false) : Reports s (.refused answer) :=
  ⟨hleft, fun h => absurd (hs.symm.trans h) (by decide)⟩

lemma reports_written {answer : Answer} {s : Stage} (hleft : s.left = none) :
    Reports s (.written answer) :=
  ⟨hleft, fun _ => ⟨answer, rfl⟩⟩

variable (platform) in
/-- A confirmed change is never followed by a refusal. -/
theorem writeHandler_reports (w : WriteRequest) :
    Obeys Stage.nextDb (fun s _ => s.scanned = false ∧ s.left = none) Reports Stage.start
      (writeHandler platform w) := by
  cases w with
  | post body =>
    show Obeys _ _ _ _ (postProduct body)
    unfold postProduct
    split
    · exact .done (reports_refused rfl rfl)
    refine .call ⟨rfl, rfl⟩ fun created => ?_
    split
    · exact .done (reports_refused rfl rfl)
    · exact .done (reports_refused rfl rfl)
    · -- the only way to a confirmed change
      exact .done (reports_written rfl)
  | put id body =>
    refine .call ⟨rfl, rfl⟩ fun updated => ?_
    split
    · exact .done (reports_refused rfl rfl)
    · exact .done (reports_refused rfl rfl)
    · exact .done (reports_refused rfl rfl)
    · exact .done (reports_refused rfl rfl)
    · exact .done (reports_written rfl)
  | patchStock id adjustment =>
    show Obeys _ _ _ _ (patchStock platform id adjustment)
    unfold patchStock
    split
    · exact .done (reports_refused rfl rfl)
    refine .call ⟨rfl, rfl⟩ fun found => ?_
    split
    · exact .done (reports_refused rfl rfl)
    · exact .done (reports_refused rfl rfl)
    · exact .done (reports_refused rfl rfl)
    · simp only []
      split
      · exact .done (reports_refused rfl rfl)
      refine .call ⟨rfl, rfl⟩ fun saved => ?_
      split
      · exact .done (reports_refused rfl rfl)
      · exact .done (reports_refused rfl rfl)
      · exact .done (reports_written rfl)
  | delete id =>
    refine .call ⟨rfl, rfl⟩ fun deleted => ?_
    split
    · exact .done (reports_refused rfl rfl)
    · exact .done (reports_refused rfl rfl)
    · exact .done (reports_refused rfl rfl)
    · exact .done (reports_written rfl)

/-- After its deletions a program goes on with nothing left to delete. -/
lemma obedient_delAll {keys left : List String} {s : Stage} {rest : ServiceProgram}
    (hs : s.left = some left) (hleft : left ⊆ keys)
    (hrest : ∀ s : Stage, s.left = some [] → Obedient (fun _ _ => True) s rest) :
    Obedient (fun _ _ => True) s (delAll keys rest) := by
  induction keys generalizing s left with
  | nil =>
    rw [List.subset_nil.mp hleft] at hs
    exact hrest s hs
  | cons key keys ih =>
    refine .call trivial fun _ => ?_
    have hnext : s.left.map (fun keys => keys.filter (· ≠ key)) =
        some (left.filter (· ≠ key)) := by
      rw [hs]
      rfl
    refine ih hnext ?_
    · intro k hk
      obtain ⟨hmem, hne⟩ := List.mem_filter.mp hk
      rcases List.mem_cons.mp (hleft hmem) with rfl | hkeys
      · exact absurd hne (by simp)
      · exact hkeys

lemma obedient_finish {s : Stage} {o : Outcome} (h : Reports s o) :
    Obedient (fun _ _ => True) s (finish o) := by
  obtain ⟨hleft, hwritten⟩ := h
  cases o with
  | refused answer =>
    refine obedient_respond (fun hs => ?_) answer
    obtain ⟨a, ha⟩ := hwritten hs
    exact absurd ha (by simp)
  | written answer =>
    have hrespond : ∀ s : Stage, s.left = some [] →
        Obedient (fun _ _ => True) s (respond answer) :=
      fun s hs => obedient_respond (fun _ => hs) answer
    refine .call rfl fun started => ?_
    cases started with
    | error e => exact hrespond _ rfl
    | ok _ =>
      refine .call ⟨rfl, rfl, hleft⟩ fun scanned => ?_
      cases scanned with
      | error e => exact hrespond _ rfl
      | ok keys => exact obedient_delAll rfl (List.Subset.refl keys) hrespond

/-- Every request keeps to the order. -/
theorem serve_obedient (q : Request) :
    Obedient (fun _ _ => True) Stage.start (serve platform true q) := by
  cases q with
  | get url countFirst => exact obedient_cacheMiddleware url _ countFirst _
  | write w =>
    exact (obedient_onDb (writeHandler_reports platform w)).bind fun s o h => obedient_finish h

end

end DevopsEcommerce.ProductRoutes
