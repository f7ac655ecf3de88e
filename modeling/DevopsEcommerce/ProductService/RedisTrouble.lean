import DevopsEcommerce.ProductService.SingleRequests

/-!
# Redis in trouble

The product service with a Redis that may answer any command with an error, and a `GET` or a
`SCAN` with anything at all, next to the handlers alone, over the same MongoDB. `redis_invisible`
compares the two for any sequence of requests: the catalogues never part, every request is
responded to exactly once, and a response differs only where the `GET` of the middleware has come
back with the text of a JSON value.
-/

open Interleaving Interleaving.Program

namespace DevopsEcommerce.ProductRoutes

/-- What Redis replies to one command, whichever it is. -/
structure RedisReplies where
  got : Except RedisError (Option String)
  scanned : Except RedisError (List String)
  done : Except RedisError Unit

/-- A request, how MongoDB treats its commands, and what Redis replies to its first command, to
its second and so on. -/
structure Trial (Ω : Type) where
  request : Request
  db : DbCommand → Ω
  redis : ℕ → RedisReplies

/-- The value that `JSON.parse` makes of what the `GET` of the middleware returns, which is the
first command of its request. -/
def Trial.cached? {Ω : Type} (t : Trial Ω) : Option Json :=
  match (t.redis 0).got with
  | .ok (some text) => Js.parse text
  | _ => none

/-- The catalogue, and the responses to one request, latest first. -/
structure Front (γ : Type) where
  catalogue : γ
  sent : List Answer

section
variable {γ Ω : Type} (db : Database γ Ω)

/-- A command, with a Redis that one knows nothing of. -/
def execTroubled (s : Front γ) (_ : ℕ) :
    (c : Command) → (DbCommand → Ω) × RedisReplies → Option (Front γ × Reply c)
  | .db c, w =>
    some ({ s with catalogue := (db.exec s.catalogue c (w.1 c)).1.getD s.catalogue },
      (db.exec s.catalogue c (w.1 c)).2)
  | .get _, w => some (s, w.2.got)
  | .set _ _ _, w => some (s, w.2.done)
  | .scanStart _, w => some (s, w.2.done)
  | .scanEnd _, w => some (s, w.2.scanned)
  | .del _, w => some (s, w.2.done)
  | .respond answer, _ => some ({ s with sent := answer :: s.sent }, ())

/-- A program from its `n`-th command on. -/
def undergo (t : Trial Ω) (p : ServiceProgram) (n : ℕ) (s : Front γ) :
    Option (Front γ × Answer) :=
  p.perform (execTroubled db) 0 (fun n _ => (t.db, t.redis n)) n s

/-- A request with Redis removed: the handler alone makes the answer. -/
def handleAlone (platform : Platform) (catalogue : γ) (t : Trial Ω) : γ × Answer :=
  match t.request with
  | .get url countFirst =>
    runDb db t.db (getHandler platform countFirst (platform.getRoute url)) catalogue
  | .write w =>
    ((runDb db t.db (writeHandler platform w) catalogue).1,
      (runDb db t.db (writeHandler platform w) catalogue).2.answer)

/-- A request that has been served: the responses to it, and the answer with Redis removed. -/
structure Exchange (Ω : Type) where
  trial : Trial Ω
  sent : List Answer
  aloneAnswer : Answer

/-- The catalogue of the service, that with Redis removed, and the requests served. -/
structure Twins (γ Ω : Type) where
  catalogue : γ
  alone : γ
  served : List (Exchange Ω)

def Twins.initial (catalogue : γ) : Twins γ Ω := ⟨catalogue, catalogue, []⟩

/-- The next request, from its start to its end. -/
def attempt (platform : Platform) (s : Twins γ Ω) (t : Trial Ω) : Option (Twins γ Ω) :=
  (undergo db t (serve platform true t.request) 0 ⟨s.catalogue, []⟩).map fun done =>
    { catalogue := done.1.catalogue
      alone := (handleAlone db platform s.alone t).1
      served := s.served ++
        [⟨t, done.1.sent, (handleAlone db platform s.alone t).2⟩] }

variable {db} {t : Trial Ω}

/-! ## What is left to do when the handler has ended -/

/-- Whatever Redis replies, the program responds once, with the answer, and does no more. -/
def RespondsOnce (db : Database γ Ω) (t : Trial Ω) (p : ServiceProgram) (answer : Answer) :
    Prop :=
  ∀ n (s : Front γ), undergo db t p n s = some ({ s with sent := answer :: s.sent }, answer)

lemma respondsOnce_respond (answer : Answer) : RespondsOnce db t (respond answer) answer :=
  fun _ _ => rfl

lemma respondsOnce_store (key : String) (ttl : ℕ) (answer : Answer) :
    RespondsOnce db t (respondAndStore key ttl answer) answer :=
  fun _ _ => rfl

/-- A command to Redis before something that responds once. -/
lemma RespondsOnce.call {c : Command} {k : Reply c → ServiceProgram} {answer : Answer}
    (hc : ∀ (s : Front γ) w, ∃ r, execTroubled db s 0 c w = some (s, r))
    (hk : ∀ r, RespondsOnce db t (k r) answer) : RespondsOnce db t (.call c k) answer := by
  intro n s
  obtain ⟨r, hexec⟩ := hc s (t.db, t.redis n)
  unfold undergo
  rw [perform, hexec, Option.bind_some]
  exact hk r (n + 1) s

lemma respondsOnce_delAll {rest : ServiceProgram} {answer : Answer}
    (hrest : RespondsOnce db t rest answer) (keys : List String) :
    RespondsOnce db t (delAll keys rest) answer := by
  induction keys with
  | nil => exact hrest
  | cons key keys ih => exact .call (fun s w => ⟨w.2.done, rfl⟩) fun _ => ih

/-- The invalidation ends with what comes after it, wherever it fails. -/
lemma respondsOnce_invalidateCache {rest : ServiceProgram} {answer : Answer}
    (hrest : RespondsOnce db t rest answer) (keyPrefix : String) :
    RespondsOnce db t (invalidateCache keyPrefix rest) answer := by
  refine .call (fun s w => ⟨w.2.done, rfl⟩) fun started => ?_
  cases started with
  | error e => exact hrest
  | ok _ =>
    refine .call (fun s w => ⟨w.2.scanned, rfl⟩) fun scanned => ?_
    cases scanned with
    | error e => exact hrest
    | ok keys => exact respondsOnce_delAll hrest keys

lemma respondsOnce_finish (o : Outcome) : RespondsOnce db t (finish o) o.answer := by
  cases o with
  | refused answer => exact respondsOnce_respond answer
  | written answer => exact respondsOnce_invalidateCache (respondsOnce_respond answer) _

/-! ## Handlers -/

/-- A handler takes the same course as alone, and what comes after it responds. -/
lemma undergo_onDb {α : Type} (p : DbProgram α) {f : α → ServiceProgram} {g : α → Answer}
    (hf : ∀ a, RespondsOnce db t (f a) (g a)) (n : ℕ) (s : Front γ) :
    undergo db t ((onDb p).bind f) n s =
      some (⟨(runDb db t.db p s.catalogue).1, g (runDb db t.db p s.catalogue).2 :: s.sent⟩,
        g (runDb db t.db p s.catalogue).2) := by
  induction p generalizing n s with
  | done a => exact hf a n s
  | call c k ih =>
    exact ih (db.exec s.catalogue c (t.db c)).2 (n + 1)
      { s with catalogue := (db.exec s.catalogue c (t.db c)).1.getD s.catalogue }

/-- A write is the same whatever Redis does. -/
lemma undergo_write (platform : Platform) {w : WriteRequest} (hrequest : t.request = .write w)
    (catalogue : γ) :
    undergo db t (serve platform true t.request) 0 ⟨catalogue, []⟩ =
      some (⟨(handleAlone db platform catalogue t).1, [(handleAlone db platform catalogue t).2]⟩,
        (handleAlone db platform catalogue t).2) := by
  rw [handleAlone, hrequest]
  exact undergo_onDb (writeHandler platform w) respondsOnce_finish 0 ⟨catalogue, []⟩

/-- The handler of a `GET` runs unless the cache has given a JSON value. -/
lemma undergo_afterGet_none (key : String) (ttl : ℕ) (handler : DbProgram Answer)
    (hcached : t.cached? = none) (s : Front γ) :
    undergo db t (afterGet key ttl handler (t.redis 0).got) 1 s =
      some (⟨(runDb db t.db handler s.catalogue).1,
          (runDb db t.db handler s.catalogue).2 :: s.sent⟩,
        (runDb db t.db handler s.catalogue).2) := by
  unfold Trial.cached? at hcached
  rcases hgot : (t.redis 0).got with e | _ | text
  · exact undergo_onDb handler respondsOnce_respond 1 s
  · exact undergo_onDb handler (respondsOnce_store key ttl) 1 s
  · simp only [hgot] at hcached
    by_cases hempty : text = ""
    · rw [afterGet, if_pos hempty]
      exact undergo_onDb handler (respondsOnce_store key ttl) 1 s
    · rw [afterGet, if_neg hempty, hcached]
      exact undergo_onDb handler respondsOnce_respond 1 s

lemma undergo_afterGet_some (key : String) (ttl : ℕ) (handler : DbProgram Answer) {body : Json}
    (hcached : t.cached? = some body) (s : Front γ) :
    undergo db t (afterGet key ttl handler (t.redis 0).got) 1 s =
      some (⟨s.catalogue, ⟨200, body⟩ :: s.sent⟩, ⟨200, body⟩) := by
  unfold Trial.cached? at hcached
  split at hcached
  · rename_i text hgot
    -- the empty text is no JSON
    have hnone : Js.parse "" = none := by decide
    have hempty : text ≠ "" := by
      rintro rfl
      exact absurd (hnone.symm.trans hcached) (by simp)
    rw [hgot, afterGet, if_neg hempty, hcached]
    rfl
  · exact absurd hcached (by simp)

/-! ## Runs -/

/-- How a request fares with a Redis that one knows nothing of: a write as with Redis removed, and
a `GET` too, unless Redis has returned the text of a JSON value. -/
def Exchange.Harmless (x : Exchange Ω) : Prop :=
  ∃ answer, x.sent = [answer] ∧
    (x.trial.request.isGet = false → answer = x.aloneAnswer) ∧
    (x.trial.cached? = none → answer = x.aloneAnswer) ∧
    ∀ body, x.trial.request.isGet = true → x.trial.cached? = some body → answer = ⟨200, body⟩

/-- One request leaves both services with one catalogue. -/
lemma undergo_serve (platform : Platform) (db : Database γ Ω) (catalogue : γ) (t : Trial Ω) :
    ∃ s a, undergo db t (serve platform true t.request) 0 ⟨catalogue, []⟩ = some (s, a) ∧
      s.catalogue = (handleAlone db platform catalogue t).1 ∧
      Exchange.Harmless ⟨t, s.sent, (handleAlone db platform catalogue t).2⟩ := by
  rcases hrequest : t.request with ⟨url, countFirst⟩ | w
  · have hget : ∀ s : Front γ, undergo db t (serve platform true (.get url countFirst)) 0 s =
        undergo db t (afterGet (cacheKey url) (platform.getRoute url).ttl
          (getHandler platform countFirst (platform.getRoute url)) (t.redis 0).got) 1 s :=
      fun s => rfl
    rw [hget, handleAlone, hrequest]
    rcases hcached : t.cached? with _ | body
    · refine ⟨_, _, undergo_afterGet_none _ _ _ hcached _, rfl, _, rfl, fun _ => rfl,
        fun _ => rfl, fun body _ hsome => ?_⟩
      exact absurd (hcached.symm.trans hsome) (by simp)
    · refine ⟨_, _, undergo_afterGet_some _ _ _ hcached _, ?_, _, rfl, fun hwrite => ?_,
        fun hnone => ?_, fun body' _ hsome => ?_⟩
      · -- the handler would only have read
        exact (congrArg Prod.fst (runDb_of_reads
          (getHandler_reads platform countFirst (platform.getRoute url)) catalogue)).symm
      · simp only [hrequest] at hwrite
        exact absurd hwrite (by simp [Request.isGet])
      · exact absurd (hnone.symm.trans hcached) (by simp)
      · obtain rfl := Option.some.inj (hcached.symm.trans hsome)
        rfl
  · rw [← hrequest]
    refine ⟨_, _, undergo_write platform hrequest catalogue, rfl, _, rfl, fun _ => rfl,
      fun _ => rfl, fun body hget => ?_⟩
    simp only [hrequest] at hget
    exact absurd hget (by simp [Request.isGet])

/-- The two services have the same catalogue, and every request so far has fared well. -/
structure Invisible (s : Twins γ Ω) : Prop where
  alike : s.catalogue = s.alone
  harmless : ∀ x ∈ s.served, x.Harmless

lemma attempt_invisible (platform : Platform) (db : Database γ Ω) {s : Twins γ Ω}
    (h : Invisible s) (t : Trial Ω) :
    ∃ s', attempt db platform s t = some s' ∧ Invisible s' ∧
      s'.served.map Exchange.trial = s.served.map Exchange.trial ++ [t] := by
  obtain ⟨front, answer, hrun, hcatalogue, hharmless⟩ := undergo_serve platform db s.catalogue t
  refine ⟨_, Option.map_eq_some_iff.mpr ⟨_, hrun, rfl⟩, ⟨?_, fun x hx => ?_⟩, List.map_append⟩
  · rw [← h.alike]
    exact hcatalogue
  · rcases List.mem_append.mp hx with hold | hnew
    · exact h.harmless x hold
    · rw [List.mem_singleton.mp hnew, ← h.alike]
      exact hharmless

lemma run_invisible (platform : Platform) (db : Database γ Ω) (trials : List (Trial Ω))
    {s : Twins γ Ω} (h : Invisible s) :
    ∃ s', run (attempt db platform) s trials = some s' ∧ Invisible s' ∧
      s'.served.map Exchange.trial = s.served.map Exchange.trial ++ trials := by
  induction trials generalizing s with
  | nil => exact ⟨s, rfl, h, (List.append_nil _).symm⟩
  | cons t trials ih =>
    obtain ⟨s₁, hstep, h₁, hserved₁⟩ := attempt_invisible platform db h t
    obtain ⟨s', hrun, h', hserved'⟩ := ih h₁
    refine ⟨s', run_cons_eq_some.mpr ⟨s₁, hstep, hrun⟩, h', ?_⟩
    rw [hserved', hserved₁, List.append_assoc, List.singleton_append]

/-- **Redis in trouble is not noticed.** For every sequence of requests and whatever Redis replies
to each command, every request is responded to exactly once: a write as with Redis removed, and
with the same effect on the catalogue, and a `GET` too, unless Redis has returned the text of a
JSON value, which then is the response. -/
theorem redis_invisible (platform : Platform) (db : Database γ Ω) (catalogue : γ)
    (trials : List (Trial Ω)) :
    ∃ s, run (attempt db platform) (Twins.initial catalogue) trials = some s ∧
      s.served.map Exchange.trial = trials ∧ s.catalogue = s.alone ∧
      ∀ x ∈ s.served, x.Harmless := by
  have hinitial : Invisible (Twins.initial catalogue : Twins γ Ω) :=
    ⟨rfl, fun x hx => absurd hx (by simp [Twins.initial])⟩
  obtain ⟨s, hrun, h, hserved⟩ := run_invisible platform db trials hinitial
  exact ⟨s, hrun, hserved, h.alike, h.harmless⟩

end

end DevopsEcommerce.ProductRoutes
