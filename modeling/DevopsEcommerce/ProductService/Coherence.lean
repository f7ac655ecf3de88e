import DevopsEcommerce.Interleaving.Arrivals
import DevopsEcommerce.ProductService.Cache
import DevopsEcommerce.ProductService.Invalidation

/-!
# Cached reads beside writes

Any number of replicas serve any number of requests over one MongoDB and one Redis. The replicas
share nothing else, so that their requests are the threads of one pool.

A `GET` is coherent if its response rests on no version of the catalogue from before a write
that had been responded to when the request came in. The writes keep their side: they change the
catalogue first, then delete what is cached, and respond last. What they cannot see are `GET`s
that have asked MongoDB already and are going to store what they got.
-/

open Interleaving Interleaving.Program

namespace DevopsEcommerce.ProductRoutes

/-- A request that has come in, and up to which version writes had been responded to by then. -/
structure Arrived where
  request : Request
  after : ℕ

abbrev ServiceThread := Thread Arrived Command Reply Answer
abbrev ServicePool (γ : Type) := Pool (Store γ) Arrived Command Reply Answer

/-- How far the request has got. -/
def stage (t : ServiceThread) : Stage := stateAfter Stage.next Stage.start t.trace

/-- The response has been sent, with the status 200. -/
def hasSentOk (t : ServiceThread) : Bool :=
  t.trace.any fun
    | ⟨.respond answer, _⟩ => answer.status = 200
    | _ => false

/-- The invalidation has not come past this key yet. -/
def Stage.Pending (s : Stage) (key : String) : Prop := ∀ keys, s.left = some keys → key ∈ keys

instance (s : Stage) (key : String) : Decidable (s.Pending key) :=
  match s with
  | ⟨_, _, none⟩ => .isTrue fun _ h => absurd h (by simp)
  | ⟨_, _, some left⟩ =>
    decidable_of_iff (key ∈ left) ⟨fun h _ heq => Option.some.inj heq ▸ h, fun h => h left rfl⟩

section
variable {γ Ω : Type} (platform : Platform) (db : Database γ Ω)

def productStep (p : ServicePool γ) : Event Request (Choice Ω) → Option (ServicePool γ)
  | .arrive q => some (p.arrive (fun q => serve platform true q.request) ⟨q, p.store.acknowledged⟩)
  | .execute l => Pool.step (exec db) p l

/-- Nothing cached and nobody there. -/
def servicePool (catalogue : γ) : ServicePool γ := ⟨Store.initial catalogue, []⟩

/-- No `GET` has been answered from the catalogue as it was before a write that had been
responded to. -/
def Coherent (p : ServicePool γ) : Prop :=
  ∀ i t, p.threads[i]? = some t → t.request.request.isGet = true → hasSentOk t = true →
    ∀ v ∈ p.store.basis i, t.request.after ≤ v

/-- A response is older than the change that thread `j` has made. -/
def Store.OlderThan (s : Store γ) (basis : List ℕ) (j : ℕ) : Prop := ∃ v ∈ basis, v < s.written j

/-- When a command of the thread `t` is in time: a `SCAN` returns every entry that is older than
the change it follows, nothing is stored that is older than a change whose invalidation has come
past the key, and nothing is cached that is older than a change that MongoDB has not confirmed
when its response is sent. -/
def CommandInTime (p : ServicePool γ) (i : ℕ) (w : Choice Ω) (t : ServiceThread) :
    Command → Prop
  | .scanEnd _ => ∀ key entry, (p.store.drop w.vanishing).cache.lookup key = some entry →
      p.store.OlderThan entry.basis i → key ∈ w.scanned
  | .set key _ _ => ∀ j u, p.threads[j]? = some u → p.store.OlderThan (p.store.basis i) j →
      (stage u).Pending key
  | .respond _ => (stage t).written = false → ∀ key entry,
      (p.store.drop w.vanishing).cache.lookup key = some entry →
        ¬ p.store.OlderThan entry.basis i
  | _ => True

def InTime (p : ServicePool γ) : Event Request (Choice Ω) → Prop
  | .arrive _ => True
  | .execute (i, w) => ∀ t, p.threads[i]? = some t → ∀ c k, t.program = .call c k →
      CommandInTime p i w t c

/-! ## Conditions that can be evaluated -/

instance (s : Store γ) (basis : List ℕ) (j : ℕ) : Decidable (s.OlderThan basis j) :=
  inferInstanceAs (Decidable (∃ v ∈ basis, v < s.written j))

lemma forall_lookup_iff {cache : AList fun _ : String => Entry} {P : String → Entry → Prop} :
    (∀ key entry, cache.lookup key = some entry → P key entry) ↔
      ∀ e ∈ cache.entries, P e.1 e.2 := by
  constructor
  · intro h e he
    exact h e.1 e.2 (AList.mem_lookup_iff.mpr he)
  · intro h key entry hentry
    exact h ⟨key, entry⟩ (AList.mem_lookup_iff.mp hentry)

lemma forall_thread_iff {threads : List ServiceThread} {P : ℕ → ServiceThread → Prop} :
    (∀ i t, threads[i]? = some t → P i t) ↔ ∀ x ∈ threads.zipIdx, P x.2 x.1 := by
  constructor
  · intro h x hx
    exact h x.2 x.1 (List.mem_zipIdx_iff_getElem?.mp hx)
  · intro h i t ht
    exact h (t, i) (List.mem_zipIdx_iff_getElem?.mpr ht)

instance (p : ServicePool γ) : Decidable (Coherent p) :=
  decidable_of_iff _ (forall_thread_iff (P := fun i t => t.request.request.isGet = true →
    hasSentOk t = true → ∀ v ∈ p.store.basis i, t.request.after ≤ v)).symm

instance decidableCommandInTime (p : ServicePool γ) (i : ℕ) (w : Choice Ω) (t : ServiceThread) :
    (c : Command) → Decidable (CommandInTime p i w t c)
  | .scanEnd _ => decidable_of_iff _ (forall_lookup_iff (P := fun key entry =>
      p.store.OlderThan entry.basis i → key ∈ w.scanned)).symm
  | .set key _ _ => decidable_of_iff _ (forall_thread_iff (P := fun j u =>
      p.store.OlderThan (p.store.basis i) j → (stage u).Pending key)).symm
  | .respond _ => decidable_of_iff
      ((stage t).written = false → ∀ e ∈ (p.store.drop w.vanishing).cache.entries,
        ¬ p.store.OlderThan e.2.basis i)
      (imp_congr_right fun _ => (forall_lookup_iff (P := fun _ entry =>
        ¬ p.store.OlderThan entry.basis i)).symm)
  | .db _ | .get _ | .scanStart _ | .del _ => .isTrue trivial

instance decidableInTime (p : ServicePool γ) :
    (e : Event Request (Choice Ω)) → Decidable (InTime p e)
  | .arrive _ => .isTrue trivial
  | .execute (i, w) =>
    match hthread : p.threads[i]? with
    | none => .isTrue fun t ht => absurd (hthread.symm.trans ht) (by simp)
    | some t =>
      match hprogram : t.program with
      | .done _ => .isTrue fun t' ht' c k hk => by
          obtain rfl := Option.some.inj (hthread.symm.trans ht')
          exact absurd (hprogram.symm.trans hk) (by simp)
      | .call c _ => decidable_of_iff (CommandInTime p i w t c) ⟨fun h t' ht' c' k' hk' => by
          obtain rfl := Option.some.inj (hthread.symm.trans ht')
          obtain ⟨rfl, -⟩ := Program.call.inj (hprogram.symm.trans hk')
          exact h, fun h => h t hthread c _ hprogram⟩

variable {platform db}

/-! ## What a command does to the record -/

/-- The moves of the record. -/
structure Effect (s s' : Store γ) (i : ℕ) (c : Command) : Prop where
  others : ∀ j, j ≠ i → s'.basis j = s.basis j ∧ s'.written j = s.written j
  version : s.version ≤ s'.version
  written : s'.written i = s.written i ∨ ((∃ c', c = .db c') ∧ s'.written i = s'.version)
  acknowledged : s'.acknowledged = s.acknowledged ∨ ((∃ a, c = .respond a) ∧
    s.acknowledged ≤ s.written i ∧ s'.acknowledged = s.written i)
  basis : ∀ v ∈ s'.basis i, v ∈ s.basis i ∨ v = s'.version ∨
    ∃ key entry, s.cache.lookup key = some entry ∧ v ∈ entry.basis
  cache : ∀ key entry, s'.cache.lookup key = some entry →
    (s.cache.lookup key = some entry ∧ c ≠ .del key) ∨
      ∃ text ttl, c = .set key text ttl ∧ entry.basis = s.basis i
  owed : ∀ j, (j = i → ∀ keyPrefix, c ≠ .scanStart keyPrefix) → ∀ key ∈ s.owed j,
    c ≠ .del key → key ∈ s'.owed j

/-- A command that concerns the cache only, and stores nothing. -/
lemma Effect.quiet {s s' : Store γ} {i : ℕ} {c : Command}
    (hversion : s'.version = s.version) (hbasis : s'.basis = s.basis)
    (hwritten : s'.written = s.written) (hacknowledged : s'.acknowledged = s.acknowledged)
    (hcache : ∀ key entry, s'.cache.lookup key = some entry →
      s.cache.lookup key = some entry ∧ c ≠ .del key)
    (howed : ∀ j, (j = i → ∀ keyPrefix, c ≠ .scanStart keyPrefix) → ∀ key ∈ s.owed j,
      c ≠ .del key → key ∈ s'.owed j) : Effect s s' i c where
  others := fun j _ => ⟨by rw [hbasis], by rw [hwritten]⟩
  version := by rw [hversion]
  written := .inl (by rw [hwritten])
  acknowledged := .inl hacknowledged
  basis := fun v hv => .inl (by rw [← hbasis]; exact hv)
  cache := fun key entry hentry => .inl (hcache key entry hentry)
  owed := howed

lemma effect_db (db : Database γ Ω) (s : Store γ) (i : ℕ) (c : DbCommand) (w : Choice Ω) :
    Effect s (s.commit i (db.exec s.catalogue c w.db).1) i (.db c) := by
  cases (db.exec s.catalogue c w.db).1 with
  | none =>
    refine ⟨fun j hj => ⟨Function.update_of_ne hj _ _, rfl⟩, Nat.le_refl _, .inl rfl, .inl rfl,
      ?_, fun key entry hentry => .inl ⟨hentry, by simp⟩, fun _ _ _ h _ => h⟩
    intro v hv
    have hmem : v ∈ s.version :: s.basis i := by
      rw [← Function.update_self i (s.version :: s.basis i) s.basis]
      exact hv
    rcases List.mem_cons.mp hmem with hnew | hold
    · exact .inr (.inl hnew)
    · exact .inl hold
  | some catalogue =>
    refine ⟨fun j hj => ⟨Function.update_of_ne hj _ _, Function.update_of_ne hj _ _⟩,
      Nat.le_succ _, .inr ⟨⟨c, rfl⟩, Function.update_self i _ _⟩, .inl rfl, ?_,
      fun key entry hentry => .inl ⟨hentry, by simp⟩, fun _ _ _ h _ => h⟩
    intro v hv
    have hmem : v ∈ (s.version + 1) :: s.basis i := by
      rw [← Function.update_self i ((s.version + 1) :: s.basis i) s.basis]
      exact hv
    rcases List.mem_cons.mp hmem with hnew | hold
    · exact .inr (.inl hnew)
    · exact .inl hold

lemma effect_get (s : Store γ) (i : ℕ) (key : String) :
    Effect s (s.get i key).1 i (.get key) := by
  unfold Store.get
  cases hlookup : s.cache.lookup key with
  | none =>
    exact .quiet rfl rfl rfl rfl (fun key entry hentry => ⟨hentry, by simp⟩) fun _ _ _ h _ => h
  | some entry =>
    refine ⟨fun j hj => ⟨Function.update_of_ne hj _ _, rfl⟩, Nat.le_refl _, .inl rfl, .inl rfl,
      ?_, fun key entry hentry => .inl ⟨hentry, by simp⟩, fun _ _ _ h _ => h⟩
    intro v hv
    have hmem : v ∈ entry.basis := by
      rw [← Function.update_self i entry.basis s.basis]
      exact hv
    exact .inr (.inr ⟨key, entry, hlookup, hmem⟩)

lemma effect_set (s : Store γ) (i : ℕ) (key text : String) (ttl : ℕ) :
    Effect s (s.set i key text) i (.set key text ttl) := by
  refine ⟨fun j _ => ⟨rfl, rfl⟩, Nat.le_refl _, .inl rfl, .inl rfl, fun v hv => .inl hv, ?_,
    fun _ _ _ h _ => h⟩
  intro key' entry hentry
  rw [Store.lookup_set] at hentry
  split at hentry <;> rename_i hkey
  · have hnew := Option.some.inj hentry
    rw [hkey, ← hnew]
    exact .inr ⟨text, ttl, rfl, rfl⟩
  · exact .inl ⟨hentry, by simp⟩

lemma effect_respond (s : Store γ) (i : ℕ) (a : Answer) :
    Effect s (s.respond i) i (.respond a) := by
  refine ⟨fun j _ => ⟨rfl, rfl⟩, Nat.le_refl _, .inl rfl, ?_, fun v hv => .inl hv,
    fun key entry hentry => .inl ⟨hentry, by simp⟩, fun _ _ _ h _ => h⟩
  show max s.acknowledged (s.written i) = _ ∨ _
  rcases Nat.le_total s.acknowledged (s.written i) with hle | hle
  · exact .inr ⟨⟨a, rfl⟩, hle, Nat.max_eq_right hle⟩
  · exact .inl (Nat.max_eq_left hle)

/-- Every command is one of these. -/
theorem effect_of_execNow {s s' : Store γ} {i : ℕ} {c : Command} {w : Choice Ω} {r : Reply c}
    (h : execNow db s i c w = some (s', r)) : Effect s s' i c := by
  cases c with
  | db c =>
    cases Option.some.inj h
    exact effect_db db s i c w
  | get key =>
    cases Option.some.inj h
    exact effect_get s i key
  | set key text ttl =>
    cases Option.some.inj h
    exact effect_set s i key text ttl
  | scanStart keyPrefix =>
    cases Option.some.inj h
    -- a SCAN that begins owes its keys to its own request only
    refine .quiet rfl rfl rfl rfl (fun key entry hentry => ⟨hentry, by simp⟩) ?_
    intro j hj key hkey _
    show key ∈ Function.update s.owed i _ j
    rw [Function.update_of_ne fun hji => hj hji keyPrefix rfl]
    exact hkey
  | scanEnd keyPrefix =>
    rw [execNow, Option.ite_none_right_eq_some] at h
    cases Option.some.inj h.2
    exact .quiet rfl rfl rfl rfl (fun key entry hentry => ⟨hentry, by simp⟩) fun _ _ _ h _ => h
  | del key =>
    cases Option.some.inj h
    refine .quiet rfl rfl rfl rfl ?_ ?_
    · intro key' entry hentry
      -- what is cached after the `DEL` was cached before, under another key
      obtain ⟨hne, hold⟩ := Store.lookup_drop_some hentry
      refine ⟨hold, fun heq => hne ?_⟩
      rw [Command.del.inj heq]
      exact List.mem_singleton.mpr rfl
    · intro j _ key' hkey' hne
      refine List.mem_filter.mpr ⟨hkey', ?_⟩
      have hkeys : key' ≠ key := fun heq => hne (by rw [heq])
      simpa using hkeys
  | respond a =>
    cases Option.some.inj h
    exact effect_respond s i a

/-! ## The invariant -/

variable (platform) in
/-- What holds of the record, in every state of a run whose steps are in time. -/
structure Sound (p : ServicePool γ) : Prop where
  serves : p.Serves fun q => serve platform true q.request
  unborn : ∀ i, p.threads.length ≤ i → p.store.basis i = [] ∧ p.store.written i = 0
  written_le : ∀ i, p.store.written i ≤ p.store.version
  acknowledged : p.store.acknowledged = 0 ∨ ∃ i t, p.threads[i]? = some t ∧
    p.store.acknowledged = p.store.written i ∧ (stage t).left = some []
  after_le : ∀ t ∈ p.threads, t.request.after ≤ p.store.acknowledged
  /-- what is older than a change is about to be deleted by whoever made it -/
  pending : ∀ key entry, p.store.cache.lookup key = some entry → ∀ j u,
    p.threads[j]? = some u → p.store.OlderThan entry.basis j → (stage u).Pending key
  fresh : ∀ i t, p.threads[i]? = some t → ∀ v ∈ p.store.basis i, t.request.after ≤ v

lemma sound_initial (catalogue : γ) : Sound platform (servicePool catalogue) where
  serves := fun t ht => absurd ht (by simp [servicePool])
  unborn := fun i _ => ⟨rfl, rfl⟩
  written_le := fun i => Nat.le_refl _
  acknowledged := .inl rfl
  after_le := fun t ht => absurd ht (by simp [servicePool])
  pending := fun key entry hentry => absurd hentry (by simp [servicePool, Store.initial])
  fresh := fun i t ht => absurd ht (by simp [servicePool])

lemma Sound.obedient {p : ServicePool γ} (hp : Sound platform p) {t : ServiceThread}
    (ht : t ∈ p.threads) : Obedient (fun _ _ => True) (stage t) t.program :=
  (serve_obedient t.request.request).follows (hp.serves t ht)

lemma Sound.acknowledged_le {p : ServicePool γ} (hp : Sound platform p) :
    p.store.acknowledged ≤ p.store.version := by
  rcases hp.acknowledged with hzero | ⟨i, t, -, hwritten, -⟩
  · omega
  · rw [hwritten]
    exact hp.written_le i

/-- What is cached is not older than what has been acknowledged. -/
lemma Sound.acknowledged_le_entry {p : ServicePool γ} (hp : Sound platform p) {key : String}
    {entry : Entry} (hentry : p.store.cache.lookup key = some entry) :
    ∀ v ∈ entry.basis, p.store.acknowledged ≤ v := by
  intro v hv
  rcases hp.acknowledged with hzero | ⟨i, t, ht, hwritten, hleft⟩
  · omega
  · by_contra hlt
    have holder : p.store.OlderThan entry.basis i := ⟨v, hv, by omega⟩
    have hkey := hp.pending key entry hentry i t ht holder [] hleft
    exact absurd hkey (by simp)

/-- Entries that are gone are no matter. -/
lemma Sound.drop {p : ServicePool γ} (hp : Sound platform p) (keys : List String) :
    Sound platform { p with store := p.store.drop keys } :=
  { hp with
    pending := fun key entry hentry =>
      hp.pending key entry (Store.lookup_drop_some hentry).2 }

/-- A newcomer has seen nothing yet. -/
lemma Sound.arrive {p : ServicePool γ} (hp : Sound platform p) (q : Request) :
    Sound platform
      (p.arrive (fun q => serve platform true q.request) ⟨q, p.store.acknowledged⟩) where
  serves := Pool.forall_arrive hp.serves .start
  unborn := by
    intro i hi
    rw [Pool.length_arrive] at hi
    exact hp.unborn i (by omega)
  written_le := hp.written_le
  acknowledged := by
    rcases hp.acknowledged with hzero | ⟨i, t, ht, hrest⟩
    · exact .inl hzero
    · exact .inr ⟨i, t, Pool.getElem?_arrive ht, hrest⟩
  after_le := Pool.forall_arrive hp.after_le (Nat.le_refl _)
  pending := by
    intro key entry hentry j u hu holder
    rcases Pool.thread_of_arrive hu with hold | ⟨rfl, -⟩
    · exact hp.pending key entry hentry j u hold holder
    · -- a request that has just arrived has changed nothing: nothing is older than its change
      obtain ⟨v, -, hv⟩ := holder
      have hzero := (hp.unborn _ (Nat.le_refl p.threads.length)).2
      have hv' : v < p.store.written p.threads.length := hv
      omega
  fresh := by
    intro i t ht v hv
    rcases Pool.thread_of_arrive ht with hold | ⟨rfl, -⟩
    · exact hp.fresh i t hold v hv
    · have hnil := (hp.unborn _ (Nat.le_refl p.threads.length)).1
      have hv' : v ∈ p.store.basis p.threads.length := hv
      rw [hnil] at hv'
      exact absurd hv' (by simp)

lemma stage_receive (t : ServiceThread) (c : Command) (r : Reply c) (rest : ServiceProgram) :
    stage (t.receive c r rest) = (stage t).next c r := rfl

/-- An invalidation does not come past a key but by deleting it, by not finding it, or by ending
with the response. -/
lemma pending_next {s s' : Store γ} {i : ℕ} {c : Command} {w : Choice Ω} {r : Reply c}
    (h : execNow db s i c w = some (s', r)) {st : Stage} {key : String} (hst : st.Pending key)
    (hdel : c ≠ .del key) (hscan : ∀ keyPrefix, c = .scanEnd keyPrefix → key ∈ w.scanned)
    (hrespond : ∀ a, c ≠ .respond a) : (st.next c r).Pending key := by
  cases c with
  | db c => exact hst
  | get key => exact hst
  | set key text ttl => exact hst
  | scanStart keyPrefix =>
    cases Option.some.inj h
    exact hst
  | scanEnd keyPrefix =>
    rw [execNow, Option.ite_none_right_eq_some] at h
    cases Option.some.inj h.2
    intro keys hkeys
    rw [← Option.some.inj hkeys]
    exact hscan keyPrefix rfl
  | del key' =>
    intro keys hkeys
    obtain ⟨left, hleft, rfl⟩ := Option.map_eq_some_iff.mp hkeys
    have hne : key ≠ key' := fun heq => hdel (by rw [heq])
    exact List.mem_filter.mpr ⟨hst left hleft, by simpa using hne⟩
  | respond a => exact absurd rfl (hrespond a)

/-- Thread `i` has had one more reply. -/
structure Moved (p p' : ServicePool γ) (i : ℕ) (t : ServiceThread) (c : Command) (r : Reply c)
    (rest : ServiceProgram) : Prop where
  thread : p.threads[i]? = some t
  threads : p'.threads = p.threads.set i (t.receive c r rest)
  effect : Effect p.store p'.store i c
  allows : (stage t).Allows c

section
variable {p p' : ServicePool γ} {i : ℕ} {t : ServiceThread} {c : Command} {r : Reply c}
  {rest : ServiceProgram}

lemma Moved.thread_cases (h : Moved p p' i t c r rest) {j : ℕ} {u : ServiceThread}
    (hu : p'.threads[j]? = some u) :
    (j = i ∧ u = t.receive c r rest) ∨ (j ≠ i ∧ p.threads[j]? = some u) := by
  rw [h.threads] at hu
  exact getElem?_set_eq_some hu

lemma Moved.mover (h : Moved p p' i t c r rest) :
    p'.threads[i]? = some (t.receive c r rest) := by
  rw [h.threads]
  exact getElem?_set_moved h.thread _

lemma Moved.other (h : Moved p p' i t c r rest) {j : ℕ} (hj : j ≠ i) :
    p'.threads[j]? = p.threads[j]? := by
  rw [h.threads, List.getElem?_set_ne (Ne.symm hj)]

lemma Moved.acknowledged_mono (h : Moved p p' i t c r rest) :
    p.store.acknowledged ≤ p'.store.acknowledged := by
  rcases h.effect.acknowledged with hsame | ⟨-, hle, hnew⟩
  · omega
  · omega

lemma Sound.unborn_moved (hp : Sound platform p) (h : Moved p p' i t c r rest) :
    ∀ j, p'.threads.length ≤ j → p'.store.basis j = [] ∧ p'.store.written j = 0 := by
  intro j hj
  have hi : i < p.threads.length := (List.getElem?_eq_some_iff.mp h.thread).1
  rw [h.threads, List.length_set] at hj
  have hother := h.effect.others j (by omega)
  rw [hother.1, hother.2]
  exact hp.unborn j hj

lemma Sound.written_le_moved (hp : Sound platform p) (h : Moved p p' i t c r rest) :
    ∀ j, p'.store.written j ≤ p'.store.version := by
  intro j
  have hversion := h.effect.version
  have hold := hp.written_le j
  by_cases hj : j = i
  · rw [hj] at hold ⊢
    rcases h.effect.written with hsame | ⟨-, hnew⟩
    · omega
    · omega
  · have hother := (h.effect.others j hj).2
    omega

/-- Whoever has responded has nothing left to delete. -/
lemma Sound.acknowledged_moved (hp : Sound platform p) (h : Moved p p' i t c r rest) :
    p'.store.acknowledged = 0 ∨ ∃ j u, p'.threads[j]? = some u ∧
      p'.store.acknowledged = p'.store.written j ∧ (stage u).left = some [] := by
  rcases h.effect.acknowledged with hsame | ⟨⟨a, rfl⟩, -, hnew⟩
  · rw [hsame]
    rcases hp.acknowledged with hzero | ⟨j, u, hu, hwritten, hleft⟩
    · exact .inl hzero
    right
    by_cases hj : j = i
    · obtain rfl : t = u := Option.some.inj (h.thread.symm.trans (hj ▸ hu))
      refine ⟨i, _, h.mover, ?_, Stage.left_next hleft h.allows r⟩
      rcases h.effect.written with hkept | ⟨⟨c', rfl⟩, -⟩
      · rw [hkept, hwritten, hj]
      · -- MongoDB comes before the deletions
        exact absurd (hleft.symm.trans h.allows.2) (by simp)
    · refine ⟨j, u, ?_, ?_, hleft⟩
      · rw [h.other hj]
        exact hu
      · rw [(h.effect.others j hj).2]
        exact hwritten
  · refine .inr ⟨i, _, h.mover, ?_, rfl⟩
    rcases h.effect.written with hkept | ⟨⟨c', hc'⟩, -⟩
    · omega
    · exact absurd hc' (by simp)

lemma Sound.after_le_moved (hp : Sound platform p) (h : Moved p p' i t c r rest) :
    ∀ u ∈ p'.threads, u.request.after ≤ p'.store.acknowledged := by
  have hmono := h.acknowledged_mono
  rw [h.threads]
  refine forall_mem_set i ?_ ?_
  · intro u hu
    have := hp.after_le u hu
    omega
  · have := hp.after_le t (List.mem_of_getElem? h.thread)
    show t.request.after ≤ _
    omega

/-- What a thread reads is not older than what was acknowledged when it came in. -/
lemma Sound.fresh_moved (hp : Sound platform p) (h : Moved p p' i t c r rest) :
    ∀ j u, p'.threads[j]? = some u → ∀ v ∈ p'.store.basis j, u.request.after ≤ v := by
  intro j u hu v hv
  rcases h.thread_cases hu with ⟨rfl, rfl⟩ | ⟨hj, hold⟩
  · show t.request.after ≤ v
    have hafter := hp.after_le t (List.mem_of_getElem? h.thread)
    rcases h.effect.basis v hv with hold | hnow | ⟨key, entry, hentry, hv⟩
    · exact hp.fresh j t h.thread v hold
    · have := hp.acknowledged_le
      have := h.effect.version
      omega
    · have := hp.acknowledged_le_entry hentry v hv
      omega
  · rw [(h.effect.others j hj).1] at hv
    exact hp.fresh j u hold v hv

/-- What is older than a change stays before those who are going to delete it. -/
lemma Sound.pending_moved (hp : Sound platform p) (h : Moved p p' i t c r rest)
    (hnext : ∀ key entry, p.store.cache.lookup key = some entry → c ≠ .del key →
      p.store.OlderThan entry.basis i → (stage t).Pending key → ((stage t).next c r).Pending key)
    (hset : ∀ key text ttl, c = .set key text ttl → ∀ j u, p.threads[j]? = some u →
      p.store.OlderThan (p.store.basis i) j → (stage u).Pending key) :
    ∀ key entry, p'.store.cache.lookup key = some entry → ∀ j u, p'.threads[j]? = some u →
      p'.store.OlderThan entry.basis j → (stage u).Pending key := by
  intro key entry hentry j u hu holder
  -- the request that moves, or one that stands still
  rcases h.thread_cases hu with ⟨rfl, rfl⟩ | ⟨hj, hold⟩
  · rw [stage_receive]
    rcases h.effect.written with hkept | ⟨⟨c', rfl⟩, -⟩
    · have holder' : p.store.OlderThan entry.basis j := by
        obtain ⟨v, hv, hlt⟩ := holder
        exact ⟨v, hv, by omega⟩
      rcases h.effect.cache key entry hentry with ⟨hwas, hdel⟩ | ⟨text, ttl, rfl, hbasis⟩
      · exact hnext key entry hwas hdel holder' (hp.pending key entry hwas j t h.thread holder')
      · rw [hbasis] at holder'
        exact hset key text ttl rfl j t h.thread holder'
    · -- a change has just been made: its invalidation has not begun
      intro keys hkeys
      have hnone : (stage t).left = none := h.allows.2
      exact absurd (hnone.symm.trans hkeys) (by simp)
  · have holder' : p.store.OlderThan entry.basis j := by
      obtain ⟨v, hv, hlt⟩ := holder
      rw [(h.effect.others j hj).2] at hlt
      exact ⟨v, hv, hlt⟩
    rcases h.effect.cache key entry hentry with ⟨hwas, -⟩ | ⟨text, ttl, rfl, hbasis⟩
    · exact hp.pending key entry hwas j u hold holder'
    · rw [hbasis] at holder'
      exact hset key text ttl rfl j u hold holder'

end

/-- A step in time keeps the record sound. -/
theorem sound_step {p p' : ServicePool γ} {e : Event Request (Choice Ω)}
    (hp : Sound platform p) (he : InTime p e) (hstep : productStep platform db p e = some p') :
    Sound platform p' := by
  cases e with
  | arrive q =>
    have hp' : p' = _ := (Option.some.inj hstep).symm
    rw [hp']
    exact hp.arrive q
  | execute l =>
    obtain ⟨i, w⟩ := l
    obtain ⟨t, c, k, s', r, ht, hk, hexec, rfl⟩ := Pool.step_eq_some.mp hstep
    -- entries may vanish before the command; then the command is executed
    have hcommand : CommandInTime p i w t c := he t ht c k hk
    have hdropped := hp.drop w.vanishing
    have hnow : execNow db (p.store.drop w.vanishing) i c w = some (s', r) := hexec
    have hobedient := hp.obedient (List.mem_of_getElem? ht)
    rw [hk] at hobedient
    have hallows : (stage t).Allows c := hobedient.allowed_of_call
    have hmoved : Moved { p with store := p.store.drop w.vanishing }
        ⟨s', p.threads.set i (t.receive c r (k r))⟩ i t c r (k r) :=
      ⟨ht, rfl, effect_of_execNow hnow, hallows⟩
    refine ⟨?_, hdropped.unborn_moved hmoved, hdropped.written_le_moved hmoved,
      hdropped.acknowledged_moved hmoved, hdropped.after_le_moved hmoved,
      hdropped.pending_moved hmoved ?_ ?_, hdropped.fresh_moved hmoved⟩
    · exact forall_mem_set i hp.serves (.reply r (hk ▸ hp.serves t (List.mem_of_getElem? ht)))
    · intro key entry hentry hdel holder hpending
      refine pending_next hnow hpending hdel ?_ ?_
      · intro keyPrefix hc
        subst hc
        exact hcommand key entry hentry holder
      · -- nothing older is cached when the response is sent
        intro a hc
        subst hc
        cases hwritten : (stage t).written with
        | false => exact hcommand hwritten key entry hentry holder
        | true => exact absurd (hpending [] (hallows hwritten)) (by simp)
    · intro key text ttl hc
      subst hc
      exact hcommand

lemma Sound.coherent {p : ServicePool γ} (hp : Sound platform p) : Coherent p :=
  fun i t ht _ _ => hp.fresh i t ht

/-- As long as all steps are in time, no `GET` is answered from before an acknowledged write. -/
theorem coherent_of_inTime {catalogue : γ} {es : List (Event Request (Choice Ω))}
    (hes : StepsMeet (productStep platform db) InTime (servicePool catalogue) es) :
    Throughout (productStep platform db) Coherent (servicePool catalogue) es :=
  (throughout_of_stepsMeet (fun _ _ _ hp he hstep => sound_step hp he hstep)
    (sound_initial catalogue) hes).mono fun _ hp => hp.coherent

end

/-! ## The lamp again -/

/-- A `GET` of the lamp gets its document before, and stores it after, all that a `DELETE` does;
then somebody else asks for the lamp. -/
def lateStore : List (Event Request (Choice Unit)) :=
  [.arrive (.get lampUrl false), .execute (0, calm []), .execute (0, calm []),
    .arrive (.write (.delete lampId)), .execute (1, calm []), .execute (1, calm []),
    .execute (1, calm []), .execute (1, calm []),
    .execute (0, calm []), .execute (0, calm []),
    .arrive (.get lampUrl false), .execute (2, calm []), .execute (2, calm [])]

theorem deleted_lamp_served :
    ∃ t, run (productStep productPages shop) (servicePool [(lampId, lamp)]) lateStore = some t ∧
      ¬ Coherent t := by
  have hany : (run (productStep productPages shop) (servicePool [(lampId, lamp)])
      lateStore).any (fun t => ¬ Coherent t) = true := by
    decide +kernel
  obtain ⟨t, hrun, ht⟩ := (Option.any_eq_true _ _).mp hany
  exact ⟨t, hrun, by simpa using ht⟩

/-- The same with the `SET` before the `DELETE` looks for it. -/
def timelyStore : List (Event Request (Choice Unit)) :=
  [.arrive (.get lampUrl false), .execute (0, calm []), .execute (0, calm []),
    .arrive (.write (.delete lampId)), .execute (1, calm []),
    .execute (0, calm []), .execute (0, calm []), .execute (1, calm []),
    .execute (1, calm [cacheKey lampUrl]), .execute (1, calm []), .execute (1, calm []),
    .arrive (.get lampUrl false), .execute (2, calm []), .execute (2, calm []),
    .execute (2, calm [])]

theorem coherent_timelyStore :
    (run (productStep productPages shop) (servicePool [(lampId, lamp)]) timelyStore).isSome = true ∧
      Throughout (productStep productPages shop) Coherent (servicePool [(lampId, lamp)])
        timelyStore :=
  ⟨by decide +kernel, coherent_of_inTime (by decide +kernel)⟩

end DevopsEcommerce.ProductRoutes
