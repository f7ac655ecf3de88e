import DevopsEcommerce.ProductService.Coherence

/-!
# Whose fault it is

MongoDB confirms what it does, the URLs are written like the routes, and Redis keeps its promise
about `SCAN`. Then every write is in time by itself, and cached reads are coherent unless a `GET`
stores what it asked MongoDB before a change whose invalidation has begun.
-/

open Interleaving Interleaving.Program

namespace DevopsEcommerce.ProductRoutes

section
variable {γ Ω : Type} (platform : Platform) (db : Database γ Ω)

/-- MongoDB confirms its changes, and nothing is stored that is older than a change whose
invalidation has begun. -/
def CommandPunctual (p : ServicePool γ) (i : ℕ) (w : Choice Ω) : Command → Prop
  | .db c => (db.exec p.store.catalogue c w.db).1.isSome = true →
      confirms c (db.exec p.store.catalogue c w.db).2 = true
  | .set _ _ _ => ∀ j u, p.threads[j]? = some u → p.store.OlderThan (p.store.basis i) j →
      (stage u).scanned = false ∧ (stage u).left = none
  | _ => True

def Punctual (p : ServicePool γ) : Event Request (Choice Ω) → Prop
  | .arrive q => q.UnderPrefix
  | .execute (i, w) => ∀ t, p.threads[i]? = some t → ∀ c k, t.program = .call c k →
      CommandPunctual db p i w c

variable {platform db}

/-! ## What is stored -/

def StoresUnder (keyPrefix : String) (c : Command) : Prop :=
  ∀ key text ttl, c = .set key text ttl → isUnder keyPrefix key = true

lemma storesUnder_embed {α : Type} {keyPrefix : String} (p : DbProgram α)
    {f : α → ServiceProgram} (hf : ∀ a, (f a).Issues (StoresUnder keyPrefix)) :
    ((onDb p).bind f).Issues (StoresUnder keyPrefix) := by
  induction p with
  | done a => exact hf a
  | call c k ih => exact .call (fun key text ttl h => absurd h (by simp)) ih

lemma storesUnder_respond (keyPrefix : String) (answer : Answer) :
    (respond answer).Issues (StoresUnder keyPrefix) :=
  .call (fun key text ttl h => absurd h (by simp)) fun _ => .done _

lemma storesUnder_get {url : String} (ttl : ℕ) (handler : DbProgram Answer)
    (h : isUnder cachePrefix (cacheKey url) = true) :
    (cacheMiddleware url ttl handler).Issues (StoresUnder cachePrefix) := by
  have hplain : ((onDb handler).bind respond).Issues (StoresUnder cachePrefix) :=
    storesUnder_embed handler (storesUnder_respond cachePrefix)
  have hstoring : ((onDb handler).bind (respondAndStore (cacheKey url) ttl)).Issues
      (StoresUnder cachePrefix) := by
    refine storesUnder_embed handler fun answer => ?_
    refine .call (fun key text ttl h => absurd h (by simp)) fun _ => ?_
    refine .call (fun key text ttl heq => ?_) fun _ => .done _
    rw [← (Command.set.inj heq).1]
    exact h
  refine .call (fun key text ttl h => absurd h (by simp)) fun cached => ?_
  unfold afterGet
  split
  · exact hplain
  · exact hstoring
  · split
    · exact hstoring
    · split
      · exact hplain
      · exact storesUnder_respond cachePrefix _

lemma storesUnder_delAll {keyPrefix : String} {rest : ServiceProgram}
    (hrest : rest.Issues (StoresUnder keyPrefix)) (keys : List String) :
    (delAll keys rest).Issues (StoresUnder keyPrefix) := by
  induction keys with
  | nil => exact hrest
  | cons key keys ih => exact .call (fun key text ttl h => absurd h (by simp)) fun _ => ih

lemma storesUnder_finish (o : Outcome) : (finish o).Issues (StoresUnder cachePrefix) := by
  cases o with
  | refused answer => exact storesUnder_respond cachePrefix answer
  | written answer =>
    have hrespond := storesUnder_respond cachePrefix answer
    refine .call (fun key text ttl h => absurd h (by simp)) fun started => ?_
    cases started with
    | error e => exact hrespond
    | ok _ =>
      refine .call (fun key text ttl h => absurd h (by simp)) fun scanned => ?_
      cases scanned with
      | error e => exact hrespond
      | ok keys => exact storesUnder_delAll hrespond keys

/-- A request stores under the keys of the routes if its URL is written like them. -/
lemma storesUnder_serve {q : Request} (h : q.UnderPrefix) :
    (serve platform true q).Issues (StoresUnder cachePrefix) := by
  cases q with
  | get url countFirst => exact storesUnder_get _ _ h
  | write w => exact storesUnder_embed _ storesUnder_finish

/-! ## The invariant -/

variable (platform) in
/-- What holds beside the record's soundness. -/
structure Kept (p : ServicePool γ) : Prop where
  sound : Sound platform p
  stores : ∀ t ∈ p.threads, t.program.Issues (StoresUnder cachePrefix)
  under : ∀ key entry, p.store.cache.lookup key = some entry → isUnder cachePrefix key = true
  confirmed : ∀ i t, p.threads[i]? = some t → p.store.written i ≠ 0 → (stage t).written = true
  /-- what is older than a change was there when its `SCAN` began -/
  owed : ∀ key entry, p.store.cache.lookup key = some entry → ∀ j u, p.threads[j]? = some u →
    p.store.OlderThan entry.basis j → (stage u).scanned = true → (stage u).left = none →
      key ∈ p.store.owed j

lemma kept_initial (catalogue : γ) : Kept platform (servicePool catalogue) where
  sound := sound_initial catalogue
  stores := fun t ht => absurd ht (by simp [servicePool])
  under := fun key entry hentry => absurd hentry (by simp [servicePool, Store.initial])
  confirmed := fun i t ht => absurd ht (by simp [servicePool])
  owed := fun key entry hentry => absurd hentry (by simp [servicePool, Store.initial])

lemma Kept.arrive {p : ServicePool γ} (hp : Kept platform p) {q : Request} (hq : q.UnderPrefix) :
    Kept platform
      (p.arrive (fun q => serve platform true q.request) ⟨q, p.store.acknowledged⟩) where
  sound := hp.sound.arrive q
  stores := Pool.forall_arrive hp.stores (storesUnder_serve hq)
  under := hp.under
  confirmed := by
    intro i t ht hwritten
    rcases Pool.thread_of_arrive ht with hold | ⟨rfl, -⟩
    · exact hp.confirmed i t hold hwritten
    · exact absurd (hp.sound.unborn _ (Nat.le_refl _)).2 hwritten
  owed := by
    intro key entry hentry j u hu holder hscanned hleft
    rcases Pool.thread_of_arrive hu with hold | ⟨-, rfl⟩
    · exact hp.owed key entry hentry j u hold holder hscanned hleft
    · exact absurd hscanned Bool.false_ne_true

/-- Entries that are gone are no matter, and are not owed any more. -/
lemma Kept.drop {p : ServicePool γ} (hp : Kept platform p) (keys : List String) :
    Kept platform { p with store := p.store.drop keys } where
  sound := hp.sound.drop keys
  stores := hp.stores
  under := fun key entry hentry => hp.under key entry (Store.lookup_drop_some hentry).2
  confirmed := hp.confirmed
  owed := by
    intro key entry hentry j u hu holder hscanned hleft
    obtain ⟨hthere, hold⟩ := Store.lookup_drop_some hentry
    have howed := hp.owed key entry hold j u hu holder hscanned hleft
    exact List.mem_filter.mpr ⟨howed, by simpa using hthere⟩

section
variable {p p' : ServicePool γ} {i : ℕ} {t : ServiceThread} {c : Command} {r : Reply c}
  {rest : ServiceProgram}

lemma Kept.under_moved (hp : Kept platform p) (h : Moved p p' i t c r rest)
    (hc : StoresUnder cachePrefix c) :
    ∀ key entry, p'.store.cache.lookup key = some entry → isUnder cachePrefix key = true := by
  intro key entry hentry
  rcases h.effect.cache key entry hentry with ⟨hold, -⟩ | ⟨text, ttl, hset, -⟩
  · exact hp.under key entry hold
  · exact hc key text ttl hset

lemma Kept.confirmed_moved (hp : Kept platform p) (h : Moved p p' i t c r rest)
    (hconfirms : p'.store.written i = p.store.written i ∨
      ((stage t).next c r).written = true) :
    ∀ j u, p'.threads[j]? = some u → p'.store.written j ≠ 0 → (stage u).written = true := by
  intro j u hu hwritten
  rcases h.thread_cases hu with ⟨rfl, rfl⟩ | ⟨hj, hold⟩
  · rw [stage_receive]
    rcases hconfirms with hsame | hconfirmed
    · rw [hsame] at hwritten
      exact Stage.written_next (hp.confirmed j t h.thread hwritten) c r
    · exact hconfirmed
  · rw [(h.effect.others j hj).2] at hwritten
    exact hp.confirmed j u hold hwritten

/-- `SCAN` owes what was there when it began, and what was there stays owed while it is there. -/
lemma Kept.owed_moved (hp : Kept platform p) (h : Moved p p' i t c r rest)
    (hunder : ∀ key entry, p'.store.cache.lookup key = some entry →
      isUnder cachePrefix key = true)
    (hscan : ∀ keyPrefix, c = .scanStart keyPrefix →
      p'.store.owed i = p'.store.cache.keys.filter (isUnder keyPrefix))
    (hset : ∀ key text ttl, c = .set key text ttl → ∀ j u, p.threads[j]? = some u →
      p.store.OlderThan (p.store.basis i) j → (stage u).scanned = false) :
    ∀ key entry, p'.store.cache.lookup key = some entry → ∀ j u, p'.threads[j]? = some u →
      p'.store.OlderThan entry.basis j → (stage u).scanned = true → (stage u).left = none →
        key ∈ p'.store.owed j := by
  intro key entry hentry j u hu holder hscanned hleft
  by_cases hstart : j = i ∧ ∃ keyPrefix, c = .scanStart keyPrefix
  · obtain ⟨rfl, keyPrefix, rfl⟩ := hstart
    have hprefix : keyPrefix = cachePrefix := h.allows
    rw [hscan keyPrefix rfl, hprefix]
    refine List.mem_filter.mpr ⟨?_, hunder key entry hentry⟩
    have hmem : key ∈ p'.store.cache := by
      rw [← AList.lookup_isSome]
      exact Option.isSome_of_eq_some hentry
    exact hmem
  have hnot : j = i → ∀ keyPrefix, c ≠ .scanStart keyPrefix :=
    fun hj keyPrefix hc => hstart ⟨hj, keyPrefix, hc⟩
  -- the thread was scanning before, for a change that it had made before
  have hbefore : ∃ u₀, p.threads[j]? = some u₀ ∧ (stage u₀).scanned = true ∧
      (stage u₀).left = none ∧ p'.store.written j = p.store.written j := by
    rcases h.thread_cases hu with ⟨rfl, rfl⟩ | ⟨hj, hold⟩
    · rw [stage_receive] at hscanned hleft
      obtain ⟨hleft₀, hsame⟩ := Stage.scanned_of_next (hnot rfl) hleft
      have hscanned₀ : (stage t).scanned = true := hsame.trans hscanned
      refine ⟨t, h.thread, hscanned₀, hleft₀, ?_⟩
      rcases h.effect.written with hkept | ⟨⟨c', rfl⟩, -⟩
      · exact hkept
      · exact absurd (h.allows.1.symm.trans hscanned₀) (by decide)
    · exact ⟨u, hold, hscanned, hleft, (h.effect.others j hj).2⟩
  obtain ⟨u₀, hu₀, hscanned₀, hleft₀, hwritten⟩ := hbefore
  have holder₀ : p.store.OlderThan entry.basis j := by
    obtain ⟨v, hv, hlt⟩ := holder
    exact ⟨v, hv, by omega⟩
  rcases h.effect.cache key entry hentry with ⟨hold, hdel⟩ | ⟨text, ttl, hc, hbasis⟩
  · exact h.effect.owed j hnot key
      (hp.owed key entry hold j u₀ hu₀ holder₀ hscanned₀ hleft₀) hdel
  · rw [hbasis] at holder₀
    exact absurd ((hset key text ttl hc j u₀ hu₀ holder₀).symm.trans hscanned₀) (by decide)

end

/-- A write is in time by itself, and a `GET` if it is punctual. -/
lemma Kept.inTime {p p' : ServicePool γ} {e : Event Request (Choice Ω)} (hp : Kept platform p)
    (he : Punctual db p e) (hstep : productStep platform db p e = some p') : InTime p e := by
  cases e with
  | arrive q => trivial
  | execute l =>
    obtain ⟨i, w⟩ := l
    obtain ⟨t₀, c₀, k₀, s', r, ht₀, hk₀, hexec, -⟩ := Pool.step_eq_some.mp hstep
    intro t ht c k hk
    obtain rfl : t₀ = t := Option.some.inj (ht₀.symm.trans ht)
    obtain ⟨rfl, -⟩ := Program.call.inj (hk₀.symm.trans hk)
    have hobedient := hp.sound.obedient (List.mem_of_getElem? ht)
    rw [hk] at hobedient
    have hallows : (stage t₀).Allows c₀ := hobedient.allowed_of_call
    have hcommand : CommandPunctual db p i w c₀ := he t₀ ht c₀ k hk
    cases c₀ with
    | db c => trivial
    | get key => trivial
    | scanStart keyPrefix => trivial
    | del key => trivial
    | scanEnd keyPrefix =>
      intro key entry hentry holder
      have hnow : execNow db (p.store.drop w.vanishing) i (.scanEnd keyPrefix) w = some (s', r) :=
        hexec
      rw [execNow, Option.ite_none_right_eq_some] at hnow
      obtain ⟨⟨hreturned, -⟩, -⟩ := hnow
      -- Redis returns what has been there since the SCAN began
      apply hreturned
      exact (hp.drop w.vanishing).owed key entry hentry i t₀ ht holder hallows.2.1 hallows.2.2
    | set key text ttl =>
      intro j u hu holder keys hkeys
      -- the SCAN of whoever has made a newer change has not begun
      exact absurd ((hcommand j u hu holder).2.symm.trans hkeys) (by simp)
    | respond a =>
      intro hunconfirmed key entry _ holder
      -- a change that is counted for this request has been confirmed to it
      obtain ⟨v, -, hlt⟩ := holder
      have hwritten : p.store.written i ≠ 0 := by omega
      exact absurd ((hp.confirmed i t₀ ht hwritten).symm.trans hunconfirmed) (by decide)

/-- A confirmed change leaves its mark on the trace. -/
lemma written_or_confirmed {s s' : Store γ} {i : ℕ} {c : Command} {w : Choice Ω} {r : Reply c}
    (hconfirms : ∀ c', c = .db c' → (db.exec s.catalogue c' w.db).1.isSome = true →
      confirms c' (db.exec s.catalogue c' w.db).2 = true)
    (h : execNow db s i c w = some (s', r)) (st : Stage) :
    s'.written i = s.written i ∨ (st.next c r).written = true := by
  rcases (effect_of_execNow h).written with hsame | ⟨⟨c', rfl⟩, -⟩
  · exact .inl hsame
  cases Option.some.inj h
  cases hchange : (db.exec s.catalogue c' w.db).1 with
  | none => exact .inl rfl
  | some catalogue =>
    right
    have hconfirmed := hconfirms c' rfl (by rw [hchange]; rfl)
    show (st.written || confirms c' _) = true
    rw [hconfirmed, Bool.or_true]

theorem kept_step {p p' : ServicePool γ} {e : Event Request (Choice Ω)} (hp : Kept platform p)
    (he : Punctual db p e) (hstep : productStep platform db p e = some p') :
    Kept platform p' := by
  have hsound : Sound platform p' := sound_step hp.sound (hp.inTime he hstep) hstep
  cases e with
  | arrive q =>
    have hp' : p' = _ := (Option.some.inj hstep).symm
    rw [hp']
    exact hp.arrive he
  | execute l =>
    obtain ⟨i, w⟩ := l
    have hissues := Pool.issues_preserved (StoresUnder cachePrefix) p (i, w) p' hp.stores hstep
    obtain ⟨t, c, k, s', r, ht, hk, hexec, rfl⟩ := Pool.step_eq_some.mp hstep
    have hcommand : CommandPunctual db p i w c := he t ht c k hk
    have hdropped := hp.drop w.vanishing
    have hnow : execNow db (p.store.drop w.vanishing) i c w = some (s', r) := hexec
    have hobedient := hp.sound.obedient (List.mem_of_getElem? ht)
    rw [hk] at hobedient
    have hmoved : Moved { p with store := p.store.drop w.vanishing }
        ⟨s', p.threads.set i (t.receive c r (k r))⟩ i t c r (k r) :=
      ⟨ht, rfl, effect_of_execNow hnow, hobedient.allowed_of_call⟩
    have hstores : StoresUnder cachePrefix c := by
      have ht' := hp.stores t (List.mem_of_getElem? ht)
      rw [hk] at ht'
      cases ht' with
      | call hc _ => exact hc
    -- a `SET` goes under the prefix that the invalidations look for
    have hunder := hdropped.under_moved hmoved hstores
    refine ⟨hsound, hissues, hunder, hdropped.confirmed_moved hmoved ?_,
      hdropped.owed_moved hmoved hunder ?_ ?_⟩
    · refine written_or_confirmed ?_ hnow (stage t)
      intro c' hc'
      subst hc'
      exact hcommand
    · intro keyPrefix hc
      subst hc
      cases Option.some.inj hnow
      exact Store.owed_scanStart _ i keyPrefix
    · intro key text ttl hc j u hu holder
      subst hc
      exact (hcommand j u hu holder).1

/-- If all steps are punctual, no `GET` is answered from before an acknowledged write. -/
theorem coherent_of_punctual {catalogue : γ} {es : List (Event Request (Choice Ω))}
    (hes : StepsMeet (productStep platform db) (Punctual db) (servicePool catalogue) es) :
    Throughout (productStep platform db) Coherent (servicePool catalogue) es :=
  (throughout_of_stepsMeet (fun _ _ _ hp he hstep => kept_step hp he hstep)
    (kept_initial catalogue) hes).mono fun _ hp => hp.sound.coherent

end

end DevopsEcommerce.ProductRoutes
