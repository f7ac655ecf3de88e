import DevopsEcommerce.ProductService.Cache
import DevopsEcommerce.ProductService.Invalidation

/-!
# One request at a time

What a request does to the stores when no other comes in between, with the middleware and
without. The environment may choose differently for different commands of the request, but no
request issues a command to MongoDB twice.
-/

open Interleaving Interleaving.Program

namespace DevopsEcommerce.ProductRoutes

/-- A request, and how its commands fare. -/
structure Visit (Ω : Type) where
  request : Request
  choose : Command → Choice Ω

section
variable {γ Ω : Type} (platform : Platform) (db : Database γ Ω)

/-- The lookup that the middleware makes. -/
def lookupNow (s : Store γ) (url : String) (choose : Command → Choice Ω) : Option Entry :=
  (s.drop (choose (.get (cacheKey url))).vanishing).cache.lookup (cacheKey url)

/-- The `i`-th request from its start to its end. -/
def handle (withCache : Bool) (s : Store γ) (i : ℕ) (e : Visit Ω) : Option (Store γ × Answer) :=
  (serve platform withCache e.request).perform (exec db) i (fun _ => e.choose) 0 s

/-- The reply of MongoDB to a command at the start of a request. -/
def replyNow (catalogue : γ) (e : Visit Ω) (c : DbCommand) : DbReply c :=
  (db.exec catalogue c (e.choose (.db c)).db).2

variable {platform db}

/-! ## One request -/

/-- Whatever is cached here is cached there. -/
def Store.Fewer (s s' : Store γ) : Prop :=
  ∀ key entry, s.cache.lookup key = some entry → s'.cache.lookup key = some entry

lemma Store.Fewer.refl (s : Store γ) : s.Fewer s := fun _ _ h => h

lemma Store.Fewer.trans {s s' s'' : Store γ} (h : s.Fewer s') (h' : s'.Fewer s'') :
    s.Fewer s'' := fun key entry hentry => h' key entry (h key entry hentry)

lemma Store.drop_fewer (s : Store γ) (keys : List String) : (s.drop keys).Fewer s :=
  fun _ _ h => (Store.lookup_drop_some h).2

variable (db) in
/-- A program to its end, the environment's choices depending on the commands only. -/
def conduct (p : ServiceProgram) (i : ℕ) (choose : Command → Choice Ω) (s : Store γ) :
    Option (Store γ × Answer) :=
  p.perform (exec db) i (fun _ => choose) 0 s

lemma conduct_call (c : Command) (k : Reply c → ServiceProgram) (i : ℕ)
    (choose : Command → Choice Ω) (s : Store γ) :
    conduct db (.call c k) i choose s =
      (exec db s i c (choose c)).bind fun sr => conduct db (k sr.2) i choose sr.1 := by
  unfold conduct
  rw [perform]
  exact congrArg _ (funext fun sr => perform_const (k sr.2) _ _ sr.1)

variable (db) in
/-- What a handler makes of the catalogue, and what it ends with. -/
def runDb {α : Type} (choose : DbCommand → Ω) : DbProgram α → γ → γ × α
  | .done a, catalogue => (catalogue, a)
  | .call c k, catalogue =>
    runDb choose (k (db.exec catalogue c (choose c)).2)
      ((db.exec catalogue c (choose c)).1.getD catalogue)

/-- A handler that only reads leaves the catalogue and answers by its replies. -/
lemma runDb_of_reads {α : Type} {choose : DbCommand → Ω} {Q : α → Prop} {p : DbProgram α}
    (hp : p.Within (fun c => c.isRead = true) Q) (catalogue : γ) :
    runDb db choose p catalogue =
      (catalogue, p.evaluate fun c => (db.exec catalogue c (choose c)).2) := by
  induction hp with
  | done _ => rfl
  | @call c k hc _ ih =>
    rw [runDb, evaluate, db.reads_keep catalogue c (choose c) hc, Option.getD_none]
    exact ih _

variable (db) in
/-- A handler takes the same course whatever is in the cache, and puts nothing there. -/
lemma conduct_onDb {α : Type} (i : ℕ) (choose : Command → Choice Ω) (p : DbProgram α)
    (f : α → ServiceProgram) (s : Store γ) :
    ∃ s', conduct db ((onDb p).bind f) i choose s =
        conduct db (f (runDb db (fun c => (choose (.db c)).db) p s.catalogue).2) i choose s' ∧
      s'.catalogue = (runDb db (fun c => (choose (.db c)).db) p s.catalogue).1 ∧
      s'.Fewer s := by
  induction p generalizing s with
  | done a => exact ⟨s, rfl, rfl, Store.Fewer.refl s⟩
  | call c k ih =>
    let dropped := s.drop (choose (.db c)).vanishing
    let result := db.exec s.catalogue c (choose (.db c)).db
    let s₁ := dropped.commit i result.1
    obtain ⟨s', hsame, hcatalogue, hfewer⟩ := ih result.2 s₁
    have hs₁ : s₁.catalogue = result.1.getD s.catalogue := Store.catalogue_commit dropped i result.1
    rw [hs₁] at hsame hcatalogue
    refine ⟨s', ?_, hcatalogue, ?_⟩
    · exact (conduct_call _ _ _ _ _).trans hsame
    · refine hfewer.trans ?_
      intro key entry hentry
      rw [Store.cache_commit] at hentry
      exact Store.drop_fewer s _ key entry hentry

lemma conduct_respond (answer : Answer) (i : ℕ) (choose : Command → Choice Ω) (s : Store γ) :
    conduct db (respond answer) i choose s =
      some ((s.drop (choose (.respond answer)).vanishing).respond i, answer) := by
  unfold respond
  rw [conduct_call]
  rfl

/-- `p` responds with the answer, changes no catalogue and stores nothing, if it ends at all. -/
def OnlyResponds (db : Database γ Ω) (p : ServiceProgram) (answer : Answer) : Prop :=
  ∀ i choose (s s' : Store γ) a, conduct db p i choose s = some (s', a) →
    a = answer ∧ s'.catalogue = s.catalogue ∧ s'.Fewer s

lemma onlyResponds_respond (answer : Answer) : OnlyResponds db (respond answer) answer := by
  intro i choose s s' a h
  rw [conduct_respond] at h
  have hpair := Option.some.inj h
  have hs' : s' = _ := (congrArg Prod.fst hpair).symm
  refine ⟨(congrArg Prod.snd hpair).symm, ?_, ?_⟩
  · rw [hs']
    rfl
  · rw [hs']
    exact Store.drop_fewer s _

/-- A command of the invalidation before something that only responds. -/
lemma OnlyResponds.call {c : Command} {k : Reply c → ServiceProgram} {answer : Answer}
    (hc : ∀ i w (s s' : Store γ) r, execNow db s i c w = some (s', r) →
      s'.catalogue = s.catalogue ∧ s'.Fewer s)
    (hk : ∀ r, OnlyResponds db (k r) answer) : OnlyResponds db (.call c k) answer := by
  intro i choose s s' a h
  rw [conduct_call, Option.bind_eq_some_iff] at h
  obtain ⟨⟨s₁, r⟩, hexec, hrest⟩ := h
  obtain ⟨hcatalogue, hfewer⟩ := hc i _ _ _ _ hexec
  obtain ⟨ha, hcatalogue', hfewer'⟩ := hk r i choose s₁ s' a hrest
  exact ⟨ha, hcatalogue'.trans hcatalogue, hfewer'.trans (hfewer.trans (s.drop_fewer _))⟩

lemma onlyResponds_delAll {rest : ServiceProgram} {answer : Answer}
    (hrest : OnlyResponds db rest answer) (keys : List String) :
    OnlyResponds db (delAll keys rest) answer := by
  induction keys with
  | nil => exact hrest
  | cons key keys ih =>
    refine .call ?_ fun _ => ih
    intro i w s s' r h
    have hs' : s' = s.drop [key] := (congrArg Prod.fst (Option.some.inj h)).symm
    rw [hs']
    exact ⟨rfl, s.drop_fewer _⟩

/-- The answer of a write's end. -/
def Outcome.answer : Outcome → Answer
  | .refused answer | .written answer => answer

lemma onlyResponds_finish (o : Outcome) : OnlyResponds db (finish o) o.answer := by
  cases o with
  | refused answer => exact onlyResponds_respond answer
  | written answer =>
    have hrest : OnlyResponds db (respond answer) answer := onlyResponds_respond answer
    refine .call ?_ fun started => ?_
    · intro i w s s' r h
      have hs' : s' = s.scanStart i cachePrefix := (congrArg Prod.fst (Option.some.inj h)).symm
      rw [hs']
      exact ⟨rfl, Store.Fewer.refl s⟩
    cases started with
    | error e => exact hrest
    | ok _ =>
      refine .call ?_ fun scanned => ?_
      · intro i w s s' r h
        rw [execNow, Option.ite_none_right_eq_some] at h
        have hs' : s' = s := (congrArg Prod.fst (Option.some.inj h.2)).symm
        rw [hs']
        exact ⟨rfl, Store.Fewer.refl s⟩
      cases scanned with
      | error e => exact hrest
      | ok keys => exact onlyResponds_delAll hrest keys

/-! ## One request of either service -/

/-- A write is served alike, whatever is cached. -/
lemma handle_write {withCache : Bool} {w : WriteRequest} {choose : Command → Choice Ω} {i : ℕ}
    {s s' : Store γ} {a : Answer}
    (h : handle platform db withCache s i ⟨.write w, choose⟩ = some (s', a)) :
    let result := runDb db (fun c => (choose (.db c)).db) (writeHandler platform w) s.catalogue
    a = result.2.answer ∧ s'.catalogue = result.1 ∧ s'.Fewer s := by
  intro result
  have hconduct : conduct db ((onDb (writeHandler platform w)).bind finish) i choose s =
    some (s', a) := h
  obtain ⟨s₁, hsame, hcatalogue, hfewer⟩ :=
    conduct_onDb db i choose (writeHandler platform w) finish s
  rw [hsame] at hconduct
  obtain ⟨ha, hcatalogue', hfewer'⟩ := onlyResponds_finish result.2 i choose s₁ s' a hconduct
  exact ⟨ha, hcatalogue'.trans hcatalogue, hfewer'.trans hfewer⟩

variable (platform db) in
/-- What the handler of a `GET` makes of the catalogue as it is. -/
def answerNow (catalogue : γ) (url : String) (countFirst : Bool) (e : Visit Ω) : Answer :=
  (getHandler platform countFirst (platform.getRoute url)).evaluate (replyNow db catalogue e)

variable (platform db) in
/-- The handler of a `GET`, with what comes after it. -/
lemma conduct_getHandler (url : String) (countFirst : Bool) (i : ℕ) (e : Visit Ω)
    (f : Answer → ServiceProgram) (s : Store γ) :
    ∃ s', conduct db ((onDb (getHandler platform countFirst (platform.getRoute url))).bind f) i
          e.choose s =
        conduct db (f (answerNow platform db s.catalogue url countFirst e)) i e.choose s' ∧
      s'.catalogue = s.catalogue ∧ s'.Fewer s := by
  obtain ⟨s', hsame, hcatalogue, hfewer⟩ :=
    conduct_onDb db i e.choose (getHandler platform countFirst (platform.getRoute url)) f s
  rw [runDb_of_reads (getHandler_reads platform countFirst _)] at hsame hcatalogue
  exact ⟨s', hsame, hcatalogue, hfewer⟩

lemma handle_plain_get {url : String} {countFirst : Bool} {choose : Command → Choice Ω} {i : ℕ}
    {s s' : Store γ} {a : Answer}
    (h : handle platform db false s i ⟨.get url countFirst, choose⟩ = some (s', a)) :
    a = answerNow platform db s.catalogue url countFirst ⟨.get url countFirst, choose⟩ ∧
      s'.catalogue = s.catalogue := by
  have hconduct : conduct db ((onDb (getHandler platform countFirst
    (platform.getRoute url))).bind respond) i choose s = some (s', a) := h
  obtain ⟨s₁, hsame, hcatalogue, -⟩ :=
    conduct_getHandler platform db url countFirst i ⟨.get url countFirst, choose⟩ respond s
  rw [hsame] at hconduct
  obtain ⟨ha, hcatalogue', -⟩ := onlyResponds_respond _ i choose s₁ s' a hconduct
  exact ⟨ha, hcatalogue'.trans hcatalogue⟩

/-- Every entry is one of `s`, but for those under `key`, which thread `i` has stored. -/
def StoredBy (s' s : Store γ) (i : ℕ) (key text : String) : Prop :=
  ∀ key' entry, s'.cache.lookup key' = some entry →
    (key' = key ∧ entry.text = text ∧ entry.origin = i) ∨ s.cache.lookup key' = some entry

lemma conduct_store {answer : Answer} {key : String} {ttl i : ℕ}
    {choose : Command → Choice Ω} {s s' : Store γ} {a : Answer}
    (h : conduct db (respondAndStore key ttl answer) i choose s = some (s', a)) :
    a = answer ∧ s'.catalogue = s.catalogue ∧
      StoredBy s' s i key (Js.stringify answer.body) := by
  rw [respondAndStore, conduct_call, Option.bind_eq_some_iff] at h
  obtain ⟨⟨s₁, r⟩, hrespond, h⟩ := h
  have hs₁ : s₁ = (s.drop (choose (.respond answer)).vanishing).respond i :=
    (congrArg Prod.fst (Option.some.inj hrespond)).symm
  rw [conduct_call, Option.bind_eq_some_iff] at h
  obtain ⟨⟨s₂, r₂⟩, hset, h⟩ := h
  have hs₂ : s₂ = (s₁.drop (choose (.set key (Js.stringify answer.body) ttl)).vanishing).set i key
      (Js.stringify answer.body) :=
    (congrArg Prod.fst (Option.some.inj hset)).symm
  have hpair := Option.some.inj h
  have hs' : s' = s₂ := (congrArg Prod.fst hpair).symm
  refine ⟨(congrArg Prod.snd hpair).symm, ?_, ?_⟩
  · rw [hs', hs₂, hs₁]
    rfl
  · intro key' entry hentry
    rw [hs', hs₂, Store.lookup_set] at hentry
    split at hentry <;> rename_i hkey
    · have hnew := Option.some.inj hentry
      exact .inl ⟨hkey, (congrArg Entry.text hnew).symm, (congrArg Entry.origin hnew).symm⟩
    · have hold := Store.drop_fewer s₁ _ key' entry hentry
      rw [hs₁] at hold
      exact .inr (Store.drop_fewer s _ key' entry hold)

variable (platform db) in
lemma handle_cached_get (url : String) (countFirst : Bool) (choose : Command → Choice Ω) (i : ℕ)
    (s : Store γ) :
    ∃ s', handle platform db true s i ⟨.get url countFirst, choose⟩ =
        conduct db (afterGet (cacheKey url) (platform.getRoute url).ttl
          (getHandler platform countFirst (platform.getRoute url))
          (.ok ((lookupNow s url choose).map Entry.text))) i choose s' ∧
      s'.catalogue = s.catalogue ∧ s'.Fewer s := by
  let dropped := s.drop (choose (.get (cacheKey url))).vanishing
  refine ⟨(dropped.get i (cacheKey url)).1, ?_, ?_, ?_⟩
  · have hreply : (dropped.get i (cacheKey url)).2 = (lookupNow s url choose).map Entry.text :=
      Store.reply_get dropped i (cacheKey url)
    rw [← hreply]
    exact conduct_call _ _ _ _ _
  · exact Store.catalogue_get dropped i (cacheKey url)
  · intro key entry hentry
    rw [Store.cache_get] at hentry
    exact s.drop_fewer _ key entry hentry

lemma handle_get_miss {url : String} {countFirst : Bool} {choose : Command → Choice Ω} {i : ℕ}
    {s s' : Store γ} {a : Answer} (hmiss : lookupNow s url choose = none)
    (h : handle platform db true s i ⟨.get url countFirst, choose⟩ = some (s', a)) :
    a = answerNow platform db s.catalogue url countFirst ⟨.get url countFirst, choose⟩ ∧
      s'.catalogue = s.catalogue ∧ StoredBy s' s i (cacheKey url) (Js.stringify a.body) := by
  obtain ⟨s₁, hsame, hcatalogue₁, hfewer₁⟩ :=
    handle_cached_get platform db url countFirst choose i s
  rw [hsame, hmiss] at h
  obtain ⟨s₂, hsame₂, hcatalogue₂, hfewer₂⟩ :=
    conduct_getHandler platform db url countFirst i ⟨.get url countFirst, choose⟩
      (respondAndStore (cacheKey url) (platform.getRoute url).ttl) s₁
  have hconduct := hsame₂.symm.trans h
  obtain ⟨ha, hcatalogue₃, hstored⟩ := conduct_store hconduct
  rw [hcatalogue₁] at ha
  refine ⟨ha, hcatalogue₃.trans (hcatalogue₂.trans hcatalogue₁), ?_⟩
  intro key entry hentry
  rcases hstored key entry hentry with hnew | hold
  · rw [hcatalogue₁, ← ha] at hnew
    exact .inl hnew
  · exact .inr (hfewer₁ key entry (hfewer₂ key entry hold))

lemma handle_get_hit {url : String} {countFirst : Bool} {choose : Command → Choice Ω} {i : ℕ}
    {s s' : Store γ} {a : Answer} {entry : Entry} {body : Json}
    (hhit : lookupNow s url choose = some entry) (htext : entry.text = Js.stringify body)
    (h : handle platform db true s i ⟨.get url countFirst, choose⟩ = some (s', a)) :
    a = ⟨200, body⟩ ∧ s'.catalogue = s.catalogue ∧ s'.Fewer s := by
  obtain ⟨s₁, hsame, hcatalogue₁, hfewer₁⟩ :=
    handle_cached_get platform db url countFirst choose i s
  rw [hsame, hhit, Option.map_some, htext, afterGet, if_neg (Js.stringify_ne_empty body),
    Js.parse_stringify] at h
  obtain ⟨ha, hcatalogue, hfewer⟩ := onlyResponds_respond _ i choose s₁ s' a h
  exact ⟨ha, hcatalogue.trans hcatalogue₁, hfewer.trans hfewer₁⟩

/-! ## What a write leaves in the cache -/

lemma Store.Fewer.lookup_none {s s' : Store γ} (h : s.Fewer s') {key : String}
    (hkey : s'.cache.lookup key = none) : s.cache.lookup key = none := by
  cases hlookup : s.cache.lookup key with
  | none => rfl
  | some entry => exact absurd (hkey.symm.trans (h key entry hlookup)) (by simp)

lemma conduct_delAll {keys : List String} {answer a : Answer} {i : ℕ}
    {choose : Command → Choice Ω} {s s' : Store γ}
    (h : conduct db (delAll keys (respond answer)) i choose s = some (s', a)) {key : String}
    (hkey : key ∈ keys ∨ s.cache.lookup key = none) : s'.cache.lookup key = none := by
  induction keys generalizing s with
  | nil =>
    obtain ⟨-, -, hfewer⟩ := onlyResponds_respond answer i choose s s' a h
    rcases hkey with hmem | hnone
    · exact absurd hmem (by simp)
    · exact hfewer.lookup_none hnone
  | cons k keys ih =>
    rw [delAll, conduct_call] at h
    refine ih h ?_
    show key ∈ keys ∨ ((s.drop (choose (.del k)).vanishing).drop [k]).cache.lookup key = none
    by_cases hmem : key ∈ keys
    · exact .inl hmem
    right
    rw [Store.lookup_drop]
    split <;> rename_i hk
    · rfl
    · rcases hkey with hcons | hnone
      · rcases List.mem_cons.mp hcons with heq | hmem'
        · exact absurd (List.mem_singleton.mpr heq) hk
        · exact absurd hmem' hmem
      · exact (s.drop_fewer _).lookup_none hnone

/-- The pattern of the invalidation covers every key that starts like the routes. -/
lemma conduct_finish_written {answer a : Answer} {i : ℕ} {choose : Command → Choice Ω}
    {s s' : Store γ} (h : conduct db (finish (.written answer)) i choose s = some (s', a))
    {key : String} (hkey : isUnder cachePrefix key = true) : s'.cache.lookup key = none := by
  rw [finish, invalidateCache, conduct_call, Option.bind_eq_some_iff] at h
  obtain ⟨⟨s₁, started⟩, hstart, h⟩ := h
  have hpair := Option.some.inj hstart
  obtain rfl : started = .ok () := (congrArg Prod.snd hpair).symm
  have hs₁ : s₁ = (s.drop (choose (.scanStart cachePrefix)).vanishing).scanStart i cachePrefix :=
    (congrArg Prod.fst hpair).symm
  rw [conduct_call, Option.bind_eq_some_iff] at h
  obtain ⟨⟨s₂, scanned⟩, hend, h⟩ := h
  rw [exec, execNow, Option.ite_none_right_eq_some] at hend
  obtain ⟨⟨howed, -⟩, hend⟩ := hend
  have hpair₂ := Option.some.inj hend
  obtain rfl : scanned = .ok (choose (.scanEnd cachePrefix)).scanned :=
    (congrArg Prod.snd hpair₂).symm
  have hs₂ : s₂ = s₁.drop (choose (.scanEnd cachePrefix)).vanishing :=
    (congrArg Prod.fst hpair₂).symm
  refine conduct_delAll h ?_
  -- a key that is still there has been there since the start of the `SCAN`
  cases hlookup : s₂.cache.lookup key with
  | none => exact .inr rfl
  | some entry =>
    left
    apply howed
    rw [hs₂] at hlookup
    obtain ⟨hvanished, hthere⟩ := Store.lookup_drop_some hlookup
    refine List.mem_filter.mpr ⟨?_, by simpa using hvanished⟩
    rw [hs₁] at hthere ⊢
    rw [Store.owed_scanStart]
    refine List.mem_filter.mpr ⟨?_, hkey⟩
    have hmem : key ∈ (s.drop (choose (.scanStart cachePrefix)).vanishing).cache := by
      rw [← AList.lookup_isSome]
      exact Option.isSome_of_eq_some hthere
    exact hmem

/-- MongoDB works: its replies depend on the catalogue alone, and it confirms its changes. -/
structure Database.Works (db : Database γ Ω) : Prop where
  reads : ∀ g c w w', c.isRead = true → (db.exec g c w).2 = (db.exec g c w').2
  changes : ∀ g c w, (db.exec g c w).1.isSome = true → confirms c (db.exec g c w).2 = true

/-- A handler that ends without a confirmed change has changed nothing. -/
lemma runDb_of_obeys {α : Type} (hworks : db.Works) (choose : DbCommand → Ω)
    {allowed : Stage → DbCommand → Prop} {Q : Stage → α → Prop} {s : Stage} {p : DbProgram α}
    (hp : Obeys Stage.nextDb allowed Q s p) (catalogue : γ) :
    ∃ s', Q s' (runDb db choose p catalogue).2 ∧ (s.written = true → s'.written = true) ∧
      (s'.written = false → (runDb db choose p catalogue).1 = catalogue) := by
  induction hp generalizing catalogue with
  | @done s a ha => exact ⟨s, ha, id, fun _ => rfl⟩
  | @call s c k _ _ ih =>
    obtain ⟨s', hQ, hflag, hsame⟩ := ih (db.exec catalogue c (choose c)).2
      ((db.exec catalogue c (choose c)).1.getD catalogue)
    refine ⟨s', hQ, ?_, ?_⟩
    · intro hs
      apply hflag
      show (s.written || _) = true
      rw [hs, Bool.true_or]
    · intro hs'
      refine (hsame hs').trans ?_
      cases hchange : (db.exec catalogue c (choose c)).1 with
      | none => rfl
      | some changed =>
        have hconfirms := hworks.changes catalogue c (choose c) (by rw [hchange]; rfl)
        have hset : s'.written = true := by
          apply hflag
          show (s.written || confirms c _) = true
          rw [hconfirms, Bool.or_true]
        exact absurd (hset.symm.trans hs') (by decide)

/-- A write that changes the catalogue leaves no key of the routes behind. -/
theorem handle_write_invalidates {withCache : Bool} {w : WriteRequest}
    {choose : Command → Choice Ω} {i : ℕ} {s s' : Store γ} {a : Answer} (hworks : db.Works)
    (h : handle platform db withCache s i ⟨.write w, choose⟩ = some (s', a)) :
    s'.catalogue = s.catalogue ∨
      ∀ key, isUnder cachePrefix key = true → s'.cache.lookup key = none := by
  have hconduct : conduct db ((onDb (writeHandler platform w)).bind finish) i choose s =
    some (s', a) := h
  obtain ⟨s₁, hsame, hcatalogue, hfewer⟩ :=
    conduct_onDb db i choose (writeHandler platform w) finish s
  rw [hsame] at hconduct
  obtain ⟨st, hreports, -, hkept⟩ := runDb_of_obeys hworks (fun c => (choose (.db c)).db)
    (writeHandler_reports platform w) s.catalogue
  cases hwritten : st.written with
  | false =>
    left
    obtain ⟨-, hcatalogue', -⟩ := onlyResponds_finish _ i choose s₁ s' a hconduct
    rw [hcatalogue', hcatalogue]
    exact hkept hwritten
  | true =>
    right
    obtain ⟨answer, hanswer⟩ := hreports.2 hwritten
    rw [hanswer] at hconduct
    exact fun key hkey => conduct_finish_written hconduct hkey

end

end DevopsEcommerce.ProductRoutes
