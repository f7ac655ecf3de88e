import DevopsEcommerce.ProductService.SingleRequests

/-!
# What the cache changes for clients that take turns

Two services get the same requests, one after the other and each to its end: the product
service, and the same without `cacheMiddleware`. MongoDB treats both alike. The two catalogues
never part, so a response differs only if it comes from the cache, and then the theorem says
exactly when it does.
-/

open Interleaving Interleaving.Program

namespace DevopsEcommerce.ProductRoutes

/-- A request that has been served: the answers of the two services, and what MongoDB would have
replied to any command at its start. -/
structure Served where
  answer : Answer
  plainAnswer : Answer
  reply : (c : DbCommand) → DbReply c

/-- The two services and what they have served. -/
structure SideBySide (γ : Type) where
  cached : Store γ
  plain : Store γ
  served : List Served

section
variable {γ Ω : Type} (platform : Platform) (db : Database γ Ω)

def visit (s : SideBySide γ) (e : Visit Ω) : Option (SideBySide γ) :=
  (handle platform db true s.cached s.served.length e).bind fun cached =>
    (handle platform db false s.plain s.served.length e).map fun plain =>
      { cached := cached.1
        plain := plain.1
        served := s.served ++ [⟨cached.2, plain.2, replyNow db s.plain.catalogue e⟩] }

/-- Both services before their first request. -/
def SideBySide.initial (catalogue : γ) : SideBySide γ where
  cached := Store.initial catalogue
  plain := Store.initial catalogue
  served := []

/-- Nobody has been answered differently because of the cache. -/
def Transparent (s : SideBySide γ) : Prop := ∀ r ∈ s.served, r.answer = r.plainAnswer

/-- A `GET` that is going to find an entry finds one that was stored by a success, and MongoDB
still replies to the queries of the route as it did then. -/
def FindsFresh (s : SideBySide γ) (e : Visit Ω) : Prop :=
  match e.request with
  | .write _ => True
  | .get url countFirst =>
    ∀ entry, lookupNow s.cached url e.choose = some entry →
      ∀ r, s.served[entry.origin]? = some r →
        r.plainAnswer.status = 200 ∧
          ∀ c ∈ (getHandler platform countFirst (platform.getRoute url)).asked r.reply,
            replyNow db s.plain.catalogue e c = r.reply c

variable {platform db}

/-! ## Runs -/

lemma cacheKey_injective : Function.Injective cacheKey := by
  intro url url' h
  have hlist := congrArg String.toList h
  unfold cacheKey at hlist
  rw [String.toList_append, String.toList_append] at hlist
  exact String.toList_injective (List.append_cancel_left hlist)

/-- The entry is the response to a `GET` of this key. -/
def Remembered (platform : Platform) (served : List Served) (key : String) (entry : Entry) :
    Prop :=
  ∃ url countFirst r, key = cacheKey url ∧ served[entry.origin]? = some r ∧
    entry.text = Js.stringify r.plainAnswer.body ∧
    r.plainAnswer = (getHandler platform countFirst (platform.getRoute url)).evaluate r.reply

lemma Remembered.append {served : List Served} {key : String} {entry : Entry}
    (h : Remembered platform served key entry) (r' : Served) :
    Remembered platform (served ++ [r']) key entry := by
  obtain ⟨url, countFirst, r, hkey, hr, htext, hanswer⟩ := h
  refine ⟨url, countFirst, r, hkey, ?_, htext, hanswer⟩
  have hlt : entry.origin < served.length := (List.getElem?_eq_some_iff.mp hr).1
  rw [List.getElem?_append_left hlt]
  exact hr

variable (platform) in
/-- The catalogues of the two services have not parted, and the cache is their past. -/
structure Agree (s : SideBySide γ) : Prop where
  catalogue : s.cached.catalogue = s.plain.catalogue
  entries : ∀ key entry, s.cached.cache.lookup key = some entry →
    Remembered platform s.served key entry

lemma agree_initial (catalogue : γ) : Agree platform (SideBySide.initial catalogue) where
  catalogue := rfl
  entries := fun key entry hentry => absurd hentry (by simp [SideBySide.initial, Store.initial])

lemma visit_eq_some {s s' : SideBySide γ} {e : Visit Ω} (h : visit platform db s e = some s') :
    ∃ cached plain,
      handle platform db true s.cached s.served.length e = some cached ∧
      handle platform db false s.plain s.served.length e = some plain ∧
      s' = ⟨cached.1, plain.1,
        s.served ++ [⟨cached.2, plain.2, replyNow db s.plain.catalogue e⟩]⟩ := by
  unfold visit at h
  rw [Option.bind_eq_some_iff] at h
  obtain ⟨cached, hcached, h⟩ := h
  rw [Option.map_eq_some_iff] at h
  obtain ⟨plain, hplain, rfl⟩ := h
  exact ⟨cached, plain, hcached, hplain, rfl⟩

/-- One more request, served alike, leaves everything as it was between the services. -/
lemma transparent_append {served : List Served} {r : Served}
    (h : ∀ r ∈ served, r.answer = r.plainAnswer) :
    (∀ r' ∈ served ++ [r], r'.answer = r'.plainAnswer) ↔ r.answer = r.plainAnswer := by
  constructor
  · intro hall
    exact hall r (List.mem_append_right _ (List.mem_singleton.mpr rfl))
  · intro hr r' hr'
    rcases List.mem_append.mp hr' with hold | hnew
    · exact h r' hold
    · rw [List.mem_singleton.mp hnew]
      exact hr

/-- What one request does to the two services. -/
lemma visit_spec {s s' : SideBySide γ} {e : Visit Ω} (hs : Agree platform s)
    (h : visit platform db s e = some s') :
    Agree platform s' ∧ ∃ r, s'.served = s.served ++ [r] ∧
      (r.answer = r.plainAnswer ↔ FindsFresh platform db s e) := by
  obtain ⟨⟨cached, a⟩, ⟨plain, a'⟩, hcached, hplain, rfl⟩ := visit_eq_some h
  obtain ⟨request, choose⟩ := e
  cases request with
  | write w =>
    obtain ⟨ha, hcatalogue, hfewer⟩ := handle_write hcached
    obtain ⟨ha', hcatalogue', -⟩ := handle_write hplain
    rw [hs.catalogue] at ha hcatalogue
    refine ⟨⟨hcatalogue.trans hcatalogue'.symm, ?_⟩, _, rfl, ?_⟩
    · intro key entry hentry
      exact (hs.entries key entry (hfewer key entry hentry)).append _
    · exact iff_of_true (ha.trans ha'.symm) trivial
  | get url countFirst =>
    obtain ⟨ha', hcatalogue'⟩ := handle_plain_get hplain
    cases hlookup : lookupNow s.cached url choose with
    | none =>
      -- a miss: the handler answers, and its body is stored as the one of this request
      obtain ⟨ha, hcatalogue, hstored⟩ := handle_get_miss hlookup hcached
      rw [hs.catalogue] at ha hcatalogue
      refine ⟨⟨hcatalogue.trans hcatalogue'.symm, ?_⟩, _, rfl, ?_⟩
      · intro key entry hentry
        rcases hstored key entry hentry with ⟨hkey, htext, horigin⟩ | hold
        · refine ⟨url, countFirst, ⟨a, a', replyNow db s.plain.catalogue ⟨_, choose⟩⟩, hkey,
            ?_, ?_, ha'⟩
          · rw [horigin]
            exact List.getElem?_concat_length
          · rw [htext, ha, ← ha']
        · exact (hs.entries key entry hold).append _
      · refine iff_of_true (ha.trans ha'.symm) ?_
        intro entry hentry
        exact absurd (hlookup.symm.trans hentry) (by simp)
    | some entry =>
      -- a hit: the entry is the body of an earlier `GET` of the same URL
      have hold : s.cached.cache.lookup (cacheKey url) = some entry :=
        s.cached.drop_fewer _ _ entry hlookup
      obtain ⟨url', countFirst', r, hkey, hr, htext, hanswer⟩ := hs.entries _ entry hold
      obtain rfl : url = url' := cacheKey_injective hkey
      obtain ⟨ha, hcatalogue, hfewer⟩ := handle_get_hit hlookup htext hcached
      rw [hs.catalogue] at hcatalogue
      refine ⟨⟨hcatalogue.trans hcatalogue'.symm, ?_⟩, _, rfl, ?_⟩
      · intro key entry hentry
        exact (hs.entries key entry (hfewer key entry hentry)).append _
      · show a = a' ↔ _
        rw [ha, ha', hanswer]
        refine (cached_answer_iff countFirst' countFirst _ _ _).trans ?_
        rw [← hanswer]
        constructor
        · intro hfresh entry' hentry' r' hr'
          obtain rfl : entry = entry' := Option.some.inj (hlookup.symm.trans hentry')
          obtain rfl : r = r' := Option.some.inj (hr.symm.trans hr')
          exact hfresh
        · intro hfresh
          exact hfresh entry hlookup r hr

lemma agree_preserved : Preserved (visit platform db) (Agree platform) :=
  fun _ _ _ hs hvisit => (visit_spec hs hvisit).1

lemma transparent_iff_findsFresh {catalogue : γ} {es : List (Visit Ω)} {t : SideBySide γ}
    (hrun : run (visit platform db) (SideBySide.initial catalogue) es = some t) :
    Throughout (visit platform db) Transparent (SideBySide.initial catalogue) es ↔
      StepsMeet (visit platform db) (FindsFresh platform db) (SideBySide.initial catalogue) es := by
  refine throughout_iff_stepsMeet agree_preserved ?_ (agree_initial catalogue) ?_
    (stepsMeet_true _ _) hrun
  · intro s e s' hs htransparent _ hvisit
    obtain ⟨-, r, hserved, hr⟩ := visit_spec hs hvisit
    unfold Transparent
    rw [hserved, transparent_append htransparent]
    exact hr
  · exact fun r hr => absurd hr (by simp [SideBySide.initial])

/-! ## When MongoDB works -/

variable (platform db) in
/-- The catalogues agree, and what is cached under the routes is what MongoDB says. -/
structure Current (s : SideBySide γ) : Prop where
  agree : Agree platform s
  entries : ∀ key entry, s.cached.cache.lookup key = some entry →
    isUnder cachePrefix key = true ∧ ∀ r, s.served[entry.origin]? = some r →
      ∀ c w, c.isRead = true → (db.exec s.plain.catalogue c w).2 = r.reply c

lemma current_initial (catalogue : γ) : Current platform db (SideBySide.initial catalogue) where
  agree := agree_initial catalogue
  entries := fun key entry hentry => absurd hentry (by simp [SideBySide.initial, Store.initial])

/-- What a `GET` leaves in the cache. -/
lemma cached_of_get {s s' : SideBySide γ} {url : String} {countFirst : Bool}
    {choose : Command → Choice Ω} (hs : Agree platform s)
    (h : visit platform db s ⟨.get url countFirst, choose⟩ = some s') :
    s'.plain.catalogue = s.plain.catalogue ∧
      (∃ a a', s'.served = s.served ++
        [⟨a, a', replyNow db s.plain.catalogue ⟨.get url countFirst, choose⟩⟩]) ∧
      ∀ key entry, s'.cached.cache.lookup key = some entry →
        (key = cacheKey url ∧ entry.origin = s.served.length) ∨
          s.cached.cache.lookup key = some entry := by
  obtain ⟨⟨cached, a⟩, ⟨plain, a'⟩, hcached, hplain, rfl⟩ := visit_eq_some h
  refine ⟨(handle_plain_get hplain).2, ⟨a, a', rfl⟩, ?_⟩
  intro key entry hentry
  cases hlookup : lookupNow s.cached url choose with
  | none =>
    obtain ⟨-, -, hstored⟩ := handle_get_miss hlookup hcached
    rcases hstored key entry hentry with ⟨hkey, -, horigin⟩ | hold
    · exact .inl ⟨hkey, horigin⟩
    · exact .inr hold
  | some found =>
    have hthere := s.cached.drop_fewer _ _ found hlookup
    obtain ⟨-, -, r, -, -, htext, -⟩ := hs.entries _ found hthere
    obtain ⟨-, -, hfewer⟩ := handle_get_hit hlookup htext hcached
    exact .inr (hfewer key entry hentry)

/-- What is remembered is not overwritten. -/
lemma Remembered.served_append {served : List Served} {key : String} {entry : Entry}
    (h : Remembered platform served key entry) {r r' : Served}
    (hr : (served ++ [r'])[entry.origin]? = some r) : served[entry.origin]? = some r := by
  obtain ⟨-, -, r₀, -, hr₀, -, -⟩ := h
  rw [List.getElem?_append_left (List.getElem?_eq_some_iff.mp hr₀).1] at hr
  exact hr

lemma current_visit (hworks : db.Works) {s s' : SideBySide γ} {e : Visit Ω}
    (hs : Current platform db s) (he : e.request.UnderPrefix)
    (h : visit platform db s e = some s') : Current platform db s' := by
  have hagree : Agree platform s' := agree_preserved s e s' hs.agree h
  refine ⟨hagree, ?_⟩
  obtain ⟨request, choose⟩ := e
  intro key entry hentry
  cases request with
  | get url countFirst =>
    obtain ⟨hcatalogue, ⟨a, a', hserved⟩, hcached⟩ := cached_of_get hs.agree h
    rw [hcatalogue, hserved]
    rcases hcached key entry hentry with ⟨rfl, horigin⟩ | hold
    · refine ⟨he, fun r hr c w hc => ?_⟩
      rw [horigin, List.getElem?_concat_length, Option.some.injEq] at hr
      rw [← hr]
      exact hworks.reads _ c _ _ hc
    · obtain ⟨hunder, hreplies⟩ := hs.entries key entry hold
      exact ⟨hunder, fun r hr => hreplies r ((hs.agree.entries key entry hold).served_append hr)⟩
  | write w =>
    obtain ⟨⟨cached, a⟩, ⟨plain, a'⟩, hcached, hplain, rfl⟩ := visit_eq_some h
    obtain ⟨-, -, hfewer⟩ := handle_write hcached
    have hold := hfewer key entry hentry
    obtain ⟨hunder, hreplies⟩ := hs.entries key entry hold
    refine ⟨hunder, ?_⟩
    -- either the catalogue is as before, or no entry under the prefix is left
    rcases handle_write_invalidates hworks hcached with hsame | hgone
    · have hplainSame : plain.catalogue = s.plain.catalogue :=
        hagree.catalogue.symm.trans (hsame.trans hs.agree.catalogue)
      show ∀ r, (s.served ++ [_])[entry.origin]? = some r → ∀ c w, c.isRead = true →
        (db.exec plain.catalogue c w).2 = r.reply c
      rw [hplainSame]
      exact fun r hr => hreplies r ((hs.agree.entries key entry hold).served_append hr)
    · exact absurd (hentry.symm.trans (hgone key hunder)) (by simp)

/-- A `GET` that is going to find an entry finds one that was stored by a success. -/
def FindsSuccess (s : SideBySide γ) (e : Visit Ω) : Prop :=
  match e.request with
  | .write _ => True
  | .get url _ =>
    ∀ entry, lookupNow s.cached url e.choose = some entry →
      ∀ r, s.served[entry.origin]? = some r → r.plainAnswer.status = 200

instance decidableFindsSuccess (s : SideBySide γ) : (e : Visit Ω) → Decidable (FindsSuccess s e)
  | ⟨.write _, _⟩ => .isTrue trivial
  | ⟨.get url _, choose⟩ =>
    inferInstanceAs (Decidable (∀ entry ∈ lookupNow s.cached url choose,
      ∀ r ∈ s.served[entry.origin]?, r.plainAnswer.status = 200))

lemma findsFresh_iff {s : SideBySide γ} {e : Visit Ω} (hs : Current platform db s) :
    FindsFresh platform db s e ↔ FindsSuccess s e := by
  obtain ⟨request, choose⟩ := e
  cases request with
  | write w => exact Iff.rfl
  | get url countFirst =>
    constructor
    · intro h entry hentry r hr
      exact (h entry hentry r hr).1
    · intro h entry hentry r hr
      refine ⟨h entry hentry r hr, fun c hc => ?_⟩
      have hread : c.isRead = true :=
        (getHandler_reads platform countFirst (platform.getRoute url)).asked r.reply c hc
      have hold := s.cached.drop_fewer _ _ entry hentry
      exact (hs.entries _ entry hold).2 r hr c _ hread

/-- A request is served alike exactly if it does not find a failure in the cache, or something
that MongoDB would not say again. If MongoDB works and the URLs are written like the routes, the
second does not happen. -/
theorem transparent_iff {catalogue : γ} {es : List (Visit Ω)} {t : SideBySide γ}
    (hrun : run (visit platform db) (SideBySide.initial catalogue) es = some t) :
    (Throughout (visit platform db) Transparent (SideBySide.initial catalogue) es ↔
      StepsMeet (visit platform db) (FindsFresh platform db) (SideBySide.initial catalogue)
        es) ∧
    (db.Works → (∀ e ∈ es, e.request.UnderPrefix) →
      (Throughout (visit platform db) Transparent (SideBySide.initial catalogue) es ↔
        StepsMeet (visit platform db) FindsSuccess (SideBySide.initial catalogue) es)) := by
  refine ⟨transparent_iff_findsFresh hrun, fun hworks hes => ?_⟩
  rw [transparent_iff_findsFresh hrun]
  refine stepsMeet_iff_stepsMeet (I := Current platform db)
    (D := fun _ e => e.request.UnderPrefix) ?_ ?_ (current_initial catalogue)
    (stepsMeet_of_forall hes _) hrun
  · exact fun s e s' hs he _ hvisit => current_visit hworks hs he hvisit
  · exact fun s e s' hs _ _ => findsFresh_iff hs

end

/-! ## Two visitors -/

lemma shop_works : shop.Works where
  reads := by
    intro g c w w' hc
    rfl
  changes := by
    intro g c w h
    cases c with
    | findByIdAndDelete id =>
      simp only [shop] at h ⊢
      split at h
      · rename_i hthere
        rw [if_pos hthere]
        rfl
      · exact absurd h Bool.false_ne_true
    | _ => exact absurd h Bool.false_ne_true

def lookAtLamp : Visit Unit := ⟨.get lampUrl false, fun _ => calm []⟩

def deleteLamp : Visit Unit := ⟨.write (.delete lampId), fun _ => calm [cacheKey lampUrl]⟩

/-- The lamp is looked at twice, deleted, and looked for once more. -/
def browsing : List (Visit Unit) := [lookAtLamp, lookAtLamp, deleteLamp, lookAtLamp]

lemma isSome_browsing : (run (visit productPages shop)
    (SideBySide.initial [(lampId, lamp)]) browsing).isSome = true := by
  decide +kernel

lemma browsing_underPrefix : ∀ e ∈ browsing, e.request.UnderPrefix := by
  have hlook : lookAtLamp.request.UnderPrefix := by
    show isUnder cachePrefix (cacheKey lampUrl) = true
    decide +kernel
  intro e he
  simp only [browsing, List.mem_cons, List.not_mem_nil, or_false] at he
  rcases he with rfl | rfl | rfl | rfl
  · exact hlook
  · exact hlook
  · exact trivial
  · exact hlook

theorem transparent_iff_browsing : Throughout (visit productPages shop) Transparent
    (SideBySide.initial [(lampId, lamp)]) browsing :=
  ((transparent_iff (run_final isSome_browsing)).2 shop_works browsing_underPrefix).mpr
    (by decide +kernel)

/-- Who asks for the lamp a second time is told 200 where there is none. -/
theorem not_found_becomes_ok :
    ∃ t, run (visit productPages shop) (SideBySide.initial []) [lookAtLamp, lookAtLamp] = some t ∧
      (t.served.map fun r => (r.answer.status, r.plainAnswer.status)) =
        [(404, 404), (200, 404)] ∧ ¬ Transparent t := by
  have hstatuses : ((run (visit productPages shop) (SideBySide.initial [])
      [lookAtLamp, lookAtLamp]).map fun s => s.served.map fun r =>
        (r.answer.status, r.plainAnswer.status)) = some [(404, 404), (200, 404)] := by
    decide +kernel
  obtain ⟨t, hrun, hserved⟩ := Option.map_eq_some_iff.mp hstatuses
  refine ⟨t, hrun, hserved, fun htransparent => ?_⟩
  have hmem : (200, 404) ∈ t.served.map fun r => (r.answer.status, r.plainAnswer.status) := by
    rw [hserved]
    decide
  obtain ⟨r, hr, hpair⟩ := List.mem_map.mp hmem
  rw [htransparent r hr, Prod.mk.injEq] at hpair
  omega

end DevopsEcommerce.ProductRoutes
