import DevopsEcommerce.UserService.Tokens

/-!
# Sessions and the logins they come from

Every session in Redis was stored by the one login with its id and has not been deleted, and a
session that was stored and not deleted is still in Redis (`Linked`). This links the two sources
of truth, tokens and sessions: a token that decodes has been returned by a login, and what Redis
knows of its session is what has happened to it since.
-/

open Interleaving Program

namespace DevopsEcommerce.UserService

/-! ## Assumptions on a run -/

/-- The session id that a login is going to use. -/
def UserRequest.sessionId? : UserRequest → Option String
  | .login _ sessionId => some sessionId
  | _ => none

/-- Some login has returned the token. -/
def Issued (p : UserPool) (token : String) : Prop :=
  ∃ t ∈ p.threads, t.program.answer? = some (tokenResponse token)

/-- `uuid4` never repeats, and a token that `jwt.decode` accepts is one that the service has
made: no one else knows the secret. -/
def Assumed (lib : Libraries) (p : UserPool) : UserEvent → Prop
  | .arrive request => ∀ t ∈ p.threads, ∀ sessionId ∈ request.sessionId?,
      t.request.sessionId? ≠ some sessionId
  | .execute l => ∀ t ∈ p.threads[l.1]?, t.trace.isEmpty = true → ∀ token ∈ t.request.token?,
      (lib.decode l.2.reading token).isSome = true → Issued p token

instance (p : UserPool) (token : String) : Decidable (Issued p token) :=
  inferInstanceAs (Decidable (∃ t ∈ p.threads, _))

instance (lib : Libraries) (p : UserPool) : (e : UserEvent) → Decidable (Assumed lib p e)
  | .arrive request =>
    inferInstanceAs (Decidable (∀ t ∈ p.threads, ∀ sessionId ∈ request.sessionId?, _))
  | .execute l =>
    inferInstanceAs (Decidable (∀ t ∈ p.threads[l.1]?, _ → ∀ token ∈ t.request.token?, _ → _))

lemma sessionKey_injective : Function.Injective sessionKey := by
  intro s s' h
  unfold sessionKey at h
  exact (String.append_right_inj _).mp h

/-! ## What a command does to the sessions -/

/-- Some thread has deleted the session. -/
def Deleted (store : UserStore) (key : String) : Prop := ∃ i, .delete i key ∈ store.log

/-- A commit leaves the sessions and the clock. -/
lemma commit_frame (store : UserStore) (fault : Fault) (result : Except CommitError (List User)) :
    (commit store fault result).1.sessions = store.sessions ∧
      (commit store fault result).1.log = store.log ∧
      (commit store fault result).1.now = store.now := by
  unfold commit
  split
  · exact ⟨rfl, rfl, rfl⟩
  · cases result <;> exact ⟨rfl, rfl, rfl⟩

/-- A command leaves the sessions, stores one or deletes one. -/
lemma execUser_cases {store store' : UserStore} {i : ℕ} {command : UserCommand}
    {c : Circumstances} {r : UserReply command}
    (h : execUser store i command c = some (store', r)) :
    (store'.sessions = store.sessions ∧ store'.log = store.log ∧
      (∀ key value ex, (⟨command, r⟩ : Σ c, UserReply c) ≠ ⟨.setSession key value ex, .ok ()⟩) ∧
      ∀ key, (⟨command, r⟩ : Σ c, UserReply c) ≠ ⟨.deleteSession key, .ok ()⟩) ∨
    (∃ key value ex, command = .setSession key value ex ∧
      store'.sessions = store.sessions.set store'.now key value (ex * 1000) ∧
      store'.log = .set i key store'.now :: store.log) ∨
    ∃ key, command = .deleteSession key ∧ store'.sessions = store.sessions.del key ∧
      store'.log = .delete i key :: store.log := by
  cases command with
  | setSession key value ex =>
    simp only [execUser, Option.some.injEq, Prod.mk.injEq] at h
    obtain ⟨rfl, rfl⟩ := h
    by_cases hfault : c.fault = .before
    · rw [if_pos hfault]
      refine .inl ⟨rfl, rfl, fun _ _ _ heq => ?_, fun _ heq => absurd heq (by simp)⟩
      simp [writeReply, hfault] at heq
    · -- executed, even if the reply is lost
      rw [if_neg hfault]
      exact .inr (.inl ⟨key, value, ex, rfl, rfl, rfl⟩)
  | deleteSession key =>
    simp only [execUser, Option.some.injEq, Prod.mk.injEq] at h
    obtain ⟨rfl, rfl⟩ := h
    by_cases hfault : c.fault = .before
    · rw [if_pos hfault]
      refine .inl ⟨rfl, rfl, fun _ _ _ heq => absurd heq (by simp), fun _ heq => ?_⟩
      simp [writeReply, hfault] at heq
    · rw [if_neg hfault]
      exact .inr (.inr ⟨key, rfl, rfl, rfl⟩)
  | commitInsert id email name hashedPassword =>
    obtain ⟨rfl, rfl⟩ := Prod.mk.inj (Option.some.inj h)
    refine .inl ⟨?_, ?_, fun _ _ _ heq => absurd heq (by simp), fun _ heq => absurd heq (by simp)⟩
    · exact (commit_frame _ _ _).1
    · exact (commit_frame _ _ _).2.1
  | commitUpdate id changes =>
    obtain ⟨rfl, rfl⟩ := Prod.mk.inj (Option.some.inj h)
    refine .inl ⟨?_, ?_, fun _ _ _ heq => absurd heq (by simp), fun _ heq => absurd heq (by simp)⟩
    · exact (commit_frame _ _ _).1
    · exact (commit_frame _ _ _).2.1
  | selectByEmail _ | selectById _ | getSession _ | utcnow =>
    obtain ⟨rfl, rfl⟩ := Prod.mk.inj (Option.some.inj h)
    exact .inl ⟨rfl, rfl, fun _ _ _ heq => absurd heq (by simp), fun _ heq => absurd heq (by simp)⟩

/-- What a command adds to the log is its own, and nothing is taken from the log. -/
lemma execUser_log {store store' : UserStore} {i : ℕ} {command : UserCommand}
    {c : Circumstances} {r : UserReply command}
    (h : execUser store i command c = some (store', r)) :
    (∀ e ∈ store.log, e ∈ store'.log) ∧
    ∀ j key time, .set j key time ∈ store'.log → .set j key time ∈ store.log ∨
      j = i ∧ ∃ value ex, command = .setSession key value ex := by
  rcases execUser_cases h with ⟨-, hlog, -⟩ | ⟨key, value, ex, rfl, -, hlog⟩ | ⟨key, rfl, -, hlog⟩
  · rw [hlog]
    exact ⟨fun e he => he, fun j key time he => .inl he⟩
  · rw [hlog]
    refine ⟨fun e he => List.mem_cons_of_mem _ he, fun j key' time he => ?_⟩
    rcases List.mem_cons.mp he with heq | he
    · obtain ⟨rfl, rfl, -⟩ := SessionEvent.set.inj heq
      exact .inr ⟨rfl, value, ex, rfl⟩
    · exact .inl he
  · rw [hlog]
    refine ⟨fun e he => List.mem_cons_of_mem _ he, fun j key' time he => .inl ?_⟩
    exact (List.mem_cons.mp he).resolve_left (by simp)

/-- Redis answers `GET` with what it holds. -/
lemma execUser_getSession {store store' : UserStore} {i : ℕ} {key : String} {c : Circumstances}
    {r : Except CallError (Option SessionData)}
    (h : execUser store i (.getSession key) c = some (store', r)) :
    r = readReply c.fault (.ok (store.sessions.get (store.now + c.elapsed) key)) :=
  (Prod.mk.inj (Option.some.inj h)).2.symm

/-! ## The invariant -/

/-- What a thread may conclude about the log from a reply. -/
def Told (store : UserStore) (i : ℕ) : (Σ c, UserReply c) → Prop
  | ⟨.setSession key _ _, .ok ()⟩ => ∃ time, .set i key time ∈ store.log
  | ⟨.deleteSession key, .ok ()⟩ => Deleted store key
  | ⟨.getSession key, .ok (some _)⟩ => ∃ j time, .set j key time ∈ store.log
  | _ => True

/-- How traces, log and sessions hang together. -/
structure Linked (lib : Libraries) (p : UserPool) : Prop where
  serves : p.Serves (serve lib)
  unique : ∀ {i j : ℕ} {t u : UserThread} {sessionId : String}, p.threads[i]? = some t →
    p.threads[j]? = some u → t.request.sessionId? = some sessionId →
    u.request.sessionId? = some sessionId → i = j
  told : ∀ i t, p.threads[i]? = some t → ∀ e ∈ t.trace, Told p.store i e
  /-- A session in the log was stored by its thread. -/
  set_trace : ∀ {i time : ℕ} {key : String}, .set i key time ∈ p.store.log →
    ∃ t value ex r, p.threads[i]? = some t ∧
      (⟨.setSession key value ex, r⟩ : Σ c, UserReply c) ∈ t.trace
  deleted : ∀ {key : String}, Deleted p.store key → ∃ i time, .set i key time ∈ p.store.log
  /-- Redis has exactly the sessions that were stored and not deleted. -/
  stored : ∀ {key : String} {session : Redis.Timed SessionData},
    p.store.sessions.lookup key = some session → ¬ Deleted p.store key ∧
      ∃ i time, .set i key time ∈ p.store.log
  kept : ∀ {i time : ℕ} {key : String}, .set i key time ∈ p.store.log → ¬ Deleted p.store key →
    ∃ value, p.store.sessions.lookup key = some ⟨value, time + sessionTTLSeconds * 1000⟩
  /-- A token that has been decoded has been issued. -/
  issued : ∀ {t : UserThread} {token : String} {now : ℕ} {claims : Claims}, t ∈ p.threads →
    t.request.token? = some token → [⟨.utcnow, now⟩] <:+ t.trace →
    lib.decode now token = some claims → Issued p token

section
variable {lib : Libraries}

lemma linked_initial (users : List User) : Linked lib (UserPool.initial users) where
  serves t ht := absurd ht (by simp [UserPool.initial])
  unique ht := absurd ht (by simp [UserPool.initial])
  told i t ht := absurd ht (by simp [UserPool.initial])
  set_trace hlog := absurd hlog (by simp [UserPool.initial])
  deleted hdeleted := by
    obtain ⟨i, hlog⟩ := hdeleted
    exact absurd hlog (by simp [UserPool.initial])
  stored hlookup := absurd hlookup (by simp [UserPool.initial])
  kept hlog := absurd hlog (by simp [UserPool.initial])
  issued ht := absurd ht (by simp [UserPool.initial])

/-- A token stays issued. -/
lemma Issued.step {p p' : UserPool} {e : UserEvent} {token : String} (h : Issued p token)
    (hstep : userStep lib p e = some p') : Issued p' token := by
  obtain ⟨t, ht, hanswer⟩ := h
  obtain ⟨i, hi⟩ := List.mem_iff_getElem?.mp ht
  obtain ⟨t', ht', -, -, hsame⟩ := Pool.thread_openStep hstep hi
  have hended : t.program.next? = none := by
    rw [answer?_eq_some hanswer]
    rfl
  rw [hsame hended] at ht'
  exact ⟨t, List.mem_of_getElem? ht', hanswer⟩

/-- A new request that uses a session id of its own keeps everything linked. -/
lemma Linked.arrive {p : UserPool} (h : Linked lib p) {req : UserRequest}
    (hfresh : Assumed lib p (.arrive req)) : Linked lib (p.arrive (serve lib) req) := by
  have hstep : userStep lib p (.arrive req) = some (p.arrive (serve lib) req) := rfl
  refine
    { serves := Pool.serves_openPreserved p _ _ h.serves hstep
      unique := ?_
      told := Pool.told_arrive req h.told
      set_trace := ?_
      deleted := h.deleted
      stored := h.stored
      kept := h.kept
      issued := ?_ }
  · intro i j t u sessionId ht hu hts hus
    rcases Pool.thread_of_arrive ht with ht | ⟨rfl, rfl⟩ <;>
      rcases Pool.thread_of_arrive hu with hu | ⟨rfl, rfl⟩
    · exact h.unique ht hu hts hus
    · exact absurd hts (hfresh t (List.mem_of_getElem? ht) sessionId hus)
    · exact absurd hus (hfresh u (List.mem_of_getElem? hu) sessionId hts)
    · rfl
  · intro i time key hlog
    obtain ⟨t, value, ex, r, ht, hmem⟩ := h.set_trace hlog
    exact ⟨t, value, ex, r, Pool.getElem?_arrive ht, hmem⟩
  · intro t token now claims ht htoken hclock hdecode
    obtain ⟨i, hi⟩ := List.mem_iff_getElem?.mp ht
    rcases Pool.thread_of_arrive hi with hi | ⟨-, rfl⟩
    · exact (h.issued (List.mem_of_getElem? hi) htoken hclock hdecode).step hstep
    · exact absurd hclock (by simp)

/-! ## Commands -/

/-- The login that is about to store a session is the first to use its id. -/
lemma Linked.not_set_before {p : UserPool} (h : Linked lib p) {i : ℕ} {t : UserThread}
    {key : String} {value : SessionData} {ex : ℕ}
    {k : Except CallError Unit → UserProgram} (ht : p.threads[i]? = some t)
    (hk : t.program = .call (.setSession key value ex) k) :
    ex = sessionTTLSeconds ∧ ∀ j time, .set j key time ∉ p.store.log := by
  have hfollows := h.serves t (List.mem_of_getElem? ht)
  obtain ⟨-, hwithin⟩ := (serve_within t.request).follows hfollows
  rw [hk] at hwithin
  cases hwithin with
  | call hmay _ =>
    obtain ⟨body, sessionId, hrequest, rfl, rfl⟩ := hmay
    refine ⟨rfl, fun j time hlog => ?_⟩
    obtain ⟨u, value', ex', r, hu, hmem⟩ := h.set_trace hlog
    obtain ⟨htrace, -⟩ := (serve_within u.request).follows (h.serves u (List.mem_of_getElem? hu))
    obtain ⟨body', sessionId', hrequest', hkey, -⟩ := htrace _ hmem
    obtain rfl := sessionKey_injective hkey
    -- the other thread is this very login, which has not stored anything yet
    have hij : i = j := by
      apply h.unique ht hu
      · rw [hrequest]
        rfl
      · rw [hrequest']
        rfl
    subst hij
    obtain rfl := Option.some.inj (ht.symm.trans hu)
    rw [hrequest] at hfollows
    generalize htr : t.trace = trace at hfollows hmem
    generalize hprogram : t.program = program at hfollows hk
    cases loginStage hfollows with
    | start => exact absurd hmem (by simp)
    | refused hno => exact absurd hk (by simp)
    | verified hverified => exact absurd hmem (by simp)
    | stored hverified k' hk' => exact absurd hk (by simp)
    | returned hverified now => exact absurd hk (by simp)

/-- A logout deletes a session that it has looked up. -/
lemma Linked.set_before_delete {p : UserPool} (h : Linked lib p) {i : ℕ} {t : UserThread}
    {key : String} {k : Except CallError Unit → UserProgram} (ht : p.threads[i]? = some t)
    (hk : t.program = .call (.deleteSession key) k) : ∃ j time, .set j key time ∈ p.store.log := by
  have hfollows := h.serves t (List.mem_of_getElem? ht)
  obtain ⟨-, hwithin⟩ := (serve_within t.request).follows hfollows
  rw [hk] at hwithin
  cases hwithin with
  | call hmay _ =>
    obtain ⟨token, hrequest⟩ := hmay
    rw [hrequest] at hfollows
    have hnext : t.program.next? = some (.deleteSession key) := by
      rw [hk]
      rfl
    obtain ⟨data, rfl, haccepted⟩ := accepted_of_deleting hfollows hnext
    obtain ⟨now, session, hsuffix, -⟩ := accepted_iff.mp haccepted
    exact h.told i t ht _ (hsuffix.subset List.mem_cons_self)

lemma Told.mono {store store' : UserStore} {i : ℕ} {e : Σ c, UserReply c}
    (hlog : ∀ e ∈ store.log, e ∈ store'.log) (h : Told store i e) : Told store' i e := by
  unfold Told at h ⊢
  split at h
  · obtain ⟨time, htime⟩ := h
    exact ⟨time, hlog _ htime⟩
  · obtain ⟨j, hj⟩ := h
    exact ⟨j, hlog _ hj⟩
  · obtain ⟨j, time, htime⟩ := h
    exact ⟨j, time, hlog _ htime⟩
  · trivial

/-- A reply tells the truth. -/
lemma told_reply {store store' : UserStore} {i : ℕ} {command : UserCommand} {c : Circumstances}
    {r : UserReply command} (h : execUser store i command c = some (store', r))
    (hstored : ∀ key session, store.sessions.lookup key = some session →
      ∃ j time, .set j key time ∈ store.log) : Told store' i ⟨command, r⟩ := by
  cases command with
  | setSession key value ex =>
    simp only [execUser, Option.some.injEq, Prod.mk.injEq] at h
    obtain ⟨rfl, rfl⟩ := h
    unfold writeReply
    cases hfault : c.fault with
    | none => exact ⟨_, List.mem_cons_self⟩
    | before => trivial
    | after => trivial
  | deleteSession key =>
    simp only [execUser, Option.some.injEq, Prod.mk.injEq] at h
    obtain ⟨rfl, rfl⟩ := h
    unfold writeReply
    cases hfault : c.fault with
    | none => exact ⟨_, List.mem_cons_self⟩
    | before => trivial
    | after => trivial
  | getSession key =>
    obtain ⟨rfl, rfl⟩ := Prod.mk.inj (Option.some.inj h)
    unfold readReply
    split
    · cases hget : store.sessions.get (store.now + c.elapsed) key with
      | none => trivial
      | some session =>
        -- a session that is found has been stored by somebody
        obtain ⟨deadline, hlookup, -⟩ := Redis.Keys.get_eq_some.mp hget
        exact hstored key _ hlookup
    · trivial
  | commitInsert _ _ _ _ | commitUpdate _ _ | selectByEmail _ | selectById _ | utcnow => trivial

/-- What a store keeps of the link: Redis has exactly the sessions in the log that were not
deleted. -/
structure SessionsLogged (store : UserStore) : Prop where
  deleted : ∀ {key : String}, Deleted store key → ∃ i time, .set i key time ∈ store.log
  stored : ∀ {key : String} {session : Redis.Timed SessionData},
    store.sessions.lookup key = some session → ¬ Deleted store key ∧
      ∃ i time, .set i key time ∈ store.log
  kept : ∀ {i time : ℕ} {key : String}, .set i key time ∈ store.log → ¬ Deleted store key →
    ∃ value, store.sessions.lookup key = some ⟨value, time + sessionTTLSeconds * 1000⟩

namespace SessionsLogged

variable {store store' : UserStore}

lemma congr (h : SessionsLogged store) (hsessions : store'.sessions = store.sessions)
    (hlog : store'.log = store.log) : SessionsLogged store' := by
  have hdeleted : ∀ key, Deleted store' key ↔ Deleted store key := fun key => by
    unfold Deleted
    rw [hlog]
  constructor
  · simp only [hdeleted, hlog]
    exact h.deleted
  · simp only [hdeleted, hsessions, hlog]
    exact h.stored
  · simp only [hdeleted, hsessions, hlog]
    exact h.kept

/-- The session of a login that no one has used before. -/
lemma set (h : SessionsLogged store) {i : ℕ} {key : String} {value : SessionData}
    (hunset : ∀ j time, .set j key time ∉ store.log)
    (hsessions : store'.sessions =
      store.sessions.set store'.now key value (sessionTTLSeconds * 1000))
    (hlog : store'.log = .set i key store'.now :: store.log) : SessionsLogged store' := by
  have hdeleted : ∀ key, Deleted store' key ↔ Deleted store key := fun key => by
    unfold Deleted
    rw [hlog]
    simp
  have hundeleted : ¬ Deleted store key := fun hdel => by
    obtain ⟨j, time, hmem⟩ := h.deleted hdel
    exact hunset j time hmem
  constructor
  · intro key' hdel
    obtain ⟨j, time, hmem⟩ := h.deleted ((hdeleted key').mp hdel)
    exact ⟨j, time, hlog ▸ .tail _ hmem⟩
  · intro key' session hlookup
    rw [hdeleted, hlog]
    rw [hsessions] at hlookup
    by_cases hkey : key' = key
    · subst hkey
      exact ⟨hundeleted, i, _, .head _⟩
    · rw [Redis.Keys.lookup_set_of_ne hkey] at hlookup
      obtain ⟨hdel, j, time, hmem⟩ := h.stored hlookup
      exact ⟨hdel, j, time, .tail _ hmem⟩
  · intro j time key' hmem hdel
    rw [hlog] at hmem
    rw [hdeleted] at hdel
    rw [hsessions]
    rcases List.mem_cons.mp hmem with heq | hmem
    · obtain ⟨rfl, rfl, rfl⟩ := SessionEvent.set.inj heq
      exact ⟨value, Redis.Keys.lookup_set_self _ _ _ _ _⟩
    · have hkey : key' ≠ key := fun heq => hunset j time (heq ▸ hmem)
      rw [Redis.Keys.lookup_set_of_ne hkey]
      exact h.kept hmem hdel

/-- The session of a logout, which its login has stored. -/
lemma delete (h : SessionsLogged store) {i : ℕ} {key : String}
    (hset : ∃ j time, .set j key time ∈ store.log)
    (hsessions : store'.sessions = store.sessions.del key)
    (hlog : store'.log = .delete i key :: store.log) : SessionsLogged store' := by
  have hdeleted : ∀ key', Deleted store' key' ↔ key' = key ∨ Deleted store key' := fun key' => by
    unfold Deleted
    rw [hlog]
    simp only [List.mem_cons, SessionEvent.delete.injEq, exists_or]
    constructor
    · rintro (⟨j, -, hkey⟩ | hold)
      · exact .inl hkey
      · exact .inr hold
    · rintro (hkey | hold)
      · exact .inl ⟨i, rfl, hkey⟩
      · exact .inr hold
  have hmem_set : ∀ j key' time, .set j key' time ∈ store'.log ↔ .set j key' time ∈ store.log := by
    intro j key' time
    rw [hlog, List.mem_cons, or_iff_right]
    exact fun heq => by cases heq
  constructor
  · intro key' hdel
    simp only [hmem_set]
    rcases (hdeleted key').mp hdel with rfl | hold
    · exact hset
    · exact h.deleted hold
  · intro key' session hlookup
    simp only [hdeleted, hmem_set]
    rw [hsessions] at hlookup
    have hkey : key' ≠ key := by
      rintro rfl
      rw [Redis.Keys.lookup_del_self] at hlookup
      exact absurd hlookup (by simp)
    rw [Redis.Keys.lookup_del_of_ne hkey] at hlookup
    obtain ⟨hdel, hmem⟩ := h.stored hlookup
    exact ⟨fun hor => hor.elim hkey hdel, hmem⟩
  · intro j time key' hmem hdel
    rw [hdeleted] at hdel
    obtain ⟨hkey, hdel⟩ := not_or.mp hdel
    rw [hsessions, Redis.Keys.lookup_del_of_ne hkey]
    exact h.kept ((hmem_set j key' time).mp hmem) hdel

end SessionsLogged

/-- What the store keeps of the link when a command is executed. -/
lemma Linked.execute_store {p p' : UserPool} (h : Linked lib p) {i : ℕ} {c : Circumstances}
    (hstep : userStep lib p (.execute (i, c)) = some p') : SessionsLogged p'.store := by
  obtain ⟨t, command, k, store, r, ht, hk, hexec, rfl⟩ := Pool.step_eq_some.mp hstep
  simp only at ht hexec ⊢
  have hlogged : SessionsLogged p.store := ⟨h.deleted, h.stored, h.kept⟩
  rcases execUser_cases hexec with ⟨hsessions, hlog, -⟩ | ⟨key, value, ex, rfl, hsessions, hlog⟩ |
    ⟨key, rfl, hsessions, hlog⟩
  · exact hlogged.congr hsessions hlog
  · obtain ⟨rfl, hunset⟩ := h.not_set_before ht hk
    exact hlogged.set hunset hsessions hlog
  · exact hlogged.delete (h.set_before_delete ht hk) hsessions hlog

/-- A token that decodes when its request reads the clock has been issued. -/
lemma Linked.execute_issued {p p' : UserPool} (h : Linked lib p) {i : ℕ} {c : Circumstances}
    (hauthentic : Assumed lib p (.execute (i, c)))
    (hstep : userStep lib p (.execute (i, c)) = some p') {u : UserThread} {token : String}
    {now : ℕ} {claims : Claims} (hu : u ∈ p'.threads) (htoken : u.request.token? = some token)
    (hclock : [⟨.utcnow, now⟩] <:+ u.trace) (hdecode : lib.decode now token = some claims) :
    Issued p' token := by
  have hold : ∀ {u : UserThread}, u ∈ p.threads → u.request.token? = some token →
      [⟨.utcnow, now⟩] <:+ u.trace → Issued p' token :=
    fun hu htoken hclock => (h.issued hu htoken hclock hdecode).step hstep
  obtain ⟨j, hj⟩ := List.mem_iff_getElem?.mp hu
  rcases Pool.thread_of_openStep hstep hj with hj | ⟨q, heq, -, rfl⟩ |
    ⟨c', t, command, k, store, r, heq, ht, -, hexec, -, rfl⟩
  · exact hold (List.mem_of_getElem? hj) htoken hclock
  · exact absurd heq (by simp)
  · obtain ⟨rfl, rfl⟩ := Prod.mk.inj (Event.execute.inj heq)
    rcases List.suffix_cons_iff.mp hclock with hfirst | hclock
    · -- the clock is read in this step
      obtain ⟨hcommand, hempty⟩ := List.cons.inj hfirst
      obtain ⟨rfl, hreading⟩ := Sigma.mk.inj hcommand
      obtain rfl := eq_of_heq hreading
      obtain ⟨-, rfl⟩ := Prod.mk.inj (Option.some.inj hexec)
      have htrace : t.trace.isEmpty = true := by
        rw [← hempty]
        rfl
      have hissued : Issued p token := by
        apply hauthentic t ht htrace token htoken
        rw [hdecode]
        rfl
      exact hissued.step hstep
    · exact hold (List.mem_of_getElem? ht) htoken hclock

/-- A command keeps everything linked. -/
lemma Linked.execute {p p' : UserPool} (h : Linked lib p) {i : ℕ} {c : Circumstances}
    (hauthentic : Assumed lib p (.execute (i, c)))
    (hstep : userStep lib p (.execute (i, c)) = some p') : Linked lib p' := by
  have hlogged := h.execute_store hstep
  refine
    { serves := Pool.serves_openPreserved p _ _ h.serves hstep
      unique := ?_
      told := ?_
      set_trace := ?_
      deleted := hlogged.deleted
      stored := hlogged.stored
      kept := hlogged.kept
      issued := h.execute_issued hauthentic hstep }
  · intro j j' u u' sessionId hu hu' hs hs'
    obtain ⟨v, hv, hrequest⟩ := Pool.request_of_step hstep hu
    obtain ⟨v', hv', hrequest'⟩ := Pool.request_of_step hstep hu'
    exact h.unique hv hv' (hrequest ▸ hs) (hrequest' ▸ hs')
  · refine Pool.told_step hstep ?_ ?_ h.told
    · obtain ⟨t, command, k, store, r, -, -, hexec, rfl⟩ := Pool.step_eq_some.mp hstep
      exact fun _ _ htold => htold.mono (execUser_log hexec).1
    · intro command r hexec
      exact told_reply hexec fun key session hlookup => (h.stored hlookup).2
  · intro j time key hmem
    obtain ⟨t, command, k, store, r, ht, -, hexec, rfl⟩ := Pool.step_eq_some.mp hstep
    rcases (execUser_log hexec).2 j key time hmem with hmem | ⟨rfl, value, ex, rfl⟩
    · obtain ⟨u, value, ex, r', hu, htrace⟩ := h.set_trace hmem
      obtain ⟨u', hu', -, hsuffix, -⟩ := Pool.thread_openStep hstep hu
      exact ⟨u', value, ex, r', hu', hsuffix.subset htrace⟩
    · exact ⟨_, value, ex, r, getElem?_set_moved ht _, List.mem_cons_self⟩

/-- What is linked stays linked. -/
theorem linked_step {p p' : UserPool} {e : UserEvent} (h : Linked lib p)
    (hassumed : Assumed lib p e) (hstep : userStep lib p e = some p') : Linked lib p' := by
  cases e with
  | arrive req =>
    obtain rfl := Option.some.inj hstep
    exact h.arrive hassumed
  | execute l => exact h.execute hassumed hstep

end

end DevopsEcommerce.UserService
