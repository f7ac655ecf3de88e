import DevopsEcommerce.UserService.Authentication

/-!
# What a deactivation leaves possible

`deactivate_user` clears `is_active` and does no more. No login that starts later succeeds, as
`login` looks at the flag. But `_validate_token` does not, and the sessions of the user stay:
`deactivation_takes_effect_iff` says that a later request is authenticated as the user exactly if
one presents a token that still stands, and `authenticated_after_deactivation` is such a run.
-/

open Interleaving Postgres Program

namespace DevopsEcommerce.UserService

/-- The request has been authenticated as a user, by a token or by a login of its own. -/
def AuthenticatedAs (lib : Libraries) (t : UserThread) (userId : String) : Prop :=
  (∃ token sessionId, t.request.token? = some token ∧
    Accepted lib token ⟨userId, sessionId⟩ t.trace) ∨
  ∃ user sessionId issued token, Granted lib t user sessionId issued token ∧ user.id = userId

/-- A request from number `n` on is about to look up the session of a token of the user that
stands, and Redis is going to answer. -/
def PresentsStandingToken (lib : Libraries) (n : ℕ) (userId : String) (p : UserPool) :
    UserEvent → Prop
  | .arrive _ => False
  | .execute (i, c) => n ≤ i ∧ c.fault = .none ∧ ∃ t token reading sessionId,
      p.threads[i]? = some t ∧ t.request.token? = some token ∧
      t.trace = [⟨.utcnow, reading⟩] ∧
      Stands lib p token ⟨userId, sessionId⟩ reading (p.store.now + c.elapsed)

/-! ## The flag -/

/-- The user has been deactivated. -/
def Deactivated (store : UserStore) (userId : String) : Prop :=
  (∃ user ∈ store.users, user.id = userId) ∧
    ∀ user ∈ store.users, user.id = userId → user.isActive = false

/-- What a thread may conclude about the flag from a reply. -/
def SaysDeactivated (store : UserStore) (_ : ℕ) : (Σ c, UserReply c) → Prop
  | ⟨.selectById id, .ok (some user)⟩ => user.isActive = false → Deactivated store id
  | ⟨.commitUpdate id changes, .ok ()⟩ => changes.isActive = some false → Deactivated store id
  | _ => True

/-- A commit leaves the rows and does not succeed, or writes the new ones, whose email is not
taken. -/
lemma commit_cases (store : UserStore) (fault : Fault) (result : Except CommitError (List User)) :
    ((commit store fault result).1.users = store.users ∧
      (commit store fault result).2 ≠ .ok ()) ∨
    (result = .ok (commit store fault result).1.users ∧
      (commit store fault result).2 ≠ .error .integrity) := by
  unfold commit
  split
  · exact .inl ⟨rfl, by simp⟩
  · cases result with
    | error e =>
      refine .inl ⟨rfl, ?_⟩
      simp only
      split <;> simp
    | ok users =>
      refine .inr ⟨rfl, ?_⟩
      simp only
      split <;> simp

lemma commit_ok {store : UserStore} {fault : Fault} {result : Except CommitError (List User)}
    (h : (commit store fault result).2 = .ok ()) :
    result = .ok (commit store fault result).1.users := by
  rcases commit_cases store fault result with ⟨-, hfails⟩ | ⟨hresult, -⟩
  · exact absurd h hfails
  · exact hresult

/-- Of a user only the name may be stored otherwise than it is. -/
lemma User.stored_eq_some {user row : User} (h : user.stored = some row) :
    keeps 255 user.email = true ∧ keeps 255 user.hashedPassword = true ∧
      ∃ name, varchar 255 user.name = some name ∧ row = { user with name := name } := by
  unfold User.stored at h
  split at h
  · rename_i hkept
    obtain ⟨hemail, hhash⟩ := Bool.and_eq_true_iff.mp hkept
    obtain ⟨name, hname, rfl⟩ := Option.map_eq_some_iff.mp h
    exact ⟨hemail, hhash, name, hname, rfl⟩
  · cases h

lemma UserChanges.stored_eq_some {changes stored : UserChanges} (h : changes.stored = some stored) :
    ∃ name, stored = { changes with name := name } := by
  unfold UserChanges.stored at h
  split at h
  · obtain ⟨name, -, rfl⟩ := Option.map_eq_some_iff.mp h
    exact ⟨name, rfl⟩
  · cases h

/-- The columns store a row as it is. -/
lemma User.stored_stored {user row : User} (h : user.stored = some row) :
    row.stored = some row := by
  obtain ⟨hemail, hhash, name, hname, rfl⟩ := stored_eq_some h
  unfold User.stored
  rw [if_pos (Bool.and_eq_true_iff.mpr ⟨hemail, hhash⟩), varchar_varchar hname, Option.map_some]

lemma User.stored_eq_self_iff {user : User} : user.stored = some user ↔
    keeps 255 user.email = true ∧ keeps 255 user.name = true ∧
      keeps 255 user.hashedPassword = true := by
  constructor
  · intro h
    obtain ⟨hemail, hhash, name, hname, heq⟩ := stored_eq_some h
    have hsame : user.name = name := congrArg User.name heq
    exact ⟨hemail, keeps_eq_true.mpr (hname.trans (congrArg some hsame.symm)), hhash⟩
  · rintro ⟨hemail, hname, hhash⟩
    unfold User.stored
    rw [if_pos (Bool.and_eq_true_iff.mpr ⟨hemail, hhash⟩), keeps_eq_true.mp hname, Option.map_some]

/-- An update of a row stores what it sets as a new row would. -/
lemma User.stored_apply {user : User} (h : user.stored = some user) (changes : UserChanges)
    (time : ℕ) : (changes.apply time user).stored =
      changes.stored.map fun stored => stored.apply time user := by
  obtain ⟨hemail, hname, hhash⟩ := stored_eq_self_iff.mp h
  unfold User.stored UserChanges.stored
  simp only [UserChanges.apply, keeps_getD hemail, keeps_getD hhash, varchar_getD hname]
  split
  · cases changes.name.mapM (varchar 255) <;> rfl
  · rfl

/-- What is inserted is the row of the user, under an id and an email that no other row has. -/
lemma insertUser_eq_ok {users users' : List User} {user : User}
    (h : insertUser users user = .ok users') :
    ∃ row, user.stored = some row ∧ users' = users ++ [row] ∧
      ∀ other ∈ users, other.id ≠ row.id ∧ other.email ≠ row.email := by
  unfold insertUser at h
  split at h
  · exact absurd h (by simp)
  · rename_i row hstored
    split at h
    · exact absurd h (by simp)
    · rename_i hnone
      refine ⟨row, hstored, (Except.ok.inj h).symm, fun other hother => ?_⟩
      constructor
      · exact fun heq => hnone (List.any_eq_true.mpr ⟨other, hother, by simp [heq]⟩)
      · exact fun heq => hnone (List.any_eq_true.mpr ⟨other, hother, by simp [heq]⟩)

/-- An update that sets a column writes all rows with its id, of which there is one at least, and
no other row has the new email. -/
lemma updateUser_eq_ok {users users' : List User} {id : String} {changes : UserChanges}
    {time : ℕ} (h : updateUser users id changes time = .ok users') :
    (changes = ⟨none, none, none, none⟩ ∧ users' = users) ∨
      ∃ stored, changes.stored = some stored ∧ (∃ user ∈ users, user.id = id) ∧
        (∀ other ∈ users, other.id ≠ id → some other.email ≠ stored.email) ∧
        users' = users.map fun user => if user.id = id then stored.apply time user else user := by
  unfold updateUser at h
  split at h
  · rename_i hempty
    exact .inl ⟨hempty, (Except.ok.inj h).symm⟩
  · split at h
    · rename_i user stored hfind hstored
      have hid : user.id = id := by simpa using List.find?_some hfind
      split at h
      · exact absurd h (by simp)
      · rename_i hfree
        refine .inr ⟨stored, hstored, ⟨user, List.mem_of_find?_eq_some hfind, hid⟩,
          fun other hmem hne heq => ?_, (Except.ok.inj h).symm⟩
        exact hfree (List.any_eq_true.mpr ⟨other, hmem, by simp [hne, heq]⟩)
    · exact absurd h (by simp)

/-- An update that does not make a user active leaves the deactivated users so, and one that
clears the flag deactivates. -/
lemma deactivated_map {users : List User} {id userId : String} {changes : UserChanges} {time : ℕ}
    (hsome : ∃ user ∈ users, user.id = userId)
    (hflag : ∀ user ∈ users, user.id = userId →
      (if user.id = id then changes.apply time user else user).isActive = false) :
    (∃ user ∈ users.map fun user => if user.id = id then changes.apply time user else user,
      user.id = userId) ∧
    ∀ user ∈ users.map fun user => if user.id = id then changes.apply time user else user,
      user.id = userId → user.isActive = false := by
  have hid : ∀ user : User,
      (if user.id = id then changes.apply time user else user).id = user.id := by
    intro user
    split <;> rfl
  constructor
  · obtain ⟨user, hmem, huser⟩ := hsome
    refine ⟨_, List.mem_map_of_mem hmem, ?_⟩
    rw [hid]
    exact huser
  · intro user hmem huser
    obtain ⟨old, hold, rfl⟩ := List.mem_map.mp hmem
    rw [hid] at huser
    exact hflag old hold huser

/-- A command leaves the rows, or commits an insert or an update that the database accepts. -/
lemma execUser_writes {store store' : UserStore} {i : ℕ} {command : UserCommand}
    {c : Circumstances} {r : UserReply command}
    (h : execUser store i command c = some (store', r)) :
    store'.users = store.users ∨
    (∃ id email name hashedPassword, command = .commitInsert id email name hashedPassword ∧
      insertUser store.users (newUser id email name hashedPassword c.reading) =
        .ok store'.users) ∨
    ∃ id changes, command = .commitUpdate id changes ∧
      updateUser store.users id changes c.reading = .ok store'.users := by
  cases command with
  | commitInsert id email name hashedPassword =>
    have hstore := congrArg Prod.fst (Option.some.inj h)
    have hcases := commit_cases (store.tick c) c.fault
      (insertUser store.users (newUser id email name hashedPassword c.reading))
    rw [hstore] at hcases
    rcases hcases with ⟨hold, -⟩ | ⟨hnew, -⟩
    · exact .inl hold
    · exact .inr (.inl ⟨id, email, name, hashedPassword, rfl, hnew⟩)
  | commitUpdate id changes =>
    have hstore := congrArg Prod.fst (Option.some.inj h)
    have hcases := commit_cases (store.tick c) c.fault
      (updateUser store.users id changes c.reading)
    rw [hstore] at hcases
    rcases hcases with ⟨hold, -⟩ | ⟨hnew, -⟩
    · exact .inl hold
    · exact .inr (.inr ⟨id, changes, rfl, hnew⟩)
  | setSession _ _ _ | deleteSession _ =>
    obtain ⟨rfl, -⟩ := Prod.mk.inj (Option.some.inj h)
    refine .inl ?_
    split <;> rfl
  | selectByEmail _ | selectById _ | getSession _ | utcnow =>
    obtain ⟨rfl, -⟩ := Prod.mk.inj (Option.some.inj h)
    exact .inl rfl

/-- A command leaves the rows, appends one with a new id or updates those with one id. -/
lemma execUser_users {store store' : UserStore} {i : ℕ} {command : UserCommand}
    {c : Circumstances} {r : UserReply command}
    (h : execUser store i command c = some (store', r)) :
    store'.users = store.users ∨
    (∃ user, (∀ other ∈ store.users, other.id ≠ user.id) ∧
      store'.users = store.users ++ [user]) ∨
    ∃ id changes stored time, command = .commitUpdate id changes ∧ changes.stored = some stored ∧
      (∃ user ∈ store.users, user.id = id) ∧ store'.users =
        store.users.map fun user => if user.id = id then stored.apply time user else user := by
  rcases execUser_writes h with hold | ⟨id, email, name, hashedPassword, -, hinsert⟩ |
    ⟨id, changes, hcommand, hupdate⟩
  · exact .inl hold
  · obtain ⟨row, -, hnew, hother⟩ := insertUser_eq_ok hinsert
    exact .inr (.inl ⟨row, fun other hmem => (hother other hmem).1, hnew⟩)
  · -- an update without changed columns is no UPDATE
    rcases updateUser_eq_ok hupdate with ⟨-, hnew⟩ | ⟨stored, hstored, hsome, -, hnew⟩
    · exact .inl hnew
    · exact .inr (.inr ⟨id, changes, stored, c.reading, hcommand, hstored, hsome, hnew⟩)

lemma Deactivated.execute {store store' : UserStore} {i : ℕ} {command : UserCommand}
    {c : Circumstances} {r : UserReply command} {userId : String} (h : Deactivated store userId)
    (hmay : ∀ id changes, command = .commitUpdate id changes → changes.isActive ≠ some true)
    (hexec : execUser store i command c = some (store', r)) : Deactivated store' userId := by
  unfold Deactivated
  rcases execUser_users hexec with husers | ⟨user, hother, husers⟩ |
    ⟨id, changes, stored, time, hcommand, hstored, -, husers⟩
  · rw [husers]
    exact h
  · obtain ⟨⟨old, hmem, hold⟩, hflag⟩ := h
    rw [husers]
    refine ⟨⟨old, List.mem_append_left _ hmem, hold⟩, fun other hmem' hid => ?_⟩
    rcases List.mem_append.mp hmem' with hmem' | hlast
    · exact hflag other hmem' hid
    · -- the new user has another id
      rw [List.mem_singleton.mp hlast] at hid
      exact absurd (hold.trans hid.symm) (hother old hmem)
  · rw [husers]
    refine deactivated_map h.1 fun user hmem huser => ?_
    have hfalse := h.2 user hmem huser
    obtain ⟨name, rfl⟩ := UserChanges.stored_eq_some hstored
    split
    · show changes.isActive.getD user.isActive = false
      rcases hactive : changes.isActive with _ | flag
      · exact hfalse
      · cases flag with
        | true => exact absurd hactive (hmay id changes hcommand)
        | false => rfl
    · exact hfalse

/-- A row that a `SELECT` returns alone is the only one that it selects. -/
lemma scalarOneOrNone_eq {users : List User} {user : User}
    (h : scalarOneOrNone users = .ok (some user)) : users = [user] := by
  cases users with
  | nil => exact absurd h (by simp [scalarOneOrNone])
  | cons first rest =>
    cases rest with
    | nil =>
      obtain rfl := Option.some.inj (Except.ok.inj h)
      rfl
    | cons second others => exact absurd h (by simp [scalarOneOrNone])

lemma readReply_eq_ok {α : Type} {fault : Fault} {reply : Except CallError α} {a : α}
    (h : readReply fault reply = .ok a) : fault = .none ∧ reply = .ok a := by
  unfold readReply at h
  split at h
  · rename_i hfault
    exact ⟨hfault, h⟩
  · exact absurd h (by simp)

/-- What a `SELECT` by email returns is a row of the table. -/
lemma mem_of_selectByEmail {store store' : UserStore} {i : ℕ} {email : String}
    {c : Circumstances} {user : User}
    (h : execUser store i (.selectByEmail email) c = some (store', .ok (some user))) :
    user ∈ store.users := by
  have hreply := (Prod.mk.inj (Option.some.inj h)).2
  have hfilter := scalarOneOrNone_eq (readReply_eq_ok hreply).2
  have hmem : user ∈ store.users.filter fun user => user.email = email := by
    rw [hfilter]
    exact List.mem_singleton_self user
  exact List.mem_of_mem_filter hmem

/-- A reply about the flag tells the truth. -/
lemma saysDeactivated_reply {store store' : UserStore} {i : ℕ} {command : UserCommand}
    {c : Circumstances} {r : UserReply command}
    (h : execUser store i command c = some (store', r)) :
    SaysDeactivated store' i ⟨command, r⟩ := by
  cases command with
  | selectById id =>
    rcases r with e | _ | user
    · trivial
    · trivial
    · intro hinactive
      obtain ⟨rfl, hreply⟩ := Prod.mk.inj (Option.some.inj h)
      have hfilter := scalarOneOrNone_eq (readReply_eq_ok hreply).2
      -- `scalar_one_or_none` has found the only row of the id
      have hrow : ∀ other, other ∈ store.users ∧ other.id = id ↔ other = user := by
        intro other
        have hmem : other ∈ store.users.filter (fun user => user.id = id) ↔ other ∈ [user] := by
          rw [hfilter]
        rw [List.mem_filter, List.mem_singleton, decide_eq_true_eq] at hmem
        exact hmem
      obtain ⟨hmem, hid⟩ := (hrow user).mpr rfl
      refine ⟨⟨user, hmem, hid⟩, fun other hother heq => ?_⟩
      rw [(hrow other).mp ⟨hother, heq⟩]
      exact hinactive
  | commitUpdate id changes =>
    rcases r with e | _
    · trivial
    · intro hclears
      have hpair := Option.some.inj h
      have husers := commit_ok (congrArg Prod.snd hpair)
      rw [congrArg Prod.fst hpair] at husers
      unfold Deactivated
      rcases updateUser_eq_ok husers with ⟨hempty, -⟩ | ⟨stored, hstored, hsome, -, hnew⟩
      · rw [hempty] at hclears
        exact absurd hclears (by simp)
      · obtain ⟨name, rfl⟩ := UserChanges.stored_eq_some hstored
        rw [hnew]
        refine deactivated_map hsome fun user hmem huser => ?_
        rw [if_pos huser]
        show changes.isActive.getD user.isActive = false
        rw [hclears]
        rfl
  | setSession _ _ _ | deleteSession _ | selectByEmail _ | getSession _ | utcnow => trivial
  | commitInsert _ _ _ _ => trivial

section
variable {lib : Libraries} {p p' : UserPool}

/-! ## From the answer on -/

/-- No command makes a user active. -/
lemma Linked.may_update (h : Linked lib p) {t : UserThread} {command : UserCommand}
    {k : UserReply command → UserProgram} (ht : t ∈ p.threads) (hk : t.program = .call command k) :
    ∀ id changes, command = .commitUpdate id changes → changes.isActive ≠ some true := by
  rintro id changes rfl
  obtain ⟨-, hwithin⟩ := (serve_within t.request).follows (h.serves t ht)
  rw [hk] at hwithin
  cases hwithin with
  | call hmay _ => exact hmay

/-- A deactivated user stays so. -/
lemma Linked.deactivated_step (h : Linked lib p) {userId : String} {e : UserEvent}
    (hdeactivated : Deactivated p.store userId) (hstep : userStep lib p e = some p') :
    Deactivated p'.store userId := by
  cases e with
  | arrive req =>
    obtain rfl := Option.some.inj hstep
    exact hdeactivated
  | execute l =>
    obtain ⟨t, command, k, store, r, ht, hk, hexec, rfl⟩ := Pool.step_eq_some.mp hstep
    exact hdeactivated.execute (h.may_update (List.mem_of_getElem? ht) hk) hexec

/-- What the threads have been told about the flag. -/
def AllSay (p : UserPool) : Prop :=
  ∀ i t, p.threads[i]? = some t → ∀ e ∈ t.trace, SaysDeactivated p.store i e

lemma SaysDeactivated.mono {store store' : UserStore} {i : ℕ} {e : Σ c, UserReply c}
    (hkept : ∀ userId, Deactivated store userId → Deactivated store' userId)
    (h : SaysDeactivated store i e) : SaysDeactivated store' i e := by
  unfold SaysDeactivated at h ⊢
  split at h
  · exact fun hinactive => hkept _ (h hinactive)
  · exact fun hclears => hkept _ (h hclears)
  · trivial

lemma Linked.allSay_step (h : Linked lib p) {e : UserEvent} (hsay : AllSay p)
    (hstep : userStep lib p e = some p') : AllSay p' := by
  have hkept : ∀ userId, Deactivated p.store userId → Deactivated p'.store userId :=
    fun userId hdeactivated => h.deactivated_step hdeactivated hstep
  cases e with
  | arrive req =>
    obtain rfl := Option.some.inj hstep
    exact Pool.told_arrive req hsay
  | execute l =>
    exact Pool.told_step hstep (fun _ _ => SaysDeactivated.mono hkept)
      (fun _ _ hexec => saysDeactivated_reply hexec) hsay

/-- When a deactivation has answered 204, its user is deactivated. -/
lemma Linked.deactivated_of_answer (h : Linked lib p) (hsay : AllSay p) {d : UserThread}
    {userId : String} (hd : d ∈ p.threads) (hrequest : d.request = .deactivate userId)
    (hanswer : d.program.answer? = some ⟨204, .empty⟩) : Deactivated p.store userId := by
  have hfollows := h.serves d hd
  obtain ⟨j, hj⟩ := List.mem_iff_getElem?.mp hd
  have htold := hsay j d hj
  rw [hrequest, answer?_eq_some hanswer] at hfollows
  generalize hq : (Program.done ⟨204, .empty⟩ : UserProgram) = q at hfollows
  rcases follows_call hfollows with ⟨-, rfl⟩ | ⟨found, tr, htrace, hfound⟩
  · exact absurd hq (by simp)
  rcases found with e | _ | user
  · obtain ⟨-, rfl⟩ := follows_done hfound
    exact absurd hq (by simp [serverError])
  · obtain ⟨-, rfl⟩ := follows_done hfound
    exact absurd hq (by simp [httpException])
  -- the flag was false when it was read, or the commit has cleared it
  have hselected : SaysDeactivated p.store j ⟨.selectById userId, .ok (some user)⟩ :=
    htold _ (by rw [htrace]; simp)
  rcases follows_call hfound with ⟨-, rfl⟩ | ⟨result, tr', rfl, hresult⟩
  · exact absurd hq (by simp)
  rcases result with e | _
  · obtain ⟨-, rfl⟩ := follows_done hresult
    exact absurd hq (by simp [serverError])
  have hcommitted : SaysDeactivated p.store j ⟨.commitUpdate userId
      ⟨none, none, none, changed user.isActive (some false)⟩, .ok ()⟩ :=
    htold _ (by rw [htrace]; simp)
  cases hactive : user.isActive with
  | false => exact hselected hactive
  | true =>
    apply hcommitted
    rw [hactive]
    rfl

/-! ## One step -/

/-- If the reply is that to a login from number `n` on, it shows the user's flag cleared. -/
def FindsInactive (n : ℕ) (userId : String) (_ : UserStore) (i : ℕ) (e : Σ c, UserReply c) :
    Prop :=
  n ≤ i → ∀ email user, e = ⟨.selectByEmail email, .ok (some user)⟩ → user.id = userId →
    user.isActive = false

/-- The state from the answer on: `n` requests had arrived by then. -/
structure After (lib : Libraries) (n : ℕ) (userId : String) (p : UserPool) : Prop where
  linked : Linked lib p
  deactivated : Deactivated p.store userId
  logins : ∀ i t, p.threads[i]? = some t → ∀ e ∈ t.trace, FindsInactive n userId p.store i e

lemma After.step {n : ℕ} {userId : String} {e : UserEvent} (h : After lib n userId p)
    (hassumed : Assumed lib p e) (hstep : userStep lib p e = some p') :
    After lib n userId p' where
  linked := linked_step h.linked hassumed hstep
  deactivated := h.linked.deactivated_step h.deactivated hstep
  logins := by
    cases e with
    | arrive req =>
      obtain rfl := Option.some.inj hstep
      exact Pool.told_arrive req h.logins
    | execute l =>
      refine Pool.told_step hstep (fun _ _ hfinds => hfinds) ?_ h.logins
      intro command r hexec _ email user heq huser
      obtain ⟨rfl, hreply⟩ := Sigma.mk.inj heq
      obtain rfl := eq_of_heq hreply
      exact h.deactivated.2 user (mem_of_selectByEmail hexec) huser

/-- A later login returns no token of the user. -/
lemma After.not_granted {n i : ℕ} {userId : String} (h : After lib n userId p) {t : UserThread}
    {user : User} {sessionId token : String} {issued : ℕ} (ht : p.threads[i]? = some t)
    (hi : n ≤ i) (hgranted : Granted lib t user sessionId issued token) : user.id ≠ userId := by
  intro huser
  obtain ⟨body, -, hselect, hverified⟩ := hgranted.verified
  have hinactive := h.logins i t ht _ hselect hi body.email user rfl huser
  exact absurd (hinactive.symm.trans hverified.active) (by simp)

/-- A command authenticates its thread exactly if it looks a standing token up. -/
lemma After.accepted_iff {n : ℕ} {userId : String} (h : After lib n userId p)
    (hdecodes : lib.Decodes) {i : ℕ} {c : Circumstances} {t t' : UserThread}
    (hstep : userStep lib p (.execute (i, c)) = some p') (ht : p.threads[i]? = some t)
    (ht' : p'.threads[i]? = some t') (hi : n ≤ i)
    (hbefore : ¬ AuthenticatedAs lib t userId) (hafter : After lib n userId p') :
    AuthenticatedAs lib t' userId ↔ PresentsStandingToken lib n userId p (.execute (i, c)) := by
  obtain ⟨u, hu, hrequest⟩ := Pool.request_of_step hstep ht'
  obtain rfl := Option.some.inj (ht.symm.trans hu)
  constructor
  · rintro (⟨token, sessionId, htoken, haccepted⟩ |
      ⟨user, sessionId, issued, token, hgranted, huser⟩)
    · rw [hrequest] at htoken
      obtain ⟨now, session, hsuffix, hdecode⟩ := UserService.accepted_iff.mp haccepted
      obtain ⟨v, command, k, store, r, hv, hk, hexec, rfl⟩ := Pool.step_eq_some.mp hstep
      obtain rfl := Option.some.inj (ht.symm.trans hv)
      have hmoved := ht'
      rw [getElem?_set_moved ht] at hmoved
      obtain rfl := Option.some.inj hmoved
      rcases List.suffix_cons_iff.mp hsuffix with hnew | hold
      · -- the session is looked up in this step
        have htrace : t.trace = [⟨.utcnow, now⟩] := (List.cons.inj hnew).2.symm
        have haccepts : Accepts lib p i c token ⟨userId, sessionId⟩ :=
          ⟨_, _, hstep, ht', haccepted⟩
        obtain ⟨hfault, hstands⟩ :=
          (accepts_iff h.linked hdecodes ht htoken htrace c _).mp haccepts
        exact ⟨hi, hfault, t, token, now, sessionId, ht, htoken, htrace, hstands⟩
      · have hearlier : Accepted lib token ⟨userId, sessionId⟩ t.trace :=
          UserService.accepted_iff.mpr ⟨now, session, hold, hdecode⟩
        exact absurd (.inl ⟨token, sessionId, htoken, hearlier⟩) hbefore
    · -- a login of the user cannot have succeeded
      exact absurd huser (hafter.not_granted ht' hi hgranted)
  · rintro ⟨-, hfault, v, token, reading, sessionId, hv, htoken, htrace, hstands⟩
    obtain rfl := Option.some.inj (ht.symm.trans hv)
    obtain ⟨p'', t'', hstep', ht'', haccepted⟩ :=
      (accepts_iff h.linked hdecodes ht htoken htrace c _).mpr ⟨hfault, hstands⟩
    obtain rfl := Option.some.inj (hstep.symm.trans hstep')
    obtain rfl := Option.some.inj (ht'.symm.trans ht'')
    rw [← hrequest] at htoken
    exact .inl ⟨token, sessionId, htoken, haccepted⟩

/-- No later request is authenticated as the user. -/
def NoneAuthenticated (lib : Libraries) (n : ℕ) (userId : String) (p : UserPool) : Prop :=
  ∀ i t, n ≤ i → p.threads[i]? = some t → ¬ AuthenticatedAs lib t userId

lemma not_authenticated_new {req : UserRequest} {q : UserProgram} {userId : String} :
    ¬ AuthenticatedAs lib ⟨req, [], q⟩ userId := by
  rintro (⟨token, sessionId, -, haccepted⟩ | ⟨user, sessionId, issued, token, hgranted, -⟩)
  · obtain ⟨now, session, hsuffix, -⟩ := UserService.accepted_iff.mp haccepted
    exact absurd hsuffix (by simp)
  · exact absurd hgranted.created (by simp)

lemma noneAuthenticated_step_iff {n : ℕ} {userId : String} {e : UserEvent}
    (hdecodes : lib.Decodes) (h : After lib n userId p) (hnone : NoneAuthenticated lib n userId p)
    (hassumed : Assumed lib p e) (hstep : userStep lib p e = some p') :
    NoneAuthenticated lib n userId p' ↔ ¬ PresentsStandingToken lib n userId p e := by
  have hafter := h.step hassumed hstep
  cases e with
  | arrive req =>
    obtain rfl := Option.some.inj hstep
    refine iff_of_true (fun i t hi ht => ?_) (fun hpresents => hpresents)
    rcases Pool.thread_of_arrive ht with ht | ⟨-, rfl⟩
    · exact hnone i t hi ht
    · exact not_authenticated_new
  | execute l =>
    obtain ⟨i, c⟩ := l
    constructor
    · intro hnone' hpresents
      obtain ⟨hi, -, t, token, reading, sessionId, ht, -⟩ := id hpresents
      obtain ⟨t', ht', -⟩ := Pool.thread_openStep hstep ht
      have hiff := h.accepted_iff hdecodes hstep ht ht' hi (hnone i t hi ht) hafter
      exact hnone' i t' hi ht' (hiff.mpr hpresents)
    · intro hpresents j t' hj ht' hauthenticated
      rcases Pool.thread_of_openStep hstep ht' with hold | ⟨q, heq, -⟩ |
        ⟨w, t, command, k, store, r, heq, ht, -⟩
      · exact hnone j t' hj hold hauthenticated
      · exact absurd heq (by simp)
      · obtain ⟨rfl, rfl⟩ := Prod.mk.inj (Event.execute.inj heq)
        have hiff := h.accepted_iff hdecodes hstep ht ht' hj (hnone i t hj ht) hafter
        exact hpresents (hiff.mp hauthenticated)

end

/-! ## Runs -/

/-- **What a deactivation does.** After `DELETE /api/users/{u}` has answered 204, no request that
arrives later is ever authenticated as the user if and only if none of them presents a token that
a login has returned for the user, that has not expired, and whose session has neither expired
nor been deleted by a logout. -/
theorem deactivation_takes_effect_iff {lib : Libraries} (hdecodes : lib.Decodes)
    {users : List User} {es₁ es₂ : List UserEvent} {p₁ p₂ : UserPool} {d : UserThread}
    {userId : String}
    (hassumed₁ : StepsMeet (userStep lib) (Assumed lib) (UserPool.initial users) es₁)
    (hrun₁ : run (userStep lib) (UserPool.initial users) es₁ = some p₁)
    (hd : d ∈ p₁.threads) (hrequest : d.request = .deactivate userId)
    (hanswer : d.program.answer? = some ⟨204, .empty⟩)
    (hassumed₂ : StepsMeet (userStep lib) (Assumed lib) p₁ es₂)
    (hrun₂ : run (userStep lib) p₁ es₂ = some p₂) :
    Throughout (userStep lib) (NoneAuthenticated lib p₁.threads.length userId) p₁ es₂ ↔
      StepsMeet (userStep lib)
        (fun p e => ¬ PresentsStandingToken lib p₁.threads.length userId p e) p₁ es₂ := by
  have hempty : AllSay (UserPool.initial users) := fun i t ht =>
    absurd ht (by simp [UserPool.initial])
  obtain ⟨hlinked, hsay⟩ := run_invariant_of_stepsMeet (P := fun p => Linked lib p ∧ AllSay p)
    (fun _ _ _ h hassumed hstep => ⟨linked_step h.1 hassumed hstep, h.1.allSay_step h.2 hstep⟩)
    ⟨linked_initial users, hempty⟩ hassumed₁ hrun₁
  -- all requests so far have arrived before the answer
  have hbound : ∀ i t, p₁.threads[i]? = some t → ¬ p₁.threads.length ≤ i := fun i t ht =>
    Nat.not_le.mpr (List.getElem?_eq_some_iff.mp ht).1
  have hafter : After lib p₁.threads.length userId p₁ :=
    { linked := hlinked
      deactivated := hlinked.deactivated_of_answer hsay hd hrequest hanswer
      logins := fun i t ht e _ hi => absurd hi (hbound i t ht) }
  have hnone : NoneAuthenticated lib p₁.threads.length userId p₁ :=
    fun i t hi ht => absurd hi (hbound i t ht)
  refine throughout_iff_stepsMeet_under (J := After lib p₁.threads.length userId) ?_ ?_ hafter
    hnone hassumed₂ hrun₂
  · intro p e p' h hassumed hstep
    exact h.step hassumed hstep
  · intro p e p' h hnone hassumed hstep
    exact noneAuthenticated_step_iff hdecodes h hnone hassumed hstep

/-! ## A deactivated user with a token -/

/-- A login of the sample user, and the deactivation of the user. -/
def deactivation : List UserEvent :=
  [.arrive (.login ⟨"e", "pw"⟩ "s"), proceed 0, proceed 0, proceed 0, .arrive (.deactivate "u"),
    proceed 1, proceed 1]

lemma isSome_deactivation :
    (run (userStep plainLibraries) (UserPool.initial [sampleUser]) deactivation).isSome = true := by
  decide +kernel

lemma assumed_deactivation : StepsMeet (userStep plainLibraries) (Assumed plainLibraries)
    (UserPool.initial [sampleUser]) deactivation := by
  decide +kernel

/-- The service when the deactivation has answered. -/
def deactivated : UserPool := final _ _ _ isSome_deactivation

lemma run_deactivation :
    run (userStep plainLibraries) (UserPool.initial [sampleUser]) deactivation = some deactivated :=
  run_final isSome_deactivation

lemma answered_deactivation : (deactivated.threads.any fun d =>
    d.request = .deactivate "u" && d.program.answer? = some ⟨204, .empty⟩) = true := by
  decide +kernel

/-- A request with the token of the login. -/
def laterRequest : List UserEvent := [.arrive (.getMe sampleToken), proceed 2, proceed 2]

lemma isSome_laterRequest :
    (run (userStep plainLibraries) deactivated laterRequest).isSome = true := by
  decide +kernel

lemma assumed_laterRequest : StepsMeet (userStep plainLibraries) (Assumed plainLibraries)
    deactivated laterRequest := by
  decide +kernel

lemma accepted_laterRequest :
    ((final _ _ _ isSome_laterRequest).threads[2]?.any fun t =>
      t.request.token? = some sampleToken && t.trace =
        [⟨.getSession "session:s", .ok (some ⟨"u", "e"⟩)⟩, ⟨.utcnow, 0⟩]) = true := by
  decide +kernel

/-- A login after the deactivation. -/
def laterLogin : List UserEvent := [.arrive (.login ⟨"e", "pw"⟩ "s'"), proceed 2]

lemma isSome_laterLogin : (run (userStep plainLibraries) deactivated laterLogin).isSome = true := by
  decide +kernel

lemma assumed_laterLogin : StepsMeet (userStep plainLibraries) (Assumed plainLibraries)
    deactivated laterLogin := by
  decide +kernel

/-- A later login presents no token, and it is not authenticated. -/
theorem deactivation_takes_effect_iff_login :
    NoneAuthenticated plainLibraries 2 "u" (final _ _ _ isSome_laterLogin) := by
  obtain ⟨d, hd, hdone⟩ := List.any_eq_true.mp answered_deactivation
  simp only [Bool.and_eq_true, decide_eq_true_eq] at hdone
  have hlength : deactivated.threads.length = 2 := by decide +kernel
  have hiff := deactivation_takes_effect_iff decodes_plainLibraries assumed_deactivation
    run_deactivation hd hdone.1 hdone.2 assumed_laterLogin
    (run_final isSome_laterLogin)
  have hnone := hiff.mpr ?_
  · have hlast := hnone.last (run_final isSome_laterLogin)
    rw [hlength] at hlast
    exact hlast
  · refine ⟨fun hpresents => hpresents, fun p hp => ⟨?_, fun _ _ => trivial⟩⟩
    obtain rfl := Option.some.inj hp
    rintro ⟨-, -, t, token, reading, sessionId, ht, htoken, -⟩
    have hnew : (deactivated.arrive (serve plainLibraries)
        (.login ⟨"e", "pw"⟩ "s'")).threads[2]?.all (fun t => t.request.token? = none) = true := by
      decide +kernel
    rw [ht, Option.all_some, decide_eq_true_eq, htoken] at hnew
    exact absurd hnew (by simp)

/-- **A deactivated user is let in.** The token of an earlier login is accepted after the
deactivation has answered 204. -/
theorem authenticated_after_deactivation :
    ¬ ∀ (lib : Libraries) (users : List User) (es₁ es₂ : List UserEvent) (p₁ p₂ : UserPool)
        (d : UserThread) (userId : String), lib.Decodes →
      StepsMeet (userStep lib) (Assumed lib) (UserPool.initial users) es₁ →
      run (userStep lib) (UserPool.initial users) es₁ = some p₁ →
      d ∈ p₁.threads → d.request = .deactivate userId →
      d.program.answer? = some ⟨204, .empty⟩ →
      StepsMeet (userStep lib) (Assumed lib) p₁ es₂ →
      run (userStep lib) p₁ es₂ = some p₂ →
      NoneAuthenticated lib p₁.threads.length userId p₂ := by
  intro h
  obtain ⟨d, hd, hdone⟩ := List.any_eq_true.mp answered_deactivation
  obtain ⟨t, ht, haccepted⟩ := (Option.any_eq_true _ _).mp accepted_laterRequest
  simp only [Bool.and_eq_true, decide_eq_true_eq] at hdone haccepted
  have hnone := h plainLibraries [sampleUser] deactivation laterRequest _ _ d "u"
    decodes_plainLibraries assumed_deactivation run_deactivation hd hdone.1 hdone.2
    assumed_laterRequest (run_final isSome_laterRequest)
  have htwo : deactivated.threads.length ≤ 2 := by decide +kernel
  refine hnone 2 t htwo ht (.inl ⟨sampleToken, "s", haccepted.1, ?_⟩)
  rw [accepted_iff, haccepted.2]
  exact ⟨0, ⟨"u", "e"⟩, List.suffix_refl _, by decide +kernel⟩

end DevopsEcommerce.UserService
