import DevopsEcommerce.UserService.Credentials

/-!
# Who changes the record of a user

Requests that update a row do it for the user that `_validate_token` has accepted, except
`deactivate_user`, which takes the id from its path and depends on no token.
`own_record_iff` says that the records of a run change for their own users exactly as long as no
such request clears the flag of an active user.
-/

open Interleaving Program

namespace DevopsEcommerce.UserService

/-- The columns of a row that are its user's own. -/
def User.record (user : User) : String × String × String × Bool :=
  (user.name, user.email, user.hashedPassword, user.isActive)

/-- The step executes a command of a request whose bearer token has been accepted as the user. -/
def ServedFor (lib : Libraries) (p : UserPool) (e : UserEvent) (userId : String) : Prop :=
  ∃ i c t token sessionId, e = .execute (i, c) ∧ p.threads[i]? = some t ∧
    t.request.token? = some token ∧ Accepted lib token ⟨userId, sessionId⟩ t.trace

/-- The record of an existing user is what it was after the step, or the step serves the user. -/
def KeepsOrServes (lib : Libraries) (p : UserPool) (e : UserEvent) : Prop :=
  ∀ p', userStep lib p e = some p' → ∀ user ∈ p.store.users,
    (∃ user' ∈ p'.store.users, user'.id = user.id ∧ user'.record = user.record) ∨
      ServedFor lib p e user.id

/-- The user whose flag the next command of a `deactivate_user` clears. -/
def UserThread.clears? (t : UserThread) : Option String :=
  match t.request, t.program.next? with
  | .deactivate _, some (.commitUpdate id ⟨_, _, _, some false⟩) => some id
  | _, _ => none

/-- A `deactivate_user` commits, and the user is active. -/
def Deactivates (p : UserPool) : UserEvent → Prop
  | .arrive _ => False
  | .execute l => l.2.fault ≠ .before ∧ ∃ t ∈ p.threads[l.1]?, ∃ id ∈ UserThread.clears? t,
      ∃ user ∈ p.store.users, user.id = id ∧ user.isActive = true

instance (p : UserPool) : (e : UserEvent) → Decidable (Deactivates p e)
  | .arrive _ => inferInstanceAs (Decidable False)
  | .execute l => inferInstanceAs (Decidable (l.2.fault ≠ .before ∧
      ∃ t ∈ p.threads[l.1]?, ∃ id ∈ UserThread.clears? t, ∃ user ∈ p.store.users, _))

/-! ## What a table holds -/

/-- The columns hold their values, and the unique indexes hold. -/
structure Stored (users : List User) : Prop where
  fits : ∀ user ∈ users, user.stored = some user
  distinct : Distinct users

lemma stored_execUser {store store' : UserStore} {i : ℕ} {command : UserCommand}
    {c : Circumstances} {r : UserReply command} (h : Stored store.users)
    (hexec : execUser store i command c = some (store', r)) : Stored store'.users := by
  refine ⟨fun user huser => ?_, distinct_execUser h.distinct hexec⟩
  rcases execUser_writes hexec with hsame | ⟨_, _, _, _, -, hinsert⟩ | ⟨_, changes, -, hupdate⟩
  · rw [hsame] at huser
    exact h.fits user huser
  · obtain ⟨row, hrow, hnew, -⟩ := insertUser_eq_ok hinsert
    rw [hnew] at huser
    rcases List.mem_append.mp huser with hold | hlast
    · exact h.fits user hold
    · rw [List.mem_singleton.mp hlast]
      exact User.stored_stored hrow
  · rcases updateUser_eq_ok hupdate with ⟨-, hsame⟩ | ⟨stored, hstored, -, -, hnew⟩
    · rw [hsame] at huser
      exact h.fits user huser
    · rw [hnew] at huser
      obtain ⟨old, hold, rfl⟩ := List.mem_map.mp huser
      split
      · have hrow := User.stored_apply (h.fits old hold) changes c.reading
        rw [hstored, Option.map_some] at hrow
        exact User.stored_stored hrow
      · exact h.fits old hold

/-! ## Which requests update a row -/

/-- All updates that the program can come to issue are allowed. -/
def Updates (may : String → UserChanges → Prop) (q : UserProgram) : Prop :=
  q.Within (fun c => ∀ id changes, c = .commitUpdate id changes → may id changes) fun _ => True

section
variable {lib : Libraries} {may : String → UserChanges → Prop}

lemma updates_done (answer : Response) : Updates may (.done answer) := .done trivial

/-- A command other than an update. -/
lemma updates_call {c : UserCommand} {k : UserReply c → UserProgram}
    (hc : ∀ id changes, c ≠ .commitUpdate id changes) (hk : ∀ r, Updates may (k r)) :
    Updates may (.call c k) :=
  .call (fun id changes heq => absurd heq (hc id changes)) hk

lemma updates_withUser {id : String} {rest : User → UserProgram}
    (h : ∀ user, Updates may (rest user)) : Updates may (withUser id rest) := by
  refine updates_call (by simp) fun found => ?_
  rcases found with e | _ | user
  · exact updates_done _
  · exact updates_done _
  · exact h user

lemma updates_afterCommit (id : String) (status : ℕ) (result : Except CommitError Unit) :
    Updates may (afterCommit id status result) := by
  rcases result with (_ | _) | _
  · exact updates_done _
  · exact updates_done _
  · refine updates_call (by simp) fun found => ?_
    rcases found with e | _ | user <;> exact updates_done _

lemma updates_commitThen {id : String} {changes : UserChanges} (h : may id changes) :
    Updates may (commitThen id changes) := by
  refine .call (fun id' changes' heq => ?_) fun result => ?_
  · obtain ⟨rfl, rfl⟩ := UserCommand.commitUpdate.inj heq
    exact h
  · rcases result with e | _ <;> exact updates_done _

/-- The routes that depend on `_validate_token` update the row of the user it returns. -/
lemma updates_route (lib : Libraries) {req : UserRequest} {token : String}
    (htoken : req.token? = some token) :
    ∃ route, serve lib req = authenticated lib token route ∧
      ∀ data, Updates (fun id _ => id = data.userId) (route data) := by
  cases req with
  | logout _ =>
    obtain rfl := Option.some.inj htoken
    refine ⟨_, rfl, fun data => updates_call (by simp) fun result => ?_⟩
    rcases result with e | _ <;> exact updates_done _
  | getMe _ =>
    obtain rfl := Option.some.inj htoken
    exact ⟨_, rfl, fun data => updates_withUser fun user => updates_done _⟩
  | updateProfile _ body =>
    obtain rfl := Option.some.inj htoken
    refine ⟨_, rfl, fun data => ?_⟩
    cases body with
    | none => exact updates_done _
    | some body =>
      refine updates_withUser fun user => .call (fun id changes heq => ?_) fun result => ?_
      · exact (UserCommand.commitUpdate.inj heq).1.symm
      · exact updates_afterCommit _ _ result
  | changePassword _ body salt =>
    obtain rfl := Option.some.inj htoken
    refine ⟨_, rfl, fun data => ?_⟩
    cases body with
    | none => exact updates_done _
    | some body =>
      refine updates_withUser fun user => ?_
      split
      · exact updates_done _
      · exact updates_commitThen rfl
  | register _ _ _ | login _ _ | getUser _ | deactivate _ =>
    exact absurd htoken (by simp [UserRequest.token?])

/-- Of the other routes only `deactivate_user` updates a row, that of the id in its path. -/
lemma updates_without_token {req : UserRequest} (htoken : req.token? = none) :
    Updates (fun id changes => req = .deactivate id ∧
      ∃ flag, changes = ⟨none, none, none, changed flag (some false)⟩) (serve lib req) := by
  cases req with
  | register body uuid salt =>
    exact updates_call (by simp) fun result => updates_afterCommit _ _ result
  | login body sessionId =>
    refine updates_call (by simp) fun found => ?_
    rcases found with e | _ | user
    · exact updates_done _
    · exact updates_done _
    · simp only
      split
      · exact updates_done _
      split
      · exact updates_done _
      refine updates_call (by simp) fun stored => ?_
      rcases stored with e | _
      · exact updates_done _
      · exact updates_call (by simp) fun now => updates_done _
  | getUser userId => exact updates_withUser fun user => updates_done _
  | deactivate userId =>
    exact updates_withUser fun user => updates_commitThen ⟨rfl, user.isActive, rfl⟩
  | logout _ | getMe _ | updateProfile _ _ | changePassword _ _ _ =>
    exact absurd htoken (by simp [UserRequest.token?])

/-- A request that is about to update a row has been accepted as its user, or is a
`deactivate_user`. -/
lemma update_cases {req : UserRequest} {trace : UserTrace} {id : String} {changes : UserChanges}
    {k : Except CommitError Unit → UserProgram}
    (h : Follows (serve lib req) trace (.call (.commitUpdate id changes) k)) :
    (∃ token sessionId, req.token? = some token ∧ Accepted lib token ⟨id, sessionId⟩ trace) ∨
      (req = .deactivate id ∧
        ∃ flag, changes = ⟨none, none, none, changed flag (some false)⟩) := by
  rcases htoken : req.token? with _ | token
  · obtain ⟨-, hcall⟩ := (updates_without_token htoken).follows h
    cases hcall with
    | call hmay _ => exact .inr (hmay id changes rfl)
  · obtain ⟨route, hroute, hupdates⟩ := updates_route lib htoken
    rw [hroute] at h
    rcases authenticated_stage h with ⟨q, hq, hok, hcall⟩ | ⟨data, tr₁, tr₂, rfl, hvalid, hrest⟩
    · have hnext : (q.bind (afterValidation route)).next? = some (.commitUpdate id changes) := by
        rw [← hcall]
        rfl
      rcases hq.next hok with hclock | ⟨key, hget⟩ | ⟨response, hdone, -⟩
      · exact absurd (hclock.symm.trans hnext) (by simp)
      · exact absurd (hget.symm.trans hnext) (by simp)
      · rw [hdone] at hnext
        exact absurd hnext (by simp [Program.next?])
    · obtain ⟨-, hcall⟩ := (hupdates data).follows hrest
      cases hcall with
      | call hmay _ =>
        obtain rfl := hmay id changes rfl
        exact .inl ⟨token, data.sessionId, rfl, tr₁, List.suffix_append _ _, hvalid⟩

/-! ## One step -/

/-- A commit that clears the flag of a stored user succeeds where it is executed. -/
lemma updateUser_clear {users : List User} {user : User} {time : ℕ} (huser : user ∈ users) :
    updateUser users user.id ⟨none, none, none, some false⟩ time = .ok (users.map fun other =>
      if other.id = user.id then (⟨none, none, none, some false⟩ : UserChanges).apply time other
      else other) := by
  obtain ⟨row, hrow⟩ : ∃ row, users.find? (fun other => other.id = user.id) = some row := by
    apply Option.isSome_iff_exists.mp
    rw [List.find?_isSome]
    exact ⟨user, huser, decide_eq_true rfl⟩
  unfold updateUser
  rw [if_neg (by simp), hrow]
  simp [UserChanges.stored]

/-- The invariant of a run. -/
structure Sound (lib : Libraries) (p : UserPool) : Prop where
  serves : Pool.Serves (serve lib) p
  stored : Stored p.store.users

lemma sound_preserved : Preserved (userStep lib) (Sound lib) := by
  intro p e p' h hstep
  refine ⟨Pool.serves_openPreserved p e p' h.serves hstep, ?_⟩
  cases e with
  | arrive req =>
    obtain rfl := Option.some.inj hstep
    exact h.stored
  | execute l =>
    obtain ⟨t, command, k, store, r, -, -, hexec, rfl⟩ := Pool.step_eq_some.mp hstep
    exact stored_execUser h.stored hexec

lemma clears?_eq_some {t : UserThread} {id : String} (h : t.clears? = some id) :
    (∃ userId, t.request = .deactivate userId) ∧
      ∃ changes k, t.program = .call (.commitUpdate id changes) k ∧
        changes.isActive = some false := by
  unfold UserThread.clears? at h
  split at h
  · rename_i userId id' email name hashedPassword hrequest hnext
    obtain rfl := Option.some.inj h
    refine ⟨⟨userId, hrequest⟩, ?_⟩
    rcases hprogram : t.program with answer | ⟨command, k⟩
    · rw [hprogram] at hnext
      exact absurd hnext (by simp [Program.next?])
    · rw [hprogram] at hnext
      obtain rfl := Option.some.inj hnext
      exact ⟨_, k, rfl, rfl⟩
  · exact absurd h (by simp)

/-- An update keeps the record of a row if it sets no column, or only clears a flag that is
clear. -/
lemma record_apply_clear {user : User} {flag : Bool} {time : ℕ}
    (h : flag = true → user.isActive = false) :
    ((⟨none, none, none, changed flag (some false)⟩ : UserChanges).apply time user).record =
      user.record := by
  cases flag with
  | false => rfl
  | true =>
    unfold User.record
    rw [h rfl]
    rfl

/-- An update by a request without an accepted token keeps all records, if it clears no flag that
is set. -/
lemma keeps_of_update {p : UserPool} {l : ℕ × Circumstances} {t : UserThread} {id : String}
    {changes stored : UserChanges} {k : Except CommitError Unit → UserProgram} {time : ℕ}
    (h : Sound lib p) (hnot : ¬ Deactivates p (.execute l)) (ht : p.threads[l.1]? = some t)
    (hk : t.program = .call (.commitUpdate id changes) k) (hfault : l.2.fault ≠ .before)
    (hstored : changes.stored = some stored) {user : User} (huser : user ∈ p.store.users)
    (hid : user.id = id) :
    (stored.apply time user).record = user.record ∨
      ServedFor lib p (.execute l) user.id := by
  have hfollows := h.serves t (List.mem_of_getElem? ht)
  rw [hk] at hfollows
  rcases update_cases hfollows with ⟨token, sessionId, htoken, haccepted⟩ |
    ⟨hrequest, flag, rfl⟩
  · rw [← hid] at haccepted
    exact .inr ⟨l.1, l.2, t, token, sessionId, rfl, ht, htoken, haccepted⟩
  · obtain rfl := Option.some.inj hstored
    refine .inl (record_apply_clear fun hflag => ?_)
    rw [hflag] at hk
    have hclears : t.clears? = some id := by
      simp only [UserThread.clears?, hrequest, hk, Program.next?]
      rfl
    rw [← Bool.not_eq_true]
    exact fun hactive => hnot ⟨hfault, t, ht, id, hclears, user, huser, hid, hactive⟩

lemma commit_before (store : UserStore) (result : Except CommitError (List User)) :
    commit store .before result = (store, .error .failed) :=
  if_pos rfl

lemma commit_of_ok {store : UserStore} {fault : Fault} {result : Except CommitError (List User)}
    {users : List User} (hfault : fault ≠ .before) (h : result = .ok users) :
    (commit store fault result).1.users = users := by
  unfold commit
  rw [if_neg hfault, h]

/-- A step that clears no flag that is set keeps the records or serves their users. -/
lemma keepsOrServes_of_not {p : UserPool} {e : UserEvent} (h : Sound lib p)
    (hnot : ¬ Deactivates p e) : KeepsOrServes lib p e := by
  intro p' hstep user huser
  cases e with
  | arrive req =>
    obtain rfl := Option.some.inj hstep
    exact .inl ⟨user, huser, rfl, rfl⟩
  | execute l =>
    obtain ⟨t, command, k, store, r, ht, hk, hexec, rfl⟩ := Pool.step_eq_some.mp hstep
    rcases execUser_users hexec with husers | ⟨new, -, husers⟩ |
      ⟨id, changes, stored, time, rfl, hstored, -, husers⟩
    · exact .inl ⟨user, husers ▸ huser, rfl, rfl⟩
    · refine .inl ⟨user, ?_, rfl, rfl⟩
      rw [husers]
      exact List.mem_append_left _ huser
    · by_cases hfault : l.2.fault = .before
      · have hsame : store.users = p.store.users := by
          have hstore := congrArg Prod.fst (Option.some.inj hexec)
          rw [hfault, commit_before] at hstore
          exact (congrArg UserStore.users hstore).symm
        exact .inl ⟨user, hsame ▸ huser, rfl, rfl⟩
      · have hmem := List.mem_map_of_mem (f := fun user : User =>
          if user.id = id then stored.apply time user else user) huser
        rw [← husers] at hmem
        by_cases hid : user.id = id
        · rw [if_pos hid] at hmem
          rcases keeps_of_update h hnot ht hk hfault hstored huser hid with hrecord | hserved
          · exact .inl ⟨_, hmem, rfl, hrecord⟩
          · exact .inr hserved
        · rw [if_neg hid] at hmem
          exact .inl ⟨user, hmem, rfl, rfl⟩

/-- After the commit of a `deactivate_user` the flag is clear. -/
lemma inactive_of_clear {store store' : UserStore} {i : ℕ} {c : Circumstances}
    {r : Except CommitError Unit} {user : User} (huser : user ∈ store.users)
    (hfault : c.fault ≠ .before)
    (hexec : execUser store i (.commitUpdate user.id ⟨none, none, none, some false⟩) c =
      some (store', r)) :
    ∀ user' ∈ store'.users, user'.id = user.id → user'.isActive = false := by
  have husers : store'.users = _ :=
    (congrArg (fun done => done.1.users) (Option.some.inj hexec)).symm.trans
      (commit_of_ok hfault (updateUser_clear huser))
  intro user' huser' hid
  rw [husers] at huser'
  obtain ⟨old, -, rfl⟩ := List.mem_map.mp huser'
  split at hid
  · rename_i hold
    rw [if_pos hold]
    rfl
  · rename_i hold
    exact absurd hid hold

/-- A `deactivate_user` that commits changes the record of an active user, and serves no one. -/
lemma not_keepsOrServes {p p' : UserPool} {e : UserEvent} (h : Sound lib p)
    (hdeactivates : Deactivates p e) (hstep : userStep lib p e = some p') :
    ¬ KeepsOrServes lib p e := by
  intro hkeeps
  cases e with
  | arrive req => exact hdeactivates
  | execute l =>
    obtain ⟨hfault, t, ht, id, hclears, user, huser, rfl, hactive⟩ := hdeactivates
    obtain ⟨⟨userId, hrequest⟩, changes, k, hk, hflag⟩ := clears?_eq_some hclears
    have hfollows := h.serves t (List.mem_of_getElem? ht)
    rw [hk] at hfollows
    have htoken : t.request.token? = none := by
      rw [hrequest]
      rfl
    rcases update_cases hfollows with ⟨token, sessionId, hsome, -⟩ | ⟨-, flag, rfl⟩
    · exact absurd (htoken.symm.trans hsome) (by simp)
    have hchanged : changed flag (some false) = some false := hflag
    rw [hchanged] at hk
    obtain ⟨t', command, k', store, r, ht', hk', hexec, rfl⟩ := Pool.step_eq_some.mp hstep
    obtain rfl := Option.some.inj (ht.symm.trans ht')
    rcases hkeeps _ hstep user huser with ⟨user', huser', hid, hrecord⟩ |
      ⟨i, c, u, token, sessionId, heq, hu, hsome, -⟩
    · obtain ⟨rfl, -⟩ := Program.call.inj (hk.symm.trans hk')
      have hinactive := inactive_of_clear huser hfault hexec user' huser' hid
      have hflags : user'.isActive = user.isActive := congrArg (fun record => record.2.2.2) hrecord
      rw [hinactive, hactive] at hflags
      exact absurd hflags (by simp)
    · obtain rfl := Event.execute.inj heq
      obtain rfl := Option.some.inj (ht.symm.trans hu)
      exact absurd (htoken.symm.trans hsome) (by simp)

end

/-! ## Runs -/

/-- **Who changes a record.** In every interleaving of requests, every change of the record of an
existing user is made while serving a request that has been accepted as this user, if and only if
no `deactivate_user` ever commits for a user who is active. -/
theorem own_record_iff {lib : Libraries} {users : List User} (hstored : Stored users)
    {es : List UserEvent} {p : UserPool}
    (hrun : run (userStep lib) (UserPool.initial users) es = some p) :
    StepsMeet (userStep lib) (KeepsOrServes lib) (UserPool.initial users) es ↔
      StepsMeet (userStep lib) (fun p e => ¬ Deactivates p e) (UserPool.initial users) es := by
  have hinitial : Sound lib (UserPool.initial users) :=
    ⟨fun t ht => absurd ht (by simp [UserPool.initial]), hstored⟩
  refine stepsMeet_iff_stepsMeet (I := Sound lib) (D := fun _ _ => True) ?_ ?_ hinitial
    (stepsMeet_true _ _) hrun
  · exact fun p e p' h _ _ hstep => sound_preserved p e p' h hstep
  · intro p e p' h _ hstep
    constructor
    · exact fun hkeeps hdeactivates => not_keepsOrServes h hdeactivates hstep hkeeps
    · exact fun hnot => keepsOrServes_of_not h hnot

/-- The user logs in, and takes another name with the token. -/
def ownUpdate : List UserEvent :=
  [.arrive (.login ⟨"e", "pw"⟩ "s"), proceed 0, proceed 0, proceed 0,
    .arrive (.updateProfile sampleToken (some ⟨some "m", none⟩)), proceed 1, proceed 1, proceed 1,
    proceed 1]

lemma isSome_ownUpdate :
    (run (userStep plainLibraries) (UserPool.initial [sampleUser]) ownUpdate).isSome = true := by
  decide +kernel

lemma stored_sampleUser : Stored [sampleUser] where
  fits := by decide
  distinct := List.pairwise_singleton _ _

/-- The record changes, while serving a request that has been accepted as its user. -/
theorem own_record_iff_ownUpdate :
    (final _ _ _ isSome_ownUpdate).store.users.map User.name = ["m"] ∧
      StepsMeet (userStep plainLibraries) (KeepsOrServes plainLibraries)
        (UserPool.initial [sampleUser]) ownUpdate := by
  refine ⟨by decide +kernel, ?_⟩
  refine (own_record_iff stored_sampleUser (run_final isSome_ownUpdate)).mpr ?_
  decide +kernel

/-- A `deactivate_user` that has read the row of its user. -/
def anonymousRequest : List UserEvent := [.arrive (.deactivate "u"), proceed 0]

lemma isSome_anonymousRequest : (run (userStep plainLibraries) (UserPool.initial [sampleUser])
    (anonymousRequest ++ [proceed 0])).isSome = true := by
  decide +kernel

lemma before_anonymousRequest : ((run (userStep plainLibraries) (UserPool.initial [sampleUser])
    anonymousRequest).any fun p => p.store.users = [sampleUser] &&
      p.threads[0]?.all fun t => t.request.token? = none) = true := by
  decide +kernel

lemma after_anonymousRequest : (final _ _ _ isSome_anonymousRequest).store.users.all
    (fun user => !user.isActive) = true := by
  decide +kernel

/-- **Anyone can clear the flag of a user.** A `DELETE /api/users/{user_id}` needs no token. -/
theorem deactivated_by_anyone :
    ¬ ∀ (lib : Libraries) (users : List User) (es : List UserEvent) (p : UserPool),
      Stored users → run (userStep lib) (UserPool.initial users) es = some p →
      StepsMeet (userStep lib) (KeepsOrServes lib) (UserPool.initial users) es := by
  intro h
  have hrun := run_final isSome_anonymousRequest
  have hmeets := h plainLibraries [sampleUser] _ _ stored_sampleUser hrun
  obtain ⟨p₁, hp₁, hrest⟩ := run_cons_eq_some.mp hrun
  obtain ⟨p₂, hp₂, hlast⟩ := run_cons_eq_some.mp hrest
  obtain ⟨p₃, hp₃, hend⟩ := run_cons_eq_some.mp hlast
  obtain rfl := Option.some.inj hend
  have hread : run (userStep plainLibraries) (UserPool.initial [sampleUser]) anonymousRequest =
      some p₂ :=
    run_cons_eq_some.mpr ⟨p₁, hp₁, run_cons_eq_some.mpr ⟨p₂, hp₂, rfl⟩⟩
  have hbefore := before_anonymousRequest
  rw [hread, Option.any_some, Bool.and_eq_true, decide_eq_true_eq] at hbefore
  obtain ⟨husers, htoken⟩ := hbefore
  have hkeeps : KeepsOrServes plainLibraries p₂ (proceed 0) := ((hmeets.2 p₁ hp₁).2 p₂ hp₂).1
  have hmem : sampleUser ∈ p₂.store.users := by
    rw [husers]
    exact List.mem_singleton_self _
  rcases hkeeps _ hp₃ sampleUser hmem with ⟨user, huser, -, hrecord⟩ |
    ⟨i, c, t, token, sessionId, heq, ht, hsome, -⟩
  · have hinactive := List.all_eq_true.mp after_anonymousRequest user huser
    have hactive : user.isActive = true := congrArg (fun record => record.2.2.2) hrecord
    rw [hactive] at hinactive
    exact absurd hinactive (by simp)
  · obtain ⟨rfl, rfl⟩ := Prod.mk.inj (Event.execute.inj heq)
    rw [ht, Option.all_some, decide_eq_true_eq, hsome] at htoken
    exact absurd htoken (by simp)

end DevopsEcommerce.UserService
