import DevopsEcommerce.UserService.Service

/-!
# Where a request stands

`_validate_token` has two replies, of the clock and of Redis; `Accepted` says that with them it
has returned a user and a session. A login that returns a token has found its user, stored the
session and read the clock, in this order (`LoginStage`). No other request stores a session or
answers a token (`serve_within`).
-/

open Interleaving Program

namespace DevopsEcommerce.UserService

abbrev UserTrace := List (Σ c, UserReply c)

/-- `_validate_token` has accepted the token after the first replies of the trace. -/
def Accepted (lib : Libraries) (token : String) (data : TokenData) (trace : UserTrace) : Prop :=
  ∃ tr, tr <:+ trace ∧ Follows (validateToken lib token) tr (.done (.ok data))

/-- The answer carries a token. -/
def Response.HasToken (response : Response) : Prop :=
  ∃ accessToken tokenType, response.body = .token accessToken tokenType

/-- The commands on sessions that change them belong to logins and logouts, and no update makes a
user active. -/
def MayIssue (req : UserRequest) : UserCommand → Prop
  | .setSession key _ ex =>
    ∃ body sessionId, req = .login body sessionId ∧ key = sessionKey sessionId ∧
      ex = sessionTTLSeconds
  | .deleteSession _ => ∃ token, req = .logout token
  | .commitUpdate _ changes => changes.isActive ≠ some true
  | .selectByEmail _ | .selectById _ | .commitInsert _ _ _ _ | .getSession _ | .utcnow => True

section
variable {lib : Libraries}

/-! ## Validation -/

variable (lib) in
/-- The program of a request with a token. -/
lemma serve_of_token {req : UserRequest} {token : String} (h : req.token? = some token) :
    ∃ route, serve lib req = authenticated lib token route := by
  cases req with
  | logout _ | getMe _ | updateProfile _ _ | changePassword _ _ _ =>
    obtain rfl := Option.some.inj h
    exact ⟨_, rfl⟩
  | register _ _ _ | login _ _ | getUser _ | deactivate _ =>
    exact absurd h (by simp [UserRequest.token?])

/-- Where a validation can stand after its replies. -/
inductive ValidationStage (lib : Libraries) (token : String) :
    UserTrace → Program UserCommand UserReply (Except Response TokenData) → Prop
  | start : ValidationStage lib token [] (validateToken lib token)
  | invalid {now : ℕ} {response : Response}
      (h : ∀ userId sessionId, lib.decode now token ≠ some ⟨some userId, some sessionId⟩)
      (hstatus : response.status = 401) :
      ValidationStage lib token [⟨.utcnow, now⟩] (.done (.error response))
  | decoded {now : ℕ} {data : TokenData}
      (h : lib.decode now token = some ⟨some data.userId, some data.sessionId⟩) :
      ValidationStage lib token [⟨.utcnow, now⟩]
        (.call (.getSession (sessionKey data.sessionId)) (sessionOf data))
  | looked {now : ℕ} {data : TokenData} (reply : Except CallError (Option SessionData))
      (h : lib.decode now token = some ⟨some data.userId, some data.sessionId⟩) :
      ValidationStage lib token
        [⟨.getSession (sessionKey data.sessionId), reply⟩, ⟨.utcnow, now⟩] (sessionOf data reply)

lemma sessionOf_done (data : TokenData) (reply : Except CallError (Option SessionData)) :
    ∃ result, sessionOf data reply = .done result := by
  rcases reply with e | _ | session <;> exact ⟨_, rfl⟩

lemma validationStage {token : String} {tr : UserTrace}
    {q : Program UserCommand UserReply (Except Response TokenData)}
    (h : Follows (validateToken lib token) tr q) : ValidationStage lib token tr q := by
  rcases follows_call h with ⟨rfl, rfl⟩ | ⟨now, tr, rfl, hrest⟩
  · exact .start
  · split at hrest
    · rename_i hdecode
      obtain ⟨rfl, rfl⟩ := follows_done hrest
      exact .invalid (fun userId sessionId hsome => by simp [hdecode] at hsome) rfl
    · rename_i userId sessionId hdecode
      have hdata : lib.decode now token = some ⟨some userId, some sessionId⟩ := hdecode
      rcases follows_call hrest with ⟨rfl, rfl⟩ | ⟨reply, tr, rfl, hlast⟩
      · exact @ValidationStage.decoded lib token now ⟨userId, sessionId⟩ hdata
      · obtain ⟨result, hresult⟩ := sessionOf_done ⟨userId, sessionId⟩ reply
        rw [hresult] at hlast
        obtain ⟨rfl, rfl⟩ := follows_done hlast
        rw [← hresult]
        exact @ValidationStage.looked lib token now ⟨userId, sessionId⟩ reply hdata
    · rename_i claims hne hdecode
      obtain ⟨rfl, rfl⟩ := follows_done hrest
      refine .invalid (fun userId sessionId hsome => ?_) rfl
      obtain rfl := Option.some.inj (hdecode.symm.trans hsome)
      exact hne userId sessionId rfl

/-- The two replies that lead to acceptance. -/
lemma accepted_trace {token : String} {data : TokenData} {tr : UserTrace}
    (h : Follows (validateToken lib token) tr (.done (.ok data))) :
    ∃ now session, tr = [⟨.getSession (sessionKey data.sessionId), .ok (some session)⟩,
        ⟨.utcnow, now⟩] ∧
      lib.decode now token = some ⟨some data.userId, some data.sessionId⟩ := by
  generalize hq : (Program.done (.ok data) :
    Program UserCommand UserReply (Except Response TokenData)) = q at h
  cases validationStage h with
  | start => exact absurd hq (by simp [validateToken])
  | invalid hno hstatus => exact absurd hq (by simp)
  | decoded hdecode => exact absurd hq (by simp)
  | @looked now found reply hdecode =>
    rcases reply with e | _ | session
    · exact absurd hq (by simp [sessionOf])
    · exact absurd hq (by simp [sessionOf])
    · obtain rfl := Except.ok.inj (Program.done.inj hq)
      exact ⟨now, session, rfl, hdecode⟩

/-- What acceptance means in terms of the two replies. -/
lemma accepted_iff {token : String} {data : TokenData} {trace : UserTrace} :
    Accepted lib token data trace ↔
      ∃ now session, [⟨.getSession (sessionKey data.sessionId), .ok (some session)⟩,
          ⟨.utcnow, now⟩] <:+ trace ∧
        lib.decode now token = some ⟨some data.userId, some data.sessionId⟩ := by
  constructor
  · rintro ⟨tr, htr, hfollows⟩
    obtain ⟨now, session, rfl, hdecode⟩ := accepted_trace hfollows
    exact ⟨now, session, htr, hdecode⟩
  · rintro ⟨now, session, htr, hdecode⟩
    refine ⟨_, htr, ?_⟩
    have hclock : Follows (validateToken lib token) [⟨.utcnow, now⟩]
        (.call (.getSession (sessionKey data.sessionId)) (sessionOf data)) := by
      have hreply := Follows.reply (p := validateToken lib token) now .start
      rw [hdecode] at hreply
      exact hreply
    exact .reply (.ok (some session)) hclock

/-- A request with a token is in its validation, or has been accepted and is in its route. -/
lemma authenticated_stage {token : String} {route : TokenData → UserProgram} {tr : UserTrace}
    {q : UserProgram} (h : Follows (authenticated lib token route) tr q) :
    (∃ p, ValidationStage lib token tr p ∧ (∀ data, p ≠ .done (.ok data)) ∧
        q = p.bind (afterValidation route)) ∨
      ∃ data tr₁ tr₂, tr = tr₂ ++ tr₁ ∧
        Follows (validateToken lib token) tr₁ (.done (.ok data)) ∧ Follows (route data) tr₂ q := by
  rcases follows_bind h with ⟨p, hp, rfl⟩ | ⟨result, tr₁, tr₂, rfl, hp, hf⟩
  · by_cases hok : ∃ data, p = .done (.ok data)
    · obtain ⟨data, rfl⟩ := hok
      exact .inr ⟨data, tr, [], rfl, hp, .start⟩
    · exact .inl ⟨p, validationStage hp, fun data hdata => hok ⟨data, hdata⟩, rfl⟩
  · rcases result with response | data
    · obtain ⟨rfl, rfl⟩ := follows_done hf
      exact .inl ⟨_, validationStage hp, fun data => by simp, rfl⟩
    · exact .inr ⟨data, tr₁, tr₂, rfl, hp, hf⟩

/-- A validation that has not accepted goes on to ask Redis or ends with an error. -/
lemma ValidationStage.next {token : String} {route : TokenData → UserProgram} {tr : UserTrace}
    {p : Program UserCommand UserReply (Except Response TokenData)}
    (h : ValidationStage lib token tr p) (hp : ∀ data, p ≠ .done (.ok data)) :
    (p.bind (afterValidation route)).next? = some .utcnow ∨
      (∃ key, (p.bind (afterValidation route)).next? = some (.getSession key)) ∨
      ∃ response, p.bind (afterValidation route) = .done response ∧ 400 ≤ response.status := by
  cases h with
  | start => exact .inl rfl
  | @invalid now response hno hstatus => exact .inr (.inr ⟨response, rfl, by omega⟩)
  | decoded hdecode => exact .inr (.inl ⟨_, rfl⟩)
  | looked reply hdecode =>
    rcases reply with e | _ | session
    · exact .inr (.inr ⟨_, rfl, by decide⟩)
    · exact .inr (.inr ⟨_, rfl, by simp [httpException]⟩)
    · exact absurd rfl (hp _)

/-- A request with a token that has read the clock is about to look its session up, if the token
decodes, and has ended otherwise. -/
lemma authenticated_after_clock {token : String} {route : TokenData → UserProgram} {now : ℕ}
    {q : UserProgram} (h : Follows (authenticated lib token route) [⟨.utcnow, now⟩] q) :
    (∃ data : TokenData, ∃ k, lib.decode now token =
        some ⟨some data.userId, some data.sessionId⟩ ∧
      q = .call (.getSession (sessionKey data.sessionId)) k) ∨
    ((∀ userId sessionId, lib.decode now token ≠ some ⟨some userId, some sessionId⟩) ∧
      q.next? = none) := by
  rcases authenticated_stage h with ⟨p, hp, -, rfl⟩ | ⟨data, tr₁, tr₂, heq, hp, -⟩
  · cases hp with
    | invalid hno hstatus => exact .inr ⟨hno, rfl⟩
    | decoded hdecode => exact .inl ⟨_, _, hdecode, rfl⟩
  · obtain ⟨clock, session, rfl, -⟩ := accepted_trace hp
    have hlength := congrArg List.length heq
    rw [List.length_append] at hlength
    exact absurd hlength (by simp)

/-- A logout that is about to delete a session has been accepted with it. -/
lemma accepted_of_deleting {token key : String} {tr : UserTrace} {q : UserProgram}
    (h : Follows (authenticated lib token logout) tr q)
    (hq : q.next? = some (.deleteSession key)) :
    ∃ data, key = sessionKey data.sessionId ∧ Accepted lib token data tr := by
  rcases authenticated_stage h with ⟨p, hp, hok, rfl⟩ | ⟨data, tr₁, tr₂, rfl, hp, hroute⟩
  · rcases hp.next hok with hnext | ⟨other, hnext⟩ | ⟨response, hdone, -⟩
    · exact absurd (hnext.symm.trans hq) (by simp)
    · exact absurd (hnext.symm.trans hq) (by simp)
    · rw [hdone] at hq
      exact absurd hq (by simp [Program.next?])
  · refine ⟨data, ?_, tr₁, List.suffix_append _ _, hp⟩
    rcases follows_call hroute with ⟨rfl, rfl⟩ | ⟨reply, tr', rfl, hend⟩
    · simpa [Program.next?] using hq.symm
    · rcases reply with e | _ <;>
      · obtain ⟨rfl, rfl⟩ := follows_done hend
        exact absurd hq (by simp [Program.next?])

/-- A logout that has answered 204 has deleted the session that it was accepted with. -/
lemma deleted_of_logout {token : String} {tr : UserTrace}
    (h : Follows (authenticated lib token logout) tr (.done ⟨204, .empty⟩)) :
    ∃ data, Accepted lib token data tr ∧
      ⟨.deleteSession (sessionKey data.sessionId), .ok ()⟩ ∈ tr := by
  generalize hq : (Program.done ⟨204, .empty⟩ : UserProgram) = q at h
  rcases authenticated_stage h with ⟨p, hp, hok, rfl⟩ | ⟨data, tr₁, tr₂, rfl, hp, hroute⟩
  · have hnone : (p.bind (afterValidation logout)).next? = none := hq ▸ rfl
    rcases hp.next hok with hnext | ⟨other, hnext⟩ | ⟨response, hdone, hstatus⟩
    · exact absurd (hnext.symm.trans hnone) (by simp)
    · exact absurd (hnext.symm.trans hnone) (by simp)
    · obtain rfl := Program.done.inj (hq.trans hdone)
      exact absurd hstatus (by decide)
  · refine ⟨data, ⟨tr₁, List.suffix_append _ _, hp⟩, ?_⟩
    rcases follows_call hroute with ⟨rfl, rfl⟩ | ⟨reply, tr', rfl, hend⟩
    · exact absurd hq (by simp)
    · rcases reply with e | _
      · obtain ⟨rfl, rfl⟩ := follows_done hend
        exact absurd hq (by simp [serverError])
      · simp

/-! ## Logins -/

/-- The user that a login has found, with the right password and active. -/
structure Verified (lib : Libraries) (body : LoginRequest) (user : User) : Prop where
  password : lib.verify body.password user.hashedPassword = true
  active : user.isActive = true

/-- Where a login can stand after its replies, latest first. -/
inductive LoginStage (lib : Libraries) (body : LoginRequest) (sessionId : String) :
    UserTrace → UserProgram → Prop
  | start : LoginStage lib body sessionId [] (login lib body sessionId)
  | refused {trace : UserTrace} {response : Response} (h : ¬ response.HasToken) :
      LoginStage lib body sessionId trace (.done response)
  | verified {user : User} (h : Verified lib body user) :
      LoginStage lib body sessionId [⟨.selectByEmail body.email, .ok (some user)⟩]
        (createSession lib user sessionId)
  | stored {user : User} (h : Verified lib body user) (k : ℕ → UserProgram)
      (hk : ∀ now, k now = .done (tokenResponse (createToken lib user.id sessionId now))) :
      LoginStage lib body sessionId
        [⟨.setSession (sessionKey sessionId) ⟨user.id, user.email⟩ sessionTTLSeconds, .ok ()⟩,
          ⟨.selectByEmail body.email, .ok (some user)⟩]
        (.call .utcnow k)
  | returned {user : User} (h : Verified lib body user) (now : ℕ) :
      LoginStage lib body sessionId
        [⟨.utcnow, now⟩,
          ⟨.setSession (sessionKey sessionId) ⟨user.id, user.email⟩ sessionTTLSeconds, .ok ()⟩,
          ⟨.selectByEmail body.email, .ok (some user)⟩]
        (.done (tokenResponse (createToken lib user.id sessionId now)))

lemma not_hasToken_detail (status : ℕ) (text : String) :
    ¬ (httpException status text).HasToken := by
  rintro ⟨_, _, h⟩
  exact absurd h (by simp [httpException])

lemma not_hasToken_serverError : ¬ serverError.HasToken := by
  rintro ⟨_, _, h⟩
  exact absurd h (by simp [serverError])

lemma loginStage {body : LoginRequest} {sessionId : String} {tr : UserTrace} {q : UserProgram}
    (h : Follows (login lib body sessionId) tr q) : LoginStage lib body sessionId tr q := by
  rcases follows_call h with ⟨rfl, rfl⟩ | ⟨found, tr, rfl, hfound⟩
  · exact .start
  rcases found with e | _ | user
  · obtain ⟨rfl, rfl⟩ := follows_done hfound
    exact .refused not_hasToken_serverError
  · obtain ⟨rfl, rfl⟩ := follows_done hfound
    exact .refused (not_hasToken_detail _ _)
  simp only at hfound
  split at hfound
  · obtain ⟨rfl, rfl⟩ := follows_done hfound
    exact .refused (not_hasToken_detail _ _)
  rename_i hpassword
  split at hfound
  · obtain ⟨rfl, rfl⟩ := follows_done hfound
    exact .refused (not_hasToken_detail _ _)
  rename_i hactive
  have hverified : Verified lib body user := ⟨by simpa using hpassword, by simpa using hactive⟩
  rcases follows_call hfound with ⟨rfl, rfl⟩ | ⟨stored, tr, rfl, hstored⟩
  · exact .verified hverified
  rcases stored with e | _
  · obtain ⟨rfl, rfl⟩ := follows_done hstored
    exact .refused not_hasToken_serverError
  rcases follows_call hstored with ⟨rfl, rfl⟩ | ⟨now, tr, rfl, hend⟩
  · exact .stored hverified _ fun _ => rfl
  obtain ⟨rfl, rfl⟩ := follows_done hend
  exact .returned hverified now

/-! ## What requests keep to -/

/-- Only a login answers a token. -/
def MayAnswer (req : UserRequest) (response : Response) : Prop :=
  response.HasToken → ∃ body sessionId, req = .login body sessionId

lemma mayAnswer_of_not {req : UserRequest} {response : Response} (h : ¬ response.HasToken) :
    MayAnswer req response :=
  fun htoken => absurd htoken h

lemma not_hasToken_of_body {response : Response} (h : ∀ a b, response.body ≠ .token a b) :
    ¬ response.HasToken :=
  fun ⟨a, b, hbody⟩ => h a b hbody

section
variable {req : UserRequest}

lemma within_withUser {id : String} {rest : User → UserProgram}
    (h : ∀ user, (rest user).Within (MayIssue req) (MayAnswer req)) :
    (withUser id rest).Within (MayIssue req) (MayAnswer req) := by
  refine .call trivial fun found => ?_
  rcases found with e | _ | user
  · exact .done (mayAnswer_of_not not_hasToken_serverError)
  · exact .done (mayAnswer_of_not (not_hasToken_detail _ _))
  · exact h user

lemma within_getUser (id : String) : (getUser id).Within (MayIssue req) (MayAnswer req) :=
  within_withUser fun _ => .done (mayAnswer_of_not (not_hasToken_of_body (by simp)))

lemma within_afterCommit (id : String) (status : ℕ) (result : Except CommitError Unit) :
    (afterCommit id status result).Within (MayIssue req) (MayAnswer req) := by
  rcases result with (_ | _) | _
  · exact .done (mayAnswer_of_not (not_hasToken_detail _ _))
  · exact .done (mayAnswer_of_not not_hasToken_serverError)
  · refine .call trivial fun found => ?_
    rcases found with e | _ | user
    · exact .done (mayAnswer_of_not not_hasToken_serverError)
    · exact .done (mayAnswer_of_not not_hasToken_serverError)
    · exact .done (mayAnswer_of_not (not_hasToken_of_body (by simp)))

lemma within_commitThen (id : String) {changes : UserChanges}
    (h : changes.isActive ≠ some true) :
    (commitThen id changes).Within (MayIssue req) (MayAnswer req) := by
  refine .call h fun result => ?_
  rcases result with e | _
  · exact .done (mayAnswer_of_not not_hasToken_serverError)
  · exact .done (mayAnswer_of_not (not_hasToken_of_body (by simp)))

lemma within_validateToken (token : String) :
    (validateToken lib token).Within (MayIssue req)
      fun result => ∀ response, result = .error response → ¬ response.HasToken := by
  refine .call trivial fun now => ?_
  split
  · refine .done fun response hresponse => ?_
    obtain rfl := Except.error.inj hresponse
    exact not_hasToken_detail _ _
  · refine .call trivial fun reply => ?_
    rcases reply with e | _ | session
    · refine .done fun response hresponse => ?_
      obtain rfl := Except.error.inj hresponse
      exact not_hasToken_serverError
    · refine .done fun response hresponse => ?_
      obtain rfl := Except.error.inj hresponse
      exact not_hasToken_detail _ _
    · exact .done fun response hresponse => absurd hresponse (by simp)
  · refine .done fun response hresponse => ?_
    obtain rfl := Except.error.inj hresponse
    exact not_hasToken_detail _ _

lemma within_authenticated {token : String} {route : TokenData → UserProgram}
    (h : ∀ data, (route data).Within (MayIssue req) (MayAnswer req)) :
    (authenticated lib token route).Within (MayIssue req) (MayAnswer req) := by
  refine Within.bind (within_validateToken token) fun result hresult => ?_
  rcases result with response | data
  · exact .done (mayAnswer_of_not (hresult response rfl))
  · exact h data

end

lemma changed_false (old : Bool) : changed old (some false) ≠ some true := by
  cases old <;> decide

/-- Only logins store sessions and answer tokens, each login its own session, and only logouts
delete sessions. -/
lemma serve_within (req : UserRequest) :
    (serve lib req).Within (MayIssue req) (MayAnswer req) := by
  cases req with
  | register body uuid salt => exact .call trivial fun result => within_afterCommit _ _ result
  | login body sessionId =>
    have hlogin : ∀ response, MayAnswer (.login body sessionId) response :=
      fun _ _ => ⟨body, sessionId, rfl⟩
    refine .call trivial fun found => ?_
    rcases found with e | _ | user
    · exact .done (hlogin _)
    · exact .done (hlogin _)
    · simp only
      split
      · exact .done (hlogin _)
      split
      · exact .done (hlogin _)
      -- the password is right and the user active: the session is stored, then the token answered
      refine .call ⟨body, sessionId, rfl, rfl, rfl⟩ fun stored => ?_
      rcases stored with e | _
      · exact .done (hlogin _)
      · exact .call trivial fun now => .done (hlogin _)
  | logout token =>
    refine within_authenticated fun data => .call ⟨token, rfl⟩ fun result => ?_
    rcases result with e | _
    · exact .done (mayAnswer_of_not not_hasToken_serverError)
    · exact .done (mayAnswer_of_not (not_hasToken_of_body (by simp)))
  | getMe token => exact within_authenticated fun data => within_getUser _
  | updateProfile token body =>
    refine within_authenticated fun data => ?_
    cases body with
    | none => exact .done (mayAnswer_of_not (not_hasToken_of_body (by simp [unprocessable])))
    | some body =>
      refine within_withUser fun user => .call ?_ fun result => within_afterCommit _ _ result
      show none ≠ some true
      simp
  | changePassword token body salt =>
    refine within_authenticated fun data => ?_
    cases body with
    | none => exact .done (mayAnswer_of_not (not_hasToken_of_body (by simp [unprocessable])))
    | some body =>
      refine within_withUser fun user => ?_
      split
      · exact .done (mayAnswer_of_not (not_hasToken_detail _ _))
      · exact within_commitThen _ (by simp)
  | getUser userId => exact within_getUser _
  | deactivate userId =>
    exact within_withUser fun user => within_commitThen _ (changed_false user.isActive)

end

end DevopsEcommerce.UserService
