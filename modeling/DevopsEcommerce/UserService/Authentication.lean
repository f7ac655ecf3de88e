import DevopsEcommerce.Go.Encoding
import DevopsEcommerce.UserService.Sessions

/-!
# Which tokens are accepted

`token_acceptance_exact`: a validation that has read its clock is going to accept exactly if its
token was returned by a login, has not expired at that reading, and its session has neither
expired nor been deleted when Redis is asked. So a token stands for one user only, and no longer
after its logout.
-/

open Interleaving Program

namespace DevopsEcommerce.UserService

/-- The login `t` has found `user` with the right password and active, has stored the session
and has returned the token, signed at the time `issued`. -/
structure Granted (lib : Libraries) (t : UserThread) (user : User) (sessionId : String)
    (issued : ℕ) (token : String) : Prop where
  verified : ∃ body, t.request = .login body sessionId ∧
    ⟨.selectByEmail body.email, .ok (some user)⟩ ∈ t.trace ∧ Verified lib body user
  created : ⟨.setSession (sessionKey sessionId) ⟨user.id, user.email⟩ sessionTTLSeconds, .ok ()⟩ ∈
    t.trace
  signed : token = createToken lib user.id sessionId issued
  returned : t.program.answer? = some (tokenResponse token)

/-- A login has returned the token for this user and session; its `exp` has not passed at the
time `reading`, the session's time to live has not passed at the time `now`, and no logout has
deleted the session. -/
def Stands (lib : Libraries) (p : UserPool) (token : String) (data : TokenData)
    (reading now : ℕ) : Prop :=
  ∃ (i : ℕ) (t : UserThread) (user : User) (issued stored : ℕ), p.threads[i]? = some t ∧
    Granted lib t user data.sessionId issued token ∧ user.id = data.userId ∧
    lib.expired (issued + jwtExpiration) reading = false ∧
    .set i (sessionKey data.sessionId) stored ∈ p.store.log ∧
    now ≤ stored + sessionTTLSeconds * 1000 ∧ ¬ Deleted p.store (sessionKey data.sessionId)

/-- The next command of thread `i` makes `_validate_token` accept the token. -/
def Accepts (lib : Libraries) (p : UserPool) (i : ℕ) (c : Circumstances) (token : String)
    (data : TokenData) : Prop :=
  ∃ p' t, userStep lib p (.execute (i, c)) = some p' ∧ p'.threads[i]? = some t ∧
    Accepted lib token data t.trace

section
variable {lib : Libraries} {p : UserPool}

/-- A token that has been issued was granted by a login. -/
lemma Linked.granted (h : Linked lib p) {token : String} (hissued : Issued p token) :
    ∃ (i : ℕ) (t : UserThread) (user : User) (sessionId : String) (issued : ℕ),
      p.threads[i]? = some t ∧ Granted lib t user sessionId issued token := by
  obtain ⟨t, ht, hanswer⟩ := hissued
  obtain ⟨i, hi⟩ := List.mem_iff_getElem?.mp ht
  have hfollows := h.serves t ht
  obtain ⟨-, hwithin⟩ := (serve_within t.request).follows hfollows
  rw [answer?_eq_some hanswer] at hwithin hfollows
  cases hwithin with
  | done hmay =>
    -- only a login answers a token
    obtain ⟨body, sessionId, hrequest⟩ := hmay ⟨token, _, rfl⟩
    rw [hrequest] at hfollows
    generalize htrace : t.trace = trace at hfollows
    generalize hprogram : (Program.done (tokenResponse token) : UserProgram) = q at hfollows
    -- of the stages of a login only the last one answers it
    cases loginStage hfollows with
    | start => exact absurd hprogram (by simp [login])
    | refused hno =>
      obtain rfl := Program.done.inj hprogram
      exact absurd ⟨token, _, rfl⟩ hno
    | verified hverified => exact absurd hprogram (by simp [createSession])
    | stored hverified k hk => exact absurd hprogram (by simp)
    | @returned user hverified now =>
      have hresponse := Program.done.inj hprogram
      simp only [tokenResponse, Response.mk.injEq, Body.token.injEq, and_true, true_and]
        at hresponse
      refine ⟨i, t, user, sessionId, now, hi, ⟨body, hrequest, ?_, hverified⟩, ?_, hresponse,
        hanswer⟩
      · rw [htrace]
        simp
      · rw [htrace]
        simp

/-- A granted token decodes to its user and its session, until it expires. -/
lemma Granted.decode {t : UserThread} {user : User} {sessionId token : String}
    {issued : ℕ} (h : Granted lib t user sessionId issued token) (hdecodes : lib.Decodes)
    (now : ℕ) :
    lib.decode now token = if lib.expired (issued + jwtExpiration) now then none
      else some ⟨some user.id, some sessionId⟩ := by
  rw [h.signed]
  exact hdecodes _ now

lemma Granted.decode_eq {t : UserThread} {user : User} {sessionId token : String}
    {issued now : ℕ} {data : TokenData} (h : Granted lib t user sessionId issued token)
    (hdecodes : lib.Decodes)
    (hdecode : lib.decode now token = some ⟨some data.userId, some data.sessionId⟩) :
    lib.expired (issued + jwtExpiration) now = false ∧ data = ⟨user.id, sessionId⟩ := by
  rw [h.decode hdecodes] at hdecode
  split at hdecode
  · exact absurd hdecode (by simp)
  · rename_i hvalid
    have hdata := Option.some.inj hdecode
    simp only [Claims.mk.injEq, Option.some.injEq] at hdata
    obtain ⟨huser, hsession⟩ := hdata
    exact ⟨by simpa using hvalid, by rw [huser, hsession]⟩

lemma tokenData_eq {data data' : TokenData}
    (h : some (⟨some data.userId, some data.sessionId⟩ : Claims) =
      some ⟨some data'.userId, some data'.sessionId⟩) : data = data' := by
  obtain ⟨userId, sessionId⟩ := data
  have hclaims := Option.some.inj h
  simp only [Claims.mk.injEq, Option.some.injEq] at hclaims
  rw [hclaims.1, hclaims.2]

/-- A token that has been accepted was granted, for the user and the session accepted. -/
lemma Linked.granted_of_decode (h : Linked lib p) (hdecodes : lib.Decodes) {t : UserThread}
    {token : String} {now : ℕ} {data : TokenData} (ht : t ∈ p.threads)
    (htoken : t.request.token? = some token) (hclock : [⟨.utcnow, now⟩] <:+ t.trace)
    (hdecode : lib.decode now token = some ⟨some data.userId, some data.sessionId⟩) :
    ∃ (i : ℕ) (u : UserThread) (user : User) (issued : ℕ), p.threads[i]? = some u ∧
      Granted lib u user data.sessionId issued token ∧ user.id = data.userId ∧
      lib.expired (issued + jwtExpiration) now = false := by
  obtain ⟨i, u, user, sessionId, issued, hu, hgranted⟩ :=
    h.granted (h.issued ht htoken hclock hdecode)
  obtain ⟨hvalid, rfl⟩ := hgranted.decode_eq hdecodes hdecode
  exact ⟨i, u, user, issued, hu, hgranted, rfl, hvalid⟩

/-- A logout that has answered 204 has deleted the session of its token. -/
lemma Linked.deleted_of_logout (h : Linked lib p) {u : UserThread} {token : String}
    (hu : u ∈ p.threads) (hrequest : u.request = .logout token)
    (hanswer : u.program.answer? = some ⟨204, .empty⟩) :
    ∃ data, Accepted lib token data u.trace ∧ Deleted p.store (sessionKey data.sessionId) := by
  have hfollows := h.serves u hu
  rw [hrequest, answer?_eq_some hanswer] at hfollows
  obtain ⟨data, haccepted, hmem⟩ := UserService.deleted_of_logout hfollows
  obtain ⟨j, hj⟩ := List.mem_iff_getElem?.mp hu
  exact ⟨data, haccepted, h.told j u hj _ hmem⟩

/-- What the lookup of a session makes of a validation. -/
lemma accepts_iff (h : Linked lib p) (hdecodes : lib.Decodes) {i : ℕ} {t : UserThread}
    {token : String} {reading : ℕ} (ht : p.threads[i]? = some t)
    (htoken : t.request.token? = some token) (htrace : t.trace = [⟨.utcnow, reading⟩])
    (c : Circumstances) (data : TokenData) :
    Accepts lib p i c token data ↔
      c.fault = .none ∧ Stands lib p token data reading (p.store.now + c.elapsed) := by
  have hmem := List.mem_of_getElem? ht
  have hclock : [⟨.utcnow, reading⟩] <:+ t.trace := htrace ▸ List.suffix_refl _
  have hfollows := h.serves t hmem
  obtain ⟨route, hroute⟩ := serve_of_token lib htoken
  rw [htrace, hroute] at hfollows
  constructor
  · rintro ⟨p', t', hstep, ht', haccepted⟩
    obtain ⟨u, command, k, store, r, hu, hk, hexec, rfl⟩ := Pool.step_eq_some.mp hstep
    obtain rfl := Option.some.inj (ht.symm.trans hu)
    rw [getElem?_set_moved ht] at ht'
    obtain rfl := Option.some.inj ht'
    rcases authenticated_after_clock hfollows with ⟨found, k', hdecode, hcall⟩ | ⟨-, hended⟩
    · rw [hk] at hcall
      obtain ⟨rfl, -⟩ := Program.call.inj hcall
      obtain ⟨now, session, hsuffix, hdecode'⟩ := accepted_iff.mp haccepted
      -- the trace has just these two replies
      have hpair : [(⟨.getSession (sessionKey data.sessionId), .ok (some session)⟩ :
          Σ c, UserReply c), ⟨.utcnow, now⟩] =
          [⟨.getSession (sessionKey found.sessionId), r⟩, ⟨.utcnow, reading⟩] := by
        have htwo : (t.receive (.getSession (sessionKey found.sessionId)) r (k r)).trace =
            [⟨.getSession (sessionKey found.sessionId), r⟩, ⟨.utcnow, reading⟩] := by
          rw [← htrace]
          rfl
        rw [htwo] at hsuffix
        exact hsuffix.eq_of_length rfl
      obtain ⟨hlookup, hrest⟩ := List.cons.inj hpair
      obtain ⟨hread, -⟩ := List.cons.inj hrest
      obtain rfl := eq_of_heq (Sigma.mk.inj hread).2
      obtain rfl : data = found := tokenData_eq (hdecode'.symm.trans hdecode)
      obtain rfl := eq_of_heq (Sigma.mk.inj hlookup).2
      have hreply := execUser_getSession hexec
      unfold readReply at hreply
      split at hreply
      · rename_i hfault
        obtain ⟨deadline, hsession, hlive⟩ :=
          Redis.Keys.get_eq_some.mp (Except.ok.inj hreply).symm
        obtain ⟨j, u, user, issued, hu, hgranted, huser, hvalid⟩ :=
          h.granted_of_decode hdecodes hmem htoken hclock hdecode
        have htold : ∃ stored, SessionEvent.set j (sessionKey data.sessionId) stored ∈
            p.store.log := h.told j u hu _ hgranted.created
        obtain ⟨stored, hlog⟩ := htold
        have hdel := (h.stored hsession).1
        obtain ⟨value, hkept⟩ := h.kept hlog hdel
        rw [hsession, Option.some.injEq, Redis.Timed.mk.injEq] at hkept
        rw [hkept.2] at hlive
        exact ⟨hfault, j, u, user, issued, stored, hu, hgranted, huser, hvalid, hlog, hlive, hdel⟩
      · exact absurd hreply (by simp)
    · rw [hk] at hended
      exact absurd hended (by simp [Program.next?])
  · rintro ⟨hfault, j, u, user, issued, stored, hu, hgranted, huser, hvalid, hlog, hlive, hdel⟩
    have hdecode : lib.decode reading token = some ⟨some data.userId, some data.sessionId⟩ := by
      rw [hgranted.decode hdecodes, hvalid, huser]
      rfl
    obtain ⟨value, hkept⟩ := h.kept hlog hdel
    have hget : p.store.sessions.get (p.store.now + c.elapsed) (sessionKey data.sessionId) =
        some value :=
      Redis.Keys.get_eq_some.mpr ⟨_, hkept, hlive⟩
    rcases authenticated_after_clock hfollows with ⟨found, k, hdecode', hcall⟩ | ⟨hno, -⟩
    · obtain rfl : data = found := tokenData_eq (hdecode.symm.trans hdecode')
      have hexec : execUser p.store i (.getSession (sessionKey data.sessionId)) c =
          some (p.store.tick c, .ok (some value)) := by
        simp only [execUser, readReply, hfault, if_true, hget]
      refine ⟨_, _, Pool.step_eq_some.mpr ⟨t, _, k, _, _, ht, hcall, hexec, rfl⟩,
        getElem?_set_moved ht _, accepted_iff.mpr ⟨reading, value, ?_, hdecode⟩⟩
      show _ <:+ ⟨.getSession (sessionKey data.sessionId), .ok (some value)⟩ :: t.trace
      exact htrace ▸ List.suffix_refl _
    · exact absurd hdecode (hno _ _)

end

/-! ## Sample libraries -/

/-- A token that is its payload as JSON text. -/
def plainEncode (payload : Payload) : String :=
  Go.marshal (.array [.string payload.sub, .string payload.sid,
    .string (String.ofList (Nat.toDigits 10 payload.exp))])

def plainDecode (now : ℕ) (token : String) : Option Claims :=
  match Json.parse token.toList with
  | some (.array [.string sub, .string sid, .string exp]) =>
    if Nat.ofDigitChars 10 exp.toList 0 / 1000 < now / 1000 then none
    else some ⟨some sub, some sid⟩
  | _ => none

/-- Passwords that are stored as they are, and tokens that can be read by everyone. -/
def plainLibraries : Libraries where
  hash _ password := password
  verify plain hashed := plain = hashed
  encode := plainEncode
  decode := plainDecode
  expired exp now := exp / 1000 < now / 1000

lemma plainDecode_plainEncode (payload : Payload) (now : ℕ) :
    plainDecode now (plainEncode payload) =
      if payload.exp / 1000 < now / 1000 then none
      else some ⟨some payload.sub, some payload.sid⟩ := by
  unfold plainDecode plainEncode Go.marshal
  rw [String.toList_ofList, Json.parse_print Go.unescapes_escape]
  simp only [String.toList_ofList, Nat.ofDigitChars_ten_toDigits]

lemma decodes_plainLibraries : plainLibraries.Decodes := by
  intro payload now
  have hdecode := plainDecode_plainEncode payload now
  simp only [plainLibraries, decide_eq_true_eq]
  exact hdecode

def sampleUser : User where
  id := "u"
  email := "e"
  name := "n"
  hashedPassword := "pw"
  role := "user"
  createdAt := 0
  updatedAt := none
  isActive := true

/-- The next command of a thread, without delay or fault. -/
def proceed (i : ℕ) : UserEvent := .execute (i, ⟨0, 0, .none⟩)

def sampleToken : String := createToken plainLibraries "u" "s" 0

/-- A login, its logout, and another request with its token that has read its clock. -/
def afterLogout : List UserEvent :=
  [.arrive (.login ⟨"e", "pw"⟩ "s"), proceed 0, proceed 0, proceed 0, .arrive (.logout sampleToken),
    proceed 1, proceed 1, proceed 1, .arrive (.getMe sampleToken), proceed 2]

lemma isSome_afterLogout :
    (run (userStep plainLibraries) (UserPool.initial [sampleUser]) afterLogout).isSome = true := by
  decide +kernel

lemma assumed_afterLogout : StepsMeet (userStep plainLibraries) (Assumed plainLibraries)
    (UserPool.initial [sampleUser]) afterLogout := by
  decide +kernel

lemma reader_afterLogout :
    ((final _ _ _ isSome_afterLogout).threads[2]?.any fun t =>
      t.request.token? = some sampleToken && t.trace = [⟨.utcnow, 0⟩]) = true := by
  decide +kernel

lemma logout_afterLogout :
    ((final _ _ _ isSome_afterLogout).threads.any fun u =>
      u.request = .logout sampleToken && u.program.answer? = some ⟨204, .empty⟩) = true := by
  decide +kernel

/-! ## Runs -/

/-- **Which tokens are accepted.** In every interleaving of requests in which session ids do not
repeat and only tokens that the service has made decode, a validation that has read its clock
accepts its token with the next command exactly if Redis answers and the token stands; then no
other request is ever accepted with this token as another user or with another session, and no
logout with it has answered yet. -/
theorem token_acceptance_exact {lib : Libraries} (hdecodes : lib.Decodes) {users : List User}
    {es : List UserEvent} {p : UserPool}
    (hassumed : StepsMeet (userStep lib) (Assumed lib) (UserPool.initial users) es)
    (hrun : run (userStep lib) (UserPool.initial users) es = some p) {i : ℕ} {t : UserThread}
    {token : String} {reading : ℕ} (ht : p.threads[i]? = some t)
    (htoken : t.request.token? = some token) (htrace : t.trace = [⟨.utcnow, reading⟩])
    (c : Circumstances) (data : TokenData) :
    (Accepts lib p i c token data ↔
      c.fault = .none ∧ Stands lib p token data reading (p.store.now + c.elapsed)) ∧
    (Accepts lib p i c token data → ∀ u ∈ p.threads,
      (∀ data', u.request.token? = some token → Accepted lib token data' u.trace → data' = data) ∧
      (u.request = .logout token → u.program.answer? ≠ some ⟨204, .empty⟩)) := by
  have h : Linked lib p := run_invariant_of_stepsMeet
    (fun _ _ _ hlinked hassumed hstep => linked_step hlinked hassumed hstep)
    (linked_initial users) hassumed hrun
  have hiff := accepts_iff h hdecodes ht htoken htrace c data
  refine ⟨hiff, fun haccepts u hu => ?_⟩
  obtain ⟨-, j, v, user, issued, stored, -, hgranted, huser, -, -, -, hdel⟩ := hiff.mp haccepts
  have hsame : ∀ data', Accepted lib token data' u.trace → data' = data := by
    intro data' haccepted
    obtain ⟨now, session, -, hdecode⟩ := accepted_iff.mp haccepted
    rw [(hgranted.decode_eq hdecodes hdecode).2, huser]
  refine ⟨fun data' _ haccepted => hsame data' haccepted, fun hrequest hanswer => ?_⟩
  obtain ⟨data', haccepted, hdeleted⟩ := h.deleted_of_logout hu hrequest hanswer
  rw [hsame data' haccepted] at hdeleted
  exact hdel hdeleted

/-- The token of the sample is not accepted after its logout. -/
theorem token_acceptance_exact_logout :
    ¬ Accepts plainLibraries (final _ _ _ isSome_afterLogout) 2 ⟨0, 0, .none⟩ sampleToken
      ⟨"u", "s"⟩ := by
  intro haccepts
  obtain ⟨t, ht, hthread⟩ := (Option.any_eq_true _ _).mp reader_afterLogout
  obtain ⟨u, hu, hlogout⟩ := List.any_eq_true.mp logout_afterLogout
  simp only [Bool.and_eq_true, decide_eq_true_eq] at hthread hlogout
  have hexact := token_acceptance_exact decodes_plainLibraries assumed_afterLogout
    (run_final isSome_afterLogout) ht hthread.1 hthread.2 ⟨0, 0, .none⟩ ⟨"u", "s"⟩
  exact (hexact.2 haccepts u hu).2 hlogout.1 hlogout.2

end DevopsEcommerce.UserService
