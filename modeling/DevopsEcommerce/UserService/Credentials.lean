import Mathlib.Data.List.Forall2
import DevopsEcommerce.UserService.Deactivation

/-!
# Logins decide by the current credentials

Requests that are served one after the other keep a map from emails to credentials. An `Account`
is what the requests so far have made of one user, with the password in the clear;
`Represented` relates the rows of the table to the accounts, and `login_decides` says that a
login answers 200 exactly if the accounts allow it.
-/

open Interleaving Program

namespace DevopsEcommerce.UserService

/-- `_verify_password` accepts the password that has been hashed and no other. -/
def Libraries.Verifies (lib : Libraries) : Prop :=
  ∀ salt plain password, lib.verify plain (lib.hash salt password) = true ↔ plain = password

/-! ## Accounts -/

structure Account where
  id : String
  email : String
  password : String
  active : Bool
deriving DecidableEq

/-- A request, and how the environment treats the commands that serving it issues. -/
structure Turn where
  request : UserRequest
  circumstances : ℕ → UserCommand → Circumstances

/-- The user that the token of a request names: `_validate_token` reads the clock first. -/
def Turn.userId? (lib : Libraries) (turn : Turn) : Option String :=
  turn.request.token?.bind fun token =>
    (lib.decode (turn.circumstances 0 .utcnow).reading token).bind Claims.sub

/-- What a request that succeeds makes of an account. -/
def Turn.amend (lib : Libraries) (turn : Turn) (account : Account) : Account :=
  match turn.request with
  | .updateProfile _ (some body) =>
    if turn.userId? lib = some account.id then
      { account with email := body.email.getD account.email }
    else account
  | .changePassword _ (some body) _ =>
    if turn.userId? lib = some account.id then { account with password := body.newPassword }
    else account
  | .deactivate userId => if account.id = userId then { account with active := false } else account
  | _ => account

/-- The account that a registration opens. -/
def opened : UserRequest → List Account
  | .register body uuid _ => [⟨uuid, body.email, body.password, true⟩]
  | _ => []

/-- What a request that succeeds makes of the accounts. -/
def applied (lib : Libraries) (turn : Turn) (accounts : List Account) : List Account :=
  accounts.map (turn.amend lib) ++ opened turn.request

/-- What the answer to a request says about the accounts: after an internal error one does not
know whether the request has taken effect. -/
def Permits (lib : Libraries) (turn : Turn) (answer : Response)
    (accounts accounts' : List Account) : Prop :=
  (400 ≤ answer.status ∧ accounts' = accounts) ∨
    ((answer.status < 400 ∨ answer.status = 500) ∧ accounts' = applied lib turn accounts)

/-- What the requests served so far, latest first, can have made of no accounts. -/
inductive Accounts (lib : Libraries) : List (Turn × Response) → List Account → Prop
  | nil : Accounts lib [] []
  | cons {turn : Turn} {answer : Response} {log : List (Turn × Response)}
      {accounts accounts' : List Account} (h : Accounts lib log accounts)
      (hpermits : Permits lib turn answer accounts accounts') :
      Accounts lib ((turn, answer) :: log) accounts'

/-- Exactly one account has the email, the password is its own, and it is active. -/
def MayLogIn (accounts : List Account) (body : LoginRequest) : Prop :=
  ∃ account, accounts.filter (fun account => account.email = body.email) = [account] ∧
    account.password = body.password ∧ account.active = true

/-! ## Serving one request after the other -/

def Turn.serve (lib : Libraries) (store : UserStore) (turn : Turn) :
    Option (UserStore × Response) :=
  (UserService.serve lib turn.request).perform execUser 0 turn.circumstances 0 store

/-- The state between two requests, with the requests served so far, latest first. -/
structure Served where
  store : UserStore
  log : List (Turn × Response)

/-- An empty table. -/
def Served.initial : Served := ⟨(UserPool.initial []).store, []⟩

def turnStep (lib : Libraries) (s : Served) (turn : Turn) : Option Served :=
  (turn.serve lib s.store).map fun done => ⟨done.1, (turn, done.2) :: s.log⟩

/-! ## Rows and accounts -/

/-- The row is that of the account: its hash is one of the account's password. -/
structure Represents (lib : Libraries) (user : User) (account : Account) : Prop where
  id : user.id = account.id
  email : user.email = account.email
  active : user.isActive = account.active
  verify : ∀ plain, lib.verify plain user.hashedPassword = true ↔ plain = account.password

def Represented (lib : Libraries) (users : List User) (accounts : List Account) : Prop :=
  List.Forall₂ (Represents lib) users accounts

section
variable {lib : Libraries} {users users' : List User} {accounts : List Account}

/-- The row of a new user is that of the account that the registration opens. -/
lemma Represented.insert (h : Represented lib users accounts)
    (hverifies : lib.Verifies)
    {body : UserRegisterRequest} {uuid salt : String} {time : ℕ} {row : User}
    (hstored : (newUser uuid body.email body.name (lib.hash salt body.password) time).stored =
      some row) :
    Represented lib (users ++ [row])
      (accounts ++ [⟨uuid, body.email, body.password, true⟩]) := by
  obtain ⟨-, -, name, -, rfl⟩ := User.stored_eq_some hstored
  refine List.rel_append h (.cons ⟨rfl, rfl, rfl, fun plain => ?_⟩ .nil)
  exact hverifies salt plain body.password

lemma eq_of_filter_id {id : String} {user : User}
    (hselect : users.filter (fun user => user.id = id) = [user]) :
    ∀ other ∈ users, other.id = id → other = user := by
  intro other hmem hid
  have hsingle : other ∈ [user] := by
    rw [← hselect]
    exact List.mem_filter.mpr ⟨hmem, decide_eq_true hid⟩
  exact List.mem_singleton.mp hsingle

/-- The rows after an update are those of the accounts after `g`, if this is so for the row that
had been selected, and `g` leaves the other accounts. -/
lemma Represented.update {id : String} {changes : UserChanges} {time : ℕ} {user : User}
    {g : Account → Account} (h : Represented lib users accounts)
    (hselect : users.filter (fun user => user.id = id) = [user])
    (hupdate : updateUser users id changes time = .ok users')
    (hg : ∀ account, account.id = id → Represents lib user account →
      Represents lib (changes.apply time user) (g account))
    (hother : ∀ account, account.id ≠ id → g account = account) :
    Represented lib users' (accounts.map g) := by
  have hrow : ∀ (other : User) account, (other.id = id → other = user) →
      Represents lib other account → Represents lib
        (if other.id = id then changes.apply time other else other) (g account) := by
    intro other account hsame hrepresents
    by_cases hid : other.id = id
    · obtain rfl := hsame hid
      rw [if_pos hid]
      exact hg account (hrepresents.id.symm.trans hid) hrepresents
    · rw [if_neg hid, hother account (fun heq => hid (hrepresents.id.trans heq))]
      exact hrepresents
  have hrows := (List.forall₂_and_left _ _).mpr ⟨eq_of_filter_id hselect, h⟩
  rcases updateUser_eq_ok hupdate with ⟨rfl, rfl⟩ | ⟨stored, hstored, -, -, rfl⟩
  · -- no `UPDATE`: the row lacks only the new `updated_at`
    refine List.forall₂_map_right_iff.mpr (hrows.imp ?_)
    intro other account hboth
    have hrepresents := hrow other account hboth.1 hboth.2
    split at hrepresents
    · exact ⟨hrepresents.id, hrepresents.email, hrepresents.active, hrepresents.verify⟩
    · exact hrepresents
  · -- the name is the stored one
    obtain ⟨name, rfl⟩ := UserChanges.stored_eq_some hstored
    refine List.forall₂_map_left_iff.mpr (List.forall₂_map_right_iff.mpr (hrows.imp ?_))
    intro other account hboth
    have hrepresents := hrow other account hboth.1 hboth.2
    split at hrepresents <;> rename_i hid
    · rw [if_pos hid]
      exact ⟨hrepresents.id, hrepresents.email, hrepresents.active, hrepresents.verify⟩
    · rw [if_neg hid]
      exact hrepresents

/-! ## What a request makes of the rows -/

/-- How a request ends: it has left the rows and says so, or they are those of the accounts and
the answer does not deny it. -/
def Outcome (lib : Libraries) (users users' : List User) (answer : Response)
    (accounts' : List Account) : Prop :=
  (400 ≤ answer.status ∧ users' = users) ∨
    ((answer.status < 400 ∨ answer.status = 500) ∧ Represented lib users' accounts')

/-- What a route does after its commit leaves the rows, and its answer is an error if the commit
has failed, and no other than an internal one if the email was not taken. -/
def Reports (k : Except CommitError Unit → UserProgram) : Prop :=
  ∀ (r : Except CommitError Unit) (i n : ℕ) (choose : ℕ → UserCommand → Circumstances)
    (store store' : UserStore) (answer : Response),
    (k r).perform execUser i choose n store = some (store', answer) →
      store'.users = store.users ∧ (r ≠ .ok () → 400 ≤ answer.status) ∧
        (r ≠ .error .integrity → answer.status < 400 ∨ answer.status = 500)

lemma reports_afterCommit {id : String} {status : ℕ} (hstatus : status < 400) :
    Reports (afterCommit id status) := by
  intro r i n choose store store' answer h
  rcases r with (_ | _) | _
  · obtain ⟨rfl, rfl⟩ := perform_done h
    exact ⟨rfl, fun _ => by simp [httpException], fun hr => absurd rfl hr⟩
  · obtain ⟨rfl, rfl⟩ := perform_done h
    exact ⟨rfl, fun _ => by simp [serverError], fun _ => .inr rfl⟩
  · obtain ⟨store₁, found, hexec, hrest⟩ := perform_call h
    obtain ⟨rfl, -⟩ := Prod.mk.inj (Option.some.inj hexec)
    rcases found with _ | _ | user
    · obtain ⟨rfl, rfl⟩ := perform_done hrest
      exact ⟨rfl, fun hr => absurd rfl hr, fun _ => .inr rfl⟩
    · obtain ⟨rfl, rfl⟩ := perform_done hrest
      exact ⟨rfl, fun hr => absurd rfl hr, fun _ => .inr rfl⟩
    · obtain ⟨rfl, rfl⟩ := perform_done hrest
      exact ⟨rfl, fun hr => absurd rfl hr, fun _ => .inl hstatus⟩

lemma reports_commitThen (id : String) (changes : UserChanges) :
    ∃ k, commitThen id changes = .call (.commitUpdate id changes) k ∧ Reports k := by
  refine ⟨_, rfl, fun r i n choose store store' answer h => ?_⟩
  rcases r with _ | _
  · obtain ⟨rfl, rfl⟩ := perform_done h
    exact ⟨rfl, fun _ => by simp [serverError], fun _ => .inr rfl⟩
  · obtain ⟨rfl, rfl⟩ := perform_done h
    exact ⟨rfl, fun hr => absurd rfl hr, fun _ => .inl (by simp)⟩

/-- A route that ends with a commit. -/
lemma outcome_commit {i n : ℕ} {choose : ℕ → UserCommand → Circumstances}
    {store store₁ store' : UserStore} {answer : Response} {c : Circumstances}
    {result : Except CommitError (List User)} {r : Except CommitError Unit}
    {k : Except CommitError Unit → UserProgram} {accounts' : List Account}
    (hcommit : commit (store.tick c) c.fault result = (store₁, r)) (hk : Reports k)
    (h : (k r).perform execUser i choose n store₁ = some (store', answer))
    (hresult : ∀ users, result = .ok users → Represented lib users accounts') :
    Outcome lib store.users store'.users answer accounts' := by
  have hcases := commit_cases (store.tick c) c.fault result
  rw [hcommit] at hcases
  obtain ⟨hkept, hfails, hnot⟩ := hk _ _ _ _ _ _ _ h
  unfold Outcome
  rw [hkept]
  rcases hcases with ⟨hsame, herror⟩ | ⟨hnew, hfree⟩
  · exact .inl ⟨hfails herror, hsame⟩
  · exact .inr ⟨hnot hfree, hresult _ hnew⟩

/-- `_validate_token` answers 401 or 500, or the route goes on for the user in the token. -/
lemma perform_authenticated {token : String} {route : TokenData → UserProgram} {i n : ℕ}
    {choose : ℕ → UserCommand → Circumstances} {store store' : UserStore} {answer : Response}
    (h : (authenticated lib token route).perform execUser i choose n store =
      some (store', answer)) :
    (400 ≤ answer.status ∧ store'.users = store.users) ∨
      ∃ data store₁, (lib.decode (choose n .utcnow).reading token).bind Claims.sub =
          some data.userId ∧ store₁.users = store.users ∧
        (route data).perform execUser i choose (n + 2) store₁ = some (store', answer) := by
  obtain ⟨store₁, now, hclock, h⟩ := perform_call h
  obtain ⟨rfl, rfl⟩ := Prod.mk.inj (Option.some.inj hclock)
  rcases hdecode : lib.decode (choose n .utcnow).reading token with _ | ⟨sub, sid⟩
  · simp only [hdecode] at h
    obtain ⟨rfl, rfl⟩ := perform_done h
    exact .inl ⟨by simp [httpException], rfl⟩
  · rcases sub with _ | userId
    · simp only [hdecode] at h
      obtain ⟨rfl, rfl⟩ := perform_done h
      exact .inl ⟨by simp [httpException], rfl⟩
    · rcases sid with _ | sessionId
      · simp only [hdecode] at h
        obtain ⟨rfl, rfl⟩ := perform_done h
        exact .inl ⟨by simp [httpException], rfl⟩
      · simp only [hdecode] at h
        obtain ⟨store₂, found, hexec, h⟩ := perform_call h
        obtain ⟨rfl, -⟩ := Prod.mk.inj (Option.some.inj hexec)
        rcases found with _ | _ | session
        · obtain ⟨rfl, rfl⟩ := perform_done h
          exact .inl ⟨by simp [serverError], rfl⟩
        · obtain ⟨rfl, rfl⟩ := perform_done h
          exact .inl ⟨by simp [httpException], rfl⟩
        · exact .inr ⟨⟨userId, sessionId⟩, (store.tick _).tick _, rfl, rfl, h⟩

/-- A route that needs a user answers 404 or 500, or goes on with the only row of the id. -/
lemma perform_withUser {id : String} {rest : User → UserProgram} {i n : ℕ}
    {choose : ℕ → UserCommand → Circumstances} {store store' : UserStore} {answer : Response}
    (h : (withUser id rest).perform execUser i choose n store = some (store', answer)) :
    (400 ≤ answer.status ∧ store'.users = store.users) ∨
      ∃ user store₁, store.users.filter (fun user => user.id = id) = [user] ∧
        store₁.users = store.users ∧
        (rest user).perform execUser i choose (n + 1) store₁ = some (store', answer) := by
  obtain ⟨store₁, found, hexec, h⟩ := perform_call h
  obtain ⟨rfl, hreply⟩ := Prod.mk.inj (Option.some.inj hexec)
  rcases found with _ | _ | user
  · obtain ⟨rfl, rfl⟩ := perform_done h
    exact .inl ⟨by simp [serverError], rfl⟩
  · obtain ⟨rfl, rfl⟩ := perform_done h
    exact .inl ⟨by simp [httpException], rfl⟩
  · exact .inr ⟨user, store.tick _, scalarOneOrNone_eq (readReply_eq_ok hreply).2, rfl, h⟩

/-- A session is stored or deleted without regard to the rows. -/
lemma users_of_write {store store' : UserStore} {i : ℕ} {command : UserCommand}
    {c : Circumstances} {r : UserReply command}
    (hnone : ∀ id changes, command ≠ .commitUpdate id changes)
    (hnew : ∀ id email name hashedPassword, command ≠ .commitInsert id email name hashedPassword)
    (h : execUser store i command c = some (store', r)) : store'.users = store.users := by
  rcases execUser_writes h with hold | ⟨id, email, name, hashedPassword, hinsert, -⟩ |
    ⟨id, changes, hupdate, -⟩
  · exact hold
  · exact absurd hinsert (hnew id email name hashedPassword)
  · exact absurd hupdate (hnone id changes)

/-- A route that keeps the rows has the outcome that its answer stands for. -/
lemma outcome_kept {answer : Response} (hkept : users' = users)
    (h : Represented lib users accounts) : Outcome lib users users' answer accounts := by
  rcases Nat.lt_or_ge answer.status 400 with hstatus | hstatus
  · exact .inr ⟨.inl hstatus, hkept ▸ h⟩
  · exact .inl ⟨hstatus, hkept⟩

section
variable {i n : ℕ} {choose : ℕ → UserCommand → Circumstances} {store store' : UserStore}
  {answer : Response}

lemma users_of_login {body : LoginRequest} {sessionId : String}
    (h : (login lib body sessionId).perform execUser i choose n store = some (store', answer)) :
    store'.users = store.users := by
  obtain ⟨store₁, found, hselect, h⟩ := perform_call h
  have hfirst := users_of_write (by simp) (by simp) hselect
  rw [← hfirst]
  rcases found with _ | _ | user
  · exact congrArg UserStore.users (perform_done h).1
  · exact congrArg UserStore.users (perform_done h).1
  · simp only at h
    split at h
    · exact congrArg UserStore.users (perform_done h).1
    split at h
    · exact congrArg UserStore.users (perform_done h).1
    obtain ⟨store₂, stored, hset, h⟩ := perform_call h
    rw [← users_of_write (by simp) (by simp) hset]
    rcases stored with _ | _
    · exact congrArg UserStore.users (perform_done h).1
    · obtain ⟨store₃, now, hclock, h⟩ := perform_call h
      rw [← users_of_write (by simp) (by simp) hclock]
      exact congrArg UserStore.users (perform_done h).1

lemma users_of_logout {data : TokenData}
    (h : (logout data).perform execUser i choose n store = some (store', answer)) :
    store'.users = store.users := by
  obtain ⟨store₁, deleted, hdelete, h⟩ := perform_call h
  rw [← users_of_write (by simp) (by simp) hdelete]
  rcases deleted with _ | _
  · exact congrArg UserStore.users (perform_done h).1
  · exact congrArg UserStore.users (perform_done h).1

lemma users_of_getUser {userId : String}
    (h : (getUser userId).perform execUser i choose n store = some (store', answer)) :
    store'.users = store.users := by
  rcases perform_withUser h with ⟨-, hsame⟩ | ⟨user, store₁, -, hsame, h⟩
  · exact hsame
  · rw [← hsame]
    exact congrArg UserStore.users (perform_done h).1

lemma outcome_registerUser {body : UserRegisterRequest} {uuid salt : String}
    (hverifies : lib.Verifies)
    (hrows : Represented lib store.users accounts)
    (h : (registerUser lib body uuid salt).perform execUser i choose n store =
      some (store', answer)) :
    Outcome lib store.users store'.users answer
      (accounts ++ [⟨uuid, body.email, body.password, true⟩]) := by
  obtain ⟨store₁, r, hexec, h⟩ := perform_call h
  refine outcome_commit (Option.some.inj hexec) (reports_afterCommit (by simp)) h ?_
  intro users' hinsert
  obtain ⟨row, hstored, rfl, -⟩ := insertUser_eq_ok hinsert
  exact hrows.insert hverifies hstored

/-- A route that updates the user it has found. -/
lemma outcome_update {id : String} {user : User} {changes : UserChanges} {g : Account → Account}
    {k : Except CommitError Unit → UserProgram} (hk : Reports k)
    (hrows : Represented lib store.users accounts)
    (hselect : store.users.filter (fun user => user.id = id) = [user])
    (h : (Program.call (.commitUpdate id changes) k).perform execUser i choose n store =
      some (store', answer))
    (hg : ∀ time account, account.id = id → Represents lib user account →
      Represents lib (changes.apply time user) (g account))
    (hother : ∀ account, account.id ≠ id → g account = account) :
    Outcome lib store.users store'.users answer (accounts.map g) := by
  obtain ⟨store₁, r, hexec, h⟩ := perform_call h
  refine outcome_commit (Option.some.inj hexec) hk h fun users' hupdate => ?_
  exact hrows.update hselect hupdate (hg _) hother

/-- A changed column has its new value, whether or not it is written. -/
lemma getD_changed {α : Type} [DecidableEq α] (old : α) (new : Option α) :
    (changed old new).getD old = new.getD old := by
  cases new with
  | none => rfl
  | some value =>
    by_cases hsame : value = old
    · simp [changed, Option.filter, hsame]
    · simp [changed, Option.filter, hsame]

/-- `update_profile` changes the email of the account of the user. -/
lemma outcome_updateProfile {body : UpdateProfileRequest} {userId : String}
    {g : Account → Account} (hrows : Represented lib store.users accounts)
    (h : (updateProfile (some body) userId).perform execUser i choose n store =
      some (store', answer))
    (hg : ∀ account, account.id = userId →
      g account = { account with email := body.email.getD account.email })
    (hother : ∀ account, account.id ≠ userId → g account = account) :
    Outcome lib store.users store'.users answer (accounts.map g) := by
  rcases perform_withUser h with hfails | ⟨user, store₁, hselect, hsame, h⟩
  · exact .inl hfails
  rw [← hsame] at hrows hselect ⊢
  refine outcome_update (reports_afterCommit (by simp)) hrows hselect h ?_ hother
  intro time account hid hrow
  rw [hg account hid]
  refine ⟨hrow.id, ?_, hrow.active, hrow.verify⟩
  show (changed user.email body.email).getD user.email = body.email.getD account.email
  rw [getD_changed, hrow.email]

/-- `change_password` changes its password. -/
lemma outcome_changePassword {body : ChangePasswordRequest} {salt userId : String}
    {g : Account → Account}
    (hverifies : lib.Verifies)
    (hrows : Represented lib store.users accounts)
    (h : (changePassword lib (some body) salt userId).perform execUser i choose n store =
      some (store', answer))
    (hg : ∀ account, account.id = userId →
      g account = { account with password := body.newPassword })
    (hother : ∀ account, account.id ≠ userId → g account = account) :
    Outcome lib store.users store'.users answer (accounts.map g) := by
  rcases perform_withUser h with hfails | ⟨user, store₁, hselect, hsame, h⟩
  · exact .inl hfails
  rw [← hsame] at hrows hselect ⊢
  split at h
  · obtain ⟨rfl, rfl⟩ := perform_done h
    exact .inl ⟨by simp [httpException], rfl⟩
  obtain ⟨k, hk, hreports⟩ := reports_commitThen userId
    ⟨none, none, changed user.hashedPassword (some (lib.hash salt body.newPassword)), none⟩
  rw [hk] at h
  refine outcome_update hreports hrows hselect h ?_ hother
  intro time account hid hrow
  rw [hg account hid]
  refine ⟨hrow.id, hrow.email, hrow.active, fun plain => ?_⟩
  have hhash : (changed user.hashedPassword (some (lib.hash salt body.newPassword))).getD
      user.hashedPassword = lib.hash salt body.newPassword :=
    getD_changed user.hashedPassword (some (lib.hash salt body.newPassword))
  show lib.verify plain (Option.getD _ _) = true ↔ plain = body.newPassword
  rw [hhash]
  exact hverifies salt plain body.newPassword

/-- `deactivate_user` clears its flag. -/
lemma outcome_deactivateUser {userId : String} {g : Account → Account}
    (hrows : Represented lib store.users accounts)
    (h : (deactivateUser userId).perform execUser i choose n store = some (store', answer))
    (hg : ∀ account, account.id = userId → g account = { account with active := false })
    (hother : ∀ account, account.id ≠ userId → g account = account) :
    Outcome lib store.users store'.users answer (accounts.map g) := by
  rcases perform_withUser h with hfails | ⟨user, store₁, hselect, hsame, h⟩
  · exact .inl hfails
  rw [← hsame] at hrows hselect ⊢
  obtain ⟨k, hk, hreports⟩ := reports_commitThen userId
    ⟨none, none, none, changed user.isActive (some false)⟩
  rw [hk] at h
  refine outcome_update hreports hrows hselect h ?_ hother
  intro time account hid hrow
  rw [hg account hid]
  exact ⟨hrow.id, hrow.email, getD_changed user.isActive (some false), hrow.verify⟩

lemma applied_eq_map {turn : Turn} (hopened : opened turn.request = []) :
    applied lib turn accounts = accounts.map (turn.amend lib) := by
  unfold applied
  rw [hopened, List.append_nil]

lemma applied_of_keeps {turn : Turn} (hkeeps : ∀ account, turn.amend lib account = account)
    (hopened : opened turn.request = []) : applied lib turn accounts = accounts := by
  rw [applied_eq_map hopened]
  exact List.map_id'' hkeeps accounts

/-- **What a request makes of the rows**, whatever fails while it is served. -/
theorem outcome_serve {turn : Turn}
    (hverifies : lib.Verifies)
    (hrows : Represented lib store.users accounts)
    (h : turn.serve lib store = some (store', answer)) :
    Outcome lib store.users store'.users answer (applied lib turn accounts) := by
  obtain ⟨request, circumstances⟩ := turn
  unfold Turn.serve at h
  cases request with
  | register body uuid salt =>
    have hamend : Turn.amend lib ⟨.register body uuid salt, circumstances⟩ = id := rfl
    unfold applied
    rw [hamend, List.map_id]
    exact outcome_registerUser hverifies hrows h
  | login body sessionId =>
    rw [applied_of_keeps (fun _ => rfl) rfl]
    exact outcome_kept (users_of_login h) hrows
  | logout token =>
    rw [applied_of_keeps (fun _ => rfl) rfl]
    rcases perform_authenticated h with hfails | ⟨data, store₁, -, hsame, h⟩
    · exact .inl hfails
    · exact outcome_kept ((users_of_logout h).trans hsame) hrows
  | getMe token =>
    rw [applied_of_keeps (fun _ => rfl) rfl]
    rcases perform_authenticated h with hfails | ⟨data, store₁, -, hsame, h⟩
    · exact .inl hfails
    · exact outcome_kept ((users_of_getUser h).trans hsame) hrows
  | getUser userId =>
    rw [applied_of_keeps (fun _ => rfl) rfl]
    exact outcome_kept (users_of_getUser h) hrows
  | updateProfile token body =>
    rcases perform_authenticated h with hfails | ⟨data, store₁, huser, hsame, h⟩
    · exact .inl hfails
    rcases body with _ | body
    · obtain ⟨rfl, rfl⟩ := perform_done h
      exact .inl ⟨by simp [unprocessable], hsame⟩
    rw [← hsame] at hrows ⊢
    rw [applied_eq_map rfl]
    have huserId : Turn.userId? lib ⟨.updateProfile token (some body), circumstances⟩ =
        some data.userId := huser
    refine outcome_updateProfile hrows h ?_ ?_
    · intro account hid
      exact if_pos (huserId.trans (congrArg some hid.symm))
    · intro account hid
      exact if_neg fun heq => hid (Option.some.inj (huserId.symm.trans heq)).symm
  | changePassword token body salt =>
    rcases perform_authenticated h with hfails | ⟨data, store₁, huser, hsame, h⟩
    · exact .inl hfails
    rcases body with _ | body
    · obtain ⟨rfl, rfl⟩ := perform_done h
      exact .inl ⟨by simp [unprocessable], hsame⟩
    rw [← hsame] at hrows ⊢
    rw [applied_eq_map rfl]
    have huserId : Turn.userId? lib ⟨.changePassword token (some body) salt, circumstances⟩ =
        some data.userId := huser
    refine outcome_changePassword hverifies hrows h ?_ ?_
    · intro account hid
      exact if_pos (huserId.trans (congrArg some hid.symm))
    · intro account hid
      exact if_neg fun heq => hid (Option.some.inj (huserId.symm.trans heq)).symm
  | deactivate userId =>
    rw [applied_eq_map rfl]
    exact outcome_deactivateUser hrows h (fun _ hid => if_pos hid) (fun _ hid => if_neg hid)

end

end

/-! ## One row for each email -/

/-- No two rows share their id or their email. -/
def Distinct (users : List User) : Prop :=
  users.Pairwise fun user other => user.id ≠ other.id ∧ user.email ≠ other.email

lemma distinct_insertUser {users users' : List User} {user : User} (h : Distinct users)
    (hinsert : insertUser users user = .ok users') : Distinct users' := by
  obtain ⟨row, -, rfl, hother⟩ := insertUser_eq_ok hinsert
  refine List.pairwise_append.mpr ⟨h, List.pairwise_singleton _ _, fun other hmem last hlast => ?_⟩
  rw [List.mem_singleton.mp hlast]
  exact hother other hmem

lemma distinct_updateUser {users users' : List User} {id : String} {changes : UserChanges}
    {time : ℕ} (h : Distinct users) (hupdate : updateUser users id changes time = .ok users') :
    Distinct users' := by
  rcases updateUser_eq_ok hupdate with ⟨-, rfl⟩ | ⟨stored, -, -, hfree, rfl⟩
  · exact h
  have hemail : ∀ user other : User, other ∈ users → other.id ≠ id → user.email ≠ other.email →
      (stored.apply time user).email ≠ other.email := by
    intro user other hmem hid hne
    show stored.email.getD user.email ≠ other.email
    cases hnew : stored.email with
    | none => exact hne
    | some email => exact fun heq => hfree other hmem hid (by rw [hnew, ← heq]; rfl)
  refine List.pairwise_map.mpr (h.imp_of_mem fun {user other} huser hother hboth => ?_)
  obtain ⟨hid, hne⟩ := hboth
  by_cases hfirst : user.id = id
  · -- then the other row is not updated
    have hsecond : other.id ≠ id := fun heq => hid (hfirst.trans heq.symm)
    rw [if_pos hfirst, if_neg hsecond]
    exact ⟨hid, hemail user other hother hsecond hne⟩
  · rw [if_neg hfirst]
    split
    · exact ⟨hid, (hemail other user huser hfirst (Ne.symm hne)).symm⟩
    · exact ⟨hid, hne⟩

/-- The unique indexes hold whatever is executed. -/
lemma distinct_execUser {store store' : UserStore} {i : ℕ} {command : UserCommand}
    {c : Circumstances} {r : UserReply command} (h : Distinct store.users)
    (hexec : execUser store i command c = some (store', r)) : Distinct store'.users := by
  rcases execUser_writes hexec with hold | ⟨_, _, _, _, -, hinsert⟩ | ⟨_, _, -, hupdate⟩
  · rw [hold]
    exact h
  · exact distinct_insertUser h hinsert
  · exact distinct_updateUser h hupdate

/-- Nor do two accounts share their email. -/
lemma Represented.emails_nodup {lib : Libraries} {users : List User} {accounts : List Account}
    (hrows : Represented lib users accounts) (h : Distinct users) :
    (accounts.map Account.email).Nodup := by
  have hemails : List.Forall₂ Eq (users.map User.email) (accounts.map Account.email) :=
    List.forall₂_map_left_iff.mpr
      (List.forall₂_map_right_iff.mpr (hrows.imp fun user account hrow => hrow.email))
  rw [List.forall₂_eq_eq_eq] at hemails
  rw [← hemails]
  exact List.pairwise_map.mpr (h.imp fun hboth => hboth.2)

/-! ## Runs -/

/-- Between two requests, the rows are those of accounts that the answers so far permit. -/
structure Accounted (lib : Libraries) (s : Served) : Prop where
  represented : ∃ accounts, Accounts lib s.log accounts ∧ Represented lib s.store.users accounts
  distinct : Distinct s.store.users

section
variable {lib : Libraries}

lemma accounted_preserved (hverifies : lib.Verifies) :
    Preserved (turnStep lib) (Accounted lib) := by
  intro s turn s' h hstep
  obtain ⟨⟨store', answer⟩, hserve, rfl⟩ := Option.map_eq_some_iff.mp hstep
  obtain ⟨accounts, hlog, hrows⟩ := h.represented
  constructor
  · rcases outcome_serve hverifies hrows hserve with ⟨hfails, hsame⟩ | ⟨hdone, hnew⟩
    · exact ⟨accounts, .cons hlog (.inl ⟨hfails, rfl⟩), hsame ▸ hrows⟩
    · exact ⟨_, .cons hlog (.inr ⟨hdone, rfl⟩), hnew⟩
  · exact perform_preserves (P := fun store => Distinct store.users)
      (fun _ _ _ _ _ hdistinct hexec => distinct_execUser hdistinct hexec) hserve h.distinct

lemma isSome_execUser (store : UserStore) (command : UserCommand) (c : Circumstances) :
    (execUser store 0 command c).isSome = true := by
  cases command <;> rfl

variable (lib) in
/-- A login that nothing disturbs, whose user is found and passes the checks. -/
lemma serve_login_found {store : UserStore} {body : LoginRequest} (sessionId : String)
    {circumstances : ℕ → UserCommand → Circumstances} {user : User}
    (hfault : ∀ n c, (circumstances n c).fault = .none)
    (hselect : (store.users.filter fun user => user.email = body.email) = [user])
    (hverified : lib.verify body.password user.hashedPassword = true)
    (hactive : user.isActive = true) :
    ∃ store' answer, answer.status = 200 ∧
      Turn.serve lib store ⟨.login body sessionId, circumstances⟩ = some (store', answer) := by
  have hserve : Turn.serve lib store ⟨.login body sessionId, circumstances⟩ =
      (login lib body sessionId).perform execUser 0 circumstances 0 store := rfl
  rw [hserve]
  simp only [login, Program.perform, execUser, hselect, hfault, readReply, if_true,
    Option.bind_some, scalarOneOrNone, hverified, hactive, Bool.not_true, Bool.false_eq_true,
    if_false, createSession, writeReply, reduceCtorEq]
  exact ⟨_, _, rfl, rfl⟩

/-- A login that answers 200 has found and checked the only row with the email, whatever has
failed. -/
lemma verified_of_login {store store' : UserStore} {body : LoginRequest} {sessionId : String}
    {i n : ℕ} {circumstances : ℕ → UserCommand → Circumstances} {answer : Response}
    (h : (login lib body sessionId).perform execUser i circumstances n store =
      some (store', answer)) (hanswer : answer.status = 200) :
    ∃ user, (store.users.filter fun user => user.email = body.email) = [user] ∧
      lib.verify body.password user.hashedPassword = true ∧ user.isActive = true := by
  obtain ⟨store₁, found, hselect, h⟩ := perform_call h
  have hreply := (Prod.mk.inj (Option.some.inj hselect)).2
  rcases found with _ | _ | user
  · obtain ⟨-, rfl⟩ := perform_done h
    exact absurd hanswer (by simp [serverError])
  · obtain ⟨-, rfl⟩ := perform_done h
    exact absurd hanswer (by simp [httpException])
  · refine ⟨user, scalarOneOrNone_eq (readReply_eq_ok hreply).2, ?_⟩
    simp only at h
    split at h
    · obtain ⟨-, rfl⟩ := perform_done h
      exact absurd hanswer (by simp [httpException])
    · split at h
      · obtain ⟨-, rfl⟩ := perform_done h
        exact absurd hanswer (by simp [httpException])
      · rename_i hverified hactive
        exact ⟨by simpa using hverified, by simpa using hactive⟩

/-- What a login checks of the rows is what it should check of the accounts. -/
lemma mayLogIn_iff {users : List User} {accounts : List Account}
    (hrows : Represented lib users accounts) (body : LoginRequest) :
    MayLogIn accounts body ↔
      ∃ user, (users.filter fun user => user.email = body.email) = [user] ∧
        lib.verify body.password user.hashedPassword = true ∧ user.isActive = true := by
  have hfound : List.Forall₂ (Represents lib) (users.filter fun user => user.email = body.email)
      (accounts.filter fun account => account.email = body.email) := by
    refine List.rel_filter (fun user account hrow => ?_) hrows
    simp only [decide_eq_true_eq, hrow.email]
  constructor
  · rintro ⟨account, hone, hpassword, hactive⟩
    rw [hone] at hfound
    obtain ⟨user, rest, hrow, hrest, husers⟩ := List.forall₂_cons_right_iff.mp hfound
    obtain rfl := List.forall₂_nil_right_iff.mp hrest
    refine ⟨user, husers, (hrow.verify body.password).mpr hpassword.symm, ?_⟩
    rw [hrow.active]
    exact hactive
  · rintro ⟨user, hone, hverified, hactive⟩
    rw [hone] at hfound
    obtain ⟨account, rest, hrow, hrest, haccounts⟩ := List.forall₂_cons_left_iff.mp hfound
    obtain rfl := List.forall₂_nil_left_iff.mp hrest
    refine ⟨account, haccounts, ((hrow.verify body.password).mp hverified).symm, ?_⟩
    rw [← hrow.active]
    exact hactive

/-- A login decides by the accounts, unless something fails. -/
lemma serve_login_iff {store : UserStore} {accounts : List Account}
    (hrows : Represented lib store.users accounts) (body : LoginRequest) (sessionId : String)
    (circumstances : ℕ → UserCommand → Circumstances) :
    ∃ store' answer,
      Turn.serve lib store ⟨.login body sessionId, circumstances⟩ = some (store', answer) ∧
        (answer.status = 200 → MayLogIn accounts body) ∧
        ((∀ n c, (circumstances n c).fault = .none) → MayLogIn accounts body →
          answer.status = 200) := by
  have htotal : ∃ store' answer,
      Turn.serve lib store ⟨.login body sessionId, circumstances⟩ = some (store', answer) :=
    perform_total isSome_execUser (login lib body sessionId) 0 store
  obtain ⟨store', answer, hserve⟩ := htotal
  refine ⟨store', answer, hserve, fun hanswer => ?_, fun hfault hmay => ?_⟩
  · exact (mayLogIn_iff hrows body).mpr (verified_of_login hserve hanswer)
  · obtain ⟨user, hone, hverified, hactive⟩ := (mayLogIn_iff hrows body).mp hmay
    obtain ⟨store'', answer', hanswer, hserve'⟩ :=
      serve_login_found lib sessionId hfault hone hverified hactive
    obtain ⟨-, rfl⟩ := Prod.mk.inj (Option.some.inj (hserve.symm.trans hserve'))
    exact hanswer

end

/-- **Logins decide by the current credentials.** After any requests that were served one after
the other, a login answers 200 exactly if one account has the email, with this password, and is
active, where the accounts are what the requests that succeeded have made of none. A request that
is refused leaves all rows. -/
theorem login_decides {lib : Libraries}
    (hverifies : lib.Verifies)
    {turns : List Turn} {s : Served}
    (hrun : run (turnStep lib) Served.initial turns = some s) :
    (∃ accounts, Accounts lib s.log accounts ∧ (accounts.map Account.email).Nodup ∧
      List.Forall₂ (fun user account => user.id = account.id ∧ user.email = account.email ∧
        user.isActive = account.active) s.store.users accounts ∧
      ∀ body sessionId circumstances, ∃ store' answer,
        Turn.serve lib s.store ⟨.login body sessionId, circumstances⟩ = some (store', answer) ∧
          (answer.status = 200 → MayLogIn accounts body) ∧
          ((∀ n c, (circumstances n c).fault = .none) → MayLogIn accounts body →
            answer.status = 200)) ∧
    ∀ turn store' answer, Turn.serve lib s.store turn = some (store', answer) →
      400 ≤ answer.status → answer.status < 500 → store'.users = s.store.users := by
  have hinitial : Accounted lib Served.initial := ⟨⟨[], .nil, .nil⟩, .nil⟩
  obtain ⟨⟨accounts, hlog, hrows⟩, hdistinct⟩ :=
    run_invariant (accounted_preserved hverifies) hinitial hrun
  refine ⟨⟨accounts, hlog, hrows.emails_nodup hdistinct, ?_, serve_login_iff hrows⟩,
    fun turn store' answer h hlow hhigh => ?_⟩
  · exact hrows.imp fun user account hrow => ⟨hrow.id, hrow.email, hrow.active⟩
  · rcases outcome_serve hverifies hrows h with ⟨-, hsame⟩ | ⟨hstatus, -⟩
    · exact hsame
    · omega

/-- Nothing fails and no time passes. -/
def undisturbed (_ : ℕ) (_ : UserCommand) : Circumstances := ⟨0, 0, .none⟩

/-- A user registers, a second one with the same email is refused, and the first one logs in and
takes another email. -/
def sampleTurns : List Turn :=
  [⟨.register ⟨"e", "n", "pw"⟩ "u" "", undisturbed⟩,
    ⟨.register ⟨"e", "m", "pw2"⟩ "v" "", undisturbed⟩, ⟨.login ⟨"e", "pw"⟩ "s", undisturbed⟩,
    ⟨.updateProfile sampleToken (some ⟨none, some "f"⟩), undisturbed⟩]

lemma isSome_sampleTurns :
    (run (turnStep plainLibraries) Served.initial sampleTurns).isSome = true := by
  decide +kernel

/-- How a login after the sample is answered. -/
def loginStatus (body : LoginRequest) : Option ℕ :=
  (Turn.serve plainLibraries (final _ _ _ isSome_sampleTurns).store
    ⟨.login body "t", undisturbed⟩).map fun done => done.2.status

lemma loginStatus_new : loginStatus ⟨"f", "pw"⟩ = some 200 := by
  decide +kernel

lemma loginStatus_old : loginStatus ⟨"e", "pw"⟩ = some 401 := by
  decide +kernel

/-- After the sample the user logs in with the new email and not with the old one. -/
theorem login_decides_sample :
    ∃ accounts, Accounts plainLibraries (final _ _ _ isSome_sampleTurns).log accounts ∧
      MayLogIn accounts ⟨"f", "pw"⟩ ∧ ¬ MayLogIn accounts ⟨"e", "pw"⟩ := by
  have hverifies : plainLibraries.Verifies := fun salt plain password => decide_eq_true_iff
  obtain ⟨⟨accounts, hlog, -, -, hlogin⟩, -⟩ :=
    login_decides hverifies (run_final isSome_sampleTurns)
  refine ⟨accounts, hlog, ?_, fun hmay => ?_⟩
  · obtain ⟨store', answer, hserve, hmay, -⟩ := hlogin ⟨"f", "pw"⟩ "t" undisturbed
    have hstatus := loginStatus_new
    rw [loginStatus, hserve, Option.map_some, Option.some.injEq] at hstatus
    exact hmay hstatus
  · obtain ⟨store', answer, hserve, -, hanswer⟩ := hlogin ⟨"e", "pw"⟩ "t" undisturbed
    have hstatus := loginStatus_old
    rw [loginStatus, hserve, Option.map_some, Option.some.injEq,
      hanswer (fun _ _ => rfl) hmay] at hstatus
    exact absurd hstatus (by simp)

end DevopsEcommerce.UserService
