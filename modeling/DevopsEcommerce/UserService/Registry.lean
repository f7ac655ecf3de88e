import Mathlib.Logic.Function.Basic
import DevopsEcommerce.UserService.Service

/-!
# The user service as a registry

What the service is for, without tables, hashes and Redis: members with a password each, of whom no
two share their id or their email, and sessions that are open up to some time. `Deals` says what a
request does there that is served at one moment, and how it may be answered.

A session opens the service to whoever presents its id in a token that decodes; the member that a
request is about is the one in the token. Of a name that is too long for its column the registry
keeps what the column stores, if it stores it, and so answers with that.
-/

open Postgres

namespace DevopsEcommerce.UserService

/-! ## Members -/

structure Member where
  id : String
  email : String
  name : String
  password : String
  role : String
  createdAt : ℕ
  updatedAt : Option ℕ
  active : Bool

namespace Member

/-- What is shown of a member. -/
def profile (m : Member) : UserResponse where
  id := m.id
  email := m.email
  name := m.name
  role := m.role
  isActive := m.active
  createdAt := m.createdAt
  updatedAt := m.updatedAt

def registering (body : UserRegisterRequest) (uuid : String) (clock : ℕ) : Member where
  id := uuid
  email := body.email
  name := body.name
  password := body.password
  role := "user"
  createdAt := clock
  updatedAt := none
  active := true

/-- With the email and the name of the body, those of them that it has. -/
def edited (m : Member) (body : UpdateProfileRequest) (clock : ℕ) : Member :=
  if body.email.getD m.email = m.email ∧ body.name.getD m.name = m.name then m
  else
    { m with
      email := body.email.getD m.email
      name := body.name.getD m.name
      updatedAt := some clock }

def withPassword (m : Member) (password : String) (clock : ℕ) : Member :=
  { m with password, updatedAt := some clock }

def deactivated (m : Member) (clock : ℕ) : Member :=
  if m.active then { m with active := false, updatedAt := some clock } else m

/-- Not the same id, and not the same email. -/
def Apart (m other : Member) : Prop := m.id ≠ other.id ∧ m.email ≠ other.email

instance : Std.Symm Apart := ⟨fun _ _ h => ⟨h.1.symm, h.2.symm⟩⟩

/-- The member with the name that is stored, if it can be stored. -/
def stored (m : Member) : Option Member :=
  if keeps 255 m.email then (varchar 255 m.name).map fun name => { m with name := name } else none

lemma stored_id {m m' : Member} (h : m.stored = some m') : m'.id = m.id := by
  unfold stored at h
  split at h
  · obtain ⟨name, -, rfl⟩ := Option.map_eq_some_iff.mp h
    rfl
  · cases h

@[simp] lemma edited_id (m : Member) (body : UpdateProfileRequest) (clock : ℕ) :
    (m.edited body clock).id = m.id := by
  unfold edited
  split <;> rfl

@[simp] lemma deactivated_id (m : Member) (clock : ℕ) : (m.deactivated clock).id = m.id := by
  unfold deactivated
  split <;> rfl

@[simp] lemma deactivated_email (m : Member) (clock : ℕ) :
    (m.deactivated clock).email = m.email := by
  unfold deactivated
  split <;> rfl

end Member

/-! ## The registry -/

/-- The members in the order in which they came, and the time up to which each session is open. -/
structure Registry where
  members : List Member
  distinct : members.Pairwise Member.Apart
  sessions : String → Option ℕ
  now : ℕ

namespace Registry

/-- Nobody has ever come. -/
def empty : Registry where
  members := []
  distinct := .nil
  sessions := fun _ => none
  now := 0

/-- No other member has the email of `m`. -/
def Free (r : Registry) (m : Member) : Prop :=
  ∀ other ∈ r.members, other.id ≠ m.id → other.email ≠ m.email

/-- Nobody has the id or the email of `m`. -/
def New (r : Registry) (m : Member) : Prop :=
  ∀ other ∈ r.members, other.Apart m

def enrol (r : Registry) (m : Member) (hnew : r.New m) : Registry :=
  { r with
    members := r.members ++ [m]
    distinct := by
      refine List.pairwise_append.mpr ⟨r.distinct, List.pairwise_singleton _ _, ?_⟩
      intro other hother last hlast
      rw [List.mem_singleton.mp hlast]
      exact hnew other hother }

/-- `m` in the place of the member with its id. -/
def replace (r : Registry) (m : Member) (hfree : r.Free m) : Registry :=
  { r with
    members := r.members.map fun other => if other.id = m.id then m else other
    distinct := by
      refine List.pairwise_map.mpr (r.distinct.imp_of_mem fun {a b} ha hb hboth => ?_)
      by_cases hfirst : a.id = m.id
      · -- then the other one stays
        have hsecond : b.id ≠ m.id := fun heq => hboth.1 (hfirst.trans heq.symm)
        rw [if_pos hfirst, if_neg hsecond]
        exact ⟨hsecond.symm, (hfree b hb hsecond).symm⟩
      · rw [if_neg hfirst]
        split
        · exact ⟨hfirst, hfree a ha hfirst⟩
        · exact hboth }

def openSession (r : Registry) (sessionId : String) : Registry :=
  { r with
    sessions := Function.update r.sessions sessionId (some (r.now + sessionTTLSeconds * 1000)) }

def closeSession (r : Registry) (sessionId : String) : Registry :=
  { r with sessions := Function.update r.sessions sessionId none }

def pass (r : Registry) (elapsed : ℕ) : Registry := { r with now := r.now + elapsed }

def isOpen (r : Registry) (sessionId : String) : Bool :=
  (r.sessions sessionId).any fun finish => r.now ≤ finish

/-- Whom a token stands for, when the clock reads `clock`. -/
def identify (r : Registry) (lib : Libraries) (clock : ℕ) (token : String) :
    Except Response TokenData :=
  match lib.decode clock token with
  | some ⟨some userId, some sessionId⟩ =>
    if r.isOpen sessionId then .ok ⟨userId, sessionId⟩
    else .error (httpException 401 "Session expired")
  | _ => .error (httpException 401 "Invalid token")

variable {r : Registry}

lemma free_of_mem {m m' : Member} (hm : m ∈ r.members) (hid : m'.id = m.id)
    (hemail : m'.email = m.email) : r.Free m' := by
  intro other hother hne
  rw [hid] at hne
  rw [hemail]
  exact (r.distinct.forall hother hm fun heq => hne (congrArg Member.id heq)).2

lemma eq_of_email {m m' : Member} (hm : m ∈ r.members) (hm' : m' ∈ r.members)
    (h : m.email = m'.email) : m = m' := by
  by_contra hne
  exact (r.distinct.forall hm hm' hne).2 h

lemma mem_replace {m m' : Member} (hm : m ∈ r.members) (hid : m'.id = m.id) (hfree : r.Free m') :
    m' ∈ (r.replace m' hfree).members :=
  List.mem_map.mpr ⟨m, hm, if_pos hid.symm⟩

end Registry

/-! ## Requests -/

/-- The member that a registration makes, if what is to be stored of it can be stored. -/
def UserRegisterRequest.member (body : UserRegisterRequest) (lib : Libraries)
    (uuid salt : String) (clock : ℕ) : Option Member :=
  if keeps 255 (lib.hash salt body.password) then (Member.registering body uuid clock).stored
  else none

/-- The request is a valid one about the user with this id. -/
inductive Registry.Concerns (r : Registry) (lib : Libraries) (clock : ℕ) :
    UserRequest → String → Prop
  | me {token : String} {data : TokenData} (h : r.identify lib clock token = .ok data) :
      r.Concerns lib clock (.getMe token) data.userId
  | profile {token : String} {data : TokenData} (body : UpdateProfileRequest)
      (h : r.identify lib clock token = .ok data) :
      r.Concerns lib clock (.updateProfile token (some body)) data.userId
  | password {token : String} {data : TokenData} (body : ChangePasswordRequest) (salt : String)
      (h : r.identify lib clock token = .ok data) :
      r.Concerns lib clock (.changePassword token (some body) salt) data.userId
  | user (userId : String) : r.Concerns lib clock (.getUser userId) userId
  | deactivation (userId : String) : r.Concerns lib clock (.deactivate userId) userId

/-- What a request may do in a registry, when the clock reads `clock`, and how it may then be
answered. -/
inductive Deals (lib : Libraries) (clock : ℕ) (r : Registry) :
    UserRequest → Registry → Response → Prop
  | unfitting {body : UserRegisterRequest} {uuid salt : String}
      (hstored : body.member lib uuid salt clock = none) :
      Deals lib clock r (.register body uuid salt) r serverError
  | emailTaken {body : UserRegisterRequest} {uuid salt : String} {m : Member}
      (hstored : body.member lib uuid salt clock = some m) (htaken : ¬ r.New m) :
      Deals lib clock r (.register body uuid salt) r
        (httpException 409 "Email already registered")
  | registered {body : UserRegisterRequest} {uuid salt : String} {m : Member}
      (hstored : body.member lib uuid salt clock = some m) (hnew : r.New m) :
      Deals lib clock r (.register body uuid salt) (r.enrol m hnew) ⟨201, .user m.profile⟩
  | wrongCredentials {body : LoginRequest} {sessionId : String}
      (hnone : ∀ m ∈ r.members, m.email = body.email → m.password ≠ body.password) :
      Deals lib clock r (.login body sessionId) r (httpException 401 "Invalid credentials")
  | inactive {body : LoginRequest} {sessionId : String} {m : Member} (hm : m ∈ r.members)
      (hemail : m.email = body.email) (hpassword : m.password = body.password)
      (hactive : m.active = false) :
      Deals lib clock r (.login body sessionId) r (httpException 403 "Account is deactivated")
  | loggedIn {body : LoginRequest} {sessionId : String} {m : Member} (hm : m ∈ r.members)
      (hemail : m.email = body.email) (hpassword : m.password = body.password)
      (hactive : m.active = true) :
      Deals lib clock r (.login body sessionId) (r.openSession sessionId)
        (tokenResponse (createToken lib m.id sessionId clock))
  | notIdentified {request : UserRequest} {token : String} {answer : Response}
      (htoken : request.token? = some token) (h : r.identify lib clock token = .error answer) :
      Deals lib clock r request r answer
  | loggedOut {token : String} {data : TokenData} (h : r.identify lib clock token = .ok data) :
      Deals lib clock r (.logout token) (r.closeSession data.sessionId) ⟨204, .empty⟩
  | invalidProfile {token : String} {data : TokenData}
      (h : r.identify lib clock token = .ok data) :
      Deals lib clock r (.updateProfile token none) r unprocessable
  | invalidPassword {token salt : String} {data : TokenData}
      (h : r.identify lib clock token = .ok data) :
      Deals lib clock r (.changePassword token none salt) r unprocessable
  | unknown {request : UserRequest} {id : String} (h : r.Concerns lib clock request id)
      (hnone : ∀ m ∈ r.members, m.id ≠ id) :
      Deals lib clock r request r (httpException 404 "User not found")
  | me {token : String} {m : Member} (hm : m ∈ r.members)
      (h : r.Concerns lib clock (.getMe token) m.id) :
      Deals lib clock r (.getMe token) r ⟨200, .user m.profile⟩
  | user {m : Member} (hm : m ∈ r.members) :
      Deals lib clock r (.getUser m.id) r ⟨200, .user m.profile⟩
  | unfittingProfile {token : String} {body : UpdateProfileRequest} {m : Member}
      (hm : m ∈ r.members) (h : r.Concerns lib clock (.updateProfile token (some body)) m.id)
      (hstored : (m.edited body clock).stored = none) :
      Deals lib clock r (.updateProfile token (some body)) r serverError
  | profileTaken {token : String} {body : UpdateProfileRequest} {m m' : Member}
      (hm : m ∈ r.members) (h : r.Concerns lib clock (.updateProfile token (some body)) m.id)
      (hstored : (m.edited body clock).stored = some m') (htaken : ¬ r.Free m') :
      Deals lib clock r (.updateProfile token (some body)) r
        (httpException 409 "Email already registered")
  | profileUpdated {token : String} {body : UpdateProfileRequest} {m m' : Member}
      (hm : m ∈ r.members) (h : r.Concerns lib clock (.updateProfile token (some body)) m.id)
      (hstored : (m.edited body clock).stored = some m') (hfree : r.Free m') :
      Deals lib clock r (.updateProfile token (some body)) (r.replace m' hfree)
        ⟨200, .user m'.profile⟩
  | wrongPassword {token salt : String} {body : ChangePasswordRequest} {m : Member}
      (hm : m ∈ r.members) (h : r.Concerns lib clock (.changePassword token (some body) salt) m.id)
      (hwrong : body.currentPassword ≠ m.password) :
      Deals lib clock r (.changePassword token (some body) salt) r
        (httpException 400 "Current password is incorrect")
  | unfittingPassword {token salt : String} {body : ChangePasswordRequest} {m : Member}
      (hm : m ∈ r.members) (h : r.Concerns lib clock (.changePassword token (some body) salt) m.id)
      (hright : body.currentPassword = m.password)
      (hfits : keeps 255 (lib.hash salt body.newPassword) = false) :
      Deals lib clock r (.changePassword token (some body) salt) r serverError
  /-- the new hash is the old one -/
  | passwordKept {token salt : String} {body : ChangePasswordRequest} {m : Member}
      (hm : m ∈ r.members) (h : r.Concerns lib clock (.changePassword token (some body) salt) m.id)
      (hright : body.currentPassword = m.password) (hsame : body.newPassword = m.password) :
      Deals lib clock r (.changePassword token (some body) salt) r ⟨204, .empty⟩
  | passwordChanged {token salt : String} {body : ChangePasswordRequest} {m : Member}
      (hm : m ∈ r.members) (h : r.Concerns lib clock (.changePassword token (some body) salt) m.id)
      (hright : body.currentPassword = m.password)
      (hfits : keeps 255 (lib.hash salt body.newPassword) = true) :
      Deals lib clock r (.changePassword token (some body) salt)
        (r.replace (m.withPassword body.newPassword clock) (Registry.free_of_mem hm rfl rfl))
        ⟨204, .empty⟩
  | deactivated {m : Member} (hm : m ∈ r.members) :
      Deals lib clock r (.deactivate m.id)
        (r.replace (m.deactivated clock)
          (Registry.free_of_mem hm (m.deactivated_id clock) (m.deactivated_email clock)))
        ⟨204, .empty⟩

end DevopsEcommerce.UserService
