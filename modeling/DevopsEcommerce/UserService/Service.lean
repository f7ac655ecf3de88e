import DevopsEcommerce.Interleaving.Arrivals
import DevopsEcommerce.Postgres.Varchar
import DevopsEcommerce.Redis.Expiring

/-!
# The user service over its database, its sessions and its clocks

The routes of `main.py` that know users by their password or by their token, as programs. A
token is a signed payload; it counts only together with a session in Redis, which the login has
stored under the session id in the payload.

`passlib` and `python-jose` are parameters (`Libraries`). Emails stand as `EmailStr` has
normalised them, and the `uuid.UUID` of a user stands as its text.
-/

open Interleaving Postgres

namespace DevopsEcommerce.UserService

/-! ## Data -/

structure User where
  id : String
  email : String
  name : String
  hashedPassword : String
  role : String
  createdAt : ℕ
  updatedAt : Option ℕ
  isActive : Bool
deriving DecidableEq

structure UserRegisterRequest where
  email : String
  name : String
  password : String
deriving DecidableEq

structure LoginRequest where
  email : String
  password : String
deriving DecidableEq

structure UpdateProfileRequest where
  name : Option String
  email : Option String
deriving DecidableEq

structure ChangePasswordRequest where
  currentPassword : String
  newPassword : String
deriving DecidableEq

structure UserResponse where
  id : String
  email : String
  name : String
  role : String
  isActive : Bool
  createdAt : ℕ
  updatedAt : Option ℕ
deriving DecidableEq

def User.toResponse (user : User) : UserResponse where
  id := user.id
  email := user.email
  name := user.name
  role := user.role
  isActive := user.isActive
  createdAt := user.createdAt
  updatedAt := user.updatedAt

inductive Body where
  | empty
  | detail (text : String)
  | user (user : UserResponse)
  | token (accessToken tokenType : String)
deriving DecidableEq

structure Response where
  status : ℕ
  body : Body
deriving DecidableEq

/-- What `HTTPException` becomes. -/
def httpException (status : ℕ) (detail : String) : Response := ⟨status, .detail detail⟩

/-- Any other exception. -/
def serverError : Response := ⟨500, .empty⟩

/-- What `_create_token` signs. -/
structure Payload where
  sub : String
  sid : String
  exp : ℕ
deriving DecidableEq

/-- What `payload.get` finds in a decoded token. -/
structure Claims where
  sub : Option String
  sid : Option String
deriving DecidableEq

/-- `passlib` with its salts, and `python-jose` with the secret of the service. Times are in
milliseconds. -/
structure Libraries where
  hash (salt password : String) : String
  verify (plain hashed : String) : Bool
  encode (payload : Payload) : String
  decode (now : ℕ) (token : String) : Option Claims
  /-- `python-jose` rejects `exp` at this time. -/
  expired (exp now : ℕ) : Bool

/-- `jwt.decode` accepts what `jwt.encode` has made, until it expires. -/
def Libraries.Decodes (lib : Libraries) : Prop :=
  ∀ payload now, lib.decode now (lib.encode payload) =
    if lib.expired payload.exp now then none else some ⟨some payload.sub, some payload.sid⟩

/-! ## Commands -/

/-- The value of a session, which is written and never looked at. -/
structure SessionData where
  userId : String
  email : String
deriving DecidableEq

/-- The columns that an `UPDATE` sets. -/
structure UserChanges where
  email : Option String
  name : Option String
  hashedPassword : Option String
  isActive : Option Bool
deriving DecidableEq

/-- The insert and the update are the flush of a `commit()` together with the commit. -/
inductive UserCommand where
  | selectByEmail (email : String)
  | selectById (id : String)
  | commitInsert (id email name hashedPassword : String)
  | commitUpdate (id : String) (changes : UserChanges)
  | setSession (key : String) (value : SessionData) (ex : ℕ)
  | getSession (key : String)
  | deleteSession (key : String)
  | utcnow
deriving DecidableEq

/-- The database or Redis does not answer, or with an error. -/
inductive CallError where
  | failed
deriving DecidableEq

/-- `integrity` is an `IntegrityError`. -/
inductive CommitError where
  | integrity
  | failed
deriving DecidableEq

abbrev UserReply : UserCommand → Type
  | .selectByEmail _ | .selectById _ => Except CallError (Option User)
  | .commitInsert _ _ _ _ | .commitUpdate _ _ => Except CommitError Unit
  | .setSession _ _ _ | .deleteSession _ => Except CallError Unit
  | .getSession _ => Except CallError (Option SessionData)
  | .utcnow => ℕ

instance : (c : UserCommand) → DecidableEq (UserReply c)
  | .selectByEmail _ | .selectById _ =>
    inferInstanceAs (DecidableEq (Except CallError (Option User)))
  | .commitInsert _ _ _ _ | .commitUpdate _ _ =>
    inferInstanceAs (DecidableEq (Except CommitError Unit))
  | .setSession _ _ _ | .deleteSession _ => inferInstanceAs (DecidableEq (Except CallError Unit))
  | .getSession _ => inferInstanceAs (DecidableEq (Except CallError (Option SessionData)))
  | .utcnow => inferInstanceAs (DecidableEq ℕ)

abbrev UserProgram := Program UserCommand UserReply Response

/-! ## Tokens -/

/-- `SESSION_TTL_SECONDS` -/
def sessionTTLSeconds : ℕ := 3600

/-- `timedelta(minutes=JWT_EXPIRATION_MINUTES)` -/
def jwtExpiration : ℕ := 60 * 60 * 1000

def sessionKey (sessionId : String) : String := "session:" ++ sessionId

/-- `_create_token` at the time `now`. -/
def createToken (lib : Libraries) (userId sessionId : String) (now : ℕ) : String :=
  lib.encode { sub := userId, sid := sessionId, exp := now + jwtExpiration }

structure TokenData where
  userId : String
  sessionId : String
deriving DecidableEq

/-- The lookup of the session of a token. -/
def sessionOf (data : TokenData) : Except CallError (Option SessionData) →
    Program UserCommand UserReply (Except Response TokenData)
  | .error _ => .done (.error serverError)
  | .ok none => .done (.error (httpException 401 "Session expired"))
  | .ok (some _) => .done (.ok data)

/-- `_validate_token` -/
def validateToken (lib : Libraries) (token : String) :
    Program UserCommand UserReply (Except Response TokenData) :=
  .call .utcnow fun now =>
    match lib.decode now token with
    | none => .done (.error (httpException 401 "Invalid token"))
    | some ⟨some userId, some sessionId⟩ =>
      .call (.getSession (sessionKey sessionId)) (sessionOf ⟨userId, sessionId⟩)
    | some _ => .done (.error (httpException 401 "Invalid token"))

/-- What follows the dependency on `_validate_token`. -/
def afterValidation (route : TokenData → UserProgram) : Except Response TokenData → UserProgram
  | .error response => .done response
  | .ok data => route data

/-- A route that depends on `_validate_token`. -/
def authenticated (lib : Libraries) (token : String) (route : TokenData → UserProgram) :
    UserProgram :=
  (validateToken lib token).bind (afterValidation route)

/-! ## Routes -/

/-- `scalar_one_or_none` after a `SELECT` by id, for the routes that answer 404 to none. -/
def withUser (id : String) (rest : User → UserProgram) : UserProgram :=
  .call (.selectById id) fun
    | .error _ => .done serverError
    | .ok none => .done (httpException 404 "User not found")
    | .ok (some user) => rest user

/-- `refresh` and the answer with the user. -/
def refreshThen (id : String) (status : ℕ) : UserProgram :=
  .call (.selectById id) fun
    | .ok (some user) => .done ⟨status, .user user.toResponse⟩
    | _ => .done serverError

/-- After a commit that may find the email taken. -/
def afterCommit (id : String) (status : ℕ) : Except CommitError Unit → UserProgram
  | .ok () => refreshThen id status
  | .error .integrity => .done (httpException 409 "Email already registered")
  | .error .failed => .done serverError

/-- `register_user`, with the UUID and the salt of the new user. -/
def registerUser (lib : Libraries) (body : UserRegisterRequest) (uuid salt : String) :
    UserProgram :=
  .call (.commitInsert uuid body.email body.name (lib.hash salt body.password))
    (afterCommit uuid 201)

def tokenResponse (token : String) : Response := ⟨200, .token token "bearer"⟩

/-- A login whose user has been found and checked: it stores its session and returns the
token. -/
def createSession (lib : Libraries) (user : User) (sessionId : String) : UserProgram :=
  .call (.setSession (sessionKey sessionId) ⟨user.id, user.email⟩ sessionTTLSeconds) fun
    | .error _ => .done serverError
    | .ok () => .call .utcnow fun now =>
        .done (tokenResponse (createToken lib user.id sessionId now))

/-- `login`, with the UUID of the session. -/
def login (lib : Libraries) (body : LoginRequest) (sessionId : String) : UserProgram :=
  .call (.selectByEmail body.email) fun
    | .error _ => .done serverError
    | .ok none => .done (httpException 401 "Invalid credentials")
    | .ok (some user) =>
      if !lib.verify body.password user.hashedPassword then
        .done (httpException 401 "Invalid credentials")
      else if !user.isActive then .done (httpException 403 "Account is deactivated")
      else createSession lib user sessionId

def logout (data : TokenData) : UserProgram :=
  .call (.deleteSession (sessionKey data.sessionId)) fun
    | .error _ => .done serverError
    | .ok () => .done ⟨204, .empty⟩

def getUser (userId : String) : UserProgram :=
  withUser userId fun user => .done ⟨200, .user user.toResponse⟩

/-- `get_me` -/
def getMe (userId : String) : UserProgram := getUser userId

/-- The body of a request that is not valid, after the dependencies of the route. -/
def unprocessable : Response := ⟨422, .empty⟩

/-- A column whose value is what it was is not written. -/
def changed {α : Type} [DecidableEq α] (old : α) (new : Option α) : Option α :=
  new.filter fun value => value ≠ old

def updateProfile (body : Option UpdateProfileRequest) (userId : String) : UserProgram :=
  match body with
  | none => .done unprocessable
  | some body =>
    withUser userId fun user =>
      .call (.commitUpdate userId
          ⟨changed user.email body.email, changed user.name body.name, none, none⟩)
        (afterCommit userId 200)

/-- The end of a route that answers nothing. -/
def commitThen (id : String) (changes : UserChanges) : UserProgram :=
  .call (.commitUpdate id changes) fun
    | .ok () => .done ⟨204, .empty⟩
    | .error _ => .done serverError

/-- `change_password`, with the salt of the new hash. -/
def changePassword (lib : Libraries) (body : Option ChangePasswordRequest) (salt userId : String) :
    UserProgram :=
  match body with
  | none => .done unprocessable
  | some body =>
    withUser userId fun user =>
      if !lib.verify body.currentPassword user.hashedPassword then
        .done (httpException 400 "Current password is incorrect")
      else
        commitThen userId
          ⟨none, none, changed user.hashedPassword (some (lib.hash salt body.newPassword)), none⟩

def deactivateUser (userId : String) : UserProgram :=
  withUser userId fun user =>
    commitThen userId ⟨none, none, none, changed user.isActive (some false)⟩

/-! ## Requests -/

/-- A request with a valid path, and with a valid body except where there is an `Option`; with
the UUIDs and salts that serving it is going to draw. -/
inductive UserRequest where
  | register (body : UserRegisterRequest) (uuid salt : String)
  | login (body : LoginRequest) (sessionId : String)
  | logout (token : String)
  | getMe (token : String)
  | updateProfile (token : String) (body : Option UpdateProfileRequest)
  | changePassword (token : String) (body : Option ChangePasswordRequest) (salt : String)
  | getUser (userId : String)
  | deactivate (userId : String)
deriving DecidableEq

/-- The bearer token of a request to a route that depends on `_validate_token`. -/
def UserRequest.token? : UserRequest → Option String
  | .logout token | .getMe token | .updateProfile token _ | .changePassword token _ _ => some token
  | .register _ _ _ | .login _ _ | .getUser _ | .deactivate _ => none

def serve (lib : Libraries) : UserRequest → UserProgram
  | .register body uuid salt => registerUser lib body uuid salt
  | .login body sessionId => login lib body sessionId
  | .logout token => authenticated lib token logout
  | .getMe token => authenticated lib token fun data => getMe data.userId
  | .updateProfile token body => authenticated lib token fun data => updateProfile body data.userId
  | .changePassword token body salt =>
    authenticated lib token fun data => changePassword lib body salt data.userId
  | .getUser userId => getUser userId
  | .deactivate userId => deactivateUser userId

/-! ## Database, Redis and clocks -/

/-- What a thread did to a session, and when. -/
inductive SessionEvent where
  | set (thread : ℕ) (key : String) (time : ℕ)
  | delete (thread : ℕ) (key : String)
deriving DecidableEq

/-- The table, the sessions, the clock of Redis, and what has happened to sessions, latest
first. -/
structure UserStore where
  users : List User
  sessions : Redis.Keys SessionData
  now : ℕ
  log : List SessionEvent

/-- The time that passes before a command, what the clock of the process reads at it, and how it
goes. -/
structure Circumstances where
  elapsed : ℕ
  reading : ℕ
  fault : Fault
deriving DecidableEq

/-- The row of a user, whose texts are `String(255)`. The email and the hash do not end with a
space, so that their columns store them as they are, if at all. -/
def User.stored (user : User) : Option User :=
  if keeps 255 user.email && keeps 255 user.hashedPassword then
    (varchar 255 user.name).map fun name => { user with name := name }
  else none

/-- The values that an `UPDATE` sets, as the columns store them. -/
def UserChanges.stored (changes : UserChanges) : Option UserChanges :=
  if changes.email.all (keeps 255) && changes.hashedPassword.all (keeps 255) then
    (changes.name.mapM (varchar 255)).map fun name => { changes with name := name }
  else none

/-- `scalar_one_or_none`, which raises if there are more. -/
def scalarOneOrNone : List User → Except CallError (Option User)
  | [] => .ok none
  | [user] => .ok (some user)
  | _ => .error .failed

/-- The row of a new user, or why there is none. -/
def insertUser (users : List User) (user : User) : Except CommitError (List User) :=
  match user.stored with
  | none => .error .failed
  | some row =>
    if users.any fun other => other.id = row.id || other.email = row.email then
      .error .integrity
    else .ok (users ++ [row])

/-- `default` values of the columns. -/
def newUser (id email name hashedPassword : String) (time : ℕ) : User where
  id := id
  email := email
  name := name
  hashedPassword := hashedPassword
  role := "user"
  createdAt := time
  updatedAt := none
  isActive := true

def UserChanges.apply (changes : UserChanges) (time : ℕ) (user : User) : User :=
  { user with
    email := changes.email.getD user.email
    name := changes.name.getD user.name
    hashedPassword := changes.hashedPassword.getD user.hashedPassword
    isActive := changes.isActive.getD user.isActive
    updatedAt := some time }

/-- Without changes there is no `UPDATE`. An `UPDATE` that finds no row is an error. -/
def updateUser (users : List User) (id : String) (changes : UserChanges) (time : ℕ) :
    Except CommitError (List User) :=
  if changes = ⟨none, none, none, none⟩ then .ok users
  else
    match users.find? fun user => user.id = id, changes.stored with
    | some _, some stored =>
      if users.any fun other => other.id ≠ id && some other.email = stored.email then
        .error .integrity
      else .ok (users.map fun user => if user.id = id then stored.apply time user else user)
    | _, _ => .error .failed

/-- A commit under a fault: it fails and leaves the rows, or it succeeds, perhaps unheard. -/
def commit (store : UserStore) (fault : Fault) (result : Except CommitError (List User)) :
    UserStore × Except CommitError Unit :=
  if fault = .before then (store, .error .failed)
  else
    match result with
    | .error e => (store, if fault = .none then .error e else .error .failed)
    | .ok users => ({ store with users := users }, if fault = .none then .ok () else .error .failed)

def UserStore.tick (store : UserStore) (c : Circumstances) : UserStore :=
  { store with now := store.now + c.elapsed }

def UserStore.set (store : UserStore) (i : ℕ) (key : String) (value : SessionData) (ex : ℕ) :
    UserStore :=
  { store with
    sessions := store.sessions.set store.now key value (ex * 1000)
    log := .set i key store.now :: store.log }

def UserStore.delete (store : UserStore) (i : ℕ) (key : String) : UserStore :=
  { store with
    sessions := store.sessions.del key
    log := .delete i key :: store.log }

/-- A read has no effect, so a fault is all the same whether before or after. -/
def readReply {α : Type} (fault : Fault) (reply : Except CallError α) : Except CallError α :=
  if fault = .none then reply else .error .failed

def writeReply (fault : Fault) : Except CallError Unit :=
  if fault = .none then .ok () else .error .failed

/-- One command of thread `i`. -/
def execUser (store : UserStore) (i : ℕ) :
    (command : UserCommand) → Circumstances → Option (UserStore × UserReply command)
  | .selectByEmail email, c =>
    some (store.tick c,
      readReply c.fault (scalarOneOrNone (store.users.filter fun user => user.email = email)))
  | .selectById id, c =>
    some (store.tick c,
      readReply c.fault (scalarOneOrNone (store.users.filter fun user => user.id = id)))
  | .commitInsert id email name hashedPassword, c =>
    some (commit (store.tick c) c.fault
      (insertUser store.users (newUser id email name hashedPassword c.reading)))
  | .commitUpdate id changes, c =>
    some (commit (store.tick c) c.fault (updateUser store.users id changes c.reading))
  | .setSession key value ex, c =>
    some (if c.fault = .before then store.tick c else (store.tick c).set i key value ex,
      writeReply c.fault)
  | .getSession key, c =>
    some (store.tick c,
      readReply c.fault (.ok (store.sessions.get (store.now + c.elapsed) key)))
  | .deleteSession key, c =>
    some (if c.fault = .before then store.tick c else (store.tick c).delete i key,
      writeReply c.fault)
  | .utcnow, c => some (store.tick c, c.reading)

abbrev UserThread := Thread UserRequest UserCommand UserReply Response
abbrev UserPool := Pool UserStore UserRequest UserCommand UserReply Response
abbrev UserEvent := Event UserRequest Circumstances

abbrev userStep (lib : Libraries) : UserPool → UserEvent → Option UserPool :=
  Pool.openStep (serve lib) execUser

/-- Before the first request, with some rows in the table. -/
def UserPool.initial (users : List User) : UserPool where
  store := { users := users, sessions := ∅, now := 0, log := [] }
  threads := []

end DevopsEcommerce.UserService
