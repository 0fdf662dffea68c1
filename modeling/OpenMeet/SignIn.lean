import OpenMeet.AdminApi

/-!
Registering, logging in and refreshing. Each request runs on its own, between
statements of the admin panel that may change what a role may do. Logging in
and refreshing ask whether the user's role may sign in; registering gives the
default role and asks nothing. Password hashing, token signing and token hashing
are parameters; the random values a request draws come with the request.
-/
namespace OpenMeet.SignIn

open KeyedMap Text Messages Accounts Database AdminApi TransitionSystem

/-- What an access token says. -/
structure AccessClaims where
  sub : Uuid
  exp : Nat
  iat : Nat
  deriving DecidableEq, Repr

/-- The claims with their signed text. -/
structure AccessToken where
  claims : AccessClaims
  text : String
  deriving DecidableEq, Repr

structure Environment extends AdminApi.Environment where
  /-- The hash of a password under a salt, or the text of the error. -/
  hashPassword : String → String → Except String String
  /-- Whether a password has this hash; an error if the hash cannot be read. -/
  verifyPassword : String → String → Except String Bool
  encode : AccessClaims → Except String String
  hashRefreshToken : String → TokenHash
  databaseError : String
  accessTokenMinutes : Nat
  refreshTokenDays : Nat

structure RegisterRequest where
  email : String
  name : String
  nickname : String
  password : String
  deriving DecidableEq, Repr

structure LoginRequest where
  email : String
  password : String
  deriving DecidableEq, Repr

structure UserResponse where
  id : Uuid
  email : String
  name : String
  nickname : String
  role : RoleName
  deriving DecidableEq, Repr

structure AuthResponse where
  user : UserResponse
  accessToken : AccessToken
  refreshToken : String
  deriving DecidableEq, Repr

def userResponse (id : Uuid) (user : User) : UserResponse where
  id := id
  email := user.email
  name := user.name
  nickname := user.nickname
  role := user.role

def internal (text : String) : ApiError := ⟨500, text⟩
def invalidCredentials : ApiError := ⟨401, "Invalid credentials"⟩

/-- The role of a new user. -/
def defaultRole : RoleName := "user"

def normalizeNickname (env : Environment) (value : String) : Option String :=
  let nickname := env.lowercase (trim value)
  if 3 ≤ nickname.utf8ByteSize ∧ nickname.utf8ByteSize ≤ 50 ∧
      nickname.toList.all fun c => c.isLower || c.isDigit || c == '_' then some nickname
  else none

def createAccessToken (env : Environment) (now : Nat) (userId : Uuid) :
    Except ApiError AccessToken :=
  let claims : AccessClaims :=
    { sub := userId, exp := now + 60 * env.accessTokenMinutes, iat := now }
  match env.encode claims with
  | .ok text => .ok ⟨claims, text⟩
  | .error e => .error (internal e)

def refreshTokenExpiresAt (env : Environment) (now : Nat) : Nat :=
  now + 86400 * env.refreshTokenDays

/-- Create both tokens and store the refresh token. -/
def createTokens (env : Environment) (now : Nat) (db : Database) (userId : Uuid)
    (refreshToken : String) : Database × Except ApiError AccessToken :=
  match createAccessToken env now userId with
  | .error e => (db, .error e)
  | .ok token =>
    match db.insertRefreshToken (env.hashRefreshToken refreshToken)
        { userId := userId, expiresAt := refreshTokenExpiresAt env now } with
    | none => (db, .error (internal env.databaseError))
    | some after => (after, .ok token)

/-- What a VARCHAR column takes of a value: beyond its length it drops spaces, and nothing else. -/
def varchar (length : Nat) (value : String) : Option String :=
  if (value.toList.drop length).all (· = ' ') then some (String.ofList (value.toList.take length))
  else none

/-- The row as the columns of users take it; a nickname fits its column. -/
def storedUser (user : User) : Option User :=
  match varchar 255 user.email, varchar 255 user.name, varchar 255 user.passwordHash with
  | some email, some name, some passwordHash =>
    some { user with email := email, name := name, passwordHash := passwordHash }
  | _, _, _ => none

/-- The row register inserts. -/
def newUser (env : Environment) (salt : String) (req : RegisterRequest) : Except ApiError User :=
  match normalizeNickname env req.nickname with
  | none =>
    .error ⟨400, "Nickname must be 3 to 50 lowercase letters, numbers, or underscores"⟩
  | some nickname =>
    match env.hashPassword salt req.password with
    | .error e => .error (internal e)
    | .ok passwordHash =>
      let user : User :=
        { email := req.email, name := req.name, nickname := nickname
          passwordHash := passwordHash, role := defaultRole, avatarKey := none }
      match storedUser user with
      | some row => .ok row
      | none => .error (internal env.databaseError)

def register (env : Environment) (now : Nat) (db : Database) (id : Uuid)
    (salt refreshToken : String)
    (req : RegisterRequest) : Database × Except ApiError AuthResponse :=
  match newUser env salt req with
  | .error e => (db, .error e)
  | .ok user =>
    match db.insertUser id user with
    | none =>
      if defaultRole ∈ db.roles then (db, .error ⟨409, "Email or nickname already exists"⟩)
      else (db, .error (internal env.databaseError))
    | some inserted =>
      let created := createTokens env now inserted id refreshToken
      (created.1, created.2.map fun token => ⟨userResponse id user, token, refreshToken⟩)

def findByEmail (db : Database) (email : String) : Option (Uuid × User) :=
  (db.users.entries.find? fun row => row.2.email = email).map fun row => (row.1, row.2)

def login (env : Environment) (now : Nat) (db : Database) (refreshToken : String)
    (req : LoginRequest) : Database × Except ApiError AuthResponse :=
  match findByEmail db req.email with
  | none => (db, .error invalidCredentials)
  | some (id, user) =>
    match env.verifyPassword user.passwordHash req.password with
    | .error e => (db, .error (internal e))
    | .ok false => (db, .error invalidCredentials)
    | .ok true =>
      match requirePermission db id .appLogin with
      | .error e => (db, .error e)
      | .ok () =>
        let created := createTokens env now db id refreshToken
        (created.1, created.2.map fun token => ⟨userResponse id user, token, refreshToken⟩)

def refresh (env : Environment) (now : Nat) (db : Database) (refreshToken : String) :
    Database × Except ApiError AccessToken :=
  let hash := env.hashRefreshToken refreshToken
  match db.refreshTokens.lookup hash with
  | none => (db, .error ⟨401, "Invalid refresh token"⟩)
  | some token =>
    if token.expiresAt < now then
      (db.deleteRefreshToken hash, .error ⟨401, "Refresh token expired"⟩)
    -- a role that loses app.login ends every session at its next refresh
    else if db.hasPermission token.userId .appLogin then
      (db, createAccessToken env now token.userId)
    else (db.endSessions token.userId, .error ⟨401, "This account is suspended"⟩)

def logout (env : Environment) (db : Database) (refreshToken : String) : Database :=
  db.deleteRefreshToken (env.hashRefreshToken refreshToken)

/-- The database with the admin requests under way, and the clock. -/
structure Service where
  panel : Panel
  now : Nat

inductive Action
  | admin (action : AdminApi.Action)
  | tick (seconds : Nat)
  | register (id : Uuid) (salt refreshToken : String) (req : RegisterRequest)
  | login (refreshToken : String) (req : LoginRequest)
  | refresh (refreshToken : String)
  | logout (refreshToken : String)
  deriving DecidableEq, Repr

def Service.setDb (s : Service) (db : Database) : Service :=
  { s with panel := { s.panel with db := db } }

/-- The state after an action, and the access token it returned if it did. -/
def respond (env : Environment) (s : Service) : Action → Option (Service × Option AccessToken)
  | .admin action =>
    (AdminApi.step env.toEnvironment s.panel action).map fun panel =>
      ({ s with panel := panel }, none)
  | .tick seconds => some ({ s with now := s.now + seconds }, none)
  | .register id salt refreshToken req =>
    let after := SignIn.register env s.now s.panel.db id salt refreshToken req
    some (s.setDb after.1, after.2.toOption.map (·.accessToken))
  | .login refreshToken req =>
    let after := SignIn.login env s.now s.panel.db refreshToken req
    some (s.setDb after.1, after.2.toOption.map (·.accessToken))
  | .refresh refreshToken =>
    let after := SignIn.refresh env s.now s.panel.db refreshToken
    some (s.setDb after.1, after.2.toOption)
  | .logout refreshToken => some (s.setDb (SignIn.logout env s.panel.db refreshToken), none)

def step (env : Environment) (s : Service) (a : Action) : Option Service :=
  (respond env s a).map Prod.fst

def system (env : Environment) (db : Database) : System Service Action where
  init := ⟨Panel.initial db, 0⟩
  step := step env

/-- A token is returned only for a user whose role may sign in then. -/
def TokensAllowed (env : Environment) (s : Service) (a : Action) : Prop :=
  ∀ after ∈ respond env s a, ∀ token ∈ after.2,
    after.1.panel.db.hasPermission token.claims.sub .appLogin = true

instance (env : Environment) (s : Service) (a : Action) : Decidable (TokensAllowed env s a) :=
  inferInstanceAs (Decidable (∀ after ∈ respond env s a, ∀ token ∈ after.2, _))

/-- Nothing about a registration is refused. -/
structure Registrable (env : Environment) (now : Nat) (db : Database) (id : Uuid)
    (salt refreshToken : String) (req : RegisterRequest) : Prop where
  user : ∃ user, newUser env salt req = .ok user ∧ (db.insertUser id user).isSome
  access : ∃ token, createAccessToken env now id = .ok token
  refresh : env.hashRefreshToken refreshToken ∉ db.refreshTokens

/-- A registration that goes through finds that the default role may sign in. -/
def DefaultRoleSignsIn (env : Environment) (s : Service) : Action → Prop
  | .register id salt refreshToken req =>
    Registrable env s.now s.panel.db id salt refreshToken req →
      .appLogin ∈ s.panel.db.rolePermissionKeys defaultRole
  | _ => True

section Replies

variable {env : Environment} {now : Nat} {db : Database}

theorem sub_of_createAccessToken {userId : Uuid} {token : AccessToken}
    (h : createAccessToken env now userId = .ok token) : token.claims.sub = userId := by
  unfold createAccessToken at h
  dsimp only at h
  split at h <;> cases h
  rfl

section CreateTokens

variable {userId : Uuid} {refreshToken : String}

/-- Creating tokens writes refresh tokens only. -/
theorem createTokens_users : (createTokens env now db userId refreshToken).1.users = db.users ∧
    (createTokens env now db userId refreshToken).1.rolePermissions = db.rolePermissions := by
  unfold createTokens
  split
  · exact ⟨rfl, rfl⟩
  · split
    · exact ⟨rfl, rfl⟩
    · rename_i hafter
      unfold insertRefreshToken at hafter
      split at hafter <;> cases hafter
      exact ⟨rfl, rfl⟩

theorem createTokens_ok_iff {token : AccessToken} :
    (createTokens env now db userId refreshToken).2 = .ok token ↔
      createAccessToken env now userId = .ok token ∧
        env.hashRefreshToken refreshToken ∉ db.refreshTokens := by
  unfold createTokens
  cases createAccessToken env now userId with
  | error e => simp
  | ok access =>
    by_cases hhash : env.hashRefreshToken refreshToken ∈ db.refreshTokens
    · simp [insertRefreshToken, hhash]
    · simp [insertRefreshToken, hhash]

theorem createTokens_sub {token : AccessToken}
    (h : (createTokens env now db userId refreshToken).2 = .ok token) :
    token.claims.sub = userId :=
  sub_of_createAccessToken (createTokens_ok_iff.mp h).1

end CreateTokens

section Register

variable {id : Uuid} {salt refreshToken : String} {req : RegisterRequest}

/-- What a registration that goes through has done. -/
theorem register_ok {response : AuthResponse}
    (h : (register env now db id salt refreshToken req).2 = .ok response) :
    ∃ user inserted, newUser env salt req = .ok user ∧ db.insertUser id user = some inserted ∧
      (createTokens env now inserted id refreshToken).2 = .ok response.accessToken ∧
      (register env now db id salt refreshToken req).1 =
        (createTokens env now inserted id refreshToken).1 := by
  unfold register at h ⊢
  cases huser : newUser env salt req with
  | error e => simp [huser] at h
  | ok user =>
    simp only [huser] at h ⊢
    cases hinserted : db.insertUser id user with
    | none =>
      simp only [hinserted] at h
      split at h <;> cases h
    | some inserted =>
      simp only [hinserted] at h ⊢
      refine ⟨user, inserted, rfl, hinserted, ?_, rfl⟩
      cases hcreated : (createTokens env now inserted id refreshToken).2 with
      | error e => simp [hcreated, Except.map] at h
      | ok token =>
        rw [hcreated] at h
        cases h
        rfl

theorem register_ok_iff :
    (∃ response, (register env now db id salt refreshToken req).2 = .ok response) ↔
      Registrable env now db id salt refreshToken req := by
  constructor
  · rintro ⟨response, h⟩
    obtain ⟨user, inserted, huser, hinserted, hcreated, -⟩ := register_ok h
    obtain ⟨haccess, hfresh⟩ := createTokens_ok_iff.mp hcreated
    rw [(insertUser_eq_some hinserted).2.1] at hfresh
    exact ⟨⟨user, huser, by simp [hinserted]⟩, ⟨_, haccess⟩, hfresh⟩
  · rintro ⟨⟨user, huser, hsome⟩, ⟨token, haccess⟩, hfresh⟩
    obtain ⟨inserted, hinserted⟩ := Option.isSome_iff_exists.mp hsome
    rw [← (insertUser_eq_some hinserted).2.1] at hfresh
    have hcreated := createTokens_ok_iff.mpr ⟨haccess, hfresh⟩
    refine ⟨⟨userResponse id user, token, refreshToken⟩, ?_⟩
    simp [register, huser, hinserted, hcreated, Except.map]

theorem role_of_storedUser {user row : User} (h : storedUser user = some row) :
    row.role = user.role := by
  unfold storedUser at h
  split at h <;> cases h
  rfl

theorem role_of_newUser {user : User} (h : newUser env salt req = .ok user) :
    user.role = defaultRole := by
  unfold newUser at h
  split at h
  · cases h
  · split at h
    · cases h
    · dsimp only at h
      split at h
      · rename_i hstored
        cases h
        exact role_of_storedUser hstored
      · cases h

/-- The new user may sign in exactly if the default role may. -/
theorem register_hasPermission {response : AuthResponse}
    (h : (register env now db id salt refreshToken req).2 = .ok response) :
    (register env now db id salt refreshToken req).1.hasPermission
        response.accessToken.claims.sub .appLogin =
      decide (.appLogin ∈ db.rolePermissionKeys defaultRole) := by
  obtain ⟨user, inserted, huser, hinserted, hcreated, hafter⟩ := register_ok h
  obtain ⟨hrows, -, hassigned⟩ := insertUser_eq_some hinserted
  rw [createTokens_sub hcreated, hafter,
    hasPermission_congr createTokens_users.1 createTokens_users.2,
    hasPermission_of_roleOf hassigned, role_of_newUser huser]
  simp [rolePermissionKeys, hrows]

end Register

theorem login_ok {refreshToken : String} {req : LoginRequest} {response : AuthResponse}
    (h : (login env now db refreshToken req).2 = .ok response) :
    (login env now db refreshToken req).1.hasPermission
      response.accessToken.claims.sub .appLogin = true := by
  unfold login at h ⊢
  cases hfound : findByEmail db req.email with
  | none => simp [hfound] at h
  | some row =>
    obtain ⟨id, user⟩ := row
    simp only [hfound] at h ⊢
    split at h
    · cases h
    · cases h
    · rename_i hverified
      unfold requirePermission at h ⊢
      by_cases hallowed : db.hasPermission id .appLogin = true
      · simp only [hallowed, if_true] at h ⊢
        cases hcreated : (createTokens env now db id refreshToken).2 with
        | error e => simp [hcreated, Except.map] at h
        | ok token =>
          rw [hcreated] at h
          cases h
          simp only [createTokens_sub hcreated]
          rwa [hasPermission_congr createTokens_users.1 createTokens_users.2]
      · simp [hallowed] at h

theorem refresh_ok {refreshToken : String} {token : AccessToken}
    (h : (refresh env now db refreshToken).2 = .ok token) :
    (refresh env now db refreshToken).1.hasPermission token.claims.sub .appLogin = true := by
  unfold refresh at h ⊢
  dsimp only at h ⊢
  split at h
  · cases h
  · rename_i found hfound
    split at h
    · cases h
    · rename_i hfresh
      split at h
      · rename_i hallowed
        rw [sub_of_createAccessToken h]
        simp [hfresh, hallowed]
      · cases h

end Replies

theorem forall_token_iff {r : Except ApiError AuthResponse} {P : AccessToken → Prop} :
    (∀ token ∈ r.toOption.map (·.accessToken), P token) ↔
      ∀ response, r = .ok response → P response.accessToken := by
  cases r <;> simp [Except.toOption]

/-- Only a registration can return a token to a user who may not sign in. -/
theorem tokensAllowed_iff (env : Environment) (s : Service) (a : Action) :
    TokensAllowed env s a ↔ DefaultRoleSignsIn env s a := by
  cases a with
  | admin action =>
    refine ⟨fun _ => trivial, fun _ after hafter token htoken => ?_⟩
    obtain ⟨panel, -, rfl⟩ := Option.map_eq_some_iff.mp hafter
    cases htoken
  | tick seconds => simp [TokensAllowed, DefaultRoleSignsIn, respond]
  | register id salt refreshToken req =>
    simp only [TokensAllowed, respond, Option.mem_some_iff, forall_eq', forall_token_iff,
      DefaultRoleSignsIn, ← register_ok_iff]
    constructor
    · rintro hallowed ⟨response, hok⟩
      have hmay := (register_hasPermission hok).symm.trans (hallowed response hok)
      exact of_decide_eq_true hmay
    · intro hmay response hok
      exact (register_hasPermission hok).trans (decide_eq_true (hmay ⟨response, hok⟩))
  | login refreshToken req =>
    simp only [TokensAllowed, respond, Option.mem_some_iff, forall_eq', forall_token_iff,
      DefaultRoleSignsIn, iff_true]
    exact fun response hok => login_ok hok
  | refresh refreshToken =>
    simp only [TokensAllowed, respond, Option.mem_some_iff, forall_eq', DefaultRoleSignsIn,
      iff_true]
    intro token htoken
    cases hok : (SignIn.refresh env s.now s.panel.db refreshToken).2 with
    | error e => simp [hok, Except.toOption] at htoken
    | ok returned =>
      obtain rfl : returned = token := by simpa [hok, Except.toOption] using htoken
      exact refresh_ok hok
  | logout refreshToken => simp [TokensAllowed, DefaultRoleSignsIn, respond]

/-- Along every run each returned token belongs to a user who may sign in exactly if every
registration that goes through finds the default role allowed to. -/
theorem tokensAllowed_iff_defaultRole (env : Environment) (db : Database)
    (actions : List Action) :
    (system env db).Guarded (TokensAllowed env) (system env db).init actions ↔
      (system env db).Guarded (DefaultRoleSignsIn env) (system env db).init actions := by
  constructor
  · exact System.guarded_mono fun s a => (tokensAllowed_iff env s a).mp
  · exact System.guarded_mono fun s a => (tokensAllowed_iff env s a).mpr

/-- Hashing and signing that keep what they are given. -/
def plainEnvironment : Environment where
  lowercase := id
  hashPassword salt password := .ok (salt ++ password)
  verifyPassword hash password := .ok (hash.endsWith password)
  encode _ := .ok "token"
  hashRefreshToken := id
  databaseError := "database error"
  accessTokenMinutes := 15
  refreshTokenDays := 7

/-- An admin takes app.login from the default role, and someone registers. -/
def registerWhileClosed : List Action :=
  .admin (.start 0 1 (.updateRole "user" none (some ["meetings.create"]))) ::
    (List.replicate 6 (.admin (.advance 0)) ++
      [.register 2 "salt" "refresh" ⟨"b@x", "Bob", "bob", "secret"⟩])

theorem registerWhileClosed_token :
    ∃ db ∈ Database.migrated.insertUser 1 ⟨"a@x", "Ada", "ada", "", "admin", none⟩,
      ¬ (system plainEnvironment db).Guarded (TokensAllowed plainEnvironment)
        (system plainEnvironment db).init registerWhileClosed := by
  decide

end OpenMeet.SignIn
