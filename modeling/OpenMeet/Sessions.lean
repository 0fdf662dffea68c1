import OpenMeet.SignIn
import OpenMeet.PastTime

/-!
Signing in, refreshing and logging out, statement by statement, between those of
the admin panel. Between two statements of a request others may read and write,
and the clock goes on. What happens is put out as events, and every access token
a refresh returns can be traced in them: its refresh token was stored by a
registration or a login of the same user, and from then until the refresh found
it nobody logged it out or ended the sessions of the user.
-/
namespace OpenMeet.Sessions

open KeyedMap Messages Accounts Database SignIn TransitionSystem PastTime
open AdminApi (Panel internalError)

inductive Request
  | register (id : Uuid) (salt refreshToken : String) (req : RegisterRequest)
  | login (refreshToken : String) (req : LoginRequest)
  | refresh (refreshToken : String)
  | logout (refreshToken : String)
  deriving DecidableEq, Repr

inductive Reply
  | auth (response : AuthResponse)
  | token (accessToken : AccessToken)
  | noContent
  deriving DecidableEq, Repr

/-- Where a request is: the statement or the look at the clock it comes to next, with what it
has read before. -/
inductive Stage
  | inserting (id : Uuid) (user : User) (refreshToken : String)
  | findingUser (refreshToken : String) (req : LoginRequest)
  | checkingLogin (id : Uuid) (user : User) (refreshToken : String)
  | signing (id : Uuid) (user : User) (refreshToken : String)
  | dating (token : AccessToken) (id : Uuid) (user : User) (refreshToken : String)
  | storing (token : AccessToken) (id : Uuid) (user : User) (refreshToken : String)
      (expiresAt : Nat)
  | findingToken (refreshToken : String)
  | comparing (hash : TokenHash) (row : Nat) (found : RefreshToken)
  | deletingExpired (hash : TokenHash) (row : Nat)
  | checkingRefresh (id : Uuid)
  | endingSessions (id : Uuid)
  | renewing (id : Uuid)
  | deletingToken (refreshToken : String)
  | done (result : Except ApiError Reply)
  deriving DecidableEq

def invalidRefreshToken : ApiError := ⟨401, "Invalid refresh token"⟩
def refreshTokenExpired : ApiError := ⟨401, "Refresh token expired"⟩
def accountSuspended : ApiError := ⟨401, "This account is suspended"⟩

def refuse (error : ApiError) : Stage := .done (.error error)

/-- What a request does before its first statement. -/
def begin (env : Environment) : Request → Stage
  | .register id salt refreshToken req =>
    match newUser env salt req with
    -- also where a value is too long for its column, since no row is looked at then
    | .error e => refuse e
    | .ok user => .inserting id user refreshToken
  | .login refreshToken req => .findingUser refreshToken req
  | .refresh refreshToken => .findingToken refreshToken
  | .logout refreshToken => .deletingToken refreshToken

/-- What a statement that fails answers. -/
def failure (env : Environment) : Stage → Option ApiError
  | .findingUser _ _ => some invalidCredentials
  | .findingToken _ => some invalidRefreshToken
  -- a refresh that is refused says so whether or not the delete went through
  | .deletingExpired _ _ => some refreshTokenExpired
  | .endingSessions _ => some accountSuspended
  | .checkingLogin _ _ _ => some internalError
  | .inserting _ _ _ | .storing _ _ _ _ _ | .checkingRefresh _ | .deletingToken _ =>
    some (internal env.databaseError)
  | .signing _ _ _ | .dating _ _ _ _ | .comparing _ _ _ | .renewing _ | .done _ => none

/-- The database with the requests under way and the clock. The rows of refresh_tokens have
ids of their own. -/
structure Service where
  panel : Panel
  now : Nat
  rowIds : TokenHash → Nat
  nextRow : Nat
  requests : Nat → Option Stage

namespace Service

def initial (db : Database) : Service where
  panel := Panel.initial db
  now := 0
  rowIds := fun _ => 0
  nextRow := 1
  requests := fun _ => none

def db (s : Service) : Database := s.panel.db

def setDb (s : Service) (db : Database) : Service :=
  { s with panel := { s.panel with db := db } }

def setRequest (s : Service) (i : Nat) (stage : Stage) : Service :=
  { s with requests := Function.update s.requests i (some stage) }

/-- A new row of refresh_tokens gets the next id. -/
def addRow (s : Service) (hash : TokenHash) (db : Database) : Service :=
  { s.setDb db with
    rowIds := Function.update s.rowIds hash s.nextRow
    nextRow := s.nextRow + 1 }

end Service

inductive Event
  | begun (i : Nat) (request : Request)
  | registered (i : Nat) (id : Uuid)
  | verified (i : Nat) (id : Uuid)
  | allowed (i : Nat) (id : Uuid)
  | signedIn (i : Nat) (hash : TokenHash) (row : RefreshToken) (token : AccessToken)
  | found (i : Nat) (hash : TokenHash) (row : RefreshToken)
  | current (i : Nat) (now : Nat)
  | renewed (i : Nat) (token : AccessToken)
  | deleted (hash : TokenHash)
  | sessionsEnded (id : Uuid)
  deriving DecidableEq, Repr

/-- Run what a request comes to next. -/
def advance (env : Environment) (s : Service) (i : Nat) :
    Stage → Option (Service × Stage × Option Event)
  | .inserting id user refreshToken =>
    match s.db.insertUser id user with
    | none =>
      if defaultRole ∈ s.db.roles then
        some (s, refuse ⟨409, "Email or nickname already exists"⟩, none)
      else some (s, refuse (internal env.databaseError), none)
    | some inserted =>
      some (s.setDb inserted, .signing id user refreshToken, some (.registered i id))
  | .findingUser refreshToken req =>
    match findByEmail s.db req.email with
    | none => some (s, refuse invalidCredentials, none)
    | some (id, user) =>
      match env.verifyPassword user.passwordHash req.password with
      | .error e => some (s, refuse (internal e), none)
      | .ok false => some (s, refuse invalidCredentials, none)
      | .ok true => some (s, .checkingLogin id user refreshToken, some (.verified i id))
  | .checkingLogin id user refreshToken =>
    match s.db.requirePermission id .appLogin with
    | .error e => some (s, refuse e, none)
    | .ok () => some (s, .signing id user refreshToken, some (.allowed i id))
  | .signing id user refreshToken =>
    match createAccessToken env s.now id with
    | .error e => some (s, refuse e, none)
    | .ok token => some (s, .dating token id user refreshToken, none)
  | .dating token id user refreshToken =>
    some (s, .storing token id user refreshToken (refreshTokenExpiresAt env s.now), none)
  | .storing token id user refreshToken expiresAt =>
    let hash := env.hashRefreshToken refreshToken
    let row : RefreshToken := { userId := id, expiresAt := expiresAt }
    match s.db.insertRefreshToken hash row with
    | none => some (s, refuse (internal env.databaseError), none)
    | some stored =>
      some (s.addRow hash stored,
        .done (.ok (.auth ⟨userResponse id user, token, refreshToken⟩)),
        some (.signedIn i hash row token))
  | .findingToken refreshToken =>
    let hash := env.hashRefreshToken refreshToken
    match s.db.refreshTokens.lookup hash with
    | none => some (s, refuse invalidRefreshToken, none)
    | some found => some (s, .comparing hash (s.rowIds hash) found, some (.found i hash found))
  | .comparing hash row found =>
    if found.expiresAt < s.now then some (s, .deletingExpired hash row, none)
    else some (s, .checkingRefresh found.userId, some (.current i s.now))
  | .deletingExpired hash row =>
    -- the row that was found, not one stored under the same hash since
    if s.rowIds hash = row then
      some (s.setDb (s.db.deleteRefreshToken hash), refuse refreshTokenExpired,
        some (.deleted hash))
    else some (s, refuse refreshTokenExpired, none)
  | .checkingRefresh id =>
    if s.db.hasPermission id .appLogin then some (s, .renewing id, some (.allowed i id))
    else some (s, .endingSessions id, none)
  | .endingSessions id =>
    some (s.setDb (s.db.endSessions id), refuse accountSuspended, some (.sessionsEnded id))
  | .renewing id =>
    match createAccessToken env s.now id with
    | .error e => some (s, refuse e, none)
    | .ok token => some (s, .done (.ok (.token token)), some (.renewed i token))
  | .deletingToken refreshToken =>
    let hash := env.hashRefreshToken refreshToken
    some (s.setDb (s.db.deleteRefreshToken hash), .done (.ok .noContent), some (.deleted hash))
  | .done _ => none

inductive Action
  | admin (action : AdminApi.Action)
  | tick (seconds : Nat)
  | start (i : Nat) (request : Request)
  | advance (i : Nat)
  | fail (i : Nat)
  deriving DecidableEq, Repr

/-- The statement of the panel that ends the sessions of a user. -/
def adminEvent (panel : Panel) : AdminApi.Action → Option Event
  | .advance j =>
    match panel.requests j with
    | some (.endingSessions id) => some (.sessionsEnded id)
    | _ => none
  | _ => none

/-- The state after an action, and what happened. -/
def respond (env : Environment) (s : Service) : Action → Option (Service × Option Event)
  | .admin action =>
    (AdminApi.step env.toEnvironment s.panel action).map fun panel =>
      ({ s with panel := panel }, adminEvent s.panel action)
  | .tick seconds => some ({ s with now := s.now + seconds }, none)
  | .start i request =>
    match s.requests i with
    | none => some (s.setRequest i (begin env request), some (.begun i request))
    | some _ => none
  | .advance i =>
    match s.requests i with
    | some stage =>
      (advance env s i stage).map fun after => (after.1.setRequest i after.2.1, after.2.2)
    | none => none
  | .fail i =>
    match s.requests i with
    | some stage =>
      (failure env stage).map fun error => (s.setRequest i (refuse error), none)
    | none => none

def step (env : Environment) (s : Service) (a : Action) : Option Service :=
  (respond env s a).map Prod.fst

def event (env : Environment) (s : Service) (a : Action) : Option Event :=
  (respond env s a).bind Prod.snd

def system (env : Environment) (db : Database) : System Service Action where
  init := Service.initial db
  step := step env

/-- What a run puts out. -/
def events (env : Environment) (db : Database) (s : Service) (actions : List Action) :
    List Event :=
  (system env db).outputs (fun s a => (event env s a).toList) s actions

/-! ## What a statement can do -/

inductive Advance (env : Environment) (s : Service) (i : Nat) :
    Stage → Service → Stage → Option Event → Prop
  | stop (stage : Stage) (error : ApiError) : Advance env s i stage s (refuse error) none
  | insert (id : Uuid) (user : User) (refreshToken : String) (inserted : Database)
      (hinserted : s.db.insertUser id user = some inserted) :
      Advance env s i (.inserting id user refreshToken) (s.setDb inserted)
        (.signing id user refreshToken) (some (.registered i id))
  | verify (id : Uuid) (user : User) (refreshToken : String) (req : LoginRequest)
      (hfound : findByEmail s.db req.email = some (id, user)) :
      Advance env s i (.findingUser refreshToken req) s (.checkingLogin id user refreshToken)
        (some (.verified i id))
  | allowLogin (id : Uuid) (user : User) (refreshToken : String)
      (hmay : s.db.hasPermission id .appLogin = true) :
      Advance env s i (.checkingLogin id user refreshToken) s (.signing id user refreshToken)
        (some (.allowed i id))
  | sign (id : Uuid) (user : User) (refreshToken : String) (token : AccessToken)
      (htoken : createAccessToken env s.now id = .ok token) :
      Advance env s i (.signing id user refreshToken) s (.dating token id user refreshToken) none
  | date (token : AccessToken) (id : Uuid) (user : User) (refreshToken : String) :
      Advance env s i (.dating token id user refreshToken) s
        (.storing token id user refreshToken (refreshTokenExpiresAt env s.now)) none
  | store (token : AccessToken) (id : Uuid) (user : User) (refreshToken : String)
      (expiresAt : Nat) (stored : Database)
      (hstored : s.db.insertRefreshToken (env.hashRefreshToken refreshToken)
        { userId := id, expiresAt := expiresAt } = some stored) :
      Advance env s i (.storing token id user refreshToken expiresAt)
        (s.addRow (env.hashRefreshToken refreshToken) stored)
        (.done (.ok (.auth ⟨userResponse id user, token, refreshToken⟩)))
        (some (.signedIn i (env.hashRefreshToken refreshToken)
          { userId := id, expiresAt := expiresAt } token))
  | find (refreshToken : String) (found : RefreshToken)
      (hfound : s.db.refreshTokens.lookup (env.hashRefreshToken refreshToken) = some found) :
      Advance env s i (.findingToken refreshToken) s
        (.comparing (env.hashRefreshToken refreshToken)
          (s.rowIds (env.hashRefreshToken refreshToken)) found)
        (some (.found i (env.hashRefreshToken refreshToken) found))
  | expire (hash : TokenHash) (row : Nat) (found : RefreshToken)
      (hexpired : found.expiresAt < s.now) :
      Advance env s i (.comparing hash row found) s (.deletingExpired hash row) none
  | keep (hash : TokenHash) (row : Nat) (found : RefreshToken)
      (hcurrent : s.now ≤ found.expiresAt) :
      Advance env s i (.comparing hash row found) s (.checkingRefresh found.userId)
        (some (.current i s.now))
  | deleteExpired (hash : TokenHash) (row : Nat) (hrow : s.rowIds hash = row) :
      Advance env s i (.deletingExpired hash row) (s.setDb (s.db.deleteRefreshToken hash))
        (refuse refreshTokenExpired) (some (.deleted hash))
  | allowRefresh (id : Uuid) (hmay : s.db.hasPermission id .appLogin = true) :
      Advance env s i (.checkingRefresh id) s (.renewing id) (some (.allowed i id))
  | suspend (id : Uuid) (hmay : s.db.hasPermission id .appLogin = false) :
      Advance env s i (.checkingRefresh id) s (.endingSessions id) none
  | endSessions (id : Uuid) :
      Advance env s i (.endingSessions id) (s.setDb (s.db.endSessions id))
        (refuse accountSuspended) (some (.sessionsEnded id))
  | renew (id : Uuid) (token : AccessToken)
      (htoken : createAccessToken env s.now id = .ok token) :
      Advance env s i (.renewing id) s (.done (.ok (.token token))) (some (.renewed i token))
  | delete (refreshToken : String) :
      Advance env s i (.deletingToken refreshToken)
        (s.setDb (s.db.deleteRefreshToken (env.hashRefreshToken refreshToken)))
        (.done (.ok .noContent)) (some (.deleted (env.hashRefreshToken refreshToken)))

section Inversion

variable {env : Environment} {s t : Service} {i : Nat} {stage next : Stage} {e : Option Event}

theorem advance_cases (h : advance env s i stage = some (t, next, e)) :
    Advance env s i stage t next e := by
  unfold advance at h
  cases stage with
  | inserting id user refreshToken =>
    dsimp only at h
    split at h
    · split at h <;> cases h <;> exact .stop ..
    · rename_i hinserted
      cases h
      exact .insert _ _ _ _ hinserted
  | findingUser refreshToken req =>
    dsimp only at h
    split at h
    · cases h
      exact .stop ..
    · rename_i hfound
      split at h <;> cases h
      · exact .stop ..
      · exact .stop ..
      · exact .verify _ _ _ _ hfound
  | checkingLogin id user refreshToken =>
    dsimp only [requirePermission] at h
    by_cases hmay : s.db.hasPermission id .appLogin = true
    · rw [if_pos hmay] at h
      cases h
      exact .allowLogin _ _ _ hmay
    · rw [if_neg hmay] at h
      cases h
      exact .stop ..
  | signing id user refreshToken =>
    dsimp only at h
    split at h <;> cases h
    · exact .stop ..
    · rename_i htoken
      exact .sign _ _ _ _ htoken
  | dating token id user refreshToken =>
    cases h
    exact .date ..
  | storing token id user refreshToken expiresAt =>
    dsimp only at h
    split at h <;> cases h
    · exact .stop ..
    · rename_i hstored
      exact .store _ _ _ _ _ _ hstored
  | findingToken refreshToken =>
    dsimp only at h
    split at h <;> cases h
    · exact .stop ..
    · rename_i hfound
      exact .find _ _ hfound
  | comparing hash row found =>
    dsimp only at h
    split at h <;> cases h
    · rename_i hexpired
      exact .expire _ _ _ hexpired
    · rename_i hcurrent
      exact .keep _ _ _ (Nat.not_lt.mp hcurrent)
  | deletingExpired hash row =>
    dsimp only at h
    split at h <;> cases h
    · rename_i hrow
      exact .deleteExpired _ _ hrow
    · exact .stop ..
  | checkingRefresh id =>
    dsimp only at h
    split at h <;> cases h
    · rename_i hmay
      exact .allowRefresh _ hmay
    · rename_i hmay
      exact .suspend _ (Bool.not_eq_true _ ▸ hmay)
  | endingSessions id =>
    cases h
    exact .endSessions _
  | renewing id =>
    dsimp only at h
    split at h <;> cases h
    · exact .stop ..
    · rename_i htoken
      exact .renew _ _ htoken
  | deletingToken refreshToken =>
    cases h
    exact .delete _
  | done result => cases h

/-- What an action does. -/
inductive Response (env : Environment) (s : Service) : Action → Service → Option Event → Prop
  | admin (action : AdminApi.Action) (panel : Panel)
      (hpanel : AdminApi.step env.toEnvironment s.panel action = some panel) :
      Response env s (.admin action) { s with panel := panel } (adminEvent s.panel action)
  | tick (seconds : Nat) : Response env s (.tick seconds) { s with now := s.now + seconds } none
  | start (i : Nat) (request : Request) (hnew : s.requests i = none) :
      Response env s (.start i request) (s.setRequest i (begin env request))
        (some (.begun i request))
  | advance (i : Nat) (stage next : Stage) (after : Service) (e : Option Event)
      (hstage : s.requests i = some stage) (hadvance : Advance env s i stage after next e) :
      Response env s (.advance i) (after.setRequest i next) e
  | fail (i : Nat) (stage : Stage) (error : ApiError) (hstage : s.requests i = some stage) :
      Response env s (.fail i) (s.setRequest i (refuse error)) none

theorem respond_cases {a : Action} (h : respond env s a = some (t, e)) : Response env s a t e := by
  cases a with
  | admin action =>
    obtain ⟨panel, hpanel, hafter⟩ := Option.map_eq_some_iff.mp h
    cases hafter
    exact .admin _ _ hpanel
  | tick seconds =>
    cases h
    exact .tick _
  | start i request =>
    simp only [respond] at h
    split at h <;> cases h
    rename_i hnew
    exact .start _ _ hnew
  | advance i =>
    simp only [respond] at h
    split at h
    · rename_i stage hstage
      obtain ⟨⟨after, next, e'⟩, hadvance, hafter⟩ := Option.map_eq_some_iff.mp h
      cases hafter
      exact .advance _ _ _ _ _ hstage (advance_cases hadvance)
    · cases h
  | fail i =>
    simp only [respond] at h
    split at h
    · rename_i stage hstage
      obtain ⟨error, -, hafter⟩ := Option.map_eq_some_iff.mp h
      cases hafter
      exact .fail _ _ _ hstage
    · cases h

theorem step_response {a : Action} (h : step env s a = some t) :
    Response env s a t (event env s a) := by
  obtain ⟨⟨after, e⟩, hrespond, rfl⟩ := Option.map_eq_some_iff.mp h
  have he : event env s a = e := by
    rw [event, hrespond]
    rfl
  rw [he]
  exact respond_cases hrespond

theorem event_response {a : Action} {e : Event} (h : event env s a = some e) :
    ∃ t, Response env s a t (some e) := by
  obtain ⟨⟨after, e'⟩, hrespond, he⟩ := Option.bind_eq_some_iff.mp h
  obtain rfl : e' = some e := he
  exact ⟨after, respond_cases hrespond⟩

end Inversion

end OpenMeet.Sessions
