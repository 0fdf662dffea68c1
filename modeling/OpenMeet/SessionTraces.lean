import OpenMeet.Sessions

/-!
What a session rests on. A run is told by its events: each request keeps to what
it has asked for and found out so far, and each row of refresh_tokens was stored
by a sign-in with nothing ending it since. So a refresh that returns an access
token can be traced back to a sign-in of the same user, and a user who may not
sign in gets no token from a request that has its check still to come.
-/
namespace OpenMeet.SessionTraces

open KeyedMap Messages Accounts Database SignIn Sessions TransitionSystem PastTime
open AdminApi (Panel)

variable {env : Environment} {log more : List Event} {i : Nat} {id : Uuid} {hash : TokenHash}
  {row : RefreshToken} {refreshToken : String}

/-! ## What the events tell -/

/-- The password of the login was right. -/
def Verified (i : Nat) (id : Uuid) (refreshToken : String) : List Event → Prop :=
  Once fun before e => e = .verified i id ∧ ∃ req, .begun i (.login refreshToken req) ∈ before

/-- A registration that made its user, or a login found allowed to sign in. -/
def Admitted (i : Nat) (id : Uuid) (refreshToken : String) (log : List Event) : Prop :=
  Once (fun before e => e = .registered i id ∧
    ∃ salt req, .begun i (.register id salt refreshToken req) ∈ before) log ∨
  Once (fun before e => e = .allowed i id ∧ Verified i id refreshToken before) log

/-- The sign-in that stored a row under the hash of its refresh token. -/
def Opened (env : Environment) (hash : TokenHash) (row : RefreshToken) (before : List Event)
    (e : Event) : Prop :=
  ∃ i refreshToken token, e = .signedIn i hash row token ∧
    hash = env.hashRefreshToken refreshToken ∧ token.claims.sub = row.userId ∧
    Admitted i row.userId refreshToken before

def Ends (hash : TokenHash) (id : Uuid) (e : Event) : Prop :=
  e = .deleted hash ∨ e = .sessionsEnded id

/-- A sign-in stored the row, and nobody has deleted it or ended the sessions of its user since. -/
def OpenSession (env : Environment) (hash : TokenHash) (row : RefreshToken) : List Event → Prop :=
  Since (Opened env hash row) (Ends hash row.userId)

/-- The refresh found its token in an open session. -/
def Found (env : Environment) (i : Nat) (hash : TokenHash) (row : RefreshToken) :
    List Event → Prop :=
  Once fun before e => e = .found i hash row ∧ OpenSession env hash row before ∧
    ∃ refreshToken, hash = env.hashRefreshToken refreshToken ∧
      .begun i (.refresh refreshToken) ∈ before

/-- It then found that the session had not expired. -/
def Current (env : Environment) (i : Nat) (hash : TokenHash) (row : RefreshToken) :
    List Event → Prop :=
  Once fun before e => (∃ now ≤ row.expiresAt, e = .current i now) ∧ Found env i hash row before

/-- And after that, that its user may sign in. -/
def Renewable (env : Environment) (i : Nat) (id : Uuid) : List Event → Prop :=
  Once fun before e => e = .allowed i id ∧
    ∃ hash row, row.userId = id ∧ Current env i hash row before

/-- What has to come before an event. -/
def Justified (env : Environment) (before : List Event) : Event → Prop
  | .renewed i token => Renewable env i token.claims.sub before
  | .signedIn i hash row token => Opened env hash row before (.signedIn i hash row token)
  | _ => True

/-- What a request at a stage has behind it. -/
def Told (env : Environment) (log : List Event) (i : Nat) : Stage → Prop
  | .inserting id _ refreshToken =>
    ∃ salt req, .begun i (.register id salt refreshToken req) ∈ log
  | .findingUser refreshToken req => .begun i (.login refreshToken req) ∈ log
  | .checkingLogin id _ refreshToken => Verified i id refreshToken log
  | .signing id _ refreshToken => Admitted i id refreshToken log
  | .dating token id _ refreshToken | .storing token id _ refreshToken _ =>
    token.claims.sub = id ∧ Admitted i id refreshToken log
  | .findingToken refreshToken => .begun i (.refresh refreshToken) ∈ log
  | .comparing hash _ found => Found env i hash found log
  | .checkingRefresh id => ∃ hash row, row.userId = id ∧ Current env i hash row log
  | .renewing id => Renewable env i id log
  | .deletingExpired _ _ | .endingSessions _ | .deletingToken _ | .done _ => True

/-- The story of a run: every request has what it needs behind it, and so has every row. -/
structure Story (env : Environment) (log : List Event) (s : Sessions.Service) : Prop where
  requests : ∀ i stage, s.requests i = some stage → Told env log i stage
  rows : ∀ hash row, s.db.refreshTokens.lookup hash = some row → OpenSession env hash row log

theorem Admitted.append (h : Admitted i id refreshToken log) (more : List Event) :
    Admitted i id refreshToken (log ++ more) :=
  h.imp (·.append more) (·.append more)

theorem Told.append {stage : Stage} (h : Told env log i stage) (more : List Event) :
    Told env (log ++ more) i stage := by
  cases stage with
  | inserting id user refreshToken =>
    obtain ⟨salt, req, hbegun⟩ := h
    exact ⟨salt, req, List.mem_append_left more hbegun⟩
  | findingUser refreshToken req => exact List.mem_append_left more h
  | checkingLogin id user refreshToken => exact Once.append h more
  | signing id user refreshToken => exact Admitted.append h more
  | dating token id user refreshToken => exact ⟨h.1, h.2.append more⟩
  | storing token id user refreshToken expiresAt => exact ⟨h.1, h.2.append more⟩
  | findingToken refreshToken => exact List.mem_append_left more h
  | comparing hash row found => exact Once.append h more
  | checkingRefresh id =>
    obtain ⟨hash, row, hid, hcurrent⟩ := h
    exact ⟨hash, row, hid, Once.append hcurrent more⟩
  | renewing id => exact Once.append h more
  | deletingExpired hash row => trivial
  | endingSessions id => trivial
  | deletingToken refreshToken => trivial
  | done result => trivial

/-! ## What a statement does -/

theorem insertRefreshToken_eq_some {db stored : Database}
    (h : db.insertRefreshToken hash row = some stored) (hash' : TokenHash) :
    stored.refreshTokens.lookup hash' =
      if hash' = hash then some row else db.refreshTokens.lookup hash' := by
  unfold insertRefreshToken at h
  split at h
  · cases h
  · cases h
    show (db.refreshTokens.insert hash row).lookup hash' = _
    split
    · rename_i heq
      rw [heq, AList.lookup_insert]
    · rename_i hne
      exact AList.lookup_insert_ne hne

theorem told_begin (request : Request) (h : .begun i request ∈ log) :
    Told env log i (Sessions.begin env request) := by
  cases request with
  | register id salt refreshToken req =>
    unfold Sessions.begin
    dsimp only
    split
    · trivial
    · exact ⟨salt, req, h⟩
  | login refreshToken req => exact h
  | refresh refreshToken => exact h
  | logout refreshToken => trivial

variable {s t : Sessions.Service} {stage next : Sessions.Stage} {e : Option Event}

/-- Each statement tells what the next one needs. -/
theorem told_advance (h : Sessions.Advance env s i stage t next e) (htold : Told env log i stage)
    (hrows : ∀ hash row, s.db.refreshTokens.lookup hash = some row →
      OpenSession env hash row log) :
    Told env (log ++ e.toList) i next := by
  cases h with
  | stop stage error => trivial
  | insert id user refreshToken inserted hinserted =>
    obtain ⟨salt, req, hbegun⟩ := htold
    exact .inl (once_concat ⟨rfl, salt, req, hbegun⟩)
  | verify id user refreshToken req hfound => exact once_concat ⟨rfl, req, htold⟩
  | allowLogin id user refreshToken hmay => exact .inr (once_concat ⟨rfl, htold⟩)
  | sign id user refreshToken token htoken =>
    exact ⟨sub_of_createAccessToken htoken, Admitted.append htold _⟩
  | date token id user refreshToken => exact ⟨htold.1, htold.2.append _⟩
  | store token id user refreshToken expiresAt stored hstored => trivial
  | find refreshToken found hfound =>
    exact once_concat ⟨rfl, hrows _ _ hfound, refreshToken, rfl, htold⟩
  | expire hash row found hexpired => trivial
  | keep hash row found hcurrent =>
    exact ⟨hash, found, rfl, once_concat ⟨⟨s.now, hcurrent, rfl⟩, htold⟩⟩
  | deleteExpired hash row hrow => trivial
  | allowRefresh id hmay => exact once_concat ⟨rfl, htold⟩
  | suspend id hmay => trivial
  | endSessions id => trivial
  | renew id token htoken => trivial
  | delete refreshToken => trivial

/-- What a statement puts out is justified by what was told. -/
theorem justified_advance {e : Event} (h : Sessions.Advance env s i stage t next (some e))
    (htold : Told env log i stage) : Justified env log e := by
  cases h with
  | store token id user refreshToken expiresAt stored hstored =>
    exact ⟨i, refreshToken, token, rfl, rfl, htold.1, htold.2⟩
  | renew id token htoken =>
    show Renewable env i token.claims.sub log
    rw [sub_of_createAccessToken htoken]
    exact htold
  | _ => trivial

theorem lookup_endSessions {db : Database}
    (h : (db.endSessions id).refreshTokens.lookup hash = some row) :
    db.refreshTokens.lookup hash = some row ∧ ¬ Ends hash row.userId (.sessionsEnded id) := by
  have hlookup : (db.refreshTokens.retain fun _ token => token.userId ≠ id).lookup hash =
    some row := h
  rw [Map.lookup_retain, Option.filter_eq_some_iff] at hlookup
  have hother : row.userId ≠ id := of_decide_eq_true hlookup.2
  exact ⟨hlookup.1, by simpa [Ends] using Ne.symm hother⟩

/-- A row that is there after a statement was there before and the statement ended nothing of
it, or was just stored. -/
theorem rows_advance (h : Sessions.Advance env s i stage t next e)
    (hrow : t.db.refreshTokens.lookup hash = some row) :
    (s.db.refreshTokens.lookup hash = some row ∧ ∀ e' ∈ e, ¬ Ends hash row.userId e') ∨
      ∃ token, e = some (.signedIn i hash row token) := by
  cases h with
  | insert id user refreshToken inserted hinserted =>
    refine .inl ⟨?_, by simp [Ends]⟩
    rw [← (insertUser_eq_some hinserted).2.1]
    exact hrow
  | store token id user refreshToken expiresAt stored hstored =>
    have hlookup : stored.refreshTokens.lookup hash = some row := hrow
    rw [insertRefreshToken_eq_some hstored] at hlookup
    split at hlookup
    · rename_i heq
      cases hlookup
      exact .inr ⟨token, by rw [heq]⟩
    · exact .inl ⟨hlookup, by simp [Ends]⟩
  | deleteExpired deletedHash rowId hid =>
    have hlookup : (s.db.refreshTokens.erase deletedHash).lookup hash = some row := hrow
    by_cases heq : hash = deletedHash
    · rw [heq, AList.lookup_erase] at hlookup
      cases hlookup
    · rw [AList.lookup_erase_ne heq] at hlookup
      exact .inl ⟨hlookup, by simpa [Ends] using Ne.symm heq⟩
  | endSessions id =>
    obtain ⟨hbefore, hends⟩ := lookup_endSessions hrow
    exact .inl ⟨hbefore, by simpa using hends⟩
  | delete refreshToken =>
    have hlookup : (s.db.refreshTokens.erase (env.hashRefreshToken refreshToken)).lookup hash =
      some row := hrow
    by_cases heq : hash = env.hashRefreshToken refreshToken
    · rw [heq, AList.lookup_erase] at hlookup
      cases hlookup
    · rw [AList.lookup_erase_ne heq] at hlookup
      exact .inl ⟨hlookup, by simpa [Ends] using Ne.symm heq⟩
  | _ => exact .inl ⟨hrow, by simp [Ends]⟩

/-! ## The panel -/

theorem refreshTokens_saveRole {db after : Database} {name : RoleName}
    {description : Option String} {replacement : Option (Finset Permission × Finset Permission)}
    (h : AdminApi.saveRole db name description replacement = some after) :
    after.refreshTokens = db.refreshTokens := by
  have hdescribed : (description.elim db (db.setDescription name)).refreshTokens =
      db.refreshTokens := by
    cases description <;> rfl
  cases replacement with
  | none =>
    cases h
    exact hdescribed
  | some replacement =>
    simp only [AdminApi.saveRole, replacePermissions] at h
    split at h
    · cases h
      exact hdescribed
    · cases h

section Panel

variable {db after : Database} {stage next : AdminApi.Stage}

/-- Only the statement that ends the sessions of a user writes refresh tokens. -/
theorem refreshTokens_advance (h : AdminApi.Advance db stage after next)
    (hother : ∀ id, stage ≠ .endingSessions id) : after.refreshTokens = db.refreshTokens := by
  cases h with
  | insertRole admin name description permissions _ hafter =>
    unfold insertRole at hafter
    split at hafter <;> cases hafter
    rfl
  | saveRole admin name description replacement _ hafter => exact refreshTokens_saveRole hafter
  | deleteRole name _ hafter =>
    unfold deleteRole at hafter
    split at hafter <;> cases hafter
    rfl
  | saveUser admin userId role permissions _ hafter =>
    unfold setUserRole at hafter
    split at hafter <;> cases hafter
    rfl
  | endSessions userId => exact absurd rfl (hother userId)
  | _ => rfl

/-- The panel takes no user out. -/
theorem mem_users_advance (h : AdminApi.Advance db stage after next) (hid : id ∈ db.users) :
    id ∈ after.users := by
  cases h with
  | insertRole admin name description permissions _ hafter =>
    rw [(insertRole_eq_some hafter).2.1]
    exact hid
  | saveRole admin name description replacement _ hafter =>
    rw [(AdminApi.saveRole_eq_some hafter).1]
    exact hid
  | deleteRole name _ hafter =>
    rw [(deleteRole_eq_some hafter).2.1]
    exact hid
  | saveUser admin userId role permissions _ hafter =>
    unfold setUserRole at hafter
    split at hafter <;> cases hafter
    exact (Map.mem_modify _ _ _ _).mpr hid
  | _ => exact hid

end Panel

/-- A row that is there after a statement of the panel was there before, and the statement did
not end its session. -/
theorem rows_panel {p q : Panel} {a : AdminApi.Action}
    (h : AdminApi.step env.toEnvironment p a = some q)
    (hrow : q.db.refreshTokens.lookup hash = some row) :
    p.db.refreshTokens.lookup hash = some row ∧ ∀ e ∈ adminEvent p a, ¬ Ends hash row.userId e := by
  rcases AdminApi.step_cases h with ⟨j, adminId, request, rfl, rfl⟩ |
    ⟨j, stage, after, next, rfl, hstage, hadvance, rfl⟩ | ⟨j, rfl, rfl⟩
  · exact ⟨hrow, by simp [adminEvent]⟩
  · by_cases hend : ∃ id, stage = .endingSessions id
    · obtain ⟨id, rfl⟩ := hend
      have hran : AdminApi.advance env.toEnvironment p.db (.endingSessions id) =
          some (p.db.endSessions id, .loadingUser id) := rfl
      simp only [AdminApi.step, hstage, hran, Option.map_some, Option.some.injEq] at h
      have hdb := congrArg Panel.db h
      rw [← hdb] at hrow
      obtain ⟨hbefore, hends⟩ := lookup_endSessions hrow
      exact ⟨hbefore, by simpa [adminEvent, hstage] using hends⟩
    · have hother : ∀ id, stage ≠ .endingSessions id := fun id heq => hend ⟨id, heq⟩
      have hnone : adminEvent p (.advance j) = none := by
        simp only [adminEvent, hstage]
        split
        · rename_i id heq
          exact absurd (Option.some.inj heq) (hother id)
        · rfl
      have hkept := refreshTokens_advance hadvance hother
      have hafter : after.refreshTokens.lookup hash = some row := hrow
      rw [hkept] at hafter
      exact ⟨hafter, by simp [hnone]⟩
  · exact ⟨hrow, by simp [adminEvent]⟩

theorem mem_users_panel {p q : Panel} {a : AdminApi.Action}
    (h : AdminApi.step env.toEnvironment p a = some q) (hid : id ∈ p.db.users) :
    id ∈ q.db.users := by
  rcases AdminApi.step_cases h with ⟨j, adminId, request, rfl, rfl⟩ |
    ⟨j, stage, after, next, rfl, hstage, hadvance, rfl⟩ | ⟨j, rfl, rfl⟩
  · exact hid
  · exact mem_users_advance hadvance hid
  · exact hid

/-! ## Runs -/

theorem OpenSession.append {e : Option Event} (h : OpenSession env hash row log)
    (hkept : ∀ e' ∈ e, ¬ Ends hash row.userId e') : OpenSession env hash row (log ++ e.toList) := by
  apply Since.append h
  intro later hlater
  exact hkept later (Option.mem_toList.mp hlater)

/-- A request keeps its story while others go on. -/
theorem told_setRequest {next : Sessions.Stage} (htold : ∀ j stage, s.requests j = some stage →
      Told env log j stage) (hnext : Told env (log ++ more) i next) :
    ∀ j stage, (s.setRequest i next).requests j = some stage → Told env (log ++ more) j stage := by
  intro j stage hj
  by_cases hij : j = i
  · subst hij
    have hset : some next = some stage := by
      simpa [Sessions.Service.setRequest] using hj
    cases hset
    exact hnext
  · have hkept : s.requests j = some stage := by
      simpa [Sessions.Service.setRequest, Function.update_of_ne hij] using hj
    exact (htold j stage hkept).append more

theorem requests_advance (h : Sessions.Advance env s i stage t next e) :
    t.requests = s.requests := by
  cases h <;> rfl

/-- The story goes on with every action. -/
theorem story_step {a : Sessions.Action} (h : Story env log s)
    (hstep : Sessions.step env s a = some t) :
    Story env (log ++ (Sessions.event env s a).toList) t := by
  generalize he : Sessions.event env s a = e
  have hresponse := step_response hstep
  rw [he] at hresponse
  cases hresponse with
  | admin action panel hpanel =>
    refine ⟨fun j stage hj => (h.requests j stage hj).append _, fun hash row hrow => ?_⟩
    obtain ⟨hbefore, hkept⟩ := rows_panel hpanel hrow
    exact (h.rows hash row hbefore).append hkept
  | tick seconds =>
    refine ⟨fun j stage hj => (h.requests j stage hj).append _, fun hash row hrow => ?_⟩
    exact (h.rows hash row hrow).append (by simp)
  | start j request hnew =>
    refine ⟨told_setRequest h.requests (told_begin request (by simp)), fun hash row hrow => ?_⟩
    exact (h.rows hash row hrow).append (by simp [Ends])
  | advance j stage next after _ hstage hadvance =>
    refine ⟨?_, fun hash row hrow => ?_⟩
    · apply told_setRequest
      · rw [requests_advance hadvance]
        exact h.requests
      · exact told_advance hadvance (h.requests j stage hstage) h.rows
    · rcases rows_advance hadvance hrow with ⟨hbefore, hkept⟩ | ⟨token, rfl⟩
      · exact (h.rows hash row hbefore).append hkept
      · apply since_concat
        exact justified_advance hadvance (h.requests j stage hstage)
  | fail j stage error hstage =>
    refine ⟨told_setRequest h.requests trivial, fun hash row hrow => ?_⟩
    exact (h.rows hash row hrow).append (by simp)

/-- What an action puts out is justified by the story so far. -/
theorem justified_event {a : Sessions.Action} {e : Event} (h : Story env log s)
    (he : Sessions.event env s a = some e) : Justified env log e := by
  obtain ⟨t, hresponse⟩ := event_response he
  generalize hsome : some e = output at hresponse
  cases hresponse with
  | admin action panel hpanel =>
    unfold adminEvent at hsome
    split at hsome
    · split at hsome <;> cases hsome
      trivial
    · cases hsome
  | tick seconds => cases hsome
  | start j request hnew =>
    cases hsome
    trivial
  | advance j stage next after _ hstage hadvance =>
    subst hsome
    exact justified_advance hadvance (h.requests j stage hstage)
  | fail j stage error hstage => cases hsome

/-- In every run from a database without refresh tokens, whatever the panel and the other
requests do in between: a refresh that returned an access token had asked with a refresh token
that it found, not expired, in an open session of the user, and was then told that the user may
sign in; and each session was opened by a registration or a login of its user. -/
theorem sessions_traced (env : Environment) (db : Database) (hnone : db.refreshTokens = ∅)
    (actions : List Sessions.Action) (t : Sessions.Service)
    (hrun : (Sessions.system env db).run actions = some t) :
    Throughout (Justified env) (events env db (Sessions.system env db).init actions) := by
  have hstart : Story env [] (Sessions.system env db).init := by
    refine ⟨?_, ?_⟩
    · intro j stage hj
      cases hj
    · intro hash row hrow
      have hlookup : db.refreshTokens.lookup hash = some row := hrow
      rw [hnone] at hlookup
      simp at hlookup
  have hstep : ∀ log s a t, Story env log s → (Sessions.system env db).step s a = some t →
      Story env (log ++ (Sessions.event env s a).toList) t := by
    intro log s a t hstory hstep
    exact story_step hstory hstep
  have hjustified : ∀ log s a e, Story env log s → Sessions.event env s a = some e →
      Justified env log e := by
    intro log s a e hstory he
    exact justified_event hstory he
  exact throughout_outputs hstep hjustified hstart hrun

/-- A new user is registered, refreshes once, logs out, and is refused the next time. -/
def registerAndLeave : List Sessions.Action :=
  .start 0 (.register 7 "salt" "secret" ⟨"bob@x", "Bob", "bob", "password"⟩) ::
    (List.replicate 4 (.advance 0) ++ [.tick 60, .start 1 (.refresh "secret")] ++
      List.replicate 4 (.advance 1) ++ [.start 2 (.logout "secret"), .advance 2,
        .start 3 (.refresh "secret"), .advance 3])

theorem sessions_traced_registerAndLeave :
    .renewed 1 ⟨⟨7, 960, 60⟩, "token"⟩ ∈ events plainEnvironment Database.migrated
        (Sessions.system plainEnvironment Database.migrated).init registerAndLeave ∧
      Throughout (Justified plainEnvironment) (events plainEnvironment Database.migrated
        (Sessions.system plainEnvironment Database.migrated).init registerAndLeave) := by
  obtain ⟨t, ht, -⟩ := System.exists_run_of_any
    (Sessions.system plainEnvironment Database.migrated)
    (Sessions.system plainEnvironment Database.migrated).init registerAndLeave
    (fun s => s.requests 3 = some (Sessions.refuse invalidRefreshToken)) (by decide)
  refine ⟨by decide, ?_⟩
  exact sessions_traced plainEnvironment Database.migrated rfl registerAndLeave t ht

/-! ## Users who may not sign in -/

/-- The request has only the signing of a token for this user still before it. -/
def Cleared (id : Uuid) : Sessions.Stage → Prop
  | .signing id' _ _ | .renewing id' => id' = id
  | .dating token _ _ _ | .storing token _ _ _ _ => token.claims.sub = id
  | _ => False

/-- The request that an access token was returned by, and the token. -/
def grant : Event → Option (Nat × AccessToken)
  | .signedIn i _ _ token | .renewed i token => some (i, token)
  | _ => none

def Barred (id : Uuid) (s : Sessions.Service) : Prop := s.db.hasPermission id .appLogin = false

instance (id : Uuid) (s : Sessions.Service) : Decidable (Barred id s) :=
  inferInstanceAs (Decidable (_ = false))

/-- No request of a user who may not sign in passes its check. -/
theorem cleared_advance (h : Sessions.Advance env s i stage t next e) (hbarred : Barred id s)
    (hid : id ∈ s.db.users) (hnext : Cleared id next) : Cleared id stage := by
  cases h with
  | insert id' user refreshToken inserted hinserted =>
    obtain rfl : id' = id := hnext
    unfold insertUser at hinserted
    rw [dite_eq_iff] at hinserted
    simp [hid] at hinserted
  | allowLogin id' user refreshToken hmay =>
    obtain rfl : id' = id := hnext
    exact absurd (hmay.symm.trans hbarred) (by decide)
  | sign id' user refreshToken token htoken =>
    have hsub := sub_of_createAccessToken htoken
    exact hsub.symm.trans hnext
  | date token id' user refreshToken => exact hnext
  | allowRefresh id' hmay =>
    obtain rfl : id' = id := hnext
    exact absurd (hmay.symm.trans hbarred) (by decide)
  | _ => exact absurd hnext (by simp [Cleared, Sessions.refuse])

theorem cleared_of_grant {e : Event} {j : Nat} {token : AccessToken}
    (h : Sessions.Advance env s i stage t next (some e)) (hgrant : grant e = some (j, token)) :
    j = i ∧ Cleared token.claims.sub stage := by
  cases h with
  | store token' id user refreshToken expiresAt stored hstored =>
    cases hgrant
    exact ⟨rfl, rfl⟩
  | renew id token' htoken =>
    cases hgrant
    exact ⟨rfl, (sub_of_createAccessToken htoken).symm⟩
  | _ => cases hgrant

theorem mem_users_response {a : Sessions.Action} (h : Response env s a t e)
    (hid : id ∈ s.db.users) : id ∈ t.db.users := by
  cases h with
  | admin action panel hpanel => exact mem_users_panel hpanel hid
  | advance j stage next after _ hstage hadvance =>
    cases hadvance with
    | insert id' user refreshToken inserted hinserted =>
      unfold insertUser at hinserted
      split at hinserted
      · split at hinserted <;> cases hinserted
        exact (AList.mem_insert _).mpr (.inr hid)
      · cases hinserted
    | store token id' user refreshToken expiresAt stored hstored =>
      unfold insertRefreshToken at hstored
      split at hstored <;> cases hstored
      exact hid
    | _ => exact hid
  | _ => exact hid

/-- A request that has had its check after an action had it before. -/
theorem cleared_response {a : Sessions.Action} (h : Response env s a t e) (hbarred : Barred id s)
    (hid : id ∈ s.db.users) (hcleared : ∃ stage, t.requests i = some stage ∧ Cleared id stage) :
    ∃ stage, s.requests i = some stage ∧ Cleared id stage := by
  have hset : ∀ (u : Sessions.Service) (j : Nat) (next : Sessions.Stage), u.requests = s.requests →
      (Cleared id next → ∃ stage, s.requests j = some stage ∧ Cleared id stage) →
      (∃ stage, (u.setRequest j next).requests i = some stage ∧ Cleared id stage) →
      ∃ stage, s.requests i = some stage ∧ Cleared id stage := by
    rintro u j next hsame hnext ⟨stage, hstage, hcleared⟩
    by_cases hij : i = j
    · subst hij
      have hnow : some next = some stage := by
        simpa [Sessions.Service.setRequest] using hstage
      cases hnow
      exact hnext hcleared
    · refine ⟨stage, ?_, hcleared⟩
      rw [← hsame]
      simpa [Sessions.Service.setRequest, Function.update_of_ne hij] using hstage
  cases h with
  | admin action panel hpanel => exact hcleared
  | tick seconds => exact hcleared
  | start j request hnew =>
    apply hset s j _ rfl ?_ hcleared
    intro hbegun
    cases request with
    | register id' salt refreshToken req =>
      unfold Sessions.begin at hbegun
      dsimp only at hbegun
      split at hbegun <;> cases hbegun
    | _ => cases hbegun
  | advance j stage next after _ hstage hadvance =>
    apply hset after j next (requests_advance hadvance) ?_ hcleared
    intro hnext
    exact ⟨stage, hstage, cleared_advance hadvance hbarred hid hnext⟩
  | fail j stage error hstage =>
    apply hset s j _ rfl ?_ hcleared
    intro hnext
    cases hnext

/-- From any state on, as long as a user may not sign in, whatever else goes on: each access token
of theirs is returned by a request that had its check before. -/
theorem barred_granted (env : Environment) (db : Database) (s : Sessions.Service) (id : Uuid)
    (actions : List Sessions.Action) (hid : id ∈ s.db.users)
    (hbarred : (Sessions.system env db).Guarded (fun s _ => Barred id s) s actions)
    (e : Event) (he : e ∈ events env db s actions) (i : Nat) (token : AccessToken)
    (hgrant : grant e = some (i, token)) (hsub : token.claims.sub = id) :
    ∃ stage, s.requests i = some stage ∧ Cleared id stage := by
  induction actions generalizing s with
  | nil => cases he
  | cons a rest ih =>
    rcases System.mem_outputs_cons he with hnow | ⟨t, ht, hlater⟩
    · obtain ⟨t, hresponse⟩ := event_response (Option.mem_toList.mp hnow)
      generalize hsome : some e = output at hresponse
      cases hresponse with
      | admin action panel hpanel =>
        unfold adminEvent at hsome
        split at hsome
        · split at hsome <;> cases hsome
          cases hgrant
        · cases hsome
      | tick seconds => cases hsome
      | start j request hnew =>
        cases hsome
        cases hgrant
      | advance j stage next after _ hstage hadvance =>
        subst hsome
        obtain ⟨rfl, hcleared⟩ := cleared_of_grant hadvance hgrant
        rw [hsub] at hcleared
        exact ⟨stage, hstage, hcleared⟩
      | fail j stage error hstage => cases hsome
    · have hresponse := step_response ht
      have hearlier := ih t (mem_users_response hresponse hid) (hbarred.2 t ht) hlater
      exact cleared_response hresponse hbarred.1 hid hearlier

def adaAndBob : Option Database :=
  (Database.migrated.insertUser 1 ⟨"ada@x", "Ada", "ada", "", "admin", none⟩).bind fun db =>
    db.insertUser 2 ⟨"bob@x", "Bob", "bob", "password", "user", none⟩

/-- Passwords that stand in the database as they are. -/
def unhashed : SignIn.Environment :=
  { plainEnvironment with verifyPassword := fun hash password => .ok (decide (hash = password)) }

/-- Bob logs in and is suspended when his login has had its check. -/
def suspendDuringLogin : List Sessions.Action :=
  .start 0 (.login "secret" ⟨"bob@x", "password"⟩) :: .advance 0 :: .advance 0 ::
    .admin (.start 0 1 (.updateUser 2 "suspended")) :: List.replicate 7 (.admin (.advance 0))

/-- The login goes through, and the refresh that follows does not. -/
def finishLogin : List Sessions.Action :=
  .admin (.advance 0) :: (List.replicate 3 (.advance 0) ++ .start 1 (.refresh "secret") ::
    List.replicate 4 (.advance 1))

theorem barred_granted_finishLogin :
    ∃ db ∈ adaAndBob, ∃ s, (Sessions.system unhashed db).run suspendDuringLogin = some s ∧
      .signedIn 0 "secret" ⟨2, 604800⟩ ⟨⟨2, 900, 0⟩, "token"⟩ ∈
        events unhashed db s finishLogin ∧
      ∃ stage, s.requests 0 = some stage ∧ Cleared 2 stage := by
  obtain ⟨db, hdb, hrun⟩ : ∃ db ∈ adaAndBob,
      ((Sessions.system unhashed db).run suspendDuringLogin).any (fun s =>
        2 ∈ s.db.users ∧
        (Sessions.system unhashed db).Guarded (fun s _ => Barred 2 s) s finishLogin ∧
        .signedIn 0 "secret" ⟨2, 604800⟩ ⟨⟨2, 900, 0⟩, "token"⟩ ∈
          events unhashed db s finishLogin) = true := by
    decide
  obtain ⟨s, hs, htest⟩ := Option.any_eq_true .. |>.mp hrun
  obtain ⟨hid, hbarred, hsigned⟩ := of_decide_eq_true htest
  refine ⟨db, hdb, s, hs, hsigned, ?_⟩
  exact barred_granted unhashed db s 2 finishLogin hid hbarred _ hsigned 0 _ rfl rfl

end OpenMeet.SessionTraces
