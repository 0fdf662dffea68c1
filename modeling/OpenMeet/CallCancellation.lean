import OpenMeet.BadgeNews
import OpenMeet.RecordedPresence

/-!
When a caller's cancellation ends the call. It looks for somebody else among the
recorder's rows, which lag behind the room: a connection that is in the room while its
join waits in the queue is not seen. Where the recorder has got as far as a join of
somebody else, the rows show it, with the account it was made with.
-/
namespace OpenMeet.CallCancellation

open KeyedMap Messages SocialTables SocialRequests BadgeNews CallApi MeetingRecorder LiveMeetings
  SignalingServer Transitions Consistency TransitionSystem RecordedPresence

/-! ## What a cancellation should do, and when it does -/

section Requests

variable (s : Recording) (userId callId : Uuid)

/-- A connection that is not one of the user's own is in the room. -/
def OthersPresent (room : RoomId) : Prop :=
  ∃ p ∈ occupants s.server room, (s.server.identity p).userId ≠ some userId

/-- The recorder has handled somebody else's join of the room, and no leave since. -/
def OthersHandled (room : RoomId) : Prop :=
  let rooms := reported (s.server.meetingEvents.take s.handled)
  ∃ p ∈ rooms.keys, rooms.lookup p = some room ∧ (s.server.identity p).userId ≠ some userId

instance (room : RoomId) : Decidable (OthersPresent s userId room) :=
  inferInstanceAs (Decidable (∃ p ∈ occupants s.server room, _))

instance (room : RoomId) : Decidable (OthersHandled s userId room) :=
  inferInstanceAs (Decidable (∃ p ∈ (reported _).keys, _))

/-- The user is the caller, and nobody has ended the call yet. -/
def IsCancellable (call : CallSession) : Prop := call.initiatorId = userId ∧ call.status = .active

instance (call : CallSession) : Decidable (IsCancellable userId call) :=
  inferInstanceAs (Decidable (_ ∧ _))

/-- The request ends a call that is going on. -/
def Ends (call : CallSession) : Prop :=
  call.status = .active ∧
    (cancelCallSession s.run.recorder.db userId callId).db.calls.lookup callId =
      some { call with status := .expired }

end Requests

/-- A cancellation that ends the call finds nobody else in its room. -/
def EndsOnlyEmpty (s : Recording) : Action → Prop
  | .cancel userId callId =>
    ∀ call ∈ s.run.recorder.db.calls.lookup callId, Ends s userId callId call →
      ¬ OthersPresent s userId call.sfuRoomId
  | _ => True

/-- Whenever the caller cancels while somebody else is in the room, no query of the recorder has
failed and it has handled a join of somebody else. -/
def OthersRecorded (s : Recording) : Action → Prop
  | .cancel userId callId =>
    ∀ call ∈ s.run.recorder.db.calls.lookup callId, IsCancellable userId call →
      OthersPresent s userId call.sfuRoomId →
        s.run.failed = false ∧ OthersHandled s userId call.sfuRoomId
  | _ => True

theorem ends_iff {s : Recording} {userId callId : Uuid} {call : CallSession}
    (hcall : s.run.recorder.db.calls.lookup callId = some call) :
    Ends s userId callId call ↔
      IsCancellable userId call ∧
        roomHasOthers s.run.recorder.db call.sfuRoomId userId = false := by
  unfold Ends IsCancellable cancelCallSession
  simp only [hcall]
  split
  · rename_i hcancellable
    obtain ⟨hinitiator, hactive, hothers⟩ := hcancellable
    simp [modifyCall, hcall, hinitiator, hactive, hothers]
  · rename_i hnot
    simp only [hcall, Option.some.injEq]
    constructor
    · rintro ⟨hactive, hsame⟩
      rw [hsame] at hactive
      cases hactive
    · rintro ⟨⟨hinitiator, hactive⟩, hothers⟩
      exact absurd ⟨hinitiator, hactive, hothers⟩ hnot

/-! ## Whose rows they are -/

section Rows

variable {db after : SocialDatabase} {sessionId : Uuid} {p : ParticipantId} {now : Timestamp}

/-- An open row of the connection with the account. -/
def OpenRowOf (db : SocialDatabase) (id : Uuid) (p : ParticipantId) (userId : Option Uuid) :
    Prop :=
  RowWith db id fun row => (row.participantId = p ∧ row.leftAt = none) ∧ row.userId = userId

theorem OpenRowOf.openRow {id : Uuid} {userId : Option Uuid} (h : OpenRowOf db id p userId) :
    OpenRow db id p := by
  obtain ⟨meeting, hmeeting, rowId, row, hrow, hopen, -⟩ := h
  exact ⟨meeting, hmeeting, rowId, row, hrow, hopen⟩

theorem OpenRow.rowOf {id : Uuid} (h : OpenRow db id p) : ∃ userId, OpenRowOf db id p userId := by
  obtain ⟨meeting, hmeeting, rowId, row, hrow, hopen⟩ := h
  exact ⟨row.userId, meeting, hmeeting, rowId, row, hrow, hopen, rfl⟩

theorem roomHasOthers_iff {room : RoomId} {userId : Uuid} :
    roomHasOthers db room userId = true ↔
      ∃ id p account, OpenSession db id room ∧ OpenRowOf db id p account ∧
        account ≠ some userId := by
  simp only [roomHasOthers, List.any_eq_true, Bool.and_eq_true, decide_eq_true_eq,
    Option.isNone_iff_eq_none]
  constructor
  · rintro ⟨⟨id, meeting⟩, hmeeting, ⟨hroom, hlive⟩, ⟨rowId, row⟩, hrow, hopen, hother⟩
    have hmeeting := AList.mem_lookup_iff.mpr hmeeting
    have hrow := AList.mem_lookup_iff.mpr hrow
    exact ⟨id, row.participantId, row.userId, ⟨meeting, hmeeting, hroom, hlive⟩,
      ⟨meeting, hmeeting, rowId, row, hrow, ⟨rfl, hopen⟩, rfl⟩, hother⟩
  · rintro ⟨id, p, account, ⟨meeting, hmeeting, hroom, hlive⟩,
      ⟨meeting', hmeeting', rowId, row, hrow, ⟨-, hopen⟩, rfl⟩, hother⟩
    cases hmeeting.symm.trans hmeeting'
    exact ⟨⟨id, meeting⟩, AList.mem_lookup_iff.mp hmeeting, ⟨hroom, hlive⟩, ⟨rowId, row⟩,
      AList.mem_lookup_iff.mp hrow, hopen, hother⟩

/-- A row that is open after somebody has left was so before. -/
theorem leaveParticipant_openRowOf (h : leaveParticipant db sessionId p now = some after)
    {id : Uuid} {q : ParticipantId} {userId : Option Uuid} (hrow : OpenRowOf after id q userId) :
    OpenRowOf db id q userId := by
  unfold leaveParticipant at h
  dsimp only at h
  split at h <;> cases h
  obtain ⟨meeting, hmeeting, rowId, row, hlookup, ⟨hq, hopen⟩, huser⟩ := hrow
  simp only [modifyMeeting, Map.lookup_modify] at hmeeting
  split at hmeeting
  · subst id
    obtain ⟨before, hbefore, rfl⟩ := Option.map_eq_some_iff.mp hmeeting
    simp only [Map.lookup_mapValues] at hlookup
    obtain ⟨old, hold, rfl⟩ := Option.map_eq_some_iff.mp hlookup
    split at hopen
    · cases hopen
    · rename_i hkept
      rw [if_neg hkept] at hq huser
      exact ⟨before, hbefore, rowId, old, hold, ⟨hq, hopen⟩, huser⟩
  · exact ⟨meeting, hmeeting, rowId, row, hlookup, ⟨hq, hopen⟩, huser⟩

variable {s t : RecorderRun} {fails : RecorderQuery → Bool}

/-- An open row was open before the event, or is the one a join has added. -/
theorem openRowOf_record (hs : Tracked s) {event : SignalingServer.MeetingEvent} {rowId : Uuid}
    (h : LiveMeetings.step s (.handle fails (recorderEvent sessionId rowId now event)) = some t)
    (hfailed : t.failed = false) {id : Uuid} {q : ParticipantId} {userId : Option Uuid}
    (hrow : OpenRowOf t.recorder.db id q userId) :
    OpenRowOf s.recorder.db id q userId ∨
      ∃ roomId name, event = .joined roomId q userId name := by
  unfold LiveMeetings.step at h
  dsimp only at h
  split at h
  · rename_i hfresh
    cases h
    have hok : recordOk fails s.recorder (recorderEvent sessionId rowId now event) = true := by
      have hlast := (Bool.or_eq_false_iff.mp hfailed).2
      simpa using hlast
    cases event with
    | joined roomId p account name =>
      obtain ⟨hnew, hids⟩ := isFresh_joined hfresh
      have hmove := @recordJoin_move s.recorder fails hs.occupied sessionId rowId roomId p account
        name now
      change OpenRowOf (recordJoin fails s.recorder sessionId rowId roomId p account name now).db
        id q userId at hrow
      change recordOk fails s.recorder (.joined sessionId rowId roomId p account name now) = true
        at hok
      rw [hok] at hmove
      generalize recordJoin fails s.recorder sessionId rowId roomId p account name now = recorded
        at hmove hrow
      have hadded : OpenRowOf s.recorder.db id q userId ∨ (p = q ∧ account = userId) := by
        cases hmove with
        | started hlive hconnection hclosed hopened hinserted =>
          have hclosed := query_some hclosed
          rcases (started_rowWith hclosed hopened hinserted id _).mp hrow with hold | ⟨-, hnew⟩
          · exact .inl hold
          · exact .inr ⟨hnew.1.1, hnew.2⟩
        | added hlive hinserted =>
          rcases (hs.added_rowWith hnew hids hinserted id _).mp hrow with hold | ⟨-, hnew⟩
          · exact .inl hold
          · exact .inr ⟨hnew.1.1, hnew.2⟩
      refine hadded.imp_right ?_
      rintro ⟨rfl, rfl⟩
      exact ⟨roomId, name, rfl⟩
    | left p =>
      have hmove := @Tracked.recordLeave_move s fails hs p now
      change OpenRowOf (recordLeave fails s.recorder p now).1.db id q userId at hrow
      generalize (recordLeave fails s.recorder p now).1 = recorded at hmove hrow
      generalize recordOk fails s.recorder (.left p now) = ok at hmove
      refine .inl ?_
      cases hmove with
      | unknown => exact hrow
      | left hroom hmeeting hwrite =>
        cases hwrite with
        | nothing => exact hrow
        | row hok hleft => exact leaveParticipant_openRowOf hleft hrow
        | session hended hconnection hleft hafter =>
          have hsame := (endSession_sameRows (query_some hafter)).rowWith id
          exact leaveParticipant_openRowOf (query_some hleft) ((hsame _).mp hrow)
  · cases h

end Rows

/-! ## Accounts over a run -/

theorem joined_of_reported {events : List SignalingServer.MeetingEvent} {p : ParticipantId}
    {room : RoomId} (h : (reported events).lookup p = some room) :
    ∃ userId name, .joined room p userId name ∈ events := by
  induction events using List.reverseRecOn with
  | nil => cases h
  | append_singleton events event ih =>
    have hearlier (hold : (reported events).lookup p = some room) :
        ∃ userId name, .joined room p userId name ∈ events ++ [event] := by
      obtain ⟨userId, name, hmem⟩ := ih hold
      exact ⟨userId, name, List.mem_append_left _ hmem⟩
    cases event with
    | joined roomId q userId name =>
      rw [reported_joined] at h
      by_cases hp : p = q
      · subst hp
        rw [AList.lookup_insert] at h
        cases h
        exact ⟨userId, name, List.mem_append_right _ (List.mem_singleton_self _)⟩
      · rw [AList.lookup_insert_ne hp] at h
        exact hearlier h
    | left q =>
      rw [reported_left] at h
      by_cases hp : p = q
      · rw [hp, AList.lookup_erase] at h
        cases h
      · rw [AList.lookup_erase_ne hp] at h
        exact hearlier h

/-- Joins are reported with the account of their connection, and open rows keep it. -/
structure Identified (s : Recording) : Prop extends Kept s where
  joined : ∀ room p userId name, .joined room p userId name ∈ s.server.meetingEvents →
    userId = (s.server.identity p).userId ∧ s.server.currentRoomId p ≠ none
  rows : s.run.failed = false → ∀ id p userId, OpenRowOf s.run.recorder.db id p userId →
    userId = (s.server.identity p).userId

section Steps

variable {env : SignalingServer.Environment} {s t : Recording}

/-- The account of a connection that has joined a room is settled. -/
theorem identity_stays {server after : Server} {action : SignalingSteps.Action}
    (w : Consistent server) (h : Transition env server action after) {p : ParticipantId}
    (hroom : server.currentRoomId p ≠ none) : after.identity p = server.identity p := by
  cases h with
  | connect q identity hsocket =>
    by_cases hp : p = q
    · subst hp
      exact absurd (w.unopened_idle p hsocket).2 hroom
    · simp [hp]
  | _ => rfl

theorem currentRoomId_ne_none {server after : Server} {action : SignalingSteps.Action}
    (w : Consistent server) (h : Transition env server action after) {p : ParticipantId}
    (hroom : server.currentRoomId p ≠ none) : after.currentRoomId p ≠ none := by
  obtain ⟨roomId, hroom⟩ := Option.ne_none_iff_exists'.mp hroom
  rw [currentRoomId_stays w h hroom]
  exact Option.some_ne_none _

/-- As long as no query has failed, an open row is there for a join in the queue. -/
theorem joined_of_openRow (hs : Kept s) (hfailed : s.run.failed = false) {id : Uuid}
    {p : ParticipantId} (hrow : OpenRow s.run.recorder.db id p) :
    ∃ room userId name, .joined room p userId name ∈ s.server.meetingEvents := by
  obtain ⟨room, meeting, hmeeting, -, hp⟩ := (hs.tracked.rows hfailed id p).mp hrow
  have hlookup := (hs.tracked.indexed p room).mpr ⟨meeting, hmeeting, hp⟩
  rw [hs.known hfailed] at hlookup
  obtain ⟨userId, name, hmem⟩ := joined_of_reported hlookup
  exact ⟨room, userId, name, List.mem_of_mem_take hmem⟩

theorem joined_signal (hs : Identified s) {server : Server} {action : SignalingSteps.Action}
    (h : Transition env s.server action server) (room : RoomId) (p : ParticipantId)
    (userId : Option Uuid) (name : String)
    (hmem : .joined room p userId name ∈ server.meetingEvents) :
    userId = (server.identity p).userId ∧ server.currentRoomId p ≠ none := by
  have hearlier (hold : .joined room p userId name ∈ s.server.meetingEvents) :
      userId = (server.identity p).userId ∧ server.currentRoomId p ≠ none := by
    obtain ⟨huser, hroom⟩ := hs.joined room p userId name hold
    rw [identity_stays hs.consistent h hroom]
    exact ⟨huser, currentRoomId_ne_none hs.consistent h hroom⟩
  rcases meetingEvents_cases h with ⟨hsame, -⟩ | ⟨q, -, hleft, -⟩ |
    ⟨q, req, ref, existing, history, htask, hadd, -, hjoined⟩
  · exact hearlier (hsame ▸ hmem)
  · rw [hleft, List.mem_append] at hmem
    rcases hmem with hold | hlast
    · exact hearlier hold
    · cases List.mem_singleton.mp hlast
  · rw [hjoined, List.mem_append] at hmem
    rcases hmem with hold | hlast
    · exact hearlier hold
    · cases List.mem_singleton.mp hlast
      simp [hadd]

theorem identified_elsewhere (hs : Identified s) {db : SocialDatabase} {run : RecorderRun}
    (h : LiveMeetings.step s.run (.elsewhere db) = some run) :
    Identified { s with run := run } := by
  have hkept := kept_elsewhere hs.toKept h
  cases h
  exact { hkept with joined := hs.joined, rows := hs.rows }

theorem identified_step (hs : Identified s) {action : Action} (h : step env s action = some t) :
    Identified t := by
  have hkept := kept_step hs.toKept h
  cases action with
  | signal action =>
    obtain ⟨server, hserver, rfl⟩ := Option.map_eq_some_iff.mp h
    have htransition := step_transition hserver
    refine
      { hkept with
        joined := joined_signal hs htransition, rows := fun hfailed id p userId hrow => ?_ }
    obtain ⟨room, account, name, hmem⟩ := joined_of_openRow hs.toKept hfailed hrow.openRow
    have hroom := (hs.joined room p account name hmem).2
    rw [identity_stays hs.consistent htransition hroom]
    exact hs.rows hfailed id p userId hrow
  | record fails sessionId rowId now =>
    simp only [RecordedPresence.step] at h
    split at h
    · cases h
    · rename_i event hevent
      obtain ⟨run, hrun, rfl⟩ := Option.map_eq_some_iff.mp h
      refine { hkept with joined := hs.joined, rows := fun hfailed id p userId hrow => ?_ }
      have hbefore := failed_record hrun hfailed
      rcases openRowOf_record hs.tracked hrun hfailed hrow with hold | ⟨roomId, name, rfl⟩
      · exact hs.rows hbefore id p userId hold
      · exact (hs.joined roomId p userId name (List.mem_of_getElem? hevent)).1
  | cancel userId callId =>
    simp only [RecordedPresence.step] at h
    obtain ⟨run, hrun, rfl⟩ := Option.map_eq_some_iff.mp h
    exact identified_elsewhere hs hrun
  | elsewhere db =>
    simp only [RecordedPresence.step] at h
    obtain ⟨run, hrun, rfl⟩ := Option.map_eq_some_iff.mp h
    exact identified_elsewhere hs hrun
  | restart fails now =>
    simp only [RecordedPresence.step] at h
    obtain ⟨run, hrun, rfl⟩ := Option.map_eq_some_iff.mp h
    refine { hkept with joined := ?_, rows := fun hfailed id p userId hrow => ?_ }
    · intro room p account name h
      cases h
    · obtain ⟨room, account, name, hmem⟩ := joined_of_openRow hkept hfailed hrow.openRow
      cases hmem

end Steps

theorem identified_always (env : SignalingServer.Environment) (db : SocialDatabase)
    (actions : List Action) :
    (system env db).Always Identified (system env db).init actions :=
  System.always_of_invariant (M := system env db) (I := Identified)
    (fun _ _ _ hs h => identified_step hs h)
    { kept_init env db with
      joined := nofun
      rows := fun _ _ _ _ hrow => by
        obtain ⟨meeting, hmeeting, -⟩ := hrow
        cases hmeeting }
    actions

/-! ## What the rows show -/

/-- As long as no query has failed, the rows show somebody else exactly when the recorder has
handled somebody else's join. -/
theorem Identified.roomHasOthers_iff {s : Recording} (hs : Identified s)
    (hfailed : s.run.failed = false) {room : RoomId} {userId : Uuid} :
    roomHasOthers s.run.recorder.db room userId = true ↔ OthersHandled s userId room := by
  rw [CallCancellation.roomHasOthers_iff]
  constructor
  · rintro ⟨id, p, account, hsession, hrow, hother⟩
    have hlookup := hs.toKept.reported_of_openRow hfailed hsession hrow.openRow
    rw [hs.rows hfailed id p account hrow] at hother
    exact ⟨p, AList.mem_keys.mp (AList.lookup_isSome.mp (Option.isSome_of_eq_some hlookup)),
      hlookup, hother⟩
  · rintro ⟨p, -, hlookup, hother⟩
    rw [← hs.known hfailed] at hlookup
    obtain ⟨meeting, hmeeting, hp⟩ := (hs.tracked.indexed p room).mp hlookup
    have hsession := hs.tracked.opened room meeting hmeeting
    have hopen := (hs.tracked.rows hfailed meeting.sessionId p).mpr
      ⟨room, meeting, hmeeting, rfl, hp⟩
    obtain ⟨account, hrow⟩ := OpenRow.rowOf hopen
    refine ⟨meeting.sessionId, p, account, hsession, hrow, ?_⟩
    rwa [hs.rows hfailed _ p account hrow]

theorem endsOnlyEmpty_of_recorded {s : Recording} (hs : Identified s) {action : Action}
    (hrecorded : OthersRecorded s action) : EndsOnlyEmpty s action := by
  cases action with
  | cancel userId callId =>
    intro call hcall hends hothers
    obtain ⟨hcancellable, hnobody⟩ := (ends_iff hcall).mp hends
    obtain ⟨hfailed, hhandled⟩ := hrecorded call hcall hcancellable hothers
    rw [(hs.roomHasOthers_iff hfailed).mpr hhandled] at hnobody
    cases hnobody
  | _ => trivial

theorem recorded_of_endsOnlyEmpty {s : Recording} (hs : Identified s)
    (hfailed : s.run.failed = false) {action : Action} (hends : EndsOnlyEmpty s action) :
    OthersRecorded s action := by
  cases action with
  | cancel userId callId =>
    intro call hcall hcancellable hothers
    refine ⟨hfailed, (hs.roomHasOthers_iff hfailed).mp ?_⟩
    by_contra hnobody
    refine hends call hcall ((ends_iff hcall).mpr ⟨hcancellable, ?_⟩) hothers
    simpa using hnobody
  | _ => trivial

/-- In every run, no cancellation ends a call with somebody else in its room, as long as at each
one made with somebody else there the recorder has failed nowhere and has handled a join of
somebody else; as long as no query of the recorder fails, only then. -/
theorem cancellations_endEmpty (env : SignalingServer.Environment) (db : SocialDatabase)
    (actions : List Action) :
    let M := system env db
    (M.Guarded OthersRecorded M.init actions → M.Guarded EndsOnlyEmpty M.init actions) ∧
    (M.Always (fun s => s.run.failed = false) M.init actions →
      (M.Guarded EndsOnlyEmpty M.init actions ↔ M.Guarded OthersRecorded M.init actions)) := by
  intro M
  have hidentified := identified_always env db actions
  have henough : M.Guarded OthersRecorded M.init actions →
      M.Guarded EndsOnlyEmpty M.init actions :=
    System.guarded_of_always (fun s action hs => endsOnlyEmpty_of_recorded hs) hidentified
  refine ⟨henough, fun hfailed => ⟨fun hends => ?_, henough⟩⟩
  have hboth : M.Guarded (fun s action => s.run.failed = false ∧ EndsOnlyEmpty s action)
      M.init actions :=
    System.guarded_of_always (fun s action hs h => ⟨hs, h⟩) hfailed hends
  exact System.guarded_of_always
    (fun s action hs h => recorded_of_endsOnlyEmpty hs h.1 h.2) hidentified hboth

instance (s : Recording) : (action : Action) → Decidable (OthersRecorded s action)
  | .cancel _ _ => Option.decidableForallMem _
  | .signal _ => isTrue trivial
  | .record _ _ _ _ => isTrue trivial
  | .elsewhere _ => isTrue trivial
  | .restart _ _ => isTrue trivial

/-- Ada's call of a group with Bob, which he has accepted. -/
def adaCallsBob : CallSession where
  conversationId := 10
  initiatorId := 1
  sfuRoomId := "room"
  status := .active
  expiresAt := 3600000000
  members := (∅ : Map Uuid RequestStatus).insert 1 .accepted |>.insert 2 .accepted
  readBy := ∅

def ringing (accounts : Accounts.Database) : SocialDatabase :=
  { emptyDatabase accounts with calls := (∅ : Map Uuid CallSession).insert 50 adaCallsBob }

/-- Ada cancels when the recorder has come to Bob's join, and the call goes on. -/
theorem cancelAfterRecord_endsEmpty : ∃ accounts ∈ adaAndBob,
    (system ⟨(· = "room"), Char.isAlphanum⟩ (ringing accounts)).Guarded EndsOnlyEmpty
      (system ⟨(· = "room"), Char.isAlphanum⟩ (ringing accounts)).init
      (bobJoins ++ [.record (fun _ => false) 10 11 5, .cancel 1 50]) := by
  obtain ⟨accounts, haccounts, hguarded⟩ : ∃ accounts ∈ adaAndBob,
      (system ⟨(· = "room"), Char.isAlphanum⟩ (ringing accounts)).Guarded OthersRecorded
        (system ⟨(· = "room"), Char.isAlphanum⟩ (ringing accounts)).init
        (bobJoins ++ [.record (fun _ => false) 10 11 5, .cancel 1 50]) := by
    decide +kernel
  exact ⟨accounts, haccounts, (cancellations_endEmpty _ (ringing accounts) _).1 hguarded⟩

/-- Ada cancels before, and the call ends with Bob in it. -/
theorem cancelBeforeRecord_endsOccupied : ∃ accounts ∈ adaAndBob,
    ∃ s ∈ (system ⟨(· = "room"), Char.isAlphanum⟩ (ringing accounts)).run bobJoins,
      s.run.failed = false ∧ ¬ EndsOnlyEmpty s (.cancel 1 50) := by
  obtain ⟨accounts, haccounts, s, hs, hfailed, call, hcall, hcancellable, hnobody, hothers⟩ :
      ∃ accounts ∈ adaAndBob,
      ∃ s ∈ (system ⟨(· = "room"), Char.isAlphanum⟩ (ringing accounts)).run bobJoins,
        s.run.failed = false ∧ ∃ call ∈ s.run.recorder.db.calls.lookup 50,
          IsCancellable 1 call ∧ roomHasOthers s.run.recorder.db call.sfuRoomId 1 = false ∧
          OthersPresent s 1 call.sfuRoomId := by
    decide +kernel
  exact ⟨accounts, haccounts, s, hs, hfailed, fun hempty =>
    hempty call hcall ((ends_iff hcall).mpr ⟨hcancellable, hnobody⟩) hothers⟩

end OpenMeet.CallCancellation
