import OpenMeet.LiveMeetings
import OpenMeet.MeetingSessions
import OpenMeet.SocialRequests

/-!
Whether an ended meeting still has somebody in it. A leave changes the memory
before the database, so a row whose update failed stays open, and a later event
of somebody else ends the session around it. The live state behind a chat link
then counts people in a meeting that has ended.
-/
namespace OpenMeet.EndedMeetings

open KeyedMap Messages Accounts SocialTables SocialRequests MeetingSessions MeetingRecorder
open LiveMeetings TransitionSystem

/-! ## The live state of a room -/

inductive RoomStatus
  | live
  | ended
  deriving DecidableEq, Repr

structure RoomSummaryResponse where
  status : RoomStatus
  startedAt : Timestamp
  endedAt : Option Timestamp
  participantCount : Nat
  liveParticipantCount : Nat
  deriving DecidableEq, Repr

def isValidRoomId (roomId : String) : Bool :=
  !roomId.isEmpty && roomId.utf8ByteSize ≤ 128 &&
    roomId.toList.all fun c => c.isAlphanum || c = '-' || c = '_'

def meetingNotFound : ApiError := ⟨404, "Meeting not found"⟩

def latestSession (db : SocialDatabase) (room : RoomId) : Option (Uuid × MeetingSession) :=
  (orderByDesc (·.2.startedAt)
    ((db.meetings.entries.map fun row => (row.1, row.2)).filter (·.2.sfuRoomId = room))).head?

/-- Conversation calls are linked by call session id, which maps to a separate room id. -/
def findSession (parseUuid : String → Option Uuid) (db : SocialDatabase) (roomRef : String) :
    Option (Uuid × MeetingSession) :=
  match latestSession db roomRef with
  | some session => some session
  | none =>
    ((parseUuid roomRef).bind db.calls.lookup).bind fun call => latestSession db call.sfuRoomId

def getRoomSummary (parseUuid : String → Option Uuid) (env : Environment) (db : SocialDatabase)
    (roomRef : String) : Except ApiError RoomSummaryResponse :=
  if !isValidRoomId roomRef then .error ⟨400, "Invalid room ID"⟩
  else
    match findSession parseUuid db roomRef with
    | none => .error meetingNotFound
    | some session =>
      let people := groupPeople env (loadConnections db [session.1]) none
      .ok
        { status := if session.2.endedAt.isSome then .ended else .live
          startedAt := session.2.startedAt
          endedAt := session.2.endedAt
          participantCount := people.length
          liveParticipantCount := (people.filter (·.leftAt.isNone)).length }

/-- A session with an open row has not ended. -/
def EndedEmpty (db : SocialDatabase) : Prop :=
  ∀ id p, OpenRow db id p → ∃ room, OpenSession db id room

/-- No room is shown as ended with people in it. -/
def SummariesAgree (db : SocialDatabase) : Prop :=
  ∀ parseUuid env roomRef summary, getRoomSummary parseUuid env db roomRef = .ok summary →
    summary.status = .ended → summary.liveParticipantCount = 0

section Summary

variable {env : Environment} {db : SocialDatabase}

theorem addConnection_left {viewerId : Option Uuid} {people : List (PersonKey × MeetingPerson)}
    {connection : Connection} (hpeople : ∀ person ∈ people, person.2.leftAt ≠ none)
    (hconnection : connection.leftAt ≠ none) :
    ∀ person ∈ addConnection env viewerId people connection, person.2.leftAt ≠ none := by
  intro person hperson
  unfold addConnection at hperson
  dsimp only at hperson
  split at hperson
  · obtain ⟨before, hbefore, rfl⟩ := List.mem_map.mp hperson
    have hleft := hpeople before hbefore
    split
    · obtain ⟨previous, hprevious⟩ := Option.ne_none_iff_exists'.mp hleft
      obtain ⟨current, hcurrent⟩ := Option.ne_none_iff_exists'.mp hconnection
      simp [latestLeft, hprevious, hcurrent]
    · exact hleft
  · rcases List.mem_append.mp hperson with hold | hnew
    · exact hpeople person hold
    · rw [List.mem_singleton.mp hnew]
      exact hconnection

/-- People whose connections have all been closed have left. -/
theorem groupPeople_left {connections : List Connection} {viewerId : Option Uuid}
    (hleft : ∀ connection ∈ connections, connection.leftAt ≠ none) :
    ∀ person ∈ groupPeople env connections viewerId, person.leftAt ≠ none := by
  have hfold : ∀ people : List (PersonKey × MeetingPerson),
      (∀ person ∈ people, person.2.leftAt ≠ none) →
      ∀ person ∈ connections.foldl (addConnection env viewerId) people,
        person.2.leftAt ≠ none := by
    induction connections with
    | nil => exact fun _ h => h
    | cons first rest ih =>
      intro people hpeople
      refine ih (fun connection hmem => hleft connection (List.mem_cons_of_mem _ hmem)) _ ?_
      exact addConnection_left hpeople (hleft first List.mem_cons_self)
  intro person hperson
  obtain ⟨row, hrow, rfl⟩ := List.mem_map.mp hperson
  exact hfold [] (by simp) row hrow

/-- The connections of a session are its rows. -/
theorem loadConnections_left {id : Uuid} (hclosed : ∀ p, ¬ OpenRow db id p) :
    ∀ connection ∈ loadConnections db [id], connection.leftAt ≠ none := by
  intro connection hconnection
  unfold loadConnections at hconnection
  have hmem := (List.mem_insertionSort _).mp (List.mem_of_mem_take hconnection)
  obtain ⟨⟨id', meeting⟩, hmeeting, hrow⟩ := List.mem_flatMap.mp hmem
  obtain ⟨⟨rowId, row⟩, hrowmem, rfl⟩ := List.mem_map.mp hrow
  simp only [List.mem_singleton, List.mem_filter, decide_eq_true_eq] at hmeeting
  obtain ⟨hmeeting, rfl⟩ := hmeeting
  intro hopen
  exact hclosed row.participantId ⟨meeting, AList.mem_lookup_iff.mpr hmeeting, rowId, row,
    AList.mem_lookup_iff.mpr hrowmem, rfl, hopen⟩

theorem latestSession_mem {room : RoomId} {session : Uuid × MeetingSession}
    (h : latestSession db room = some session) :
    db.meetings.lookup session.1 = some session.2 := by
  have hmem := (orderByDesc_perm _ _).mem_iff.mp (List.mem_of_head? h)
  obtain ⟨row, hrow, rfl⟩ := List.mem_map.mp (List.mem_filter.mp hmem).1
  exact AList.mem_lookup_iff.mpr hrow

theorem findSession_mem {parseUuid : String → Option Uuid} {roomRef : String}
    {session : Uuid × MeetingSession} (h : findSession parseUuid db roomRef = some session) :
    db.meetings.lookup session.1 = some session.2 := by
  unfold findSession at h
  split at h
  · rename_i hlatest
    cases h
    exact latestSession_mem hlatest
  · obtain ⟨call, -, hlatest⟩ := Option.bind_eq_some_iff.mp h
    exact latestSession_mem hlatest

theorem summariesAgree_of_endedEmpty (h : EndedEmpty db) : SummariesAgree db := by
  intro parseUuid env roomRef summary hsummary hended
  unfold getRoomSummary at hsummary
  split at hsummary
  · cases hsummary
  · split at hsummary
    · cases hsummary
    · rename_i session hsession
      cases hsummary
      dsimp only at hended ⊢
      split at hended
      · rename_i hsome
        have hclosed : ∀ p, ¬ OpenRow db session.1 p := by
          intro p hopen
          obtain ⟨room, meeting, hmeeting, -, hperiod⟩ := h session.1 p hopen
          cases hmeeting.symm.trans (findSession_mem hsession)
          simp [hperiod] at hsome
        rw [List.length_eq_zero_iff, List.filter_eq_nil_iff]
        intro person hperson hnone
        exact groupPeople_left (loadConnections_left hclosed) person hperson
          (Option.isNone_iff_eq_none.mp hnone)
      · cases hended

end Summary

/-! ## Which events end a meeting with somebody in it -/

/-- A join that closes the session an earlier failure left open, while a row of it is open too. -/
def ReplacesOccupied (fails : RecorderQuery → Bool) (s : Recorder) (room : RoomId)
    (now : Timestamp) : Prop :=
  s.live.rooms.lookup room = none ∧ fails .connection = false ∧
    query fails .closeOpenSession (closeOpenSession s.db room now) ≠ none ∧
    ∃ id p, OpenSession s.db id room ∧ OpenRow s.db id p

/-- The last leave of a meeting, when an earlier leave of somebody else has left a row open. -/
def EndsOccupied (fails : RecorderQuery → Bool) (s : Recorder) (p : ParticipantId)
    (now : Timestamp) : Prop :=
  ∃ room meeting left, s.live.participantRooms.lookup p = some room ∧
    s.live.rooms.lookup room = some meeting ∧ meeting.participantIds.erase p = ∅ ∧
    fails .connection = false ∧
    query fails .leaveParticipant (leaveParticipant s.db meeting.sessionId p now) = some left ∧
    query fails .endSession (endSession left meeting.sessionId now) ≠ none ∧
    ∃ q ≠ p, OpenRow s.db meeting.sessionId q

/-- No open row is in a session that the event ends, its own connection's apart. -/
def EndsEmptyOnly (s : RecorderRun) : RecorderAction → Prop
  | .handle fails (.joined sessionId rowId room p userId displayName now) =>
    isFresh s (.joined sessionId rowId room p userId displayName now) = true →
      ¬ ReplacesOccupied fails s.recorder room now
  | .handle fails (.left p now) => ¬ EndsOccupied fails s.recorder p now
  | _ => True

section Steps

variable {s : RecorderRun} {fails : RecorderQuery → Bool} {now : Timestamp} {t : Recorder}
  {ok : Bool}

/-- Closing the room's session keeps ended sessions empty exactly when it had no open row. -/
theorem endedEmpty_replaced_iff {db after : SocialDatabase} {room : RoomId}
    (hP : EndedEmpty db)
    (hsessions : ∀ id q, OpenRow db id q → ∀ r,
      OpenSession after id r ↔ OpenSession db id r ∧ r ≠ room)
    (hrows : ∀ id q, OpenRow db id q → OpenRow after id q)
    (hback : ∀ id q, OpenRow after id q → OpenRow db id q ∨ ∃ r, OpenSession after id r) :
    EndedEmpty after ↔ ¬ ∃ id q, OpenSession db id room ∧ OpenRow db id q := by
  constructor
  · rintro h ⟨id, q, hopen, hrow⟩
    obtain ⟨r, hr⟩ := h id q (hrows id q hrow)
    obtain ⟨hold, hne⟩ := (hsessions id q hrow r).mp hr
    exact hne (OpenSession.room_unique hold hopen)
  · intro hnone id q hrow
    rcases hback id q hrow with hold | hopen
    · obtain ⟨r, hr⟩ := hP id q hold
      refine ⟨r, (hsessions id q hold r).mpr ⟨hr, ?_⟩⟩
      rintro rfl
      exact hnone ⟨id, q, hr, hold⟩
    · exact hopen

section Join

variable {sessionId rowId : Uuid} {room : RoomId} {participant : MeetingParticipant}

theorem replacesOccupied_iff {closed : SocialDatabase}
    (hlive : s.recorder.live.rooms.lookup room = none) (hconnection : fails .connection = false)
    (hquery : query fails .closeOpenSession (closeOpenSession s.recorder.db room now) =
      some closed) :
    ReplacesOccupied fails s.recorder room now ↔
      ∃ id p, OpenSession s.recorder.db id room ∧ OpenRow s.recorder.db id p := by
  simp [ReplacesOccupied, hlive, hconnection, hquery]

/-- The new session has no rows of its own, so those with open rows are the old ones. -/
theorem openSession_of_openRow {db closed opened : SocialDatabase}
    (hclosed : closeOpenSession db room now = some closed)
    (hopened : insertSession closed sessionId room now = some opened) {id : Uuid}
    {q : ParticipantId} (hrow : OpenRow db id q) :
    id ≠ sessionId ∧ ∀ r, OpenSession opened id r ↔ OpenSession db id r ∧ r ≠ room := by
  have hne : id ≠ sessionId := by
    rintro rfl
    exact insertSession_empty hopened _ ((hasRow_replaced hclosed hopened id _).mpr hrow)
  refine ⟨hne, fun r => ?_⟩
  rw [openSession_replaced hclosed hopened]
  simp [hne]

theorem join_keeps_iff (hs : Tracked s) (hP : EndedEmpty s.recorder.db)
    (hnew : participant.participantId ∉ s.joined)
    (hrow : ∀ id meeting, s.recorder.db.meetings.lookup id = some meeting →
      rowId ∉ meeting.participants)
    (hmove : JoinMove fails s.recorder sessionId rowId room participant now t ok) :
    EndedEmpty t.db ↔ ¬ ReplacesOccupied fails s.recorder room now := by
  cases hmove with
  | skipped hskipped =>
    refine iff_of_true hP ?_
    rintro ⟨hlive, hconnection, hquery, -⟩
    rcases hskipped with h | h | h
    · exact h hlive
    · simp [hconnection] at h
    · exact hquery h
  | closed hlive hconnection hquery =>
    have hclosed := query_some hquery
    rw [replacesOccupied_iff hlive hconnection hquery]
    have hsame := (closeOpenSession_sameRows hclosed).rowWith
    exact endedEmpty_replaced_iff hP (fun id q _ r => closeOpenSession_openSession hclosed id r)
      (fun id q => (hsame id _).mpr) (fun id q h => .inl ((hsame id _).mp h))
  | abandoned hlive hconnection hquery hopened =>
    have hclosed := query_some hquery
    rw [replacesOccupied_iff hlive hconnection hquery]
    have hsame := hasRow_replaced hclosed hopened
    exact endedEmpty_replaced_iff hP
      (fun id q h => (openSession_of_openRow hclosed hopened h).2)
      (fun id q => (hsame id _).mpr) (fun id q h => .inl ((hsame id _).mp h))
  | undone hlive hconnection hquery hopened hended =>
    have hclosed := query_some hquery
    rw [replacesOccupied_iff hlive hconnection hquery]
    have hsame : ∀ id P, RowWith _ id P ↔ RowWith s.recorder.db id P := fun id P =>
      ((endSession_sameRows hended).rowWith id P).trans (hasRow_replaced hclosed hopened id P)
    refine endedEmpty_replaced_iff hP ?_ (fun id q => (hsame id _).mpr)
      (fun id q h => .inl ((hsame id _).mp h))
    intro id q h r
    obtain ⟨hne, hsessions⟩ := openSession_of_openRow hclosed hopened h
    rw [endSession_openSession hended, hsessions, and_iff_left hne]
  | @started closed opened db rooms hlive hconnection hquery hopened hinserted =>
    have hclosed := query_some hquery
    rw [replacesOccupied_iff hlive hconnection hquery]
    have hsessions := (insertParticipant_sameSessions hinserted).openSession
    have hrows := started_rowWith hclosed hopened hinserted
    refine endedEmpty_replaced_iff hP ?_ (fun id q h => (hrows id _).mpr (.inl h)) ?_
    · intro id q h r
      rw [hsessions, (openSession_of_openRow hclosed hopened h).2]
    · intro id q h
      rcases (hrows id _).mp h with hold | ⟨rfl, -⟩
      · exact .inl hold
      · exact .inr ⟨room, (hsessions id room).mpr
          ((openSession_replaced hclosed hopened id room).mpr (.inr ⟨rfl, rfl⟩))⟩
  | @added meeting db rooms hlive hinserted =>
    have hsessions := (insertParticipant_sameSessions hinserted).openSession
    have hrows := hs.added_rowWith hnew hrow hinserted
    refine iff_of_true ?_ fun hreplaces => ?_
    · intro id q h
      rcases (hrows id _).mp h with hold | ⟨rfl, -⟩
      · obtain ⟨r, hr⟩ := hP id q hold
        exact ⟨r, (hsessions id r).mpr hr⟩
      · exact ⟨room, (hsessions _ room).mpr (hs.opened room meeting hlive)⟩
    · have hnone := hreplaces.1
      simp [hlive] at hnone

end Join

theorem leave_keeps_iff (hP : EndedEmpty s.recorder.db) {p : ParticipantId}
    (hmove : LeaveMove fails s.recorder now p t ok) :
    EndedEmpty t.db ↔ ¬ EndsOccupied fails s.recorder p now := by
  cases hmove with
  | unknown hunknown =>
    refine iff_of_true hP ?_
    rintro ⟨room, meeting, left, hroom, -⟩
    simp [hunknown] at hroom
  | @left room meeting db ok rooms hroom hmeeting hwrite hrooms =>
    have hsame : ∀ room' meeting', s.recorder.live.participantRooms.lookup p = some room' →
        s.recorder.live.rooms.lookup room' = some meeting' → meeting' = meeting := by
      intro room' meeting' hroom' hmeeting'
      cases hroom'.symm.trans hroom
      exact Option.some.inj (hmeeting'.symm.trans hmeeting)
    cases hwrite with
    | nothing hnothing =>
      refine iff_of_true hP ?_
      rintro ⟨room', meeting', left, hroom', hmeeting', -, hconnection, hleft, -⟩
      cases hsame room' meeting' hroom' hmeeting'
      rcases hnothing with h | h
      · simp [hconnection] at h
      · simp [h] at hleft
    | row hok hleft hstill =>
      refine iff_of_true ?_ ?_
      · intro id q h
        obtain ⟨r, hr⟩ := hP id q ((leaveParticipant_openRow hleft id q).mp h).1
        exact ⟨r, ((leaveParticipant_sameSessions hleft).openSession id r).mpr hr⟩
      · rintro ⟨room', meeting', left, hroom', hmeeting', hempty, -, hleave, hend, -⟩
        cases hsame room' meeting' hroom' hmeeting'
        cases (query_some hleave).symm.trans hleft
        exact hend (hstill (by simpa using hempty))
    | @session left db hended hconnection hleave hend ok =>
      have hleft := query_some hleave
      have hafter := query_some hend
      have hrows : ∀ id q, OpenRow db id q ↔
          OpenRow s.recorder.db id q ∧ ¬ (id = meeting.sessionId ∧ q = p) := fun id q =>
        ((endSession_sameRows hafter).rowWith id _).trans (leaveParticipant_openRow hleft id q)
      have hsessions : ∀ id r, OpenSession db id r ↔
          OpenSession s.recorder.db id r ∧ id ≠ meeting.sessionId := by
        intro id r
        rw [endSession_openSession hafter, (leaveParticipant_sameSessions hleft).openSession]
      constructor
      · rintro h ⟨room', meeting', left', hroom', hmeeting', -, -, -, -, q, hq, hopen⟩
        cases hsame room' meeting' hroom' hmeeting'
        obtain ⟨r, hr⟩ := h _ q ((hrows _ q).mpr ⟨hopen, fun heq => hq heq.2⟩)
        exact ((hsessions _ r).mp hr).2 rfl
      · intro hnone id q h
        obtain ⟨hold, hne⟩ := (hrows id q).mp h
        obtain ⟨r, hr⟩ := hP id q hold
        refine ⟨r, (hsessions id r).mpr ⟨hr, ?_⟩⟩
        rintro rfl
        exact hnone ⟨room, meeting, left, hroom, hmeeting, by simpa using hended, hconnection,
          hleave, by simp [hend], q, fun heq => hne ⟨rfl, heq⟩, hold⟩

/-- One event keeps ended sessions empty exactly when it ends none around somebody's open row. -/
theorem step_keeps_iff (hs : Tracked s) (hP : EndedEmpty s.recorder.db) {a : RecorderAction}
    {after : RecorderRun} (h : step s a = some after) :
    EndedEmpty after.recorder.db ↔ EndsEmptyOnly s a := by
  cases a with
  | elsewhere db =>
    cases h
    exact iff_of_true hP trivial
  | handle fails event =>
    unfold step at h
    dsimp only at h
    split at h
    · rename_i hfresh
      cases h
      cases event with
      | joined sessionId rowId room p userId displayName now =>
        obtain ⟨hnew, hrow⟩ := isFresh_joined hfresh
        have hmove := @recordJoin_move s.recorder fails hs.occupied sessionId rowId room p userId
          displayName now
        exact (join_keeps_iff hs hP hnew hrow hmove).trans
          ⟨fun h _ => h, fun h => h hfresh⟩
      | left p now => exact leave_keeps_iff hP (hs.recordLeave_move p now)
      | restarted now =>
        refine iff_of_true ?_ trivial
        change EndedEmpty (closeAbandonedSessions fails s.recorder.db now)
        obtain ⟨-, -, hunchanged | hclosed, -⟩ :=
          @closeAbandonedSessions_closes fails s.recorder.db now
        · rwa [hunchanged]
        · exact fun id q hopen => absurd hopen (hclosed id q)
    · cases h

theorem idle_keeps (s : RecorderRun) (a : RecorderAction) (h : step s a = none) :
    EndsEmptyOnly s a := by
  cases a with
  | elsewhere db => cases h
  | handle fails event =>
    unfold step at h
    dsimp only at h
    split at h
    · cases h
    · rename_i hfresh
      cases event with
      | joined sessionId rowId room p userId displayName now =>
        exact fun hnew => absurd hnew hfresh
      | left p now => exact absurd rfl hfresh
      | restarted now => trivial

end Steps

/-- An ended meeting has nobody in it, in any state of a run, exactly when no event of the run
ends a session in which somebody else's failed leave has left a row open. -/
theorem endedEmpty_iff (db : SocialDatabase) (actions : List RecorderAction) :
    (system db).Always (fun s => EndedEmpty s.recorder.db ∧ SummariesAgree s.recorder.db)
        (system db).init actions ↔
      (system db).Guarded EndsEmptyOnly (system db).init actions := by
  have hstart : EndedEmpty (system db).init.recorder.db := by
    rintro id p ⟨meeting, hmeeting, -⟩
    cases hmeeting
  have hrun := System.always_iff_guarded (M := system db) (J := Tracked)
    (P := fun s => EndedEmpty s.recorder.db) (G := EndsEmptyOnly)
    (fun s a t hs _ h => tracked_step hs h) (fun s a t hs hP h => step_keeps_iff hs hP h)
    idle_keeps (tracked_initial db) hstart actions
  rw [← hrun]
  constructor
  · exact System.always_mono fun s h => h.1
  · exact System.always_mono fun s h => ⟨h, summariesAgree_of_endedEmpty h⟩

/-- Ann's leave is not written, and Bob's ends the meeting. -/
def failedLeave : List RecorderAction :=
  [.handle (fun _ => false) (.joined 1 11 "r" "a" none "Ann" 1),
    .handle (fun _ => false) (.joined 2 12 "r" "b" none "Bob" 2),
    .handle (fun kind => kind = .leaveParticipant) (.left "a" 3),
    .handle (fun _ => false) (.left "b" 4)]

/-- The meeting has ended, and Ann's row is open. -/
theorem failedLeave_occupied :
    ¬ (system (emptyDatabase .migrated)).Always
      (fun s => EndedEmpty s.recorder.db ∧ SummariesAgree s.recorder.db)
      (system (emptyDatabase .migrated)).init failedLeave := by
  refine System.not_always_of_run
    (fun t => (t.recorder.db.meetings.lookup 1).any fun meeting => meeting.endedAt.isSome &&
      meeting.participants.entries.any fun row =>
        row.2.participantId = "a" && row.2.leftAt.isNone) (by decide +kernel) ?_
  rintro t ht ⟨hempty, -⟩
  obtain ⟨meeting, hmeeting, hfails⟩ := (Option.any_eq_true ..).mp ht
  simp only [Bool.and_eq_true, List.any_eq_true, decide_eq_true_eq,
    Option.isNone_iff_eq_none] at hfails
  obtain ⟨hended, row, hrow, hp, hopen⟩ := hfails
  obtain ⟨room, after, hafter, -, hperiod⟩ :=
    hempty 1 "a" ⟨meeting, hmeeting, row.1, row.2, AList.mem_lookup_iff.mpr hrow, hp, hopen⟩
  cases hafter.symm.trans hmeeting
  simp [hperiod] at hended

end OpenMeet.EndedMeetings
