import OpenMeet.MeetingRecorder
import OpenMeet.TransitionSystem

/-!
The recorder over whole runs, whichever queries fail. In memory a connection is
indexed under the room whose live meeting lists it; in the database a room has at
most one open session. As long as no query has failed the two agree: the open
sessions and the open rows are the live meetings and their connections.
-/
namespace OpenMeet.LiveMeetings

open KeyedMap Messages SocialTables MeetingRecorder TransitionSystem

/-! ## Open sessions and open rows -/

section Rows

variable (db after : SocialDatabase)

def OpenSession (id : Uuid) (room : RoomId) : Prop :=
  ∃ meeting, db.meetings.lookup id = some meeting ∧ meeting.sfuRoomId = room ∧
    meeting.endedAt = none

/-- The session has a row with the property. -/
def RowWith (id : Uuid) (P : MeetingParticipant → Prop) : Prop :=
  ∃ meeting, db.meetings.lookup id = some meeting ∧
    ∃ rowId row, meeting.participants.lookup rowId = some row ∧ P row

def HasRow (id : Uuid) (p : ParticipantId) : Prop := RowWith db id (·.participantId = p)

def OpenRow (id : Uuid) (p : ParticipantId) : Prop :=
  RowWith db id fun row => row.participantId = p ∧ row.leftAt = none

/-- The sessions have the same rows, whatever else has changed. -/
def SameRows : Prop :=
  ∀ id, (after.meetings.lookup id).map (·.participants) =
    (db.meetings.lookup id).map (·.participants)

/-- The sessions have the same rooms and periods, whatever rows they have. -/
def SameSessions : Prop :=
  ∀ id, (after.meetings.lookup id).map (fun meeting => (meeting.sfuRoomId, meeting.endedAt)) =
    (db.meetings.lookup id).map fun meeting => (meeting.sfuRoomId, meeting.endedAt)

variable {db after}

theorem OpenRow.hasRow {id : Uuid} {p : ParticipantId} (h : OpenRow db id p) : HasRow db id p := by
  obtain ⟨meeting, hmeeting, rowId, row, hrow, hp, -⟩ := h
  exact ⟨meeting, hmeeting, rowId, row, hrow, hp⟩

theorem SameRows.rowWith (h : SameRows db after) (id : Uuid) (P : MeetingParticipant → Prop) :
    RowWith after id P ↔ RowWith db id P := by
  have hid := h id
  unfold RowWith
  cases hafter : after.meetings.lookup id <;> cases hdb : db.meetings.lookup id <;>
    simp_all

theorem SameSessions.openSession (h : SameSessions db after) (id : Uuid) (room : RoomId) :
    OpenSession after id room ↔ OpenSession db id room := by
  have hid := h id
  unfold OpenSession
  cases hafter : after.meetings.lookup id <;> cases hdb : db.meetings.lookup id <;>
    simp_all

end Rows

/-! ## What a query does to them -/

section Queries

variable {db after : SocialDatabase} {sessionId rowId : Uuid} {room : RoomId} {now : Timestamp}

theorem closeOpenSession_openSession (h : closeOpenSession db room now = some after)
    (id : Uuid) (other : RoomId) :
    OpenSession after id other ↔ OpenSession db id other ∧ other ≠ room := by
  unfold closeOpenSession at h
  dsimp only at h
  split at h <;> cases h
  simp only [OpenSession, Map.lookup_mapValues]
  cases db.meetings.lookup id with
  | none => simp
  | some meeting =>
    obtain ⟨sfuRoomId, startedAt, endedAt, participants⟩ := meeting
    by_cases hroom : sfuRoomId = room
    · cases endedAt with
      | none =>
        simp [hroom]
        grind
      | some ended => simp
    · simp only [hroom, decide_false, Bool.false_and, Bool.false_eq_true, if_false,
        Option.map_some, Option.some.injEq, exists_eq_left']
      grind

theorem closeOpenSession_sameRows (h : closeOpenSession db room now = some after) :
    SameRows db after := by
  unfold closeOpenSession at h
  dsimp only at h
  split at h <;> cases h
  intro id
  simp only [Map.lookup_mapValues, Option.map_map]
  congr 1
  funext meeting
  simp only [Function.comp]
  split <;> rfl

theorem insertSession_openSession (h : insertSession db sessionId room now = some after)
    (id : Uuid) (other : RoomId) :
    OpenSession after id other ↔ OpenSession db id other ∨ id = sessionId ∧ other = room := by
  unfold insertSession at h
  split at h
  · cases h
  · rename_i hnew
    cases h
    unfold OpenSession
    by_cases hid : id = sessionId
    · subst hid
      simp [AList.lookup_eq_none.mpr hnew, eq_comm]
    · simp [AList.lookup_insert_ne hid, hid]

theorem insertSession_rowWith (h : insertSession db sessionId room now = some after)
    (id : Uuid) (P : MeetingParticipant → Prop) : RowWith after id P ↔ RowWith db id P := by
  unfold insertSession at h
  split at h
  · cases h
  · rename_i hnew
    cases h
    unfold RowWith
    by_cases hid : id = sessionId
    · subst hid
      simp [AList.lookup_eq_none.mpr hnew]
    · simp [AList.lookup_insert_ne hid]

/-- A new session has no rows yet. -/
theorem insertSession_empty (h : insertSession db sessionId room now = some after)
    (P : MeetingParticipant → Prop) : ¬ RowWith after sessionId P := by
  rw [insertSession_rowWith h]
  unfold insertSession at h
  split at h
  · cases h
  · rename_i hnew
    rintro ⟨meeting, hmeeting, -⟩
    simp [AList.lookup_eq_none.mpr hnew] at hmeeting

theorem insertSession_new (h : insertSession db sessionId room now = some after) (other : RoomId) :
    ¬ OpenSession db sessionId other := by
  unfold insertSession at h
  split at h
  · cases h
  · rename_i hnew
    rintro ⟨meeting, hmeeting, -⟩
    simp [AList.lookup_eq_none.mpr hnew] at hmeeting

/-- The room's open session is replaced by a new one. -/
theorem openSession_replaced {closed : SocialDatabase}
    (hclosed : closeOpenSession db room now = some closed)
    (hopened : insertSession closed sessionId room now = some after) (id : Uuid)
    (other : RoomId) : OpenSession after id other ↔
      OpenSession db id other ∧ other ≠ room ∨ id = sessionId ∧ other = room := by
  rw [insertSession_openSession hopened, closeOpenSession_openSession hclosed]

theorem endSession_openSession (h : endSession db sessionId now = some after) (id : Uuid)
    (room : RoomId) : OpenSession after id room ↔ OpenSession db id room ∧ id ≠ sessionId := by
  unfold endSession at h
  split at h <;> cases h
  unfold OpenSession modifyMeeting
  simp only [Map.lookup_modify]
  by_cases hid : id = sessionId
  · cases db.meetings.lookup id <;> simp [hid]
  · simp [hid]

theorem endSession_sameRows (h : endSession db sessionId now = some after) :
    SameRows db after := by
  unfold endSession at h
  split at h <;> cases h
  intro id
  unfold modifyMeeting
  simp only [Map.lookup_modify]
  split
  · cases db.meetings.lookup id <;> rfl
  · rfl

theorem leaveParticipant_sameSessions {p : ParticipantId}
    (h : leaveParticipant db sessionId p now = some after) : SameSessions db after := by
  unfold leaveParticipant at h
  dsimp only at h
  split at h <;> cases h
  intro id
  unfold modifyMeeting
  simp only [Map.lookup_modify]
  split
  · cases db.meetings.lookup id <;> rfl
  · rfl

/-- The open row of the connection is closed, and every other row stays as it is. -/
theorem leaveParticipant_openRow {p : ParticipantId}
    (h : leaveParticipant db sessionId p now = some after) (id : Uuid) (q : ParticipantId) :
    OpenRow after id q ↔ OpenRow db id q ∧ ¬ (id = sessionId ∧ q = p) := by
  unfold leaveParticipant at h
  dsimp only at h
  split at h <;> cases h
  unfold OpenRow RowWith modifyMeeting
  simp only [Map.lookup_modify]
  by_cases hid : id = sessionId
  · subst hid
    cases db.meetings.lookup id with
    | none => simp
    | some meeting =>
      simp only [if_true, Option.map_some, Option.some.injEq, exists_eq_left',
        Map.lookup_mapValues, Option.map_eq_some_iff, true_and]
      constructor
      · rintro ⟨rowId, row, ⟨before, hbefore, rfl⟩, hq, hopen⟩
        split at hopen
        · cases hopen
        · rename_i hkept
          rw [if_neg hkept] at hq
          refine ⟨⟨rowId, before, hbefore, hq, hopen⟩, ?_⟩
          rintro rfl
          simp [hq, hopen] at hkept
      · rintro ⟨⟨rowId, row, hrow, hq, hopen⟩, hne⟩
        have hkept : ¬ (row.participantId = p && row.leftAt.isNone) = true := by
          simp [hq, hne]
        exact ⟨rowId, _, ⟨row, hrow, rfl⟩, by rw [if_neg hkept]; exact ⟨hq, hopen⟩⟩
  · simp [hid]

theorem leaveParticipant_hasRow {p : ParticipantId}
    (h : leaveParticipant db sessionId p now = some after) (id : Uuid) (q : ParticipantId) :
    HasRow after id q ↔ HasRow db id q := by
  unfold leaveParticipant at h
  dsimp only at h
  split at h <;> cases h
  unfold HasRow RowWith modifyMeeting
  simp only [Map.lookup_modify]
  by_cases hid : id = sessionId
  · subst hid
    cases db.meetings.lookup id with
    | none => simp
    | some meeting =>
      simp only [if_true, Option.map_some, Option.some.injEq, exists_eq_left',
        Map.lookup_mapValues, Option.map_eq_some_iff]
      constructor
      · rintro ⟨rowId, row, ⟨before, hbefore, rfl⟩, hq⟩
        refine ⟨rowId, before, hbefore, ?_⟩
        split at hq <;> exact hq
      · rintro ⟨rowId, row, hrow, hq⟩
        refine ⟨rowId, _, ⟨row, hrow, rfl⟩, ?_⟩
        split <;> exact hq
  · simp [hid]

variable {participant : MeetingParticipant}

theorem insertParticipant_sameSessions
    (h : insertParticipant db sessionId rowId participant = some after) :
    SameSessions db after := by
  intro id
  unfold insertParticipant at h
  split at h
  · cases h
  · split at h
    · cases h
      rfl
    · split at h <;> cases h
      unfold modifyMeeting
      simp only [Map.lookup_modify]
      split
      · cases db.meetings.lookup id <;> rfl
      · rfl

/-- A connection that is new to the session gets a row with an id no other row has. -/
theorem insertParticipant_rowWith
    (h : insertParticipant db sessionId rowId participant = some after)
    (hrow : ∀ meeting, db.meetings.lookup sessionId = some meeting → rowId ∉ meeting.participants)
    (hnew : ¬ HasRow db sessionId participant.participantId) (id : Uuid)
    (P : MeetingParticipant → Prop) :
    RowWith after id P ↔ RowWith db id P ∨ id = sessionId ∧ P participant := by
  unfold insertParticipant at h
  split at h
  · cases h
  · rename_i meeting hmeeting
    split at h
    · rename_i hconflict
      obtain ⟨row, hmem, hsame⟩ := List.any_eq_true.mp hconflict
      have hlookup := AList.mem_lookup_iff.mpr hmem
      simp only [Bool.or_eq_true, decide_eq_true_eq] at hsame
      rcases hsame with rfl | hsame
      · exact absurd (AList.lookup_isSome.mp (Option.isSome_of_mem hlookup))
          (hrow meeting hmeeting)
      · exact absurd ⟨meeting, hmeeting, row.1, row.2, hlookup, hsame⟩ hnew
    · split at h <;> cases h
      unfold RowWith modifyMeeting
      simp only [Map.lookup_modify]
      by_cases hid : id = sessionId
      · subst hid
        simp only [hmeeting, if_true, Option.map_some, Option.some.injEq, exists_eq_left',
          true_and]
        have hfresh := AList.lookup_eq_none.mpr (hrow meeting hmeeting)
        constructor
        · rintro ⟨other, row, hlookup, hP⟩
          by_cases hother : other = rowId
          · subst hother
            rw [AList.lookup_insert] at hlookup
            exact .inr (Option.some.inj hlookup ▸ hP)
          · rw [AList.lookup_insert_ne hother] at hlookup
            exact .inl ⟨other, row, hlookup, hP⟩
        · rintro (⟨other, row, hlookup, hP⟩ | hP)
          · have hother : other ≠ rowId := by
              rintro rfl
              simp [hfresh] at hlookup
            exact ⟨other, row, by rwa [AList.lookup_insert_ne hother], hP⟩
          · exact ⟨rowId, participant, AList.lookup_insert _, hP⟩
      · simp [hid]

end Queries

/-! ## Runs -/

/-- Whether the handler of an event answers Ok: every query it came to went through. -/
def recordOk (fails : RecorderQuery → Bool) (s : Recorder) : MeetingEvent → Bool
  | .joined sessionId rowId room participantId userId displayName now =>
    !fails .connection &&
      match recordSession fails s sessionId room now with
      | (_, none) => false
      | (s, some sessionId) =>
        let participant : MeetingParticipant :=
          { participantId := participantId, userId := userId, displayName := displayName,
            joinedAt := now, leftAt := none }
        (query fails .insertParticipant
          (insertParticipant s.db sessionId rowId participant)).isSome
  | .left participantId now =>
    match s.live.participantRooms.lookup participantId with
    | none => true
    | some room =>
      match s.live.rooms.lookup room with
      | none => true
      | some meeting =>
        !fails .connection &&
          match query fails .leaveParticipant
              (leaveParticipant s.db meeting.sessionId participantId now) with
          | none => false
          | some left =>
            if meeting.participantIds.erase participantId = ∅ then
              let isEnded := (left.meetings.lookup meeting.sessionId).any (·.endedAt.isSome)
              (query fails .endSession
                (if isEnded then some left
                else endSession left meeting.sessionId now)).isSome && !fails .loadCallMembers
            else true
  | .restarted _ => !fails .connection && !fails .leaveParticipant && !fails .endSession

/-- The recorder, with the connections that have joined so far and whether a query has failed. -/
structure RecorderRun where
  recorder : Recorder
  joined : Finset ParticipantId
  failed : Bool

/-- The worker handles an event with some of its queries failing, or the rest of the server
writes to its own tables. -/
inductive RecorderAction
  | handle (fails : RecorderQuery → Bool) (event : MeetingEvent)
  | elsewhere (db : SocialDatabase)

def joinedBy : MeetingEvent → Finset ParticipantId
  | .joined _ _ _ participantId _ _ _ => {participantId}
  | _ => ∅

/-- A connection joins once, and a row gets an id that no row has. -/
def isFresh (s : RecorderRun) : MeetingEvent → Bool
  | .joined _ rowId _ participantId _ _ _ =>
    participantId ∉ s.joined &&
      s.recorder.db.meetings.entries.all fun row => rowId ∉ row.2.participants
  | _ => true

def step (s : RecorderRun) : RecorderAction → Option RecorderRun
  | .handle fails event =>
    if isFresh s event then
      some
        { recorder := record fails s.recorder event
          joined := s.joined ∪ joinedBy event
          failed := s.failed || !recordOk fails s.recorder event }
    else none
  | .elsewhere db =>
    some { s with recorder.db := { db with meetings := s.recorder.db.meetings } }

/-- A recorder that starts with empty tables of meetings. -/
def system (db : SocialDatabase) : System RecorderRun RecorderAction where
  init := ⟨⟨{ db with meetings := ∅ }, ∅⟩, ∅, false⟩
  step := step

/-- A connection is indexed under the room whose meeting lists it. -/
def Indexed (live : LiveMeetings) : Prop :=
  ∀ p room, live.participantRooms.lookup p = some room ↔
    ∃ meeting, live.rooms.lookup room = some meeting ∧ p ∈ meeting.participantIds

/-- The maps in memory agree, and the database agrees with them as long as no query has failed. -/
structure Recorded (s : RecorderRun) : Prop where
  indexed : Indexed s.recorder.live
  occupied : ∀ room meeting, s.recorder.live.rooms.lookup room = some meeting →
    meeting.participantIds ≠ ∅
  one_room : ∀ p room room' meeting meeting',
    s.recorder.live.rooms.lookup room = some meeting →
    s.recorder.live.rooms.lookup room' = some meeting' →
    p ∈ meeting.participantIds → p ∈ meeting'.participantIds → room = room'
  one_session : ∀ room id id', OpenSession s.recorder.db id room →
    OpenSession s.recorder.db id' room → id = id'
  sessions : s.failed = false → ∀ id room, OpenSession s.recorder.db id room ↔
    ∃ meeting, s.recorder.live.rooms.lookup room = some meeting ∧ meeting.sessionId = id
  rows : s.failed = false → ∀ id p, OpenRow s.recorder.db id p ↔
    ∃ room meeting, s.recorder.live.rooms.lookup room = some meeting ∧
      meeting.sessionId = id ∧ p ∈ meeting.participantIds

/-! ## What an event can do -/

section Moves

variable (fails : RecorderQuery → Bool) (s : Recorder) (sessionId rowId : Uuid) (room : RoomId)
  (participant : MeetingParticipant) (now : Timestamp)

/-- What a join writes, what it changes in memory, and whether every query went through. -/
inductive JoinMove : Recorder → Bool → Prop
  | skipped (hskipped : s.live.rooms.lookup room ≠ none ∨ fails .connection = true ∨
      query fails .closeOpenSession (closeOpenSession s.db room now) = none) : JoinMove s false
  | closed {db : SocialDatabase} (hlive : s.live.rooms.lookup room = none)
      (hconnection : fails .connection = false)
      (hclosed : query fails .closeOpenSession (closeOpenSession s.db room now) = some db) :
      JoinMove ⟨db, s.live⟩ false
  | abandoned {closed opened : SocialDatabase} {rooms : Map RoomId LiveMeeting}
      (hlive : s.live.rooms.lookup room = none)
      (hconnection : fails .connection = false)
      (hclosed : query fails .closeOpenSession (closeOpenSession s.db room now) = some closed)
      (hopened : insertSession closed sessionId room now = some opened)
      (hrooms : ∀ r, rooms.lookup r = s.live.rooms.lookup r) :
      JoinMove ⟨opened, ⟨rooms, s.live.participantRooms⟩⟩ false
  | undone {closed opened ended : SocialDatabase} {rooms : Map RoomId LiveMeeting}
      (hlive : s.live.rooms.lookup room = none)
      (hconnection : fails .connection = false)
      (hclosed : query fails .closeOpenSession (closeOpenSession s.db room now) = some closed)
      (hopened : insertSession closed sessionId room now = some opened)
      (hended : endSession opened sessionId now = some ended)
      (hrooms : ∀ r, rooms.lookup r = s.live.rooms.lookup r) :
      JoinMove ⟨ended, ⟨rooms, s.live.participantRooms⟩⟩ false
  | started {closed opened db : SocialDatabase} {rooms : Map RoomId LiveMeeting}
      (hlive : s.live.rooms.lookup room = none)
      (hconnection : fails .connection = false)
      (hclosed : query fails .closeOpenSession (closeOpenSession s.db room now) = some closed)
      (hopened : insertSession closed sessionId room now = some opened)
      (hinserted : insertParticipant opened sessionId rowId participant = some db)
      (hrooms : ∀ r, rooms.lookup r = if r = room then
        some ⟨sessionId, {participant.participantId}⟩ else s.live.rooms.lookup r) :
      JoinMove ⟨db, ⟨rooms, s.live.participantRooms.insert participant.participantId room⟩⟩ true
  | added {meeting : LiveMeeting} {db : SocialDatabase} {rooms : Map RoomId LiveMeeting}
      (hlive : s.live.rooms.lookup room = some meeting)
      (hinserted : insertParticipant s.db meeting.sessionId rowId participant = some db)
      (hrooms : ∀ r, rooms.lookup r = if r = room then some
        { meeting with
          participantIds := insert participant.participantId meeting.participantIds }
        else s.live.rooms.lookup r) :
      JoinMove ⟨db, ⟨rooms, s.live.participantRooms.insert participant.participantId room⟩⟩ true

/-- What a leave writes: nothing, the end of the row, or the end of the session too. -/
inductive LeaveWrite (db : SocialDatabase) (p : ParticipantId) (ended : Bool) :
    SocialDatabase → Bool → Prop
  | nothing (hnothing : fails .connection = true ∨
      query fails .leaveParticipant (leaveParticipant db sessionId p now) = none) :
      LeaveWrite db p ended db false
  | row {left : SocialDatabase} {ok : Bool} (hok : ok = true → ended = false)
      (hleft : leaveParticipant db sessionId p now = some left)
      (hstill : ended = true →
        query fails .endSession (endSession left sessionId now) = none) :
      LeaveWrite db p ended left ok
  | session {left after : SocialDatabase} (hended : ended = true)
      (hconnection : fails .connection = false)
      (hleft : query fails .leaveParticipant (leaveParticipant db sessionId p now) = some left)
      (hafter : query fails .endSession (endSession left sessionId now) = some after) (ok : Bool) :
      LeaveWrite db p ended after ok

/-- A leave changes the memory whatever it then writes. -/
inductive LeaveMove (p : ParticipantId) : Recorder → Bool → Prop
  | unknown (hunknown : s.live.participantRooms.lookup p = none) : LeaveMove p s true
  | left {room : RoomId} {meeting : LiveMeeting} {db : SocialDatabase} {ok : Bool}
      {rooms : Map RoomId LiveMeeting}
      (hroom : s.live.participantRooms.lookup p = some room)
      (hmeeting : s.live.rooms.lookup room = some meeting)
      (hwrite : LeaveWrite fails meeting.sessionId now s.db p
        (meeting.participantIds.erase p = ∅) db ok)
      (hrooms : ∀ r, rooms.lookup r = if r = room then
        if meeting.participantIds.erase p = ∅ then none
        else some { meeting with participantIds := meeting.participantIds.erase p }
        else s.live.rooms.lookup r) :
      LeaveMove p ⟨db, ⟨rooms, s.live.participantRooms.erase p⟩⟩ ok

end Moves

section Inversion

variable {s : Recorder} {fails : RecorderQuery → Bool}

/-- The room's live session, or a new one with nobody in it yet. -/
theorem recordSession_cases (sessionId : Uuid) (room : RoomId) (now : Timestamp) :
    (∃ meeting, s.live.rooms.lookup room = some meeting ∧
      recordSession fails s sessionId room now = (s, some meeting.sessionId)) ∨
    s.live.rooms.lookup room = none ∧
      (query fails .closeOpenSession (closeOpenSession s.db room now) = none ∧
        recordSession fails s sessionId room now = (s, none) ∨
      ∃ closed, query fails .closeOpenSession (closeOpenSession s.db room now) = some closed ∧
        (recordSession fails s sessionId room now = (⟨closed, s.live⟩, none) ∨
        ∃ opened, insertSession closed sessionId room now = some opened ∧
          recordSession fails s sessionId room now =
            (⟨opened, { s.live with rooms := s.live.rooms.insert room ⟨sessionId, ∅⟩ }⟩,
              some sessionId))) := by
  unfold recordSession
  cases hlive : s.live.rooms.lookup room with
  | some meeting => exact .inl ⟨meeting, rfl, rfl⟩
  | none =>
    refine .inr ⟨rfl, ?_⟩
    cases hclosed : query fails .closeOpenSession (closeOpenSession s.db room now) with
    | none => exact .inl ⟨rfl, rfl⟩
    | some closed =>
      refine .inr ⟨closed, rfl, ?_⟩
      dsimp only
      cases hopened : query fails .insertSession (insertSession closed sessionId room now) with
      | none => exact .inl rfl
      | some opened => exact .inr ⟨opened, query_some hopened, rfl⟩

theorem recordJoin_move (hoccupied : ∀ room meeting,
      s.live.rooms.lookup room = some meeting → meeting.participantIds ≠ ∅)
    (sessionId rowId : Uuid) (room : RoomId) (p : ParticipantId) (userId : Option Uuid)
    (displayName : String) (now : Timestamp) :
    JoinMove fails s sessionId rowId room ⟨p, userId, displayName, now, none⟩ now
      (recordJoin fails s sessionId rowId room p userId displayName now)
      (recordOk fails s (.joined sessionId rowId room p userId displayName now)) := by
  unfold recordJoin recordOk
  cases hconnection : fails .connection with
  | true => exact .skipped (.inr (.inl hconnection))
  | false =>
    simp only [Bool.false_eq_true, if_false, Bool.not_false, Bool.true_and]
    rcases @recordSession_cases s fails sessionId room now with
      ⟨meeting, hlive, hsession⟩ |
      ⟨hlive, ⟨hnone, hsession⟩ | ⟨closed, hclosed, hsession | ⟨opened, hopened,
        hsession⟩⟩⟩
    · rw [hsession]
      dsimp only
      cases hinserted : query fails .insertParticipant _ with
      | none =>
        simp only [hlive, Option.any_some, hoccupied room meeting hlive, decide_false,
          Bool.false_eq_true, if_false, Option.isSome_none]
        exact .skipped (.inl (by simp [hlive]))
      | some db =>
        refine .added hlive (query_some hinserted) fun r => ?_
        simp only [Map.lookup_modify]
        split
        · subst r
          simp [hlive]
        · rfl
    · rw [hsession]
      exact .skipped (.inr (.inr hnone))
    · rw [hsession]
      exact .closed hlive hconnection hclosed
    · rw [hsession]
      dsimp only
      have herased : ∀ r, ((s.live.rooms.insert room ⟨sessionId, ∅⟩).erase room).lookup r =
          s.live.rooms.lookup r := by
        intro r
        by_cases hr : r = room
        · subst hr
          simp [hlive]
        · simp [AList.lookup_erase_ne hr, AList.lookup_insert_ne hr]
      cases hinserted : query fails .insertParticipant _ with
      | none =>
        simp only [AList.lookup_insert, Option.any_some, decide_true, if_true,
          Option.isSome_none]
        cases hended : query fails .endSession (endSession opened sessionId now) with
        | none => exact .abandoned hlive hconnection hclosed hopened herased
        | some ended => exact .undone hlive hconnection hclosed hopened (query_some hended) herased
      | some db =>
        refine .started hlive hconnection hclosed hopened (query_some hinserted) fun r => ?_
        simp only [Map.lookup_modify]
        by_cases hr : r = room
        · subst hr
          simp
        · simp [hr, AList.lookup_insert_ne hr]

theorem leaveDatabase_write {room : RoomId} {meeting : LiveMeeting} {p : ParticipantId}
    {now : Timestamp} {ended : Bool} (hopen : OpenSession s.db meeting.sessionId room) :
    LeaveWrite fails meeting.sessionId now s.db p ended
      (leaveDatabase fails s room meeting p ended now).1
      (!fails .connection &&
        match query fails .leaveParticipant (leaveParticipant s.db meeting.sessionId p now) with
        | none => false
        | some left =>
          if ended then
            let isEnded := (left.meetings.lookup meeting.sessionId).any (·.endedAt.isSome)
            (query fails .endSession
              (if isEnded then some left
              else endSession left meeting.sessionId now)).isSome && !fails .loadCallMembers
          else true) := by
  unfold leaveDatabase
  cases hconnection : fails .connection with
  | true => exact .nothing (.inl hconnection)
  | false =>
    simp only [Bool.false_eq_true, if_false, Bool.not_false, Bool.true_and]
    cases hleft : query fails .leaveParticipant _ with
    | none => exact .nothing (.inr hleft)
    | some left =>
      have hwritten := query_some hleft
      cases ended with
      | false => exact .row (fun _ => rfl) hwritten fun h => by cases h
      | true =>
        obtain ⟨after, hafter, -, hperiod⟩ :=
          ((leaveParticipant_sameSessions hwritten).openSession _ _).mpr hopen
        simp only [hafter, hperiod, Option.any_some, Option.isSome_none, Bool.false_eq_true,
          if_false, if_true]
        cases hended : query fails .endSession (endSession left meeting.sessionId now) with
        | none => exact .row (fun h => by cases h) hwritten fun _ => hended
        | some db => exact .session rfl hconnection hleft hended _

theorem recordLeave_move (hindexed : ∀ p room, s.live.participantRooms.lookup p = some room →
      ∃ meeting, s.live.rooms.lookup room = some meeting ∧
        OpenSession s.db meeting.sessionId room) (p : ParticipantId) (now : Timestamp) :
    LeaveMove fails s now p (recordLeave fails s p now).1 (recordOk fails s (.left p now)) := by
  unfold recordLeave recordOk
  dsimp only
  cases hroom : s.live.participantRooms.lookup p with
  | none => exact .unknown hroom
  | some room =>
    obtain ⟨meeting, hmeeting, hopen⟩ := hindexed p room hroom
    simp only [hmeeting]
    refine .left hroom hmeeting (by simpa using leaveDatabase_write hopen) fun r => ?_
    by_cases hempty : meeting.participantIds.erase p = ∅
    · by_cases hr : r = room
      · subst hr
        simp [hempty]
      · simp [hempty, hr, AList.lookup_erase_ne hr]
    · by_cases hr : r = room
      · subst hr
        simp [hempty]
      · simp [hempty, hr, AList.lookup_insert_ne hr]

end Inversion

/-! ## What holds over a run -/

/-- Live meetings are open in the database whatever fails, and only those who have joined are
known, in memory or in a row. -/
structure Tracked (s : RecorderRun) : Prop extends Recorded s where
  opened : ∀ room meeting, s.recorder.live.rooms.lookup room = some meeting →
    OpenSession s.recorder.db meeting.sessionId room
  live_joined : ∀ p room, s.recorder.live.participantRooms.lookup p = some room → p ∈ s.joined
  rows_joined : ∀ id p, HasRow s.recorder.db id p → p ∈ s.joined

section Steps

variable {s : RecorderRun} {fails : RecorderQuery → Bool}

theorem Indexed.one_room {live : LiveMeetings} (h : Indexed live) (p : ParticipantId)
    (room room' : RoomId) (meeting meeting' : LiveMeeting)
    (hroom : live.rooms.lookup room = some meeting)
    (hroom' : live.rooms.lookup room' = some meeting')
    (hp : p ∈ meeting.participantIds) (hp' : p ∈ meeting'.participantIds) : room = room' :=
  Option.some.inj
    (((h p room).mpr ⟨meeting, hroom, hp⟩).symm.trans ((h p room').mpr ⟨meeting', hroom', hp'⟩))

/-- Live meetings of different rooms have different sessions. -/
theorem OpenSession.room_unique {db : SocialDatabase} {id : Uuid} {room room' : RoomId}
    (h : OpenSession db id room) (h' : OpenSession db id room') : room = room' := by
  obtain ⟨meeting, hmeeting, rfl, -⟩ := h
  obtain ⟨meeting', hmeeting', rfl, -⟩ := h'
  rw [Option.some.inj (hmeeting.symm.trans hmeeting')]

/-- A join that fails leaves the memory as it was. -/
theorem Tracked.failedJoin (hs : Tracked s) {db : SocialDatabase} {rooms : Map RoomId LiveMeeting}
    (hrooms : ∀ r, rooms.lookup r = s.recorder.live.rooms.lookup r)
    (hopened : ∀ room meeting, s.recorder.live.rooms.lookup room = some meeting →
      OpenSession db meeting.sessionId room)
    (hone : ∀ room id id', OpenSession db id room → OpenSession db id' room → id = id')
    (hrows : ∀ id p, HasRow db id p → HasRow s.recorder.db id p) (extra : Finset ParticipantId) :
    Tracked ⟨⟨db, ⟨rooms, s.recorder.live.participantRooms⟩⟩, s.joined ∪ extra, true⟩ := by
  have hindexed : Indexed ⟨rooms, s.recorder.live.participantRooms⟩ := by
    intro p room
    simp only [hrooms]
    exact hs.indexed p room
  refine
    { indexed := hindexed, occupied := ?_, one_room := hindexed.one_room, one_session := hone,
      sessions := nofun, rows := nofun, opened := ?_, live_joined := ?_, rows_joined := ?_ }
  · intro room meeting hmeeting
    exact hs.occupied room meeting ((hrooms room).symm.trans hmeeting)
  · intro room meeting hmeeting
    exact hopened room meeting ((hrooms room).symm.trans hmeeting)
  · intro p room hp
    exact Finset.mem_union_left _ (hs.live_joined p room hp)
  · intro id p hrow
    exact Finset.mem_union_left _ (hs.rows_joined id p (hrows id p hrow))

/-- A connection that is new everywhere is added to a meeting. -/
theorem Indexed.join {live : LiveMeetings} (h : Indexed live) {p : ParticipantId} {room : RoomId}
    {joined : LiveMeeting} {rooms : Map RoomId LiveMeeting}
    (hnew : live.participantRooms.lookup p = none)
    (hrooms : ∀ r, rooms.lookup r = if r = room then some joined else live.rooms.lookup r)
    (hjoined : ∀ q, q ∈ joined.participantIds ↔
      q = p ∨ ∃ meeting, live.rooms.lookup room = some meeting ∧ q ∈ meeting.participantIds) :
    Indexed ⟨rooms, live.participantRooms.insert p room⟩ := by
  intro q r
  have hp : ∀ r meeting, live.rooms.lookup r = some meeting → p ∉ meeting.participantIds := by
    intro r meeting hmeeting hmem
    have hroom := (h p r).mpr ⟨meeting, hmeeting, hmem⟩
    simp [hnew] at hroom
  by_cases hq : q = p
  · subst hq
    simp only [AList.lookup_insert, hrooms, Option.some.injEq]
    constructor
    · rintro rfl
      exact ⟨joined, if_pos rfl, (hjoined q).mpr (.inl rfl)⟩
    · rintro ⟨meeting, hmeeting, hmem⟩
      split at hmeeting
      · rename_i hr
        exact hr.symm
      · exact absurd hmem (hp r meeting hmeeting)
  · simp only [AList.lookup_insert_ne hq, hrooms]
    rw [h q r]
    by_cases hr : r = room
    · subst hr
      simp [hjoined, hq]
    · simp [hr]

section Join

variable {sessionId rowId : Uuid} {room : RoomId} {participant : MeetingParticipant}
  {now : Timestamp}

/-- The live meetings are in other rooms, so their sessions stay open. -/
theorem Tracked.opened_replaced (hs : Tracked s) {closed opened : SocialDatabase}
    (hlive : s.recorder.live.rooms.lookup room = none)
    (hclosed : closeOpenSession s.recorder.db room now = some closed)
    (hopened : insertSession closed sessionId room now = some opened) (r : RoomId)
    (meeting : LiveMeeting) (hmeeting : s.recorder.live.rooms.lookup r = some meeting) :
    OpenSession opened meeting.sessionId r ∧ meeting.sessionId ≠ sessionId := by
  have hr : r ≠ room := by
    rintro rfl
    simp [hlive] at hmeeting
  have hstill := (closeOpenSession_openSession hclosed _ _).mpr ⟨hs.opened r meeting hmeeting, hr⟩
  refine ⟨(insertSession_openSession hopened _ _).mpr (.inl hstill), ?_⟩
  rintro heq
  exact insertSession_new hopened r (heq ▸ hstill)

/-- At most one session of a room is open when all the room's others are the same one. -/
theorem Tracked.one_of_replaced (hs : Tracked s) {db : SocialDatabase}
    (hsessions : ∀ id r, OpenSession db id r ↔
      OpenSession s.recorder.db id r ∧ r ≠ room ∨ id = sessionId ∧ r = room)
    (r : RoomId) (id id' : Uuid) (hid : OpenSession db id r) (hid' : OpenSession db id' r) :
    id = id' := by
  rcases (hsessions id r).mp hid with ⟨hold, hr⟩ | ⟨rfl, hr⟩
  · rcases (hsessions id' r).mp hid' with ⟨hold', -⟩ | ⟨-, hr'⟩
    · exact hs.one_session r id id' hold hold'
    · exact absurd hr' hr
  · rcases (hsessions id' r).mp hid' with ⟨-, hr'⟩ | ⟨rfl, -⟩
    · exact absurd hr hr'
    · rfl

theorem hasRow_replaced {db closed opened : SocialDatabase}
    (hclosed : closeOpenSession db room now = some closed)
    (hopened : insertSession closed sessionId room now = some opened) (id : Uuid)
    (P : MeetingParticipant → Prop) : RowWith opened id P ↔ RowWith db id P := by
  rw [insertSession_rowWith hopened, (closeOpenSession_sameRows hclosed).rowWith]

/-- The first row of a new session. -/
theorem started_rowWith {db closed opened after : SocialDatabase}
    (hclosed : closeOpenSession db room now = some closed)
    (hopened : insertSession closed sessionId room now = some opened)
    (hinserted : insertParticipant opened sessionId rowId participant = some after) (id : Uuid)
    (P : MeetingParticipant → Prop) :
    RowWith after id P ↔ RowWith db id P ∨ id = sessionId ∧ P participant := by
  have hnone : ∀ meeting, opened.meetings.lookup sessionId = some meeting →
      rowId ∉ meeting.participants := by
    intro meeting hmeeting hmem
    obtain ⟨row, hlookup⟩ := Option.isSome_iff_exists.mp (AList.lookup_isSome.mpr hmem)
    exact insertSession_empty hopened (fun _ => True)
      ⟨meeting, hmeeting, rowId, row, hlookup, trivial⟩
  rw [insertParticipant_rowWith hinserted hnone (insertSession_empty hopened _)]
  rw [hasRow_replaced hclosed hopened]

/-- A row for a connection that has not joined before. -/
theorem Tracked.added_rowWith (hs : Tracked s) {after : SocialDatabase}
    (hnew : participant.participantId ∉ s.joined)
    (hrow : ∀ id meeting, s.recorder.db.meetings.lookup id = some meeting →
      rowId ∉ meeting.participants)
    (hinserted : insertParticipant s.recorder.db sessionId rowId participant = some after)
    (id : Uuid) (P : MeetingParticipant → Prop) :
    RowWith after id P ↔ RowWith s.recorder.db id P ∨ id = sessionId ∧ P participant :=
  insertParticipant_rowWith hinserted (hrow sessionId)
    (fun hhas => hnew (hs.rows_joined _ _ hhas)) id P

/-- A connection that has not joined before is added to the room's meeting, in memory and in the
database. -/
theorem Tracked.added (hs : Tracked s) {db : SocialDatabase} {meeting : LiveMeeting}
    {rooms : Map RoomId LiveMeeting} (hnew : participant.participantId ∉ s.joined)
    (hleft : participant.leftAt = none)
    (hrooms : ∀ r, rooms.lookup r =
      if r = room then some meeting else s.recorder.live.rooms.lookup r)
    (hmembers : ∀ q, q ∈ meeting.participantIds ↔ q = participant.participantId ∨
      ∃ before, s.recorder.live.rooms.lookup room = some before ∧ q ∈ before.participantIds)
    (hsame : ∀ before, s.recorder.live.rooms.lookup room = some before →
      before.sessionId = meeting.sessionId)
    (hsessions : ∀ id r, OpenSession db id r ↔
      OpenSession s.recorder.db id r ∧ r ≠ room ∨ id = meeting.sessionId ∧ r = room)
    (hrows : ∀ id P, RowWith db id P ↔
      RowWith s.recorder.db id P ∨ id = meeting.sessionId ∧ P participant) :
    Tracked
      ⟨⟨db, ⟨rooms, s.recorder.live.participantRooms.insert participant.participantId room⟩⟩,
        s.joined ∪ {participant.participantId}, s.failed⟩ := by
  have hunknown : s.recorder.live.participantRooms.lookup participant.participantId = none := by
    by_contra hknown
    obtain ⟨r, hr⟩ := Option.ne_none_iff_exists'.mp hknown
    exact hnew (hs.live_joined _ r hr)
  have hindexed := hs.indexed.join hunknown hrooms hmembers
  refine
    { indexed := hindexed, occupied := ?_, one_room := hindexed.one_room,
      one_session := hs.one_of_replaced hsessions, sessions := ?_, rows := ?_, opened := ?_,
      live_joined := ?_, rows_joined := ?_ }
  · intro r after hafter
    rw [hrooms] at hafter
    split at hafter
    · cases hafter
      exact Finset.ne_empty_of_mem ((hmembers _).mpr (.inl rfl))
    · exact hs.occupied r after hafter
  · intro hfailed id r
    simp only [hsessions, hrooms]
    by_cases hr : r = room
    · simp [hr, eq_comm]
    · simp [hr, hs.sessions hfailed id r]
  · intro hfailed id q
    unfold OpenRow
    simp only [hrows, hleft, and_true, hrooms]
    have hold := hs.rows hfailed id q
    unfold OpenRow at hold
    rw [hold]
    constructor
    · rintro (⟨r, before, hbefore, rfl, hq⟩ | ⟨rfl, hq⟩)
      · by_cases hr : r = room
        · subst hr
          exact ⟨r, meeting, by simp, (hsame before hbefore).symm,
            (hmembers q).mpr (.inr ⟨before, hbefore, hq⟩)⟩
        · exact ⟨r, before, by simp [hr, hbefore], rfl, hq⟩
      · exact ⟨room, meeting, by simp, rfl, (hmembers q).mpr (.inl hq.symm)⟩
    · rintro ⟨r, after, hafter, rfl, hq⟩
      split at hafter
      · cases hafter
        rcases (hmembers q).mp hq with rfl | ⟨before, hbefore, hq⟩
        · exact .inr ⟨rfl, rfl⟩
        · exact .inl ⟨room, before, hbefore, hsame before hbefore, hq⟩
      · exact .inl ⟨r, after, hafter, rfl, hq⟩
  · intro r after hafter
    rw [hrooms] at hafter
    rw [hsessions]
    split at hafter
    · rename_i hr
      cases hafter
      exact .inr ⟨rfl, hr⟩
    · rename_i hr
      exact .inl ⟨hs.opened r after hafter, hr⟩
  · intro q r hq
    by_cases hp : q = participant.participantId
    · simp [hp]
    · rw [AList.lookup_insert_ne hp] at hq
      exact Finset.mem_union_left _ (hs.live_joined q r hq)
  · intro id q hrow
    rcases (hrows id _).mp hrow with hold | ⟨-, rfl⟩
    · exact Finset.mem_union_left _ (hs.rows_joined id q hold)
    · simp

theorem tracked_join (hs : Tracked s) {t : Recorder} {ok : Bool}
    (hnew : participant.participantId ∉ s.joined)
    (hrow : ∀ id meeting, s.recorder.db.meetings.lookup id = some meeting →
      rowId ∉ meeting.participants) (hleft : participant.leftAt = none)
    (hmove : JoinMove fails s.recorder sessionId rowId room participant now t ok) :
    Tracked ⟨t, s.joined ∪ {participant.participantId}, s.failed || !ok⟩ := by
  cases hmove with
  | skipped =>
    simp only [Bool.not_false, Bool.or_true]
    exact hs.failedJoin (fun _ => rfl) hs.opened hs.one_session (fun _ _ h => h) _
  | closed hlive _ hquery =>
    have hclosed := query_some hquery
    simp only [Bool.not_false, Bool.or_true]
    refine hs.failedJoin (fun _ => rfl) ?_ ?_ ?_ _
    · intro r meeting hmeeting
      refine (closeOpenSession_openSession hclosed _ _).mpr ⟨hs.opened r meeting hmeeting, ?_⟩
      rintro rfl
      simp [hlive] at hmeeting
    · intro r id id' hid hid'
      exact hs.one_session r id id' ((closeOpenSession_openSession hclosed _ _).mp hid).1
        ((closeOpenSession_openSession hclosed _ _).mp hid').1
    · exact fun id p => ((closeOpenSession_sameRows hclosed).rowWith id _).mp
  | abandoned hlive _ hquery hopened hrooms =>
    have hclosed := query_some hquery
    simp only [Bool.not_false, Bool.or_true]
    refine hs.failedJoin hrooms ?_ (hs.one_of_replaced (openSession_replaced hclosed hopened)) ?_ _
    · exact fun r meeting hmeeting =>
        (hs.opened_replaced hlive hclosed hopened r meeting hmeeting).1
    · exact fun id p => (hasRow_replaced hclosed hopened id _).mp
  | undone hlive _ hquery hopened hended hrooms =>
    have hclosed := query_some hquery
    simp only [Bool.not_false, Bool.or_true]
    refine hs.failedJoin hrooms ?_ ?_ ?_ _
    · intro r meeting hmeeting
      exact (endSession_openSession hended _ _).mpr
        (hs.opened_replaced hlive hclosed hopened r meeting hmeeting)
    · intro r id id' hid hid'
      exact hs.one_of_replaced (openSession_replaced hclosed hopened) r id id'
        ((endSession_openSession hended _ _).mp hid).1
        ((endSession_openSession hended _ _).mp hid').1
    · intro id p hp
      exact (hasRow_replaced hclosed hopened id _).mp
        (((endSession_sameRows hended).rowWith id _).mp hp)
  | @started closed opened db rooms hlive _ hquery hopened hinserted hrooms =>
    have hclosed := query_some hquery
    simp only [Bool.not_true, Bool.or_false]
    refine hs.added hnew hleft hrooms (by simp [hlive]) (by simp [hlive]) ?_ ?_
    · intro id r
      rw [(insertParticipant_sameSessions hinserted).openSession]
      exact openSession_replaced hclosed hopened id r
    · exact started_rowWith hclosed hopened hinserted
  | @added meeting db rooms hlive hinserted hrooms =>
    simp only [Bool.not_true, Bool.or_false]
    have hopen := hs.opened room meeting hlive
    refine hs.added hnew hleft hrooms (by simp [hlive]) ?_ ?_ ?_
    · intro before hbefore
      rw [Option.some.inj (hbefore.symm.trans hlive)]
    · intro id r
      rw [(insertParticipant_sameSessions hinserted).openSession]
      by_cases hr : r = room
      · subst hr
        simp only [ne_eq, not_true, and_false, false_or, and_true]
        refine ⟨fun hid => hs.one_session r id _ hid hopen, ?_⟩
        rintro rfl
        exact hopen
      · simp [hr]
    · exact hs.added_rowWith hnew hrow hinserted

end Join

section Leave

/-- A connection that is known leaves its meeting, and the meeting ends when it was the last. -/
theorem Indexed.leave {live : LiveMeetings} (h : Indexed live) {p : ParticipantId} {room : RoomId}
    {meeting : LiveMeeting} {rooms : Map RoomId LiveMeeting}
    (hroom : live.participantRooms.lookup p = some room)
    (hmeeting : live.rooms.lookup room = some meeting)
    (hrooms : ∀ r, rooms.lookup r = if r = room then
      if meeting.participantIds.erase p = ∅ then none
      else some { meeting with participantIds := meeting.participantIds.erase p }
      else live.rooms.lookup r) :
    Indexed ⟨rooms, live.participantRooms.erase p⟩ := by
  intro q r
  have hp : ∀ r' meeting', live.rooms.lookup r' = some meeting' → p ∈ meeting'.participantIds →
      r' = room := fun r' meeting' hlookup hmem =>
    Option.some.inj (((h p r').mpr ⟨meeting', hlookup, hmem⟩).symm.trans hroom)
  by_cases hq : q = p
  · subst hq
    simp only [AList.lookup_erase, reduceCtorEq, hrooms, false_iff, not_exists, not_and]
    intro after hafter hmem
    split at hafter
    · split at hafter <;> cases hafter
      simp at hmem
    · rename_i hr
      exact hr (hp r after hafter hmem)
  · simp only [AList.lookup_erase_ne hq, hrooms]
    rw [h q r]
    by_cases hr : r = room
    · subst hr
      simp only [hmeeting, Option.some.injEq, exists_eq_left', if_true]
      by_cases hempty : meeting.participantIds.erase p = ∅
      · have hnot : q ∉ meeting.participantIds := by
          intro hmem
          simpa [hempty] using Finset.mem_erase.mpr ⟨hq, hmem⟩
        simp [hempty, hnot]
      · simp [hempty, hq]
    · simp [hr]

variable {p : ParticipantId} {now : Timestamp}

theorem LeaveWrite.hasRow {db after : SocialDatabase} {sessionId : Uuid} {ended ok : Bool}
    (h : LeaveWrite fails sessionId now db p ended after ok) (id : Uuid) (q : ParticipantId) :
    HasRow after id q ↔ HasRow db id q := by
  cases h with
  | nothing => exact .rfl
  | row hok hleft hstill => exact leaveParticipant_hasRow hleft id q
  | session hended _ hleave hend =>
    have hleft := query_some hleave
    have hafter := query_some hend
    exact ((endSession_sameRows hafter).rowWith id _).trans (leaveParticipant_hasRow hleft id q)

/-- The only session a leave can end is the one it was the last of. -/
theorem LeaveWrite.openSession {db after : SocialDatabase} {sessionId : Uuid} {ended ok : Bool}
    (h : LeaveWrite fails sessionId now db p ended after ok) (id : Uuid) (r : RoomId) :
    (OpenSession after id r → OpenSession db id r) ∧
      (OpenSession db id r → ¬ (ended = true ∧ id = sessionId) → OpenSession after id r) := by
  cases h with
  | nothing => exact ⟨fun h => h, fun h _ => h⟩
  | row hok hleft hstill =>
    have hsame := (leaveParticipant_sameSessions hleft).openSession id r
    exact ⟨hsame.mp, fun h _ => hsame.mpr h⟩
  | session hended _ hleave hend =>
    have hsame := (leaveParticipant_sameSessions (query_some hleave)).openSession id r
    have hclosed := endSession_openSession (query_some hend) id r
    refine ⟨fun h => hsame.mp (hclosed.mp h).1, fun h hne => hclosed.mpr ⟨hsame.mpr h, ?_⟩⟩
    exact fun heq => hne ⟨hended, heq⟩

/-- A leave whose queries all went through has closed what it should. -/
theorem LeaveWrite.closes {db after : SocialDatabase} {sessionId : Uuid} {ended : Bool}
    (h : LeaveWrite fails sessionId now db p ended after true) :
    (∀ id q, OpenRow after id q ↔ OpenRow db id q ∧ ¬ (id = sessionId ∧ q = p)) ∧
      ∀ r, ended = true → ¬ OpenSession after sessionId r := by
  cases h with
  | row hok hleft hstill =>
    refine ⟨leaveParticipant_openRow hleft, fun r hended => ?_⟩
    rw [hok rfl] at hended
    cases hended
  | session hended _ hleave hend =>
    have hleft := query_some hleave
    have hafter := query_some hend
    refine ⟨fun id q => ?_, fun r _ hopen => ?_⟩
    · exact ((endSession_sameRows hafter).rowWith id _).trans (leaveParticipant_openRow hleft id q)
    · exact ((endSession_openSession hafter sessionId r).mp hopen).2 rfl

theorem Tracked.recordLeave_move (hs : Tracked s) (p : ParticipantId) (now : Timestamp) :
    LeaveMove fails s.recorder now p (recordLeave fails s.recorder p now).1
      (recordOk fails s.recorder (.left p now)) := by
  refine LiveMeetings.recordLeave_move (fun q room hroom => ?_) p now
  obtain ⟨meeting, hmeeting, -⟩ := (hs.indexed q room).mp hroom
  exact ⟨meeting, hmeeting, hs.opened room meeting hmeeting⟩

theorem tracked_leave (hs : Tracked s) {t : Recorder} {ok : Bool}
    (hmove : LeaveMove fails s.recorder now p t ok) : Tracked ⟨t, s.joined, s.failed || !ok⟩ := by
  cases hmove with
  | unknown =>
    simp only [Bool.not_true, Bool.or_false]
    exact hs
  | @left room meeting db ok rooms hroom hmeeting hwrite hrooms =>
    have hindexed := hs.indexed.leave hroom hmeeting hrooms
    have hopen := hs.opened room meeting hmeeting
    have hsession : ∀ r after, s.recorder.live.rooms.lookup r = some after →
        after.sessionId = meeting.sessionId → r = room := fun r after hafter heq =>
      OpenSession.room_unique (heq ▸ hs.opened r after hafter) hopen
    refine
      { indexed := hindexed, occupied := ?_, one_room := hindexed.one_room, one_session := ?_,
        sessions := ?_, rows := ?_, opened := ?_, live_joined := ?_, rows_joined := ?_ }
    · intro r after hafter
      rw [hrooms] at hafter
      split at hafter
      · split at hafter
        · cases hafter
        · rename_i hne
          cases hafter
          exact hne
      · exact hs.occupied r after hafter
    · intro r id id' hid hid'
      exact hs.one_session r id id' ((hwrite.openSession id r).1 hid)
        ((hwrite.openSession id' r).1 hid')
    · intro hfailed id r
      simp only [Bool.or_eq_false_iff, Bool.not_eq_false'] at hfailed
      obtain ⟨hfailed, rfl⟩ := hfailed
      simp only [hrooms]
      have hkept := hwrite.openSession id r
      by_cases hr : r = room
      · subst hr
        by_cases hempty : meeting.participantIds.erase p = ∅
        · simp only [hempty, if_true, reduceCtorEq, false_and, exists_false, iff_false]
          intro hid
          have heq := hs.one_session r id _ (hkept.1 hid) hopen
          exact hwrite.closes.2 r (by simp [hempty]) (heq ▸ hid)
        · have hsame : OpenSession db id r ↔ OpenSession s.recorder.db id r :=
            ⟨hkept.1, fun h => hkept.2 h (by simp [hempty])⟩
          rw [hsame, hs.sessions hfailed]
          simp [hempty, hmeeting]
      · simp only [hr, if_false]
        rw [← hs.sessions hfailed]
        refine ⟨hkept.1, fun hid => hkept.2 hid fun heq => hr ?_⟩
        exact OpenSession.room_unique (heq.2 ▸ hid) hopen
    · intro hfailed id q
      simp only [Bool.or_eq_false_iff, Bool.not_eq_false'] at hfailed
      obtain ⟨hfailed, rfl⟩ := hfailed
      rw [hwrite.closes.1, hs.rows hfailed]
      simp only [hrooms]
      constructor
      · rintro ⟨⟨r, before, hbefore, rfl, hq⟩, hne⟩
        by_cases hr : r = room
        · subst hr
          cases hbefore.symm.trans hmeeting
          have hmem : q ∈ meeting.participantIds.erase p :=
            Finset.mem_erase.mpr ⟨fun hqp => hne ⟨rfl, hqp⟩, hq⟩
          refine ⟨r, { meeting with participantIds := meeting.participantIds.erase p }, ?_, rfl,
            hmem⟩
          rw [if_pos rfl, if_neg (Finset.ne_empty_of_mem hmem)]
        · exact ⟨r, before, by rw [if_neg hr, hbefore], rfl, hq⟩
      · rintro ⟨r, after, hafter, rfl, hq⟩
        split at hafter
        · rename_i hr
          split at hafter
          · cases hafter
          · cases hafter
            obtain ⟨hne, hmem⟩ := Finset.mem_erase.mp hq
            exact ⟨⟨room, meeting, hmeeting, rfl, hmem⟩, fun heq => hne heq.2⟩
        · rename_i hr
          exact ⟨⟨r, after, hafter, rfl, hq⟩, fun heq => hr (hsession r after hafter heq.1)⟩
    · intro r after hafter
      rw [hrooms] at hafter
      split at hafter
      · rename_i hr
        split at hafter
        · cases hafter
        · rename_i hne
          cases hafter
          subst hr
          exact (hwrite.openSession _ _).2 hopen (by simp [hne])
      · rename_i hr
        refine (hwrite.openSession _ _).2 (hs.opened r after hafter) ?_
        exact fun heq => hr (hsession r after hafter heq.2)
    · intro q r hq
      refine hs.live_joined q r ?_
      by_cases hp : q = p
      · subst hp
        simp at hq
      · rwa [AList.lookup_erase_ne hp] at hq
    · intro id q hrow
      exact hs.rows_joined id q ((hwrite.hasRow id q).mp hrow)

end Leave

section Restart

variable {db : SocialDatabase} {now : Timestamp}

/-- Every row is closed, and with the second query every session too. -/
theorem lookup_closeAbandonedSessions (hconnection : fails .connection = false)
    (hleave : fails .leaveParticipant = false) (id : Uuid) :
    ∃ ended : MeetingSession → Option Timestamp,
      (∀ meeting, ended meeting = none → meeting.endedAt = none) ∧
      (fails .endSession = false → ∀ meeting, ended meeting ≠ none) ∧
      (closeAbandonedSessions fails db now).meetings.lookup id =
        (db.meetings.lookup id).map fun meeting =>
          { meeting with
            endedAt := ended meeting
            participants := meeting.participants.mapValues fun _ row =>
              { row with leftAt := some (row.leftAt.getD (max row.joinedAt now)) } } := by
  simp only [closeAbandonedSessions, hconnection, hleave, Bool.or_self, Bool.false_eq_true,
    if_false]
  cases fails .endSession with
  | true => exact ⟨(·.endedAt), fun _ h => h, nofun, by simp⟩
  | false =>
    refine ⟨fun meeting => some (meeting.endedAt.getD (max meeting.startedAt now)), nofun,
      fun _ => nofun, ?_⟩
    simp only [Bool.false_eq_true, if_false, Map.lookup_mapValues, Option.map_map]
    rfl

/-- A restart adds no row and opens no session; one that goes through leaves none open. -/
theorem closeAbandonedSessions_closes :
    let after := closeAbandonedSessions fails db now
    (∀ id p, HasRow after id p → HasRow db id p) ∧
      (∀ id room, OpenSession after id room → OpenSession db id room) ∧
      (after = db ∨ ∀ id p, ¬ OpenRow after id p) ∧
      (recordOk fails ⟨db, ∅⟩ (.restarted now) = true →
        (∀ id p, ¬ OpenRow after id p) ∧ ∀ id room, ¬ OpenSession after id room) := by
  dsimp only
  by_cases hfails : (fails .connection || fails .leaveParticipant) = true
  · have hsame : closeAbandonedSessions fails db now = db := by
      rw [closeAbandonedSessions, if_pos hfails]
    rw [hsame]
    refine ⟨fun _ _ h => h, fun _ _ h => h, .inl rfl, fun hok => ?_⟩
    simp only [recordOk, Bool.and_eq_true, Bool.not_eq_true'] at hok
    simp [hok] at hfails
  · simp only [Bool.or_eq_true, not_or, Bool.not_eq_true] at hfails
    have hlookup := fun id => @lookup_closeAbandonedSessions fails db now hfails.1 hfails.2 id
    have hrows : ∀ id p, ¬ OpenRow (closeAbandonedSessions fails db now) id p := by
      rintro id p ⟨after, hafter, rowId, row, hrow, -, hopen⟩
      obtain ⟨ended, -, -, hid⟩ := hlookup id
      obtain ⟨meeting, -, rfl⟩ := Option.map_eq_some_iff.mp (hid.symm.trans hafter)
      simp only [Map.lookup_mapValues] at hrow
      obtain ⟨before, -, rfl⟩ := Option.map_eq_some_iff.mp hrow
      cases hopen
    refine ⟨?_, ?_, .inr hrows, fun hok => ⟨hrows, ?_⟩⟩
    · rintro id p ⟨after, hafter, rowId, row, hrow, rfl⟩
      obtain ⟨ended, -, -, hid⟩ := hlookup id
      obtain ⟨meeting, hmeeting, rfl⟩ := Option.map_eq_some_iff.mp (hid.symm.trans hafter)
      simp only [Map.lookup_mapValues] at hrow
      obtain ⟨before, hbefore, rfl⟩ := Option.map_eq_some_iff.mp hrow
      exact ⟨meeting, hmeeting, rowId, before, hbefore, rfl⟩
    · rintro id room ⟨after, hafter, rfl, hopen⟩
      obtain ⟨ended, hended, -, hid⟩ := hlookup id
      obtain ⟨meeting, hmeeting, rfl⟩ := Option.map_eq_some_iff.mp (hid.symm.trans hafter)
      exact ⟨meeting, hmeeting, rfl, hended meeting hopen⟩
    · rintro id room ⟨after, hafter, -, hopen⟩
      simp only [recordOk, Bool.and_eq_true, Bool.not_eq_true'] at hok
      obtain ⟨ended, -, hclosed, hid⟩ := hlookup id
      obtain ⟨meeting, -, rfl⟩ := Option.map_eq_some_iff.mp (hid.symm.trans hafter)
      exact hclosed hok.2 meeting hopen

theorem indexed_empty : Indexed ∅ := by
  intro p room
  change (∅ : Map ParticipantId RoomId).lookup p = some room ↔
    ∃ meeting, (∅ : Map RoomId LiveMeeting).lookup room = some meeting ∧ p ∈ meeting.participantIds
  simp

theorem lookup_rooms_empty (room : RoomId) : (∅ : LiveMeetings).rooms.lookup room = none := rfl

theorem tracked_restart (hs : Tracked s) :
    Tracked
      { recorder := ⟨closeAbandonedSessions fails s.recorder.db now, ∅⟩
        joined := s.joined
        failed := s.failed || !recordOk fails s.recorder (.restarted now) } := by
  obtain ⟨hrows, hsessions, -, hclosed⟩ :=
    @closeAbandonedSessions_closes fails s.recorder.db now
  refine
    { indexed := indexed_empty, occupied := nofun, one_room := nofun, one_session := ?_,
      sessions := ?_, rows := ?_, opened := nofun, live_joined := nofun, rows_joined := ?_ }
  · intro room id id' hid hid'
    exact hs.one_session room id id' (hsessions id room hid) (hsessions id' room hid')
  · intro hfailed id room
    simp only [Bool.or_eq_false_iff, Bool.not_eq_false'] at hfailed
    simpa [lookup_rooms_empty] using (hclosed hfailed.2).2 id room
  · intro hfailed id p
    simp only [Bool.or_eq_false_iff, Bool.not_eq_false'] at hfailed
    simpa [lookup_rooms_empty] using (hclosed hfailed.2).1 id p
  · exact fun id p hrow => hs.rows_joined id p (hrows id p hrow)

end Restart

theorem isFresh_joined {sessionId rowId : Uuid} {room : RoomId} {p : ParticipantId}
    {userId : Option Uuid} {displayName : String} {now : Timestamp}
    (h : isFresh s (.joined sessionId rowId room p userId displayName now) = true) :
    p ∉ s.joined ∧ ∀ id meeting, s.recorder.db.meetings.lookup id = some meeting →
      rowId ∉ meeting.participants := by
  simp only [isFresh, Bool.and_eq_true, decide_eq_true_eq, List.all_eq_true] at h
  exact ⟨h.1, fun id meeting hmeeting => h.2 ⟨id, meeting⟩ (AList.mem_lookup_iff.mp hmeeting)⟩

theorem tracked_step (hs : Tracked s) {a : RecorderAction} {t : RecorderRun}
    (h : step s a = some t) : Tracked t := by
  cases a with
  | elsewhere db =>
    cases h
    exact
      { hs with
        one_session := hs.one_session
        sessions := hs.sessions
        rows := hs.rows }
  | handle fails event =>
    unfold step at h
    dsimp only at h
    split at h
    · rename_i hfresh
      cases h
      cases event with
      | joined sessionId rowId room p userId displayName now =>
        obtain ⟨hnew, hrow⟩ := isFresh_joined hfresh
        exact tracked_join hs hnew hrow rfl
          (recordJoin_move hs.occupied sessionId rowId room p userId displayName now)
      | left p now =>
        exact (Finset.union_empty s.joined).symm ▸ tracked_leave hs (hs.recordLeave_move p now)
      | restarted now =>
        exact (Finset.union_empty s.joined).symm ▸ tracked_restart hs
    · cases h

end Steps

theorem tracked_initial (db : SocialDatabase) : Tracked (system db).init := by
  have hnone : ∀ id, (system db).init.recorder.db.meetings.lookup id = none := fun _ => rfl
  refine
    { indexed := indexed_empty, occupied := nofun, one_room := nofun, one_session := ?_,
      sessions := ?_, rows := ?_, opened := nofun, live_joined := nofun, rows_joined := ?_ }
  · rintro room id id' ⟨meeting, hmeeting, -⟩
    simp [hnone] at hmeeting
  · intro _ id room
    simp [OpenSession, system, lookup_rooms_empty]
  · intro _ id p
    simp [OpenRow, RowWith, system, lookup_rooms_empty]
  · rintro id p ⟨meeting, hmeeting, -⟩
    simp [hnone] at hmeeting

theorem tracked_always (db : SocialDatabase) (actions : List RecorderAction) :
    (system db).Always Tracked (system db).init actions :=
  System.always_of_invariant (M := system db) (I := Tracked) (fun _ _ _ hs h => tracked_step hs h)
    (tracked_initial db) actions

/-- Whatever fails and in whatever order the events come, the recorder's maps agree after every
event, and until a query fails they are what the database says. -/
theorem recorder_recorded (db : SocialDatabase) (actions : List RecorderAction) :
    (system db).Always Recorded (system db).init actions :=
  System.always_mono (fun _ hs => hs.toRecorded) (tracked_always db actions)

end OpenMeet.LiveMeetings
