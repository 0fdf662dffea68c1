import OpenMeet.SocialTables

/-!
The recorder of meetings: one worker applies the joins and leaves the SFU
reports, in order. A live meeting of a room is one session in the database, kept
open until its last connection leaves. Every query may fail, and what was
written before it stays.
-/
namespace OpenMeet.MeetingRecorder

open KeyedMap Messages Accounts SocialTables

structure LiveMeeting where
  sessionId : Uuid
  participantIds : Finset ParticipantId

structure LiveMeetings where
  rooms : Map RoomId LiveMeeting
  participantRooms : Map ParticipantId RoomId

instance : EmptyCollection LiveMeetings := ⟨⟨∅, ∅⟩⟩

structure Recorder where
  db : SocialDatabase
  live : LiveMeetings

inductive RecorderQuery
  | connection
  | closeOpenSession
  | insertSession
  | insertParticipant
  | leaveParticipant
  | endSession
  | loadCallMembers
  deriving DecidableEq, Repr

/-! ## Writes -/

section Writes

variable (db : SocialDatabase)

def modifyMeeting (sessionId : Uuid) (f : MeetingSession → MeetingSession) : SocialDatabase :=
  { db with meetings := db.meetings.modify sessionId f }

/-- End the session of the room that is still open, which cannot end before it started. -/
def closeOpenSession (room : RoomId) (now : Timestamp) : Option SocialDatabase :=
  let isOpen (meeting : MeetingSession) : Bool :=
    meeting.sfuRoomId = room && meeting.endedAt.isNone
  if db.meetings.entries.any fun row => isOpen row.2 && now < row.2.startedAt then none
  else
    some { db with
      meetings := db.meetings.mapValues fun _ meeting =>
        if isOpen meeting then { meeting with endedAt := some now } else meeting }

def insertSession (sessionId : Uuid) (room : RoomId) (now : Timestamp) : Option SocialDatabase :=
  if sessionId ∈ db.meetings then none
  else
    some { db with
      meetings := db.meetings.insert sessionId
        { sfuRoomId := room, startedAt := now, endedAt := none, participants := ∅ } }

/-- A connection that is in the session already is left alone. -/
def insertParticipant (sessionId rowId : Uuid) (participant : MeetingParticipant) :
    Option SocialDatabase :=
  match db.meetings.lookup sessionId with
  | none => none
  | some meeting =>
    if meeting.participants.entries.any fun row =>
        row.1 = rowId || row.2.participantId = participant.participantId then some db
    else if participant.userId.all fun id => id ∈ db.accounts.users then
      some <| modifyMeeting db sessionId fun meeting =>
        { meeting with participants := meeting.participants.insert rowId participant }
    else none

def endSession (sessionId : Uuid) (now : Timestamp) : Option SocialDatabase :=
  if (db.meetings.lookup sessionId).any fun meeting => now < meeting.startedAt then none
  else some (modifyMeeting db sessionId fun meeting => { meeting with endedAt := some now })

def leaveParticipant (sessionId : Uuid) (participantId : ParticipantId) (now : Timestamp) :
    Option SocialDatabase :=
  let isOpen (participant : MeetingParticipant) : Bool :=
    participant.participantId = participantId && participant.leftAt.isNone
  if (db.meetings.lookup sessionId).any fun meeting =>
      meeting.participants.entries.any fun row => isOpen row.2 && now < row.2.joinedAt then none
  else
    some <| modifyMeeting db sessionId fun meeting =>
      { meeting with
        participants := meeting.participants.mapValues fun _ participant =>
          if isOpen participant then { participant with leftAt := some now } else participant }

end Writes

/-! ## Events -/

section Events

variable (fails : RecorderQuery → Bool)

def query (kind : RecorderQuery) (result : Option SocialDatabase) : Option SocialDatabase :=
  if fails kind then none else result

/-- The room's live session, or a new one after the room's open one is closed. -/
def recordSession (s : Recorder) (sessionId : Uuid) (room : RoomId) (now : Timestamp) :
    Recorder × Option Uuid :=
  match s.live.rooms.lookup room with
  | some meeting => (s, some meeting.sessionId)
  | none =>
    match query fails .closeOpenSession (closeOpenSession s.db room now) with
    | none => (s, none)
    | some closed =>
      match query fails .insertSession (insertSession closed sessionId room now) with
      | none => ({ s with db := closed }, none)
      | some opened =>
        ({ db := opened
           live := { s.live with rooms := s.live.rooms.insert room ⟨sessionId, ∅⟩ } },
          some sessionId)

def recordJoin (s : Recorder) (sessionId rowId : Uuid) (room : RoomId)
    (participantId : ParticipantId) (userId : Option Uuid) (displayName : String)
    (now : Timestamp) : Recorder :=
  if fails .connection then s
  else
    match recordSession fails s sessionId room now with
    | (s, none) => s
    | (s, some sessionId) =>
      let participant : MeetingParticipant :=
        { participantId := participantId, userId := userId, displayName := displayName,
          joinedAt := now, leftAt := none }
      match query fails .insertParticipant
          (insertParticipant s.db sessionId rowId participant) with
      | some db =>
        { db := db
          live :=
            { rooms := s.live.rooms.modify room fun meeting =>
                { meeting with participantIds := insert participantId meeting.participantIds }
              participantRooms := s.live.participantRooms.insert participantId room } }
      | none =>
        -- without a participant the session would never see a leave
        if (s.live.rooms.lookup room).any fun meeting => meeting.participantIds = ∅ then
          { db := (query fails .endSession (endSession s.db sessionId now)).getD s.db
            live := { s.live with rooms := s.live.rooms.erase room } }
        else s

/-- The members of the room's active calls. -/
def notifyCallMembers (db : SocialDatabase) (room : RoomId) : Publication where
  recipients := (db.calls.entries.filter fun row =>
    row.2.sfuRoomId = room && row.2.status = .active).flatMap fun row => row.2.members.keys
  resource := .calls

/-- The connection is gone, and the meeting with it if it was the last one. -/
def leaveDatabase (s : Recorder) (room : RoomId) (meeting : LiveMeeting)
    (participantId : ParticipantId) (ended : Bool) (now : Timestamp) :
    SocialDatabase × List Publication :=
  if fails .connection then (s.db, [])
  else
    match query fails .leaveParticipant
        (leaveParticipant s.db meeting.sessionId participantId now) with
    | none => (s.db, [])
    | some left =>
      if ended then
        let isEnded := (left.meetings.lookup meeting.sessionId).any (·.endedAt.isSome)
        match query fails .endSession
            (if isEnded then some left else endSession left meeting.sessionId now) with
        | none => (left, [])
        | some db =>
          (db, if fails .loadCallMembers then [] else [notifyCallMembers db room])
      else (left, [])

def recordLeave (s : Recorder) (participantId : ParticipantId) (now : Timestamp) :
    Recorder × List Publication :=
  match s.live.participantRooms.lookup participantId with
  | none => (s, [])
  | some room =>
    let participantRooms := s.live.participantRooms.erase participantId
    match s.live.rooms.lookup room with
    | none => ({ s with live := { s.live with participantRooms := participantRooms } }, [])
    | some meeting =>
      let remaining := meeting.participantIds.erase participantId
      let ended : Bool := remaining = ∅
      let rooms := if ended then s.live.rooms.erase room
        else s.live.rooms.insert room { meeting with participantIds := remaining }
      let written := leaveDatabase fails s room meeting participantId ended now
      ({ db := written.1, live := ⟨rooms, participantRooms⟩ }, written.2)

/-- A new process closes what the previous one left open: all of it, the connections only, or
nothing, depending on the query that fails. -/
def closeAbandonedSessions (db : SocialDatabase) (now : Timestamp) : SocialDatabase :=
  if fails .connection || fails .leaveParticipant then db
  else
    let left := db.meetings.mapValues fun _ meeting =>
      { meeting with
        participants := meeting.participants.mapValues fun _ participant =>
          { participant with
            leftAt := some (participant.leftAt.getD (max participant.joinedAt now)) } }
    let ended := left.mapValues fun _ meeting =>
      { meeting with endedAt := some (meeting.endedAt.getD (max meeting.startedAt now)) }
    { db with meetings := if fails .endSession then left else ended }

end Events

/-- What the recorder's worker can be told; the ids of the rows it adds come along. -/
inductive MeetingEvent
  | joined (sessionId rowId : Uuid) (room : RoomId) (participantId : ParticipantId)
      (userId : Option Uuid) (displayName : String) (now : Timestamp)
  | left (participantId : ParticipantId) (now : Timestamp)
  | restarted (now : Timestamp)

def record (fails : RecorderQuery → Bool) (s : Recorder) : MeetingEvent → Recorder
  | .joined sessionId rowId room participantId userId displayName now =>
    recordJoin fails s sessionId rowId room participantId userId displayName now
  | .left participantId now => (recordLeave fails s participantId now).1
  | .restarted now => ⟨closeAbandonedSessions fails s.db now, ∅⟩

/-! ## What the recorder writes -/

/-- Nothing but the meetings differs. -/
def OnlyMeetings (db after : SocialDatabase) : Prop :=
  after = { db with meetings := after.meetings }

section Frame

variable {db db' after : SocialDatabase} {fails : RecorderQuery → Bool} {s : Recorder}

theorem OnlyMeetings.calls (h : OnlyMeetings db after) : after.calls = db.calls := by
  rw [h]

theorem OnlyMeetings.refl (db : SocialDatabase) : OnlyMeetings db db := rfl

theorem OnlyMeetings.trans (h : OnlyMeetings db db') (h' : OnlyMeetings db' after) :
    OnlyMeetings db after := by
  unfold OnlyMeetings at h h' ⊢
  rw [h', h]

theorem query_some {kind : RecorderQuery} {result : Option SocialDatabase}
    (h : query fails kind result = some after) : result = some after := by
  unfold query at h
  split at h
  · cases h
  · exact h

theorem closeOpenSession_onlyMeetings {room : RoomId} {now : Timestamp}
    (h : closeOpenSession db room now = some after) : OnlyMeetings db after := by
  unfold closeOpenSession at h
  dsimp only at h
  split at h <;> cases h
  rfl

theorem insertSession_onlyMeetings {sessionId : Uuid} {room : RoomId} {now : Timestamp}
    (h : insertSession db sessionId room now = some after) : OnlyMeetings db after := by
  unfold insertSession at h
  split at h <;> cases h
  rfl

theorem insertParticipant_onlyMeetings {sessionId rowId : Uuid} {participant : MeetingParticipant}
    (h : insertParticipant db sessionId rowId participant = some after) :
    OnlyMeetings db after := by
  unfold insertParticipant at h
  split at h
  · cases h
  · split at h
    · cases h
      rfl
    · split at h <;> cases h
      rfl

theorem endSession_onlyMeetings {sessionId : Uuid} {now : Timestamp}
    (h : endSession db sessionId now = some after) : OnlyMeetings db after := by
  unfold endSession at h
  split at h <;> cases h
  rfl

theorem leaveParticipant_onlyMeetings {sessionId : Uuid} {participantId : ParticipantId}
    {now : Timestamp} (h : leaveParticipant db sessionId participantId now = some after) :
    OnlyMeetings db after := by
  unfold leaveParticipant at h
  dsimp only at h
  split at h <;> cases h
  rfl

theorem recordSession_onlyMeetings (sessionId : Uuid) (room : RoomId) (now : Timestamp) :
    OnlyMeetings s.db (recordSession fails s sessionId room now).1.db := by
  unfold recordSession
  split
  · exact .refl s.db
  · split
    · exact .refl s.db
    · rename_i hclosed
      have hfirst := closeOpenSession_onlyMeetings (query_some hclosed)
      split
      · exact hfirst
      · rename_i hopened
        exact hfirst.trans (insertSession_onlyMeetings (query_some hopened))

theorem recordJoin_onlyMeetings (sessionId rowId : Uuid) (room : RoomId)
    (participantId : ParticipantId) (userId : Option Uuid) (displayName : String)
    (now : Timestamp) :
    OnlyMeetings s.db
      (recordJoin fails s sessionId rowId room participantId userId displayName now).db := by
  have hsession : OnlyMeetings s.db (recordSession fails s sessionId room now).1.db :=
    recordSession_onlyMeetings sessionId room now
  unfold recordJoin
  split
  · exact .refl s.db
  · split
    · rename_i hrecorded
      rwa [hrecorded] at hsession
    · rename_i hrecorded
      rw [hrecorded] at hsession
      dsimp only
      split
      · rename_i hinserted
        exact hsession.trans (insertParticipant_onlyMeetings (query_some hinserted))
      · split
        · refine hsession.trans ?_
          cases hended : query fails .endSession _ with
          | none => exact .refl _
          | some ended => exact endSession_onlyMeetings (query_some hended)
        · exact hsession

theorem leaveDatabase_onlyMeetings (room : RoomId) (meeting : LiveMeeting)
    (participantId : ParticipantId) (ended : Bool) (now : Timestamp) :
    OnlyMeetings s.db (leaveDatabase fails s room meeting participantId ended now).1 := by
  unfold leaveDatabase
  split
  · exact .refl s.db
  · split
    · exact .refl s.db
    · rename_i left hleft
      have hfirst := leaveParticipant_onlyMeetings (query_some hleft)
      split
      · dsimp only
        split
        · exact hfirst
        · rename_i hended
          refine hfirst.trans ?_
          have hresult := query_some hended
          split at hresult
          · cases hresult
            exact .refl left
          · exact endSession_onlyMeetings hresult
      · exact hfirst

theorem recordLeave_onlyMeetings (participantId : ParticipantId) (now : Timestamp) :
    OnlyMeetings s.db (recordLeave fails s participantId now).1.db := by
  unfold recordLeave
  split
  · exact .refl s.db
  · dsimp only
    split
    · exact .refl s.db
    · exact leaveDatabase_onlyMeetings _ _ _ _ _

/-- The recorder writes meetings only. -/
theorem record_onlyMeetings (fails : RecorderQuery → Bool) (s : Recorder) (event : MeetingEvent) :
    OnlyMeetings s.db (record fails s event).db := by
  cases event with
  | joined sessionId rowId room participantId userId displayName now =>
    exact recordJoin_onlyMeetings sessionId rowId room participantId userId displayName now
  | left participantId now => exact recordLeave_onlyMeetings participantId now
  | restarted now =>
    unfold record closeAbandonedSessions
    dsimp only
    split
    · exact .refl s.db
    · rfl

end Frame

end OpenMeet.MeetingRecorder
