import OpenMeet.Badges
import OpenMeet.ConversationApi

/-!
Calls of a conversation, and the read state of missed ones. A call is over when
it has expired or when its room had a meeting and none is live, so a call nobody
joined stays open until it expires or its caller cancels it.
-/
namespace OpenMeet.CallApi

open KeyedMap Messages Accounts SocialTables Badges ConversationApi

/-- One hour. -/
def callSessionTtl : Timestamp := 3600000000

inductive Reply
  | noContent
  | started (id : Uuid) (roomId : RoomId) (expiresAt : Timestamp)
  | responded (accepted : Bool) (roomId : Option RoomId)
  | room (roomId : RoomId)
  | incoming (calls : List Uuid)
  deriving DecidableEq, Repr

def notAvailable : ApiError := ⟨404, "Call session is not available"⟩

section Writes

variable (db : SocialDatabase) (now : Timestamp)

def expire (test : CallSession → Bool) : SocialDatabase :=
  { db with
    calls := db.calls.mapValues fun _ call =>
      if call.status = .active ∧ test call then { call with status := .expired } else call }

def expireCallSessions : SocialDatabase := expire db fun call => call.expiresAt ≤ now

def modifyCall (id : Uuid) (f : CallSession → CallSession) : SocialDatabase :=
  { db with calls := db.calls.modify id f }

end Writes

/-- Anyone other than the user is in the call's live meeting. -/
def roomHasOthers (db : SocialDatabase) (room : RoomId) (userId : Uuid) : Bool :=
  db.meetings.entries.any fun row => row.2.sfuRoomId = room && row.2.endedAt.isNone &&
    row.2.participants.entries.any fun present =>
      present.2.leftAt.isNone && present.2.userId ≠ some userId

def snapshotParticipants (conversation : Conversation) (callerId : Uuid) :
    Except ApiError (List Uuid) :=
  match conversation.kind with
  | .direct lowId highId =>
    if lowId = callerId ∨ highId = callerId then .ok [lowId, highId] else .error accessDenied
  | .group _ =>
    if callerId ∈ conversation.members then .ok conversation.members.keys
    else .error accessDenied

section Requests

open Outcome

variable (db : SocialDatabase) (now : Timestamp) (userId : Uuid)

def newCall (conversationId : Uuid) (room : RoomId) (participantIds : List Uuid) :
    CallSession where
  conversationId := conversationId
  initiatorId := userId
  sfuRoomId := room
  status := .active
  expiresAt := now + callSessionTtl
  members := participantIds.foldl
    (fun members id => AList.insert id (if id = userId then .accepted else .pending) members) ∅
  readBy := ∅

def startCallSession (conversationId callId : Uuid) (room : RoomId) : Outcome Reply :=
  match db.conversations.lookup conversationId with
  | none => refuse db conversationNotFound
  | some conversation =>
    match snapshotParticipants conversation userId with
    | .error e => refuse db e
    | .ok participantIds =>
      let expired := expireCallSessions db now
      -- a call whose meeting has ended no longer blocks a new one
      let cleared := expire expired fun call =>
        call.conversationId = conversationId && roomEnded expired call.sfuRoomId
      if cleared.calls.entries.any fun row =>
          row.2.conversationId = conversationId && row.2.status = .active then
        refuse db ⟨409, "A call is already active for this conversation"⟩
      else if callId ∈ db.calls ∨ db.calls.entries.any fun row => row.2.sfuRoomId = room then
        refuse db requestFailed
      else
        let call := newCall now userId conversationId room participantIds
        { db := { cleared with calls := cleared.calls.insert callId call }
          published := [⟨participantIds, .calls⟩]
          result := .ok (.started callId room call.expiresAt) }

def listIncomingCallSessions : Outcome Reply :=
  let expired := expireCallSessions db now
  let ringing := expired.calls.matching fun _ call =>
    call.members.lookup userId = some .pending && call.status = .active &&
      now < call.expiresAt && !roomEnded expired call.sfuRoomId
  ⟨expired, [], .ok (.incoming ringing)⟩

def getCallSession (callId : Uuid) : Outcome Reply :=
  let expired := expireCallSessions db now
  let found := (expired.calls.lookup callId).filter fun call =>
    call.members.lookup userId = some .accepted && call.status = .active && now < call.expiresAt
  match found with
  | some call => ⟨expired, [], .ok (.room call.sfuRoomId)⟩
  | none => ⟨expired, [], .error notAvailable⟩

def cancelCallSession (callId : Uuid) : Outcome Reply :=
  match db.calls.lookup callId with
  | none => ⟨db, [], .ok .noContent⟩
  | some call =>
    if call.initiatorId = userId ∧ call.status = .active ∧
        roomHasOthers db call.sfuRoomId userId = false then
      { db := modifyCall db callId fun call => { call with status := .expired }
        published := [⟨call.members.keys, .calls⟩]
        result := .ok .noContent }
    else ⟨db, [], .ok .noContent⟩

def respondToCallSession (callId : Uuid) (accept : Bool) : Outcome Reply :=
  let expired := expireCallSessions db now
  match expired.calls.lookup callId with
  | none => refuse db notAvailable
  | some call =>
    if call.status = .active ∧ now < call.expiresAt ∧
        call.members.lookup userId = some .pending then
      let answer : RequestStatus := if accept then .accepted else .declined
      { db := modifyCall expired callId fun call =>
          { call with members := call.members.modify userId fun _ => answer }
        published := [⟨call.members.keys, .calls⟩]
        result := .ok (.responded accept (if accept then some call.sfuRoomId else none)) }
    else refuse db notAvailable

/-! ## Read states of missed calls -/

/-- The call of the room that the user missed. -/
def findMissedCall (room : RoomId) : Option (Uuid × CallSession) :=
  (db.calls.entries.find? fun row =>
    row.2.sfuRoomId = room && missedCall db now userId row.2).map fun row => (row.1, row.2)

def meetingNotFound : ApiError := ⟨404, "Meeting not found"⟩

def markMeetingRead (sessionId : Uuid) : Outcome Reply :=
  match db.meetings.lookup sessionId with
  | none => refuse db meetingNotFound
  | some meeting =>
    match findMissedCall db now userId meeting.sfuRoomId with
    -- only missed calls have a read state; anything else is already read
    | none => ⟨db, [], .ok .noContent⟩
    | some (callId, _) =>
      { db := modifyCall db callId fun call => { call with readBy := insert userId call.readBy }
        published := [⟨[userId], .calls⟩]
        result := .ok .noContent }

def markMeetingUnread (sessionId : Uuid) : Outcome Reply :=
  match db.meetings.lookup sessionId with
  | none => refuse db meetingNotFound
  | some meeting =>
    match findMissedCall db now userId meeting.sfuRoomId with
    | none => refuse db ⟨400, "Only missed calls can be unread"⟩
    | some (callId, _) =>
      { db := modifyCall db callId fun call => { call with readBy := call.readBy.erase userId }
        published := [⟨[userId], .calls⟩]
        result := .ok .noContent }

end Requests

end OpenMeet.CallApi
