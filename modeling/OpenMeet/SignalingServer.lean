import OpenMeet.Repository
import OpenMeet.TransitionSystem
import Mathlib.Data.Finset.Prod

/-!
The signaling server as interleaved tasks. Every connection has a receive task
that handles one client message at a time and a socket task that cleans up when
the socket ends; group administration adds evictions of a removed member and
closures of a deleted group's rooms. A step runs one task from one await to the
next, so everything between two locks or queries may interleave. Code that runs
under a room's write lock without awaiting anything another task changes is one
step; only peer setup keeps the lock across a step. A connection's id is a
fresh UUID, and the messages queued to it are kept in order. A request that is
dropped while it evicts or closes is not modelled.
-/
namespace OpenMeet.SignalingServer

open KeyedMap Text Messages RoomState Repository TransitionSystem

/-- What the model takes from outside: which ids belong to call sessions (random UUIDs no
client knows before the session exists) and Unicode's alphanumeric table. -/
structure Environment where
  isCallRoom : RoomId → Bool
  isAlphanumeric : Char → Bool

structure SessionIdentity where
  userId : Option Uuid
  displayName : Option String
  deriving DecidableEq, Repr

inductive SfuRoomAuthorization
  | legacy
  | authorized
  | denied
  deriving DecidableEq, Repr

structure SfuRoomAuthorizationSnapshot where
  isRevoked : Bool
  isCallSessionRoom : Bool
  isAuthorized : Bool
  deriving DecidableEq, Repr

def classifySfuRoomAuthorization (isRevoked isCallSessionRoom : Bool) (userId : Option Uuid)
    (hasAcceptedMembership : Bool) : SfuRoomAuthorization :=
  if isRevoked then .denied
  else if !isCallSessionRoom then .legacy
  else if userId.isSome && hasAcceptedMembership then .authorized
  else .denied

inductive MeetingRoomAdmission
  | allowed
  | passwordRequired
  | wrongPassword
  | denied (reason : String)
  deriving DecidableEq, Repr

def MeetingRoomAdmission.message : MeetingRoomAdmission → String
  | .allowed => ""
  | .passwordRequired => "Meeting password required"
  | .wrongPassword => "Incorrect meeting password"
  | .denied reason => reason

structure JoinRequest where
  roomId : RoomId
  name : String
  password : Option String
  screenShareOf : Option ParticipantId
  deriving DecidableEq, Repr

/-- A client message that acts on the room the connection is in. -/
inductive RoomRequest
  | mediaStateChanged (audioEnabled videoEnabled : Bool)
  | chatMessage (message : String) (replyToId : Option Nat)
  | chatReaction (messageId : Nat) (emoji : String)
  deriving DecidableEq, Repr

/-- Where the receive task is; every state but receiving and stopped is an await. -/
inductive RecvTask
  | receiving
  | authorizing (req : JoinRequest)
  | admitting (req : JoinRequest)
  | checkingRoom (req : JoinRequest) (authorization : SfuRoomAuthorization)
  | creatingRoom (req : JoinRequest) (authorization : SfuRoomAuthorization)
  | gettingRoom (req : JoinRequest) (authorization : SfuRoomAuthorization)
  | reauthorizing (req : JoinRequest) (ref : RoomRef)
  | lockingRoom (req : JoinRequest) (ref : RoomRef)
  | settingUpPeer (req : JoinRequest) (ref : RoomRef) (existing : List Room.ParticipantInfo)
      (history : List ChatMessagePayload)
  | findingRoom (roomId : RoomId) (request : RoomRequest)
  | lockingFor (roomId : RoomId) (request : RoomRequest) (ref : RoomRef)
  | stopped
  deriving DecidableEq

/-- Where the task that owns the socket is. The ids in the list are still to be searched. -/
inductive SocketTask
  | unopened
  | selecting
  | listingRooms
  | findingRoom (roomId : RoomId) (rest : List RoomId)
  | lockingRoom (roomId : RoomId) (ref : RoomRef) (rest : List RoomId)
  | deletingRoom (roomId : RoomId)
  | leaving
  | closed
  deriving DecidableEq, Repr

inductive EvictionStage
  | denying (rest : List RoomId)
  | marking (roomId : RoomId) (ref : RoomRef) (rest : List RoomId)
  | finding (roomId : RoomId) (rest : List RoomId)
  | evicting (roomId : RoomId) (ref : RoomRef) (rest : List RoomId)
  | returned
  deriving DecidableEq, Repr

/-- One call of disconnect_user_from_sfu_rooms after the removal committed. The allocation
mark at the commit is kept for the proofs; no step reads it. -/
structure Eviction where
  userId : Uuid
  roomIds : List RoomId
  committedAt : RoomRef
  stage : EvictionStage
  deriving DecidableEq, Repr

inductive ClosureStage
  | revoking (rest : List RoomId)
  | closing (ref : RoomRef) (rest : List RoomId)
  | returned
  deriving DecidableEq, Repr

/-- One call of revoke_and_close_sfu_rooms, with the room objects it has unmapped so far. -/
structure Closure where
  roomIds : List RoomId
  unmapped : List RoomRef
  stage : ClosureStage
  deriving DecidableEq, Repr

/-- What the recorder is told. -/
inductive MeetingEvent
  | joined (roomId : RoomId) (participantId : ParticipantId) (userId : Option Uuid)
      (displayName : String)
  | left (participantId : ParticipantId)
  deriving DecidableEq, Repr

structure Server where
  repository : InMemoryRoomRepository
  writer : RoomRef → Option ParticipantId
  identity : ParticipantId → SessionIdentity
  recvTask : ParticipantId → RecvTask
  socketTask : ParticipantId → SocketTask
  aborted : ParticipantId → Bool
  currentRoomId : ParticipantId → Option RoomId
  participantName : ParticipantId → Option String
  recentChatActions : ParticipantId → List Instant
  /-- The messages queued to the connection so far. -/
  sent : ParticipantId → List SignalingMessage
  /-- The send task has ended and dropped its end of the queue. -/
  senderEnded : ParticipantId → Bool
  evictions : Nat → Option Eviction
  closures : Nat → Option Closure
  removedMembers : Finset (Uuid × RoomId)
  meetingEvents : List MeetingEvent

def messagesTo (id : ParticipantId) (outbox : Outbox) : List SignalingMessage :=
  outbox.filterMap fun e => if e.1 = id then some e.2 else none

namespace Server

def initial : Server where
  repository := InMemoryRoomRepository.new
  writer := fun _ => none
  identity := fun _ => ⟨none, none⟩
  recvTask := fun _ => .stopped
  socketTask := fun _ => .unopened
  aborted := fun _ => false
  currentRoomId := fun _ => none
  participantName := fun _ => none
  recentChatActions := fun _ => []
  sent := fun _ => []
  senderEnded := fun _ => false
  evictions := fun _ => none
  closures := fun _ => none
  removedMembers := ∅
  meetingEvents := []

variable (s : Server)

@[simp] abbrev room (ref : RoomRef) : Room := s.repository.objects ref

@[simp] def setRecv (p : ParticipantId) (task : RecvTask) : Server :=
  { s with recvTask := Function.update s.recvTask p task }

@[simp] def setSocket (p : ParticipantId) (task : SocketTask) : Server :=
  { s with socketTask := Function.update s.socketTask p task }

/-- What has been queued to the connection when these messages are sent too. Once its send task
has ended sending fails, and nobody acts on the error. -/
def queue (p : ParticipantId) (messages : List SignalingMessage) : List SignalingMessage :=
  if s.senderEnded p then s.sent p else s.sent p ++ messages

theorem queue_nil (p : ParticipantId) : s.queue p [] = s.sent p := by
  simp [queue]

variable {s} in
theorem queue_of_open {p : ParticipantId} (h : s.senderEnded p = false)
    (messages : List SignalingMessage) : s.queue p messages = s.sent p ++ messages := by
  simp [queue, h]

@[simp] def send (p : ParticipantId) (message : SignalingMessage) : Server :=
  { s with sent := Function.update s.sent p (s.queue p [message]) }

@[simp] def deliver (outbox : Outbox) : Server :=
  { s with sent := fun p => s.queue p (messagesTo p outbox) }

@[simp] def setRoom (ref : RoomRef) (room : Room) (hid : room.id = (s.room ref).id) : Server :=
  { s with repository := s.repository.setRoom ref room hid }

@[simp] def setWriter (ref : RoomRef) (holder : Option ParticipantId) : Server :=
  { s with writer := Function.update s.writer ref holder }

@[simp] def setEviction (i : Nat) (eviction : Eviction) : Server :=
  { s with evictions := Function.update s.evictions i (some eviction) }

@[simp] def setClosure (i : Nat) (closure : Closure) : Server :=
  { s with closures := Function.update s.closures i (some closure) }

@[simp] def record (event : MeetingEvent) : Server :=
  { s with meetingEvents := s.meetingEvents ++ [event] }

/-- Answer a client message with an error and go back to receiving. -/
@[simp] def refuse (p : ParticipantId) (message : String) : Server :=
  (s.send p (.error message)).setRecv p .receiving

end Server

end OpenMeet.SignalingServer
