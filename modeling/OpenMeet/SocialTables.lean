import Mathlib.Data.List.Sort
import OpenMeet.Accounts

/-!
The tables behind conversations, invitations, friendships, calls and meetings.
Rows that a foreign key ties to one conversation, call or meeting are kept in
it, so that they cannot outlive it: members, messages, read and hidden states
in the conversation, members and read states in the call, participants in the
meeting. Columns that no modelled query reads are left out.
-/
namespace OpenMeet.SocialTables

open KeyedMap Messages Accounts

/-- Microseconds. -/
abbrev Timestamp := Nat

/-- Sequences of messages, from one counter for all conversations. -/
abbrev Sequence := Nat

/-- ORDER BY key DESC -/
def orderByDesc {Row : Type*} (key : Row → Nat) (rows : List Row) : List Row :=
  rows.insertionSort fun a b => key b ≤ key a

section Order

variable {Row : Type*} (key : Row → Nat) (rows : List Row)

theorem orderByDesc_perm : (orderByDesc key rows).Perm rows := List.perm_insertionSort _ rows

theorem orderByDesc_pairwise : (orderByDesc key rows).Pairwise fun a b => key b ≤ key a := by
  have : Std.Total fun a b : Row => key b ≤ key a := ⟨fun a b => Nat.le_total (key b) (key a)⟩
  have : IsTrans Row fun a b => key b ≤ key a := ⟨fun _ _ _ hab hbc => hbc.trans hab⟩
  exact List.pairwise_insertionSort _ rows

end Order

inductive GroupAccessPolicy
  | open
  | password
  | friendsOnly
  | friendsOfFriends
  deriving DecidableEq, Repr

inductive MemberRole
  | creator
  | admin
  | member
  deriving DecidableEq, Repr

structure ConversationMember where
  role : MemberRole
  joinedAt : Timestamp
  deriving DecidableEq, Repr

structure MessageAttachment where
  id : Uuid
  storageKey : String
  fileName : String
  contentType : String
  byteSize : Nat
  deriving DecidableEq, Repr

structure ConversationMessage where
  senderId : Uuid
  senderName : String
  content : String
  replyToSequence : Option Sequence
  attachments : List MessageAttachment
  reactions : Finset (Uuid × String)
  deriving DecidableEq

structure ReadState where
  lastReadSequence : Sequence
  markedUnread : Bool
  deriving DecidableEq, Repr

structure Group where
  title : String
  accessPolicy : GroupAccessPolicy
  passwordHash : Option String
  groupCode : String
  legacyGroupCode : Option String
  avatarKey : Option String
  deriving DecidableEq, Repr

/-- A group with its columns, or the pair of a direct conversation. -/
inductive ConversationKind
  | group (group : Group)
  | direct (lowId highId : Uuid)
  deriving DecidableEq, Repr

structure Conversation where
  kind : ConversationKind
  creatorId : Uuid
  updatedAt : Timestamp
  members : Map Uuid ConversationMember
  messages : Map Sequence ConversationMessage
  readStates : Map Uuid ReadState
  hidden : Finset Uuid

inductive RequestStatus
  | pending
  | accepted
  | declined
  deriving DecidableEq, Repr

structure GroupInvitation where
  conversationId : Uuid
  inviterId : Uuid
  inviteeId : Uuid
  status : RequestStatus
  deriving DecidableEq, Repr

structure DirectMessageRequest where
  requesterId : Uuid
  recipientId : Uuid
  status : RequestStatus
  deriving DecidableEq, Repr

inductive FriendshipStatus
  | pending
  | accepted
  deriving DecidableEq, Repr

structure Friendship where
  requesterId : Uuid
  addresseeId : Uuid
  status : FriendshipStatus
  deriving DecidableEq, Repr

inductive CallStatus
  | active
  | expired
  deriving DecidableEq, Repr

/-- A call, with its members' answers and the users who have read that they missed it. -/
structure CallSession where
  conversationId : Uuid
  initiatorId : Uuid
  sfuRoomId : RoomId
  status : CallStatus
  expiresAt : Timestamp
  members : Map Uuid RequestStatus
  readBy : Finset Uuid

structure MeetingParticipant where
  participantId : ParticipantId
  userId : Option Uuid
  displayName : String
  joinedAt : Timestamp
  leftAt : Option Timestamp
  deriving DecidableEq, Repr

structure MeetingSession where
  sfuRoomId : RoomId
  startedAt : Timestamp
  endedAt : Option Timestamp
  participants : Map Uuid MeetingParticipant

structure MeetingRoom where
  roomId : RoomId
  ownerId : Uuid
  accessPolicy : GroupAccessPolicy
  passwordHash : Option String
  hash_of_policy : accessPolicy = .password ↔ passwordHash.isSome = true
  deriving DecidableEq, Repr

structure Notification where
  recipientId : Uuid
  actorId : Uuid
  kind : String
  read : Bool
  deriving DecidableEq, Repr

structure SocialDatabase where
  accounts : Accounts.Database
  conversations : Map Uuid Conversation
  invitations : Map Uuid GroupInvitation
  directRequests : Map Uuid DirectMessageRequest
  friendships : Map Uuid Friendship
  calls : Map Uuid CallSession
  meetings : Map Uuid MeetingSession
  meetingRooms : Map RoomId MeetingRoom
  roomInvitations : Finset (RoomId × Uuid)
  revokedRooms : Finset RoomId
  notifications : Map Uuid Notification
  lastSequence : Sequence

inductive SocialResource
  | calls
  | conversations
  | friends
  | notifications
  deriving DecidableEq, Repr

/-- One call of the hub's publish. -/
structure Publication where
  recipients : List Uuid
  resource : SocialResource
  deriving DecidableEq, Repr

/-- The database after a request, what it has published and what it answers. -/
structure Outcome (Reply : Type*) where
  db : SocialDatabase
  published : List Publication
  result : Except ApiError Reply

namespace Outcome

variable {Reply : Type*}

/-- An error that leaves the database as it was. -/
def refuse (db : SocialDatabase) (e : ApiError) : Outcome Reply := ⟨db, [], .error e⟩

def notified (o : Outcome Reply) (id : Uuid) : Prop := ∃ p ∈ o.published, id ∈ p.recipients

instance (o : Outcome Reply) (id : Uuid) : Decidable (o.notified id) :=
  inferInstanceAs (Decidable (∃ p ∈ o.published, id ∈ p.recipients))

end Outcome

def requestFailed : ApiError := ⟨500, "Request failed"⟩

/-- Hashing of group passwords, the letters and digits of Unicode, and its lower case. -/
structure Environment where
  hashPassword : String → String → Option String
  verifyPassword : String → String → Option Bool
  isAlphanumeric : Char → Bool
  toLowercase : String → String

end OpenMeet.SocialTables
