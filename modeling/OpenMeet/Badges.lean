import OpenMeet.SocialTables

/-!
The counts beside the sidebar's entries. Each count is the number of rows that
pass a test on the row and the user, so that a write changes the badges of those
users only for whom some row starts or stops passing.
-/
namespace OpenMeet.Badges

open KeyedMap Messages SocialTables

section Conversations

variable (userId : Uuid) (conversation : Conversation)

/-- Group memberships, and direct conversations the user has not hidden. -/
def inSidebar : Bool :=
  match conversation.kind with
  | .group _ => userId ∈ conversation.members
  | .direct lowId highId => (lowId = userId || highId = userId) && userId ∉ conversation.hidden

/-- COALESCE(last_read_sequence, 0) -/
def lastRead : Sequence := (conversation.readStates.lookup userId).elim 0 (·.lastReadSequence)

def isUnread (sequence : Sequence) (message : ConversationMessage) : Bool :=
  message.senderId ≠ userId && lastRead userId conversation < sequence

def hasUnread : Bool :=
  conversation.messages.entries.any fun row => isUnread userId conversation row.1 row.2

theorem hasUnread_iff : hasUnread userId conversation = true ↔ ∃ sequence message,
    conversation.messages.lookup sequence = some message ∧ message.senderId ≠ userId ∧
      lastRead userId conversation < sequence := by
  simp only [hasUnread, isUnread, List.any_eq_true, Bool.and_eq_true, decide_eq_true_eq]
  constructor
  · rintro ⟨⟨sequence, message⟩, hmem, hsender, hlast⟩
    exact ⟨sequence, message, AList.mem_lookup_iff.mpr hmem, hsender, hlast⟩
  · rintro ⟨sequence, message, hlookup, hsender, hlast⟩
    exact ⟨⟨sequence, message⟩, AList.mem_lookup_iff.mp hlookup, hsender, hlast⟩

def markedUnread : Bool := (conversation.readStates.lookup userId).any (·.markedUnread)

def conversationCounts : Bool :=
  inSidebar userId conversation &&
    (hasUnread userId conversation || markedUnread userId conversation)

end Conversations

section Calls

variable (db : SocialDatabase) (now : Timestamp) (userId : Uuid)

/-- The room had a meeting and none is live now. -/
def roomEnded (room : RoomId) : Bool :=
  db.meetings.entries.any (fun row => row.2.sfuRoomId = room) &&
    !db.meetings.entries.any fun row => row.2.sfuRoomId = room && row.2.endedAt.isNone

/-- The call's meeting ended or the call expired. -/
def callOver (call : CallSession) : Bool :=
  call.status ≠ .active || call.expiresAt ≤ now || roomEnded db call.sfuRoomId

/-- The user never answered the call, it was someone else's, and it is over. -/
def missedCall (call : CallSession) : Bool :=
  call.members.lookup userId = some .pending && call.initiatorId ≠ userId &&
    callOver db now call

def callCounts (call : CallSession) : Bool :=
  missedCall db now userId call && userId ∉ call.readBy

end Calls

structure BadgeCounts where
  messages : Nat
  friends : Nat
  calls : Nat
  deriving DecidableEq, Repr

section Counts

variable (db : SocialDatabase) (now : Timestamp) (userId : Uuid)

def countedConversations : List Uuid :=
  db.conversations.matching fun _ => conversationCounts userId

def pendingRequests : List Uuid :=
  db.directRequests.matching fun _ request =>
    request.recipientId = userId && request.status = .pending

def pendingInvitations : List Uuid :=
  db.invitations.matching fun _ invitation =>
    invitation.inviteeId = userId && invitation.status = .pending

def incomingFriendships : List Uuid :=
  db.friendships.matching fun _ friendship =>
    friendship.addresseeId = userId && friendship.status = .pending

def countedCalls : List Uuid := db.calls.matching fun _ => callCounts db now userId

def loadBadges : BadgeCounts where
  messages := (countedConversations db userId).length + (pendingRequests db userId).length +
    (pendingInvitations db userId).length
  friends := (incomingFriendships db userId).length
  calls := (countedCalls db now userId).length

end Counts

/-- The same rows count for the user before and after. -/
structure SameBadgeRows (before after : SocialDatabase) (now : Timestamp) (userId : Uuid) :
    Prop where
  conversations : ∀ id,
    id ∈ countedConversations after userId ↔ id ∈ countedConversations before userId
  requests : ∀ id, id ∈ pendingRequests after userId ↔ id ∈ pendingRequests before userId
  invitations : ∀ id,
    id ∈ pendingInvitations after userId ↔ id ∈ pendingInvitations before userId
  friendships : ∀ id,
    id ∈ incomingFriendships after userId ↔ id ∈ incomingFriendships before userId
  calls : ∀ id, id ∈ countedCalls after now userId ↔ id ∈ countedCalls before now userId

section Frame

variable {before after db : SocialDatabase} {now : Timestamp} {userId : Uuid}

theorem SameBadgeRows.loadBadges (h : SameBadgeRows before after now userId) :
    loadBadges after now userId = Badges.loadBadges before now userId := by
  unfold Badges.loadBadges
  rw [show (countedConversations after userId).length = (countedConversations before userId).length
      from Map.length_matching_congr h.conversations,
    show (pendingRequests after userId).length = (pendingRequests before userId).length
      from Map.length_matching_congr h.requests,
    show (pendingInvitations after userId).length = (pendingInvitations before userId).length
      from Map.length_matching_congr h.invitations,
    show (incomingFriendships after userId).length = (incomingFriendships before userId).length
      from Map.length_matching_congr h.friendships,
    show (countedCalls after now userId).length = (countedCalls before now userId).length
      from Map.length_matching_congr h.calls]

theorem SameBadgeRows.refl (db : SocialDatabase) (now : Timestamp) (userId : Uuid) :
    SameBadgeRows db db now userId :=
  ⟨fun _ => Iff.rfl, fun _ => Iff.rfl, fun _ => Iff.rfl, fun _ => Iff.rfl, fun _ => Iff.rfl⟩

theorem SameBadgeRows.trans (h : SameBadgeRows before db now userId)
    (h' : SameBadgeRows db after now userId) : SameBadgeRows before after now userId where
  conversations id := (h'.conversations id).trans (h.conversations id)
  requests id := (h'.requests id).trans (h.requests id)
  invitations id := (h'.invitations id).trans (h.invitations id)
  friendships id := (h'.friendships id).trans (h.friendships id)
  calls id := (h'.calls id).trans (h.calls id)

end Frame

end OpenMeet.Badges
