import OpenMeet.CallApi
import OpenMeet.FriendApi
import OpenMeet.MessageApi

/-!
Every request of the conversation, message, invitation, friendship, call and
meeting pages, as one step of the database.
-/
namespace OpenMeet.SocialRequests

open KeyedMap Messages Accounts SocialTables ConversationApi FriendApi

/-- The handlers of these modules that only read. -/
inductive ReadRequest
  | listConversations
  | listGroups
  | getGroupInfo
  | getGroupInfoByCode
  | listGroupMembers
  | listGroupCandidates
  | getGroupAvatar
  | listDirectMessageRequests
  | listGroupInvitations
  | getMessageAttachment
  | listSharedMedia
  | sharedMediaCounts
  | listFriends
  | listMeetingSessions
  | getMeetingSession
  | getRoomSummary
  | getRoomPresence
  deriving DecidableEq, Repr

inductive SocialRequest
  | read (request : ReadRequest)
  | createGroup (groupId : Uuid) (salt : String) (request : CreateGroupRequest)
  | joinGroup (groupId : Uuid) (password : Option String)
  | joinGroupByCode (code : String) (password : Option String)
  | updateGroup (groupId : Uuid) (salt : String) (request : UpdateGroupRequest)
  | updateGroupPolicy (groupId : Uuid) (salt : String) (policy : GroupAccessPolicy)
      (password : Option String)
  | addGroupMember (groupId memberId : Uuid)
  | removeGroupMember (groupId memberId : Uuid)
  | leaveGroup (groupId : Uuid)
  | deleteGroup (groupId : Uuid)
  | removeGroupAvatar (groupId : Uuid)
  | uploadGroupAvatar (groupId : Uuid) (key : String)
  | updateGroupMemberRole (groupId memberId : Uuid) (role : GroupMemberRole)
  | hideDirectConversation (conversationId : Uuid)
  | openDirectConversation (targetId freshId : Uuid)
  | respondToDirectMessageRequest (requestId freshId : Uuid) (accept : Bool)
  | createGroupInvitation (groupId inviteeId invitationId notificationId : Uuid)
  | acceptGroupInvitation (invitationId : Uuid) (password : Option String)
  | declineGroupInvitation (invitationId : Uuid)
  | createMessage (conversationId : Uuid) (content : String) (replyToSequence : Option Sequence)
  | createMessageWithAttachments (conversationId : Uuid)
      (upload : Except ApiError (String × Option Sequence × List MessageAttachment))
  | toggleMessageReaction (conversationId : Uuid) (sequence : Sequence) (emoji : String)
  | listMessages (conversationId : Uuid) (before limit : Option Int)
  | markConversationRead (conversationId : Uuid)
  | markConversationUnread (conversationId : Uuid)
  | createFriendRequest (friendshipId notificationId : Uuid) (request : CreateFriendRequest)
  | acceptFriendRequest (friendshipId : Uuid)
  | deleteFriendship (friendshipId notificationId : Uuid)
  | startCallSession (conversationId callId : Uuid) (room : RoomId)
  | listIncomingCallSessions
  | getCallSession (callId : Uuid)
  | cancelCallSession (callId : Uuid)
  | respondToCallSession (callId : Uuid) (accept : Bool)
  | markMeetingRead (sessionId : Uuid)
  | markMeetingUnread (sessionId : Uuid)

/-- What a request does, its answer aside. -/
def forget {Reply : Type*} (o : Outcome Reply) : Outcome Unit :=
  ⟨o.db, o.published, o.result.map fun _ => ()⟩

def handle (env : Environment) (db : SocialDatabase) (now : Timestamp) (userId : Uuid) :
    SocialRequest → Outcome Unit
  | .read _ => ⟨db, [], .ok ()⟩
  | .createGroup groupId salt request =>
    forget (ConversationApi.createGroup env db now userId groupId salt request)
  | .joinGroup groupId password =>
    forget (ConversationApi.joinGroup env db now userId groupId password)
  | .joinGroupByCode code password =>
    forget (ConversationApi.joinGroupByCode env db now userId code password)
  | .updateGroup groupId salt request =>
    forget (ConversationApi.updateGroup env db now userId groupId salt request)
  | .updateGroupPolicy groupId salt policy password =>
    forget (ConversationApi.updateGroupPolicy env db now userId groupId salt policy password)
  | .addGroupMember groupId memberId =>
    forget (ConversationApi.addGroupMember db now userId groupId memberId)
  | .removeGroupMember groupId memberId =>
    forget (ConversationApi.removeGroupMember db now userId groupId memberId)
  | .leaveGroup groupId => forget (ConversationApi.leaveGroup db now userId groupId)
  | .deleteGroup groupId => forget (ConversationApi.deleteGroup db userId groupId)
  | .removeGroupAvatar groupId =>
    forget (ConversationApi.removeGroupAvatar db now userId groupId)
  | .uploadGroupAvatar groupId key =>
    forget (ConversationApi.uploadGroupAvatar db now userId groupId key)
  | .updateGroupMemberRole groupId memberId role =>
    forget (ConversationApi.updateGroupMemberRole db now userId groupId memberId role)
  | .hideDirectConversation conversationId =>
    forget (ConversationApi.hideDirectConversation db userId conversationId)
  | .openDirectConversation targetId freshId =>
    forget (ConversationApi.openDirectConversation db now userId targetId freshId)
  | .respondToDirectMessageRequest requestId freshId accept =>
    forget
      (ConversationApi.respondToDirectMessageRequest db now userId requestId freshId accept)
  | .createGroupInvitation groupId inviteeId invitationId notificationId =>
    forget (ConversationApi.createGroupInvitation db userId groupId inviteeId invitationId
      notificationId)
  | .acceptGroupInvitation invitationId password =>
    forget (ConversationApi.acceptGroupInvitation env db now userId invitationId password)
  | .declineGroupInvitation invitationId =>
    forget (ConversationApi.declineGroupInvitation db userId invitationId)
  | .createMessage conversationId content replyToSequence =>
    forget (MessageApi.createMessage db now userId conversationId content replyToSequence)
  | .createMessageWithAttachments conversationId upload =>
    forget (MessageApi.createMessageWithAttachments db now userId conversationId upload)
  | .toggleMessageReaction conversationId sequence emoji =>
    forget (MessageApi.toggleMessageReaction env db userId conversationId sequence emoji)
  | .listMessages conversationId before limit =>
    forget (MessageApi.listMessages db userId conversationId before limit)
  | .markConversationRead conversationId =>
    forget (MessageApi.markConversationRead db userId conversationId)
  | .markConversationUnread conversationId =>
    forget (MessageApi.markConversationUnread db userId conversationId)
  | .createFriendRequest friendshipId notificationId request =>
    forget (FriendApi.createFriendRequest db userId friendshipId notificationId request)
  | .acceptFriendRequest friendshipId =>
    forget (FriendApi.acceptFriendRequest db userId friendshipId)
  | .deleteFriendship friendshipId notificationId =>
    forget (FriendApi.deleteFriendship db userId friendshipId notificationId)
  | .startCallSession conversationId callId room =>
    forget (CallApi.startCallSession db now userId conversationId callId room)
  | .listIncomingCallSessions => forget (CallApi.listIncomingCallSessions db now userId)
  | .getCallSession callId => forget (CallApi.getCallSession db now userId callId)
  | .cancelCallSession callId => forget (CallApi.cancelCallSession db userId callId)
  | .respondToCallSession callId accept =>
    forget (CallApi.respondToCallSession db now userId callId accept)
  | .markMeetingRead sessionId => forget (CallApi.markMeetingRead db now userId sessionId)
  | .markMeetingUnread sessionId =>
    forget (CallApi.markMeetingUnread db now userId sessionId)

/-- Requests one after the other, each with its time and its user. -/
def runRequests (env : Environment) (db : SocialDatabase) :
    List (Timestamp × Uuid × SocialRequest) → SocialDatabase
  | [] => db
  | (now, userId, request) :: rest => runRequests env (handle env db now userId request).db rest

/-- The tables before anyone has used them. -/
def emptyDatabase (accounts : Accounts.Database) : SocialDatabase where
  accounts := accounts
  conversations := ∅
  invitations := ∅
  directRequests := ∅
  friendships := ∅
  calls := ∅
  meetings := ∅
  meetingRooms := ∅
  roomInvitations := ∅
  revokedRooms := ∅
  notifications := ∅
  lastSequence := 0

end OpenMeet.SocialRequests
