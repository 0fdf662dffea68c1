import OpenMeet.BadgeNews
import OpenMeet.RequestEffects
import OpenMeet.Sidebar

/-!
How a conversation without messages comes to be flagged as unread: by a request
that flags it while it is empty, so the badge keeps mirroring the sidebar for as
long as there is no such request.
-/
namespace OpenMeet.UnreadFlags

open KeyedMap Messages Accounts SocialTables Badges ConversationApi MessageApi SocialRequests
  RequestEffects BadgeNews Sidebar

/-! ## Runs -/

/-- The request flags a conversation without messages. -/
def FlagsEmpty (db : SocialDatabase) : SocialRequest → Prop
  | .markConversationUnread id => ∃ conversation,
      db.conversations.lookup id = some conversation ∧ conversation.messages.isEmpty = true
  | _ => False

/-- No request of the run flags a conversation that has no messages at the time. -/
def NeverFlagsEmpty (env : Environment) (db : SocialDatabase) :
    List (Timestamp × Uuid × SocialRequest) → Prop
  | [] => True
  | (now, userId, request) :: rest =>
    ¬ FlagsEmpty db request ∧ NeverFlagsEmpty env (handle env db now userId request).db rest

/-- Whatever is flagged has messages. -/
def FlaggedHaveMessages (db : SocialDatabase) : Prop :=
  ∀ id conversation, db.conversations.lookup id = some conversation →
    ∀ userId, markedUnread userId conversation = true → conversation.messages.isEmpty = false

section Runs

variable {env : Environment} {db after : SocialDatabase} {now : Timestamp} {userId : Uuid}

theorem flaggedHaveMessages_of_carries (h : CarriesConversations db after)
    (hdb : FlaggedHaveMessages db) :
    FlaggedHaveMessages after := by
  intro id conversation hlookup other hmarked
  rcases h id conversation hlookup with hnone | ⟨earlier, hearlier, hcarries⟩
  · rw [hnone other] at hmarked
    cases hmarked
  · rw [Bool.eq_false_iff]
    intro hempty
    have hsome := hdb id earlier hearlier other (hcarries.flags other hmarked)
    rw [hcarries.messages hempty] at hsome
    cases hsome

theorem setMarkedUnread_flaggedHaveMessages {id : Uuid} (hdb : FlaggedHaveMessages db)
    (h : ∀ conversation, db.conversations.lookup id = some conversation →
      conversation.messages.isEmpty = false) :
    FlaggedHaveMessages (setMarkedUnread db id userId) := by
  intro other conversation hlookup reader hmarked
  simp only [setMarkedUnread, modifyConversation, Map.lookup_modify] at hlookup
  split at hlookup
  · rename_i hother
    obtain ⟨earlier, hearlier, rfl⟩ := Option.map_eq_some_iff.mp hlookup
    exact h earlier (hother ▸ hearlier)
  · exact hdb other conversation hlookup reader hmarked

theorem markConversationUnread_flaggedHaveMessages {id : Uuid} (hdb : FlaggedHaveMessages db)
    (h : ¬ FlagsEmpty db (.markConversationUnread id)) :
    FlaggedHaveMessages (markConversationUnread db userId id).db := by
  unfold markConversationUnread
  split
  · exact hdb
  · refine setMarkedUnread_flaggedHaveMessages hdb fun conversation hlookup => ?_
    rw [Bool.eq_false_iff]
    exact fun hempty => h ⟨conversation, hlookup, hempty⟩

theorem forget_flaggedHaveMessages {Reply : Type*} {o : Outcome Reply}
    (h : CarriesConversations db o.db) (hdb : FlaggedHaveMessages db) :
    FlaggedHaveMessages (forget o).db :=
  flaggedHaveMessages_of_carries h hdb

theorem handle_flaggedHaveMessages {request : SocialRequest} (hdb : FlaggedHaveMessages db)
    (h : ¬ FlagsEmpty db request) :
    FlaggedHaveMessages (handle env db now userId request).db := by
  cases request with
  | markConversationUnread id => exact markConversationUnread_flaggedHaveMessages hdb h
  | read request => exact hdb
  | createGroup groupId salt request =>
    exact forget_flaggedHaveMessages (createGroup_carries groupId salt request).conversations hdb
  | joinGroup groupId password =>
    exact forget_flaggedHaveMessages (joinGroup_carries groupId password).conversations hdb
  | joinGroupByCode code password =>
    exact forget_flaggedHaveMessages (joinGroupByCode_carries code password).conversations hdb
  | updateGroup groupId salt request =>
    exact forget_flaggedHaveMessages (updateGroup_carries groupId salt request).conversations hdb
  | updateGroupPolicy groupId salt policy password =>
    exact forget_flaggedHaveMessages (updateGroup_carries groupId salt _).conversations hdb
  | addGroupMember groupId memberId =>
    exact forget_flaggedHaveMessages (addGroupMember_carries groupId memberId).conversations hdb
  | removeGroupMember groupId memberId =>
    exact forget_flaggedHaveMessages (removeGroupMember_carries groupId memberId).conversations hdb
  | leaveGroup groupId =>
    exact forget_flaggedHaveMessages (leaveGroup_carries groupId).conversations hdb
  | deleteGroup groupId =>
    exact forget_flaggedHaveMessages (deleteGroup_carries groupId).conversations hdb
  | removeGroupAvatar groupId =>
    exact forget_flaggedHaveMessages (removeGroupAvatar_carries groupId).conversations hdb
  | uploadGroupAvatar groupId key =>
    exact forget_flaggedHaveMessages (uploadGroupAvatar_carries groupId key).conversations hdb
  | updateGroupMemberRole groupId memberId role =>
    exact forget_flaggedHaveMessages
      (updateGroupMemberRole_carries groupId memberId role).conversations hdb
  | hideDirectConversation conversationId =>
    exact forget_flaggedHaveMessages
      (hideDirectConversation_carries conversationId).conversations hdb
  | openDirectConversation targetId freshId =>
    exact forget_flaggedHaveMessages
      (openDirectConversation_carries targetId freshId).conversations hdb
  | respondToDirectMessageRequest requestId freshId accept =>
    exact forget_flaggedHaveMessages
      (respondToDirectMessageRequest_carries requestId freshId accept).conversations hdb
  | createGroupInvitation groupId inviteeId invitationId notificationId =>
    exact forget_flaggedHaveMessages (createGroupInvitation_carries groupId inviteeId invitationId
      notificationId).conversations hdb
  | acceptGroupInvitation invitationId password =>
    exact forget_flaggedHaveMessages
      (acceptGroupInvitation_carries invitationId password).conversations hdb
  | declineGroupInvitation invitationId =>
    exact forget_flaggedHaveMessages (declineGroupInvitation_carries invitationId).conversations hdb
  | createMessage conversationId content replyToSequence =>
    exact forget_flaggedHaveMessages
      (createMessage_carries conversationId content replyToSequence).conversations hdb
  | createMessageWithAttachments conversationId upload =>
    exact forget_flaggedHaveMessages
      (createMessageWithAttachments_carries conversationId upload).conversations hdb
  | toggleMessageReaction conversationId sequence emoji =>
    exact forget_flaggedHaveMessages
      (toggleMessageReaction_carries conversationId sequence emoji).conversations hdb
  | listMessages conversationId before limit =>
    exact forget_flaggedHaveMessages
      (listMessages_carries conversationId before limit).conversations hdb
  | markConversationRead conversationId =>
    exact forget_flaggedHaveMessages (markConversationRead_carries conversationId).conversations hdb
  | createFriendRequest friendshipId notificationId request =>
    exact forget_flaggedHaveMessages
      (createFriendRequest_carries friendshipId notificationId request).conversations hdb
  | acceptFriendRequest friendshipId =>
    exact forget_flaggedHaveMessages (acceptFriendRequest_carries friendshipId).conversations hdb
  | deleteFriendship friendshipId notificationId =>
    exact forget_flaggedHaveMessages
      (deleteFriendship_carries friendshipId notificationId).conversations hdb
  | startCallSession conversationId callId room =>
    exact forget_flaggedHaveMessages (startCallSession_conversations conversationId callId room) hdb
  | listIncomingCallSessions =>
    exact forget_flaggedHaveMessages listIncomingCallSessions_carries.conversations hdb
  | getCallSession callId =>
    exact forget_flaggedHaveMessages (getCallSession_carries callId).conversations hdb
  | cancelCallSession callId =>
    exact forget_flaggedHaveMessages (cancelCallSession_carries callId).conversations hdb
  | respondToCallSession callId accept =>
    exact forget_flaggedHaveMessages (respondToCallSession_carries callId accept).conversations hdb
  | markMeetingRead sessionId =>
    exact forget_flaggedHaveMessages (markMeetingRead_carries sessionId).conversations hdb
  | markMeetingUnread sessionId =>
    exact forget_flaggedHaveMessages (markMeetingUnread_carries sessionId).conversations hdb

theorem runRequests_flaggedHaveMessages {requests : List (Timestamp × Uuid × SocialRequest)}
    (hdb : FlaggedHaveMessages db) (h : NeverFlagsEmpty env db requests) :
    FlaggedHaveMessages (runRequests env db requests) := by
  induction requests generalizing db with
  | nil => exact hdb
  | cons request rest ih => exact ih (handle_flaggedHaveMessages hdb h.1) h.2

theorem emptyDatabase_flaggedHaveMessages (accounts : Accounts.Database) :
    FlaggedHaveMessages (emptyDatabase accounts) := by
  intro id conversation hlookup
  simp [emptyDatabase] at hlookup

end Runs

/-- The badge mirrors the sidebar in the states where the user has flagged no empty conversation
in it, so in every state of a run that never flags an empty conversation. -/
theorem badge_mirrors_sidebar (env : Environment) (accounts : Accounts.Database) :
    (∀ db now userId, BadgeMirrorsSidebar db userId now ↔ ¬ FlagsEmptyConversation db userId) ∧
      ∀ requests, NeverFlagsEmpty env (emptyDatabase accounts) requests →
        ∀ now userId,
          BadgeMirrorsSidebar (runRequests env (emptyDatabase accounts) requests) userId now := by
  refine ⟨badgeMirrorsSidebar_iff, fun requests hnever now userId => ?_⟩
  rw [badgeMirrorsSidebar_iff]
  rintro ⟨id, conversation, hlookup, -, hempty, hmarked⟩
  have hflagged : FlaggedHaveMessages (runRequests env (emptyDatabase accounts) requests) :=
    runRequests_flaggedHaveMessages (emptyDatabase_flaggedHaveMessages accounts) hnever
  rw [hflagged id conversation hlookup userId hmarked] at hempty
  cases hempty

/-- Ada writes in a group of her own. -/
def writeAlone : List (Timestamp × Uuid × SocialRequest) :=
  [(0, 1, .createGroup 10 "" ⟨"Team", .open, none, []⟩), (1, 1, .createMessage 10 "hello" none)]

/-- She can flag the group now that it has a message. -/
theorem flagWritten_mirrored : ∃ accounts ∈ adaAndBob,
    BadgeMirrorsSidebar (runRequests plainHashing (emptyDatabase accounts)
      (writeAlone ++ [(2, 1, .markConversationUnread 10)])) 1 3 := by
  obtain ⟨accounts, haccounts, hwritten⟩ : ∃ accounts ∈ adaAndBob,
      ((runRequests plainHashing (emptyDatabase accounts) writeAlone).conversations.lookup 10).all
        (fun conversation => !conversation.messages.isEmpty) = true := by
    decide +kernel
  refine ⟨accounts, haccounts, (badge_mirrors_sidebar plainHashing accounts).2 _ ?_ 3 1⟩
  refine ⟨id, id, ?_, trivial⟩
  rintro ⟨conversation, hlookup, hempty⟩
  have hfound : (runRequests plainHashing (emptyDatabase accounts) writeAlone).conversations.lookup
      10 = some conversation := hlookup
  rw [hfound, Option.all_some, hempty] at hwritten
  cases hwritten

/-- Ada makes a group and marks it unread. -/
def flagNewGroup : List (Timestamp × Uuid × SocialRequest) :=
  [(0, 1, .createGroup 10 "" ⟨"Team", .open, none, []⟩), (1, 1, .markConversationUnread 10)]

/-- The badge shows one, and no conversation in the sidebar is unread. -/
theorem flagNewGroup_not_mirrored : ∃ accounts ∈ adaAndBob,
    ¬ BadgeMirrorsSidebar (runRequests plainHashing (emptyDatabase accounts) flagNewGroup) 1 2 := by
  obtain ⟨accounts, haccounts, hbadge, hshown, hrequests, hinvitations⟩ :
      ∃ accounts ∈ adaAndBob,
        let db := runRequests plainHashing (emptyDatabase accounts) flagNewGroup
        (loadBadges db 2 1).messages = 1 ∧ shownIds db 1 = [] ∧ pendingRequests db 1 = [] ∧
          pendingInvitations db 1 = [] := by
    decide +kernel
  refine ⟨accounts, haccounts, ?_⟩
  rintro ⟨response, hlisted, hmirrors⟩
  obtain ⟨answers, hanswers, hlength⟩ := listConversations_ok
    (runRequests plainHashing (emptyDatabase accounts) flagNewGroup) 1
  obtain rfl := Except.ok.inj (hlisted.symm.trans hanswers)
  rw [hbadge, hlength, hshown, hrequests, hinvitations] at hmirrors
  cases hmirrors

end OpenMeet.UnreadFlags
