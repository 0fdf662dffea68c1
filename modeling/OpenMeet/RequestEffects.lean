import OpenMeet.BadgeRows
import OpenMeet.SocialRequests

/-!
What a request can do to the conversations and the calls that stay. No request
takes messages out of a conversation, and only one flags it as unread; a call
keeps its conversation, its caller and its room, and only one request makes a
new one.
-/
namespace OpenMeet.RequestEffects

open KeyedMap Messages Accounts SocialTables Badges ConversationApi MessageApi FriendApi CallApi
  SocialRequests

/-- All messages are still there, and nobody has flagged the conversation since. -/
structure CarriesConversation (before after : Conversation) : Prop where
  messages : after.messages.isEmpty = true → before.messages.isEmpty = true
  flags : ∀ userId, markedUnread userId after = true → markedUnread userId before = true

/-- The answers, the status and who has read it may differ. -/
structure CarriesCall (before after : CallSession) : Prop where
  conversationId : after.conversationId = before.conversationId
  initiatorId : after.initiatorId = before.initiatorId
  sfuRoomId : after.sfuRoomId = before.sfuRoomId
  expiresAt : after.expiresAt = before.expiresAt

/-- Every conversation is carried over from before or has no flag. -/
def CarriesConversations (before after : SocialDatabase) : Prop :=
  ∀ id conversation, after.conversations.lookup id = some conversation →
    (∀ userId, markedUnread userId conversation = false) ∨
      ∃ earlier, before.conversations.lookup id = some earlier ∧
        CarriesConversation earlier conversation

/-- Every call is carried over from before. -/
def CarriesCalls (before after : SocialDatabase) : Prop :=
  ∀ id call, after.calls.lookup id = some call →
    ∃ earlier, before.calls.lookup id = some earlier ∧ CarriesCall earlier call

structure CarriesAll (before after : SocialDatabase) : Prop where
  conversations : CarriesConversations before after
  calls : CarriesCalls before after

section Writes

variable {db db' after : SocialDatabase} {now : Timestamp} {userId id : Uuid}

theorem CarriesConversation.refl (conversation : Conversation) :
    CarriesConversation conversation conversation :=
  ⟨fun h => h, fun _ h => h⟩

theorem CarriesCall.refl (call : CallSession) : CarriesCall call call := ⟨rfl, rfl, rfl, rfl⟩

theorem carriesConversations_of_eq (h : after.conversations = db.conversations) :
    CarriesConversations db after :=
  fun _ conversation hlookup => .inr ⟨conversation, h ▸ hlookup, .refl conversation⟩

theorem carriesCalls_of_eq (h : after.calls = db.calls) : CarriesCalls db after :=
  fun _ call hlookup => ⟨call, h ▸ hlookup, .refl call⟩

theorem carriesAll_of_eq (hconversations : after.conversations = db.conversations)
    (hcalls : after.calls = db.calls) : CarriesAll db after :=
  ⟨carriesConversations_of_eq hconversations, carriesCalls_of_eq hcalls⟩

theorem CarriesAll.refl (db : SocialDatabase) : CarriesAll db db := carriesAll_of_eq rfl rfl

theorem CarriesConversations.trans (h : CarriesConversations db db')
    (h' : CarriesConversations db' after) : CarriesConversations db after := by
  intro id conversation hlookup
  rcases h' id conversation hlookup with hnone | ⟨middle, hmiddle, hcarries⟩
  · exact .inl hnone
  · rcases h id middle hmiddle with hnone | ⟨earlier, hearlier, hcarries'⟩
    · refine .inl fun userId => ?_
      rw [Bool.eq_false_iff]
      exact fun hmarked => Bool.eq_false_iff.mp (hnone userId) (hcarries.flags userId hmarked)
    · exact .inr ⟨earlier, hearlier, fun hempty => hcarries'.messages (hcarries.messages hempty),
        fun userId hmarked => hcarries'.flags userId (hcarries.flags userId hmarked)⟩

theorem CarriesCalls.trans (h : CarriesCalls db db') (h' : CarriesCalls db' after) :
    CarriesCalls db after := by
  intro id call hlookup
  obtain ⟨middle, hmiddle, hcarries⟩ := h' id call hlookup
  obtain ⟨earlier, hearlier, hcarries'⟩ := h id middle hmiddle
  exact ⟨earlier, hearlier, hcarries.conversationId.trans hcarries'.conversationId,
    hcarries.initiatorId.trans hcarries'.initiatorId, hcarries.sfuRoomId.trans hcarries'.sfuRoomId,
    hcarries.expiresAt.trans hcarries'.expiresAt⟩

theorem CarriesAll.trans (h : CarriesAll db db') (h' : CarriesAll db' after) :
    CarriesAll db after :=
  ⟨h.conversations.trans h'.conversations, h.calls.trans h'.calls⟩

/-! ### Conversations -/

theorem modifyConversation_carries {f : Conversation → Conversation}
    (h : ∀ conversation, CarriesConversation conversation (f conversation)) :
    CarriesAll db (modifyConversation db id f) := by
  refine ⟨fun other conversation hlookup => ?_, carriesCalls_of_eq rfl⟩
  simp only [modifyConversation, Map.lookup_modify] at hlookup
  split at hlookup
  · obtain ⟨earlier, hearlier, rfl⟩ := Option.map_eq_some_iff.mp hlookup
    exact .inr ⟨earlier, hearlier, h earlier⟩
  · exact .inr ⟨conversation, hlookup, .refl conversation⟩

/-- Neither the messages nor the read states are written. -/
theorem modifyConversation_carries_of_eq {f : Conversation → Conversation}
    (hmessages : ∀ conversation, (f conversation).messages = conversation.messages)
    (hreads : ∀ conversation, (f conversation).readStates = conversation.readStates) :
    CarriesAll db (modifyConversation db id f) :=
  modifyConversation_carries fun conversation =>
    ⟨fun h => hmessages conversation ▸ h, fun userId h => by
      simpa only [markedUnread, hreads] using h⟩

theorem insertConversation_carries {conversation : Conversation}
    (h : conversation.readStates = ∅) : CarriesAll db (insertConversation db id conversation) := by
  refine ⟨fun other found hlookup => ?_, carriesCalls_of_eq rfl⟩
  by_cases hother : other = id
  · subst hother
    rw [insertConversation, AList.lookup_insert] at hlookup
    cases hlookup
    exact .inl fun userId => by simp [markedUnread, h]
  · rw [insertConversation, AList.lookup_insert_ne hother] at hlookup
    exact .inr ⟨found, hlookup, .refl found⟩

theorem addMember_carries : CarriesAll db (addMember db now id userId) :=
  modifyConversation_carries_of_eq (fun _ => rfl) fun _ => rfl

theorem unhide_carries : CarriesAll db (unhide db id userId) :=
  modifyConversation_carries_of_eq (fun _ => rfl) fun _ => rfl

theorem resolvePendingDirectRequest_carries (firstId secondId : Uuid) :
    CarriesAll db (resolvePendingDirectRequest db firstId secondId) := carriesAll_of_eq rfl rfl

theorem revoke_carries : CarriesAll db (revokeGroupCallMemberships db id userId) := by
  refine ⟨carriesConversations_of_eq rfl, fun callId call hlookup => ?_⟩
  rw [revokeGroupCallMemberships, Map.lookup_mapValues] at hlookup
  obtain ⟨earlier, hearlier, rfl⟩ := Option.map_eq_some_iff.mp hlookup
  refine ⟨earlier, hearlier, ?_⟩
  split
  · exact ⟨rfl, rfl, rfl, rfl⟩
  · exact .refl earlier

theorem removeMember_carries : CarriesAll db (removeMember db now id userId) := by
  have herased : CarriesAll db (modifyConversation db id fun conversation =>
      { conversation with members := conversation.members.erase userId, updatedAt := now }) :=
    modifyConversation_carries_of_eq (fun _ => rfl) fun _ => rfl
  exact herased.trans revoke_carries

theorem deleteConversation_carries : CarriesAll db (deleteConversation db id) := by
  constructor
  · intro other conversation hlookup
    by_cases hother : other = id
    · subst hother
      simp [deleteConversation] at hlookup
    · rw [deleteConversation, AList.lookup_erase_ne hother] at hlookup
      exact .inr ⟨conversation, hlookup, .refl conversation⟩
  · intro callId call hlookup
    rw [deleteConversation, Map.lookup_retain, Option.filter_eq_some_iff] at hlookup
    exact ⟨call, hlookup.1, .refl call⟩

theorem ensureDirectConversation_carries {freshId firstId secondId : Uuid}
    {conversation : Conversation}
    (h : ensureDirectConversation db now freshId firstId secondId = .ok (after, id, conversation)) :
    CarriesAll db after := by
  unfold ensureDirectConversation at h
  split at h
  · cases h
    exact .refl db
  · split at h <;> cases h
    exact insertConversation_carries rfl

theorem insertMessage_carries {message : ConversationMessage} :
    CarriesAll db (insertMessage db now id message) := by
  have hmodified : CarriesAll db (modifyConversation db id fun conversation =>
      { conversation with
        messages := conversation.messages.insert (db.lastSequence + 1) message
        hidden := conversation.hidden.filter (· = message.senderId)
        updatedAt := now }) := by
    refine modifyConversation_carries fun conversation => ⟨fun hempty => ?_, fun _ h => h⟩
    exact absurd ((AList.mem_insert _).mpr (.inl rfl)) ((Map.isEmpty_iff _).mp hempty _)
  exact hmodified.trans (carriesAll_of_eq rfl rfl)

theorem markMessagesRead_carries {latest : Sequence} :
    CarriesAll db (markMessagesRead db id userId latest) := by
  refine modifyConversation_carries fun conversation => ⟨fun h => h, fun other h => ?_⟩
  by_cases hother : other = userId
  · subst hother
    simp [markedUnread] at h
  · simpa only [markedUnread, AList.lookup_insert_ne hother] using h

theorem toggleReaction_carries {sequence : Sequence} {emoji : String} :
    CarriesAll db (toggleReaction db id userId sequence emoji) :=
  modifyConversation_carries fun conversation =>
    ⟨fun h => by simpa [Map.modify] using h, fun _ h => h⟩

/-! ### Calls -/

theorem expire_carries {test : CallSession → Bool} : CarriesAll db (expire db test) := by
  refine ⟨carriesConversations_of_eq rfl, fun callId call hlookup => ?_⟩
  rw [expire, Map.lookup_mapValues] at hlookup
  obtain ⟨earlier, hearlier, rfl⟩ := Option.map_eq_some_iff.mp hlookup
  refine ⟨earlier, hearlier, ?_⟩
  split
  · exact ⟨rfl, rfl, rfl, rfl⟩
  · exact .refl earlier

theorem modifyCall_carries {f : CallSession → CallSession}
    (h : ∀ call, CarriesCall call (f call)) : CarriesAll db (modifyCall db id f) := by
  refine ⟨carriesConversations_of_eq rfl, fun callId call hlookup => ?_⟩
  simp only [modifyCall, Map.lookup_modify] at hlookup
  split at hlookup
  · obtain ⟨earlier, hearlier, rfl⟩ := Option.map_eq_some_iff.mp hlookup
    exact ⟨earlier, hearlier, h earlier⟩
  · exact ⟨call, hlookup, .refl call⟩

end Writes

/-! ## Requests -/

section Requests

variable {env : Environment} {db : SocialDatabase} {now : Timestamp} {userId : Uuid}

theorem createGroup_carries (groupId : Uuid) (salt : String) (request : CreateGroupRequest) :
    CarriesAll db (createGroup env db now userId groupId salt request).db := by
  unfold createGroup
  split
  iterate 5 exact .refl db
  split
  · exact .refl db
  · exact insertConversation_carries rfl

theorem joinGroup_carries (groupId : Uuid) (password : Option String) :
    CarriesAll db (joinGroup env db now userId groupId password).db := by
  unfold joinGroup
  repeat' split
  iterate 3 exact .refl db
  exact addMember_carries

theorem joinGroupByCode_carries (code : String) (password : Option String) :
    CarriesAll db (joinGroupByCode env db now userId code password).db := by
  unfold joinGroupByCode
  split
  · exact .refl db
  · exact joinGroup_carries _ password

theorem writeGroup_carries (groupId : Uuid) (title : Option String)
    (policy : Option GroupAccessPolicy) (passwordHash : Option String) :
    CarriesAll db (writeGroup db now userId groupId title policy passwordHash).db := by
  unfold writeGroup
  split
  · exact .refl db
  · split
    · exact .refl db
    · exact modifyConversation_carries_of_eq (fun _ => rfl) fun _ => rfl

theorem updateGroup_carries (groupId : Uuid) (salt : String) (request : UpdateGroupRequest) :
    CarriesAll db (updateGroup env db now userId groupId salt request).db := by
  unfold updateGroup
  dsimp only
  split
  · exact .refl db
  · split
    iterate 3 exact .refl db
    split
    iterate 2 exact .refl db
    exact writeGroup_carries _ _ _ _

theorem addGroupMember_carries (groupId memberId : Uuid) :
    CarriesAll db (addGroupMember db now userId groupId memberId).db := by
  unfold addGroupMember
  split
  iterate 2 exact .refl db
  dsimp only
  split
  · exact .refl db
  · rename_i after hadded
    split at hadded
    · cases hadded
      exact .refl db
    · cases hadmitted : authorizeAdminAddition db _ _ memberId with
      | error e =>
        rw [hadmitted] at hadded
        cases hadded
      | ok _ =>
        rw [hadmitted] at hadded
        cases hadded
        exact addMember_carries

theorem removeGroupMember_carries (groupId memberId : Uuid) :
    CarriesAll db (removeGroupMember db now userId groupId memberId).db := by
  unfold removeGroupMember
  repeat' split
  iterate 2 exact .refl db
  · exact removeMember_carries
  · exact .refl db

theorem leaveGroup_carries (groupId : Uuid) :
    CarriesAll db (leaveGroup db now userId groupId).db := by
  unfold leaveGroup
  repeat' split
  · exact .refl db
  · exact .refl db
  · rename_i successor _ _
    have hhanded : CarriesAll db (modifyConversation db groupId fun conversation =>
        { conversation with
          creatorId := successor
          members := conversation.members.modify successor fun member =>
            { member with role := .creator } }) :=
      modifyConversation_carries_of_eq (fun _ => rfl) fun _ => rfl
    exact hhanded.trans removeMember_carries
  · exact .refl db
  · exact removeMember_carries
  · exact .refl db

theorem deleteGroup_carries (groupId : Uuid) :
    CarriesAll db (deleteGroup db userId groupId).db := by
  unfold deleteGroup
  split
  · exact .refl db
  · exact deleteConversation_carries

theorem removeGroupAvatar_carries (groupId : Uuid) :
    CarriesAll db (removeGroupAvatar db now userId groupId).db := by
  unfold removeGroupAvatar
  repeat' split
  iterate 2 exact .refl db
  exact modifyConversation_carries_of_eq (fun _ => rfl) fun _ => rfl

theorem uploadGroupAvatar_carries (groupId : Uuid) (key : String) :
    CarriesAll db (uploadGroupAvatar db now userId groupId key).db := by
  unfold uploadGroupAvatar
  split
  · exact .refl db
  · exact modifyConversation_carries_of_eq (fun _ => rfl) fun _ => rfl

theorem updateGroupMemberRole_carries (groupId memberId : Uuid) (role : GroupMemberRole) :
    CarriesAll db (updateGroupMemberRole db now userId groupId memberId role).db := by
  unfold updateGroupMemberRole
  repeat' split
  iterate 3 exact .refl db
  · exact modifyConversation_carries_of_eq (fun _ => rfl) fun _ => rfl
  · exact .refl db

theorem hideDirectConversation_carries (conversationId : Uuid) :
    CarriesAll db (hideDirectConversation db userId conversationId).db := by
  unfold hideDirectConversation
  repeat' split
  iterate 3 exact .refl db
  exact modifyConversation_carries_of_eq (fun _ => rfl) fun _ => rfl

theorem openDirectConversation_carries (targetId freshId : Uuid) :
    CarriesAll db (openDirectConversation db now userId targetId freshId).db := by
  unfold openDirectConversation
  split
  · exact .refl db
  split
  · exact .refl db
  split
  · exact unhide_carries
  split
  · split
    · exact .refl db
    · rename_i hcreated
      have hresolved := (ensureDirectConversation_carries hcreated).trans
        (resolvePendingDirectRequest_carries userId targetId)
      exact hresolved.trans unhide_carries
  · split
    · split
      · exact .refl db
      · split
        · split
          · exact .refl db
          · rename_i hcreated
            exact ensureDirectConversation_carries hcreated
        · exact .refl db
    · split
      · exact .refl db
      · exact carriesAll_of_eq rfl rfl

theorem respondToDirectMessageRequest_carries (requestId freshId : Uuid) (accept : Bool) :
    CarriesAll db (respondToDirectMessageRequest db now userId requestId freshId accept).db := by
  unfold respondToDirectMessageRequest
  split
  · exact .refl db
  split
  · exact .refl db
  dsimp only
  split
  · split
    · exact .refl db
    · rename_i hcreated
      have hensured := ensureDirectConversation_carries hcreated
      exact ⟨hensured.conversations, hensured.calls⟩
  · exact carriesAll_of_eq rfl rfl

theorem createGroupInvitation_carries (groupId inviteeId invitationId notificationId : Uuid) :
    CarriesAll db
      (createGroupInvitation db userId groupId inviteeId invitationId notificationId).db := by
  unfold createGroupInvitation
  repeat' split
  iterate 7 exact .refl db
  exact carriesAll_of_eq rfl rfl

theorem acceptGroupInvitation_carries (invitationId : Uuid) (password : Option String) :
    CarriesAll db (acceptGroupInvitation env db now userId invitationId password).db := by
  unfold acceptGroupInvitation
  split
  · exact .refl db
  dsimp only
  repeat' split
  · exact .refl db
  · exact carriesAll_of_eq rfl rfl
  · exact .refl db
  · exact addMember_carries.trans (carriesAll_of_eq rfl rfl)

theorem declineGroupInvitation_carries (invitationId : Uuid) :
    CarriesAll db (declineGroupInvitation db userId invitationId).db := by
  unfold declineGroupInvitation
  split
  · exact .refl db
  · exact carriesAll_of_eq rfl rfl

theorem postMessage_carries (conversationId : Uuid) (content : String)
    (replyToSequence : Option Sequence) (attachments : List MessageAttachment) :
    CarriesAll db
      (postMessage db now userId conversationId content replyToSequence attachments).db := by
  unfold postMessage
  repeat' split
  iterate 3 exact .refl db
  exact insertMessage_carries

theorem createMessage_carries (conversationId : Uuid) (content : String)
    (replyToSequence : Option Sequence) :
    CarriesAll db (createMessage db now userId conversationId content replyToSequence).db := by
  unfold createMessage
  split
  iterate 2 exact .refl db
  exact postMessage_carries _ _ _ _

theorem createMessageWithAttachments_carries (conversationId : Uuid)
    (upload : Except ApiError (String × Option Sequence × List MessageAttachment)) :
    CarriesAll db (createMessageWithAttachments db now userId conversationId upload).db := by
  unfold createMessageWithAttachments
  split
  iterate 3 exact .refl db
  exact postMessage_carries _ _ _ _

theorem toggleMessageReaction_carries (conversationId : Uuid) (sequence : Sequence)
    (emoji : String) :
    CarriesAll db (toggleMessageReaction env db userId conversationId sequence emoji).db := by
  unfold toggleMessageReaction
  repeat' split
  iterate 3 exact .refl db
  exact toggleReaction_carries

theorem listMessages_carries (conversationId : Uuid) (before limit : Option Int) :
    CarriesAll db (listMessages db userId conversationId before limit).db := by
  unfold listMessages
  repeat' split
  iterate 2 exact .refl db
  · exact markMessagesRead_carries
  · exact .refl db

theorem markConversationRead_carries (conversationId : Uuid) :
    CarriesAll db (markConversationRead db userId conversationId).db := by
  unfold markConversationRead
  split
  · exact .refl db
  · exact markMessagesRead_carries

/-- Only the flag of the user is set. -/
theorem markConversationUnread_calls (conversationId : Uuid) :
    CarriesCalls db (markConversationUnread db userId conversationId).db := by
  unfold markConversationUnread
  split
  · exact carriesCalls_of_eq rfl
  · exact carriesCalls_of_eq rfl

/-! ## Friends and calls -/

theorem createFriendRequest_carries (friendshipId notificationId : Uuid)
    (request : CreateFriendRequest) :
    CarriesAll db (createFriendRequest db userId friendshipId notificationId request).db := by
  unfold createFriendRequest
  dsimp only
  repeat' split
  all_goals exact carriesAll_of_eq rfl rfl

theorem acceptFriendRequest_carries (friendshipId : Uuid) :
    CarriesAll db (acceptFriendRequest db userId friendshipId).db := by
  unfold acceptFriendRequest
  repeat' split
  all_goals exact carriesAll_of_eq rfl rfl

theorem deleteFriendship_carries (friendshipId notificationId : Uuid) :
    CarriesAll db (deleteFriendship db userId friendshipId notificationId).db := by
  unfold deleteFriendship
  dsimp only
  repeat' split
  all_goals exact carriesAll_of_eq rfl rfl

theorem startCallSession_conversations (conversationId callId : Uuid) (room : RoomId) :
    CarriesConversations db (startCallSession db now userId conversationId callId room).db := by
  refine carriesConversations_of_eq ?_
  unfold startCallSession
  dsimp only
  repeat' split
  all_goals rfl

/-- A call is carried over, or it is the new one and its room is no earlier call's. -/
theorem startCallSession_calls {conversationId callId : Uuid} {room : RoomId} {id : Uuid}
    {call : CallSession}
    (h : (startCallSession db now userId conversationId callId room).db.calls.lookup id =
      some call) :
    (∃ earlier, db.calls.lookup id = some earlier ∧ CarriesCall earlier call) ∨
      id = callId ∧ call.sfuRoomId = room ∧
        ∀ other earlier, db.calls.lookup other = some earlier → earlier.sfuRoomId ≠ room := by
  unfold startCallSession at h
  dsimp only at h
  repeat' split at h
  iterate 4 exact .inl ⟨call, h, .refl call⟩
  rename_i hfresh
  rw [not_or] at hfresh
  by_cases hid : id = callId
  · subst hid
    rw [AList.lookup_insert] at h
    cases h
    refine .inr ⟨rfl, rfl, fun other earlier hlookup hroom => hfresh.2 ?_⟩
    rw [List.any_eq_true]
    exact ⟨⟨other, earlier⟩, AList.mem_lookup_iff.mp hlookup, decide_eq_true hroom⟩
  · rw [AList.lookup_insert_ne hid] at h
    exact .inl ((expire_carries.trans expire_carries).calls id call h)

theorem listIncomingCallSessions_carries :
    CarriesAll db (listIncomingCallSessions db now userId).db := expire_carries

theorem getCallSession_carries (callId : Uuid) :
    CarriesAll db (getCallSession db now userId callId).db := by
  unfold getCallSession
  dsimp only
  split <;> exact expire_carries

theorem cancelCallSession_carries (callId : Uuid) :
    CarriesAll db (cancelCallSession db userId callId).db := by
  unfold cancelCallSession
  repeat' split
  · exact .refl db
  · exact modifyCall_carries fun call => ⟨rfl, rfl, rfl, rfl⟩
  · exact .refl db

theorem respondToCallSession_carries (callId : Uuid) (accept : Bool) :
    CarriesAll db (respondToCallSession db now userId callId accept).db := by
  unfold respondToCallSession
  dsimp only
  split
  · exact .refl db
  · split
    · exact expire_carries.trans (modifyCall_carries fun call => ⟨rfl, rfl, rfl, rfl⟩)
    · exact .refl db

theorem markMeetingRead_carries (sessionId : Uuid) :
    CarriesAll db (markMeetingRead db now userId sessionId).db := by
  unfold markMeetingRead
  repeat' split
  · exact .refl db
  · exact .refl db
  · exact modifyCall_carries fun call => ⟨rfl, rfl, rfl, rfl⟩

theorem markMeetingUnread_carries (sessionId : Uuid) :
    CarriesAll db (markMeetingUnread db now userId sessionId).db := by
  unfold markMeetingUnread
  repeat' split
  · exact .refl db
  · exact .refl db
  · exact modifyCall_carries fun call => ⟨rfl, rfl, rfl, rfl⟩

/-! ## All requests -/

/-- At most one call is new, and its room is no earlier call's. -/
def CallsGrow (before after : SocialDatabase) : Prop :=
  ∃ callId, ∀ id call, after.calls.lookup id = some call →
    (∃ earlier, before.calls.lookup id = some earlier ∧ CarriesCall earlier call) ∨
      id = callId ∧ ∀ other earlier, before.calls.lookup other = some earlier →
        earlier.sfuRoomId ≠ call.sfuRoomId

theorem CarriesCalls.grow {after : SocialDatabase} (h : CarriesCalls db after) :
    CallsGrow db after :=
  ⟨0, fun id call hlookup => .inl (h id call hlookup)⟩

theorem startCallSession_callsGrow (conversationId callId : Uuid) (room : RoomId) :
    CallsGrow db (startCallSession db now userId conversationId callId room).db := by
  refine ⟨callId, fun id call hlookup => ?_⟩
  rcases startCallSession_calls hlookup with hcarried | ⟨hid, hroom, hfresh⟩
  · exact .inl hcarried
  · exact .inr ⟨hid, fun other earlier hother => hroom ▸ hfresh other earlier hother⟩

theorem forget_callsGrow {Reply : Type*} {o : Outcome Reply} (h : CallsGrow db o.db) :
    CallsGrow db (forget o).db := h

theorem handle_callsGrow (env : Environment) (db : SocialDatabase) (now : Timestamp)
    (userId : Uuid) (request : SocialRequest) :
    CallsGrow db (handle env db now userId request).db := by
  cases request with
  | markConversationUnread id => exact forget_callsGrow (markConversationUnread_calls id).grow
  | read request => exact (carriesCalls_of_eq rfl).grow
  | createGroup groupId salt request =>
    exact forget_callsGrow (createGroup_carries groupId salt request).calls.grow
  | joinGroup groupId password =>
    exact forget_callsGrow (joinGroup_carries groupId password).calls.grow
  | joinGroupByCode code password =>
    exact forget_callsGrow (joinGroupByCode_carries code password).calls.grow
  | updateGroup groupId salt request =>
    exact forget_callsGrow (updateGroup_carries groupId salt request).calls.grow
  | updateGroupPolicy groupId salt policy password =>
    exact forget_callsGrow (updateGroup_carries groupId salt _).calls.grow
  | addGroupMember groupId memberId =>
    exact forget_callsGrow (addGroupMember_carries groupId memberId).calls.grow
  | removeGroupMember groupId memberId =>
    exact forget_callsGrow (removeGroupMember_carries groupId memberId).calls.grow
  | leaveGroup groupId => exact forget_callsGrow (leaveGroup_carries groupId).calls.grow
  | deleteGroup groupId => exact forget_callsGrow (deleteGroup_carries groupId).calls.grow
  | removeGroupAvatar groupId =>
    exact forget_callsGrow (removeGroupAvatar_carries groupId).calls.grow
  | uploadGroupAvatar groupId key =>
    exact forget_callsGrow (uploadGroupAvatar_carries groupId key).calls.grow
  | updateGroupMemberRole groupId memberId role =>
    exact forget_callsGrow (updateGroupMemberRole_carries groupId memberId role).calls.grow
  | hideDirectConversation conversationId =>
    exact forget_callsGrow (hideDirectConversation_carries conversationId).calls.grow
  | openDirectConversation targetId freshId =>
    exact forget_callsGrow (openDirectConversation_carries targetId freshId).calls.grow
  | respondToDirectMessageRequest requestId freshId accept =>
    exact forget_callsGrow
      (respondToDirectMessageRequest_carries requestId freshId accept).calls.grow
  | createGroupInvitation groupId inviteeId invitationId notificationId =>
    exact forget_callsGrow (createGroupInvitation_carries groupId inviteeId invitationId
      notificationId).calls.grow
  | acceptGroupInvitation invitationId password =>
    exact forget_callsGrow (acceptGroupInvitation_carries invitationId password).calls.grow
  | declineGroupInvitation invitationId =>
    exact forget_callsGrow (declineGroupInvitation_carries invitationId).calls.grow
  | createMessage conversationId content replyToSequence =>
    exact forget_callsGrow (createMessage_carries conversationId content replyToSequence).calls.grow
  | createMessageWithAttachments conversationId upload =>
    exact forget_callsGrow (createMessageWithAttachments_carries conversationId upload).calls.grow
  | toggleMessageReaction conversationId sequence emoji =>
    exact forget_callsGrow (toggleMessageReaction_carries conversationId sequence emoji).calls.grow
  | listMessages conversationId before limit =>
    exact forget_callsGrow (listMessages_carries conversationId before limit).calls.grow
  | markConversationRead conversationId =>
    exact forget_callsGrow (markConversationRead_carries conversationId).calls.grow
  | createFriendRequest friendshipId notificationId request =>
    exact forget_callsGrow
      (createFriendRequest_carries friendshipId notificationId request).calls.grow
  | acceptFriendRequest friendshipId =>
    exact forget_callsGrow (acceptFriendRequest_carries friendshipId).calls.grow
  | deleteFriendship friendshipId notificationId =>
    exact forget_callsGrow (deleteFriendship_carries friendshipId notificationId).calls.grow
  | startCallSession conversationId callId room =>
    exact forget_callsGrow (startCallSession_callsGrow conversationId callId room)
  | listIncomingCallSessions => exact forget_callsGrow listIncomingCallSessions_carries.calls.grow
  | getCallSession callId => exact forget_callsGrow (getCallSession_carries callId).calls.grow
  | cancelCallSession callId => exact forget_callsGrow (cancelCallSession_carries callId).calls.grow
  | respondToCallSession callId accept =>
    exact forget_callsGrow (respondToCallSession_carries callId accept).calls.grow
  | markMeetingRead sessionId =>
    exact forget_callsGrow (markMeetingRead_carries sessionId).calls.grow
  | markMeetingUnread sessionId =>
    exact forget_callsGrow (markMeetingUnread_carries sessionId).calls.grow

end Requests

end OpenMeet.RequestEffects
