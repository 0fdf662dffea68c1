import OpenMeet.BadgeRows
import OpenMeet.SocialRequests

/-!
Who hears about a change of their badges. Each write of a request changes the
rows behind the badges of a few users only, and publishing to them is enough.
Three requests miss somebody: reading the latest page of a conversation with
something unread, declining a group invitation, and deleting a group to which
somebody outside it is invited.
-/
namespace OpenMeet.BadgeNews

open KeyedMap Messages Accounts SocialTables Badges BadgeRows ConversationApi MessageApi FriendApi
  CallApi SocialRequests

/-! ## Requests -/

/-- Every user for whom the rows behind the badges differ is told. -/
def Tells {Reply : Type*} (db : SocialDatabase) (now : Timestamp) (o : Outcome Reply) : Prop :=
  ∀ userId, ¬ o.notified userId → SameBadgeRows db o.db now userId

section Tells

variable {Reply : Type*} {db : SocialDatabase} {now : Timestamp} {userId : Uuid}

theorem tells_same (published : List Publication) (result : Except ApiError Reply) :
    Tells db now ⟨db, published, result⟩ := fun userId _ => .refl db now userId

theorem tells_refuse (e : ApiError) : Tells db now (.refuse db e : Outcome Reply) :=
  tells_same [] (.error e)

/-- A new member is among those a group update reaches. -/
theorem mem_groupUpdate_addMember {groupId memberId : Uuid} {conversation : Conversation}
    (hfound : db.conversations.lookup groupId = some conversation) :
    memberId ∈ (groupUpdate (addMember db now groupId memberId) groupId []).recipients := by
  simp only [groupUpdate, addMember, modifyConversation, Map.lookup_modify, if_pos, hfound,
    Option.map_some, Option.elim_some, List.append_nil, ← AList.mem_keys]
  split
  · assumption
  · simp

theorem createGroup_tells (env : Environment) (groupId : Uuid) (salt : String)
    (request : CreateGroupRequest) :
    Tells db now (createGroup env db now userId groupId salt request) := by
  unfold createGroup
  split
  iterate 5 exact tells_refuse _
  split
  · exact tells_refuse _
  · rename_i hfresh
    rw [not_or] at hfresh
    exact fun other _ => insertConversation_rows hfresh.1 (conversationCounts_of_empty rfl rfl)

theorem joinGroup_tells (env : Environment) (groupId : Uuid) (password : Option String) :
    Tells db now (joinGroup env db now userId groupId password) := by
  unfold joinGroup
  split
  · exact tells_refuse _
  · rename_i conversation group hgroup
    split
    · exact tells_same _ _
    · split
      · exact tells_refuse _
      · intro other hnot
        refine addMember_rows fun heq => hnot ?_
        subst heq
        exact ⟨_, List.mem_singleton_self _, mem_groupUpdate_addMember (loadGroup_ok hgroup).1⟩

theorem joinGroupByCode_tells (env : Environment) (code : String) (password : Option String) :
    Tells db now (joinGroupByCode env db now userId code password) := by
  unfold joinGroupByCode
  split
  · exact tells_refuse _
  · exact joinGroup_tells env _ password

/-- The columns of a group are rewritten. -/
theorem writeColumns_rows {groupId : Uuid} {conversation : Conversation} {group updated : Group}
    (hgroup : loadGroup db groupId = .ok (conversation, group)) :
    SameBadgeRows db (modifyConversation db groupId fun conversation =>
      { conversation with kind := .group updated, updatedAt := now }) now userId := by
  refine modifyConversation_rows fun found hlookup => ?_
  obtain ⟨hfound, hkind⟩ := loadGroup_ok hgroup
  obtain rfl := Option.some.inj (hlookup.symm.trans hfound)
  exact conversationCounts_congr (inSidebar_group hkind rfl rfl) (fun _ => Iff.rfl) rfl

theorem writeGroup_tells (groupId : Uuid) (title : Option String)
    (policy : Option GroupAccessPolicy) (passwordHash : Option String) :
    Tells db now (writeGroup db now userId groupId title policy passwordHash) := by
  unfold writeGroup
  split
  · exact tells_refuse _
  · rename_i hadmin
    split
    · exact tells_refuse _
    · exact fun other _ => writeColumns_rows (requireGroupAdmin_ok hadmin).1

theorem updateGroup_tells (env : Environment) (groupId : Uuid) (salt : String)
    (request : UpdateGroupRequest) :
    Tells db now (updateGroup env db now userId groupId salt request) := by
  unfold updateGroup
  split
  · exact tells_refuse _
  · dsimp only
    split
    iterate 3 exact tells_refuse _
    split
    iterate 2 exact tells_refuse _
    exact writeGroup_tells groupId _ _ _

theorem addGroupMember_tells (groupId memberId : Uuid) :
    Tells db now (addGroupMember db now userId groupId memberId) := by
  unfold addGroupMember
  split
  iterate 2 exact tells_refuse _
  rename_i conversation group role hadmin _
  dsimp only
  split
  · exact tells_refuse _
  · rename_i after hadded
    split at hadded
    · cases hadded
      exact tells_same _ _
    · cases hallowed : authorizeAdminAddition db conversation group memberId with
      | error e => simp [hallowed, Except.map] at hadded
      | ok allowed =>
        rw [hallowed] at hadded
        cases hadded
        intro other hnot
        refine addMember_rows fun heq => hnot ?_
        subst heq
        have hgroup := (requireGroupAdmin_ok hadmin).1
        exact ⟨_, List.mem_singleton_self _, mem_groupUpdate_addMember (loadGroup_ok hgroup).1⟩

/-- A member who goes is told, and nobody else's rows change. -/
theorem departed_tells (groupId memberId : Uuid) :
    Tells db now (departed db now groupId memberId) := by
  intro other hnot
  refine removeMember_rows fun heq => hnot ?_
  subst heq
  exact ⟨⟨[other], .calls⟩, by simp [departed], List.mem_singleton_self _⟩

theorem removeGroupMember_tells (groupId memberId : Uuid) :
    Tells db now (removeGroupMember db now userId groupId memberId) := by
  unfold removeGroupMember
  split
  · exact tells_refuse _
  · split
    · exact tells_refuse _
    · split
      · exact departed_tells groupId memberId
      · exact tells_refuse _

/-- Passing the group on changes roles only. -/
theorem succession_rows {groupId successor : Uuid} :
    SameBadgeRows db (modifyConversation db groupId fun conversation =>
      { conversation with
        creatorId := successor
        members := conversation.members.modify successor fun member =>
          { member with role := .creator } }) now userId := by
  refine modifyConversation_rows fun conversation _ => ?_
  refine conversationCounts_congr (inSidebar_congr rfl ?_ Iff.rfl) (fun _ => Iff.rfl) rfl
  simp

theorem leaveGroup_tells (groupId : Uuid) :
    Tells db now (leaveGroup db now userId groupId) := by
  unfold leaveGroup
  split
  · exact tells_refuse _
  · split
    · split
      · exact tells_refuse _
      · split
        · exact fun other hnot => succession_rows.trans (departed_tells groupId userId other hnot)
        · exact tells_refuse _
    · split
      · exact departed_tells groupId userId
      · exact tells_refuse _

theorem removeGroupAvatar_tells (groupId : Uuid) :
    Tells db now (removeGroupAvatar db now userId groupId) := by
  unfold removeGroupAvatar
  split
  · exact tells_refuse _
  · rename_i hadmin
    split
    · exact tells_same _ _
    · exact fun other _ => writeColumns_rows (requireGroupAdmin_ok hadmin).1

theorem uploadGroupAvatar_tells (groupId : Uuid) (key : String) :
    Tells db now (uploadGroupAvatar db now userId groupId key) := by
  unfold uploadGroupAvatar
  split
  · exact tells_refuse _
  · rename_i hadmin
    exact fun other _ => writeColumns_rows (requireGroupAdmin_ok hadmin).1

theorem updateGroupMemberRole_tells (groupId memberId : Uuid) (role : GroupMemberRole) :
    Tells db now (updateGroupMemberRole db now userId groupId memberId role) := by
  unfold updateGroupMemberRole
  split
  · exact tells_refuse _
  · split
    · exact tells_refuse _
    · split
      · exact tells_refuse _
      · split
        · intro other _
          refine modifyConversation_rows fun conversation _ => ?_
          refine conversationCounts_congr (inSidebar_congr rfl ?_ Iff.rfl) (fun _ => Iff.rfl) rfl
          simp
        · exact tells_refuse _

theorem hideDirectConversation_tells (conversationId : Uuid) :
    Tells db now (hideDirectConversation db userId conversationId) := by
  unfold hideDirectConversation
  split
  · exact tells_refuse _
  · split
    · exact tells_refuse _
    · split
      · exact tells_refuse _
      · intro other hnot
        have hne : other ≠ userId := fun heq => hnot (by simp [Outcome.notified, heq])
        refine modifyConversation_rows fun conversation _ => ?_
        refine conversationCounts_congr (inSidebar_congr rfl Iff.rfl ?_) (fun _ => Iff.rfl) rfl
        simp [hne]

theorem openDirectConversation_tells (targetId freshId : Uuid) :
    Tells db now (openDirectConversation db now userId targetId freshId) := by
  unfold openDirectConversation
  split
  · exact tells_refuse _
  · split
    · exact tells_refuse _
    · split
      · intro other hnot
        exact unhide_rows fun heq => hnot (by simp [Outcome.notified, heq])
      · split
        · split
          · exact tells_refuse _
          · rename_i hensured
            intro other hnot
            have hne : other ≠ userId ∧ other ≠ targetId := by
              simpa [Outcome.notified] using hnot
            exact (ensureDirectConversation_rows hensured).trans
              ((resolvePendingDirectRequest_rows hne.1 hne.2).trans (unhide_rows hne.1))
        · split
          · split
            · exact tells_same _ _
            · split
              · split
                · exact tells_refuse _
                · rename_i hensured
                  exact fun other _ => ensureDirectConversation_rows hensured
              · exact tells_refuse _
          · split
            · exact tells_refuse _
            · rename_i hfresh
              intro other hnot
              have hne : other ≠ targetId := by simpa [Outcome.notified] using hnot
              refine ⟨fun _ => Iff.rfl, fun id => ?_, fun _ => Iff.rfl, fun _ => Iff.rfl,
                fun _ => Iff.rfl⟩
              exact Map.mem_matching_insert hfresh (by simp [Ne.symm hne])

theorem respondToDirectMessageRequest_tells (requestId freshId : Uuid) (accept : Bool) :
    Tells db now (respondToDirectMessageRequest db now userId requestId freshId accept) := by
  unfold respondToDirectMessageRequest
  split
  · exact tells_refuse _
  · rename_i request hfound
    split
    · exact tells_refuse _
    · have hanswered : ∀ other status, other ≠ request.recipientId →
          SameBadgeRows db { db with
            directRequests := db.directRequests.modify requestId fun request =>
              { request with status := status } } now other := by
        intro other status hne
        refine
          ⟨fun _ => Iff.rfl, fun id => ?_, fun _ => Iff.rfl, fun _ => Iff.rfl, fun _ => Iff.rfl⟩
        refine Map.mem_matching_modify fun found hlookup => ?_
        obtain rfl := Option.some.inj (hlookup.symm.trans hfound)
        simp [Ne.symm hne]
      dsimp only
      split
      · split
        · exact tells_refuse _
        · rename_i hensured
          intro other hnot
          have hne : other ≠ request.requesterId ∧ other ≠ request.recipientId := by
            simpa [Outcome.notified] using hnot
          exact (hanswered other _ hne.2).trans (ensureDirectConversation_rows hensured)
      · intro other hnot
        have hne : other ≠ request.requesterId ∧ other ≠ request.recipientId := by
          simpa [Outcome.notified] using hnot
        exact hanswered other _ hne.2

theorem createGroupInvitation_tells (groupId inviteeId invitationId notificationId : Uuid) :
    Tells db now
      (createGroupInvitation db userId groupId inviteeId invitationId notificationId) := by
  unfold createGroupInvitation
  split
  · exact tells_refuse _
  · split
    · exact tells_refuse _
    · split
      · exact tells_refuse _
      · split
        · exact tells_refuse _
        · split
          · exact tells_refuse _
          · split
            · exact tells_same _ _
            · split
              · exact tells_refuse _
              · rename_i hfresh
                rw [not_or] at hfresh
                intro other hnot
                have hne : other ≠ inviteeId := by simpa [Outcome.notified] using hnot
                refine ⟨fun _ => Iff.rfl, fun _ => Iff.rfl, fun id => ?_, fun _ => Iff.rfl,
                  fun _ => Iff.rfl⟩
                exact Map.mem_matching_insert hfresh.1 (by simp [Ne.symm hne])

theorem loadPendingInvitation_ok {invitationId : Uuid} {invitation : GroupInvitation}
    (h : loadPendingInvitation db userId invitationId = .ok invitation) :
    db.invitations.lookup invitationId = some invitation ∧ invitation.inviteeId = userId ∧
      invitation.status = .pending := by
  unfold loadPendingInvitation at h
  split at h
  · rename_i hfound
    split at h
    · rename_i hpending
      cases h
      exact ⟨hfound, hpending⟩
    · cases h
  · cases h

theorem acceptGroupInvitation_tells (env : Environment) (invitationId : Uuid)
    (password : Option String) :
    Tells db now (acceptGroupInvitation env db now userId invitationId password) := by
  unfold acceptGroupInvitation
  split
  · exact tells_refuse _
  · rename_i invitation hinvitation
    obtain ⟨hfound, hinvitee, -⟩ := loadPendingInvitation_ok hinvitation
    dsimp only
    split
    · exact tells_refuse _
    · rename_i conversation group hgroup
      split
      · rename_i member hmember
        intro other hnot
        refine resolveInvitation_rows hfound fun heq => hnot ?_
        refine ⟨_, List.mem_singleton_self _, ?_⟩
        rw [heq, hinvitee]
        simp only [groupUpdate, resolveInvitation, (loadGroup_ok hgroup).1, Option.elim_some,
          List.append_nil]
        rw [← AList.mem_keys, ← AList.lookup_isSome, hmember]
        rfl
      · split
        · exact tells_refuse _
        · intro other hnot
          have hne : other ≠ userId := fun heq => hnot (by
            subst heq
            exact ⟨_, List.mem_singleton_self _, mem_groupUpdate_addMember (loadGroup_ok hgroup).1⟩)
          refine (addMember_rows hne).trans (resolveInvitation_rows hfound ?_)
          rwa [hinvitee]

/-! ## Messages, friendships and calls -/

theorem postMessage_tells (conversationId : Uuid) (content : String)
    (replyToSequence : Option Sequence) (attachments : List MessageAttachment) :
    Tells db now
      (postMessage db now userId conversationId content replyToSequence attachments) := by
  unfold postMessage
  split
  · exact tells_refuse _
  · rename_i conversation haccess
    split
    · exact tells_refuse _
    · split
      · exact tells_refuse _
      · intro other hnot
        refine insertMessage_rows (authorizeConversationAccess_ok haccess) fun hmem => hnot ?_
        exact ⟨_, List.mem_singleton_self _, hmem⟩

theorem createMessage_tells (conversationId : Uuid) (content : String)
    (replyToSequence : Option Sequence) :
    Tells db now (createMessage db now userId conversationId content replyToSequence) := by
  unfold createMessage
  split
  iterate 2 exact tells_refuse _
  exact postMessage_tells _ _ _ _

theorem createMessageWithAttachments_tells (conversationId : Uuid)
    (upload : Except ApiError (String × Option Sequence × List MessageAttachment)) :
    Tells db now (createMessageWithAttachments db now userId conversationId upload) := by
  unfold createMessageWithAttachments
  split
  iterate 3 exact tells_refuse _
  exact postMessage_tells _ _ _ _

theorem toggleMessageReaction_tells (env : Environment) (conversationId : Uuid)
    (sequence : Sequence) (emoji : String) :
    Tells db now (toggleMessageReaction env db userId conversationId sequence emoji) := by
  unfold toggleMessageReaction
  split
  · exact tells_refuse _
  · split
    · exact tells_refuse _
    · split
      · exact tells_refuse _
      · exact fun other _ => toggleReaction_rows

theorem markConversationRead_tells (conversationId : Uuid) :
    Tells db now (markConversationRead db userId conversationId) := by
  unfold markConversationRead
  split
  · exact tells_refuse _
  · exact fun other hnot =>
      markMessagesRead_rows fun heq => hnot (by simp [Outcome.notified, heq])

theorem markConversationUnread_tells (conversationId : Uuid) :
    Tells db now (markConversationUnread db userId conversationId) := by
  unfold markConversationUnread
  split
  · exact tells_refuse _
  · exact fun other hnot => setMarkedUnread_rows fun heq => hnot (by simp [Outcome.notified, heq])

theorem createFriendRequest_tells (friendshipId notificationId : Uuid)
    (request : CreateFriendRequest) :
    Tells db now (createFriendRequest db userId friendshipId notificationId request) := by
  unfold createFriendRequest
  dsimp only
  split
  · exact tells_refuse _
  · split
    · exact tells_same _ _
    · rename_i targetId _
      split
      · split <;> exact tells_refuse _
      · split
        · exact tells_refuse _
        · rename_i hfresh
          rw [not_or] at hfresh
          split
          · exact tells_refuse _
          · intro other hnot
            have hne : other ≠ targetId := fun heq => hnot (by simp [Outcome.notified, heq])
            refine ⟨fun _ => Iff.rfl, fun _ => Iff.rfl, fun _ => Iff.rfl, fun id => ?_,
              fun _ => Iff.rfl⟩
            exact Map.mem_matching_insert hfresh.1 (by simp [Ne.symm hne])

theorem acceptFriendRequest_tells (friendshipId : Uuid) :
    Tells db now (acceptFriendRequest db userId friendshipId) := by
  unfold acceptFriendRequest
  split
  · exact tells_refuse _
  · rename_i friendship hfound
    split
    · intro other hnot
      have hne : other ≠ friendship.addresseeId := fun heq =>
        hnot (by simp [Outcome.notified, heq])
      refine ⟨fun _ => Iff.rfl, fun _ => Iff.rfl, fun _ => Iff.rfl, fun id => ?_, fun _ => Iff.rfl⟩
      refine Map.mem_matching_modify fun found hlookup => ?_
      obtain rfl := Option.some.inj (hlookup.symm.trans hfound)
      simp [Ne.symm hne]
    · exact tells_refuse _

theorem eraseFriendship_rows {friendshipId : Uuid} {friendship : Friendship}
    {notifications : Map Uuid Notification}
    (hfound : db.friendships.lookup friendshipId = some friendship)
    (h : userId ≠ friendship.addresseeId) :
    SameBadgeRows db { db with
      friendships := db.friendships.erase friendshipId, notifications := notifications } now
        userId := by
  refine ⟨fun _ => Iff.rfl, fun _ => Iff.rfl, fun _ => Iff.rfl, fun id => ?_, fun _ => Iff.rfl⟩
  refine Map.mem_matching_erase fun found hlookup => ?_
  obtain rfl := Option.some.inj (hlookup.symm.trans hfound)
  simp [Ne.symm h]

theorem deleteFriendship_tells (friendshipId notificationId : Uuid) :
    Tells db now (deleteFriendship db userId friendshipId notificationId) := by
  unfold deleteFriendship
  split
  · exact tells_refuse _
  · rename_i friendship hfound
    split
    · exact tells_refuse _
    · dsimp only
      split
      · split
        · exact tells_refuse _
        · exact fun other hnot => eraseFriendship_rows hfound fun heq =>
            hnot (by simp [Outcome.notified, heq])
      · exact fun other hnot => eraseFriendship_rows hfound fun heq =>
          hnot (by simp [Outcome.notified, heq])

theorem expireCallSessions_rows : SameBadgeRows db (expireCallSessions db now) now userId :=
  expire_rows fun _ htest => Or.inl (of_decide_eq_true htest)

theorem mem_newCall {conversationId : Uuid} {room : RoomId} {participantIds : List Uuid}
    {id : Uuid} :
    id ∈ (newCall now userId conversationId room participantIds).members ↔ id ∈ participantIds := by
  have hfold : ∀ (ids : List Uuid) (members : Map Uuid RequestStatus),
      id ∈ ids.foldl (fun members id =>
        AList.insert id (if id = userId then .accepted else .pending) members) members ↔
          id ∈ ids ∨ id ∈ members := by
    intro ids
    induction ids with
    | nil => simp
    | cons first rest ih =>
      intro members
      rw [List.foldl_cons, ih, AList.mem_insert, List.mem_cons]
      tauto
  simp [newCall, hfold]

theorem startCallSession_tells (conversationId callId : Uuid) (room : RoomId) :
    Tells db now (startCallSession db now userId conversationId callId room) := by
  unfold startCallSession
  split
  · exact tells_refuse _
  · split
    · exact tells_refuse _
    · rename_i participantIds _
      dsimp only
      split
      · exact tells_refuse _
      · split
        · exact tells_refuse _
        · rename_i hfresh
          rw [not_or] at hfresh
          intro other hnot
          have hmem : other ∉ (newCall now userId conversationId room participantIds).members := by
            rw [mem_newCall]
            exact fun hmem => hnot ⟨_, List.mem_singleton_self _, hmem⟩
          have hcleared : SameBadgeRows (expireCallSessions db now)
              (expire (expireCallSessions db now) fun call =>
                call.conversationId = conversationId &&
                  roomEnded (expireCallSessions db now) call.sfuRoomId) now other := by
            refine expire_rows fun call htest => ?_
            simp only [Bool.and_eq_true] at htest
            exact Or.inr htest.2
          refine expireCallSessions_rows.trans (hcleared.trans ?_)
          refine ⟨fun _ => Iff.rfl, fun _ => Iff.rfl, fun _ => Iff.rfl, fun _ => Iff.rfl,
            fun id => ?_⟩
          refine Map.mem_matching_insert ?_ (callCounts_of_notMem hmem)
          simpa [expire, expireCallSessions] using hfresh.1

theorem listIncomingCallSessions_tells :
    Tells db now (listIncomingCallSessions db now userId) :=
  fun _ _ => expireCallSessions_rows

theorem getCallSession_tells (callId : Uuid) :
    Tells db now (getCallSession db now userId callId) := by
  unfold getCallSession
  dsimp only
  split <;> exact fun other _ => expireCallSessions_rows

theorem cancelCallSession_tells (callId : Uuid) :
    Tells db now (cancelCallSession db userId callId) := by
  unfold cancelCallSession
  split
  · exact tells_same _ _
  · rename_i call hfound
    split
    · intro other hnot
      refine modifyCall_rows fun found hlookup => ?_
      obtain rfl := Option.some.inj (hlookup.symm.trans hfound)
      have hmem : other ∉ found.members := fun hmem =>
        hnot ⟨_, List.mem_singleton_self _, AList.mem_keys.mp hmem⟩
      rw [callCounts_of_notMem hmem]
      exact callCounts_of_notMem hmem
    · exact tells_same _ _

theorem respondToCallSession_tells (callId : Uuid) (accept : Bool) :
    Tells db now (respondToCallSession db now userId callId accept) := by
  unfold respondToCallSession
  dsimp only
  split
  · exact tells_refuse _
  · rename_i call hfound
    split
    · intro other hnot
      refine expireCallSessions_rows.trans (modifyCall_rows fun found hlookup => ?_)
      obtain rfl := Option.some.inj (hlookup.symm.trans hfound)
      have hmem : other ∉ found.members := fun hmem =>
        hnot ⟨_, List.mem_singleton_self _, AList.mem_keys.mp hmem⟩
      rw [callCounts_of_notMem hmem]
      exact callCounts_of_notMem (by simpa using hmem)
    · exact tells_refuse _

theorem markMeetingRead_tells (sessionId : Uuid) :
    Tells db now (markMeetingRead db now userId sessionId) := by
  unfold markMeetingRead
  split
  · exact tells_refuse _
  · split
    · exact tells_same _ _
    · intro other hnot
      have hne : other ≠ userId := fun heq => hnot (by simp [Outcome.notified, heq])
      exact modifyCall_rows fun call _ => by simp [callCounts, missedCall, callOver, hne]

theorem markMeetingUnread_tells (sessionId : Uuid) :
    Tells db now (markMeetingUnread db now userId sessionId) := by
  unfold markMeetingUnread
  split
  · exact tells_refuse _
  · split
    · exact tells_refuse _
    · intro other hnot
      have hne : other ≠ userId := fun heq => hnot (by simp [Outcome.notified, heq])
      exact modifyCall_rows fun call _ => by simp [callCounts, missedCall, callOver, hne]

end Tells

/-! ## The three requests that miss somebody -/

section Misses

variable {db : SocialDatabase} {now : Timestamp} {userId : Uuid}

/-- Whoever has other badges after a request is told. -/
def AnnouncesBadges {Reply : Type*} (db : SocialDatabase) (now : Timestamp) (o : Outcome Reply) :
    Prop :=
  ∀ userId, loadBadges o.db now userId ≠ loadBadges db now userId → o.notified userId

theorem Tells.announces {Reply : Type*} {o : Outcome Reply} (h : Tells db now o) :
    AnnouncesBadges db now o := by
  intro other hdiffers
  by_contra hnot
  exact hdiffers (h other hnot).loadBadges

/-- Once its newest message is marked read, a conversation no longer counts. -/
theorem conversationCounts_of_marked {conversation : Conversation} {latest : Sequence}
    (h : ∀ sequence message, conversation.messages.lookup sequence = some message →
      sequence ≤ latest) :
    conversationCounts userId { conversation with
      readStates := conversation.readStates.insert userId
        ⟨max (lastRead userId conversation) latest, false⟩ } = false := by
  have hunread : hasUnread userId { conversation with
      readStates := conversation.readStates.insert userId
        ⟨max (lastRead userId conversation) latest, false⟩ } = false := by
    rw [← Bool.not_eq_true, hasUnread_iff]
    rintro ⟨sequence, message, hlookup, -, hlast⟩
    have hle := h sequence message hlookup
    simp only [lastRead, AList.lookup_insert, Option.elim_some] at hlast
    exact absurd (hle.trans (le_max_right _ _)) (not_le_of_gt hlast)
  simp only [conversationCounts, hunread, markedUnread, AList.lookup_insert, Option.any_some,
    Bool.or_self, Bool.and_false]

/-- Fewer rows count towards the messages badge. -/
theorem loadBadges_ne_of_lt {after : SocialDatabase}
    (hconversations : (countedConversations after userId).length ≤
      (countedConversations db userId).length)
    (hrequests : (pendingRequests after userId).length ≤ (pendingRequests db userId).length)
    (hinvitations : (pendingInvitations after userId).length ≤
      (pendingInvitations db userId).length)
    (hlt : (countedConversations after userId).length < (countedConversations db userId).length ∨
      (pendingInvitations after userId).length < (pendingInvitations db userId).length) :
    loadBadges after now userId ≠ loadBadges db now userId := by
  intro heq
  have hmessages :
      (loadBadges after now userId).messages = (loadBadges db now userId).messages := by
    rw [heq]
  simp only [loadBadges] at hmessages
  omega

theorem validateMessagePage_ok {before limit : Option Int} {page : Option Sequence × Nat}
    (h : validateMessagePage before limit = .ok page) :
    page.1 = before.map Int.toNat ∧ 1 ≤ page.2 ∧ 1 ≤ limit.getD 50 ∧ limit.getD 50 ≤ 50 := by
  unfold validateMessagePage at h
  split at h
  · cases h
  · dsimp only at h
    split at h
    · cases h
    · rename_i hlimit
      cases h
      exact ⟨rfl, by dsimp only; omega, by omega, by omega⟩

-- a conversation is marked read up to its newest message
section MarkedUpTo

variable {conversationId : Uuid} {conversation : Conversation} {latest : Sequence}
  (hfound : db.conversations.lookup conversationId = some conversation)
  (hlatest : ∀ sequence message, conversation.messages.lookup sequence = some message →
    sequence ≤ latest)

include hfound hlatest

theorem notMem_countedConversations_marked :
    conversationId ∉ countedConversations (markMessagesRead db conversationId userId latest)
      userId := by
  intro hmem
  obtain ⟨after, hlookup, hcounts⟩ := Map.mem_matching.mp hmem
  simp only [markMessagesRead, modifyConversation, Map.lookup_modify, if_pos, hfound,
    Option.map_some, Option.some.injEq] at hlookup
  subst hlookup
  rw [conversationCounts_of_marked hlatest] at hcounts
  cases hcounts

theorem markedUpTo_rows (hcounts : conversationCounts userId conversation = false) :
    SameBadgeRows db (markMessagesRead db conversationId userId latest) now userId := by
  refine modifyConversation_rows fun found hlookup => ?_
  obtain rfl := Option.some.inj (hlookup.symm.trans hfound)
  rw [hcounts]
  exact conversationCounts_of_marked hlatest

theorem markedUpTo_loadBadges_ne (hcounts : conversationCounts userId conversation = true) :
    loadBadges (markMessagesRead db conversationId userId latest) now userId ≠
      loadBadges db now userId := by
  have hnot : conversationId ∉
      countedConversations (markMessagesRead db conversationId userId latest) userId :=
    notMem_countedConversations_marked hfound hlatest
  have hmem : conversationId ∈ countedConversations db userId :=
    Map.mem_matching.mpr ⟨conversation, hfound, hcounts⟩
  have hlt : (countedConversations (markMessagesRead db conversationId userId latest)
      userId).length < (countedConversations db userId).length := by
    refine Map.length_matching_lt (fun id hid => ?_) hmem hnot
    obtain ⟨after, hlookup, hafter⟩ := Map.mem_matching.mp hid
    have hne : id ≠ conversationId := fun heq => hnot (heq ▸ hid)
    simp only [markMessagesRead, modifyConversation, Map.lookup_modify, if_neg hne] at hlookup
    exact Map.mem_matching.mpr ⟨after, hlookup, hafter⟩
  exact loadBadges_ne_of_lt hlt.le le_rfl le_rfl (Or.inl hlt)

end MarkedUpTo

/-- The latest page is read while the conversation counts for the reader. -/
def ReadsCounted (db : SocialDatabase) (userId conversationId : Uuid) (before limit : Option Int) :
    Prop :=
  before = none ∧ 1 ≤ limit.getD 50 ∧ limit.getD 50 ≤ 50 ∧
    ∃ conversation, authorizeConversationAccess db conversationId userId = .ok conversation ∧
      conversationCounts userId conversation = true

theorem listMessages_announces_iff {conversationId : Uuid} {before limit : Option Int} :
    AnnouncesBadges db now (listMessages db userId conversationId before limit) ↔
      ¬ ReadsCounted db userId conversationId before limit := by
  unfold listMessages
  split
  · rename_i hpage
    refine iff_of_true (tells_refuse _).announces ?_
    rintro ⟨rfl, hlow, hhigh, -⟩
    simp [validateMessagePage, not_lt.mpr hlow, not_lt.mpr hhigh] at hpage
  · rename_i before' limit' hpage
    split
    · rename_i haccess
      refine iff_of_true (tells_refuse _).announces ?_
      rintro ⟨-, -, -, conversation, hok, -⟩
      rw [hok] at haccess
      cases haccess
    · rename_i conversation haccess
      have hfound := authorizeConversationAccess_ok haccess
      obtain ⟨hbefore, hpositive, hlow, hhigh⟩ := validateMessagePage_ok hpage
      dsimp only at hbefore hpositive
      cases before with
      | some sequence =>
        simp only [Option.map_some] at hbefore
        subst hbefore
        refine iff_of_true (tells_same _ _).announces ?_
        rintro ⟨hnone, -⟩
        cases hnone
      | none =>
        simp only [Option.map_none] at hbefore
        subst hbefore
        have hlatest : ∀ sequence message, conversation.messages.lookup sequence = some message →
            sequence ≤ latestSequence (messagePage conversation userId none limit') :=
          fun _ _ => le_latestSequence conversation userId hpositive
        by_cases hcounts : conversationCounts userId conversation = true
        · refine iff_of_false (fun hannounces => ?_)
            (not_not.mpr ⟨rfl, hlow, hhigh, conversation, haccess, hcounts⟩)
          obtain ⟨p, hp, -⟩ := hannounces userId (markedUpTo_loadBadges_ne hfound hlatest hcounts)
          cases hp
        · rw [Bool.not_eq_true] at hcounts
          refine iff_of_true (Tells.announces fun other hnot => ?_) ?_
          · by_cases hother : other = userId
            · subst hother
              exact markedUpTo_rows hfound hlatest hcounts
            · exact markMessagesRead_rows hother
          · rintro ⟨-, -, -, found, hok, htrue⟩
            rw [haccess] at hok
            cases hok
            rw [hcounts] at htrue
            cases htrue

theorem declineGroupInvitation_announces_iff {invitationId : Uuid} :
    AnnouncesBadges db now (declineGroupInvitation db userId invitationId) ↔
      ¬ ∃ invitation, loadPendingInvitation db userId invitationId = .ok invitation := by
  unfold declineGroupInvitation
  split
  · rename_i hnone
    refine iff_of_true (tells_refuse _).announces ?_
    rintro ⟨invitation, hok⟩
    rw [hok] at hnone
    cases hnone
  · rename_i invitation hok
    obtain ⟨hfound, hinvitee, hpending⟩ := loadPendingInvitation_ok hok
    refine iff_of_false (fun hannounces => ?_) (not_not.mpr ⟨invitation, hok⟩)
    have hlt : (pendingInvitations (resolveInvitation db invitationId .declined) userId).length <
        (pendingInvitations db userId).length := by
      refine Map.length_matching_lt (k := invitationId) (fun id hid => ?_) ?_ ?_
      · obtain ⟨found, hlookup, hcounts⟩ := Map.mem_matching.mp hid
        have hne : id ≠ invitationId := by
          rintro rfl
          simp only [resolveInvitation, Map.lookup_modify, if_pos, hfound, Option.map_some,
            Option.some.injEq] at hlookup
          subst hlookup
          simp at hcounts
        simp only [resolveInvitation, Map.lookup_modify, if_neg hne] at hlookup
        exact Map.mem_matching.mpr ⟨found, hlookup, hcounts⟩
      · exact Map.mem_matching.mpr ⟨invitation, hfound, by simp [hinvitee, hpending]⟩
      · simp [resolveInvitation, hfound]
    obtain ⟨p, hp, -⟩ := hannounces userId (loadBadges_ne_of_lt le_rfl le_rfl hlt.le (Or.inr hlt))
    cases hp

/-- Someone outside the group and its calls has a pending invitation to it. -/
def InvitesOutsider (db : SocialDatabase) (groupId : Uuid) : Prop :=
  ∃ invitationId invitation conversation, db.invitations.lookup invitationId = some invitation ∧
    invitation.conversationId = groupId ∧ invitation.status = .pending ∧
    db.conversations.lookup groupId = some conversation ∧
    invitation.inviteeId ∉ conversation.members ∧
    ∀ callId call, db.calls.lookup callId = some call → call.conversationId = groupId →
      invitation.inviteeId ∉ call.members

theorem mem_callRecipients {groupId id : Uuid} : id ∈ callRecipients db groupId ↔
    ∃ callId call, db.calls.lookup callId = some call ∧ call.conversationId = groupId ∧
      id ∈ call.members := by
  simp only [callRecipients, List.mem_dedup, List.mem_flatMap, List.mem_filter, decide_eq_true_eq,
    ← AList.mem_keys]
  constructor
  · rintro ⟨row, ⟨hrow, hgroup⟩, hmem⟩
    exact ⟨row.1, row.2, AList.mem_lookup_iff.mpr hrow, hgroup, hmem⟩
  · rintro ⟨callId, call, hlookup, hgroup, hmem⟩
    exact ⟨⟨callId, call⟩, ⟨AList.mem_lookup_iff.mp hlookup, hgroup⟩, hmem⟩

/-- Deleting a group takes away its pending invitations. -/
theorem deleteConversation_loadBadges_ne {groupId invitationId : Uuid} {conversation : Conversation}
    {invitation : GroupInvitation}
    (hfound : db.conversations.lookup groupId = some conversation)
    (houtside : invitation.inviteeId ∉ conversationParticipants conversation)
    (hinvitation : db.invitations.lookup invitationId = some invitation)
    (hgroup : invitation.conversationId = groupId) (hpending : invitation.status = .pending) :
    loadBadges (deleteConversation db groupId) now invitation.inviteeId ≠
      loadBadges db now invitation.inviteeId := by
  have hsame : (countedConversations (deleteConversation db groupId) invitation.inviteeId).length =
      (countedConversations db invitation.inviteeId).length :=
    Map.length_matching_congr fun id => Map.mem_matching_erase fun found hlookup => by
      obtain rfl := Option.some.inj (hlookup.symm.trans hfound)
      simp only [conversationCounts, inSidebar_eq_false houtside, Bool.false_and]
  have hlt : (pendingInvitations (deleteConversation db groupId) invitation.inviteeId).length <
      (pendingInvitations db invitation.inviteeId).length := by
    refine Map.length_matching_lt (k := invitationId) (fun id hid => ?_) ?_ ?_
    · obtain ⟨found, hlookup, hcounts⟩ := Map.mem_matching.mp hid
      simp only [deleteConversation, Map.lookup_retain, Option.filter_eq_some_iff] at hlookup
      exact Map.mem_matching.mpr ⟨found, hlookup.1, hcounts⟩
    · exact Map.mem_matching.mpr ⟨invitation, hinvitation, by simp [hpending]⟩
    · simp [deleteConversation, Map.lookup_retain, hinvitation, hgroup]
  exact loadBadges_ne_of_lt hsame.le le_rfl hlt.le (Or.inr hlt)

theorem deleteGroup_announces_iff {groupId : Uuid} :
    AnnouncesBadges db now (deleteGroup db userId groupId) ↔
      ¬ ((∃ row, requireGroupAdmin db groupId userId = .ok row) ∧ InvitesOutsider db groupId) := by
  unfold deleteGroup
  split
  · rename_i hrefused
    refine iff_of_true (tells_refuse _).announces ?_
    rintro ⟨⟨row, hok⟩, -⟩
    rw [hok] at hrefused
    cases hrefused
  · rename_i conversation group role hadmin
    obtain ⟨hfound, hkind⟩ := loadGroup_ok (requireGroupAdmin_ok hadmin).1
    constructor
    · rintro hannounces ⟨-, invitationId, invitation, found, hinvitation, hgroup, hpending, hlookup,
        hmember, hcalls⟩
      obtain rfl := Option.some.inj (hlookup.symm.trans hfound)
      have houtside : invitation.inviteeId ∉ conversationParticipants found := by
        rw [conversationParticipants_group hkind]
        exact mt AList.mem_keys.mpr hmember
      obtain ⟨p, hp, hrecipient⟩ := hannounces invitation.inviteeId
        (deleteConversation_loadBadges_ne hfound houtside hinvitation hgroup hpending)
      simp only [List.mem_cons, List.not_mem_nil, or_false] at hp
      rcases hp with rfl | rfl
      · exact hmember (AList.mem_keys.mpr hrecipient)
      · obtain ⟨callId, call, hcall, hid, hmem⟩ := mem_callRecipients.mp hrecipient
        exact hcalls callId call hcall hid hmem
    · intro hnot
      refine Tells.announces fun other hquiet => ?_
      simp only [Outcome.notified, List.mem_cons, List.not_mem_nil, or_false, exists_eq_or_imp,
        exists_eq_left, not_or] at hquiet
      have hmember : other ∉ conversation.members := mt AList.mem_keys.mp hquiet.1
      have hcalls : ∀ callId call, db.calls.lookup callId = some call →
          call.conversationId = groupId → other ∉ call.members := fun callId call hcall hid hmem =>
        hquiet.2 (mem_callRecipients.mpr ⟨callId, call, hcall, hid, hmem⟩)
      refine deleteConversation_rows hfound ?_ hcalls ?_
      · rw [conversationParticipants_group hkind]
        exact hquiet.1
      · rintro invitationId invitation hinvitation hgroup rfl hpending
        exact hnot ⟨⟨_, hadmin⟩, invitationId, invitation, conversation, hinvitation, hgroup,
          hpending, hfound, hmember, hcalls⟩

end Misses

/-- The requests whose badge changes nobody, or not everybody, hears about. -/
def Misses (db : SocialDatabase) (userId : Uuid) : SocialRequest → Prop
  | .listMessages conversationId before limit =>
    ReadsCounted db userId conversationId before limit
  | .declineGroupInvitation invitationId =>
    ∃ invitation, loadPendingInvitation db userId invitationId = .ok invitation
  | .deleteGroup groupId =>
    (∃ row, requireGroupAdmin db groupId userId = .ok row) ∧ InvitesOutsider db groupId
  | _ => False

theorem forget_announces_iff {Reply : Type*} {db : SocialDatabase} {now : Timestamp}
    {o : Outcome Reply} : AnnouncesBadges db now (forget o) ↔ AnnouncesBadges db now o :=
  Iff.rfl

theorem forget_announces {Reply : Type*} {db : SocialDatabase} {now : Timestamp}
    {o : Outcome Reply} (h : Tells db now o) : AnnouncesBadges db now (forget o) ↔ ¬ False :=
  iff_of_true (forget_announces_iff.mpr h.announces) not_false

/-- A request tells everyone whose badges it changes exactly if it does not read a counting
conversation's latest page, decline an invitation or delete a group with outsiders invited. -/
theorem announcesBadges_iff (env : Environment) (db : SocialDatabase) (now : Timestamp)
    (userId : Uuid) (request : SocialRequest) :
    AnnouncesBadges db now (handle env db now userId request) ↔ ¬ Misses db userId request := by
  cases request with
  | listMessages conversationId before limit =>
    exact forget_announces_iff.trans listMessages_announces_iff
  | declineGroupInvitation invitationId =>
    exact forget_announces_iff.trans declineGroupInvitation_announces_iff
  | deleteGroup groupId =>
    exact forget_announces_iff.trans deleteGroup_announces_iff
  | read request => exact iff_of_true (tells_same _ _).announces not_false
  | createGroup groupId salt request =>
    exact forget_announces (createGroup_tells env groupId salt request)
  | joinGroup groupId password => exact forget_announces (joinGroup_tells env groupId password)
  | joinGroupByCode code password =>
    exact forget_announces (joinGroupByCode_tells env code password)
  | updateGroup groupId salt request =>
    exact forget_announces (updateGroup_tells env groupId salt request)
  | updateGroupPolicy groupId salt policy password =>
    exact forget_announces (updateGroup_tells env groupId salt _)
  | addGroupMember groupId memberId =>
    exact forget_announces (addGroupMember_tells groupId memberId)
  | removeGroupMember groupId memberId =>
    exact forget_announces (removeGroupMember_tells groupId memberId)
  | leaveGroup groupId => exact forget_announces (leaveGroup_tells groupId)
  | removeGroupAvatar groupId => exact forget_announces (removeGroupAvatar_tells groupId)
  | uploadGroupAvatar groupId key => exact forget_announces (uploadGroupAvatar_tells groupId key)
  | updateGroupMemberRole groupId memberId role =>
    exact forget_announces (updateGroupMemberRole_tells groupId memberId role)
  | hideDirectConversation conversationId =>
    exact forget_announces (hideDirectConversation_tells conversationId)
  | openDirectConversation targetId freshId =>
    exact forget_announces (openDirectConversation_tells targetId freshId)
  | respondToDirectMessageRequest requestId freshId accept =>
    exact forget_announces (respondToDirectMessageRequest_tells requestId freshId accept)
  | createGroupInvitation groupId inviteeId invitationId notificationId =>
    exact forget_announces
      (createGroupInvitation_tells groupId inviteeId invitationId notificationId)
  | acceptGroupInvitation invitationId password =>
    exact forget_announces (acceptGroupInvitation_tells env invitationId password)
  | createMessage conversationId content replyToSequence =>
    exact forget_announces (createMessage_tells conversationId content replyToSequence)
  | createMessageWithAttachments conversationId upload =>
    exact forget_announces (createMessageWithAttachments_tells conversationId upload)
  | toggleMessageReaction conversationId sequence emoji =>
    exact forget_announces (toggleMessageReaction_tells env conversationId sequence emoji)
  | markConversationRead conversationId =>
    exact forget_announces (markConversationRead_tells conversationId)
  | markConversationUnread conversationId =>
    exact forget_announces (markConversationUnread_tells conversationId)
  | createFriendRequest friendshipId notificationId request =>
    exact forget_announces (createFriendRequest_tells friendshipId notificationId request)
  | acceptFriendRequest friendshipId =>
    exact forget_announces (acceptFriendRequest_tells friendshipId)
  | deleteFriendship friendshipId notificationId =>
    exact forget_announces (deleteFriendship_tells friendshipId notificationId)
  | startCallSession conversationId callId room =>
    exact forget_announces (startCallSession_tells conversationId callId room)
  | listIncomingCallSessions => exact forget_announces listIncomingCallSessions_tells
  | getCallSession callId => exact forget_announces (getCallSession_tells callId)
  | cancelCallSession callId => exact forget_announces (cancelCallSession_tells callId)
  | respondToCallSession callId accept =>
    exact forget_announces (respondToCallSession_tells callId accept)
  | markMeetingRead sessionId => exact forget_announces (markMeetingRead_tells sessionId)
  | markMeetingUnread sessionId => exact forget_announces (markMeetingUnread_tells sessionId)

/-- Ada's group asks for a password, and she invites Bob to it. -/
def inviteBob : List (Timestamp × Uuid × SocialRequest) :=
  [(0, 1, .createGroup 10 "salt" ⟨"Team", .password, some "password", []⟩),
    (1, 1, .createGroupInvitation 10 2 20 30)]

def plainHashing : Environment where
  hashPassword _ password := some password
  verifyPassword hash password := some (hash = password)
  isAlphanumeric c := c.isAlphanum
  toLowercase := String.toLower

def adaAndBob : Option Accounts.Database :=
  (Accounts.Database.migrated.insertUser 1 ⟨"a@x", "Ada", "ada", "", "user", none⟩).bind fun db =>
    db.insertUser 2 ⟨"b@x", "Bob", "bob", "", "user", none⟩

/-- Bob declines, and none of his tabs hears of it. -/
theorem decline_unannounced : ∃ accounts ∈ adaAndBob,
    let db := runRequests plainHashing (emptyDatabase accounts) inviteBob
    ¬ AnnouncesBadges db 2 (handle plainHashing db 2 2 (.declineGroupInvitation 20)) := by
  obtain ⟨accounts, haccounts, hdiffers, hnot⟩ : ∃ accounts ∈ adaAndBob,
      let db := runRequests plainHashing (emptyDatabase accounts) inviteBob
      let o := handle plainHashing db 2 2 (.declineGroupInvitation 20)
      loadBadges o.db 2 2 ≠ loadBadges db 2 2 ∧ ¬ o.notified 2 := by
    decide +kernel
  exact ⟨accounts, haccounts, fun hannounces => hnot (hannounces 2 hdiffers)⟩

end OpenMeet.BadgeNews
