import OpenMeet.CallApi
import OpenMeet.FriendApi
import OpenMeet.MessageApi

/-!
What a write does to the rows behind the badges: for each write of a request,
the users whose rows it leaves alone.
-/
namespace OpenMeet.BadgeRows

open KeyedMap Messages Accounts SocialTables Badges ConversationApi MessageApi CallApi

section Writes

variable {db : SocialDatabase} {now : Timestamp} {userId : Uuid}

/-! ## Conversations -/

theorem modifyConversation_rows {id : Uuid} {f : Conversation → Conversation}
    (h : ∀ conversation, db.conversations.lookup id = some conversation →
      conversationCounts userId (f conversation) = conversationCounts userId conversation) :
    SameBadgeRows db (modifyConversation db id f) now userId where
  conversations _ := Map.mem_matching_modify h
  requests _ := Iff.rfl
  invitations _ := Iff.rfl
  friendships _ := Iff.rfl
  calls _ := Iff.rfl

theorem insertConversation_rows {id : Uuid} {conversation : Conversation}
    (hid : id ∉ db.conversations) (h : conversationCounts userId conversation = false) :
    SameBadgeRows db (insertConversation db id conversation) now userId where
  conversations _ := Map.mem_matching_insert hid h
  requests _ := Iff.rfl
  invitations _ := Iff.rfl
  friendships _ := Iff.rfl
  calls _ := Iff.rfl

/-- A conversation nobody has written in or flagged does not count. -/
theorem conversationCounts_of_empty {conversation : Conversation}
    (hmessages : conversation.messages = ∅) (hreads : conversation.readStates = ∅) :
    conversationCounts userId conversation = false := by
  have hunread : hasUnread userId conversation = false := by simp [hasUnread, hmessages]
  have hmarked : markedUnread userId conversation = false := by simp [markedUnread, hreads]
  simp [conversationCounts, hunread, hmarked]

/-- What counts depends on whether the conversation is listed, on its messages and on the user's
read state. -/
theorem conversationCounts_congr {before after : Conversation}
    (hsidebar : inSidebar userId after = inSidebar userId before)
    (hmessages : ∀ sequence, (∃ message, after.messages.lookup sequence = some message ∧
      message.senderId ≠ userId ∧ lastRead userId before < sequence) ↔
        ∃ message, before.messages.lookup sequence = some message ∧
          message.senderId ≠ userId ∧ lastRead userId before < sequence)
    (hreads : after.readStates.lookup userId = before.readStates.lookup userId) :
    conversationCounts userId after = conversationCounts userId before := by
  have hlast : lastRead userId after = lastRead userId before := by
    simp only [lastRead, hreads]
  have hunread : hasUnread userId after = hasUnread userId before := by
    rw [Bool.eq_iff_iff, hasUnread_iff, hasUnread_iff, hlast]
    exact exists_congr hmessages
  have hmarked : markedUnread userId after = markedUnread userId before := by
    simp only [markedUnread, hreads]
  simp only [conversationCounts, hsidebar, hunread, hmarked]

theorem inSidebar_congr {before after : Conversation} (hkind : after.kind = before.kind)
    (hmembers : userId ∈ after.members ↔ userId ∈ before.members)
    (hhidden : userId ∈ after.hidden ↔ userId ∈ before.hidden) :
    inSidebar userId after = inSidebar userId before := by
  simp only [inSidebar, hkind, hmembers, hhidden]

/-- The columns of a group change, not who is in it. -/
theorem inSidebar_group {before after : Conversation} {group group' : Group}
    (hbefore : before.kind = .group group) (hafter : after.kind = .group group')
    (hmembers : after.members = before.members) :
    inSidebar userId after = inSidebar userId before := by
  simp only [inSidebar, hbefore, hafter, hmembers]

theorem addMember_rows {groupId memberId : Uuid} (h : userId ≠ memberId) :
    SameBadgeRows db (addMember db now groupId memberId) now userId := by
  refine modifyConversation_rows fun conversation _ => ?_
  refine conversationCounts_congr (inSidebar_congr rfl ?_ Iff.rfl) (fun _ => Iff.rfl) rfl
  split
  · rfl
  · simp [h]

theorem unhide_rows {id memberId : Uuid} (h : userId ≠ memberId) :
    SameBadgeRows db (unhide db id memberId) now userId := by
  refine modifyConversation_rows fun conversation _ => ?_
  refine conversationCounts_congr (inSidebar_congr rfl Iff.rfl ?_) (fun _ => Iff.rfl) rfl
  simp [h]

theorem markMessagesRead_rows {id reader : Uuid} {latest : Sequence} (h : userId ≠ reader) :
    SameBadgeRows db (markMessagesRead db id reader latest) now userId := by
  refine modifyConversation_rows fun conversation _ => ?_
  refine conversationCounts_congr (inSidebar_congr rfl Iff.rfl Iff.rfl) (fun _ => Iff.rfl) ?_
  exact AList.lookup_insert_ne h

theorem setMarkedUnread_rows {id reader : Uuid} (h : userId ≠ reader) :
    SameBadgeRows db (setMarkedUnread db id reader) now userId := by
  refine modifyConversation_rows fun conversation _ => ?_
  refine conversationCounts_congr (inSidebar_congr rfl Iff.rfl Iff.rfl) (fun _ => Iff.rfl) ?_
  exact AList.lookup_insert_ne h

theorem toggleReaction_rows {id reactor : Uuid} {sequence : Sequence} {emoji : String} :
    SameBadgeRows db (toggleReaction db id reactor sequence emoji) now userId := by
  refine modifyConversation_rows fun conversation _ => ?_
  refine conversationCounts_congr (inSidebar_congr rfl Iff.rfl Iff.rfl) (fun other => ?_) rfl
  simp only [Map.lookup_modify]
  split <;> simp

/-- Only participants have the conversation in their sidebar. -/
theorem inSidebar_eq_false {conversation : Conversation}
    (h : userId ∉ conversationParticipants conversation) :
    inSidebar userId conversation = false := by
  unfold conversationParticipants at h
  unfold inSidebar
  cases hkind : conversation.kind with
  | group group =>
    simp only [hkind] at h
    simpa [AList.mem_keys] using h
  | direct lowId highId =>
    simp only [hkind, List.mem_cons, List.not_mem_nil, or_false, not_or] at h
    simp [Ne.symm h.1, Ne.symm h.2]

theorem conversationParticipants_group {conversation : Conversation} {group : Group}
    (hkind : conversation.kind = .group group) :
    conversationParticipants conversation = conversation.members.keys := by
  simp only [conversationParticipants, hkind]

theorem insertMessage_rows {id : Uuid} {conversation : Conversation}
    {message : ConversationMessage} (hfound : db.conversations.lookup id = some conversation)
    (h : userId ∉ conversationParticipants conversation) :
    SameBadgeRows db (insertMessage db now id message) now userId := by
  have hrows : SameBadgeRows db (modifyConversation db id _) now userId :=
    modifyConversation_rows (f := fun conversation => { conversation with
        messages := conversation.messages.insert (db.lastSequence + 1) message
        hidden := conversation.hidden.filter (· = message.senderId)
        updatedAt := now }) fun found hlookup => by
      obtain rfl := Option.some.inj (hlookup.symm.trans hfound)
      have hafter : userId ∉ conversationParticipants { found with
          messages := found.messages.insert (db.lastSequence + 1) message
          hidden := found.hidden.filter (· = message.senderId)
          updatedAt := now } := h
      simp only [conversationCounts, inSidebar_eq_false h, inSidebar_eq_false hafter,
        Bool.false_and]
  exact ⟨hrows.conversations, hrows.requests, hrows.invitations, hrows.friendships, hrows.calls⟩

/-! ## Departures -/

/-- Only a pending member can miss a call. -/
theorem callCounts_of_not_pending {call : CallSession}
    (h : call.members.lookup userId ≠ some .pending) : callCounts db now userId call = false := by
  simp [callCounts, missedCall, h]

theorem callCounts_of_notMem {call : CallSession} (h : userId ∉ call.members) :
    callCounts db now userId call = false := by
  refine callCounts_of_not_pending ?_
  rw [AList.lookup_eq_none.mpr h]
  simp

theorem revoke_rows {groupId memberId : Uuid} (h : userId ≠ memberId) :
    SameBadgeRows db (revokeGroupCallMemberships db groupId memberId) now userId where
  conversations _ := Iff.rfl
  requests _ := Iff.rfl
  invitations _ := Iff.rfl
  friendships _ := Iff.rfl
  calls id := by
    refine Map.mem_matching_mapValues fun call _ => ?_
    split
    · have hsame : (call.members.modify memberId fun _ => .declined).lookup userId =
          call.members.lookup userId := by simp [h]
      simp only [callCounts, missedCall, hsame]
      rfl
    · rfl

theorem removeMember_rows {groupId memberId : Uuid} (h : userId ≠ memberId) :
    SameBadgeRows db (removeMember db now groupId memberId) now userId := by
  refine SameBadgeRows.trans (modifyConversation_rows fun conversation _ => ?_) (revoke_rows h)
  refine conversationCounts_congr (inSidebar_congr rfl ?_ Iff.rfl) (fun _ => Iff.rfl) rfl
  simp [h]

theorem deleteConversation_rows {id : Uuid} {conversation : Conversation}
    (hfound : db.conversations.lookup id = some conversation)
    (hparticipant : userId ∉ conversationParticipants conversation)
    (hcalls : ∀ callId call, db.calls.lookup callId = some call → call.conversationId = id →
      userId ∉ call.members)
    (hinvited : ∀ invitationId invitation, db.invitations.lookup invitationId = some invitation →
      invitation.conversationId = id → invitation.inviteeId = userId →
      invitation.status ≠ .pending) :
    SameBadgeRows db (deleteConversation db id) now userId where
  conversations _ := Map.mem_matching_erase fun found hlookup => by
    obtain rfl := Option.some.inj (hlookup.symm.trans hfound)
    simp only [conversationCounts, inSidebar_eq_false hparticipant, Bool.false_and]
  requests _ := Iff.rfl
  invitations invitationId := Map.mem_matching_retain fun invitation hlookup hpending => by
    simp only [Bool.and_eq_true, decide_eq_true_eq] at hpending
    refine decide_eq_true fun hid => ?_
    exact hinvited invitationId invitation hlookup hid hpending.1 hpending.2
  friendships _ := Iff.rfl
  calls callId := by
    refine Map.mem_matching_retain fun call hlookup hcounts => decide_eq_true fun hid => ?_
    have hcounted : callCounts db now userId call = true := hcounts
    rw [callCounts_of_notMem (hcalls callId call hlookup hid)] at hcounted
    cases hcounted

/-! ## Direct requests and invitations -/

theorem ensureDirectConversation_rows {freshId firstId secondId id : Uuid}
    {conversation : Conversation} {after : SocialDatabase}
    (h : ensureDirectConversation db now freshId firstId secondId = .ok (after, id, conversation)) :
    SameBadgeRows db after now userId := by
  unfold ensureDirectConversation at h
  split at h
  · cases h
    exact .refl db now userId
  · split at h
    · cases h
    · rename_i hfresh
      cases h
      exact insertConversation_rows hfresh (conversationCounts_of_empty rfl rfl)

theorem resolvePendingDirectRequest_rows {firstId secondId : Uuid} (hfirst : userId ≠ firstId)
    (hsecond : userId ≠ secondId) :
    SameBadgeRows db (resolvePendingDirectRequest db firstId secondId) now userId where
  conversations _ := Iff.rfl
  requests id := by
    refine Map.mem_matching_mapValues fun request _ => ?_
    split
    · rename_i hbetween
      have hother : request.recipientId ≠ userId := by
        rcases hbetween.2 with ⟨-, hrecipient⟩ | ⟨-, hrecipient⟩
        · exact hrecipient ▸ Ne.symm hsecond
        · exact hrecipient ▸ Ne.symm hfirst
      simp [hother]
    · rfl
  invitations _ := Iff.rfl
  friendships _ := Iff.rfl
  calls _ := Iff.rfl

theorem resolveInvitation_rows {invitationId : Uuid} {invitation : GroupInvitation}
    {status : RequestStatus} (hfound : db.invitations.lookup invitationId = some invitation)
    (h : userId ≠ invitation.inviteeId) :
    SameBadgeRows db (resolveInvitation db invitationId status) now userId where
  conversations _ := Iff.rfl
  requests _ := Iff.rfl
  invitations id := Map.mem_matching_modify fun found hlookup => by
    obtain rfl := Option.some.inj (hlookup.symm.trans hfound)
    simp [Ne.symm h]
  friendships _ := Iff.rfl
  calls _ := Iff.rfl

/-! ## Calls -/

/-- A call that is over already when it is marked so. -/
theorem expire_rows {test : CallSession → Bool}
    (h : ∀ call, test call = true → call.expiresAt ≤ now ∨ roomEnded db call.sfuRoomId = true) :
    SameBadgeRows db (expire db test) now userId where
  conversations _ := Iff.rfl
  requests _ := Iff.rfl
  invitations _ := Iff.rfl
  friendships _ := Iff.rfl
  calls id := by
    refine Map.mem_matching_mapValues fun call _ => ?_
    split
    · rename_i hover
      have hbefore : callOver db now call = true := by
        rcases h call hover.2 with hended | hended <;> simp [callOver, hended]
      have hafter : callOver (expire db test) now { call with status := .expired } = true := by
        simp [callOver]
      simp only [callCounts, missedCall, hbefore, hafter]
    · rfl

theorem modifyCall_rows {id : Uuid} {f : CallSession → CallSession}
    (h : ∀ call, db.calls.lookup id = some call →
      callCounts db now userId (f call) = callCounts db now userId call) :
    SameBadgeRows db (modifyCall db id f) now userId where
  conversations _ := Iff.rfl
  requests _ := Iff.rfl
  invitations _ := Iff.rfl
  friendships _ := Iff.rfl
  calls _ := Map.mem_matching_modify h

end Writes

end OpenMeet.BadgeRows
