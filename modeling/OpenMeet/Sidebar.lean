import OpenMeet.BadgeRows
import OpenMeet.SocialRequests

/-!
The sidebar's list of conversations against the count in its badge. The list
takes the flag of a conversation from a join that starts at its messages, the
badge from the read state alone, so the two part on a flagged conversation that
has no messages and on nothing else.
-/
namespace OpenMeet.Sidebar

open KeyedMap Messages Accounts SocialTables Badges ConversationApi SocialRequests

structure ConversationMessageCounts where
  messageCount : Nat
  unreadCount : Nat
  markedUnread : Bool
  deriving DecidableEq, Repr

section List

variable (db : SocialDatabase) (userId : Uuid)

/-- A conversation without messages has no row in the join. -/
def messageCounts (conversation : Conversation) : Option ConversationMessageCounts :=
  if conversation.messages.isEmpty then none
  else
    let unread := conversation.messages.entries.filter fun row =>
      isUnread userId conversation row.1 row.2
    some
      { messageCount := conversation.messages.entries.length
        unreadCount := unread.length
        markedUnread := Badges.markedUnread userId conversation }

/-- The user's groups, then the direct conversations the user has not hidden. -/
def sidebar : List (Uuid × Conversation) :=
  let rows := db.conversations.entries.map fun row => (row.1, row.2)
  let groups := rows.filter fun row =>
    match row.2.kind with
    | .group _ => decide (userId ∈ row.2.members)
    | .direct _ _ => false
  let direct := rows.filter fun row =>
    match row.2.kind with
    | .group _ => false
    | .direct lowId highId =>
      userId ∉ row.2.hidden && (lowId = userId || highId = userId)
  groups ++ direct

def withCounts (conversation : Conversation) (response : ConversationResponse) :
    ConversationResponse :=
  let counts := messageCounts userId conversation
  { response with
    messageCount := counts.elim 0 (·.messageCount)
    unreadCount := counts.elim 0 (·.unreadCount)
    markedUnread := counts.any (·.markedUnread) }

def listConversations : Except ApiError (List ConversationResponse) :=
  ((sidebar db userId).mapM fun row =>
    let role := (row.2.members.lookup userId).map (·.role)
    (conversationResponse row.1 row.2 userId role).map
      (withCounts userId row.2)).map fun response => orderByDesc (·.updatedAt) response

/-- The sidebar shows the conversation as unread. -/
def showsUnread (response : ConversationResponse) : Bool :=
  0 < response.unreadCount || response.markedUnread

/-- The badge counts the conversations the sidebar shows as unread and what is pending. -/
def BadgeMirrorsSidebar (now : Timestamp) : Prop :=
  ∃ response, listConversations db userId = .ok response ∧
    (loadBadges db now userId).messages = (response.filter showsUnread).length +
      (pendingRequests db userId).length + (pendingInvitations db userId).length

/-- The user has flagged a conversation without messages that is in their sidebar. -/
def FlagsEmptyConversation : Prop :=
  ∃ id conversation, db.conversations.lookup id = some conversation ∧
    inSidebar userId conversation = true ∧ conversation.messages.isEmpty = true ∧
    Badges.markedUnread userId conversation = true

end List

section Agreement

variable {db : SocialDatabase} {userId : Uuid}

theorem mem_sidebar {id : Uuid} {conversation : Conversation} :
    (id, conversation) ∈ sidebar db userId ↔
      db.conversations.lookup id = some conversation ∧ inSidebar userId conversation = true := by
  have hrow : (id, conversation) ∈ db.conversations.entries.map (fun row => (row.1, row.2)) ↔
      db.conversations.lookup id = some conversation := by
    rw [← Option.mem_def, AList.mem_lookup_iff, List.mem_map]
    constructor
    · rintro ⟨row, hrow, heq⟩
      cases heq
      exact hrow
    · exact fun hrow => ⟨_, hrow, rfl⟩
  simp only [sidebar, List.mem_append, List.mem_filter, hrow, ← and_or_left]
  refine and_congr_right fun _ => ?_
  cases hkind : conversation.kind with
  | group group => simp [inSidebar, hkind]
  | direct lowId highId => simp [inSidebar, hkind, and_comm]

theorem nodup_sidebar : ((sidebar db userId).map Prod.fst).Nodup := by
  have hkeys : ((db.conversations.entries.map fun row => (row.1, row.2)).map Prod.fst).Nodup := by
    rw [List.map_map]
    exact db.conversations.nodupKeys
  have hrows : ∀ p : Uuid × Conversation → Bool,
      (((db.conversations.entries.map fun row => (row.1, row.2)).filter p).map Prod.fst).Nodup :=
    fun p => hkeys.sublist (List.filter_sublist.map _)
  unfold sidebar
  rw [List.map_append]
  refine List.nodup_append'.mpr ⟨hrows _, hrows _, fun id hgroup hdirect => ?_⟩
  obtain ⟨row, hgroup, hid⟩ := List.mem_map.mp hgroup
  obtain ⟨row', hdirect, hid'⟩ := List.mem_map.mp hdirect
  obtain ⟨hgroup, hkind⟩ := List.mem_filter.mp hgroup
  obtain ⟨hdirect, hkind'⟩ := List.mem_filter.mp hdirect
  have hsame : row = row' :=
    List.inj_on_of_nodup_map hkeys hgroup hdirect (hid.trans hid'.symm)
  subst hsame
  -- a row is a group's or a direct conversation's
  cases hrow : row.2.kind with
  | group group => simp [hrow] at hkind'
  | direct lowId highId => simp [hrow] at hkind

/-- The response of a conversation in the sidebar. -/
theorem conversationResponse_ok (id : Uuid) {conversation : Conversation}
    (h : inSidebar userId conversation = true) (role : Option MemberRole) :
    ∃ response, conversationResponse id conversation userId role = .ok response := by
  unfold conversationResponse
  unfold inSidebar at h
  split
  · exact ⟨_, rfl⟩
  · rename_i hkind
    simp only [hkind, Bool.and_eq_true, Bool.or_eq_true, decide_eq_true_eq] at h
    dsimp only
    split
    · exact ⟨_, rfl⟩
    · rename_i hlow
      rw [if_pos (h.1.resolve_left hlow)]
      exact ⟨_, rfl⟩

/-- The sidebar shows a conversation as unread if it has messages and counts. -/
theorem showsUnread_withCounts (conversation : Conversation) (response : ConversationResponse) :
    showsUnread (withCounts userId conversation response) =
      (!conversation.messages.isEmpty &&
        (hasUnread userId conversation || Badges.markedUnread userId conversation)) := by
  cases hempty : conversation.messages.isEmpty with
  | true => simp [showsUnread, withCounts, messageCounts, hempty]
  | false =>
    have hpositive : (0 < (conversation.messages.entries.filter fun row =>
        isUnread userId conversation row.1 row.2).length) =
          (hasUnread userId conversation = true) := by
      rw [List.length_pos_iff_exists_mem, hasUnread, List.any_eq_true]
      simp only [List.mem_filter]
    simp only [showsUnread, withCounts, messageCounts, hempty]
    simp [hpositive]

/-- The ids of the conversations shown as unread. -/
def shownIds (db : SocialDatabase) (userId : Uuid) : List Uuid :=
  ((sidebar db userId).filter fun row => !row.2.messages.isEmpty &&
    (hasUnread userId row.2 || Badges.markedUnread userId row.2)).map Prod.fst

theorem mem_shownIds {id : Uuid} : id ∈ shownIds db userId ↔
    ∃ conversation, db.conversations.lookup id = some conversation ∧
      conversationCounts userId conversation = true ∧ conversation.messages.isEmpty = false := by
  simp only [shownIds, List.mem_map, List.mem_filter, Prod.exists, exists_and_right,
    exists_eq_right, mem_sidebar, conversationCounts, Bool.and_eq_true, Bool.not_eq_true']
  refine exists_congr fun conversation => ?_
  tauto

theorem nodup_shownIds : (shownIds db userId).Nodup :=
  nodup_sidebar.sublist (List.filter_sublist.map _)

/-- Where every row has an answer, as many answers pass as rows do. -/
theorem mapM_ok {Row Answer Error : Type*} {answer : Row → Except Error Answer}
    {shows : Answer → Bool} {counts : Row → Bool} {rows : List Row}
    (h : ∀ row ∈ rows, ∃ a, answer row = .ok a ∧ shows a = counts row) :
    ∃ answers, rows.mapM answer = .ok answers ∧
      (answers.filter shows).length = (rows.filter counts).length := by
  induction rows with
  | nil => exact ⟨[], rfl, rfl⟩
  | cons row rows ih =>
    obtain ⟨a, ha, hshows⟩ := h row List.mem_cons_self
    obtain ⟨answers, hanswers, hlength⟩ := ih fun row hrow => h row (List.mem_cons_of_mem _ hrow)
    refine ⟨a :: answers, ?_, ?_⟩
    · rw [List.mapM_cons, ha, hanswers]
      rfl
    · rw [List.filter_cons, List.filter_cons, hshows]
      split
      · rw [List.length_cons, List.length_cons, hlength]
      · exact hlength

theorem listConversations_ok (db : SocialDatabase) (userId : Uuid) :
    ∃ response, listConversations db userId = .ok response ∧
      (response.filter showsUnread).length = (shownIds db userId).length := by
  have hrows : ∀ row ∈ sidebar db userId, ∃ answer,
      (conversationResponse row.1 row.2 userId ((row.2.members.lookup userId).map (·.role))).map
        (withCounts userId row.2) = .ok answer ∧
      showsUnread answer = (!row.2.messages.isEmpty &&
        (hasUnread userId row.2 || Badges.markedUnread userId row.2)) := by
    intro row hrow
    obtain ⟨response, hok⟩ := conversationResponse_ok row.1 (mem_sidebar.mp hrow).2
      ((row.2.members.lookup userId).map (·.role))
    exact ⟨_, by rw [hok]; rfl, showsUnread_withCounts row.2 response⟩
  obtain ⟨answers, hanswers, hlength⟩ := mapM_ok hrows
  refine ⟨_, by rw [listConversations, hanswers]; rfl, ?_⟩
  calc
    _ = (answers.filter showsUnread).length :=
      ((orderByDesc_perm _ _).filter showsUnread).length_eq
    _ = (shownIds db userId).length := by rw [hlength, shownIds, List.length_map]

/-- What counts and is not shown is flagged and has no messages. -/
theorem flagged_of_notMem_shownIds {id : Uuid} (hcounts : id ∈ countedConversations db userId)
    (h : id ∉ shownIds db userId) : FlagsEmptyConversation db userId := by
  obtain ⟨conversation, hlookup, hcounts⟩ := Map.mem_matching.mp hcounts
  have hempty : conversation.messages.isEmpty = true := by
    cases hempty : conversation.messages.isEmpty with
    | true => rfl
    | false => exact absurd (mem_shownIds.mpr ⟨conversation, hlookup, hcounts, hempty⟩) h
  have hread : hasUnread userId conversation = false := by
    have hnil : conversation.messages.entries = [] := by simpa [Map.isEmpty] using hempty
    simp [hasUnread, hnil]
  simp only [conversationCounts, hread, Bool.false_or, Bool.and_eq_true] at hcounts
  exact ⟨id, conversation, hlookup, hcounts.1, hempty, hcounts.2⟩

theorem shownIds_subset : shownIds db userId ⊆ countedConversations db userId := by
  intro id hid
  obtain ⟨conversation, hlookup, hcounts, -⟩ := mem_shownIds.mp hid
  exact Map.mem_matching.mpr ⟨conversation, hlookup, hcounts⟩

/-- The badge mirrors the sidebar exactly if the user has flagged no empty conversation. -/
theorem badgeMirrorsSidebar_iff (db : SocialDatabase) (now : Timestamp) (userId : Uuid) :
    BadgeMirrorsSidebar db userId now ↔ ¬ FlagsEmptyConversation db userId := by
  obtain ⟨response, hok, hlength⟩ := listConversations_ok db userId
  have hmirrors : BadgeMirrorsSidebar db userId now ↔
      (countedConversations db userId).length = (shownIds db userId).length := by
    simp only [BadgeMirrorsSidebar, hok, Except.ok.injEq, exists_eq_left', loadBadges, hlength]
    omega
  rw [hmirrors]
  have hsub : (shownIds db userId).Subperm (countedConversations db userId) :=
    List.subperm_of_subset nodup_shownIds shownIds_subset
  constructor
  · rintro hlengths ⟨id, conversation, hlookup, hsidebar, hempty, hmarked⟩
    have hperm : (shownIds db userId).Perm (countedConversations db userId) :=
      hsub.perm_of_length_le hlengths.le
    have hcounts : id ∈ countedConversations db userId :=
      Map.mem_matching.mpr ⟨conversation, hlookup, by simp [conversationCounts, hsidebar, hmarked]⟩
    obtain ⟨found, hfound, -, hmessages⟩ := mem_shownIds.mp (hperm.mem_iff.mpr hcounts)
    obtain rfl := Option.some.inj (hlookup.symm.trans hfound)
    rw [hempty] at hmessages
    cases hmessages
  · intro hnone
    refine le_antisymm (List.Subperm.length_le ?_) hsub.length_le
    refine List.subperm_of_subset (Map.nodup_matching _ _) fun id hcounts => ?_
    by_contra h
    exact hnone (flagged_of_notMem_shownIds hcounts h)

end Agreement

end OpenMeet.Sidebar
