import OpenMeet.BadgeNews
import OpenMeet.MessageDelivery
import OpenMeet.Sidebar

/-!
How far a user has read a conversation. The read mark is the newest sequence of
any latest page read so far, and the sidebar counts the messages of others that
are newer than the mark.
-/
namespace OpenMeet.ReadMarks

open KeyedMap Messages Accounts SocialTables Badges ConversationApi MessageApi MessageDelivery
  SocialRequests Sidebar TransitionSystem BadgeNews

/-! ## The read mark -/

/-- How far the user has read the conversation. -/
def readMark (db : SocialDatabase) (userId conversationId : Uuid) : Sequence :=
  (db.conversations.lookup conversationId).elim 0 (lastRead userId)

/-- Raise a mark by what a read of this user in this conversation has reached. -/
def raiseMark (userId conversationId : Uuid) (mark : Sequence) (read : Read) : Sequence :=
  if read.userId = userId ∧ read.conversationId = conversationId then max mark read.newest else mark

section Marks

variable {db : SocialDatabase} {userId conversationId : Uuid}

theorem readMark_modifyConversation {id : Uuid} {f : Conversation → Conversation}
    (h : ∀ conversation, (f conversation).readStates = conversation.readStates) :
    readMark (modifyConversation db id f) userId conversationId =
      readMark db userId conversationId := by
  simp only [readMark, modifyConversation, Map.lookup_modify]
  split
  · cases db.conversations.lookup conversationId with
    | none => rfl
    | some conversation => simp [lastRead, h]
  · rfl

theorem readMark_markMessagesRead {reader id : Uuid} {latest : Sequence}
    (hid : id ∈ db.conversations) :
    readMark (markMessagesRead db id reader latest) userId conversationId =
      raiseMark userId conversationId (readMark db userId conversationId) ⟨reader, id, latest⟩ := by
  simp only [readMark, raiseMark, markMessagesRead, modifyConversation, Map.lookup_modify]
  by_cases hsame : conversationId = id
  · subst hsame
    obtain ⟨conversation, hlookup⟩ := Option.isSome_iff_exists.mp (AList.lookup_isSome.mpr hid)
    simp only [hlookup, if_true, Option.map_some, Option.elim_some, and_true]
    by_cases hreader : reader = userId
    · subst hreader
      simp [lastRead]
    · rw [if_neg hreader, lastRead, AList.lookup_insert_ne (Ne.symm hreader)]
      rfl
  · rw [if_neg hsame, if_neg fun h => hsame h.2.symm]

/-- A mark stays below a bound if it starts there and every read stays below it. -/
theorem foldl_raiseMark_lt {mark bound : Sequence} {marks : List Read} :
    marks.foldl (raiseMark userId conversationId) mark < bound ↔
      mark < bound ∧ ∀ read ∈ marks, read.userId = userId →
        read.conversationId = conversationId → read.newest < bound := by
  induction marks generalizing mark with
  | nil => simp
  | cons read rest ih =>
    rw [List.foldl_cons, ih, List.forall_mem_cons, ← and_assoc]
    refine and_congr_left fun _ => ?_
    unfold raiseMark
    split
    · rename_i hsame
      rw [max_lt_iff]
      exact and_congr_right fun _ => ⟨fun h _ _ => h, fun h => h hsame.1 hsame.2⟩
    · rename_i hother
      exact (and_iff_left fun huser hconversation => absurd ⟨huser, hconversation⟩ hother).symm

end Marks

/-! ## Steps -/

section Steps

variable {s t : Delivery} {userId conversationId : Uuid}

theorem advance_some {request : Nat}
    {next : Listing → Conversation → Option (SocialDatabase × ListStage)}
    (h : advance s request next = some t) :
    ∃ listing conversation result, s.listing.lookup request = some listing ∧
      s.db.conversations.lookup listing.conversationId = some conversation ∧
      next listing conversation = some result ∧
      t = { s with
        db := result.1
        listing := s.listing.insert request { listing with stage := result.2 } } := by
  unfold advance at h
  split at h
  · cases h
  · rename_i listing hlisting
    split at h
    · cases h
    · rename_i conversation hconversation
      obtain ⟨result, hresult, rfl⟩ := Option.map_eq_some_iff.mp h
      exact ⟨listing, conversation, result, hlisting, hconversation, hresult, rfl⟩

/-- A step raises the mark by what it reads. -/
theorem readMark_step {db : SocialDatabase} {a : DeliveryAction}
    (h : (system db).step s a = some t) :
    readMark t.db userId conversationId =
      (reads s a).foldl (raiseMark userId conversationId)
        (readMark s.db userId conversationId) := by
  cases a with
  | insertMessage transaction senderId id content replyToSequence attachments =>
    have hinsert : insertRow s transaction senderId id content replyToSequence attachments =
      some t := h
    unfold insertRow at hinsert
    split at hinsert
    · cases hinsert
    · split at hinsert
      · cases hinsert
      · split at hinsert
        · cases hinsert
        · obtain ⟨sender, -, rfl⟩ := Option.map_eq_some_iff.mp hinsert
          rfl
  | commitMessage transaction now =>
    obtain ⟨sending, -, rfl⟩ := Option.map_eq_some_iff.mp h
    exact readMark_modifyConversation fun _ => rfl
  | abortMessage transaction =>
    obtain ⟨-, heq⟩ := Option.ite_none_right_eq_some.mp h
    cases heq
    rfl
  | authorizeList request reader id before limit =>
    have hauthorize : authorizeRequest s request reader id before limit = some t := h
    unfold authorizeRequest at hauthorize
    split at hauthorize
    · cases hauthorize
    · split at hauthorize <;> cases hauthorize
      rfl
  | findFirstUnread request =>
    obtain ⟨listing, conversation, result, -, -, hnext, rfl⟩ := advance_some h
    split at hnext <;> cases hnext
    rfl
  | loadPage request =>
    obtain ⟨listing, conversation, result, -, -, hnext, rfl⟩ := advance_some h
    split at hnext <;> cases hnext
    rfl
  | markPage request =>
    obtain ⟨listing, conversation, result, hlisting, hconversation, hnext, rfl⟩ := advance_some h
    split at hnext
    · rename_i page hstage
      cases hnext
      obtain ⟨reader, id, before, limit, stage⟩ := listing
      dsimp only at hstage hconversation ⊢
      subst hstage
      cases before with
      | none =>
        have hid : id ∈ s.db.conversations :=
          AList.lookup_isSome.mp (Option.isSome_of_eq_some hconversation)
        simp only [reads, hlisting, Option.isNone_none, if_true, List.foldl_cons, List.foldl_nil]
        exact readMark_markMessagesRead hid
      | some before => simp [reads, hlisting]
    · cases hnext
  | answerList request =>
    have hanswer : answerRequest s request = some t := h
    unfold answerRequest at hanswer
    split at hanswer <;> cases hanswer
    rfl
  | dropList request =>
    obtain ⟨-, heq⟩ := Option.ite_none_right_eq_some.mp h
    cases heq
    rfl

end Steps

/-! ## Counting -/

/-- The message is among those the sidebar counts for the user. -/
def CountedUnread (db : SocialDatabase) (userId conversationId : Uuid) (sequence : Sequence) :
    Prop :=
  ∃ conversation message, db.conversations.lookup conversationId = some conversation ∧
    conversation.messages.lookup sequence = some message ∧
    isUnread userId conversation sequence message = true

def unreadSequences (userId : Uuid) (conversation : Conversation) : List Sequence :=
  (conversation.messages.entries.filter fun row => isUnread userId conversation row.1 row.2).map
    (·.1)

/-- The sidebar's count is that of these messages. -/
theorem unreadCount_eq (userId : Uuid) (conversation : Conversation) :
    (messageCounts userId conversation).elim 0 (·.unreadCount) =
      (unreadSequences userId conversation).length := by
  unfold messageCounts unreadSequences
  split
  · rename_i hempty
    have hnil : conversation.messages.entries = [] := by simpa [Map.isEmpty] using hempty
    simp [hnil]
  · simp

theorem countedUnread_iff_mem {db : SocialDatabase} {userId conversationId : Uuid}
    {sequence : Sequence} : CountedUnread db userId conversationId sequence ↔
      ∃ conversation, db.conversations.lookup conversationId = some conversation ∧
        sequence ∈ unreadSequences userId conversation := by
  simp only [CountedUnread, unreadSequences, List.mem_map, List.mem_filter]
  refine exists_congr fun conversation => ?_
  constructor
  · rintro ⟨message, hconversation, hmessage, hunread⟩
    exact ⟨hconversation, ⟨sequence, message⟩, ⟨AList.mem_lookup_iff.mp hmessage, hunread⟩, rfl⟩
  · rintro ⟨hconversation, row, ⟨hrow, hunread⟩, rfl⟩
    exact ⟨row.2, hconversation, AList.mem_lookup_iff.mpr hrow, hunread⟩

/-- The message can be read, and somebody else has sent it. -/
def CommittedFromOther (db : SocialDatabase) (userId conversationId : Uuid) (sequence : Sequence) :
    Prop :=
  ∃ conversation message, db.conversations.lookup conversationId = some conversation ∧
    conversation.messages.lookup sequence = some message ∧ message.senderId ≠ userId

theorem countedUnread_iff_lt {db : SocialDatabase} {userId conversationId : Uuid}
    {sequence : Sequence} (h : CommittedFromOther db userId conversationId sequence) :
    CountedUnread db userId conversationId sequence ↔
      readMark db userId conversationId < sequence := by
  obtain ⟨conversation, message, hconversation, hmessage, hsender⟩ := h
  rw [readMark, hconversation, Option.elim_some]
  constructor
  · rintro ⟨found, row, hfound, -, hunread⟩
    obtain rfl := Option.some.inj (hconversation.symm.trans hfound)
    exact of_decide_eq_true (Bool.and_eq_true_iff.mp hunread).2
  · intro hlt
    exact ⟨conversation, message, hconversation, hmessage, by simp [isUnread, hsender, hlt]⟩

/-- What the sidebar still owes the user: the message counts, and the mark is below it. -/
def StaysUnread (db : SocialDatabase) (userId conversationId : Uuid) (sequence : Sequence) :
    Prop :=
  CountedUnread db userId conversationId sequence ∧ readMark db userId conversationId < sequence

def Holds (page : MessagesPage) (sequence : Sequence) : Prop :=
  sequence ∈ page.messages.map (·.1)

instance (page : MessagesPage) (sequence : Sequence) : Decidable (Holds page sequence) :=
  inferInstanceAs (Decidable (_ ∈ _))

/-- Ada and Bob are in a group. -/
def teamOfTwo : List (Timestamp × Uuid × SocialRequest) :=
  [(0, 1, .createGroup 10 "" ⟨"Team", .open, none, []⟩), (1, 2, .joinGroup 10 none)]

end OpenMeet.ReadMarks
