import OpenMeet.BadgeNews
import OpenMeet.FailingQueries
import Mathlib.Data.Finset.Card

/-!
Posting and reacting, query by query. Both handlers commit before they build
their answer: the alert for the other participants may fail without harm, but
the preview of the message replied to, and the summary of the reactions, turn a
failure into an error for something that has been committed.
-/
namespace OpenMeet.PostedMessages

open KeyedMap Messages Accounts SocialTables ConversationApi FailingQueries
open FailingQueries.Handler (raise attempt transaction Unchanged Keeps Ensures Misses
  ErrorMeansUndone)
open MessageApi (validateMessageContent messageNotFound)

/-- The queries of the handlers, by their place in the code. -/
inductive Query
  | checkout
  | permission
  | accessBefore
  | membershipBefore
  | reconnect
  | start
  | access
  | membership
  | replyTarget
  | participants
  | participantMembers
  | sender
  | insertMessage
  | insertAttachments
  | updateConversation
  | deleteHiddenStates
  | insertReaction
  | deleteReaction
  | commit
  | rollback
  | alertConversation
  | alertAvatar
  | alertRecipients
  | replyRows
  | replyAttachments
  | reactionSummaries
  deriving DecidableEq, Repr

abbrev Handler := FailingQueries.Handler Query SocialDatabase ApiError

def query {α : Type} (label : Query) (run : SocialDatabase → Except ApiError α × SocialDatabase) :
    Handler α :=
  Handler.query requestFailed label run

def read {α : Type} (label : Query) (value : SocialDatabase → Except ApiError α) : Handler α :=
  Handler.read requestFailed label value

def write (label : Query) (f : SocialDatabase → SocialDatabase) : Handler Unit :=
  query label fun db => (.ok (), f db)

def inTransaction {α : Type} (body : Handler α) : Handler α :=
  transaction requestFailed .start .commit .rollback body

/-! ## Shared queries -/

def checkout (label : Query) : Handler Unit := read label fun _ => .ok ()

def requirePermission (userId : Uuid) : Handler Unit :=
  Handler.read ⟨500, "Internal server error"⟩ .permission fun db =>
    db.accounts.requirePermission userId .messagesSend

def kindOf (notFound : ApiError) (conversationId : Uuid) (db : SocialDatabase) :
    Except ApiError ConversationKind :=
  match db.conversations.lookup conversationId with
  | none => .error notFound
  | some conversation => .ok conversation.kind

def memberIds (conversationId : Uuid) (db : SocialDatabase) : List Uuid :=
  (db.conversations.lookup conversationId).elim [] (·.members.keys)

def authorizeConversationAccess (rowQuery memberQuery : Query) (conversationId userId : Uuid) :
    Handler Unit := do
  let kind ← read rowQuery (kindOf conversationNotFound conversationId)
  match kind with
  | .group _ =>
    let isMember ← read memberQuery fun db => .ok (decide (userId ∈ memberIds conversationId db))
    raise (if isMember then .ok () else .error accessDenied)
  | .direct lowId highId =>
    raise (if lowId = userId ∨ highId = userId then .ok () else .error accessDenied)

def ensureMessageInConversation (conversationId : Uuid) (sequence : Sequence) : Handler Unit :=
  read .replyTarget fun db =>
    match db.conversations.lookup conversationId with
    | none => .error messageNotFound
    | some conversation => MessageApi.ensureMessageInConversation conversation sequence

def ensureReplyTarget (conversationId : Uuid) (replyToSequence : Option Sequence) : Handler Unit :=
  match replyToSequence with
  | some sequence => ensureMessageInConversation conversationId sequence
  | none => pure ()

def conversationParticipants (conversationId : Uuid) : Handler (List Uuid) := do
  let kind ← read .participants (kindOf requestFailed conversationId)
  match kind with
  | .direct lowId highId => pure [lowId, highId]
  | .group _ => read .participantMembers fun db => .ok (memberIds conversationId db)

def senderNames (userId : Uuid) : Handler (String × String) :=
  read .sender fun db =>
    match db.accounts.users.lookup userId with
    | none => .error requestFailed
    | some user => .ok (user.name, user.nickname)

/-! ## The transaction that posts a message -/

/-- The sequence is the primary key of the messages of all conversations. -/
def SequenceTaken (db : SocialDatabase) : Prop :=
  ∃ row ∈ db.conversations.entries, db.lastSequence + 1 ∈ row.2.messages

instance (db : SocialDatabase) : Decidable (SequenceTaken db) :=
  inferInstanceAs (Decidable (∃ row ∈ db.conversations.entries, _))

/-- The insert fails on a foreign key or on the primary key. -/
def insertMessage (conversationId : Uuid) (message : ConversationMessage) :
    Handler (Sequence × ConversationMessage) :=
  query .insertMessage fun db =>
    if conversationId ∉ db.conversations ∨ SequenceTaken db then (.error requestFailed, db)
    else
      let sequence := db.lastSequence + 1
      (.ok (sequence, message),
        { modifyConversation db conversationId fun conversation =>
            { conversation with messages := conversation.messages.insert sequence message } with
          lastSequence := sequence })

def insertAttachments (conversationId : Uuid) (sequence : Sequence)
    (attachments : List MessageAttachment) : Handler Unit :=
  if attachments.isEmpty then pure ()
  else
    write .insertAttachments fun db =>
      modifyConversation db conversationId fun conversation =>
        { conversation with
          messages := conversation.messages.modify sequence fun message =>
            { message with attachments := attachments } }

def updateConversation (now : Timestamp) (conversationId : Uuid) : Handler Unit :=
  write .updateConversation fun db =>
    modifyConversation db conversationId fun conversation => { conversation with updatedAt := now }

def deleteHiddenStates (conversationId userId : Uuid) : Handler Unit :=
  write .deleteHiddenStates fun db =>
    modifyConversation db conversationId fun conversation =>
      { conversation with hidden := conversation.hidden.filter (· = userId) }

structure Posted where
  sequence : Sequence
  message : ConversationMessage
  senderNickname : String
  recipients : List Uuid
  deriving DecidableEq

section Post

variable (now : Timestamp) (userId conversationId : Uuid) (content : String)
  (replyToSequence : Option Sequence) (attachments : List MessageAttachment)

/-- What is read before the message is inserted. -/
def preparePost : Handler (List Uuid × String × String) := do
  authorizeConversationAccess .access .membership conversationId userId
  ensureReplyTarget conversationId replyToSequence
  let recipients ← conversationParticipants conversationId
  let (senderName, senderNickname) ← senderNames userId
  pure (recipients, senderName, senderNickname)

/-- What is written after it. -/
def finishPost (sequence : Sequence) : Handler Unit := do
  insertAttachments conversationId sequence attachments
  updateConversation now conversationId
  deleteHiddenStates conversationId userId

def postMessage : Handler Posted := do
  let (recipients, senderName, senderNickname) ←
    preparePost userId conversationId replyToSequence
  let (sequence, message) ← insertMessage conversationId
    { senderId := userId, senderName, content, replyToSequence, attachments := [], reactions := ∅ }
  finishPost now userId conversationId attachments sequence
  pure { sequence, message, senderNickname, recipients }

end Post

/-! ## What follows the commit -/

/-- The picture of the alert is the group's own, or has to be read from the sender. -/
def alertPicture (senderId : Uuid) (kind : Option ConversationKind) : Handler Unit :=
  match kind with
  | some (.group _) => pure ()
  | _ => do
    let _ ← attempt (read .alertAvatar fun db => .ok (decide (senderId ∈ db.accounts.users)))
    pure ()

/-- Who is available among the recipients. -/
def alertRecipients (recipients : List Uuid) : Handler Unit :=
  if recipients.isEmpty then pure ()
  else do
    let _ ← attempt (read .alertRecipients fun db =>
      .ok (recipients.filter (· ∈ db.accounts.users)))
    pure ()

/-- Tells the other participants. Every failure is logged and forgotten. -/
def alertNewMessage (conversationId senderId : Uuid) (participants : List Uuid) :
    Handler Unit := do
  let kind ← attempt (read .alertConversation (kindOf requestFailed conversationId))
  alertPicture senderId kind
  alertRecipients (participants.filter (· ≠ senderId))

structure MessageReplyPreview where
  sequence : Sequence
  senderId : Uuid
  senderName : String
  senderNickname : String
  content : String
  attachmentFileName : Option String
  attachmentCount : Option Nat
  deriving DecidableEq, Repr

/-- The messages of the conversation with one of these sequences. -/
def messagesAt (conversationId : Uuid) (sequences : List Sequence) (db : SocialDatabase) :
    List (Sequence × ConversationMessage) :=
  (db.conversations.lookup conversationId).elim [] fun conversation =>
    (conversation.messages.entries.map fun row => (row.1, row.2)).filter (·.1 ∈ sequences)

def replyPreviews (conversationId : Uuid) (sequences : List Sequence) :
    Handler (List MessageReplyPreview) :=
  if sequences.isEmpty then pure []
  else do
    let rows ← read .replyRows fun db =>
      .ok ((messagesAt conversationId sequences db).filterMap fun (sequence, message) =>
        (db.accounts.users.lookup message.senderId).map fun user =>
          (sequence, message, user.nickname))
    let attachments ← read .replyAttachments fun db =>
      .ok ((messagesAt conversationId sequences db).map fun (sequence, message) =>
        (sequence, message.attachments.map MessageAttachment.fileName))
    pure (rows.map fun (sequence, message, nickname) =>
      let files := (attachments.find? (·.1 = sequence)).elim [] (·.2)
      { sequence
        senderId := message.senderId
        senderName := message.senderName
        senderNickname := nickname
        content := excerpt message.content
        attachmentFileName := files.head?
        attachmentCount := if files.isEmpty then none else some files.length })

structure ConversationMessageResponse where
  conversationId : Uuid
  sequence : Sequence
  message : ConversationMessage
  senderNickname : String
  replyTo : Option MessageReplyPreview
  attachments : List MessageAttachment
  deriving DecidableEq

def replyPreview (conversationId : Uuid) (replyToSequence : Option Sequence) :
    Handler (Option MessageReplyPreview) :=
  match replyToSequence with
  | some sequence => do
    let previews ← replyPreviews conversationId [sequence]
    pure (previews.find? (·.sequence = sequence))
  | none => pure none

/-- How the request goes on once the message is committed. -/
def answerPosted (conversationId : Uuid) (attachments : List MessageAttachment)
    (posted : Posted) : Handler ConversationMessageResponse := do
  alertNewMessage conversationId posted.message.senderId posted.recipients
  let replyTo ← replyPreview conversationId posted.message.replyToSequence
  pure
    { conversationId, sequence := posted.sequence, message := posted.message,
      senderNickname := posted.senderNickname, replyTo, attachments }

/-! ## The handlers -/

section Handlers

variable (env : Environment) (now : Timestamp) (userId conversationId : Uuid)

/-- How both handlers end: the transaction and the answer. -/
def post (content : String) (replyToSequence : Option Sequence)
    (attachments : List MessageAttachment) : Handler ConversationMessageResponse := do
  let posted ← inTransaction
    (postMessage now userId conversationId content replyToSequence attachments)
  answerPosted conversationId attachments posted

def createMessage (content : String) (replyToSequence : Option Sequence) :
    Handler ConversationMessageResponse := do
  let content ← raise (validateMessageContent content)
  checkout .checkout
  requirePermission userId
  post now userId conversationId content replyToSequence []

/-- The uploaded fields come parsed and their files stored. -/
def createMessageWithAttachments
    (upload : Except ApiError (String × Option Sequence × List MessageAttachment)) :
    Handler ConversationMessageResponse := do
  checkout .checkout
  requirePermission userId
  authorizeConversationAccess .accessBefore .membershipBefore conversationId userId
  let (content, replyToSequence, attachments) ← raise upload
  checkout .reconnect
  post now userId conversationId content replyToSequence attachments

structure MessageReactionSummary where
  emoji : String
  count : Nat
  reactedByMe : Bool
  deriving DecidableEq, Repr

def messageAt (db : SocialDatabase) (conversationId : Uuid) (sequence : Sequence) :
    Option ConversationMessage :=
  (db.conversations.lookup conversationId).bind (·.messages.lookup sequence)

def reactionsOf (db : SocialDatabase) (conversationId : Uuid) (sequence : Sequence) :
    Finset (Uuid × String) :=
  (messageAt db conversationId sequence).elim ∅ (·.reactions)

def setReactions (db : SocialDatabase) (conversationId : Uuid) (sequence : Sequence)
    (f : Finset (Uuid × String) → Finset (Uuid × String)) : SocialDatabase :=
  modifyConversation db conversationId fun conversation =>
    { conversation with
      messages := conversation.messages.modify sequence fun message =>
        { message with reactions := f message.reactions } }

/-- Inserts the reaction unless it is there already, and says whether it did. The message is a
foreign key. -/
def insertReaction (sequence : Sequence) (emoji : String) : Handler Bool :=
  query .insertReaction fun db =>
    match messageAt db conversationId sequence with
    | none => (.error requestFailed, db)
    | some message =>
      if (userId, emoji) ∈ message.reactions then (.ok false, db)
      else (.ok true, setReactions db conversationId sequence (insert (userId, emoji)))

/-- A reaction that was there already is taken back. -/
def deleteReaction (inserted : Bool) (sequence : Sequence) (emoji : String) : Handler Unit :=
  if inserted then pure ()
  else
    write .deleteReaction fun db =>
      setReactions db conversationId sequence fun reactions => reactions.erase (userId, emoji)

def reactionSummaries (sequence : Sequence) : Handler (Finset MessageReactionSummary) :=
  read .reactionSummaries fun db =>
    let reactions := reactionsOf db conversationId sequence
    .ok (reactions.image fun reaction =>
      { emoji := reaction.2
        count := (reactions.filter (·.2 = reaction.2)).card
        reactedByMe := decide ((userId, reaction.2) ∈ reactions) })

/-- The transaction that adds the viewer's reaction, or removes it when the emoji is sent again. -/
def toggle (sequence : Sequence) (emoji : String) : Handler (List Uuid) := do
  authorizeConversationAccess .access .membership conversationId userId
  ensureMessageInConversation conversationId sequence
  let inserted ← insertReaction userId conversationId sequence emoji
  deleteReaction userId conversationId inserted sequence emoji
  conversationParticipants conversationId

def toggleMessageReaction (sequence : Sequence) (emoji : String) :
    Handler (Finset MessageReactionSummary) := do
  let emoji ← raise ((validateReaction env.isAlphanumeric emoji).mapError (⟨400, ·⟩))
  checkout .checkout
  let _ ← inTransaction (toggle userId conversationId sequence emoji)
  reactionSummaries userId conversationId sequence

end Handlers

/-! ## Reading leaves everything as it is -/

section Reading

variable (conversationId userId : Uuid)

theorem read_unchanged {α : Type} (label : Query) (value : SocialDatabase → Except ApiError α) :
    Unchanged (read label value) :=
  Unchanged.read _ _ _

theorem checkout_unchanged (label : Query) : Unchanged (checkout label) :=
  read_unchanged _ _

theorem requirePermission_unchanged : Unchanged (requirePermission userId) :=
  Unchanged.read _ _ _

theorem authorizeConversationAccess_unchanged (rowQuery memberQuery : Query) :
    Unchanged (authorizeConversationAccess rowQuery memberQuery conversationId userId) := by
  refine (read_unchanged _ _).bind fun kind => ?_
  cases kind with
  | group _ => exact (read_unchanged _ _).bind fun _ => Unchanged.raise _
  | direct _ _ => exact Unchanged.raise _

theorem conversationParticipants_unchanged :
    Unchanged (conversationParticipants conversationId) := by
  refine (read_unchanged _ _).bind fun kind => ?_
  cases kind with
  | group _ => exact read_unchanged _ _
  | direct _ _ => exact Unchanged.pure _

theorem ensureMessageInConversation_unchanged (sequence : Sequence) :
    Unchanged (ensureMessageInConversation conversationId sequence) :=
  read_unchanged _ _

theorem ensureReplyTarget_unchanged (replyToSequence : Option Sequence) :
    Unchanged (ensureReplyTarget conversationId replyToSequence) := by
  cases replyToSequence with
  | none => exact Unchanged.pure _
  | some sequence => exact ensureMessageInConversation_unchanged _ _

theorem preparePost_unchanged (replyToSequence : Option Sequence) :
    Unchanged (preparePost userId conversationId replyToSequence) := by
  refine (authorizeConversationAccess_unchanged _ _ _ _).bind fun _ => ?_
  refine (ensureReplyTarget_unchanged _ _).bind fun _ => ?_
  refine (conversationParticipants_unchanged _).bind fun _ => ?_
  exact (read_unchanged _ _).bind fun _ => Unchanged.pure _

theorem alertNewMessage_unchanged (participants : List Uuid) :
    Unchanged (alertNewMessage conversationId userId participants) := by
  refine (read_unchanged _ _).attempt.bind fun kind => ?_
  refine Unchanged.bind ?_ fun _ => ?_
  · unfold alertPicture
    split
    · exact Unchanged.pure _
    · exact (read_unchanged _ _).attempt.bind fun _ => Unchanged.pure _
  · unfold alertRecipients
    split
    · exact Unchanged.pure _
    · exact (read_unchanged _ _).attempt.bind fun _ => Unchanged.pure _

theorem replyPreview_unchanged (replyToSequence : Option Sequence) :
    Unchanged (replyPreview conversationId replyToSequence) := by
  cases replyToSequence with
  | none => exact Unchanged.pure _
  | some sequence =>
    refine Unchanged.bind ?_ fun _ => Unchanged.pure _
    refine (read_unchanged _ _).bind fun _ => ?_
    exact (read_unchanged _ _).bind fun _ => Unchanged.pure _

theorem answerPosted_unchanged (attachments : List MessageAttachment) (posted : Posted) :
    Unchanged (answerPosted conversationId attachments posted) := by
  refine (alertNewMessage_unchanged _ _ _).bind fun _ => ?_
  exact (replyPreview_unchanged _ _).bind fun _ => Unchanged.pure _

end Reading

/-! ## The message row -/

section Rows

/-- A message row has been committed that was not there before. -/
def MessageCommitted (start after : SocialDatabase) : Prop :=
  ∃ id conversation sequence, after.conversations.lookup id = some conversation ∧
    sequence ∈ conversation.messages ∧
      ∀ before, start.conversations.lookup id = some before → sequence ∉ before.messages

variable {start db : SocialDatabase} {conversationId userId : Uuid}

theorem not_messageCommitted_self (db : SocialDatabase) : ¬ MessageCommitted db db := by
  intro ⟨id, conversation, sequence, hlookup, hmem, hnew⟩
  exact hnew conversation hlookup hmem

/-- Rewriting a conversation keeps the new row, if it keeps the conversation's messages. -/
theorem messageCommitted_modify {f : Conversation → Conversation}
    (hf : ∀ conversation sequence,
      sequence ∈ conversation.messages → sequence ∈ (f conversation).messages)
    (h : MessageCommitted start db) :
    MessageCommitted start (modifyConversation db conversationId f) := by
  obtain ⟨id, conversation, sequence, hlookup, hmem, hnew⟩ := h
  by_cases heq : id = conversationId
  · subst heq
    refine ⟨id, f conversation, sequence, ?_, hf _ _ hmem, hnew⟩
    simp [modifyConversation, hlookup]
  · refine ⟨id, conversation, sequence, ?_, hmem, hnew⟩
    simp [modifyConversation, heq, hlookup]

theorem insertMessage_ensures (message : ConversationMessage) :
    Ensures (insertMessage conversationId message) fun start row after =>
      MessageCommitted start after ∧ row.2 = message := by
  refine Ensures.query fun db row hok => ?_
  split at hok
  · cases hok
  · rename_i hfree
    rw [if_neg hfree]
    cases hok
    obtain ⟨hconversation, hsequence⟩ := not_or.mp hfree
    obtain ⟨conversation, hlookup⟩ :=
      Option.isSome_iff_exists.mp (AList.lookup_isSome.mpr (not_not.mp hconversation))
    refine ⟨⟨conversationId, { conversation with
      messages := conversation.messages.insert (db.lastSequence + 1) message },
      db.lastSequence + 1, ?_, ?_, fun before hbefore hmem => ?_⟩, rfl⟩
    · simp [modifyConversation, hlookup]
    · simp
    · exact hsequence ⟨⟨conversationId, before⟩, AList.mem_lookup_iff.mp hbefore, hmem⟩

theorem finishPost_keeps (now : Timestamp) (attachments : List MessageAttachment)
    (sequence : Sequence) :
    Keeps (finishPost now userId conversationId attachments sequence) MessageCommitted := by
  refine Keeps.bind ?_ fun _ => Keeps.bind ?_ fun _ => ?_
  · unfold insertAttachments
    split
    · exact (Unchanged.pure _).keeps
    · exact Keeps.query fun start db =>
        messageCommitted_modify fun _ _ hmem => (Map.mem_modify _ _ _ _).mpr hmem
  · exact Keeps.query fun start db => messageCommitted_modify fun _ _ hmem => hmem
  · exact Keeps.query fun start db => messageCommitted_modify fun _ _ hmem => hmem

variable (now : Timestamp) (userId conversationId : Uuid) (content : String)
  (replyToSequence : Option Sequence) (attachments : List MessageAttachment)

theorem postMessage_ensures :
    Ensures (postMessage now userId conversationId content replyToSequence attachments)
      fun start posted after =>
        MessageCommitted start after ∧ posted.message.replyToSequence = replyToSequence := by
  refine Ensures.bind_of_unchanged (preparePost_unchanged _ _ _) fun (recipients, names) => ?_
  refine (insertMessage_ensures _).bind fun (sequence, message) failure start mid posted => ?_
  intro ⟨hcommitted, hmessage⟩ hok
  have hresult := Handler.eq_of_bind_pure hok
  subst hresult
  refine ⟨?_, by rw [show message = _ from hmessage]⟩
  refine Keeps.bind (finishPost_keeps _ _ _) (fun _ => ?_) failure start mid hcommitted
  exact (Unchanged.pure _).keeps

end Rows

/-! ## Queries that are answered -/

section Answered

def prepareQueries : List Query :=
  [.access, .membership, .replyTarget, .participants, .participantMembers, .sender]

def finishQueries : List Query := [.insertAttachments, .updateConversation, .deleteHiddenStates]

/-- The queries of the transaction's body. -/
def bodyQueries : List Query := prepareQueries ++ .insertMessage :: finishQueries

variable {failure : Option (Failure Query)} (db : SocialDatabase) (userId conversationId : Uuid)
  (replyToSequence : Option Sequence)

theorem authorizeConversationAccess_of_misses (rowQuery memberQuery : Query)
    (hmiss : Misses failure [rowQuery, memberQuery]) :
    (authorizeConversationAccess rowQuery memberQuery conversationId userId).run failure db =
      ((ConversationApi.authorizeConversationAccess db conversationId userId).map fun _ => (),
        db) := by
  unfold authorizeConversationAccess ConversationApi.authorizeConversationAccess read
  rw [Handler.bind_apply, Handler.read_of_misses hmiss (by simp)]
  cases hlookup : db.conversations.lookup conversationId with
  | none => simp [kindOf, hlookup, Except.map]
  | some conversation =>
    simp only [kindOf, hlookup]
    cases hkind : conversation.kind with
    | direct lowId highId =>
      simp only [raise]
      split <;> rfl
    | group _ =>
      simp only
      rw [Handler.bind_apply, Handler.read_of_misses hmiss (by simp)]
      simp only [raise, memberIds, hlookup, Option.elim_some, AList.mem_keys, decide_eq_true_eq]
      split <;> rfl

theorem ensureReplyTarget_of_misses (hmiss : Misses failure [.replyTarget]) :
    (ensureReplyTarget conversationId replyToSequence).run failure db = (.ok (), db) ↔
      ∀ sequence ∈ replyToSequence, ∃ conversation,
        db.conversations.lookup conversationId = some conversation ∧
          sequence ∈ conversation.messages := by
  cases replyToSequence with
  | none => simp [ensureReplyTarget, Handler.pure_apply]
  | some sequence =>
    simp only [ensureReplyTarget, ensureMessageInConversation, read]
    rw [Handler.read_of_misses hmiss (by simp)]
    cases hlookup : db.conversations.lookup conversationId with
    | none => simp
    | some conversation =>
      simp only [MessageApi.ensureMessageInConversation]
      split <;> simp_all

theorem conversationParticipants_of_misses
    (hmiss : Misses failure [.participants, .participantMembers]) {conversation : Conversation}
    (hlookup : db.conversations.lookup conversationId = some conversation) :
    (conversationParticipants conversationId).run failure db =
      (.ok (MessageApi.conversationParticipants conversation), db) := by
  unfold conversationParticipants MessageApi.conversationParticipants read
  rw [Handler.bind_apply, Handler.read_of_misses hmiss (by simp)]
  simp only [kindOf, hlookup]
  cases conversation.kind with
  | direct lowId highId => rfl
  | group _ =>
    simp only
    rw [Handler.read_of_misses hmiss (by simp)]
    simp [memberIds, hlookup]

theorem senderNames_of_misses (hmiss : Misses failure [.sender]) :
    (∃ names, (senderNames userId).run failure db = (.ok names, db)) ↔
      userId ∈ db.accounts.users := by
  unfold senderNames read
  rw [Handler.read_of_misses hmiss (by simp), ← AList.lookup_isSome]
  cases db.accounts.users.lookup userId <;> simp

theorem insertMessage_of_misses (hmiss : Misses failure [.insertMessage])
    (message : ConversationMessage) :
    (∃ row after, (insertMessage conversationId message).run failure db = (.ok row, after)) ↔
      conversationId ∈ db.conversations ∧ ¬ SequenceTaken db := by
  unfold insertMessage query
  rw [Handler.query_of_misses hmiss (by simp)]
  by_cases hfree : conversationId ∈ db.conversations ∧ ¬ SequenceTaken db
  · simp [hfree.1, hfree.2]
  · rw [if_pos (by rwa [not_and_or, not_not] at hfree)]
    simp [hfree]

theorem write_of_misses {labels : List Query} (hmiss : Misses failure labels) {label : Query}
    (hlabel : label ∈ labels) (f : SocialDatabase → SocialDatabase) :
    (write label f).run failure db = (.ok (), f db) :=
  Handler.query_of_misses hmiss hlabel (fun db => (.ok (), f db)) db

theorem finishPost_of_misses (now : Timestamp) (attachments : List MessageAttachment)
    (sequence : Sequence)
    (hmiss : Misses failure finishQueries) :
    ∃ after, (finishPost now userId conversationId attachments sequence).run failure db =
      (.ok (), after) := by
  obtain ⟨mid, hmid⟩ : ∃ mid,
      (insertAttachments conversationId sequence attachments).run failure db =
        (.ok (), mid) := by
    unfold insertAttachments
    split
    · exact ⟨db, rfl⟩
    · exact ⟨_, write_of_misses _ hmiss (by decide) _⟩
  unfold finishPost updateConversation deleteHiddenStates
  rw [Handler.bind_of_ok hmid, Handler.bind_of_ok (write_of_misses _ hmiss (by decide) _)]
  exact ⟨_, write_of_misses _ hmiss (by decide) _⟩

/-! ## Requests that reach their commit -/

/-- The sender may post to the conversation, the message replied to is there and the next sequence
is free. -/
def Postable (db : SocialDatabase) (userId conversationId : Uuid)
    (replyToSequence : Option Sequence) : Prop :=
  userId ∈ db.accounts.users ∧ ¬ SequenceTaken db ∧
    ∃ conversation, ConversationApi.authorizeConversationAccess db conversationId userId =
      .ok conversation ∧ ∀ sequence ∈ replyToSequence, sequence ∈ conversation.messages

theorem preparePost_of_misses (hmiss : Misses failure prepareQueries) :
    (∃ prepared, (preparePost userId conversationId replyToSequence).run failure db =
        (.ok prepared, db)) ↔
      userId ∈ db.accounts.users ∧
        ∃ conversation, ConversationApi.authorizeConversationAccess db conversationId userId =
          .ok conversation ∧ ∀ sequence ∈ replyToSequence, sequence ∈ conversation.messages := by
  have htarget := ensureReplyTarget_of_misses db conversationId replyToSequence
    (hmiss.mono (by decide))
  have hsender := senderNames_of_misses db userId (hmiss.mono (by decide))
  unfold preparePost
  simp only [(authorizeConversationAccess_unchanged _ _ _ _).bind_eq_ok_iff,
    (ensureReplyTarget_unchanged _ _).bind_eq_ok_iff,
    (conversationParticipants_unchanged _).bind_eq_ok_iff,
    authorizeConversationAccess_of_misses db userId conversationId .access .membership
      (hmiss.mono (by decide))]
  constructor
  · intro ⟨prepared, _, hconversation, _, hreply, recipients, _, hnames⟩
    obtain ⟨names, hfound, _⟩ := (read_unchanged _ _).bind_eq_ok_iff.mp hnames
    refine ⟨hsender.mp ⟨names, hfound⟩, ?_⟩
    cases hallowed : ConversationApi.authorizeConversationAccess db conversationId userId with
    | error e => simp [hallowed, Except.map] at hconversation
    | ok conversation =>
      refine ⟨conversation, rfl, fun sequence hsequence => ?_⟩
      obtain ⟨found, hlookup, hmem⟩ := htarget.mp hreply sequence hsequence
      rw [authorizeConversationAccess_ok hallowed] at hlookup
      cases hlookup
      exact hmem
  · intro ⟨hmember, conversation, hallowed, hreply⟩
    have hlookup := authorizeConversationAccess_ok hallowed
    have hparticipants := conversationParticipants_of_misses db conversationId
      (hmiss.mono (by decide)) hlookup
    obtain ⟨names, hnames⟩ := hsender.mpr hmember
    refine ⟨(MessageApi.conversationParticipants conversation, names), (), by rw [hallowed]; rfl,
      (), htarget.mpr fun sequence hsequence => ?_, _, hparticipants, ?_⟩
    · exact ⟨conversation, hlookup, hreply sequence hsequence⟩
    · rw [Handler.bind_of_ok hnames]
      rfl

/-- Where none of the body's queries fails, it goes through exactly for a message that may be
posted. -/
theorem postMessage_of_misses (now : Timestamp) (content : String)
    (attachments : List MessageAttachment)
    (hmiss : Misses failure bodyQueries) :
    (∃ posted after, (postMessage now userId conversationId content replyToSequence
        attachments).run failure db = (.ok posted, after)) ↔
      Postable db userId conversationId replyToSequence := by
  have hprepare := preparePost_of_misses db userId conversationId replyToSequence
    (hmiss.mono (by decide))
  have hinsert := insertMessage_of_misses db conversationId (hmiss.mono (by decide))
  constructor
  · intro ⟨posted, after, hposted⟩
    obtain ⟨prepared, hprepared, hinserted⟩ :=
      (preparePost_unchanged _ _ _).bind_eq_ok_iff.mp hposted
    obtain ⟨hmember, hconversation⟩ := hprepare.mp ⟨prepared, hprepared⟩
    obtain ⟨row, mid, hrow⟩ := Handler.ok_of_bind hinserted
    exact ⟨hmember, ((hinsert _).mp ⟨row, mid, hrow⟩).2, hconversation⟩
  · intro ⟨hmember, hfree, conversation, hallowed, hreply⟩
    obtain ⟨prepared, hprepared⟩ := hprepare.mpr ⟨hmember, conversation, hallowed, hreply⟩
    have hexists : conversationId ∈ db.conversations := by
      rw [← AList.lookup_isSome, authorizeConversationAccess_ok hallowed]
      rfl
    obtain ⟨row, mid, hrow⟩ := (hinsert
      { senderId := userId, senderName := prepared.2.1, content, replyToSequence,
        attachments := [], reactions := ∅ }).mpr ⟨hexists, hfree⟩
    obtain ⟨after, hafter⟩ := finishPost_of_misses mid userId conversationId now attachments row.1
      (hmiss.mono (by decide))
    refine ⟨⟨row.1, row.2, prepared.2.2, prepared.1⟩, after, ?_⟩
    unfold postMessage
    rw [Handler.bind_of_ok hprepared, Handler.bind_of_ok hrow, Handler.bind_of_ok hafter]
    rfl

/-! ## What is still read after the commit -/

/-- The queries whose failure still fails the answer. -/
def answerQueries : Option Sequence → List Query
  | some _ => [.replyRows, .replyAttachments]
  | none => []

theorem alertNewMessage_answers (participants : List Uuid) :
    ∃ u, (alertNewMessage conversationId userId participants).run failure db = (.ok u, db) := by
  have hpicture : ∀ kind, (alertPicture userId kind).run failure db = (.ok (), db) := by
    intro kind
    unfold alertPicture
    split
    · rfl
    · rw [Handler.bind_of_ok (Handler.attempt_of_unchanged (read_unchanged _ _))]
      rfl
  have hrecipients : ∀ recipients, (alertRecipients recipients).run failure db = (.ok (), db) := by
    intro recipients
    unfold alertRecipients
    split
    · rfl
    · rw [Handler.bind_of_ok (Handler.attempt_of_unchanged (read_unchanged _ _))]
      rfl
  unfold alertNewMessage
  rw [Handler.bind_of_ok (Handler.attempt_of_unchanged (read_unchanged _ _)),
    Handler.bind_of_ok (hpicture _)]
  exact ⟨(), hrecipients _⟩

/-- The answer fails exactly when a query of the reply preview does. -/
theorem answerPosted_error_iff (attachments : List MessageAttachment) (posted : Posted) :
    (∃ e, ((answerPosted conversationId attachments posted).run failure db).1 = .error e) ↔
      ∃ f ∈ failure, f.query ∈ answerQueries posted.message.replyToSequence := by
  obtain ⟨u, halert⟩ := alertNewMessage_answers db posted.message.senderId conversationId
    posted.recipients
  unfold answerPosted
  rw [Handler.bind_of_ok halert]
  cases posted.message.replyToSequence with
  | none => simp [replyPreview, answerQueries, Handler.bind_apply, Handler.pure_apply]
  | some sequence =>
    cases failure with
    | none =>
      simp [replyPreview, replyPreviews, Handler.bind_apply, Handler.pure_apply, read,
        Handler.read, Handler.query_run]
    | some f =>
      by_cases hrows : f.query = .replyRows
      · simp [replyPreview, replyPreviews, answerQueries, Handler.bind_apply, read, Handler.read,
          Handler.query_run, hrows, Option.filter]
      · by_cases hattachments : f.query = .replyAttachments
        all_goals
          simp [replyPreview, replyPreviews, answerQueries, Handler.bind_apply,
            Handler.pure_apply, read, Handler.read, Handler.query_run, hrows, hattachments,
            Option.filter]

theorem checkout_of_misses {label : Query} (hmiss : Misses failure [label]) :
    (checkout label).run failure db = (.ok (), db) :=
  Handler.read_of_misses hmiss (by simp) (fun _ => .ok ()) db

theorem requirePermission_of_misses (hmiss : Misses failure [.permission]) :
    (requirePermission userId).run failure db =
      (db.accounts.requirePermission userId .messagesSend, db) :=
  Handler.read_of_misses hmiss (by simp) _ _

end Answered

/-! ## Posting -/

section Posting

variable {failure : Option (Failure Query)} {db : SocialDatabase}
  (now : Timestamp) (userId conversationId : Uuid) (content : String)
  (replyToSequence : Option Sequence) (attachments : List MessageAttachment)

/-- A failure at or after the commit hits nothing before it. -/
theorem misses_of_late {labels : List Query}
    (h : ∃ f ∈ failure, Handler.Late .commit (answerQueries replyToSequence) f)
    (hlabels : ∀ label ∈ labels,
      label ≠ .commit ∧ label ≠ .replyRows ∧ label ≠ .replyAttachments) :
    Misses failure labels := by
  refine Handler.misses_of_late h fun label hlabel => ?_
  obtain ⟨hcommit, hrows, hattachments⟩ := hlabels label hlabel
  cases replyToSequence <;> simp [answerQueries, hcommit, hrows, hattachments]

theorem post_law :
    ErrorMeansUndone MessageCommitted db
        ((post now userId conversationId content replyToSequence attachments).run failure db) ↔
      ¬ (Postable db userId conversationId replyToSequence ∧
        ∃ f ∈ failure, Handler.Late .commit (answerQueries replyToSequence) f) := by
  refine Handler.transaction_law (not_messageCommitted_self db) ?_ ?_
    (postMessage_ensures now userId conversationId content replyToSequence attachments)
    (fun hlate => postMessage_of_misses db userId conversationId replyToSequence now content
      attachments (misses_of_late _ hlate (by decide)))
    (answerPosted_unchanged _ _) fun posted after hfits => ?_
  · cases replyToSequence <;> simp [answerQueries]
  · cases replyToSequence <;> simp [answerQueries]
  · rw [answerPosted_error_iff, hfits]

/-- The sender may send messages, the request is valid and may be posted, and the failure comes
once it is. -/
def FailsOncePosted (failure : Option (Failure Query)) (db : SocialDatabase)
    (userId conversationId : Uuid)
    (request : Except ApiError (String × Option Sequence × List MessageAttachment)) : Prop :=
  db.accounts.requirePermission userId .messagesSend = .ok () ∧
    ∃ valid, request = .ok valid ∧ Postable db userId conversationId valid.2.1 ∧
      ∃ f ∈ failure, Handler.Late .commit (answerQueries valid.2.1) f

theorem createMessage_law :
    ErrorMeansUndone MessageCommitted db
        ((createMessage now userId conversationId content replyToSequence).run failure db) ↔
      ¬ FailsOncePosted failure db userId conversationId
        ((validateMessageContent content).map (·, replyToSequence, [])) := by
  have hself := not_messageCommitted_self db
  unfold createMessage
  rw [Handler.bind_law hself (Unchanged.raise _) fun _ =>
    Handler.bind_law hself (checkout_unchanged _) fun _ =>
    Handler.bind_law hself (requirePermission_unchanged _) fun _ => post_law _ _ _ _ _ _]
  refine not_congr ⟨?_, ?_⟩
  · intro ⟨validated, hvalid, _, _, _, hallowed, hpostable, hlate⟩
    rw [Handler.raise_eq_ok_iff] at hvalid
    rw [requirePermission_of_misses _ _ (misses_of_late _ hlate (by decide))] at hallowed
    exact ⟨congrArg Prod.fst hallowed, (validated, replyToSequence, []), by rw [hvalid]; rfl,
      hpostable, hlate⟩
  · intro ⟨hallowed, valid, hvalid, hpostable, hlate⟩
    cases hcontent : validateMessageContent content with
    | error e =>
      rw [hcontent] at hvalid
      cases hvalid
    | ok validated =>
      rw [hcontent] at hvalid
      cases hvalid
      refine ⟨validated, Handler.raise_eq_ok_iff.mpr rfl, (), ?_, (), ?_, hpostable, hlate⟩
      · exact checkout_of_misses _ (misses_of_late _ hlate (by decide))
      · rw [requirePermission_of_misses _ _ (misses_of_late _ hlate (by decide)), hallowed]

theorem createMessageWithAttachments_law
    (upload : Except ApiError (String × Option Sequence × List MessageAttachment)) :
    ErrorMeansUndone MessageCommitted db
        ((createMessageWithAttachments now userId conversationId upload).run failure db) ↔
      ¬ FailsOncePosted failure db userId conversationId upload := by
  have hself := not_messageCommitted_self db
  unfold createMessageWithAttachments
  rw [Handler.bind_law hself (checkout_unchanged _) fun _ =>
    Handler.bind_law hself (requirePermission_unchanged _) fun _ =>
    Handler.bind_law hself (authorizeConversationAccess_unchanged _ _ _ _) fun _ =>
    Handler.bind_law hself (Unchanged.raise _) fun _ =>
    Handler.bind_law hself (checkout_unchanged _) fun _ => post_law _ _ _ _ _ _]
  refine not_congr ⟨?_, ?_⟩
  · intro ⟨_, _, _, hallowed, _, _, valid, hvalid, _, _, hpostable, hlate⟩
    rw [requirePermission_of_misses _ _ (misses_of_late _ hlate (by decide))] at hallowed
    exact ⟨congrArg Prod.fst hallowed, valid, Handler.raise_eq_ok_iff.mp hvalid, hpostable, hlate⟩
  · intro ⟨hallowed, valid, hvalid, hpostable, hlate⟩
    have ⟨_, _, conversation, haccess, _⟩ := hpostable
    refine ⟨(), ?_, (), ?_, (), ?_, valid, Handler.raise_eq_ok_iff.mpr hvalid, (), ?_,
      hpostable, hlate⟩
    · exact checkout_of_misses _ (misses_of_late _ hlate (by decide))
    · rw [requirePermission_of_misses _ _ (misses_of_late _ hlate (by decide)), hallowed]
    · rw [authorizeConversationAccess_of_misses _ _ _ _ _
        (misses_of_late _ hlate (by decide)), haccess]
      rfl
    · exact checkout_of_misses _ (misses_of_late _ hlate (by decide))

end Posting

/-! ## Reacting -/

section Reacting

variable {failure : Option (Failure Query)} {db : SocialDatabase}
  (userId conversationId : Uuid) (sequence : Sequence)

def ReactionsChanged (start after : SocialDatabase) : Prop :=
  ∃ conversationId sequence,
    reactionsOf after conversationId sequence ≠ reactionsOf start conversationId sequence

theorem not_reactionsChanged_self (db : SocialDatabase) : ¬ ReactionsChanged db db :=
  fun ⟨_, _, hne⟩ => hne rfl

theorem messageAt_setReactions (db : SocialDatabase)
    (f : Finset (Uuid × String) → Finset (Uuid × String)) :
    messageAt (setReactions db conversationId sequence f) conversationId sequence =
      (messageAt db conversationId sequence).map fun message =>
        { message with reactions := f message.reactions } := by
  unfold messageAt setReactions modifyConversation
  simp only [Map.lookup_modify, if_pos]
  cases db.conversations.lookup conversationId with
  | none => rfl
  | some conversation => simp

/-- A message's reactions change if its set is made another one. -/
theorem reactionsChanged_set {start : SocialDatabase} {message : ConversationMessage}
    {f : Finset (Uuid × String) → Finset (Uuid × String)}
    (hmessage : messageAt start conversationId sequence = some message)
    (hf : f message.reactions ≠ message.reactions) :
    ReactionsChanged start (setReactions start conversationId sequence f) := by
  refine ⟨conversationId, sequence, ?_⟩
  unfold reactionsOf
  rw [messageAt_setReactions, hmessage]
  exact hf

/-- The reaction is inserted, or it was there already. -/
theorem insertReaction_ensures (emoji : String) :
    Ensures (insertReaction userId conversationId sequence emoji) fun start inserted mid =>
      (inserted = true ∧ ReactionsChanged start mid) ∨
        (inserted = false ∧ mid = start ∧ ∃ message,
          messageAt start conversationId sequence = some message ∧
            (userId, emoji) ∈ message.reactions) := by
  refine Ensures.query fun start inserted hok => ?_
  split at hok
  · cases hok
  · rename_i message hmessage
    by_cases hthere : (userId, emoji) ∈ message.reactions
    · rw [if_pos hthere] at hok ⊢
      cases hok
      exact .inr ⟨rfl, rfl, message, hmessage, hthere⟩
    · rw [if_neg hthere] at hok ⊢
      cases hok
      refine .inl ⟨rfl, reactionsChanged_set _ _ hmessage fun heq => hthere ?_⟩
      exact heq ▸ Finset.mem_insert_self _ _

theorem deleteReaction_ensures (emoji : String) :
    Ensures (deleteReaction userId conversationId false sequence emoji) fun start _ after =>
      after = setReactions start conversationId sequence fun reactions =>
        reactions.erase (userId, emoji) :=
  Ensures.query fun _ _ _ => rfl

theorem toggle_ensures (emoji : String) :
    Ensures (toggle userId conversationId sequence emoji) fun start _ after =>
      ReactionsChanged start after ∧ True := by
  refine Ensures.bind_of_unchanged (authorizeConversationAccess_unchanged _ _ _ _) fun _ => ?_
  refine Ensures.bind_of_unchanged (ensureMessageInConversation_unchanged _ _) fun _ => ?_
  refine (insertReaction_ensures _ _ _ _).bind fun inserted failure start mid _ hmid hok => ?_
  refine ⟨?_, trivial⟩
  have hparticipants := conversationParticipants_unchanged conversationId
  rcases hmid with ⟨rfl, hchanged⟩ | ⟨rfl, rfl, message, hmessage, hthere⟩
  · have hkeeps := Unchanged.bind (h := deleteReaction userId conversationId true sequence emoji)
      (Unchanged.pure _) fun _ => hparticipants
    rw [hkeeps failure mid]
    exact hchanged
  · have hdeletes : Ensures (do
        deleteReaction userId conversationId false sequence emoji
        conversationParticipants conversationId) fun start _ after =>
          after = setReactions start conversationId sequence fun reactions =>
            reactions.erase (userId, emoji) :=
      (deleteReaction_ensures userId conversationId sequence emoji).bind
        fun _ failure _ mid _ hmid _ => (hparticipants failure mid).trans hmid
    rw [hdeletes failure mid _ hok]
    refine reactionsChanged_set _ _ hmessage fun heq => ?_
    exact Finset.notMem_erase _ _ (heq ▸ hthere)

def toggleQueries : List Query :=
  [.access, .membership, .replyTarget, .insertReaction, .deleteReaction, .participants,
    .participantMembers]

/-- The message is there, in a conversation of the viewer. -/
def Reactable (db : SocialDatabase) (userId conversationId : Uuid) (sequence : Sequence) : Prop :=
  ∃ conversation, ConversationApi.authorizeConversationAccess db conversationId userId =
    .ok conversation ∧ sequence ∈ conversation.messages

theorem lookup_setReactions {conversation : Conversation}
    (hlookup : db.conversations.lookup conversationId = some conversation)
    (f : Finset (Uuid × String) → Finset (Uuid × String)) :
    ∃ after, (setReactions db conversationId sequence f).conversations.lookup conversationId =
      some after := by
  simp [setReactions, modifyConversation, hlookup]

theorem insertReaction_of_misses (hmiss : Misses failure [.insertReaction])
    (emoji : String) {conversation : Conversation}
    (hlookup : db.conversations.lookup conversationId = some conversation)
    (hmem : sequence ∈ conversation.messages) :
    ∃ inserted mid kept,
      (insertReaction userId conversationId sequence emoji).run failure db = (.ok inserted, mid) ∧
        mid.conversations.lookup conversationId = some kept := by
  obtain ⟨message, hmessage⟩ := Option.isSome_iff_exists.mp (AList.lookup_isSome.mpr hmem)
  have hat : messageAt db conversationId sequence = some message := by
    rw [messageAt, hlookup]
    exact hmessage
  unfold insertReaction query
  rw [Handler.query_of_misses hmiss (by simp), hat]
  by_cases hthere : (userId, emoji) ∈ message.reactions
  · exact ⟨false, db, conversation, if_pos hthere, hlookup⟩
  · obtain ⟨kept, hkept⟩ := lookup_setReactions conversationId sequence hlookup
      (insert (userId, emoji))
    exact ⟨true, _, kept, if_neg hthere, hkept⟩

theorem deleteReaction_of_misses (hmiss : Misses failure [.deleteReaction]) (emoji : String)
    (inserted : Bool) {conversation : Conversation}
    (hlookup : db.conversations.lookup conversationId = some conversation) :
    ∃ after kept,
      (deleteReaction userId conversationId inserted sequence emoji).run failure db =
        (.ok (), after) ∧ after.conversations.lookup conversationId = some kept := by
  cases inserted with
  | true => exact ⟨db, conversation, rfl, hlookup⟩
  | false =>
    obtain ⟨kept, hkept⟩ := lookup_setReactions conversationId sequence hlookup
      fun reactions => reactions.erase (userId, emoji)
    exact ⟨_, kept, write_of_misses db hmiss (by simp) _, hkept⟩

/-- Where none of its queries fails, the transaction goes through exactly for such a message. -/
theorem toggle_of_misses (emoji : String) (hmiss : Misses failure toggleQueries) :
    (∃ recipients after, (toggle userId conversationId sequence emoji).run failure db =
        (.ok recipients, after)) ↔
      Reactable db userId conversationId sequence := by
  have haccess := authorizeConversationAccess_of_misses db userId conversationId .access .membership
    (hmiss.mono (by decide))
  have htarget : (ensureMessageInConversation conversationId sequence).run failure db =
      (.ok (), db) ↔ _ :=
    ensureReplyTarget_of_misses db conversationId (some sequence) (hmiss.mono (by decide))
  unfold toggle
  simp only [(authorizeConversationAccess_unchanged _ _ _ _).bind_eq_ok_iff,
    (ensureMessageInConversation_unchanged _ _).bind_eq_ok_iff, haccess]
  constructor
  · intro ⟨_, _, _, hconversation, _, hfound, _⟩
    cases hallowed : ConversationApi.authorizeConversationAccess db conversationId userId with
    | error e => simp [hallowed, Except.map] at hconversation
    | ok conversation =>
      obtain ⟨found, hlookup, hmem⟩ := htarget.mp hfound sequence rfl
      rw [authorizeConversationAccess_ok hallowed] at hlookup
      cases hlookup
      exact ⟨conversation, hallowed, hmem⟩
  · intro ⟨conversation, hallowed, hmem⟩
    have hlookup := authorizeConversationAccess_ok hallowed
    have hfound := htarget.mpr fun other hother => by
      cases hother
      exact ⟨conversation, hlookup, hmem⟩
    obtain ⟨inserted, mid, kept, hinserted, hkept⟩ :=
      insertReaction_of_misses userId conversationId sequence (hmiss.mono (by decide)) emoji hlookup
        hmem
    obtain ⟨after, last, hdeleted, hlast⟩ :=
      deleteReaction_of_misses userId conversationId sequence (hmiss.mono (by decide))
        emoji inserted hkept
    refine ⟨MessageApi.conversationParticipants last, after, (), by rw [hallowed]; rfl, (), hfound,
      ?_⟩
    rw [Handler.bind_of_ok hinserted, Handler.bind_of_ok hdeleted]
    exact conversationParticipants_of_misses after conversationId (hmiss.mono (by decide)) hlast

/-- The emoji and the message are fine, and the failure comes once the reaction is toggled. -/
def FailsOnceToggled (failure : Option (Failure Query)) (env : Environment) (db : SocialDatabase)
    (userId conversationId : Uuid) (sequence : Sequence) (emoji : String) : Prop :=
  (∃ valid, validateReaction env.isAlphanumeric emoji = .ok valid) ∧
    Reactable db userId conversationId sequence ∧
      ∃ f ∈ failure, Handler.Late .commit [.reactionSummaries] f

theorem reactionSummaries_error_iff :
    (∃ e, ((reactionSummaries userId conversationId sequence).run failure db).1 = .error e) ↔
      ∃ f ∈ failure, f.query ∈ [Query.reactionSummaries] := by
  cases failure with
  | none => simp [reactionSummaries, read, Handler.read, Handler.query_run]
  | some f =>
    by_cases hquery : f.query = .reactionSummaries
    all_goals
      simp [reactionSummaries, read, Handler.read, Handler.query_run, hquery, Option.filter]

theorem toggleMessageReaction_law (env : Environment) (emoji : String) :
    ErrorMeansUndone ReactionsChanged db
        ((toggleMessageReaction env userId conversationId sequence emoji).run failure db) ↔
      ¬ FailsOnceToggled failure env db userId conversationId sequence emoji := by
  have hself := not_reactionsChanged_self db
  have htoggle : ∀ valid, ErrorMeansUndone ReactionsChanged db ((inTransaction
      (toggle userId conversationId sequence valid) >>= fun _ =>
        reactionSummaries userId conversationId sequence).run failure db) ↔
      ¬ (Reactable db userId conversationId sequence ∧
        ∃ f ∈ failure, Handler.Late .commit [.reactionSummaries] f) := by
    intro valid
    exact Handler.transaction_law hself (by decide) (by decide) (toggle_ensures _ _ _ _)
      (fun hlate => toggle_of_misses _ _ _ _ (Handler.misses_of_late hlate (by decide)))
      (fun _ => read_unchanged _ _) fun _ _ _ => reactionSummaries_error_iff _ _ _
  unfold toggleMessageReaction
  rw [Handler.bind_law hself (Unchanged.raise _) fun valid =>
    Handler.bind_law hself (checkout_unchanged _) fun _ => htoggle valid]
  refine not_congr ⟨?_, ?_⟩
  · intro ⟨valid, hvalid, _, _, hreactable, hlate⟩
    rw [Handler.raise_eq_ok_iff] at hvalid
    cases hemoji : validateReaction env.isAlphanumeric emoji with
    | error text => simp [hemoji, Except.mapError] at hvalid
    | ok emoji => exact ⟨⟨emoji, hemoji⟩, hreactable, hlate⟩
  · intro ⟨⟨valid, hvalid⟩, hreactable, hlate⟩
    refine ⟨valid, Handler.raise_eq_ok_iff.mpr (by rw [hvalid]; rfl), (), ?_, hreactable, hlate⟩
    exact checkout_of_misses _ (Handler.misses_of_late hlate (by decide))

/-- A reaction that is answered has been toggled. -/
theorem toggleMessageReaction_ensures (env : Environment) (emoji : String) :
    Ensures (toggleMessageReaction env userId conversationId sequence emoji) fun start _ after =>
      ReactionsChanged start after := by
  refine Ensures.bind_of_unchanged (Unchanged.raise _) fun valid => ?_
  refine Ensures.bind_of_unchanged (checkout_unchanged _) fun _ => ?_
  refine (Ensures.transaction (toggle_ensures _ _ _ _)).bind fun _ failure start mid _ hmid _ => ?_
  have hsame : Unchanged (reactionSummaries userId conversationId sequence) := read_unchanged _ _
  rw [hsame failure mid]
  exact hmid.1

/-- An error leaves every reaction as it was, unless it comes once the reaction is toggled. -/
theorem toggleMessageReaction_keeps (env : Environment) (emoji : String) :
    let outcome := (toggleMessageReaction env userId conversationId sequence emoji).run failure db
    ((∃ e, outcome.1 = .error e) → ∀ id sequence,
        reactionsOf outcome.2 id sequence = reactionsOf db id sequence) ↔
      ¬ FailsOnceToggled failure env db userId conversationId sequence emoji := by
  intro outcome
  rw [← toggleMessageReaction_law]
  constructor
  · intro hkept
    refine ⟨fun herror ⟨id, sequence, hne⟩ => hne (hkept herror id sequence), fun hsame => ?_⟩
    cases hresult : outcome.1 with
    | error e => exact ⟨e, rfl⟩
    | ok summaries =>
      exact absurd (toggleMessageReaction_ensures _ _ _ _ _ failure db summaries hresult) hsame
  · intro hlaw herror id sequence
    by_contra hne
    exact hlaw.mp herror ⟨id, sequence, hne⟩

end Reacting

/-! ## An error means that nothing was sent -/

/-- Whatever fails, the handlers answer with an error exactly if they have committed nothing, as
long as the failure does not come once a message is posted or a reaction toggled. -/
theorem nothing_sent_iff (failure : Option (Failure Query)) (db : SocialDatabase)
    (userId conversationId : Uuid) :
    (∀ now content replyToSequence,
      ErrorMeansUndone MessageCommitted db
          ((createMessage now userId conversationId content replyToSequence).run failure db) ↔
        ¬ FailsOncePosted failure db userId conversationId
          ((validateMessageContent content).map (·, replyToSequence, []))) ∧
    (∀ now upload,
      ErrorMeansUndone MessageCommitted db
          ((createMessageWithAttachments now userId conversationId upload).run failure db) ↔
        ¬ FailsOncePosted failure db userId conversationId upload) ∧
    (∀ env sequence emoji,
      let outcome :=
        (toggleMessageReaction env userId conversationId sequence emoji).run failure db
      ((∃ e, outcome.1 = .error e) → ∀ id sequence,
          reactionsOf outcome.2 id sequence = reactionsOf db id sequence) ↔
        ¬ FailsOnceToggled failure env db userId conversationId sequence emoji) :=
  ⟨fun now => createMessage_law now userId conversationId,
    fun now => createMessageWithAttachments_law now userId conversationId,
    fun env sequence emoji => toggleMessageReaction_keeps userId conversationId sequence env emoji⟩

/-- A direct conversation of Ada and Bob with a message from Ada. -/
def greeted (accounts : Accounts.Database) : SocialDatabase :=
  { SocialRequests.emptyDatabase accounts with
    conversations := AList.insert 10
      { kind := .direct 1 2
        creatorId := 1
        updatedAt := 0
        members := ∅
        messages := AList.insert 1 ⟨1, "Ada", "Hello", none, [], ∅⟩ ∅
        readStates := ∅
        hidden := ∅ } ∅
    lastSequence := 1 }

/-- Bob's reply is committed, the preview of Ada's message fails, and he is told that sending
failed. -/
theorem reply_sent_with_error :
    ∃ accounts ∈ BadgeNews.adaAndBob,
      ¬ ErrorMeansUndone MessageCommitted (greeted accounts)
        ((createMessage 0 2 10 "Hi" (some 1)).run
          (some ⟨.replyRows, false⟩) (greeted accounts)) := by
  obtain ⟨accounts, haccounts, herror, hcommitted, hbefore⟩ : ∃ accounts ∈ BadgeNews.adaAndBob,
      let outcome :=
        (createMessage 0 2 10 "Hi" (some 1)).run (some ⟨.replyRows, false⟩) (greeted accounts)
      outcome.1.toOption.isNone = true ∧
        (outcome.2.conversations.lookup 10).any (2 ∈ ·.messages) = true ∧
          ((greeted accounts).conversations.lookup 10).all (2 ∉ ·.messages) = true := by
    decide +kernel
  refine ⟨accounts, haccounts, fun hlaw => ?_⟩
  obtain ⟨conversation, hlookup, hmem⟩ := Option.any_eq_true .. |>.mp hcommitted
  refine hlaw.mp ?_ ⟨10, conversation, 2, hlookup, of_decide_eq_true hmem, fun before hfound => ?_⟩
  · revert herror
    cases (createMessage 0 2 10 "Hi" (some 1)).run (some ⟨.replyRows, false⟩)
      (greeted accounts) |>.1 with
    | error e => exact fun _ => ⟨e, rfl⟩
    | ok response => exact nofun
  · exact of_decide_eq_true (Option.all_eq_true .. |>.mp hbefore before hfound)

end OpenMeet.PostedMessages
