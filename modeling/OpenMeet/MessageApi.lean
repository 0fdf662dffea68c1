import OpenMeet.Badges
import OpenMeet.ConversationApi

/-!
Messages of a conversation: sending, reacting, reading a page and the read
state. The latest page of a conversation marks everything up to its newest
message as read.
-/
namespace OpenMeet.MessageApi

open KeyedMap Text Messages Accounts SocialTables ConversationApi

structure MessagesPage where
  messages : List (Sequence × ConversationMessage)
  nextBefore : Option Sequence
  firstUnreadSequence : Option Sequence
  deriving DecidableEq

inductive Reply
  | noContent
  | message (sequence : Sequence) (message : ConversationMessage)
  | reactions (reactions : Finset (Uuid × String))
  | messages (page : MessagesPage)

def messageNotFound : ApiError := ⟨404, "Message not found"⟩

def validateMessageContent (content : String) : Except ApiError String :=
  let content := trim content
  if 1 ≤ charCount content ∧ charCount content ≤ 2000 then .ok content
  else .error ⟨400, "Message content must contain 1 to 2000 characters"⟩

def validateMessagePage (before limit : Option Int) :
    Except ApiError (Option Sequence × Nat) :=
  if before.any (· ≤ 0) then .error ⟨400, "before must be a positive server sequence"⟩
  else
    let limit := limit.getD 50
    if limit < 1 ∨ 50 < limit then .error ⟨400, "limit must be between 1 and 50"⟩
    else .ok (before.map Int.toNat, limit.toNat)

def ensureMessageInConversation (conversation : Conversation) (sequence : Sequence) :
    Except ApiError Unit :=
  if sequence ∈ conversation.messages then .ok () else .error messageNotFound

def conversationParticipants (conversation : Conversation) : List Uuid :=
  match conversation.kind with
  | .direct lowId highId => [lowId, highId]
  | .group _ => conversation.members.keys

/-! ## Writes -/

section Writes

variable (db : SocialDatabase)

/-- Store a message, and show its conversation again to everyone but its sender. -/
def insertMessage (now : Timestamp) (conversationId : Uuid) (message : ConversationMessage) :
    SocialDatabase :=
  let sequence := db.lastSequence + 1
  { modifyConversation db conversationId fun conversation =>
      { conversation with
        messages := conversation.messages.insert sequence message
        hidden := conversation.hidden.filter (· = message.senderId)
        updatedAt := now } with
    lastSequence := sequence }

/-- Raise the read mark to a sequence and clear the flag. -/
def markMessagesRead (conversationId userId : Uuid) (latest : Sequence) : SocialDatabase :=
  modifyConversation db conversationId fun conversation =>
    { conversation with
      readStates := conversation.readStates.insert userId
        ⟨max (Badges.lastRead userId conversation) latest, false⟩ }

def setMarkedUnread (conversationId userId : Uuid) : SocialDatabase :=
  modifyConversation db conversationId fun conversation =>
    { conversation with
      readStates := conversation.readStates.insert userId
        ⟨Badges.lastRead userId conversation, true⟩ }

def toggleReaction (conversationId userId : Uuid) (sequence : Sequence) (emoji : String) :
    SocialDatabase :=
  let toggle (reactions : Finset (Uuid × String)) :=
    if (userId, emoji) ∈ reactions then reactions.erase (userId, emoji)
    else insert (userId, emoji) reactions
  modifyConversation db conversationId fun conversation =>
    { conversation with
      messages := conversation.messages.modify sequence fun message =>
        { message with reactions := toggle message.reactions } }

end Writes

/-! ## Pages -/

section Pages

variable (conversation : Conversation) (userId : Uuid)

/-- The messages below a bound, newest first. -/
def messagesBefore (before : Option Sequence) : List (Sequence × ConversationMessage) :=
  let rows := conversation.messages.entries.map fun row => (row.1, row.2)
  orderByDesc (·.1) (rows.filter fun row => before.all (row.1 < ·))

def firstUnread : Option Sequence :=
  let rows := conversation.messages.entries.filter fun row =>
    Badges.isUnread userId conversation row.1 row.2
  (rows.map (·.1)).min?

def messagePage (before : Option Sequence) (limit : Nat) : MessagesPage :=
  let found := messagesBefore conversation before
  let page := found.take limit
  { messages := page
    nextBefore := if limit < found.length then page.getLast?.map (·.1) else none
    firstUnreadSequence := if before.isNone then firstUnread conversation userId else none }

def latestSequence (page : MessagesPage) : Sequence := page.messages.head?.elim 0 (·.1)

theorem mem_messagesBefore {before : Option Sequence} {sequence : Sequence}
    {message : ConversationMessage} :
    (sequence, message) ∈ messagesBefore conversation before ↔
      conversation.messages.lookup sequence = some message ∧ ∀ b ∈ before, sequence < b := by
  simp only [messagesBefore, (orderByDesc_perm _ _).mem_iff, List.mem_filter, List.mem_map,
    Option.all_eq_true, decide_eq_true_eq, ← Option.mem_def, AList.mem_lookup_iff]
  refine and_congr_left fun _ => ?_
  constructor
  · rintro ⟨row, hrow, heq⟩
    cases heq
    exact hrow
  · exact fun hrow => ⟨_, hrow, rfl⟩

theorem messagesBefore_pairwise (before : Option Sequence) :
    (messagesBefore conversation before).Pairwise fun a b => b.1 ≤ a.1 :=
  orderByDesc_pairwise _ _

/-- The latest page starts with the conversation's newest message. -/
theorem le_latestSequence {limit : Nat} (hlimit : 1 ≤ limit) {sequence : Sequence}
    {message : ConversationMessage} (h : conversation.messages.lookup sequence = some message) :
    sequence ≤ latestSequence (messagePage conversation userId none limit) := by
  have hmem : (sequence, message) ∈ messagesBefore conversation none := by
    simp [mem_messagesBefore, h]
  have hsorted := messagesBefore_pairwise conversation none
  unfold latestSequence messagePage
  cases hfound : messagesBefore conversation none with
  | nil => simp [hfound] at hmem
  | cons newest rest =>
    obtain ⟨n, rfl⟩ := Nat.exists_eq_add_of_le' hlimit
    simp only [hfound, List.pairwise_cons, List.mem_cons] at hsorted hmem
    simp only [List.take_succ_cons, List.head?_cons, Option.elim_some]
    rcases hmem with heq | hrest
    · exact (congrArg Prod.fst heq).le
    · exact hsorted.1 _ hrest

end Pages

/-! ## Requests -/

section Requests

open Outcome

variable (env : Environment) (db : SocialDatabase) (now : Timestamp) (userId : Uuid)

/-- The transaction that posts a message. -/
def postMessage (conversationId : Uuid) (content : String) (replyToSequence : Option Sequence)
    (attachments : List MessageAttachment) : Outcome Reply :=
  match authorizeConversationAccess db conversationId userId with
  | .error e => refuse db e
  | .ok conversation =>
    match replyToSequence.mapM (ensureMessageInConversation conversation) with
    | .error e => refuse db e
    | .ok _ =>
      match db.accounts.users.lookup userId with
      | none => refuse db requestFailed
      | some sender =>
        let message : ConversationMessage :=
          { senderId := userId, senderName := sender.name, content := content,
            replyToSequence := replyToSequence, attachments := attachments, reactions := ∅ }
        { db := insertMessage db now conversationId message
          published := [⟨conversationParticipants conversation, .conversations⟩]
          result := .ok (.message (db.lastSequence + 1) message) }

def createMessage (conversationId : Uuid) (content : String) (replyToSequence : Option Sequence) :
    Outcome Reply :=
  match validateMessageContent content, db.accounts.requirePermission userId .messagesSend with
  | .error e, _ | .ok _, .error e => refuse db e
  | .ok content, .ok () => postMessage db now userId conversationId content replyToSequence []

/-- The uploaded fields come parsed and their files stored. -/
def createMessageWithAttachments (conversationId : Uuid)
    (upload : Except ApiError (String × Option Sequence × List MessageAttachment)) :
    Outcome Reply :=
  match db.accounts.requirePermission userId .messagesSend,
      authorizeConversationAccess db conversationId userId, upload with
  | .error e, _, _ | .ok _, .error e, _ | .ok _, .ok _, .error e => refuse db e
  | .ok (), .ok _, .ok (content, replyToSequence, attachments) =>
    postMessage db now userId conversationId content replyToSequence attachments

def toggleMessageReaction (conversationId : Uuid) (sequence : Sequence) (emoji : String) :
    Outcome Reply :=
  match validateReaction env.isAlphanumeric emoji with
  | .error text => refuse db ⟨400, text⟩
  | .ok emoji =>
    match authorizeConversationAccess db conversationId userId with
    | .error e => refuse db e
    | .ok conversation =>
      match ensureMessageInConversation conversation sequence with
      | .error e => refuse db e
      | .ok () =>
        let after := toggleReaction db conversationId userId sequence emoji
        let reactions := ((after.conversations.lookup conversationId).bind fun conversation =>
          conversation.messages.lookup sequence).elim ∅ (·.reactions)
        { db := after
          published := [⟨conversationParticipants conversation, .conversations⟩]
          result := .ok (.reactions reactions) }

def listMessages (conversationId : Uuid) (before limit : Option Int) : Outcome Reply :=
  match validateMessagePage before limit with
  | .error e => refuse db e
  | .ok (before, limit) =>
    match authorizeConversationAccess db conversationId userId with
    | .error e => refuse db e
    | .ok conversation =>
      let page := messagePage conversation userId before limit
      { db := if before.isNone then markMessagesRead db conversationId userId (latestSequence page)
          else db
        published := []
        result := .ok (.messages page) }

def markConversationRead (conversationId : Uuid) : Outcome Reply :=
  match authorizeConversationAccess db conversationId userId with
  | .error e => refuse db e
  | .ok conversation =>
    { db := markMessagesRead db conversationId userId (conversation.messages.keys.max?.getD 0)
      published := [⟨[userId], .conversations⟩]
      result := .ok .noContent }

/-- Flags a conversation as unread without changing message read progress. -/
def markConversationUnread (conversationId : Uuid) : Outcome Reply :=
  match authorizeConversationAccess db conversationId userId with
  | .error e => refuse db e
  | .ok _ =>
    { db := setMarkedUnread db conversationId userId
      published := [⟨[userId], .conversations⟩]
      result := .ok .noContent }

end Requests

end OpenMeet.MessageApi
