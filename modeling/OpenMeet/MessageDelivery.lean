import OpenMeet.MessageApi
import OpenMeet.TransitionSystem

/-!
Sending and reading messages, statement by statement. The transaction that sends
a message draws its sequence when it inserts the row and makes the row visible
when it commits, so messages may become visible in another order than that of
their sequences. A request for messages reads its page and marks it as read in
two statements.
-/
namespace OpenMeet.MessageDelivery

open KeyedMap Messages Accounts SocialTables Badges ConversationApi MessageApi TransitionSystem

/-- A transaction that has inserted its message. -/
structure Sending where
  conversationId : Uuid
  sequence : Sequence
  message : ConversationMessage

inductive ListStage
  | authorized
  | bounded (firstUnread : Option Sequence)
  | loaded (page : MessagesPage)
  | marked (page : MessagesPage)

/-- A request for messages and how far it is. -/
structure Listing where
  userId : Uuid
  conversationId : Uuid
  before : Option Sequence
  limit : Nat
  stage : ListStage

structure Delivery where
  db : SocialDatabase
  sending : Map Nat Sending
  listing : Map Nat Listing

inductive DeliveryAction
  | insertMessage (transaction : Nat) (userId conversationId : Uuid) (content : String)
      (replyToSequence : Option Sequence) (attachments : List MessageAttachment)
  | commitMessage (transaction : Nat) (now : Timestamp)
  | abortMessage (transaction : Nat)
  | authorizeList (request : Nat) (userId conversationId : Uuid) (before limit : Option Int)
  | findFirstUnread (request : Nat)
  | loadPage (request : Nat)
  | markPage (request : Nat)
  | answerList (request : Nat)
  | dropList (request : Nat)
  deriving DecidableEq

/-! ## Sending -/

section Sending

variable (s : Delivery)

/-- The checks of the transaction and the insert; the counter moves on even if it aborts. -/
def insertRow (transaction : Nat) (userId conversationId : Uuid) (content : String)
    (replyToSequence : Option Sequence) (attachments : List MessageAttachment) :
    Option Delivery :=
  if transaction ∈ s.sending then none
  else
    match authorizeConversationAccess s.db conversationId userId with
    | .error _ => none
    | .ok conversation =>
      match replyToSequence.mapM (ensureMessageInConversation conversation) with
      | .error _ => none
      | .ok _ =>
        (s.db.accounts.users.lookup userId).map fun sender =>
          let sequence := s.db.lastSequence + 1
          let message : ConversationMessage :=
            { senderId := userId, senderName := sender.name, content := content,
              replyToSequence := replyToSequence, attachments := attachments, reactions := ∅ }
          { s with
            db := { s.db with lastSequence := sequence }
            sending := s.sending.insert transaction ⟨conversationId, sequence, message⟩ }

/-- The row becomes visible, and its conversation shows again to everyone but its sender. -/
def showMessage (db : SocialDatabase) (now : Timestamp) (sending : Sending) : SocialDatabase :=
  modifyConversation db sending.conversationId fun conversation =>
    { conversation with
      messages := conversation.messages.insert sending.sequence sending.message
      hidden := conversation.hidden.filter (· = sending.message.senderId)
      updatedAt := now }

def commitRow (transaction : Nat) (now : Timestamp) : Option Delivery :=
  (s.sending.lookup transaction).map fun sending =>
    { s with
      db := showMessage s.db now sending
      sending := s.sending.erase transaction }

end Sending

/-! ## Reading -/

section Reading

variable (s : Delivery)

def authorizeRequest (request : Nat) (userId conversationId : Uuid) (before limit : Option Int) :
    Option Delivery :=
  if request ∈ s.listing then none
  else
    match validateMessagePage before limit,
      authorizeConversationAccess s.db conversationId userId with
    | .ok (before, limit), .ok _ =>
      some { s with
        listing := s.listing.insert request ⟨userId, conversationId, before, limit, .authorized⟩ }
    | _, _ => none

/-- The next statement of a request, given the conversation as it is now. -/
def advance (request : Nat)
    (next : Listing → Conversation → Option (SocialDatabase × ListStage)) : Option Delivery :=
  match s.listing.lookup request with
  | none => none
  | some listing =>
    match s.db.conversations.lookup listing.conversationId with
    | none => none
    | some conversation =>
      (next listing conversation).map fun result =>
        { s with
          db := result.1
          listing := s.listing.insert request { listing with stage := result.2 } }

def boundRequest (request : Nat) : Option Delivery :=
  advance s request fun listing conversation =>
    match listing.stage with
    | .authorized => some (s.db, .bounded
        (if listing.before.isNone then firstUnread conversation listing.userId else none))
    | _ => none

def loadRequest (request : Nat) : Option Delivery :=
  advance s request fun listing conversation =>
    match listing.stage with
    | .bounded firstUnread => some (s.db, .loaded
        { messagePage conversation listing.userId listing.before listing.limit with
          firstUnreadSequence := firstUnread })
    | _ => none

/-- Only the latest page moves the read mark. -/
def markRequest (request : Nat) : Option Delivery :=
  advance s request fun listing _ =>
    match listing.stage with
    | .loaded page => some
        (if listing.before.isNone then
          markMessagesRead s.db listing.conversationId listing.userId (latestSequence page)
        else s.db, .marked page)
    | _ => none

def answerRequest (request : Nat) : Option Delivery :=
  match s.listing.lookup request with
  | some ⟨_, _, _, _, .marked _⟩ => some { s with listing := s.listing.erase request }
  | _ => none

end Reading

/-! ## The system -/

def step (s : Delivery) : DeliveryAction → Option Delivery
  | .insertMessage transaction userId conversationId content replyToSequence attachments =>
    insertRow s transaction userId conversationId content replyToSequence attachments
  | .commitMessage transaction now => commitRow s transaction now
  | .abortMessage transaction =>
    if transaction ∈ s.sending then some { s with sending := s.sending.erase transaction } else none
  | .authorizeList request userId conversationId before limit =>
    authorizeRequest s request userId conversationId before limit
  | .findFirstUnread request => boundRequest s request
  | .loadPage request => loadRequest s request
  | .markPage request => markRequest s request
  | .answerList request => answerRequest s request
  | .dropList request =>
    if request ∈ s.listing then some { s with listing := s.listing.erase request } else none

/-- Nobody is sending or reading at first. -/
def system (db : SocialDatabase) : System Delivery DeliveryAction := ⟨⟨db, ∅, ∅⟩, step⟩

/-- A read mark is set to the newest message of a page. -/
structure Read where
  userId : Uuid
  conversationId : Uuid
  newest : Sequence
  deriving DecidableEq

def reads (s : Delivery) : DeliveryAction → List Read
  | .markPage request =>
    match s.listing.lookup request with
    | some ⟨userId, conversationId, none, _, .loaded page⟩ =>
      [⟨userId, conversationId, latestSequence page⟩]
    | _ => []
  | _ => []

/-- A page is sent to its user. -/
structure Answer where
  userId : Uuid
  conversationId : Uuid
  page : MessagesPage
  deriving DecidableEq

def answers (s : Delivery) : DeliveryAction → List Answer
  | .answerList request =>
    match s.listing.lookup request with
    | some ⟨userId, conversationId, _, _, .marked page⟩ => [⟨userId, conversationId, page⟩]
    | _ => []
  | _ => []

/-! ## Alone -/

/-- The statements of a request for messages, from start to end. -/
def listStatements (request : Nat) (userId conversationId : Uuid) (before limit : Option Int) :
    List DeliveryAction :=
  [.authorizeList request userId conversationId before limit, .findFirstUnread request,
    .loadPage request, .markPage request, .answerList request]

section Alone

variable {db : SocialDatabase} {userId conversationId : Uuid}

/-- A message that is sent while nothing else happens is posted. -/
theorem send_alone {transaction : Nat} {content : String} {replyToSequence : Option Sequence}
    {attachments : List MessageAttachment} {now : Timestamp} {reply : MessageApi.Reply}
    (h : (postMessage db now userId conversationId content replyToSequence attachments).result =
      .ok reply) :
    ((system db).run [.insertMessage transaction userId conversationId content replyToSequence
        attachments, .commitMessage transaction now]).map (·.db) =
      some (postMessage db now userId conversationId content replyToSequence attachments).db := by
  unfold postMessage at h ⊢
  cases haccess : authorizeConversationAccess db conversationId userId with
  | error e => simp [haccess, Outcome.refuse] at h
  | ok conversation =>
    cases hreply : replyToSequence.mapM (ensureMessageInConversation conversation) with
    | error e => simp [haccess, hreply, Outcome.refuse] at h
    | ok replied =>
      cases hsender : db.accounts.users.lookup userId with
      | none => simp [haccess, hreply, hsender, Outcome.refuse] at h
      | some sender =>
        simp only [System.run, System.runFrom, system, step, insertRow, haccess, hreply, hsender,
          if_neg (AList.notMem_empty transaction), Option.map_some, Option.bind_some, commitRow,
          AList.lookup_insert]
        rfl

/-- A request for messages that runs alone is answered as if it were one step. -/
theorem list_alone {request : Nat} {before limit : Option Int} {page : MessagesPage}
    (h : (listMessages db userId conversationId before limit).result = .ok (.messages page)) :
    ((system db).run (listStatements request userId conversationId before limit)).map (·.db) =
        some (listMessages db userId conversationId before limit).db ∧
      (system db).outputs answers (system db).init
        (listStatements request userId conversationId before limit) =
          [⟨userId, conversationId, page⟩] := by
  unfold listMessages at h ⊢
  cases hpage : validateMessagePage before limit with
  | error e => simp [hpage, Outcome.refuse] at h
  | ok row =>
    cases haccess : authorizeConversationAccess db conversationId userId with
    | error e => simp [hpage, haccess, Outcome.refuse] at h
    | ok conversation =>
      have hfound := authorizeConversationAccess_ok haccess
      simp only [hpage, haccess, Except.ok.injEq, MessageApi.Reply.messages.injEq] at h
      subst h
      constructor
      · simp only [listStatements, System.run, System.runFrom, system, step, authorizeRequest,
          hpage, haccess, if_neg (AList.notMem_empty request), Option.bind_some, boundRequest,
          loadRequest, markRequest, answerRequest, advance, AList.lookup_insert, hfound,
          Option.map_some]
        rfl
      · simp only [listStatements, System.outputs, system, step, authorizeRequest, hpage,
          haccess, if_neg (AList.notMem_empty request), Option.elim_some, boundRequest,
          loadRequest, markRequest, answerRequest, advance, AList.lookup_insert, hfound,
          Option.map_some, answers]
        rfl

end Alone

end OpenMeet.MessageDelivery
