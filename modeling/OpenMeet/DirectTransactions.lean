import OpenMeet.GroupTransactions

/-!
Opening a direct conversation and answering a request for one, as transactions
of single statements. The reads come first and lock nothing; the insert of a
conversation or of a request is an entry of a unique index on the pair of users,
which makes a second one wait; an answer locks the request's row. Friend
requests come in between. The read that follows the insert of a conversation
finds it (findDirectConversation_ensure), so it is no statement of its own.
-/
namespace OpenMeet.DirectTransactions

open KeyedMap Messages Accounts SocialTables ConversationApi ReadCommitted
open GroupTransactions (FriendRequest applyFriendRequest)

/-- The columns of a direct conversation, and the entry of its unique index. -/
def orderedPair (first second : Uuid) : Uuid × Uuid :=
  (if first < second then first else second, if first < second then second else first)

/-! ## Requests -/

/-- The ids are those of a conversation and of a request, if they are inserted. -/
structure OpenRequest where
  now : Timestamp
  userId : Uuid
  targetId : Uuid
  freshId : Uuid
  requestId : Uuid
  deriving DecidableEq

structure AnswerRequest where
  now : Timestamp
  userId : Uuid
  requestId : Uuid
  freshId : Uuid
  accept : Bool
  deriving DecidableEq

inductive DirectLock
  | pair (users : Uuid × Uuid)
  | conversation (id : Uuid)
  | requestPair (users : Uuid × Uuid)
  | request (id : Uuid)
  | friendship (id : Uuid)
  deriving DecidableEq

/-! ## Stages -/

/-- Where a transaction is, with what its statements have read. Whether a conversation was inserted
is known once there is one. -/
inductive DirectStage
  | unhide (userId conversationId : Uuid)
  | openDirect (r : OpenRequest)
  | targetFound (r : OpenRequest)
  | notFound (r : OpenRequest)
  | befriended (r : OpenRequest)
  | ensured (r : OpenRequest) (inserted : Bool)
  | resolved (r : OpenRequest) (inserted : Bool) (ids : Finset Uuid)
  | strangers (r : OpenRequest)
  | trusted (r : OpenRequest)
  | opened (r : OpenRequest) (inserted : Bool)
  | unrequested (r : OpenRequest)
  | requested (r : OpenRequest)
  | respond (q : AnswerRequest)
  | responded (q : AnswerRequest) (request : DirectMessageRequest)
  | agreed (q : AnswerRequest) (request : DirectMessageRequest) (inserted : Bool)
  | friends (r : FriendRequest)
  | friended (r : FriendRequest) (friendship : Option Friendship)

/-- What hides a conversation from a user is deleted by a transaction of its own. -/
def isInitial : DirectStage → Bool
  | .openDirect r => r.targetId ≠ r.userId
  | .unhide _ _ | .respond _ | .friends _ => true
  | _ => false

def isFinished : DirectStage → Bool
  | .unhide _ _ | .resolved _ _ _ | .opened _ _ | .requested _ | .agreed _ _ _
  | .friended _ _ => true
  | .responded q _ => !q.accept
  | _ => false

/-! ## Writes -/

section Writes

variable (db : SocialDatabase)

def newDirect (now : Timestamp) (first second : Uuid) : Conversation where
  kind := .direct (orderedPair first second).1 (orderedPair first second).2
  creatorId := first
  updatedAt := now
  members := ∅
  messages := ∅
  readStates := ∅
  hidden := ∅

/-- INSERT … ON CONFLICT DO NOTHING, which inserts or does not. -/
def ensureDirect (inserted : Bool) (now : Timestamp) (freshId first second : Uuid) :
    SocialDatabase :=
  if inserted then insertConversation db freshId (newDirect now first second) else db

def acceptRequests (ids : Finset Uuid) : SocialDatabase :=
  { db with
    directRequests := db.directRequests.mapValues fun id request =>
      if id ∈ ids then { request with status := .accepted } else request }

def answerRequest (q : AnswerRequest) : SocialDatabase :=
  { db with
    directRequests := db.directRequests.modify q.requestId fun request =>
      { request with status := if q.accept then .accepted else .declined } }

def insertRequest (r : OpenRequest) : SocialDatabase :=
  { db with
    directRequests := db.directRequests.insert r.requestId ⟨r.userId, r.targetId, .pending⟩ }

def directEffect : DirectStage → SocialDatabase → SocialDatabase
  | .unhide userId conversationId => fun db => ConversationApi.unhide db conversationId userId
  | .ensured r inserted | .opened r inserted => fun db =>
    ensureDirect db inserted r.now r.freshId r.userId r.targetId
  | .resolved r inserted ids => fun db =>
    acceptRequests (ensureDirect db inserted r.now r.freshId r.userId r.targetId) ids
  | .requested r => fun db => insertRequest db r
  | .responded q _ => fun db => answerRequest db q
  | .agreed q request inserted => fun db =>
    ensureDirect (answerRequest db q) inserted q.now q.freshId q.userId request.requesterId
  | .friended r _ => fun db => applyFriendRequest db r
  | _ => id

end Writes

/-! ## Statements -/

section Statements

/-- The request is one between the two users, in either direction. -/
def Between (request : DirectMessageRequest) (first second : Uuid) : Prop :=
  request.requesterId = first ∧ request.recipientId = second ∨
    request.requesterId = second ∧ request.recipientId = first

instance (request : DirectMessageRequest) (first second : Uuid) :
    Decidable (Between request first second) :=
  inferInstanceAs (Decidable (_ ∨ _))

/-- Whether the insert takes place, and the index entries it then makes. -/
def ensureStatement (db : SocialDatabase) (freshId first second : Uuid) :
    Option (Bool × Finset DirectLock) :=
  match findDirectConversation db first second with
  | some _ => some (false, ∅)
  | none =>
    if freshId ∈ db.conversations then none
    else some (true, {.pair (orderedPair first second), .conversation freshId})

def pendingRequests (db : SocialDatabase) (first second : Uuid) : Finset Uuid :=
  (Map.matching (fun _ request =>
    decide (request.status = .pending ∧ Between request first second)) db.directRequests).toFinset

def openStatement (stage : DirectStage) (db : SocialDatabase) :
    Option (DirectStage × Finset DirectLock) :=
  match stage with
  | .openDirect r => if r.targetId ∈ db.accounts.users then some (.targetFound r, ∅) else none
  | .targetFound r =>
    match findDirectConversation db r.userId r.targetId with
    | some row => some (.unhide r.userId row.1, ∅)
    | none => some (.notFound r, ∅)
  | .notFound r =>
    if areAcceptedFriends db r.userId r.targetId then some (.befriended r, ∅)
    else some (.strangers r, ∅)
  | .befriended r =>
    (ensureStatement db r.freshId r.userId r.targetId).map fun row =>
      (.ensured r row.1, row.2)
  | .ensured r inserted =>
    let ids := pendingRequests db r.userId r.targetId
    some (.resolved r inserted ids, ids.image .request)
  | .strangers r =>
    match findDirectRequest db r.userId r.targetId with
    | some (_, request) =>
      if request.requesterId = r.userId ∧ request.status = .pending then none
      else if request.status = .accepted then some (.trusted r, ∅)
      else none
    | none => some (.unrequested r, ∅)
  | .trusted r =>
    (ensureStatement db r.freshId r.userId r.targetId).map fun row => (.opened r row.1, row.2)
  | .unrequested r =>
    if (findDirectRequest db r.userId r.targetId).isSome ∨ r.requestId ∈ db.directRequests then none
    else some (.requested r,
      {.requestPair (orderedPair r.userId r.targetId), .request r.requestId})
  | _ => none

def answerStatement (stage : DirectStage) (db : SocialDatabase) :
    Option (DirectStage × Finset DirectLock) :=
  match stage with
  | .respond q =>
    (db.directRequests.lookup q.requestId).bind fun request =>
      if request.recipientId = q.userId ∧ request.status = .pending then
        some (.responded q request, {.request q.requestId})
      else none
  | .responded q request =>
    if q.accept then
      (ensureStatement db q.freshId q.userId request.requesterId).map fun row =>
        (.agreed q request row.1, row.2)
    else none
  | _ => none

def friendStatement (stage : DirectStage) (db : SocialDatabase) :
    Option (DirectStage × Finset DirectLock) :=
  match stage with
  | .friends r =>
    match r with
    | .send _ _ _ _ => some (.friended r none, ∅)
    | .accept _ friendshipId | .remove _ friendshipId _ =>
      (db.friendships.lookup friendshipId).map fun friendship =>
        (.friended r (some friendship), {.friendship friendshipId})
  | _ => none

def directStatement (stage : DirectStage) (db : SocialDatabase) :
    Option (DirectStage × Finset DirectLock) :=
  match stage with
  | .respond _ | .responded _ _ => answerStatement stage db
  | .friends _ => friendStatement stage db
  | _ => openStatement stage db

end Statements

def directPrograms : Programs SocialDatabase DirectStage DirectLock where
  initial := isInitial
  effect := directEffect
  statement := directStatement
  finished := isFinished

end OpenMeet.DirectTransactions
