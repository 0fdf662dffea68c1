import OpenMeet.CallApi
import OpenMeet.ReadCommitted

/-!
The requests that decide who may enter the room of a call, as transactions of
single statements: starting and answering calls, joining a group, adding a
member, removing one, leaving, and deleting the group. Starting a call and every
change of a group lock the conversation's row first; an answer locks the rows of
the call and of its member; a fresh room is an entry of a unique index, which
makes a second one wait.
-/
namespace OpenMeet.CallTransactions

open KeyedMap Messages Accounts SocialTables Badges ConversationApi CallApi ReadCommitted

/-! ## Authorization -/

inductive SfuRoomAuthorization
  | legacy
  | authorized
  | denied
  deriving DecidableEq, Repr

def classifySfuRoomAuthorization (isRevoked isCallSessionRoom : Bool) (userId : Option Uuid)
    (hasAcceptedMembership : Bool) : SfuRoomAuthorization :=
  if isRevoked then .denied
  else if !isCallSessionRoom then .legacy
  else if userId.isSome && hasAcceptedMembership then .authorized
  else .denied

/-- The user accepted a call that is on in the room and is still in its conversation. -/
def isAuthorized (db : SocialDatabase) (now : Timestamp) (room : RoomId) (userId : Uuid) : Bool :=
  db.calls.entries.any fun row =>
    row.2.sfuRoomId = room && row.2.status = .active && now < row.2.expiresAt &&
      row.2.members.lookup userId = some .accepted &&
      (db.conversations.lookup row.2.conversationId).any fun conversation =>
        match conversation.kind with
        | .direct lowId highId => lowId = userId || highId = userId
        | .group _ => userId ∈ conversation.members

def authorizeSfuRoom (db : SocialDatabase) (now : Timestamp) (room : RoomId)
    (userId : Option Uuid) : SfuRoomAuthorization :=
  classifySfuRoomAuthorization (room ∈ db.revokedRooms)
    (db.calls.entries.any fun row => row.2.sfuRoomId = room) userId
    (userId.any (isAuthorized db now room))

/-! ## Requests -/

structure StartRequest where
  now : Timestamp
  userId : Uuid
  conversationId : Uuid
  callId : Uuid
  room : RoomId
  deriving DecidableEq

structure RespondRequest where
  now : Timestamp
  userId : Uuid
  callId : Uuid
  accept : Bool
  deriving DecidableEq

/-- A user joins on their own, with a password or none, or an admin adds them. -/
structure AdmitRequest where
  now : Timestamp
  groupId : Uuid
  memberId : Uuid
  password : Option String
  addedBy : Option Uuid
  deriving DecidableEq

/-- A member leaves, or an admin removes them. -/
structure DepartRequest where
  now : Timestamp
  groupId : Uuid
  memberId : Uuid
  removedBy : Option Uuid
  deriving DecidableEq

structure DeleteRequest where
  groupId : Uuid
  userId : Uuid
  deriving DecidableEq

inductive CallLock
  | conversation (id : Uuid)
  | call (id : Uuid)
  | callMember (callId userId : Uuid)
  | room (room : RoomId)
  deriving DecidableEq

/-! ## Stages -/

/-- Where a transaction is, with what its statements have read and which rows they have written. -/
inductive CallStage
  | start (r : StartRequest)
  | startLocked (r : StartRequest) (kind : ConversationKind)
  | startSnapshot (r : StartRequest) (participants : List Uuid)
  | startExpired (r : StartRequest) (participants : List Uuid) (expired : Finset Uuid)
  | startCleared (r : StartRequest) (participants : List Uuid) (expired : Finset Uuid)
  | startChecked (r : StartRequest) (participants : List Uuid) (expired : Finset Uuid)
  | started (r : StartRequest) (participants : List Uuid) (expired : Finset Uuid)
  | respond (r : RespondRequest)
  | respondExpired (r : RespondRequest) (expired : Finset Uuid)
  | respondLocked (r : RespondRequest) (expired : Finset Uuid)
  | respondPending (r : RespondRequest) (expired : Finset Uuid)
  | responded (r : RespondRequest) (expired : Finset Uuid)
  | admission (r : AdmitRequest)
  | admitLocked (r : AdmitRequest) (group : Group)
  | admitChecked (r : AdmitRequest) (isMember : Bool)
  | admitted (r : AdmitRequest) (isMember : Bool)
  | depart (r : DepartRequest)
  | departLocked (r : DepartRequest) (isCreator : Bool)
  | departHanded (r : DepartRequest) (successor : Option Uuid)
  | departErased (r : DepartRequest) (successor : Option Uuid)
  | departed (r : DepartRequest) (successor : Option Uuid) (declined : Finset Uuid)
  | delete (r : DeleteRequest)
  | deleteLocked (r : DeleteRequest)
  | deleteRead (r : DeleteRequest) (rooms : Finset RoomId)
  | deleteRevoked (r : DeleteRequest) (rooms : Finset RoomId)
  | deleted (r : DeleteRequest) (rooms : Finset RoomId)

def isInitial : CallStage → Bool
  | .start _ | .respond _ | .admission _ | .depart _ | .delete _ => true
  | _ => false

def isFinished : CallStage → Bool
  | .started _ _ _ | .responded _ _ | .admitted _ _ | .departed _ _ _ | .deleted _ _ => true
  | _ => false

/-! ## Writes -/

section Writes

variable (db : SocialDatabase)

def expireCalls (ids : Finset Uuid) : SocialDatabase :=
  { db with
    calls := db.calls.mapValues fun id call =>
      if id ∈ ids then { call with status := .expired } else call }

def declineCalls (ids : Finset Uuid) (userId : Uuid) : SocialDatabase :=
  { db with
    calls := db.calls.mapValues fun id call =>
      if id ∈ ids then { call with members := call.members.modify userId fun _ => .declined }
      else call }

def eraseMember (now : Timestamp) (groupId memberId : Uuid) : SocialDatabase :=
  modifyConversation db groupId fun conversation =>
    { conversation with members := conversation.members.erase memberId, updatedAt := now }

def handOver (groupId : Uuid) (successor : Option Uuid) : SocialDatabase :=
  successor.elim db fun successor =>
    modifyConversation db groupId fun conversation =>
      { conversation with
        creatorId := successor
        members := conversation.members.modify successor fun member =>
          { member with role := .creator } }

def revokeRooms (rooms : Finset RoomId) : SocialDatabase :=
  { db with revokedRooms := db.revokedRooms ∪ rooms }

/-- The conversation goes, and its invitations and calls with it. -/
def cascadeConversation (id : Uuid) : SocialDatabase :=
  { db with
    conversations := db.conversations.erase id
    invitations := db.invitations.retain fun _ invitation => invitation.conversationId ≠ id
    calls := db.calls.retain fun _ call => call.conversationId ≠ id }

def callEffect : CallStage → SocialDatabase → SocialDatabase
  | .startExpired _ _ expired | .startCleared _ _ expired | .startChecked _ _ expired
  | .respondExpired _ expired | .respondLocked _ expired | .respondPending _ expired =>
    fun db => expireCalls db expired
  | .started r participants expired => fun db =>
    let cleared := expireCalls db expired
    { cleared with
      calls := cleared.calls.insert r.callId
        (newCall r.now r.userId r.conversationId r.room participants) }
  | .responded r expired => fun db =>
    modifyCall (expireCalls db expired) r.callId fun call =>
      { call with
        members := call.members.modify r.userId fun _ =>
          if r.accept then .accepted else .declined }
  | .admitted r isMember => fun db =>
    if isMember then db else addMember db r.now r.groupId r.memberId
  | .departHanded r successor => fun db => handOver db r.groupId successor
  | .departErased r successor => fun db =>
    eraseMember (handOver db r.groupId successor) r.now r.groupId r.memberId
  | .departed r successor declined => fun db =>
    declineCalls (eraseMember (handOver db r.groupId successor) r.now r.groupId r.memberId) declined
      r.memberId
  | .deleteRevoked _ rooms => fun db => revokeRooms db rooms
  | .deleted r rooms => fun db => cascadeConversation (revokeRooms db rooms) r.groupId
  | _ => id

end Writes

/-! ## Statements -/

section Statements

variable (env : Environment)

/-- The calls that pass a test. -/
def callsWhere (db : SocialDatabase) (test : CallSession → Bool) : Finset Uuid :=
  (db.calls.matching fun _ => test).toFinset

def mayAdmit (db : SocialDatabase) (r : AdmitRequest) (conversation : Conversation)
    (group : Group) : Bool :=
  match r.addedBy with
  | none =>
    (authorizeGroupAdmission env db conversation group r.memberId r.password).toOption.isSome
  | some _ => (authorizeAdminAddition db conversation group r.memberId).toOption.isSome

/-- The locked group, if whoever changes it may: an admin, or anybody where none is named. -/
def lockGroup (db : SocialDatabase) (groupId : Uuid) (admin : Option Uuid) :
    Option (Conversation × Group) :=
  match admin with
  | none => (loadGroup db groupId).toOption
  | some userId => (requireGroupAdmin db groupId userId).toOption.map fun row => (row.1, row.2.1)

def startStatement (stage : CallStage) (db : SocialDatabase) :
    Option (CallStage × Finset CallLock) :=
  match stage with
  | .start r => (db.conversations.lookup r.conversationId).map fun conversation =>
    (.startLocked r conversation.kind, {.conversation r.conversationId})
  | .startLocked r kind => (db.conversations.lookup r.conversationId).bind fun conversation =>
    (snapshotParticipants { conversation with kind := kind } r.userId).toOption.map
      fun participants => (.startSnapshot r participants, ∅)
  | .startSnapshot r participants =>
    let expired := callsWhere db fun call => call.status = .active && call.expiresAt ≤ r.now
    some (.startExpired r participants expired, expired.image .call)
  | .startExpired r participants expired =>
    let ended := callsWhere db fun call => call.conversationId = r.conversationId &&
      call.status = .active && roomEnded db call.sfuRoomId
    some (.startCleared r participants (expired ∪ ended), ended.image .call)
  | .startCleared r participants expired =>
    if callsWhere db (fun call => call.conversationId = r.conversationId && call.status = .active) =
        ∅ then
      some (.startChecked r participants expired, ∅)
    else none
  | .startChecked r participants expired =>
    if r.callId ∈ db.calls ∨ callsWhere db (fun call => call.sfuRoomId = r.room) ≠ ∅ then none
    else some (.started r participants expired, {.call r.callId, .room r.room})
  | _ => none

def respondStatement (stage : CallStage) (db : SocialDatabase) :
    Option (CallStage × Finset CallLock) :=
  match stage with
  | .respond r =>
    let expired := callsWhere db fun call => call.status = .active && call.expiresAt ≤ r.now
    some (.respondExpired r expired, expired.image .call)
  | .respondExpired r expired =>
    if (db.calls.lookup r.callId).any fun call =>
        call.status = .active && r.now < call.expiresAt then
      some (.respondLocked r expired, {.call r.callId})
    else none
  | .respondLocked r expired =>
    if (db.calls.lookup r.callId).any fun call => call.members.lookup r.userId = some .pending then
      some (.respondPending r expired, {.callMember r.callId r.userId})
    else none
  | .respondPending r expired => some (.responded r expired, ∅)
  | _ => none

def admitStatement (stage : CallStage) (db : SocialDatabase) :
    Option (CallStage × Finset CallLock) :=
  match stage with
  | .admission r => (lockGroup db r.groupId r.addedBy).map fun row =>
    (.admitLocked r row.2, {.conversation r.groupId})
  | .admitLocked r group => (db.conversations.lookup r.groupId).bind fun conversation =>
    if r.memberId ∉ db.accounts.users then none
    else if r.memberId ∈ conversation.members then some (.admitChecked r true, ∅)
    else if mayAdmit env db r conversation group then some (.admitChecked r false, ∅)
    else none
  | .admitChecked r isMember => some (.admitted r isMember, ∅)
  | _ => none

def departStatement (stage : CallStage) (db : SocialDatabase) :
    Option (CallStage × Finset CallLock) :=
  match stage with
  | .depart r => (lockGroup db r.groupId r.removedBy).bind fun row =>
    let isCreator : Bool := row.1.creatorId = r.memberId
    -- nobody removes the creator
    if isCreator && r.removedBy.isSome then none
    else some (.departLocked r isCreator, {.conversation r.groupId})
  | .departLocked r isCreator =>
    if isCreator then (db.conversations.lookup r.groupId).bind fun conversation =>
      (groupSuccessor conversation r.memberId).map fun successor =>
        (.departHanded r (some successor), ∅)
    else some (.departHanded r none, ∅)
  | .departHanded r successor => (db.conversations.lookup r.groupId).bind fun conversation =>
    if r.memberId ∈ conversation.members then some (.departErased r successor, ∅) else none
  | .departErased r successor =>
    let declined := callsWhere db fun call => call.conversationId = r.groupId &&
      (call.members.lookup r.memberId).any (· ≠ .declined)
    some (.departed r successor declined, declined.image (CallLock.callMember · r.memberId))
  | _ => none

def deleteStatement (stage : CallStage) (db : SocialDatabase) :
    Option (CallStage × Finset CallLock) :=
  match stage with
  | .delete r => (lockGroup db r.groupId (some r.userId)).map fun _ =>
    (.deleteLocked r, {.conversation r.groupId})
  | .deleteLocked r =>
    let rooms := ((db.calls.entries.filter fun row => row.2.conversationId = r.groupId).map
      (·.2.sfuRoomId)).toFinset
    some (.deleteRead r rooms, ∅)
  | .deleteRead r rooms => some (.deleteRevoked r rooms, ∅)
  | .deleteRevoked r rooms =>
    some (.deleted r rooms,
      (callsWhere db fun call => call.conversationId = r.groupId).image .call)
  | _ => none

def callStatement (stage : CallStage) (db : SocialDatabase) :
    Option (CallStage × Finset CallLock) :=
  match stage with
  | .start _ | .startLocked _ _ | .startSnapshot _ _ | .startExpired _ _ _ | .startCleared _ _ _
  | .startChecked _ _ _ | .started _ _ _ => startStatement stage db
  | .respond _ | .respondExpired _ _ | .respondLocked _ _ | .respondPending _ _
  | .responded _ _ => respondStatement stage db
  | .admission _ | .admitLocked _ _ | .admitChecked _ _ | .admitted _ _ =>
    admitStatement env stage db
  | .depart _ | .departLocked _ _ | .departHanded _ _ | .departErased _ _ | .departed _ _ _ =>
    departStatement stage db
  | .delete _ | .deleteLocked _ | .deleteRead _ _ | .deleteRevoked _ _ | .deleted _ _ =>
    deleteStatement stage db

def callPrograms : Programs SocialDatabase CallStage CallLock where
  initial := isInitial
  effect := callEffect
  statement := callStatement env
  finished := isFinished

end Statements

end OpenMeet.CallTransactions
