import OpenMeet.CallTransactions
import OpenMeet.FriendApi

/-!
The requests that decide who is in a group and who owns it, as transactions of
single statements: creating a group, the four ways into it, removing a member,
leaving, changing roles, changing and deleting the group, and inviting. All of
them lock the group's row first, and reads of what only the holder of that lock
can change are taken together. Friend requests come in between.
-/
namespace OpenMeet.GroupTransactions

open KeyedMap Messages Accounts SocialTables ConversationApi FriendApi ReadCommitted
open CallTransactions (DepartRequest DeleteRequest handOver)

/-! ## Requests -/

structure CreationRequest where
  now : Timestamp
  userId : Uuid
  groupId : Uuid
  salt : String
  request : CreateGroupRequest
  deriving DecidableEq

structure CodeRequest where
  now : Timestamp
  userId : Uuid
  code : String
  password : Option String
  deriving DecidableEq

structure AcceptanceRequest where
  now : Timestamp
  userId : Uuid
  invitationId : Uuid
  password : Option String
  deriving DecidableEq

/-- A user joins, an admin adds them, or they accept an invitation. -/
inductive AdmissionPath
  | joined (password : Option String)
  | added (adminId : Uuid)
  | invited (invitationId : Uuid) (password : Option String)
  deriving DecidableEq

structure AdmissionRequest where
  now : Timestamp
  groupId : Uuid
  memberId : Uuid
  path : AdmissionPath
  deriving DecidableEq

structure RoleRequest where
  now : Timestamp
  userId : Uuid
  groupId : Uuid
  memberId : Uuid
  role : GroupMemberRole
  deriving DecidableEq

/-- The password is hashed before the transaction. -/
structure UpdateRequest where
  now : Timestamp
  userId : Uuid
  groupId : Uuid
  title : Option String
  accessPolicy : Option GroupAccessPolicy
  passwordHash : Option String
  deriving DecidableEq

structure InvitationRequest where
  userId : Uuid
  groupId : Uuid
  inviteeId : Uuid
  invitationId : Uuid
  notificationId : Uuid
  deriving DecidableEq

inductive FriendRequest
  | send (userId friendshipId notificationId : Uuid) (request : CreateFriendRequest)
  | accept (userId friendshipId : Uuid)
  | remove (userId friendshipId notificationId : Uuid)
  deriving DecidableEq

inductive GroupLock
  | conversation (id : Uuid)
  | invitation (id : Uuid)
  | friendship (id : Uuid)
  deriving DecidableEq

/-! ## Stages -/

/-- Where a transaction is, with what its statements have read and which rows they have written. -/
inductive GroupStage
  | create (r : CreationRequest)
  | createChecked (r : CreationRequest) (group : Group)
  | created (r : CreationRequest) (group : Group)
  | joinByCode (r : CodeRequest)
  | acceptInvitation (r : AcceptanceRequest)
  | admission (r : AdmissionRequest)
  | admissionLocked (r : AdmissionRequest) (group : Group)
  | admissionNew (r : AdmissionRequest) (group : Group)
  | admissionMembers (r : AdmissionRequest) (remaining : List Uuid)
  | admissionGranted (r : AdmissionRequest)
  | admitted (r : AdmissionRequest) (isMember : Bool)
  | depart (r : DepartRequest)
  | departLocked (r : DepartRequest) (creatorId : Uuid)
  | departHanded (r : DepartRequest) (successor : Option Uuid)
  | departed (r : DepartRequest) (successor : Option Uuid)
  | changeRole (r : RoleRequest)
  | roleLocked (r : RoleRequest)
  | roleChanged (r : RoleRequest)
  | update (r : UpdateRequest)
  | updateLocked (r : UpdateRequest) (group : Group)
  | updated (r : UpdateRequest) (before after : Group)
  | invite (r : InvitationRequest)
  | inviteLocked (r : InvitationRequest) (group : Group)
  | invited (r : InvitationRequest)
  | delete (r : DeleteRequest)
  | deleteLocked (r : DeleteRequest)
  | deleted (r : DeleteRequest)
  | friends (r : FriendRequest)
  | friended (r : FriendRequest) (friendship : Option Friendship)

def isInitial : GroupStage → Bool
  | .create _ | .joinByCode _ | .acceptInvitation _ | .depart _ | .changeRole _ | .update _
  | .invite _ | .delete _ | .friends _ => true
  | .admission r =>
    match r.path with
    | .joined _ | .added _ => true
    | .invited _ _ => false
  | _ => false

def isFinished : GroupStage → Bool
  | .created _ _ | .admitted _ _ | .departed _ _ | .roleChanged _ | .updated _ _ _ | .invited _
  | .deleted _ | .friended _ _ => true
  | _ => false

/-! ## Writes -/

section Writes

variable (db : SocialDatabase)

def newGroup (r : CreationRequest) (group : Group) : Conversation where
  kind := .group group
  creatorId := r.userId
  updatedAt := r.now
  members := r.request.memberIds.foldl (fun members id => AList.insert id ⟨.member, r.now⟩ members)
    (AList.insert r.userId ⟨.creator, r.now⟩ ∅)
  messages := ∅
  readStates := ∅
  hidden := ∅

def setRole (r : RoleRequest) : SocialDatabase :=
  modifyConversation db r.groupId fun conversation =>
    { conversation with
      members := conversation.members.modify r.memberId fun member =>
        { member with role := r.role.asDbValue }
      updatedAt := r.now }

def setGroup (r : UpdateRequest) (group : Group) : SocialDatabase :=
  modifyConversation db r.groupId fun conversation =>
    { conversation with kind := .group group, updatedAt := r.now }

/-- A new member comes in, and an accepted invitation is resolved either way. -/
def admitMember (r : AdmissionRequest) (isMember : Bool) : SocialDatabase :=
  let after := if isMember then db else addMember db r.now r.groupId r.memberId
  match r.path with
  | .joined _ | .added _ => after
  | .invited invitationId _ => resolveInvitation after invitationId .accepted

def insertInvitation (r : InvitationRequest) : SocialDatabase :=
  { db with
    invitations := db.invitations.insert r.invitationId
      ⟨r.groupId, r.userId, r.inviteeId, .pending⟩
    notifications := db.notifications.insert r.notificationId
      ⟨r.inviteeId, r.userId, "groupInvitation", false⟩ }

def applyFriendRequest : FriendRequest → SocialDatabase
  | .send userId friendshipId notificationId request =>
    (createFriendRequest db userId friendshipId notificationId request).db
  | .accept userId friendshipId => (acceptFriendRequest db userId friendshipId).db
  | .remove userId friendshipId notificationId =>
    (deleteFriendship db userId friendshipId notificationId).db

def groupEffect : GroupStage → SocialDatabase → SocialDatabase
  | .created r group => fun db => insertConversation db r.groupId (newGroup r group)
  | .admitted r isMember => fun db => admitMember db r isMember
  | .departHanded r successor => fun db => handOver db r.groupId successor
  | .departed r successor => fun db =>
    removeMember (handOver db r.groupId successor) r.now r.groupId r.memberId
  | .roleChanged r => fun db => setRole db r
  | .updated r _ group => fun db => setGroup db r group
  | .invited r => fun db => insertInvitation db r
  | .deleted r => fun db => deleteConversation db r.groupId
  | .friended r _ => fun db => applyFriendRequest db r
  | _ => id

end Writes

/-! ## Statements -/

section Statements

variable (env : Environment)

def isAdmin (conversation : Conversation) (userId : Uuid) : Bool :=
  (conversation.members.lookup userId).any fun member =>
    member.role = .creator || member.role = .admin

/-- The group, its row locked. -/
def loadGroupForUpdate (db : SocialDatabase) (groupId : Uuid) : Option (Conversation × Group) :=
  (loadGroup db groupId).toOption

def createStatement (stage : GroupStage) (db : SocialDatabase) :
    Option (GroupStage × Finset GroupLock) :=
  match stage with
  | .create r =>
    let request := r.request
    match validateGroupTitle request.title,
        validatePasswordForPolicy request.accessPolicy request.password,
        validateInitialMemberIds r.userId request.memberIds,
        hashGroupPassword env r.salt request.password,
        validateInitialMemberFriendships db r.userId request.memberIds request.accessPolicy with
    | .ok title, .ok (), .ok _, .ok passwordHash, .ok () =>
      some (.createChecked r
        { title := title, accessPolicy := request.accessPolicy, passwordHash := passwordHash,
          groupCode := groupCodeFromUuid r.groupId, legacyGroupCode := none, avatarKey := none }, ∅)
    | _, _, _, _, _ => none
  | .createChecked r group =>
    if r.groupId ∉ db.conversations ∧
        (r.userId :: r.request.memberIds).all (· ∈ db.accounts.users) then
      some (.created r group, {.conversation r.groupId})
    else none
  | _ => none

/-- The acting admin is one, and whom they add has an account. -/
def mayAct (db : SocialDatabase) (r : AdmissionRequest) (conversation : Conversation) : Bool :=
  match r.path with
  | .joined _ | .invited _ _ => true
  | .added adminId => isAdmin conversation adminId && decide (r.memberId ∈ db.accounts.users)

/-- A password opens the group to whoever gives it, and to nobody an admin adds. -/
def passwordVerified (group : Group) : AdmissionPath → Bool
  | .added _ => false
  | .joined password | .invited _ password =>
    (verifyGroupPassword env group.passwordHash password).toOption = some true

def admissionStatement (stage : GroupStage) (db : SocialDatabase) :
    Option (GroupStage × Finset GroupLock) :=
  match stage with
  | .joinByCode r => (loadGroupByCode db r.code).toOption.map fun groupId =>
    (.admission ⟨r.now, groupId, r.userId, .joined r.password⟩, ∅)
  | .acceptInvitation r =>
    (loadPendingInvitation db r.userId r.invitationId).toOption.map fun invitation =>
      (.admission ⟨r.now, invitation.conversationId, r.userId,
        .invited r.invitationId r.password⟩, {.invitation r.invitationId})
  | .admission r => (loadGroupForUpdate db r.groupId).map fun row =>
    (.admissionLocked r row.2, {.conversation r.groupId})
  | .admissionLocked r group => (db.conversations.lookup r.groupId).bind fun conversation =>
    if mayAct db r conversation then
      if r.memberId ∈ conversation.members then some (.admitted r true, ∅)
      else some (.admissionNew r group, ∅)
    else none
  | .admissionNew r group => (db.conversations.lookup r.groupId).bind fun conversation =>
    match group.accessPolicy with
    | .open => some (.admissionGranted r, ∅)
    | .password => if passwordVerified env group r.path then some (.admissionGranted r, ∅) else none
    | .friendsOnly => some (.admissionMembers r conversation.members.keys, ∅)
    | .friendsOfFriends =>
      if isFriendsWithAnyMember db conversation r.memberId then some (.admissionGranted r, ∅)
      else none
  -- one query for each member of the group
  | .admissionMembers r (id :: rest) =>
    if id = r.memberId || areAcceptedFriends db r.memberId id then
      some (.admissionMembers r rest, ∅)
    else none
  | .admissionMembers r [] => some (.admissionGranted r, ∅)
  | .admissionGranted r => some (.admitted r false, ∅)
  | _ => none

def departStatement (stage : GroupStage) (db : SocialDatabase) :
    Option (GroupStage × Finset GroupLock) :=
  match stage with
  | .depart r => (loadGroupForUpdate db r.groupId).map fun row =>
    (.departLocked r row.1.creatorId, {.conversation r.groupId})
  | .departLocked r creatorId => (db.conversations.lookup r.groupId).bind fun conversation =>
    match r.removedBy with
    | some adminId =>
      -- nobody removes the creator
      if isAdmin conversation adminId && r.memberId ≠ creatorId then
        some (.departHanded r none, ∅)
      else none
    | none =>
      if creatorId = r.memberId then
        (groupSuccessor conversation r.memberId).map fun successor =>
          (.departHanded r (some successor), ∅)
      else some (.departHanded r none, ∅)
  | .departHanded r successor => (db.conversations.lookup r.groupId).bind fun conversation =>
    if r.memberId ∈ conversation.members then some (.departed r successor, ∅) else none
  | _ => none

def roleStatement (stage : GroupStage) (db : SocialDatabase) :
    Option (GroupStage × Finset GroupLock) :=
  match stage with
  | .changeRole r => (loadGroupForUpdate db r.groupId).bind fun row =>
    if row.1.creatorId = r.userId ∧ r.memberId ≠ row.1.creatorId then
      some (.roleLocked r, {.conversation r.groupId})
    else none
  | .roleLocked r => (db.conversations.lookup r.groupId).bind fun conversation =>
    if r.memberId ∈ conversation.members then some (.roleChanged r, ∅) else none
  | _ => none

def updateStatement (stage : GroupStage) (db : SocialDatabase) :
    Option (GroupStage × Finset GroupLock) :=
  match stage with
  | .update r => (loadGroupForUpdate db r.groupId).map fun row =>
    (.updateLocked r row.2, {.conversation r.groupId})
  | .updateLocked r group => (db.conversations.lookup r.groupId).bind fun conversation =>
    if isAdmin conversation r.userId then
      (validateGroupUpdateRequest group.accessPolicy r.accessPolicy
          r.passwordHash.isSome).toOption.map fun policy =>
        (.updated r group
          { group with
            title := r.title.getD group.title
            accessPolicy := policy
            passwordHash :=
              if policy = .password then r.passwordHash.or group.passwordHash else none }, ∅)
    else none
  | .delete r => (loadGroupForUpdate db r.groupId).map fun _ =>
    (.deleteLocked r, {.conversation r.groupId})
  | .deleteLocked r => (db.conversations.lookup r.groupId).bind fun conversation =>
    if isAdmin conversation r.userId then some (.deleted r, ∅) else none
  | _ => none

def inviteStatement (stage : GroupStage) (db : SocialDatabase) :
    Option (GroupStage × Finset GroupLock) :=
  match stage with
  | .invite r => (loadGroupForUpdate db r.groupId).bind fun row =>
    if r.inviteeId = r.userId then none
    else some (.inviteLocked r row.2, {.conversation r.groupId})
  | .inviteLocked r group => (db.conversations.lookup r.groupId).bind fun conversation =>
    if isAdmin conversation r.userId && group.accessPolicy = .password &&
        decide (r.inviteeId ∈ db.accounts.users) && decide (r.inviteeId ∉ conversation.members) &&
        !pendingInvitationExists db r.groupId r.inviteeId &&
        decide (r.invitationId ∉ db.invitations) &&
        decide (r.notificationId ∉ db.notifications) then
      some (.invited r, {.invitation r.invitationId})
    else none
  | _ => none

def friendStatement (stage : GroupStage) (db : SocialDatabase) :
    Option (GroupStage × Finset GroupLock) :=
  match stage with
  | .friends r =>
    match r with
    | .send _ _ _ _ => some (.friended r none, ∅)
    | .accept _ friendshipId | .remove _ friendshipId _ =>
      (db.friendships.lookup friendshipId).map fun friendship =>
        (.friended r (some friendship), {.friendship friendshipId})
  | _ => none

def groupStatement (stage : GroupStage) (db : SocialDatabase) :
    Option (GroupStage × Finset GroupLock) :=
  match stage with
  | .create _ | .createChecked _ _ | .created _ _ => createStatement env stage db
  | .joinByCode _ | .acceptInvitation _ | .admission _ | .admissionLocked _ _ | .admissionNew _ _
  | .admissionMembers _ _ | .admissionGranted _ | .admitted _ _ => admissionStatement env stage db
  | .depart _ | .departLocked _ _ | .departHanded _ _ | .departed _ _ => departStatement stage db
  | .changeRole _ | .roleLocked _ | .roleChanged _ => roleStatement stage db
  | .update _ | .updateLocked _ _ | .updated _ _ _ | .delete _ | .deleteLocked _ | .deleted _ =>
    updateStatement stage db
  | .invite _ | .inviteLocked _ _ | .invited _ => inviteStatement stage db
  | .friends _ | .friended _ _ => friendStatement stage db

def groupPrograms : Programs SocialDatabase GroupStage GroupLock where
  initial := isInitial
  effect := groupEffect
  statement := groupStatement env
  finished := isFinished

end Statements

end OpenMeet.GroupTransactions
