import Mathlib.Algebra.Group.Nat.Defs
import OpenMeet.SocialTables
import OpenMeet.Text
import OpenMeet.Urls

/-!
Groups and direct conversations, as the requests that read and change them see
them: each request is one transaction on the database, what it publishes, and
its answer. The random ids a request draws come with it.
-/
namespace OpenMeet.ConversationApi

open KeyedMap Text Messages Accounts SocialTables Urls

inductive ResponseKind
  | group
  | direct
  deriving DecidableEq, Repr

structure ConversationResponse where
  id : Uuid
  kind : ResponseKind
  title : Option String
  accessPolicy : Option GroupAccessPolicy
  groupCode : Option String
  avatarUrl : Option String
  role : Option MemberRole
  otherUserId : Option Uuid
  messageCount : Nat
  unreadCount : Nat
  markedUnread : Bool
  updatedAt : Timestamp
  deriving DecidableEq, Repr

inductive OpenState
  | available
  | pending
  | declined
  deriving DecidableEq, Repr

inductive Reply
  | noContent
  | conversation (response : ConversationResponse)
  | opened (state : OpenState) (conversation : Option ConversationResponse)
      (requestId : Option Uuid)
  deriving DecidableEq, Repr

/-! ## Errors -/

def conversationNotFound : ApiError := ⟨404, "Conversation not found"⟩
def accessDenied : ApiError := ⟨403, "Conversation access denied"⟩
def groupNotFound : ApiError := ⟨404, "Group not found"⟩
def adminRequired : ApiError := ⟨403, "Group admin access is required"⟩
def memberNotFound : ApiError := ⟨404, "Group member not found"⟩
def userNotFound : ApiError := ⟨404, "User not found"⟩
def directRequestExists : ApiError :=
  ⟨409, "A direct-message request already exists for these users"⟩

/-! ## Group codes -/

def alphabet : List Char := "0123456789ABCDEFGHIJKLMNOPQRSTUVWXYZabcdefghijklmnopqrstuvwxyz".toList

/-- Divide a big-endian number by 62, byte by byte; the remainder comes first. -/
def divideBy62 (remaining : List Nat) : Nat × List Nat :=
  remaining.foldl (fun acc byte =>
    let value := acc.1 * 256 + byte
    (value % 62, acc.2 ++ [value / 62])) (0, [])

def groupCodeDigits : Nat → List Nat → List Char → List Char
  | 0, _, code => code
  | n + 1, remaining, code =>
    let divided := divideBy62 remaining
    groupCodeDigits n divided.2 (alphabet.getD divided.1 '0' :: code)

def uuidBytes (id : Uuid) : List Nat :=
  (List.range 16).map fun i => id.toNat / 256 ^ (15 - i) % 256

def groupCodeFromUuid (id : Uuid) : String := String.ofList (groupCodeDigits 22 (uuidBytes id) [])

/-- A code of 22 letters and digits, or an older one of words joined by hyphens. -/
def normalizeGroupCode (code : String) : Option String :=
  let isAlphanumeric : Char → Bool := fun c => c.isUpper || c.isLower || c.isDigit
  let code := trim code
  if code.utf8ByteSize = 22 ∧ code.toList.all isAlphanumeric then some code
  else
    let legacy := code.map Char.toLower
    if legacy.utf8ByteSize ≤ 80 ∧
        (legacy.toList.splitOn '-').all fun part => !part.isEmpty && part.all isAlphanumeric then
      some legacy
    else none

/-! ## Reading -/

section Reading

variable (db : SocialDatabase)

def areAcceptedFriends (first second : Uuid) : Bool :=
  db.friendships.entries.any fun row => row.2.status = .accepted &&
    (row.2.requesterId = first && row.2.addresseeId = second ||
      row.2.requesterId = second && row.2.addresseeId = first)

def ensureUserExists (userId : Uuid) : Except ApiError Unit :=
  if userId ∈ db.accounts.users then .ok () else .error userNotFound

def loadGroup (groupId : Uuid) : Except ApiError (Conversation × Group) :=
  match db.conversations.lookup groupId with
  | none => .error groupNotFound
  | some conversation =>
    match conversation.kind with
    | .group group => .ok (conversation, group)
    | .direct _ _ => .error groupNotFound

def loadGroupByCode (code : String) : Except ApiError Uuid :=
  match normalizeGroupCode code with
  | none => .error groupNotFound
  | some code =>
    let found := db.conversations.entries.find? fun row =>
      match row.2.kind with
      | .group group => group.groupCode = code || group.legacyGroupCode = some code
      | .direct _ _ => false
    match found with
    | none => .error groupNotFound
    | some row => .ok row.1

def requireGroupAdmin (groupId userId : Uuid) :
    Except ApiError (Conversation × Group × MemberRole) :=
  match loadGroup db groupId with
  | .error e => .error e
  | .ok (conversation, group) =>
    match conversation.members.lookup userId with
    | some ⟨.creator, _⟩ => .ok (conversation, group, .creator)
    | some ⟨.admin, _⟩ => .ok (conversation, group, .admin)
    | some ⟨.member, _⟩ | none => .error adminRequired

/-- The members to tell about a change to a group, with others besides. -/
def groupUpdate (groupId : Uuid) (additional : List Uuid) : Publication where
  recipients :=
    (db.conversations.lookup groupId).elim [] (fun conversation => conversation.members.keys) ++
      additional
  resource := .conversations

def findDirectConversation (first second : Uuid) : Option (Uuid × Conversation) :=
  let lowId := if first < second then first else second
  let highId := if first < second then second else first
  (db.conversations.entries.find? fun row => row.2.kind = .direct lowId highId).map fun row =>
    (row.1, row.2)

/-- Who may read and write a conversation. -/
def authorizeConversationAccess (conversationId userId : Uuid) : Except ApiError Conversation :=
  match db.conversations.lookup conversationId with
  | none => .error conversationNotFound
  | some conversation =>
    match conversation.kind with
    | .group _ =>
      if userId ∈ conversation.members then .ok conversation else .error accessDenied
    | .direct lowId highId =>
      if lowId = userId ∨ highId = userId then .ok conversation else .error accessDenied

end Reading

section Found

variable {db : SocialDatabase} {userId : Uuid}

theorem loadGroup_ok {groupId : Uuid} {row : Conversation × Group}
    (h : loadGroup db groupId = .ok row) :
    db.conversations.lookup groupId = some row.1 ∧ row.1.kind = .group row.2 := by
  unfold loadGroup at h
  split at h
  · cases h
  · rename_i conversation hfound
    split at h
    · rename_i group hkind
      cases h
      exact ⟨hfound, hkind⟩
    · cases h

theorem requireGroupAdmin_ok {groupId : Uuid} {row : Conversation × Group × MemberRole}
    (h : requireGroupAdmin db groupId userId = .ok row) :
    loadGroup db groupId = .ok (row.1, row.2.1) ∧ userId ∈ row.1.members := by
  unfold requireGroupAdmin at h
  split at h
  · cases h
  · rename_i conversation group hgroup
    have hmem : ∀ member, conversation.members.lookup userId = some member →
        userId ∈ conversation.members := fun member hmember => by
      rw [← AList.lookup_isSome, hmember]
      rfl
    split at h
    · rename_i hmember
      cases h
      exact ⟨hgroup, hmem _ hmember⟩
    · rename_i hmember
      cases h
      exact ⟨hgroup, hmem _ hmember⟩
    · cases h
    · cases h

theorem authorizeConversationAccess_ok {id : Uuid} {conversation : Conversation}
    (h : authorizeConversationAccess db id userId = .ok conversation) :
    db.conversations.lookup id = some conversation := by
  unfold authorizeConversationAccess at h
  split at h
  · cases h
  · rename_i hfound
    split at h <;> split at h <;> cases h <;> exact hfound

end Found

def groupAvatarUrl (id : Uuid) (conversation : Conversation) (group : Group) : Option String :=
  group.avatarKey.map fun _ => groupAvatarUrlWithRevision id conversation.updatedAt

def conversationResponse (id : Uuid) (conversation : Conversation) (userId : Uuid)
    (role : Option MemberRole) : Except ApiError ConversationResponse :=
  match conversation.kind with
  | .group group =>
    .ok { id := id, kind := .group, title := some group.title,
          accessPolicy := some group.accessPolicy, groupCode := some group.groupCode,
          avatarUrl := groupAvatarUrl id conversation group,
          role := role, otherUserId := none, messageCount := 0, unreadCount := 0,
          markedUnread := false, updatedAt := conversation.updatedAt }
  | .direct lowId highId =>
    let response (other : Uuid) : ConversationResponse :=
      { id := id, kind := .direct, title := none, accessPolicy := none, groupCode := none,
        avatarUrl := none, role := role, otherUserId := some other, messageCount := 0,
        unreadCount := 0, markedUnread := false, updatedAt := conversation.updatedAt }
    if lowId = userId then .ok (response highId)
    else if highId = userId then .ok (response lowId)
    else .error accessDenied

/-- The answer of a request about a group, for a member of it. -/
def groupReply (id : Uuid) (conversation : Conversation) (userId : Uuid) (role : MemberRole) :
    Except ApiError Reply :=
  (conversationResponse id conversation userId (some role)).map .conversation

/-! ## Validation -/

structure CreateGroupRequest where
  title : String
  accessPolicy : GroupAccessPolicy
  password : Option String
  memberIds : List Uuid
  deriving DecidableEq, Repr

structure UpdateGroupRequest where
  title : Option String
  accessPolicy : Option GroupAccessPolicy
  password : Option String
  deriving DecidableEq, Repr

def passwordLength : ApiError := ⟨400, "Group passwords must contain 8 to 256 characters"⟩
def passwordNotAllowed : ApiError := ⟨400, "Only password groups may include a password"⟩

def validateGroupTitle (title : String) : Except ApiError String :=
  let title := trim title
  if title.isEmpty ∨ 128 < title.utf8ByteSize then
    .error ⟨400, "Group title must contain 1 to 128 characters"⟩
  else .ok title

def validatePasswordForPolicy (policy : GroupAccessPolicy) (password : Option String) :
    Except ApiError Unit :=
  match policy, password with
  | .password, some password =>
    if 8 ≤ password.utf8ByteSize ∧ password.utf8ByteSize ≤ 256 then .ok ()
    else .error passwordLength
  | .password, none => .error passwordLength
  | _, none => .ok ()
  | _, some _ => .error passwordNotAllowed

def validateInitialMemberIds (creatorId : Uuid) (memberIds : List Uuid) :
    Except ApiError (List Uuid) :=
  let rec check (seen : List Uuid) : List Uuid → Except ApiError Unit
    | [] => .ok ()
    | id :: rest =>
      if id = creatorId then .error ⟨400, "The group creator cannot be an initial member"⟩
      else if id ∈ seen then .error ⟨400, "Initial group members must be unique"⟩
      else check (id :: seen) rest
  if 100 < memberIds.length then
    .error ⟨400, "Groups may include at most 100 initial members"⟩
  else (check [] memberIds).map fun _ => memberIds

def validateGroupUpdateRequest (currentPolicy : GroupAccessPolicy)
    (requestedPolicy : Option GroupAccessPolicy) (passwordSupplied : Bool) :
    Except ApiError GroupAccessPolicy :=
  let policy := requestedPolicy.getD currentPolicy
  if policy = .password then
    if currentPolicy ≠ .password ∧ passwordSupplied = false then .error passwordLength
    else .ok policy
  else if passwordSupplied then .error passwordNotAllowed
  else .ok policy

def hashGroupPassword (env : Environment) (salt : String) (password : Option String) :
    Except ApiError (Option String) :=
  match password with
  | none => .ok none
  | some password =>
    match env.hashPassword salt password with
    | some hash => .ok (some hash)
    | none => .error requestFailed

def verifyGroupPassword (env : Environment) (hash password : Option String) :
    Except ApiError Bool :=
  match hash, password with
  | some hash, some password =>
    match env.verifyPassword hash password with
    | some verified => .ok verified
    | none => .error requestFailed
  | _, _ => .ok false

/-- The pairs that must be friends before a group is created: the creator with every member, and
the members with each other in a friends-only group. -/
def requiredInitialFriendshipPairs (creatorId : Uuid) (memberIds : List Uuid)
    (policy : GroupAccessPolicy) : List (Uuid × Uuid) :=
  memberIds.map (creatorId, ·) ++
    if policy = .friendsOnly then memberIds.flatMap fun id => memberIds.filterMap fun other =>
      if id < other then some (id, other) else none
    else []

def validateInitialMemberFriendships (db : SocialDatabase) (creatorId : Uuid)
    (memberIds : List Uuid) (policy : GroupAccessPolicy) : Except ApiError Unit :=
  if (requiredInitialFriendshipPairs creatorId memberIds policy).all fun pair =>
      areAcceptedFriends db pair.1 pair.2 then .ok ()
  else if policy = .friendsOnly then
    .error ⟨403, "Friends-only groups require friendship with every member"⟩
  else .error ⟨403, "Initial group members must be accepted friends"⟩

def isFriendsWithEveryMember (db : SocialDatabase) (conversation : Conversation)
    (candidateId : Uuid) : Bool :=
  conversation.members.keys.all fun id => id = candidateId || areAcceptedFriends db candidateId id

def isFriendsWithAnyMember (db : SocialDatabase) (conversation : Conversation)
    (candidateId : Uuid) : Bool :=
  conversation.members.keys.any fun id => id ≠ candidateId && areAcceptedFriends db candidateId id

def authorizeFriendshipPolicy (db : SocialDatabase) (conversation : Conversation)
    (policy : GroupAccessPolicy) (candidateId : Uuid) : Except ApiError Unit :=
  match policy with
  | .friendsOnly =>
    if isFriendsWithEveryMember db conversation candidateId then .ok ()
    else .error ⟨403, "Friends-only groups require friendship with every member"⟩
  | .friendsOfFriends =>
    if isFriendsWithAnyMember db conversation candidateId then .ok ()
    else .error ⟨403, "Friends-of-friends groups require friendship with a member"⟩
  | .open | .password => .ok ()

def authorizeGroupAdmission (env : Environment) (db : SocialDatabase) (conversation : Conversation)
    (group : Group) (candidateId : Uuid) (password : Option String) : Except ApiError Unit :=
  match group.accessPolicy with
  | .open => .ok ()
  | .password =>
    match verifyGroupPassword env group.passwordHash password with
    | .error e => .error e
    | .ok true => .ok ()
    | .ok false => .error ⟨403, "Invalid group password"⟩
  | policy => authorizeFriendshipPolicy db conversation policy candidateId

def authorizeAdminAddition (db : SocialDatabase) (conversation : Conversation) (group : Group)
    (candidateId : Uuid) : Except ApiError Unit :=
  match group.accessPolicy with
  | .open => .ok ()
  | .password => .error ⟨409, "Password-protected groups require an invitation"⟩
  | policy => authorizeFriendshipPolicy db conversation policy candidateId

/-! ## Writes -/

section Writes

variable (db : SocialDatabase)

def modifyConversation (id : Uuid) (f : Conversation → Conversation) : SocialDatabase :=
  { db with conversations := db.conversations.modify id f }

def insertConversation (id : Uuid) (conversation : Conversation) : SocialDatabase :=
  { db with conversations := db.conversations.insert id conversation }

def addMember (now : Timestamp) (groupId userId : Uuid) : SocialDatabase :=
  modifyConversation db groupId fun conversation =>
    { conversation with
      members := if userId ∈ conversation.members then conversation.members
        else conversation.members.insert userId ⟨.member, now⟩
      updatedAt := now }

/-- Decline every call of the group for a user who leaves it. -/
def revokeGroupCallMemberships (groupId userId : Uuid) : SocialDatabase :=
  { db with
    calls := db.calls.mapValues fun _ call =>
      if call.conversationId = groupId then
        { call with members := call.members.modify userId fun _ => .declined }
      else call }

def removeMember (now : Timestamp) (groupId memberId : Uuid) : SocialDatabase :=
  revokeGroupCallMemberships
    (modifyConversation db groupId fun conversation =>
      { conversation with members := conversation.members.erase memberId, updatedAt := now })
    groupId memberId

/-- The rows that go with a conversation, its calls' rooms staying behind as revoked. -/
def deleteConversation (id : Uuid) : SocialDatabase :=
  let rooms := (db.calls.entries.filter fun row => row.2.conversationId = id).map (·.2.sfuRoomId)
  { db with
    conversations := db.conversations.erase id
    invitations := db.invitations.retain fun _ invitation => invitation.conversationId ≠ id
    calls := db.calls.retain fun _ call => call.conversationId ≠ id
    revokedRooms := db.revokedRooms ∪ rooms.toFinset }

/-- Show the conversation to the user again. -/
def unhide (id userId : Uuid) : SocialDatabase :=
  modifyConversation db id fun conversation =>
    { conversation with hidden := conversation.hidden.erase userId }

def ensureDirectConversation (now : Timestamp) (freshId firstId secondId : Uuid) :
    Except ApiError (SocialDatabase × Uuid × Conversation) :=
  match findDirectConversation db firstId secondId with
  | some (id, conversation) => .ok (db, id, conversation)
  | none =>
    if freshId ∈ db.conversations then .error requestFailed
    else
      let conversation : Conversation :=
        { kind := .direct (if firstId < secondId then firstId else secondId)
            (if firstId < secondId then secondId else firstId)
          creatorId := firstId, updatedAt := now, members := ∅, messages := ∅, readStates := ∅,
          hidden := ∅ }
      .ok (insertConversation db freshId conversation, freshId, conversation)

/-- Accept the pending request between two users, in either direction. -/
def resolvePendingDirectRequest (firstId secondId : Uuid) : SocialDatabase :=
  { db with
    directRequests := db.directRequests.mapValues fun _ request =>
      if request.status = .pending ∧
          (request.requesterId = firstId ∧ request.recipientId = secondId ∨
            request.requesterId = secondId ∧ request.recipientId = firstId) then
        { request with status := .accepted }
      else request }

end Writes

/-! ## Groups -/

section Groups

open Outcome

variable (env : Environment) (db : SocialDatabase) (now : Timestamp) (userId : Uuid)

def createGroup (groupId : Uuid) (salt : String) (request : CreateGroupRequest) : Outcome Reply :=
  match validateGroupTitle request.title,
      validatePasswordForPolicy request.accessPolicy request.password,
      validateInitialMemberIds userId request.memberIds,
      hashGroupPassword env salt request.password,
      validateInitialMemberFriendships db userId request.memberIds request.accessPolicy with
  | .error e, _, _, _, _ | .ok _, .error e, _, _, _ | .ok _, .ok _, .error e, _, _
  | .ok _, .ok _, .ok _, .error e, _ | .ok _, .ok _, .ok _, .ok _, .error e => refuse db e
  | .ok title, .ok (), .ok memberIds, .ok passwordHash, .ok () =>
    if groupId ∈ db.conversations ∨ ¬ (userId :: memberIds).all (· ∈ db.accounts.users) then
      refuse db requestFailed
    else
      let group : Group :=
        { title := title, accessPolicy := request.accessPolicy, passwordHash := passwordHash,
          groupCode := groupCodeFromUuid groupId, legacyGroupCode := none, avatarKey := none }
      let members := memberIds.foldl (fun members id => AList.insert id ⟨.member, now⟩ members)
        (AList.insert userId ⟨.creator, now⟩ ∅)
      let conversation : Conversation :=
        { kind := .group group, creatorId := userId, updatedAt := now, members := members,
          messages := ∅, readStates := ∅, hidden := ∅ }
      { db := insertConversation db groupId conversation
        published := [⟨memberIds ++ [userId], .conversations⟩]
        result := groupReply groupId conversation userId .creator }

def joinGroup (groupId : Uuid) (password : Option String) : Outcome Reply :=
  match loadGroup db groupId with
  | .error e => refuse db e
  | .ok (conversation, group) =>
    match conversation.members.lookup userId with
    | some member =>
      ⟨db, [groupUpdate db groupId []], groupReply groupId conversation userId member.role⟩
    | none =>
      match authorizeGroupAdmission env db conversation group userId password with
      | .error e => refuse db e
      | .ok () =>
        let after := addMember db now groupId userId
        ⟨after, [groupUpdate after groupId []], groupReply groupId conversation userId .member⟩

def joinGroupByCode (code : String) (password : Option String) : Outcome Reply :=
  match loadGroupByCode db code with
  | .error e => refuse db e
  | .ok groupId => joinGroup env db now userId groupId password

/-- The transaction of a group update, after the checks made outside it. -/
def writeGroup (groupId : Uuid) (title : Option String) (policy : Option GroupAccessPolicy)
    (passwordHash : Option String) : Outcome Reply :=
  match requireGroupAdmin db groupId userId with
  | .error e => refuse db e
  | .ok (_, group, role) =>
    match validateGroupUpdateRequest group.accessPolicy policy passwordHash.isSome with
    | .error e => refuse db e
    | .ok policy =>
      let updated : Group :=
        { group with
          title := title.getD group.title
          accessPolicy := policy
          passwordHash := if policy = .password then passwordHash.or group.passwordHash else none }
      let write (conversation : Conversation) : Conversation :=
        { conversation with kind := .group updated, updatedAt := now }
      let after := modifyConversation db groupId write
      { db := after
        published := [groupUpdate after groupId []]
        result := (loadGroup after groupId).bind fun row => groupReply groupId row.1 userId role }

def updateGroup (groupId : Uuid) (salt : String) (request : UpdateGroupRequest) :
    Outcome Reply :=
  if request.title.isNone ∧ request.accessPolicy.isNone ∧ request.password.isNone then
    refuse db ⟨400, "At least one group field must be provided"⟩
  else
    let passwordCheck := if request.password.isSome then
      validatePasswordForPolicy .password request.password else .ok ()
    match request.title.mapM validateGroupTitle, passwordCheck,
      requireGroupAdmin db groupId userId with
    | .error e, _, _ | .ok _, .error e, _ | .ok _, .ok _, .error e => refuse db e
    | .ok title, .ok (), .ok (_, group, _) =>
      match validateGroupUpdateRequest group.accessPolicy request.accessPolicy
          request.password.isSome, hashGroupPassword env salt request.password with
      | .error e, _ | .ok _, .error e => refuse db e
      | .ok _, .ok passwordHash =>
        writeGroup db now userId groupId title request.accessPolicy passwordHash

def updateGroupPolicy (groupId : Uuid) (salt : String) (policy : GroupAccessPolicy)
    (password : Option String) : Outcome Reply :=
  updateGroup env db now userId groupId salt ⟨none, some policy, password⟩

def addGroupMember (groupId memberId : Uuid) : Outcome Reply :=
  match requireGroupAdmin db groupId userId, ensureUserExists db memberId with
  | .error e, _ | .ok _, .error e => refuse db e
  | .ok (conversation, group, role), .ok () =>
    let added : Except ApiError SocialDatabase :=
      if memberId ∈ conversation.members then .ok db
      else (authorizeAdminAddition db conversation group memberId).map fun _ =>
        addMember db now groupId memberId
    match added with
    | .error e => refuse db e
    | .ok after =>
      ⟨after, [groupUpdate after groupId []], groupReply groupId conversation userId role⟩

/-- What removing a member and leaving have in common; the SFU then disconnects the user. -/
def departed (groupId memberId : Uuid) : Outcome Reply :=
  let after := removeMember db now groupId memberId
  ⟨after, [groupUpdate after groupId [memberId], ⟨[memberId], .calls⟩], .ok .noContent⟩

def removeGroupMember (groupId memberId : Uuid) : Outcome Reply :=
  match requireGroupAdmin db groupId userId with
  | .error e => refuse db e
  | .ok (conversation, _, _) =>
    if memberId = conversation.creatorId then
      refuse db ⟨403, "The group creator cannot be removed"⟩
    else if memberId ∈ conversation.members then departed db now groupId memberId
    else refuse db memberNotFound

/-- Who owns a group after its owner leaves: the admin who joined first, otherwise the member who
joined first. -/
def groupSuccessor (conversation : Conversation) (leaving : Uuid) : Option Uuid :=
  let staying := conversation.members.entries.filter fun row => row.1 ≠ leaving
  let admins := staying.filter fun row => row.2.role = .admin
  let first := (List.minOn? (fun row => row.2.joinedAt) admins).or
    (List.minOn? (fun row => row.2.joinedAt) staying)
  first.map (·.1)

def leaveGroup (groupId : Uuid) : Outcome Reply :=
  match loadGroup db groupId with
  | .error e => refuse db e
  | .ok (conversation, _) =>
    if conversation.creatorId = userId then
      match groupSuccessor conversation userId with
      | none => refuse db ⟨409, "You are the only member. Remove the group instead."⟩
      | some successor =>
        if userId ∈ conversation.members then
          departed (modifyConversation db groupId fun conversation =>
            { conversation with
              creatorId := successor
              members := conversation.members.modify successor fun member =>
                { member with role := .creator } }) now groupId userId
        else refuse db ⟨404, "Group membership not found"⟩
    else if userId ∈ conversation.members then departed db now groupId userId
    else refuse db ⟨404, "Group membership not found"⟩

/-- Everyone with a row in a call of the group. -/
def callRecipients (groupId : Uuid) : List Uuid :=
  ((db.calls.entries.filter fun row => row.2.conversationId = groupId).flatMap fun row =>
    row.2.members.keys).dedup

def deleteGroup (groupId : Uuid) : Outcome Reply :=
  match requireGroupAdmin db groupId userId with
  | .error e => refuse db e
  | .ok (conversation, _, _) =>
    { db := deleteConversation db groupId
      published := [⟨conversation.members.keys, .conversations⟩,
        ⟨callRecipients db groupId, .calls⟩]
      result := .ok .noContent }

def removeGroupAvatar (groupId : Uuid) : Outcome Reply :=
  match requireGroupAdmin db groupId userId with
  | .error e => refuse db e
  | .ok (_, group, _) =>
    if group.avatarKey.isNone then ⟨db, [], .ok .noContent⟩
    else
      let after := modifyConversation db groupId fun conversation =>
        { conversation with kind := .group { group with avatarKey := none }, updatedAt := now }
      ⟨after, [groupUpdate after groupId []], .ok .noContent⟩

/-- The upload is parsed and stored before; its key comes with the request. -/
def uploadGroupAvatar (groupId : Uuid) (key : String) : Outcome Reply :=
  match requireGroupAdmin db groupId userId with
  | .error e => refuse db e
  | .ok (_, group, role) =>
    let after := modifyConversation db groupId fun conversation =>
      { conversation with kind := .group { group with avatarKey := some key }, updatedAt := now }
    { db := after
      published := [groupUpdate after groupId []]
      result := (loadGroup after groupId).bind fun row => groupReply groupId row.1 userId role }

/-- The roles that can be given. -/
inductive GroupMemberRole
  | admin
  | member
  deriving DecidableEq, Repr

def GroupMemberRole.asDbValue : GroupMemberRole → MemberRole
  | admin => .admin
  | member => .member

def updateGroupMemberRole (groupId memberId : Uuid) (role : GroupMemberRole) : Outcome Reply :=
  match loadGroup db groupId with
  | .error e => refuse db e
  | .ok (conversation, _) =>
    if conversation.creatorId ≠ userId then
      refuse db ⟨403, "Only the group creator can change admin roles"⟩
    else if memberId = conversation.creatorId then
      refuse db ⟨400, "The group creator role cannot be changed"⟩
    else if memberId ∈ conversation.members then
      let after := modifyConversation db groupId fun conversation =>
        { conversation with
          members := conversation.members.modify memberId fun member =>
            { member with role := role.asDbValue }
          updatedAt := now }
      ⟨after, [groupUpdate after groupId []], .ok .noContent⟩
    else refuse db memberNotFound

end Groups

/-! ## Direct conversations -/

section Direct

open Outcome

variable (db : SocialDatabase) (now : Timestamp) (userId : Uuid)

def hideDirectConversation (conversationId : Uuid) : Outcome Reply :=
  match db.conversations.lookup conversationId with
  | none => refuse db conversationNotFound
  | some conversation =>
    match conversation.kind with
    | .group _ => refuse db conversationNotFound
    | .direct lowId highId =>
      if lowId ≠ userId ∧ highId ≠ userId then refuse db conversationNotFound
      else
        { db := modifyConversation db conversationId fun conversation =>
            { conversation with hidden := insert userId conversation.hidden }
          published := [⟨[userId], .conversations⟩]
          result := .ok .noContent }

def available (id : Uuid) (conversation : Conversation) (userId : Uuid) (requestId : Option Uuid) :
    Except ApiError Reply :=
  (conversationResponse id conversation userId none).map fun response =>
    .opened .available (some response) requestId

/-- The request between two users, in either direction. -/
def findDirectRequest (first second : Uuid) : Option (Uuid × DirectMessageRequest) :=
  (db.directRequests.entries.find? fun row =>
    row.2.requesterId = first && row.2.recipientId = second ||
      row.2.requesterId = second && row.2.recipientId = first).map fun row => (row.1, row.2)

def openDirectConversation (targetId freshId : Uuid) : Outcome Reply :=
  if targetId = userId then refuse db ⟨400, "Cannot open a direct conversation with yourself"⟩
  else
    match ensureUserExists db targetId with
    | .error e => refuse db e
    | .ok () =>
      match findDirectConversation db userId targetId with
      | some (id, conversation) =>
        { db := unhide db id userId
          published := [⟨[userId], .conversations⟩]
          result := available id conversation userId none }
      | none =>
        if areAcceptedFriends db userId targetId then
          match ensureDirectConversation db now freshId userId targetId with
          | .error e => refuse db e
          | .ok (created, id, conversation) =>
            { db := unhide (resolvePendingDirectRequest created userId targetId) id userId
              published := [⟨[userId, targetId], .conversations⟩]
              result := available id conversation userId none }
        else
          match findDirectRequest db userId targetId with
          | some (requestId, request) =>
            if request.requesterId = userId ∧ request.status = .pending then
              ⟨db, [], .ok (.opened .pending none (some requestId))⟩
            else if request.status = .accepted then
              match ensureDirectConversation db now freshId userId targetId with
              | .error e => refuse db e
              | .ok (created, id, conversation) =>
                { db := created
                  published := [⟨[userId, targetId], .conversations⟩]
                  result := available id conversation userId (some requestId) }
            else refuse db directRequestExists
          | none =>
            if freshId ∈ db.directRequests then refuse db directRequestExists
            else
              { db := { db with
                  directRequests := db.directRequests.insert freshId ⟨userId, targetId, .pending⟩ }
                published := [⟨[targetId], .conversations⟩]
                result := .ok (.opened .pending none (some freshId)) }

def respondToDirectMessageRequest (requestId freshId : Uuid) (accept : Bool) : Outcome Reply :=
  match db.directRequests.lookup requestId with
  | none => refuse db ⟨404, "Direct-message request is no longer available"⟩
  | some request =>
    if request.recipientId ≠ userId ∨ request.status ≠ .pending then
      refuse db ⟨404, "Direct-message request is no longer available"⟩
    else
      let answered := { db with
        directRequests := db.directRequests.modify requestId fun request =>
          { request with status := if accept then .accepted else .declined } }
      let published : List Publication :=
        [⟨[request.requesterId, request.recipientId], .conversations⟩]
      if accept then
        match ensureDirectConversation answered now freshId userId request.requesterId with
        | .error e => refuse db e
        | .ok (created, id, conversation) =>
          ⟨created, published, available id conversation userId (some requestId)⟩
      else ⟨answered, published, .ok (.opened .declined none (some requestId))⟩

end Direct

/-! ## Group invitations -/

section Invitations

open Outcome

variable (env : Environment) (db : SocialDatabase) (now : Timestamp) (userId : Uuid)

def invitationNotFound : ApiError := ⟨404, "Invitation not found"⟩

def pendingInvitationExists (groupId inviteeId : Uuid) : Bool :=
  db.invitations.entries.any fun row => row.2.conversationId = groupId &&
    row.2.inviteeId = inviteeId && row.2.status = .pending

def createGroupInvitation (groupId inviteeId invitationId notificationId : Uuid) :
    Outcome Reply :=
  if inviteeId = userId then refuse db ⟨400, "You cannot invite yourself"⟩
  else
    match requireGroupAdmin db groupId userId with
    | .error e => refuse db e
    | .ok (conversation, group, _) =>
      if group.accessPolicy ≠ .password then
        refuse db ⟨409, "Only password-protected groups use invitations"⟩
      else
        match ensureUserExists db inviteeId with
        | .error e => refuse db e
        | .ok () =>
          if inviteeId ∈ conversation.members then
            refuse db ⟨409, "That person is already a member"⟩
          else if pendingInvitationExists db groupId inviteeId then
            ⟨db, [], .ok .noContent⟩
          else if invitationId ∈ db.invitations ∨ notificationId ∈ db.notifications then
            refuse db requestFailed
          else
            { db := { db with
                invitations := db.invitations.insert invitationId
                  ⟨groupId, userId, inviteeId, .pending⟩
                notifications := db.notifications.insert notificationId
                  ⟨inviteeId, userId, "groupInvitation", false⟩ }
              published := [⟨[inviteeId], .notifications⟩]
              result := .ok .noContent }

/-- The user's pending invitation. -/
def loadPendingInvitation (invitationId : Uuid) : Except ApiError GroupInvitation :=
  match db.invitations.lookup invitationId with
  | some invitation =>
    if invitation.inviteeId = userId ∧ invitation.status = .pending then .ok invitation
    else .error invitationNotFound
  | none => .error invitationNotFound

def resolveInvitation (invitationId : Uuid) (status : RequestStatus) : SocialDatabase :=
  { db with
    invitations := db.invitations.modify invitationId fun invitation =>
      { invitation with status := status } }

def acceptGroupInvitation (invitationId : Uuid) (password : Option String) : Outcome Reply :=
  match loadPendingInvitation db userId invitationId with
  | .error e => refuse db e
  | .ok invitation =>
    let groupId := invitation.conversationId
    match loadGroup db groupId with
    | .error e => refuse db e
    | .ok (conversation, group) =>
      match conversation.members.lookup userId with
      | some member =>
        let after := resolveInvitation db invitationId .accepted
        ⟨after, [groupUpdate after groupId []], groupReply groupId conversation userId member.role⟩
      | none =>
        -- a wrong password keeps the invitation pending
        match authorizeGroupAdmission env db conversation group userId password with
        | .error e => refuse db e
        | .ok () =>
          let after := resolveInvitation (addMember db now groupId userId) invitationId .accepted
          ⟨after, [groupUpdate after groupId []], groupReply groupId conversation userId .member⟩

def declineGroupInvitation (invitationId : Uuid) : Outcome Reply :=
  match loadPendingInvitation db userId invitationId with
  | .error e => refuse db e
  | .ok _ => ⟨resolveInvitation db invitationId .declined, [], .ok .noContent⟩

end Invitations

end OpenMeet.ConversationApi
