import OpenMeet.Presence
import OpenMeet.Urls

/-!
What the endpoints say of other people: profiles, friends and friend requests,
incoming calls, search and the members of a group; and the requests that change
what they say. A call rings until it is answered or expires, whatever becomes
of the friendship.
-/
namespace OpenMeet.PeopleApi

open KeyedMap Text Messages Accounts SocialTables ConversationApi FriendApi Presence Urls

/-! ## The database -/

/-- The columns of users that only these endpoints read. -/
structure ProfileColumns where
  status : UserStatus
  statusMessage : String
  createdAt : Timestamp
  deriving DecidableEq, Repr

inductive InvitationStatus
  | pending
  | accepted
  | declined
  | expired
  deriving DecidableEq, Repr

structure CallInvitation where
  callerId : Uuid
  calleeId : Uuid
  roomId : RoomId
  status : InvitationStatus
  expiresAt : Timestamp
  createdAt : Timestamp
  deriving DecidableEq, Repr

structure FriendshipTimes where
  createdAt : Timestamp
  updatedAt : Timestamp
  deriving DecidableEq, Repr

/-- The social tables, with the profiles, the heartbeats, the calls between friends and the times
of the friendships. -/
structure PeopleDatabase where
  social : SocialDatabase
  profiles : Map Uuid ProfileColumns
  presence : Map Uuid Timestamp
  callInvitations : Map Uuid CallInvitation
  friendshipTimes : Map Uuid FriendshipTimes

structure UserRow where
  id : Uuid
  email : String
  name : String
  nickname : String
  status : UserStatus
  statusMessage : String
  avatarKey : Option String
  createdAt : Timestamp
  deriving DecidableEq, Repr

/-- The avatar of a user who has one. -/
def UserRow.avatarUrl (user : UserRow) : Option String :=
  user.avatarKey.map (userAvatarUrl user.id)

/-! ## Responses -/

inductive ProfileRelationship
  | owner
  | friend
  | none
  deriving DecidableEq, Repr

structure UserProfile where
  id : Uuid
  name : String
  nickname : String
  email : String
  avatarUrl : Option String
  status : UserStatus
  statusMessage : String
  createdAt : Timestamp
  lastSeenAt : Option Timestamp
  isOnline : Bool
  relationship : ProfileRelationship
  deriving DecidableEq, Repr

structure FriendSummary where
  id : Uuid
  name : String
  nickname : String
  email : String
  avatarUrl : Option String
  isOnline : Bool
  status : Option UserStatus
  friendshipId : Option Uuid
  deriving DecidableEq, Repr

structure FriendRequestItem where
  id : Uuid
  user : FriendSummary
  createdAt : Timestamp
  deriving DecidableEq, Repr

structure FriendsResponse where
  friends : List FriendSummary
  incomingRequests : List FriendRequestItem
  deriving DecidableEq, Repr

structure CallInvitationResponse where
  id : Uuid
  roomId : RoomId
  status : InvitationStatus
  expiresAt : Timestamp
  caller : Option FriendSummary
  deriving DecidableEq, Repr

structure UserDiscoveryResponse where
  id : Uuid
  name : String
  nickname : String
  avatarUrl : Option String
  deriving DecidableEq, Repr

structure GroupMemberResponse where
  id : Uuid
  name : String
  nickname : String
  avatarUrl : Option String
  isOnline : Bool
  status : Option UserStatus
  role : MemberRole
  joinedAt : Timestamp
  deriving DecidableEq, Repr

structure GroupMembersPage where
  members : List GroupMemberResponse
  nextOffset : Option Int
  deriving DecidableEq, Repr

/-! ## Reading -/

section Reading

variable (db : PeopleDatabase) (now : Timestamp) (userId : Uuid)

def profileColumns (id : Uuid) : ProfileColumns :=
  (db.profiles.lookup id).getD ⟨.available, "Available for a call", 0⟩

def userRow (id : Uuid) : Option UserRow :=
  (db.social.accounts.users.lookup id).map fun user =>
    let columns := profileColumns db id
    { id := id, email := user.email, name := user.name, nickname := user.nickname,
      status := columns.status, statusMessage := columns.statusMessage,
      avatarKey := user.avatarKey, createdAt := columns.createdAt }

def hasIncomingFriendRequest (viewerId requesterId : Uuid) : Bool :=
  db.social.friendships.entries.any fun row => row.2.status = .pending &&
    row.2.requesterId = requesterId && row.2.addresseeId = viewerId

def profilePresenceRelationship (relationship : ProfileRelationship)
    (hasIncomingFriendRequest : Bool) : Option Relationship :=
  match relationship with
  | .owner => some .self
  | .friend => some .friend
  | .none => if hasIncomingFriendRequest then some .incomingFriendRequest else none

def profileResponse (user : UserRow) (lastSeenAt : Option Timestamp)
    (relationship : ProfileRelationship) (hasIncomingFriendRequest : Bool) : UserProfile :=
  let viewer := profilePresenceRelationship relationship hasIncomingFriendRequest
  let presence := viewer.bind fun viewer =>
    visiblePresence now user.id user.status lastSeenAt viewer
  let isPublicView := relationship = .none
  { id := user.id, name := user.name, nickname := user.nickname
    email := if isPublicView then "" else user.email
    avatarUrl := user.avatarUrl
    status := presence.elim .offline (·.status)
    statusMessage := if isPublicView then "" else user.statusMessage
    createdAt := user.createdAt
    isOnline := presence.any (·.isOnline)
    lastSeenAt := if isPublicView then none else presence.bind fun _ => lastSeenAt
    relationship := relationship }

def getUserProfile (targetUserId : Uuid) : Except ApiError UserProfile :=
  match userRow db targetUserId with
  | none => .error userNotFound
  | some user =>
    let relationship : ProfileRelationship :=
      if userId = targetUserId then .owner
      else if areAcceptedFriends db.social userId targetUserId then .friend
      else .none
    let incoming := relationship = .none && hasIncomingFriendRequest db userId targetUserId
    let lastSeenAt :=
      if relationship = .none && !incoming then none else db.presence.lookup targetUserId
    .ok (profileResponse now user lastSeenAt relationship incoming)

def friendSummary (user : UserRow) (presence : Option VisiblePresence) : FriendSummary where
  id := user.id
  name := user.name
  nickname := user.nickname
  email := user.email
  avatarUrl := user.avatarUrl
  isOnline := presence.any (·.isOnline)
  status := presence.map (·.status)
  friendshipId := none

/-- A person as a friend's list shows them, with their presence in the given relationship. -/
def summaryOf (id : Uuid) (relationship : Relationship) : Option FriendSummary :=
  (userRow db id).map fun user => friendSummary user
    (visiblePresence now id user.status (db.presence.lookup id) relationship)

/-- The other party of a friendship. -/
def relatedId (friendship : Friendship) : Uuid :=
  if friendship.requesterId = userId then friendship.addresseeId else friendship.requesterId

def relationships : List ((_ : Uuid) × Friendship) :=
  orderByDesc (fun row => (db.friendshipTimes.lookup row.1).elim 0 (·.updatedAt))
    (db.social.friendships.entries.filter fun row =>
      row.2.requesterId = userId || row.2.addresseeId = userId)

def listFriends : FriendsResponse where
  friends := (relationships db userId).filterMap fun row =>
    if row.2.status = .accepted then
      (summaryOf db now (relatedId userId row.2) .friend).map fun user =>
        { user with friendshipId := some row.1 }
    else none
  incomingRequests := (relationships db userId).filterMap fun row =>
    if row.2.status ≠ .accepted ∧ row.2.addresseeId = userId then
      (summaryOf db now (relatedId userId row.2) .incomingFriendRequest).map fun user =>
        { id := row.1, user := { user with friendshipId := some row.1 }
          createdAt := (db.friendshipTimes.lookup row.1).elim 0 (·.createdAt) }
    else none

def callResponse (id : Uuid) (invitation : CallInvitation) (caller : Option FriendSummary) :
    CallInvitationResponse :=
  ⟨id, invitation.roomId, invitation.status, invitation.expiresAt, caller⟩

/-- The ten newest calls that ring for the user. -/
def incomingInvitations : List ((_ : Uuid) × CallInvitation) :=
  (orderByDesc (fun row => row.2.createdAt) (db.callInvitations.entries.filter fun row =>
    row.2.calleeId = userId && row.2.status = .pending && now < row.2.expiresAt)).take 10

/-- Calls only come from accepted friends. -/
def listIncomingCalls : List CallInvitationResponse :=
  (incomingInvitations db now userId).map fun row =>
    callResponse row.1 row.2 (summaryOf db now row.2.callerId .friend)

def validatedUserSearchQuery (query : String) : Option String :=
  let query := trim query
  if 2 ≤ charCount query ∧ charCount query ≤ 80 then some query else none

/-- Whether the text holds the query, in any case of its letters. -/
def matchesQuery (env : Environment) (query text : String) : Bool :=
  decide ((env.toLowercase query).toList <:+: (env.toLowercase text).toList)

/-- The names come in the order of the database's collation. -/
def searchUsers (env : Environment) (precedes : String × String → String × String → Bool)
    (query : String) : Except ApiError (List UserDiscoveryResponse) :=
  match validatedUserSearchQuery query with
  | none => .error ⟨400, "Query must be 2 to 80 characters"⟩
  | some query =>
    let found := db.social.accounts.users.entries.filter fun row => row.1 ≠ userId &&
      (matchesQuery env query row.2.name || matchesQuery env query row.2.nickname ||
        matchesQuery env query row.2.email)
    let sorted := found.insertionSort fun a b =>
      precedes (a.2.name, a.2.nickname) (b.2.name, b.2.nickname)
    .ok ((sorted.take 10).map fun row =>
      ⟨row.1, row.2.name, row.2.nickname, row.2.avatarKey.map (userAvatarUrl row.1)⟩)

def groupPageSize : Nat := 50

def validatedPageOffset (offset : Option Int) : Except ApiError Nat :=
  let offset := offset.getD 0
  if 0 ≤ offset then .ok offset.toNat else .error ⟨400, "Offset must not be negative"⟩

/-- The presence of a member, who shares the group with the viewer. -/
def visibleGroupMemberPresence (member : UserRow) : Option VisiblePresence :=
  visiblePresence now member.id member.status (db.presence.lookup member.id)
    { isSelf := member.id = userId
      isFriend := areAcceptedFriends db.social userId member.id
      hasPendingFriendRequest := false
      sharesGroup := true
      sharesMeeting := false }

def listGroupMembers (groupId : Uuid) (offset : Option Int) : Except ApiError GroupMembersPage :=
  match validatedPageOffset offset, loadGroup db.social groupId with
  | .error e, _ | .ok _, .error e => .error e
  | .ok offset, .ok (conversation, _) =>
    if userId ∉ conversation.members then .error groupNotFound
    else
      let members := conversation.members.entries.filterMap fun row =>
        (userRow db row.1).map fun user => (user, row.2)
      let sorted := members.insertionSort fun a b => a.2.joinedAt < b.2.joinedAt ∨
        a.2.joinedAt = b.2.joinedAt ∧ a.1.id ≤ b.1.id
      let rows := (sorted.drop offset).take (groupPageSize + 1)
      .ok
        { members := (rows.take groupPageSize).map fun row =>
            let presence := visibleGroupMemberPresence db now userId row.1
            { id := row.1.id, name := row.1.name, nickname := row.1.nickname
              avatarUrl := row.1.avatarUrl
              isOnline := presence.any (·.isOnline), status := presence.map (·.status)
              role := row.2.role, joinedAt := row.2.joinedAt }
          nextOffset :=
            if groupPageSize < rows.length then some (offset + groupPageSize : Nat) else none }

end Reading

/-! ## Writing -/

/-- The database after a request, what it has published and what it answers. -/
structure PeopleOutcome (Reply : Type*) where
  db : PeopleDatabase
  published : List Publication
  result : Except ApiError Reply

section Writing

variable (env : Environment) (db : PeopleDatabase) (now : Timestamp) (userId : Uuid)

def refuse {Reply : Type*} (e : ApiError) : PeopleOutcome Reply := ⟨db, [], .error e⟩

/-- The outcome of a friend request, the times of the friendships beside it. -/
def withSocial (o : Outcome Unit) (times : Map Uuid FriendshipTimes) : PeopleOutcome Unit :=
  ⟨{ db with social := o.db, friendshipTimes := times }, o.published, o.result⟩

def sendFriendRequest (friendshipId notificationId : Uuid) (request : CreateFriendRequest) :
    PeopleOutcome Unit :=
  let o := createFriendRequest db.social userId friendshipId notificationId request
  withSocial db o
    (if friendshipId ∈ o.db.friendships ∧ friendshipId ∉ db.social.friendships then
      db.friendshipTimes.insert friendshipId ⟨now, now⟩
    else db.friendshipTimes)

def answerFriendRequest (friendshipId : Uuid) : PeopleOutcome Unit :=
  let o := acceptFriendRequest db.social userId friendshipId
  withSocial db o
    (if o.result = .ok () then
      db.friendshipTimes.modify friendshipId fun times => { times with updatedAt := now }
    else db.friendshipTimes)

def endFriendship (friendshipId notificationId : Uuid) : PeopleOutcome Unit :=
  withSocial db (deleteFriendship db.social userId friendshipId notificationId) db.friendshipTimes

def updatePresence : PeopleOutcome Unit :=
  ⟨{ db with presence := db.presence.insert userId now }, [], .ok ()⟩

def normalizeStatusMessage (value : String) : Option String :=
  let value := trim value
  if charCount value ≤ 255 then some value else none

def acceptedFriendIds : List Uuid :=
  (db.social.friendships.entries.filter fun row => row.2.status = .accepted &&
    (row.2.requesterId = userId || row.2.addresseeId = userId)).map fun row =>
      relatedId userId row.2

structure UpdateSelfProfileRequest where
  name : Option String
  nickname : Option String
  status : Option UserStatus
  statusMessage : Option String
  deriving DecidableEq, Repr

def normalizeName (value : String) : Option String :=
  let value := trim value
  if 1 ≤ charCount value ∧ charCount value ≤ 255 then some value else none

def normalizeNickname (value : String) : Option String :=
  let nickname := env.toLowercase (trim value)
  if 3 ≤ nickname.utf8ByteSize ∧ nickname.utf8ByteSize ≤ 50 ∧
      nickname.toList.all fun c => c.isLower || c.isDigit || c == '_' then some nickname
  else none

def renameUser (accounts : Accounts.Database) (id : Uuid) (name nickname : String) :
    Accounts.Database :=
  { accounts with
    users := accounts.users.modify id fun user => { user with name := name, nickname := nickname }
    user_role := by
      intro other user huser
      rw [Map.lookup_modify] at huser
      split at huser
      · obtain ⟨earlier, hearlier, rfl⟩ := Option.map_eq_some_iff.mp huser
        exact accounts.user_role other earlier hearlier
      · exact accounts.user_role other user huser }

/-- The row as the request would have it, or the first field that is not valid. -/
def requestedProfile (existing : UserRow) (request : UpdateSelfProfileRequest) :
    Except ApiError UserRow :=
  match request.name.elim (some existing.name) normalizeName,
      request.nickname.elim (some existing.nickname) (normalizeNickname env),
      request.statusMessage.elim (some existing.statusMessage) normalizeStatusMessage with
  | none, _, _ => .error ⟨400, "Name must be 1 to 255 characters"⟩
  | some _, none, _ =>
    .error ⟨400, "Nickname must be 3 to 50 lowercase letters, numbers, or underscores"⟩
  | some _, some _, none => .error ⟨400, "Status message must be at most 255 characters"⟩
  | some name, some nickname, some statusMessage =>
    .ok { existing with
      name := name, nickname := nickname, status := request.status.getD existing.status
      statusMessage := statusMessage }

def updateSelfProfile (request : UpdateSelfProfileRequest) : PeopleOutcome UserProfile :=
  match userRow db userId with
  | none => refuse db userNotFound
  | some existing =>
    match requestedProfile env existing request with
    | .error e => refuse db e
    | .ok user =>
      if db.social.accounts.users.entries.any fun row => row.1 ≠ userId &&
          row.2.nickname = user.nickname then
        refuse db ⟨409, "Nickname already exists"⟩
      else
        let accounts := renameUser db.social.accounts userId user.name user.nickname
        { db := { db with
            social := { db.social with accounts := accounts }
            profiles :=
              db.profiles.insert userId ⟨user.status, user.statusMessage, user.createdAt⟩ }
          published := [⟨acceptedFriendIds db userId, .friends⟩]
          result := .ok (profileResponse now user none .owner false) }

/-! ### Calls between friends -/

def CallInvitation.between (invitation : CallInvitation) (first second : Uuid) : Bool :=
  invitation.callerId = first && invitation.calleeId = second ||
    invitation.callerId = second && invitation.calleeId = first

def CallInvitation.rings (invitation : CallInvitation) : Bool :=
  invitation.status = .pending && now < invitation.expiresAt

/-- Calls of the two that nobody has answered in time. -/
def expireInvitations (friendId : Uuid) : Map Uuid CallInvitation :=
  db.callInvitations.mapValues fun _ invitation =>
    if invitation.between userId friendId && invitation.status = .pending &&
        decide (invitation.expiresAt ≤ now) then
      { invitation with status := .expired }
    else invitation

/-- A call of the friend is accepted by calling back; the user's own is reused. -/
def reusePendingCall (friendId : Uuid) : Option (PeopleDatabase × Uuid × CallInvitation) :=
  (db.callInvitations.entries.find? fun row =>
    row.2.between userId friendId && row.2.rings now).map fun row =>
      if row.2.callerId = userId then (db, row.1, row.2)
      else
        let accepted := { row.2 with status := .accepted }
        ({ db with callInvitations := db.callInvitations.insert row.1 accepted }, row.1, accepted)

/-- The trigger on call_invitations, and the check before it. -/
def activeCallLimitReached : Bool :=
  10 ≤ (db.callInvitations.entries.filter fun row =>
    row.2.callerId = userId && row.2.rings now).length

/-- A caller keeps the hundred newest of the calls that no longer ring. -/
def pruneInvitations (callerId : Uuid) : PeopleDatabase :=
  let ended := db.callInvitations.entries.filter fun row =>
    row.2.callerId = callerId && row.2.status ≠ .pending
  let kept := ((orderByDesc (fun row => row.2.createdAt) ended).take 100).map (·.1)
  { db with callInvitations := db.callInvitations.retain fun id invitation =>
      invitation.callerId ≠ callerId || invitation.status = .pending || decide (id ∈ kept) }

def insertInvitation (callId friendId : Uuid) (room : RoomId) : Option PeopleDatabase :=
  if callId ∈ db.callInvitations ∨ userId = friendId then none
  else some { db with
    callInvitations := db.callInvitations.insert callId
      ⟨userId, friendId, room, .pending, now + 300000000, now⟩ }

def createCallInvitation (callId friendId : Uuid) (room : RoomId) :
    PeopleOutcome CallInvitationResponse :=
  if !areAcceptedFriends db.social userId friendId then
    refuse db ⟨403, "Calls are limited to friends"⟩
  else
    let current := { db with callInvitations := expireInvitations db now userId friendId }
    let published (invitation : CallInvitation) : List Publication :=
      [⟨[invitation.callerId, invitation.calleeId], .calls⟩]
    match reusePendingCall current now userId friendId with
    | some (after, id, invitation) =>
      ⟨after, published invitation, .ok (callResponse id invitation none)⟩
    | none =>
      if current.callInvitations.entries.any fun row => row.2.between userId friendId &&
          decide (now < row.2.createdAt + 30000000) then
        refuse current ⟨429, "Please wait before calling again"⟩
      else if activeCallLimitReached current now userId then
        refuse current ⟨429, "Too many active calls"⟩
      else
        match insertInvitation current now userId callId friendId room with
        | none => refuse current requestFailed
        | some after =>
          let invitation : CallInvitation :=
            ⟨userId, friendId, room, .pending, now + 300000000, now⟩
          ⟨pruneInvitations after userId, published invitation,
            .ok (callResponse callId invitation none)⟩

def respondToCall (invitationId : Uuid) (accept : Bool) : PeopleOutcome CallInvitationResponse :=
  match db.callInvitations.lookup invitationId with
  | none => refuse db ⟨404, "Call invitation is no longer available"⟩
  | some invitation =>
    if invitation.calleeId = userId ∧ invitation.rings now then
      let answered := { invitation with status := if accept then .accepted else .declined }
      { db := { db with callInvitations := db.callInvitations.insert invitationId answered }
        published := [⟨[invitation.callerId, invitation.calleeId], .calls⟩]
        result := .ok (callResponse invitationId answered none) }
    else refuse db ⟨404, "Call invitation is no longer available"⟩

end Writing

/-! ## Runs -/

inductive PeopleRequest
  | sendFriendRequest (friendshipId notificationId : Uuid) (request : CreateFriendRequest)
  | answerFriendRequest (friendshipId : Uuid)
  | endFriendship (friendshipId notificationId : Uuid)
  | updatePresence
  | updateSelfProfile (request : UpdateSelfProfileRequest)
  | createCallInvitation (callId friendId : Uuid) (room : RoomId)
  | respondToCall (invitationId : Uuid) (accept : Bool)

def handlePeople (env : Environment) (db : PeopleDatabase) (now : Timestamp) (userId : Uuid) :
    PeopleRequest → PeopleDatabase
  | .sendFriendRequest friendshipId notificationId request =>
    (PeopleApi.sendFriendRequest db now userId friendshipId notificationId request).db
  | .answerFriendRequest friendshipId =>
    (PeopleApi.answerFriendRequest db now userId friendshipId).db
  | .endFriendship friendshipId notificationId =>
    (PeopleApi.endFriendship db userId friendshipId notificationId).db
  | .updatePresence => (PeopleApi.updatePresence db now userId).db
  | .updateSelfProfile request => (PeopleApi.updateSelfProfile env db now userId request).db
  | .createCallInvitation callId friendId room =>
    (PeopleApi.createCallInvitation db now userId callId friendId room).db
  | .respondToCall invitationId accept =>
    (PeopleApi.respondToCall db now userId invitationId accept).db

def runPeople (env : Environment) (db : PeopleDatabase) :
    List (Timestamp × Uuid × PeopleRequest) → PeopleDatabase
  | [] => db
  | (now, userId, request) :: rest => runPeople env (handlePeople env db now userId request) rest

end OpenMeet.PeopleApi
