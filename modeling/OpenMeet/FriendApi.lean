import OpenMeet.ConversationApi

/-!
Friend requests and friendships. A target that does not exist gets the same
answer as a sent request.
-/
namespace OpenMeet.FriendApi

open KeyedMap Text Messages Accounts SocialTables

structure CreateFriendRequest where
  userId : Option Uuid
  email : Option String
  deriving DecidableEq, Repr

section Requests

open Outcome

variable (db : SocialDatabase) (userId : Uuid)

def maxPendingRequests : Nat := 100

/-- The trigger on friendships: too many pending requests from or to one user. -/
def pendingLimitReached (requesterId addresseeId : Uuid) : Bool :=
  let pending (side : Friendship → Uuid) (id : Uuid) : Nat :=
    (db.friendships.entries.filter fun row =>
      side row.2 = id && row.2.status = .pending).length
  maxPendingRequests ≤ pending (·.requesterId) requesterId ||
    maxPendingRequests ≤ pending (·.addresseeId) addresseeId

def findTarget (targetId : Option Uuid) (email : Option String) : Except ApiError (Option Uuid) :=
  match targetId, email with
  | some id, _ => .ok (if id ∈ db.accounts.users then some id else none)
  | none, some email =>
    .ok ((db.accounts.users.entries.find? fun row => row.2.email = email).map (·.1))
  | none, none => .error ⟨400, "Email or user ID is required"⟩

/-- The friendship between two users, in either direction. -/
def findFriendship (first second : Uuid) : Option Friendship :=
  (db.friendships.entries.find? fun row =>
    row.2.requesterId = first && row.2.addresseeId = second ||
      row.2.requesterId = second && row.2.addresseeId = first).map (·.2)

def createFriendRequest (friendshipId notificationId : Uuid) (request : CreateFriendRequest) :
    Outcome Unit :=
  let email := (request.email.map trim).filter fun email => !email.isEmpty
  match findTarget db request.userId email with
  | .error e => refuse db e
  | .ok target =>
    match target.filter (· ≠ userId) with
    | none => ⟨db, [], .ok ()⟩
    | some targetId =>
      match findFriendship db userId targetId with
      | some existing =>
        if existing.status = .accepted then refuse db ⟨409, "Already friends"⟩
        else refuse db ⟨409, "Friend request already pending"⟩
      | none =>
        if friendshipId ∈ db.friendships ∨ notificationId ∈ db.notifications then
          refuse db ⟨409, "Friend request already pending"⟩
        else if pendingLimitReached db userId targetId then
          refuse db ⟨400, "Invalid friend request"⟩
        else
          { db := { db with
              friendships := db.friendships.insert friendshipId ⟨userId, targetId, .pending⟩
              notifications := db.notifications.insert notificationId
                ⟨targetId, userId, "friendRequest", false⟩ }
            published := [⟨[targetId], .notifications⟩, ⟨[userId, targetId], .friends⟩]
            result := .ok () }

def acceptFriendRequest (friendshipId : Uuid) : Outcome Unit :=
  match db.friendships.lookup friendshipId with
  | none => refuse db ⟨404, "Friend request not found"⟩
  | some friendship =>
    if friendship.addresseeId = userId ∧ friendship.status = .pending then
      { db := { db with
          friendships := db.friendships.modify friendshipId fun friendship =>
            { friendship with status := .accepted } }
        published := [⟨[friendship.requesterId, friendship.addresseeId], .friends⟩]
        result := .ok () }
    else refuse db ⟨404, "Friend request not found"⟩

def deleteFriendship (friendshipId notificationId : Uuid) : Outcome Unit :=
  match db.friendships.lookup friendshipId with
  | none => refuse db ⟨404, "Friendship not found"⟩
  | some friendship =>
    if friendship.requesterId ≠ userId ∧ friendship.addresseeId ≠ userId then
      refuse db ⟨404, "Friendship not found"⟩
    else
      let parties := [friendship.requesterId, friendship.addresseeId]
      let friendships := db.friendships.erase friendshipId
      match friendship.status with
      | .accepted =>
        if notificationId ∈ db.notifications then refuse db requestFailed
        else
          let recipientId :=
            if friendship.requesterId = userId then friendship.addresseeId
            else friendship.requesterId
          { db := { db with
              friendships := friendships
              notifications := db.notifications.insert notificationId
                ⟨recipientId, userId, "friendRemoved", false⟩ }
            published := [⟨parties, .friends⟩, ⟨[recipientId], .notifications⟩]
            result := .ok () }
      | .pending =>
        { db := { db with
            friendships := friendships
            notifications := db.notifications.retain fun _ notification =>
              ¬ (notification.recipientId = friendship.addresseeId ∧
                notification.actorId = friendship.requesterId ∧
                notification.kind = "friendRequest" ∧ notification.read = false) }
          published := [⟨parties, .friends⟩]
          result := .ok () }

end Requests

/-! ## What a request writes -/

section Writes

variable (db : SocialDatabase) (userId : Uuid)

/-- A request inserts one pending row, for a pair that has none. -/
theorem createFriendRequest_friendships (friendshipId notificationId : Uuid)
    (request : CreateFriendRequest) :
    let after := (createFriendRequest db userId friendshipId notificationId request).db.friendships
    after = db.friendships ∨ ∃ targetId, targetId ≠ userId ∧
      findFriendship db userId targetId = none ∧ friendshipId ∉ db.friendships ∧
        after = db.friendships.insert friendshipId ⟨userId, targetId, .pending⟩ := by
  unfold createFriendRequest
  dsimp only
  split
  · exact .inl rfl
  · rename_i target htarget
    split
    · exact .inl rfl
    · rename_i targetId htargetId
      have hother := (Option.filter_eq_some_iff.mp htargetId).2
      split
      · split <;> exact .inl rfl
      · rename_i hnone
        split
        · exact .inl rfl
        · rename_i hfresh
          split
          · exact .inl rfl
          · exact .inr ⟨targetId, of_decide_eq_true hother, hnone, (not_or.mp hfresh).1, rfl⟩

/-- An acceptance is the addressee's, of a pending row. -/
theorem acceptFriendRequest_friendships (friendshipId : Uuid) :
    let after := (acceptFriendRequest db userId friendshipId).db.friendships
    after = db.friendships ∨ ∃ friendship, db.friendships.lookup friendshipId = some friendship ∧
      friendship.addresseeId = userId ∧ friendship.status = .pending ∧
        after = db.friendships.modify friendshipId fun friendship =>
          { friendship with status := .accepted } := by
  unfold acceptFriendRequest
  split
  · exact .inl rfl
  · rename_i friendship hfound
    split
    · rename_i haddressed
      exact .inr ⟨friendship, hfound, haddressed.1, haddressed.2, rfl⟩
    · exact .inl rfl

theorem deleteFriendship_friendships (friendshipId notificationId : Uuid) :
    let after := (deleteFriendship db userId friendshipId notificationId).db.friendships
    after = db.friendships ∨ after = db.friendships.erase friendshipId := by
  unfold deleteFriendship
  dsimp only
  split
  · exact .inl rfl
  · split
    · exact .inl rfl
    · split
      · split
        · exact .inl rfl
        · exact .inr rfl
      · exact .inr rfl

end Writes

end OpenMeet.FriendApi
