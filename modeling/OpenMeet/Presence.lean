import OpenMeet.FriendApi

/-!
Online presence, user statuses, and who may see them. Every endpoint that
reports a status or whether somebody is online goes through visiblePresence.
-/
namespace OpenMeet.Presence

open Messages SocialTables

inductive UserStatus
  | available
  | away
  | doNotDisturb
  | sleeping
  | offline
  deriving DecidableEq, Repr

/-- Who can see a user's online state and status. -/
inductive PresenceVisibility
  | everyone
  | contacts
  | friends
  | nobody
  deriving DecidableEq, Repr

def defaultPresenceVisibility : PresenceVisibility := .friends

/-- How the viewer relates to the user whose presence is requested. -/
structure Relationship where
  isSelf : Bool
  isFriend : Bool
  hasPendingFriendRequest : Bool
  sharesGroup : Bool
  sharesMeeting : Bool
  deriving DecidableEq, Repr

namespace Relationship

def friend : Relationship := ⟨false, true, false, false, false⟩
def incomingFriendRequest : Relationship := ⟨false, false, true, false, false⟩
def self : Relationship := ⟨true, false, false, false, false⟩
def meetingPeer : Relationship := ⟨false, false, false, false, true⟩

end Relationship

structure VisiblePresence where
  status : UserStatus
  isOnline : Bool
  deriving DecidableEq, Repr

/-- Users cannot choose yet, so everyone has the default. -/
def visibilityFor (_userId : Uuid) : PresenceVisibility := defaultPresenceVisibility

def canSee (visibility : PresenceVisibility) (relationship : Relationship) : Bool :=
  if relationship.isSelf then true
  else if relationship.sharesMeeting then visibility ≠ .nobody
  else
    match visibility with
    | .everyone => true
    | .contacts => relationship.isFriend || relationship.hasPendingFriendRequest ||
        relationship.sharesGroup
    | .friends => relationship.isFriend || relationship.hasPendingFriendRequest
    | .nobody => false

/-- In microseconds. -/
def onlineWindow : Nat := 45000000

def isRecent (now lastSeenAt : Timestamp) : Bool := now < lastSeenAt + onlineWindow

/-- What the viewer may see, if anything. Appearing offline hides the online state from everyone
but the user. -/
def visiblePresence (now : Timestamp) (userId : Uuid) (status : UserStatus)
    (lastSeenAt : Option Timestamp) (relationship : Relationship) : Option VisiblePresence :=
  if canSee (visibilityFor userId) relationship then
    let connected := lastSeenAt.any (isRecent now)
    let isOnline := connected && (relationship.isSelf || status ≠ .offline)
    some ⟨status, isOnline⟩
  else none

section Visibility

variable {now : Timestamp} {userId : Uuid} {status : UserStatus} {lastSeenAt : Option Timestamp}
  {relationship : Relationship}

theorem visiblePresence_isSome_iff :
    (visiblePresence now userId status lastSeenAt relationship).isSome = true ↔
      relationship.isSelf = true ∨ relationship.sharesMeeting = true ∨
        relationship.isFriend = true ∨ relationship.hasPendingFriendRequest = true := by
  obtain ⟨isSelf, isFriend, hasPending, sharesGroup, sharesMeeting⟩ := relationship
  cases isSelf <;> cases sharesMeeting <;> cases isFriend <;> cases hasPending <;>
    simp [visiblePresence, canSee, visibilityFor, defaultPresenceVisibility]

/-- Nobody else sees whether a user who appears offline is connected. -/
theorem visiblePresence_offline (hother : relationship.isSelf = false)
    (otherSeenAt : Option Timestamp) :
    visiblePresence now userId .offline lastSeenAt relationship =
      visiblePresence now userId .offline otherSeenAt relationship := by
  simp [visiblePresence, hother]

end Visibility

end OpenMeet.Presence
