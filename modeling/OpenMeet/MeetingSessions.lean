import OpenMeet.CallApi
import OpenMeet.Text
import OpenMeet.Urls

/-!
The history of meetings a user can page through: the sessions the user attended
and those in the room of a call the user missed, newest first. A session the
user did not attend is flagged as missed when its room is that of a missed call.
-/
namespace OpenMeet.MeetingSessions

open KeyedMap Text Messages Accounts SocialTables Badges CallApi Urls

def defaultPageSize : Int := 20
def maxPageSize : Int := 50

/-- History rows name a few other people. -/
def previewPeople : Nat := 4

/-- Upper bound on connection rows read for one meeting. -/
def maxMeetingConnections : Nat := 2000

structure Connection where
  sessionId : Uuid
  userId : Option Uuid
  displayName : String
  joinedAt : Timestamp
  leftAt : Option Timestamp
  accountName : Option String
  nickname : Option String
  avatarKey : Option String
  deriving DecidableEq, Repr

/-- The avatar of a connection's account, if it has one. -/
def Connection.avatarUrl (connection : Connection) : Option String :=
  connection.userId.bind fun userId => connection.avatarKey.map (userAvatarUrl userId)

structure MeetingPerson where
  userId : Option Uuid
  name : String
  nickname : Option String
  avatarUrl : Option String
  joinedAt : Timestamp
  leftAt : Option Timestamp
  isYou : Bool
  deriving DecidableEq, Repr

structure MeetingSessionResponse where
  id : Uuid
  roomId : RoomId
  callSessionId : Option Uuid
  conversationId : Option Uuid
  accessPolicy : Option GroupAccessPolicy
  startedAt : Timestamp
  endedAt : Option Timestamp
  participantCount : Nat
  participants : List MeetingPerson
  missed : Bool
  unread : Bool
  deriving DecidableEq, Repr

structure MeetingSessionsPage where
  meetings : List MeetingSessionResponse
  nextBefore : Option Timestamp
  deriving DecidableEq, Repr

/-! ## People -/

/-- Reconnects belong to one account, and guests go by their name. -/
inductive PersonKey
  | user (id : Uuid)
  | guest (name : String)
  deriving DecidableEq, Repr

section People

variable (env : Environment)

def personKey (connection : Connection) : PersonKey :=
  match connection.userId with
  | some id => .user id
  | none => .guest (env.toLowercase (trim connection.displayName))

/-- A person is connected while one of their connections is. -/
def latestLeft : Option Timestamp → Option Timestamp → Option Timestamp
  | some previous, some current => some (max previous current)
  | _, _ => none

def addConnection (viewerId : Option Uuid) (people : List (PersonKey × MeetingPerson))
    (connection : Connection) : List (PersonKey × MeetingPerson) :=
  let key := personKey env connection
  if people.any (·.1 = key) then
    people.map fun row =>
      if row.1 = key then
        (key, { row.2 with leftAt := latestLeft row.2.leftAt connection.leftAt })
      else row
  else
    people ++ [(key,
      { userId := connection.userId, name := connection.accountName.getD connection.displayName,
        nickname := connection.nickname, avatarUrl := connection.avatarUrl,
        joinedAt := connection.joinedAt, leftAt := connection.leftAt,
        isYou := viewerId.isSome && connection.userId = viewerId })]

/-- The connections come ordered by join time. -/
def groupPeople (connections : List Connection) (viewerId : Option Uuid) : List MeetingPerson :=
  (connections.foldl (addConnection env viewerId) []).map (·.2)

def loadConnections (db : SocialDatabase) (sessionIds : List Uuid) : List Connection :=
  let rows := (db.meetings.entries.filter fun row => row.1 ∈ sessionIds).flatMap fun row =>
    row.2.participants.entries.map fun participant =>
      let account := participant.2.userId.bind db.accounts.users.lookup
      { sessionId := row.1, userId := participant.2.userId,
        displayName := participant.2.displayName, joinedAt := participant.2.joinedAt,
        leftAt := participant.2.leftAt, accountName := account.map (·.name),
        nickname := account.map (·.nickname), avatarKey := account.bind (·.avatarKey) }
  (rows.insertionSort fun a b => a.joinedAt ≤ b.joinedAt).take
    (maxMeetingConnections * max sessionIds.length 1)

end People

/-! ## Sessions -/

section Sessions

variable (env : Environment) (db : SocialDatabase) (now : Timestamp) (userId : Uuid)

def attended (meeting : MeetingSession) : Bool :=
  meeting.participants.entries.any fun row => row.2.userId = some userId

def missedRoom (room : RoomId) : Bool :=
  db.calls.entries.any fun row => row.2.sfuRoomId = room && missedCall db now userId row.2

/-- The user's history, newest first. -/
def listedSessions : List (Uuid × MeetingSession) :=
  let rows := db.meetings.entries.map fun row => (row.1, row.2)
  orderByDesc (·.2.startedAt) <|
    rows.filter fun row => attended userId row.2 || missedRoom db now userId row.2.sfuRoomId

def meetingResponses (sessions : List (Uuid × MeetingSession)) (preview : Option Nat) :
    List MeetingSessionResponse :=
  let connections := loadConnections db (sessions.map (·.1))
  sessions.map fun session =>
    let people :=
      groupPeople env (connections.filter (·.sessionId = session.1)) (some userId)
    let call := db.calls.entries.find? (·.2.sfuRoomId = session.2.sfuRoomId)
    { id := session.1
      roomId := session.2.sfuRoomId
      callSessionId := call.map (·.1)
      conversationId := call.map (·.2.conversationId)
      accessPolicy := (db.meetingRooms.lookup session.2.sfuRoomId).map (·.accessPolicy)
      startedAt := session.2.startedAt
      endedAt := session.2.endedAt
      participantCount := people.length
      participants := preview.elim people fun limit => (people.filter fun p => !p.isYou).take limit
      missed := false
      unread := false }

/-- Calls in these rooms that the user missed, with whether they are unread. -/
def missedCalls (rooms : List RoomId) (room : RoomId) : Option (Uuid × Bool) :=
  if room ∈ rooms then
    (findMissedCall db now userId room).map fun call => (call.1, userId ∉ call.2.readBy)
  else none

/-- Marks meetings the user did not attend but whose call they missed. -/
def applyMissedFlags (meetings : List MeetingSessionResponse) : List MeetingSessionResponse :=
  let attendedId (id : Uuid) : Bool := (db.meetings.lookup id).any (attended userId)
  let missed := missedCalls db now userId
    ((meetings.filter fun meeting => !attendedId meeting.id).map (·.roomId))
  meetings.map fun meeting =>
    if attendedId meeting.id then meeting
    else
      match missed meeting.roomId with
      | some (_, unread) => { meeting with missed := true, unread := unread }
      | none => meeting

def pageLimit (limit : Option Int) : Nat :=
  (max 1 (min (limit.getD defaultPageSize) maxPageSize)).toNat

def listMeetingSessions (before : Option Timestamp) (limit : Option Int) : MeetingSessionsPage :=
  let limit := pageLimit limit
  let found := (listedSessions db now userId).filter fun row => before.all (row.2.startedAt < ·)
  let sessions := found.take limit
  { meetings := applyMissedFlags db now userId
      (meetingResponses env db userId sessions (some previewPeople))
    nextBefore := if limit < found.length then sessions.getLast?.map (·.2.startedAt) else none }

end Sessions

end OpenMeet.MeetingSessions
