import OpenMeet.LossyBroadcast
import OpenMeet.Presence
import OpenMeet.TransitionSystem

/-!
The hub that tells clients what to load again, and the task behind one client's
event socket. The hub is a broadcast channel: publishing returns at once, and the
task reads at its own pace. While an event is being sent the task looks at nothing
else. Deadlines may pass at any time, so they are actions like the others.
-/
namespace OpenMeet.SocialEvents

open Messages SocialTables Presence LossyBroadcast TransitionSystem

def eventCapacity : Nat := 1024

inductive SocialResource
  | calls
  | conversations
  | friends
  | notifications
  deriving DecidableEq, Repr

inductive AlertCallKind
  | invitation
  | session
  deriving DecidableEq, Repr

inductive SocialAlert
  | message (conversationId : Uuid) (sequence : Sequence) (senderId : Uuid) (senderName : String)
      (conversationTitle avatarUrl : Option String) (preview : String) (hasAttachments : Bool)
  | incomingCall (callId : Uuid) (callKind : AlertCallKind) (callerName : String)
      (conversationId : Option Uuid) (conversationTitle avatarUrl : Option String)
      (expiresAt : Timestamp)
  deriving DecidableEq, Repr

inductive SocialEventPayload
  | refresh (resource : SocialResource)
  | alert (alert : SocialAlert)
  deriving DecidableEq, Repr

structure SocialEvent where
  recipients : List Uuid
  payload : SocialEventPayload
  deriving DecidableEq, Repr

inductive ClientMessage
  | authenticate (accessToken : String)
  deriving DecidableEq, Repr

inductive ServerMessage
  | authenticated
  | error (message : String)
  | refresh (resource : SocialResource)
  | alert (alert : SocialAlert)
  deriving DecidableEq, Repr

def SocialEventPayload.serverMessage : SocialEventPayload → ServerMessage
  | .refresh resource => .refresh resource
  | .alert content => .alert content

/-- What arrives on a WebSocket; a text frame with what it decodes to. -/
inductive Frame
  | text (message : Option ClientMessage)
  | binary
  | ping
  | pong
  | close
  deriving DecidableEq, Repr

/-- Who is online to be interrupted, of those the alert is for. -/
def availableRecipients (status : Uuid → Option UserStatus) (recipients : List Uuid) : List Uuid :=
  recipients.dedup.filter fun id => status id = some .available

/-! ## One socket and the hub -/

/-- What has happened, as far as the client is concerned. Messages are noted with
the user the socket has been authenticated as. -/
inductive Occurrence
  | published (event : SocialEvent)
  | sent (userId : Option Uuid) (message : ServerMessage)
  | closed
  deriving DecidableEq, Repr

/-- Where the task of the socket is. -/
inductive Phase (Subscription : Type)
  | connecting
  /-- Authenticated has been sent; the task has not subscribed yet. -/
  | acknowledged (userId : Uuid)
  | listening (userId : Uuid) (events : Subscription) (awaitingPong : Bool)
  /-- In the branch of an event, with the messages it has still to send. -/
  | sending (userId : Uuid) (events : Subscription) (awaitingPong : Bool)
      (message : ServerMessage) (rest : List ServerMessage)
  | closed

structure EventSocket (hub : Broadcast SocialEvent eventCapacity) where
  channel : hub.Channel
  phase : Phase hub.Subscription
  /-- Newest first. -/
  history : List Occurrence

inductive Action
  | publish (recipients : List Uuid) (resource : SocialResource)
  /-- Without statuses the lookup has failed. -/
  | alert (recipients : List Uuid) (status : Option (Uuid → Option UserStatus))
      (alert : SocialAlert)
  /-- none when nothing readable came in time. -/
  | authenticate (first : Option Frame) (sent : Bool)
  | subscribe
  /-- none when the connection has ended or failed. -/
  | incoming (frame : Option Frame)
  | receive
  | deliver (sent : Bool)
  | heartbeat (sent : Bool)
  | expire (sent : Bool)

/-- Sent in place of what a socket that lagged behind has missed. -/
def allRefreshes : List ServerMessage :=
  [.refresh .calls, .refresh .conversations, .refresh .friends, .refresh .notifications]

section Step

variable {hub : Broadcast SocialEvent eventCapacity}

/-- With nothing left to send the task is back in its loop. -/
def resume (userId : Uuid) (events : hub.Subscription) (awaitingPong : Bool) :
    List ServerMessage → Phase hub.Subscription
  | [] => .listening userId events awaitingPong
  | message :: rest => .sending userId events awaitingPong message rest

/-- What the branch of an event has to send. -/
def messagesFor (userId : Uuid) : Received SocialEvent → List ServerMessage
  | .event event => if userId ∈ event.recipients then [event.payload.serverMessage] else []
  | .lagged _ => allRefreshes

namespace EventSocket

variable (socket : EventSocket hub)

def send (recipients : List Uuid) (payload : SocialEventPayload) : EventSocket hub :=
  if recipients = [] then socket
  else
    let event : SocialEvent := ⟨recipients, payload⟩
    { socket with
      channel := hub.send socket.channel event
      history := .published event :: socket.history }

def record (userId : Option Uuid) (message : ServerMessage) : EventSocket hub :=
  { socket with history := .sent userId message :: socket.history }

def close : EventSocket hub :=
  { socket with phase := .closed, history := .closed :: socket.history }

/-- Sends a last message before it closes; whether it gets through does not matter. -/
def closeWith (userId : Option Uuid) (sent : Bool) (message : String) : EventSocket hub :=
  (if sent then socket.record userId (.error message) else socket).close

def authenticate (validateAccessToken : String → Option Uuid) (first : Option Frame)
    (sent : Bool) : EventSocket hub :=
  match first with
  | none => socket.close
  | some (.text (some (.authenticate accessToken))) =>
    match validateAccessToken accessToken with
    | none => socket.closeWith none sent "Invalid access token"
    | some userId =>
      if sent then { socket.record (some userId) .authenticated with phase := .acknowledged userId }
      else socket.close
  | some _ => socket.closeWith none sent "Authentication required"

def step (validateAccessToken : String → Option Uuid) :
    Action → Option (EventSocket hub)
  | .publish recipients resource => some (socket.send recipients (.refresh resource))
  | .alert recipients status alert =>
    match status with
    | none => some socket
    | some status => some (socket.send (availableRecipients status recipients) (.alert alert))
  | .authenticate first sent =>
    match socket.phase with
    | .connecting => some (socket.authenticate validateAccessToken first sent)
    | _ => none
  | .subscribe =>
    match socket.phase with
    | .acknowledged userId =>
      some { socket with phase := .listening userId (hub.subscribe socket.channel) false }
    | _ => none
  | .incoming frame =>
    match socket.phase, frame with
    | .listening _ _ _, none => some socket.close
    | .listening _ _ _, some .close => some socket.close
    | .listening userId events _, some .pong =>
      some { socket with phase := .listening userId events false }
    | .listening _ _ _, some _ => some socket
    | _, _ => none
  | .receive =>
    match socket.phase with
    | .listening userId events awaitingPong =>
      (hub.recv socket.channel events).map fun (received, next) =>
        { socket with phase := resume userId next awaitingPong (messagesFor userId received) }
    | _ => none
  | .deliver sent =>
    match socket.phase with
    | .sending userId events awaitingPong message rest =>
      if sent then
        some { socket.record (some userId) message with
          phase := resume userId events awaitingPong rest }
      else some socket.close
    | _ => none
  | .heartbeat sent =>
    match socket.phase with
    | .listening userId events awaitingPong =>
      if awaitingPong || !sent then some socket.close
      else some { socket with phase := .listening userId events true }
    | _ => none
  | .expire sent =>
    match socket.phase with
    | .listening userId _ _ => some (socket.closeWith (some userId) sent "Access token expired")
    | _ => none

end EventSocket

/-- One client's socket from its upgrade on, and everyone who publishes meanwhile. -/
def eventSystem (hub : Broadcast SocialEvent eventCapacity)
    (validateAccessToken : String → Option Uuid) : System (EventSocket hub) Action where
  init := ⟨hub.new, .connecting, []⟩
  step socket := socket.step validateAccessToken

end Step

end OpenMeet.SocialEvents
