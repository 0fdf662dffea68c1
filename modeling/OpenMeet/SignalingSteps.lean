import OpenMeet.SignalingServer

/-!
The steps of the signaling server. Each function runs one task over one await
and answers none when the task is not there or the step cannot happen: a query
answer the database could not give, or a room lock somebody else holds. An HTTP
request that evicts a user or closes a room runs to its end; one that is dropped
midway is left out.
-/
namespace OpenMeet.SignalingSteps

open KeyedMap Text Messages RoomState Repository SignalingServer TransitionSystem

variable (env : Environment) (s : Server)

/-! ## The receive task -/

/-- A socket opens. The session's identity is decided before any room operation. -/
def connect (p : ParticipantId) (identity : SessionIdentity) : Option Server :=
  match s.socketTask p with
  | .unopened =>
    some { s with
      identity := Function.update s.identity p identity
      recvTask := Function.update s.recvTask p .receiving
      socketTask := Function.update s.socketTask p .selecting }
  | _ => none

/-- A room message reaches the room the connection joined, if it joined one. -/
def request (p : ParticipantId) (message : RoomRequest) : Server :=
  match s.currentRoomId p with
  | some roomId => s.setRecv p (.findingRoom roomId message)
  | none => s

/-- The receive task takes the next message. Offers, answers and ICE candidates change no
participant and belong to the media model. -/
def receive (p : ParticipantId) (message : SignalingMessage) : Option Server :=
  match s.recvTask p with
  | .receiving =>
    match message with
    | .authenticate _ _ =>
      some ((s.send p (.error "Session identity already decided")).setRecv p .stopped)
    | .authenticated _ _ => some (s.refuse p "Invalid signaling direction")
    | .join roomId participantName password screenShareOf =>
      match s.currentRoomId p with
      | some _ => some s
      | none =>
        let name := trim (((s.identity p).displayName).getD participantName)
        if name = "" ∨ 80 < charCount name then
          some (s.refuse p "Participant name must be between 1 and 80 characters")
        else
          some (s.setRecv p (.authorizing
            { roomId := roomId, name := name, password := password,
              screenShareOf := screenShareOf }))
    | .mediaStateChanged _ audioEnabled videoEnabled =>
      some (request s p (.mediaStateChanged audioEnabled videoEnabled))
    | .chatMessage _ _ _ message _ replyToId _ _ =>
      some (request s p (.chatMessage message replyToId))
    | .chatReaction messageId emoji =>
      match validateReaction env.isAlphanumeric emoji with
      | .ok emoji => some (request s p (.chatReaction messageId emoji))
      | .error _ => some s
    | _ => some s
  | _ => none

/-- The answers the authorization query can give: a call-session room is never taken for a
legacy one, and membership that has been removed authorizes nobody. -/
def answerPossible (p : ParticipantId) (roomId : RoomId)
    (answer : SfuRoomAuthorizationSnapshot) : Bool :=
  (!env.isCallRoom roomId || answer.isRevoked || answer.isCallSessionRoom) &&
    (!answer.isAuthorized ||
      (s.identity p).userId.any fun userId => (userId, roomId) ∉ s.removedMembers)

/-- The authorization query, where none stands for a failed query. -/
def authorizeSfuRoom (p : ParticipantId) (roomId : RoomId)
    (answer : Option SfuRoomAuthorizationSnapshot) : Option (Option SfuRoomAuthorization) :=
  match answer with
  | none => some none
  | some answer =>
    if answerPossible env s p roomId answer then
      some (some (classifySfuRoomAuthorization answer.isRevoked answer.isCallSessionRoom
        (s.identity p).userId answer.isAuthorized))
    else none

def authorize (p : ParticipantId) (answer : Option SfuRoomAuthorizationSnapshot) :
    Option Server :=
  match s.recvTask p with
  | .authorizing req =>
    match authorizeSfuRoom env s p req.roomId answer with
    | none => none
    | some none => some (s.refuse p "Unable to authorize call session")
    | some (some .denied) => some (s.refuse p "Call session access denied")
    | some (some .legacy) => some (s.setRecv p (.admitting req))
    | some (some .authorized) => some (s.setRecv p (.checkingRoom req .authorized))
  | _ => none

/-- The meeting-room policy check of a legacy room. -/
def admitToMeetingRoom (p : ParticipantId) (answer : Option MeetingRoomAdmission) : Option Server :=
  match s.recvTask p with
  | .admitting req =>
    match answer with
    | none => some (s.refuse p "Unable to authorize meeting")
    | some .allowed => some (s.setRecv p (.checkingRoom req .legacy))
    | some admission => some (s.refuse p admission.message)
  | _ => none

def checkRoom (p : ParticipantId) : Option Server :=
  match s.recvTask p with
  | .checkingRoom req authorization =>
    if s.repository.roomExists req.roomId then some (s.setRecv p (.gettingRoom req authorization))
    else some (s.setRecv p (.creatingRoom req authorization))
  | _ => none

def createRoom (p : ParticipantId) : Option Server :=
  match s.recvTask p with
  | .creatingRoom req authorization =>
    match s.repository.createRoom req.roomId with
    | .error e => some (s.refuse p s!"Failed to create room: {e}")
    | .ok repository =>
      some ({ s with repository := repository }.setRecv p (.gettingRoom req authorization))
  | _ => none

def getRoom (p : ParticipantId) : Option Server :=
  match s.recvTask p with
  | .gettingRoom req authorization =>
    match s.repository.getRoom req.roomId with
    | none => some (s.refuse p "Room not found")
    | some ref =>
      if authorization = .authorized then some (s.setRecv p (.reauthorizing req ref))
      else some (s.setRecv p (.lockingRoom req ref))
  | _ => none

/-- The second authorization of a managed room, just before its lock is taken. -/
def reauthorize (p : ParticipantId) (answer : Option SfuRoomAuthorizationSnapshot) :
    Option Server :=
  match s.recvTask p with
  | .reauthorizing req ref =>
    match authorizeSfuRoom env s p req.roomId answer with
    | none => none
    | some none => some (s.refuse p "Unable to authorize call session")
    | some (some .authorized) => some (s.setRecv p (.lockingRoom req ref))
    | some (some _) => some (s.refuse p "Call session access denied")
  | _ => none

/-- A screen share belongs to a presenter in this room, signed in as the same user. -/
def ownerPresent (room : Room) (userId : Option Uuid) (ownerId : ParticipantId) : Bool :=
  (room.participants.lookup ownerId).any fun owner =>
    owner.participant.screenShareOf.isNone && owner.participant.userId = userId

/-- Take the room's write lock, check the access markers and the presenter of a screen share,
and read what the new participant will be told. The lock stays held during peer setup. -/
def lockRoom (p : ParticipantId) : Option Server :=
  match s.recvTask p with
  | .lockingRoom req ref =>
    match s.writer ref with
    | some _ => none
    | none =>
      let room := s.room ref
      if room.deniesAccess (s.identity p).userId then
        some (s.refuse p "Call session access denied")
      else if !req.screenShareOf.all (ownerPresent room (s.identity p).userId) then
        some (s.refuse p "Screen share presenter is not in this meeting")
      else
        some ((s.setWriter ref (some p)).setRecv p
          (.settingUpPeer req ref room.getParticipantsWithMediaState room.chatHistory))
  | _ => none

/-- One existing participant as the new one is told about it: first that it joined, then its
media state unless both are on. -/
def existingMessages (info : Room.ParticipantInfo) : List SignalingMessage :=
  .participantJoined info.id info.name info.screenShareOf ::
    if !info.audioEnabled || !info.videoEnabled then
      [.mediaStateChanged info.id info.audioEnabled info.videoEnabled]
    else []

def joinedMessages (p : ParticipantId) (name : String) (existing : List Room.ParticipantInfo)
    (history : List ChatMessagePayload) : List SignalingMessage :=
  .joined p name :: .chatHistory history :: existing.flatMap existingMessages

def newConnection (p : ParticipantId) (userId : Option Uuid) (req : JoinRequest) :
    ParticipantConnection where
  participant :=
    { Participant.new p req.name with userId := userId, screenShareOf := req.screenShareOf }
  peerConnection := some { participantId := p }

/-- Add the participant, tell the recorder unless it is a screen share, tell the others, and
queue what the participant itself is told. -/
@[simp] def addToRoom (p : ParticipantId) (req : JoinRequest) (ref : RoomRef)
    (existing : List Room.ParticipantInfo) (history : List ChatMessagePayload) : Server :=
  let userId := (s.identity p).userId
  let added := (s.room ref).addParticipant (newConnection p userId req)
  { s with
    repository := s.repository.setRoom ref added.1 (Room.addParticipant_id ..)
    writer := Function.update s.writer ref none
    meetingEvents := s.meetingEvents ++
      if req.screenShareOf.isNone then [.joined req.roomId p userId req.name] else []
    currentRoomId := Function.update s.currentRoomId p (some req.roomId)
    participantName := Function.update s.participantName p (some req.name)
    sent := Function.update (fun q => s.queue q (messagesTo q added.2)) p
      (s.queue p (messagesTo p added.2 ++ joinedMessages p req.name existing history))
    recvTask := Function.update s.recvTask p .receiving }

/-- Peer setup ends and the lock is released: with an error, with access denied by a marker
set meanwhile, or with the participant in the room. -/
def finishJoin (p : ParticipantId) (peer : Except String Unit) : Option Server :=
  match s.recvTask p with
  | .settingUpPeer req ref existing history =>
    match peer with
    | .error e => some ((s.setWriter ref none).refuse p s!"Failed to create peer connection: {e}")
    | .ok _ =>
      if (s.room ref).deniesAccess (s.identity p).userId then
        some ((s.setWriter ref none).refuse p "Call session access denied")
      else some (addToRoom s p req ref existing history)
  | _ => none

def findRoom (p : ParticipantId) : Option Server :=
  match s.recvTask p with
  | .findingRoom roomId message =>
    match s.repository.getRoom roomId with
    | none => some (s.setRecv p .receiving)
    | some ref => some (s.setRecv p (.lockingFor roomId message ref))
  | _ => none

def chatRateLimit : Nat := 10
def chatRateWindow : Nat := 5 * 1000000000

/-- Per-connection limit on chat messages and reactions within a sliding window. -/
def allowSenderChatAction (recent : List Instant) (now : Instant) : Bool × List Instant :=
  let recent := recent.dropWhile fun sentAt => decide (chatRateWindow ≤ now - sentAt)
  if chatRateLimit ≤ recent.length then (false, recent) else (true, recent ++ [now])

/-- The body of a chat message under the room lock: the room and sender budgets left behind,
and the messages queued. -/
def postChatMessage (room : Room) (p : ParticipantId) (name : Option String)
    (recent : List Instant) (now timestamp : Nat) (message : String) (replyToId : Option Nat) :
    Room × List Instant × Outbox :=
  let message := trim message
  if message = "" ∨ 2000 < charCount message then (room, recent, [])
  else
    let sender := allowSenderChatAction recent now
    if !sender.1 then (room, sender.2, [])
    else
      let allowed := room.allowChatMessage now
      if !allowed.1 then (allowed.2, sender.2, [])
      else
        let recorded := allowed.2.recordChatMessage
          { participantId := p
            participantName := name.getD "Unknown"
            message := message
            timestamp := timestamp
            replyTo := replyToId.bind allowed.2.chatReplyPreview }
        (recorded.1, sender.2, recorded.1.broadcast recorded.2.intoSignalingMessage)

def postReaction (room : Room) (p : ParticipantId) (recent : List Instant) (now : Nat)
    (messageId : Nat) (emoji : String) : Room × List Instant × Outbox :=
  let sender := allowSenderChatAction recent now
  if !sender.1 then (room, sender.2, [])
  else
    match room.toggleChatReaction messageId p emoji with
    | none => (room, sender.2, [])
    | some (room, reactions) =>
      (room, sender.2, room.broadcast (.chatReactionsChanged messageId reactions))

def runRequest (room : Room) (p : ParticipantId) (name : Option String) (recent : List Instant)
    (now timestamp : Nat) : RoomRequest → Room × List Instant × Outbox
  | .mediaStateChanged audioEnabled videoEnabled =>
    let room := room.setMediaState p audioEnabled videoEnabled
    (room, recent, room.broadcastExcept p (.mediaStateChanged p audioEnabled videoEnabled))
  | .chatMessage message replyToId =>
    postChatMessage room p name recent now timestamp message replyToId
  | .chatReaction messageId emoji => postReaction room p recent now messageId emoji

/-- A chat post changes the room's chat and nothing else. -/
theorem postChatMessage_frame (room : Room) (p : ParticipantId) (name : Option String)
    (recent : List Instant) (now timestamp : Nat) (message : String) (replyToId : Option Nat) :
    let after := (postChatMessage room p name recent now timestamp message replyToId).1
    after.id = room.id ∧ after.participants = room.participants ∧
      after.revoked = room.revoked ∧ after.deniedUserIds = room.deniedUserIds := by
  have hallow : let after := (room.allowChatMessage now).2
      after.id = room.id ∧ after.participants = room.participants ∧
        after.revoked = room.revoked ∧ after.deniedUserIds = room.deniedUserIds := by
    unfold Room.allowChatMessage
    dsimp only
    split <;> simp
  simp only [postChatMessage]
  split
  · simp
  · split
    · simp
    · split
      · exact hallow
      · exact hallow

/-- A reaction changes the room's chat and nothing else. -/
theorem postReaction_frame (room : Room) (p : ParticipantId) (recent : List Instant)
    (now messageId : Nat) (emoji : String) :
    let after := (postReaction room p recent now messageId emoji).1
    after.id = room.id ∧ after.participants = room.participants ∧
      after.revoked = room.revoked ∧ after.deniedUserIds = room.deniedUserIds := by
  simp only [postReaction]
  split
  · simp
  · split
    · simp
    · rename_i after reactions h
      simp only [Room.toggleChatReaction, Option.bind_eq_some_iff, Option.map_eq_some_iff,
        Prod.mk.injEq] at h
      obtain ⟨_, _, _, _, rfl, _⟩ := h
      simp

/-- A room message leaves every connection in place, with its identity. -/
theorem lookup_runRequest {room : Room} {p : ParticipantId} {name : Option String}
    {recent : List Instant} {now timestamp : Nat} {message : RoomRequest} {q : ParticipantId}
    {after : ParticipantConnection}
    (h : (runRequest room p name recent now timestamp message).1.participants.lookup q =
      some after) :
    ∃ before, room.participants.lookup q = some before ∧
      after.participant.id = before.participant.id ∧
      after.participant.userId = before.participant.userId ∧
      after.participant.screenShareOf = before.participant.screenShareOf := by
  cases message with
  | mediaStateChanged audioEnabled videoEnabled =>
    simp only [runRequest, Room.setMediaState, Map.lookup_modify] at h
    split at h
    · obtain ⟨before, hbefore, rfl⟩ := Option.map_eq_some_iff.mp h
      exact ⟨before, hbefore, rfl, rfl, rfl⟩
    · exact ⟨after, h, rfl, rfl, rfl⟩
  | chatMessage message replyToId =>
    rw [runRequest, (postChatMessage_frame ..).2.1] at h
    exact ⟨after, h, rfl, rfl, rfl⟩
  | chatReaction messageId emoji =>
    rw [runRequest, (postReaction_frame ..).2.1] at h
    exact ⟨after, h, rfl, rfl, rfl⟩

theorem runRequest_frame (room : Room) (p : ParticipantId) (name : Option String)
    (recent : List Instant) (now timestamp : Nat) (message : RoomRequest) :
    let after := (runRequest room p name recent now timestamp message).1
    after.id = room.id ∧ after.participants.keys = room.participants.keys ∧
      after.revoked = room.revoked ∧ after.deniedUserIds = room.deniedUserIds := by
  cases message with
  | mediaStateChanged audioEnabled videoEnabled =>
    exact ⟨rfl, Map.keys_modify _ _ _, rfl, rfl⟩
  | chatMessage message replyToId =>
    obtain ⟨hid, hparticipants, hmarkers⟩ :=
      postChatMessage_frame room p name recent now timestamp message replyToId
    simp only [runRequest, hid, hparticipants, hmarkers, and_self]
  | chatReaction messageId emoji =>
    obtain ⟨hid, hparticipants, hmarkers⟩ :=
      postReaction_frame room p recent now messageId emoji
    simp only [runRequest, hid, hparticipants, hmarkers, and_self]

/-- Take the room's write lock for a room message and handle it, unless the participant is
not active in that room. -/
def applyRequest (p : ParticipantId) (now timestamp : Nat) : Option Server :=
  match s.recvTask p with
  | .lockingFor _ message ref =>
    match s.writer ref with
    | some _ => none
    | none =>
      if !(s.room ref).hasActiveParticipant p (s.identity p).userId then
        some (s.setRecv p .receiving)
      else
        let result := runRequest (s.room ref) p (s.participantName p) (s.recentChatActions p)
          now timestamp message
        let t := (s.setRoom ref result.1 (runRequest_frame ..).1).deliver result.2.2
        some ({ t with
          recentChatActions := Function.update t.recentChatActions p result.2.1 }.setRecv p
            .receiving)
  | _ => none

/-- The client closed the socket or broke the protocol; the receive loop ends by itself. -/
def stopReceiving (p : ParticipantId) : Option Server :=
  match s.recvTask p with
  | .receiving => some (s.setRecv p .stopped)
  | _ => none

/-- A requested abort takes effect at an await where the task is suspended. A held room lock
is released with the task. -/
def abortReceiver (p : ParticipantId) : Option Server :=
  if s.aborted p then
    match s.recvTask p with
    | .stopped => none
    | .settingUpPeer _ ref _ _ => some ((s.setWriter ref none).setRecv p .stopped)
    | _ => some (s.setRecv p .stopped)
  else none

/-! ## The socket task -/

/-- The next room to search for the participant, or the end of the search. -/
def nextRoom : List RoomId → SocketTask
  | [] => .leaving
  | roomId :: rest => .findingRoom roomId rest

/-- The send task ends, since a write to the socket fails or times out, or since nobody can queue
anything any more. -/
def endSender (p : ParticipantId) : Option Server :=
  match s.socketTask p with
  | .unopened => none
  | _ =>
    if s.senderEnded p then none
    else some { s with senderEnded := Function.update s.senderEnded p true }

/-- The send task finished first: abort the receive task and search every room. -/
def selectSender (p : ParticipantId) : Option Server :=
  match s.socketTask p, s.senderEnded p with
  | .selecting, true =>
    some ({ s with aborted := Function.update s.aborted p true }.setSocket p .listingRooms)
  | _, _ => none

/-- The receive task finished first: search the room it joined, if it joined one. -/
def selectReceiver (p : ParticipantId) : Option Server :=
  match s.socketTask p, s.recvTask p with
  | .selecting, .stopped => some (s.setSocket p (nextRoom (s.currentRoomId p).toList))
  | _, _ => none

def listRooms (p : ParticipantId) : Option Server :=
  match s.socketTask p with
  | .listingRooms => some (s.setSocket p (nextRoom s.repository.listRooms))
  | _ => none

def findForCleanup (p : ParticipantId) : Option Server :=
  match s.socketTask p with
  | .findingRoom roomId rest =>
    match s.repository.getRoom roomId with
    | none => some (s.setSocket p (nextRoom rest))
    | some ref => some (s.setSocket p (.lockingRoom roomId ref rest))
  | _ => none

/-- Under the write lock, remove the participant and its screen shares if it is there. The
lock is released before an emptied room is deleted. -/
def cleanUp (p : ParticipantId) : Option Server :=
  match s.socketTask p with
  | .lockingRoom roomId ref rest =>
    match s.writer ref with
    | some _ => none
    | none =>
      if p ∈ (s.room ref).participants then
        let removed := (s.room ref).removeWithScreenShares p
        let t := (s.setRoom ref removed.1 (Room.removeWithScreenShares_id ..)).deliver removed.2
        if removed.1.isEmpty then some (t.setSocket p (.deletingRoom roomId))
        else some (t.setSocket p .leaving)
      else some (s.setSocket p (nextRoom rest))
  | _ => none

def deleteRoom (p : ParticipantId) : Option Server :=
  match s.socketTask p with
  | .deletingRoom roomId =>
    some ({ s with repository := s.repository.deleteRoom roomId }.setSocket p .leaving)
  | _ => none

/-- Every exit path of the socket task ends here. -/
def leave (p : ParticipantId) : Option Server :=
  match s.socketTask p with
  | .leaving => some ((s.record (.left p)).setSocket p .closed)
  | _ => none

/-! ## Evictions and closures -/

/-- A transaction removes a user's membership of the calls in the given rooms, and its
request goes on to disconnect the user from them. -/
def commitRemoval (i : Nat) (userId : Uuid) (roomIds : List RoomId) : Option Server :=
  match s.evictions i with
  | some _ => none
  | none =>
    if roomIds.Nodup ∧ roomIds.all env.isCallRoom then
      some ({ s with
        removedMembers := s.removedMembers ∪ {userId} ×ˢ roomIds.toFinset }.setEviction i
          { userId := userId, roomIds := roomIds, committedAt := s.repository.nextRef,
            stage := .denying roomIds })
    else none

/-- Look up the next room whose denial marker is to be set. -/
def denyRoomUser (i : Nat) : Option Server :=
  match s.evictions i with
  | some e =>
    match e.stage with
    | .denying [] => some (s.setEviction i { e with stage := .returned })
    | .denying (roomId :: rest) =>
      match s.repository.getRoom roomId with
      | none => some (s.setEviction i { e with stage := .finding roomId rest })
      | some ref => some (s.setEviction i { e with stage := .marking roomId ref rest })
    | _ => none
  | none => none

/-- Set the marker; it is shared with the room and needs no room lock. -/
def markDenied (i : Nat) : Option Server :=
  match s.evictions i with
  | some e =>
    match e.stage with
    | .marking roomId ref rest =>
      some ((s.setRoom ref ((s.room ref).denyUser e.userId) (Room.denyUser_id ..)).setEviction i
        { e with stage := .finding roomId rest })
    | _ => none
  | none => none

def findForEviction (i : Nat) : Option Server :=
  match s.evictions i with
  | some e =>
    match e.stage with
    | .finding roomId rest =>
      match s.repository.getRoom roomId with
      | none => some (s.setEviction i { e with stage := .denying rest })
      | some ref => some (s.setEviction i { e with stage := .evicting roomId ref rest })
    | _ => none
  | none => none

/-- Under the write lock, remove every participant of the user. -/
def evict (i : Nat) : Option Server :=
  match s.evictions i with
  | some e =>
    match e.stage with
    | .evicting _ ref rest =>
      match s.writer ref with
      | some _ => none
      | none =>
        let removed := (s.room ref).removeParticipants ((s.room ref).participantsOfUser e.userId)
        some (((s.setRoom ref removed.1 (Room.removeParticipants_id ..)).deliver
          removed.2).setEviction i { e with stage := .denying rest })
    | _ => none
  | none => none

def startClosure (i : Nat) (roomIds : List RoomId) : Option Server :=
  match s.closures i with
  | some _ => none
  | none =>
    if roomIds.Nodup then
      some (s.setClosure i { roomIds := roomIds, unmapped := [], stage := .revoking roomIds })
    else none

def revokeRoom (i : Nat) : Option Server :=
  match s.closures i with
  | some c =>
    match c.stage with
    | .revoking [] => some (s.setClosure i { c with stage := .returned })
    | .revoking (roomId :: rest) =>
      let revoked := s.repository.revokeRoom roomId
      let t := { s with repository := revoked.1 }
      match revoked.2 with
      | none => some (t.setClosure i { c with stage := .revoking rest })
      | some ref =>
        some (t.setClosure i
          { c with unmapped := c.unmapped ++ [ref], stage := .closing ref rest })
    | _ => none
  | none => none

/-- Under the write lock, remove everybody from a revoked room. -/
def closeRoom (i : Nat) : Option Server :=
  match s.closures i with
  | some c =>
    match c.stage with
    | .closing ref rest =>
      match s.writer ref with
      | some _ => none
      | none =>
        let removed := (s.room ref).removeParticipants (s.room ref).participants.keys
        some (((s.setRoom ref removed.1 (Room.removeParticipants_id ..)).deliver
          removed.2).setClosure i { c with stage := .revoking rest })
    | _ => none
  | none => none

inductive Action
  | connect (p : ParticipantId) (identity : SessionIdentity)
  | receive (p : ParticipantId) (message : SignalingMessage)
  | authorize (p : ParticipantId) (answer : Option SfuRoomAuthorizationSnapshot)
  | admitToMeetingRoom (p : ParticipantId) (answer : Option MeetingRoomAdmission)
  | checkRoom (p : ParticipantId)
  | createRoom (p : ParticipantId)
  | getRoom (p : ParticipantId)
  | reauthorize (p : ParticipantId) (answer : Option SfuRoomAuthorizationSnapshot)
  | lockRoom (p : ParticipantId)
  | finishJoin (p : ParticipantId) (peer : Except String Unit)
  | findRoom (p : ParticipantId)
  | applyRequest (p : ParticipantId) (now timestamp : Nat)
  | stopReceiving (p : ParticipantId)
  | abortReceiver (p : ParticipantId)
  | endSender (p : ParticipantId)
  | selectSender (p : ParticipantId)
  | selectReceiver (p : ParticipantId)
  | listRooms (p : ParticipantId)
  | findForCleanup (p : ParticipantId)
  | cleanUp (p : ParticipantId)
  | deleteRoom (p : ParticipantId)
  | leave (p : ParticipantId)
  | commitRemoval (i : Nat) (userId : Uuid) (roomIds : List RoomId)
  | denyRoomUser (i : Nat)
  | markDenied (i : Nat)
  | findForEviction (i : Nat)
  | evict (i : Nat)
  | startClosure (i : Nat) (roomIds : List RoomId)
  | revokeRoom (i : Nat)
  | closeRoom (i : Nat)

def step : Action → Option Server
  | .connect p identity => connect s p identity
  | .receive p message => receive env s p message
  | .authorize p answer => authorize env s p answer
  | .admitToMeetingRoom p answer => admitToMeetingRoom s p answer
  | .checkRoom p => checkRoom s p
  | .createRoom p => createRoom s p
  | .getRoom p => getRoom s p
  | .reauthorize p answer => reauthorize env s p answer
  | .lockRoom p => lockRoom s p
  | .finishJoin p peer => finishJoin s p peer
  | .findRoom p => findRoom s p
  | .applyRequest p now timestamp => applyRequest s p now timestamp
  | .stopReceiving p => stopReceiving s p
  | .abortReceiver p => abortReceiver s p
  | .endSender p => endSender s p
  | .selectSender p => selectSender s p
  | .selectReceiver p => selectReceiver s p
  | .listRooms p => listRooms s p
  | .findForCleanup p => findForCleanup s p
  | .cleanUp p => cleanUp s p
  | .deleteRoom p => deleteRoom s p
  | .leave p => leave s p
  | .commitRemoval i userId roomIds => commitRemoval env s i userId roomIds
  | .denyRoomUser i => denyRoomUser s i
  | .markDenied i => markDenied s i
  | .findForEviction i => findForEviction s i
  | .evict i => evict s i
  | .startClosure i roomIds => startClosure s i roomIds
  | .revokeRoom i => revokeRoom s i
  | .closeRoom i => closeRoom s i

/-- The signaling server from start-up, with any number of connections, evictions and closures. -/
def system : System Server Action where
  init := Server.initial
  step := step env

end OpenMeet.SignalingSteps
