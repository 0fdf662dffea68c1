import OpenMeet.LockOrder
import OpenMeet.MediaTasks
import OpenMeet.SignalingSteps

/-!
The code of the SFU between its locks: the handlers of client messages, the
tasks they spawn, arriving tracks, removals, and the cleanup after sockets and
group changes. Calls of WebRTC, the database and channels have whatever outcome
is chosen outside, and a hash map is walked in an order chosen outside. A room
and a peer connection are named by references, as tasks keep them after they
are gone from the directory. What a message is checked for before any lock is
taken, and what is sent, is left to the models of signaling and of media.
-/
namespace OpenMeet.SfuTasks

open KeyedMap Messages RoomState Repository SignalingServer SignalingSteps MediaTasks LockOrder

abbrev PeerRef := Nat

/-- The maps of a room that have a lock of their own. -/
inductive RoomMap
  | forwardedTracks
  | forwardedSenders
  | pendingNegotiatedTracks
  | negotiatedTracks
  deriving DecidableEq

inductive SfuLock
  | repository
  | room (ref : RoomRef)
  | peerConnection (peer : PeerRef)
  | map (ref : RoomRef) (map : RoomMap)
  deriving DecidableEq

/-- The connections map the participants of each room to their peer connections. -/
structure Sfu where
  repository : InMemoryRoomRepository
  connections : RoomRef → Map ParticipantId PeerRef
  nextPeer : PeerRef

/-- The connection a client message came in on, and the room it has joined. -/
structure Client where
  participantId : ParticipantId
  roomId : RoomId
  userId : Option Uuid
  deriving DecidableEq

inductive SfuTask
  | join (client : Client) (req : JoinRequest)
  | offer (client : Client)
  | lateJoiner (client : Client) (ref : RoomRef) (peer : PeerRef) (existing : List Forward)
  | answer (client : Client)
  | retry (client : Client) (ref : RoomRef) (peer : PeerRef)
  | iceCandidate (client : Client)
  | roomRequest (client : Client) (name : Option String) (recent : List Instant)
      (now timestamp : Nat) (request : RoomRequest)
  | incomingTrack (client : Client) (ref : RoomRef) (track : TrackRemote)
  | renegotiation (ref : RoomRef) (peer : PeerRef) (receiverId : ParticipantId) (trackId : TrackId)
  | retirement (peer : PeerRef)
  | cleanup (knownRoomId : Option RoomId) (participantId : ParticipantId)
  | eviction (userId : Uuid) (roomIds : List RoomId)
  | closure (roomIds : List RoomId)

abbrev SfuProgram := Program Sfu SfuLock SfuTask

open Program

/-! ## Accesses -/

/-- Whether a call outside succeeds. -/
def succeeds : SfuProgram Bool := choose fun n => done (n = 0)

def createOfferIfStable : SfuProgram OfferResult :=
  choose fun n => done (if n = 0 then .created else if n = 1 then .collision else .failed)

def readRoom {α : Type} (ref : RoomRef) (f : Room → α) : SfuProgram α :=
  read fun s => f (s.repository.objects ref)

def testRoom (ref : RoomRef) (p : Room → Bool) : SfuProgram Bool := readRoom ref p

def writeRoom (ref : RoomRef) (f : Room → Room) (hf : ∀ room, (f room).id = room.id) :
    SfuProgram Unit :=
  write fun s => { s with
    repository := s.repository.setRoom ref (f (s.repository.objects ref)) (hf _) }

def getPeerConnection (ref : RoomRef) (participantId : ParticipantId) :
    SfuProgram (Option PeerRef) :=
  read fun s => if (s.repository.objects ref).hasPeerConnection participantId then
    (s.connections ref).lookup participantId else none

/-! ## The repository -/

def getRoom (roomId : RoomId) : SfuProgram (Option RoomRef) :=
  withLock .repository .shared (read fun s => s.repository.getRoom roomId)

def roomExists (roomId : RoomId) : SfuProgram Bool :=
  withLock .repository .shared (read fun s => s.repository.roomExists roomId)

def listRooms : SfuProgram (List RoomId) :=
  withLock .repository .shared (read fun s => s.repository.listRooms)

/-- False if the room is revoked or exists already. -/
def createRoom (roomId : RoomId) : SfuProgram Bool :=
  withLock .repository .exclusive
    (access (fun s => { s with
        repository := (s.repository.createRoom roomId).toOption.getD s.repository })
      fun s => done (s.repository.createRoom roomId).toOption.isSome)

def deleteRoom (roomId : RoomId) : SfuProgram Unit :=
  withLock .repository .exclusive
    (write fun s => { s with repository := s.repository.deleteRoom roomId })

def revokeRoom (roomId : RoomId) : SfuProgram (Option RoomRef) :=
  withLock .repository .exclusive
    (access (fun s => { s with repository := (s.repository.revokeRoom roomId).1 })
      fun s => done (s.repository.revokeRoom roomId).2)

/-- The mark is set without the room's lock. -/
def denyRoomUser (roomId : RoomId) (userId : Uuid) : SfuProgram Unit := do
  match ← getRoom roomId with
  | none => pure ()
  | some ref => writeRoom ref (·.denyUser userId) fun _ => rfl

/-! ## Removals -/

/-- Take the senders of a source from every receiver, whose connection is left to a task. -/
def retireSendersFrom (ref : RoomRef) (sourceId : ParticipantId) : SfuProgram Unit := do
  let stale ← withLock (.map ref .forwardedSenders) .exclusive do
    let stale ← readRoom ref (·.staleReceivers sourceId)
    writeRoom ref (·.retireSendersFrom sourceId) fun _ => rfl
    pure stale
  inSomeOrder stale <| forEach fun receiverId => do
    match ← getPeerConnection ref receiverId with
    | none => pure ()
    | some peer => start (.retirement peer)

def closePeerConnection : Option PeerRef → SfuProgram Unit
  | none => pure ()
  | some peer => do
    let _ ← withLock (.peerConnection peer) .exclusive succeeds

def removeParticipant (ref : RoomRef) (participantId : ParticipantId) : SfuProgram Unit := do
  if ← testRoom ref (participantId ∈ ·.participants) then
    let peer ← getPeerConnection ref participantId
    writeRoom ref (fun room => { room with participants := room.participants.erase participantId })
      fun _ => rfl
    closePeerConnection peer
    let removed ← readRoom ref (·.trackIdsOf participantId)
    writeRoom ref (·.removeParticipantTracks participantId) fun _ => rfl
    withLock (.map ref .negotiatedTracks) .exclusive
      (writeRoom ref (·.clearNegotiated participantId removed) fun _ => rfl)
    withLock (.map ref .pendingNegotiatedTracks) .exclusive
      (writeRoom ref (·.clearPending participantId removed) fun _ => rfl)
    withLock (.map ref .forwardedTracks) .exclusive
      (writeRoom ref (·.clearForwarded participantId removed) fun _ => rfl)
    retireSendersFrom ref participantId

/-- Offer again after a collision, a few times. -/
def offerUntilStable (peer : PeerRef) : Nat → SfuProgram OfferResult
  | 0 => pure .collision
  | attempts + 1 => do
    let result ← withLock (.peerConnection peer) .exclusive createOfferIfStable
    if result = .collision then offerUntilStable peer attempts else pure result

/-- Senders are removed and transceivers stopped under the connection's lock, and then offered. -/
def retireForwardedSenders (peer : PeerRef) : SfuProgram Unit := do
  let _ ← withLock (.peerConnection peer) .exclusive succeeds
  let _ ← offerUntilStable peer offerAttempts

/-! ## Forwarding -/

def trackIsNegotiatedOrPending (ref : RoomRef) (participantId : ParticipantId)
    (trackId : TrackId) : SfuProgram Bool := do
  if ← withLock (.map ref .negotiatedTracks) .shared
      (testRoom ref fun room => trackId ∈ room.negotiatedTracks.setAt participantId) then
    pure true
  else
    withLock (.map ref .pendingNegotiatedTracks) .shared
      (testRoom ref fun room => trackId ∈ room.pendingNegotiatedTracks.setAt participantId)

def reserveForwardedTrack (ref : RoomRef) (participantId : ParticipantId) (trackId : TrackId) :
    SfuProgram Bool :=
  withLock (.map ref .forwardedTracks) .exclusive do
    let reserved ← readRoom ref fun room =>
      (Room.reserveForwardedTrack room.forwardedTracks participantId trackId).1
    writeRoom ref (·.reserve participantId trackId) fun _ => rfl
    pure reserved

def releaseForwardedTrack (ref : RoomRef) (participantId : ParticipantId) (trackId : TrackId) :
    SfuProgram Unit :=
  withLock (.map ref .forwardedTracks) .exclusive
    (writeRoom ref (·.release participantId trackId) fun _ => rfl)

def recordForwardedSender (ref : RoomRef) (receiverId : ParticipantId) (f : Forward) :
    SfuProgram Unit :=
  withLock (.map ref .forwardedSenders) .exclusive
    (writeRoom ref (·.recordForwardedSender receiverId f.source { trackId := f.track })
      fun _ => rfl)

def markPending (ref : RoomRef) (receiverId : ParticipantId) (trackIds : List TrackId) :
    SfuProgram Unit :=
  withLock (.map ref .pendingNegotiatedTracks) .exclusive
    (writeRoom ref (·.markPending receiverId trackIds) fun _ => rfl)

def renegotiate (ref : RoomRef) (peer : PeerRef) (receiverId : ParticipantId) (trackId : TrackId) :
    Nat → SfuProgram Unit
  | 0 => pure ()
  | attempts + 1 => do
    if ← trackIsNegotiatedOrPending ref receiverId trackId then pure ()
    else
      match ← withLock (.peerConnection peer) .exclusive createOfferIfStable with
      | .collision => renegotiate ref peer receiverId trackId attempts
      | .failed => pure ()
      | .created => if ← succeeds then markPending ref receiverId [trackId]

/-- The loop's body. A sender without an encoding leaves the reservation behind. -/
def forwardTrackTo (ref : RoomRef) (f : Forward) (receiverId : ParticipantId) :
    SfuProgram Unit := do
  match ← getPeerConnection ref receiverId with
  | none => pure ()
  | some peer =>
    if ← reserveForwardedTrack ref receiverId f.track then
      withLock (.peerConnection peer) .exclusive do
        if ← succeeds then
          if ← succeeds then
            recordForwardedSender ref receiverId f
            start (.renegotiation ref peer receiverId f.track)
        else releaseForwardedTrack ref receiverId f.track

def handleIncomingTrack (ref : RoomRef) (participantId : ParticipantId) (track : TrackRemote) :
    SfuProgram Unit := do
  writeRoom ref (·.registerTrack participantId track) fun _ => rfl
  let receivers ← readRoom ref (·.receiversOf participantId)
  inSomeOrder receivers (forEach (forwardTrackTo ref ⟨participantId, track.id⟩))

/-- Subscribe a late joiner to one track; true if it was added. -/
def addExisting (ref : RoomRef) (receiverId : ParticipantId) (f : Forward) :
    SfuProgram Bool := do
  if ← reserveForwardedTrack ref receiverId f.track then
    if ← succeeds then
      recordForwardedSender ref receiverId f
      pure true
    else
      releaseForwardedTrack ref receiverId f.track
      pure false
  else pure false

def addAllExisting (ref : RoomRef) (receiverId : ParticipantId) :
    List Forward → SfuProgram (List Forward)
  | [] => pure []
  | f :: rest => do
    let added ← addExisting ref receiverId f
    let others ← addAllExisting ref receiverId rest
    pure (if added then f :: others else others)

/-! ## Client messages -/

section Messages

variable (client : Client)

def isActive (ref : RoomRef) : SfuProgram Bool :=
  testRoom ref fun room => room.hasActiveParticipant client.participantId client.userId

/-- Under the room's lock, if the client is active in it. -/
def inActiveRoom (mode : Mode) (body : RoomRef → SfuProgram Unit) : SfuProgram Unit := do
  match ← getRoom client.roomId with
  | none => pure ()
  | some ref =>
    withLock (.room ref) mode do
      if ← isActive client ref then body ref

/-- Under the room's read lock and the lock of the client's peer connection. -/
def withPeerConnection (body : RoomRef → PeerRef → SfuProgram Unit) : SfuProgram Unit :=
  inActiveRoom client .shared fun ref => do
    match ← getPeerConnection ref client.participantId with
    | none => pure ()
    | some peer => body ref peer

def offer : SfuProgram Unit :=
  withPeerConnection client fun ref peer =>
    withLock (.peerConnection peer) .exclusive do
      -- the remote description is set and the answer created
      if (← succeeds) && (← succeeds) then
        let existing ← readRoom ref (·.existingTracks client.participantId)
        if existing ≠ [] then start (.lateJoiner client ref peer existing)

def lateJoiner (ref : RoomRef) (peer : PeerRef) (existing : List Forward) : SfuProgram Unit := do
  if ← withLock (.room ref) .shared (isActive client ref) then
    let pendingForwards ← withLock (.peerConnection peer) .exclusive
      (inSomeOrder existing (addAllExisting ref client.participantId))
    if (← offerUntilStable peer offerAttempts) = .created then
      if ← withLock (.room ref) .shared (isActive client ref) then
        if ← succeeds then
          markPending ref client.participantId (pendingForwards.map (·.track))

def answer : SfuProgram Unit :=
  withPeerConnection client fun ref peer => do
    if ← withLock (.peerConnection peer) .exclusive succeeds then start (.retry client ref peer)

/-- What the answered offer carried is negotiated. -/
def promotePending (ref : RoomRef) : SfuProgram Unit := do
  let pending ← withLock (.map ref .pendingNegotiatedTracks) .exclusive do
    let pending ← readRoom ref (·.pendingNegotiatedTracks.setAt client.participantId)
    writeRoom ref (·.takePending client.participantId) fun _ => rfl
    pure pending
  if pending ≠ ∅ then
    withLock (.map ref .negotiatedTracks) .exclusive
      (writeRoom ref (·.extendNegotiated client.participantId pending) fun _ => rfl)

/-- The three maps are read one after the other. -/
def missingTrackIds (ref : RoomRef) : SfuProgram (List TrackId) := do
  let id := client.participantId
  let negotiated ← withLock (.map ref .negotiatedTracks) .shared
    (readRoom ref (·.negotiatedTracks.setAt id))
  let pending ← withLock (.map ref .pendingNegotiatedTracks) .shared
    (readRoom ref (·.pendingNegotiatedTracks.setAt id))
  let forwarded ← withLock (.map ref .forwardedTracks) .shared
    (readRoom ref (·.forwardedTracks.setAt id))
  let all ← readRoom ref fun room => (room.existingTracks id).map (·.track)
  pure (all.filter fun trackId => trackId ∉ negotiated && trackId ∉ pending && trackId ∈ forwarded)

def retry (ref : RoomRef) (peer : PeerRef) : SfuProgram Unit :=
  withLock (.room ref) .shared do
    if ← isActive client ref then
      withLock (.peerConnection peer) .exclusive do
        promotePending client ref
        let missing ← missingTrackIds client ref
        if missing ≠ [] then
          if (← createOfferIfStable) = .created then
            if ← succeeds then markPending ref client.participantId missing

def iceCandidate : SfuProgram Unit :=
  withPeerConnection client fun _ peer => do
    let _ ← withLock (.peerConnection peer) .exclusive succeeds

theorem runRequest_id (room : Room) (p : ParticipantId) (name : Option String)
    (recent : List Instant) (now timestamp : Nat) (request : RoomRequest) :
    (runRequest room p name recent now timestamp request).1.id = room.id := by
  cases request with
  | mediaStateChanged audioEnabled videoEnabled => rfl
  | chatMessage message replyToId => exact (postChatMessage_frame ..).1
  | chatReaction messageId emoji => exact (postReaction_frame ..).1

def roomRequest (name : Option String) (recent : List Instant) (now timestamp : Nat)
    (request : RoomRequest) : SfuProgram Unit :=
  inActiveRoom client .exclusive fun ref =>
    writeRoom ref
      (fun room => (runRequest room client.participantId name recent now timestamp request).1)
      fun _ => runRequest_id ..

def incomingTrack (ref : RoomRef) (track : TrackRemote) : SfuProgram Unit :=
  withLock (.room ref) .exclusive do
    if ← isActive client ref then handleIncomingTrack ref client.participantId track

def newPeerConnection : SfuProgram PeerRef :=
  access (fun s => { s with nextPeer := s.nextPeer + 1 }) fun s => done s.nextPeer

def addParticipant (ref : RoomRef) (peer : PeerRef) (req : JoinRequest) : SfuProgram Unit := do
  let connection := newConnection client.participantId client.userId req
  writeRoom ref (fun room => (room.addParticipant connection).1) fun _ => rfl
  write fun s => { s with
    connections := Function.update s.connections ref
      ((s.connections ref).insert client.participantId peer) }

/-- The participant's connection is set up under the room's lock, and the access markers may be set
meanwhile. -/
def joinRoom (ref : RoomRef) (req : JoinRequest) : SfuProgram Unit :=
  withLock (.room ref) .exclusive do
    if ← testRoom ref (·.deniesAccess client.userId) then pure ()
    else if ← testRoom ref fun room => req.screenShareOf.all (ownerPresent room client.userId) then
      if ← succeeds then
        let peer ← newPeerConnection
        -- the handlers of ICE candidates and of tracks are registered
        withLock (.peerConnection peer) .exclusive (pure ())
        withLock (.peerConnection peer) .exclusive (pure ())
        if ← testRoom ref (·.deniesAccess client.userId) then
          let _ ← withLock (.peerConnection peer) .exclusive succeeds
        else addParticipant client ref peer req

def findOrCreateRoom (roomId : RoomId) : SfuProgram (Option RoomRef) := do
  if ← roomExists roomId then getRoom roomId
  else if ← createRoom roomId then getRoom roomId
  else pure none

def join (req : JoinRequest) : SfuProgram Unit := do
  -- the database authorizes the room
  if ← succeeds then
    match ← findOrCreateRoom req.roomId with
    | none => pure ()
    | some ref => if ← succeeds then joinRoom client ref req

end Messages

/-! ## Cleanup -/

/-- The empty room is deleted after its lock is released. -/
def deleteEmpty (roomId : RoomId) (empty : Bool) : SfuProgram Unit :=
  if empty then deleteRoom roomId else pure ()

/-- True if the participant was in the room. -/
def cleanupParticipantFromRoom (roomId : RoomId) (participantId : ParticipantId) :
    SfuProgram Bool := do
  match ← getRoom roomId with
  | none => pure false
  | some ref =>
    let (found, empty) ← withLock (.room ref) .exclusive do
      if ← testRoom ref (participantId ∈ ·.participants) then
        removeParticipant ref participantId
        let screenShares ← readRoom ref (·.screenSharesOf participantId)
        inSomeOrder screenShares (forEach (removeParticipant ref))
        let empty ← testRoom ref (·.isEmpty)
        pure (true, empty)
      else pure (false, false)
    deleteEmpty roomId empty
    pure found

def cleanupFirst (participantId : ParticipantId) : List RoomId → SfuProgram Unit
  | [] => pure ()
  | roomId :: rest => do
    if ← cleanupParticipantFromRoom roomId participantId then pure ()
    else cleanupFirst participantId rest

def cleanup (knownRoomId : Option RoomId) (participantId : ParticipantId) : SfuProgram Unit := do
  match knownRoomId with
  | some roomId =>
    let _ ← cleanupParticipantFromRoom roomId participantId
  | none => inSomeOrder (← listRooms) (cleanupFirst participantId)

def disconnectUserFromRoom (userId : Uuid) (roomId : RoomId) : SfuProgram Unit := do
  denyRoomUser roomId userId
  match ← getRoom roomId with
  | none => pure ()
  | some ref =>
    withLock (.room ref) .exclusive do
      let participantIds ← readRoom ref (·.participantsOfUser userId)
      inSomeOrder participantIds (forEach (removeParticipant ref))

def revokeAndCloseRoom (roomId : RoomId) : SfuProgram Unit := do
  match ← revokeRoom roomId with
  | none => pure ()
  | some ref =>
    withLock (.room ref) .exclusive do
      let participantIds ← readRoom ref (·.participants.keys)
      inSomeOrder participantIds (forEach (removeParticipant ref))

def disconnectUserFromSfuRooms (userId : Uuid) (roomIds : List RoomId) : SfuProgram Unit :=
  inSomeOrder roomIds.dedup (forEach (disconnectUserFromRoom userId))

def revokeAndCloseSfuRooms (roomIds : List RoomId) : SfuProgram Unit :=
  inSomeOrder roomIds.dedup (forEach revokeAndCloseRoom)

/-! ## Tasks -/

def body : SfuTask → SfuProgram Unit
  | .join client req => join client req
  | .offer client => offer client
  | .lateJoiner client ref peer existing => lateJoiner client ref peer existing
  | .answer client => answer client
  | .retry client ref peer => retry client ref peer
  | .iceCandidate client => iceCandidate client
  | .roomRequest client name recent now timestamp request =>
    roomRequest client name recent now timestamp request
  | .incomingTrack client ref track => incomingTrack client ref track
  | .renegotiation ref peer receiverId trackId =>
    renegotiate ref peer receiverId trackId offerAttempts
  | .retirement peer => retireForwardedSenders peer
  | .cleanup knownRoomId participantId => cleanup knownRoomId participantId
  | .eviction userId roomIds => disconnectUserFromSfuRooms userId roomIds
  | .closure roomIds => revokeAndCloseSfuRooms roomIds

/-- The other tasks are spawned by these. -/
def isExternal : SfuTask → Bool
  | .lateJoiner .. | .retry .. | .renegotiation .. | .retirement _ => false
  | _ => true

def sfuTasks : Tasks Sfu SfuLock SfuTask := ⟨body, isExternal⟩

def initial : Sfu := ⟨InMemoryRoomRepository.new, fun _ => ∅, 0⟩

/-! ## Run alone -/

section Alone

variable {ref : RoomRef} {s t : Sfu} {p : ParticipantId}

@[simp] theorem yields_readRoom {α : Type} {f : Room → α} {result : α} :
    (readRoom ref f).Yields s result t ↔ result = f (s.repository.objects ref) ∧ t = s :=
  yields_access

@[simp] theorem yields_testRoom {p : Room → Bool} {result : Bool} :
    (testRoom ref p).Yields s result t ↔ result = p (s.repository.objects ref) ∧ t = s :=
  yields_access

@[simp] theorem yields_getPeerConnection {peer : Option PeerRef} :
    (getPeerConnection ref p).Yields s peer t ↔
      peer = (if (s.repository.objects ref).hasPeerConnection p then (s.connections ref).lookup p
        else none) ∧ t = s :=
  yields_access

def Sfu.setRoom (s : Sfu) (ref : RoomRef) (room : Room)
    (hid : room.id = (s.repository.objects ref).id) : Sfu :=
  { s with repository := s.repository.setRoom ref room hid }

@[simp] theorem yields_writeRoom {f : Room → Room} {hf : ∀ room, (f room).id = room.id}
    {result : Unit} :
    (writeRoom ref f hf).Yields s result t ↔
      t = s.setRoom ref (f (s.repository.objects ref)) (hf _) :=
  yields_access.trans (and_iff_right rfl)

theorem yields_closePeerConnection {peer : Option PeerRef} {result : Unit}
    (h : (closePeerConnection peer).Yields s result t) : t = s := by
  cases peer with
  | none => exact (yields_pure.mp h).2
  | some peer =>
    obtain ⟨_, u, hclose, hdone⟩ := yields_bind.mp h
    obtain ⟨rfl, rfl⟩ := yields_pure.mp hdone
    cases yields_withLock.mp hclose with
    | choose n h => exact (yields_pure.mp h).2

theorem yields_retireSendersFrom {result : Unit}
    (h : (retireSendersFrom ref p).Yields s result t) :
    t = s.setRoom ref ((s.repository.objects ref).retireSendersFrom p) rfl := by
  obtain ⟨stale, u, hscope, hspawn⟩ := yields_bind.mp h
  obtain ⟨_, v, hread, hwrite⟩ := yields_bind.mp (yields_withLock.mp hscope)
  obtain ⟨-, rfl⟩ := yields_readRoom.mp hread
  obtain ⟨_, w, hwritten, hdone⟩ := yields_bind.mp hwrite
  obtain ⟨-, rfl⟩ := yields_pure.mp hdone
  rw [← yields_writeRoom.mp hwritten]
  cases hspawn with
  | choose n hspawn =>
    refine yields_forEach_of_unchanged (fun item v w hitem => ?_) _ hspawn
    obtain ⟨peer, x, hpeer, hstart⟩ := yields_bind.mp hitem
    obtain ⟨-, rfl⟩ := yields_getPeerConnection.mp hpeer
    cases peer with
    | none => exact (yields_pure.mp hstart).2
    | some peer => exact yields_start.mp hstart

/-- Run alone, the task's removal is the room's. -/
theorem removeParticipant_yields {result : Unit}
    (h : (removeParticipant ref p).Yields s result t) :
    t.repository.objects = Function.update s.repository.objects ref
      ((s.repository.objects ref).removeParticipant p).1 := by
  obtain ⟨present, u, htest, hbody⟩ := yields_bind.mp h
  obtain ⟨rfl, rfl⟩ := yields_testRoom.mp htest
  by_cases hp : p ∈ (u.repository.objects ref).participants
  · rw [if_pos (decide_eq_true hp)] at hbody
    obtain ⟨peer, s₁, hpeer, hrest₁⟩ := yields_bind.mp hbody
    obtain ⟨_, s₂, herase, hrest₂⟩ := yields_bind.mp hrest₁
    obtain ⟨_, s₃, hclose, hrest₃⟩ := yields_bind.mp hrest₂
    obtain ⟨removed, s₄, hremoved, hrest₄⟩ := yields_bind.mp hrest₃
    obtain ⟨_, s₅, htracks, hrest₅⟩ := yields_bind.mp hrest₄
    obtain ⟨_, s₆, hnegotiated, hrest₆⟩ := yields_bind.mp hrest₅
    obtain ⟨_, s₇, hpending, hrest₇⟩ := yields_bind.mp hrest₆
    obtain ⟨_, s₈, hforwarded, hrest₈⟩ := yields_bind.mp hrest₇
    obtain ⟨-, rfl⟩ := yields_getPeerConnection.mp hpeer
    obtain rfl := yields_writeRoom.mp herase
    obtain rfl := yields_closePeerConnection hclose
    obtain ⟨rfl, rfl⟩ := yields_readRoom.mp hremoved
    obtain rfl := yields_writeRoom.mp htracks
    obtain rfl := yields_writeRoom.mp (yields_withLock.mp hnegotiated)
    obtain rfl := yields_writeRoom.mp (yields_withLock.mp hpending)
    obtain rfl := yields_writeRoom.mp (yields_withLock.mp hforwarded)
    rw [yields_retireSendersFrom hrest₈]
    simp only [Sfu.setRoom, InMemoryRoomRepository.setRoom_objects, Function.update_self,
      Function.update_idem, Room.removeParticipant, hp, if_true]
    rfl
  · rw [if_neg (by simpa using hp)] at hbody
    obtain ⟨-, rfl⟩ := yields_pure.mp hbody
    simp [Room.removeParticipant, hp]

end Alone
end OpenMeet.SfuTasks
