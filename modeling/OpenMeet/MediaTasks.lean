import OpenMeet.Forwarding
import OpenMeet.TransitionSystem
import Mathlib.Data.Finset.Image
import Mathlib.Logic.Function.Basic

/-!
Media negotiation of one room as its tasks interleave. Arriving tracks and
removals run under the room's write lock, one await at a time; the late-joiner,
renegotiation, promotion and retirement tasks run detached and take the room's
read lock, the mutex of a receiver's peer connection and the four maps one
after the other. Each action is what happens between two suspension points.
-/
namespace OpenMeet.MediaTasks

open KeyedMap Messages RoomState TransitionSystem

abbrev TaskId := Nat

inductive SignalingState
  | stable
  | haveLocalOffer
  | haveRemoteOffer
  | closed
  deriving DecidableEq, Repr

/-- One peer connection: its signaling state, the track ids added to it, those on the last
server offer, and those added before a server offer that has been answered. -/
structure Negotiation where
  signaling : SignalingState
  added : Finset TrackId
  offered : Finset TrackId
  answered : Finset TrackId
  deriving DecidableEq

namespace Negotiation

def new : Negotiation where
  signaling := .stable
  added := ∅
  offered := ∅
  answered := ∅

/-- A track added again has to be offered and answered again. -/
def addTrack (peer : Negotiation) (trackId : TrackId) : Negotiation :=
  { peer with
    added := insert trackId peer.added
    offered := peer.offered.erase trackId
    answered := peer.answered.erase trackId }

def createOffer (peer : Negotiation) : Negotiation :=
  { peer with signaling := .haveLocalOffer, offered := peer.added }

def setRemoteAnswer (peer : Negotiation) : Negotiation :=
  { peer with signaling := .stable, answered := peer.answered ∪ peer.offered }

end Negotiation

/-- The task that subscribes a receiver to the tracks found when its offer was answered. -/
inductive LatePhase
  | checking (existing : List Forward)
  | waiting (existing : List Forward)
  | adding (current : Option Forward) (rest pendingForwards : List Forward)
  | offering (attempt : Nat) (pendingForwards : List Forward)
  | sending (pendingForwards : List Forward)
  | marking (pendingForwards : List Forward)
  deriving DecidableEq

/-- The task that offers a track just added to one receiver. -/
inductive RenegotiationPhase
  | checkingNegotiated (attempt : Nat)
  | checkingPending (attempt : Nat)
  | offering (attempt : Nat)
  | marking
  deriving DecidableEq

/-- The task spawned by an answer, which wakes up 100 ms later. From checked on it holds the
room's read lock, and from taking on the receiver's peer connection. -/
inductive PromotionPhase
  | sleeping
  | checked
  | taking
  | promoting (trackIds : Finset TrackId)
  | collecting
  | retrying (missing : List TrackId)
  | marking (missing : List TrackId)
  deriving DecidableEq

inductive Task
  | late (receiverId : ParticipantId) (phase : LatePhase)
  | renegotiation (receiverId : ParticipantId) (trackId : TrackId) (phase : RenegotiationPhase)
  | promotion (receiverId : ParticipantId) (phase : PromotionPhase)
  | retirement (receiverId : ParticipantId) (attempt : Nat)
  deriving DecidableEq

/-- The loop of forward_track_to_others over the receivers, in any order. -/
structure ForwardTrack where
  source : ParticipantId
  track : TrackId
  rest : Finset ParticipantId
  current : Option ParticipantId
  receivers : Finset ParticipantId
  deriving DecidableEq

inductive RemovalPhase
  | negotiated
  | pending
  | forwarded
  | senders
  | retiring (stale : List ParticipantId)
  deriving DecidableEq

/-- Who holds the room's write lock. -/
inductive RoomLock
  | free
  | forwarding (op : ForwardTrack)
  | removing (participantId : ParticipantId) (removed : List TrackId) (phase : RemovalPhase)
  deriving DecidableEq

/-- The writers are the RTP writer tasks ever spawned, by receiver and forwarded track. -/
structure Media where
  room : Room
  lock : RoomLock
  readers : Finset TaskId
  holder : ParticipantId → Option TaskId
  peers : ParticipantId → Negotiation
  writers : Finset (ParticipantId × Forward)
  tasks : Map TaskId Task
  known : Finset ParticipantId

inductive AddResult
  | subscribed (task : TaskId)
  | withoutEncoding
  | failed
  deriving DecidableEq

/-- What create_offer_if_stable answers. -/
inductive OfferResult
  | collision
  | failed
  | created
  deriving DecidableEq

inductive LateEvent
  | check
  | lockPeer
  | reserve (f : Forward)
  | add (added : Bool)
  | unlock
  | offer (result : OfferResult)
  | send (sent : Bool)
  | mark (withoutEncoding : List Forward)
  deriving DecidableEq

inductive RenegotiationEvent
  | check
  | offer (result : OfferResult) (sent : Bool)
  | mark
  deriving DecidableEq

inductive PromotionEvent
  | wake
  | lockPeer
  | take
  | promote
  | collect
  | retry (result : OfferResult) (sent : Bool)
  | mark
  deriving DecidableEq

/-- New tasks get an id nobody uses. -/
inductive Action
  | join (connection : ParticipantConnection)
  | denyUser (userId : Uuid)
  | revoke
  | track (participantId : ParticipantId) (track : TrackRemote)
  | reserve (receiverId : ParticipantId)
  | addTrack (result : AddResult)
  | finishForward
  | remove (participantId : ParticipantId)
  | clear
  | retire (task : TaskId)
  | finishRemove
  | clientOffer (receiverId : ParticipantId) (task : TaskId)
  | failAnswer (receiverId : ParticipantId)
  | clientAnswer (receiverId : ParticipantId) (task : TaskId)
  | late (task : TaskId) (event : LateEvent)
  | renegotiation (task : TaskId) (event : RenegotiationEvent)
  | promotion (task : TaskId) (event : PromotionEvent)
  | retirement (task : TaskId) (result : OfferResult)
  deriving DecidableEq

def offerAttempts : Nat := 5

namespace Media

def initial (roomId : RoomId) : Media where
  room := Room.new roomId
  lock := .free
  readers := ∅
  holder := fun _ => none
  peers := fun _ => Negotiation.new
  writers := ∅
  tasks := ∅
  known := ∅

variable (s : Media)

@[simp] def setRoom (room : Room) : Media := { s with room := room }

@[simp] def setLock (lock : RoomLock) : Media := { s with lock := lock }

@[simp] def setTask (k : TaskId) (task : Task) : Media :=
  { s with tasks := s.tasks.insert k task }

@[simp] def endTask (k : TaskId) : Media := { s with tasks := s.tasks.erase k }

@[simp] def setPeer (r : ParticipantId) (peer : Negotiation) : Media :=
  { s with peers := Function.update s.peers r peer }

@[simp] def hold (r : ParticipantId) (k : TaskId) : Media :=
  { s with holder := Function.update s.holder r (some k) }

@[simp] def letGo (r : ParticipantId) : Media :=
  { s with holder := Function.update s.holder r none }

@[simp] def addWriters (writers : Finset (ParticipantId × Forward)) : Media :=
  { s with writers := s.writers ∪ writers }

/-- The promotion task drops both guards and ends. -/
@[simp] def finishPromotion (k : TaskId) (r : ParticipantId) : Media :=
  { s with
    readers := s.readers.erase k
    holder := Function.update s.holder r none
    tasks := s.tasks.erase k }

/-- Nobody reads or writes the room. -/
def exclusive : Bool := s.lock = .free && s.readers = ∅

/-- A receiver that is active, has a peer connection, and whose connection nobody holds. -/
def reachable (r : ParticipantId) : Bool :=
  s.lock = .free && s.room.isActive r && s.room.hasPeerConnection r && s.holder r = none

end Media

/-- An offer is created only in the stable signaling state. -/
def createOfferIfStable (s : Media) (r : ParticipantId) (result : OfferResult) :
    Option Media :=
  if (s.peers r).signaling = .stable then
    match result with
    | .collision => none
    | .failed => some s
    | .created => some (s.setPeer r (s.peers r).createOffer)
  else if result = .collision then some s
  else none

section RoomSteps

variable (s : Media)

def join (connection : ParticipantConnection) : Option Media :=
  let id := connection.participant.id
  if s.exclusive && id ∉ s.known then
    some { s with
      room := (s.room.addParticipant connection).1
      known := insert id s.known }
  else none

/-- The track handler takes the write lock, checks its participant and starts forwarding. -/
def handleIncomingTrack (p : ParticipantId) (track : TrackRemote) : Option Media :=
  if s.exclusive && s.room.isActive p then
    some ((s.setRoom (s.room.registerTrack p track)).setLock
      (.forwarding
        { source := p
          track := track.id
          rest := (s.room.receiversOf p).toFinset
          current := none
          receivers := ∅ }))
  else none

def reserve (r : ParticipantId) : Option Media :=
  match s.lock with
  | .forwarding op =>
    if op.current = none ∧ r ∈ op.rest then
      let reserved := (Room.reserveForwardedTrack s.room.forwardedTracks r op.track).1
      some ((s.setRoom (s.room.reserve r op.track)).setLock
        (.forwarding
          { op with
            rest := op.rest.erase r
            current := if reserved then some r else none }))
    else none
  | _ => none

def addTrack (result : AddResult) : Option Media :=
  match s.lock with
  | .forwarding op =>
    match op.current with
    | some r =>
      if s.holder r = none then
        match result with
        | .subscribed k =>
          if k ∉ s.tasks ∧ (s.peers r).signaling ≠ .closed then
            let room := s.room.recordForwardedSender r op.source { trackId := op.track }
            let added := (s.setRoom room).setPeer r ((s.peers r).addTrack op.track)
            let spawned := added.setTask k (.renegotiation r op.track (.checkingNegotiated 1))
            some (spawned.setLock
              (.forwarding { op with current := none, receivers := insert r op.receivers }))
          else none
        | .withoutEncoding =>
          -- the loop goes on to the next receiver and leaves the reservation behind
          if (s.peers r).signaling ≠ .closed then
            some ((s.setPeer r ((s.peers r).addTrack op.track)).setLock
              (.forwarding { op with current := none }))
          else none
        | .failed =>
          some ((s.setRoom (s.room.release r op.track)).setLock
            (.forwarding { op with current := none }))
      else none
    | none => none
  | _ => none

def finishForward : Option Media :=
  match s.lock with
  | .forwarding op =>
    if op.current = none ∧ op.rest = ∅ then
      some ((s.addWriters (op.receivers.image fun r =>
        (r, { source := op.source, track := op.track }))).setLock .free)
    else none
  | _ => none

/-- Take the participant and its tracks out and close its connection. -/
def remove (p : ParticipantId) : Option Media :=
  if s.exclusive && p ∈ s.room.participants && s.holder p = none then
    let room := { s.room with participants := s.room.participants.erase p }
    some (((s.setRoom (room.removeParticipantTracks p)).setPeer p
      { s.peers p with signaling := .closed }).setLock
      (.removing p (s.room.trackIdsOf p) .negotiated))
  else none

/-- The maps are cleared one after the other. -/
def clear : Option Media :=
  match s.lock with
  | .removing p removed .negotiated =>
    some ((s.setRoom (s.room.clearNegotiated p removed)).setLock (.removing p removed .pending))
  | .removing p removed .pending =>
    some ((s.setRoom (s.room.clearPending p removed)).setLock (.removing p removed .forwarded))
  | .removing p removed .forwarded =>
    some ((s.setRoom (s.room.clearForwarded p removed)).setLock (.removing p removed .senders))
  | .removing p removed .senders =>
    let stale := (s.room.staleReceivers p).filter s.room.hasPeerConnection
    some ((s.setRoom (s.room.retireSendersFrom p)).setLock (.removing p removed (.retiring stale)))
  | _ => none

def retire (k : TaskId) : Option Media :=
  match s.lock with
  | .removing p removed (.retiring (r :: stale)) =>
    if k ∈ s.tasks then none
    else some ((s.setLock (.removing p removed (.retiring stale))).setTask k (.retirement r 1))
  | _ => none

def finishRemove : Option Media :=
  match s.lock with
  | .removing _ _ (.retiring []) => some (s.setLock .free)
  | _ => none

/-- The client's offer is answered; existing tracks are left to a task. -/
def clientOffer (r : ParticipantId) (k : TaskId) : Option Media :=
  let peer := s.peers r
  if s.reachable r && (peer.signaling = .stable || peer.signaling = .haveRemoteOffer) then
    let answered := s.setPeer r { peer with signaling := .stable }
    let existing := s.room.existingTracks r
    if existing = [] then some answered
    else if k ∈ s.tasks then none
    else some (answered.setTask k (.late r (.checking existing)))
  else none

/-- The client's offer is accepted, but creating the answer fails. -/
def failAnswer (r : ParticipantId) : Option Media :=
  let peer := s.peers r
  if s.reachable r && (peer.signaling = .stable || peer.signaling = .haveRemoteOffer) then
    some (s.setPeer r { peer with signaling := .haveRemoteOffer })
  else none

/-- The client answers the outstanding server offer. -/
def clientAnswer (r : ParticipantId) (k : TaskId) : Option Media :=
  if s.reachable r && (s.peers r).signaling = .haveLocalOffer && k ∉ s.tasks then
    some ((s.setPeer r (s.peers r).setRemoteAnswer).setTask k (.promotion r .sleeping))
  else none

end RoomSteps

section TaskSteps

variable (s : Media) (k : TaskId) (r : ParticipantId)

def stepLate : LatePhase → LateEvent → Option Media
  | .checking existing, .check =>
    if s.lock = .free then
      if s.room.isActive r then some (s.setTask k (.late r (.waiting existing)))
      else some (s.endTask k)
    else none
  | .waiting existing, .lockPeer =>
    if s.holder r = none then
      some ((s.hold r k).setTask k (.late r (.adding none existing [])))
    else none
  | .adding none rest pendingForwards, .reserve f =>
    if f ∈ rest then
      let reserved := (Room.reserveForwardedTrack s.room.forwardedTracks r f.track).1
      some ((s.setRoom (s.room.reserve r f.track)).setTask k
        (.late r (.adding (if reserved then some f else none) (rest.erase f) pendingForwards)))
    else none
  | .adding (some f) rest pendingForwards, .add true =>
    -- a closed connection takes no tracks
    if (s.peers r).signaling ≠ .closed then
      let room := s.room.recordForwardedSender r f.source { trackId := f.track }
      some (((s.setRoom room).setPeer r ((s.peers r).addTrack f.track)).setTask k
        (.late r (.adding none rest (pendingForwards ++ [f]))))
    else none
  | .adding (some f) rest pendingForwards, .add false =>
    some ((s.setRoom (s.room.release r f.track)).setTask k
      (.late r (.adding none rest pendingForwards)))
  | .adding none [] pendingForwards, .unlock =>
    some ((s.letGo r).setTask k (.late r (.offering 1 pendingForwards)))
  | .offering attempt pendingForwards, .offer result =>
    if s.holder r = none then
      (createOfferIfStable s r result).map fun t =>
        match result with
        | .collision =>
          if attempt < offerAttempts then
            t.setTask k (.late r (.offering (attempt + 1) pendingForwards))
          else t.endTask k
        | .failed => t.endTask k
        | .created => t.setTask k (.late r (.sending pendingForwards))
    else none
  | .sending pendingForwards, .send sent =>
    if s.lock = .free then
      if s.room.isActive r && sent then some (s.setTask k (.late r (.marking pendingForwards)))
      else some (s.endTask k)
    else none
  | .marking pendingForwards, .mark withoutEncoding =>
    let subscribed := pendingForwards.filter (· ∉ withoutEncoding)
    some (((s.setRoom (s.room.markPending r (pendingForwards.map (·.track)))).addWriters
      (subscribed.map fun f => (r, f)).toFinset).endTask k)
  | _, _ => none

def stepRenegotiation (trackId : TrackId) : RenegotiationPhase → RenegotiationEvent → Option Media
  | .checkingNegotiated attempt, .check =>
    if trackId ∈ s.room.negotiatedTracks.setAt r then some (s.endTask k)
    else some (s.setTask k (.renegotiation r trackId (.checkingPending attempt)))
  | .checkingPending attempt, .check =>
    if trackId ∈ s.room.pendingNegotiatedTracks.setAt r then some (s.endTask k)
    else some (s.setTask k (.renegotiation r trackId (.offering attempt)))
  | .offering attempt, .offer result sent =>
    if s.holder r = none then
      (createOfferIfStable s r result).map fun t =>
        match result with
        | .collision =>
          if attempt < offerAttempts then
            t.setTask k (.renegotiation r trackId (.checkingNegotiated (attempt + 1)))
          else t.endTask k
        | .failed => t.endTask k
        | .created =>
          if sent then t.setTask k (.renegotiation r trackId .marking) else t.endTask k
    else none
  | .marking, .mark => some ((s.setRoom (s.room.markPending r [trackId])).endTask k)
  | _, _ => none

def stepPromotion : PromotionPhase → PromotionEvent → Option Media
  | .sleeping, .wake =>
    if s.lock = .free then
      if s.room.isActive r then
        some ({ s with readers := insert k s.readers }.setTask k (.promotion r .checked))
      else some (s.endTask k)
    else none
  | .checked, .lockPeer =>
    if s.holder r = none then some ((s.hold r k).setTask k (.promotion r .taking))
    else none
  | .taking, .take =>
    some ((s.setRoom (s.room.takePending r)).setTask k
      (.promotion r (.promoting (s.room.pendingNegotiatedTracks.setAt r))))
  | .promoting trackIds, .promote =>
    some ((s.setRoom (s.room.extendNegotiated r trackIds)).setTask k (.promotion r .collecting))
  | .collecting, .collect =>
    let missing := s.room.missingTrackIds r
    if missing = [] then some (s.finishPromotion k r)
    else some (s.setTask k (.promotion r (.retrying missing)))
  | .retrying missing, .retry result sent =>
    (createOfferIfStable s r result).map fun t =>
      if result = .created && sent then t.setTask k (.promotion r (.marking missing))
      else t.finishPromotion k r
  | .marking missing, .mark =>
    some ((s.setRoom (s.room.markPending r missing)).finishPromotion k r)
  | _, _ => none

def stepRetirement (attempt : Nat) (result : OfferResult) : Option Media :=
  if s.holder r = none then
    (createOfferIfStable s r result).map fun t =>
      if result = .collision && attempt < offerAttempts then
        t.setTask k (.retirement r (attempt + 1))
      else t.endTask k
  else none

end TaskSteps

def step (s : Media) : Action → Option Media
  | .join connection => join s connection
  | .denyUser userId => some (s.setRoom (s.room.denyUser userId))
  | .revoke => some (s.setRoom { s.room with revoked := true })
  | .track p track => handleIncomingTrack s p track
  | .reserve r => reserve s r
  | .addTrack result => addTrack s result
  | .finishForward => finishForward s
  | .remove p => remove s p
  | .clear => clear s
  | .retire k => retire s k
  | .finishRemove => finishRemove s
  | .clientOffer r k => clientOffer s r k
  | .failAnswer r => failAnswer s r
  | .clientAnswer r k => clientAnswer s r k
  | .late k event =>
    match s.tasks.lookup k with
    | some (.late r phase) => stepLate s k r phase event
    | _ => none
  | .renegotiation k event =>
    match s.tasks.lookup k with
    | some (.renegotiation r trackId phase) => stepRenegotiation s k r trackId phase event
    | _ => none
  | .promotion k event =>
    match s.tasks.lookup k with
    | some (.promotion r phase) => stepPromotion s k r phase event
    | _ => none
  | .retirement k result =>
    match s.tasks.lookup k with
    | some (.retirement r attempt) => stepRetirement s k r attempt result
    | _ => none

def system (roomId : RoomId) : System Media Action where
  init := Media.initial roomId
  step := step

/-- A participant that joins with a fresh peer connection. -/
def connection (id : ParticipantId) : ParticipantConnection where
  participant := Participant.new id id
  peerConnection := some { participantId := id }

/-- Nobody holds the room and every spawned task has finished. -/
def Quiescent (s : Media) : Prop := s.lock = .free ∧ s.tasks.isEmpty = true

end OpenMeet.MediaTasks
