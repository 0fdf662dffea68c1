import OpenMeet.Components
import OpenMeet.LossyBroadcast
import OpenMeet.PacketBuffer
import OpenMeet.RoomState

/-!
The tasks that forward one track. A reader broadcasts the packets of its sender.
For each receiver a writer rewrites their SSRC, keeps them for retransmission and
writes them to the receiver's track, and a handler answers the feedback that comes
back: packets reported lost are written again, and a keyframe is requested from
the sender where the receiver asks for one or a packet of a video is gone.
-/
namespace OpenMeet.MediaForwarding

open LossyBroadcast PacketBuffer Components TransitionSystem
open Messages (ParticipantId)
open RoomState (Instant)

def rtpBroadcastCapacity : ℕ := 4096

/-- Two seconds, in the nanoseconds of the monotonic clock. -/
def lossRecoveryPliInterval : ℕ := 2 * 1000000000

/-- A writer gives up after so many errors in a row. -/
def maxWriteErrors : ℕ := 10

inductive RTPCodecType
  | audio
  | video
  deriving DecidableEq

inductive RtcpPacket
  | pictureLossIndication
  | transportLayerNack (nacks : List NackPair)
  | other
  deriving DecidableEq

inductive WriterStage
  | receiving
  | storing (packet : RtpPacket)
  | writing (packet : RtpPacket)
  | ended
  deriving DecidableEq

/-- What the handler has still to answer of the feedback it has read. -/
inductive Feedback
  | keyframe
  | lost (seq : UInt16)
  deriving DecidableEq

inductive PliReason
  | receiverRequested
  | nackMiss
  deriving DecidableEq

inductive HandlerStage
  | reading
  | handling (feedback : Feedback) (rest : List Feedback)
  | sendingPli (reason : PliReason) (rest : List Feedback)
  | ended
  deriving DecidableEq

abbrev Hub := Broadcast RtpPacket rtpBroadcastCapacity

variable (hub : Hub)

/-- The sender's side: the channel its packets are broadcast on, and the time. -/
structure Sending where
  now : Instant
  channel : hub.Channel

/-- A receiver's writer and handler, and the buffer they share. -/
structure Forwarding where
  localSsrc : UInt32
  packets : hub.Subscription
  writer : WriterStage
  writeErrorCount : ℕ
  buffer : PacketBufferInner
  handler : HandlerStage
  lastReceiverPli : Option Instant
  lastLossRecoveryPli : Option Instant

inductive SendingEvent
  | elapse (duration : ℕ)
  | readRtp (packet : RtpPacket)
  deriving DecidableEq

inductive ForwardingStep
  | receive
  | store
  | write (written : Bool)
  | endWriter
  | readRtcp (packets : List RtcpPacket)
  | handle
  | sendPli (sent : Bool)
  | endHandler
  deriving DecidableEq

/-- What a receiver's tasks do that others can see. -/
inductive Effect
  | forwarded (packet : RtpPacket)
  | retransmitted (packet : RtpPacket)
  | skipped (packets : List RtpPacket)
  | requestedKeyframe (reason : PliReason) (time : Instant)
  deriving DecidableEq

section Tasks

variable {hub} (kind : RTPCodecType) (sending : Sending hub) (s : Forwarding hub)

/-- The writer task begins with what is broadcast from now on. -/
def subscribe (localSsrc : UInt32) : Forwarding hub :=
  { localSsrc := localSsrc, packets := hub.subscribe sending.channel, writer := .receiving,
    writeErrorCount := 0, buffer := PacketBufferInner.new, handler := .reading,
    lastReceiverPli := none, lastLossRecoveryPli := none }

/-! ### The writer -/

/-- A writer that has lagged behind goes on with the packets that are yet to come. -/
def receive : Option (Forwarding hub) :=
  match s.writer with
  | .receiving =>
    (hub.recv sending.channel s.packets).map fun received =>
      match received with
      | (.event packet, next) =>
        { s with packets := next, writer := .storing { packet with ssrc := s.localSsrc } }
      | (.lagged _, _) => { s with packets := hub.subscribe sending.channel }
  | _ => none

def store : Option (Forwarding hub) :=
  match s.writer with
  | .storing packet => some { s with buffer := s.buffer.store packet, writer := .writing packet }
  | _ => none

def write (written : Bool) : Option (Forwarding hub) :=
  match s.writer with
  | .writing _ =>
    let errors := if written then 0 else s.writeErrorCount + 1
    some { s with
      writeErrorCount := errors
      writer := if maxWriteErrors ≤ errors then .ended else .receiving }
  | _ => none

/-- The receiver has disconnected, or the sender has gone and nothing is left to read. -/
def endWriter : Option (Forwarding hub) :=
  match s.writer with
  | .receiving => some { s with writer := .ended }
  | _ => none

/-! ### The handler -/

def feedbackOf : RtcpPacket → List Feedback
  | .pictureLossIndication => [.keyframe]
  | .transportLayerNack nacks => (requestedSeqs nacks).map .lost
  | .other => []

/-- The stage at which the rest is handled. -/
def proceed : List Feedback → HandlerStage
  | [] => .reading
  | feedback :: rest => .handling feedback rest

def readRtcp (packets : List RtcpPacket) : Option (Forwarding hub) :=
  match s.handler with
  | .reading => some { s with handler := proceed (packets.flatMap feedbackOf) }
  | _ => none

def lastPli : PliReason → Option Instant
  | .receiverRequested => s.lastReceiverPli
  | .nackMiss => s.lastLossRecoveryPli

/-- Whether the last keyframe requested for the reason is long enough ago. -/
def shouldSendPli (reason : PliReason) : Bool :=
  (lastPli s reason).all fun last => lossRecoveryPliInterval ≤ sending.now - last

/-- The stage after feedback that asks for a keyframe. -/
def recover (reason : PliReason) (rest : List Feedback) : HandlerStage :=
  if shouldSendPli sending s reason then .sendingPli reason rest else proceed rest

/-- Only a video has keyframes to recover with. -/
def handle : Option (Forwarding hub) :=
  match s.handler with
  | .handling .keyframe rest =>
    some { s with handler := recover sending s .receiverRequested rest }
  | .handling (.lost seq) rest =>
    match s.buffer.get seq with
    | some _ => some { s with handler := proceed rest }
    | none =>
      let stage := if kind = .video then recover sending s .nackMiss rest else proceed rest
      some { s with handler := stage }
  | _ => none

/-- A request that could not be sent does not count. -/
def sendPli (sent : Bool) : Option (Forwarding hub) :=
  match s.handler with
  | .sendingPli reason rest =>
    some { s with
      handler := proceed rest
      lastReceiverPli :=
        if sent ∧ reason = .receiverRequested then some sending.now else s.lastReceiverPli
      lastLossRecoveryPli :=
        if sent ∧ reason = .nackMiss then some sending.now else s.lastLossRecoveryPli }
  | _ => none

def endHandler : Option (Forwarding hub) :=
  match s.handler with
  | .reading => some { s with handler := .ended }
  | _ => none

def forwardingStep : ForwardingStep → Option (Forwarding hub)
  | .receive => receive sending s
  | .store => store s
  | .write written => write s written
  | .endWriter => endWriter s
  | .readRtcp packets => readRtcp s packets
  | .handle => handle kind sending s
  | .sendPli sent => sendPli sending s sent
  | .endHandler => endHandler s

/-! ### What can be seen -/

/-- A packet of the buffer is written again if it bears the receiver's SSRC. -/
def retransmissions (seq : UInt16) : List Effect :=
  match s.buffer.get seq with
  | some packet => if packet.ssrc = s.localSsrc then [.retransmitted packet] else []
  | none => []

def effects : ForwardingStep → List Effect
  | .receive =>
    match s.writer, hub.recv sending.channel s.packets with
    | .receiving, some (.lagged _, _) => [.skipped (hub.unread sending.channel s.packets)]
    | _, _ => []
  | .write _ =>
    match s.writer with
    | .writing packet => [.forwarded packet]
    | _ => []
  | .handle =>
    match s.handler with
    | .handling (.lost seq) _ => retransmissions s seq
    | _ => []
  | .sendPli sent =>
    match s.handler with
    | .sendingPli reason _ => if sent then [.requestedKeyframe reason sending.now] else []
    | _ => []
  | _ => []

end Tasks

/-! ## The track -/

section Track

variable {hub}

/-- The reader broadcasts a packet whether or not anybody receives it. -/
def sendingStep (sending : Sending hub) : SendingEvent → Option (Sending hub)
  | .elapse duration => some { sending with now := sending.now + duration }
  | .readRtp packet => some { sending with channel := hub.send sending.channel packet }

variable (hub)

def design (kind : RTPCodecType) :
    Design (Sending hub) (Forwarding hub) SendingEvent ForwardingStep UInt32 where
  shared := sendingStep
  start := subscribe
  part := forwardingStep kind

abbrev Track := Assembly ParticipantId (Sending hub) (Forwarding hub)

abbrev TrackAction := Action ParticipantId SendingEvent ForwardingStep UInt32

def track (kind : RTPCodecType) : System (Track hub) TrackAction :=
  Components.system (design hub kind) ⟨0, hub.new⟩

end Track

/-- The packets that the reader reads. -/
def packetsRead (actions : List TrackAction) : List RtpPacket :=
  actions.filterMap fun action =>
    match action with
    | .shared (.readRtp packet) => some packet
    | _ => none

end OpenMeet.MediaForwarding
