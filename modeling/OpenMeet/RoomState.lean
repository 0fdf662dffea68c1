import OpenMeet.KeyedMap
import OpenMeet.Messages

/-!
One conference room: its participants, the tracks they publish, the three maps
of track ids kept per receiver, the forwarded senders tagged by source, and the
chat. Operations return the room they leave behind and the messages they queue,
each with the participant it goes to. A participant's channel is addressed by
the participant's id, and a peer connection by the participant it belongs to.
-/
namespace OpenMeet.RoomState

open KeyedMap Messages

/-- A point of the monotonic clock, in nanoseconds. -/
abbrev Instant := Nat

structure Participant where
  id : ParticipantId
  name : String
  audioEnabled : Bool
  videoEnabled : Bool
  userId : Option Uuid
  screenShareOf : Option ParticipantId
  deriving DecidableEq, Repr

def Participant.new (id : ParticipantId) (name : String) : Participant where
  id := id
  name := name
  audioEnabled := true
  videoEnabled := true
  userId := none
  screenShareOf := none

/-- Stands for the WebRTC connection of one participant. -/
structure SfuPeerConnection where
  participantId : ParticipantId
  deriving DecidableEq, Repr

structure ParticipantConnection where
  participant : Participant
  peerConnection : Option SfuPeerConnection
  deriving DecidableEq, Repr

structure TrackRemote where
  id : TrackId
  streamId : String
  deriving DecidableEq, Repr

structure SenderTrackInfo where
  track : TrackRemote
  deriving DecidableEq, Repr

/-- An RTP sender on a receiver's connection, named by the track it forwards. -/
structure RtpSender where
  trackId : TrackId
  deriving DecidableEq, Repr

abbrev TrackSets := Map ParticipantId (Finset TrackId)

abbrev Outbox := List (ParticipantId × SignalingMessage)

structure Room where
  id : RoomId
  participants : Map ParticipantId ParticipantConnection
  revoked : Bool
  deniedUserIds : Finset Uuid
  participantTracks : Map ParticipantId (List SenderTrackInfo)
  negotiatedTracks : TrackSets
  pendingNegotiatedTracks : TrackSets
  forwardedTracks : TrackSets
  forwardedSenders : Map ParticipantId (List (ParticipantId × RtpSender))
  chatHistory : List ChatMessagePayload
  lastChatMessageId : Nat
  recentChatMessages : List Instant

def chatHistoryCapacity : Nat := 500
def roomChatRateLimit : Nat := 50
def maxChatMessageReactions : Nat := 20
def roomChatRateWindow : Nat := 5 * 1000000000

namespace Room

def new (id : RoomId) : Room where
  id := id
  participants := ∅
  revoked := false
  deniedUserIds := ∅
  participantTracks := ∅
  negotiatedTracks := ∅
  pendingNegotiatedTracks := ∅
  forwardedTracks := ∅
  forwardedSenders := ∅
  chatHistory := []
  lastChatMessageId := 0
  recentChatMessages := []

def denyUser (room : Room) (userId : Uuid) : Room :=
  { room with deniedUserIds := insert userId room.deniedUserIds }

def isUserDenied (room : Room) (userId : Uuid) : Bool := userId ∈ room.deniedUserIds

/-- The access markers a join checks: revocation, and denial of a signed-in user. -/
def deniesAccess (room : Room) (userId : Option Uuid) : Bool :=
  room.revoked || userId.any room.isUserDenied

def hasActiveParticipant (room : Room) (participantId : ParticipantId) (userId : Option Uuid) :
    Bool :=
  !room.revoked && !(userId.any room.isUserDenied) && participantId ∈ room.participants

def isEmpty (room : Room) : Bool := room.participants.isEmpty

def broadcast (room : Room) (message : SignalingMessage) : Outbox :=
  room.participants.keys.map fun id => (id, message)

def broadcastExcept (room : Room) (excludeId : ParticipantId) (message : SignalingMessage) :
    Outbox :=
  (room.participants.keys.filter (· ≠ excludeId)).map fun id => (id, message)

def addParticipant (room : Room) (connection : ParticipantConnection) : Room × Outbox :=
  let id := connection.participant.id
  let room := { room with participants := room.participants.insert id connection }
  (room, room.broadcastExcept id
    (.participantJoined id connection.participant.name connection.participant.screenShareOf))

/-- Ids of the tracks a participant publishes. -/
def trackIdsOf (room : Room) (participantId : ParticipantId) : List TrackId :=
  ((room.participantTracks.lookup participantId).getD []).map (·.track.id)

def removeParticipantTracks (room : Room) (participantId : ParticipantId) : Room :=
  { room with participantTracks := room.participantTracks.erase participantId }

/-- Drop a receiver's entry and the given ids from everybody else's. -/
def clearTracks (tracks : TrackSets) (participantId : ParticipantId) (removed : List TrackId) :
    TrackSets :=
  Map.retainValues (· ∉ removed) (tracks.erase participantId)

def clearNegotiated (room : Room) (participantId : ParticipantId) (removed : List TrackId) :
    Room :=
  { room with negotiatedTracks := clearTracks room.negotiatedTracks participantId removed }

def clearPending (room : Room) (participantId : ParticipantId) (removed : List TrackId) : Room :=
  { room with
    pendingNegotiatedTracks := clearTracks room.pendingNegotiatedTracks participantId removed }

def clearForwarded (room : Room) (participantId : ParticipantId) (removed : List TrackId) :
    Room :=
  { room with forwardedTracks := clearTracks room.forwardedTracks participantId removed }

/-- Receivers that still forward something from the source. -/
def staleReceivers (room : Room) (sourceId : ParticipantId) : List ParticipantId :=
  (room.forwardedSenders.erase sourceId).entries.filterMap fun e =>
    if e.2.any (·.1 = sourceId) then some e.1 else none

def retireSendersFrom (room : Room) (sourceId : ParticipantId) : Room :=
  { room with
    forwardedSenders := Map.mapValues (fun _ entries => entries.filter (·.1 ≠ sourceId))
      (room.forwardedSenders.erase sourceId) }

/-- Remove a participant: its connection, its tracks, its entries and its tracks' entries in
the three track maps, and its senders on every receiver; then tell everybody who stays. -/
def removeParticipant (room : Room) (participantId : ParticipantId) : Room × Outbox :=
  if participantId ∈ room.participants then
    let removed := room.trackIdsOf participantId
    let room := { room with participants := room.participants.erase participantId }
    let room := room.removeParticipantTracks participantId
    let room := room.clearNegotiated participantId removed
    let room := room.clearPending participantId removed
    let room := room.clearForwarded participantId removed
    let room := room.retireSendersFrom participantId
    (room, room.broadcast (.participantLeft participantId))
  else (room, [])

/-- Remove participants one after the other. -/
def removeParticipants (room : Room) : List ParticipantId → Room × Outbox
  | [] => (room, [])
  | id :: rest =>
    let first := room.removeParticipant id
    let others := removeParticipants first.1 rest
    (others.1, first.2 ++ others.2)

def screenSharesOf (room : Room) (ownerId : ParticipantId) : List ParticipantId :=
  (room.participants.entries.filter (·.2.participant.screenShareOf = some ownerId)).map (·.1)

/-- Remove a participant together with the screen shares that cannot outlive it. -/
def removeWithScreenShares (room : Room) (participantId : ParticipantId) : Room × Outbox :=
  let first := room.removeParticipant participantId
  let others := first.1.removeParticipants (first.1.screenSharesOf participantId)
  (others.1, first.2 ++ others.2)

/-- Participants that joined as the given user. -/
def participantsOfUser (room : Room) (userId : Uuid) : List ParticipantId :=
  (room.participants.entries.filter (·.2.participant.userId = some userId)).map (·.1)

def shouldForward (room : Room) (senderId receiverId : ParticipantId) : Bool :=
  if senderId = receiverId then false
  else
    let screenShareOf := fun id =>
      (room.participants.lookup id).bind (·.participant.screenShareOf)
    (screenShareOf receiverId).isNone && screenShareOf senderId ≠ some receiverId

structure ParticipantInfo where
  id : ParticipantId
  name : String
  audioEnabled : Bool
  videoEnabled : Bool
  screenShareOf : Option ParticipantId
  deriving DecidableEq, Repr

def getParticipantsWithMediaState (room : Room) : List ParticipantInfo :=
  room.participants.entries.map fun e =>
    { id := e.1
      name := e.2.participant.name
      audioEnabled := e.2.participant.audioEnabled
      videoEnabled := e.2.participant.videoEnabled
      screenShareOf := e.2.participant.screenShareOf }

/-- Store a participant's media state, as the media handler does in place. -/
def setMediaState (room : Room) (participantId : ParticipantId) (audio video : Bool) : Room :=
  { room with
    participants := room.participants.modify participantId fun c =>
      { c with
        participant := { c.participant with audioEnabled := audio, videoEnabled := video } } }

def allowChatMessage (room : Room) (now : Instant) : Bool × Room :=
  let recent := room.recentChatMessages.dropWhile fun sentAt =>
    decide (roomChatRateWindow ≤ now - sentAt)
  if roomChatRateLimit ≤ recent.length then
    (false, { room with recentChatMessages := recent })
  else (true, { room with recentChatMessages := recent ++ [now] })

/-- Store a message under the next room-scoped id; the oldest of 500 makes room for it. -/
def recordChatMessage (room : Room) (message : ChatMessagePayload) :
    Room × ChatMessagePayload :=
  let message := { message with id := room.lastChatMessageId + 1 }
  let history :=
    if room.chatHistory.length = chatHistoryCapacity then room.chatHistory.tail
    else room.chatHistory
  ({ room with
      lastChatMessageId := room.lastChatMessageId + 1
      chatHistory := history ++ [message] }, message)

def chatReplyPreview (room : Room) (messageId : Nat) : Option ChatReplyPreview :=
  (room.chatHistory.find? (·.id = messageId)).map fun message =>
    { id := message.id
      participantId := message.participantId
      participantName := message.participantName
      message := excerpt message.message }

/-- The reactions of one message after a participant toggles an emoji; none when the
message has all the distinct emoji it can collect. -/
def toggleReaction (reactions : List ChatMessageReaction) (participantId : ParticipantId)
    (emoji : String) : Option (List ChatMessageReaction) :=
  match reactions.findIdx? (·.emoji = emoji) with
  | some index =>
    match reactions[index]? with
    | none => some reactions
    | some reaction =>
      match reaction.participantIds.findIdx? (· = participantId) with
      | some reactor =>
        let participantIds := reaction.participantIds.eraseIdx reactor
        if participantIds.isEmpty then some (reactions.eraseIdx index)
        else some (reactions.set index { reaction with participantIds := participantIds })
      | none =>
        some (reactions.set index
          { reaction with participantIds := reaction.participantIds ++ [participantId] })
  | none =>
    if reactions.length < maxChatMessageReactions then
      some (reactions ++ [{ emoji := emoji, participantIds := [participantId] }])
    else none

/-- Rewrite the first message with the given id. -/
def setReactions (messageId : Nat) (reactions : List ChatMessageReaction) :
    List ChatMessagePayload → List ChatMessagePayload
  | [] => []
  | message :: rest =>
    if message.id = messageId then { message with reactions := reactions } :: rest
    else message :: setReactions messageId reactions rest

def toggleChatReaction (room : Room) (messageId : Nat) (participantId : ParticipantId)
    (emoji : String) : Option (Room × List ChatMessageReaction) :=
  (room.chatHistory.find? (·.id = messageId)).bind fun message =>
    (toggleReaction message.reactions participantId emoji).map fun reactions =>
      ({ room with chatHistory := setReactions messageId reactions room.chatHistory }, reactions)

section Lemmas

variable (room : Room)

theorem erase_of_notMem {V : Type*} {m : Map ParticipantId V} {id : ParticipantId}
    (h : id ∉ m) : m.erase id = m :=
  AList.ext (List.kerase_of_notMem_keys h)

@[simp] theorem denyUser_id (userId : Uuid) : (room.denyUser userId).id = room.id := rfl

@[simp] theorem addParticipant_id (connection : ParticipantConnection) :
    (room.addParticipant connection).1.id = room.id := rfl

@[simp] theorem removeParticipant_participants (p : ParticipantId) :
    (room.removeParticipant p).1.participants = room.participants.erase p := by
  unfold removeParticipant
  split
  · rfl
  · rename_i h
    exact (erase_of_notMem h).symm

@[simp] theorem removeParticipant_id (p : ParticipantId) :
    (room.removeParticipant p).1.id = room.id := by
  unfold removeParticipant
  split <;> rfl

@[simp] theorem removeParticipant_revoked (p : ParticipantId) :
    (room.removeParticipant p).1.revoked = room.revoked := by
  unfold removeParticipant
  split <;> rfl

@[simp] theorem removeParticipant_deniedUserIds (p : ParticipantId) :
    (room.removeParticipant p).1.deniedUserIds = room.deniedUserIds := by
  unfold removeParticipant
  split <;> rfl

@[simp] theorem removeParticipant_chatHistory (p : ParticipantId) :
    (room.removeParticipant p).1.chatHistory = room.chatHistory := by
  unfold removeParticipant
  split <;> rfl

@[simp] theorem removeParticipant_lastChatMessageId (p : ParticipantId) :
    (room.removeParticipant p).1.lastChatMessageId = room.lastChatMessageId := by
  unfold removeParticipant
  split <;> rfl

theorem lookup_removeParticipants (ids : List ParticipantId) (q : ParticipantId) :
    (room.removeParticipants ids).1.participants.lookup q =
      if q ∈ ids then none else room.participants.lookup q := by
  induction ids generalizing room with
  | nil => simp [removeParticipants]
  | cons id rest ih =>
    simp only [removeParticipants, ih, removeParticipant_participants, List.mem_cons]
    by_cases hrest : q ∈ rest
    · simp [hrest]
    · by_cases hid : q = id
      · subst q
        simp [hrest]
      · simp [hrest, hid]

theorem mem_removeParticipants {ids : List ParticipantId} {q : ParticipantId} :
    q ∈ (room.removeParticipants ids).1.participants ↔ q ∈ room.participants ∧ q ∉ ids := by
  rw [← AList.lookup_isSome, ← AList.lookup_isSome, lookup_removeParticipants]
  split <;> simp [*]

theorem mem_screenSharesOf {ownerId q : ParticipantId} : q ∈ room.screenSharesOf ownerId ↔
    ∃ c, room.participants.lookup q = some c ∧ c.participant.screenShareOf = some ownerId := by
  simp only [screenSharesOf, List.mem_map, List.mem_filter, decide_eq_true_eq]
  constructor
  · intro h
    obtain ⟨⟨q, c⟩, ⟨hentry, hshare⟩, rfl⟩ := h
    exact ⟨c, AList.mem_lookup_iff.mpr hentry, hshare⟩
  · intro h
    obtain ⟨c, hlookup, hshare⟩ := h
    exact ⟨⟨q, c⟩, ⟨AList.mem_lookup_iff.mp hlookup, hshare⟩, rfl⟩

theorem mem_participantsOfUser {userId : Uuid} {q : ParticipantId} :
    q ∈ room.participantsOfUser userId ↔
      ∃ c, room.participants.lookup q = some c ∧ c.participant.userId = some userId := by
  simp only [participantsOfUser, List.mem_map, List.mem_filter, decide_eq_true_eq]
  constructor
  · intro h
    obtain ⟨⟨q, c⟩, ⟨hentry, huser⟩, rfl⟩ := h
    exact ⟨c, AList.mem_lookup_iff.mpr hentry, huser⟩
  · intro h
    obtain ⟨c, hlookup, huser⟩ := h
    exact ⟨⟨q, c⟩, ⟨AList.mem_lookup_iff.mp hlookup, huser⟩, rfl⟩

/-- What removing any number of participants leaves alone. -/
theorem removeParticipants_frame (ids : List ParticipantId) :
    let after := (room.removeParticipants ids).1
    after.id = room.id ∧ after.revoked = room.revoked ∧
      after.deniedUserIds = room.deniedUserIds ∧ after.chatHistory = room.chatHistory ∧
      after.lastChatMessageId = room.lastChatMessageId := by
  induction ids generalizing room with
  | nil => simp [removeParticipants]
  | cons id rest ih =>
    have h := ih (room.removeParticipant id).1
    simpa [removeParticipants] using h

@[simp] theorem removeParticipants_id (ids : List ParticipantId) :
    (room.removeParticipants ids).1.id = room.id := (room.removeParticipants_frame ids).1

theorem removeWithScreenShares_frame (p : ParticipantId) :
    let after := (room.removeWithScreenShares p).1
    after.id = room.id ∧ after.revoked = room.revoked ∧
      after.deniedUserIds = room.deniedUserIds ∧ after.chatHistory = room.chatHistory ∧
      after.lastChatMessageId = room.lastChatMessageId := by
  have h := (room.removeParticipant p).1.removeParticipants_frame
    ((room.removeParticipant p).1.screenSharesOf p)
  simpa [removeWithScreenShares] using h

theorem lookup_removeWithScreenShares (p q : ParticipantId) :
    (room.removeWithScreenShares p).1.participants.lookup q =
      if q = p ∨ q ∈ (room.removeParticipant p).1.screenSharesOf p then none
      else room.participants.lookup q := by
  simp only [removeWithScreenShares, lookup_removeParticipants, removeParticipant_participants]
  by_cases hshare : q ∈ (room.removeParticipant p).1.screenSharesOf p
  · simp [hshare]
  · by_cases hp : q = p
    · subst q
      simp [hshare]
    · simp [hshare, hp]

theorem mem_removeWithScreenShares {p q : ParticipantId} :
    q ∈ (room.removeWithScreenShares p).1.participants ↔
      q ∈ room.participants ∧ q ∉ p :: (room.removeParticipant p).1.screenSharesOf p := by
  rw [← AList.lookup_isSome, ← AList.lookup_isSome, lookup_removeWithScreenShares, List.mem_cons]
  split <;> simp [*]

@[simp] theorem removeWithScreenShares_id (p : ParticipantId) :
    (room.removeWithScreenShares p).1.id = room.id := (room.removeWithScreenShares_frame p).1

end Lemmas

end Room

end OpenMeet.RoomState
