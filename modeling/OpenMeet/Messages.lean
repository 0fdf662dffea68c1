import OpenMeet.Text

/-!
Signaling messages between a client and the server, the chat payloads they
carry, and the two text rules chat shares with conversation messages: the
excerpt that quotes a message in a reply and the check on a reaction's emoji.
Identifiers of rooms, participants and tracks are opaque strings.
-/
namespace OpenMeet.Messages

open Text

abbrev RoomId := String
abbrev ParticipantId := String
abbrev TrackId := String
abbrev Uuid := BitVec 128

instance : LawfulBEq Uuid := instLawfulBEq

structure ChatReplyPreview where
  id : Nat
  participantId : ParticipantId
  participantName : String
  message : String
  deriving DecidableEq, Repr

/-- Everyone who reacted with one emoji, in the order they reacted. -/
structure ChatMessageReaction where
  emoji : String
  participantIds : List ParticipantId
  deriving DecidableEq, Repr

structure ChatMessagePayload where
  id : Nat := 0
  participantId : ParticipantId
  participantName : String
  message : String
  timestamp : Nat
  replyTo : Option ChatReplyPreview := none
  reactions : List ChatMessageReaction := []
  deriving DecidableEq, Repr

inductive SignalingMessage
  | authenticate (protocolVersion : UInt16) (accessToken : Option String)
  | authenticated (protocolVersion : UInt16) (authenticated : Bool)
  | join (roomId : RoomId) (participantName : String) (password : Option String)
      (screenShareOf : Option ParticipantId)
  | joined (participantId : ParticipantId) (participantName : String)
  | offer (targetId : ParticipantId) (sdp : String)
  | answer (targetId : ParticipantId) (sdp : String)
  | iceCandidate (targetId : ParticipantId) (candidate : String) (sdpMid : Option String)
      (sdpMLineIndex : Option UInt16)
  | participantJoined (participantId : ParticipantId) (participantName : String)
      (screenShareOf : Option ParticipantId)
  | participantLeft (participantId : ParticipantId)
  | streamOwner (streamId : String) (participantId : ParticipantId) (participantName : String)
  | mediaStateChanged (participantId : ParticipantId) (audioEnabled videoEnabled : Bool)
  | chatMessage (id : Nat) (participantId : ParticipantId) (participantName message : String)
      (timestamp : Nat) (replyToId : Option Nat) (replyTo : Option ChatReplyPreview)
      (reactions : List ChatMessageReaction)
  | chatReaction (messageId : Nat) (emoji : String)
  | chatReactionsChanged (messageId : Nat) (reactions : List ChatMessageReaction)
  | chatHistory (messages : List ChatMessagePayload)
  | error (message : String)
  deriving DecidableEq, Repr

def ChatMessagePayload.intoSignalingMessage (m : ChatMessagePayload) : SignalingMessage :=
  .chatMessage m.id m.participantId m.participantName m.message m.timestamp none m.replyTo
    m.reactions

def replyPreviewCharacters : Nat := 140

def excerpt (content : String) : String :=
  let characters := content.toList
  let preview := String.ofList (characters.take replyPreviewCharacters)
  if replyPreviewCharacters < characters.length then preview.push '…' else preview

def maxReactionBytes : Nat := 32

/-- Reactions are emoji: short, with no letters, spaces or control characters.
Unicode's alphanumeric table is a parameter. -/
def validateReaction (isAlphanumeric : Char → Bool) (emoji : String) : Except String String :=
  let emoji := trim emoji
  if emoji ≠ "" ∧ emoji.utf8ByteSize ≤ maxReactionBytes ∧
      emoji.toList.all (fun c => !isAlphanumeric c && !isWhitespace c && !isControl c)
  then .ok emoji
  else .error "Reaction must be a single emoji"

end OpenMeet.Messages
