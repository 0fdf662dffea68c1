import Mathlib.Algebra.Group.Int.Defs
import OpenMeet.SharedMedia
import OpenMeet.StoredObjects

/-!
Messages with attachments, as multipart requests. The fields come in any order
and their bytes in chunks of any size; a voice field describes the file before
it. A request is accepted for what its fields say, and not for how it was cut.
-/
namespace OpenMeet.AttachmentUploads

open Text Messages Accounts
open SharedMedia (VoiceMessageDetails)
open StoredObjects (AttachmentKey)

/-! ## The handler's functions -/

def maxAttachmentBytes : ℕ := 25 * 1024 * 1024
def maxAttachmentTotalBytes : ℕ := 25 * 1024 * 1024
def maxAttachmentsPerMessage : ℕ := 10
def maxFileNameBytes : ℕ := 255
def maxContentTypeBytes : ℕ := 255
def maxReplyToSequenceBytes : ℕ := 64
def maxMessageContentBytes : ℕ := 8000
def maxVoiceDetailsBytes : ℕ := 1024
def maxVoiceWaveformBars : ℕ := 64
def maxVoiceDurationMs : ℕ := 60 * 60 * 1000

/-- A field and its chunks; the stream may fail after them. -/
structure Field where
  name : Option String
  fileName : Option String
  contentType : Option String
  chunks : List (List UInt8)
  intact : Bool
  deriving DecidableEq, Repr

/-- The fields of a request; the stream may fail after them. -/
structure Multipart where
  fields : List Field
  intact : Bool

/-- What the handler gets from elsewhere: the conversation, new ids, one for each file, and the
JSON parser for the details of a voice message. -/
structure Environment where
  conversationId : Uuid
  newId : ℕ → Uuid
  fromSlice : List UInt8 → Option VoiceMessageDetails

structure PendingAttachment where
  id : Uuid
  storageKey : AttachmentKey
  fileName : String
  contentType : String
  bytes : List UInt8
  voice : Option VoiceMessageDetails
  deriving DecidableEq

def multipartError : ApiError := ⟨400, "Invalid message attachment upload"⟩

def fieldTooLarge : ApiError :=
  ⟨413, s!"Attachment must not exceed {maxAttachmentBytes} bytes"⟩

def readChunks (maxBytes : ℕ) (intact : Bool) (bytes : List UInt8) :
    List (List UInt8) → Except ApiError (List UInt8)
  | [] => if intact then .ok bytes else .error multipartError
  | chunk :: rest =>
    if maxBytes - bytes.length < chunk.length then .error fieldTooLarge
    else readChunks maxBytes intact (bytes ++ chunk) rest

def readMultipartField (field : Field) (maxBytes : ℕ) : Except ApiError (List UInt8) :=
  readChunks maxBytes field.intact [] field.chunks

def fromUtf8 (bytes : List UInt8) : Option String := String.fromUTF8? ⟨bytes.toArray⟩

def validateAttachmentContent (content : String) : Except ApiError String :=
  let content := trim content
  if 2000 < charCount content then .error ⟨400, "Message content must not exceed 2000 characters"⟩
  else .ok content

/-- A sign, if any, and decimal digits, for a number that fits. -/
def parseI64 (text : List Char) : Option Int :=
  let (sign, digits) : Int × List Char :=
    match text with
    | '-' :: digits => (-1, digits)
    | '+' :: digits => (1, digits)
    | digits => (1, digits)
  if digits.isEmpty || !digits.all Char.isDigit then none
  else
    let value := sign * (digits.foldl (fun value digit => 10 * value + (digit.toNat - 48)) 0 : ℕ)
    if -2 ^ 63 ≤ value ∧ value < 2 ^ 63 then some value else none

def parseReplyToSequence (value : String) : Except ApiError Int :=
  match (parseI64 (trim value).toList).filter (0 < ·) with
  | some sequence => .ok sequence
  | none => .error ⟨400, "replyToSequence must be a positive integer"⟩

def toAsciiLowercase (text : String) : String := String.ofList (text.toList.map Char.toLower)

def validateAttachmentMetadata (fileName contentType : Option String) (byteSize : ℕ) :
    Except ApiError (String × String) :=
  if ¬ (1 ≤ byteSize ∧ byteSize ≤ maxAttachmentBytes) then
    .error ⟨400, s!"Attachment must be between 1 and {maxAttachmentBytes} bytes"⟩
  else
    let fileName := trim (fileName.getD "")
    if fileName.isEmpty ∨ maxFileNameBytes < fileName.utf8ByteSize ∨
        fileName.toList.any isControl then
      .error ⟨400, "Attachment file name is invalid"⟩
    else
      let contentType := contentType.getD "application/octet-stream"
      if contentType.isEmpty ∨ maxContentTypeBytes < contentType.utf8ByteSize ∨
          contentType.toList.any isControl then
        .error ⟨400, "Attachment content type is invalid"⟩
      else .ok (fileName, toAsciiLowercase contentType)

def isAudio (contentType : String) : Bool := "audio/".toList.isPrefixOf contentType.toList

def parseVoiceDetails (env : Environment) (bytes : List UInt8) (contentType : String) :
    Except ApiError VoiceMessageDetails :=
  if ¬ isAudio contentType then
    .error ⟨400, "voice details are only accepted for audio files"⟩
  else
    match env.fromSlice bytes with
    | none => .error ⟨400, "voice must be JSON with durationMs and waveform"⟩
    | some details =>
      if ¬ (1 ≤ details.durationMs ∧ details.durationMs ≤ maxVoiceDurationMs) then
        .error ⟨400, "voice durationMs is out of range"⟩
      else if details.waveform.isEmpty ∨ maxVoiceWaveformBars < details.waveform.length then
        .error ⟨400, "voice waveform must have between 1 and 64 bars"⟩
      else .ok details

/-- What the loop over the fields has so far. -/
structure Progress where
  content : Option String := none
  replyToSequence : Option Int := none
  attachments : List PendingAttachment := []
  attachmentBytes : ℕ := 0
  deriving DecidableEq

section Handler

variable (env : Environment) (progress : Progress) (field : Field)

def parseContent : Except ApiError Progress :=
  if progress.content.isSome then .error ⟨400, "content may only be provided once"⟩
  else do
    let bytes ← readMultipartField field maxMessageContentBytes
    match fromUtf8 bytes with
    | none => .error ⟨400, "content must be valid UTF-8"⟩
    | some content => .ok { progress with content := some content }

def parseReply : Except ApiError Progress :=
  if progress.replyToSequence.isSome then .error ⟨400, "replyToSequence may only be provided once"⟩
  else do
    let bytes ← readMultipartField field maxReplyToSequenceBytes
    match fromUtf8 bytes with
    | none => .error ⟨400, "replyToSequence must be an integer"⟩
    | some value => do
      let sequence ← parseReplyToSequence value
      .ok { progress with replyToSequence := some sequence }

def parseFile : Except ApiError Progress :=
  if progress.attachments.length = maxAttachmentsPerMessage then
    .error ⟨400, "A message may contain at most 10 attachments"⟩
  else do
    let bytes ← readMultipartField field maxAttachmentBytes
    let attachmentBytes := progress.attachmentBytes + bytes.length
    if maxAttachmentTotalBytes < attachmentBytes then
      .error ⟨413, s!"Message attachments must not exceed {maxAttachmentTotalBytes} bytes"⟩
    else do
      let (fileName, contentType) ←
        validateAttachmentMetadata field.fileName field.contentType bytes.length
      let id := env.newId progress.attachments.length
      let attachment : PendingAttachment :=
        { id := id, storageKey := ⟨env.conversationId, id⟩, fileName := fileName
          contentType := contentType, bytes := bytes, voice := none }
      .ok { progress with
        attachments := progress.attachments ++ [attachment], attachmentBytes := attachmentBytes }

/-- Describes the audio file sent just before it. -/
def parseVoice : Except ApiError Progress := do
  let bytes ← readMultipartField field maxVoiceDetailsBytes
  match progress.attachments.getLast? with
  | none => .error ⟨400, "voice must follow the file it describes"⟩
  | some attachment =>
    if attachment.voice.isSome then .error ⟨400, "voice may only be provided once per file"⟩
    else do
      let details ← parseVoiceDetails env bytes attachment.contentType
      .ok { progress with
        attachments := progress.attachments.dropLast ++
          [{ attachment with voice := some details }] }

def parseField : Except ApiError Progress :=
  match field.name with
  | none => .error ⟨400, "Multipart field name is required"⟩
  | some "content" => parseContent progress field
  | some "replyToSequence" => parseReply progress field
  | some "file" => parseFile env progress field
  | some "voice" => parseVoice env progress field
  | some _ => .error ⟨400, "Unexpected multipart field"⟩

end Handler

def parseAttachmentMessage (env : Environment) (multipart : Multipart) :
    Except ApiError (String × Option Int × List PendingAttachment) := do
  let progress ← multipart.fields.foldlM (parseField env) {}
  if ¬ multipart.intact then .error multipartError
  else do
    let content ← validateAttachmentContent (progress.content.getD "")
    if content.isEmpty ∧ progress.attachments.isEmpty then
      .error ⟨400, "Message must contain content or an attachment"⟩
    else .ok (content, progress.replyToSequence, progress.attachments)

/-! ## Metadata -/

structure ValidMetadata (fileName contentType : Option String) (byteSize : ℕ) : Prop where
  size : 1 ≤ byteSize ∧ byteSize ≤ maxAttachmentBytes
  fileName : trim (fileName.getD "") ≠ "" ∧
    (trim (fileName.getD "")).utf8ByteSize ≤ maxFileNameBytes ∧
    (trim (fileName.getD "")).toList.any isControl = false
  contentType : contentType.getD "application/octet-stream" ≠ "" ∧
    (contentType.getD "application/octet-stream").utf8ByteSize ≤ maxContentTypeBytes ∧
    (contentType.getD "application/octet-stream").toList.any isControl = false

section Metadata

variable {fileName contentType : Option String} {byteSize : ℕ}

theorem bind_ok_iff {ε α β : Type} {x : Except ε α} {f : α → Except ε β} {b : β} :
    (x >>= f) = .ok b ↔ ∃ a, x = .ok a ∧ f a = .ok b := by
  cases x with
  | error e =>
    constructor
    · intro h
      cases h
    · rintro ⟨a, ha, -⟩
      cases ha
  | ok a =>
    constructor
    · intro h
      exact ⟨a, rfl, h⟩
    · rintro ⟨a', ha, h⟩
      cases ha
      exact h

theorem error_ok_iff {ε α : Type} {e : ε} {a : α} {p : Prop} (hp : ¬ p) :
    (.error e : Except ε α) = .ok a ↔ p := by
  constructor
  · intro h
    cases h
  · intro h
    exact absurd h hp

theorem validateAttachmentMetadata_ok_iff {metadata : String × String} :
    validateAttachmentMetadata fileName contentType byteSize = .ok metadata ↔
      ValidMetadata fileName contentType byteSize ∧ metadata =
        (trim (fileName.getD ""),
          toAsciiLowercase (contentType.getD "application/octet-stream")) := by
  unfold validateAttachmentMetadata
  split
  · rename_i hsize
    exact error_ok_iff fun h => hsize h.1.size
  · rename_i hsize
    dsimp only
    split
    · rename_i hname
      refine error_ok_iff fun h => ?_
      obtain ⟨hnonempty, hlength, hcontrol⟩ := h.1.fileName
      rcases hname with hempty | hlong | hany
      · exact hnonempty (String.isEmpty_iff.mp hempty)
      · exact absurd hlong (Nat.not_lt_of_le hlength)
      · exact Bool.false_ne_true (hcontrol.symm.trans hany)
    · rename_i hname
      split
      · rename_i htype
        refine error_ok_iff fun h => ?_
        obtain ⟨hnonempty, hlength, hcontrol⟩ := h.1.contentType
        rcases htype with hempty | hlong | hany
        · exact hnonempty (String.isEmpty_iff.mp hempty)
        · exact absurd hlong (Nat.not_lt_of_le hlength)
        · exact Bool.false_ne_true (hcontrol.symm.trans hany)
      · rename_i htype
        rw [not_or, not_or] at hname htype
        have hvalid : ValidMetadata fileName contentType byteSize :=
          { size := not_not.mp hsize
            fileName := ⟨fun h => hname.1 (String.isEmpty_iff.mpr h), Nat.le_of_not_lt hname.2.1,
              Bool.eq_false_iff.mpr hname.2.2⟩
            contentType := ⟨fun h => htype.1 (String.isEmpty_iff.mpr h),
              Nat.le_of_not_lt htype.2.1, Bool.eq_false_iff.mpr htype.2.2⟩ }
        constructor
        · intro h
          cases h
          exact ⟨hvalid, rfl⟩
        · rintro ⟨-, rfl⟩
          rfl

end Metadata

end OpenMeet.AttachmentUploads
