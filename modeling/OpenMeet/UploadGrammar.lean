import Mathlib.Algebra.GroupWithZero.Nat
import Mathlib.Data.List.TakeWhile
import OpenMeet.AttachmentUploads

/-!
Which multipart requests are accepted. The loop over the fields accepts a grammar:
the texts come once, the files stay within their limits, and every voice field
comes after the audio file it describes. What is sent lists the files in order,
each with the voice that follows it, and no chunk boundary matters.
-/
namespace OpenMeet.UploadGrammar

open Text Messages Accounts AttachmentUploads
open SharedMedia (VoiceMessageDetails)

/-! ## Fields -/

section Fields

variable (env : Environment) (field : Field)

def bytesOf : List UInt8 := field.chunks.flatten

def isNamed (name : String) : Bool := field.name = some name

def isFile : Bool := isNamed field "file"

def textOf : Option String := fromUtf8 (bytesOf field)

def sequenceOf : Option Int :=
  (textOf field).bind fun value => (parseI64 (trim value).toList).filter (0 < ·)

def fileNameOf : String := trim (field.fileName.getD "")

def givenTypeOf : String := field.contentType.getD "application/octet-stream"

def contentTypeOf : String := toAsciiLowercase (givenTypeOf field)

def detailsOf : Option VoiceMessageDetails :=
  (env.fromSlice (bytesOf field)).filter fun details =>
    1 ≤ details.durationMs ∧ details.durationMs ≤ maxVoiceDurationMs ∧
      1 ≤ details.waveform.length ∧ details.waveform.length ≤ maxVoiceWaveformBars

def HasMetadata : Prop :=
  ValidMetadata field.fileName field.contentType (bytesOf field).length

end Fields

/-! ## The grammar -/

section Grammar

variable (env : Environment) (fields : List Field)

def files : List Field := fields.filter isFile

def totalBytes : ℕ := ((files fields).map fun file => (bytesOf file).length).sum

/-- A file and then, before any other file or voice, what comes up to the voice. -/
structure Follows (before : List Field) (first : List Field) (file : Field) (middle : List Field) :
    Prop where
  splits : before = first ++ file :: middle
  file : isFile file = true
  between : ∀ field ∈ middle, isFile field = false ∧ isNamed field "voice" = false

/-- The fields that may be sent, apart from the details in the voice fields. -/
structure Grammatical : Prop where
  intact : ∀ field ∈ fields, field.intact = true
  named : ∀ field ∈ fields, field.name ∈
    [some "content", some "replyToSequence", some "file", some "voice"]
  contentOnce : (fields.filter (isNamed · "content")).length ≤ 1
  content : ∀ field ∈ fields, isNamed field "content" = true →
    (bytesOf field).length ≤ maxMessageContentBytes ∧ (textOf field).isSome = true
  replyOnce : (fields.filter (isNamed · "replyToSequence")).length ≤ 1
  reply : ∀ field ∈ fields, isNamed field "replyToSequence" = true →
    (bytesOf field).length ≤ maxReplyToSequenceBytes ∧ (sequenceOf field).isSome = true
  fileCount : (files fields).length ≤ maxAttachmentsPerMessage
  file : ∀ field ∈ fields, isFile field = true → HasMetadata field
  total : totalBytes fields ≤ maxAttachmentTotalBytes
  voice : ∀ before voice after, fields = before ++ voice :: after →
    isNamed voice "voice" = true → ∃ first file middle, Follows before first file middle ∧
      isAudio (contentTypeOf file) = true

/-- The details in the voice fields are short, and are those of a voice message. -/
def VoicesValid : Prop := ∀ field ∈ fields, isNamed field "voice" = true →
  (bytesOf field).length ≤ maxVoiceDetailsBytes ∧ (detailsOf env field).isSome = true

/-! ## What is sent -/

def givenContent : Option String := (fields.find? (isNamed · "content")).bind textOf

def givenReply : Option Int := (fields.find? (isNamed · "replyToSequence")).bind sequenceOf

def contentOf : String := trim ((givenContent fields).getD "")

/-- The text is not too long, and there is some text or a file. -/
def TextFits : Prop :=
  charCount (contentOf fields) ≤ 2000 ∧ (contentOf fields ≠ "" ∨ files fields ≠ [])

/-- The details of the voice before the next file. -/
def voiceOf : Option VoiceMessageDetails :=
  ((fields.takeWhile fun field => !isFile field).find? (isNamed · "voice")).bind (detailsOf env)

def attachmentOf (index : ℕ) (file : Field) (later : List Field) : PendingAttachment :=
  { id := env.newId index, storageKey := ⟨env.conversationId, env.newId index⟩
    fileName := fileNameOf file, contentType := contentTypeOf file, bytes := bytesOf file
    voice := voiceOf env later }

end Grammar

/-- The files in order, each with the voice that follows it. -/
def attachmentsFrom (env : Environment) : ℕ → List Field → List PendingAttachment
  | _, [] => []
  | index, field :: later =>
    if isFile field then attachmentOf env index field later :: attachmentsFrom env (index + 1) later
    else attachmentsFrom env index later

def progressOf (env : Environment) (fields : List Field) : Progress :=
  { content := givenContent fields, replyToSequence := givenReply fields
    attachments := attachmentsFrom env 0 fields, attachmentBytes := totalBytes fields }

/-! ## The handler's functions -/

section Handler

variable {env : Environment} {progress next : Progress} {field : Field} {maxBytes : ℕ}

theorem readChunks_eq (chunks : List (List UInt8)) {bytes : List UInt8} {intact : Bool}
    (h : bytes.length ≤ maxBytes) : readChunks maxBytes intact bytes chunks =
      if maxBytes < (bytes ++ chunks.flatten).length then .error fieldTooLarge
      else if intact then .ok (bytes ++ chunks.flatten) else .error multipartError := by
  induction chunks generalizing bytes with
  | nil =>
    have hfits : ¬ maxBytes < (bytes ++ [].flatten).length := by
      simpa using h
    rw [readChunks, if_neg hfits, List.flatten_nil, List.append_nil]
  | cons chunk rest ih =>
    rw [readChunks]
    split
    · rename_i hlarge
      rw [if_pos]
      simp only [List.flatten_cons, List.length_append]
      omega
    · rename_i hsmall
      have hfits : (bytes ++ chunk).length ≤ maxBytes := by
        rw [List.length_append]
        omega
      rw [ih hfits, List.flatten_cons, List.append_assoc]

/-- What is read of a field does not depend on its chunks. -/
theorem readMultipartField_eq (field : Field) (maxBytes : ℕ) : readMultipartField field maxBytes =
    if maxBytes < (bytesOf field).length then .error fieldTooLarge
    else if field.intact then .ok (bytesOf field) else .error multipartError :=
  readChunks_eq field.chunks (Nat.zero_le maxBytes)

theorem readMultipartField_ok_iff {bytes : List UInt8} :
    readMultipartField field maxBytes = .ok bytes ↔
      field.intact = true ∧ (bytesOf field).length ≤ maxBytes ∧ bytes = bytesOf field := by
  rw [readMultipartField_eq]
  split
  · rename_i hlarge
    constructor
    · intro h
      cases h
    · rintro ⟨-, hle, -⟩
      omega
  · rename_i hsmall
    split
    · rename_i hintact
      constructor
      · intro h
        cases h
        exact ⟨hintact, Nat.le_of_not_lt hsmall, rfl⟩
      · rintro ⟨-, -, rfl⟩
        rfl
    · rename_i hintact
      constructor
      · intro h
        cases h
      · rintro ⟨h, -, -⟩
        exact absurd h hintact

theorem parseReplyToSequence_ok_iff {value : String} {sequence : Int} :
    parseReplyToSequence value = .ok sequence ↔
      (parseI64 (trim value).toList).filter (0 < ·) = some sequence := by
  unfold parseReplyToSequence
  cases (parseI64 (trim value).toList).filter (0 < ·) with
  | none =>
    constructor
    · intro h
      cases h
    · intro h
      cases h
  | some other =>
    constructor
    · intro h
      cases h
      rfl
    · intro h
      cases h
      rfl

theorem parseVoiceDetails_ok_iff {contentType : String} {details : VoiceMessageDetails} :
    parseVoiceDetails env (bytesOf field) contentType = .ok details ↔
      isAudio contentType = true ∧ detailsOf env field = some details := by
  unfold parseVoiceDetails
  split
  · rename_i haudio
    exact error_ok_iff fun h => haudio h.1
  · rename_i haudio
    rw [Decidable.not_not] at haudio
    cases hparsed : env.fromSlice (bytesOf field) with
    | none =>
      refine error_ok_iff fun h => ?_
      rw [detailsOf, hparsed] at h
      cases h.2
    | some parsed =>
      have hwaveform : (parsed.waveform.isEmpty = true ∨
          maxVoiceWaveformBars < parsed.waveform.length) ↔
          ¬ (1 ≤ parsed.waveform.length ∧ parsed.waveform.length ≤ maxVoiceWaveformBars) := by
        rw [List.isEmpty_iff_length_eq_zero]
        omega
      rw [detailsOf, hparsed, Option.filter_some]
      dsimp only
      by_cases hduration : 1 ≤ parsed.durationMs ∧ parsed.durationMs ≤ maxVoiceDurationMs
      · rw [if_neg (not_not.mpr hduration)]
        by_cases hbars : 1 ≤ parsed.waveform.length ∧ parsed.waveform.length ≤ maxVoiceWaveformBars
        · rw [if_neg (not_not.mpr hbars ∘ hwaveform.mp),
            if_pos (decide_eq_true ⟨hduration.1, hduration.2, hbars⟩)]
          constructor
          · intro h
            cases h
            exact ⟨haudio, rfl⟩
          · rintro ⟨-, h⟩
            cases h
            rfl
        · rw [if_pos (hwaveform.mpr hbars)]
          refine error_ok_iff fun h => ?_
          obtain ⟨hvalid, -⟩ := Option.ite_none_right_eq_some.mp h.2
          exact hbars (of_decide_eq_true hvalid).2.2
      · rw [if_pos hduration]
        refine error_ok_iff fun h => ?_
        obtain ⟨hvalid, -⟩ := Option.ite_none_right_eq_some.mp h.2
        have hvalid := of_decide_eq_true hvalid
        exact hduration ⟨hvalid.1, hvalid.2.1⟩

theorem parseContent_ok_iff : parseContent progress field = .ok next ↔
    progress.content = none ∧ field.intact = true ∧
      (bytesOf field).length ≤ maxMessageContentBytes ∧
      ∃ text, textOf field = some text ∧ next = { progress with content := some text } := by
  unfold parseContent
  split
  · rename_i hgiven
    refine error_ok_iff fun h => ?_
    rw [h.1] at hgiven
    cases hgiven
  · rename_i hgiven
    rw [Option.not_isSome_iff_eq_none] at hgiven
    rw [bind_ok_iff]
    constructor
    · rintro ⟨bytes, hread, h⟩
      obtain ⟨hintact, hlength, rfl⟩ := readMultipartField_ok_iff.mp hread
      cases htext : fromUtf8 (bytesOf field) with
      | none =>
        rw [htext] at h
        cases h
      | some text =>
        rw [htext] at h
        cases h
        exact ⟨hgiven, hintact, hlength, text, htext, rfl⟩
    · rintro ⟨-, hintact, hlength, text, htext, rfl⟩
      refine ⟨bytesOf field, readMultipartField_ok_iff.mpr ⟨hintact, hlength, rfl⟩, ?_⟩
      rw [textOf] at htext
      rw [htext]

theorem parseReply_ok_iff : parseReply progress field = .ok next ↔
    progress.replyToSequence = none ∧ field.intact = true ∧
      (bytesOf field).length ≤ maxReplyToSequenceBytes ∧
      ∃ sequence, sequenceOf field = some sequence ∧
        next = { progress with replyToSequence := some sequence } := by
  unfold parseReply
  split
  · rename_i hgiven
    refine error_ok_iff fun h => ?_
    rw [h.1] at hgiven
    cases hgiven
  · rename_i hgiven
    rw [Option.not_isSome_iff_eq_none] at hgiven
    rw [bind_ok_iff]
    constructor
    · rintro ⟨bytes, hread, h⟩
      obtain ⟨hintact, hlength, rfl⟩ := readMultipartField_ok_iff.mp hread
      cases htext : fromUtf8 (bytesOf field) with
      | none =>
        rw [htext] at h
        cases h
      | some value =>
        rw [htext] at h
        obtain ⟨sequence, hsequence, h⟩ := bind_ok_iff.mp h
        cases h
        refine ⟨hgiven, hintact, hlength, sequence, ?_, rfl⟩
        rw [sequenceOf, textOf, htext, Option.bind_some]
        exact parseReplyToSequence_ok_iff.mp hsequence
    · rintro ⟨-, hintact, hlength, sequence, hsequence, rfl⟩
      obtain ⟨value, htext, hvalue⟩ := Option.bind_eq_some_iff.mp hsequence
      refine ⟨bytesOf field, readMultipartField_ok_iff.mpr ⟨hintact, hlength, rfl⟩, ?_⟩
      rw [textOf] at htext
      rw [htext]
      exact bind_ok_iff.mpr ⟨sequence, parseReplyToSequence_ok_iff.mpr hvalue, rfl⟩

theorem parseFile_ok_iff (hlength : progress.attachments.length ≤ maxAttachmentsPerMessage) :
    parseFile env progress field = .ok next ↔
      progress.attachments.length < maxAttachmentsPerMessage ∧ field.intact = true ∧
      HasMetadata field ∧
      progress.attachmentBytes + (bytesOf field).length ≤ maxAttachmentTotalBytes ∧
      next = { progress with
        attachments := progress.attachments ++
          [attachmentOf env progress.attachments.length field []]
        attachmentBytes := progress.attachmentBytes + (bytesOf field).length } := by
  unfold parseFile
  split
  · rename_i hfull
    exact error_ok_iff fun h => absurd hfull h.1.ne
  · rename_i hroom
    rw [bind_ok_iff]
    constructor
    · rintro ⟨bytes, hread, h⟩
      obtain ⟨hintact, hsize, rfl⟩ := readMultipartField_ok_iff.mp hread
      dsimp only at h
      split at h
      · cases h
      · rename_i htotal
        obtain ⟨metadata, hmetadata, h⟩ := bind_ok_iff.mp h
        obtain ⟨hvalid, rfl⟩ := validateAttachmentMetadata_ok_iff.mp hmetadata
        cases h
        exact ⟨Nat.lt_of_le_of_ne hlength hroom, hintact, hvalid, Nat.le_of_not_lt htotal, rfl⟩
    · rintro ⟨-, hintact, hvalid, htotal, rfl⟩
      refine ⟨bytesOf field, readMultipartField_ok_iff.mpr ⟨hintact, hvalid.size.2, rfl⟩, ?_⟩
      dsimp only
      rw [if_neg (Nat.not_lt_of_le htotal)]
      exact bind_ok_iff.mpr
        ⟨_, validateAttachmentMetadata_ok_iff.mpr ⟨hvalid, rfl⟩, rfl⟩

theorem parseVoice_ok_iff : parseVoice env progress field = .ok next ↔
    field.intact = true ∧ (bytesOf field).length ≤ maxVoiceDetailsBytes ∧
      ∃ earlier attachment details, progress.attachments = earlier ++ [attachment] ∧
        attachment.voice = none ∧ isAudio attachment.contentType = true ∧
        detailsOf env field = some details ∧
        next = { progress with
          attachments := earlier ++ [{ attachment with voice := some details }] } := by
  unfold parseVoice
  rw [bind_ok_iff]
  constructor
  · rintro ⟨bytes, hread, h⟩
    obtain ⟨hintact, hlength, rfl⟩ := readMultipartField_ok_iff.mp hread
    cases hlast : progress.attachments.getLast? with
    | none =>
      rw [hlast] at h
      cases h
    | some attachment =>
      rw [hlast] at h
      dsimp only at h
      split at h
      · cases h
      · rename_i hvoice
        obtain ⟨details, hdetails, h⟩ := bind_ok_iff.mp h
        obtain ⟨haudio, hvalid⟩ := parseVoiceDetails_ok_iff.mp hdetails
        cases h
        refine ⟨hintact, hlength, progress.attachments.dropLast, attachment, details, ?_, ?_,
          haudio, hvalid, rfl⟩
        · exact (List.dropLast_append_getLast? attachment hlast).symm
        · exact Option.not_isSome_iff_eq_none.mp hvoice
  · rintro ⟨hintact, hlength, earlier, attachment, details, hlast, hvoice, haudio, hvalid, rfl⟩
    refine ⟨bytesOf field, readMultipartField_ok_iff.mpr ⟨hintact, hlength, rfl⟩, ?_⟩
    rw [hlast, List.getLast?_concat]
    dsimp only
    rw [if_neg (by rw [hvoice]; exact Bool.false_ne_true), List.dropLast_concat]
    exact bind_ok_iff.mpr ⟨details, parseVoiceDetails_ok_iff.mpr ⟨haudio, hvalid⟩, rfl⟩

end Handler

/-! ## One more field -/

/-- A field that the fields before it allow. -/
structure Extends (env : Environment) (fields : List Field) (field : Field) : Prop where
  intact : field.intact = true
  named : field.name ∈ [some "content", some "replyToSequence", some "file", some "voice"]
  content : isNamed field "content" = true → (∀ other ∈ fields, isNamed other "content" = false) ∧
    (bytesOf field).length ≤ maxMessageContentBytes ∧ (textOf field).isSome = true
  reply : isNamed field "replyToSequence" = true →
    (∀ other ∈ fields, isNamed other "replyToSequence" = false) ∧
      (bytesOf field).length ≤ maxReplyToSequenceBytes ∧ (sequenceOf field).isSome = true
  file : isFile field = true → (files fields).length < maxAttachmentsPerMessage ∧
    HasMetadata field ∧ totalBytes fields + (bytesOf field).length ≤ maxAttachmentTotalBytes
  voice : isNamed field "voice" = true →
    (∃ first file middle, Follows fields first file middle ∧ isAudio (contentTypeOf file) = true) ∧
      (bytesOf field).length ≤ maxVoiceDetailsBytes ∧ (detailsOf env field).isSome = true

section Concat

variable {env : Environment} {fields : List Field} {field : Field} {name : String}

theorem forall_concat_iff {p : Field → Prop} :
    (∀ other ∈ fields ++ [field], p other) ↔ (∀ other ∈ fields, p other) ∧ p field := by
  rw [List.forall_mem_append, List.forall_mem_singleton]

theorem once_concat_iff : ((fields ++ [field]).filter (isNamed · name)).length ≤ 1 ↔
    (fields.filter (isNamed · name)).length ≤ 1 ∧
      (isNamed field name = true → ∀ other ∈ fields, isNamed other name = false) := by
  have hnone : fields.filter (isNamed · name) = [] ↔
      ∀ other ∈ fields, isNamed other name = false := by
    simp only [List.filter_eq_nil_iff, Bool.not_eq_true]
  have hsingle : [field].filter (isNamed · name) =
      if isNamed field name = true then [field] else [] := by
    rw [List.filter_cons, List.filter_nil]
  rw [List.filter_append, List.length_append, ← hnone, ← List.length_eq_zero_iff, hsingle]
  split
  · rename_i hname
    rw [List.length_singleton]
    simp only [hname, forall_const]
    omega
  · rename_i hname
    simp only [hname, List.length_nil, Nat.add_zero, false_implies, and_true, Bool.false_eq_true]

theorem files_concat : files (fields ++ [field]) =
    files fields ++ if isFile field = true then [field] else [] := by
  unfold files
  rw [List.filter_append, List.filter_cons, List.filter_nil]

theorem totalBytes_concat : totalBytes (fields ++ [field]) =
    totalBytes fields + if isFile field = true then (bytesOf field).length else 0 := by
  unfold totalBytes
  rw [files_concat, List.map_append, List.sum_append]
  split
  · rw [List.map_singleton, List.sum_singleton]
  · rw [List.map_nil, List.sum_nil]

theorem splits_concat_iff {p : List Field → Field → Prop} :
    (∀ before voice after, fields ++ [field] = before ++ voice :: after → p before voice) ↔
      (∀ before voice after, fields = before ++ voice :: after → p before voice) ∧
        p fields field := by
  constructor
  · intro h
    refine ⟨fun before voice after hsplit => ?_, h fields field [] rfl⟩
    refine h before voice (after ++ [field]) ?_
    rw [hsplit, List.append_assoc, List.cons_append]
  · rintro ⟨h, hfield⟩ before voice after hsplit
    rcases List.eq_nil_or_concat after with rfl | ⟨after, last, rfl⟩
    · obtain ⟨rfl, hlast⟩ := List.append_inj' hsplit rfl
      cases hlast
      exact hfield
    · have hsplit' : fields ++ [field] = (before ++ voice :: after) ++ [last] := by
        rw [hsplit]
        simp
      obtain ⟨hfields, -⟩ := List.append_inj' hsplit' rfl
      exact h before voice after hfields

/-- Fields are well formed one after the other. -/
theorem wellFormed_concat_iff :
    (Grammatical (fields ++ [field]) ∧ VoicesValid env (fields ++ [field])) ↔
      (Grammatical fields ∧ VoicesValid env fields) ∧ Extends env fields field := by
  have hcount : (files (fields ++ [field])).length ≤ maxAttachmentsPerMessage ↔
      (files fields).length ≤ maxAttachmentsPerMessage ∧
        (isFile field = true → (files fields).length < maxAttachmentsPerMessage) := by
    rw [files_concat, List.length_append]
    split
    · rename_i hfile
      rw [List.length_singleton]
      simp only [hfile, forall_const]
      omega
    · rename_i hfile
      simp only [hfile, List.length_nil, Nat.add_zero, false_implies, and_true, Bool.false_eq_true]
  have htotal : totalBytes (fields ++ [field]) ≤ maxAttachmentTotalBytes ↔
      totalBytes fields ≤ maxAttachmentTotalBytes ∧ (isFile field = true →
        totalBytes fields + (bytesOf field).length ≤ maxAttachmentTotalBytes) := by
    rw [totalBytes_concat]
    split
    · rename_i hfile
      simp only [hfile, forall_const]
      omega
    · rename_i hfile
      simp only [hfile, Nat.add_zero, false_implies, and_true, Bool.false_eq_true]
  constructor
  · rintro ⟨h, hvoices⟩
    obtain ⟨hintact, hintact'⟩ := forall_concat_iff.mp h.intact
    obtain ⟨hnamed, hnamed'⟩ := forall_concat_iff.mp h.named
    obtain ⟨honce, honce'⟩ := once_concat_iff.mp h.contentOnce
    obtain ⟨hcontent, hcontent'⟩ := forall_concat_iff.mp h.content
    obtain ⟨hreplyOnce, hreplyOnce'⟩ := once_concat_iff.mp h.replyOnce
    obtain ⟨hreply, hreply'⟩ := forall_concat_iff.mp h.reply
    obtain ⟨hfiles, hfiles'⟩ := hcount.mp h.fileCount
    obtain ⟨hfile, hfile'⟩ := forall_concat_iff.mp h.file
    obtain ⟨hbytes, hbytes'⟩ := htotal.mp h.total
    obtain ⟨hvoice, hvoice'⟩ := splits_concat_iff.mp h.voice
    obtain ⟨hvalid, hvalid'⟩ := forall_concat_iff.mp hvoices
    refine ⟨⟨⟨hintact, hnamed, honce, hcontent, hreplyOnce, hreply, hfiles, hfile, hbytes, hvoice⟩,
      hvalid⟩, ⟨hintact', hnamed', ?_, ?_, ?_, ?_⟩⟩
    · exact fun hname => ⟨honce' hname, hcontent' hname⟩
    · exact fun hname => ⟨hreplyOnce' hname, hreply' hname⟩
    · exact fun hname => ⟨hfiles' hname, hfile' hname, hbytes' hname⟩
    · exact fun hname => ⟨hvoice' hname, hvalid' hname⟩
  · rintro ⟨⟨h, hvoices⟩, hfield⟩
    refine ⟨⟨?_, ?_, ?_, ?_, ?_, ?_, ?_, ?_, ?_, ?_⟩, ?_⟩
    · exact forall_concat_iff.mpr ⟨h.intact, hfield.intact⟩
    · exact forall_concat_iff.mpr ⟨h.named, hfield.named⟩
    · exact once_concat_iff.mpr ⟨h.contentOnce, fun hname => (hfield.content hname).1⟩
    · exact forall_concat_iff.mpr ⟨h.content, fun hname => (hfield.content hname).2⟩
    · exact once_concat_iff.mpr ⟨h.replyOnce, fun hname => (hfield.reply hname).1⟩
    · exact forall_concat_iff.mpr ⟨h.reply, fun hname => (hfield.reply hname).2⟩
    · exact hcount.mpr ⟨h.fileCount, fun hname => (hfield.file hname).1⟩
    · exact forall_concat_iff.mpr ⟨h.file, fun hname => (hfield.file hname).2.1⟩
    · exact htotal.mpr ⟨h.total, fun hname => (hfield.file hname).2.2⟩
    · exact splits_concat_iff.mpr ⟨h.voice, fun hname => (hfield.voice hname).1⟩
    · exact forall_concat_iff.mpr ⟨hvoices, fun hname => (hfield.voice hname).2⟩

end Concat

/-! ## What the loop has -/

section Sent

variable {env : Environment} {fields first middle : List Field} {field file : Field} {name : String}

theorem voiceOf_append_file (hfile : isFile file = true) (first later : List Field) :
    voiceOf env (first ++ file :: later) = voiceOf env first := by
  have htake : (first ++ file :: later).takeWhile (fun field => !isFile field) =
      first.takeWhile fun field => !isFile field := by
    induction first with
    | nil =>
      rw [List.nil_append, List.takeWhile_cons_of_neg (by rw [hfile]; exact Bool.false_ne_true),
        List.takeWhile_nil]
    | cons other rest ih => rw [List.cons_append, List.takeWhile_cons, List.takeWhile_cons, ih]
  rw [voiceOf, htake, voiceOf]

theorem attachmentsFrom_append_file (hfile : isFile file = true) (first later : List Field)
    (index : ℕ) : attachmentsFrom env index (first ++ file :: later) =
      attachmentsFrom env index first ++
        attachmentsFrom env (index + (files first).length) (file :: later) := by
  induction first generalizing index with
  | nil => rfl
  | cons other rest ih =>
    rw [List.cons_append, attachmentsFrom, attachmentsFrom]
    cases hother : isFile other with
    | true =>
      have hfiles : files (other :: rest) = other :: files rest := List.filter_cons_of_pos hother
      have hindex : index + (files (other :: rest)).length = index + 1 + (files rest).length := by
        rw [hfiles, List.length_cons]
        omega
      rw [if_pos rfl, if_pos rfl, ih, hindex, List.cons_append]
      congr 1
      rw [attachmentOf, voiceOf_append_file hfile, attachmentOf]
    | false =>
      have hfiles : files (other :: rest) = files rest :=
        List.filter_cons_of_neg (by rw [hother]; exact Bool.false_ne_true)
      rw [if_neg Bool.false_ne_true, if_neg Bool.false_ne_true, ih, hfiles]

theorem attachmentsFrom_of_forall (h : ∀ field ∈ fields, isFile field = false) (index : ℕ) :
    attachmentsFrom env index fields = [] := by
  induction fields with
  | nil => rfl
  | cons other rest ih =>
    obtain ⟨hother, hrest⟩ := List.forall_mem_cons.mp h
    rw [attachmentsFrom, if_neg (by rw [hother]; exact Bool.false_ne_true)]
    exact ih hrest

/-- The last attachment is that of the last file. -/
theorem attachmentsFrom_last (hfile : isFile file = true)
    (hmiddle : ∀ field ∈ middle, isFile field = false) (first : List Field) :
    attachmentsFrom env 0 (first ++ file :: middle) =
      attachmentsFrom env 0 first ++ [attachmentOf env (files first).length file middle] := by
  rw [attachmentsFrom_append_file hfile, Nat.zero_add, attachmentsFrom, if_pos hfile,
    attachmentsFrom_of_forall hmiddle]

theorem length_attachmentsFrom (index : ℕ) :
    (attachmentsFrom env index fields).length = (files fields).length := by
  induction fields generalizing index with
  | nil => rfl
  | cons other rest ih =>
    unfold files at ih ⊢
    rw [attachmentsFrom, List.filter_cons]
    split
    · rw [List.length_cons, List.length_cons, ih]
    · exact ih index

theorem voiceOf_concat (hvoice : isNamed field "voice" = false) :
    voiceOf env (fields ++ [field]) = voiceOf env fields := by
  have hfind : ((fields ++ [field]).takeWhile fun field => !isFile field).find?
      (isNamed · "voice") =
      (fields.takeWhile fun field => !isFile field).find? (isNamed · "voice") := by
    induction fields with
    | nil =>
      rw [List.nil_append, List.takeWhile_cons]
      split
      · rw [List.find?_cons, hvoice, List.takeWhile_nil]
      · rw [List.takeWhile_nil]
    | cons other rest ih =>
      rw [List.cons_append, List.takeWhile_cons, List.takeWhile_cons]
      split
      · rw [List.find?_cons, List.find?_cons, ih]
      · rfl
  rw [voiceOf, hfind, voiceOf]

/-- A field that is neither a file nor a voice changes no attachment. -/
theorem attachmentsFrom_concat (hfile : isFile field = false)
    (hvoice : isNamed field "voice" = false) (index : ℕ) :
    attachmentsFrom env index (fields ++ [field]) = attachmentsFrom env index fields := by
  induction fields generalizing index with
  | nil => exact attachmentsFrom_of_forall (List.forall_mem_singleton.mpr hfile) index
  | cons other rest ih =>
    rw [List.cons_append, attachmentsFrom, attachmentsFrom, ih, ih, attachmentOf,
      voiceOf_concat hvoice, attachmentOf]

/-- What was given under a name, if its fields can be read. -/
theorem given_eq_none_iff {α : Type} {read : Field → Option α}
    (hread : ∀ field ∈ fields, isNamed field name = true → (read field).isSome = true) :
    (fields.find? (isNamed · name)).bind read = none ↔
      ∀ field ∈ fields, isNamed field name = false := by
  constructor
  · intro h
    cases hfind : fields.find? (isNamed · name) with
    | none =>
      intro field hfield
      exact Bool.eq_false_iff.mpr (List.find?_eq_none.mp hfind field hfield)
    | some given =>
      have hsome := hread given (List.mem_of_find?_eq_some hfind)
        (List.find?_some (p := fun field => isNamed field name) hfind)
      rw [hfind, Option.bind_some] at h
      rw [h] at hsome
      cases hsome
  · intro h
    have hnone : fields.find? (isNamed · name) = none :=
      List.find?_eq_none.mpr fun field hfield => by
        rw [h field hfield]
        exact Bool.false_ne_true
    rw [hnone, Option.bind_none]

theorem given_concat {α : Type} (read : Field → Option α) (hname : isNamed field name = false) :
    ((fields ++ [field]).find? (isNamed · name)).bind read =
      (fields.find? (isNamed · name)).bind read := by
  rw [List.find?_append, List.find?_cons, hname, List.find?_nil, Option.or_none]

theorem given_concat_new {α : Type} (read : Field → Option α) (hname : isNamed field name = true)
    (hfirst : ∀ other ∈ fields, isNamed other name = false) :
    ((fields ++ [field]).find? (isNamed · name)).bind read = read field := by
  have hnone : fields.find? (isNamed · name) = none :=
    List.find?_eq_none.mpr fun other hother => by
      rw [hfirst other hother]
      exact Bool.false_ne_true
  rw [List.find?_append, hnone, List.find?_cons, hname, Option.none_or, Option.bind_some]

theorem voiceOf_eq_none_iff (hmiddle : ∀ field ∈ middle, isFile field = false)
    (hvalid : ∀ field ∈ middle, isNamed field "voice" = true →
      (detailsOf env field).isSome = true) :
    voiceOf env middle = none ↔ ∀ field ∈ middle, isNamed field "voice" = false := by
  have htake : (middle.takeWhile fun field => !isFile field) = middle :=
    List.takeWhile_eq_self_iff.mpr fun field hfield => by
      rw [hmiddle field hfield]
      rfl
  rw [voiceOf, htake]
  exact given_eq_none_iff hvalid

theorem exists_last_file (h : files fields ≠ []) : ∃ first file middle,
    fields = first ++ file :: middle ∧ isFile file = true ∧
      ∀ field ∈ middle, isFile field = false := by
  induction fields using List.reverseRecOn with
  | nil => exact absurd rfl h
  | append_singleton fields field ih =>
    cases hfield : isFile field with
    | true => exact ⟨fields, field, [], rfl, hfield, fun other hother => by cases hother⟩
    | false =>
      rw [files_concat, hfield, if_neg Bool.false_ne_true, List.append_nil] at h
      obtain ⟨first, file, middle, rfl, hfile, hmiddle⟩ := ih h
      refine ⟨first, file, middle ++ [field], by simp, hfile,
        forall_concat_iff.mpr ⟨hmiddle, hfield⟩⟩

theorem isNamed_eq {given : String} (h : field.name = some given) (name : String) :
    isNamed field name = decide (given = name) := by
  rw [isNamed, h]
  exact decide_eq_decide.mpr Option.some_inj

theorem progressOf_content (hname : field.name = some "content")
    (hfirst : ∀ other ∈ fields, isNamed other "content" = false) :
    progressOf env (fields ++ [field]) =
      { progressOf env fields with content := textOf field } := by
  have hfile : isFile field = false := isNamed_eq hname "file"
  have hcontent : givenContent (fields ++ [field]) = textOf field :=
    given_concat_new textOf (isNamed_eq hname "content") hfirst
  have hreply : givenReply (fields ++ [field]) = givenReply fields :=
    given_concat sequenceOf (isNamed_eq hname "replyToSequence")
  have hattachments : attachmentsFrom env 0 (fields ++ [field]) = attachmentsFrom env 0 fields :=
    attachmentsFrom_concat hfile (isNamed_eq hname "voice") 0
  simp only [progressOf, hcontent, hreply, hattachments, totalBytes_concat, hfile, Nat.add_zero,
    Bool.false_eq_true, if_false]

theorem progressOf_reply (hname : field.name = some "replyToSequence")
    (hfirst : ∀ other ∈ fields, isNamed other "replyToSequence" = false) :
    progressOf env (fields ++ [field]) =
      { progressOf env fields with replyToSequence := sequenceOf field } := by
  have hfile : isFile field = false := isNamed_eq hname "file"
  have hcontent : givenContent (fields ++ [field]) = givenContent fields :=
    given_concat textOf (isNamed_eq hname "content")
  have hreply : givenReply (fields ++ [field]) = sequenceOf field :=
    given_concat_new sequenceOf (isNamed_eq hname "replyToSequence") hfirst
  have hattachments : attachmentsFrom env 0 (fields ++ [field]) = attachmentsFrom env 0 fields :=
    attachmentsFrom_concat hfile (isNamed_eq hname "voice") 0
  simp only [progressOf, hcontent, hreply, hattachments, totalBytes_concat, hfile, Nat.add_zero,
    Bool.false_eq_true, if_false]

theorem progressOf_file (hname : field.name = some "file") :
    progressOf env (fields ++ [field]) =
      { progressOf env fields with
        attachments := attachmentsFrom env 0 fields ++
          [attachmentOf env (files fields).length field []]
        attachmentBytes := totalBytes fields + (bytesOf field).length } := by
  have hfile : isFile field = true := isNamed_eq hname "file"
  have hcontent : givenContent (fields ++ [field]) = givenContent fields :=
    given_concat textOf (isNamed_eq hname "content")
  have hreply : givenReply (fields ++ [field]) = givenReply fields :=
    given_concat sequenceOf (isNamed_eq hname "replyToSequence")
  have hattachments : attachmentsFrom env 0 (fields ++ [field]) =
      attachmentsFrom env 0 fields ++ [attachmentOf env (files fields).length field []] :=
    attachmentsFrom_last hfile (fun other hother => absurd hother List.not_mem_nil) fields
  simp only [progressOf, hcontent, hreply, hattachments, totalBytes_concat, hfile, if_true]

theorem progressOf_voice (hname : field.name = some "voice")
    (h : Follows fields first file middle) :
    progressOf env (fields ++ [field]) =
      { progressOf env fields with
        attachments := attachmentsFrom env 0 first ++
          [{ attachmentOf env (files first).length file middle with
            voice := detailsOf env field }] } := by
  have hfile : isFile field = false := isNamed_eq hname "file"
  have hvoice : isNamed field "voice" = true := isNamed_eq hname "voice"
  have hcontent : givenContent (fields ++ [field]) = givenContent fields :=
    given_concat textOf (isNamed_eq hname "content")
  have hreply : givenReply (fields ++ [field]) = givenReply fields :=
    given_concat sequenceOf (isNamed_eq hname "replyToSequence")
  have hlater : ∀ other ∈ middle ++ [field], isFile other = false :=
    forall_concat_iff.mpr ⟨fun other hother => (h.between other hother).1, hfile⟩
  have hsplit : fields ++ [field] = first ++ file :: (middle ++ [field]) := by
    rw [h.splits]
    simp
  have hattachments : attachmentsFrom env 0 (fields ++ [field]) = attachmentsFrom env 0 first ++
      [{ attachmentOf env (files first).length file middle with
        voice := detailsOf env field }] := by
    have hread : voiceOf env (middle ++ [field]) = detailsOf env field := by
      have htake : ((middle ++ [field]).takeWhile fun field => !isFile field) = middle ++ [field] :=
        List.takeWhile_eq_self_iff.mpr fun other hother => by
          rw [hlater other hother]
          rfl
      rw [voiceOf, htake]
      exact given_concat_new (detailsOf env) hvoice fun other hother => (h.between other hother).2
    rw [hsplit, attachmentsFrom_last h.file hlater, attachmentOf, hread, attachmentOf]
  simp only [progressOf, hcontent, hreply, hattachments, totalBytes_concat, hfile, Nat.add_zero,
    Bool.false_eq_true, if_false]

/-- A voice can follow the last attachment if and only if it can follow a file. -/
theorem exists_follows_iff (h : Grammatical fields) (hvoices : VoicesValid env fields) :
    (∃ earlier attachment, attachmentsFrom env 0 fields = earlier ++ [attachment] ∧
      attachment.voice = none ∧ isAudio attachment.contentType = true) ↔
    ∃ first file middle, Follows fields first file middle ∧
      isAudio (contentTypeOf file) = true := by
  constructor
  · rintro ⟨earlier, attachment, hlast, hvoice, haudio⟩
    have hnonempty : files fields ≠ [] := by
      intro hnil
      have hlength : (attachmentsFrom env 0 fields).length = (files fields).length :=
        length_attachmentsFrom 0
      rw [hlast, hnil, List.length_append] at hlength
      cases hlength
    obtain ⟨first, file, middle, rfl, hfile, hmiddle⟩ := exists_last_file hnonempty
    rw [attachmentsFrom_last hfile hmiddle] at hlast
    obtain ⟨-, hattachment⟩ := List.append_inj' hlast rfl
    cases hattachment
    have hvalid : ∀ other ∈ middle, isNamed other "voice" = true →
        (detailsOf env other).isSome = true := fun other hother hname =>
      (hvoices other (List.mem_append_right _ (List.mem_cons_of_mem file hother)) hname).2
    have hnone := (voiceOf_eq_none_iff hmiddle hvalid).mp hvoice
    exact ⟨first, file, middle, ⟨rfl, hfile, fun other hother =>
      ⟨hmiddle other hother, hnone other hother⟩⟩, haudio⟩
  · rintro ⟨first, file, middle, hfollows, haudio⟩
    have hmiddle : ∀ other ∈ middle, isFile other = false := fun other hother =>
      (hfollows.between other hother).1
    refine ⟨attachmentsFrom env 0 first, attachmentOf env (files first).length file middle, ?_, ?_,
      haudio⟩
    · rw [hfollows.splits, attachmentsFrom_last hfollows.file hmiddle]
    · refine (voiceOf_eq_none_iff hmiddle fun other hother hname => ?_).mpr fun other hother =>
        (hfollows.between other hother).2
      rw [(hfollows.between other hother).2] at hname
      cases hname

end Sent

/-! ## Runs -/

section Runs

variable {env : Environment} {fields : List Field} {field : Field} {next : Progress}

theorem parseField_content (h : Grammatical fields) (hname : field.name = some "content") :
    parseField env (progressOf env fields) field = .ok next ↔
      Extends env fields field ∧ next = progressOf env (fields ++ [field]) := by
  have hparse : parseField env (progressOf env fields) field =
      parseContent (progressOf env fields) field := by
    simp only [parseField, hname]
  have hnone : (progressOf env fields).content = none ↔
      ∀ other ∈ fields, isNamed other "content" = false :=
    given_eq_none_iff fun other hother hother' => (h.content other hother hother').2
  rw [hparse, parseContent_ok_iff, hnone]
  constructor
  · rintro ⟨hfirst, hintact, hlength, text, htext, rfl⟩
    have hsome : (textOf field).isSome = true := Option.isSome_of_eq_some htext
    refine ⟨⟨hintact, ?_, fun _ => ⟨hfirst, hlength, hsome⟩, ?_, ?_, ?_⟩, ?_⟩
    · rw [hname]
      exact List.mem_cons_self
    · exact fun hother => absurd ((isNamed_eq hname _).symm.trans hother) (by decide)
    · exact fun hother => absurd ((isNamed_eq hname _).symm.trans hother) (by decide)
    · exact fun hother => absurd ((isNamed_eq hname _).symm.trans hother) (by decide)
    · rw [progressOf_content hname hfirst, htext]
  · rintro ⟨hextends, rfl⟩
    obtain ⟨hfirst, hlength, hsome⟩ := hextends.content (isNamed_eq hname _)
    obtain ⟨text, htext⟩ := Option.isSome_iff_exists.mp hsome
    refine ⟨hfirst, hextends.intact, hlength, text, htext, ?_⟩
    rw [progressOf_content hname hfirst, htext]

theorem parseField_reply (h : Grammatical fields) (hname : field.name = some "replyToSequence") :
    parseField env (progressOf env fields) field = .ok next ↔
      Extends env fields field ∧ next = progressOf env (fields ++ [field]) := by
  have hparse : parseField env (progressOf env fields) field =
      parseReply (progressOf env fields) field := by
    simp only [parseField, hname]
  have hnone : (progressOf env fields).replyToSequence = none ↔
      ∀ other ∈ fields, isNamed other "replyToSequence" = false :=
    given_eq_none_iff fun other hother hother' => (h.reply other hother hother').2
  rw [hparse, parseReply_ok_iff, hnone]
  constructor
  · rintro ⟨hfirst, hintact, hlength, sequence, hsequence, rfl⟩
    have hsome : (sequenceOf field).isSome = true := Option.isSome_of_eq_some hsequence
    refine ⟨⟨hintact, ?_, ?_, fun _ => ⟨hfirst, hlength, hsome⟩, ?_, ?_⟩, ?_⟩
    · rw [hname]
      exact List.mem_cons_of_mem _ List.mem_cons_self
    · exact fun hother => absurd ((isNamed_eq hname _).symm.trans hother) (by decide)
    · exact fun hother => absurd ((isNamed_eq hname _).symm.trans hother) (by decide)
    · exact fun hother => absurd ((isNamed_eq hname _).symm.trans hother) (by decide)
    · rw [progressOf_reply hname hfirst, hsequence]
  · rintro ⟨hextends, rfl⟩
    obtain ⟨hfirst, hlength, hsome⟩ := hextends.reply (isNamed_eq hname _)
    obtain ⟨sequence, hsequence⟩ := Option.isSome_iff_exists.mp hsome
    refine ⟨hfirst, hextends.intact, hlength, sequence, hsequence, ?_⟩
    rw [progressOf_reply hname hfirst, hsequence]

theorem parseField_file (h : Grammatical fields) (hname : field.name = some "file") :
    parseField env (progressOf env fields) field = .ok next ↔
      Extends env fields field ∧ next = progressOf env (fields ++ [field]) := by
  have hparse : parseField env (progressOf env fields) field =
      parseFile env (progressOf env fields) field := by
    simp only [parseField, hname]
  have hlength : (progressOf env fields).attachments.length = (files fields).length :=
    length_attachmentsFrom 0
  rw [hparse, parseFile_ok_iff (hlength.trans_le h.fileCount), hlength]
  constructor
  · rintro ⟨hcount, hintact, hmetadata, htotal, rfl⟩
    refine ⟨⟨hintact, ?_, ?_, ?_, fun _ => ⟨hcount, hmetadata, htotal⟩, ?_⟩, ?_⟩
    · rw [hname]
      exact List.mem_cons_of_mem _ (List.mem_cons_of_mem _ List.mem_cons_self)
    · exact fun hother => absurd ((isNamed_eq hname _).symm.trans hother) (by decide)
    · exact fun hother => absurd ((isNamed_eq hname _).symm.trans hother) (by decide)
    · exact fun hother => absurd ((isNamed_eq hname _).symm.trans hother) (by decide)
    · rw [progressOf_file hname]
      rfl
  · rintro ⟨hextends, rfl⟩
    obtain ⟨hcount, hmetadata, htotal⟩ := hextends.file (isNamed_eq hname _)
    refine ⟨hcount, hextends.intact, hmetadata, htotal, ?_⟩
    rw [progressOf_file hname]
    rfl

theorem parseField_voice (h : Grammatical fields) (hvoices : VoicesValid env fields)
    (hname : field.name = some "voice") :
    parseField env (progressOf env fields) field = .ok next ↔
      Extends env fields field ∧ next = progressOf env (fields ++ [field]) := by
  have hparse : parseField env (progressOf env fields) field =
      parseVoice env (progressOf env fields) field := by
    simp only [parseField, hname]
  rw [hparse, parseVoice_ok_iff]
  constructor
  · rintro ⟨hintact, hlength, earlier, attachment, details, hlast, hnone, haudio, hdetails, rfl⟩
    have hsome : (detailsOf env field).isSome = true := Option.isSome_of_eq_some hdetails
    have hfollows := (exists_follows_iff h hvoices).mp ⟨earlier, attachment, hlast, hnone, haudio⟩
    refine ⟨⟨hintact, ?_, ?_, ?_, ?_, fun _ => ⟨hfollows, hlength, hsome⟩⟩, ?_⟩
    · rw [hname]
      exact List.mem_cons_of_mem _ (List.mem_cons_of_mem _
        (List.mem_cons_of_mem _ List.mem_cons_self))
    · exact fun hother => absurd ((isNamed_eq hname _).symm.trans hother) (by decide)
    · exact fun hother => absurd ((isNamed_eq hname _).symm.trans hother) (by decide)
    · exact fun hother => absurd ((isNamed_eq hname _).symm.trans hother) (by decide)
    · obtain ⟨first, file, middle, hfollows, -⟩ := hfollows
      have hsame : attachmentsFrom env 0 fields = attachmentsFrom env 0 first ++
          [attachmentOf env (files first).length file middle] := by
        rw [hfollows.splits]
        exact attachmentsFrom_last hfollows.file
          (fun other hother => (hfollows.between other hother).1) first
      obtain ⟨rfl, hattachment⟩ := List.append_inj' (hlast.symm.trans hsame) rfl
      cases hattachment
      rw [progressOf_voice hname hfollows, hdetails]
  · rintro ⟨hextends, rfl⟩
    obtain ⟨⟨first, file, middle, hfollows, haudio⟩, hlength, hsome⟩ :=
      hextends.voice (isNamed_eq hname _)
    obtain ⟨details, hdetails⟩ := Option.isSome_iff_exists.mp hsome
    have hmiddle : ∀ other ∈ middle, isFile other = false := fun other hother =>
      (hfollows.between other hother).1
    refine ⟨hextends.intact, hlength, attachmentsFrom env 0 first,
      attachmentOf env (files first).length file middle, details, ?_, ?_, haudio, hdetails, ?_⟩
    · rw [progressOf, hfollows.splits]
      exact attachmentsFrom_last hfollows.file hmiddle first
    · refine (voiceOf_eq_none_iff hmiddle fun other hother hother' => ?_).mpr fun other hother =>
        (hfollows.between other hother).2
      rw [(hfollows.between other hother).2] at hother'
      cases hother'
    · rw [progressOf_voice hname hfollows, hdetails]

/-- A field is read if and only if the fields before it allow it. -/
theorem parseField_ok_iff (h : Grammatical fields) (hvoices : VoicesValid env fields) :
    parseField env (progressOf env fields) field = .ok next ↔
      Extends env fields field ∧ next = progressOf env (fields ++ [field]) := by
  by_cases hnamed : field.name ∈ [some "content", some "replyToSequence", some "file", some "voice"]
  · simp only [List.mem_cons, List.not_mem_nil, or_false] at hnamed
    rcases hnamed with hcontent | hreply | hfile | hvoice
    · exact parseField_content h hcontent
    · exact parseField_reply h hreply
    · exact parseField_file h hfile
    · exact parseField_voice h hvoices hvoice
  · have herror : ∃ e, parseField env (progressOf env fields) field = .error e := by
      unfold parseField
      split
      · exact ⟨_, rfl⟩
      · rename_i hname
        rw [hname] at hnamed
        exact absurd (by decide) hnamed
      · rename_i hname
        rw [hname] at hnamed
        exact absurd (by decide) hnamed
      · rename_i hname
        rw [hname] at hnamed
        exact absurd (by decide) hnamed
      · rename_i hname
        rw [hname] at hnamed
        exact absurd (by decide) hnamed
      · exact ⟨_, rfl⟩
    obtain ⟨e, he⟩ := herror
    rw [he]
    exact error_ok_iff fun hextends => hnamed hextends.1.named

theorem grammatical_nil : Grammatical [] where
  intact := fun _ hmem => absurd hmem List.not_mem_nil
  named := fun _ hmem => absurd hmem List.not_mem_nil
  contentOnce := Nat.zero_le 1
  content := fun _ hmem => absurd hmem List.not_mem_nil
  replyOnce := Nat.zero_le 1
  reply := fun _ hmem => absurd hmem List.not_mem_nil
  fileCount := Nat.zero_le _
  file := fun _ hmem => absurd hmem List.not_mem_nil
  total := Nat.zero_le _
  voice := fun _ _ _ hsplit => absurd hsplit.symm
    (List.append_ne_nil_of_right_ne_nil _ (List.cons_ne_nil _ _))

/-- The loop reads the fields that are well formed. -/
theorem foldlM_ok_iff : fields.foldlM (parseField env) {} = .ok next ↔
    (Grammatical fields ∧ VoicesValid env fields) ∧ next = progressOf env fields := by
  induction fields using List.reverseRecOn generalizing next with
  | nil =>
    constructor
    · intro h
      cases h
      exact ⟨⟨grammatical_nil, fun _ hmem => absurd hmem List.not_mem_nil⟩, rfl⟩
    · rintro ⟨-, rfl⟩
      rfl
  | append_singleton fields field ih =>
    rw [List.foldlM_append, bind_ok_iff, wellFormed_concat_iff]
    constructor
    · rintro ⟨progress, hfields, hfield⟩
      obtain ⟨hwell, rfl⟩ := ih.mp hfields
      obtain ⟨after, hfield, hlast⟩ := bind_ok_iff.mp hfield
      cases hlast
      obtain ⟨hextends, hnext⟩ := (parseField_ok_iff hwell.1 hwell.2).mp hfield
      exact ⟨⟨hwell, hextends⟩, hnext⟩
    · rintro ⟨⟨hwell, hextends⟩, hnext⟩
      refine ⟨progressOf env fields, ih.mpr ⟨hwell, rfl⟩, bind_ok_iff.mpr ⟨next, ?_, rfl⟩⟩
      exact (parseField_ok_iff hwell.1 hwell.2).mpr ⟨hextends, hnext⟩

end Runs

/-! ## Requests -/

/-- A request that is accepted. -/
structure Accepted (env : Environment) (multipart : Multipart) : Prop where
  intact : multipart.intact = true
  grammatical : Grammatical multipart.fields
  voices : VoicesValid env multipart.fields
  text : TextFits multipart.fields

/-- The content, the message replied to and the files that are sent. -/
def sent (env : Environment) (fields : List Field) : String × Option Int × List PendingAttachment :=
  (contentOf fields, givenReply fields, attachmentsFrom env 0 fields)

/-- The same request, cut into other chunks. -/
def SameBytes (field other : Field) : Prop :=
  field.name = other.name ∧ field.fileName = other.fileName ∧
    field.contentType = other.contentType ∧ field.chunks.flatten = other.chunks.flatten ∧
    field.intact = other.intact

section Requests

variable {env : Environment} {multipart : Multipart}

theorem validateAttachmentContent_ok_iff {content text : String} :
    validateAttachmentContent content = .ok text ↔
      charCount (trim content) ≤ 2000 ∧ text = trim content := by
  unfold validateAttachmentContent
  dsimp only
  split
  · rename_i hlong
    exact error_ok_iff fun h => absurd hlong (Nat.not_lt_of_le h.1)
  · rename_i hshort
    constructor
    · intro h
      cases h
      exact ⟨Nat.le_of_not_lt hshort, rfl⟩
    · rintro ⟨-, rfl⟩
      rfl

/-- What is accepted is what is well formed, and it is sent as it was given. -/
theorem parseAttachmentMessage_ok {result : String × Option Int × List PendingAttachment} :
    parseAttachmentMessage env multipart = .ok result ↔
      Accepted env multipart ∧ result = sent env multipart.fields := by
  have hempty (fields : List Field) :
      ((contentOf fields).isEmpty = true ∧ (attachmentsFrom env 0 fields).isEmpty = true) ↔
        ¬ (contentOf fields ≠ "" ∨ files fields ≠ []) := by
    rw [String.isEmpty_iff, List.isEmpty_iff_length_eq_zero, length_attachmentsFrom,
      List.length_eq_zero_iff]
    tauto
  unfold parseAttachmentMessage
  rw [bind_ok_iff]
  constructor
  · rintro ⟨progress, hfields, h⟩
    obtain ⟨⟨hgrammatical, hvoices⟩, rfl⟩ := foldlM_ok_iff.mp hfields
    split at h
    · cases h
    · rename_i hintact
      obtain ⟨content, hcontent, h⟩ := bind_ok_iff.mp h
      obtain ⟨hlength, rfl⟩ := validateAttachmentContent_ok_iff.mp hcontent
      split at h
      · cases h
      · rename_i hgiven
        cases h
        have hfits : TextFits multipart.fields :=
          ⟨hlength, not_not.mp fun hnone => hgiven ((hempty multipart.fields).mpr hnone)⟩
        exact ⟨⟨not_not.mp hintact, hgrammatical, hvoices, hfits⟩, rfl⟩
  · rintro ⟨⟨hintact, hgrammatical, hvoices, hfits⟩, rfl⟩
    refine ⟨progressOf env multipart.fields,
      foldlM_ok_iff.mpr ⟨⟨hgrammatical, hvoices⟩, rfl⟩, ?_⟩
    rw [if_neg (not_not.mpr hintact)]
    refine bind_ok_iff.mpr ⟨contentOf multipart.fields,
      validateAttachmentContent_ok_iff.mpr ⟨hfits.1, rfl⟩, ?_⟩
    exact if_neg fun hnone => (hempty multipart.fields).mp hnone hfits.2

theorem parseField_sameBytes {field other : Field} (h : SameBytes field other)
    (progress : Progress) :
    parseField env progress field = parseField env progress other := by
  obtain ⟨hname, hfileName, hcontentType, hbytes, hintact⟩ := h
  have hread (maxBytes : ℕ) : readMultipartField field maxBytes =
      readMultipartField other maxBytes := by
    rw [readMultipartField_eq, readMultipartField_eq, bytesOf, bytesOf, hbytes, hintact]
  unfold parseField parseContent parseReply parseFile parseVoice
  simp only [hread, hname, hfileName, hcontentType]

/-- No chunk boundary matters. -/
theorem parseAttachmentMessage_sameBytes {fields others : List Field}
    (h : List.Forall₂ SameBytes fields others) (intact : Bool) :
    parseAttachmentMessage env ⟨fields, intact⟩ = parseAttachmentMessage env ⟨others, intact⟩ := by
  have hfold (progress : Progress) :
      fields.foldlM (parseField env) progress = others.foldlM (parseField env) progress := by
    induction h generalizing progress with
    | nil => rfl
    | cons hfield _ ih =>
      rw [List.foldlM_cons, List.foldlM_cons, parseField_sameBytes hfield]
      exact congrArg _ (funext ih)
  unfold parseAttachmentMessage
  rw [hfold]

end Requests

/-- A request is accepted if and only if it is well formed, what is sent is what it gives, and it
does not matter how its bytes are cut into chunks. -/
theorem attachmentMessages_grammar (env : Environment) :
    (∀ multipart result, parseAttachmentMessage env multipart = .ok result ↔
      Accepted env multipart ∧ result = sent env multipart.fields) ∧
    ∀ fields others intact, List.Forall₂ SameBytes fields others →
      parseAttachmentMessage env ⟨fields, intact⟩ = parseAttachmentMessage env ⟨others, intact⟩ :=
  ⟨fun _ _ => parseAttachmentMessage_ok, fun _ _ intact h =>
    parseAttachmentMessage_sameBytes h intact⟩

def exampleEnvironment : Environment where
  conversationId := 1
  newId := fun index => index
  fromSlice := fun bytes => if bytes.isEmpty then none else some ⟨1000, [128]⟩

def audioFile : Field := ⟨some "file", some "note.ogg", some "audio/ogg", [[79], [103]], true⟩

def emptyVoice : Field := ⟨some "voice", none, none, [], true⟩

/-- A voice field that is in its place is refused if it has no details. -/
theorem emptyVoice_refused :
    (Grammatical [audioFile, emptyVoice] ∧ TextFits [audioFile, emptyVoice]) ∧
      parseAttachmentMessage exampleEnvironment ⟨[audioFile, emptyVoice], true⟩ =
        .error ⟨400, "voice must be JSON with durationMs and waveform"⟩ := by
  have hmetadata : HasMetadata audioFile :=
    { size := by decide, fileName := by decide, contentType := by decide }
  have hgrammatical : Grammatical [audioFile, emptyVoice] :=
    { intact := by decide
      named := by decide
      contentOnce := by decide
      content := by decide
      replyOnce := by decide
      reply := by decide
      fileCount := by decide
      file := List.forall_mem_cons.mpr ⟨fun _ => hmetadata,
        List.forall_mem_singleton.mpr fun hfile => absurd hfile (by decide)⟩
      total := by decide
      voice := by
        intro before voice after hsplit hvoice
        rcases before with _ | ⟨first, _ | ⟨second, rest⟩⟩
        · obtain ⟨rfl, -⟩ := List.cons_eq_cons.mp hsplit
          exact absurd hvoice (by decide)
        · obtain ⟨rfl, -⟩ := List.cons_eq_cons.mp hsplit
          exact ⟨[], audioFile, [], ⟨rfl, by decide, fun _ hmem => absurd hmem List.not_mem_nil⟩,
            by decide⟩
        · obtain ⟨-, hrest⟩ := List.cons_eq_cons.mp hsplit
          obtain ⟨-, hrest⟩ := List.cons_eq_cons.mp hrest
          exact absurd hrest.symm (List.append_ne_nil_of_right_ne_nil _ (List.cons_ne_nil _ _)) }
  exact ⟨⟨hgrammatical, by decide, Or.inr (by decide)⟩, rfl⟩

end OpenMeet.UploadGrammar
