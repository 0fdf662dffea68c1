import OpenMeet.AttachmentUploads
import OpenMeet.TextSlices

/-!
Attachments that are sent back. Two checks written apart have to fit: what the
upload accepts as a name and a type must make headers that the response can
carry, and the name in the disposition must not reach out of its quotes.
-/
namespace OpenMeet.AttachmentDownloads

open Text Accounts AttachmentUploads
open StoredObjects (AttachmentKey)

/-! ## The handler -/

structure StoredAttachment where
  storageKey : AttachmentKey
  fileName : String
  contentType : String
  deriving DecidableEq

structure Response where
  status : ℕ
  headers : List (String × String)
  body : List UInt8
  deriving DecidableEq

def requestFailed : ApiError := ⟨500, "Request failed"⟩

/-- The types that a browser shows by itself. -/
def inlineTypes : List String :=
  ["image/jpeg", "image/png", "image/webp", "image/gif", "video/mp4", "video/webm"]

def isSafe (c : Char) : Bool :=
  ('a' ≤ c && c ≤ 'z') || ('A' ≤ c && c ≤ 'Z') || ('0' ≤ c && c ≤ '9') ||
    [' ', '.', '-', '_', '(', ')'].contains c

def safeFileName (fileName : String) : String :=
  let safeFileName :=
    trim (String.ofList ((fileName.toList.map fun c => if isSafe c then c else '_').take 180))
  if safeFileName.isEmpty then "attachment" else safeFileName

def contentDisposition (fileName contentType : String) : String :=
  let disposition := if contentType ∈ inlineTypes then "inline" else "attachment"
  disposition ++ "; filename=\"" ++ safeFileName fileName ++ "\""

def utf8Bytes (text : String) : List UInt8 := text.toList.flatMap String.utf8EncodeChar

section Handler

variable (isHeaderValue : List UInt8 → Bool)

/-- A response is built if the HTTP library takes the value of every header. -/
def buildResponse (response : Response) : Except ApiError Response :=
  if response.headers.all fun header => isHeaderValue (utf8Bytes header.2) then .ok response
  else .error requestFailed

/-- What is done once the caller may read the conversation: the row is loaded and the object is
downloaded. -/
def getMessageAttachment (load : Except ApiError StoredAttachment)
    (download : AttachmentKey → Except ApiError (List UInt8)) : Except ApiError Response := do
  let attachment ← load
  let object ← download attachment.storageKey
  let contentType := attachment.contentType
  buildResponse isHeaderValue
    { status := 200
      headers := [("content-type", contentType),
        ("content-disposition", contentDisposition attachment.fileName contentType),
        ("x-content-type-options", "nosniff"), ("cache-control", "private, no-store")]
      body := object }

end Handler

/-! ## Bytes of headers -/

/-- The bytes that may stand in a header. -/
def IsHeaderByte (b : UInt8) : Prop := 32 ≤ b.toNat ∧ b.toNat ≠ 127

section Bytes

variable {c : Char} {b : UInt8}

theorem utf8EncodeChar_ge (hc : 128 ≤ c.toNat) (h : b ∈ String.utf8EncodeChar c) :
    128 ≤ b.toNat := by
  unfold String.utf8EncodeChar at h
  dsimp only at h
  have hvalue : c.val.toNat = c.toNat := rfl
  split at h
  · omega
  · split at h
    · simp only [List.mem_cons, List.not_mem_nil, or_false] at h
      rcases h with rfl | rfl
      · rw [UInt8.toNat_ofNat']
        omega
      · rw [UInt8.toNat_ofNat']
        omega
    · split at h
      · simp only [List.mem_cons, List.not_mem_nil, or_false] at h
        rcases h with rfl | rfl | rfl
        · rw [UInt8.toNat_ofNat']
          omega
        · rw [UInt8.toNat_ofNat']
          omega
        · rw [UInt8.toNat_ofNat']
          omega
      · simp only [List.mem_cons, List.not_mem_nil, or_false] at h
        rcases h with rfl | rfl | rfl | rfl
        · rw [UInt8.toNat_ofNat']
          omega
        · rw [UInt8.toNat_ofNat']
          omega
        · rw [UInt8.toNat_ofNat']
          omega
        · rw [UInt8.toNat_ofNat']
          omega

theorem utf8EncodeChar_ascii (hc : c.toNat < 128) :
    String.utf8EncodeChar c = [UInt8.ofNat c.toNat] := by
  unfold String.utf8EncodeChar
  dsimp only
  have hvalue : c.val.toNat = c.toNat := rfl
  rw [if_pos (by omega), hvalue]

/-- A character that is no control character has only bytes for headers. -/
theorem isHeaderByte_of_not_control (hc : isControl c = false) (h : b ∈ String.utf8EncodeChar c) :
    IsHeaderByte b := by
  unfold isControl at hc
  simp only [Bool.or_eq_false_iff, Bool.and_eq_false_iff, decide_eq_false_iff_not] at hc
  by_cases hascii : c.toNat < 128
  · rw [utf8EncodeChar_ascii hascii] at h
    obtain rfl := List.mem_singleton.mp h
    unfold IsHeaderByte
    rw [UInt8.toNat_ofNat']
    omega
  · have hlarge := utf8EncodeChar_ge (Nat.le_of_not_lt hascii) h
    unfold IsHeaderByte
    omega

theorem isHeaderByte_of_text {text : String} (h : text.toList.any isControl = false)
    (hb : b ∈ utf8Bytes text) : IsHeaderByte b := by
  obtain ⟨c, hc, hmem⟩ := List.mem_flatMap.mp hb
  exact isHeaderByte_of_not_control (Bool.eq_false_iff.mpr (List.any_eq_false.mp h c hc)) hmem

theorem isControl_toLower (c : Char) : isControl c.toLower = isControl c := by
  rcases TextSlices.toLower_cases c with hsame | ⟨hlow, hhigh, hlowered⟩
  · rw [hsame]
  · have hletter : isControl c = false := by
      unfold isControl
      simp only [Bool.or_eq_false_iff, Bool.and_eq_false_iff, decide_eq_false_iff_not]
      omega
    have hlower : isControl c.toLower = false := by
      unfold isControl
      simp only [Bool.or_eq_false_iff, Bool.and_eq_false_iff, decide_eq_false_iff_not]
      omega
    rw [hlower, hletter]

theorem any_isControl_lowercase (text : String) :
    (toAsciiLowercase text).toList.any isControl = text.toList.any isControl := by
  unfold toAsciiLowercase
  rw [String.toList_ofList, List.any_map]
  exact congrArg (text.toList.any ·) (funext isControl_toLower)

end Bytes

/-! ## Names -/

section Names

variable {c : Char} {fileName : String}

theorem trim_sublist (text : String) : (trim text).toList.Sublist text.toList := by
  unfold trim
  rw [String.toList_ofList]
  have hends := List.dropWhile_sublist isWhitespace
    (l := (text.toList.dropWhile isWhitespace).reverse)
  have hstart := List.dropWhile_sublist isWhitespace (l := text.toList)
  have hreversed := hends.reverse
  rw [List.reverse_reverse] at hreversed
  exact hreversed.trans hstart

theorem isControl_of_isSafe (h : isSafe c = true) : isControl c = false := by
  have hvalue : c.val.toNat = c.toNat := rfl
  have hsmall : 'a'.val.toNat = 97 ∧ 'z'.val.toNat = 122 := by decide
  have hcapital : 'A'.val.toNat = 65 ∧ 'Z'.val.toNat = 90 := by decide
  have hdigits : '0'.val.toNat = 48 ∧ '9'.val.toNat = 57 := by decide
  have hrange : 32 ≤ c.toNat ∧ c.toNat ≤ 122 := by
    unfold isSafe at h
    simp only [Bool.or_eq_true, Bool.and_eq_true, decide_eq_true_eq, Char.le_def,
      UInt32.le_iff_toNat_le, List.contains_iff_mem] at h
    rcases h with ((hletter | hletter) | hdigit) | hother
    · omega
    · omega
    · omega
    · have hnumber : c.toNat ∈ [32, 46, 45, 95, 40, 41] :=
        List.mem_map_of_mem (f := Char.toNat) hother
      simp only [List.mem_cons, List.not_mem_nil, or_false] at hnumber
      omega
  unfold isControl
  simp only [Bool.or_eq_false_iff, Bool.and_eq_false_iff, decide_eq_false_iff_not]
  omega

theorem safeFileName_safe (fileName : String) : safeFileName fileName ≠ "" ∧
    (safeFileName fileName).toList.length ≤ 180 ∧
      ∀ c ∈ (safeFileName fileName).toList, isSafe c = true := by
  unfold safeFileName
  dsimp only
  split
  · refine ⟨by decide, by decide, ?_⟩
    have hall : "attachment".toList.all isSafe = true := by decide
    exact List.all_eq_true.mp hall
  · rename_i hnonempty
    have hsublist := trim_sublist (String.ofList
      ((fileName.toList.map fun c => if isSafe c then c else '_').take 180))
    rw [String.toList_ofList] at hsublist
    refine ⟨fun h => hnonempty (String.isEmpty_iff.mpr h), ?_, fun c hc => ?_⟩
    · exact hsublist.length_le.trans (List.length_take_le ..)
    · obtain ⟨d, -, rfl⟩ := List.mem_map.mp (List.mem_of_mem_take (hsublist.subset hc))
      split
      · assumption
      · decide

theorem any_isControl_disposition (fileName contentType : String) :
    (contentDisposition fileName contentType).toList.any isControl = false := by
  have hname : (safeFileName fileName).toList.any isControl = false := by
    rw [List.any_eq_false]
    intro c hc
    rw [isControl_of_isSafe ((safeFileName_safe fileName).2.2 c hc)]
    exact Bool.false_ne_true
  have hstart : ("; filename=\"".toList.any isControl) = false := by decide
  have hend : ("\"".toList.any isControl) = false := by decide
  have hdisposition : (if contentType ∈ inlineTypes then "inline" else "attachment").toList.any
      isControl = false := by
    split
    · decide
    · decide
  unfold contentDisposition
  dsimp only
  simp only [String.toList_append, List.any_append, hdisposition, hstart, hname, hend,
    Bool.or_false]

end Names

section Downloads

variable (isHeaderValue : List UInt8 → Bool)

/-- An attachment that was accepted can be downloaded: the headers are built, and the disposition
has a quoted name that is safe, and is inline only for the types of images and videos. -/
theorem accepted_downloads
    (hheader : ∀ bytes, (∀ b ∈ bytes, IsHeaderByte b) → isHeaderValue bytes = true)
    {fileName contentType : Option String} {byteSize : ℕ} {name type : String}
    (haccepted : validateAttachmentMetadata fileName contentType byteSize = .ok (name, type))
    (storageKey : AttachmentKey) (object : List UInt8) :
    ∃ disposition safe,
      getMessageAttachment isHeaderValue (.ok ⟨storageKey, name, type⟩) (fun _ => .ok object) =
        .ok ⟨200, [("content-type", type),
          ("content-disposition", disposition ++ "; filename=\"" ++ safe ++ "\""),
          ("x-content-type-options", "nosniff"), ("cache-control", "private, no-store")], object⟩ ∧
      (disposition = "inline" ∧ type ∈ inlineTypes ∨
        disposition = "attachment" ∧ type ∉ inlineTypes) ∧
      safe ≠ "" ∧ safe.toList.length ≤ 180 ∧ ∀ c ∈ safe.toList, isSafe c = true := by
  obtain ⟨hvalid, hmetadata⟩ := validateAttachmentMetadata_ok_iff.mp haccepted
  obtain ⟨rfl, rfl⟩ := Prod.mk.inj hmetadata
  generalize htype : toAsciiLowercase (contentType.getD "application/octet-stream") = type
  have hplain : type.toList.any isControl = false := by
    rw [← htype, any_isControl_lowercase]
    exact hvalid.contentType.2.2
  generalize trim (fileName.getD "") = name
  have hall (text : String) (htext : text.toList.any isControl = false) :
      isHeaderValue (utf8Bytes text) = true :=
    hheader _ fun b hb => isHeaderByte_of_text htext hb
  have hbuilt (response : Response) (hresponse : ∀ header ∈ response.headers,
      header.2.toList.any isControl = false) :
      buildResponse isHeaderValue response = .ok response :=
    if_pos (List.all_eq_true.mpr fun header hmem => hall header.2 (hresponse header hmem))
  refine ⟨if type ∈ inlineTypes then "inline" else "attachment", safeFileName name, ?_, ?_,
    safeFileName_safe name⟩
  · refine hbuilt _ ?_
    simp only [List.forall_mem_cons]
    exact ⟨hplain, any_isControl_disposition name type, by decide, by decide,
      fun _ hmem => absurd hmem List.not_mem_nil⟩
  · by_cases hinline : type ∈ inlineTypes
    · exact Or.inl ⟨if_pos hinline, hinline⟩
    · exact Or.inr ⟨if_neg hinline, hinline⟩

/-- The bytes that the HTTP library takes. -/
def headerValue (bytes : List UInt8) : Bool :=
  bytes.all fun b => (32 ≤ b.toNat && b.toNat != 127) || b.toNat == 9

/-- A name with a quote is downloaded as a safe one. -/
theorem quotedName_downloads : ∃ disposition safe,
    getMessageAttachment headerValue (.ok ⟨⟨1, 2⟩, "a\"b.svg", "image/svg+xml"⟩)
        (fun _ => .ok [60, 62]) =
      .ok ⟨200, [("content-type", "image/svg+xml"),
        ("content-disposition", disposition ++ "; filename=\"" ++ safe ++ "\""),
        ("x-content-type-options", "nosniff"), ("cache-control", "private, no-store")], [60, 62]⟩ ∧
    (disposition = "inline" ∧ "image/svg+xml" ∈ inlineTypes ∨
      disposition = "attachment" ∧ "image/svg+xml" ∉ inlineTypes) ∧
    safe ≠ "" ∧ safe.toList.length ≤ 180 ∧ ∀ c ∈ safe.toList, isSafe c = true := by
  have hheader : ∀ bytes, (∀ b ∈ bytes, IsHeaderByte b) → headerValue bytes = true := by
    intro bytes h
    refine List.all_eq_true.mpr fun b hb => ?_
    obtain ⟨hlow, hdelete⟩ := h b hb
    simp [hlow, hdelete]
  have haccepted : validateAttachmentMetadata (some " a\"b.svg") (some "image/SVG+xml") 2 =
      .ok ("a\"b.svg", "image/svg+xml") := by
    decide
  exact accepted_downloads headerValue hheader haccepted ⟨1, 2⟩ [60, 62]

end Downloads

end OpenMeet.AttachmentDownloads
