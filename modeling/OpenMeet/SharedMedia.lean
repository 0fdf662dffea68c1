import Mathlib.Data.List.Dedup
import OpenMeet.BadgeNews
import OpenMeet.LikePatterns
import OpenMeet.Pages
import OpenMeet.Urls

/-!
The photos, files, voice messages, links and GIFs of a conversation, each in a
tab of its own, newest first. Attachments are told apart by the patterns of
their names and types, and the tabs are paged by message. The first page begins
below the largest number of the column, which no message gets.
-/
namespace OpenMeet.SharedMedia

open KeyedMap Messages Accounts SocialTables ConversationApi LikePatterns Pages Urls
open SocialRequests (emptyDatabase)
open BadgeNews (plainHashing adaAndBob)

def defaultPageSize : Int := 30
def maxPageSize : Int := 60

/-- The largest number of the column, below which a page without a bound begins. -/
def maxSequence : Sequence := 2 ^ 63 - 1

inductive SharedMediaKind
  | media
  | files
  | voice
  | links
  | gifs
  deriving DecidableEq, Repr

structure SharedMediaQuery where
  kind : SharedMediaKind
  before : Option Int
  limit : Option Int
  deriving DecidableEq, Repr

structure VoiceMessageDetails where
  durationMs : Int
  waveform : List UInt8
  deriving DecidableEq, Repr

/-- The columns of attachments that only these endpoints read. -/
structure AttachmentColumns where
  createdAt : Timestamp
  voiceDurationMs : Option Int
  voiceWaveform : Option (List UInt8)
  deriving DecidableEq, Repr

/-- The social tables, with the times of the messages and the columns of the attachments. -/
structure MediaDatabase where
  social : SocialDatabase
  messageTimes : Map Sequence Timestamp
  attachmentColumns : Map Uuid AttachmentColumns

structure MessageAttachmentResponse where
  id : Uuid
  fileName : String
  contentType : String
  byteSize : Nat
  url : String
  voice : Option VoiceMessageDetails
  deriving DecidableEq, Repr

structure SharedMediaItem where
  sequence : Sequence
  senderId : Uuid
  senderName : String
  createdAt : Timestamp
  attachment : Option MessageAttachmentResponse
  content : Option String
  deriving DecidableEq, Repr

structure SharedMediaPage where
  items : List SharedMediaItem
  nextBefore : Option Sequence
  deriving DecidableEq, Repr

structure SharedMediaCounts where
  media : Nat
  files : Nat
  voice : Nat
  links : Nat
  gifs : Nat
  deriving DecidableEq, Repr

/-! ## Tabs -/

def isGif (attachment : MessageAttachment) : Bool := like "giphy-%" attachment.fileName

def isVoice (attachment : MessageAttachment) : Bool :=
  like "voice-message-%" attachment.fileName && like "audio/%" attachment.contentType

def isVisual (attachment : MessageAttachment) : Bool :=
  like "image/%" attachment.contentType || like "video/%" attachment.contentType

/-- What the chat shows as a link. -/
def hasLink (env : Environment) (content : String) : Bool :=
  ilike env.toLowercase "%http://%" content || ilike env.toLowercase "%https://%" content ||
    ilike env.toLowercase "%www.%" content || ilike env.toLowercase "%openmeets.eu/%" content

/-- Which attachments belong to a tab; links come from message text instead. -/
def attachmentCondition : SharedMediaKind → Option (MessageAttachment → Bool)
  | .gifs => some isGif
  | .voice => some isVoice
  | .media => some fun attachment => isVisual attachment && !isGif attachment
  | .files => some fun attachment =>
    !(isVisual attachment || isGif attachment || isVoice attachment)
  | .links => none

/-! ## Pages -/

def validatePage (query : SharedMediaQuery) : Except ApiError ℕ :=
  if query.before.any (· ≤ 0) then .error ⟨400, "before must be a positive server sequence"⟩
  else
    let limit := query.limit.getD defaultPageSize
    if 1 ≤ limit ∧ limit ≤ maxPageSize then .ok limit.toNat
    else .error ⟨400, "limit must be between 1 and 60"⟩

/-- An attachment with its message. -/
abbrev AttachmentRow := Sequence × ConversationMessage × MessageAttachment

def pageCursor (sequences : List Sequence) (limit : ℕ) : List Sequence × Option Sequence :=
  lookAhead (fun sequence => sequence) limit sequences

section Reading

variable (env : Environment) (db : MediaDatabase) (conversationId : Uuid)
  (conversation : Conversation)

def attachmentRows : List AttachmentRow :=
  conversation.messages.entries.flatMap fun row =>
    row.2.attachments.map fun attachment => (row.1, row.2, attachment)

def messageTime (sequence : Sequence) : Timestamp := (db.messageTimes.lookup sequence).getD 0

def columns (attachment : MessageAttachment) : AttachmentColumns :=
  (db.attachmentColumns.lookup attachment.id).getD ⟨0, none, none⟩

def voiceDetails (columns : AttachmentColumns) : Option VoiceMessageDetails :=
  columns.voiceDurationMs.bind fun durationMs =>
    columns.voiceWaveform.map fun waveform => ⟨durationMs, waveform⟩

def attachmentItem (row : AttachmentRow) : SharedMediaItem where
  sequence := row.1
  senderId := row.2.1.senderId
  senderName := row.2.1.senderName
  createdAt := messageTime db row.1
  attachment := some
    { id := row.2.2.id, fileName := row.2.2.fileName, contentType := row.2.2.contentType
      byteSize := row.2.2.byteSize, url := attachmentUrl conversationId row.2.2.id
      voice := voiceDetails (columns db row.2.2) }
  content := none

/-- ORDER BY sequence DESC, created_at, id -/
def attachmentBefore (a b : AttachmentRow) : Bool :=
  b.1 < a.1 || a.1 = b.1 &&
    ((columns db a.2.2).createdAt < (columns db b.2.2).createdAt ||
      (columns db a.2.2).createdAt = (columns db b.2.2).createdAt && a.2.2.id ≤ b.2.2.id)

/-- Pages by message, so a message with several photos is never split across pages. -/
def attachmentPage (condition : MessageAttachment → Bool) (before : Sequence) (limit : ℕ) :
    SharedMediaPage :=
  let found := (attachmentRows conversation).filter fun row => row.1 < before && condition row.2.2
  let (sequences, nextBefore) := pageCursor
    ((orderByDesc (fun sequence => sequence) (found.map (·.1)).dedup).take (limit + 1)) limit
  if sequences.isEmpty then ⟨[], nextBefore⟩
  else
    let rows := ((attachmentRows conversation).filter fun row =>
      sequences.contains row.1 && condition row.2.2).insertionSort
        fun a b => attachmentBefore db a b = true
    ⟨rows.map (attachmentItem db conversationId), nextBefore⟩

def linkItem (row : Sequence × ConversationMessage) : SharedMediaItem where
  sequence := row.1
  senderId := row.2.senderId
  senderName := row.2.senderName
  createdAt := messageTime db row.1
  attachment := none
  content := some row.2.content

def linkPage (before : Sequence) (limit : ℕ) : SharedMediaPage :=
  let found := (conversation.messages.entries.map fun row => (row.1, row.2)).filter fun row =>
    row.1 < before && hasLink env row.2.content
  let (rows, nextBefore) := lookAhead (·.1) limit
    ((orderByDesc (fun row : Sequence × ConversationMessage => row.1) found).take (limit + 1))
  ⟨rows.map (linkItem db), nextBefore⟩

end Reading

section Endpoints

variable (env : Environment) (db : MediaDatabase) (userId conversationId : Uuid)

def listSharedMedia (query : SharedMediaQuery) : Except ApiError SharedMediaPage :=
  match validatePage query,
      authorizeConversationAccess db.social conversationId userId with
  | .error e, _ | .ok _, .error e => .error e
  | .ok limit, .ok conversation =>
    let before := query.before.elim maxSequence Int.toNat
    .ok <| match attachmentCondition query.kind with
      | some condition => attachmentPage db conversationId conversation condition before limit
      | none => linkPage env db conversation before limit

/-- How many attachments are in a tab. -/
def countAttachments (conversation : Conversation) (kind : SharedMediaKind) : ℕ :=
  (attachmentCondition kind).elim 0 fun condition =>
    (attachmentRows conversation).countP fun row => condition row.2.2

def sharedMediaCounts : Except ApiError SharedMediaCounts :=
  (authorizeConversationAccess db.social conversationId userId).map fun conversation =>
    { media := countAttachments conversation .media
      files := countAttachments conversation .files
      voice := countAttachments conversation .voice
      gifs := countAttachments conversation .gifs
      links := conversation.messages.entries.countP fun row => hasLink env row.2.content }

def SharedMediaCounts.of (counts : SharedMediaCounts) : SharedMediaKind → ℕ
  | .media => counts.media
  | .files => counts.files
  | .voice => counts.voice
  | .links => counts.links
  | .gifs => counts.gifs

end Endpoints

/-! ## Every attachment has one tab -/

section Tabs

/-- A text begins in one way only. -/
theorem not_prefix_of_ne {c d : Char} {first second text : List Char} (hne : c ≠ d)
    (h : c :: first <+: text) : ¬(d :: second <+: text) := by
  intro h'
  obtain ⟨rest, rfl⟩ := h
  rw [List.cons_append] at h'
  exact hne (List.cons_prefix_cons.mp h').1.symm

variable {attachment : MessageAttachment}

theorem isGif_iff : isGif attachment = true ↔
    "giphy-".toList <+: attachment.fileName.toList :=
  like_prefix_iff _ (by decide) rfl

theorem isVoice_iff : isVoice attachment = true ↔
    "voice-message-".toList <+: attachment.fileName.toList ∧
      "audio/".toList <+: attachment.contentType.toList := by
  rw [isVoice, Bool.and_eq_true]
  exact and_congr (like_prefix_iff _ (by decide) rfl)
    (like_prefix_iff _ (by decide) rfl)

theorem isVisual_iff : isVisual attachment = true ↔
    "image/".toList <+: attachment.contentType.toList ∨
      "video/".toList <+: attachment.contentType.toList := by
  rw [isVisual, Bool.or_eq_true]
  exact or_congr (like_prefix_iff _ (by decide) rfl)
    (like_prefix_iff _ (by decide) rfl)

/-- A GIF is no voice message. -/
theorem isVoice_of_isGif (h : isGif attachment = true) : isVoice attachment = false := by
  rw [Bool.eq_false_iff]
  intro hvoice
  exact not_prefix_of_ne (by decide) (isGif_iff.mp h) (isVoice_iff.mp hvoice).1

/-- A voice message is neither a photo nor a video. -/
theorem isVisual_of_isVoice (h : isVoice attachment = true) : isVisual attachment = false := by
  rw [Bool.eq_false_iff]
  intro hvisual
  rcases isVisual_iff.mp hvisual with himage | hvideo
  · exact not_prefix_of_ne (by decide) (isVoice_iff.mp h).2 himage
  · exact not_prefix_of_ne (by decide) (isVoice_iff.mp h).2 hvideo

/-- The tab of an attachment. -/
def tabOf (attachment : MessageAttachment) : SharedMediaKind :=
  if isGif attachment then .gifs
  else if isVoice attachment then .voice
  else if isVisual attachment then .media
  else .files

theorem tabOf_condition (attachment : MessageAttachment) :
    ∃ condition, attachmentCondition (tabOf attachment) = some condition := by
  unfold tabOf
  split
  · exact ⟨_, rfl⟩
  · split
    · exact ⟨_, rfl⟩
    · split <;> exact ⟨_, rfl⟩

/-- An attachment meets the condition of its tab and of no other. -/
theorem attachmentCondition_iff {kind : SharedMediaKind} {condition : MessageAttachment → Bool}
    (hkind : attachmentCondition kind = some condition) (attachment : MessageAttachment) :
    condition attachment = true ↔ kind = tabOf attachment := by
  have hgif : isGif attachment = true → isVoice attachment = false := isVoice_of_isGif
  have hvoice : isVoice attachment = true → isVisual attachment = false := isVisual_of_isVoice
  unfold tabOf
  cases kind <;> cases hkind
  all_goals
    cases hg : isGif attachment <;> cases hv : isVoice attachment <;>
      cases hs : isVisual attachment <;> simp_all

end Tabs

/-! ## The pages of a tab -/

/-- Numbers in descending order are given by which they are. -/
theorem eq_of_descending {first second : List Sequence}
    (hfirst : first.Pairwise fun a b => b < a) (hsecond : second.Pairwise fun a b => b < a)
    (hmem : ∀ sequence, sequence ∈ first ↔ sequence ∈ second) : first = second := by
  have : Std.Irrefl fun a b : Sequence => b < a := ⟨fun a => Nat.lt_irrefl a⟩
  have : Std.Antisymm fun a b : Sequence => b < a :=
    ⟨fun a b hab hba => absurd hab (Nat.lt_asymm hba)⟩
  exact hfirst.eq_of_mem_iff hsecond hmem

/-- Rows with different keys come in strictly descending order. -/
theorem orderByDesc_strict {Row : Type*} {key : Row → Sequence} {rows : List Row}
    (hrows : (rows.map key).Nodup) :
    (orderByDesc key rows).Pairwise fun a b => key b < key a := by
  have hnodup : ((orderByDesc key rows).map key).Nodup :=
    ((orderByDesc_perm key rows).map key).nodup_iff.mpr hrows
  have hne := List.pairwise_map.mp hnodup
  refine (hne.and (orderByDesc_pairwise key rows)).imp ?_
  intro a b hab
  exact lt_of_le_of_ne hab.2 hab.1.symm

/-- Rows that pass one test or the other are those of the one and those of the other. -/
theorem filter_or_perm {Row : Type*} {p q : Row → Bool} {rows : List Row}
    (hdisjoint : ∀ row ∈ rows, p row = true → q row = false) :
    (rows.filter fun row => p row || q row).Perm (rows.filter p ++ rows.filter q) := by
  induction rows with
  | nil => rfl
  | cons row rest ih =>
    have hrest := ih fun other hother => hdisjoint other (List.mem_cons_of_mem row hother)
    have hrow := hdisjoint row List.mem_cons_self
    simp only [List.filter_cons]
    cases hp : p row with
    | true =>
      rw [hrow hp]
      exact hrest.cons row
    | false =>
      cases hq : q row with
      | true => exact (hrest.cons row).trans List.perm_middle.symm
      | false => exact hrest

section Attachments

variable {db : MediaDatabase} {conversationId : Uuid} {conversation : Conversation}
  {condition : MessageAttachment → Bool} {before : Sequence} {limit : ℕ}

/-- The messages with an attachment in the tab, newest first. -/
def tabSequences (conversation : Conversation) (condition : MessageAttachment → Bool) :
    List Sequence :=
  orderByDesc (fun sequence => sequence)
    (((attachmentRows conversation).filter fun row => condition row.2.2).map (·.1)).dedup

/-- The attachments of the tab in some messages, in the order in which they are shown. -/
def tabRows (db : MediaDatabase) (conversation : Conversation)
    (condition : MessageAttachment → Bool) (sequences : List Sequence) : List AttachmentRow :=
  ((attachmentRows conversation).filter fun row =>
    sequences.contains row.1 && condition row.2.2).insertionSort
      fun a b => attachmentBefore db a b = true

theorem tabSequences_descending :
    (tabSequences conversation condition).Pairwise fun a b => b < a := by
  apply orderByDesc_strict
  rw [List.map_id']
  exact List.nodup_dedup _

theorem mem_tabSequences {sequence : Sequence} : sequence ∈ tabSequences conversation condition ↔
    ∃ row ∈ attachmentRows conversation, condition row.2.2 = true ∧ row.1 = sequence := by
  simp only [tabSequences, (orderByDesc_perm _ _).mem_iff, List.mem_dedup, List.mem_map,
    List.mem_filter, and_assoc]

/-- The messages below a bound are those of the tab that are below it. -/
theorem sequencesBelow_eq :
    orderByDesc (fun sequence => sequence) (((attachmentRows conversation).filter fun row =>
      row.1 < before && condition row.2.2).map (·.1)).dedup =
      below (tabSequences conversation condition) (fun sequence => sequence) (some before) := by
  apply eq_of_descending
  · apply orderByDesc_strict
    rw [List.map_id']
    exact List.nodup_dedup _
  · exact tabSequences_descending.sublist List.filter_sublist
  · intro sequence
    simp only [(orderByDesc_perm _ _).mem_iff, List.mem_dedup, List.mem_map, List.mem_filter,
      Bool.and_eq_true, decide_eq_true_eq, below, mem_tabSequences, Option.all_some]
    constructor
    · intro h
      obtain ⟨row, ⟨hrow, hbefore, hcondition⟩, rfl⟩ := h
      exact ⟨⟨row, hrow, hcondition, rfl⟩, hbefore⟩
    · intro h
      obtain ⟨⟨row, hrow, hcondition, rfl⟩, hbefore⟩ := h
      exact ⟨row, ⟨hrow, hbefore, hcondition⟩, rfl⟩

theorem tabRows_nil : tabRows db conversation condition [] = [] := by
  simp [tabRows]

theorem attachmentPage_eq :
    ((attachmentPage db conversationId conversation condition before limit).items,
      (attachmentPage db conversationId conversation condition before limit).nextBefore.map some) =
    ((tabRows db conversation condition (keysetPage (tabSequences conversation condition)
        (fun sequence => sequence) limit (some before)).1).map (attachmentItem db conversationId),
      (keysetPage (tabSequences conversation condition) (fun sequence => sequence) limit
        (some before)).2) := by
  unfold attachmentPage pageCursor
  dsimp only
  rw [sequencesBelow_eq, lookAhead_below]
  dsimp only
  split
  · rename_i hempty
    rw [List.isEmpty_iff.mp hempty, tabRows_nil]
    rfl
  · rfl

theorem mem_tabRows {sequences : List Sequence} {row : AttachmentRow} :
    row ∈ tabRows db conversation condition sequences ↔
      row ∈ attachmentRows conversation ∧ row.1 ∈ sequences ∧ condition row.2.2 = true := by
  simp [tabRows]

/-- The attachments of messages apart are those of the ones and of the others. -/
theorem tabRows_append {first second : List Sequence} (hdisjoint : first.Disjoint second) :
    (tabRows db conversation condition (first ++ second)).Perm
      (tabRows db conversation condition first ++ tabRows db conversation condition second) := by
  refine (List.perm_insertionSort _ _).trans (List.Perm.trans ?_
    ((List.perm_insertionSort _ _).append (List.perm_insertionSort _ _)).symm)
  have hsplit : ∀ row : AttachmentRow, ((first ++ second).contains row.1 && condition row.2.2) =
      ((first.contains row.1 && condition row.2.2) ||
        (second.contains row.1 && condition row.2.2)) := by
    intro row
    rw [← Bool.and_or_distrib_right, List.contains_eq_mem, List.contains_eq_mem,
      List.contains_eq_mem]
    simp
  simp only [hsplit]
  apply filter_or_perm
  intro row _ hfirst
  have hmem : row.1 ∈ first := by
    simp only [Bool.and_eq_true, List.contains_iff_mem] at hfirst
    exact hfirst.1
  have hnot : row.1 ∉ second := fun h => hdisjoint hmem h
  simp [hnot]

theorem attachmentBefore_total (a b : AttachmentRow) :
    attachmentBefore db a b = true ∨ attachmentBefore db b a = true := by
  have hid : a.2.2.id ≤ b.2.2.id ∨ b.2.2.id ≤ a.2.2.id := BitVec.le_total _ _
  simp only [attachmentBefore, Bool.and_eq_true, Bool.or_eq_true, decide_eq_true_eq]
  grind

theorem attachmentBefore_trans (a b c : AttachmentRow) (hab : attachmentBefore db a b = true)
    (hbc : attachmentBefore db b c = true) : attachmentBefore db a c = true := by
  have hid : a.2.2.id ≤ b.2.2.id → b.2.2.id ≤ c.2.2.id → a.2.2.id ≤ c.2.2.id := BitVec.le_trans
  simp only [attachmentBefore, Bool.and_eq_true, Bool.or_eq_true, decide_eq_true_eq] at hab hbc ⊢
  grind

theorem tabRows_descending (sequences : List Sequence) :
    (tabRows db conversation condition sequences).Pairwise fun a b => b.1 ≤ a.1 := by
  have : Std.Total fun a b : AttachmentRow => attachmentBefore db a b = true :=
    ⟨attachmentBefore_total⟩
  have : IsTrans AttachmentRow fun a b => attachmentBefore db a b = true :=
    ⟨attachmentBefore_trans⟩
  refine (List.pairwise_insertionSort _ _).imp ?_
  intro a b hab
  simp only [attachmentBefore, Bool.and_eq_true, Bool.or_eq_true, decide_eq_true_eq] at hab
  rcases hab with hlt | ⟨heq, -⟩
  · exact hlt.le
  · exact heq.ge

theorem flatten_tabRows {pages : List (List Sequence)} (hpages : pages.flatten.Nodup) :
    (pages.map (tabRows db conversation condition)).flatten.Perm
      (tabRows db conversation condition pages.flatten) := by
  induction pages with
  | nil => rw [List.flatten_nil, tabRows_nil]; rfl
  | cons page rest ih =>
    rw [List.flatten_cons] at hpages ⊢
    obtain ⟨-, hrest, hdisjoint⟩ := List.nodup_append'.mp hpages
    exact ((ih hrest).append_left _).trans (tabRows_append hdisjoint).symm

/-- The messages of the tab below a bound have the tab's attachments below it. -/
theorem tabRows_below :
    (tabRows db conversation condition
      (below (tabSequences conversation condition) (fun sequence => sequence) (some before))).Perm
    (((attachmentRows conversation).filter fun row => condition row.2.2).filter
      fun row => row.1 < before) := by
  refine (List.perm_insertionSort _ _).trans (List.Perm.of_eq ?_)
  rw [List.filter_filter]
  apply List.filter_congr
  intro row hrow
  have hmem : condition row.2.2 = true → row.1 ∈ tabSequences conversation condition :=
    fun h => mem_tabSequences.mpr ⟨row, hrow, h, rfl⟩
  rw [List.contains_eq_mem, below]
  cases hcondition : condition row.2.2 with
  | true => simp [hmem hcondition]
  | false => simp

end Attachments

section Links

variable {env : Environment} {db : MediaDatabase} {conversation : Conversation}
  {before : Sequence} {limit : ℕ}

def messageRows (conversation : Conversation) : List (Sequence × ConversationMessage) :=
  conversation.messages.entries.map fun row => (row.1, row.2)

/-- The messages with a link, newest first. -/
def linkRows (env : Environment) (conversation : Conversation) :
    List (Sequence × ConversationMessage) :=
  orderByDesc (·.1) ((messageRows conversation).filter fun row => hasLink env row.2.content)

theorem nodup_messageRows (p : Sequence × ConversationMessage → Bool) :
    (((messageRows conversation).filter p).map (·.1)).Nodup := by
  have hkeys : ((messageRows conversation).map (·.1)).Nodup := by
    rw [messageRows, List.map_map]
    exact conversation.messages.nodupKeys
  exact hkeys.sublist (List.filter_sublist.map _)

theorem linkRows_descending : (linkRows env conversation).Pairwise fun a b => b.1 < a.1 :=
  orderByDesc_strict (nodup_messageRows _)

/-- The messages with a link below a bound are those with a link that are below it. -/
theorem linksBelow_eq :
    orderByDesc (fun row : Sequence × ConversationMessage => row.1)
      ((messageRows conversation).filter fun row =>
        row.1 < before && hasLink env row.2.content) =
      below (linkRows env conversation) (·.1) (some before) := by
  have : Std.Irrefl fun a b : Sequence × ConversationMessage => b.1 < a.1 :=
    ⟨fun a => Nat.lt_irrefl a.1⟩
  have : Std.Antisymm fun a b : Sequence × ConversationMessage => b.1 < a.1 :=
    ⟨fun a b hab hba => absurd hab (Nat.lt_asymm hba)⟩
  refine (orderByDesc_strict (nodup_messageRows _)).eq_of_mem_iff
    (linkRows_descending.sublist List.filter_sublist) fun row => ?_
  simp only [linkRows, below, (orderByDesc_perm _ _).mem_iff, List.mem_filter, Bool.and_eq_true,
    decide_eq_true_eq, Option.all_some]
  tauto

theorem linkPage_eq :
    ((linkPage env db conversation before limit).items,
      (linkPage env db conversation before limit).nextBefore.map some) =
    ((keysetPage (linkRows env conversation) (·.1) limit (some before)).1.map (linkItem db),
      (keysetPage (linkRows env conversation) (·.1) limit (some before)).2) := by
  unfold linkPage
  dsimp only
  rw [← messageRows, linksBelow_eq, lookAhead_below]
  rfl

theorem linkRows_below :
    (below (linkRows env conversation) (·.1) (some before)).Perm
      (((messageRows conversation).filter fun row => hasLink env row.2.content).filter
        fun row => row.1 < before) :=
  (orderByDesc_perm _ _).filter _

end Links

/-! ## Reading a tab to its end -/

section Tab

variable (env : Environment) (db : MediaDatabase) (userId conversationId : Uuid)

/-- Everything in a tab. -/
def tabItems (conversation : Conversation) (kind : SharedMediaKind) : List SharedMediaItem :=
  match attachmentCondition kind with
  | some condition =>
    ((attachmentRows conversation).filter fun row => condition row.2.2).map
      (attachmentItem db conversationId)
  | none =>
    ((messageRows conversation).filter fun row => hasLink env row.2.content).map (linkItem db)

/-- What a reader of the tab gets below a message, the newest page at first. -/
def mediaPage (kind : SharedMediaKind) (limit : ℕ) (before : Option Sequence) :
    List SharedMediaItem × Option (Option Sequence) :=
  match listSharedMedia env db userId conversationId
      { kind, before := before.map Int.ofNat, limit := some limit } with
  | .ok page => (page.items, page.nextBefore.map some)
  | .error _ => ([], none)

/-- The pages hold everything once, newest first and a message on one page, and the count agrees. -/
structure ListsAll (items : List SharedMediaItem) (count : ℕ)
    (pages : List (List SharedMediaItem)) : Prop where
  once : pages.flatten.Perm items
  descending : pages.flatten.Pairwise fun a b => b.sequence ≤ a.sequence
  whole : pages.Pairwise fun page later =>
    ∀ a ∈ page, ∀ b ∈ later, a.sequence ≠ b.sequence
  counted : count = pages.flatten.length

variable {env db userId conversationId} {conversation : Conversation} {kind : SharedMediaKind}
  {limit : ℕ}

theorem listSharedMedia_eq (hlimit : 1 ≤ limit ∧ limit ≤ 60)
    (haccess : authorizeConversationAccess db.social conversationId userId = .ok conversation)
    {before : Option Sequence} (hbefore : ∀ b ∈ before, 0 < b) :
    listSharedMedia env db userId conversationId
      { kind, before := before.map Int.ofNat, limit := some limit } =
      .ok (match attachmentCondition kind with
        | some condition =>
          attachmentPage db conversationId conversation condition (before.getD maxSequence) limit
        | none => linkPage env db conversation (before.getD maxSequence) limit) := by
  have hvalid : validatePage { kind, before := before.map Int.ofNat, limit := some limit } =
      .ok limit := by
    unfold validatePage maxPageSize
    dsimp only
    rw [if_neg, if_pos]
    · rfl
    · rw [Option.getD_some]
      exact ⟨Int.ofNat_le.mpr hlimit.1, Int.ofNat_le.mpr hlimit.2⟩
    · cases before with
      | none => simp
      | some b =>
        have hpos : 0 < b := hbefore b rfl
        simpa [Nat.pos_iff_ne_zero] using hpos
  unfold listSharedMedia
  rw [hvalid, haccess]
  cases before with
  | none => rfl
  | some b => rfl

/-- A tab whose pages are cut from rows with different numbers is read to its end. -/
theorem exists_follows_tab {Row : Type*} {rows : List Row} {key : Row → Sequence}
    (display : List Row → List SharedMediaItem)
    (hrows : rows.Pairwise fun a b => key b < key a) (hlimit : 0 < limit)
    (hfirst : mediaPage env db userId conversationId kind limit none =
      mediaPage env db userId conversationId kind limit (some maxSequence))
    (hpage : ∀ before, 0 < before →
      mediaPage env db userId conversationId kind limit (some before) =
        (display (keysetPage rows key limit (some before)).1,
          (keysetPage rows key limit (some before)).2)) :
    ∃ pages : List (List Row),
      Follows (mediaPage env db userId conversationId kind limit) none (pages.map display) ∧
        pages.flatten = below rows key (some maxSequence) := by
  have hsorted : rows.Pairwise fun a b => key b ≤ key a := hrows.imp fun h => h.le
  obtain ⟨pages, hpages⟩ := exists_follows_keyset limit hsorted (some maxSequence)
  have hall := flatten_eq_iff hlimit hsorted hpages
  have hstrict : (below rows key (some maxSequence)).Pairwise fun a b => key b < key a :=
    hrows.sublist List.filter_sublist
  refine ⟨pages, ?_, hall.mpr (not_cutsTie hstrict)⟩
  have hhanded : ∀ cursor next, (keysetPage rows key limit cursor).2 = some next →
      ∃ before, next = some before ∧ 0 < before := by
    intro cursor next hnext
    obtain ⟨last, rfl, hcut⟩ := keysetPage_next hsorted hnext
    obtain ⟨row, hrow⟩ := List.exists_mem_of_length_pos
      (show 0 < ((below rows key cursor).drop limit).length by
        have hmore := hcut.more
        rw [List.length_drop]
        omega)
    have hlt := hcut.lt_last (hrows.sublist List.filter_sublist) hrow
    exact ⟨key last, rfl, Nat.zero_lt_of_lt hlt⟩
  refine (hpages.mapOn display ?_ hhanded ⟨maxSequence, rfl, by decide⟩).restart hfirst
  intro cursor hcursor
  obtain ⟨before, rfl, hpos⟩ := hcursor
  exact hpage before hpos

theorem mediaPage_none (hlimit : 1 ≤ limit ∧ limit ≤ 60)
    (haccess : authorizeConversationAccess db.social conversationId userId = .ok conversation) :
    mediaPage env db userId conversationId kind limit none =
      mediaPage env db userId conversationId kind limit (some maxSequence) := by
  unfold mediaPage
  rw [listSharedMedia_eq hlimit haccess, listSharedMedia_eq hlimit haccess]
  · rfl
  · intro b hb
    cases hb
    decide
  · intro b hb
    cases hb

theorem mediaPage_attachments {condition : MessageAttachment → Bool}
    (hlimit : 1 ≤ limit ∧ limit ≤ 60)
    (haccess : authorizeConversationAccess db.social conversationId userId = .ok conversation)
    (hkind : attachmentCondition kind = some condition) {before : Sequence} (hbefore : 0 < before) :
    mediaPage env db userId conversationId kind limit (some before) =
      ((tabRows db conversation condition (keysetPage (tabSequences conversation condition)
        (fun sequence => sequence) limit (some before)).1).map (attachmentItem db conversationId),
        (keysetPage (tabSequences conversation condition) (fun sequence => sequence) limit
          (some before)).2) := by
  have hpos : ∀ b ∈ some before, 0 < b := fun b hb => Option.some.inj hb ▸ hbefore
  rw [mediaPage, listSharedMedia_eq hlimit haccess hpos, hkind, ← attachmentPage_eq]
  rfl

theorem mediaPage_links (hlimit : 1 ≤ limit ∧ limit ≤ 60)
    (haccess : authorizeConversationAccess db.social conversationId userId = .ok conversation)
    (hkind : attachmentCondition kind = none) {before : Sequence} (hbefore : 0 < before) :
    mediaPage env db userId conversationId kind limit (some before) =
      ((keysetPage (linkRows env conversation) (·.1) limit (some before)).1.map (linkItem db),
        (keysetPage (linkRows env conversation) (·.1) limit (some before)).2) := by
  have hpos : ∀ b ∈ some before, 0 < b := fun b hb => Option.some.inj hb ▸ hbefore
  rw [mediaPage, listSharedMedia_eq hlimit haccess hpos, hkind, ← linkPage_eq]
  rfl

variable (env) in
/-- The pages of a tab hold what is numbered below the largest number, newest first. -/
theorem exists_pages (hlimit : 1 ≤ limit ∧ limit ≤ 60)
    (haccess : authorizeConversationAccess db.social conversationId userId = .ok conversation)
    (kind : SharedMediaKind) :
    ∃ pages, Follows (mediaPage env db userId conversationId kind limit) none pages ∧
      pages.flatten.Perm ((tabItems env db conversationId conversation kind).filter
        fun item => item.sequence < maxSequence) ∧
      (∀ page ∈ pages, page.Pairwise fun a b => b.sequence ≤ a.sequence) ∧
      pages.Pairwise fun page later => ∀ a ∈ page, ∀ b ∈ later, b.sequence < a.sequence := by
  unfold tabItems
  cases hkind : attachmentCondition kind with
  | some condition =>
    obtain ⟨pages, hpages, hflatten⟩ := exists_follows_tab
      (fun sequences => (tabRows db conversation condition sequences).map
        (attachmentItem db conversationId))
      tabSequences_descending hlimit.1 (mediaPage_none hlimit haccess)
      fun before hbefore => mediaPage_attachments hlimit haccess hkind hbefore
    have hdescending : pages.flatten.Pairwise fun a b => b < a := by
      rw [hflatten]
      exact tabSequences_descending.sublist List.filter_sublist
    obtain ⟨-, hacross⟩ := List.pairwise_flatten.mp hdescending
    refine ⟨_, hpages, ?_, ?_, ?_⟩
    · have hnodup : pages.flatten.Nodup := hdescending.imp fun h => (Nat.ne_of_lt h).symm
      have hsplit : (pages.map fun sequences =>
          (tabRows db conversation condition sequences).map (attachmentItem db conversationId)) =
            (pages.map (tabRows db conversation condition)).map
              (List.map (attachmentItem db conversationId)) := by
        rw [List.map_map]
        rfl
      rw [hsplit, ← List.map_flatten, List.filter_map]
      refine List.Perm.map _ ((flatten_tabRows hnodup).trans ?_)
      rw [hflatten]
      exact tabRows_below
    · intro page hpage
      obtain ⟨sequences, -, rfl⟩ := List.mem_map.mp hpage
      exact List.pairwise_map.mpr (tabRows_descending sequences)
    · rw [List.pairwise_map]
      refine hacross.imp ?_
      intro sequences later hlt a ha b hb
      obtain ⟨row, hrow, rfl⟩ := List.mem_map.mp ha
      obtain ⟨row', hrow', rfl⟩ := List.mem_map.mp hb
      exact hlt row.1 (mem_tabRows.mp hrow).2.1 row'.1 (mem_tabRows.mp hrow').2.1
  | none =>
    obtain ⟨pages, hpages, hflatten⟩ := exists_follows_tab (fun rows => rows.map (linkItem db))
      linkRows_descending hlimit.1 (mediaPage_none hlimit haccess)
      fun before hbefore => mediaPage_links hlimit haccess hkind hbefore
    have hdescending : pages.flatten.Pairwise fun a b => b.1 < a.1 := by
      rw [hflatten]
      exact linkRows_descending.sublist List.filter_sublist
    obtain ⟨hwithin, hacross⟩ := List.pairwise_flatten.mp hdescending
    refine ⟨_, hpages, ?_, ?_, ?_⟩
    · rw [← List.map_flatten, List.filter_map, hflatten]
      exact linkRows_below.map _
    · intro page hpage
      obtain ⟨rows, hrows, rfl⟩ := List.mem_map.mp hpage
      exact List.pairwise_map.mpr ((hwithin rows hrows).imp fun h => h.le)
    · rw [List.pairwise_map]
      refine hacross.imp ?_
      intro rows later hlt a ha b hb
      obtain ⟨row, hrow, rfl⟩ := List.mem_map.mp ha
      obtain ⟨row', hrow', rfl⟩ := List.mem_map.mp hb
      exact hlt row hrow row' hrow'

variable (env) in
/-- The counts are those of everything in the tabs. -/
theorem sharedMediaCounts_eq
    (haccess : authorizeConversationAccess db.social conversationId userId = .ok conversation) :
    ∃ counts, sharedMediaCounts env db userId conversationId = .ok counts ∧
      ∀ kind, counts.of kind = (tabItems env db conversationId conversation kind).length := by
  unfold sharedMediaCounts
  rw [haccess]
  refine ⟨_, rfl, fun kind => ?_⟩
  cases kind with
  | links =>
    simp only [SharedMediaCounts.of, tabItems, attachmentCondition, List.length_map, messageRows,
      List.filter_map, List.countP_eq_length_filter]
    rfl
  | media | files | voice | gifs =>
    simp only [SharedMediaCounts.of, tabItems, countAttachments, attachmentCondition,
      List.length_map, Option.elim_some, List.countP_eq_length_filter]

/-- What a tab shows comes from the conversation's messages. -/
theorem sequence_mem {item : SharedMediaItem}
    (h : item ∈ tabItems env db conversationId conversation kind) :
    item.sequence ∈ conversation.messages := by
  have hkey : ∀ row ∈ conversation.messages.entries, row.1 ∈ conversation.messages :=
    fun row hrow => List.mem_keys_of_mem hrow
  unfold tabItems at h
  cases hkind : attachmentCondition kind with
  | some condition =>
    simp only [hkind] at h
    obtain ⟨row, hrow, rfl⟩ := List.mem_map.mp h
    obtain ⟨entry, hentry, hattachment⟩ := List.mem_flatMap.mp (List.mem_of_mem_filter hrow)
    obtain ⟨attachment, -, rfl⟩ := List.mem_map.mp hattachment
    exact hkey entry hentry
  | none =>
    simp only [hkind] at h
    obtain ⟨row, hrow, rfl⟩ := List.mem_map.mp h
    obtain ⟨entry, hentry, rfl⟩ := List.mem_map.mp (List.mem_of_mem_filter hrow)
    exact hkey entry hentry

theorem listsAll_iff {items : List SharedMediaItem} {pages : List (List SharedMediaItem)}
    (hitems : pages.flatten.Perm (items.filter fun item => item.sequence < maxSequence))
    (hwithin : ∀ page ∈ pages, page.Pairwise fun a b => b.sequence ≤ a.sequence)
    (hacross : pages.Pairwise fun page later => ∀ a ∈ page, ∀ b ∈ later, b.sequence < a.sequence) :
    ListsAll items items.length pages ↔ ∀ item ∈ items, item.sequence < maxSequence := by
  constructor
  · intro h
    have hlength := hitems.length_eq.symm.trans h.once.length_eq
    simpa using List.length_filter_eq_length_iff.mp hlength
  · intro h
    have hall : items.filter (fun item => item.sequence < maxSequence) = items :=
      List.filter_eq_self.mpr fun item hitem => decide_eq_true (h item hitem)
    rw [hall] at hitems
    refine ⟨hitems, List.pairwise_flatten.mpr ⟨hwithin, ?_⟩, ?_, hitems.length_eq.symm⟩
    · exact hacross.imp fun hlt a ha b hb => (hlt a ha b hb).le
    · exact hacross.imp fun hlt a ha b hb => (Nat.ne_of_lt (hlt a ha b hb)).symm

end Tab

/-- Every attachment has one tab. Following the pages of a tab comes to an end, and it lists what
the count counts, everything once, newest first and each message on one page, exactly when nothing
in the tab has the largest number. -/
theorem shared_media_iff (env : Environment) (db : MediaDatabase) (userId conversationId : Uuid)
    (conversation : Conversation)
    (haccess : authorizeConversationAccess db.social conversationId userId = .ok conversation) :
    (∀ attachment : MessageAttachment, ∃! kind, ∃ condition,
      attachmentCondition kind = some condition ∧ condition attachment = true) ∧
    ∀ (kind : SharedMediaKind) (limit : ℕ), 1 ≤ limit ∧ limit ≤ 60 →
      ∃ pages counts, Follows (mediaPage env db userId conversationId kind limit) none pages ∧
        sharedMediaCounts env db userId conversationId = .ok counts ∧
        (ListsAll (tabItems env db conversationId conversation kind) (counts.of kind) pages ↔
          ∀ item ∈ tabItems env db conversationId conversation kind,
            item.sequence < maxSequence) := by
  constructor
  · intro attachment
    obtain ⟨condition, hcondition⟩ := tabOf_condition attachment
    refine ⟨tabOf attachment, ⟨condition, hcondition, ?_⟩, ?_⟩
    · exact (attachmentCondition_iff hcondition attachment).mpr rfl
    · intro kind hkind
      obtain ⟨other, hother, hmeets⟩ := hkind
      exact (attachmentCondition_iff hother attachment).mp hmeets
  · intro kind limit hlimit
    obtain ⟨pages, hpages, hitems, hwithin, hacross⟩ := exists_pages env hlimit haccess kind
    obtain ⟨counts, hcounts, hcount⟩ := sharedMediaCounts_eq env haccess
    refine ⟨pages, counts, hpages, hcounts, ?_⟩
    rw [hcount kind]
    exact listsAll_iff hitems hwithin hacross

/-- Every attachment has one tab, and following the pages of a tab comes to an end: it lists what
the count counts, everything once, newest first and each message on one page. The column that
numbers the messages never gets to its largest value. -/
theorem shared_media_listed (env : Environment) (db : MediaDatabase) (userId conversationId : Uuid)
    (conversation : Conversation)
    (haccess : authorizeConversationAccess db.social conversationId userId = .ok conversation)
    (hnumbers : ∀ sequence ∈ conversation.messages, sequence < maxSequence) :
    (∀ attachment : MessageAttachment, ∃! kind, ∃ condition,
      attachmentCondition kind = some condition ∧ condition attachment = true) ∧
    ∀ (kind : SharedMediaKind) (limit : ℕ), 1 ≤ limit ∧ limit ≤ 60 →
      ∃ pages counts, Follows (mediaPage env db userId conversationId kind limit) none pages ∧
        sharedMediaCounts env db userId conversationId = .ok counts ∧
        ListsAll (tabItems env db conversationId conversation kind) (counts.of kind) pages := by
  obtain ⟨htabs, hread⟩ := shared_media_iff env db userId conversationId conversation haccess
  refine ⟨htabs, fun kind limit hlimit => ?_⟩
  obtain ⟨pages, counts, hpages, hcounts, hall⟩ := hread kind limit hlimit
  refine ⟨pages, counts, hpages, hcounts, hall.mpr ?_⟩
  intro item hitem
  exact hnumbers _ (sequence_mem hitem)

/-- Ada has sent Bob a GIF. -/
def oneGif (accounts : Accounts.Database) : MediaDatabase where
  social :=
    { emptyDatabase accounts with
      conversations := (∅ : Map Uuid Conversation).insert 50
        { kind := .direct 1 2
          creatorId := 1
          updatedAt := 3
          members := ∅
          messages := (∅ : Map Sequence ConversationMessage).insert 1
            ⟨1, "Ada", "", none, [⟨60, "k", "giphy-1.gif", "image/gif", 9⟩], ∅⟩
          readStates := ∅
          hidden := ∅ }
      lastSequence := 1 }
  messageTimes := (∅ : Map Sequence Timestamp).insert 1 3
  attachmentColumns := (∅ : Map Uuid AttachmentColumns).insert 60 ⟨3, none, none⟩

theorem oneGif_listed : ∃ accounts ∈ adaAndBob, ∃ conversation pages counts,
    Follows (mediaPage plainHashing (oneGif accounts) 1 50 .gifs 30) none pages ∧
      sharedMediaCounts plainHashing (oneGif accounts) 1 50 = .ok counts ∧
      ListsAll (tabItems plainHashing (oneGif accounts) 50 conversation .gifs) (counts.of .gifs)
        pages ∧ counts.of .gifs = 1 := by
  obtain ⟨accounts, haccounts, hnumbers, hcount⟩ : ∃ accounts ∈ adaAndBob,
      (∀ conversation ∈ (authorizeConversationAccess (oneGif accounts).social 50 1).toOption,
        ∀ sequence ∈ conversation.messages.keys, sequence < maxSequence) ∧
      ∀ counts ∈ (sharedMediaCounts plainHashing (oneGif accounts) 1 50).toOption,
        counts.of .gifs = 1 := by
    decide +kernel
  obtain ⟨pages, counts, hpages, hcounts, hlists⟩ := (shared_media_listed plainHashing
    (oneGif accounts) 1 50 _ rfl (hnumbers _ rfl)).2 .gifs 30 ⟨by decide, by decide⟩
  refine ⟨accounts, haccounts, _, pages, counts, hpages, hcounts, hlists, hcount counts ?_⟩
  rw [hcounts]
  rfl

end OpenMeet.SharedMedia
