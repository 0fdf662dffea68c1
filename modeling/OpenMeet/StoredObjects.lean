import OpenMeet.KeyedMap
import OpenMeet.Messages
import OpenMeet.ObjectLedger
import OpenMeet.TransitionSystem

/-!
Message attachments and group avatars, in the object storage and in the tables.
Requests upload before their transaction and delete after it, or when anything
before its commit fails; each await is a step of its own. The group's row is
locked for the insert of a message and for every change of its avatar, and the
deletion of a group reads the keys of its objects under that lock. Only a failed
upload of a group avatar is not cleaned up after itself.
-/
namespace OpenMeet.StoredObjects

open KeyedMap Messages ObjectLedger TransitionSystem

/-! ## Keys and tables -/

/-- message-attachments/{conversation_id}/{id} -/
structure AttachmentKey where
  conversationId : Uuid
  id : Uuid
  deriving DecidableEq

/-- group-avatars/{group_id}/{id}.{extension} -/
structure AvatarKey where
  groupId : Uuid
  id : Uuid
  extension : String
  deriving DecidableEq

/-- The objects of the bucket; the key of a thumbnail is that of its avatar and .thumb. -/
inductive StorageKey
  | attachment (key : AttachmentKey)
  | avatar (key : AvatarKey)
  | thumbnail (key : AvatarKey)
  deriving DecidableEq

namespace StorageKey

def groupId : StorageKey → Uuid
  | .attachment key => key.conversationId
  | .avatar key | .thumbnail key => key.groupId

/-- The random part, drawn once for an avatar and its thumbnail. -/
def id : StorageKey → Uuid
  | .attachment key => key.id
  | .avatar key | .thumbnail key => key.id

end StorageKey

def AvatarKey.objects (key : AvatarKey) : List StorageKey := [.avatar key, .thumbnail key]

def attachmentObjects (conversationId : Uuid) (ids : List Uuid) : List StorageKey :=
  ids.map fun id => .attachment ⟨conversationId, id⟩

/-- The storage keys of the attachment rows of one message. -/
structure Message where
  attachments : List AttachmentKey
  deriving DecidableEq

/-- A group's row with its messages, which are deleted with it. -/
structure Group where
  avatarKey : Option AvatarKey
  messages : List Message
  deriving DecidableEq

namespace Group

def new : Group where
  avatarKey := none
  messages := []

def attachmentKeys (group : Group) : List AttachmentKey := group.messages.flatMap (·.attachments)

def objects (group : Group) : List StorageKey :=
  group.avatarKey.toList.flatMap AvatarKey.objects ++ group.attachmentKeys.map .attachment

end Group

abbrev Groups := Map Uuid Group

/-! ## Requests -/

/-- What a request does in its transaction. -/
inductive Work
  | message (conversationId : Uuid) (ids : List Uuid)
  | avatar (key : AvatarKey)
  | removal (groupId : Uuid)
  | deletion (groupId : Uuid)
  deriving DecidableEq

/-- What it has uploaded by then. -/
def Work.uploads : Work → List StorageKey
  | .message conversationId ids => attachmentObjects conversationId ids
  | .avatar key => key.objects
  | .removal _ | .deletion _ => []

/-- The locks of PostgreSQL on a row: a foreign key check, an update, and FOR UPDATE. -/
inductive RowLock
  | keyShare
  | noKeyUpdate
  | forUpdate
  deriving DecidableEq

def RowLock.conflicts : RowLock → RowLock → Bool
  | .keyShare, .keyShare | .keyShare, .noKeyUpdate | .noKeyUpdate, .keyShare => false
  | _, _ => true

/-- Where a transaction is, with what its statements have read and written. -/
inductive Transaction
  | messageAuthorizing (conversationId : Uuid) (ids : List Uuid)
  | messageInserted (conversationId : Uuid) (ids : List Uuid)
  | attachmentsInserted (conversationId : Uuid) (ids : List Uuid)
  | conversationTouched (conversationId : Uuid) (ids : List Uuid)
  | avatarOpening (key : AvatarKey)
  | avatarLocked (key : AvatarKey) (previous : Option AvatarKey)
  | avatarReplaced (key : AvatarKey) (previous : Option AvatarKey)
  | removalOpening (groupId : Uuid)
  | removalLocked (groupId : Uuid) (avatarKey : Option AvatarKey)
  | avatarRemoved (groupId : Uuid) (avatarKey : AvatarKey)
  | deletionOpening (groupId : Uuid)
  | deletionLocked (groupId : Uuid) (avatarKey : Option AvatarKey)
  | deletionRead (groupId : Uuid) (avatarKey : Option AvatarKey)
      (attachmentKeys : List AttachmentKey)
  | groupDeleted (groupId : Uuid) (avatarKey : Option AvatarKey)
      (attachmentKeys : List AttachmentKey)
  deriving DecidableEq

namespace Transaction

def work : Transaction → Work
  | .messageAuthorizing conversationId ids | .messageInserted conversationId ids
  | .attachmentsInserted conversationId ids | .conversationTouched conversationId ids =>
    .message conversationId ids
  | .avatarOpening key | .avatarLocked key _ | .avatarReplaced key _ => .avatar key
  | .removalOpening groupId | .removalLocked groupId _ | .avatarRemoved groupId _ =>
    .removal groupId
  | .deletionOpening groupId | .deletionLocked groupId _ | .deletionRead groupId _ _
  | .groupDeleted groupId _ _ => .deletion groupId

/-- The lock it holds on the row of a group. -/
def lock : Transaction → Option (Uuid × RowLock)
  | .messageInserted conversationId _ | .attachmentsInserted conversationId _ =>
    some (conversationId, .keyShare)
  | .conversationTouched conversationId _ => some (conversationId, .noKeyUpdate)
  | .avatarLocked key _ | .avatarReplaced key _ => some (key.groupId, .forUpdate)
  | .removalLocked groupId _ | .avatarRemoved groupId _ | .deletionLocked groupId _
  | .deletionRead groupId _ _ | .groupDeleted groupId _ _ => some (groupId, .forUpdate)
  | _ => none

def start : Work → Transaction
  | .message conversationId ids => .messageAuthorizing conversationId ids
  | .avatar key => .avatarOpening key
  | .removal groupId => .removalOpening groupId
  | .deletion groupId => .deletionOpening groupId

/-- Its next statement; there is none if the row is gone, or after the last one. -/
def statement (groups : Groups) : Transaction → Option Transaction
  | .messageAuthorizing conversationId ids =>
    if conversationId ∈ groups then some (.messageInserted conversationId ids) else none
  | .messageInserted conversationId ids => some (.attachmentsInserted conversationId ids)
  | .attachmentsInserted conversationId ids => some (.conversationTouched conversationId ids)
  | .avatarOpening key =>
    (groups.lookup key.groupId).map fun group => .avatarLocked key group.avatarKey
  | .avatarLocked key previous => some (.avatarReplaced key previous)
  | .removalOpening groupId =>
    (groups.lookup groupId).map fun group => .removalLocked groupId group.avatarKey
  | .removalLocked groupId (some avatarKey) => some (.avatarRemoved groupId avatarKey)
  | .deletionOpening groupId =>
    (groups.lookup groupId).map fun group => .deletionLocked groupId group.avatarKey
  | .deletionLocked groupId avatarKey =>
    (groups.lookup groupId).map fun group =>
      .deletionRead groupId avatarKey group.attachmentKeys
  | .deletionRead groupId avatarKey attachmentKeys =>
    some (.groupDeleted groupId avatarKey attachmentKeys)
  | _ => none

def finished : Transaction → Bool
  | .conversationTouched _ _ | .avatarReplaced _ _ | .removalLocked _ none | .avatarRemoved _ _
  | .groupDeleted _ _ _ => true
  | _ => false

/-- What its commit does to the tables. -/
def effect : Transaction → Groups → Groups
  | .conversationTouched conversationId ids => fun groups =>
    groups.modify conversationId fun group =>
      { group with
        messages := group.messages ++ [{ attachments := ids.map fun id => ⟨conversationId, id⟩ }] }
  | .avatarReplaced key _ => fun groups =>
    groups.modify key.groupId fun group => { group with avatarKey := some key }
  | .avatarRemoved groupId _ => fun groups =>
    groups.modify groupId fun group => { group with avatarKey := none }
  | .groupDeleted groupId _ _ => fun groups => groups.erase groupId
  | _ => id

/-- The objects deleted once it has committed. -/
def obsolete : Transaction → List StorageKey
  | .avatarReplaced key previous =>
    (previous.filter (· ≠ key)).toList.flatMap AvatarKey.objects
  | .avatarRemoved _ avatarKey => avatarKey.objects
  | .groupDeleted _ avatarKey attachmentKeys =>
    avatarKey.toList.flatMap AvatarKey.objects ++ attachmentKeys.map .attachment
  | _ => []

end Transaction

/-- Where a request is. -/
inductive Stage
  | receivingMessage (conversationId : Uuid)
  | receivingAvatar (groupId : Uuid)
  | uploadingAttachments (conversationId : Uuid) (uploaded rest : List Uuid)
  | uploadingOriginal (key : AvatarKey)
  | uploadingThumbnail (key : AvatarKey)
  | connecting (work : Work)
  | transaction (tx : Transaction)
  | deleting (keys : List StorageKey)
  deriving DecidableEq

def Stage.isInitial : Stage → Bool
  | .receivingMessage _ | .receivingAvatar _ | .connecting (.removal _)
  | .connecting (.deletion _) => true
  | _ => false

abbrev TaskId := Nat

structure Service where
  groups : Groups
  storage : Finset StorageKey
  tasks : Map TaskId Stage
  drawn : Finset Uuid

/-- An upload that fails may have stored its object. -/
inductive UploadResult
  | stored
  | failed (stored : Bool)
  deriving DecidableEq

inductive Action
  | createGroup (groupId : Uuid)
  | start (task : TaskId) (stage : Stage)
  | receiveAttachments (task : TaskId) (ids : List Uuid)
  | receiveAvatar (task : TaskId) (id : Uuid) (extension : String)
  | upload (task : TaskId) (result : UploadResult)
  | finishUploads (task : TaskId)
  | connect (task : TaskId)
  | run (task : TaskId)
  | commit (task : TaskId)
  | fail (task : TaskId)
  | delete (task : TaskId)
  deriving DecidableEq

namespace Service

def initial : Service where
  groups := ∅
  storage := ∅
  tasks := ∅
  drawn := ∅

variable (s : Service) (task : TaskId)

@[simp] def setTask (stage : Stage) : Service := { s with tasks := s.tasks.insert task stage }

/-- Go on to delete objects, or end. -/
def cleanUp (keys : List StorageKey) : Service :=
  if keys = [] then { s with tasks := s.tasks.erase task } else s.setTask task (.deleting keys)

/-- Nobody else holds a lock on the row that conflicts with the one wanted. -/
def free (lock : Option (Uuid × RowLock)) : Bool :=
  lock.all fun wanted => s.tasks.entries.all fun row =>
    row.1 = task ||
      match row.2 with
      | .transaction tx =>
        tx.lock.all fun held => held.1 ≠ wanted.1 || !wanted.2.conflicts held.2
      | _ => true

end Service

section Steps

variable (s : Service) (task : TaskId)

/-- A group comes without an avatar and without messages. -/
def createGroup (groupId : Uuid) : Option Service :=
  if groupId ∈ s.groups then none
  else some { s with groups := s.groups.insert groupId Group.new }

def start (stage : Stage) : Option Service :=
  if stage.isInitial = true ∧ task ∉ s.tasks then some (s.setTask task stage) else none

/-- The checks have passed and the message and its attachments are parsed. -/
def receiveAttachments (ids : List Uuid) : Option Service :=
  match s.tasks.lookup task with
  | some (.receivingMessage conversationId) =>
    if ids.Nodup ∧ ids.all (· ∉ s.drawn) then
      some ({ s with drawn := s.drawn ∪ ids.toFinset }.setTask task
        (.uploadingAttachments conversationId [] ids))
    else none
  | _ => none

/-- The check has passed, and the avatar is parsed and its thumbnail rendered. -/
def receiveAvatar (id : Uuid) (extension : String) : Option Service :=
  match s.tasks.lookup task with
  | some (.receivingAvatar groupId) =>
    if id ∉ s.drawn then
      some ({ s with drawn := insert id s.drawn }.setTask task
        (.uploadingOriginal ⟨groupId, id, extension⟩))
    else none
  | _ => none

/-- What the storage holds after an upload. -/
def put (key : StorageKey) : UploadResult → Finset StorageKey
  | .stored | .failed true => insert key s.storage
  | .failed false => s.storage

def upload (result : UploadResult) : Option Service :=
  match s.tasks.lookup task with
  | some (.uploadingAttachments conversationId uploaded (id :: rest)) =>
    let t := { s with storage := put s (.attachment ⟨conversationId, id⟩) result }
    match result with
    | .stored =>
      some (t.setTask task (.uploadingAttachments conversationId (uploaded ++ [id]) rest))
    | .failed _ => some (t.cleanUp task (attachmentObjects conversationId (uploaded ++ [id])))
  | some (.uploadingOriginal key) =>
    let t := { s with storage := put s (.avatar key) result }
    match result with
    | .stored => some (t.setTask task (.uploadingThumbnail key))
    -- nothing is deleted, whatever the storage has kept
    | .failed _ => some (t.cleanUp task [])
  | some (.uploadingThumbnail key) =>
    let t := { s with storage := put s (.thumbnail key) result }
    match result with
    | .stored => some (t.setTask task (.connecting (.avatar key)))
    -- only the original is deleted
    | .failed _ => some (t.cleanUp task [.avatar key])
  | _ => none

def finishUploads : Option Service :=
  match s.tasks.lookup task with
  | some (.uploadingAttachments conversationId uploaded []) =>
    some (s.setTask task (.connecting (.message conversationId uploaded)))
  | _ => none

def connect : Option Service :=
  match s.tasks.lookup task with
  | some (.connecting work) => some (s.setTask task (.transaction (Transaction.start work)))
  | _ => none

def run : Option Service :=
  match s.tasks.lookup task with
  | some (.transaction tx) =>
    match tx.statement s.groups with
    | some next => if s.free task next.lock then some (s.setTask task (.transaction next)) else none
    | none => none
  | _ => none

def commit : Option Service :=
  match s.tasks.lookup task with
  | some (.transaction tx) =>
    if tx.finished then some ({ s with groups := tx.effect s.groups }.cleanUp task tx.obsolete)
    else none
  | _ => none

/-- A check fails, no connection is to be had, or the transaction fails; what has been uploaded
is deleted. -/
def fail : Option Service :=
  match s.tasks.lookup task with
  | some (.receivingMessage _) | some (.receivingAvatar _) => some (s.cleanUp task [])
  | some (.connecting work) => some (s.cleanUp task work.uploads)
  | some (.transaction tx) => some (s.cleanUp task tx.work.uploads)
  | _ => none

def delete : Option Service :=
  match s.tasks.lookup task with
  | some (.deleting (key :: rest)) =>
    some ({ s with storage := s.storage.erase key }.cleanUp task rest)
  | _ => none

end Steps

def step (s : Service) : Action → Option Service
  | .createGroup groupId => createGroup s groupId
  | .start task stage => start s task stage
  | .receiveAttachments task ids => receiveAttachments s task ids
  | .receiveAvatar task id extension => receiveAvatar s task id extension
  | .upload task result => upload s task result
  | .finishUploads task => finishUploads s task
  | .connect task => connect s task
  | .run task => run s task
  | .commit task => commit s task
  | .fail task => fail s task
  | .delete task => delete s task

def system : System Service Action where
  init := Service.initial
  step := step

/-! ## What the storage should hold -/

/-- The attachment objects are those of the attachment rows, and the avatar objects those of the
groups' avatars with their thumbnails. -/
structure Matched (s : Service) : Prop where
  attachments : ∀ key, .attachment key ∈ s.storage ↔
    ∃ groupId group, s.groups.lookup groupId = some group ∧ key ∈ group.attachmentKeys
  avatars : ∀ key, .avatar key ∈ s.storage ↔
    ∃ groupId group, s.groups.lookup groupId = some group ∧ group.avatarKey = some key
  thumbnails : ∀ key, .thumbnail key ∈ s.storage ↔
    ∃ groupId group, s.groups.lookup groupId = some group ∧ group.avatarKey = some key

/-- No upload of a group avatar or its thumbnail fails after the object is stored. -/
def FailsClean (s : Service) : Action → Prop
  | .upload task (.failed stored) =>
    match s.tasks.lookup task with
    | some (.uploadingOriginal _) | some (.uploadingThumbnail _) => stored = false
    | _ => True
  | _ => True

/-- The objects that an action leaves behind. -/
def leaks (s : Service) : Action → List StorageKey
  | .upload task (.failed true) =>
    match s.tasks.lookup task with
    | some (.uploadingOriginal key) => [.avatar key]
    | some (.uploadingThumbnail key) => [.thumbnail key]
    | _ => []
  | _ => []

theorem failsClean_iff {s : Service} {a : Action} : FailsClean s a ↔ leaks s a = [] := by
  unfold FailsClean leaks
  split
  · rename_i task stored
    cases stored <;> split <;> simp_all
  · rename_i hnot
    split
    · exact absurd rfl (hnot _ _)
    · simp

/-! ## What a step can do -/

/-- A move of one request, from its stage before to the state after. -/
inductive Move (s : Service) (task : TaskId) : Action → Service → Prop
  | start (stage : Stage) (hinitial : stage.isInitial = true) (hnew : task ∉ s.tasks) :
      Move s task (.start task stage) (s.setTask task stage)
  | receiveAttachments (conversationId : Uuid) (ids : List Uuid)
      (htask : s.tasks.lookup task = some (.receivingMessage conversationId))
      (hnodup : ids.Nodup) (hnew : ∀ id ∈ ids, id ∉ s.drawn) :
      Move s task (.receiveAttachments task ids)
        ({ s with drawn := s.drawn ∪ ids.toFinset }.setTask task
          (.uploadingAttachments conversationId [] ids))
  | receiveAvatar (key : AvatarKey)
      (htask : s.tasks.lookup task = some (.receivingAvatar key.groupId))
      (hnew : key.id ∉ s.drawn) :
      Move s task (.receiveAvatar task key.id key.extension)
        ({ s with drawn := insert key.id s.drawn }.setTask task (.uploadingOriginal key))
  | uploadAttachment (conversationId : Uuid) (uploaded : List Uuid) (id : Uuid)
      (rest : List Uuid) (htask : s.tasks.lookup task =
        some (.uploadingAttachments conversationId uploaded (id :: rest))) :
      Move s task (.upload task .stored)
        ({ s with
          storage := insert (StorageKey.attachment ⟨conversationId, id⟩) s.storage }.setTask task
          (.uploadingAttachments conversationId (uploaded ++ [id]) rest))
  | failAttachment (conversationId : Uuid) (uploaded : List Uuid) (id : Uuid)
      (rest : List Uuid) (stored : Bool) (htask : s.tasks.lookup task =
        some (.uploadingAttachments conversationId uploaded (id :: rest))) :
      Move s task (.upload task (.failed stored))
        ({ s with
          storage := put s (.attachment ⟨conversationId, id⟩) (.failed stored) }.cleanUp task
          (attachmentObjects conversationId (uploaded ++ [id])))
  | uploadOriginal (key : AvatarKey)
      (htask : s.tasks.lookup task = some (.uploadingOriginal key)) :
      Move s task (.upload task .stored)
        ({ s with storage := insert (StorageKey.avatar key) s.storage }.setTask task
          (.uploadingThumbnail key))
  | failOriginal (key : AvatarKey) (stored : Bool)
      (htask : s.tasks.lookup task = some (.uploadingOriginal key)) :
      Move s task (.upload task (.failed stored))
        ({ s with storage := put s (.avatar key) (.failed stored) }.cleanUp task [])
  | uploadThumbnail (key : AvatarKey)
      (htask : s.tasks.lookup task = some (.uploadingThumbnail key)) :
      Move s task (.upload task .stored)
        ({ s with storage := insert (StorageKey.thumbnail key) s.storage }.setTask task
          (.connecting (.avatar key)))
  | failThumbnail (key : AvatarKey) (stored : Bool)
      (htask : s.tasks.lookup task = some (.uploadingThumbnail key)) :
      Move s task (.upload task (.failed stored))
        ({ s with storage := put s (.thumbnail key) (.failed stored) }.cleanUp task [.avatar key])
  | finishUploads (conversationId : Uuid) (uploaded : List Uuid)
      (htask : s.tasks.lookup task = some (.uploadingAttachments conversationId uploaded [])) :
      Move s task (.finishUploads task)
        (s.setTask task (.connecting (.message conversationId uploaded)))
  | connect (work : Work) (htask : s.tasks.lookup task = some (.connecting work)) :
      Move s task (.connect task) (s.setTask task (.transaction (Transaction.start work)))
  | run (tx next : Transaction) (htask : s.tasks.lookup task = some (.transaction tx))
      (hstatement : tx.statement s.groups = some next) (hfree : s.free task next.lock = true) :
      Move s task (.run task) (s.setTask task (.transaction next))
  | commit (tx : Transaction) (htask : s.tasks.lookup task = some (.transaction tx))
      (hfinished : tx.finished = true) :
      Move s task (.commit task)
        ({ s with groups := tx.effect s.groups }.cleanUp task tx.obsolete)
  | refuse (stage : Stage) (htask : s.tasks.lookup task = some stage)
      (hreceiving : (∃ id, stage = .receivingMessage id) ∨ ∃ id, stage = .receivingAvatar id) :
      Move s task (.fail task) (s.cleanUp task [])
  | giveUp (stage : Stage) (work : Work) (htask : s.tasks.lookup task = some stage)
      (hwork : stage = .connecting work ∨ ∃ tx, stage = .transaction tx ∧ tx.work = work) :
      Move s task (.fail task) (s.cleanUp task work.uploads)
  | delete (key : StorageKey) (rest : List StorageKey)
      (htask : s.tasks.lookup task = some (.deleting (key :: rest))) :
      Move s task (.delete task) ({ s with storage := s.storage.erase key }.cleanUp task rest)

theorem upload_move {s t : Service} {task : TaskId} {result : UploadResult}
    (h : upload s task result = some t) : Move s task (.upload task result) t := by
  unfold upload at h
  split at h
  · rename_i conversationId uploaded id rest htask
    cases result with
    | stored =>
      cases h
      exact .uploadAttachment conversationId uploaded id rest htask
    | failed stored =>
      cases h
      exact .failAttachment conversationId uploaded id rest stored htask
  · rename_i key htask
    cases result with
    | stored =>
      cases h
      exact .uploadOriginal key htask
    | failed stored =>
      cases h
      exact .failOriginal key stored htask
  · rename_i key htask
    cases result with
    | stored =>
      cases h
      exact .uploadThumbnail key htask
    | failed stored =>
      cases h
      exact .failThumbnail key stored htask
  · cases h

theorem run_move {s t : Service} {task : TaskId} (h : run s task = some t) :
    Move s task (.run task) t := by
  unfold run at h
  split at h
  · rename_i tx htask
    split at h
    · rename_i next hstatement
      obtain ⟨hfree, heq⟩ := Option.ite_none_right_eq_some.mp h
      cases heq
      exact .run tx next htask hstatement hfree
    · cases h
  · cases h

theorem fail_move {s t : Service} {task : TaskId} (h : fail s task = some t) :
    Move s task (.fail task) t := by
  unfold fail at h
  split at h
  · rename_i conversationId htask
    cases h
    exact .refuse _ htask (Or.inl ⟨conversationId, rfl⟩)
  · rename_i groupId htask
    cases h
    exact .refuse _ htask (Or.inr ⟨groupId, rfl⟩)
  · rename_i work htask
    cases h
    exact .giveUp _ work htask (Or.inl rfl)
  · rename_i tx htask
    cases h
    exact .giveUp _ tx.work htask (Or.inr ⟨tx, rfl, rfl⟩)
  · cases h

theorem step_cases {s t : Service} {a : Action} (h : step s a = some t) :
    (∃ groupId, groupId ∉ s.groups ∧
      t = { s with groups := s.groups.insert groupId Group.new } ∧ leaks s a = []) ∨
    ∃ task, Move s task a t := by
  cases a with
  | createGroup groupId =>
    left
    obtain ⟨hnew, heq⟩ := Option.ite_none_left_eq_some.mp h
    cases heq
    exact ⟨groupId, hnew, rfl, rfl⟩
  | start task stage =>
    right
    obtain ⟨⟨hinitial, hnew⟩, heq⟩ := Option.ite_none_right_eq_some.mp h
    cases heq
    exact ⟨task, .start stage hinitial hnew⟩
  | receiveAttachments task ids =>
    right
    simp only [step, receiveAttachments] at h
    split at h
    · rename_i conversationId htask
      obtain ⟨⟨hnodup, hnew⟩, heq⟩ := Option.ite_none_right_eq_some.mp h
      cases heq
      exact ⟨task, .receiveAttachments conversationId ids htask hnodup (by simpa using hnew)⟩
    · cases h
  | receiveAvatar task id extension =>
    right
    simp only [step, receiveAvatar] at h
    split at h
    · rename_i groupId htask
      obtain ⟨hnew, heq⟩ := Option.ite_none_right_eq_some.mp h
      cases heq
      exact ⟨task, .receiveAvatar ⟨groupId, id, extension⟩ htask hnew⟩
    · cases h
  | upload task result => exact Or.inr ⟨task, upload_move h⟩
  | finishUploads task =>
    right
    simp only [step, finishUploads] at h
    split at h
    · rename_i conversationId uploaded htask
      cases h
      exact ⟨task, .finishUploads conversationId uploaded htask⟩
    · cases h
  | connect task =>
    right
    simp only [step, connect] at h
    split at h
    · rename_i work htask
      cases h
      exact ⟨task, .connect work htask⟩
    · cases h
  | run task => exact Or.inr ⟨task, run_move h⟩
  | commit task =>
    right
    simp only [step, commit] at h
    split at h
    · rename_i tx htask
      obtain ⟨hfinished, heq⟩ := Option.ite_none_right_eq_some.mp h
      cases heq
      exact ⟨task, .commit tx htask hfinished⟩
    · cases h
  | fail task => exact Or.inr ⟨task, fail_move h⟩
  | delete task =>
    right
    simp only [step, delete] at h
    split at h
    · rename_i key rest htask
      cases h
      exact ⟨task, .delete key rest htask⟩
    · cases h

/-! ## Rows and locks -/

/-- An object a row of the tables refers to. -/
def Referenced (groups : Groups) (key : StorageKey) : Prop :=
  ∃ groupId group, groups.lookup groupId = some group ∧ key ∈ group.objects

/-- A group refers to objects under its own id only. -/
def Tagged (groups : Groups) : Prop :=
  ∀ groupId group key, groups.lookup groupId = some group → key ∈ group.objects →
    key.groupId = groupId

/-- What a transaction has read of the row it has locked. -/
def Transaction.Reads (groups : Groups) : Transaction → Prop
  | .messageInserted conversationId _ | .attachmentsInserted conversationId _
  | .conversationTouched conversationId _ => conversationId ∈ groups
  | .avatarLocked key previous | .avatarReplaced key previous =>
    ∃ group, groups.lookup key.groupId = some group ∧ group.avatarKey = previous
  | .removalLocked groupId avatarKey | .deletionLocked groupId avatarKey =>
    ∃ group, groups.lookup groupId = some group ∧ group.avatarKey = avatarKey
  | .avatarRemoved groupId avatarKey =>
    ∃ group, groups.lookup groupId = some group ∧ group.avatarKey = some avatarKey
  | .deletionRead groupId avatarKey attachmentKeys
  | .groupDeleted groupId avatarKey attachmentKeys =>
    ∃ group, groups.lookup groupId = some group ∧ group.avatarKey = avatarKey ∧
      group.attachmentKeys = attachmentKeys
  | _ => True

/-- Two transactions hold no conflicting locks on one row. -/
def Compatible (first second : Transaction) : Prop :=
  ∀ held held', first.lock = some held → second.lock = some held' → held.1 = held'.1 →
    held.2.conflicts held'.2 = false

structure Sound (s : Service) : Prop where
  tagged : Tagged s.groups
  compatible : ∀ i j tx tx', i ≠ j → s.tasks.lookup i = some (.transaction tx) →
    s.tasks.lookup j = some (.transaction tx') → Compatible tx tx'
  reads : ∀ i tx, s.tasks.lookup i = some (.transaction tx) → tx.Reads s.groups
  distinct : ∀ i conversationId uploaded rest,
    s.tasks.lookup i = some (.uploadingAttachments conversationId uploaded rest) →
    (uploaded ++ rest).Nodup

theorem sound_initial : Sound Service.initial := by
  constructor <;> simp [Service.initial, Tagged]

section Rows

variable {groups : Groups} {tx other : Transaction}

/-- A commit changes the row that its transaction has locked and no other. -/
theorem lookup_effect {groupId : Uuid} (hlock : ∀ held, tx.lock = some held → held.1 ≠ groupId) :
    (tx.effect groups).lookup groupId = groups.lookup groupId := by
  cases tx with
  | conversationTouched conversationId ids =>
    have hne := hlock _ rfl
    simp [Transaction.effect, Ne.symm hne]
  | avatarReplaced key previous =>
    have hne := hlock _ rfl
    simp [Transaction.effect, Ne.symm hne]
  | avatarRemoved id avatarKey =>
    have hne := hlock _ rfl
    simp [Transaction.effect, Ne.symm hne]
  | groupDeleted id avatarKey attachmentKeys =>
    have hne := hlock _ rfl
    exact AList.lookup_erase_ne (Ne.symm hne)
  | _ => rfl

/-- What is read depends on the row locked only. -/
theorem reads_congr {groups' : Groups}
    (hsame : ∀ held, tx.lock = some held → groups'.lookup held.1 = groups.lookup held.1)
    (h : tx.Reads groups) : tx.Reads groups' := by
  have hmem : ∀ {id : Uuid}, groups'.lookup id = groups.lookup id → id ∈ groups → id ∈ groups' := by
    intro id heq hid
    rw [← AList.lookup_isSome, heq]
    exact AList.lookup_isSome.mpr hid
  cases tx with
  | messageAuthorizing | avatarOpening | removalOpening | deletionOpening => trivial
  | messageInserted | attachmentsInserted | conversationTouched => exact hmem (hsame _ rfl) h
  | _ =>
    simp only [Transaction.Reads] at h ⊢
    rw [hsame _ rfl]
    exact h

/-- The row a transaction has read stays as it is while others, under locks that do not
conflict, commit. -/
theorem reads_effect (h : tx.Reads groups) (hcompatible : Compatible tx other) :
    tx.Reads (other.effect groups) := by
  by_cases hsame : ∀ held held', tx.lock = some held → other.lock = some held' → held'.1 ≠ held.1
  · apply reads_congr _ h
    intro held hheld
    apply lookup_effect
    intro held' hheld'
    exact hsame held held' hheld hheld'
  · push Not at hsame
    obtain ⟨held, held', hheld, hheld', hrow⟩ := hsame
    have hfree := hcompatible held held' hheld hheld' hrow.symm
    -- only the locks of two messages go together, and both leave the row where it is
    cases other with
    | conversationTouched conversationId ids =>
      cases hheld'
      cases tx with
      | messageInserted | attachmentsInserted | conversationTouched =>
        simpa [Transaction.Reads, Transaction.effect] using h
      | messageAuthorizing | avatarOpening | removalOpening | deletionOpening => trivial
      | _ =>
        cases hheld
        cases hfree
    | avatarReplaced | avatarRemoved | groupDeleted =>
      cases hheld'
      obtain ⟨row, mode⟩ := held
      cases mode <;> cases hfree
    | _ => exact h

/-- A statement leaves what it has read, and its lock, behind. -/
theorem reads_statement {next : Transaction} (h : tx.Reads groups)
    (hstatement : tx.statement groups = some next) : next.Reads groups := by
  cases tx with
  | messageAuthorizing conversationId ids =>
    obtain ⟨hmem, heq⟩ := Option.ite_none_right_eq_some.mp hstatement
    cases heq
    exact hmem
  | messageInserted | attachmentsInserted | avatarLocked | deletionRead =>
    cases hstatement
    exact h
  | avatarOpening | removalOpening | deletionOpening =>
    obtain ⟨group, hgroup, rfl⟩ := Option.map_eq_some_iff.mp hstatement
    exact ⟨group, hgroup, rfl⟩
  | removalLocked groupId avatarKey =>
    cases avatarKey with
    | none => cases hstatement
    | some avatarKey =>
      cases hstatement
      exact h
  | deletionLocked groupId avatarKey =>
    obtain ⟨group, hgroup, rfl⟩ := Option.map_eq_some_iff.mp hstatement
    obtain ⟨group', hgroup', hkey⟩ := h
    obtain rfl := Option.some.inj (hgroup.symm.trans hgroup')
    exact ⟨group, hgroup, hkey, rfl⟩
  | _ => cases hstatement

theorem mem_objects {group : Group} {key : StorageKey} :
    key ∈ group.objects ↔ (∃ avatarKey, group.avatarKey = some avatarKey ∧
      key ∈ avatarKey.objects) ∨
        ∃ attachment ∈ group.attachmentKeys, key = .attachment attachment := by
  simp only [Group.objects, List.mem_append, List.mem_flatMap, Option.mem_toList, List.mem_map,
    eq_comm (a := key)]

/-- Rewriting a row so that some objects go and others come in. -/
theorem referenced_modify (htagged : Tagged groups) {groupId : Uuid} {group : Group}
    (hgroup : groups.lookup groupId = some group) {f : Group → Group}
    {gone new : List StorageKey} (hgone : ∀ key ∈ gone, key.groupId = groupId)
    (hchange : ∀ key, key ∈ (f group).objects ↔ (key ∈ group.objects ∧ key ∉ gone) ∨ key ∈ new)
    (key : StorageKey) :
    Referenced (groups.modify groupId f) key ↔
      (Referenced groups key ∧ key ∉ gone) ∨ key ∈ new := by
  have hafter : (groups.modify groupId f).lookup groupId = some (f group) := by
    simp [hgroup]
  constructor
  · intro h
    obtain ⟨id, row, hrow, hkey⟩ := h
    by_cases hid : id = groupId
    · subst hid
      obtain rfl := Option.some.inj (hafter.symm.trans hrow)
      rcases (hchange key).mp hkey with ⟨hold, hstays⟩ | hnew
      · exact Or.inl ⟨⟨id, group, hgroup, hold⟩, hstays⟩
      · exact Or.inr hnew
    · rw [Map.lookup_modify, if_neg hid] at hrow
      refine Or.inl ⟨⟨id, row, hrow, hkey⟩, ?_⟩
      intro hmem
      exact hid ((htagged id row key hrow hkey).symm.trans (hgone key hmem))
  · rintro (⟨⟨id, row, hrow, hkey⟩, hstays⟩ | hnew)
    · by_cases hid : id = groupId
      · subst hid
        obtain rfl := Option.some.inj (hgroup.symm.trans hrow)
        exact ⟨id, f group, hafter, (hchange key).mpr (Or.inl ⟨hkey, hstays⟩)⟩
      · exact ⟨id, row, by rw [Map.lookup_modify, if_neg hid]; exact hrow, hkey⟩
    · exact ⟨groupId, f group, hafter, (hchange key).mpr (Or.inr hnew)⟩

theorem referenced_erase (htagged : Tagged groups) {groupId : Uuid} {group : Group}
    (hgroup : groups.lookup groupId = some group) (key : StorageKey) :
    Referenced (groups.erase groupId) key ↔ Referenced groups key ∧ key ∉ group.objects := by
  constructor
  · intro h
    obtain ⟨id, row, hrow, hkey⟩ := h
    have hid : id ≠ groupId := by
      intro heq
      rw [heq, AList.lookup_erase] at hrow
      cases hrow
    rw [AList.lookup_erase_ne hid] at hrow
    refine ⟨⟨id, row, hrow, hkey⟩, ?_⟩
    intro hmem
    exact hid ((htagged id row key hrow hkey).symm.trans (htagged groupId group key hgroup hmem))
  · intro h
    obtain ⟨⟨id, row, hrow, hkey⟩, hstays⟩ := h
    have hid : id ≠ groupId := by
      intro heq
      subst heq
      obtain rfl := Option.some.inj (hgroup.symm.trans hrow)
      exact hstays hkey
    exact ⟨id, row, by rw [AList.lookup_erase_ne hid]; exact hrow, hkey⟩

theorem tagged_modify (htagged : Tagged groups) {groupId : Uuid} {f : Group → Group}
    (hf : ∀ group, groups.lookup groupId = some group → ∀ key ∈ (f group).objects,
      key.groupId = groupId) : Tagged (groups.modify groupId f) := by
  intro id row key hrow hkey
  rw [Map.lookup_modify] at hrow
  split at hrow
  · rename_i heq
    subst heq
    obtain ⟨group, hgroup, rfl⟩ := Option.map_eq_some_iff.mp hrow
    exact hf group hgroup key hkey
  · exact htagged id row key hrow hkey

theorem mem_avatarObjects {avatarKey : AvatarKey} {key : StorageKey} :
    key ∈ avatarKey.objects ↔ key = .avatar avatarKey ∨ key = .thumbnail avatarKey := by
  simp [AvatarKey.objects]

theorem groupId_avatarObjects {avatarKey : AvatarKey} {key : StorageKey}
    (h : key ∈ avatarKey.objects) : key.groupId = avatarKey.groupId := by
  rcases mem_avatarObjects.mp h with rfl | rfl <;> rfl

theorem tagged_effect (htagged : Tagged groups) : Tagged (tx.effect groups) := by
  cases tx with
  | conversationTouched conversationId ids =>
    apply tagged_modify htagged
    intro group hgroup key hkey
    rcases mem_objects.mp hkey with ⟨avatarKey, havatar, hkey⟩ | ⟨attachment, hattachment, rfl⟩
    · exact htagged _ group key hgroup (mem_objects.mpr (Or.inl ⟨avatarKey, havatar, hkey⟩))
    · simp only [Group.attachmentKeys, List.flatMap_append, List.mem_append,
        List.flatMap_singleton] at hattachment
      rcases hattachment with hold | hnew
      · exact htagged _ group _ hgroup (mem_objects.mpr (Or.inr ⟨attachment, hold, rfl⟩))
      · obtain ⟨id, -, rfl⟩ := List.mem_map.mp hnew
        rfl
  | avatarReplaced avatarKey previous =>
    apply tagged_modify htagged
    intro group hgroup key hkey
    rcases mem_objects.mp hkey with ⟨after, hafter, hkey⟩ | ⟨attachment, hattachment, rfl⟩
    · cases hafter
      exact groupId_avatarObjects hkey
    · exact htagged _ group _ hgroup (mem_objects.mpr (Or.inr ⟨attachment, hattachment, rfl⟩))
  | avatarRemoved groupId avatarKey =>
    apply tagged_modify htagged
    intro group hgroup key hkey
    rcases mem_objects.mp hkey with ⟨after, hafter, hkey⟩ | ⟨attachment, hattachment, rfl⟩
    · cases hafter
    · exact htagged _ group _ hgroup (mem_objects.mpr (Or.inr ⟨attachment, hattachment, rfl⟩))
  | groupDeleted groupId avatarKey attachmentKeys =>
    intro id row key hrow hkey
    have hid : id ≠ groupId := by
      intro heq
      rw [heq] at hrow
      simp [Transaction.effect] at hrow
    rw [Transaction.effect, AList.lookup_erase_ne hid] at hrow
    exact htagged id row key hrow hkey
  | _ => exact htagged

theorem mem_obsolete_replaced {key : AvatarKey} {previous : Option AvatarKey}
    {object : StorageKey} :
    object ∈ Transaction.obsolete (.avatarReplaced key previous) ↔
      ∃ avatarKey, previous = some avatarKey ∧ avatarKey ≠ key ∧ object ∈ avatarKey.objects := by
  simp only [Transaction.obsolete, List.mem_flatMap, Option.mem_toList, Option.filter_eq_some_iff,
    decide_eq_true_eq, ne_eq, and_assoc]

/-- The objects of two avatars are different ones. -/
theorem avatarKey_of_mem {first second : AvatarKey} {key : StorageKey}
    (hfirst : key ∈ first.objects) (hsecond : key ∈ second.objects) : first = second := by
  rcases mem_avatarObjects.mp hfirst with rfl | rfl <;>
    simpa [AvatarKey.objects] using hsecond

theorem attachment_notMem {avatarKey : AvatarKey} {attachment : AttachmentKey} :
    .attachment attachment ∉ avatarKey.objects := by
  simp [AvatarKey.objects]

/-- A commit makes the tables refer to what was uploaded and let go of what is obsolete. -/
theorem referenced_effect (htagged : Tagged groups) (hreads : tx.Reads groups)
    (hfinished : tx.finished = true) (key : StorageKey) :
    Referenced (tx.effect groups) key ↔
      (Referenced groups key ∧ key ∉ tx.obsolete) ∨ key ∈ tx.work.uploads := by
  cases tx with
  | conversationTouched conversationId ids =>
    obtain ⟨group, hgroup⟩ := Option.isSome_iff_exists.mp (AList.lookup_isSome.mpr hreads)
    refine referenced_modify htagged hgroup (by simp [Transaction.obsolete]) ?_ key
    intro key
    simp only [mem_objects, Group.attachmentKeys, List.flatMap_append, List.flatMap_singleton,
      List.mem_append, List.mem_map, Transaction.obsolete, Transaction.work, Work.uploads,
      attachmentObjects, List.not_mem_nil, not_false_eq_true, and_true]
    constructor
    · rintro (havatar | ⟨attachment, hold | ⟨id, hid, rfl⟩, rfl⟩)
      · exact Or.inl (Or.inl havatar)
      · exact Or.inl (Or.inr ⟨attachment, hold, rfl⟩)
      · exact Or.inr ⟨id, hid, rfl⟩
    · rintro ((havatar | ⟨attachment, hold, rfl⟩) | ⟨id, hid, rfl⟩)
      · exact Or.inl havatar
      · exact Or.inr ⟨attachment, Or.inl hold, rfl⟩
      · exact Or.inr ⟨_, Or.inr ⟨id, hid, rfl⟩, rfl⟩
  | avatarReplaced avatarKey previous =>
    obtain ⟨group, hgroup, hprevious⟩ := hreads
    have hgone : ∀ object ∈ Transaction.obsolete (.avatarReplaced avatarKey previous),
        object.groupId = avatarKey.groupId := by
      intro object hobject
      obtain ⟨before, hbefore, -, hmem⟩ := mem_obsolete_replaced.mp hobject
      exact htagged _ group object hgroup
        (mem_objects.mpr (Or.inl ⟨before, hprevious.trans hbefore, hmem⟩))
    refine referenced_modify htagged hgroup hgone ?_ key
    intro object
    rw [mem_objects, mem_objects, mem_obsolete_replaced]
    constructor
    · rintro (⟨after, hafter, hobject⟩ | ⟨attachment, hattachment, rfl⟩)
      · cases hafter
        exact Or.inr hobject
      · refine Or.inl ⟨Or.inr ⟨attachment, hattachment, rfl⟩, ?_⟩
        rintro ⟨before, -, -, hmem⟩
        exact attachment_notMem hmem
    · rintro (⟨⟨before, hbefore, hobject⟩ | hattachment, hstays⟩ | hnew)
      · by_cases heq : before = avatarKey
        · exact Or.inl ⟨avatarKey, rfl, heq ▸ hobject⟩
        · exact absurd ⟨before, hprevious.symm.trans hbefore, heq, hobject⟩ hstays
      · exact Or.inr hattachment
      · exact Or.inl ⟨avatarKey, rfl, hnew⟩
  | avatarRemoved groupId avatarKey =>
    obtain ⟨group, hgroup, havatar⟩ := hreads
    have hgone : ∀ object ∈ avatarKey.objects, object.groupId = groupId := by
      intro object hobject
      exact htagged _ group object hgroup (mem_objects.mpr (Or.inl ⟨avatarKey, havatar, hobject⟩))
    refine referenced_modify htagged hgroup hgone ?_ key
    intro object
    rw [mem_objects, mem_objects, havatar]
    constructor
    · rintro (⟨after, hafter, -⟩ | ⟨attachment, hattachment, rfl⟩)
      · cases hafter
      · exact Or.inl ⟨Or.inr ⟨attachment, hattachment, rfl⟩, attachment_notMem⟩
    · rintro (⟨⟨before, hbefore, hobject⟩ | hattachment, hstays⟩ | hnew)
      · cases hbefore
        exact absurd hobject hstays
      · exact Or.inr hattachment
      · cases hnew
  | removalLocked groupId avatarKey =>
    cases avatarKey with
    | some avatarKey => cases hfinished
    | none => simp [Transaction.effect, Transaction.obsolete, Transaction.work, Work.uploads]
  | groupDeleted groupId avatarKey attachmentKeys =>
    obtain ⟨group, hgroup, rfl, rfl⟩ := hreads
    rw [Transaction.effect, referenced_erase htagged hgroup]
    simp [Transaction.obsolete, Transaction.work, Work.uploads, Group.objects]
  | _ => cases hfinished

/-- What is obsolete was referred to, and is none of the uploads. -/
theorem obsolete_referenced (hreads : tx.Reads groups) {key : StorageKey}
    (hkey : key ∈ tx.obsolete) : Referenced groups key ∧ key ∉ tx.work.uploads := by
  cases tx with
  | avatarReplaced avatarKey previous =>
    obtain ⟨group, hgroup, hprevious⟩ := hreads
    obtain ⟨before, hbefore, hne, hmem⟩ := mem_obsolete_replaced.mp hkey
    refine ⟨⟨_, group, hgroup, mem_objects.mpr
      (Or.inl ⟨before, hprevious.trans hbefore, hmem⟩)⟩, ?_⟩
    intro hupload
    exact hne (avatarKey_of_mem hmem hupload)
  | avatarRemoved groupId avatarKey =>
    obtain ⟨group, hgroup, havatar⟩ := hreads
    exact ⟨⟨_, group, hgroup, mem_objects.mpr (Or.inl ⟨avatarKey, havatar, hkey⟩)⟩,
      List.not_mem_nil⟩
  | groupDeleted groupId avatarKey attachmentKeys =>
    obtain ⟨group, hgroup, rfl, rfl⟩ := hreads
    exact ⟨⟨_, group, hgroup, hkey⟩, List.not_mem_nil⟩
  | _ => cases hkey

end Rows

section Preservation

variable {s t : Service} {task : TaskId} {a : Action}

theorem cleanUp_frame (s : Service) (task : TaskId) (keys : List StorageKey) :
    (s.cleanUp task keys).groups = s.groups ∧ (s.cleanUp task keys).storage = s.storage ∧
      (s.cleanUp task keys).drawn = s.drawn ∧
      (∀ j, j ≠ task → (s.cleanUp task keys).tasks.lookup j = s.tasks.lookup j) := by
  unfold Service.cleanUp
  split
  · refine ⟨rfl, rfl, rfl, ?_⟩
    intro j hj
    exact AList.lookup_erase_ne hj
  · refine ⟨rfl, rfl, rfl, ?_⟩
    intro j hj
    exact AList.lookup_insert_ne hj

theorem lookup_cleanUp {keys : List StorageKey} {stage : Stage}
    (h : (s.cleanUp task keys).tasks.lookup task = some stage) : stage = .deleting keys := by
  unfold Service.cleanUp at h
  split at h
  · rw [AList.lookup_erase] at h
    cases h
  · rw [Service.setTask, AList.lookup_insert] at h
    cases h
    rfl

/-- A move touches no other request. -/
theorem lookup_other (h : Move s task a t) {j : TaskId} (hj : j ≠ task) :
    t.tasks.lookup j = s.tasks.lookup j := by
  cases h with
  | failAttachment | failOriginal | failThumbnail | commit | refuse | giveUp | delete =>
    exact (cleanUp_frame ..).2.2.2 j hj
  | _ => exact AList.lookup_insert_ne hj

theorem compatible_symm {tx tx' : Transaction} (h : Compatible tx tx') : Compatible tx' tx := by
  have hsymm : ∀ first second : RowLock, first.conflicts second = second.conflicts first := by
    intro first second
    cases first <;> cases second <;> rfl
  intro held held' hheld hheld' hrow
  rw [hsymm]
  exact h held' held hheld' hheld hrow.symm

theorem compatible_of_free {tx tx' : Transaction} (hfree : s.free task tx.lock = true)
    {j : TaskId} (hj : j ≠ task) (htx' : s.tasks.lookup j = some (.transaction tx')) :
    Compatible tx tx' := by
  intro held held' hheld hheld' hrow
  rw [Service.free, hheld, Option.all_some, List.all_eq_true] at hfree
  have hother := hfree ⟨j, .transaction tx'⟩ (AList.mem_lookup_iff.mp htx')
  simpa [hj, hheld', hrow] using hother

/-- A transaction has locked a row that is there. -/
theorem mem_of_reads {groups : Groups} {tx : Transaction} (h : tx.Reads groups)
    {held : Uuid × RowLock} (hheld : tx.lock = some held) : held.1 ∈ groups := by
  have hmem : ∀ {id : Uuid} {P : Group → Prop},
      (∃ group, groups.lookup id = some group ∧ P group) → id ∈ groups := by
    intro id P hgroup
    obtain ⟨group, hgroup, -⟩ := hgroup
    exact AList.lookup_isSome.mp (Option.isSome_of_mem hgroup)
  cases tx with
  | messageInserted | attachmentsInserted | conversationTouched =>
    cases hheld
    exact h
  | messageAuthorizing | avatarOpening | removalOpening | deletionOpening => cases hheld
  | _ =>
    cases hheld
    exact hmem h

/-- A request goes on to another stage. -/
theorem Sound.advance (hs : Sound s) (hgroups : t.groups = s.groups)
    (hothers : ∀ j, j ≠ task → t.tasks.lookup j = s.tasks.lookup j)
    (htx : ∀ tx, t.tasks.lookup task = some (.transaction tx) → tx.Reads s.groups ∧
      ∀ j tx', j ≠ task → s.tasks.lookup j = some (.transaction tx') → Compatible tx tx')
    (hdistinct : ∀ conversationId uploaded rest,
      t.tasks.lookup task = some (.uploadingAttachments conversationId uploaded rest) →
      (uploaded ++ rest).Nodup) : Sound t where
  tagged := by
    rw [hgroups]
    exact hs.tagged
  compatible := by
    intro i j tx tx' hij hi hj
    by_cases hitask : i = task
    · subst hitask
      rw [hothers j hij.symm] at hj
      exact (htx tx hi).2 j tx' hij.symm hj
    · rw [hothers i hitask] at hi
      by_cases hjtask : j = task
      · subst hjtask
        exact compatible_symm ((htx tx' hj).2 i tx hitask hi)
      · rw [hothers j hjtask] at hj
        exact hs.compatible i j tx tx' hij hi hj
  reads := by
    intro i tx hi
    rw [hgroups]
    by_cases hitask : i = task
    · subst hitask
      exact (htx tx hi).1
    · rw [hothers i hitask] at hi
      exact hs.reads i tx hi
  distinct := by
    intro i conversationId uploaded rest hi
    by_cases hitask : i = task
    · subst hitask
      exact hdistinct conversationId uploaded rest hi
    · rw [hothers i hitask] at hi
      exact hs.distinct i conversationId uploaded rest hi

/-- The transactions of the others still have what they read after a commit. -/
theorem Sound.committed (hs : Sound s) {tx : Transaction}
    (htask : s.tasks.lookup task = some (.transaction tx)) :
    Sound ({ s with groups := tx.effect s.groups }.cleanUp task tx.obsolete) := by
  obtain ⟨hgroups, -, -, hothers⟩ :=
    cleanUp_frame { s with groups := tx.effect s.groups } task tx.obsolete
  have hself : ∀ {i : TaskId} {stage : Stage},
      ({ s with groups := tx.effect s.groups }.cleanUp task tx.obsolete).tasks.lookup i =
        some stage → stage ≠ .deleting tx.obsolete → i ≠ task ∧ s.tasks.lookup i = some stage := by
    intro i stage hi hstage
    have hne : i ≠ task := by
      intro heq
      subst heq
      exact hstage (lookup_cleanUp hi)
    rw [hothers i hne] at hi
    exact ⟨hne, hi⟩
  constructor
  · rw [hgroups]
    exact tagged_effect hs.tagged
  · intro i j first second hij hi hj
    exact hs.compatible i j first second hij (hself hi nofun).2 (hself hj nofun).2
  · intro i other hi
    obtain ⟨hne, hi⟩ := hself hi nofun
    rw [hgroups]
    exact reads_effect (hs.reads i other hi) (hs.compatible i task other tx hne hi htask)
  · intro i conversationId uploaded rest hi
    exact hs.distinct i conversationId uploaded rest (hself hi nofun).2

theorem Sound.cleaned (hs : Sound s) {u : Service} {keys : List StorageKey}
    (hgroups : u.groups = s.groups) (htasks : u.tasks = s.tasks) :
    Sound (u.cleanUp task keys) := by
  obtain ⟨hsame, -, -, hothers⟩ := cleanUp_frame u task keys
  rw [htasks] at hothers
  refine hs.advance (hsame.trans hgroups) hothers ?_ ?_
  · intro tx htx
    cases lookup_cleanUp htx
  · intro conversationId uploaded rest hstage
    cases lookup_cleanUp hstage

theorem sound_move (hs : Sound s) (h : Move s task a t) : Sound t := by
  have hothers : ∀ j, j ≠ task → t.tasks.lookup j = s.tasks.lookup j := fun j hj =>
    lookup_other h hj
  cases h with
  | failAttachment | failOriginal | failThumbnail | refuse | giveUp | delete =>
    exact hs.cleaned rfl rfl
  | commit tx htask hfinished => exact hs.committed htask
  | start stage hinitial hnew =>
    refine hs.advance rfl hothers ?_ ?_
    · intro tx htx
      rw [Service.setTask, AList.lookup_insert] at htx
      cases htx
      cases hinitial
    · intro conversationId uploaded rest hstage
      rw [Service.setTask, AList.lookup_insert] at hstage
      cases hstage
      cases hinitial
  | receiveAttachments conversationId ids htask hnodup hnew =>
    refine hs.advance rfl hothers ?_ ?_
    · intro tx htx
      simp at htx
    · intro conversationId' uploaded rest hstage
      rw [Service.setTask, AList.lookup_insert] at hstage
      cases hstage
      exact hnodup
  | uploadAttachment conversationId uploaded id rest htask =>
    refine hs.advance rfl hothers ?_ ?_
    · intro tx htx
      simp at htx
    · intro conversationId' uploaded' rest' hstage
      rw [Service.setTask, AList.lookup_insert] at hstage
      cases hstage
      rw [List.append_assoc]
      exact hs.distinct task _ _ _ htask
  | connect work htask =>
    refine hs.advance rfl hothers ?_ ?_
    · intro tx htx
      rw [Service.setTask, AList.lookup_insert] at htx
      cases htx
      constructor
      · cases work <;> trivial
      · intro j tx' hj htx' held held' hheld
        cases work <;> cases hheld
    · intro conversationId uploaded rest hstage
      simp at hstage
  | run tx next htask hstatement hfree =>
    refine hs.advance rfl hothers ?_ ?_
    · intro tx' htx'
      rw [Service.setTask, AList.lookup_insert] at htx'
      cases htx'
      refine ⟨reads_statement (hs.reads task tx htask) hstatement, ?_⟩
      intro j other hj hother
      exact compatible_of_free hfree hj hother
    · intro conversationId uploaded rest hstage
      simp at hstage
  | _ =>
    refine hs.advance rfl hothers ?_ ?_
    · intro tx htx
      simp at htx
    · intro conversationId uploaded rest hstage
      simp at hstage

theorem sound_createGroup (hs : Sound s) {groupId : Uuid} (hnew : groupId ∉ s.groups) :
    Sound { s with groups := s.groups.insert groupId Group.new } where
  tagged := by
    intro id group key hgroup hkey
    by_cases hid : id = groupId
    · subst hid
      rw [AList.lookup_insert] at hgroup
      cases hgroup
      cases hkey
    · rw [AList.lookup_insert_ne hid] at hgroup
      exact hs.tagged id group key hgroup hkey
  compatible := hs.compatible
  reads := by
    intro i tx hi
    have hreads := hs.reads i tx hi
    apply reads_congr _ hreads
    intro held hheld
    apply AList.lookup_insert_ne
    intro heq
    exact hnew (heq ▸ mem_of_reads hreads hheld)
  distinct := hs.distinct

theorem sound_step (hs : Sound s) (h : step s a = some t) : Sound t := by
  rcases step_cases h with ⟨groupId, hnew, rfl, -⟩ | ⟨task, hmove⟩
  · exact sound_createGroup hs hnew
  · exact sound_move hs hmove

end Preservation

/-! ## The ledger -/

namespace Stage

def planned : Stage → List StorageKey
  | .uploadingAttachments conversationId _ rest => attachmentObjects conversationId rest
  | .uploadingOriginal key => key.objects
  | .uploadingThumbnail key => [.thumbnail key]
  | _ => []

def held : Stage → List StorageKey
  | .uploadingAttachments conversationId uploaded _ => attachmentObjects conversationId uploaded
  | .uploadingThumbnail key => [.avatar key]
  | .connecting work => work.uploads
  | .transaction tx => tx.work.uploads
  | _ => []

def doomed : Stage → List StorageKey
  | .deleting keys => keys
  | _ => []

/-- The objects in the care of a request. -/
def owned (stage : Stage) : List StorageKey := stage.planned ++ stage.held ++ stage.doomed

def account (stage : Stage) (key : StorageKey) : Option Role :=
  if key ∈ stage.planned then some .planned
  else if key ∈ stage.held then some .held
  else if key ∈ stage.doomed then some .doomed
  else none

end Stage

/-- The service as a ledger, whose tasks are its requests. -/
def ledger (s : Service) : Ledger StorageKey TaskId where
  stored := {key | key ∈ s.storage}
  referenced := {key | Referenced s.groups key}
  seen := {key | key.id ∈ s.drawn}
  account task key := (s.tasks.lookup task).bind (·.account key)

section Transfers

variable {s t : Service} {task : TaskId} {a : Action} {leaked : Set StorageKey}

theorem account_of_lookup {stage : Stage} (h : s.tasks.lookup task = some stage)
    (key : StorageKey) : (ledger s).account task key = stage.account key := by
  simp [ledger, h]

theorem account_setTask (stage : Stage) (key : StorageKey) :
    (ledger (s.setTask task stage)).account task key = stage.account key := by
  apply account_of_lookup
  exact AList.lookup_insert _

theorem account_cleanUp (keys : List StorageKey) (key : StorageKey) :
    (ledger (s.cleanUp task keys)).account task key = (Stage.deleting keys).account key := by
  unfold Service.cleanUp
  split
  · rename_i hnil
    simp [ledger, hnil, Stage.account, Stage.planned, Stage.held, Stage.doomed]
  · exact account_setTask _ key

theorem account_eq_none {stage : Stage} {key : StorageKey} :
    stage.account key = none ↔ key ∉ stage.owned := by
  simp only [Stage.account, Stage.owned, List.mem_append]
  grind

theorem account_isSome {stage : Stage} {key : StorageKey} :
    (stage.account key).isSome ↔ key ∈ stage.owned := by
  rw [Option.isSome_iff_ne_none, Ne, account_eq_none, not_not]

theorem account_eq_planned {stage : Stage} {key : StorageKey} :
    stage.account key = some .planned ↔ key ∈ stage.planned := by
  simp only [Stage.account]
  grind

theorem account_eq_held {stage : Stage} {key : StorageKey} :
    stage.account key = some .held ↔ key ∉ stage.planned ∧ key ∈ stage.held := by
  simp only [Stage.account]
  grind

/-- A move that leaves the tables as they are. -/
theorem transfer_of_sameGroups (hl : Balanced (ledger s) leaked) (h : Move s task a t)
    (hgroups : t.groups = s.groups) (hdrawn : s.drawn ⊆ t.drawn) {before after : Stage}
    (hbefore : ∀ key, (ledger s).account task key = before.account key)
    (hafter : ∀ key, (ledger t).account task key = after.account key)
    (elsewhere : ∀ key, key ∉ before.owned → key ∉ after.owned →
      (key ∈ t.storage ↔ key ∈ s.storage))
    (taken : ∀ key ∈ after.owned, key ∈ before.owned ∨ key.id ∉ s.drawn ∧ key.id ∈ t.drawn)
    (dropped : ∀ key ∈ before.owned, key ∉ after.owned →
      (key ∈ t.storage ↔ key ∈ leaks s a))
    (left : ∀ key ∈ leaks s a, key ∈ before.owned ∧ key ∉ after.owned)
    (planned : ∀ key ∈ after.planned, key ∉ t.storage)
    (held : ∀ key ∈ after.held, key ∉ after.planned → key ∈ t.storage) :
    Transfer task (ledger s) (ledger t) {key | key ∈ leaks s a} where
  others := by
    intro j hj
    funext key
    simp only [ledger, lookup_other h hj]
  seen := fun key hkey => hdrawn hkey
  elsewhere := by
    intro key hb ha
    rw [hbefore, account_eq_none] at hb
    rw [hafter, account_eq_none] at ha
    exact elsewhere key hb ha
  entered := by
    intro key hkey
    left
    simpa [ledger, hgroups] using hkey
  left := by
    intro key hkey hgone
    exact absurd (by simpa [ledger, hgroups] using hkey) hgone
  taken := by
    intro key hkey
    rw [hafter, account_isSome] at hkey
    rw [hbefore, account_isSome]
    exact (taken key hkey).imp_right Or.inr
  dropped := by
    intro key hb ha _
    rw [hbefore, account_isSome] at hb
    rw [hafter, account_eq_none] at ha
    exact dropped key hb ha
  leaked := by
    intro key hkey
    obtain ⟨hb, ha⟩ := left key hkey
    have hown : ((ledger s).account task key).isSome := by
      rw [hbefore, account_isSome]
      exact hb
    rw [hafter, account_eq_none]
    refine ⟨hown, ha, ?_⟩
    have hunreferenced := hl.owned_unreferenced task key hown
    simpa [ledger, hgroups] using hunreferenced
  planned := by
    intro key hkey
    rw [hafter, account_eq_planned] at hkey
    exact planned key hkey
  held := by
    intro key hkey
    rw [hafter, account_eq_held] at hkey
    exact held key hkey.2 hkey.1

/-- What a request has planned to store is not there yet, and what it has stored is. -/
theorem stored_of_balanced (hl : Balanced (ledger s) leaked) {stage : Stage}
    (htask : s.tasks.lookup task = some stage) :
    (∀ key ∈ stage.planned, key ∉ s.storage) ∧
      ∀ key ∈ stage.held, key ∉ stage.planned → key ∈ s.storage := by
  constructor
  · intro key hkey
    apply hl.planned_absent task
    rw [account_of_lookup htask, account_eq_planned]
    exact hkey
  · intro key hkey hunplanned
    apply hl.held_stored task
    rw [account_of_lookup htask, account_eq_held]
    exact ⟨hunplanned, hkey⟩

theorem mem_attachmentObjects {conversationId : Uuid} {ids : List Uuid} {key : StorageKey} :
    key ∈ attachmentObjects conversationId ids ↔
      ∃ id ∈ ids, key = .attachment ⟨conversationId, id⟩ := by
  simp only [attachmentObjects, List.mem_map, eq_comm (a := key)]

theorem transfer_uploadAttachment (hs : Sound s) (hl : Balanced (ledger s) leaked)
    {conversationId : Uuid} {uploaded rest : List Uuid} {id : Uuid}
    (htask : s.tasks.lookup task =
      some (.uploadingAttachments conversationId uploaded (id :: rest))) :
    Transfer task (ledger s)
      (ledger ({ s with
        storage := insert (StorageKey.attachment ⟨conversationId, id⟩) s.storage }.setTask task
        (.uploadingAttachments conversationId (uploaded ++ [id]) rest)))
      {key | key ∈ leaks s (.upload task .stored)} := by
  have hdistinct := hs.distinct task _ _ _ htask
  obtain ⟨hplanned, hheld⟩ := stored_of_balanced hl htask
  refine transfer_of_sameGroups hl (.uploadAttachment conversationId uploaded id rest htask) rfl
    (Finset.Subset.refl _) (account_of_lookup htask) (account_setTask _) ?_ ?_ ?_ ?_ ?_ ?_ <;>
    simp only [Stage.owned, Stage.planned, Stage.held, Stage.doomed, leaks, List.mem_append,
      mem_attachmentObjects, Service.setTask] at hplanned hheld ⊢
  · grind
  · grind
  · grind
  · grind
  · grind
  · intro key hkey _
    obtain ⟨other, hother, rfl⟩ := hkey
    rw [Finset.mem_insert]
    rcases hother with hbefore | hlast
    · right
      apply hheld _ ⟨other, hbefore, rfl⟩
      intro hunsent
      obtain ⟨unsent, hmem, heq⟩ := hunsent
      cases heq
      exact (List.nodup_append.mp hdistinct).2.2 other hbefore other hmem rfl
    · left
      rw [List.mem_singleton.mp hlast]

theorem transfer_failAttachment (hl : Balanced (ledger s) leaked)
    {conversationId : Uuid} {uploaded rest : List Uuid} {id : Uuid} (stored : Bool)
    (htask : s.tasks.lookup task =
      some (.uploadingAttachments conversationId uploaded (id :: rest))) :
    Transfer task (ledger s)
      (ledger ({ s with
        storage := put s (.attachment ⟨conversationId, id⟩) (.failed stored) }.cleanUp task
        (attachmentObjects conversationId (uploaded ++ [id]))))
      {key | key ∈ leaks s (.upload task (.failed stored))} := by
  obtain ⟨hplanned, hheld⟩ := stored_of_balanced hl htask
  obtain ⟨hgroups, hstorage, hdrawn, -⟩ := cleanUp_frame
    { s with storage := put s (.attachment ⟨conversationId, id⟩) (.failed stored) } task
    (attachmentObjects conversationId (uploaded ++ [id]))
  have hput : ∀ key, key ≠ .attachment ⟨conversationId, id⟩ →
      (key ∈ put s (.attachment ⟨conversationId, id⟩) (.failed stored) ↔ key ∈ s.storage) := by
    intro key hkey
    cases stored <;> simp [put, hkey]
  have hclean : leaks s (.upload task (.failed stored)) = [] := by
    cases stored <;> simp [leaks, htask]
  refine transfer_of_sameGroups hl (.failAttachment conversationId uploaded id rest stored htask)
    hgroups (by rw [hdrawn]) (account_of_lookup htask) (account_cleanUp _) ?_ ?_ ?_ ?_ ?_ ?_ <;>
    simp only [Stage.owned, Stage.planned, Stage.held, Stage.doomed, hclean, List.mem_append,
      mem_attachmentObjects, hstorage] at hplanned hheld ⊢
  all_goals grind

theorem transfer_original (hl : Balanced (ledger s) leaked) {key : AvatarKey}
    (htask : s.tasks.lookup task = some (.uploadingOriginal key)) :
    Transfer task (ledger s)
      (ledger ({ s with storage := insert (StorageKey.avatar key) s.storage }.setTask task
        (.uploadingThumbnail key)))
      {key | key ∈ leaks s (.upload task .stored)} := by
  obtain ⟨hplanned, hheld⟩ := stored_of_balanced hl htask
  refine transfer_of_sameGroups hl (.uploadOriginal key htask) rfl
    (Finset.Subset.refl _) (account_of_lookup htask) (account_setTask _) ?_ ?_ ?_ ?_ ?_ ?_ <;>
    simp only [Stage.owned, Stage.planned, Stage.held, Stage.doomed, leaks, List.mem_append,
      mem_avatarObjects, Service.setTask] at hplanned hheld ⊢
  all_goals grind

theorem transfer_failOriginal (hl : Balanced (ledger s) leaked) {key : AvatarKey}
    (stored : Bool) (htask : s.tasks.lookup task = some (.uploadingOriginal key)) :
    Transfer task (ledger s)
      (ledger ({ s with storage := put s (.avatar key) (.failed stored) }.cleanUp task []))
      {key | key ∈ leaks s (.upload task (.failed stored))} := by
  obtain ⟨hplanned, hheld⟩ := stored_of_balanced hl htask
  obtain ⟨hgroups, hstorage, hdrawn, -⟩ := cleanUp_frame
    { s with storage := put s (.avatar key) (.failed stored) } task []
  refine transfer_of_sameGroups hl (.failOriginal key stored htask) hgroups (by rw [hdrawn])
    (account_of_lookup htask) (account_cleanUp _) ?_ ?_ ?_ ?_ ?_ ?_ <;>
    simp only [Stage.owned, Stage.planned, Stage.held, Stage.doomed, List.mem_append,
      mem_avatarObjects, hstorage] at hplanned hheld ⊢ <;>
    cases stored <;>
    simp only [put, leaks, htask]
  all_goals grind

theorem transfer_thumbnail (hl : Balanced (ledger s) leaked) {key : AvatarKey}
    (htask : s.tasks.lookup task = some (.uploadingThumbnail key)) :
    Transfer task (ledger s)
      (ledger ({ s with storage := insert (StorageKey.thumbnail key) s.storage }.setTask task
        (.connecting (.avatar key))))
      {key | key ∈ leaks s (.upload task .stored)} := by
  obtain ⟨hplanned, hheld⟩ := stored_of_balanced hl htask
  refine transfer_of_sameGroups hl (.uploadThumbnail key htask) rfl
    (Finset.Subset.refl _) (account_of_lookup htask) (account_setTask _) ?_ ?_ ?_ ?_ ?_ ?_ <;>
    simp only [Stage.owned, Stage.planned, Stage.held, Stage.doomed, Work.uploads, leaks,
      List.mem_append, mem_avatarObjects, Service.setTask] at hplanned hheld ⊢
  all_goals grind

theorem transfer_failThumbnail (hl : Balanced (ledger s) leaked) {key : AvatarKey}
    (stored : Bool) (htask : s.tasks.lookup task = some (.uploadingThumbnail key)) :
    Transfer task (ledger s)
      (ledger ({ s with storage := put s (.thumbnail key) (.failed stored) }.cleanUp task
        [.avatar key]))
      {key | key ∈ leaks s (.upload task (.failed stored))} := by
  obtain ⟨hplanned, hheld⟩ := stored_of_balanced hl htask
  obtain ⟨hgroups, hstorage, hdrawn, -⟩ := cleanUp_frame
    { s with storage := put s (.thumbnail key) (.failed stored) } task [.avatar key]
  refine transfer_of_sameGroups hl (.failThumbnail key stored htask) hgroups (by rw [hdrawn])
    (account_of_lookup htask) (account_cleanUp _) ?_ ?_ ?_ ?_ ?_ ?_ <;>
    simp only [Stage.owned, Stage.planned, Stage.held, Stage.doomed, List.mem_append,
      hstorage] at hplanned hheld ⊢ <;>
    cases stored <;>
    simp only [put, leaks, htask]
  all_goals grind

/-- A request goes on with the same objects in its care. -/
theorem transfer_same (hl : Balanced (ledger s) leaked) (h : Move s task a t) {before after : Stage}
    (hbefore : ∀ key, (ledger s).account task key = before.account key)
    (hafter : ∀ key, (ledger t).account task key = after.account key)
    (hgroups : t.groups = s.groups) (hstorage : t.storage = s.storage) (hdrawn : t.drawn = s.drawn)
    (hclean : leaks s a = [])
    (hplanned : after.planned = before.planned) (hheld : after.held = before.held)
    (hdoomed : after.doomed = before.doomed) :
    Transfer task (ledger s) (ledger t) {key | key ∈ leaks s a} := by
  have howned : after.owned = before.owned := by
    simp only [Stage.owned, hplanned, hheld, hdoomed]
  refine transfer_of_sameGroups hl h hgroups (by rw [hdrawn]) hbefore hafter ?_ ?_ ?_ ?_ ?_ ?_ <;>
    simp only [howned, hplanned, hheld, hstorage, hclean]
  · intro key _ _
    trivial
  · intro key hkey
    exact Or.inl hkey
  · intro key hkey hgone
    exact absurd hkey hgone
  · nofun
  · intro key hkey
    apply hl.planned_absent task
    rw [hbefore, account_eq_planned]
    exact hkey
  · intro key hkey hunplanned
    apply hl.held_stored task
    rw [hbefore, account_eq_held]
    exact ⟨hunplanned, hkey⟩

theorem account_of_absent (h : task ∉ s.tasks) (key : StorageKey) :
    (ledger s).account task key = (Stage.deleting []).account key := by
  simp [ledger, AList.lookup_eq_none.mpr h, Stage.account, Stage.planned, Stage.held, Stage.doomed]

theorem work_start (work : Work) : (Transaction.start work).work = work := by
  cases work <;> rfl

theorem work_statement {groups : Groups} {tx next : Transaction}
    (h : tx.statement groups = some next) : next.work = tx.work := by
  cases tx with
  | messageAuthorizing conversationId ids =>
    obtain ⟨-, heq⟩ := Option.ite_none_right_eq_some.mp h
    cases heq
    rfl
  | avatarOpening | removalOpening | deletionOpening | deletionLocked =>
    obtain ⟨group, -, rfl⟩ := Option.map_eq_some_iff.mp h
    rfl
  | removalLocked groupId avatarKey =>
    cases avatarKey with
    | none => cases h
    | some avatarKey =>
      cases h
      rfl
  | messageInserted | attachmentsInserted | avatarLocked | deletionRead =>
    cases h
    rfl
  | _ => cases h

theorem transfer_receive (hl : Balanced (ledger s) leaked) {stage after : Stage}
    (htask : s.tasks.lookup task = some stage) {drawn : Finset Uuid}
    (h : Move s task a ({ s with drawn := drawn }.setTask task after)) (hdrawn : s.drawn ⊆ drawn)
    (hbefore : stage.owned = []) (hheld : after.held = []) (hdoomed : after.doomed = [])
    (hnew : ∀ key ∈ after.planned, key.id ∉ s.drawn ∧ key.id ∈ drawn) (hclean : leaks s a = []) :
    Transfer task (ledger s) (ledger ({ s with drawn := drawn }.setTask task after))
      {key | key ∈ leaks s a} := by
  have hafter : after.owned = after.planned := by
    simp only [Stage.owned, hheld, hdoomed, List.append_nil]
  refine transfer_of_sameGroups hl h rfl hdrawn (account_of_lookup htask)
    (account_setTask _) ?_ ?_ ?_ ?_ ?_ ?_ <;>
    simp only [hbefore, hafter, hheld, hclean, Service.setTask]
  · intro key _ _
    trivial
  · intro key hkey
    exact Or.inr (hnew key hkey)
  · nofun
  · nofun
  · -- what is stored has been seen
    intro key hkey hstored
    apply (hnew key hkey).1
    rcases hl.accounted key hstored with href | hleaked | ⟨i, hi⟩
    · exact hl.referenced_seen href
    · exact hl.leaked_seen hleaked
    · exact hl.owned_seen i key hi
  · nofun

theorem transfer_giveUp (hl : Balanced (ledger s) leaked) {stage : Stage} {work : Work}
    (htask : s.tasks.lookup task = some stage)
    (hwork : stage = .connecting work ∨ ∃ tx, stage = .transaction tx ∧ tx.work = work) :
    Transfer task (ledger s) (ledger (s.cleanUp task work.uploads))
      {key | key ∈ leaks s (.fail task)} := by
  have hbefore : stage.owned = work.uploads := by
    rcases hwork with rfl | ⟨tx, rfl, rfl⟩ <;> exact List.append_nil _
  have hafter : (Stage.deleting work.uploads).owned = work.uploads := rfl
  obtain ⟨hgroups, hstorage, hdrawn, -⟩ := cleanUp_frame s task work.uploads
  refine transfer_of_sameGroups hl (.giveUp stage work htask hwork) hgroups (by rw [hdrawn])
    (account_of_lookup htask) (account_cleanUp _) ?_ ?_ ?_ ?_ ?_ ?_ <;>
    simp only [hbefore, hafter, hstorage, leaks]
  · intro key _ _
    trivial
  · intro key hkey
    exact Or.inl hkey
  · intro key hkey hgone
    exact absurd hkey hgone
  all_goals nofun

theorem transfer_delete (hl : Balanced (ledger s) leaked) {key : StorageKey}
    {rest : List StorageKey} (htask : s.tasks.lookup task = some (.deleting (key :: rest))) :
    Transfer task (ledger s)
      (ledger ({ s with storage := s.storage.erase key }.cleanUp task rest))
      {key | key ∈ leaks s (.delete task)} := by
  obtain ⟨hgroups, hstorage, hdrawn, -⟩ :=
    cleanUp_frame { s with storage := s.storage.erase key } task rest
  refine transfer_of_sameGroups hl (.delete key rest htask) hgroups (by rw [hdrawn])
    (account_of_lookup htask) (account_cleanUp _) ?_ ?_ ?_ ?_ ?_ ?_ <;>
    simp only [Stage.owned, Stage.planned, Stage.held, Stage.doomed, hstorage, leaks,
      List.append_nil, List.nil_append]
  all_goals grind

/-- A commit hands the uploads over to the tables and takes what they let go of. -/
theorem transfer_commit (hs : Sound s) (hl : Balanced (ledger s) leaked) {tx : Transaction}
    (htask : s.tasks.lookup task = some (.transaction tx)) (hfinished : tx.finished = true) :
    Transfer task (ledger s)
      (ledger ({ s with groups := tx.effect s.groups }.cleanUp task tx.obsolete))
      {key | key ∈ leaks s (.commit task)} := by
  obtain ⟨hgroups, hstorage, hdrawn, hothers⟩ :=
    cleanUp_frame { s with groups := tx.effect s.groups } task tx.obsolete
  have hreads := hs.reads task tx htask
  have href := referenced_effect hs.tagged hreads hfinished
  have hbefore := account_of_lookup htask
  have hafter : ∀ key, (ledger ({ s with groups := tx.effect s.groups }.cleanUp task
      tx.obsolete)).account task key = (Stage.deleting tx.obsolete).account key :=
    account_cleanUp tx.obsolete
  have hreferenced : ∀ key, key ∈ (ledger ({ s with
      groups := tx.effect s.groups }.cleanUp task tx.obsolete)).referenced ↔
      (Referenced s.groups key ∧ key ∉ tx.obsolete) ∨ key ∈ tx.work.uploads := by
    intro key
    rw [← href key]
    simp only [ledger, hgroups]
    rfl
  have hobsolete : ∀ key, (Stage.deleting tx.obsolete).account key = none ↔
      key ∉ tx.obsolete := by
    intro key
    rw [account_eq_none]
    simp [Stage.owned, Stage.planned, Stage.held, Stage.doomed]
  have huploads : ∀ key, (Stage.transaction tx).account key = none ↔
      key ∉ tx.work.uploads := by
    intro key
    rw [account_eq_none]
    simp [Stage.owned, Stage.planned, Stage.held, Stage.doomed]
  constructor
  · intro j hj
    funext key
    simp only [ledger, hothers j hj]
  · intro key hkey
    simpa only [ledger, hdrawn] using hkey
  · intro key _ _
    simp only [ledger, hstorage]
  · intro key hkey
    rcases (hreferenced key).mp hkey with ⟨hold, -⟩ | hupload
    · exact Or.inl hold
    · have hheld : (ledger s).account task key = some .held := by
        rw [hbefore, account_eq_held]
        exact ⟨List.not_mem_nil, hupload⟩
      refine Or.inr ⟨hheld, ?_, ?_⟩
      · rw [hafter, hobsolete]
        intro hgone
        exact (obsolete_referenced hreads hgone).2 hupload
      · simpa only [ledger, hstorage] using hl.held_stored task key hheld
  · intro key hkey hgone
    rw [hafter, Option.isSome_iff_ne_none, Ne, hobsolete, not_not]
    by_contra hstays
    exact hgone ((hreferenced key).mpr (Or.inl ⟨hkey, hstays⟩))
  · intro key hkey
    rw [hafter, Option.isSome_iff_ne_none, Ne, hobsolete, not_not] at hkey
    obtain ⟨hold, hnot⟩ := obsolete_referenced hreads hkey
    refine Or.inr (Or.inl ⟨hold, ?_⟩)
    rw [hreferenced]
    rintro (⟨-, hstays⟩ | hupload)
    · exact hstays hkey
    · exact hnot hupload
  · intro key hkey _ hgone
    rw [hbefore, Option.isSome_iff_ne_none, Ne, huploads, not_not] at hkey
    exact absurd ((hreferenced key).mpr (Or.inr hkey)) hgone
  · nofun
  · intro key hkey
    rw [hafter, account_eq_planned] at hkey
    cases hkey
  · intro key hkey
    rw [hafter, account_eq_held] at hkey
    cases hkey.2

theorem transfer_move (hs : Sound s) (hl : Balanced (ledger s) leaked) (h : Move s task a t) :
    Transfer task (ledger s) (ledger t) {key | key ∈ leaks s a} := by
  have hmove := h
  cases h with
  | start stage hinitial hnew =>
    refine transfer_same hl hmove (account_of_absent hnew) (account_setTask _) rfl rfl rfl rfl
      ?_ ?_ ?_ <;>
      revert hinitial <;> cases stage <;> simp [Stage.isInitial, Stage.planned, Stage.held,
        Stage.doomed]
    rename_i work
    cases work <;> simp [Work.uploads]
  | receiveAttachments conversationId ids htask hnodup hnew =>
    refine transfer_receive hl htask hmove Finset.subset_union_left rfl rfl rfl ?_ rfl
    intro key hkey
    obtain ⟨id, hid, rfl⟩ := mem_attachmentObjects.mp hkey
    exact ⟨hnew id hid, Finset.mem_union_right _ (List.mem_toFinset.mpr hid)⟩
  | receiveAvatar avatarKey htask hnew =>
    refine transfer_receive hl htask hmove (Finset.subset_insert _ _) rfl rfl rfl ?_ rfl
    intro key hkey
    have hid : key.id = avatarKey.id := by
      rcases mem_avatarObjects.mp hkey with rfl | rfl <;> rfl
    rw [hid]
    exact ⟨hnew, Finset.mem_insert_self _ _⟩
  | uploadAttachment conversationId uploaded id rest htask =>
    exact transfer_uploadAttachment hs hl htask
  | failAttachment conversationId uploaded id rest stored htask =>
    exact transfer_failAttachment hl stored htask
  | uploadOriginal key htask => exact transfer_original hl htask
  | failOriginal key stored htask => exact transfer_failOriginal hl stored htask
  | uploadThumbnail key htask => exact transfer_thumbnail hl htask
  | failThumbnail key stored htask => exact transfer_failThumbnail hl stored htask
  | finishUploads conversationId uploaded htask =>
    exact transfer_same hl hmove (account_of_lookup htask) (account_setTask _) rfl rfl rfl rfl
      rfl rfl rfl
  | connect work htask =>
    refine transfer_same hl hmove (account_of_lookup htask) (account_setTask _) rfl rfl rfl rfl
      rfl ?_ rfl
    simp only [Stage.held, work_start]
  | run tx next htask hstatement hfree =>
    refine transfer_same hl hmove (account_of_lookup htask) (account_setTask _) rfl rfl rfl rfl
      rfl ?_ rfl
    simp only [Stage.held, work_statement hstatement]
  | commit tx htask hfinished => exact transfer_commit hs hl htask hfinished
  | refuse stage htask hreceiving =>
    obtain ⟨hgroups, hstorage, hdrawn, -⟩ := cleanUp_frame s task []
    refine transfer_same hl hmove (account_of_lookup htask) (account_cleanUp _) hgroups hstorage
      hdrawn rfl ?_ ?_ ?_ <;>
      rcases hreceiving with ⟨id, rfl⟩ | ⟨id, rfl⟩ <;> rfl
  | giveUp stage work htask hwork => exact transfer_giveUp hl htask hwork
  | delete key rest htask => exact transfer_delete hl htask

/-- A new group refers to nothing. -/
theorem ledger_createGroup {groupId : Uuid} (hnew : groupId ∉ s.groups) :
    ledger { s with groups := s.groups.insert groupId Group.new } = ledger s := by
  have hsame : ∀ key, Referenced (s.groups.insert groupId Group.new) key ↔
      Referenced s.groups key := by
    intro key
    constructor
    · intro h
      obtain ⟨id, group, hgroup, hkey⟩ := h
      have hid : id ≠ groupId := by
        intro heq
        rw [heq, AList.lookup_insert] at hgroup
        cases hgroup
        cases hkey
      rw [AList.lookup_insert_ne hid] at hgroup
      exact ⟨id, group, hgroup, hkey⟩
    · intro h
      obtain ⟨id, group, hgroup, hkey⟩ := h
      have hid : id ≠ groupId := by
        intro heq
        rw [heq, AList.lookup_eq_none.mpr hnew] at hgroup
        cases hgroup
      exact ⟨id, group, by rw [AList.lookup_insert_ne hid]; exact hgroup, hkey⟩
  simp only [ledger, hsame]

theorem balanced_initial : Balanced (ledger Service.initial) ∅ := by
  constructor <;> simp [ledger, Service.initial, Referenced]

theorem balanced_step (hs : Sound s) (hl : Balanced (ledger s) leaked) (h : step s a = some t) :
    Balanced (ledger t) (leaked ∪ {key | key ∈ leaks s a}) := by
  rcases step_cases h with ⟨groupId, hnew, rfl, hclean⟩ | ⟨task, hmove⟩
  · rw [ledger_createGroup hnew, hclean]
    simpa using hl
  · exact hl.transfer (transfer_move hs hl hmove)

end Transfers

/-- Along a run the ledger stays balanced, up to what the run has left behind. -/
theorem balanced_runFrom {s t : Service} {actions : List Action} {leaked : Set StorageKey}
    (hs : Sound s) (hl : Balanced (ledger s) leaked) (hrun : system.runFrom s actions = some t) :
    Balanced (ledger t) (leaked ∪ {key | key ∈ system.outputs leaks s actions}) := by
  induction actions generalizing s leaked with
  | nil =>
    cases hrun
    simpa [System.outputs] using hl
  | cons a rest ih =>
    obtain ⟨u, hu, hrest⟩ := Option.bind_eq_some_iff.mp hrun
    have hlast := ih (sound_step hs hu) (balanced_step hs hl hu) hrest
    have hsame : leaked ∪ {key | key ∈ leaks s a} ∪ {key | key ∈ system.outputs leaks u rest} =
        leaked ∪ {key | key ∈ system.outputs leaks s (a :: rest)} := by
      ext key
      simp [System.outputs, hu, or_assoc]
    rw [← hsame]
    exact hlast

/-- A run leaves nothing behind exactly if every failing avatar upload in it fails clean. -/
theorem outputs_eq_nil_iff {s t : Service} {actions : List Action}
    (hrun : system.runFrom s actions = some t) :
    system.outputs leaks s actions = [] ↔ system.Guarded FailsClean s actions := by
  induction actions generalizing s with
  | nil => simp [System.outputs, System.Guarded]
  | cons a rest ih =>
    obtain ⟨u, hu, hrest⟩ := Option.bind_eq_some_iff.mp hrun
    simp only [System.outputs, System.Guarded, hu, Option.elim_some, List.append_eq_nil_iff,
      failsClean_iff, ih hrest, Option.some.injEq, forall_eq']

theorem matched_iff {s : Service} : Matched s ↔ (ledger s).stored = (ledger s).referenced := by
  have hcases : ∀ key, Referenced s.groups key ↔ ∃ groupId group,
      s.groups.lookup groupId = some group ∧
        match key with
        | .attachment key => key ∈ group.attachmentKeys
        | .avatar key | .thumbnail key => group.avatarKey = some key := by
    intro key
    cases key <;> simp [Referenced, mem_objects, mem_avatarObjects]
  constructor
  · intro h
    ext key
    have hkey := hcases key
    cases key with
    | attachment key => exact (h.attachments key).trans hkey.symm
    | avatar key => exact (h.avatars key).trans hkey.symm
    | thumbnail key => exact (h.thumbnails key).trans hkey.symm
  · intro h
    have hstored : ∀ key, key ∈ s.storage ↔ Referenced s.groups key := fun key =>
      Set.ext_iff.mp h key
    exact ⟨fun key => (hstored _).trans (hcases _), fun key => (hstored _).trans (hcases _),
      fun key => (hstored _).trans (hcases _)⟩

/-- Once all requests of a run have finished, the storage matches the tables if and only if no
upload of a group avatar object in it has failed after storing the object. -/
theorem matched_iff_failsClean (actions : List Action) (s : Service)
    (hrun : system.run actions = some s) (hidle : s.tasks.isEmpty = true) :
    Matched s ↔ system.Guarded FailsClean system.init actions := by
  have hbalanced := balanced_runFrom sound_initial balanced_initial hrun
  have hnone : ∀ i key, (ledger s).account i key = none := by
    intro i key
    have hi : s.tasks.lookup i = none :=
      AList.lookup_eq_none.mpr ((Map.isEmpty_iff s.tasks).mp hidle i)
    simp [ledger, hi]
  rw [matched_iff, hbalanced.stored_eq_iff hnone, ← outputs_eq_nil_iff hrun,
    Set.empty_union]
  constructor
  · intro hempty
    apply List.eq_nil_iff_forall_not_mem.mpr
    intro key hkey
    exact Set.eq_empty_iff_forall_notMem.mp hempty key hkey
  · intro hnil
    apply Set.eq_empty_of_forall_notMem
    intro key hkey
    have hmem : key ∈ system.outputs leaks system.init actions := hkey
    rw [hnil] at hmem
    cases hmem

instance (s : Service) (a : Action) : Decidable (FailsClean s a) :=
  decidable_of_iff _ failsClean_iff.symm

/-- The storage keeps the avatar and reports a failure. -/
def halfStored : List Action :=
  [.createGroup 1, .start 0 (.receivingAvatar 1), .receiveAvatar 0 10 "png",
    .upload 0 (.failed true)]

/-- The request has ended, the group has no avatar, and the object stays. -/
theorem halfStored_unmatched : ∃ s, system.run halfStored = some s ∧
    s.tasks.isEmpty = true ∧ ¬ Matched s := by
  obtain ⟨s, hrun, htest⟩ := system.exists_run_of_any Service.initial halfStored
    (fun s => s.tasks.isEmpty && decide (.avatar ⟨1, 10, "png"⟩ ∈ s.storage) &&
      decide (s.groups.entries = [⟨1, Group.new⟩])) (by decide +kernel)
  simp only [Bool.and_eq_true, decide_eq_true_eq] at htest
  obtain ⟨⟨hidle, hstored⟩, hgroups⟩ := htest
  refine ⟨s, hrun, hidle, ?_⟩
  intro h
  obtain ⟨groupId, group, hgroup, havatar⟩ := (h.avatars _).mp hstored
  rw [← Option.mem_def, AList.mem_lookup_iff, hgroups, List.mem_singleton] at hgroup
  cases hgroup
  cases havatar

/-- Two avatars are uploaded. A message goes out while its group is being deleted, and the
deletion waits for it; an attachment of another message fails after it is stored. -/
def sendWhileDeleting : List Action :=
  let avatar (task : TaskId) (groupId id : Uuid) : List Action :=
    [.createGroup groupId, .start task (.receivingAvatar groupId), .receiveAvatar task id "png",
      .upload task .stored, .upload task .stored, .connect task, .run task, .run task,
      .commit task]
  avatar 0 1 10 ++ avatar 1 2 11 ++
  [.start 2 (.receivingMessage 1), .receiveAttachments 2 [20, 21], .upload 2 .stored,
    .upload 2 .stored, .finishUploads 2, .connect 2, .run 2,
    .start 3 (.connecting (.deletion 1)), .connect 3,
    .start 4 (.receivingMessage 2), .receiveAttachments 4 [30], .upload 4 (.failed true),
    .run 2, .run 2, .commit 2, .delete 4, .run 3, .run 3, .run 3, .commit 3,
    .delete 3, .delete 3, .delete 3, .delete 3]

theorem sendWhileDeleting_matched : ∃ s, system.run sendWhileDeleting = some s ∧
    Matched s ∧ s.storage = {.avatar ⟨2, 11, "png"⟩, .thumbnail ⟨2, 11, "png"⟩} := by
  obtain ⟨s, hrun, htest⟩ := system.exists_run_of_any Service.initial sendWhileDeleting
    (fun s => s.tasks.isEmpty &&
      decide (s.storage = {.avatar ⟨2, 11, "png"⟩, .thumbnail ⟨2, 11, "png"⟩}))
    (by decide +kernel)
  obtain ⟨hidle, hstorage⟩ := Bool.and_eq_true_iff.mp htest
  have hmatched := (matched_iff_failsClean sendWhileDeleting s hrun hidle).mpr (by decide +kernel)
  exact ⟨s, hrun, hmatched, of_decide_eq_true hstorage⟩

end OpenMeet.StoredObjects
