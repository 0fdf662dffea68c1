import OpenMeet.RoomState

/-!
The in-memory room repository: a directory from room ids to room objects and
the set of ids revoked for the life of the process. Room objects live in a heap
of references, as tasks keep a reference across awaits and a deleted room stays
alive for them. The structure carries what every operation keeps: a mapped
reference is allocated and its object has the id it is mapped under, and a
revoked id is mapped to nothing.
-/
namespace OpenMeet.Repository

open KeyedMap Messages RoomState

abbrev RoomRef := Nat

structure InMemoryRoomRepository where
  rooms : Map RoomId RoomRef
  revokedRoomIds : Finset RoomId
  objects : RoomRef → Room
  nextRef : RoomRef
  mapped : ∀ id ref, rooms.lookup id = some ref → ref < nextRef ∧ (objects ref).id = id
  revoked_unmapped : ∀ id ∈ revokedRoomIds, rooms.lookup id = none

namespace InMemoryRoomRepository

def new : InMemoryRoomRepository where
  rooms := ∅
  revokedRoomIds := ∅
  objects := fun _ => Room.new ""
  nextRef := 0
  mapped := by simp
  revoked_unmapped := by simp

variable (repo : InMemoryRoomRepository)

def getRoom (roomId : RoomId) : Option RoomRef := repo.rooms.lookup roomId

def roomExists (roomId : RoomId) : Bool := (repo.rooms.lookup roomId).isSome

def listRooms : List RoomId := repo.rooms.keys

/-- Map an id that is neither revoked nor mapped to a fresh empty room. -/
def insertFresh (roomId : RoomId) (hrevoked : roomId ∉ repo.revokedRoomIds) :
    InMemoryRoomRepository where
  rooms := repo.rooms.insert roomId repo.nextRef
  revokedRoomIds := repo.revokedRoomIds
  objects := Function.update repo.objects repo.nextRef (Room.new roomId)
  nextRef := repo.nextRef + 1
  mapped := by
    intro id ref h
    by_cases hid : id = roomId
    · subst id
      obtain rfl : repo.nextRef = ref := by simpa using h
      simp [Room.new]
    · have hold := repo.mapped id ref (by simpa [hid] using h)
      have hne : ref ≠ repo.nextRef := Nat.ne_of_lt hold.1
      exact ⟨Nat.lt_succ_of_lt hold.1, by simpa [hne] using hold.2⟩
  revoked_unmapped := by
    intro id hid
    have hne : id ≠ roomId := by
      rintro rfl
      exact hrevoked hid
    simpa [hne] using repo.revoked_unmapped id hid

def createRoom (roomId : RoomId) : Except String InMemoryRoomRepository :=
  if h : roomId ∈ repo.revokedRoomIds then .error s!"Room {roomId} is revoked"
  else if (repo.rooms.lookup roomId).isSome then .error s!"Room {roomId} already exists"
  else .ok (repo.insertFresh roomId h)

theorem lookup_erase_eq_some (roomId : RoomId) {id : RoomId} {ref : RoomRef}
    (h : (repo.rooms.erase roomId).lookup id = some ref) :
    id ≠ roomId ∧ repo.rooms.lookup id = some ref := by
  by_cases hid : id = roomId
  · subst id
    simp at h
  · exact ⟨hid, by simpa [hid] using h⟩

def deleteRoom (roomId : RoomId) : InMemoryRoomRepository :=
  { repo with
    rooms := repo.rooms.erase roomId
    mapped := fun id ref h => repo.mapped id ref (repo.lookup_erase_eq_some roomId h).2
    revoked_unmapped := by
      intro id hid
      by_cases hne : id = roomId
      · subst id
        simp
      · simpa [hne] using repo.revoked_unmapped id hid }

/-- Replace a room object by a later state of the same room. -/
def setRoom (ref : RoomRef) (room : Room) (hid : room.id = (repo.objects ref).id) :
    InMemoryRoomRepository :=
  { repo with
    objects := Function.update repo.objects ref room
    mapped := by
      intro id ref' h
      have hold := repo.mapped id ref' h
      by_cases href : ref' = ref
      · subst ref'
        exact ⟨hold.1, by simpa using hid.trans hold.2⟩
      · exact ⟨hold.1, by simpa [href] using hold.2⟩ }

def setRevoked (ref : RoomRef) : InMemoryRoomRepository :=
  repo.setRoom ref { repo.objects ref with revoked := true } rfl

/-- Remember the id as revoked, unmap it, and raise the flag of the room it was mapped to. -/
def revokeRoom (roomId : RoomId) : InMemoryRoomRepository × Option RoomRef :=
  let entry := repo.rooms.lookup roomId
  let unmapped : InMemoryRoomRepository :=
    { repo.deleteRoom roomId with
      revokedRoomIds := insert roomId repo.revokedRoomIds
      revoked_unmapped := by
        intro id hid
        by_cases hne : id = roomId
        · subst id
          simp [deleteRoom]
        · have hold : id ∈ repo.revokedRoomIds := by simpa [hne] using hid
          simpa [deleteRoom, hne] using repo.revoked_unmapped id hold }
  match entry with
  | some ref => (unmapped.setRevoked ref, some ref)
  | none => (unmapped, none)

section Lemmas

@[simp] theorem setRoom_rooms (ref : RoomRef) (room : Room)
    (hid : room.id = (repo.objects ref).id) :
    (repo.setRoom ref room hid).rooms = repo.rooms := rfl

@[simp] theorem setRoom_revokedRoomIds (ref : RoomRef) (room : Room)
    (hid : room.id = (repo.objects ref).id) :
    (repo.setRoom ref room hid).revokedRoomIds = repo.revokedRoomIds := rfl

@[simp] theorem setRoom_objects (ref : RoomRef) (room : Room)
    (hid : room.id = (repo.objects ref).id) :
    (repo.setRoom ref room hid).objects = Function.update repo.objects ref room := rfl

@[simp] theorem setRoom_nextRef (ref : RoomRef) (room : Room)
    (hid : room.id = (repo.objects ref).id) :
    (repo.setRoom ref room hid).nextRef = repo.nextRef := rfl

@[simp] theorem deleteRoom_rooms (roomId : RoomId) :
    (repo.deleteRoom roomId).rooms = repo.rooms.erase roomId := rfl

@[simp] theorem deleteRoom_revokedRoomIds (roomId : RoomId) :
    (repo.deleteRoom roomId).revokedRoomIds = repo.revokedRoomIds := rfl

@[simp] theorem deleteRoom_objects (roomId : RoomId) :
    (repo.deleteRoom roomId).objects = repo.objects := rfl

@[simp] theorem deleteRoom_nextRef (roomId : RoomId) :
    (repo.deleteRoom roomId).nextRef = repo.nextRef := rfl

/-- What creating a room leaves behind, when it succeeds. -/
theorem createRoom_eq_ok {roomId : RoomId} {after : InMemoryRoomRepository}
    (h : repo.createRoom roomId = .ok after) :
    repo.getRoom roomId = none ∧ roomId ∉ repo.revokedRoomIds ∧
      after.rooms = repo.rooms.insert roomId repo.nextRef ∧
      after.revokedRoomIds = repo.revokedRoomIds ∧
      after.objects = Function.update repo.objects repo.nextRef (Room.new roomId) ∧
      after.nextRef = repo.nextRef + 1 := by
  unfold createRoom at h
  split at h
  · cases h
  · rename_i hrevoked
    split at h
    · cases h
    · rename_i hmapped
      cases h
      exact ⟨by simpa [getRoom] using hmapped, hrevoked, rfl, rfl, rfl, rfl⟩

theorem createRoom_of_revoked {roomId : RoomId} (h : roomId ∈ repo.revokedRoomIds) :
    repo.createRoom roomId = .error s!"Room {roomId} is revoked" := by
  simp only [createRoom, h, dite_true]

@[simp] theorem revokeRoom_snd (roomId : RoomId) :
    (repo.revokeRoom roomId).2 = repo.getRoom roomId := by
  unfold revokeRoom getRoom
  cases repo.rooms.lookup roomId <;> rfl

@[simp] theorem revokeRoom_rooms (roomId : RoomId) :
    (repo.revokeRoom roomId).1.rooms = repo.rooms.erase roomId := by
  unfold revokeRoom
  cases repo.rooms.lookup roomId <;> rfl

@[simp] theorem revokeRoom_revokedRoomIds (roomId : RoomId) :
    (repo.revokeRoom roomId).1.revokedRoomIds = insert roomId repo.revokedRoomIds := by
  unfold revokeRoom
  cases repo.rooms.lookup roomId <;> rfl

@[simp] theorem revokeRoom_nextRef (roomId : RoomId) :
    (repo.revokeRoom roomId).1.nextRef = repo.nextRef := by
  unfold revokeRoom
  cases repo.rooms.lookup roomId <;> rfl

/-- Revoking raises the flag of the room that was mapped and touches no other. -/
theorem revokeRoom_objects (roomId : RoomId) :
    (repo.revokeRoom roomId).1.objects =
      (repo.getRoom roomId).elim repo.objects fun ref =>
        Function.update repo.objects ref { repo.objects ref with revoked := true } := by
  unfold revokeRoom getRoom
  cases repo.rooms.lookup roomId <;> rfl

end Lemmas

end InMemoryRoomRepository

end OpenMeet.Repository
