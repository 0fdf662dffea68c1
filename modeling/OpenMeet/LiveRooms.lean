import OpenMeet.CandidateLists
import OpenMeet.LiveMeetings

/-!
The admin panel's page of the rooms in use. It is read with four statements, each
on its own, and the recorder may go on writing between them: a room is listed as of
the first, the people in it as of the second. The page is held against the live
meetings in the recorder's memory.
-/
namespace OpenMeet.LiveRooms

open KeyedMap Messages Accounts SocialTables SocialRequests MeetingRecorder LiveMeetings
open TransitionSystem

/-! ## The page -/

inductive RoomKind
  /-- A room created from the meeting-room API, with an owner and access policy. -/
  | meeting
  /-- A conversation call. -/
  | call
  /-- A room joined by link without a stored meeting room. -/
  | instant
  deriving DecidableEq, Repr

structure UserSummary where
  id : Uuid
  name : String
  nickname : String
  deriving DecidableEq, Repr

structure LiveParticipant where
  participantId : ParticipantId
  displayName : String
  user : Option UserSummary
  joinedAt : Timestamp
  deriving DecidableEq, Repr

structure LiveRoom where
  roomId : RoomId
  sessionId : Uuid
  startedAt : Timestamp
  kind : RoomKind
  accessPolicy : Option GroupAccessPolicy
  owner : Option UserSummary
  participants : List LiveParticipant
  deriving DecidableEq, Repr

structure SessionRow where
  id : Uuid
  roomId : RoomId
  startedAt : Timestamp
  deriving DecidableEq, Repr

section Statements

variable (db : SocialDatabase)

def userSummary (id : Uuid) : Option UserSummary :=
  (db.accounts.users.lookup id).map fun user => ⟨id, user.name, user.nickname⟩

def openSessions : List SessionRow :=
  orderByDesc (·.startedAt) <| (db.meetings.entries.filter (·.2.endedAt.isNone)).map fun row =>
    ⟨row.1, row.2.sfuRoomId, row.2.startedAt⟩

def liveParticipant (participant : MeetingParticipant) : LiveParticipant where
  participantId := participant.participantId
  displayName := participant.displayName
  user := participant.userId.bind (userSummary db)
  joinedAt := participant.joinedAt

/-- The open rows of these sessions, with the session of each. -/
def participantRows (sessionIds : List Uuid) : List (Uuid × LiveParticipant) :=
  ((db.meetings.entries.filter fun row => row.1 ∈ sessionIds).flatMap fun row =>
    (row.2.participants.entries.filter (·.2.leftAt.isNone)).map fun participant =>
      (row.1, liveParticipant db participant.2)).insertionSort
    fun a b => a.2.joinedAt ≤ b.2.joinedAt

/-- The stored meeting room among these with the id, and its owner. -/
def meetingOf (roomIds : List RoomId) (roomId : RoomId) :
    Option (GroupAccessPolicy × UserSummary) :=
  if roomId ∈ roomIds then
    (db.meetingRooms.lookup roomId).bind fun room =>
      (userSummary db room.ownerId).map fun owner => (room.accessPolicy, owner)
  else none

def callRoomIds (roomIds : List RoomId) : List RoomId :=
  (db.calls.entries.map (·.2.sfuRoomId)).filter (· ∈ roomIds)

end Statements

def groupParticipants (rows : List (Uuid × LiveParticipant)) : Map Uuid (List LiveParticipant) :=
  rows.foldl (fun groups row => groups.insert row.1 ((groups.lookup row.1).getD [] ++ [row.2])) ∅

section Assembly

variable (meeting : RoomId → Option (GroupAccessPolicy × UserSummary)) (calls : List RoomId)

def liveRoom (session : SessionRow) (participants : List LiveParticipant) : LiveRoom where
  roomId := session.roomId
  sessionId := session.id
  startedAt := session.startedAt
  kind :=
    if (meeting session.roomId).isSome then .meeting
    else if session.roomId ∈ calls then .call
    else .instant
  accessPolicy := (meeting session.roomId).map (·.1)
  owner := (meeting session.roomId).map (·.2)
  participants := participants

/-- Each session takes its group out of the map. -/
def liveRooms : List SessionRow → Map Uuid (List LiveParticipant) → List LiveRoom
  | [], _ => []
  | session :: rest, participants =>
    liveRoom meeting calls session ((participants.lookup session.id).getD []) ::
      liveRooms rest (participants.erase session.id)

end Assembly

/-- What the database holds when each of the four statements runs. -/
structure Reads where
  sessions : SocialDatabase
  participants : SocialDatabase
  owners : SocialDatabase
  calls : SocialDatabase

/-- The page an admin gets when the queries go through. -/
def listLiveRooms (reads : Reads) : List LiveRoom :=
  let sessions := openSessions reads.sessions
  let participants :=
    groupParticipants (participantRows reads.participants (sessions.map (·.id)))
  let roomIds := sessions.map (·.roomId)
  liveRooms (meetingOf reads.owners roomIds) (callRoomIds reads.calls roomIds)
    sessions participants

/-! ## What it shows -/

section Page

variable {db : SocialDatabase} {reads : Reads}

theorem lookup_groupParticipants (rows : List (Uuid × LiveParticipant)) (id : Uuid) :
    ((groupParticipants rows).lookup id).getD [] = (rows.filter (·.1 = id)).map (·.2) := by
  induction rows using List.reverseRecOn with
  | nil => rfl
  | append_singleton rows row ih =>
    have hconcat : groupParticipants (rows ++ [row]) = (groupParticipants rows).insert row.1
        (((groupParticipants rows).lookup row.1).getD [] ++ [row.2]) := by
      simp only [groupParticipants, List.foldl_append, List.foldl_cons, List.foldl_nil]
    rw [hconcat, List.filter_append, List.map_append, ← ih]
    by_cases hid : row.1 = id
    · subst hid
      simp [AList.lookup_insert]
    · simp [AList.lookup_insert_ne (Ne.symm hid), hid]

/-- Sessions have ids of their own, so none finds its group taken. -/
theorem liveRooms_eq (meeting : RoomId → Option (GroupAccessPolicy × UserSummary))
    (calls : List RoomId) {sessions : List SessionRow} (h : (sessions.map (·.id)).Nodup)
    (participants : Map Uuid (List LiveParticipant)) :
    liveRooms meeting calls sessions participants = sessions.map fun session =>
      liveRoom meeting calls session ((participants.lookup session.id).getD []) := by
  induction sessions generalizing participants with
  | nil => rfl
  | cons session rest ih =>
    obtain ⟨hnew, hrest⟩ := List.nodup_cons.mp h
    rw [liveRooms, ih hrest, List.map_cons]
    congr 1
    refine List.map_congr_left fun other hother => ?_
    have hne : other.id ≠ session.id := by
      intro heq
      exact hnew (List.mem_map.mpr ⟨other, hother, heq⟩)
    rw [AList.lookup_erase_ne hne]

theorem mem_openSessions {row : SessionRow} : row ∈ openSessions db ↔
    ∃ meeting, db.meetings.lookup row.id = some meeting ∧ meeting.endedAt = none ∧
      row.roomId = meeting.sfuRoomId ∧ row.startedAt = meeting.startedAt := by
  rw [openSessions, (orderByDesc_perm _ _).mem_iff, List.mem_map]
  constructor
  · rintro ⟨entry, hentry, rfl⟩
    obtain ⟨hmem, hopen⟩ := List.mem_filter.mp hentry
    exact ⟨entry.2, AList.mem_lookup_iff.mpr hmem, Option.isNone_iff_eq_none.mp hopen, rfl, rfl⟩
  · rintro ⟨meeting, hmeeting, hopen, hroom, hstarted⟩
    refine ⟨⟨row.id, meeting⟩, List.mem_filter.mpr ⟨AList.mem_lookup_iff.mp hmeeting, ?_⟩, ?_⟩
    · exact Option.isNone_iff_eq_none.mpr hopen
    · rw [← hroom, ← hstarted]

theorem openSession_of_mem {row : SessionRow} (h : row ∈ openSessions db) :
    OpenSession db row.id row.roomId := by
  obtain ⟨meeting, hmeeting, hopen, hroom, -⟩ := mem_openSessions.mp h
  exact ⟨meeting, hmeeting, hroom.symm, hopen⟩

theorem exists_row_of_openSession {id : Uuid} {room : RoomId} (h : OpenSession db id room) :
    ∃ row ∈ openSessions db, row.id = id ∧ row.roomId = room := by
  obtain ⟨meeting, hmeeting, hroom, hopen⟩ := h
  exact ⟨⟨id, room, meeting.startedAt⟩,
    mem_openSessions.mpr ⟨meeting, hmeeting, hopen, hroom.symm, rfl⟩, rfl, rfl⟩

theorem nodup_openSessions (db : SocialDatabase) : ((openSessions db).map (·.id)).Nodup := by
  have hids : ((db.meetings.entries.filter (·.2.endedAt.isNone)).map Sigma.fst).Nodup :=
    db.meetings.keys_nodup.sublist (List.filter_sublist.map Sigma.fst)
  refine ((orderByDesc_perm _ _).map SessionRow.id).nodup_iff.mpr ?_
  rw [List.map_map]
  exact hids

theorem mem_participantRows {sessionIds : List Uuid} {id : Uuid} {participant : LiveParticipant} :
    (id, participant) ∈ participantRows db sessionIds ↔
      id ∈ sessionIds ∧ ∃ meeting, db.meetings.lookup id = some meeting ∧
        ∃ rowId row, meeting.participants.lookup rowId = some row ∧ row.leftAt = none ∧
          liveParticipant db row = participant := by
  rw [participantRows, List.mem_insertionSort, List.mem_flatMap]
  constructor
  · rintro ⟨entry, hentry, hmem⟩
    obtain ⟨hentry, hid⟩ := List.mem_filter.mp hentry
    obtain ⟨row, hrow, heq⟩ := List.mem_map.mp hmem
    obtain ⟨hrow, hopen⟩ := List.mem_filter.mp hrow
    obtain ⟨rfl, rfl⟩ := Prod.mk.inj heq
    exact ⟨of_decide_eq_true hid, entry.2, AList.mem_lookup_iff.mpr hentry, row.1, row.2,
      AList.mem_lookup_iff.mpr hrow, Option.isNone_iff_eq_none.mp hopen, rfl⟩
  · rintro ⟨hid, meeting, hmeeting, rowId, row, hrow, hopen, rfl⟩
    refine ⟨⟨id, meeting⟩, List.mem_filter.mpr
      ⟨AList.mem_lookup_iff.mp hmeeting, decide_eq_true hid⟩, List.mem_map.mpr
      ⟨⟨rowId, row⟩, List.mem_filter.mpr ⟨AList.mem_lookup_iff.mp hrow, ?_⟩, rfl⟩⟩
    exact Option.isNone_iff_eq_none.mpr hopen

theorem openRow_iff_mem {sessionIds : List Uuid} {id : Uuid} (hid : id ∈ sessionIds)
    (p : ParticipantId) : OpenRow db id p ↔
      ∃ participant, (id, participant) ∈ participantRows db sessionIds ∧
        participant.participantId = p := by
  constructor
  · rintro ⟨meeting, hmeeting, rowId, row, hrow, hp, hopen⟩
    exact ⟨liveParticipant db row,
      mem_participantRows.mpr ⟨hid, meeting, hmeeting, rowId, row, hrow, hopen, rfl⟩, hp⟩
  · rintro ⟨participant, hmem, hp⟩
    obtain ⟨-, meeting, hmeeting, rowId, row, hrow, hopen, rfl⟩ := mem_participantRows.mp hmem
    exact ⟨meeting, hmeeting, rowId, row, hrow, hp, hopen⟩

/-- Each open session has its entry, with the session's open rows as of the second statement. -/
theorem listLiveRooms_eq (reads : Reads) : ∃ meeting calls,
    listLiveRooms reads = (openSessions reads.sessions).map fun session =>
      liveRoom meeting calls session
        (((participantRows reads.participants ((openSessions reads.sessions).map (·.id))).filter
          (·.1 = session.id)).map (·.2)) := by
  let roomIds := (openSessions reads.sessions).map (·.roomId)
  refine ⟨meetingOf reads.owners roomIds, callRoomIds reads.calls roomIds,
    (liveRooms_eq _ _ (nodup_openSessions reads.sessions) _).trans ?_⟩
  refine List.map_congr_left fun session _ => ?_
  rw [lookup_groupParticipants]

/-- An entry is an open session, and shows whoever has an open row in it. -/
theorem mem_listLiveRooms {entry : LiveRoom} (h : entry ∈ listLiveRooms reads) :
    OpenSession reads.sessions entry.sessionId entry.roomId ∧
      ∀ p, (∃ participant ∈ entry.participants, participant.participantId = p) ↔
        OpenRow reads.participants entry.sessionId p := by
  obtain ⟨meeting, calls, heq⟩ := listLiveRooms_eq reads
  rw [heq] at h
  obtain ⟨session, hsession, rfl⟩ := List.mem_map.mp h
  refine ⟨openSession_of_mem hsession, fun p => ?_⟩
  have hid : session.id ∈ (openSessions reads.sessions).map (·.id) :=
    List.mem_map_of_mem hsession
  change _ ↔ OpenRow reads.participants session.id p
  rw [openRow_iff_mem hid p]
  simp [liveRoom]

theorem exists_entry_of_openSession {id : Uuid} {room : RoomId}
    (h : OpenSession reads.sessions id room) :
    ∃ entry ∈ listLiveRooms reads, entry.sessionId = id ∧ entry.roomId = room := by
  obtain ⟨meeting, calls, heq⟩ := listLiveRooms_eq reads
  obtain ⟨row, hrow, hid, hroom⟩ := exists_row_of_openSession h
  rw [heq]
  exact ⟨_, List.mem_map_of_mem hrow, hid, hroom⟩

/-- With one open session a room, no room is listed twice. -/
theorem nodup_rooms (hone : ∀ room id id', OpenSession reads.sessions id room →
    OpenSession reads.sessions id' room → id = id') :
    ((listLiveRooms reads).map (·.roomId)).Nodup := by
  obtain ⟨meeting, calls, heq⟩ := listLiveRooms_eq reads
  have hsessions := nodup_openSessions reads.sessions
  rw [heq, List.map_map]
  refine List.Nodup.map_on (fun row hrow row' hrow' hroom => ?_) (List.Nodup.of_map _ hsessions)
  have hopen : OpenSession reads.sessions row.id row.roomId := openSession_of_mem hrow
  have hopen' : OpenSession reads.sessions row'.id row.roomId := by
    rw [show row.roomId = row'.roomId from hroom]
    exact openSession_of_mem hrow'
  exact List.inj_on_of_nodup_map hsessions hrow hrow' (hone _ _ _ hopen hopen')

end Page

/-! ## What the recorder carries along -/

/-- The session has the row, which is this connection's. -/
def RowAt (db : SocialDatabase) (id rowId : Uuid) (p : ParticipantId) : Prop :=
  ∃ meeting, db.meetings.lookup id = some meeting ∧
    ∃ row, meeting.participants.lookup rowId = some row ∧ row.participantId = p

/-- A connection has one row, in one session. -/
def OneRow (db : SocialDatabase) : Prop :=
  ∀ p id id' rowId rowId', RowAt db id rowId p → RowAt db id' rowId' p → id = id' ∧ rowId = rowId'

/-- Sessions keep their rooms, and no row is new but perhaps the given one. -/
structure Carries (db after : SocialDatabase)
    (added : Option (Uuid × Uuid × ParticipantId)) : Prop where
  rooms : ∀ id meeting, db.meetings.lookup id = some meeting →
    ∃ later, after.meetings.lookup id = some later ∧ later.sfuRoomId = meeting.sfuRoomId
  rows : ∀ id rowId p, RowAt after id rowId p →
    RowAt db id rowId p ∨ added = some (id, rowId, p)

section Writes

variable {db mid after : SocialDatabase} {added : Option (Uuid × Uuid × ParticipantId)}
  {sessionId rowId : Uuid} {room : RoomId} {p : ParticipantId} {now : Timestamp}

theorem RowAt.hasRow (h : RowAt db sessionId rowId p) : HasRow db sessionId p := by
  obtain ⟨meeting, hmeeting, row, hrow, hp⟩ := h
  exact ⟨meeting, hmeeting, rowId, row, hrow, hp⟩

theorem Carries.of_meetings (h : after.meetings = db.meetings) : Carries db after added where
  rooms id meeting hmeeting := ⟨meeting, by rw [h, hmeeting], rfl⟩
  rows id rowId p := by
    rintro ⟨meeting, hmeeting, hrow⟩
    exact .inl ⟨meeting, by rw [← h, hmeeting], hrow⟩

theorem Carries.trans (hfirst : Carries db mid none) (hlast : Carries mid after added) :
    Carries db after added where
  rooms id meeting hmeeting := by
    obtain ⟨between, hbetween, hroom⟩ := hfirst.rooms id meeting hmeeting
    obtain ⟨later, hlater, hroom'⟩ := hlast.rooms id between hbetween
    exact ⟨later, hlater, hroom'.trans hroom⟩
  rows id rowId p hrow := by
    rcases hlast.rows id rowId p hrow with hrow | hadded
    · exact (hfirst.rows id rowId p hrow).imp_right nofun
    · exact .inr hadded

/-- A write that maps every session it does not add, keeping rooms, row ids and connections. -/
theorem carries_of_lookup (change : Uuid → MeetingSession → MeetingSession)
    (hlookup : ∀ id, after.meetings.lookup id = (db.meetings.lookup id).map (change id))
    (hroom : ∀ id meeting, (change id meeting).sfuRoomId = meeting.sfuRoomId)
    (hrows : ∀ id meeting rowId, ((change id meeting).participants.lookup rowId).map
      (·.participantId) = (meeting.participants.lookup rowId).map (·.participantId)) :
    Carries db after added where
  rooms id meeting hmeeting := by
    refine ⟨change id meeting, ?_, hroom id meeting⟩
    rw [hlookup, hmeeting, Option.map_some]
  rows id rowId p := by
    rintro ⟨later, hlater, row, hrow, rfl⟩
    rw [hlookup] at hlater
    obtain ⟨meeting, hmeeting, rfl⟩ := Option.map_eq_some_iff.mp hlater
    have hsame := hrows id meeting rowId
    rw [hrow, Option.map_some] at hsame
    obtain ⟨before, hbefore, hp⟩ := Option.map_eq_some_iff.mp hsame.symm
    exact .inl ⟨meeting, hmeeting, before, hbefore, hp⟩

theorem closeOpenSession_carries (h : closeOpenSession db room now = some after) :
    Carries db after none := by
  unfold closeOpenSession at h
  dsimp only at h
  split at h <;> cases h
  refine carries_of_lookup _ (fun id => Map.lookup_mapValues ..) ?_ ?_
  · intro id meeting
    split <;> rfl
  · intro id meeting rowId
    split <;> rfl

theorem insertSession_carries (h : insertSession db sessionId room now = some after) :
    Carries db after none := by
  unfold insertSession at h
  split at h
  · cases h
  · rename_i hnew
    cases h
    have hkept : ∀ id meeting, db.meetings.lookup id = some meeting → id ≠ sessionId := by
      rintro id meeting hmeeting rfl
      rw [AList.lookup_eq_none.mpr hnew] at hmeeting
      cases hmeeting
    constructor
    · intro id meeting hmeeting
      refine ⟨meeting, ?_, rfl⟩
      rw [← hmeeting]
      exact AList.lookup_insert_ne (hkept id meeting hmeeting)
    · rintro id rowId p ⟨meeting, hmeeting, row, hrow, hp⟩
      by_cases hid : id = sessionId
      · subst hid
        rw [AList.lookup_insert] at hmeeting
        cases hmeeting
        cases hrow
      · rw [AList.lookup_insert_ne hid] at hmeeting
        exact .inl ⟨meeting, hmeeting, row, hrow, hp⟩

theorem insertParticipant_carries {participant : MeetingParticipant}
    (h : insertParticipant db sessionId rowId participant = some after) :
    Carries db after (some (sessionId, rowId, participant.participantId)) := by
  unfold insertParticipant at h
  split at h
  · cases h
  · split at h
    · cases h
      exact .of_meetings rfl
    · split at h <;> cases h
      unfold modifyMeeting
      constructor
      · intro id meeting hmeeting
        simp only [Map.lookup_modify, hmeeting]
        split <;> exact ⟨_, rfl, rfl⟩
      · rintro id other p ⟨later, hlater, row, hrow, hp⟩
        simp only [Map.lookup_modify] at hlater
        split at hlater
        · rename_i hid
          subst hid
          obtain ⟨meeting, hmeeting, rfl⟩ := Option.map_eq_some_iff.mp hlater
          by_cases hother : other = rowId
          · subst hother
            rw [AList.lookup_insert] at hrow
            cases hrow
            exact .inr (by rw [hp])
          · rw [AList.lookup_insert_ne hother] at hrow
            exact .inl ⟨meeting, hmeeting, row, hrow, hp⟩
        · exact .inl ⟨later, hlater, row, hrow, hp⟩

theorem endSession_carries (h : endSession db sessionId now = some after) :
    Carries db after none := by
  unfold endSession at h
  split at h <;> cases h
  refine carries_of_lookup (fun id meeting =>
    if id = sessionId then { meeting with endedAt := some now } else meeting) ?_ ?_ ?_
  · intro id
    unfold modifyMeeting
    simp only [Map.lookup_modify]
    split <;> simp [*]
  · intro id meeting
    split <;> rfl
  · intro id meeting rowId
    split <;> rfl

theorem leaveParticipant_carries (h : leaveParticipant db sessionId p now = some after) :
    Carries db after none := by
  unfold leaveParticipant at h
  dsimp only at h
  split at h <;> cases h
  let leave (row : MeetingParticipant) : MeetingParticipant :=
    if (row.participantId = p && row.leftAt.isNone) = true then { row with leftAt := some now }
    else row
  refine carries_of_lookup (fun id meeting =>
    if id = sessionId then
      { meeting with participants := meeting.participants.mapValues fun _ row => leave row }
    else meeting) ?_ ?_ ?_
  · intro id
    unfold modifyMeeting
    simp only [Map.lookup_modify]
    split <;> simp [*, leave]
  · intro id meeting
    split <;> rfl
  · intro id meeting rowId
    split
    · rw [Map.lookup_mapValues, Option.map_map]
      congr 1
      funext row
      simp only [Function.comp, leave]
      split <;> rfl
    · rfl

theorem closeAbandonedSessions_carries (fails : RecorderQuery → Bool) :
    Carries db (closeAbandonedSessions fails db now) none := by
  by_cases hfails : (fails .connection || fails .leaveParticipant) = true
  · rw [closeAbandonedSessions, if_pos hfails]
    exact .of_meetings rfl
  · simp only [Bool.or_eq_true, not_or, Bool.not_eq_true] at hfails
    have hlookup := fun id => @lookup_closeAbandonedSessions fails db now hfails.1 hfails.2 id
    choose ended _ _ hafter using hlookup
    refine carries_of_lookup _ hafter (fun _ _ => rfl) fun id meeting rowId => ?_
    simp only [Map.lookup_mapValues, Option.map_map]
    rfl

end Writes

section Moves

variable {s t : Recorder} {fails : RecorderQuery → Bool} {sessionId rowId : Uuid} {room : RoomId}
  {participant : MeetingParticipant} {p : ParticipantId} {now : Timestamp} {ended ok : Bool}

/-- The room's open session is closed, and a new one opened. -/
theorem replaced_carries {db closed opened : SocialDatabase}
    (hclosed : query fails .closeOpenSession (closeOpenSession db room now) = some closed)
    (hopened : insertSession closed sessionId room now = some opened) : Carries db opened none :=
  (closeOpenSession_carries (query_some hclosed)).trans (insertSession_carries hopened)

theorem joinMove_carries
    (h : JoinMove fails s sessionId rowId room participant now t ok) :
    ∃ added, Carries s.db t.db added ∧
      ∀ id other p, added = some (id, other, p) → p = participant.participantId := by
  cases h with
  | skipped => exact ⟨none, .of_meetings rfl, nofun⟩
  | closed _ _ hclosed => exact ⟨none, closeOpenSession_carries (query_some hclosed), nofun⟩
  | abandoned _ _ hclosed hopened => exact ⟨none, replaced_carries hclosed hopened, nofun⟩
  | undone _ _ hclosed hopened hended =>
    have hopen := replaced_carries hclosed hopened
    exact ⟨none, hopen.trans (endSession_carries hended), nofun⟩
  | started _ _ hclosed hopened hinserted =>
    have hopen := replaced_carries hclosed hopened
    exact ⟨_, hopen.trans (insertParticipant_carries hinserted), by rintro _ _ _ ⟨⟩; rfl⟩
  | added _ hinserted =>
    exact ⟨_, insertParticipant_carries hinserted, by rintro _ _ _ ⟨⟩; rfl⟩

theorem leaveWrite_carries {db after : SocialDatabase}
    (h : LeaveWrite fails sessionId now db p ended after ok) : Carries db after none := by
  cases h with
  | nothing => exact .of_meetings rfl
  | row _ hleft => exact leaveParticipant_carries hleft
  | session _ _ hleft hafter =>
    exact (leaveParticipant_carries (query_some hleft)).trans
      (endSession_carries (query_some hafter))

theorem leaveMove_carries (h : LeaveMove fails s now p t ok) : Carries s.db t.db none := by
  cases h with
  | unknown => exact .of_meetings rfl
  | left _ _ hwrite => exact leaveWrite_carries hwrite

end Moves

section Steps

variable {s t : RecorderRun} {a : RecorderAction}

/-- A row that a step adds is a connection's that had not joined before. -/
theorem step_carries (hs : Tracked s) (h : step s a = some t) :
    ∃ added, Carries s.recorder.db t.recorder.db added ∧
      ∀ id rowId p, added = some (id, rowId, p) → p ∉ s.joined := by
  cases a with
  | elsewhere db =>
    cases h
    exact ⟨none, .of_meetings rfl, nofun⟩
  | handle fails event =>
    unfold step at h
    dsimp only at h
    split at h
    · rename_i hfresh
      cases h
      cases event with
      | joined sessionId rowId room p userId displayName now =>
        have hmove := @recordJoin_move s.recorder fails hs.occupied sessionId rowId room p userId
          displayName now
        obtain ⟨added, hcarries, hadded⟩ := joinMove_carries hmove
        refine ⟨added, hcarries, fun id other q hq => ?_⟩
        rw [hadded id other q hq]
        exact (isFresh_joined hfresh).1
      | left p now => exact ⟨none, leaveMove_carries (hs.recordLeave_move p now), nofun⟩
      | restarted now => exact ⟨none, closeAbandonedSessions_carries fails, nofun⟩
    · cases h

theorem oneRow_step (hs : Tracked s) (hone : OneRow s.recorder.db) (h : step s a = some t) :
    OneRow t.recorder.db := by
  obtain ⟨added, hcarries, hnew⟩ := step_carries hs h
  intro p id id' rowId rowId' hrow hrow'
  rcases hcarries.rows id rowId p hrow with hold | hadded
  · rcases hcarries.rows id' rowId' p hrow' with hold' | hadded'
    · exact hone p id id' rowId rowId' hold hold'
    · exact absurd (hs.rows_joined id p hold.hasRow) (hnew id' rowId' p hadded')
  · rcases hcarries.rows id' rowId' p hrow' with hold' | hadded'
    · exact absurd (hs.rows_joined id' p hold'.hasRow) (hnew id rowId p hadded)
    · cases hadded.symm.trans hadded'
      exact ⟨rfl, rfl⟩

theorem failed_step (h : step s a = some t) (hfailed : t.failed = false) : s.failed = false := by
  cases a with
  | elsewhere db =>
    cases h
    exact hfailed
  | handle fails event =>
    unfold step at h
    dsimp only at h
    split at h <;> cases h
    exact (Bool.or_eq_false_iff.mp hfailed).1

end Steps

/-- What holds between two statements of one request. -/
structure Later (s t : RecorderRun) : Prop where
  tracked : Tracked t
  one_row : OneRow t.recorder.db
  rooms : ∀ id meeting, s.recorder.db.meetings.lookup id = some meeting →
    ∃ later, t.recorder.db.meetings.lookup id = some later ∧
      later.sfuRoomId = meeting.sfuRoomId
  failed : t.failed = false → s.failed = false

theorem Later.step {s t u : RecorderRun} {a : RecorderAction} (h : Later s t)
    (hstep : LiveMeetings.step t a = some u) : Later s u where
  tracked := tracked_step h.tracked hstep
  one_row := oneRow_step h.tracked h.one_row hstep
  rooms id meeting hmeeting := by
    obtain ⟨added, hcarries, -⟩ := step_carries h.tracked hstep
    obtain ⟨later, hlater, hroom⟩ := h.rooms id meeting hmeeting
    obtain ⟨last, hlast, hroom'⟩ := hcarries.rooms id later hlater
    exact ⟨last, hlast, hroom'.trans hroom⟩
  failed hfailed := h.failed (failed_step hstep hfailed)

theorem later_self {s : RecorderRun} (hs : Tracked s) (hone : OneRow s.recorder.db) :
    Later s s where
  tracked := hs
  one_row := hone
  rooms _ meeting hmeeting := ⟨meeting, hmeeting, rfl⟩
  failed := id

theorem oneRow_initial (db : SocialDatabase) : OneRow (system db).init.recorder.db := by
  rintro p id id' rowId rowId' ⟨meeting, hmeeting, -⟩
  cases hmeeting

theorem later_runFrom {db : SocialDatabase} {earlier between : List RecorderAction}
    {s t : RecorderRun} (hs : (system db).run earlier = some s)
    (ht : (system db).runFrom s between = some t) : Later s s ∧ Later s t := by
  have hstart := later_self (tracked_initial db) (oneRow_initial db)
  have hfirst : Later (system db).init s :=
    System.invariant_runFrom (M := system db) (fun _ _ _ hu h => hu.step h) hstart hs
  have hself := later_self hfirst.tracked hfirst.one_row
  exact ⟨hself, System.invariant_runFrom (M := system db) (fun _ _ _ hu h => hu.step h) hself ht⟩

/-! ## The page over a run -/

section Once

variable {db : SocialDatabase} {reads : Reads}

/-- Rows with different keys, put into groups. -/
theorem nodup_groups {Id Row Key : Type*} [DecidableEq Id] {rows : List (Id × Row)}
    (key : Row → Key) (h : (rows.map fun row => key row.2).Nodup) {ids : List Id}
    (hids : ids.Nodup) :
    (ids.flatMap fun id => ((rows.filter (·.1 = id)).map (·.2)).map key).Nodup := by
  rw [List.nodup_flatMap]
  refine ⟨fun id _ => ?_, hids.pairwise_of_forall_ne fun id _ id' _ hne => ?_⟩
  · rw [List.map_map]
    exact h.sublist (List.filter_sublist.map _)
  · intro k hk hk'
    simp only [List.map_map, List.mem_map, List.mem_filter, decide_eq_true_eq,
      Function.comp] at hk hk'
    obtain ⟨row, ⟨hrow, rfl⟩, rfl⟩ := hk
    obtain ⟨row', ⟨hrow', rfl⟩, heq⟩ := hk'
    exact hne (congrArg Prod.fst (List.inj_on_of_nodup_map h hrow hrow' heq.symm))

theorem eq_of_fst_eq {Key Value : Type*} [DecidableEq Key] {m : Map Key Value}
    {x y : (_ : Key) × Value} (hx : x ∈ m.entries) (hy : y ∈ m.entries) (h : x.1 = y.1) : x = y :=
  List.inj_on_of_nodup_map m.keys_nodup hx hy h

theorem rowAt_of_mem {entry : (_ : Uuid) × MeetingSession} (hentry : entry ∈ db.meetings.entries)
    {row : (_ : Uuid) × MeetingParticipant} (hrow : row ∈ entry.2.participants.entries) :
    RowAt db entry.1 row.1 row.2.participantId :=
  ⟨entry.2, AList.mem_lookup_iff.mpr hentry, row.2, AList.mem_lookup_iff.mpr hrow, rfl⟩

theorem OneRow.ids_eq (h : OneRow db) {entry entry' : (_ : Uuid) × MeetingSession}
    (hentry : entry ∈ db.meetings.entries) (hentry' : entry' ∈ db.meetings.entries)
    {row row' : (_ : Uuid) × MeetingParticipant} (hrow : row ∈ entry.2.participants.entries)
    (hrow' : row' ∈ entry'.2.participants.entries)
    (hp : row.2.participantId = row'.2.participantId) : entry.1 = entry'.1 ∧ row.1 = row'.1 := by
  have hrowAt := rowAt_of_mem hentry hrow
  rw [hp] at hrowAt
  exact h _ _ _ _ _ hrowAt (rowAt_of_mem hentry' hrow')

theorem nodup_participantRows (hone : OneRow db) (sessionIds : List Uuid) :
    ((participantRows db sessionIds).map (·.2.participantId)).Nodup := by
  refine ((List.perm_insertionSort _ _).map _).nodup_iff.mpr ?_
  have hentries := db.meetings.nodupKeys.nodup.filter fun row => decide (row.1 ∈ sessionIds)
  rw [List.map_flatMap, List.nodup_flatMap]
  refine ⟨fun entry hentry => ?_, hentries.pairwise_of_forall_ne ?_⟩
  · rw [List.map_map]
    refine (entry.2.participants.nodupKeys.nodup.filter _).map_on fun row hrow row' hrow' hp => ?_
    have hentry := List.mem_of_mem_filter hentry
    have hmem := List.mem_of_mem_filter hrow
    have hmem' := List.mem_of_mem_filter hrow'
    exact eq_of_fst_eq hmem hmem' (hone.ids_eq hentry hentry hmem hmem' hp).2
  · intro entry hentry entry' hentry' hne p hp hp'
    simp only [List.map_map, List.mem_map, Function.comp] at hp hp'
    obtain ⟨row, hrow, rfl⟩ := hp
    obtain ⟨row', hrow', heq⟩ := hp'
    have hentry := List.mem_of_mem_filter hentry
    have hentry' := List.mem_of_mem_filter hentry'
    have hsame := hone.ids_eq hentry hentry' (List.mem_of_mem_filter hrow)
      (List.mem_of_mem_filter hrow') heq.symm
    exact hne (eq_of_fst_eq hentry hentry' hsame.1)

/-- With one row a connection, nobody is listed twice. -/
theorem nodup_participants (hone : OneRow reads.participants) :
    ((listLiveRooms reads).flatMap fun entry =>
      entry.participants.map (·.participantId)).Nodup := by
  obtain ⟨meeting, calls, heq⟩ := listLiveRooms_eq reads
  have hgroups := nodup_groups LiveParticipant.participantId
    (nodup_participantRows hone ((openSessions reads.sessions).map (·.id)))
    (nodup_openSessions reads.sessions)
  rw [List.flatMap_map] at hgroups
  rw [heq, List.flatMap_map]
  exact hgroups

end Once

/-- Whatever the recorder writes between the first two statements, and whichever of its queries
fail: no room and no connection is listed twice, and every meeting that was live at the first
statement is listed. Until a query fails nothing else is listed, and an entry shows the connections
that its meeting, if it has not ended since, has at the second statement. -/
theorem live_rooms_listed (db : SocialDatabase) (earlier between : List RecorderAction)
    {s t : RecorderRun} (hs : (system db).run earlier = some s)
    (ht : (system db).runFrom s between = some t) (owners calls : SocialDatabase) :
    let page := listLiveRooms ⟨s.recorder.db, t.recorder.db, owners, calls⟩
    (page.map (·.roomId)).Nodup ∧
      (page.flatMap fun entry => entry.participants.map (·.participantId)).Nodup ∧
      (∀ room meeting, s.recorder.live.rooms.lookup room = some meeting →
        ∃ entry ∈ page, entry.sessionId = meeting.sessionId ∧ entry.roomId = room) ∧
      (t.failed = false → ∀ entry ∈ page,
        (∃ meeting, s.recorder.live.rooms.lookup entry.roomId = some meeting ∧
          meeting.sessionId = entry.sessionId) ∧
        ∀ p, (∃ participant ∈ entry.participants, participant.participantId = p) ↔
          ∃ meeting, t.recorder.live.rooms.lookup entry.roomId = some meeting ∧
            meeting.sessionId = entry.sessionId ∧ p ∈ meeting.participantIds) := by
  intro page
  obtain ⟨hself, hlater⟩ := later_runFrom hs ht
  refine ⟨nodup_rooms hself.tracked.one_session, nodup_participants hlater.one_row, ?_, ?_⟩
  · intro room meeting hmeeting
    exact exists_entry_of_openSession (hself.tracked.opened room meeting hmeeting)
  · intro hfailed entry hentry
    obtain ⟨hopen, hshown⟩ := mem_listLiveRooms hentry
    refine ⟨(hself.tracked.sessions (hlater.failed hfailed) _ _).mp hopen, fun p => ?_⟩
    rw [hshown p]
    refine (hlater.tracked.rows hfailed entry.sessionId p).trans ?_
    constructor
    · rintro ⟨room, meeting, hmeeting, hsession, hp⟩
      -- a session keeps its room
      obtain ⟨before, hbefore, hroom, -⟩ := hopen
      obtain ⟨after, hafter, hkept⟩ := hlater.rooms _ before hbefore
      obtain ⟨still, hstill, hroom', -⟩ := hlater.tracked.opened room meeting hmeeting
      rw [hsession, hafter] at hstill
      cases hstill
      have hentryRoom : entry.roomId = room := hroom.symm.trans (hkept.symm.trans hroom')
      exact ⟨meeting, by rw [hentryRoom, hmeeting], hsession, hp⟩
    · rintro ⟨meeting, hmeeting, hsession, hp⟩
      exact ⟨entry.roomId, meeting, hmeeting, hsession, hp⟩

def annJoins : List RecorderAction :=
  [.handle (fun _ => false) (.joined 1 11 "r" "a" none "Ann" 1)]

def bobJoins : List RecorderAction :=
  [.handle (fun _ => false) (.joined 2 12 "r" "b" none "Bob" 2)]

/-- Bob joins Ann's meeting while the page is read. -/
theorem live_rooms_listed_bobJoins : ∃ s t,
    (system (emptyDatabase .migrated)).run annJoins = some s ∧
      (system (emptyDatabase .migrated)).runFrom s bobJoins = some t ∧
      let page := listLiveRooms ⟨s.recorder.db, t.recorder.db, t.recorder.db, t.recorder.db⟩
      (page.map (·.roomId)).Nodup ∧
        (page.flatMap fun entry => entry.participants.map (·.participantId)).Nodup ∧
        ∃ entry ∈ page, entry.roomId = "r" ∧
          ∃ participant ∈ entry.participants, participant.participantId = "b" := by
  obtain ⟨s, hs, t, ht, hfailed, meeting, hmeeting, hsession, later, hlater, hkept, hb⟩ :
      ∃ s ∈ (system (emptyDatabase .migrated)).run annJoins,
        ∃ t ∈ (system (emptyDatabase .migrated)).runFrom s bobJoins, t.failed = false ∧
          ∃ meeting ∈ s.recorder.live.rooms.lookup "r", meeting.sessionId = 1 ∧
            ∃ later ∈ t.recorder.live.rooms.lookup "r", later.sessionId = 1 ∧
              "b" ∈ later.participantIds := by
    decide +kernel
  obtain ⟨hrooms, hpeople, hlisted, honly⟩ := live_rooms_listed (emptyDatabase .migrated) annJoins
    bobJoins hs ht t.recorder.db t.recorder.db
  obtain ⟨entry, hentry, hid, hroom⟩ := hlisted "r" meeting hmeeting
  refine ⟨s, t, hs, ht, hrooms, hpeople, entry, hentry, hroom, ?_⟩
  refine ((honly hfailed entry hentry).2 "b").mpr ⟨later, ?_, ?_, hb⟩
  · rw [hroom]
    exact hlater
  · rw [hkept, hid, hsession]

end OpenMeet.LiveRooms
