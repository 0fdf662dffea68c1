import OpenMeet.CallCancellation
import OpenMeet.CandidateLists

/-!
Whom the open rows count as in a meeting. A caller's cancellation, an invitation and
the list of statuses ask the recorder's rows who is in the room. With an empty queue
they name the participants of the room exactly as long as nobody is taken out of a room
whose leave has not been reported; an eviction and the closure of a room report none, so
a removed connection goes on counting until its socket closes.
-/
namespace OpenMeet.CountedPresence

open KeyedMap Messages Accounts SocialTables SocialRequests BadgeNews CallApi Presence PeopleApi
  CandidateLists MeetingRecorder LiveMeetings Repository SignalingServer Transitions Consistency
  TransitionSystem RecordedPresence CallCancellation
open EndedMeetings (isValidRoomId)

/-! ## Statuses in a meeting -/

structure ParticipantPresenceResponse where
  participantId : ParticipantId
  userId : Uuid
  status : Option UserStatus
  avatarUrl : Option String
  deriving DecidableEq, Repr

/-- The connections of registered people with an open row. -/
def connectedAccounts (session : MeetingSession) : List (ParticipantId × Uuid) :=
  session.participants.entries.filterMap fun row =>
    if row.2.leftAt.isNone then row.2.userId.map fun userId => (row.2.participantId, userId)
    else none

def participantPresence (db : PeopleDatabase) (userId : Uuid) (connected : ParticipantId × Uuid) :
    Option ParticipantPresenceResponse :=
  let relationship : Relationship := if connected.2 = userId then .self else .meetingPeer
  (userRow db connected.2).map fun user =>
    { participantId := connected.1
      userId := connected.2
      status := if canSee (visibilityFor connected.2) relationship then some user.status
        else none
      avatarUrl := user.avatarUrl }

/-- Statuses and avatars of the registered people connected to a live room, for the viewer's own
meeting only. -/
def getRoomPresence (db : PeopleDatabase) (userId : Uuid) (roomId : RoomId) :
    Except ApiError (List ParticipantPresenceResponse) :=
  if !isValidRoomId roomId then .error ⟨400, "Invalid room ID"⟩
  else
    match db.social.meetings.entries.find? fun session =>
        session.2.sfuRoomId = roomId && session.2.endedAt.isNone with
    | none => .error meetingNotFound
    | some session =>
      let connected := connectedAccounts session.2
      if connected.any (·.2 = userId) then
        .ok (connected.filterMap (participantPresence db userId))
      else .error meetingNotFound

/-! ## What the rows should say -/

/-- A connection of the user is in the room. -/
def UserPresent (s : Recording) (userId : Uuid) (room : RoomId) : Prop :=
  ∃ p ∈ occupants s.server room, (s.server.identity p).userId = some userId

/-- The open rows are those of participants, and whoever asks them finds only participants. -/
structure ShowsPresent (s : Recording) : Prop where
  rows : ∀ id room p, OpenSession s.run.recorder.db id room → OpenRow s.run.recorder.db id p →
    p ∈ occupants s.server room
  others : ∀ room userId, roomHasOthers s.run.recorder.db room userId = true →
    OthersPresent s userId room
  inviters : ∀ (room : Option MeetingRoom) roomId userId,
    ensureCanInvite s.run.recorder.db room roomId userId = .ok () →
      room.any (·.ownerId = userId) = true ∨ UserPresent s userId roomId
  statuses : ∀ db : PeopleDatabase, db.social = s.run.recorder.db → ∀ userId roomId people,
    getRoomPresence db userId roomId = .ok people →
      UserPresent s userId roomId ∧ ∀ person ∈ people,
        person.participantId ∈ occupants s.server roomId ∧
          (s.server.identity person.participantId).userId = some person.userId

/-- With an empty queue and no query that has failed. -/
def RecordsPresent (s : Recording) : Prop :=
  s.handled = s.server.meetingEvents.length → s.run.failed = false → ShowsPresent s

/-- Whoever has been reported to join a room, and not to leave it, is in it. -/
def InPlace (server : Server) : Prop :=
  ∀ p ∈ (reported server.meetingEvents).keys, p ∈ present server

instance (server : Server) : Decidable (InPlace server) :=
  inferInstanceAs (Decidable (∀ p ∈ (reported server.meetingEvents).keys, _))

/-- Whom a step of the server takes out of a room: a socket that ends its connection with the screen
shares, an eviction the connections of the user, a closure everybody. -/
def takenOut (server : Server) : SignalingSteps.Action → List ParticipantId
  | .cleanUp p =>
    match server.socketTask p with
    | .lockingRoom _ ref _ =>
      if server.writer ref = none ∧ p ∈ (server.room ref).participants then
        p :: ((server.room ref).removeParticipant p).1.screenSharesOf p
      else []
    | _ => []
  | .evict i =>
    match server.evictions i with
    | some ⟨userId, _, _, .evicting _ ref _⟩ =>
      if server.writer ref = none then (server.room ref).participantsOfUser userId else []
    | _ => []
  | .closeRoom i =>
    match server.closures i with
    | some ⟨_, _, .closing ref _⟩ =>
      if server.writer ref = none then (server.room ref).participants.keys else []
    | _ => []
  | _ => []

/-- While the queue is empty, no step of the server takes anybody out of a room who has not been
reported to leave it; and the last event of the queue is handled when everybody is in place. -/
def KeepsReported (s : Recording) : RecordedPresence.Action → Prop
  | .signal action => s.handled = s.server.meetingEvents.length → s.run.failed = false →
      ∀ p ∈ takenOut s.server action, p ∉ reported s.server.meetingEvents
  | .record fails sessionId rowId now =>
      s.handled + 1 = s.server.meetingEvents.length → s.run.failed = false →
        ∀ event ∈ s.server.meetingEvents[s.handled]?,
          let event := recorderEvent sessionId rowId now event
          isFresh s.run event = true → recordOk fails s.run.recorder event = true →
            InPlace s.server
  | _ => True

/-! ## Who is counted -/

section Counting

variable {s : Recording} {room : RoomId} {p : ParticipantId} {userId : Uuid}

/-- A connection whose join has been handled has an open row. -/
theorem openRow_of_reported (hs : Kept s) (hfailed : s.run.failed = false)
    (hreported : (reported (s.server.meetingEvents.take s.handled)).lookup p = some room) :
    ∃ id, OpenSession s.run.recorder.db id room ∧ OpenRow s.run.recorder.db id p := by
  rw [← hs.known hfailed] at hreported
  obtain ⟨meeting, hmeeting, hp⟩ := (hs.tracked.indexed p room).mp hreported
  exact ⟨meeting.sessionId, hs.tracked.opened room meeting hmeeting,
    (hs.tracked.rows hfailed meeting.sessionId p).mpr ⟨room, meeting, hmeeting, rfl, hp⟩⟩

theorem mem_reported {events : List SignalingServer.MeetingEvent} :
    p ∈ (reported events).keys ↔ ∃ room, (reported events).lookup p = some room := by
  rw [← AList.mem_keys, ← AList.lookup_isSome, Option.isSome_iff_exists]

/-- Whoever is invited by being in the meeting has an open row. -/
theorem openRow_of_canInvite {db : SocialDatabase} {settings : Option MeetingRoom}
    (h : ensureCanInvite db settings room userId = .ok ()) :
    settings.any (·.ownerId = userId) = true ∨
      ∃ id p, OpenSession db id room ∧ OpenRowOf db id p (some userId) := by
  unfold ensureCanInvite at h
  split at h
  · exact .inl ‹_›
  · dsimp only at h
    split at h
    · rename_i hany
      simp only [List.any_eq_true, Bool.and_eq_true, decide_eq_true_eq,
        Option.isNone_iff_eq_none] at hany
      obtain ⟨⟨id, meeting⟩, hmeeting, ⟨hroom, hlive⟩, ⟨rowId, row⟩, hrow, hopen, huser⟩ := hany
      have hmeeting := AList.mem_lookup_iff.mpr hmeeting
      have hrow := AList.mem_lookup_iff.mpr hrow
      exact .inr ⟨id, row.participantId, ⟨meeting, hmeeting, hroom, hlive⟩,
        ⟨meeting, hmeeting, rowId, row, hrow, ⟨rfl, hopen⟩, huser⟩⟩
    · cases h

theorem mem_connectedAccounts {session : MeetingSession} {connected : ParticipantId × Uuid}
    (h : connected ∈ connectedAccounts session) :
    ∃ rowId row, session.participants.lookup rowId = some row ∧
      (row.participantId = connected.1 ∧ row.leftAt = none) ∧ row.userId = some connected.2 := by
  obtain ⟨⟨rowId, row⟩, hrow, heq⟩ := List.mem_filterMap.mp h
  obtain ⟨hopen, heq⟩ := Option.ite_none_right_eq_some.mp heq
  obtain ⟨account, haccount, rfl⟩ := Option.map_eq_some_iff.mp heq
  exact ⟨rowId, row, AList.mem_lookup_iff.mpr hrow,
    ⟨rfl, Option.isNone_iff_eq_none.mp hopen⟩, haccount⟩

/-- Whoever sees the statuses, and whoever is shown with one, has an open row. -/
theorem openRow_of_presence {db : PeopleDatabase} {people : List ParticipantPresenceResponse}
    (h : getRoomPresence db userId room = .ok people) :
    ∃ id, OpenSession db.social id room ∧ (∃ p, OpenRowOf db.social id p (some userId)) ∧
      ∀ person ∈ people, OpenRowOf db.social id person.participantId (some person.userId) := by
  unfold getRoomPresence at h
  split at h
  · cases h
  · split at h
    · cases h
    · rename_i session hfound
      dsimp only at h
      split at h
      · rename_i hany
        cases h
        obtain ⟨id, meeting⟩ := session
        have hmeeting := AList.mem_lookup_iff.mpr (List.mem_of_find?_eq_some hfound)
        have hlive := List.find?_some hfound
        simp only [Bool.and_eq_true, decide_eq_true_eq, Option.isNone_iff_eq_none] at hlive
        have hrow (connected) (hmem : connected ∈ connectedAccounts meeting) :
            OpenRowOf db.social id connected.1 (some connected.2) := by
          obtain ⟨rowId, row, hlookup, hopen, haccount⟩ := mem_connectedAccounts hmem
          exact ⟨meeting, hmeeting, rowId, row, hlookup, hopen, haccount⟩
        refine ⟨id, ⟨meeting, hmeeting, hlive⟩, ?_, ?_⟩
        · obtain ⟨connected, hmem, huser⟩ := List.any_eq_true.mp hany
          have huser : connected.2 = userId := of_decide_eq_true huser
          exact ⟨connected.1, huser ▸ hrow connected hmem⟩
        · intro person hperson
          obtain ⟨connected, hmem, hshown⟩ := List.mem_filterMap.mp hperson
          obtain ⟨user, -, rfl⟩ := Option.map_eq_some_iff.mp hshown
          exact hrow connected hmem
      · cases h

/-- With an empty queue the rows are right exactly if everybody is in place. -/
theorem showsPresent_iff (hs : Identified s) (hempty : s.handled = s.server.meetingEvents.length)
    (hfailed : s.run.failed = false) : ShowsPresent s ↔ InPlace s.server := by
  have htake : s.server.meetingEvents.take s.handled = s.server.meetingEvents := by
    rw [hempty, List.take_length]
  constructor
  · intro h p hp
    obtain ⟨room, hroom⟩ := mem_reported.mp hp
    obtain ⟨id, hsession, hrow⟩ := openRow_of_reported hs.toKept hfailed (htake.symm ▸ hroom)
    exact ((mem_occupants hs.consistent).mp (h.rows id room p hsession hrow)).1
  · intro h
    have hrows : ∀ id room p, OpenSession s.run.recorder.db id room →
        OpenRow s.run.recorder.db id p → p ∈ occupants s.server room := by
      intro id room p hsession hrow
      have hreported := hs.toKept.reported_of_openRow hfailed hsession hrow
      rw [htake] at hreported
      exact (mem_occupants hs.consistent).mpr
        ⟨h p (mem_reported.mpr ⟨room, hreported⟩), (hs.inside p room hreported).1⟩
    have hpresent (id room p) (account : Uuid) (hsession : OpenSession s.run.recorder.db id room)
        (hrow : OpenRowOf s.run.recorder.db id p (some account)) :
        p ∈ occupants s.server room ∧ (s.server.identity p).userId = some account :=
      ⟨hrows id room p hsession hrow.openRow, (hs.rows hfailed id p (some account) hrow).symm⟩
    refine ⟨hrows, ?_, ?_, ?_⟩
    · intro room userId hothers
      obtain ⟨id, p, account, hsession, hrow, hother⟩ :=
        CallCancellation.roomHasOthers_iff.mp hothers
      rw [hs.rows hfailed id p account hrow] at hother
      exact ⟨p, hrows id room p hsession hrow.openRow, hother⟩
    · intro settings room userId hinvites
      refine (openRow_of_canInvite hinvites).imp_right ?_
      intro h
      obtain ⟨id, p, hsession, hrow⟩ := h
      exact ⟨p, hpresent id room p userId hsession hrow⟩
    · rintro db hdb userId room people hpeople
      obtain ⟨id, hsession, ⟨p, hown⟩, hshown⟩ := openRow_of_presence hpeople
      rw [hdb] at hsession hown hshown
      exact ⟨⟨p, hpresent id room p userId hsession hown⟩,
        fun person hperson => hpresent id room _ _ hsession (hshown person hperson)⟩

end Counting

/-! ## Steps -/

section Steps

variable {env : SignalingServer.Environment} {s t : Recording} {server : Server}
  {action : SignalingSteps.Action}

theorem takenOut_recv {p : ParticipantId} {before task : RecvTask}
    {messages : List SignalingMessage} (h : RecvMove env server p action before task messages) :
    takenOut server action = [] := by
  cases h <;> rfl

theorem takenOut_socket {p : ParticipantId} {task : SocketTask}
    (h : SocketMove server p action (server.socketTask p) task) :
    takenOut server action = [] := by
  generalize hsocket : server.socketTask p = before at h
  cases h with
  | absent roomId ref rest habsent => simp [takenOut, hsocket, habsent]
  | _ => rfl

theorem takenOut_eviction {i : Nat} {before stage : EvictionStage}
    (h : EvictionMove server i action before stage) : takenOut server action = [] := by
  cases h <;> rfl

section Rooms

variable {after : Server} {q : ParticipantId}

/-- Whoever is not taken out stays where they are. -/
theorem stays_of_notMem (w : Consistent server) (h : Transition env server action after)
    {ref : RoomRef} (hmem : q ∈ (server.room ref).participants)
    (hq : q ∉ takenOut server action) : q ∈ (after.room ref).participants := by
  have hset : ∀ {r : RoomRef} {room : RoomState.Room},
      (q ∈ (server.room r).participants → q ∈ room.participants) →
      q ∈ (Function.update server.repository.objects r room ref).participants := by
    intro r room hstays
    by_cases hr : ref = r
    · subst hr
      rw [Function.update_self]
      exact hstays hmem
    · rwa [Function.update_of_ne hr]
  cases h with
  | createRoom p req authorization repository htask hcreate =>
    obtain ⟨-, -, -, -, hobjects, -⟩ := server.repository.createRoom_eq_ok hcreate
    have hne : ref ≠ server.repository.nextRef := by
      intro heq
      exact w.vacant ref q (Nat.le_of_eq heq.symm) hmem
    simpa [hobjects, hne] using hmem
  | join p peer req r existing history htask hpeer haccess =>
    exact hset fun hmem => (AList.mem_insert _).mpr (.inr hmem)
  | applyRequest p now timestamp roomId request r recent room outbox hid htask hfree _ hrun =>
    refine hset fun hmem => ?_
    obtain rfl := congrArg Prod.fst hrun
    rw [AList.mem_keys, (SignalingSteps.runRequest_frame ..).2.1, ← AList.mem_keys]
    exact hmem
  | cleanUp p roomId r rest task hsocket hfree hp htask =>
    simp only [takenOut, hsocket, hfree, hp, and_self, if_true] at hq
    exact hset fun hmem => (RoomState.Room.mem_removeWithScreenShares _).mpr ⟨hmem, hq⟩
  | markDenied i e roomId r => exact hset fun hmem => hmem
  | evict i e roomId r rest heviction hstage hfree =>
    obtain ⟨userId, roomIds, committedAt, stage⟩ := e
    cases hstage
    simp only [takenOut, heviction, hfree, if_true] at hq
    exact hset fun hmem => (RoomState.Room.mem_removeParticipants _).mpr ⟨hmem, hq⟩
  | closeRoom i c r rest hclosure hstage hfree =>
    obtain ⟨roomIds, unmapped, stage⟩ := c
    cases hstage
    simp only [takenOut, hclosure, hfree, if_true] at hq
    exact hset fun hmem => (RoomState.Room.mem_removeParticipants _).mpr ⟨hmem, hq⟩
  | revokeMapped i c roomId r rest hclosure hstage hroom =>
    by_cases hr : ref = r
    · subst hr
      simpa [InMemoryRoomRepository.revokeRoom_objects, hroom] using hmem
    · simpa [InMemoryRoomRepository.revokeRoom_objects, hroom, hr] using hmem
  | revokeUnmapped i c roomId rest hclosure hstage hroom =>
    simpa [InMemoryRoomRepository.revokeRoom_objects, hroom] using hmem
  | _ => exact hmem

/-- Whoever is taken out is gone from the room they were in, and the other rooms stay as they
are. -/
theorem gone_of_mem (h : Transition env server action after) (hq : q ∈ takenOut server action) :
    ∃ ref, q ∈ (server.room ref).participants ∧ q ∉ (after.room ref).participants ∧
      ∀ r, r ≠ ref → after.room r = server.room r := by
  cases h with
  | recv _ p task messages hmove =>
    rw [takenOut_recv hmove] at hq
    cases hq
  | socket _ p task hmove =>
    rw [takenOut_socket hmove] at hq
    cases hq
  | eviction _ i e stage heviction hmove =>
    rw [takenOut_eviction hmove] at hq
    cases hq
  | cleanUp p roomId ref rest task hsocket hfree hp htask =>
    simp only [takenOut, hsocket, hfree, hp, and_self, if_true] at hq
    refine ⟨ref, ?_, ?_, fun r hr => by simp [hr]⟩
    · rcases List.mem_cons.mp hq with rfl | hshare
      · exact hp
      · obtain ⟨c, hlookup, -⟩ := (RoomState.Room.mem_screenSharesOf _).mp hshare
        have hkept := AList.lookup_isSome.mp (Option.isSome_of_mem hlookup)
        rw [RoomState.Room.removeParticipant_participants] at hkept
        exact (AList.mem_erase.mp hkept).2
    · intro hmem
      exact ((RoomState.Room.mem_removeWithScreenShares _).mp (by simpa using hmem)).2 hq
  | evict i e roomId ref rest heviction hstage hfree =>
    obtain ⟨userId, roomIds, committedAt, stage⟩ := e
    cases hstage
    simp only [takenOut, heviction, hfree, if_true] at hq
    refine ⟨ref, ?_, ?_, fun r hr => by simp [hr]⟩
    · obtain ⟨c, hlookup, -⟩ := (RoomState.Room.mem_participantsOfUser _).mp hq
      exact AList.lookup_isSome.mp (Option.isSome_of_mem hlookup)
    · intro hmem
      exact ((RoomState.Room.mem_removeParticipants _).mp (by simpa using hmem)).2 hq
  | closeRoom i c ref rest hclosure hstage hfree =>
    obtain ⟨roomIds, unmapped, stage⟩ := c
    cases hstage
    simp only [takenOut, hclosure, hfree, if_true] at hq
    refine ⟨ref, AList.mem_keys.mpr hq, ?_, fun r hr => by simp [hr]⟩
    intro hmem
    exact ((RoomState.Room.mem_removeParticipants _).mp (by simpa using hmem)).2 hq
  | _ => cases hq

/-- Those are taken out, and nobody else. -/
theorem mem_departed_iff (w : Consistent server) (h : Transition env server action after) :
    q ∈ departed server after ↔ q ∈ takenOut server action := by
  rw [departed, List.mem_filter, decide_eq_true_eq, mem_present w,
    mem_present (consistent_step w h)]
  constructor
  · intro hdeparted
    obtain ⟨⟨ref, hmem⟩, hgone⟩ := hdeparted
    by_contra hstays
    exact hgone ⟨ref, stays_of_notMem w h hmem hstays⟩
  · intro hq
    obtain ⟨ref, hmem, hgone, hothers⟩ := gone_of_mem h hq
    refine ⟨⟨ref, hmem⟩, fun hafter => ?_⟩
    obtain ⟨r, hr⟩ := hafter
    by_cases heq : r = ref
    · exact hgone (heq ▸ hr)
    · rw [hothers r heq] at hr
      exact heq (w.member_unique r ref q hr hmem)

end Rooms

theorem present_congr {after : Server} (h : after.repository = server.repository) :
    present after = present server := by
  unfold present Server.room
  rw [h]

theorem lt_meetingEvents {after : Server} (h : Transition env server action after)
    (hreported : after.meetingEvents ≠ server.meetingEvents) :
    server.meetingEvents.length < after.meetingEvents.length := by
  rcases meetingEvents_cases h with ⟨hsame, -⟩ | ⟨p, -, hleft, -⟩ |
    ⟨p, req, ref, existing, history, -, -, -, hjoined⟩
  · exact absurd hsame hreported
  · simp [hleft]
  · simp [hjoined]

/-- A step that reports something takes nobody out of a room. -/
theorem departed_of_reported (w : Consistent server) {after : Server}
    (h : Transition env server action after)
    (hreported : after.meetingEvents ≠ server.meetingEvents) : departed server after = [] := by
  rw [departed, List.filter_eq_nil_iff]
  intro p hp
  rw [decide_eq_true_eq, not_not]
  rcases meetingEvents_cases h with ⟨hsame, -⟩ | ⟨q, -, -, hrepository, -⟩ |
    ⟨q, req, ref, existing, history, htask, hadd, -, -⟩
  · exact absurd hsame hreported
  · rwa [present_congr hrepository]
  · obtain ⟨r, hr⟩ := (mem_present w).mp hp
    refine (mem_present (consistent_step w h)).mpr ⟨r, ?_⟩
    by_cases hroom : r = ref
    · subst hroom
      simp [hadd, RoomState.Room.addParticipant, hr]
    · simp [hadd, hroom, hr]

/-- What happens to the rows happens to who is in place. -/
theorem recordsPresent_iff (hs : Identified s) : RecordsPresent s ↔
    (s.handled = s.server.meetingEvents.length → s.run.failed = false → InPlace s.server) :=
  forall_congr' fun hempty => forall_congr' fun hfailed => showsPresent_iff hs hempty hfailed

theorem recordsPresent_signal (hs : Identified s) (ht : Identified t) (hold : RecordsPresent s)
    (h : RecordedPresence.step env s (.signal action) = some t) :
    RecordsPresent t ↔ KeepsReported s (.signal action) := by
  obtain ⟨server, hserver, rfl⟩ := Option.map_eq_some_iff.mp h
  have htransition := step_transition hserver
  have hdeparted (p : ParticipantId) := mem_departed_iff (q := p) hs.consistent htransition
  rw [recordsPresent_iff ht]
  by_cases hsame : server.meetingEvents = s.server.meetingEvents
  · simp only [KeepsReported, hsame, ← hdeparted]
    refine forall_congr' fun hempty => forall_congr' fun hfailed => ?_
    have hbefore : InPlace s.server := (recordsPresent_iff hs).mp hold hempty hfailed
    constructor
    · intro hplace p hgone hreported
      have hafter := hplace p (by rwa [hsame, ← AList.mem_keys])
      simp [departed, hafter] at hgone
    · intro hnone p hp
      rw [hsame] at hp
      by_contra hafter
      exact hnone p (List.mem_filter.mpr ⟨hbefore p hp, by simpa using hafter⟩)
        (AList.mem_keys.mpr hp)
  · have hlater := lt_meetingEvents htransition hsame
    have hle := hs.handled_le
    refine iff_of_true (fun hempty => ?_) ?_
    · have hempty : s.handled = server.meetingEvents.length := hempty
      omega
    · intro _ _ p hp
      rw [← hdeparted, departed_of_reported hs.consistent htransition hsame] at hp
      cases hp

theorem recordsPresent_record (ht : Identified t) {fails : RecorderQuery → Bool}
    {sessionId rowId : Uuid} {now : Timestamp}
    (h : RecordedPresence.step env s (.record fails sessionId rowId now) = some t) :
    RecordsPresent t ↔ KeepsReported s (.record fails sessionId rowId now) := by
  rw [recordsPresent_iff ht]
  simp only [RecordedPresence.step] at h
  split at h
  · cases h
  · rename_i event hevent
    obtain ⟨run, hrun, rfl⟩ := Option.map_eq_some_iff.mp h
    obtain ⟨hfresh, heq⟩ := Option.ite_none_right_eq_some.mp hrun
    cases heq
    simp only [KeepsReported, hevent, Option.mem_some_iff, forall_eq', hfresh, forall_const,
      Bool.or_eq_false_iff, Bool.not_eq_false', and_imp]

/-- A write to the other tables leaves the rows and the queue as they are. -/
theorem recordsPresent_elsewhere (hs : Identified s) (hold : RecordsPresent s)
    {db : SocialDatabase} {run : RecorderRun}
    (h : LiveMeetings.step s.run (.elsewhere db) = some run) :
    RecordsPresent { s with run := run } := by
  rw [recordsPresent_iff (identified_elsewhere hs h)]
  have hbefore := (recordsPresent_iff hs).mp hold
  cases h
  exact hbefore

/-- Where the rows are right they stay so exactly if the step takes out nobody they still count. -/
theorem recordsPresent_step (hs : Identified s) (hold : RecordsPresent s)
    {action : RecordedPresence.Action} (h : RecordedPresence.step env s action = some t) :
    RecordsPresent t ↔ KeepsReported s action := by
  have ht := identified_step hs h
  cases action with
  | signal action => exact recordsPresent_signal hs ht hold h
  | record fails sessionId rowId now => exact recordsPresent_record ht h
  | cancel userId callId =>
    simp only [RecordedPresence.step] at h
    obtain ⟨run, hrun, rfl⟩ := Option.map_eq_some_iff.mp h
    exact iff_of_true (recordsPresent_elsewhere hs hold hrun) trivial
  | elsewhere db =>
    simp only [RecordedPresence.step] at h
    obtain ⟨run, hrun, rfl⟩ := Option.map_eq_some_iff.mp h
    exact iff_of_true (recordsPresent_elsewhere hs hold hrun) trivial
  | restart fails now =>
    refine iff_of_true ((recordsPresent_iff ht).mpr fun _ _ p hp => ?_) trivial
    simp only [RecordedPresence.step] at h
    obtain ⟨run, hrun, rfl⟩ := Option.map_eq_some_iff.mp h
    cases hp

theorem takenOut_idle (h : SignalingSteps.step env server action = none) :
    takenOut server action = [] := by
  cases action with
  | cleanUp p =>
    have h : SignalingSteps.cleanUp server p = none := h
    unfold SignalingSteps.cleanUp at h
    simp only [takenOut]
    split
    · rename_i hsocket
      rw [hsocket] at h
      refine if_neg fun hremoves => ?_
      simp only [hremoves.1, hremoves.2, if_true] at h
      split at h <;> cases h
    · rfl
  | evict i =>
    have h : SignalingSteps.evict server i = none := h
    unfold SignalingSteps.evict at h
    simp only [takenOut]
    split
    · rename_i heviction
      rw [heviction] at h
      refine if_neg fun hfree => ?_
      simp [hfree] at h
    · rfl
  | closeRoom i =>
    have h : SignalingSteps.closeRoom server i = none := h
    unfold SignalingSteps.closeRoom at h
    simp only [takenOut]
    split
    · rename_i hclosure
      rw [hclosure] at h
      refine if_neg fun hfree => ?_
      simp [hfree] at h
    · rfl
  | _ => rfl

theorem keepsReported_idle {action : RecordedPresence.Action}
    (h : RecordedPresence.step env s action = none) : KeepsReported s action := by
  cases action with
  | signal action =>
    intro _ _ p hp
    rw [takenOut_idle (Option.map_eq_none_iff.mp h)] at hp
    cases hp
  | record fails sessionId rowId now =>
    intro _ _ event hevent _ hfresh
    have hevent : s.server.meetingEvents[s.handled]? = some event := hevent
    simp only [RecordedPresence.step, hevent, LiveMeetings.step] at h
    rw [if_pos hfresh] at h
    cases h
  | _ => trivial

end Steps

/-! ## Runs -/

theorem recordsPresent_init (env : SignalingServer.Environment) (db : SocialDatabase) :
    RecordsPresent (system env db).init := by
  rw [recordsPresent_iff (identified_always env db []).start]
  intro _ _ p hp
  cases hp

/-- In every run, whatever the interleaving of joins, ends of sockets, evictions, closures, the
recorder and restarts: with an empty queue and no query that has failed the rows name participants
only, exactly as long as nobody is taken out of a room before their leave is reported. -/
theorem rows_recordPresence_iff (env : SignalingServer.Environment) (db : SocialDatabase)
    (actions : List RecordedPresence.Action) :
    (system env db).Always RecordsPresent (system env db).init actions ↔
      (system env db).Guarded KeepsReported (system env db).init actions :=
  System.always_iff_guarded (M := system env db) (J := Identified) (P := RecordsPresent)
    (G := KeepsReported) (fun _ _ _ hs _ h => identified_step hs h)
    (fun _ _ _ hs hold h => recordsPresent_step hs hold h) (fun _ _ h => keepsReported_idle h)
    (identified_always env db []).start (recordsPresent_init env db) actions

/-- Bob is removed from the group while he is in its call, and keeps the socket open. -/
def evictBob : List Action :=
  bobJoins ++ [.record (fun _ => false) 10 11 5] ++
    [.commitRemoval 0 2 ["room"], .denyRoomUser 0, .markDenied 0, .findForEviction 0,
      .evict 0].map .signal

/-- He still counts as in the meeting. -/
theorem evictBob_counted : ∃ accounts ∈ adaAndBob,
    let M := system ⟨(· = "room"), Char.isAlphanum⟩ (emptyDatabase accounts)
    ¬ M.Always RecordsPresent M.init evictBob := by
  obtain ⟨accounts, haccounts, hrun⟩ : ∃ accounts ∈ adaAndBob,
      let M := system ⟨(· = "room"), Char.isAlphanum⟩ (emptyDatabase accounts)
      (M.run evictBob).any (fun s => decide (s.handled = s.server.meetingEvents.length ∧
        s.run.failed = false ∧ s.server.socketTask "b" = .selecting ∧
        roomHasOthers s.run.recorder.db "room" 1 = true ∧ ¬ OthersPresent s 1 "room")) = true := by
    decide +kernel
  refine ⟨accounts, haccounts, System.not_always_of_run _ hrun fun s hfails hrecords => ?_⟩
  obtain ⟨hempty, hfailed, -, hothers, hnobody⟩ := of_decide_eq_true hfails
  exact hnobody ((hrecords hempty hfailed).others "room" 1 hothers)

end OpenMeet.CountedPresence
