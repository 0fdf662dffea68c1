import OpenMeet.BadgeNews
import OpenMeet.MeetingSessions
import OpenMeet.SocialRuns

/-!
The calls in the badge against the rows of the history that clear them. The
badge counts a call the user missed whether or not anybody joined its room; the
history has a row for it only if the room had a meeting, and flags the row only
if the user was not in that meeting.
-/
namespace OpenMeet.CallHistory

open KeyedMap Messages Accounts SocialTables Badges CallApi MeetingSessions MeetingRecorder
  SocialRequests RequestEffects SocialRuns BadgeNews

/-! ## Rooms of calls -/

section Rooms

variable {db : SocialDatabase} {now : Timestamp} {userId id : Uuid} {call : CallSession}
  {room : RoomId}

theorem findMissedCall_some (h : findMissedCall db now userId room = some (id, call)) :
    db.calls.lookup id = some call ∧ call.sfuRoomId = room ∧
      missedCall db now userId call = true := by
  obtain ⟨row, hrow, heq⟩ := Option.map_eq_some_iff.mp h
  cases heq
  have htest := List.find?_some hrow
  rw [Bool.and_eq_true, decide_eq_true_eq] at htest
  exact ⟨AList.mem_lookup_iff.mpr (List.mem_of_find?_eq_some hrow), htest⟩

theorem findMissedCall_of_missed (hdb : UniqueRooms db) (hcall : db.calls.lookup id = some call)
    (hmissed : missedCall db now userId call = true) :
    findMissedCall db now userId call.sfuRoomId = some (id, call) := by
  cases hfound : findMissedCall db now userId call.sfuRoomId with
  | none =>
    rw [findMissedCall, Option.map_eq_none_iff, List.find?_eq_none] at hfound
    have hrow := hfound ⟨id, call⟩ (AList.mem_lookup_iff.mp hcall)
    simp [hmissed] at hrow
  | some found =>
    obtain ⟨hlookup, hroom, -⟩ := findMissedCall_some hfound
    have hid : found.1 = id := hdb _ _ _ _ hlookup hcall hroom
    rw [hid, hcall] at hlookup
    rw [← hid, Option.some.inj hlookup]

/-- The call a row links to. -/
theorem find_room_eq_some (hdb : UniqueRooms db) :
    (db.calls.entries.find? (·.2.sfuRoomId = room)).map (·.1) = some id ↔
      ∃ call, db.calls.lookup id = some call ∧ call.sfuRoomId = room := by
  constructor
  · intro h
    obtain ⟨row, hrow, rfl⟩ := Option.map_eq_some_iff.mp h
    have hroom := List.find?_some hrow
    exact ⟨row.2, AList.mem_lookup_iff.mpr (List.mem_of_find?_eq_some hrow),
      of_decide_eq_true hroom⟩
  · rintro ⟨call, hcall, hroom⟩
    cases hfound : db.calls.entries.find? (·.2.sfuRoomId = room) with
    | none =>
      have hrow := List.find?_eq_none.mp hfound ⟨id, call⟩ (AList.mem_lookup_iff.mp hcall)
      exact absurd (decide_eq_true hroom) hrow
    | some row =>
      have hlookup : db.calls.lookup row.1 = some row.2 :=
        AList.mem_lookup_iff.mpr (List.mem_of_find?_eq_some hfound)
      have hroom' := List.find?_some hfound
      rw [decide_eq_true_eq] at hroom'
      exact congrArg some (hdb _ _ _ _ hlookup hcall (hroom'.trans hroom.symm))

end Rooms

/-! ## Pages -/

section Pages

/-- Where rows have their own keys, a row is among the first of those that pass exactly if fewer
come before it. -/
theorem mem_take_filter {K Row : Type*} [DecidableEq K] {key : Row → K} {p : Row → Bool}
    {rows : List Row} {row : Row} (hkeys : (rows.map key).Nodup) (hrow : row ∈ rows)
    (hp : p row = true) (n : Nat) :
    row ∈ (rows.filter p).take n ↔ (rows.takeWhile (key · ≠ key row)).countP p < n := by
  induction rows generalizing n with
  | nil => cases hrow
  | cons first rest ih =>
    rw [List.map_cons, List.nodup_cons] at hkeys
    by_cases hfirst : key first = key row
    · have heq : first = row := by
        rcases List.mem_cons.mp hrow with heq | hrest
        · exact heq.symm
        · exact absurd (hfirst ▸ List.mem_map_of_mem hrest) hkeys.1
      subst heq
      cases n with
      | zero => simp
      | succ n => simp [hp]
    · have hrest : row ∈ rest := by
        rcases List.mem_cons.mp hrow with heq | hrest
        · exact absurd (heq ▸ rfl) hfirst
        · exact hrest
      have hne : first ≠ row := fun heq => hfirst (heq ▸ rfl)
      rw [List.takeWhile_cons_of_pos (by simpa using hfirst)]
      cases hpass : p first with
      | false =>
        rw [List.filter_cons_of_neg (by simp [hpass]), List.countP_cons_of_neg (by simp [hpass])]
        exact ih hkeys.2 hrest n
      | true =>
        rw [List.filter_cons_of_pos hpass, List.countP_cons_of_pos hpass]
        cases n with
        | zero => simp
        | succ n =>
          rw [List.take_succ_cons, List.mem_cons, or_iff_right hne.symm, ih hkeys.2 hrest n]
          omega

variable {env : Environment} {db : SocialDatabase} {now : Timestamp} {userId : Uuid}

/-- The sessions that start when this one does and are listed before it. -/
def tiedBefore (db : SocialDatabase) (now : Timestamp) (userId sessionId : Uuid)
    (meeting : MeetingSession) : Nat :=
  ((listedSessions db now userId).takeWhile (·.1 ≠ sessionId)).countP fun row =>
    row.2.startedAt = meeting.startedAt

theorem mem_listedSessions {sessionId : Uuid} {meeting : MeetingSession} :
    (sessionId, meeting) ∈ listedSessions db now userId ↔
      db.meetings.lookup sessionId = some meeting ∧
        (attended userId meeting || missedRoom db now userId meeting.sfuRoomId) = true := by
  simp only [listedSessions, (orderByDesc_perm _ _).mem_iff, List.mem_filter, List.mem_map,
    ← Option.mem_def, AList.mem_lookup_iff]
  refine and_congr_left fun _ => ?_
  constructor
  · rintro ⟨row, hrow, heq⟩
    cases heq
    exact hrow
  · exact fun hrow => ⟨_, hrow, rfl⟩

theorem nodup_listedSessions : ((listedSessions db now userId).map Prod.fst).Nodup := by
  have hkeys : ((db.meetings.entries.map fun row => (row.1, row.2)).map Prod.fst).Nodup := by
    rw [List.map_map]
    exact db.meetings.nodupKeys
  exact ((orderByDesc_perm _ _).map _).nodup_iff.mpr
    (hkeys.sublist (List.filter_sublist.map _))

theorem listedSessions_pairwise : (listedSessions db now userId).Pairwise fun a b =>
    b.2.startedAt ≤ a.2.startedAt :=
  orderByDesc_pairwise _ _

/-- The sessions of a page. -/
def pageSessions (db : SocialDatabase) (now : Timestamp) (userId : Uuid)
    (before : Option Timestamp) (limit : Option Int) : List (Uuid × MeetingSession) :=
  ((listedSessions db now userId).filter fun row => before.all (row.2.startedAt < ·)).take
    (pageLimit limit)

theorem pageLimit_le (limit : Option Int) : pageLimit limit ≤ 50 := by
  unfold pageLimit maxPageSize
  omega

/-- What is listed before a session does not start earlier. -/
theorem le_startedAt {sessionId : Uuid} {meeting : MeetingSession} {row : Uuid × MeetingSession}
    (hlisted : (sessionId, meeting) ∈ listedSessions db now userId)
    (hrow : row ∈ (listedSessions db now userId).takeWhile (·.1 ≠ sessionId)) :
    meeting.startedAt ≤ row.2.startedAt := by
  have hsplit := List.takeWhile_append_dropWhile (p := fun row => decide (row.1 ≠ sessionId))
    (l := listedSessions db now userId)
  have hsorted : (listedSessions db now userId).Pairwise fun a b => b.2.startedAt ≤ a.2.startedAt :=
    listedSessions_pairwise
  rw [← hsplit, List.pairwise_append] at hsorted
  refine hsorted.2.2 row hrow (sessionId, meeting) ?_
  rw [← hsplit, List.mem_append] at hlisted
  refine hlisted.resolve_left fun htaken => ?_
  have hpass := List.all_eq_true.mp List.all_takeWhile _ htaken
  simp at hpass

/-- Some page has the session exactly if fewer than a page of those listed before it start when it
does. -/
theorem exists_page_iff {sessionId : Uuid} {meeting : MeetingSession} :
    (∃ before limit, (sessionId, meeting) ∈ pageSessions db now userId before limit) ↔
      (sessionId, meeting) ∈ listedSessions db now userId ∧
        tiedBefore db now userId sessionId meeting < 50 := by
  constructor
  · rintro ⟨before, limit, hpage⟩
    have hfound := List.mem_of_mem_take hpage
    obtain ⟨hlisted, hbefore⟩ := List.mem_filter.mp hfound
    refine ⟨hlisted, ?_⟩
    rw [pageSessions, mem_take_filter nodup_listedSessions hlisted hbefore] at hpage
    refine (List.countP_mono_left ?_).trans_lt (hpage.trans_le (pageLimit_le limit))
    simp only [decide_eq_true_eq]
    intro row _ htied
    rw [htied]
    exact hbefore
  · rintro ⟨hlisted, htied⟩
    refine ⟨some (meeting.startedAt + 1), some 50, ?_⟩
    rw [pageSessions, mem_take_filter nodup_listedSessions hlisted (by simp)]
    refine lt_of_eq_of_lt (List.countP_congr fun row hrow => ?_) htied
    have hle := le_startedAt hlisted hrow
    rw [Option.all_some, decide_eq_true_eq, decide_eq_true_eq, Nat.lt_succ_iff]
    exact ⟨fun h => h.antisymm hle, fun h => h.le⟩

end Pages

/-! ## Rows -/

section Rows

variable {env : Environment} {db : SocialDatabase} {now : Timestamp} {userId : Uuid}

/-- A flagged row is of a session the user did not attend, in the room of a missed call. -/
theorem mem_applyMissedFlags (meetings : List MeetingSessionResponse)
    (hfresh : ∀ meeting ∈ meetings, meeting.missed = false) {row : MeetingSessionResponse} :
    (row ∈ applyMissedFlags db now userId meetings ∧ row.missed = true ∧ row.unread = true) ↔
      ∃ meeting ∈ meetings, (db.meetings.lookup meeting.id).any (attended userId) = false ∧
        (∃ call, findMissedCall db now userId meeting.roomId = some call ∧
          userId ∉ call.2.readBy) ∧
        row = { meeting with missed := true, unread := true } := by
  have hroom : ∀ meeting ∈ meetings,
      (db.meetings.lookup meeting.id).any (attended userId) = false →
      meeting.roomId ∈ (meetings.filter fun meeting =>
        !(db.meetings.lookup meeting.id).any (attended userId)).map (·.roomId) :=
    fun meeting hmeeting hnot => List.mem_map.mpr
      ⟨meeting, List.mem_filter.mpr ⟨hmeeting, by simp [hnot]⟩, rfl⟩
  simp only [applyMissedFlags, List.mem_map]
  constructor
  · rintro ⟨⟨meeting, hmeeting, rfl⟩, hmissed, hunread⟩
    cases hattended : (db.meetings.lookup meeting.id).any (attended userId) with
    | true =>
      rw [if_pos hattended, hfresh meeting hmeeting] at hmissed
      cases hmissed
    | false =>
      refine ⟨meeting, hmeeting, hattended, ?_⟩
      have hrooms := hroom meeting hmeeting hattended
      rw [if_neg (by simp [hattended])] at hmissed hunread ⊢
      simp only [missedCalls, if_pos hrooms] at hmissed hunread ⊢
      cases hcall : findMissedCall db now userId meeting.roomId with
      | none =>
        rw [hcall, Option.map_none] at hmissed
        rw [hfresh meeting hmeeting] at hmissed
        cases hmissed
      | some call =>
        rw [hcall, Option.map_some] at hunread
        have hnot : userId ∉ call.2.readBy := by simpa using hunread
        exact ⟨⟨call, rfl, hnot⟩, by simp [hnot]⟩
  · rintro ⟨meeting, hmeeting, hattended, ⟨call, hcall, hnot⟩, rfl⟩
    refine ⟨⟨meeting, hmeeting, ?_⟩, rfl, rfl⟩
    have hrooms := hroom meeting hmeeting hattended
    rw [if_neg (by simp [hattended])]
    simp only [missedCalls, if_pos hrooms, hcall, Option.map_some]
    simp [hnot]

/-- Some page shows the row as missed and unread. -/
def ShownRow (env : Environment) (db : SocialDatabase) (now : Timestamp) (userId : Uuid)
    (row : MeetingSessionResponse) : Prop :=
  ∃ before limit, row ∈ (listMeetingSessions env db now userId before limit).meetings ∧
    row.missed = true ∧ row.unread = true

theorem missedRoom_iff {room : RoomId} : missedRoom db now userId room = true ↔
    ∃ call, findMissedCall db now userId room = some call := by
  rw [← Option.isSome_iff_exists, findMissedCall, Option.isSome_map, List.find?_isSome, missedRoom,
    List.any_eq_true]

/-- A session has such a row exactly if the user was not in it and missed its call, and not too many
sessions start with it. -/
theorem exists_shownRow_iff {sessionId : Uuid} {callId : Option Uuid} :
    (∃ row, ShownRow env db now userId row ∧ row.id = sessionId ∧ row.callSessionId = callId) ↔
      ∃ meeting, db.meetings.lookup sessionId = some meeting ∧ attended userId meeting = false ∧
        (∃ call, findMissedCall db now userId meeting.sfuRoomId = some call ∧
          userId ∉ call.2.readBy) ∧
        tiedBefore db now userId sessionId meeting < 50 ∧
        (db.calls.entries.find? (·.2.sfuRoomId = meeting.sfuRoomId)).map (·.1) = callId := by
  have hpage : ∀ before limit row,
      (row ∈ (listMeetingSessions env db now userId before limit).meetings ∧ row.missed = true ∧
        row.unread = true) ↔ _ := fun before limit row =>
    mem_applyMissedFlags (meetingResponses env db userId
      (pageSessions db now userId before limit) (some previewPeople)) fun meeting hmeeting => by
        obtain ⟨session, -, rfl⟩ := List.mem_map.mp hmeeting
        rfl
  constructor
  · rintro ⟨row, ⟨before, limit, hrow⟩, rfl, rfl⟩
    obtain ⟨response, hresponse, hattended, hcall, rfl⟩ := (hpage before limit row).mp hrow
    obtain ⟨⟨id, meeting⟩, hsession, rfl⟩ := List.mem_map.mp hresponse
    obtain ⟨hlisted, htied⟩ := exists_page_iff.mp ⟨before, limit, hsession⟩
    have hlookup := (mem_listedSessions.mp hlisted).1
    rw [hlookup] at hattended
    exact ⟨meeting, hlookup, hattended, hcall, htied, rfl⟩
  · rintro ⟨meeting, hlookup, hattended, ⟨call, hcall, hnot⟩, htied, rfl⟩
    have hlisted : (sessionId, meeting) ∈ listedSessions db now userId :=
      mem_listedSessions.mpr ⟨hlookup, by simp [missedRoom_iff.mpr ⟨call, hcall⟩]⟩
    obtain ⟨before, limit, hsession⟩ := exists_page_iff.mpr ⟨hlisted, htied⟩
    refine ⟨_, ⟨before, limit, (hpage before limit _).mpr
      ⟨_, List.mem_map_of_mem hsession, ?_, ⟨call, hcall, hnot⟩, rfl⟩⟩, rfl, rfl⟩
    rw [hlookup]
    exact hattended

end Rows

/-! ## Marking rows as read -/

section Marking

variable {env : Environment} {db : SocialDatabase} {now : Timestamp} {userId : Uuid}

def markAllRead (env : Environment) (db : SocialDatabase) (now : Timestamp) (userId : Uuid)
    (sessionIds : List Uuid) : SocialDatabase :=
  runRequests env db (sessionIds.map fun id => (now, userId, .markMeetingRead id))

theorem markMeetingRead_meetings (sessionId : Uuid) :
    (markMeetingRead db now userId sessionId).db.meetings = db.meetings := by
  unfold markMeetingRead
  repeat' split
  all_goals rfl

/-- A mark takes the calls of its session's room out of the badge. -/
theorem mem_countedCalls_markMeetingRead {sessionId callId : Uuid} (hdb : UniqueRooms db) :
    callId ∈ countedCalls (markMeetingRead db now userId sessionId).db now userId ↔
      ∃ call, db.calls.lookup callId = some call ∧ callCounts db now userId call = true ∧
        ∀ meeting, db.meetings.lookup sessionId = some meeting →
          call.sfuRoomId ≠ meeting.sfuRoomId := by
  unfold markMeetingRead
  cases hmeeting : db.meetings.lookup sessionId with
  | none => simp [countedCalls, Outcome.refuse]
  | some meeting =>
    simp only [Option.some.injEq, forall_eq']
    cases hfound : findMissedCall db now userId meeting.sfuRoomId with
    | none =>
      simp only [countedCalls, Map.mem_matching]
      refine exists_congr fun call => and_congr_right fun hcall => ?_
      refine (and_iff_left_of_imp fun hcounts hroom => ?_).symm
      have hmissed := (Bool.and_eq_true _ _ ▸ hcounts).1
      rw [← hroom, findMissedCall_of_missed hdb hcall hmissed] at hfound
      cases hfound
    | some found =>
      obtain ⟨hlookup, hroom, -⟩ := findMissedCall_some hfound
      simp only [countedCalls, Map.mem_matching, modifyCall, Map.lookup_modify]
      by_cases hid : callId = found.1
      · subst hid
        simp [hlookup, callCounts, hroom]
      · simp only [if_neg hid]
        refine exists_congr fun call => and_congr_right fun hcall => ?_
        exact (and_iff_left_of_imp fun _ hsameRoom =>
          hid (hdb _ _ _ _ hcall hlookup (hsameRoom.trans hroom.symm))).symm

theorem mem_countedCalls_markAllRead {sessionIds : List Uuid} {callId : Uuid}
    (hdb : UniqueRooms db) :
    callId ∈ countedCalls (markAllRead env db now userId sessionIds) now userId ↔
      ∃ call, db.calls.lookup callId = some call ∧ callCounts db now userId call = true ∧
        ∀ sessionId ∈ sessionIds, ∀ meeting, db.meetings.lookup sessionId = some meeting →
          call.sfuRoomId ≠ meeting.sfuRoomId := by
  induction sessionIds generalizing db with
  | nil => simp [markAllRead, runRequests, countedCalls]
  | cons first rest ih =>
    have hcarries : CarriesCalls db (markMeetingRead db now userId first).db :=
      (markMeetingRead_carries first).calls
    have hstep : callId ∈ countedCalls (markAllRead env db now userId (first :: rest)) now userId ↔
        callId ∈ countedCalls
          (markAllRead env (markMeetingRead db now userId first).db now userId rest) now userId :=
      Iff.rfl
    rw [hstep, ih (uniqueRooms_of_callsGrow hcarries.grow hdb), markMeetingRead_meetings]
    constructor
    · rintro ⟨marked, hmarked, hcounts, hrest⟩
      obtain ⟨call, hcall, hcounts', hfirst⟩ := (mem_countedCalls_markMeetingRead hdb).mp
        (Map.mem_matching.mpr ⟨marked, hmarked, hcounts⟩)
      obtain ⟨earlier, hearlier, hcarried⟩ := hcarries callId marked hmarked
      obtain rfl := Option.some.inj (hcall.symm.trans hearlier)
      rw [hcarried.sfuRoomId] at hrest
      exact ⟨call, hcall, hcounts', List.forall_mem_cons.mpr ⟨hfirst, hrest⟩⟩
    · rintro ⟨call, hcall, hcounts, hrooms⟩
      obtain ⟨hfirst, hrest⟩ := List.forall_mem_cons.mp hrooms
      obtain ⟨marked, hmarked, hcounts'⟩ := Map.mem_matching.mp
        ((mem_countedCalls_markMeetingRead hdb).mpr ⟨call, hcall, hcounts, hfirst⟩)
      obtain ⟨earlier, hearlier, hcarried⟩ := hcarries callId marked hmarked
      obtain rfl := Option.some.inj (hcall.symm.trans hearlier)
      exact ⟨marked, hmarked, hcounts', by rwa [hcarried.sfuRoomId]⟩

end Marking

/-! ## Clearing the badge -/

/-- The calls in the badge are those the pages show as missed and unread, and marking these rows as
read, in any order, empties it. -/
structure CallsClearable (env : Environment) (db : SocialDatabase) (now : Timestamp)
    (userId : Uuid) : Prop where
  shown : ∀ callId, callId ∈ countedCalls db now userId ↔
    ∃ row, ShownRow env db now userId row ∧ row.callSessionId = some callId
  cleared : ∀ sessionIds,
    (∀ id, id ∈ sessionIds ↔ ∃ row, ShownRow env db now userId row ∧ row.id = id) →
      (loadBadges (markAllRead env db now userId sessionIds) now userId).calls = 0

/-- Every unread missed call had a meeting the user was not in, and fewer than a page of the
sessions that start with it are listed before it. -/
def MissedCallsListed (db : SocialDatabase) (now : Timestamp) (userId : Uuid) : Prop :=
  ∀ callId call, db.calls.lookup callId = some call → callCounts db now userId call = true →
    ∃ sessionId meeting, db.meetings.lookup sessionId = some meeting ∧
      meeting.sfuRoomId = call.sfuRoomId ∧ attended userId meeting = false ∧
      tiedBefore db now userId sessionId meeting < 50

section Clearing

variable {env : Environment} {db : SocialDatabase} {now : Timestamp} {userId : Uuid}

theorem callsClearable_iff_of_uniqueRooms (hdb : UniqueRooms db) :
    CallsClearable env db now userId ↔ MissedCallsListed db now userId := by
  -- a counted call is shown if its room has a meeting for it
  have hshown : ∀ callId call, db.calls.lookup callId = some call →
      callCounts db now userId call = true → ∀ sessionId meeting,
      db.meetings.lookup sessionId = some meeting → meeting.sfuRoomId = call.sfuRoomId →
      attended userId meeting = false → tiedBefore db now userId sessionId meeting < 50 →
      ∃ row, ShownRow env db now userId row ∧ row.id = sessionId ∧
        row.callSessionId = some callId := by
    intro callId call hcall hcounts sessionId meeting hmeeting hroom hattended htied
    obtain ⟨hmissed, hunread⟩ := Bool.and_eq_true_iff.mp hcounts
    have hfound := findMissedCall_of_missed hdb hcall hmissed
    exact exists_shownRow_iff.mpr ⟨meeting, hmeeting, hattended,
      ⟨(callId, call), hroom ▸ hfound, of_decide_eq_true hunread⟩, htied,
      (find_room_eq_some hdb).mpr ⟨call, hcall, hroom.symm⟩⟩
  constructor
  · intro hclearable callId call hcall hcounts
    obtain ⟨row, hrow, hid⟩ :=
      (hclearable.shown callId).mp (Map.mem_matching.mpr ⟨call, hcall, hcounts⟩)
    obtain ⟨meeting, hmeeting, hattended, -, htied, hfind⟩ :=
      exists_shownRow_iff.mp ⟨row, hrow, rfl, hid⟩
    obtain ⟨found, hfound, hroom⟩ := (find_room_eq_some hdb).mp hfind
    obtain rfl := Option.some.inj (hcall.symm.trans hfound)
    exact ⟨row.id, meeting, hmeeting, hroom.symm, hattended, htied⟩
  · intro hlisted
    constructor
    · intro callId
      constructor
      · intro hcounted
        obtain ⟨call, hcall, hcounts⟩ := Map.mem_matching.mp hcounted
        obtain ⟨sessionId, meeting, hmeeting, hroom, hattended, htied⟩ :=
          hlisted callId call hcall hcounts
        obtain ⟨row, hrow, -, hid⟩ := hshown callId call hcall hcounts sessionId meeting hmeeting
          hroom hattended htied
        exact ⟨row, hrow, hid⟩
      · rintro ⟨row, hrow, hid⟩
        obtain ⟨meeting, -, -, ⟨⟨foundId, found⟩, hfound, hnot⟩, -, hfind⟩ :=
          exists_shownRow_iff.mp ⟨row, hrow, rfl, hid⟩
        obtain ⟨hlookup, hroom, hmissed⟩ := findMissedCall_some hfound
        obtain ⟨call, hcall, hroom'⟩ := (find_room_eq_some hdb).mp hfind
        obtain rfl := hdb _ _ _ _ hcall hlookup (hroom'.trans hroom.symm)
        refine Map.mem_matching.mpr ⟨found, hlookup, ?_⟩
        rw [callCounts, hmissed, Bool.true_and]
        exact decide_eq_true hnot
    · intro sessionIds hids
      have hnone : countedCalls (markAllRead env db now userId sessionIds) now userId = [] := by
        refine List.eq_nil_iff_forall_not_mem.mpr fun callId hcounted => ?_
        obtain ⟨call, hcall, hcounts, hrooms⟩ := (mem_countedCalls_markAllRead hdb).mp hcounted
        obtain ⟨sessionId, meeting, hmeeting, hroom, hattended, htied⟩ :=
          hlisted callId call hcall hcounts
        obtain ⟨row, hrow, hid, -⟩ := hshown callId call hcall hcounts sessionId meeting hmeeting
          hroom hattended htied
        exact hrooms sessionId ((hids sessionId).mpr ⟨row, hrow, hid⟩) meeting hmeeting hroom.symm
      rw [loadBadges, hnone, List.length_nil]

end Clearing

/-- In every state reached, the badge of calls can be cleared exactly if every call in it has a
meeting in the history that the user was not in. -/
theorem callsClearable_iff (env : Environment) (accounts : Accounts.Database)
    (events : List SocialEvent) (now : Timestamp) (userId : Uuid) :
    CallsClearable env (runEvents env (emptyRecorder accounts) events).db now userId ↔
      MissedCallsListed (runEvents env (emptyRecorder accounts) events).db now userId :=
  callsClearable_iff_of_uniqueRooms (runEvents_uniqueRooms (emptyRecorder_uniqueRooms accounts) _)

/-- Ada calls her group, which Bob has joined, and gives up before anyone enters the room. -/
def callAndCancel : List SocialEvent :=
  [.request 0 1 (.createGroup 10 "" ⟨"Team", .open, none, []⟩), .request 1 2 (.joinGroup 10 none),
    .request 2 1 (.startCallSession 10 50 "room"), .request 3 1 (.cancelCallSession 50)]

/-- The call is in Bob's badge, and no row of his history is about it. -/
theorem callAndCancel_stuck : ∃ accounts ∈ adaAndBob,
    ¬ CallsClearable plainHashing
      (runEvents plainHashing (emptyRecorder accounts) callAndCancel).db 4 2 := by
  obtain ⟨accounts, haccounts, hcounted, hmeetings⟩ : ∃ accounts ∈ adaAndBob,
      let db := (runEvents plainHashing (emptyRecorder accounts) callAndCancel).db
      50 ∈ countedCalls db 4 2 ∧ db.meetings.keys = [] := by
    decide +kernel
  refine ⟨accounts, haccounts, fun hclearable => ?_⟩
  obtain ⟨row, hrow, -⟩ := (hclearable.shown 50).mp hcounted
  obtain ⟨meeting, hlookup, -⟩ := exists_shownRow_iff.mp ⟨row, hrow, rfl, rfl⟩
  have hmem := AList.mem_keys.mp (AList.lookup_isSome.mp (Option.isSome_of_eq_some hlookup))
  rw [hmeetings] at hmem
  cases hmem

end OpenMeet.CallHistory
