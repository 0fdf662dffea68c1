import OpenMeet.CallApi
import OpenMeet.Consistency
import OpenMeet.LiveMeetings

/-!
The signaling server and the recorder side by side. The server puts joins and leaves
in a queue, and the worker takes them from it whenever it comes to them. When the queue
is empty the open rows are the joins without a leave, which are the participants of the
rooms and those who have been removed from their room while their socket is open.
-/
namespace OpenMeet.RecordedPresence

open KeyedMap Messages SocialTables CallApi MeetingRecorder LiveMeetings RoomState Repository
  SignalingServer Transitions Consistency TransitionSystem

/-! ## The two stores -/

/-- The last room of each connection that has joined and not left since. -/
def reported (events : List SignalingServer.MeetingEvent) : Map ParticipantId RoomId :=
  events.foldl (fun rooms event =>
    match event with
    | .joined roomId p _ _ => rooms.insert p roomId
    | .left p => rooms.erase p) ∅

/-- What the worker makes of an event, with the ids of the rows it may add. -/
def recorderEvent (sessionId rowId : Uuid) (now : Timestamp) :
    SignalingServer.MeetingEvent → MeetingRecorder.MeetingEvent
  | .joined roomId p userId displayName =>
    .joined sessionId rowId roomId p userId displayName now
  | .left p => .left p now

section Rooms

variable (server after : Server)

/-- Everybody in a room object with the id, which has perhaps been unmapped. -/
def occupants (roomId : RoomId) : List ParticipantId :=
  (List.range server.repository.nextRef).flatMap fun ref =>
    if (server.room ref).id = roomId then (server.room ref).participants.keys else []

def present : List ParticipantId :=
  (List.range server.repository.nextRef).flatMap fun ref => (server.room ref).participants.keys

def departed : List ParticipantId := (present server).filter (· ∉ present after)

end Rooms

structure Recording where
  server : Server
  run : RecorderRun
  /-- How many of the server's events the worker has handled. -/
  handled : Nat
  /-- Removed from their room, with no leave reported since. -/
  removed : Finset ParticipantId

inductive Action
  | signal (action : SignalingSteps.Action)
  | record (fails : RecorderQuery → Bool) (sessionId rowId : Uuid) (now : Timestamp)
  | cancel (userId callId : Uuid)
  /-- Any other request. -/
  | elsewhere (db : SocialDatabase)
  | restart (fails : RecorderQuery → Bool) (now : Timestamp)

def leaver : SignalingSteps.Action → Finset ParticipantId
  | .leave p => {p}
  | _ => ∅

def step (env : SignalingServer.Environment) (s : Recording) : Action → Option Recording
  | .signal action =>
    (SignalingSteps.step env s.server action).map fun server =>
      { s with
        server := server
        removed := (s.removed ∪ (departed s.server server).toFinset) \ leaver action }
  | .record fails sessionId rowId now =>
    match s.server.meetingEvents[s.handled]? with
    | none => none
    | some event =>
      (LiveMeetings.step s.run (.handle fails (recorderEvent sessionId rowId now event))).map
        fun run => { s with run := run, handled := s.handled + 1 }
  | .cancel userId callId =>
    (LiveMeetings.step s.run
      (.elsewhere (cancelCallSession s.run.recorder.db userId callId).db)).map
        fun run => { s with run := run }
  | .elsewhere db =>
    (LiveMeetings.step s.run (.elsewhere db)).map fun run => { s with run := run }
  -- what the queue still held is lost with the process
  | .restart fails now =>
    (LiveMeetings.step s.run (.handle fails (.restarted now))).map
      fun run => ⟨Server.initial, run, 0, ∅⟩

/-- From a first start with empty tables of meetings, over any number of restarts. -/
def system (env : SignalingServer.Environment) (db : SocialDatabase) : System Recording Action where
  init := ⟨Server.initial, (LiveMeetings.system db).init, 0, ∅⟩
  step := step env

/-- With an empty queue, and no query that has failed, whoever has an open row is in the room or
has been removed from it and not been reported to leave yet. -/
def RowsOfPresent (s : Recording) : Prop :=
  s.handled = s.server.meetingEvents.length → s.run.failed = false →
    ∀ id room p, OpenSession s.run.recorder.db id room → OpenRow s.run.recorder.db id p →
      p ∈ occupants s.server room ∨ p ∈ s.removed

/-! ## Events -/

section Events

variable {env : SignalingServer.Environment} {s t : Server} {a : SignalingSteps.Action}

@[simp] theorem reported_joined (events : List SignalingServer.MeetingEvent) (roomId : RoomId)
    (p : ParticipantId) (userId : Option Uuid) (name : String) :
    reported (events ++ [.joined roomId p userId name]) = (reported events).insert p roomId := by
  simp [reported]

@[simp] theorem reported_left (events : List SignalingServer.MeetingEvent) (p : ParticipantId) :
    reported (events ++ [.left p]) = (reported events).erase p := by
  simp [reported]

/-- An event is reported by a join, unless it is a screen share's, and by the end of a socket. -/
theorem meetingEvents_cases (h : Transition env s a t) :
    t.meetingEvents = s.meetingEvents ∧ leaver a = ∅ ∨
    (∃ p, leaver a = {p} ∧ t.meetingEvents = s.meetingEvents ++ [.left p] ∧
      t.repository = s.repository ∧ t.currentRoomId = s.currentRoomId) ∨
    ∃ p req ref existing history, s.recvTask p = .settingUpPeer req ref existing history ∧
      t = SignalingSteps.addToRoom s p req ref existing history ∧ leaver a = ∅ ∧
      t.meetingEvents =
        s.meetingEvents ++ [.joined req.roomId p (s.identity p).userId req.name] := by
  cases h with
  | leave p hsocket => exact .inr (.inl ⟨p, rfl, rfl, rfl, rfl⟩)
  | join p peer req ref existing history htask =>
    by_cases hshare : req.screenShareOf.isNone = true
    · exact .inr (.inr ⟨p, req, ref, existing, history, htask, rfl, rfl, by simp [hshare]⟩)
    · exact .inl ⟨by simp [hshare], rfl⟩
  | recv action p task messages hmove =>
    refine .inl ⟨rfl, ?_⟩
    generalize s.recvTask p = before at hmove
    cases hmove <;> rfl
  | socket action p task hmove =>
    refine .inl ⟨rfl, ?_⟩
    generalize s.socketTask p = before at hmove
    cases hmove <;> rfl
  | eviction action i e stage heviction hmove =>
    refine .inl ⟨rfl, ?_⟩
    generalize e.stage = before at hmove
    cases hmove <;> rfl
  | _ => exact .inl ⟨rfl, rfl⟩

theorem mem_present (w : Consistent s) {p : ParticipantId} :
    p ∈ present s ↔ ∃ ref, p ∈ (s.room ref).participants := by
  simp only [present, List.mem_flatMap, List.mem_range, ← AList.mem_keys]
  constructor
  · rintro ⟨ref, -, hmem⟩
    exact ⟨ref, hmem⟩
  · rintro ⟨ref, hmem⟩
    refine ⟨ref, Nat.lt_of_not_le fun hle => w.vacant ref p hle hmem, hmem⟩

/-- Whoever is in a room object is in the room it joined. -/
theorem mem_occupants (w : Consistent s) {p : ParticipantId} {roomId : RoomId} :
    p ∈ occupants s roomId ↔ p ∈ present s ∧ s.currentRoomId p = some roomId := by
  rw [mem_present w]
  simp only [occupants, List.mem_flatMap, List.mem_range]
  constructor
  · rintro ⟨ref, -, hmem⟩
    split at hmem
    · rename_i hid
      have hmem := AList.mem_keys.mpr hmem
      exact ⟨⟨ref, hmem⟩, hid ▸ w.member_room ref p hmem⟩
    · cases hmem
  · rintro ⟨⟨ref, hmem⟩, hroom⟩
    have hid : (s.room ref).id = roomId :=
      Option.some.inj ((w.member_room ref p hmem).symm.trans hroom)
    refine ⟨ref, Nat.lt_of_not_le fun hle => w.vacant ref p hle hmem, ?_⟩
    rw [if_pos hid]
    exact AList.mem_keys.mp hmem

/-- A connection that has joined a room stays bound to it. -/
theorem currentRoomId_stays (w : Consistent s) (h : Transition env s a t) {p : ParticipantId}
    {roomId : RoomId} (hroom : s.currentRoomId p = some roomId) :
    t.currentRoomId p = some roomId := by
  rcases currentRoomId_cases h p with hsame | ⟨req, ref, existing, history, -, htask, -⟩
  · rw [hsame, hroom]
  · have hnone := w.joining_outside p (by rw [htask]; rfl)
    rw [hroom] at hnone
    cases hnone

end Events

/-! ## The recorder's memory -/

section Memory

variable {s t : RecorderRun} {fails : RecorderQuery → Bool}

theorem failed_record {event : MeetingRecorder.MeetingEvent}
    (h : LiveMeetings.step s (.handle fails event) = some t) (hfailed : t.failed = false) :
    s.failed = false := by
  unfold LiveMeetings.step at h
  dsimp only at h
  split at h <;> cases h
  exact (Bool.or_eq_false_iff.mp hfailed).1

/-- As long as no query fails, the recorder knows where everybody is that it has been told of. -/
theorem participantRooms_record (hs : Tracked s) {event : SignalingServer.MeetingEvent}
    {sessionId rowId : Uuid} {now : Timestamp}
    (h : LiveMeetings.step s (.handle fails (recorderEvent sessionId rowId now event)) = some t)
    (hfailed : t.failed = false) {events : List SignalingServer.MeetingEvent}
    (hknown : ∀ p, s.recorder.live.participantRooms.lookup p = (reported events).lookup p)
    (p : ParticipantId) :
    t.recorder.live.participantRooms.lookup p = (reported (events ++ [event])).lookup p := by
  unfold LiveMeetings.step at h
  dsimp only at h
  split at h
  · cases h
    have hok : recordOk fails s.recorder (recorderEvent sessionId rowId now event) = true := by
      have hlast := (Bool.or_eq_false_iff.mp hfailed).2
      simpa using hlast
    cases event with
    | joined roomId q userId name =>
      have hmove := @recordJoin_move s.recorder fails hs.occupied sessionId rowId roomId q userId
        name now
      rw [reported_joined]
      change (recordJoin fails s.recorder sessionId rowId roomId q userId name
        now).live.participantRooms.lookup p = _
      change recordOk fails s.recorder (.joined sessionId rowId roomId q userId name now) = true
        at hok
      rw [hok] at hmove
      generalize recordJoin fails s.recorder sessionId rowId roomId q userId name now = after
        at hmove
      have hinsert : after.live.participantRooms = s.recorder.live.participantRooms.insert q roomId
        := by cases hmove <;> rfl
      rw [hinsert]
      by_cases hp : p = q
      · rw [hp, AList.lookup_insert, AList.lookup_insert]
      · rw [AList.lookup_insert_ne hp, AList.lookup_insert_ne hp, hknown]
    | left q =>
      have hmove := @Tracked.recordLeave_move s fails hs q now
      rw [reported_left]
      change (recordLeave fails s.recorder q now).1.live.participantRooms.lookup p = _
      generalize (recordLeave fails s.recorder q now).1 = after at hmove
      generalize recordOk fails s.recorder (.left q now) = ok at hmove
      by_cases hp : p = q
      · rw [hp, AList.lookup_erase]
        cases hmove with
        | unknown hunknown => exact hunknown
        | left => exact AList.lookup_erase _ _
      · rw [AList.lookup_erase_ne hp, ← hknown]
        cases hmove with
        | unknown => rfl
        | left => exact AList.lookup_erase_ne hp
  · cases h

end Memory

/-! ## Both stores over a run -/

/-- The recorder knows what it has handled, and whoever has been reported to be in a room is in
it or has been removed. -/
structure Kept (s : Recording) : Prop where
  tracked : Tracked s.run
  consistent : Consistent s.server
  handled_le : s.handled ≤ s.server.meetingEvents.length
  known : s.run.failed = false → ∀ p, s.run.recorder.live.participantRooms.lookup p =
    (reported (s.server.meetingEvents.take s.handled)).lookup p
  inside : ∀ p roomId, (reported s.server.meetingEvents).lookup p = some roomId →
    s.server.currentRoomId p = some roomId ∧ (p ∈ present s.server ∨ p ∈ s.removed)

section Steps

variable {env : SignalingServer.Environment} {s t : Recording} {server : Server}

/-- Whoever was present is so still, or has departed. -/
theorem mem_present_or_departed {p : ParticipantId} {after : Server} (h : p ∈ present server) :
    p ∈ present after ∨ p ∈ (departed server after).toFinset := by
  by_cases hafter : p ∈ present after
  · exact .inl hafter
  · refine .inr (List.mem_toFinset.mpr (List.mem_filter.mpr ⟨h, ?_⟩))
    simpa using hafter

theorem inside_signal (hs : Kept s) {action : SignalingSteps.Action}
    (h : Transition env s.server action server) (p : ParticipantId) (roomId : RoomId)
    (hreported : (reported server.meetingEvents).lookup p = some roomId) :
    server.currentRoomId p = some roomId ∧ (p ∈ present server ∨
      p ∈ (s.removed ∪ (departed s.server server).toFinset) \ leaver action) := by
  have hkept (hold : (reported s.server.meetingEvents).lookup p = some roomId)
      (hleaver : p ∉ leaver action) : server.currentRoomId p = some roomId ∧
        (p ∈ present server ∨
          p ∈ (s.removed ∪ (departed s.server server).toFinset) \ leaver action) := by
    obtain ⟨hroom, hwhere⟩ := hs.inside p roomId hold
    refine ⟨currentRoomId_stays hs.consistent h hroom, ?_⟩
    simp only [Finset.mem_sdiff, Finset.mem_union, hleaver, not_false_eq_true, and_true]
    rcases hwhere with hpresent | hremoved
    · exact (mem_present_or_departed hpresent).imp_right .inr
    · exact .inr (.inl hremoved)
  rcases meetingEvents_cases h with ⟨hsame, hleaver⟩ | ⟨q, hleaver, hleft, -⟩ |
    ⟨q, req, ref, existing, history, htask, hadd, hleaver, hjoined⟩
  · rw [hsame] at hreported
    exact hkept hreported (by simp [hleaver])
  · rw [hleft, reported_left] at hreported
    by_cases hp : p = q
    · rw [hp, AList.lookup_erase] at hreported
      cases hreported
    · rw [AList.lookup_erase_ne hp] at hreported
      exact hkept hreported (by simp [hleaver, hp])
  · rw [hjoined, reported_joined] at hreported
    by_cases hp : p = q
    · subst hp
      rw [AList.lookup_insert] at hreported
      cases hreported
      refine ⟨by simp [hadd], .inl ((mem_present (consistent_step hs.consistent h)).mpr ⟨ref, ?_⟩)⟩
      simp [hadd, Room.addParticipant, SignalingSteps.newConnection, Participant.new]
    · rw [AList.lookup_insert_ne hp] at hreported
      exact hkept hreported (by simp [hleaver])

theorem take_meetingEvents {action : SignalingSteps.Action}
    (h : Transition env s.server action server) (hle : s.handled ≤ s.server.meetingEvents.length) :
    server.meetingEvents.take s.handled = s.server.meetingEvents.take s.handled ∧
      s.handled ≤ server.meetingEvents.length := by
  have happend : ∃ later, server.meetingEvents = s.server.meetingEvents ++ later := by
    rcases meetingEvents_cases h with ⟨hsame, -⟩ | ⟨p, -, hleft, -⟩ |
      ⟨p, req, ref, existing, history, -, -, -, hjoined⟩
    · exact ⟨[], by simp [hsame]⟩
    · exact ⟨_, hleft⟩
    · exact ⟨_, hjoined⟩
  obtain ⟨later, hlater⟩ := happend
  rw [hlater, List.take_append_of_le_length hle, List.length_append]
  exact ⟨rfl, Nat.le_add_right_of_le hle⟩

theorem kept_elsewhere (hs : Kept s) {db : SocialDatabase} {run : RecorderRun}
    (h : LiveMeetings.step s.run (.elsewhere db) = some run) : Kept { s with run := run } := by
  have htracked := tracked_step hs.tracked h
  cases h
  exact { hs with tracked := htracked, known := hs.known, inside := hs.inside }

theorem kept_step (hs : Kept s) {action : Action} (h : step env s action = some t) : Kept t := by
  cases action with
  | signal action =>
    obtain ⟨server, hserver, rfl⟩ := Option.map_eq_some_iff.mp h
    have htransition := step_transition hserver
    obtain ⟨htake, hle⟩ := take_meetingEvents htransition hs.handled_le
    refine
      { tracked := hs.tracked, consistent := consistent_step hs.consistent htransition,
        handled_le := hle, known := fun hfailed p => ?_, inside := inside_signal hs htransition }
    rw [htake]
    exact hs.known hfailed p
  | record fails sessionId rowId now =>
    simp only [step] at h
    split at h
    · cases h
    · rename_i event hevent
      obtain ⟨run, hrun, rfl⟩ := Option.map_eq_some_iff.mp h
      obtain ⟨hlt, hget⟩ := List.getElem?_eq_some_iff.mp hevent
      have htake : s.server.meetingEvents.take (s.handled + 1) =
          s.server.meetingEvents.take s.handled ++ [event] := by
        rw [List.take_add_one, hevent, Option.toList_some]
      refine
        { hs with
          tracked := tracked_step hs.tracked hrun, handled_le := hlt, known := ?_
          inside := hs.inside }
      intro hfailed p
      have hbefore := failed_record hrun hfailed
      rw [htake]
      exact participantRooms_record hs.tracked hrun hfailed (hs.known hbefore) p
  | cancel userId callId =>
    simp only [step] at h
    obtain ⟨run, hrun, rfl⟩ := Option.map_eq_some_iff.mp h
    exact kept_elsewhere hs hrun
  | elsewhere db =>
    simp only [step] at h
    obtain ⟨run, hrun, rfl⟩ := Option.map_eq_some_iff.mp h
    exact kept_elsewhere hs hrun
  | restart fails now =>
    simp only [step] at h
    obtain ⟨run, hrun, rfl⟩ := Option.map_eq_some_iff.mp h
    refine
      { tracked := tracked_step hs.tracked hrun, consistent := consistent_initial,
        handled_le := Nat.zero_le _, known := ?_, inside := nofun }
    intro _ p
    cases hrun
    rfl

end Steps

theorem kept_init (env : SignalingServer.Environment) (db : SocialDatabase) :
    Kept (system env db).init where
  tracked := tracked_initial db
  consistent := consistent_initial
  handled_le := Nat.zero_le _
  known _ _ := rfl
  inside := nofun

theorem kept_always (env : SignalingServer.Environment) (db : SocialDatabase)
    (actions : List Action) : (system env db).Always Kept (system env db).init actions :=
  System.always_of_invariant (M := system env db) (I := Kept) (fun _ _ _ hs h => kept_step hs h)
    (kept_init env db) actions

/-- The open row of an open session belongs to a connection that the recorder has seen join the
session's room. -/
theorem Kept.reported_of_openRow {s : Recording} (hs : Kept s) (hfailed : s.run.failed = false)
    {id : Uuid} {room : RoomId} {p : ParticipantId}
    (hsession : OpenSession s.run.recorder.db id room) (hrow : OpenRow s.run.recorder.db id p) :
    (reported (s.server.meetingEvents.take s.handled)).lookup p = some room := by
  obtain ⟨live, hlive, rfl⟩ := (hs.tracked.sessions hfailed id room).mp hsession
  obtain ⟨other, meeting, hmeeting, heq, hp⟩ := (hs.tracked.rows hfailed live.sessionId p).mp hrow
  have hother : OpenSession s.run.recorder.db live.sessionId other :=
    (hs.tracked.sessions hfailed live.sessionId other).mpr ⟨meeting, hmeeting, heq⟩
  have hroom : other = room := hother.room_unique hsession
  rw [← hs.known hfailed, ← hroom]
  exact (hs.tracked.indexed p other).mpr ⟨meeting, hmeeting, hp⟩

/-- In every run, whatever the interleaving of joins, ends of sockets, evictions, closures, the
recorder and restarts. -/
theorem rows_of_present (env : SignalingServer.Environment) (db : SocialDatabase)
    (actions : List Action) :
    (system env db).Always RowsOfPresent (system env db).init actions := by
  refine System.always_mono (fun s hs hempty hfailed id room p hsession hrow => ?_)
    (kept_always env db actions)
  have hreported := hs.reported_of_openRow hfailed hsession hrow
  rw [hempty, List.take_length] at hreported
  obtain ⟨hroom, hpresent | hremoved⟩ := hs.inside p room hreported
  · exact .inl ((mem_occupants hs.consistent).mpr ⟨hpresent, hroom⟩)
  · exact .inr hremoved

/-- Bob's connection joins the room of a call. -/
def bobJoins : List Action :=
  [.connect "b" ⟨some 2, some "Bob"⟩, .receive "b" (.join "room" "Bob" none none),
    .authorize "b" (some ⟨false, true, true⟩), .checkRoom "b", .createRoom "b", .getRoom "b",
    .reauthorize "b" (some ⟨false, true, true⟩), .lockRoom "b",
    .finishJoin "b" (.ok ())].map .signal

end OpenMeet.RecordedPresence
