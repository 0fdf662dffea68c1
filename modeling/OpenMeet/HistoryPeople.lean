import Mathlib.Data.Finset.Card
import Mathlib.Order.Lattice.Nat
import Mathlib.Order.WithBot
import OpenMeet.EndedMeetings
import OpenMeet.Grouping
import OpenMeet.HistoryPages

/-!
The people of a meeting in the history, in its detail and in the summary of its
room. The connections of all the meetings of a page are read with one limit, by
the time they were joined; so how many of a meeting's connections are read
depends on the other meetings of the page, and the latest ones are left out of a
meeting with too many.
-/
namespace OpenMeet.HistoryPeople

open KeyedMap Messages Accounts SocialTables MeetingSessions CallHistory HistoryPages EndedMeetings
open Grouping
open SocialRequests (emptyDatabase)
open BadgeNews (plainHashing adaAndBob)

/-! ## The detail of a meeting -/

/-- Meetings someone neither attended nor missed a call for look the same as meetings that do not
exist. -/
def getMeetingSession (env : Environment) (db : SocialDatabase) (now : Timestamp)
    (userId sessionId : Uuid) : Except ApiError MeetingSessionResponse :=
  match db.meetings.lookup sessionId with
  | none => .error meetingNotFound
  | some session =>
    if !attended userId session &&
        (missedCalls db now userId [session.sfuRoomId] session.sfuRoomId).isNone then
      .error meetingNotFound
    else
      match (applyMissedFlags db now userId
          (meetingResponses env db userId [(sessionId, session)] none)).getLast? with
      | none => .error meetingNotFound
      | some meeting => .ok meeting

/-! ## People as groups of connections -/

def startPerson (viewerId : Option Uuid) (connection : Connection) : MeetingPerson where
  userId := connection.userId
  name := connection.accountName.getD connection.displayName
  nickname := connection.nickname
  avatarUrl := connection.avatarUrl
  joinedAt := connection.joinedAt
  leftAt := connection.leftAt
  isYou := viewerId.isSome && connection.userId = viewerId

def mergePerson (person : MeetingPerson) (connection : Connection) : MeetingPerson :=
  { person with leftAt := latestLeft person.leftAt connection.leftAt }

/-- Nobody leaves later than one who is still there. -/
def departure (leftAt : Option Timestamp) : WithTop ℕ := leftAt

section People

variable {env : Environment} {viewerId : Option Uuid} {userId : Uuid}
  {connections kept extra : List Connection}

theorem addConnection_eq : addConnection env viewerId =
    addRow (personKey env) (startPerson viewerId) mergePerson := by
  funext people connection
  unfold addConnection addRow
  dsimp only
  congr 1
  apply List.map_congr_left
  intro person _
  split
  · rename_i hkey
    rw [hkey]
    rfl
  · rfl

theorem departure_latestLeft (a b : Option Timestamp) :
    departure (latestLeft a b) = max (departure a) (departure b) := by
  cases a with
  | none => exact (max_eq_left le_top).symm
  | some previous =>
    cases b with
    | none => exact (max_eq_right le_top).symm
    | some current => exact WithTop.coe_max previous current

theorem absorbing : Absorbing (startPerson viewerId) mergePerson
    (fun person => departure person.leftAt) fun connection => departure connection.leftAt where
  value_start _ := rfl
  value_merge person connection := departure_latestLeft _ _
  absorb person connection h := by
    have hleft : latestLeft person.leftAt connection.leftAt = person.leftAt := by
      have hmax := departure_latestLeft person.leftAt connection.leftAt
      rwa [max_eq_left h] at hmax
    rw [mergePerson, hleft]

/-- The people who have joined, in the order in which they first did. -/
def peopleOf (env : Environment) (connections : List Connection) : List PersonKey :=
  keysOf (personKey env) connections

/-- The first other people, who are shown in a row of the history. -/
def others (env : Environment) (userId : Uuid) (connections : List Connection) : List PersonKey :=
  ((peopleOf env connections).filter (· ≠ .user userId)).take previewPeople

def personOf (env : Environment) (viewerId : Option Uuid) (connections : List Connection)
    (key : PersonKey) : Option MeetingPerson :=
  groupOf (personKey env) (startPerson viewerId) mergePerson connections key

theorem length_groupPeople : (groupPeople env connections viewerId).length =
    (peopleOf env connections).length := by
  rw [groupPeople, addConnection_eq, List.length_map, peopleOf,
    ← map_fst_foldl (startPerson viewerId) mergePerson, List.length_map]

theorem isYou_foldl (person : MeetingPerson) :
    (connections.foldl mergePerson person).isYou = person.isYou := by
  induction connections generalizing person with
  | nil => rfl
  | cons first rest ih => exact ih _

theorem isYou_personOf {key : PersonKey} {person : MeetingPerson}
    (h : personOf env (some userId) connections key = some person) :
    person.isYou = decide (key = .user userId) := by
  unfold personOf groupOf at h
  cases hrows : connections.filter (fun c => decide (personKey env c = key)) with
  | nil =>
    rw [hrows] at h
    cases h
  | cons first rest =>
    have hfirst : personKey env first = key := by
      obtain ⟨-, hkey⟩ := List.mem_filter.mp (hrows ▸ List.mem_cons_self)
      exact of_decide_eq_true hkey
    rw [hrows] at h
    cases h
    rw [isYou_foldl, startPerson, ← hfirst, personKey]
    cases first.userId <;> simp

/-- The people shown in a row of the history. -/
def preview (env : Environment) (userId : Uuid) (connections : List Connection) :
    List MeetingPerson :=
  ((groupPeople env connections (some userId)).filter fun p => !p.isYou).take previewPeople

theorem map_some_preview : (preview env userId connections).map some =
    (others env userId connections).map (personOf env (some userId) connections) := by
  have hgroup : ∀ row ∈ connections.foldl (addConnection env (some userId)) [],
      personOf env (some userId) connections row.1 = some row.2 := by
    intro row hrow
    rw [addConnection_eq] at hrow
    exact groupOf_of_mem hrow
  have hkeys : (connections.foldl (addConnection env (some userId)) []).map Prod.fst =
      peopleOf env connections := by
    rw [addConnection_eq]
    exact map_fst_foldl ..
  unfold preview others groupPeople
  rw [← hkeys, List.filter_map, List.filter_map, ← List.map_take, ← List.map_take, List.map_map,
    List.map_map]
  have hfilter : (connections.foldl (addConnection env (some userId)) []).filter
      ((fun p : MeetingPerson => !p.isYou) ∘ fun row => row.2) =
        (connections.foldl (addConnection env (some userId)) []).filter
          ((fun key : PersonKey => decide (key ≠ .user userId)) ∘ Prod.fst) := by
    apply List.filter_congr
    intro row hrow
    simp [isYou_personOf (hgroup row hrow)]
  rw [hfilter]
  apply List.map_congr_left
  intro row hrow
  have hmem := List.mem_of_mem_filter (List.mem_of_mem_take hrow)
  exact (hgroup row hmem).symm

/-- The connections that only the longer read has change nothing that is shown: their people are
there already, and those shown were still there when these connections ended. -/
def Alike (env : Environment) (userId : Uuid) (kept extra : List Connection) : Prop :=
  ∀ c ∈ extra, personKey env c ∈ peopleOf env kept ∧
    (personKey env c ∈ others env userId kept → ∃ old ∈ kept,
      personKey env old = personKey env c ∧ departure c.leftAt ≤ departure old.leftAt)

/-- The shorter and the longer read show the same people, and as many of them. -/
theorem shows_same_iff :
    ((groupPeople env kept (some userId)).length =
        (groupPeople env (kept ++ extra) (some userId)).length ∧
      preview env userId kept = preview env userId (kept ++ extra)) ↔
    Alike env userId kept extra := by
  have hlength : (groupPeople env kept (some userId)).length =
      (groupPeople env (kept ++ extra) (some userId)).length ↔
        ∀ c ∈ extra, personKey env c ∈ peopleOf env kept := by
    rw [length_groupPeople, length_groupPeople, eq_comm]
    exact length_keysOf_append
  rw [hlength]
  have hpreview (hknown : ∀ c ∈ extra, personKey env c ∈ peopleOf env kept) :
      preview env userId kept = preview env userId (kept ++ extra) ↔
        ∀ key ∈ others env userId kept,
          personOf env (some userId) (kept ++ extra) key = personOf env (some userId) kept key := by
    have hothers : others env userId (kept ++ extra) = others env userId kept := by
      unfold others peopleOf
      rw [keysOf_append hknown]
    rw [← List.map_inj_right (f := some) fun _ _ => Option.some.inj, map_some_preview,
      map_some_preview, hothers, List.map_inj_left]
    exact forall₂_congr fun _ _ => eq_comm
  have hperson : ∀ key ∈ others env userId kept,
      (personOf env (some userId) (kept ++ extra) key = personOf env (some userId) kept key ↔
        ∀ c ∈ extra, personKey env c = key → ∃ old ∈ kept, personKey env old = key ∧
          departure c.leftAt ≤ departure old.leftAt) := by
    intro key hkey
    have hmem : key ∈ keysOf (personKey env) kept :=
      List.mem_of_mem_filter (List.mem_of_mem_take hkey)
    obtain ⟨person, hperson⟩ := Option.isSome_iff_exists.mp
      ((groupOf_isSome (startPerson (some userId)) mergePerson).mpr hmem)
    exact absorbing.groupOf_append_eq_iff hperson
  constructor
  · intro h c hc
    obtain ⟨hknown, hshown⟩ := h
    refine ⟨hknown c hc, fun hother => ?_⟩
    exact (hperson _ hother).mp ((hpreview hknown).mp hshown _ hother) c hc rfl
  · intro h
    have hknown := fun c hc => (h c hc).1
    refine ⟨hknown, (hpreview hknown).mpr fun key hkey => (hperson key hkey).mpr ?_⟩
    intro c hc heq
    subst heq
    exact (h c hc).2 hkey

end People

/-! ## What is read of a meeting -/

section Ordering

variable {Row : Type*} {r : Row → Row → Prop} [DecidableRel r] [IsTrans Row r]

/-- Putting a row in its place among those that pass a test does not depend on the others. -/
theorem filter_orderedInsert (p : Row → Bool) (row : Row) {rows : List Row}
    (hsorted : rows.Pairwise r) : (rows.orderedInsert r row).filter p =
      if p row = true then (rows.filter p).orderedInsert r row else rows.filter p := by
  induction rows with
  | nil => cases hrow : p row <;> simp [hrow]
  | cons first rest ih =>
    obtain ⟨hfirst, hrest⟩ := List.pairwise_cons.mp hsorted
    by_cases hle : r row first
    · have hall : ∀ other ∈ (first :: rest).filter p, r row other := by
        intro other hother
        rcases List.mem_cons.mp (List.mem_of_mem_filter hother) with rfl | hmem
        · exact hle
        · exact IsTrans.trans _ _ _ hle (hfirst other hmem)
      rw [List.orderedInsert_cons_of_le r rest hle, List.filter_cons]
      split
      · cases hkept : (first :: rest).filter p with
        | nil => rfl
        | cons head tail =>
          exact (List.orderedInsert_cons_of_le r tail
            (hall head (hkept ▸ List.mem_cons_self))).symm
      · rfl
    · rw [List.orderedInsert_of_not_le r rest hle, List.filter_cons, List.filter_cons, ih hrest]
      cases p first with
      | false => rfl
      | true =>
        rw [if_pos rfl, if_pos rfl]
        split
        · exact (List.orderedInsert_of_not_le r _ hle).symm
        · rfl

/-- Rows that tie keep their order, so those of one kind are ordered among themselves. -/
theorem filter_insertionSort [Std.Total r] (p : Row → Bool) (rows : List Row) :
    (rows.insertionSort r).filter p = (rows.filter p).insertionSort r := by
  induction rows with
  | nil => rfl
  | cons first rest ih =>
    rw [List.insertionSort_cons, filter_orderedInsert p first (List.pairwise_insertionSort r rest),
      ih, List.filter_cons]
    split <;> rfl

theorem filter_take (p : Row → Bool) (rows : List Row) (n : ℕ) :
    (rows.take n).filter p = (rows.filter p).take ((rows.take n).countP p) := by
  conv_rhs => rw [← List.take_append_drop n rows, List.filter_append]
  rw [List.take_append_drop, List.countP_eq_length_filter, List.take_left]

end Ordering

/-- The connections of the meetings, by the time they were joined. -/
def joined (db : SocialDatabase) (sessionIds : List Uuid) : List Connection :=
  ((db.meetings.entries.filter fun row => row.1 ∈ sessionIds).flatMap fun row =>
    row.2.participants.entries.map fun participant =>
      let account := participant.2.userId.bind db.accounts.users.lookup
      { sessionId := row.1, userId := participant.2.userId,
        displayName := participant.2.displayName, joinedAt := participant.2.joinedAt,
        leftAt := participant.2.leftAt, accountName := account.map (·.name),
        nickname := account.map (·.nickname),
        avatarKey := account.bind (·.avatarKey) }).insertionSort fun a b => a.joinedAt ≤ b.joinedAt

/-- How many of a meeting's connections are among the first of the meetings read together. -/
def readTogether (db : SocialDatabase) (sessionIds : List Uuid) (id : Uuid) : ℕ :=
  ((joined db sessionIds).take (maxMeetingConnections * max sessionIds.length 1)).countP
    (·.sessionId = id)

section Reading

variable {env : Environment} {db : SocialDatabase} {now : Timestamp} {userId id : Uuid}
  {sessionIds : List Uuid}

theorem loadConnections_eq : loadConnections db sessionIds =
    (joined db sessionIds).take (maxMeetingConnections * max sessionIds.length 1) :=
  rfl

theorem filter_joined (hid : id ∈ sessionIds) :
    (joined db sessionIds).filter (·.sessionId = id) = joined db [id] := by
  have : Std.Total fun a b : Connection => a.joinedAt ≤ b.joinedAt :=
    ⟨fun a b => Nat.le_total a.joinedAt b.joinedAt⟩
  have : IsTrans Connection fun a b => a.joinedAt ≤ b.joinedAt :=
    ⟨fun _ _ _ hab hbc => hab.trans hbc⟩
  unfold joined
  rw [filter_insertionSort]
  congr 1
  generalize db.meetings.entries = entries
  induction entries with
  | nil => rfl
  | cons row rest ih =>
    by_cases hrow : row.1 = id
    · rw [List.filter_cons_of_pos (by simpa [hrow] using hid),
        List.filter_cons_of_pos (by simpa using hrow), List.flatMap_cons, List.flatMap_cons,
        List.filter_append, ih]
      congr 1
      apply List.filter_eq_self.mpr
      intro c hc
      obtain ⟨participant, -, rfl⟩ := List.mem_map.mp hc
      exact decide_eq_true hrow
    · have hother : ((row :: rest).filter fun row => decide (row.1 ∈ [id])) =
          rest.filter fun row => decide (row.1 ∈ [id]) :=
        List.filter_cons_of_neg (by simpa using hrow)
      rw [hother, List.filter_cons]
      split
      · rw [List.flatMap_cons, List.filter_append, ih]
        refine (congrArg (· ++ _) (List.filter_eq_nil_iff.mpr ?_)).trans (List.nil_append _)
        intro c hc
        obtain ⟨participant, -, rfl⟩ := List.mem_map.mp hc
        simpa using hrow
      · exact ih

/-- Of one meeting the first connections are read, as many as come among the first of all. -/
theorem filter_loadConnections (hid : id ∈ sessionIds) :
    (loadConnections db sessionIds).filter (·.sessionId = id) =
      (joined db [id]).take (readTogether db sessionIds id) := by
  rw [loadConnections_eq, filter_take, filter_joined hid]
  rfl

theorem filter_loadConnections_singleton :
    (loadConnections db [id]).filter (·.sessionId = id) =
      (joined db [id]).take maxMeetingConnections := by
  have hself : (joined db [id]).filter (·.sessionId = id) = joined db [id] :=
    filter_joined (List.mem_singleton_self id)
  rw [loadConnections_eq]
  apply List.filter_eq_self.mpr
  intro c hc
  exact List.filter_eq_self.mp hself c (List.mem_of_mem_take hc)

/-- Flagging a meeting as missed changes nothing about its people. -/
theorem applyMissedFlags_eq_map (db : SocialDatabase) (now : Timestamp) (userId : Uuid)
    (meetings : List MeetingSessionResponse) :
    ∃ flag : MeetingSessionResponse → MeetingSessionResponse,
      applyMissedFlags db now userId meetings = meetings.map flag ∧
      ∀ meeting, (flag meeting).id = meeting.id ∧
        (flag meeting).participantCount = meeting.participantCount ∧
        (flag meeting).participants = meeting.participants := by
  refine ⟨_, rfl, fun meeting => ?_⟩
  split
  · exact ⟨rfl, rfl, rfl⟩
  · split <;> exact ⟨rfl, rfl, rfl⟩

/-- Each row of a page shows the people among the connections read for it. -/
theorem shown_eq_map (env : Environment) (db : SocialDatabase) (now : Timestamp) (userId : Uuid)
    (sessions : List (Uuid × MeetingSession)) :
    ∃ row : Uuid × MeetingSession → MeetingSessionResponse,
      shown env db now userId sessions = sessions.map row ∧
      ∀ session ∈ sessions, (row session).id = session.1 ∧
        (row session).participantCount = (groupPeople env ((joined db [session.1]).take
          (readTogether db (sessions.map (·.1)) session.1)) (some userId)).length ∧
        (row session).participants = preview env userId ((joined db [session.1]).take
          (readTogether db (sessions.map (·.1)) session.1)) := by
  obtain ⟨flag, hflag, hsame⟩ := applyMissedFlags_eq_map db now userId
    (meetingResponses env db userId sessions (some previewPeople))
  rw [shown, hflag, meetingResponses, List.map_map]
  refine ⟨_, rfl, fun session hsession => ?_⟩
  have hid : session.1 ∈ sessions.map (·.1) := List.mem_map_of_mem hsession
  obtain ⟨hflagged, hcount, hparticipants⟩ := hsame _
  refine ⟨hflagged, ?_, ?_⟩
  · rw [Function.comp_apply, hcount, ← filter_loadConnections hid]
  · rw [Function.comp_apply, hparticipants, ← filter_loadConnections hid]
    rfl

/-- The user may see the detail of every meeting in the history, with all the people among the
first connections. -/
theorem getMeetingSession_ok (env : Environment) {session : MeetingSession}
    (hsession : (id, session) ∈ listedSessions db now userId) :
    ∃ detail, getMeetingSession env db now userId id = .ok detail ∧
      detail.participantCount = (groupPeople env ((joined db [id]).take maxMeetingConnections)
        (some userId)).length ∧
      detail.participants = groupPeople env ((joined db [id]).take maxMeetingConnections)
        (some userId) := by
  obtain ⟨hlookup, hlisted⟩ := mem_listedSessions.mp hsession
  obtain ⟨response, hresponse, hcount, hparticipants⟩ : ∃ response,
      meetingResponses env db userId [(id, session)] none = [response] ∧
      response.participantCount = (groupPeople env ((joined db [id]).take maxMeetingConnections)
        (some userId)).length ∧
      response.participants = groupPeople env ((joined db [id]).take maxMeetingConnections)
        (some userId) := by
    refine ⟨_, rfl, ?_, ?_⟩
    · rw [← filter_loadConnections_singleton]
      rfl
    · rw [← filter_loadConnections_singleton]
      rfl
  obtain ⟨flag, hflag, hsame⟩ := applyMissedFlags_eq_map db now userId [response]
  obtain ⟨-, hflagged, hflagged'⟩ := hsame response
  have hallowed : (!attended userId session &&
      (missedCalls db now userId [session.sfuRoomId] session.sfuRoomId).isNone) = false := by
    cases hattended : attended userId session with
    | true => rfl
    | false =>
      rw [hattended, Bool.false_or] at hlisted
      obtain ⟨call, hcall⟩ := missedRoom_iff.mp hlisted
      simp [missedCalls, hcall]
  refine ⟨flag response, ?_, hflagged.trans hcount, hflagged'.trans hparticipants⟩
  unfold getMeetingSession
  rw [hlookup]
  dsimp only
  rw [hallowed, hresponse, hflag]
  rfl

end Reading

/-! ## The people who are still there -/

/-- The people with an open connection. -/
def openPeople (env : Environment) (connections : List Connection) : Finset PersonKey :=
  ((connections.filter (·.leftAt.isNone)).map (personKey env)).toFinset

section Live

variable {env : Environment} {viewerId : Option Uuid} {connections kept rest : List Connection}

theorem mem_openPeople {key : PersonKey} : key ∈ openPeople env connections ↔
    ∃ c ∈ connections, personKey env c = key ∧ c.leftAt = none := by
  simp only [openPeople, List.mem_toFinset, List.mem_map, List.mem_filter,
    Option.isNone_iff_eq_none, and_assoc, and_comm (a := _ = none)]

theorem top_le_departure {leftAt : Option Timestamp} : ⊤ ≤ departure leftAt ↔ leftAt = none := by
  rw [top_le_iff]
  exact Iff.rfl

/-- As many people have not left as have an open connection. -/
theorem live_groupPeople :
    ((groupPeople env connections viewerId).filter (·.leftAt.isNone)).length =
    (openPeople env connections).card := by
  have hgroup : ∀ row ∈ connections.foldl (addConnection env viewerId) [],
      personOf env viewerId connections row.1 = some row.2 := by
    intro row hrow
    rw [addConnection_eq] at hrow
    exact groupOf_of_mem hrow
  have hkeys : (connections.foldl (addConnection env viewerId) []).map Prod.fst =
      peopleOf env connections := by
    rw [addConnection_eq]
    exact map_fst_foldl ..
  have hnodup : (((connections.foldl (addConnection env viewerId) []).filter
      (·.2.leftAt.isNone)).map Prod.fst).Nodup := by
    refine List.Nodup.sublist (List.filter_sublist.map _) ?_
    rw [hkeys]
    exact nodup_keysOf connections
  rw [groupPeople, List.filter_map, List.length_map, ← List.length_map Prod.fst]
  refine (List.toFinset_card_of_nodup hnodup).symm.trans ?_
  congr 1
  ext key
  rw [mem_openPeople, List.mem_toFinset, List.mem_map]
  constructor
  · intro h
    obtain ⟨row, hrow, rfl⟩ := h
    obtain ⟨hrow, hleft⟩ := List.mem_filter.mp hrow
    have htop := (absorbing.le_groupOf_iff (hgroup row hrow) ⊤).mp
      (top_le_departure.mpr (Option.isNone_iff_eq_none.mp hleft))
    simpa only [top_le_departure] using htop
  · intro h
    obtain ⟨c, hc, rfl, hopen⟩ := h
    have hkey : personKey env c ∈
        (connections.foldl (addConnection env viewerId) []).map Prod.fst := by
      rw [hkeys]
      exact mem_keysOf.mpr ⟨c, hc, rfl⟩
    obtain ⟨row, hrow, heq⟩ := List.mem_map.mp hkey
    refine ⟨row, List.mem_filter.mpr ⟨hrow, ?_⟩, heq⟩
    have htop := (absorbing.le_groupOf_iff (hgroup row hrow) ⊤).mpr
      ⟨c, hc, heq.symm, top_le_departure.mpr hopen⟩
    exact Option.isNone_iff_eq_none.mpr (top_le_departure.mp htop)

/-- The first connections have as many open people as all exactly when whoever is still there by a
later connection is so by an earlier one too. -/
theorem card_openPeople_iff (env : Environment) (kept rest : List Connection) :
    (openPeople env kept).card = (openPeople env (kept ++ rest)).card ↔
      ∀ c ∈ rest, c.leftAt = none → personKey env c ∈ openPeople env kept := by
  have hsubset : openPeople env kept ⊆ openPeople env (kept ++ rest) := by
    intro key hkey
    obtain ⟨c, hc, hopen⟩ := mem_openPeople.mp hkey
    exact mem_openPeople.mpr ⟨c, List.mem_append_left rest hc, hopen⟩
  constructor
  · intro hcard c hc hopen
    rw [Finset.eq_of_subset_of_card_le hsubset hcard.ge]
    exact mem_openPeople.mpr ⟨c, List.mem_append_right kept hc, rfl, hopen⟩
  · intro h
    congr 1
    apply hsubset.antisymm
    intro key hkey
    obtain ⟨c, hc, rfl, hopen⟩ := mem_openPeople.mp hkey
    rcases List.mem_append.mp hc with hkept | hrest
    · exact mem_openPeople.mpr ⟨c, hkept, rfl, hopen⟩
    · exact h c hrest hopen

end Live

/-! ## The answers agree -/

/-- What the page's read and the detail's read of a meeting have apart changes nothing shown. -/
def ReadsAlike (env : Environment) (db : SocialDatabase) (userId : Uuid) (sessionIds : List Uuid)
    (id : Uuid) : Prop :=
  let first := min (readTogether db sessionIds id) maxMeetingConnections
  let last := max (readTogether db sessionIds id) maxMeetingConnections
  Alike env userId ((joined db [id]).take first) (((joined db [id]).take last).drop first)

/-- A row of a page agrees with the detail of its meeting. -/
def AgreesWithDetail (env : Environment) (db : SocialDatabase) (now : Timestamp) (userId : Uuid)
    (row : MeetingSessionResponse) : Prop :=
  ∃ detail, getMeetingSession env db now userId row.id = .ok detail ∧
    row.participantCount = detail.participantCount ∧
    row.participants = (detail.participants.filter fun p => !p.isYou).take previewPeople

/-- Whoever is still in a meeting by a connection beyond the limit is so by an earlier one too. -/
def OpenWithinLimit (env : Environment) (db : SocialDatabase) (id : Uuid) : Prop :=
  ∀ c ∈ (joined db [id]).drop maxMeetingConnections, c.leftAt = none →
    personKey env c ∈ openPeople env ((joined db [id]).take maxMeetingConnections)

section Agreement

variable {env : Environment} {db : SocialDatabase} {now : Timestamp} {userId : Uuid}

theorem readsAlike_iff {sessionIds : List Uuid} {id : Uuid} :
    ((groupPeople env ((joined db [id]).take (readTogether db sessionIds id))
        (some userId)).length =
      (groupPeople env ((joined db [id]).take maxMeetingConnections) (some userId)).length ∧
    preview env userId ((joined db [id]).take (readTogether db sessionIds id)) =
      preview env userId ((joined db [id]).take maxMeetingConnections)) ↔
    ReadsAlike env db userId sessionIds id := by
  have hsplit : ∀ first last, first ≤ last → (joined db [id]).take last =
      (joined db [id]).take first ++ ((joined db [id]).take last).drop first := by
    intro first last hle
    conv_lhs => rw [← List.take_append_drop first ((joined db [id]).take last)]
    rw [List.take_take, Nat.min_eq_left hle]
  unfold ReadsAlike
  dsimp only
  rw [← shows_same_iff, ← hsplit _ _ (min_le_max)]
  rcases Nat.le_total (readTogether db sessionIds id) maxMeetingConnections with hle | hle
  · rw [Nat.min_eq_left hle, Nat.max_eq_right hle]
  · rw [Nat.min_eq_right hle, Nat.max_eq_left hle, eq_comm, eq_comm (a := preview ..)]

theorem page_agrees_iff (sessions : List (Uuid × MeetingSession))
    (hlisted : ∀ session ∈ sessions, session ∈ listedSessions db now userId) :
    (∀ row ∈ shown env db now userId sessions, AgreesWithDetail env db now userId row) ↔
      ∀ session ∈ sessions, ReadsAlike env db userId (sessions.map (·.1)) session.1 := by
  obtain ⟨row, hrows, hrow⟩ := shown_eq_map env db now userId sessions
  rw [hrows, List.forall_mem_map]
  apply forall₂_congr
  intro session hsession
  obtain ⟨hid, hcount, hparticipants⟩ := hrow session hsession
  obtain ⟨detail, hdetail, hcount', hparticipants'⟩ :=
    getMeetingSession_ok env (hlisted session hsession)
  rw [← readsAlike_iff, AgreesWithDetail, hid, hcount, hparticipants, hdetail]
  constructor
  · intro h
    obtain ⟨found, hfound, hsame⟩ := h
    cases hfound
    rwa [hcount', hparticipants'] at hsame
  · intro h
    refine ⟨detail, rfl, ?_⟩
    rw [hcount', hparticipants']
    exact h

/-- The summary of a room counts the people there by the first connections of its session. -/
theorem getRoomSummary_live {parseUuid : String → Option Uuid} {roomRef : String} {id : Uuid}
    {session : MeetingSession} {summary : RoomSummaryResponse}
    (hfound : findSession parseUuid db roomRef = some (id, session))
    (h : getRoomSummary parseUuid env db roomRef = .ok summary) :
    summary.liveParticipantCount =
      (openPeople env ((joined db [id]).take maxMeetingConnections)).card := by
  unfold getRoomSummary at h
  split at h
  · cases h
  · rw [hfound] at h
    cases h
    exact live_groupPeople

theorem live_eq_iff {id : Uuid} :
    (openPeople env ((joined db [id]).take maxMeetingConnections)).card =
      (openPeople env (joined db [id])).card ↔ OpenWithinLimit env db id := by
  have happend := card_openPeople_iff env ((joined db [id]).take maxMeetingConnections)
    ((joined db [id]).drop maxMeetingConnections)
  rwa [List.take_append_drop] at happend

end Agreement

/-- The rows of a page agree with the details of their meetings exactly when the connections that
one read has and the other does not change nothing shown; the summary counts everybody who is in a
meeting exactly when nobody is there by later connections only. -/
theorem history_agrees_iff (env : Environment) (db : SocialDatabase) (now : Timestamp)
    (userId : Uuid) (before : Option Timestamp) (limit : Option Int) :
    ((∀ row ∈ (listMeetingSessions env db now userId before limit).meetings,
        AgreesWithDetail env db now userId row) ↔
      ∀ session ∈ pageSessions db now userId before limit,
        ReadsAlike env db userId ((pageSessions db now userId before limit).map (·.1))
          session.1) ∧
    ∀ parseUuid roomRef id session summary,
      findSession parseUuid db roomRef = some (id, session) →
      getRoomSummary parseUuid env db roomRef = .ok summary →
      (summary.liveParticipantCount = (openPeople env (joined db [id])).card ↔
        OpenWithinLimit env db id) := by
  constructor
  · apply page_agrees_iff
    intro session hsession
    exact List.mem_of_mem_filter (List.mem_of_mem_take hsession)
  · intro parseUuid roomRef id session summary hfound hsummary
    rw [getRoomSummary_live hfound hsummary]
    exact live_eq_iff

/-- Ada and Bob are in a meeting. -/
def meetingOfTwo (accounts : Accounts.Database) : SocialDatabase :=
  { emptyDatabase accounts with
    meetings := (∅ : Map Uuid MeetingSession).insert 10 ⟨"a", 1, none,
      ((∅ : Map Uuid MeetingParticipant).insert 30 ⟨"ada", some 1, "Ada", 1, none⟩).insert 40
        ⟨"bob", some 2, "Bob", 2, none⟩⟩ }

theorem meetingOfTwo_live : ∃ accounts ∈ adaAndBob, ∃ summary,
    getRoomSummary (fun _ => none) plainHashing (meetingOfTwo accounts) "a" = .ok summary ∧
      summary.liveParticipantCount =
        (openPeople plainHashing (joined (meetingOfTwo accounts) [10])).card := by
  obtain ⟨accounts, haccounts, hshort⟩ : ∃ accounts ∈ adaAndBob,
      (joined (meetingOfTwo accounts) [10]).length ≤ maxMeetingConnections := by
    decide +kernel
  refine ⟨accounts, haccounts, _, rfl, ?_⟩
  refine ((history_agrees_iff plainHashing (meetingOfTwo accounts) 9 1 none none).2
    (fun _ => none) "a" 10 _ _ rfl rfl).mpr ?_
  intro c hc
  rw [List.drop_of_length_le hshort] at hc
  cases hc

/-- Ada's connection drops as often as the limit allows rows, and then Bob joins. -/
def rejoined (i : ℕ) : MeetingParticipant :=
  if i < maxMeetingConnections then ⟨toString i, some 1, "Ada", i, some i⟩
  else ⟨toString i, some 2, "Bob", i, none⟩

theorem rejoined_joinedAt (i : ℕ) : (rejoined i).joinedAt = i := by
  unfold rejoined
  split <;> rfl

def busyParticipants : Map Uuid MeetingParticipant where
  entries := (List.range (maxMeetingConnections + 1)).map fun i => ⟨BitVec.ofNat 128 i, rejoined i⟩
  nodupKeys := by
    unfold List.NodupKeys List.keys
    rw [List.map_map]
    refine (List.nodup_map_iff_inj_on List.nodup_range).mpr ?_
    intro i hi j hj heq
    rw [List.mem_range] at hi hj
    have hnat : i % 2 ^ 128 = j % 2 ^ 128 := by simpa using congrArg BitVec.toNat heq
    unfold maxMeetingConnections at hi hj
    omega

def busyMeeting (accounts : Accounts.Database) : SocialDatabase :=
  { emptyDatabase accounts with
    meetings := (∅ : Map Uuid MeetingSession).insert 10 ⟨"a", 0, none, busyParticipants⟩ }

theorem joined_busyMeeting (accounts : Accounts.Database) :
    ∃ connection : ℕ → Connection,
      joined (busyMeeting accounts) [10] =
        (List.range (maxMeetingConnections + 1)).map connection ∧
      ∀ i, (connection i).userId = (rejoined i).userId ∧
        (connection i).leftAt = (rejoined i).leftAt := by
  refine ⟨fun i =>
    { sessionId := 10, userId := (rejoined i).userId, displayName := (rejoined i).displayName
      joinedAt := (rejoined i).joinedAt, leftAt := (rejoined i).leftAt
      accountName := ((rejoined i).userId.bind accounts.users.lookup).map (·.name)
      nickname := ((rejoined i).userId.bind accounts.users.lookup).map (·.nickname)
      avatarKey := ((rejoined i).userId.bind accounts.users.lookup).bind (·.avatarKey) }, ?_,
    fun i => ⟨rfl, rfl⟩⟩
  have hrows : ((busyMeeting accounts).meetings.entries.filter fun row => row.1 ∈ [(10 : Uuid)]) =
      [⟨10, "a", 0, none, busyParticipants⟩] := rfl
  unfold joined
  rw [hrows, List.flatMap_singleton, busyParticipants, List.map_map]
  apply List.Pairwise.insertionSort_eq
  rw [List.pairwise_map]
  refine List.pairwise_lt_range.imp ?_
  intro i j hlt
  simp only [Function.comp_apply, rejoined_joinedAt]
  exact hlt.le

/-- Bob is in the meeting, and the summary shows nobody there. -/
theorem busyMeeting_unseen : ∃ accounts ∈ adaAndBob, ∃ summary,
    getRoomSummary (fun _ => none) plainHashing (busyMeeting accounts) "a" = .ok summary ∧
      summary.status = .live ∧ summary.liveParticipantCount = 0 ∧
      .user 2 ∈ openPeople plainHashing (joined (busyMeeting accounts) [10]) := by
  obtain ⟨accounts, haccounts, -⟩ : ∃ accounts ∈ adaAndBob, True := by decide +kernel
  obtain ⟨connection, hjoined, hconnection⟩ := joined_busyMeeting accounts
  have hfound : findSession (fun _ => none) (busyMeeting accounts) "a" =
      some (10, ⟨"a", 0, none, busyParticipants⟩) := rfl
  obtain ⟨summary, hsummary, hstatus⟩ : ∃ summary,
      getRoomSummary (fun _ => none) plainHashing (busyMeeting accounts) "a" = .ok summary ∧
        summary.status = .live := by
    unfold getRoomSummary
    rw [hfound]
    exact ⟨_, rfl, rfl⟩
  refine ⟨accounts, haccounts, summary, hsummary, hstatus, ?_, ?_⟩
  · rw [getRoomSummary_live hfound hsummary, Finset.card_eq_zero, Finset.eq_empty_iff_forall_notMem]
    intro key hkey
    obtain ⟨c, hc, -, hopen⟩ := mem_openPeople.mp hkey
    rw [hjoined, ← List.map_take, List.take_range] at hc
    obtain ⟨i, hi, rfl⟩ := List.mem_map.mp hc
    have hlt : i < maxMeetingConnections := by
      have hmin := List.mem_range.mp hi
      omega
    rw [(hconnection i).2, rejoined, if_pos hlt] at hopen
    cases hopen
  · rw [mem_openPeople, hjoined]
    obtain ⟨huser, hleft⟩ := hconnection maxMeetingConnections
    refine ⟨connection maxMeetingConnections, List.mem_map_of_mem (by simp), ?_, ?_⟩
    · rw [personKey, huser]
      rfl
    · rw [hleft]
      rfl

end OpenMeet.HistoryPeople
