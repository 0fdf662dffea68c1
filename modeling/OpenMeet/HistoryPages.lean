import OpenMeet.CallHistory
import OpenMeet.Pages

/-!
Reading the whole meeting history page by page. The cursor of the next page is
the time at which the last session of the page started, and the next page holds
sessions that started strictly before; so sessions that started at the same time
are lost where a page ends between them.
-/
namespace OpenMeet.HistoryPages

open KeyedMap Messages Accounts SocialTables MeetingSessions CallHistory Pages
open SocialRequests (emptyDatabase)
open BadgeNews (plainHashing adaAndBob)

section Pages

variable (env : Environment) (db : SocialDatabase) (now : Timestamp) (userId : Uuid)
  (limit : Option Int)

/-- What a reader of the history gets before a time, the whole history at first. -/
def sessionsPage (before : Option Timestamp) :
    List MeetingSessionResponse × Option (Option Timestamp) :=
  let page := listMeetingSessions env db now userId before limit
  (page.meetings, page.nextBefore.map some)

/-- Every session the user attended or missed, once each. -/
def Complete (ids : List Uuid) : Prop :=
  ids.Nodup ∧ ∀ id, id ∈ ids ↔ ∃ meeting, db.meetings.lookup id = some meeting ∧
    (attended userId meeting || missedRoom db now userId meeting.sfuRoomId) = true

/-- What is shown of the sessions of a page. -/
def shown (sessions : List (Uuid × MeetingSession)) : List MeetingSessionResponse :=
  applyMissedFlags db now userId (meetingResponses env db userId sessions (some previewPeople))

theorem sessionsPage_eq (before : Option Timestamp) :
    sessionsPage env db now userId limit before =
      (shown env db now userId
          (keysetPage (listedSessions db now userId) (·.2.startedAt) (pageLimit limit) before).1,
        (keysetPage (listedSessions db now userId) (·.2.startedAt) (pageLimit limit) before).2) :=
  rfl

variable {env db now userId limit}

theorem ids_shown (sessions : List (Uuid × MeetingSession)) :
    (shown env db now userId sessions).map (·.id) = sessions.map Prod.fst := by
  unfold shown applyMissedFlags meetingResponses
  rw [List.map_map, List.map_map]
  apply List.map_congr_left
  intro session _
  simp only [Function.comp_apply]
  split
  · rfl
  · split <;> rfl

theorem ids_flatten_shown (pages : List (List (Uuid × MeetingSession))) :
    (pages.map (shown env db now userId)).flatten.map (·.id) = pages.flatten.map Prod.fst := by
  induction pages with
  | nil => rfl
  | cons page rest ih =>
    rw [List.map_cons, List.flatten_cons, List.flatten_cons, List.map_append, List.map_append,
      ids_shown, ih]

theorem pageLimit_pos (limit : Option Int) : 0 < pageLimit limit := by
  unfold pageLimit
  omega

theorem complete_iff_perm {ids : List Uuid} :
    Complete db now userId ids ↔ ids.Perm ((listedSessions db now userId).map Prod.fst) := by
  have hmem : ∀ id, id ∈ (listedSessions db now userId).map Prod.fst ↔
      ∃ meeting, db.meetings.lookup id = some meeting ∧
        (attended userId meeting || missedRoom db now userId meeting.sfuRoomId) = true := by
    intro id
    rw [List.mem_map]
    constructor
    · intro h
      obtain ⟨session, hsession, rfl⟩ := h
      exact ⟨session.2, mem_listedSessions.mp hsession⟩
    · intro h
      obtain ⟨meeting, hmeeting⟩ := h
      exact ⟨(id, meeting), mem_listedSessions.mpr hmeeting, rfl⟩
  constructor
  · intro h
    apply (List.perm_ext_iff_of_nodup h.1 nodup_listedSessions).mpr
    intro id
    rw [h.2 id, hmem id]
  · intro h
    refine ⟨h.nodup_iff.mpr nodup_listedSessions, fun id => ?_⟩
    rw [h.mem_iff, hmem id]

/-- The pages are complete exactly when they hold the whole history. -/
theorem complete_iff_eq {sessions : List (Uuid × MeetingSession)}
    (hsublist : sessions.Sublist (listedSessions db now userId)) :
    Complete db now userId (sessions.map Prod.fst) ↔ sessions = listedSessions db now userId := by
  rw [complete_iff_perm]
  constructor
  · intro h
    have hlength := h.length_eq
    rw [List.length_map, List.length_map] at hlength
    exact hsublist.eq_of_length hlength
  · intro h
    rw [h]

end Pages

/-- Following the pages comes to an end, and it returns every session once exactly when no page
ends between sessions that started at the same time. -/
theorem history_complete_iff (env : Environment) (db : SocialDatabase) (now : Timestamp)
    (userId : Uuid) (limit : Option Int) :
    ∃ pages, Follows (sessionsPage env db now userId limit) none pages ∧
      (Complete db now userId (pages.flatten.map (·.id)) ↔
        ¬CutsTie (listedSessions db now userId) (·.2.startedAt) (pageLimit limit)) := by
  have hsorted : (listedSessions db now userId).Pairwise fun a b =>
      b.2.startedAt ≤ a.2.startedAt := listedSessions_pairwise
  obtain ⟨pages, hpages⟩ := exists_follows_keyset (pageLimit limit) hsorted none
  refine ⟨_, hpages.map (shown env db now userId) (sessionsPage_eq env db now userId limit), ?_⟩
  have hsublist := flatten_sublist hsorted hpages
  have hall := flatten_eq_iff (pageLimit_pos limit) hsorted hpages
  rw [below_none] at hsublist hall
  rw [ids_flatten_shown, complete_iff_eq hsublist]
  exact hall

/-- Ada was in two meetings that started at once. -/
def twoAtOnce (accounts : Accounts.Database) : SocialDatabase :=
  let ada := (∅ : Map Uuid MeetingParticipant).insert 30 ⟨"ada", some 1, "Ada", 5, some 6⟩
  { emptyDatabase accounts with
    meetings := ((∅ : Map Uuid MeetingSession).insert 10 ⟨"a", 5, some 6, ada⟩).insert 20
      ⟨"b", 5, some 6, ada⟩ }

/-- With one session on a page the other one is on none. -/
theorem twoAtOnce_skipped : ∃ accounts ∈ adaAndBob, ∃ pages,
    Follows (sessionsPage plainHashing (twoAtOnce accounts) 9 1 (some 1)) none pages ∧
      ¬Complete (twoAtOnce accounts) 9 1 (pages.flatten.map (·.id)) := by
  obtain ⟨accounts, haccounts, hfirst, hsecond, hids, hattended⟩ : ∃ accounts ∈ adaAndBob,
      let page := sessionsPage plainHashing (twoAtOnce accounts) 9 1 (some 1)
      (page none).2 = some (some 5) ∧ (page (some 5)).2 = none ∧
        [(page none).1, (page (some 5)).1].flatten.map (·.id) = [20] ∧
        ∀ meeting ∈ (twoAtOnce accounts).meetings.lookup 10, attended 1 meeting = true := by
    decide +kernel
  refine ⟨accounts, haccounts, _, .next hfirst (.last hsecond), ?_⟩
  intro hcomplete
  rw [hids] at hcomplete
  have hmem := (hcomplete.2 10).mpr ⟨_, rfl, by rw [hattended _ rfl, Bool.true_or]⟩
  cases List.mem_singleton.mp hmem

end OpenMeet.HistoryPages
