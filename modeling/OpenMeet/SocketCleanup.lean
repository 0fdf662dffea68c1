import OpenMeet.Consistency

/-!
What a closed socket leaves behind. The socket task searches the directory for
its participant while the receive task, aborted but not yet stopped, may still
finish a join. The invariant follows the search like a cursor: a participant of
a mapped room is still ahead of it. A join keeps that as long as the room it adds
to is ahead of the search too, or is not mapped any more.
-/
namespace OpenMeet.SocketCleanup

open KeyedMap Messages RoomState Repository SignalingServer SignalingSteps TransitionSystem
open Transitions Consistency

/-- The recorder has an open row for the participant: a join comes after its last leave. -/
def rowOpen (p : ParticipantId) (events : List MeetingEvent) : Bool :=
  events.foldl (fun isOpen event =>
    match event with
    | .joined _ q _ _ => isOpen || decide (q = p)
    | .left q => isOpen && decide (q ≠ p)) false

/-- When a socket has closed and its receive task has stopped, no mapped room has the
participant and the recorder has no open row for it. -/
def NoGhosts (s : Server) : Prop :=
  ∀ p, s.socketTask p = .closed → s.recvTask p = .stopped →
    (∀ id ref, s.repository.getRoom id = some ref → p ∉ (s.room ref).participants) ∧
      rowOpen p s.meetingEvents = false

/-- The search of a socket task still comes to the given room. -/
def Ahead (id : RoomId) (ref : RoomRef) : SocketTask → Prop
  | .selecting | .listingRooms => True
  | .findingRoom id' rest => id = id' ∨ id ∈ rest
  | .lockingRoom _ ref' rest => ref = ref' ∨ id ∈ rest
  | _ => False

instance (id : RoomId) (ref : RoomRef) : (task : SocketTask) → Decidable (Ahead id ref task)
  | .selecting | .listingRooms => isTrue trivial
  | .findingRoom _ _ => inferInstanceAs (Decidable (_ ∨ _))
  | .lockingRoom _ _ _ => inferInstanceAs (Decidable (_ ∨ _))
  | .unopened | .deletingRoom _ | .leaving | .closed => isFalse not_false

/-- A join that adds its participant to the mapped room does it ahead of its own connection's
search, and one that the recorder is told of does it before the socket has closed. -/
def JoinsAhead (s : Server) (a : Action) : Prop :=
  ∀ join ∈ addingJoin s a,
    (s.repository.getRoom join.2.1.roomId = some join.2.2 →
      Ahead join.2.1.roomId join.2.2 (s.socketTask join.1)) ∧
    (s.socketTask join.1 = .closed → join.2.1.screenShareOf.isSome = true)

instance (s : Server) (a : Action) : Decidable (JoinsAhead s a) :=
  inferInstanceAs (Decidable (∀ join ∈ addingJoin s a, _))

/-- Participants of mapped rooms are ahead of their search, and closed sockets have no row. -/
structure Searched (s : Server) : Prop where
  consistent : Consistent s
  ahead : ∀ id ref p, s.repository.getRoom id = some ref → p ∈ (s.room ref).participants →
    Ahead id ref (s.socketTask p)
  row_closed : ∀ p, s.socketTask p = .closed → rowOpen p s.meetingEvents = false

section Step

variable {env : Environment} {s t : Server} {a : Action}

@[simp] theorem rowOpen_joined (p q : ParticipantId) (events : List MeetingEvent) (id : RoomId)
    (userId : Option Uuid) (name : String) :
    rowOpen p (events ++ [.joined id q userId name]) = (rowOpen p events || decide (q = p)) := by
  simp [rowOpen]

@[simp] theorem rowOpen_left (p q : ParticipantId) (events : List MeetingEvent) :
    rowOpen p (events ++ [.left q]) = (rowOpen p events && decide (q ≠ p)) := by
  simp [rowOpen]

/-- The first room of a list and the rest of it are what the search goes on with. -/
private theorem ahead_nextRoom {id : RoomId} {ref : RoomRef} {rooms : List RoomId}
    (hid : id ∈ rooms) : Ahead id ref (nextRoom rooms) := by
  cases rooms with
  | nil => cases hid
  | cons first rest => exact List.mem_cons.mp hid

/-- A search that goes on keeps what is ahead of it ahead. -/
private theorem ahead_move (w : Consistent s) {p : ParticipantId} {id : RoomId} {ref : RoomRef}
    {before after : SocketTask} (hmove : SocketMove s p a before after)
    (hroom : s.repository.getRoom id = some ref) (hmem : p ∈ (s.room ref).participants)
    (hahead : Ahead id ref before) : Ahead id ref after := by
  cases hmove with
  | ended hstopped =>
    refine ahead_nextRoom ?_
    simp [w.member_room ref p hmem, (s.repository.mapped id ref hroom).2]
  | listed =>
    refine ahead_nextRoom (AList.mem_keys.mpr ?_)
    exact AList.lookup_isSome.mp (Option.isSome_of_mem hroom)
  | skip id' rest hnone =>
    refine ahead_nextRoom (hahead.resolve_left ?_)
    rintro rfl
    simp [hroom] at hnone
  | found id' ref' rest hfound =>
    rcases hahead with rfl | hrest
    · exact .inl (Option.some.inj (hroom.symm.trans hfound))
    · exact .inr hrest
  | absent id' ref' rest habsent =>
    refine ahead_nextRoom (hahead.resolve_left ?_)
    rintro rfl
    exact habsent hmem

/-- A participant found in a mapped room was already in that mapped room, or has just joined. -/
private theorem mapped_member_cases (w : Consistent s) (h : Transition env s a t) {id : RoomId}
    {ref : RoomRef} {p : ParticipantId} (hroom : t.repository.getRoom id = some ref)
    (hmem : p ∈ (t.room ref).participants) :
    s.repository.getRoom id = some ref ∧ (p ∈ (s.room ref).participants ∨
      ∃ req existing history, a = .finishJoin p (.ok ()) ∧
        s.recvTask p = .settingUpPeer req ref existing history ∧
        (s.room ref).deniesAccess (s.identity p).userId = false ∧
        t = addToRoom s p req ref existing history) := by
  have hmember := member_cases h hmem
  refine ⟨?_, hmember⟩
  have hlt : ref < s.repository.nextRef := by
    rcases hmember with hold | ⟨req, existing, history, -, htask, -, -⟩
    · by_contra hge
      exact w.vacant ref p (Nat.not_lt.mp hge) hold
    · exact (w.recv_held p req.roomId ref (by simp [heldRoom, htask])).1
  rcases getRoom_cases h hroom with hold | ⟨q, -, -, hnew⟩
  · exact hold
  · exact absurd hlt (Nat.not_lt.mpr (Nat.le_of_eq hnew.symm))

private theorem ahead_step (hs : Searched s) (hG : JoinsAhead s a) (h : Transition env s a t)
    (id : RoomId) (ref : RoomRef) (p : ParticipantId)
    (hroom : t.repository.getRoom id = some ref) (hmem : p ∈ (t.room ref).participants) :
    Ahead id ref (t.socketTask p) := by
  obtain ⟨hmapped, hmember⟩ := mapped_member_cases hs.consistent h hroom hmem
  rcases hmember with hold | ⟨req, existing, history, ha, htask, haccess, ht⟩
  · have hahead := hs.ahead id ref p hmapped hold
    rcases socketTask_cases h p with hsame | hchange
    · exact hsame ▸ hahead
    · generalize s.socketTask p = before at hchange hahead
      generalize t.socketTask p = after at hchange
      cases hchange with
      | move a before after hmove => exact ahead_move hs.consistent hmove hmapped hold hahead
      | connected => trivial
      | selected => trivial
      | emptied id' ref' rest hmem' hgone =>
        exact absurd hmem (hs.consistent.member_unique ref ref' p hold hmem' ▸ hgone)
      | removed id' ref' rest hmem' hgone =>
        exact absurd hmem (hs.consistent.member_unique ref ref' p hold hmem' ▸ hgone)
      | deleted => exact hahead
      | left => exact hahead
  · subst ha ht
    have hid : id = req.roomId := by
      have hheld := hs.consistent.recv_held p req.roomId ref (by simp [heldRoom, htask])
      exact (s.repository.mapped id ref hmapped).2.symm.trans hheld.2
    subst hid
    exact (hG _ (addingJoin_finishJoin htask haccess)).1 hmapped

private theorem row_closed_step (hs : Searched s) (hG : JoinsAhead s a)
    (h : Transition env s a t) (p : ParticipantId) (hclosed : t.socketTask p = .closed) :
    rowOpen p t.meetingEvents = false := by
  cases h with
  | join q peer req ref existing history htask hpeer haccess =>
    have hbefore := hs.row_closed p hclosed
    by_cases hshare : req.screenShareOf.isNone = true
    · have hne : q ≠ p := by
        rintro rfl
        subst hpeer
        have hrecorded := (hG (q, req, ref) (addingJoin_finishJoin htask haccess)).2 hclosed
        simp [Option.isNone_iff_eq_none.mp hshare] at hrecorded
      simp [addToRoom, hshare, hbefore, hne]
    · simp [addToRoom, hshare, hbefore]
  | leave q hsocket =>
    by_cases hq : p = q
    · subst hq
      simp
    · have hbefore := hs.row_closed p (by simpa [hq] using hclosed)
      simp [hbefore]
  | connect q identity hsocket =>
    by_cases hq : p = q
    · simp [hq] at hclosed
    · exact hs.row_closed p (by simpa [hq] using hclosed)
  | selectSender q hsocket =>
    by_cases hq : p = q
    · simp [hq] at hclosed
    · exact hs.row_closed p (by simpa [hq] using hclosed)
  | socket a q task hmove =>
    by_cases hq : p = q
    · subst hq
      have htask : task = .closed := by simpa using hclosed
      have hnext : ∀ rooms, nextRoom rooms ≠ .closed := by
        intro rooms
        cases rooms <;> simp [nextRoom]
      generalize s.socketTask p = before at hmove
      cases hmove with
      | found => cases htask
      | _ => exact absurd htask (hnext _)
    · exact hs.row_closed p (by simpa [hq] using hclosed)
  | cleanUp q roomId ref rest task hsocket hfree hmem htask =>
    by_cases hq : p = q
    · subst hq
      have hclosed' : task = .closed := by simpa using hclosed
      rw [hclosed'] at htask
      split at htask <;> cases htask
    · exact hs.row_closed p (by simpa [hq] using hclosed)
  | deleteRoom q roomId hsocket =>
    by_cases hq : p = q
    · simp [hq] at hclosed
    · exact hs.row_closed p (by simpa [hq] using hclosed)
  | _ => exact hs.row_closed p hclosed

theorem searched_step (hs : Searched s) (hG : JoinsAhead s a) (h : Transition env s a t) :
    Searched t where
  consistent := consistent_step hs.consistent h
  ahead := ahead_step hs hG h
  row_closed := row_closed_step hs hG h

end Step

theorem searched_initial : Searched Server.initial where
  consistent := consistent_initial
  ahead id ref p hroom := by simp [Server.initial, InMemoryRoomRepository.new,
    InMemoryRoomRepository.getRoom] at hroom
  row_closed p hclosed := by simp [Server.initial] at hclosed

theorem noGhosts_of_searched {s : Server} (hs : Searched s) : NoGhosts s := by
  intro p hclosed _
  refine ⟨?_, hs.row_closed p hclosed⟩
  intro id ref hroom hmem
  have hahead := hs.ahead id ref p hroom hmem
  simp [hclosed, Ahead] at hahead

/-- Along a run whose joins keep ahead of the search, a closed socket leaves no ghost. -/
theorem noGhosts_of_joinsAhead (env : Environment) (actions : List Action)
    (hG : (system env).Guarded JoinsAhead Server.initial actions) :
    (system env).Always NoGhosts Server.initial actions := by
  refine System.always_mono (fun s => noGhosts_of_searched) ?_
  exact System.always_of_guarded (I := Searched) (G := JoinsAhead)
    (fun s a t hs hG h => searched_step hs hG (step_transition h)) searched_initial hG

/-- The socket ends while the room is not created yet; the search sees no room, and the
aborted join goes on to its end. -/
def joinAfterLeave : List Action :=
  [.connect "a" ⟨none, none⟩, .receive "a" (.join "r" "Ann" none none),
    .authorize "a" (some ⟨false, false, false⟩), .admitToMeetingRoom "a" (some .allowed),
    .checkRoom "a",
    .endSender "a", .selectSender "a", .listRooms "a", .leave "a",
    .createRoom "a", .getRoom "a", .lockRoom "a", .finishJoin "a" (.ok ()), .abortReceiver "a"]

theorem joinAfterLeave_ghost :
    ¬ (system ⟨fun _ => false, Char.isAlphanum⟩).Always NoGhosts Server.initial
      joinAfterLeave := by
  refine System.not_always_of_run
    (fun t => decide (t.socketTask "a" = .closed) && decide (t.recvTask "a" = .stopped) &&
      rowOpen "a" t.meetingEvents) (by decide) ?_
  intro t ht hghosts
  simp only [Bool.and_eq_true, decide_eq_true_eq] at ht
  obtain ⟨⟨hclosed, hstopped⟩, hopen⟩ := ht
  have hrow := (hghosts "a" hclosed hstopped).2
  simp [hopen] at hrow

/-- The same socket end after the join; the search finds the participant and removes it. -/
def leaveAfterJoin : List Action :=
  [.connect "a" ⟨none, none⟩, .receive "a" (.join "r" "Ann" none none),
    .authorize "a" (some ⟨false, false, false⟩), .admitToMeetingRoom "a" (some .allowed),
    .checkRoom "a",
    .createRoom "a", .getRoom "a", .lockRoom "a", .endSender "a", .selectSender "a",
    .finishJoin "a" (.ok ()),
    .listRooms "a", .findForCleanup "a", .cleanUp "a", .deleteRoom "a", .leave "a",
    .abortReceiver "a"]

theorem noGhosts_leaveAfterJoin :
    (system ⟨fun _ => false, Char.isAlphanum⟩).Always NoGhosts Server.initial leaveAfterJoin ∧
      ((system ⟨fun _ => false, Char.isAlphanum⟩).run leaveAfterJoin).any (fun t =>
        decide (t.socketTask "a" = .closed ∧ t.recvTask "a" = .stopped)) = true :=
  ⟨noGhosts_of_joinsAhead _ leaveAfterJoin (by decide), by decide⟩

end OpenMeet.SocketCleanup
