import OpenMeet.Consistency

/-!
Empty rooms. A room is created before the last checks of the join that needs it,
and is deleted by the socket cleanup that takes the last participant out. A room
that is mapped and empty is therefore somebody's concern: a join that is about to
use it or a cleanup about to delete it. The concern is dropped where a join ends
without its participant and where a forced removal empties the room; as long as
somebody else still has it there, no empty room is left behind.
-/
namespace OpenMeet.Occupancy

open KeyedMap Messages RoomState Repository SignalingServer SignalingSteps TransitionSystem
open Transitions Consistency

/-- The room id a join in progress is about. -/
def joinRoom : RecvTask → Option RoomId
  | .authorizing req | .admitting req | .checkingRoom req _ | .creatingRoom req _
  | .gettingRoom req _ | .reauthorizing req _ | .lockingRoom req _ | .settingUpPeer req _ _ _ =>
    some req.roomId
  | _ => none

def cleaningUp : SocketTask → Bool
  | .listingRooms | .findingRoom _ _ | .lockingRoom _ _ _ | .deletingRoom _ => true
  | _ => false

/-- Histories of joins, disconnects and forced removals, without closures of whole groups. -/
def withoutClosures : Action → Bool
  | .startClosure _ _ | .revokeRoom _ | .closeRoom _ => false
  | _ => true

/-- A mapped room has a participant unless a join on its id or a cleanup is under way. -/
def NoEmptyRooms (s : Server) : Prop :=
  ∀ id ref, s.repository.getRoom id = some ref → (∀ p, joinRoom (s.recvTask p) ≠ some id) →
    (∀ p, cleaningUp (s.socketTask p) = false) → (s.room ref).isEmpty = false

/-- The receive task is going to lock the room the id is mapped to. -/
def recvTends (id : RoomId) (ref : RoomRef) : RecvTask → Bool
  | .gettingRoom req _ => decide (req.roomId = id)
  | .reauthorizing req ref' | .lockingRoom req ref' | .settingUpPeer req ref' _ _ =>
    decide (req.roomId = id ∧ ref' = ref)
  | _ => false

/-- A join about to use the room or a cleanup about to delete its id. -/
def Tended (s : Server) (id : RoomId) (ref : RoomRef) : Prop :=
  (∃ p, recvTends id ref (s.recvTask p) = true) ∨ ∃ p, s.socketTask p = .deletingRoom id

/-- The join an action ends without adding its participant, with the reference it holds. -/
def endingJoin (env : Environment) (s : Server) : Action → Option (ParticipantId × RoomId)
  | .reauthorize p answer =>
    match s.recvTask p with
    | .reauthorizing req _ =>
      match authorizeSfuRoom env s p req.roomId answer with
      | none | some (some .authorized) => none
      | some _ => some (p, req.roomId)
    | _ => none
  | .lockRoom p =>
    match s.recvTask p with
    | .lockingRoom req ref =>
      if s.writer ref = none ∧ ((s.room ref).deniesAccess (s.identity p).userId = true ∨
          req.screenShareOf.all (ownerPresent (s.room ref) (s.identity p).userId) = false)
      then some (p, req.roomId) else none
    | _ => none
  | .finishJoin p peer =>
    match s.recvTask p with
    | .settingUpPeer req ref _ _ =>
      if peer.toOption.isNone ∨ (s.room ref).deniesAccess (s.identity p).userId = true
      then some (p, req.roomId) else none
    | _ => none
  | .abortReceiver p =>
    if s.aborted p then (joinRoom (s.recvTask p)).map fun roomId => (p, roomId) else none
  | _ => none

/-- The room an action forcibly empties. -/
def emptiedRoom (s : Server) : Action → Option RoomRef
  | .evict i =>
    match s.evictions i with
    | some e =>
      match e.stage with
      | .evicting _ ref _ =>
        if s.writer ref = none ∧ ((s.room ref).removeParticipants
            ((s.room ref).participantsOfUser e.userId)).1.isEmpty
        then some ref else none
      | _ => none
    | none => none
  | _ => none

/-- A join that ends without its participant, or a forced removal that empties a room, leaves
the mapped room with a participant or in the care of somebody else. -/
def LeavesTended (env : Environment) (s : Server) (a : Action) : Prop :=
  (∀ join ∈ endingJoin env s a, ∀ ref ∈ s.repository.getRoom join.2,
    (s.room ref).isEmpty = false ∨
      (∃ q, q ≠ join.1 ∧ recvTends join.2 ref (s.recvTask q) = true) ∨
      ∃ q, s.socketTask q = .deletingRoom join.2) ∧
  ∀ ref ∈ emptiedRoom s a, s.repository.getRoom (s.room ref).id = some ref →
    Tended s (s.room ref).id ref

/-- Every mapped room has a participant or is tended. -/
structure Occupied (s : Server) : Prop where
  consistent : Consistent s
  tended : ∀ id ref, s.repository.getRoom id = some ref →
    (s.room ref).isEmpty = false ∨ Tended s id ref

section Step

variable {env : Environment} {s t : Server} {a : Action}

/-- A room loses its last participant to a cleanup that goes on to delete its id, or to a
forced removal. -/
private theorem populated_cases (w : Consistent s) (h : Transition env s a t)
    (hallowed : withoutClosures a = true) {id : RoomId} {ref : RoomRef}
    (hroom : s.repository.getRoom id = some ref) (hpopulated : (s.room ref).isEmpty = false) :
    (t.room ref).isEmpty = false ∨ (∃ p, t.socketTask p = .deletingRoom id) ∨
      emptiedRoom s a = some ref := by
  obtain ⟨hlt, hid⟩ := s.repository.mapped id ref hroom
  cases h with
  | createRoom p req authorization repository htask hcreate =>
    obtain ⟨-, -, -, -, hobjects, -⟩ := s.repository.createRoom_eq_ok hcreate
    have hne : ref ≠ s.repository.nextRef := Nat.ne_of_lt hlt
    exact .inl (by simpa [hobjects, hne] using hpopulated)
  | join p peer req r =>
    by_cases hr : ref = r
    · subst hr
      refine .inl ((Map.isEmpty_eq_false_iff _).mpr ⟨p, ?_⟩)
      simp [Room.addParticipant, newConnection, Participant.new]
    · exact .inl (by simpa [hr] using hpopulated)
  | applyRequest p now timestamp roomId request r recent room outbox hid' htask hfree hactive
      hrun =>
    by_cases hr : ref = r
    · subst hr
      obtain ⟨q, hq⟩ := (Map.isEmpty_eq_false_iff _).mp hpopulated
      refine .inl ((Map.isEmpty_eq_false_iff _).mpr ⟨q, ?_⟩)
      obtain rfl := congrArg Prod.fst hrun
      have hkeys := (runRequest_frame (s.room ref) p (s.participantName p)
        (s.recentChatActions p) now timestamp request).2.1
      rw [AList.mem_keys] at hq ⊢
      simpa [hkeys] using hq
    · exact .inl (by simpa [hr] using hpopulated)
  | cleanUp p roomId r rest task hsocket hfree hmem htask =>
    by_cases hr : ref = r
    · subst hr
      cases hempty : ((s.room ref).removeWithScreenShares p).1.isEmpty with
      | true =>
        have hroomId := (w.socket_held p roomId ref (by simp [searchedRoom, hsocket])).2
        refine .inr (.inl ⟨p, ?_⟩)
        simpa [htask, hempty, ← hid] using hroomId.symm
      | false => exact .inl (by simpa using hempty)
    · exact .inl (by simpa [hr] using hpopulated)
  | markDenied i e roomId r =>
    by_cases hr : ref = r
    · subst hr
      exact .inl (by simpa [Room.denyUser, Room.isEmpty] using hpopulated)
    · exact .inl (by simpa [hr] using hpopulated)
  | evict i e roomId r rest heviction hstage hfree =>
    by_cases hr : ref = r
    · subst hr
      cases hempty : ((s.room ref).removeParticipants
          ((s.room ref).participantsOfUser e.userId)).1.isEmpty with
      | true =>
        refine .inr (.inr ?_)
        simp only [emptiedRoom, heviction, hstage, hfree, hempty, and_self, if_true]
      | false => exact .inl (by simpa using hempty)
    · exact .inl (by simpa [hr] using hpopulated)
  | closeRoom => cases hallowed
  | revokeMapped => cases hallowed
  | revokeUnmapped => cases hallowed
  | _ => exact .inl hpopulated

/-- A join that tends the room goes on tending it, adds its participant, or ends. -/
private theorem recvTends_cases (w : Consistent s) (h : Transition env s a t) {id : RoomId}
    {ref : RoomRef} {p : ParticipantId} (hroom : s.repository.getRoom id = some ref)
    (htends : recvTends id ref (s.recvTask p) = true) :
    recvTends id ref (t.recvTask p) = true ∨ (t.room ref).isEmpty = false ∨
      endingJoin env s a = some (p, id) := by
  rcases recvTask_cases h p with hsame | hchange
  · exact .inl (hsame ▸ htends)
  · generalize htask : s.recvTask p = before at hchange htends
    generalize t.recvTask p = after at hchange
    cases hchange with
    | move a before after messages hmove =>
      cases hmove with
      | gotManaged req r hget =>
        obtain rfl : req.roomId = id := by simpa [recvTends] using htends
        exact .inl (by simpa [recvTends] using Option.some.inj (hget.symm.trans hroom))
      | gotLegacy req authorization r hlegacy hget =>
        obtain rfl : req.roomId = id := by simpa [recvTends] using htends
        exact .inl (by simpa [recvTends] using Option.some.inj (hget.symm.trans hroom))
      | roomGone req authorization e hnone =>
        obtain rfl : req.roomId = id := by simpa [recvTends] using htends
        simp [hnone] at hroom
      | reauthorized req r => exact .inl htends
      | notReauthorized req r answer e hanswer hresult =>
        obtain ⟨rfl, rfl⟩ : req.roomId = id ∧ r = ref := by simpa [recvTends] using htends
        refine .inr (.inr ?_)
        obtain ⟨result, hsome⟩ := Option.isSome_iff_exists.mp hresult
        match result with
        | some .authorized => exact absurd hsome hanswer
        | none | some .legacy | some .denied =>
          simp only [endingJoin, htask, hsome]
      | accessDenied req r e hfree hdenied =>
        obtain ⟨rfl, rfl⟩ : req.roomId = id ∧ r = ref := by simpa [recvTends] using htends
        exact .inr (.inr (by simp only [endingJoin, htask, hfree, hdenied, and_self, if_true]))
      | abort task habort hrunning hunlocked =>
        refine .inr (.inr ?_)
        cases before with
        | gettingRoom req authorization =>
          obtain rfl : req.roomId = id := by simpa [recvTends] using htends
          simp [endingJoin, habort, htask, joinRoom]
        | reauthorizing req r =>
          obtain ⟨rfl, rfl⟩ : req.roomId = id ∧ r = ref := by simpa [recvTends] using htends
          simp [endingJoin, habort, htask, joinRoom]
        | lockingRoom req r =>
          obtain ⟨rfl, rfl⟩ : req.roomId = id ∧ r = ref := by simpa [recvTends] using htends
          simp [endingJoin, habort, htask, joinRoom]
        | settingUpPeer req r existing history =>
          exact absurd rfl (hunlocked req r existing history)
        | _ => cases htends
      | _ => cases htends
    | connected identity before hsocket =>
      rw [(w.unopened_idle p hsocket).1] at htask
      subst htask
      cases htends
    | created => cases htends
    | locked req r => exact .inl htends
    | failed peer req r existing history hfail =>
      obtain ⟨rfl, rfl⟩ : req.roomId = id ∧ r = ref := by simpa [recvTends] using htends
      refine .inr (.inr ?_)
      have hcond : peer.toOption.isNone = true ∨
          (s.room r).deniesAccess (s.identity p).userId = true := by
        rcases hfail with ⟨e, rfl⟩ | hdenied
        · exact .inl rfl
        · exact .inr hdenied
      simp only [endingJoin, htask, hcond, if_true]
    | aborted req r existing history habort =>
      obtain ⟨rfl, rfl⟩ : req.roomId = id ∧ r = ref := by simpa [recvTends] using htends
      exact .inr (.inr (by simp [endingJoin, habort, htask, joinRoom]))
    | joined req r existing history haccess hadd =>
      obtain ⟨rfl, rfl⟩ : req.roomId = id ∧ r = ref := by simpa [recvTends] using htends
      refine .inr (.inl ((Map.isEmpty_eq_false_iff _).mpr ⟨p, ?_⟩))
      simp [hadd, Room.addParticipant, newConnection, Participant.new]
    | applied => cases htends

/-- A cleanup about to delete an id goes on to, and then the id is not mapped. -/
private theorem deleting_stays (h : Transition env s a t) {id : RoomId} {ref : RoomRef}
    {p : ParticipantId} (hroom : t.repository.getRoom id = some ref)
    (hsocket : s.socketTask p = .deletingRoom id) : t.socketTask p = .deletingRoom id := by
  rcases socketTask_cases h p with hsame | hchange
  · exact hsame.trans hsocket
  · rw [hsocket] at hchange
    generalize t.socketTask p = after at hchange
    cases hchange with
    | move a before after hmove => cases hmove
    | deleted roomId hgone => simp [hgone] at hroom

private theorem tended_cases (w : Consistent s) (h : Transition env s a t) {id : RoomId}
    {ref : RoomRef} (hold : s.repository.getRoom id = some ref)
    (hroom : t.repository.getRoom id = some ref) (htended : Tended s id ref) :
    (t.room ref).isEmpty = false ∨ Tended t id ref ∨ ∃ p, endingJoin env s a = some (p, id) := by
  rcases htended with ⟨p, hp⟩ | ⟨p, hp⟩
  · rcases recvTends_cases w h hold hp with htends | hpopulated | hending
    · exact .inr (.inl (.inl ⟨p, htends⟩))
    · exact .inl hpopulated
    · exact .inr (.inr ⟨p, hending⟩)
  · exact .inr (.inl (.inr ⟨p, deleting_stays h hroom hp⟩))

private theorem endingJoin_of_emptied {ref : RoomRef} (h : emptiedRoom s a = some ref) :
    endingJoin env s a = none := by
  cases a with
  | evict i => rfl
  | _ => cases h

/-- A room that was mapped before stays populated or tended. -/
private theorem tended_old (hs : Occupied s) (hG : LeavesTended env s a)
    (hallowed : withoutClosures a = true) (h : Transition env s a t) {id : RoomId}
    {ref : RoomRef} (hold : s.repository.getRoom id = some ref)
    (hroom : t.repository.getRoom id = some ref) :
    (t.room ref).isEmpty = false ∨ Tended t id ref := by
  have hpopulated : (s.room ref).isEmpty = false →
      (t.room ref).isEmpty = false ∨ Tended t id ref := by
    intro hbefore
    rcases populated_cases hs.consistent h hallowed hold hbefore with hafter | hdeleting | hemptied
    · exact .inl hafter
    · exact .inr (.inr hdeleting)
    · have hid := (s.repository.mapped id ref hold).2
      have htended : Tended s id ref := hid ▸ hG.2 ref hemptied (hid.symm ▸ hold)
      rcases tended_cases hs.consistent h hold hroom htended with hafter | hafter | ⟨p, hending⟩
      · exact .inl hafter
      · exact .inr hafter
      · simp [endingJoin_of_emptied hemptied] at hending
  rcases hs.tended id ref hold with hbefore | htended
  · exact hpopulated hbefore
  · rcases tended_cases hs.consistent h hold hroom htended with hafter | hafter | ⟨p, hending⟩
    · exact .inl hafter
    · exact .inr hafter
    · rcases hG.1 _ hending ref hold with hbefore | ⟨q, hne, hq⟩ | ⟨q, hq⟩
      · exact hpopulated hbefore
      · rcases recvTends_cases hs.consistent h hold hq with htends | hafter | hending'
        · exact .inr (.inl ⟨q, htends⟩)
        · exact .inl hafter
        · exact absurd (Prod.mk.inj (Option.some.inj (hending'.symm.trans hending))).1 hne
      · exact .inr (.inr ⟨q, deleting_stays h hroom hq⟩)

/-- The join that creates a room goes on to look it up. -/
private theorem tended_new (h : Transition env s a t) {id : RoomId} {ref : RoomRef}
    {p : ParticipantId} (ha : a = .createRoom p) (hnone : s.repository.getRoom id = none)
    (hroom : t.repository.getRoom id = some ref) : Tended t id ref := by
  cases h with
  | createRoom q req authorization repository htask hcreate =>
    obtain ⟨-, -, hrooms, -, -, -⟩ := s.repository.createRoom_eq_ok hcreate
    by_cases hid : id = req.roomId
    · exact .inl ⟨q, by simp [recvTends, hid]⟩
    · rw [InMemoryRoomRepository.getRoom, hrooms, AList.lookup_insert_ne hid] at hroom
      exact absurd (hnone.symm.trans hroom) (by simp)
  | recv => exact absurd (hnone.symm.trans hroom) (by simp)
  | socket b q task hmove =>
    subst ha
    cases hmove
  | eviction b i e stage heviction hmove =>
    subst ha
    cases hmove
  | _ => cases ha

theorem occupied_step (hs : Occupied s) (hG : LeavesTended env s a)
    (hallowed : withoutClosures a = true) (h : Transition env s a t) : Occupied t where
  consistent := consistent_step hs.consistent h
  tended id ref hroom := by
    rcases getRoom_cases h hroom with hold | ⟨p, ha, hnone, -⟩
    · exact tended_old hs hG hallowed h hold hroom
    · exact .inr (tended_new h ha hnone hroom)

end Step

theorem noEmptyRooms_of_occupied {s : Server} (hs : Occupied s) : NoEmptyRooms s := by
  intro id ref hroom hjoins hcleanups
  rcases hs.tended id ref hroom with hpopulated | ⟨p, hp⟩ | ⟨p, hp⟩
  · exact hpopulated
  · refine absurd ?_ (hjoins p)
    generalize s.recvTask p = task at hp
    cases task <;> simp_all [recvTends, joinRoom]
  · simpa [hp, cleaningUp] using hcleanups p

theorem occupied_initial : Occupied Server.initial where
  consistent := consistent_initial
  tended id ref hroom := by
    simp [Server.initial, InMemoryRoomRepository.new, InMemoryRoomRepository.getRoom] at hroom

/-- Along a run that leaves no room untended, a mapped room without joins or cleanups under
way has a participant. -/
theorem noEmptyRooms_of_leavesTended (env : Environment) (actions : List Action)
    (hG : ((system env).restrict withoutClosures).Guarded (LeavesTended env)
      Server.initial actions) :
    ((system env).restrict withoutClosures).Always NoEmptyRooms Server.initial actions := by
  refine System.always_mono (fun s => noEmptyRooms_of_occupied) ?_
  refine System.always_of_guarded (I := Occupied) (G := LeavesTended env) ?_ occupied_initial hG
  intro s a t hs hG h
  obtain ⟨hallowed, hstep⟩ := System.restrict_step h
  exact occupied_step hs hG hallowed (step_transition hstep)

/-- Nobody else is there when the peer connection of the first participant fails. -/
def failFirstJoin : List Action :=
  [.connect "a" ⟨none, none⟩, .receive "a" (.join "r" "Ann" none none),
    .authorize "a" (some ⟨false, false, false⟩), .admitToMeetingRoom "a" (some .allowed),
    .checkRoom "a",
    .createRoom "a", .getRoom "a", .lockRoom "a", .finishJoin "a" (.error "no codec")]

/-- The room created for the failed join stays mapped and empty. -/
theorem failFirstJoin_empty :
    ¬ ((system ⟨fun _ => false, Char.isAlphanum⟩).restrict withoutClosures).Always NoEmptyRooms
      Server.initial failFirstJoin := by
  let M := (system ⟨fun _ => false, Char.isAlphanum⟩).restrict withoutClosures
  obtain ⟨t, hrun, htest⟩ := M.exists_run_of_any Server.initial failFirstJoin
    (fun t => decide (t.repository.getRoom "r" = some 0) && (t.room 0).isEmpty &&
      decide (t.recvTask "a" = .receiving ∧ t.socketTask "a" = .selecting)) (by decide)
  simp only [Bool.and_eq_true, decide_eq_true_eq] at htest
  obtain ⟨⟨hroom, hempty⟩, hrecv, hsocket⟩ := htest
  have hothers : ∀ p, p ≠ "a" → t.recvTask p = .stopped ∧ t.socketTask p = .unopened := by
    intro p hp
    refine Prod.mk.inj (System.unchanged_runFrom (fun s => (s.recvTask p, s.socketTask p)) ?_ hrun)
    intro a ha s u h
    refine tasks_frame (step_transition (System.restrict_step h).2) ?_
    simp only [failFirstJoin, List.mem_cons, List.not_mem_nil, or_false] at ha
    rcases ha with rfl | rfl | rfl | rfl | rfl | rfl | rfl | rfl | rfl <;>
      simpa [connectionOf] using hp.symm
  intro halways
  rw [← List.append_nil failFirstJoin] at halways
  have hpopulated := halways.runFrom hrun "r" 0 hroom ?_ ?_
  · simp [hempty] at hpopulated
  · intro p
    by_cases hp : p = "a"
    · simp [hp, hrecv, joinRoom]
    · simp [(hothers p hp).1, joinRoom]
  · intro p
    by_cases hp : p = "a"
    · simp [hp, hsocket, cleaningUp]
    · simp [(hothers p hp).2, cleaningUp]

/-- A presenter is there when a screen share of a stranger is refused; the presenter's own
cleanup deletes the room. -/
def refuseScreenShare : List Action :=
  [.connect "a" ⟨none, none⟩, .receive "a" (.join "r" "Ann" none none),
    .authorize "a" (some ⟨false, false, false⟩), .admitToMeetingRoom "a" (some .allowed),
    .checkRoom "a",
    .createRoom "a", .getRoom "a", .lockRoom "a", .finishJoin "a" (.ok ()),
    .connect "b" ⟨none, none⟩, .receive "b" (.join "r" "Bob" none (some "c")),
    .authorize "b" (some ⟨false, false, false⟩), .admitToMeetingRoom "b" (some .allowed),
    .checkRoom "b",
    .getRoom "b", .lockRoom "b",
    .stopReceiving "a", .selectReceiver "a", .findForCleanup "a", .cleanUp "a", .deleteRoom "a",
    .leave "a"]

/-- A join that ends meets a populated room and no forced removal empties one. -/
private def leavesPopulated (env : Environment) (s : Server) (a : Action) : Prop :=
  (∀ join ∈ endingJoin env s a, ∀ ref ∈ s.repository.getRoom join.2,
    (s.room ref).isEmpty = false) ∧ emptiedRoom s a = none

private instance (env : Environment) (s : Server) (a : Action) :
    Decidable (leavesPopulated env s a) :=
  inferInstanceAs (Decidable (_ ∧ _))

theorem noEmptyRooms_refuseScreenShare :
    ((system ⟨fun _ => false, Char.isAlphanum⟩).restrict withoutClosures).Always NoEmptyRooms
      Server.initial refuseScreenShare := by
  refine noEmptyRooms_of_leavesTended _ _ ?_
  refine System.guarded_mono (G := leavesPopulated ⟨fun _ => false, Char.isAlphanum⟩) ?_
    (by decide)
  intro s a hG
  refine ⟨fun join hjoin ref href => .inl (hG.1 join hjoin ref href), ?_⟩
  simp [hG.2]

end OpenMeet.Occupancy
