import OpenMeet.Directory
import OpenMeet.Revocation

/-!
First joins of a room. The look-up, the creation and the fetch of a room are
three steps with the repository's lock released in between. A join that found
the id absent fails when another creates the room first, and one that counts on
the room fails when a leaver deletes it first; nothing else in the directory
stands against a join of an id that is never revoked.
-/
namespace OpenMeet.FirstJoins

open KeyedMap Messages RoomState Repository SignalingServer SignalingSteps TransitionSystem
open Transitions Consistency Revocation

/-- How many steps of its own a join of the id has still to take. -/
def stepsLeft (roomId : RoomId) : RecvTask → Nat
  | .checkingRoom req _ => if req.roomId = roomId then 6 else 0
  | .creatingRoom req _ => if req.roomId = roomId then 5 else 0
  | .gettingRoom req _ => if req.roomId = roomId then 4 else 0
  | .reauthorizing req _ => if req.roomId = roomId then 3 else 0
  | .lockingRoom req _ => if req.roomId = roomId then 2 else 0
  | .settingUpPeer req _ _ _ => if req.roomId = roomId then 1 else 0
  | _ => 0

/-- The own steps of a join that nothing outside the directory stands against: membership and
access still hold, the presenter is there, and the peer connection is set up. -/
inductive Joins (env : Environment) (s : Server) (p : ParticipantId) : Action → Prop
  | checkRoom : Joins env s p (.checkRoom p)
  | createRoom : Joins env s p (.createRoom p)
  | getRoom : Joins env s p (.getRoom p)
  | reauthorize (req : JoinRequest) (ref : RoomRef) (answer : Option SfuRoomAuthorizationSnapshot)
      (htask : s.recvTask p = .reauthorizing req ref)
      (hanswer : authorizeSfuRoom env s p req.roomId answer = some (some .authorized)) :
      Joins env s p (.reauthorize p answer)
  | lockRoom (req : JoinRequest) (ref : RoomRef) (htask : s.recvTask p = .lockingRoom req ref)
      (haccess : (s.room ref).deniesAccess (s.identity p).userId = false)
      (howner : req.screenShareOf.all (ownerPresent (s.room ref) (s.identity p).userId) = true) :
      Joins env s p (.lockRoom p)
  | finishJoin (req : JoinRequest) (ref : RoomRef) (existing : List Room.ParticipantInfo)
      (history : List ChatMessagePayload)
      (htask : s.recvTask p = .settingUpPeer req ref existing history)
      (haccess : (s.room ref).deniesAccess (s.identity p).userId = false) :
      Joins env s p (.finishJoin p (.ok ()))

/-- Every join of the id goes on: its own steps bring it closer to its end, where its
participant is in the room, and nobody else's step throws it back. -/
structure JoinsGoOn (env : Environment) (roomId : RoomId) (s : Server) : Prop where
  own : ∀ p a t, 0 < stepsLeft roomId (s.recvTask p) → Joins env s p a → step env s a = some t →
    stepsLeft roomId (t.recvTask p) < stepsLeft roomId (s.recvTask p) ∧
      (stepsLeft roomId (t.recvTask p) = 0 → t.currentRoomId p = some roomId ∧
        ∃ ref, (t.room ref).id = roomId ∧ p ∈ (t.room ref).participants)
  others : ∀ p a t, connectionOf a ≠ some p → step env s a = some t →
    t.recvTask p = s.recvTask p

/-- No closure takes up the id. -/
def leavesOpen (roomId : RoomId) : Action → Bool
  | .startClosure _ roomIds => roomId ∉ roomIds
  | _ => true

/-- The connection whose join an action is about to create a room for, and the id. -/
def creating (s : Server) : Action → Option (ParticipantId × RoomId)
  | .createRoom p =>
    match s.recvTask p with
    | .creatingRoom req _ => some (p, req.roomId)
    | _ => none
  | _ => none

/-- The room is created while no other join that found it absent has still to create it, and
deleted while no join that counts on it has still to get it. -/
def Undisturbed (roomId : RoomId) (s : Server) (a : Action) : Prop :=
  (∀ p, creating s a = some (p, roomId) →
    ∀ q req authorization, s.recvTask q = .creatingRoom req authorization →
      req.roomId = roomId → q = p) ∧
  (Directory.deletedRoom s a = some roomId →
    ∀ q req authorization, s.recvTask q = .gettingRoom req authorization → req.roomId ≠ roomId)

/-- The directory is as the joins of the id have found it. -/
structure Expected (roomId : RoomId) (s : Server) : Prop where
  consistent : Consistent s
  absent : ∀ p req authorization, s.recvTask p = .creatingRoom req authorization →
    req.roomId = roomId → s.repository.getRoom roomId = none
  present : ∀ p req authorization, s.recvTask p = .gettingRoom req authorization →
    req.roomId = roomId → s.repository.getRoom roomId ≠ none
  not_revoked : roomId ∉ s.repository.revokedRoomIds
  unclosed : ∀ i c, s.closures i = some c → roomId ∉ unrevoked c.stage

theorem expected_initial (roomId : RoomId) : Expected roomId Server.initial where
  consistent := consistent_initial
  absent := by simp [Server.initial]
  present := by simp [Server.initial]
  not_revoked := by simp [Server.initial, InMemoryRoomRepository.new]
  unclosed := by simp [Server.initial]

section Step

variable {env : Environment} {roomId : RoomId} {s t : Server} {a : Action}

theorem roomExists_iff (repository : InMemoryRoomRepository) (id : RoomId) :
    repository.roomExists id = true ↔ repository.getRoom id ≠ none := by
  simp [InMemoryRoomRepository.roomExists, InMemoryRoomRepository.getRoom,
    Option.isSome_iff_ne_none]

/-- A mapped id is unmapped only by a deletion or a revocation. -/
theorem getRoom_stays (h : Transition env s a t) (hroom : s.repository.getRoom roomId ≠ none) :
    t.repository.getRoom roomId ≠ none ∨ Directory.deletedRoom s a = some roomId ∨
      ∃ i c rest, s.closures i = some c ∧ c.stage = .revoking (roomId :: rest) := by
  cases h with
  | createRoom p req authorization repository htask hcreate =>
    obtain ⟨-, -, hrooms, -, -, -⟩ := s.repository.createRoom_eq_ok hcreate
    refine Or.inl ?_
    by_cases hid : roomId = req.roomId
    · simp [InMemoryRoomRepository.getRoom, hrooms, hid]
    · simpa [InMemoryRoomRepository.getRoom, hrooms, hid] using hroom
  | deleteRoom p id hsocket =>
    by_cases hid : roomId = id
    · exact Or.inr (Or.inl (by simp [Directory.deletedRoom, hsocket, hid]))
    · exact Or.inl (by simpa [InMemoryRoomRepository.getRoom, hid] using hroom)
  | revokeUnmapped i c id rest hclosure hstage hnone =>
    by_cases hid : roomId = id
    · exact absurd hnone (hid ▸ hroom)
    · exact Or.inl (by simpa [InMemoryRoomRepository.getRoom, hid] using hroom)
  | revokeMapped i c id ref rest hclosure hstage =>
    by_cases hid : roomId = id
    · exact Or.inr (Or.inr ⟨i, c, rest, hclosure, hid ▸ hstage⟩)
    · exact Or.inl (by simpa [InMemoryRoomRepository.getRoom, hid] using hroom)
  | _ => exact Or.inl hroom

/-- Whoever looks for the room finds it absent or has found it so. -/
theorem absent_step (w : Expected roomId s) (hG : Undisturbed roomId s a)
    (h : Transition env s a t) {p : ParticipantId} {req : JoinRequest}
    {authorization : SfuRoomAuthorization}
    (htask : t.recvTask p = .creatingRoom req authorization) (hreq : req.roomId = roomId) :
    t.repository.getRoom roomId = none := by
  have hbefore : s.repository.getRoom roomId = none := by
    rcases recvTask_cases h p with hsame | hchange
    · exact w.absent p req authorization (hsame ▸ htask) hreq
    · rw [htask] at hchange
      generalize s.recvTask p = before at hchange
      cases hchange with
      | move a before after messages hmove =>
        cases hmove with
        | roomAbsent req authorization hroom =>
          by_contra hmapped
          rw [hreq, (roomExists_iff s.repository roomId).mpr hmapped] at hroom
          cases hroom
  cases hafter : t.repository.getRoom roomId with
  | none => rfl
  | some ref =>
    rcases getRoom_cases h hafter with hold | ⟨q, rfl, -⟩
    · simp [hbefore] at hold
    · cases h with
      | createRoom q req' authorization' repository htask' hcreate =>
        obtain ⟨-, -, hrooms, -, -, -⟩ := s.repository.createRoom_eq_ok hcreate
        have hid : req'.roomId = roomId := by
          by_contra hne
          have hsame : (s.repository.rooms.insert req'.roomId s.repository.nextRef).lookup
              roomId = s.repository.rooms.lookup roomId := AList.lookup_insert_ne (Ne.symm hne)
          simp only [InMemoryRoomRepository.getRoom, hrooms, hsame] at hafter hbefore
          simp [hbefore] at hafter
        by_cases hp : p = q
        · subst hp
          simp at htask
        · have hother : s.recvTask p = .creatingRoom req authorization := by
            simpa [hp] using htask
          exact absurd (hG.1 q (by simp [creating, htask', hid]) p req authorization hother hreq) hp
      | recv a r task messages hmove =>
        simp [advance, hbefore] at hafter
      | socket a r task hmove => cases hmove
      | eviction a i e stage heviction hmove => cases hmove

/-- The room stays where it is for whoever counts on it. -/
theorem present_step (w : Expected roomId s) (hG : Undisturbed roomId s a)
    (h : Transition env s a t) {p : ParticipantId} {req : JoinRequest}
    {authorization : SfuRoomAuthorization}
    (htask : t.recvTask p = .gettingRoom req authorization) (hreq : req.roomId = roomId) :
    t.repository.getRoom roomId ≠ none := by
  rcases recvTask_cases h p with hsame | hchange
  · have hold : s.recvTask p = .gettingRoom req authorization := hsame ▸ htask
    rcases getRoom_stays h (w.present p req authorization hold hreq) with hroom | hdeleted | hclosed
    · exact hroom
    · exact absurd hreq (hG.2 hdeleted p req authorization hold)
    · obtain ⟨i, c, rest, hclosure, hstage⟩ := hclosed
      exact absurd (by simp [hstage, unrevoked]) (w.unclosed i c hclosure)
  · rw [htask] at hchange
    generalize hbefore : s.recvTask p = before at hchange
    cases hchange with
    | move a before after messages hmove =>
      cases hmove with
      | roomFound req authorization hroom =>
        have hmapped := (roomExists_iff s.repository roomId).mp (hreq ▸ hroom)
        cases h with
        | recv a q task messages' hmove' => exact hmapped
        | socket a q task hmove' => cases hmove'
        | eviction a i e stage heviction hmove' => cases hmove'
    | created req authorization hroom =>
      obtain ⟨ref, href⟩ := hroom
      simp [← hreq, href]

theorem unrevoked_step (w : Expected roomId s) (h : Transition env s a t) :
    roomId ∉ t.repository.revokedRoomIds := by
  have hstage : ∀ i c id rest, s.closures i = some c → c.stage = .revoking (id :: rest) →
      roomId ≠ id := by
    intro i c id rest hclosure hstage hid
    exact w.unclosed i c hclosure (by simp [hstage, unrevoked, hid])
  cases h with
  | createRoom p req authorization repository htask hcreate =>
    obtain ⟨-, -, -, hrevoked, -, -⟩ := s.repository.createRoom_eq_ok hcreate
    simpa [hrevoked] using w.not_revoked
  | revokeUnmapped i c id rest hclosure hrest =>
    simpa [hstage i c id rest hclosure hrest] using w.not_revoked
  | revokeMapped i c id ref rest hclosure hrest =>
    simpa [hstage i c id rest hclosure hrest] using w.not_revoked
  | _ => exact w.not_revoked

theorem unclosed_step (w : Expected roomId s) (h : Transition env s a t)
    (hallowed : leavesOpen roomId a = true) {i : Nat} {c : Closure}
    (hclosure : t.closures i = some c) : roomId ∉ unrevoked c.stage := by
  have hupdate : ∀ (j : Nat) (after : Closure), roomId ∉ unrevoked after.stage →
      t.closures = Function.update s.closures j (some after) → roomId ∉ unrevoked c.stage := by
    intro j after hafter ht
    rw [ht] at hclosure
    by_cases hij : i = j
    · subst hij
      rw [Function.update_self] at hclosure
      exact Option.some.inj hclosure ▸ hafter
    · rw [Function.update_of_ne hij] at hclosure
      exact w.unclosed i c hclosure
  cases h with
  | startClosure j roomIds hnew =>
    refine hupdate j _ ?_ rfl
    simpa [leavesOpen, unrevoked] using hallowed
  | finishClosure j before hold hstage => exact hupdate j _ (by simp [unrevoked]) rfl
  | revokeUnmapped j before id rest hold hstage =>
    refine hupdate j _ (fun hmem => w.unclosed j before hold ?_) rfl
    simp only [hstage, unrevoked, List.mem_cons]
    exact Or.inr hmem
  | revokeMapped j before id ref rest hold hstage =>
    refine hupdate j _ (fun hmem => w.unclosed j before hold ?_) rfl
    simp only [hstage, unrevoked, List.mem_cons]
    exact Or.inr hmem
  | closeRoom j before ref rest hold hstage =>
    refine hupdate j _ (fun hmem => w.unclosed j before hold ?_) rfl
    rw [hstage]
    exact hmem
  | _ => exact w.unclosed i c hclosure

theorem expected_step (w : Expected roomId s) (hG : Undisturbed roomId s a)
    (hallowed : leavesOpen roomId a = true) (h : Transition env s a t) : Expected roomId t where
  consistent := consistent_step w.consistent h
  absent := fun _ _ _ htask hreq => absent_step w hG h htask hreq
  present := fun _ _ _ htask hreq => present_step w hG h htask hreq
  not_revoked := unrevoked_step w h
  unclosed := fun _ _ hclosure => unclosed_step w h hallowed hclosure

/-- Where the directory is as expected, the own steps of a join bring it to its end. -/
theorem own_step (w : Expected roomId s) {p : ParticipantId}
    (hleft : 0 < stepsLeft roomId (s.recvTask p)) (hjoins : Joins env s p a)
    (h : step env s a = some t) :
    stepsLeft roomId (t.recvTask p) < stepsLeft roomId (s.recvTask p) ∧
      (stepsLeft roomId (t.recvTask p) = 0 → t.currentRoomId p = some roomId ∧
        ∃ ref, (t.room ref).id = roomId ∧ p ∈ (t.room ref).participants) := by
  have hreq : ∀ {req : JoinRequest} {n : Nat}, 0 < (if req.roomId = roomId then n else 0) →
      req.roomId = roomId := by
    intro req n hpos
    by_contra hne
    simp [hne] at hpos
  cases hjoins with
  | checkRoom =>
    simp only [step, SignalingSteps.checkRoom] at h
    split at h
    · rename_i req authorization htask
      rw [htask, stepsLeft] at hleft
      split at h <;> cases h <;> simp [htask, stepsLeft, hreq hleft]
    · cases h
  | createRoom =>
    simp only [step, SignalingSteps.createRoom] at h
    split at h
    · rename_i req authorization htask
      rw [htask, stepsLeft] at hleft
      have hid := hreq hleft
      have hnone := w.absent p req authorization htask hid
      have hcreate : s.repository.createRoom req.roomId =
          .ok (s.repository.insertFresh req.roomId (hid ▸ w.not_revoked)) := by
        have hnotrevoked : req.roomId ∉ s.repository.revokedRoomIds := hid ▸ w.not_revoked
        have hunmapped : s.repository.rooms.lookup req.roomId = none := hid ▸ hnone
        simp [InMemoryRoomRepository.createRoom, hnotrevoked, hunmapped]
      rw [hcreate] at h
      cases h
      simp [htask, stepsLeft, hid]
    · cases h
  | getRoom =>
    simp only [step, SignalingSteps.getRoom] at h
    split at h
    · rename_i req authorization htask
      rw [htask, stepsLeft] at hleft
      have hid := hreq hleft
      split at h
      · rename_i hnone
        exact absurd (hid ▸ hnone) (w.present p req authorization htask hid)
      · split at h <;> cases h <;> simp [htask, stepsLeft, hid]
    · cases h
  | reauthorize req ref answer htask hanswer =>
    rw [htask, stepsLeft] at hleft
    simp only [step, SignalingSteps.reauthorize, htask, hanswer, Option.some.injEq] at h
    subst h
    simp [htask, stepsLeft, hreq hleft]
  | lockRoom req ref htask haccess howner =>
    rw [htask, stepsLeft] at hleft
    simp only [step, SignalingSteps.lockRoom, htask] at h
    split at h
    · cases h
    · simp only [haccess, howner, Bool.false_eq_true, if_false, Bool.not_true,
        Option.some.injEq] at h
      subst h
      simp [htask, stepsLeft, hreq hleft]
  | finishJoin req ref existing history htask haccess =>
    rw [htask, stepsLeft] at hleft
    have hid := hreq hleft
    simp only [step, SignalingSteps.finishJoin, htask, haccess, Bool.false_eq_true, if_false,
      Option.some.injEq] at h
    subst h
    refine ⟨by simp [htask, stepsLeft, hid], fun _ => ⟨by simp [hid], ref, ?_, ?_⟩⟩
    · have hheld := (w.consistent.recv_held p req.roomId ref (by simp [heldRoom, htask])).2
      simpa [hid] using hheld
    · simp [Room.addParticipant, newConnection, Participant.new]

theorem Expected.joinsGoOn (w : Expected roomId s) : JoinsGoOn env roomId s where
  own := fun _ _ _ hleft hjoins h => own_step w hleft hjoins h
  others := fun _ _ _ hother h => congrArg Prod.fst (tasks_frame (step_transition h) hother)

end Step

/-- Joins of an id that is never revoked go on to their end along a run in which creations and
deletions of its room come between no other join's own steps. -/
theorem joinsGoOn_of_undisturbed (env : Environment) (roomId : RoomId) (actions : List Action)
    (hG : ((system env).restrict (leavesOpen roomId)).Guarded (Undisturbed roomId)
      Server.initial actions) :
    ((system env).restrict (leavesOpen roomId)).Always (JoinsGoOn env roomId)
      Server.initial actions := by
  refine System.always_mono (fun s (w : Expected roomId s) => w.joinsGoOn) ?_
  refine System.always_of_guarded ?_ (expected_initial roomId) hG
  intro s a t w hG h
  obtain ⟨hallowed, hstep⟩ := System.restrict_step h
  exact expected_step w hG hallowed (step_transition hstep)

/-- A client is past its admission to the room. -/
def admission (p : ParticipantId) (name : String) : List Action :=
  [.connect p ⟨none, none⟩, .receive p (.join "r" name none none),
    .authorize p (some ⟨false, false, false⟩), .admitToMeetingRoom p (some .allowed)]

/-- Two clients find the room absent, and one of them creates it. -/
def bothFindItAbsent : List Action :=
  admission "a" "Ann" ++ admission "b" "Bob" ++ [.checkRoom "a", .checkRoom "b", .createRoom "a"]

/-- The second creation fails and ends its join. -/
theorem bothFindItAbsent_refused :
    ¬ ((system ⟨fun _ => false, Char.isAlphanum⟩).restrict (leavesOpen "r")).Always
      (JoinsGoOn ⟨fun _ => false, Char.isAlphanum⟩ "r") Server.initial bothFindItAbsent := by
  refine System.not_always_of_run
    (fun t => decide (stepsLeft "r" (t.recvTask "b") = 5) &&
      ((step ⟨fun _ => false, Char.isAlphanum⟩ t (.createRoom "b")).any fun u =>
        decide (stepsLeft "r" (u.recvTask "b") = 0 ∧ u.currentRoomId "b" = none)))
    (by decide) ?_
  intro t hfails h
  simp only [Bool.and_eq_true, decide_eq_true_eq, Option.any_eq_true] at hfails
  obtain ⟨hleft, u, hu, hdone, houtside⟩ := hfails
  have hjoined := ((h.own "b" _ u (by omega) .createRoom hu).2 hdone).1
  simp [houtside] at hjoined

/-- Bob comes when Ann has created the room, and Ann leaves when Bob has fetched it. -/
def joinOneAfterTheOther : List Action :=
  admission "a" "Ann" ++ [.checkRoom "a", .createRoom "a"] ++ admission "b" "Bob" ++
    [.checkRoom "b", .getRoom "a", .lockRoom "a", .getRoom "b", .finishJoin "a" (.ok ()),
      .stopReceiving "a", .selectReceiver "a", .findForCleanup "a", .cleanUp "a", .deleteRoom "a",
      .lockRoom "b", .finishJoin "b" (.ok ()), .leave "a"]

/-- Only Ann and Bob are there, and neither is about to fetch a room being deleted or to create
one the other creates. -/
private def undisturbedPair (s : Server) (a : Action) : Prop :=
  (∀ created ∈ creating s a, ∀ q ∈ ["a", "b"],
    stepsLeft created.2 (s.recvTask q) = 5 → q = created.1) ∧
  ∀ deleted ∈ Directory.deletedRoom s a, ∀ q ∈ ["a", "b"], stepsLeft deleted (s.recvTask q) ≠ 4

private instance (s : Server) (a : Action) : Decidable (undisturbedPair s a) :=
  inferInstanceAs (Decidable (_ ∧ _))

theorem joinsGoOn_joinOneAfterTheOther :
    ((system ⟨fun _ => false, Char.isAlphanum⟩).restrict (leavesOpen "r")).Always
      (JoinsGoOn ⟨fun _ => false, Char.isAlphanum⟩ "r") Server.initial joinOneAfterTheOther := by
  refine joinsGoOn_of_undisturbed _ _ _ ?_
  have hothers : ((system ⟨fun _ => false, Char.isAlphanum⟩).restrict (leavesOpen "r")).Always
      (fun s => ∀ q, q ∉ ["a", "b"] → s.recvTask q = .stopped)
      Server.initial joinOneAfterTheOther := by
    refine System.always_of_kept (fun q _ => rfl) fun a ha s t hs h q hq => ?_
    have hother : connectionOf a ≠ some q := by
      have hpair : ∀ b ∈ joinOneAfterTheOther, connectionOf b = some "a" ∨
          connectionOf b = some "b" := by decide
      rcases hpair a ha with heq | heq <;> rw [heq] <;> rintro ⟨⟩ <;> simp at hq
    rw [← hs q hq]
    exact congrArg Prod.fst (tasks_frame (step_transition (System.restrict_step h).2) hother)
  refine System.guarded_of_always (G := undisturbedPair) ?_ hothers (by decide)
  rintro s a hstopped ⟨hcreating, hdeleting⟩
  constructor
  · intro p hp q req authorization htask hreq
    by_cases hq : q ∈ ["a", "b"]
    · exact hcreating _ hp q hq (by simp [htask, stepsLeft, hreq])
    · simp [hstopped q hq] at htask
  · intro hdeleted q req authorization htask hreq
    by_cases hq : q ∈ ["a", "b"]
    · exact hdeleting _ hdeleted q hq (by simp [htask, stepsLeft, hreq])
    · simp [hstopped q hq] at htask

end OpenMeet.FirstJoins
