import OpenMeet.Consistency

/-!
The room directory against the live rooms. A populated room should be the one
its id is mapped to. Cleanup finds a room empty under the room's lock, releases
the lock and deletes by id, while a join may hold a reference to the same room;
so the directory stays complete exactly along the runs in which no deletion
meets a populated room and no join adds to a room the directory has lost.
-/
namespace OpenMeet.Directory

open KeyedMap Messages RoomState Repository SignalingServer SignalingSteps TransitionSystem
open Transitions Consistency

/-- Every participant is in the room the directory maps that room's id to. -/
def PopulatedRoomsMapped (s : Server) : Prop :=
  ∀ ref p, p ∈ (s.room ref).participants → s.repository.getRoom (s.room ref).id = some ref

def withoutRevocation : Action → Bool
  | .startClosure _ _ | .revokeRoom _ | .closeRoom _ => false
  | _ => true

/-- The id an action is about to delete. -/
def deletedRoom (s : Server) : Action → Option RoomId
  | .deleteRoom p =>
    match s.socketTask p with
    | .deletingRoom roomId => some roomId
    | _ => none
  | _ => none

/-- A deletion by id meets no populated room, and a join about to add its participant holds
the room that is mapped. -/
def KeepsMapped (s : Server) (a : Action) : Prop :=
  (∀ roomId ∈ deletedRoom s a, ∀ ref ∈ s.repository.getRoom roomId,
    (s.room ref).isEmpty = true) ∧
  ∀ join ∈ addingJoin s a, s.repository.getRoom join.2.1.roomId = some join.2.2

section Step

variable {env : Environment} {s t : Server} {a : Action}

private theorem nonempty_of_mem {room : Room} {p : ParticipantId} (hp : p ∈ room.participants) :
    room.isEmpty ≠ true := fun hempty => (Map.isEmpty_iff _).mp hempty p hp

/-- Deleting by id keeps the directory complete exactly when it meets no populated room. -/
private theorem deleteRoom_keeps_iff (hmapped : PopulatedRoomsMapped s)
    {p : ParticipantId} {roomId : RoomId} (hsocket : s.socketTask p = .deletingRoom roomId)
    (hrooms : ∀ ref, t.room ref = s.room ref)
    (hdelete : t.repository.rooms = s.repository.rooms.erase roomId) :
    PopulatedRoomsMapped t ↔ KeepsMapped s (.deleteRoom p) := by
  have hdeleted : deletedRoom s (.deleteRoom p) = some roomId := by
    simp only [deletedRoom, hsocket]
  constructor
  · intro ht
    refine ⟨?_, by simp [addingJoin]⟩
    intro roomId' hroomId ref hroom
    obtain rfl : roomId = roomId' := Option.some.inj (hdeleted.symm.trans hroomId)
    by_contra hpopulated
    obtain ⟨q, hq⟩ := (Map.isEmpty_eq_false_iff _).mp (Bool.not_eq_true _ ▸ hpopulated)
    have hafter := ht ref q (by rw [hrooms]; exact hq)
    rw [hrooms, (s.repository.mapped roomId ref hroom).2] at hafter
    simp [InMemoryRoomRepository.getRoom, hdelete] at hafter
  · intro hkeeps ref q hq
    rw [hrooms] at hq ⊢
    have hbefore := hmapped ref q hq
    by_cases hid : (s.room ref).id = roomId
    · exact absurd (hkeeps.1 roomId hdeleted ref (hid ▸ hbefore)) (nonempty_of_mem hq)
    · simpa [InMemoryRoomRepository.getRoom, hdelete, hid] using hbefore

private theorem join_keeps_iff (w : Consistent s) (hmapped : PopulatedRoomsMapped s)
    {p : ParticipantId} {req : JoinRequest} {ref : RoomRef}
    {existing : List Room.ParticipantInfo} {history : List ChatMessagePayload}
    (htask : s.recvTask p = .settingUpPeer req ref existing history)
    (haccess : (s.room ref).deniesAccess (s.identity p).userId = false)
    (h : Transition env s (.finishJoin p (.ok ())) (addToRoom s p req ref existing history)) :
    PopulatedRoomsMapped (addToRoom s p req ref existing history) ↔
      KeepsMapped s (.finishJoin p (.ok ())) := by
  obtain ⟨hlt, hid⟩ := w.recv_held p req.roomId ref (by simp [heldRoom, htask])
  have hadding := addingJoin_finishJoin htask haccess
  have hadded : p ∈ ((addToRoom s p req ref existing history).room ref).participants := by
    simp [Room.addParticipant, newConnection, Participant.new]
  constructor
  · intro ht
    refine ⟨by simp [deletedRoom], ?_⟩
    intro join hjoin
    obtain rfl := Option.some.inj (hadding.symm.trans hjoin)
    have hafter := ht ref p hadded
    rw [room_id h hlt, hid] at hafter
    simpa [InMemoryRoomRepository.getRoom] using hafter
  · intro hkeeps ref' q hq
    have hlt' : ref' < s.repository.nextRef := by
      by_contra hge
      exact (consistent_step w h).vacant ref' q (by simpa using hge) hq
    have hsame : (addToRoom s p req ref existing history).repository.getRoom =
        s.repository.getRoom := rfl
    rw [room_id h hlt', hsame]
    rcases member_cases h hq with hold | ⟨req', existing', history', ha, htask', -, -⟩
    · exact hmapped ref' q hold
    · obtain ⟨rfl, -⟩ := Action.finishJoin.inj ha
      obtain ⟨rfl, rfl, -, -⟩ := RecvTask.settingUpPeer.inj (htask.symm.trans htask')
      rw [hid]
      exact hkeeps.2 _ hadding

/-- A step that neither deletes nor adds keeps every populated room mapped. -/
private theorem mapped_step (w : Consistent s) (hmapped : PopulatedRoomsMapped s)
    (h : Transition env s a t) (hallowed : withoutRevocation a = true)
    (hdelete : ∀ p, a ≠ .deleteRoom p) (hjoin : ∀ p peer, a ≠ .finishJoin p peer) :
    PopulatedRoomsMapped t := by
  have hrooms : ∀ id ref, s.repository.getRoom id = some ref →
      t.repository.getRoom id = some ref := by
    intro id ref hroom
    cases h with
    | createRoom p req authorization repository htask hcreate =>
      obtain ⟨hnone, -, hafter, -, -, -⟩ := s.repository.createRoom_eq_ok hcreate
      have hid : id ≠ req.roomId := by
        rintro rfl
        simp [hnone] at hroom
      simpa [InMemoryRoomRepository.getRoom, hafter, hid] using hroom
    | deleteRoom p => exact absurd rfl (hdelete p)
    | revokeUnmapped => cases hallowed
    | revokeMapped => cases hallowed
    | _ => exact hroom
  intro ref p hp
  have hold : p ∈ (s.room ref).participants := by
    rcases member_cases h hp with hold | ⟨-, -, -, ha, -⟩
    · exact hold
    · exact absurd ha (hjoin p _)
  have hlt : ref < s.repository.nextRef := by
    by_contra hge
    exact w.vacant ref p (Nat.not_lt.mp hge) hold
  rw [room_id h hlt]
  exact hrooms _ _ (hmapped ref p hold)

/-- One step keeps the directory complete exactly when its condition holds before it. -/
theorem step_keeps_iff (w : Consistent s) (hmapped : PopulatedRoomsMapped s)
    (h : Transition env s a t) (hallowed : withoutRevocation a = true) :
    PopulatedRoomsMapped t ↔ KeepsMapped s a := by
  cases a with
  | deleteRoom p =>
    cases h with
    | deleteRoom p roomId hsocket =>
      exact deleteRoom_keeps_iff hmapped hsocket (fun _ => rfl) rfl
    | recv a q task messages hmove => cases hmove
    | socket a q task hmove => cases hmove
    | eviction a i e stage heviction hmove => cases hmove
  | finishJoin p peer =>
    have hstep := h
    cases h with
    | join p peer req ref existing history htask hpeer haccess =>
      subst hpeer
      exact join_keeps_iff w hmapped htask haccess hstep
    | failJoin p peer req ref existing history e htask hfail =>
      refine iff_of_true hmapped ⟨by simp [deletedRoom], ?_⟩
      rintro ⟨q, req', ref'⟩ hjoin
      obtain ⟨ha, haccess, existing', history', htask'⟩ := addingJoin_eq_some hjoin
      obtain ⟨rfl, rfl⟩ := Action.finishJoin.inj ha
      obtain ⟨rfl, rfl, -, -⟩ := RecvTask.settingUpPeer.inj (htask.symm.trans htask')
      rcases hfail with ⟨e, he⟩ | hdenied
      · cases he
      · simp [haccess] at hdenied
    | recv a q task messages hmove => cases hmove
    | socket a q task hmove => cases hmove
    | eviction a i e stage heviction hmove => cases hmove
  | startClosure => cases hallowed
  | revokeRoom => cases hallowed
  | closeRoom => cases hallowed
  | _ =>
    refine iff_of_true (mapped_step w hmapped h hallowed (by simp) (by simp)) ?_
    exact ⟨by simp [deletedRoom], by simp [addingJoin]⟩

private theorem idle_keeps (hidle : ((system env).restrict withoutRevocation).step s a = none) :
    KeepsMapped s a := by
  refine ⟨?_, ?_⟩
  · intro roomId hroomId
    unfold deletedRoom at hroomId
    split at hroomId
    · split at hroomId
      · rename_i hsocket
        simp [System.restrict, withoutRevocation, system, step, SignalingSteps.deleteRoom,
          hsocket] at hidle
      · cases hroomId
    · cases hroomId
  · rintro ⟨p, req, ref⟩ hjoin
    obtain ⟨rfl, haccess, existing, history, htask⟩ := addingJoin_eq_some hjoin
    simp [System.restrict, withoutRevocation, system, step, finishJoin, htask,
      haccess] at hidle

end Step

/-- Without revocation, the directory is complete in every state of a run exactly when every
deletion and every join of the run meets its condition. -/
theorem populatedRoomsMapped_iff (env : Environment) (actions : List Action) :
    ((system env).restrict withoutRevocation).Always PopulatedRoomsMapped
        Server.initial actions ↔
      ((system env).restrict withoutRevocation).Guarded KeepsMapped
        Server.initial actions := by
  refine System.always_iff_guarded (J := Consistent) ?_ ?_ ?_ consistent_initial ?_ actions
  · intro s a t w _ h
    exact consistent_step w (step_transition (System.restrict_step h).2)
  · intro s a t w hmapped h
    obtain ⟨hallowed, hstep⟩ := System.restrict_step h
    exact step_keeps_iff w hmapped (step_transition hstep) hallowed
  · exact fun s a => idle_keeps
  · intro ref p hp
    exact absurd hp (consistent_initial.vacant ref p (Nat.zero_le ref))

/-- A participant leaves an emptied room while another, who found the room before, joins it. -/
def deleteAfterJoin : List Action :=
  [.connect "a" ⟨none, none⟩, .receive "a" (.join "r" "Ann" none none),
    .authorize "a" (some ⟨false, false, false⟩), .admitToMeetingRoom "a" (some .allowed),
    .checkRoom "a", .createRoom "a", .getRoom "a", .lockRoom "a", .finishJoin "a" (.ok ()),
    .connect "b" ⟨none, none⟩, .receive "b" (.join "r" "Bob" none none),
    .authorize "b" (some ⟨false, false, false⟩), .admitToMeetingRoom "b" (some .allowed),
    .checkRoom "b", .getRoom "b",
    .stopReceiving "a", .selectReceiver "a", .findForCleanup "a", .cleanUp "a",
    .lockRoom "b", .finishJoin "b" (.ok ()), .deleteRoom "a"]

/-- The deletion takes the room Bob has just joined out of the directory. -/
theorem deleteAfterJoin_unmapped :
    ¬ ((system ⟨fun _ => false, Char.isAlphanum⟩).restrict withoutRevocation).Always
      PopulatedRoomsMapped Server.initial deleteAfterJoin := by
  refine System.not_always_of_run
    (fun t => decide ("b" ∈ (t.room 0).participants) &&
      decide (t.repository.getRoom (t.room 0).id = none)) (by decide) ?_
  intro t ht hmapped
  obtain ⟨hmem, hnone⟩ := by simpa using ht
  have hroom := hmapped 0 "b" (by simpa using hmem)
  simp [hnone] at hroom

end OpenMeet.Directory
