import OpenMeet.Transitions

/-!
What every reachable server state satisfies, whatever the interleaving. First
what one step can change, observable by observable: which ids get mapped, who
becomes a participant, which room references tasks hold and who holds a room's
lock. The background invariant follows from these, one field at a time.
-/
namespace OpenMeet.Consistency

open KeyedMap Messages RoomState Repository SignalingServer SignalingSteps TransitionSystem
open Transitions

/-- A join past its first validation and not yet answered. -/
def isJoining : RecvTask → Bool
  | .authorizing _ | .admitting _ | .checkingRoom _ _ | .creatingRoom _ _ | .gettingRoom _ _
  | .reauthorizing _ _ | .lockingRoom _ _ | .settingUpPeer _ _ _ _ => true
  | _ => false

/-- The room a receive task keeps a reference to, with the id it looked it up by. -/
def heldRoom : RecvTask → Option (RoomId × RoomRef)
  | .reauthorizing req ref | .lockingRoom req ref | .settingUpPeer req ref _ _ =>
    some (req.roomId, ref)
  | .lockingFor roomId _ ref => some (roomId, ref)
  | _ => none

/-- Peer setup in the given room, which is when a receive task holds the room's lock. -/
def SettingUp (ref : RoomRef) (task : RecvTask) : Prop :=
  ∃ req existing history, task = .settingUpPeer req ref existing history

def searchedRoom : SocketTask → Option (RoomId × RoomRef)
  | .lockingRoom roomId ref _ => some (roomId, ref)
  | _ => none

/-- The join an action is about to complete by adding its participant to a room. -/
def addingJoin (s : Server) : Action → Option (ParticipantId × JoinRequest × RoomRef)
  | .finishJoin p (.ok _) =>
    match s.recvTask p with
    | .settingUpPeer req ref _ _ =>
      if (s.room ref).deniesAccess (s.identity p).userId then none else some (p, req, ref)
    | _ => none
  | _ => none

theorem addingJoin_finishJoin {s : Server} {p : ParticipantId} {req : JoinRequest}
    {ref : RoomRef} {existing : List Room.ParticipantInfo} {history : List ChatMessagePayload}
    (htask : s.recvTask p = .settingUpPeer req ref existing history)
    (haccess : (s.room ref).deniesAccess (s.identity p).userId = false) :
    addingJoin s (.finishJoin p (.ok ())) = some (p, req, ref) := by
  simp only [addingJoin, htask, haccess, Bool.false_eq_true, if_false]

theorem addingJoin_eq_some {s : Server} {a : Action} {p : ParticipantId} {req : JoinRequest}
    {ref : RoomRef} (h : addingJoin s a = some (p, req, ref)) :
    a = .finishJoin p (.ok ()) ∧ (s.room ref).deniesAccess (s.identity p).userId = false ∧
      ∃ existing history, s.recvTask p = .settingUpPeer req ref existing history := by
  unfold addingJoin at h
  split at h
  · split at h
    · rename_i htask
      split at h
      · cases h
      · rename_i haccess
        cases h
        exact ⟨rfl, by simpa using haccess, _, _, htask⟩
    · cases h
  · cases h

/-! ## What a step changes -/

section Observables

variable {env : Environment} {s t : Server} {a : Action}

theorem nextRef_le (h : Transition env s a t) : s.repository.nextRef ≤ t.repository.nextRef := by
  cases h with
  | createRoom p req authorization repository htask hcreate =>
    obtain ⟨-, -, -, -, -, hnext⟩ := s.repository.createRoom_eq_ok hcreate
    simp [hnext]
  | _ => simp

/-- An allocated room object keeps its id. -/
theorem room_id (h : Transition env s a t) {ref : RoomRef} (hlt : ref < s.repository.nextRef) :
    (t.room ref).id = (s.room ref).id := by
  have hset : ∀ (r : RoomRef) (room : Room) (_ : room.id = (s.room r).id),
      (Function.update s.repository.objects r room ref).id = (s.repository.objects ref).id := by
    intro r room hid
    by_cases hr : ref = r
    · subst r
      simpa using hid
    · simp [hr]
  cases h with
  | createRoom p req authorization repository htask hcreate =>
    obtain ⟨-, -, -, -, hobjects, -⟩ := s.repository.createRoom_eq_ok hcreate
    have hne : ref ≠ s.repository.nextRef := Nat.ne_of_lt hlt
    simp [hobjects, hne]
  | join p peer req r existing history => exact hset r _ rfl
  | applyRequest p now timestamp roomId request r recent room outbox hid => exact hset r _ hid
  | cleanUp p roomId r => exact hset r _ (Room.removeWithScreenShares_id ..)
  | markDenied i e roomId r => exact hset r _ rfl
  | evict i e roomId r => exact hset r _ (Room.removeParticipants_id ..)
  | closeRoom i c r => exact hset r _ (Room.removeParticipants_id ..)
  | revokeMapped i c roomId r rest hclosure hstage hroom =>
    simpa [InMemoryRoomRepository.revokeRoom_objects, hroom] using
      hset r { s.room r with revoked := true } rfl
  | revokeUnmapped i c roomId rest hclosure hstage hroom =>
    simp [InMemoryRoomRepository.revokeRoom_objects, hroom]
  | _ => rfl

/-- Only room creation maps an id, and only one that was not mapped. -/
theorem getRoom_cases (h : Transition env s a t) {id : RoomId} {ref : RoomRef}
    (hroom : t.repository.getRoom id = some ref) :
    s.repository.getRoom id = some ref ∨
      ∃ p, a = .createRoom p ∧ s.repository.getRoom id = none ∧ ref = s.repository.nextRef := by
  cases h with
  | createRoom p req authorization repository htask hcreate =>
    obtain ⟨hnone, -, hrooms, -, -, -⟩ := s.repository.createRoom_eq_ok hcreate
    by_cases hid : id = req.roomId
    · subst id
      refine .inr ⟨p, rfl, hnone, ?_⟩
      simpa [InMemoryRoomRepository.getRoom, hrooms, eq_comm] using hroom
    · exact .inl (by simpa [InMemoryRoomRepository.getRoom, hrooms, hid] using hroom)
  | deleteRoom p roomId =>
    refine .inl (s.repository.lookup_erase_eq_some roomId ?_).2
    simpa [InMemoryRoomRepository.getRoom] using hroom
  | revokeMapped i c roomId r =>
    refine .inl (s.repository.lookup_erase_eq_some roomId ?_).2
    simpa [InMemoryRoomRepository.getRoom] using hroom
  | revokeUnmapped i c roomId =>
    refine .inl (s.repository.lookup_erase_eq_some roomId ?_).2
    simpa [InMemoryRoomRepository.getRoom] using hroom
  | _ => exact .inl hroom

/-- A connection found in a room was there before, with the same identity, or a join has just
put it there. -/
theorem connection_cases (h : Transition env s a t) {ref : RoomRef} {q : ParticipantId}
    {after : ParticipantConnection} (hlookup : (t.room ref).participants.lookup q = some after) :
    (∃ before, (s.room ref).participants.lookup q = some before ∧
      after.participant.id = before.participant.id ∧
      after.participant.userId = before.participant.userId ∧
      after.participant.screenShareOf = before.participant.screenShareOf) ∨
    ∃ req existing history, a = .finishJoin q (.ok ()) ∧
      s.recvTask q = .settingUpPeer req ref existing history ∧
      (s.room ref).deniesAccess (s.identity q).userId = false ∧
      after = newConnection q (s.identity q).userId req ∧
      t = addToRoom s q req ref existing history := by
  have hsame : (s.room ref).participants.lookup q = some after →
      ∃ before, (s.room ref).participants.lookup q = some before ∧
        after.participant.id = before.participant.id ∧
        after.participant.userId = before.participant.userId ∧
        after.participant.screenShareOf = before.participant.screenShareOf :=
    fun h => ⟨after, h, rfl, rfl, rfl⟩
  cases h with
  | createRoom p req authorization repository htask hcreate =>
    obtain ⟨-, -, -, -, hobjects, -⟩ := s.repository.createRoom_eq_ok hcreate
    by_cases hr : ref = s.repository.nextRef
    · simp [hobjects, hr, Room.new] at hlookup
    · exact .inl (hsame (by simpa [hobjects, hr] using hlookup))
  | join p peer req r existing history htask hpeer haccess =>
    by_cases hr : ref = r
    · subst r
      by_cases hq : q = p
      · subst q
        refine .inr ⟨req, existing, history, hpeer ▸ rfl, htask, haccess, Eq.symm ?_, rfl⟩
        simpa [Room.addParticipant, newConnection, Participant.new] using hlookup
      · refine .inl (hsame ?_)
        simpa [Room.addParticipant, newConnection, Participant.new, hq] using hlookup
    · exact .inl (hsame (by simpa [hr] using hlookup))
  | applyRequest p now timestamp roomId request r recent room outbox hid htask hfree hactive hrun =>
    by_cases hr : ref = r
    · subst r
      obtain rfl := congrArg Prod.fst hrun
      exact .inl (lookup_runRequest (by simpa using hlookup))
    · exact .inl (hsame (by simpa [hr] using hlookup))
  | cleanUp p roomId r =>
    by_cases hr : ref = r
    · subst r
      refine .inl (hsame ?_)
      simp only [Server.room, Server.setSocket, Server.deliver, Server.setRoom,
        InMemoryRoomRepository.setRoom_objects, Function.update_self,
        Room.lookup_removeWithScreenShares] at hlookup
      split at hlookup
      · cases hlookup
      · exact hlookup
    · exact .inl (hsame (by simpa [hr] using hlookup))
  | markDenied i e roomId r =>
    by_cases hr : ref = r
    · subst r
      exact .inl (hsame (by simpa [Room.denyUser] using hlookup))
    · exact .inl (hsame (by simpa [hr] using hlookup))
  | evict i e roomId r =>
    by_cases hr : ref = r
    · subst r
      refine .inl (hsame ?_)
      simp only [Server.room, Server.setEviction, Server.deliver, Server.setRoom,
        InMemoryRoomRepository.setRoom_objects, Function.update_self,
        Room.lookup_removeParticipants] at hlookup
      split at hlookup
      · cases hlookup
      · exact hlookup
    · exact .inl (hsame (by simpa [hr] using hlookup))
  | closeRoom i c r =>
    by_cases hr : ref = r
    · subst r
      refine .inl (hsame ?_)
      simp only [Server.room, Server.setClosure, Server.deliver, Server.setRoom,
        InMemoryRoomRepository.setRoom_objects, Function.update_self,
        Room.lookup_removeParticipants] at hlookup
      split at hlookup
      · cases hlookup
      · exact hlookup
    · exact .inl (hsame (by simpa [hr] using hlookup))
  | revokeMapped i c roomId r rest hclosure hstage hroom =>
    by_cases hr : ref = r
    · subst r
      refine .inl (hsame ?_)
      simpa [InMemoryRoomRepository.revokeRoom_objects, hroom] using hlookup
    · refine .inl (hsame ?_)
      simpa [InMemoryRoomRepository.revokeRoom_objects, hroom, hr] using hlookup
  | revokeUnmapped i c roomId rest hclosure hstage hroom =>
    refine .inl (hsame ?_)
    simpa [InMemoryRoomRepository.revokeRoom_objects, hroom] using hlookup
  | _ => exact .inl (hsame hlookup)

/-- Whoever is in a room was in it before or has just joined it. -/
theorem member_cases (h : Transition env s a t) {ref : RoomRef} {q : ParticipantId}
    (hmem : q ∈ (t.room ref).participants) :
    q ∈ (s.room ref).participants ∨
    ∃ req existing history, a = .finishJoin q (.ok ()) ∧
      s.recvTask q = .settingUpPeer req ref existing history ∧
      (s.room ref).deniesAccess (s.identity q).userId = false ∧
      t = addToRoom s q req ref existing history := by
  obtain ⟨after, hafter⟩ := Option.isSome_iff_exists.mp (AList.lookup_isSome.mpr hmem)
  rcases connection_cases h hafter with ⟨before, hbefore, -⟩ | hjoin
  · exact .inl (AList.lookup_isSome.mp (Option.isSome_of_mem hbefore))
  · obtain ⟨req, existing, history, ha, htask, haccess, -, ht⟩ := hjoin
    exact .inr ⟨req, existing, history, ha, htask, haccess, ht⟩

/-- How a receive task changes in one step. -/
inductive RecvChange (env : Environment) (s t : Server) (q : ParticipantId) :
    Action → RecvTask → RecvTask → Prop
  | move (a before after messages : _) (hmove : RecvMove env s q a before after messages) :
      RecvChange env s t q a before after
  | connected (identity before : _) (hsocket : s.socketTask q = .unopened)
      (hselecting : t.socketTask q = .selecting) :
      RecvChange env s t q (.connect q identity) before .receiving
  | created (req : JoinRequest) (authorization : _)
      (hroom : ∃ ref, t.repository.getRoom req.roomId = some ref) :
      RecvChange env s t q (.createRoom q) (.creatingRoom req authorization)
        (.gettingRoom req authorization)
  | locked (req : JoinRequest) (ref : RoomRef) (hfree : s.writer ref = none)
      (haccess : (s.room ref).deniesAccess (s.identity q).userId = false)
      (hsame : t.repository = s.repository) :
      RecvChange env s t q (.lockRoom q) (.lockingRoom req ref)
        (.settingUpPeer req ref (s.room ref).getParticipantsWithMediaState
          (s.room ref).chatHistory)
  | failed (peer : _) (req : JoinRequest) (ref : RoomRef) (existing history : _)
      (hfail : (∃ e, peer = .error e) ∨
        (s.room ref).deniesAccess (s.identity q).userId = true) :
      RecvChange env s t q (.finishJoin q peer) (.settingUpPeer req ref existing history)
        .receiving
  | aborted (req : JoinRequest) (ref : RoomRef) (existing history : _)
      (habort : s.aborted q = true) :
      RecvChange env s t q (.abortReceiver q) (.settingUpPeer req ref existing history) .stopped
  | joined (req : JoinRequest) (ref : RoomRef) (existing history : _)
      (haccess : (s.room ref).deniesAccess (s.identity q).userId = false)
      (hadd : t = addToRoom s q req ref existing history) :
      RecvChange env s t q (.finishJoin q (.ok ())) (.settingUpPeer req ref existing history)
        .receiving
  | applied (now timestamp : Nat) (roomId : RoomId) (request : RoomRequest) (ref : RoomRef) :
      RecvChange env s t q (.applyRequest q now timestamp) (.lockingFor roomId request ref)
        .receiving

theorem recvTask_cases (h : Transition env s a t) (q : ParticipantId) :
    t.recvTask q = s.recvTask q ∨ RecvChange env s t q a (s.recvTask q) (t.recvTask q) := by
  have hupdate : ∀ (p : ParticipantId) (task : RecvTask),
      t.recvTask = Function.update s.recvTask p task →
      RecvChange env s t p a (s.recvTask p) task →
      t.recvTask q = s.recvTask q ∨ RecvChange env s t q a (s.recvTask q) (t.recvTask q) := by
    intro p task ht hchange
    by_cases hq : q = p
    · subst q
      refine .inr ?_
      rw [ht, Function.update_self]
      exact hchange
    · exact .inl (by simp [ht, hq])
  cases h with
  | connect p identity hsocket => exact hupdate p _ rfl (.connected _ _ hsocket (by simp))
  | recv a p task messages hmove => exact hupdate p _ rfl (.move _ _ _ _ hmove)
  | createRoom p req authorization repository htask hcreate =>
    obtain ⟨-, -, hrooms, -, -, -⟩ := s.repository.createRoom_eq_ok hcreate
    refine hupdate p _ rfl (htask ▸ .created _ _ ⟨s.repository.nextRef, ?_⟩)
    simp [InMemoryRoomRepository.getRoom, hrooms]
  | lockRoom p req ref htask hfree haccess =>
    exact hupdate p _ rfl (htask ▸ .locked _ _ hfree haccess rfl)
  | failJoin p peer req ref existing history e htask hfail =>
    exact hupdate p _ rfl (htask ▸ .failed _ _ _ _ _ hfail)
  | abortJoin p req ref existing history htask habort =>
    exact hupdate p _ rfl (htask ▸ .aborted _ _ _ _ habort)
  | join p peer req ref existing history htask hpeer haccess =>
    subst hpeer
    exact hupdate p _ rfl (htask ▸ .joined _ _ _ _ haccess rfl)
  | applyRequest p now timestamp roomId request ref recent room outbox hid htask =>
    exact hupdate p _ rfl (htask ▸ .applied _ _ _ _ _)
  | _ => exact .inl rfl

/-- A reference a receive task holds was held before, or is mapped where it was looked up. -/
theorem heldRoom_cases (h : Transition env s a t) {q : ParticipantId} {id : RoomId}
    {ref : RoomRef} (hheld : heldRoom (t.recvTask q) = some (id, ref)) :
    heldRoom (s.recvTask q) = some (id, ref) ∨ s.repository.getRoom id = some ref := by
  rcases recvTask_cases h q with hsame | hchange
  · exact .inl (hsame ▸ hheld)
  · generalize s.recvTask q = before at hchange ⊢
    generalize t.recvTask q = after at hchange hheld
    cases hchange with
    | move a before after messages hmove =>
      cases hmove with
      | gotManaged req r hroom =>
        cases hheld
        exact .inr hroom
      | gotLegacy req authorization r hlegacy hroom =>
        cases hheld
        exact .inr hroom
      | found roomId request r hroom =>
        cases hheld
        exact .inr hroom
      | reauthorized req r => exact .inl hheld
      | _ => cases hheld
    | locked req r => exact .inl hheld
    | _ => cases hheld

/-- Peer setup continues, or has just begun under the lock it took. -/
theorem settingUp_cases (h : Transition env s a t) {q : ParticipantId} {req : JoinRequest}
    {ref : RoomRef} {existing : List Room.ParticipantInfo} {history : List ChatMessagePayload}
    (htask : t.recvTask q = .settingUpPeer req ref existing history) :
    s.recvTask q = .settingUpPeer req ref existing history ∨
    a = .lockRoom q ∧ s.recvTask q = .lockingRoom req ref ∧ s.writer ref = none ∧
      (s.room ref).deniesAccess (s.identity q).userId = false ∧
      existing = (s.room ref).getParticipantsWithMediaState ∧
      history = (s.room ref).chatHistory ∧ t.repository = s.repository := by
  rcases recvTask_cases h q with hsame | hchange
  · exact .inl (hsame ▸ htask)
  · generalize s.recvTask q = before at hchange ⊢
    rw [htask] at hchange
    cases hchange with
    | move a before after messages hmove => cases hmove
    | locked req r hfree haccess hsame =>
      exact .inr ⟨rfl, rfl, hfree, haccess, rfl, rfl, hsame⟩

/-- A connection's room changes only when its join adds it. -/
theorem currentRoomId_cases (h : Transition env s a t) (q : ParticipantId) :
    t.currentRoomId q = s.currentRoomId q ∨
    ∃ req ref existing history, a = .finishJoin q (.ok ()) ∧
      s.recvTask q = .settingUpPeer req ref existing history ∧
      (s.room ref).deniesAccess (s.identity q).userId = false ∧
      t = addToRoom s q req ref existing history := by
  cases h with
  | join p peer req ref existing history htask hpeer haccess =>
    by_cases hq : q = p
    · subst q
      exact .inr ⟨req, ref, existing, history, hpeer ▸ rfl, htask, haccess, rfl⟩
    · exact .inl (by simp [hq])
  | _ => exact .inl rfl

/-- A join begins only in a connection that is in no room. -/
theorem joining_cases (h : Transition env s a t) {q : ParticipantId}
    (hjoining : isJoining (t.recvTask q) = true) :
    isJoining (s.recvTask q) = true ∨ s.currentRoomId q = none := by
  rcases recvTask_cases h q with hsame | hchange
  · exact .inl (hsame ▸ hjoining)
  · generalize s.recvTask q = before at hchange ⊢
    generalize t.recvTask q = after at hchange hjoining
    cases hchange with
    | move a before after messages hmove =>
      cases hmove with
      | startJoin message req houtside => exact .inr houtside
      | _ => first | exact .inl rfl | cases hjoining
    | created req authorization hroom => exact .inl rfl
    | locked req ref => exact .inl rfl
    | _ => cases hjoining

/-- How a socket task changes in one step. -/
inductive SocketChange (s t : Server) (q : ParticipantId) : Action → SocketTask → SocketTask → Prop
  | move (a before after : _) (hmove : SocketMove s q a before after)
      (hsame : t.repository = s.repository) :
      SocketChange s t q a before after
  | connected (identity : _) (hidle : t.recvTask q = .receiving) :
      SocketChange s t q (.connect q identity) .unopened .selecting
  | selected (habort : t.aborted q = true) :
      SocketChange s t q (.selectSender q) .selecting .listingRooms
  | emptied (roomId : RoomId) (ref : RoomRef) (rest : List RoomId)
      (hmem : q ∈ (s.room ref).participants) (hgone : q ∉ (t.room ref).participants)
      (hempty : ((s.room ref).removeWithScreenShares q).1.isEmpty = true) :
      SocketChange s t q (.cleanUp q) (.lockingRoom roomId ref rest) (.deletingRoom roomId)
  | removed (roomId : RoomId) (ref : RoomRef) (rest : List RoomId)
      (hmem : q ∈ (s.room ref).participants) (hgone : q ∉ (t.room ref).participants)
      (hpopulated : ((s.room ref).removeWithScreenShares q).1.isEmpty = false) :
      SocketChange s t q (.cleanUp q) (.lockingRoom roomId ref rest) .leaving
  | deleted (roomId : RoomId) (hgone : t.repository.getRoom roomId = none) :
      SocketChange s t q (.deleteRoom q) (.deletingRoom roomId) .leaving
  | left : SocketChange s t q (.leave q) .leaving .closed

theorem socketTask_cases (h : Transition env s a t) (q : ParticipantId) :
    t.socketTask q = s.socketTask q ∨
      SocketChange s t q a (s.socketTask q) (t.socketTask q) := by
  have hupdate : ∀ (p : ParticipantId) (task : SocketTask),
      t.socketTask = Function.update s.socketTask p task →
      SocketChange s t p a (s.socketTask p) task →
      t.socketTask q = s.socketTask q ∨
        SocketChange s t q a (s.socketTask q) (t.socketTask q) := by
    intro p task ht hchange
    by_cases hq : q = p
    · subst q
      refine .inr ?_
      rw [ht, Function.update_self]
      exact hchange
    · exact .inl (by simp [ht, hq])
  cases h with
  | connect p identity hsocket =>
    exact hupdate p _ rfl (hsocket ▸ .connected _ (by simp))
  | selectSender p hsocket => exact hupdate p _ rfl (hsocket ▸ .selected (by simp))
  | socket a p task hmove => exact hupdate p _ rfl (.move _ _ _ hmove rfl)
  | cleanUp p roomId ref rest task hsocket hfree hmem htask =>
    refine hupdate p _ rfl ?_
    have hgone : p ∉ ((s.room ref).removeWithScreenShares p).1.participants := by
      rw [← AList.lookup_eq_none]
      simp [Room.lookup_removeWithScreenShares]
    rw [hsocket, htask]
    cases hempty : ((s.room ref).removeWithScreenShares p).1.isEmpty with
    | true => exact .emptied _ _ _ hmem (by simpa using hgone) hempty
    | false => exact .removed _ _ _ hmem (by simpa using hgone) hempty
  | deleteRoom p roomId hsocket =>
    exact hupdate p _ rfl (hsocket ▸ .deleted _ (by simp [InMemoryRoomRepository.getRoom]))
  | leave p hsocket => exact hupdate p _ rfl (hsocket ▸ .left)
  | _ => exact .inl rfl

/-- The connection whose tasks an action runs. -/
def connectionOf : Action → Option ParticipantId
  | .connect p _ | .receive p _ | .authorize p _ | .admitToMeetingRoom p _ | .checkRoom p
  | .createRoom p
  | .getRoom p | .reauthorize p _ | .lockRoom p | .finishJoin p _ | .findRoom p
  | .applyRequest p _ _ | .stopReceiving p | .abortReceiver p | .selectSender p
  | .selectReceiver p | .listRooms p | .findForCleanup p | .cleanUp p | .deleteRoom p
  | .leave p => some p
  | _ => none

private theorem connectionOf_recvChange {p : ParticipantId} {before after : RecvTask}
    (hchange : RecvChange env s t p a before after) : connectionOf a = some p := by
  cases hchange with
  | move a before after messages hmove => cases hmove <;> rfl
  | _ => rfl

private theorem connectionOf_socketChange {p : ParticipantId} {before after : SocketTask}
    (hchange : SocketChange s t p a before after) : connectionOf a = some p := by
  cases hchange with
  | move a before after hmove => cases hmove <;> rfl
  | _ => rfl

/-- The tasks of a connection move only in its own actions. -/
theorem tasks_frame (h : Transition env s a t) {p : ParticipantId}
    (hp : connectionOf a ≠ some p) :
    (t.recvTask p, t.socketTask p) = (s.recvTask p, s.socketTask p) := by
  have hrecv : t.recvTask p = s.recvTask p :=
    (recvTask_cases h p).resolve_right fun hchange => hp (connectionOf_recvChange hchange)
  have hsocket : t.socketTask p = s.socketTask p :=
    (socketTask_cases h p).resolve_right fun hchange => hp (connectionOf_socketChange hchange)
  rw [hrecv, hsocket]

end Observables

/-! ## The background invariant -/

structure Consistent (s : Server) : Prop where
  recv_held : ∀ p id ref, heldRoom (s.recvTask p) = some (id, ref) →
    ref < s.repository.nextRef ∧ (s.room ref).id = id
  socket_held : ∀ p id ref, searchedRoom (s.socketTask p) = some (id, ref) →
    ref < s.repository.nextRef ∧ (s.room ref).id = id
  vacant : ∀ ref p, s.repository.nextRef ≤ ref → p ∉ (s.room ref).participants
  writer_iff : ∀ ref p, s.writer ref = some p ↔ SettingUp ref (s.recvTask p)
  member_room : ∀ ref p, p ∈ (s.room ref).participants → s.currentRoomId p = some (s.room ref).id
  member_unique : ∀ ref ref' p, p ∈ (s.room ref).participants → p ∈ (s.room ref').participants →
    ref = ref'
  joining_outside : ∀ p, isJoining (s.recvTask p) = true → s.currentRoomId p = none
  unopened_idle : ∀ p, s.socketTask p = .unopened →
    s.recvTask p = .stopped ∧ s.currentRoomId p = none
  member_identity : ∀ ref p c, (s.room ref).participants.lookup p = some c →
    c.participant.id = p ∧ c.participant.userId = (s.identity p).userId

theorem consistent_initial : Consistent Server.initial := by
  constructor <;> simp [Server.initial, InMemoryRoomRepository.new, Room.new, heldRoom,
    searchedRoom, isJoining, SettingUp]

section Preservation

variable {env : Environment} {s t : Server} {a : Action}

private theorem recv_held_step (w : Consistent s) (h : Transition env s a t) (p : ParticipantId)
    (id : RoomId) (ref : RoomRef) (hheld : heldRoom (t.recvTask p) = some (id, ref)) :
    ref < t.repository.nextRef ∧ (t.room ref).id = id := by
  have hbefore : ref < s.repository.nextRef ∧ (s.room ref).id = id := by
    rcases heldRoom_cases h hheld with hold | hroom
    · exact w.recv_held p id ref hold
    · exact s.repository.mapped id ref hroom
  exact ⟨Nat.lt_of_lt_of_le hbefore.1 (nextRef_le h), (room_id h hbefore.1).trans hbefore.2⟩

/-- A reference a socket task holds was held before, or is mapped where it was looked up. -/
theorem searchedRoom_cases (h : Transition env s a t) {q : ParticipantId} {id : RoomId}
    {ref : RoomRef} (hheld : searchedRoom (t.socketTask q) = some (id, ref)) :
    searchedRoom (s.socketTask q) = some (id, ref) ∨ s.repository.getRoom id = some ref := by
  have hnext : ∀ rooms, searchedRoom (nextRoom rooms) = none := by
    intro rooms
    cases rooms <;> rfl
  rcases socketTask_cases h q with hsame | hchange
  · exact .inl (hsame ▸ hheld)
  · generalize s.socketTask q = before at hchange ⊢
    generalize t.socketTask q = after at hchange hheld
    cases hchange with
    | move a before after hmove =>
      cases hmove with
      | found roomId r rest hroom =>
        cases hheld
        exact .inr hroom
      | _ => simp [hnext] at hheld
    | _ => cases hheld

private theorem socket_held_step (w : Consistent s) (h : Transition env s a t)
    (p : ParticipantId) (id : RoomId) (ref : RoomRef)
    (hheld : searchedRoom (t.socketTask p) = some (id, ref)) :
    ref < t.repository.nextRef ∧ (t.room ref).id = id := by
  have hbefore : ref < s.repository.nextRef ∧ (s.room ref).id = id := by
    rcases searchedRoom_cases h hheld with hold | hroom
    · exact w.socket_held p id ref hold
    · exact s.repository.mapped id ref hroom
  exact ⟨Nat.lt_of_lt_of_le hbefore.1 (nextRef_le h), (room_id h hbefore.1).trans hbefore.2⟩

private theorem vacant_step (w : Consistent s) (h : Transition env s a t) (ref : RoomRef)
    (p : ParticipantId) (hfresh : t.repository.nextRef ≤ ref) :
    p ∉ (t.room ref).participants := by
  intro hmem
  have hle : s.repository.nextRef ≤ ref := Nat.le_trans (nextRef_le h) hfresh
  rcases member_cases h hmem with hold | ⟨req, existing, history, -, htask, -, -⟩
  · exact w.vacant ref p hle hold
  · have hheld := (w.recv_held p req.roomId ref (by simp [heldRoom, htask])).1
    exact absurd hheld (Nat.not_lt.mpr hle)

private theorem member_room_step (w : Consistent s) (h : Transition env s a t) (ref : RoomRef)
    (p : ParticipantId) (hmem : p ∈ (t.room ref).participants) :
    t.currentRoomId p = some (t.room ref).id := by
  rcases member_cases h hmem with hold | ⟨req, existing, history, ha, htask, -, ht⟩
  · have hlt : ref < s.repository.nextRef := by
      by_contra hge
      exact w.vacant ref p (Nat.not_lt.mp hge) hold
    rcases currentRoomId_cases h p with hsame | ⟨req, r, existing, history, -, htask, -⟩
    · rw [hsame, room_id h hlt]
      exact w.member_room ref p hold
    · have houtside := w.joining_outside p (by simp [isJoining, htask])
      simp [w.member_room ref p hold] at houtside
  · have hheld := w.recv_held p req.roomId ref (by simp [heldRoom, htask])
    rw [room_id h hheld.1, hheld.2, ht]
    simp

private theorem member_unique_step (w : Consistent s) (h : Transition env s a t)
    (ref ref' : RoomRef) (p : ParticipantId) (hmem : p ∈ (t.room ref).participants)
    (hmem' : p ∈ (t.room ref').participants) : ref = ref' := by
  have hmember : ∀ r, p ∈ (s.room r).participants → isJoining (s.recvTask p) = false := by
    intro r hr
    by_contra hjoining
    have houtside := w.joining_outside p (by simpa using hjoining)
    simp [w.member_room r p hr] at houtside
  rcases member_cases h hmem with hold | ⟨req, existing, history, -, htask, -, -⟩
  · rcases member_cases h hmem' with hold' | ⟨req', existing', history', -, htask', -, -⟩
    · exact w.member_unique ref ref' p hold hold'
    · simpa [htask', isJoining] using hmember ref hold
  · rcases member_cases h hmem' with hold' | ⟨req', existing', history', -, htask', -, -⟩
    · simpa [htask, isJoining] using hmember ref' hold'
    · rw [htask] at htask'
      exact (RecvTask.settingUpPeer.inj htask').2.1

private theorem joining_outside_step (w : Consistent s) (h : Transition env s a t)
    (p : ParticipantId) (hjoining : isJoining (t.recvTask p) = true) :
    t.currentRoomId p = none := by
  rcases currentRoomId_cases h p with hsame | ⟨req, ref, existing, history, -, -, -, ht⟩
  · rw [hsame]
    rcases joining_cases h hjoining with hold | houtside
    · exact w.joining_outside p hold
    · exact houtside
  · simp [ht, isJoining] at hjoining

private theorem writer_iff_step (w : Consistent s) (h : Transition env s a t) (ref : RoomRef)
    (q : ParticipantId) : t.writer ref = some q ↔ SettingUp ref (t.recvTask q) := by
  -- a task that is in peer setup neither before nor after leaves every lock as it is
  have houtside : ∀ (p : ParticipantId) (task : RecvTask),
      (∀ r, ¬ SettingUp r (s.recvTask p)) → (∀ r, ¬ SettingUp r task) →
      (s.writer ref = some q ↔ SettingUp ref (Function.update s.recvTask p task q)) := by
    intro p task hbefore hafter
    rw [w.writer_iff ref q]
    by_cases hq : q = p
    · subst hq
      simp [hbefore ref, hafter ref]
    · simp [hq]
  have hrelease : ∀ (p : ParticipantId) (task : RecvTask) (r : RoomRef),
      SettingUp r (s.recvTask p) → (∀ r, ¬ SettingUp r task) →
      (Function.update s.writer r none ref = some q ↔
        SettingUp ref (Function.update s.recvTask p task q)) := by
    intro p task r hbefore hafter
    have hholder : s.writer r = some p := (w.writer_iff r p).mpr hbefore
    by_cases hq : q = p
    · subst hq
      have hother : ref ≠ r → s.writer ref ≠ some q := by
        intro hr hwriter
        obtain ⟨req, existing, history, htask⟩ := hbefore
        obtain ⟨req', existing', history', htask'⟩ := (w.writer_iff ref q).mp hwriter
        rw [htask] at htask'
        exact hr (RecvTask.settingUpPeer.inj htask').2.1.symm
      by_cases hr : ref = r
      · simp [hr, hafter r]
      · simp [hr, hother hr, hafter ref]
    · by_cases hr : ref = r
      · subst r
        have hne : ¬ SettingUp ref (s.recvTask q) := by
          intro hq'
          rw [← w.writer_iff ref q, hholder] at hq'
          exact hq (Option.some.inj hq').symm
        simp [hq, hne]
      · simpa [hr, hq] using w.writer_iff ref q
  cases h with
  | connect p identity hsocket =>
    have hidle := (w.unopened_idle p hsocket).1
    exact houtside p .receiving (by simp [SettingUp, hidle]) (by simp [SettingUp])
  | recv a p task messages hmove =>
    refine houtside p task ?_ ?_
    · generalize s.recvTask p = before at hmove
      cases hmove with
      | abort task habort hrunning hunlocked =>
        rintro r ⟨req, existing, history, htask⟩
        exact hunlocked req r existing history htask
      | _ => simp [SettingUp]
    · generalize s.recvTask p = before at hmove
      cases hmove <;> simp [SettingUp]
  | createRoom p req authorization repository htask =>
    exact houtside p _ (by simp [SettingUp, htask]) (by simp [SettingUp])
  | lockRoom p req r htask hfree =>
    by_cases hq : q = p
    · subst hq
      by_cases hr : ref = r
      · subst r
        simp [SettingUp]
      · have hne : s.writer ref ≠ some q := by
          intro hwriter
          obtain ⟨req', existing, history, htask'⟩ := (w.writer_iff ref q).mp hwriter
          simp [htask] at htask'
        simp [SettingUp, hr, hne, Ne.symm hr]
    · by_cases hr : ref = r
      · subst r
        have hne : ¬ SettingUp ref (s.recvTask q) := by
          rw [← w.writer_iff ref q, hfree]
          simp
        simp [hq, hne, Ne.symm hq]
      · simpa [hr, hq] using w.writer_iff ref q
  | failJoin p peer req r existing history e htask =>
    exact hrelease p .receiving r ⟨req, existing, history, htask⟩ (by simp [SettingUp])
  | abortJoin p req r existing history htask =>
    exact hrelease p .stopped r ⟨req, existing, history, htask⟩ (by simp [SettingUp])
  | join p peer req r existing history htask =>
    exact hrelease p .receiving r ⟨req, existing, history, htask⟩ (by simp [SettingUp])
  | applyRequest p now timestamp roomId request r recent room outbox hid htask =>
    exact houtside p .receiving (by simp [SettingUp, htask]) (by simp [SettingUp])
  | _ => exact w.writer_iff ref q

private theorem unopened_idle_step (w : Consistent s) (h : Transition env s a t)
    (p : ParticipantId) (hsocket : t.socketTask p = .unopened) :
    t.recvTask p = .stopped ∧ t.currentRoomId p = none := by
  have hbefore : s.socketTask p = .unopened := by
    rcases socketTask_cases h p with hsame | hchange
    · exact hsame ▸ hsocket
    · rw [hsocket] at hchange
      generalize s.socketTask p = before at hchange
      cases hchange with
      | move a before after hmove =>
        have hnext : ∀ rooms, nextRoom rooms ≠ .unopened := by
          intro rooms
          cases rooms <;> simp [nextRoom]
        generalize hafter : SocketTask.unopened = after at hmove
        cases hmove <;> first | exact absurd hafter.symm (hnext _) | cases hafter
  obtain ⟨hstopped, houtside⟩ := w.unopened_idle p hbefore
  refine ⟨?_, ?_⟩
  · rcases recvTask_cases h p with hsame | hchange
    · exact hsame.trans hstopped
    · rw [hstopped] at hchange
      generalize t.recvTask p = after at hchange
      cases hchange with
      | move a before after messages hmove =>
        cases hmove with
        | abort task habort hrunning => exact absurd rfl hrunning
      | connected identity before hunopened hselecting =>
        simp [hselecting] at hsocket
  · rcases currentRoomId_cases h p with hsame | ⟨req, ref, existing, history, -, htask, -⟩
    · exact hsame.trans houtside
    · simp [hstopped] at htask

private theorem member_identity_step (w : Consistent s) (h : Transition env s a t)
    (ref : RoomRef) (p : ParticipantId) (c : ParticipantConnection)
    (hlookup : (t.room ref).participants.lookup p = some c) :
    c.participant.id = p ∧ c.participant.userId = (t.identity p).userId := by
  have hidentity : p ∈ (s.room ref).participants → t.identity p = s.identity p := by
    intro hmem
    cases h with
    | connect q identity hsocket =>
      by_cases hq : p = q
      · subst q
        have houtside := (w.unopened_idle p hsocket).2
        simp [w.member_room ref p hmem] at houtside
      · simp [hq]
    | _ => rfl
  rcases connection_cases h hlookup with ⟨before, hbefore, hid, huser, -⟩ | hjoin
  · have hold := w.member_identity ref p before hbefore
    rw [hid, huser, hidentity (AList.lookup_isSome.mp (Option.isSome_of_mem hbefore))]
    exact hold
  · obtain ⟨req, existing, history, -, -, -, hc, ht⟩ := hjoin
    subst hc
    rw [ht]
    exact ⟨rfl, rfl⟩

theorem consistent_step (w : Consistent s) (h : Transition env s a t) : Consistent t where
  recv_held := recv_held_step w h
  socket_held := socket_held_step w h
  vacant := vacant_step w h
  writer_iff := writer_iff_step w h
  member_room := member_room_step w h
  member_unique := member_unique_step w h
  joining_outside := joining_outside_step w h
  unopened_idle := unopened_idle_step w h
  member_identity := member_identity_step w h

end Preservation

end OpenMeet.Consistency
