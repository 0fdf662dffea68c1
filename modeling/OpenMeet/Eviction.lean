import OpenMeet.Consistency

/-!
Removing a user from a group's calls. From the commit on the user is authorized
for none of the rooms, so a join that passes the second authorization later
fails, and every join that passed it before holds a room that already existed.
Rooms are therefore split at the allocation mark of the commit: in the older
ones the denial marker ends the user's access, the newer ones never let
the user in.
-/
namespace OpenMeet.Eviction

open KeyedMap Messages RoomState Repository SignalingServer SignalingSteps TransitionSystem
open Transitions Consistency

/-- The room of a join that goes on without a second authorization. -/
def unmanagedRoom : RecvTask → Option RoomId
  | .admitting req => some req.roomId
  | .checkingRoom req authorization | .creatingRoom req authorization
  | .gettingRoom req authorization =>
    if authorization = .authorized then none else some req.roomId
  | _ => none

/-- The room of a join that has passed its last authorization. -/
def admittedRoom : RecvTask → Option (RoomId × RoomRef)
  | .lockingRoom req ref | .settingUpPeer req ref _ _ => some (req.roomId, ref)
  | _ => none

/-- The rooms whose denial marker an eviction has still to see to. -/
def undenied : EvictionStage → List RoomId
  | .denying rest | .finding _ rest | .evicting _ _ rest => rest
  | .marking roomId _ rest => roomId :: rest
  | .returned => []

section Observables

variable {env : Environment} {s t : Server} {a : Action}

theorem removedMembers_subset (h : Transition env s a t) :
    s.removedMembers ⊆ t.removedMembers := by
  cases h with
  | commitRemoval => simp [Finset.subset_union_left]
  | _ => exact Finset.Subset.refl _

/-- A denial marker stays set. -/
theorem denied_stays (h : Transition env s a t) {ref : RoomRef} {userId : Uuid}
    (hlt : ref < s.repository.nextRef) (hdenied : userId ∈ (s.room ref).deniedUserIds) :
    userId ∈ (t.room ref).deniedUserIds := by
  have hset : ∀ (r : RoomRef) (room : Room), (s.room r).deniedUserIds ⊆ room.deniedUserIds →
      userId ∈ (Function.update s.repository.objects r room ref).deniedUserIds := by
    intro r room hroom
    by_cases hr : ref = r
    · subst r
      simpa using hroom hdenied
    · simpa [hr] using hdenied
  cases h with
  | createRoom p req authorization repository htask hcreate =>
    obtain ⟨-, -, -, -, hobjects, -⟩ := s.repository.createRoom_eq_ok hcreate
    have hne : ref ≠ s.repository.nextRef := Nat.ne_of_lt hlt
    simpa [hobjects, hne] using hdenied
  | join p peer req r existing history => exact hset r _ (Finset.Subset.refl _)
  | applyRequest p now timestamp roomId request r recent room outbox hid htask hfree hactive hrun =>
    obtain rfl := congrArg Prod.fst hrun
    exact hset r _ (runRequest_frame ..).2.2.2.ge
  | cleanUp p roomId r => exact hset r _ (Room.removeWithScreenShares_frame ..).2.2.1.ge
  | markDenied i e roomId r => exact hset r _ (Finset.subset_insert _ _)
  | evict i e roomId r => exact hset r _ (Room.removeParticipants_frame ..).2.2.1.ge
  | closeRoom i c r => exact hset r _ (Room.removeParticipants_frame ..).2.2.1.ge
  | revokeMapped i c roomId r rest hclosure hstage hroom =>
    by_cases hr : ref = r
    · subst r
      simpa [InMemoryRoomRepository.revokeRoom_objects, hroom] using hdenied
    · simpa [InMemoryRoomRepository.revokeRoom_objects, hroom, hr] using hdenied
  | revokeUnmapped i c roomId rest hclosure hstage hroom =>
    simpa [InMemoryRoomRepository.revokeRoom_objects, hroom] using hdenied
  | _ => exact hdenied

/-- An identity changes only when its connection opens. -/
theorem identity_cases (h : Transition env s a t) (p : ParticipantId) :
    t.identity p = s.identity p ∨ t.recvTask p = .receiving := by
  cases h with
  | connect q identity hsocket =>
    by_cases hp : p = q
    · exact .inr (by simp [hp])
    · exact .inl (by simp [hp])
  | _ => exact .inl rfl

/-- A join goes on without the second authorization only for a room no call owns. -/
theorem unmanagedRoom_cases (h : Transition env s a t) {p : ParticipantId} {id : RoomId}
    (htask : unmanagedRoom (t.recvTask p) = some id) :
    unmanagedRoom (s.recvTask p) = some id ∨ env.isCallRoom id = false := by
  rcases recvTask_cases h p with hsame | hchange
  · exact .inl (hsame ▸ htask)
  · generalize s.recvTask p = before at hchange ⊢
    generalize t.recvTask p = after at hchange htask
    cases hchange with
    | move a before after messages hmove =>
      cases hmove with
      | legacy req answer hlegacy =>
        cases htask
        exact .inr hlegacy
      | admitted req answer => exact .inl htask
      | roomFound req authorization => exact .inl htask
      | roomAbsent req authorization => exact .inl htask
      | _ => cases htask
    | created req authorization hroom => exact .inl htask
    | _ => cases htask

/-- A join passes its last authorization as a member, or in a room no call owns. -/
theorem admittedRoom_cases (h : Transition env s a t) {p : ParticipantId} {id : RoomId}
    {ref : RoomRef} (htask : admittedRoom (t.recvTask p) = some (id, ref)) :
    admittedRoom (s.recvTask p) = some (id, ref) ∨
    unmanagedRoom (s.recvTask p) = some id ∨
    ∀ u, (s.identity p).userId = some u → (u, id) ∉ s.removedMembers := by
  rcases recvTask_cases h p with hsame | hchange
  · exact .inl (hsame ▸ htask)
  · generalize s.recvTask p = before at hchange ⊢
    generalize t.recvTask p = after at hchange htask
    cases hchange with
    | move a before after messages hmove =>
      cases hmove with
      | gotLegacy req authorization r hlegacy hroom =>
        cases htask
        exact .inr (.inl (by simp [unmanagedRoom, hlegacy]))
      | reauthorized req r answer hmember =>
        cases htask
        exact .inr (.inr hmember)
      | _ => cases htask
    | locked req r => exact .inl htask
    | _ => cases htask

/-- How the stage of an eviction changes in one step. -/
inductive EvictionChange (s t : Server) (e : Eviction) : EvictionStage → Prop
  | finished (hstage : e.stage = .denying []) : EvictionChange s t e .returned
  | unmapped (roomId : RoomId) (rest : List RoomId) (hstage : e.stage = .denying (roomId :: rest))
      (hroom : t.repository.getRoom roomId = none) :
      EvictionChange s t e (.finding roomId rest)
  | mapped (roomId : RoomId) (ref : RoomRef) (rest : List RoomId)
      (hstage : e.stage = .denying (roomId :: rest))
      (hroom : t.repository.getRoom roomId = some ref) :
      EvictionChange s t e (.marking roomId ref rest)
  | marked (roomId : RoomId) (ref : RoomRef) (rest : List RoomId)
      (hstage : e.stage = .marking roomId ref rest)
      (hdenied : e.userId ∈ (t.room ref).deniedUserIds) :
      EvictionChange s t e (.finding roomId rest)
  | gone (roomId : RoomId) (rest : List RoomId) (hstage : e.stage = .finding roomId rest) :
      EvictionChange s t e (.denying rest)
  | found (roomId : RoomId) (ref : RoomRef) (rest : List RoomId)
      (hstage : e.stage = .finding roomId rest) :
      EvictionChange s t e (.evicting roomId ref rest)
  | evicted (roomId : RoomId) (ref : RoomRef) (rest : List RoomId)
      (hstage : e.stage = .evicting roomId ref rest) :
      EvictionChange s t e (.denying rest)

theorem eviction_cases (h : Transition env s a t) (i : Nat) :
    t.evictions i = s.evictions i ∨
    (∃ userId roomIds, s.evictions i = none ∧
      (∀ roomId ∈ roomIds, env.isCallRoom roomId = true ∧ (userId, roomId) ∈ t.removedMembers) ∧
      t.repository = s.repository ∧
      t.evictions i = some ⟨userId, roomIds, s.repository.nextRef, .denying roomIds⟩) ∨
    ∃ e stage, s.evictions i = some e ∧ t.evictions i = some { e with stage := stage } ∧
      EvictionChange s t e stage := by
  have hupdate : ∀ (j : Nat) (e : Eviction) (stage : EvictionStage), s.evictions j = some e →
      t.evictions = Function.update s.evictions j (some { e with stage := stage }) →
      EvictionChange s t e stage →
      t.evictions i = s.evictions i ∨
      ∃ e stage, s.evictions i = some e ∧ t.evictions i = some { e with stage := stage } ∧
        EvictionChange s t e stage := by
    intro j e stage he ht hchange
    by_cases hij : i = j
    · subst hij
      exact .inr ⟨e, stage, he, by simp [ht], hchange⟩
    · exact .inl (by simp [ht, hij])
  cases h with
  | commitRemoval j userId roomIds hnew hcalls =>
    by_cases hij : i = j
    · subst hij
      refine .inr (.inl ⟨userId, roomIds, hnew, ?_, rfl, by simp⟩)
      intro roomId hroomId
      exact ⟨hcalls roomId hroomId, by simp [hroomId]⟩
    · exact .inl (by simp [hij])
  | eviction a j e stage heviction hmove =>
    refine (hupdate j e stage heviction rfl ?_).imp_right .inr
    generalize hstage : e.stage = before at hmove
    cases hmove with
    | finish => exact .finished hstage
    | unmapped roomId rest hroom => exact .unmapped roomId rest hstage hroom
    | mapped roomId ref rest hroom => exact .mapped roomId ref rest hstage hroom
    | gone roomId rest hroom => exact .gone roomId rest hstage
    | found roomId ref rest hroom => exact .found roomId ref rest hstage
  | markDenied j e roomId ref rest heviction hstage =>
    have hchange := hupdate j e _ heviction rfl
      (.marked roomId ref rest hstage (by simp [Room.denyUser]))
    exact hchange.imp_right .inr
  | evict j e roomId ref rest heviction hstage =>
    exact (hupdate j e _ heviction rfl (.evicted roomId ref rest hstage)).imp_right .inr
  | _ => exact .inl rfl

end Observables

/-- The room an id is mapped to, if any, is newer than the commit or denies the user. -/
def Settled (s : Server) (e : Eviction) (id : RoomId) : Prop :=
  ∀ ref, s.repository.getRoom id = some ref →
    e.committedAt ≤ ref ∨ e.userId ∈ (s.room ref).deniedUserIds

/-- What holds of an eviction from its commit on. -/
structure Separated (env : Environment) (s : Server) (e : Eviction) : Prop where
  bound_le : e.committedAt ≤ s.repository.nextRef
  calls : ∀ id ∈ e.roomIds, env.isCallRoom id = true
  removed : ∀ id ∈ e.roomIds, (e.userId, id) ∈ s.removedMembers
  joins_old : ∀ p id ref, (s.identity p).userId = some e.userId → id ∈ e.roomIds →
    admittedRoom (s.recvTask p) = some (id, ref) → ref < e.committedAt
  members_old : ∀ ref p c, (s.room ref).participants.lookup p = some c →
    c.participant.userId = some e.userId → (s.room ref).id ∈ e.roomIds → ref < e.committedAt
  settled : ∀ id ∈ e.roomIds, id ∉ undenied e.stage → Settled s e id
  marking : ∀ id ref rest, e.stage = .marking id ref rest →
    ∀ ref', s.repository.getRoom id = some ref' → ref' = ref ∨ e.committedAt ≤ ref'

/-- The invariant of all evictions of a run. -/
structure EvictionsSeparated (env : Environment) (s : Server) : Prop where
  consistent : Consistent s
  unmanaged : ∀ p id, unmanagedRoom (s.recvTask p) = some id → env.isCallRoom id = false
  separated : ∀ i e, s.evictions i = some e → Separated env s e

section Preservation

variable {env : Environment} {s t : Server} {a : Action} {e : Eviction}

private theorem joins_old_step (hs : EvictionsSeparated env s) (he : Separated env s e)
    (h : Transition env s a t) (p : ParticipantId) (id : RoomId) (ref : RoomRef)
    (huser : (t.identity p).userId = some e.userId) (hid : id ∈ e.roomIds)
    (htask : admittedRoom (t.recvTask p) = some (id, ref)) : ref < e.committedAt := by
  have hsame : t.identity p = s.identity p := by
    rcases identity_cases h p with hsame | hreceiving
    · exact hsame
    · simp [hreceiving, admittedRoom] at htask
  rw [hsame] at huser
  rcases admittedRoom_cases h htask with hold | hunmanaged | hmember
  · exact he.joins_old p id ref huser hid hold
  · have hcall := hs.unmanaged p id hunmanaged
    simp [he.calls id hid] at hcall
  · exact absurd (he.removed id hid) (hmember _ huser)

private theorem members_old_step (hs : EvictionsSeparated env s) (he : Separated env s e)
    (h : Transition env s a t) (ref : RoomRef) (p : ParticipantId) (c : ParticipantConnection)
    (hlookup : (t.room ref).participants.lookup p = some c)
    (huser : c.participant.userId = some e.userId) (hid : (t.room ref).id ∈ e.roomIds) :
    ref < e.committedAt := by
  rcases connection_cases h hlookup with ⟨before, hbefore, -, hsame, -⟩ | hjoin
  · have hlt : ref < s.repository.nextRef := by
      by_contra hge
      refine hs.consistent.vacant ref p (Nat.not_lt.mp hge) ?_
      exact AList.lookup_isSome.mp (Option.isSome_of_mem hbefore)
    rw [room_id h hlt] at hid
    exact he.members_old ref p before hbefore (hsame ▸ huser) hid
  · obtain ⟨req, existing, history, -, htask, -, rfl, -⟩ := hjoin
    obtain ⟨hlt, hroom⟩ := hs.consistent.recv_held p req.roomId ref (by simp [heldRoom, htask])
    rw [room_id h hlt, hroom] at hid
    exact he.joins_old p req.roomId ref huser hid (by simp [admittedRoom, htask])

private theorem separated_frame (hs : EvictionsSeparated env s) (he : Separated env s e)
    (h : Transition env s a t) : Separated env t e where
  bound_le := Nat.le_trans he.bound_le (nextRef_le h)
  calls := he.calls
  removed id hid := removedMembers_subset h (he.removed id hid)
  joins_old := joins_old_step hs he h
  members_old := members_old_step hs he h
  settled id hid hdone ref hroom := by
    rcases getRoom_cases h hroom with hold | ⟨p, -, -, hnew⟩
    · rcases he.settled id hid hdone ref hold with hlate | hdenied
      · exact .inl hlate
      · exact .inr (denied_stays h (s.repository.mapped id ref hold).1 hdenied)
    · exact .inl (hnew ▸ he.bound_le)
  marking id ref rest hstage ref' hroom := by
    rcases getRoom_cases h hroom with hold | ⟨p, -, -, hnew⟩
    · exact he.marking id ref rest hstage ref' hold
    · exact .inr (hnew ▸ he.bound_le)

/-- A new stage keeps what does not depend on the stage. -/
private theorem separated_restage {stage : EvictionStage} (he : Separated env t e)
    (hsettled : ∀ id ∈ undenied e.stage, id ∈ undenied stage ∨ Settled t e id)
    (hmarking : ∀ id ref rest, stage = .marking id ref rest →
      ∀ ref', t.repository.getRoom id = some ref' → ref' = ref ∨ e.committedAt ≤ ref') :
    Separated env t { e with stage := stage } where
  bound_le := he.bound_le
  calls := he.calls
  removed := he.removed
  joins_old := he.joins_old
  members_old := he.members_old
  settled id hid hdone := by
    by_cases hbefore : id ∈ undenied e.stage
    · exact (hsettled id hbefore).resolve_left hdone
    · exact he.settled id hid hbefore
  marking := hmarking

private theorem separated_change {stage : EvictionStage} (he : Separated env t e)
    (hchange : EvictionChange s t e stage) : Separated env t { e with stage := stage } := by
  cases hchange with
  | finished hstage =>
    exact separated_restage he (by simp [hstage, undenied]) (by simp)
  | unmapped roomId rest hstage hroom =>
    refine separated_restage he ?_ (by simp)
    intro id hid
    have hcases : id = roomId ∨ id ∈ rest := by simpa [hstage, undenied] using hid
    rcases hcases with rfl | hrest
    · refine .inr fun ref href => ?_
      simp [hroom] at href
    · exact .inl hrest
  | mapped roomId ref rest hstage hroom =>
    refine separated_restage he (fun id hid => .inl (by simpa [hstage, undenied] using hid)) ?_
    rintro id r rest' hmark ref' href
    cases hmark
    exact .inl (Option.some.inj (href.symm.trans hroom))
  | marked roomId ref rest hstage hdenied =>
    refine separated_restage he ?_ (by simp)
    intro id hid
    have hcases : id = roomId ∨ id ∈ rest := by simpa [hstage, undenied] using hid
    rcases hcases with rfl | hrest
    · refine .inr fun ref' href => ?_
      rcases he.marking id ref rest hstage ref' href with rfl | hlate
      · exact .inr hdenied
      · exact .inl hlate
    · exact .inl hrest
  | gone roomId rest hstage =>
    exact separated_restage he
      (fun id hid => .inl (by simpa [hstage, undenied] using hid)) (by simp)
  | found roomId ref rest hstage =>
    exact separated_restage he
      (fun id hid => .inl (by simpa [hstage, undenied] using hid)) (by simp)
  | evicted roomId ref rest hstage =>
    exact separated_restage he
      (fun id hid => .inl (by simpa [hstage, undenied] using hid)) (by simp)

/-- At the commit every room reference anybody holds is older than the allocation mark. -/
private theorem separated_committed (w : Consistent t) {userId : Uuid} {roomIds : List RoomId}
    (hrooms : ∀ id ∈ roomIds, env.isCallRoom id = true ∧ (userId, id) ∈ t.removedMembers) :
    Separated env t ⟨userId, roomIds, t.repository.nextRef, .denying roomIds⟩ where
  bound_le := Nat.le_refl _
  calls id hid := (hrooms id hid).1
  removed id hid := (hrooms id hid).2
  joins_old p id ref _ _ htask := by
    refine (w.recv_held p id ref ?_).1
    generalize t.recvTask p = task at htask ⊢
    cases task with
    | lockingRoom req r => exact htask
    | settingUpPeer req r existing history => exact htask
    | _ => cases htask
  members_old ref p c hlookup _ _ := by
    by_contra hge
    refine w.vacant ref p (Nat.not_lt.mp hge) ?_
    exact AList.lookup_isSome.mp (Option.isSome_of_mem hlookup)
  settled id hid hdone := absurd hid hdone
  marking := by simp

theorem evictionsSeparated_step (hs : EvictionsSeparated env s) (h : Transition env s a t) :
    EvictionsSeparated env t where
  consistent := consistent_step hs.consistent h
  unmanaged p id htask := by
    rcases unmanagedRoom_cases h htask with hold | hlegacy
    · exact hs.unmanaged p id hold
    · exact hlegacy
  separated i e' he' := by
    rcases eviction_cases h i with hsame | ⟨u, ids, hnew, hrooms, hrepo, hstart⟩ | hstage
    · exact separated_frame hs (hs.separated i e' (hsame ▸ he')) h
    · obtain rfl := Option.some.inj (he'.symm.trans hstart)
      rw [← hrepo]
      exact separated_committed (consistent_step hs.consistent h) hrooms
    · obtain ⟨e, stage, he, ht, hchange⟩ := hstage
      obtain rfl := Option.some.inj (he'.symm.trans ht)
      exact separated_change (separated_frame hs (hs.separated i e he) h) hchange

end Preservation

section Runs

variable {env : Environment} {s t : Server}

theorem evictionsSeparated_run {actions : List Action}
    (hrun : (system env).run actions = some s) : EvictionsSeparated env s := by
  refine System.invariant_run (I := EvictionsSeparated env) ?_ ?_ hrun
  · refine ⟨consistent_initial, ?_, ?_⟩
    · intro p id htask
      simp [system, Server.initial, unmanagedRoom] at htask
    · intro i e he
      simp [system, Server.initial] at he
  · exact fun s a t hs h => evictionsSeparated_step hs (step_transition h)

/-- An eviction that has returned stays as it returned. -/
theorem returned_stays {actions : List Action} {i : Nat} {e : Eviction}
    (hlater : (system env).runFrom s actions = some t) (he : s.evictions i = some e)
    (hreturned : e.stage = .returned) : t.evictions i = some e := by
  refine System.invariant_runFrom (I := fun s => s.evictions i = some e) ?_ he hlater
  intro s a t hs h
  rcases eviction_cases (step_transition h) i with hsame | ⟨_, _, hnew, -⟩ | hstage
  · exact hsame.trans hs
  · simp [hs] at hnew
  · obtain ⟨e', stage, he', -, hchange⟩ := hstage
    obtain rfl := Option.some.inj (hs.symm.trans he')
    cases hchange <;> simp_all

end Runs

/-- Once an eviction has returned, in every later state no participant of the user is active
in a room that one of its ids is mapped to. -/
theorem evicted_inactive (env : Environment) (before later : List Action) (s t : Server)
    (i : Nat) (e : Eviction) (hrun : (system env).run before = some s)
    (heviction : s.evictions i = some e) (hreturned : e.stage = .returned)
    (hlater : (system env).runFrom s later = some t) :
    ∀ id ∈ e.roomIds, ∀ ref, t.repository.getRoom id = some ref →
      ∀ p c, (t.room ref).participants.lookup p = some c →
        c.participant.userId = some e.userId →
        (t.room ref).hasActiveParticipant p (some e.userId) = false := by
  intro id hid ref hroom p c hlookup huser
  have hrunLater : (system env).run (before ++ later) = some t := by
    rw [System.run, System.runFrom_append, ← System.run, hrun]
    exact hlater
  have he := (evictionsSeparated_run hrunLater).separated i e
    (returned_stays hlater heviction hreturned)
  have hold : ref < e.committedAt := by
    refine he.members_old ref p c hlookup huser ?_
    rw [(t.repository.mapped id ref hroom).2]
    exact hid
  rcases he.settled id hid (by simp [hreturned, undenied]) ref hroom with hlate | hdenied
  · exact absurd hold (Nat.not_lt.mpr hlate)
  · simp [Room.hasActiveParticipant, Room.isUserDenied, hdenied]

/-- A member's join passes both authorizations before the removal commits and adds the member
between the eviction's two room lookups. -/
def evictDuringJoin : List Action :=
  [.connect "a" ⟨some 7, some "Ann"⟩, .receive "a" (.join "call" "Ann" none none),
    .authorize "a" (some ⟨false, true, true⟩), .checkRoom "a", .createRoom "a", .getRoom "a",
    .reauthorize "a" (some ⟨false, true, true⟩), .lockRoom "a",
    .commitRemoval 0 7 ["call"], .denyRoomUser 0, .finishJoin "a" (.ok ()), .markDenied 0,
    .findForEviction 0, .evict 0, .denyRoomUser 0]

/-- The member tries again, is refused by the query, and the room is still there. -/
def joinEvicted : List Action :=
  [.connect "b" ⟨some 7, some "Ann"⟩, .receive "b" (.join "call" "Ann" none none),
    .authorize "b" (some ⟨false, true, false⟩)]

theorem evicted_inactive_evictDuringJoin :
    ∃ s t e, (system ⟨(· = "call"), Char.isAlphanum⟩).run evictDuringJoin = some s ∧
      s.evictions 0 = some e ∧ e.userId = 7 ∧
      (system ⟨(· = "call"), Char.isAlphanum⟩).runFrom s joinEvicted = some t ∧
      t.repository.getRoom "call" = some 0 ∧
      ∀ p c, (t.room 0).participants.lookup p = some c → c.participant.userId = some 7 →
        (t.room 0).hasActiveParticipant p (some 7) = false := by
  let M := system ⟨(· = "call"), Char.isAlphanum⟩
  obtain ⟨s, hrun, htest⟩ := M.exists_run_of_any Server.initial evictDuringJoin
    (fun s => decide (s.evictions 0 = some ⟨7, ["call"], 1, .returned⟩) &&
      (M.runFrom s joinEvicted).any fun t : Server =>
        decide (t.repository.getRoom "call" = some 0))
    (by decide)
  obtain ⟨heviction, hlater⟩ := Bool.and_eq_true_iff.mp htest
  obtain ⟨t, ht, hroom⟩ := M.exists_run_of_any s joinEvicted _ hlater
  have hinactive := evicted_inactive _ evictDuringJoin joinEvicted s t 0 _ hrun
    (of_decide_eq_true heviction) rfl ht "call" (by simp) 0 (of_decide_eq_true hroom)
  exact ⟨s, t, _, hrun, of_decide_eq_true heviction, rfl, ht, of_decide_eq_true hroom,
    hinactive⟩

end OpenMeet.Eviction
