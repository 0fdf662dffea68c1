import OpenMeet.Consistency

/-!
Closing the rooms of a deleted group. The id is remembered as revoked and
unmapped, the room's flag is raised, and its participants are removed under its
lock. A join checks the flag in the step that adds its participant, so a flagged
room never gains one; what the closing eviction empties stays empty.
-/
namespace OpenMeet.Revocation

open KeyedMap Messages RoomState Repository SignalingServer SignalingSteps TransitionSystem
open Transitions Consistency

/-- The ids a closure has not revoked yet. -/
def unrevoked : ClosureStage → List RoomId
  | .revoking rest | .closing _ rest => rest
  | .returned => []

section Observables

variable {env : Environment} {s t : Server} {a : Action}

/-- Revoked ids stay revoked. -/
theorem revokedRoomIds_subset (h : Transition env s a t) :
    s.repository.revokedRoomIds ⊆ t.repository.revokedRoomIds := by
  cases h with
  | createRoom p req authorization repository htask hcreate =>
    obtain ⟨-, -, -, hrevoked, -, -⟩ := s.repository.createRoom_eq_ok hcreate
    simp [hrevoked]
  | revokeUnmapped => simp [Finset.subset_insert]
  | revokeMapped => simp [Finset.subset_insert]
  | _ => exact Finset.Subset.refl _

/-- A raised flag stays raised. -/
theorem revoked_stays (h : Transition env s a t) {ref : RoomRef}
    (hlt : ref < s.repository.nextRef) (hrevoked : (s.room ref).revoked = true) :
    (t.room ref).revoked = true := by
  have hset : ∀ (r : RoomRef) (room : Room), room.revoked = (s.room r).revoked →
      (Function.update s.repository.objects r room ref).revoked = true := by
    intro r room hroom
    by_cases hr : ref = r
    · subst r
      simpa [hroom] using hrevoked
    · simpa [hr] using hrevoked
  cases h with
  | createRoom p req authorization repository htask hcreate =>
    obtain ⟨-, -, -, -, hobjects, -⟩ := s.repository.createRoom_eq_ok hcreate
    have hne : ref ≠ s.repository.nextRef := Nat.ne_of_lt hlt
    simpa [hobjects, hne] using hrevoked
  | join p peer req r existing history => exact hset r _ rfl
  | applyRequest p now timestamp roomId request r recent room outbox hid htask hfree hactive hrun =>
    obtain rfl := congrArg Prod.fst hrun
    exact hset r _ (runRequest_frame ..).2.2.1
  | cleanUp p roomId r => exact hset r _ (Room.removeWithScreenShares_frame ..).2.1
  | markDenied i e roomId r => exact hset r _ rfl
  | evict i e roomId r => exact hset r _ (Room.removeParticipants_frame ..).2.1
  | closeRoom i c r => exact hset r _ (Room.removeParticipants_frame ..).2.1
  | revokeMapped i c roomId r rest hclosure hstage hroom =>
    by_cases hr : ref = r
    · simp [InMemoryRoomRepository.revokeRoom_objects, hroom, hr]
    · simpa [InMemoryRoomRepository.revokeRoom_objects, hroom, hr] using hrevoked
  | revokeUnmapped i c roomId rest hclosure hstage hroom =>
    simpa [InMemoryRoomRepository.revokeRoom_objects, hroom] using hrevoked
  | _ => exact hrevoked

/-- Nobody joins a room whose flag is raised. -/
theorem member_of_revoked (h : Transition env s a t) {ref : RoomRef} {p : ParticipantId}
    (hrevoked : (s.room ref).revoked = true) (hmem : p ∈ (t.room ref).participants) :
    p ∈ (s.room ref).participants := by
  rcases member_cases h hmem with hold | ⟨req, existing, history, -, -, haccess, -⟩
  · exact hold
  · simp [Room.deniesAccess, hrevoked] at haccess

/-- How a closure changes in one step. -/
inductive ClosureChange (s t : Server) : Closure → Closure → Prop
  | finished (c : Closure) (hstage : c.stage = .revoking []) :
      ClosureChange s t c { c with stage := .returned }
  | unmapped (c : Closure) (roomId : RoomId) (rest : List RoomId)
      (hstage : c.stage = .revoking (roomId :: rest))
      (hrevoked : roomId ∈ t.repository.revokedRoomIds) :
      ClosureChange s t c { c with stage := .revoking rest }
  | flagged (c : Closure) (roomId : RoomId) (ref : RoomRef) (rest : List RoomId)
      (hstage : c.stage = .revoking (roomId :: rest))
      (hroom : s.repository.getRoom roomId = some ref)
      (hrevoked : roomId ∈ t.repository.revokedRoomIds) (hflag : (t.room ref).revoked = true) :
      ClosureChange s t c { c with unmapped := c.unmapped ++ [ref], stage := .closing ref rest }
  | emptied (c : Closure) (ref : RoomRef) (rest : List RoomId)
      (hstage : c.stage = .closing ref rest) (hempty : ∀ p, p ∉ (t.room ref).participants) :
      ClosureChange s t c { c with stage := .revoking rest }

theorem closure_cases (h : Transition env s a t) (i : Nat) :
    t.closures i = s.closures i ∨
    (∃ roomIds, s.closures i = none ∧
      t.closures i = some { roomIds := roomIds, unmapped := [], stage := .revoking roomIds }) ∨
    ∃ c c', s.closures i = some c ∧ t.closures i = some c' ∧ ClosureChange s t c c' := by
  have hupdate : ∀ (j : Nat) (c c' : Closure), s.closures j = some c →
      t.closures = Function.update s.closures j (some c') → ClosureChange s t c c' →
      t.closures i = s.closures i ∨
      (∃ roomIds, s.closures i = none ∧
        t.closures i = some { roomIds := roomIds, unmapped := [], stage := .revoking roomIds }) ∨
      ∃ c c', s.closures i = some c ∧ t.closures i = some c' ∧ ClosureChange s t c c' := by
    intro j c c' hc ht hchange
    by_cases hij : i = j
    · subst hij
      exact .inr (.inr ⟨c, c', hc, by simp [ht], hchange⟩)
    · exact .inl (by simp [ht, hij])
  cases h with
  | startClosure j roomIds hnew =>
    by_cases hij : i = j
    · subst hij
      exact .inr (.inl ⟨roomIds, hnew, by simp⟩)
    · exact .inl (by simp [hij])
  | finishClosure j c hclosure hstage =>
    exact hupdate j c _ hclosure rfl (.finished c hstage)
  | revokeUnmapped j c roomId rest hclosure hstage =>
    exact hupdate j c _ hclosure rfl (.unmapped c roomId rest hstage (by simp))
  | revokeMapped j c roomId ref rest hclosure hstage hroom =>
    refine hupdate j c _ hclosure rfl (.flagged c roomId ref rest hstage hroom (by simp) ?_)
    simp [InMemoryRoomRepository.revokeRoom_objects, hroom]
  | closeRoom j c ref rest hclosure hstage =>
    refine hupdate j c _ hclosure rfl (.emptied c ref rest hstage ?_)
    intro p
    rw [← AList.lookup_eq_none]
    by_cases hp : p ∈ (s.room ref).participants
    · simp [Room.lookup_removeParticipants, AList.mem_keys.mp hp]
    · simp [Room.lookup_removeParticipants, AList.lookup_eq_none.mpr hp]
  | _ => exact .inl rfl

end Observables

/-- What a closure has achieved so far: every id behind it is revoked, every room it unmapped
is flagged, and only the one it is about to empty may still have participants. -/
structure Closed (s : Server) (c : Closure) : Prop where
  revoked : ∀ id ∈ c.roomIds, id ∉ unrevoked c.stage → id ∈ s.repository.revokedRoomIds
  flagged : ∀ ref ∈ c.unmapped, ref < s.repository.nextRef ∧ (s.room ref).revoked = true
  emptied : ∀ ref ∈ c.unmapped, (∃ rest, c.stage = .closing ref rest) ∨
    ∀ p, p ∉ (s.room ref).participants

section Preservation

variable {env : Environment} {s t : Server} {a : Action} {c c' : Closure}

/-- A step that leaves the closure alone keeps what it has achieved. -/
private theorem closed_frame (h : Transition env s a t) (hc : Closed s c) : Closed t c where
  revoked id hid hdone := revokedRoomIds_subset h (hc.revoked id hid hdone)
  flagged ref href := by
    obtain ⟨hlt, hflag⟩ := hc.flagged ref href
    exact ⟨Nat.lt_of_lt_of_le hlt (nextRef_le h), revoked_stays h hlt hflag⟩
  emptied ref href := by
    rcases hc.emptied ref href with hclosing | hempty
    · exact .inl hclosing
    · refine .inr fun p hp => hempty p ?_
      exact member_of_revoked h (hc.flagged ref href).2 hp

private theorem closed_change (h : Transition env s a t) (hchange : ClosureChange s t c c')
    (hc : Closed t c) : Closed t c' := by
  cases hchange with
  | finished hstage =>
    refine ⟨fun id hid _ => hc.revoked id hid (by simp [hstage, unrevoked]), hc.flagged, ?_⟩
    intro ref href
    rcases hc.emptied ref href with ⟨rest, hclosing⟩ | hempty
    · simp [hstage] at hclosing
    · exact .inr hempty
  | unmapped roomId rest hstage hrevoked =>
    refine ⟨?_, hc.flagged, ?_⟩
    · intro id hid hdone
      by_cases hroom : id = roomId
      · exact hroom ▸ hrevoked
      · exact hc.revoked id hid (by simpa [hstage, unrevoked, hroom] using hdone)
    · intro ref href
      rcases hc.emptied ref href with ⟨rest, hclosing⟩ | hempty
      · simp [hstage] at hclosing
      · exact .inr hempty
  | flagged roomId ref rest hstage hroom hrevoked hflag =>
    refine ⟨?_, ?_, ?_⟩
    · intro id hid hdone
      by_cases hid' : id = roomId
      · exact hid' ▸ hrevoked
      · exact hc.revoked id hid (by simpa [hstage, unrevoked, hid'] using hdone)
    · intro ref' href
      rcases List.mem_append.mp href with hold | hnew
      · exact hc.flagged ref' hold
      · obtain rfl := List.mem_singleton.mp hnew
        exact ⟨Nat.lt_of_lt_of_le (s.repository.mapped roomId ref' hroom).1 (nextRef_le h), hflag⟩
    · intro ref' href
      rcases List.mem_append.mp href with hold | hnew
      · rcases hc.emptied ref' hold with ⟨rest', hclosing⟩ | hempty
        · simp [hstage] at hclosing
        · exact .inr hempty
      · obtain rfl := List.mem_singleton.mp hnew
        exact .inl ⟨rest, rfl⟩
  | emptied ref rest hstage hempty =>
    refine ⟨?_, hc.flagged, ?_⟩
    · intro id hid hdone
      exact hc.revoked id hid (by simpa [hstage, unrevoked] using hdone)
    · intro ref' href
      rcases hc.emptied ref' href with ⟨rest', hclosing⟩ | hold
      · obtain ⟨rfl, rfl⟩ := ClosureStage.closing.inj (hstage.symm.trans hclosing)
        exact .inr hempty
      · exact .inr hold

end Preservation

/-- Every closure under way or returned, at every moment of every run. -/
def ClosuresClosed (s : Server) : Prop := ∀ i c, s.closures i = some c → Closed s c

section Runs

variable {env : Environment} {s t : Server}

theorem closuresClosed_step {a : Action} (h : Transition env s a t) (hs : ClosuresClosed s) :
    ClosuresClosed t := by
  intro i c' hc'
  rcases closure_cases h i with hsame | ⟨roomIds, hnew, hstarted⟩ | ⟨c, d, hc, hd, hchange⟩
  · exact closed_frame h (hs i c' (hsame ▸ hc'))
  · obtain rfl := Option.some.inj (hc'.symm.trans hstarted)
    refine ⟨?_, by simp, by simp⟩
    intro id hid hdone
    exact absurd hid hdone
  · obtain rfl := Option.some.inj (hc'.symm.trans hd)
    exact closed_change h hchange (closed_frame h (hs i c hc))

theorem closuresClosed_run {actions : List Action} (hrun : (system env).run actions = some s) :
    ClosuresClosed s := by
  refine System.invariant_run (I := ClosuresClosed) ?_ ?_ hrun
  · intro i c hc
    simp [system, Server.initial] at hc
  · exact fun s a t hs h => closuresClosed_step (step_transition h) hs

/-- A closure that has returned stays as it returned. -/
theorem returned_stays {actions : List Action} {i : Nat} {c : Closure}
    (hlater : (system env).runFrom s actions = some t) (hc : s.closures i = some c)
    (hreturned : c.stage = .returned) : t.closures i = some c := by
  refine System.invariant_runFrom (I := fun s => s.closures i = some c) ?_ hc hlater
  intro s a t hs h
  rcases closure_cases (step_transition h) i with hsame | ⟨_, hnew, -⟩ | ⟨d, d', hd, hd', hchange⟩
  · exact hsame.trans hs
  · simp [hs] at hnew
  · obtain rfl := Option.some.inj (hs.symm.trans hd)
    cases hchange <;> simp_all

end Runs

/-- Once a closure has returned, in every later state none of its ids is mapped or can be
created, and every room it unmapped is empty and has no active participant. -/
theorem revocation_final (env : Environment) (before later : List Action) (s t : Server)
    (i : Nat) (c : Closure) (hrun : (system env).run before = some s)
    (hclosure : s.closures i = some c) (hreturned : c.stage = .returned)
    (hlater : (system env).runFrom s later = some t) :
    (∀ id ∈ c.roomIds, t.repository.getRoom id = none ∧
      t.repository.createRoom id = .error s!"Room {id} is revoked") ∧
    ∀ ref ∈ c.unmapped, (∀ p, p ∉ (t.room ref).participants) ∧
      ∀ p userId, (t.room ref).hasActiveParticipant p userId = false := by
  have hrunLater : (system env).run (before ++ later) = some t := by
    rw [System.run, System.runFrom_append, ← System.run, hrun]
    exact hlater
  have hclosed := closuresClosed_run hrunLater i c (returned_stays hlater hclosure hreturned)
  refine ⟨?_, ?_⟩
  · intro id hid
    have hrevoked := hclosed.revoked id hid (by simp [hreturned, unrevoked])
    exact ⟨t.repository.revoked_unmapped id hrevoked,
      t.repository.createRoom_of_revoked hrevoked⟩
  · intro ref href
    refine ⟨?_, ?_⟩
    · rcases hclosed.emptied ref href with ⟨rest, hclosing⟩ | hempty
      · simp [hreturned] at hclosing
      · exact hempty
    · intro p userId
      simp [Room.hasActiveParticipant, (hclosed.flagged ref href).2]

/-- A closure of a room somebody is in, and somebody else's attempt to join it afterwards. -/
def closeOccupied : List Action :=
  [.connect "a" ⟨none, none⟩, .receive "a" (.join "r" "Ann" none none),
    .authorize "a" (some ⟨false, false, false⟩), .admitToMeetingRoom "a" (some .allowed),
    .checkRoom "a", .createRoom "a", .getRoom "a", .lockRoom "a", .finishJoin "a" (.ok ()),
    .startClosure 0 ["r"], .revokeRoom 0, .closeRoom 0, .revokeRoom 0]

def joinClosed : List Action :=
  [.connect "b" ⟨none, none⟩, .receive "b" (.join "r" "Bob" none none),
    .authorize "b" (some ⟨false, false, false⟩), .admitToMeetingRoom "b" (some .allowed),
    .checkRoom "b", .createRoom "b"]

theorem revocation_final_closeOccupied :
    ∃ s t c, (system ⟨fun _ => false, Char.isAlphanum⟩).run closeOccupied = some s ∧
      s.closures 0 = some c ∧ c.roomIds = ["r"] ∧ c.unmapped = [0] ∧
      (system ⟨fun _ => false, Char.isAlphanum⟩).runFrom s joinClosed = some t ∧
      t.repository.getRoom "r" = none ∧ ∀ p, p ∉ (t.room 0).participants := by
  let M := system ⟨fun _ => false, Char.isAlphanum⟩
  obtain ⟨s, hrun, htest⟩ := M.exists_run_of_any Server.initial closeOccupied
    (fun s => decide (s.closures 0 = some ⟨["r"], [0], .returned⟩) &&
      (M.runFrom s joinClosed).isSome) (by decide)
  obtain ⟨hclosure, hlater⟩ := Bool.and_eq_true_iff.mp htest
  obtain ⟨t, ht⟩ := Option.isSome_iff_exists.mp hlater
  have hfinal := revocation_final _ closeOccupied joinClosed s t 0 _ hrun
    (of_decide_eq_true hclosure) rfl ht
  exact ⟨s, t, _, hrun, of_decide_eq_true hclosure, rfl, rfl, ht,
    (hfinal.1 "r" (by simp)).1, (hfinal.2 0 (by simp)).1⟩

end OpenMeet.Revocation
