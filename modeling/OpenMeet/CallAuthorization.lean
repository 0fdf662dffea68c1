import OpenMeet.BadgeNews
import OpenMeet.CallTransactions
import OpenMeet.SocialRuns

/-!
Who may enter the room of a call, in every interleaving of the requests that
change it. A departure declines every call of the group its member has not
declined, and no answer is ever taken back from declined. A room stays a call's
until the group is deleted, which revokes it in the same commit.
-/
namespace OpenMeet.CallAuthorization

open KeyedMap TransitionSystem Messages Accounts SocialTables Badges ConversationApi CallApi
  BadgeNews RequestEffects SocialRuns ReadCommitted CallTransactions

section Writes

variable (db : SocialDatabase)

theorem lookup_expireCalls (expired : Finset Uuid) (id : Uuid) :
    (expireCalls db expired).calls.lookup id = (db.calls.lookup id).map fun call =>
      if id ∈ expired then { call with status := .expired } else call :=
  Map.lookup_mapValues ..

theorem lookup_declineCalls (declined : Finset Uuid) (userId id : Uuid) :
    (declineCalls db declined userId).calls.lookup id = (db.calls.lookup id).map fun call =>
      if id ∈ declined then { call with members := call.members.modify userId fun _ => .declined }
      else call :=
  Map.lookup_mapValues ..

@[simp] theorem handOver_calls (groupId : Uuid) (successor : Option Uuid) :
    (handOver db groupId successor).calls = db.calls := by
  cases successor <;> rfl

@[simp] theorem handOver_revokedRooms (groupId : Uuid) (successor : Option Uuid) :
    (handOver db groupId successor).revokedRooms = db.revokedRooms := by
  cases successor <;> rfl

end Writes

/-! ## What a commit does -/

/-- An answer changes only in a locked row, from pending or to declined. -/
structure KeepsAnswers (locks : Finset CallLock) (id : Uuid) (before after : CallSession) :
    Prop where
  carries : CarriesCall before after
  answers : ∀ userId, after.members.lookup userId = before.members.lookup userId ∨
    .callMember id userId ∈ locks ∧
      (before.members.lookup userId = some .pending ∨ after.members.lookup userId = some .declined)

/-- A call is new only under the locks of its conversation, of its row and of its room, and goes
only under the first two. -/
structure Commits (newId : Uuid) (locks : Finset CallLock) (before after : SocialDatabase) :
    Prop where
  carried : ∀ id call, after.calls.lookup id = some call →
    (∃ earlier, before.calls.lookup id = some earlier ∧ KeepsAnswers locks id earlier call) ∨
      id = newId ∧ .conversation call.conversationId ∈ locks ∧ .call id ∈ locks ∧
        .room call.sfuRoomId ∈ locks ∧ id ∉ before.calls ∧
        ∀ other earlier, before.calls.lookup other = some earlier →
          earlier.sfuRoomId ≠ call.sfuRoomId
  gone : ∀ id call, before.calls.lookup id = some call → id ∈ after.calls ∨
    .conversation call.conversationId ∈ locks ∧ .call id ∈ locks ∧
      call.sfuRoomId ∈ after.revokedRooms
  revoked : before.revokedRooms ⊆ after.revokedRooms

theorem KeepsAnswers.refl (locks : Finset CallLock) (id : Uuid) (call : CallSession) :
    KeepsAnswers locks id call call :=
  ⟨.refl call, fun _ => .inl rfl⟩

section Commits

variable {newId : Uuid} {locks : Finset CallLock} {db after : SocialDatabase}

/-- What a transaction writes to each call, none of them new and none gone. -/
theorem commits_of_map (f : Uuid → CallSession → CallSession)
    (hlookup : ∀ id, after.calls.lookup id = (db.calls.lookup id).map (f id))
    (hrevoked : after.revokedRooms = db.revokedRooms)
    (hf : ∀ id call, db.calls.lookup id = some call → KeepsAnswers locks id call (f id call)) :
    Commits newId locks db after where
  carried id call h := by
    rw [hlookup] at h
    obtain ⟨earlier, hearlier, rfl⟩ := Option.map_eq_some_iff.mp h
    exact .inl ⟨earlier, hearlier, hf id earlier hearlier⟩
  gone id call h := by
    refine .inl (AList.lookup_isSome.mp ?_)
    rw [hlookup, h]
    rfl
  revoked := hrevoked.ge

theorem commits_of_eq (hcalls : after.calls = db.calls)
    (hrevoked : after.revokedRooms = db.revokedRooms) : Commits newId locks db after :=
  commits_of_map (fun _ call => call) (fun _ => by rw [hcalls, Option.map_id'])
    hrevoked fun id call _ => .refl locks id call

theorem Commits.earlier (h : Commits newId locks db after) {id : Uuid} {call : CallSession}
    (hcall : after.calls.lookup id = some call)
    (hlock : .conversation call.conversationId ∉ locks ∨ .call id ∉ locks ∨
      .room call.sfuRoomId ∉ locks) :
    ∃ earlier, db.calls.lookup id = some earlier ∧ KeepsAnswers locks id earlier call := by
  rcases h.carried id call hcall with hcarried | ⟨-, hconversation, hid, hroom, -⟩
  · exact hcarried
  · rcases hlock with hlock | hlock | hlock <;> contradiction

theorem Commits.later_of_mem (h : Commits newId locks db after) {id : Uuid} {call : CallSession}
    (hcall : db.calls.lookup id = some call) (hmem : id ∈ after.calls) :
    ∃ later, after.calls.lookup id = some later ∧ KeepsAnswers locks id call later := by
  obtain ⟨later, hlater⟩ := Option.isSome_iff_exists.mp (AList.lookup_isSome.mpr hmem)
  rcases h.carried id later hlater with ⟨earlier, hearlier, hkeeps⟩ | ⟨-, -, -, -, hnew, -⟩
  · rw [hcall] at hearlier
    cases hearlier
    exact ⟨later, hlater, hkeeps⟩
  · exact absurd (AList.lookup_isSome.mp (hcall ▸ rfl)) hnew

theorem Commits.later (h : Commits newId locks db after) {id : Uuid} {call : CallSession}
    (hcall : db.calls.lookup id = some call) (hlock : .call id ∉ locks) :
    ∃ later, after.calls.lookup id = some later ∧ KeepsAnswers locks id call later := by
  rcases h.gone id call hcall with hmem | ⟨-, hid, -⟩
  · exact h.later_of_mem hcall hmem
  · contradiction

theorem Commits.callsGrow (h : Commits newId locks db after) : CallsGrow db after := by
  refine ⟨newId, fun id call hcall => ?_⟩
  rcases h.carried id call hcall with ⟨earlier, hearlier, hkeeps⟩ | ⟨hid, -, -, -, -, hrooms⟩
  · exact .inl ⟨earlier, hearlier, hkeeps.carries⟩
  · exact .inr ⟨hid, hrooms⟩

end Commits

/-! ## What a transaction may rely on -/

/-- The user was not asked to the call, or has declined it. -/
def KeptOut (userId : Uuid) (call : CallSession) : Prop :=
  ∀ answer, call.members.lookup userId = some answer → answer = .declined

/-- The locks of a transaction at a stage, and what nobody else can change meanwhile. -/
def Relies (db : SocialDatabase) (tx : Transaction CallStage CallLock) : Prop :=
  match tx.stage with
  | .startLocked r _ | .startSnapshot r _ | .startExpired r _ _ | .startCleared r _ _
  | .startChecked r _ _ => .conversation r.conversationId ∈ tx.locks
  | .started r _ _ =>
    (.conversation r.conversationId ∈ tx.locks ∧ .call r.callId ∈ tx.locks ∧
      .room r.room ∈ tx.locks) ∧
    r.callId ∉ db.calls ∧ ∀ id call, db.calls.lookup id = some call → call.sfuRoomId ≠ r.room
  | .respondLocked r _ => .call r.callId ∈ tx.locks
  | .respondPending r _ | .responded r _ =>
    (.call r.callId ∈ tx.locks ∧ .callMember r.callId r.userId ∈ tx.locks) ∧
    ∃ call, db.calls.lookup r.callId = some call ∧ call.members.lookup r.userId = some .pending
  | .departLocked r _ | .departHanded r _ | .departErased r _ => .conversation r.groupId ∈ tx.locks
  | .departed r _ declined =>
    (.conversation r.groupId ∈ tx.locks ∧
      ∀ id ∈ declined, .callMember id r.memberId ∈ tx.locks) ∧
    ∀ id call, db.calls.lookup id = some call → call.conversationId = r.groupId →
      id ∈ declined ∨ KeptOut r.memberId call
  | .deleteLocked r => .conversation r.groupId ∈ tx.locks
  | .deleteRead r rooms | .deleteRevoked r rooms =>
    .conversation r.groupId ∈ tx.locks ∧
    ∀ id call, db.calls.lookup id = some call → call.conversationId = r.groupId →
      call.sfuRoomId ∈ rooms
  | .deleted r rooms =>
    .conversation r.groupId ∈ tx.locks ∧
    ∀ id call, db.calls.lookup id = some call → call.conversationId = r.groupId →
      call.sfuRoomId ∈ rooms ∧ .call id ∈ tx.locks
  | _ => True

section Statements

variable {env : Environment} {db : SocialDatabase} {tx : Transaction CallStage CallLock}
  {stage : CallStage} {locks : Finset CallLock}

theorem mem_callsWhere {test : CallSession → Bool} {id : Uuid} :
    id ∈ callsWhere db test ↔ ∃ call, db.calls.lookup id = some call ∧ test call = true := by
  rw [callsWhere, List.mem_toFinset, Map.mem_matching]

theorem room_ne_of_callsWhere_empty {expired : Finset Uuid} {room : RoomId} {id : Uuid}
    {call : CallSession}
    (h : callsWhere (expireCalls db expired) (fun call => call.sfuRoomId = room) = ∅)
    (hcall : db.calls.lookup id = some call) : call.sfuRoomId ≠ room := by
  intro hroom
  have hmem : id ∈ callsWhere (expireCalls db expired) fun call => call.sfuRoomId = room := by
    refine mem_callsWhere.mpr ⟨_, by rw [lookup_expireCalls, hcall]; rfl, ?_⟩
    split <;> simpa using hroom
  rw [h] at hmem
  exact Finset.notMem_empty id hmem

theorem startStatement_relies (hrelies : Relies db tx)
    (h : startStatement tx.stage (callEffect tx.stage db) = some (stage, locks)) :
    Relies db ⟨stage, tx.locks ∪ locks⟩ := by
  obtain ⟨current, held⟩ := tx
  cases current with
  | start r =>
    obtain ⟨conversation, -, heq⟩ := Option.map_eq_some_iff.mp h
    cases heq
    exact Finset.mem_union_right _ (Finset.mem_singleton_self _)
  | startLocked r kind =>
    obtain ⟨conversation, -, hparticipants⟩ := Option.bind_eq_some_iff.mp h
    obtain ⟨participants, -, heq⟩ := Option.map_eq_some_iff.mp hparticipants
    cases heq
    exact Finset.mem_union_left _ hrelies
  | startSnapshot r participants =>
    cases h
    exact Finset.mem_union_left _ hrelies
  | startExpired r participants expired =>
    cases h
    exact Finset.mem_union_left _ hrelies
  | startCleared r participants expired =>
    obtain ⟨-, heq⟩ := Option.ite_none_right_eq_some.mp h
    cases heq
    exact Finset.mem_union_left _ hrelies
  | startChecked r participants expired =>
    obtain ⟨hfresh, heq⟩ := Option.ite_none_left_eq_some.mp h
    cases heq
    obtain ⟨hid, hroom⟩ := not_or.mp hfresh
    refine ⟨⟨Finset.mem_union_left _ hrelies, by simp, by simp⟩, ?_, fun id call hcall => ?_⟩
    · exact fun hmem => hid ((Map.mem_mapValues _ _ _).mpr hmem)
    · exact room_ne_of_callsWhere_empty (not_not.mp hroom) hcall
  | _ => cases h

theorem respondStatement_relies (hrelies : Relies db tx)
    (h : respondStatement tx.stage (callEffect tx.stage db) = some (stage, locks)) :
    Relies db ⟨stage, tx.locks ∪ locks⟩ := by
  obtain ⟨current, held⟩ := tx
  cases current with
  | respond r =>
    cases h
    exact trivial
  | respondExpired r expired =>
    obtain ⟨-, heq⟩ := Option.ite_none_right_eq_some.mp h
    cases heq
    exact Finset.mem_union_right _ (Finset.mem_singleton_self _)
  | respondLocked r expired =>
    obtain ⟨hpending, heq⟩ := Option.ite_none_right_eq_some.mp h
    cases heq
    obtain ⟨call, hcall, hanswer⟩ := (Option.any_eq_true ..).mp hpending
    obtain ⟨earlier, hearlier, rfl⟩ :=
      Option.map_eq_some_iff.mp ((lookup_expireCalls db expired r.callId).symm.trans hcall)
    refine ⟨⟨Finset.mem_union_left _ hrelies, by simp⟩, earlier, hearlier, ?_⟩
    split at hanswer <;> exact of_decide_eq_true hanswer
  | respondPending r expired =>
    cases h
    obtain ⟨⟨hcall, hmember⟩, hpending⟩ := hrelies
    exact ⟨⟨Finset.mem_union_left _ hcall, Finset.mem_union_left _ hmember⟩, hpending⟩
  | _ => cases h

theorem admitStatement_relies (h : admitStatement env tx.stage (callEffect tx.stage db) =
    some (stage, locks)) : Relies db ⟨stage, tx.locks ∪ locks⟩ := by
  obtain ⟨current, held⟩ := tx
  cases current with
  | admission r =>
    obtain ⟨row, -, heq⟩ := Option.map_eq_some_iff.mp h
    cases heq
    exact trivial
  | admitLocked r group =>
    obtain ⟨conversation, -, hadmits⟩ := Option.bind_eq_some_iff.mp h
    split_ifs at hadmits <;> (cases hadmits; exact trivial)
  | admitChecked r isMember =>
    cases h
    exact trivial
  | _ => cases h

theorem departStatement_relies (hrelies : Relies db tx)
    (h : departStatement tx.stage (callEffect tx.stage db) = some (stage, locks)) :
    Relies db ⟨stage, tx.locks ∪ locks⟩ := by
  obtain ⟨current, held⟩ := tx
  cases current with
  | depart r =>
    obtain ⟨row, -, hrow⟩ := Option.bind_eq_some_iff.mp h
    obtain ⟨-, heq⟩ := Option.ite_none_left_eq_some.mp hrow
    cases heq
    exact Finset.mem_union_right _ (Finset.mem_singleton_self _)
  | departLocked r isCreator =>
    simp only [departStatement] at h
    split at h
    · obtain ⟨conversation, -, hsuccessor⟩ := Option.bind_eq_some_iff.mp h
      obtain ⟨successor, -, heq⟩ := Option.map_eq_some_iff.mp hsuccessor
      cases heq
      exact Finset.mem_union_left _ hrelies
    · cases h
      exact Finset.mem_union_left _ hrelies
  | departHanded r successor =>
    obtain ⟨conversation, -, hmember⟩ := Option.bind_eq_some_iff.mp h
    obtain ⟨-, heq⟩ := Option.ite_none_right_eq_some.mp hmember
    cases heq
    exact Finset.mem_union_left _ hrelies
  | departErased r successor =>
    cases h
    refine ⟨⟨Finset.mem_union_left _ hrelies, fun id hid => ?_⟩, fun id call hcall hgroup => ?_⟩
    · exact Finset.mem_union_right _ (Finset.mem_image_of_mem _ hid)
    · by_cases hdeclined : ∃ answer, call.members.lookup r.memberId = some answer ∧
          answer ≠ .declined
      · obtain ⟨answer, hanswer, hne⟩ := hdeclined
        refine .inl (mem_callsWhere.mpr ⟨call, ?_, ?_⟩)
        · simpa [callEffect, eraseMember, modifyConversation] using hcall
        · simp [hgroup, hanswer, hne]
      · exact .inr fun answer hanswer => by_contra fun hne => hdeclined ⟨answer, hanswer, hne⟩
  | _ => cases h

theorem deleteStatement_relies (hrelies : Relies db tx)
    (h : deleteStatement tx.stage (callEffect tx.stage db) = some (stage, locks)) :
    Relies db ⟨stage, tx.locks ∪ locks⟩ := by
  obtain ⟨current, held⟩ := tx
  cases current with
  | delete r =>
    obtain ⟨row, -, heq⟩ := Option.map_eq_some_iff.mp h
    cases heq
    exact Finset.mem_union_right _ (Finset.mem_singleton_self _)
  | deleteLocked r =>
    cases h
    refine ⟨Finset.mem_union_left _ hrelies, fun id call hcall hgroup => ?_⟩
    have hmem : (⟨id, call⟩ : Sigma fun _ : Uuid => CallSession) ∈ db.calls.entries :=
      AList.mem_lookup_iff.mp hcall
    exact List.mem_toFinset.mpr (List.mem_map.mpr
      ⟨⟨id, call⟩, List.mem_filter.mpr ⟨hmem, by simpa using hgroup⟩, rfl⟩)
  | deleteRead r rooms =>
    cases h
    exact ⟨Finset.mem_union_left _ hrelies.1, hrelies.2⟩
  | deleteRevoked r rooms =>
    cases h
    refine ⟨Finset.mem_union_left _ hrelies.1, fun id call hcall hgroup => ?_⟩
    refine ⟨hrelies.2 id call hcall hgroup, Finset.mem_union_right _ ?_⟩
    exact Finset.mem_image_of_mem _ (mem_callsWhere.mpr ⟨call, hcall, by simpa using hgroup⟩)
  | _ => cases h

theorem callStatement_relies (hrelies : Relies db tx)
    (h : callStatement env tx.stage (callEffect tx.stage db) = some (stage, locks)) :
    Relies db ⟨stage, tx.locks ∪ locks⟩ := by
  unfold callStatement at h
  split at h
  all_goals first
    | exact startStatement_relies hrelies h
    | exact respondStatement_relies hrelies h
    | exact admitStatement_relies h
    | exact departStatement_relies hrelies h
    | exact deleteStatement_relies hrelies h

end Statements

section Effects

variable {newId : Uuid} {locks : Finset CallLock} {db : SocialDatabase}

theorem expireCalls_keeps {expired : Finset Uuid} {id : Uuid} (call : CallSession) :
    KeepsAnswers locks id call
      (if id ∈ expired then { call with status := .expired } else call) := by
  split
  · exact ⟨⟨rfl, rfl, rfl, rfl⟩, fun _ => .inl rfl⟩
  · exact .refl locks id call

theorem started_commits {r : StartRequest} {participants : List Uuid} {expired : Finset Uuid}
    (h : Relies db ⟨.started r participants expired, locks⟩) :
    Commits r.callId locks db (callEffect (.started r participants expired) db) := by
  obtain ⟨⟨hconversation, hid, hroom⟩, hnew, hrooms⟩ := h
  have hkept : Commits r.callId locks db (expireCalls db expired) :=
    commits_of_map _ (lookup_expireCalls db expired) rfl fun id call _ => expireCalls_keeps call
  refine ⟨fun id call hcall => ?_, fun id call hcall => ?_, subset_rfl⟩
  · by_cases hnewId : id = r.callId
    · subst hnewId
      rw [callEffect, AList.lookup_insert] at hcall
      cases hcall
      exact .inr ⟨rfl, hconversation, hid, hroom, hnew, hrooms⟩
    · rw [callEffect, AList.lookup_insert_ne hnewId] at hcall
      exact hkept.carried id call hcall
  · have hmem : id ∈ (expireCalls db expired).calls :=
      (Map.mem_mapValues _ _ _).mpr (AList.lookup_isSome.mp (hcall ▸ rfl))
    exact .inl (AList.mem_insert _ |>.mpr (.inr hmem))

/-- One member's answer is set in a locked row, before which it was pending or to declined. -/
theorem KeepsAnswers.answer {id userId : Uuid} {call current : CallSession}
    {answer : RequestStatus} (hcurrent : KeepsAnswers ∅ id call current)
    (hlock : .callMember id userId ∈ locks)
    (h : call.members.lookup userId = some .pending ∨ answer = .declined) :
    KeepsAnswers locks id call
      { current with members := current.members.modify userId fun _ => answer } := by
  have hsame : ∀ other, current.members.lookup other = call.members.lookup other := fun other =>
    (hcurrent.answers other).resolve_right fun hlocked => Finset.notMem_empty _ hlocked.1
  obtain ⟨hconversation, hinitiator, hroom, hexpires⟩ := hcurrent.carries
  refine ⟨⟨hconversation, hinitiator, hroom, hexpires⟩, fun other => ?_⟩
  rw [Map.lookup_modify]
  by_cases hother : other = userId
  · subst hother
    rw [if_pos rfl, hsame]
    rcases h with hpending | rfl
    · exact .inr ⟨hlock, .inl hpending⟩
    · cases hanswer : call.members.lookup other with
      | none => exact .inl rfl
      | some earlier => exact .inr ⟨hlock, .inr rfl⟩
  · rw [if_neg hother]
    exact .inl (hsame other)

theorem responded_commits {r : RespondRequest} {expired : Finset Uuid}
    (h : Relies db ⟨.responded r expired, locks⟩) :
    Commits newId locks db (callEffect (.responded r expired) db) := by
  obtain ⟨⟨-, hlock⟩, pending, hpending, hanswer⟩ := h
  refine ⟨fun id call hcall => .inl ?_, fun id call hcall => .inl ?_, subset_rfl⟩
  · simp only [callEffect, modifyCall, Map.lookup_modify, lookup_expireCalls] at hcall
    split at hcall
    · rename_i hid
      subst hid
      rw [hpending] at hcall
      cases hcall
      exact ⟨pending, hpending, .answer (expireCalls_keeps pending) hlock (.inl hanswer)⟩
    · obtain ⟨earlier, hearlier, rfl⟩ := Option.map_eq_some_iff.mp hcall
      exact ⟨earlier, hearlier, expireCalls_keeps earlier⟩
  · exact (Map.mem_modify ..).mpr
      ((Map.mem_mapValues ..).mpr (AList.lookup_isSome.mp (hcall ▸ rfl)))

theorem lookup_departed (r : DepartRequest) (successor : Option Uuid) (declined : Finset Uuid)
    (id : Uuid) :
    (callEffect (.departed r successor declined) db).calls.lookup id =
      (db.calls.lookup id).map fun call =>
        if id ∈ declined then
          { call with members := call.members.modify r.memberId fun _ => .declined }
        else call := by
  rw [callEffect, lookup_declineCalls]
  exact congrArg (fun calls : Map Uuid CallSession => (calls.lookup id).map _)
    (handOver_calls db r.groupId successor)

theorem departed_commits {r : DepartRequest} {successor : Option Uuid} {declined : Finset Uuid}
    (h : Relies db ⟨.departed r successor declined, locks⟩) :
    Commits newId locks db (callEffect (.departed r successor declined) db) := by
  obtain ⟨⟨-, hlock⟩, -⟩ := h
  refine commits_of_map _ (lookup_departed r successor declined)
    (handOver_revokedRooms db r.groupId successor) fun id call _ => ?_
  split
  · rename_i hid
    exact .answer (.refl ∅ id call) (hlock id hid) (.inr rfl)
  · exact .refl locks id call

theorem deleted_commits {r : DeleteRequest} {rooms : Finset RoomId}
    (h : Relies db ⟨.deleted r rooms, locks⟩) :
    Commits newId locks db (callEffect (.deleted r rooms) db) := by
  obtain ⟨hconversation, hcalls⟩ := h
  have hlookup : ∀ id, (callEffect (.deleted r rooms) db).calls.lookup id =
      (db.calls.lookup id).filter fun call => call.conversationId ≠ r.groupId :=
    fun id => Map.lookup_retain _ db.calls id
  refine ⟨fun id call hcall => .inl ?_, fun id call hcall => ?_, Finset.subset_union_left⟩
  · rw [hlookup] at hcall
    exact ⟨call, (Option.filter_eq_some_iff.mp hcall).1, .refl locks id call⟩
  · by_cases hgroup : call.conversationId = r.groupId
    · obtain ⟨hroom, hid⟩ := hcalls id call hcall hgroup
      exact .inr ⟨hgroup ▸ hconversation, hid, Finset.mem_union_right _ hroom⟩
    · refine .inl (AList.lookup_isSome.mp ?_)
      rw [hlookup, hcall, Option.filter_some, if_pos (by simpa using hgroup)]
      rfl

/-- What each request does to the calls once it commits. -/
theorem callEffect_commits {tx : Transaction CallStage CallLock} (hrelies : Relies db tx)
    (hfinished : isFinished tx.stage = true) :
    ∃ newId, Commits newId tx.locks db (callEffect tx.stage db) := by
  obtain ⟨stage, locks⟩ := tx
  cases stage <;> try cases hfinished
  case started r participants expired => exact ⟨r.callId, started_commits hrelies⟩
  case responded r expired => exact ⟨0, responded_commits hrelies⟩
  case admitted r isMember =>
    refine ⟨0, commits_of_eq ?_ ?_⟩ <;> (cases isMember <;> rfl)
  case departed r successor declined => exact ⟨0, departed_commits hrelies⟩
  case deleted r rooms => exact ⟨0, deleted_commits hrelies⟩

end Effects

/-! ## What is kept -/

section Kept

variable {newId : Uuid} {locks : Finset CallLock} {db after : SocialDatabase}
  {tx : Transaction CallStage CallLock}

theorem KeepsAnswers.keptOut {id userId : Uuid} {call later : CallSession}
    (h : KeepsAnswers locks id call later) (hout : KeptOut userId call) : KeptOut userId later := by
  intro answer hanswer
  rcases h.answers userId with hsame | ⟨-, hpending | hdeclined⟩
  · exact hout answer (hsame ▸ hanswer)
  · cases hout _ hpending
  · rw [hanswer] at hdeclined
    exact Option.some.inj hdeclined

/-- What a transaction relies on is kept when one that has other rows locked commits. -/
theorem Commits.relies (h : Commits newId locks db after) (hrelies : Relies db tx)
    (hdisjoint : Disjoint tx.locks locks) : Relies after tx := by
  obtain ⟨stage, held⟩ := tx
  have hfree : ∀ lock ∈ held, lock ∉ locks := fun lock hlock =>
    Finset.disjoint_left.mp hdisjoint hlock
  -- a call of a locked conversation was there before
  have hgroup : ∀ {groupId id call}, .conversation groupId ∈ held →
      after.calls.lookup id = some call → call.conversationId = groupId →
      ∃ earlier, db.calls.lookup id = some earlier ∧ earlier.conversationId = groupId ∧
        KeepsAnswers locks id earlier call := by
    intro groupId id call hlock hcall hconversation
    obtain ⟨earlier, hearlier, hkeeps⟩ :=
      h.earlier hcall (.inl (hconversation.symm ▸ hfree _ hlock))
    exact ⟨earlier, hearlier, hkeeps.carries.conversationId ▸ hconversation, hkeeps⟩
  cases stage <;> try exact hrelies
  case started r participants expired =>
    obtain ⟨⟨hconversation, hid, hroom⟩, hnew, hrooms⟩ := hrelies
    refine ⟨⟨hconversation, hid, hroom⟩, fun hmem => ?_, fun id call hcall hcallRoom => ?_⟩
    · obtain ⟨call, hcall⟩ := Option.isSome_iff_exists.mp (AList.lookup_isSome.mpr hmem)
      obtain ⟨earlier, hearlier, -⟩ := h.earlier hcall (.inr (.inl (hfree _ hid)))
      exact hnew (AList.lookup_isSome.mp (hearlier ▸ rfl))
    · obtain ⟨earlier, hearlier, hkeeps⟩ :=
        h.earlier hcall (.inr (.inr (hcallRoom.symm ▸ hfree _ hroom)))
      exact hrooms id earlier hearlier (hkeeps.carries.sfuRoomId ▸ hcallRoom)
  case respondPending r expired =>
    obtain ⟨⟨hid, hmember⟩, call, hcall, hanswer⟩ := hrelies
    obtain ⟨later, hlater, hkeeps⟩ := h.later hcall (hfree _ hid)
    refine ⟨⟨hid, hmember⟩, later, hlater, ?_⟩
    rw [(hkeeps.answers r.userId).resolve_right fun hlocked => hfree _ hmember hlocked.1, hanswer]
  case responded r expired =>
    obtain ⟨⟨hid, hmember⟩, call, hcall, hanswer⟩ := hrelies
    obtain ⟨later, hlater, hkeeps⟩ := h.later hcall (hfree _ hid)
    refine ⟨⟨hid, hmember⟩, later, hlater, ?_⟩
    rw [(hkeeps.answers r.userId).resolve_right fun hlocked => hfree _ hmember hlocked.1, hanswer]
  case departed r successor declined =>
    obtain ⟨⟨hconversation, hmembers⟩, hdeclined⟩ := hrelies
    refine ⟨⟨hconversation, hmembers⟩, fun id call hcall hcallGroup => ?_⟩
    obtain ⟨earlier, hearlier, hearlierGroup, hkeeps⟩ := hgroup hconversation hcall hcallGroup
    rcases hdeclined id earlier hearlier hearlierGroup with hmem | hout
    · exact .inl hmem
    · exact .inr (hkeeps.keptOut hout)
  case deleteRead r rooms =>
    refine ⟨hrelies.1, fun id call hcall hcallGroup => ?_⟩
    obtain ⟨earlier, hearlier, hearlierGroup, hkeeps⟩ := hgroup hrelies.1 hcall hcallGroup
    exact hkeeps.carries.sfuRoomId ▸ hrelies.2 id earlier hearlier hearlierGroup
  case deleteRevoked r rooms =>
    refine ⟨hrelies.1, fun id call hcall hcallGroup => ?_⟩
    obtain ⟨earlier, hearlier, hearlierGroup, hkeeps⟩ := hgroup hrelies.1 hcall hcallGroup
    exact hkeeps.carries.sfuRoomId ▸ hrelies.2 id earlier hearlier hearlierGroup
  case deleted r rooms =>
    refine ⟨hrelies.1, fun id call hcall hcallGroup => ?_⟩
    obtain ⟨earlier, hearlier, hearlierGroup, hkeeps⟩ := hgroup hrelies.1 hcall hcallGroup
    exact hkeeps.carries.sfuRoomId ▸ hrelies.2 id earlier hearlier hearlierGroup

theorem callPrograms_stable (env : Environment) :
    Stable (callPrograms env) UniqueRooms Relies where
  begun db stage _ hinitial := by
    cases stage <;> first | exact trivial | cases hinitial
  ran db tx stage locks _ hrelies hstatement := callStatement_relies hrelies hstatement
  committed db tx hunique hrelies hfinished := by
    obtain ⟨newId, hcommits⟩ := callEffect_commits hrelies hfinished
    exact uniqueRooms_of_callsGrow hcommits.callsGrow hunique
  kept db tx other _ hrelies hother hdisjoint hfinished := by
    obtain ⟨newId, hcommits⟩ := callEffect_commits hother hfinished
    exact hcommits.relies hrelies hdisjoint

/-! ### Rooms -/

/-- The room is a call's or was one's, and has been revoked. -/
def Assigned (room : RoomId) (db : SocialDatabase) : Prop :=
  room ∈ db.revokedRooms ∨ ∃ id call, db.calls.lookup id = some call ∧ call.sfuRoomId = room

/-- The room is assigned, and the user is kept out of its call. -/
structure ShutTo (userId : Uuid) (room : RoomId) (db : SocialDatabase) : Prop where
  assigned : Assigned room db
  keptOut : room ∈ db.revokedRooms ∨ ∀ id call, db.calls.lookup id = some call →
    call.sfuRoomId = room → KeptOut userId call

theorem Commits.assigned (h : Commits newId locks db after) {room : RoomId}
    (hroom : Assigned room db) : Assigned room after := by
  rcases hroom with hrevoked | ⟨id, call, hcall, rfl⟩
  · exact .inl (h.revoked hrevoked)
  · rcases h.gone id call hcall with hmem | ⟨-, -, hrevoked⟩
    · obtain ⟨later, hlater, hkeeps⟩ := h.later_of_mem hcall hmem
      exact .inr ⟨id, later, hlater, hkeeps.carries.sfuRoomId⟩
    · exact .inl hrevoked

theorem Commits.shutTo (h : Commits newId locks db after) {userId : Uuid} {room : RoomId}
    (hshut : ShutTo userId room db) : ShutTo userId room after := by
  refine ⟨h.assigned hshut.assigned, ?_⟩
  rcases hshut.keptOut with hrevoked | hout
  · exact .inl (h.revoked hrevoked)
  rcases hshut.assigned with hrevoked | ⟨earlierId, assigned, hassigned, rfl⟩
  · exact .inl (h.revoked hrevoked)
  refine .inr fun id call hcall hroom => ?_
  rcases h.carried id call hcall with ⟨earlier, hearlier, hkeeps⟩ | ⟨-, -, -, -, -, hrooms⟩
  · exact hkeeps.keptOut (hout id earlier hearlier (hkeeps.carries.sfuRoomId ▸ hroom))
  · exact absurd hroom.symm (hrooms earlierId assigned hassigned)

end Kept

/-! ## Authorization -/

section Authorization

variable {db : SocialDatabase} {now : Timestamp} {room : RoomId} {userId : Uuid}

theorem authorizeSfuRoom_ne_authorized (h : ShutTo userId room db) :
    authorizeSfuRoom db now room (some userId) ≠ .authorized := by
  intro hauthorized
  unfold authorizeSfuRoom classifySfuRoomAuthorization at hauthorized
  split_ifs at hauthorized with hrevoked hcall haccepted
  obtain ⟨row, hrow, htests⟩ := List.any_eq_true.mp (Bool.and_eq_true .. ▸ haccepted).2
  simp only [Bool.and_eq_true, decide_eq_true_eq] at htests
  obtain ⟨⟨⟨⟨hroom, -⟩, -⟩, hanswer⟩, -⟩ := htests
  rcases h.keptOut with hmem | hout
  · exact hrevoked (decide_eq_true hmem)
  · cases hout row.1 row.2 (AList.mem_lookup_iff.mpr hrow) hroom _ hanswer

theorem authorizeSfuRoom_ne_legacy {user : Option Uuid} (h : Assigned room db) :
    authorizeSfuRoom db now room user ≠ .legacy := by
  intro hlegacy
  unfold authorizeSfuRoom classifySfuRoomAuthorization at hlegacy
  split_ifs at hlegacy with hrevoked hcall
  rcases h with hmem | ⟨id, call, hlookup, rfl⟩
  · exact hrevoked (decide_eq_true hmem)
  · have hany : (db.calls.entries.any fun row => row.2.sfuRoomId = call.sfuRoomId) = true :=
      List.any_eq_true.mpr ⟨⟨id, call⟩, AList.mem_lookup_iff.mp hlookup, decide_eq_true rfl⟩
    rw [hany] at hcall
    cases hcall

end Authorization

/-! ## Runs -/

section Runs

variable (env : Environment) (db : SocialDatabase)

def callSystem : System (Shared SocialDatabase CallStage CallLock) (Action CallStage) :=
  system (callPrograms env) db

/-- The commit of a request that removes its member from the group. -/
def DepartureCommits (s t : Shared SocialDatabase CallStage CallLock) (r : DepartRequest) : Prop :=
  ∃ id successor declined locks,
    s.transactions.lookup id = some ⟨.departed r successor declined, locks⟩ ∧
      commitTransaction (callPrograms env) s id = some t

/-- From here on the user is never authorized for the room. -/
def StaysOut (s : Shared SocialDatabase CallStage CallLock) (room : RoomId) (userId : Uuid) :
    Prop :=
  ∀ actions t now, (callSystem env db).runFrom s actions = some t →
    authorizeSfuRoom t.db now room (some userId) ≠ .authorized

/-- Once a departure commits, its member stays out of every call in its scope there is then. -/
def DeparturesRevoke (scope : DepartRequest → CallSession → Prop) : Prop :=
  ∀ actions s t r, (callSystem env db).run actions = some s → DepartureCommits env s t r →
    ∀ id call, t.db.calls.lookup id = some call → scope r call →
      StaysOut env db t call.sfuRoomId r.memberId

/-- What was the room of a call is never again open to anyone. -/
def RoomsNeverLegacy : Prop :=
  ∀ actions s, (callSystem env db).run actions = some s →
    ∀ id call, s.db.calls.lookup id = some call → ∀ later t now user,
      (callSystem env db).runFrom s later = some t →
        authorizeSfuRoom t.db now call.sfuRoomId user ≠ .legacy

variable {env db} {s t : Shared SocialDatabase CallStage CallLock}

theorem run_holds (hdb : UniqueRooms db) {actions : List (Action CallStage)}
    (hrun : (callSystem env db).run actions = some s) : Holds UniqueRooms Relies s :=
  (callPrograms_stable env).runFrom (.init hdb) hrun

theorem DepartureCommits.shutTo {r : DepartRequest} (h : DepartureCommits env s t r)
    (hs : Holds UniqueRooms Relies s) (hunique : UniqueRooms t.db) {id : Uuid} {call : CallSession}
    (hcall : t.db.calls.lookup id = some call) (hgroup : call.conversationId = r.groupId) :
    ShutTo r.memberId call.sfuRoomId t.db := by
  refine ⟨.inr ⟨id, call, hcall, rfl⟩, .inr fun other call' hcall' hroom => ?_⟩
  cases hunique other id call' call hcall' hcall hroom
  rw [hcall] at hcall'
  cases hcall'
  obtain ⟨txId, successor, declined, locks, htx, hcommit⟩ := h
  obtain ⟨-, hdeclined⟩ := hs.transactions txId _ htx
  obtain ⟨tx, htx', -, rfl⟩ := commitTransaction_some hcommit
  rw [htx] at htx'
  cases htx'
  obtain ⟨earlier, hearlier, rfl⟩ :=
    Option.map_eq_some_iff.mp ((lookup_departed r successor declined id).symm.trans hcall)
  intro answer hanswer
  split at hanswer
  · rw [Map.lookup_modify, if_pos rfl] at hanswer
    obtain ⟨-, -, rfl⟩ := Option.map_eq_some_iff.mp hanswer
    rfl
  · rename_i hnot
    rw [if_neg hnot] at hgroup
    exact ((hdeclined id earlier hearlier hgroup).resolve_left hnot) answer hanswer

theorem callAuthorization_sticky (env : Environment) (hdb : UniqueRooms db) :
    DeparturesRevoke env db (fun r call => call.conversationId = r.groupId) ∧
      RoomsNeverLegacy env db := by
  have hcommits : ∀ db tx, UniqueRooms db → Relies db tx → isFinished tx.stage = true →
      ∃ newId, Commits newId tx.locks db (callEffect tx.stage db) :=
    fun _ _ _ hrelies hfinished => callEffect_commits hrelies hfinished
  constructor
  · intro actions s t r hrun hdeparture id call hcall hgroup later u now hlater
    have hs := run_holds hdb hrun
    have ht : Holds UniqueRooms Relies t := by
      obtain ⟨txId, -, -, -, -, hcommit⟩ := hdeparture
      exact (callPrograms_stable env).step hs (a := .commit txId) hcommit
    refine authorizeSfuRoom_ne_authorized ((callPrograms_stable env).kept_runFrom
      (fun db tx hI hJ hfinished hshut => ?_) ht (hdeparture.shutTo hs ht.db hcall hgroup) hlater)
    exact (hcommits db tx hI hJ hfinished).elim fun _ h => h.shutTo hshut
  · intro actions s hrun id call hcall later t now user hlater
    refine authorizeSfuRoom_ne_legacy ((callPrograms_stable env).kept_runFrom
      (fun db tx hI hJ hfinished hassigned => ?_) (run_holds hdb hrun)
      (.inr ⟨id, call, hcall, rfl⟩) hlater)
    exact (hcommits db tx hI hJ hfinished).elim fun _ h => h.assigned hassigned

end Runs

/-! ### Bob leaves one of two groups he has called -/

/-- Ada's two groups, which Bob has joined. -/
def twoGroups (accounts : Accounts.Database) : SocialDatabase :=
  (runEvents plainHashing (emptyRecorder accounts)
    [.request 0 1 (.createGroup 10 "" ⟨"Team", .open, none, []⟩), .request 0 2 (.joinGroup 10 none),
      .request 0 1 (.createGroup 11 "" ⟨"Club", .open, none, []⟩),
      .request 0 2 (.joinGroup 11 none)]).db

theorem twoGroups_uniqueRooms (accounts : Accounts.Database) : UniqueRooms (twoGroups accounts) :=
  runEvents_uniqueRooms (emptyRecorder_uniqueRooms accounts) _

def leaveTeam : DepartRequest := ⟨2, 10, 2, none⟩

def callBothAndLeave : List (Action CallStage) :=
  .begin 0 (.start ⟨1, 2, 10, 50, "first"⟩) :: List.replicate 6 (.run 0) ++ [.commit 0] ++
  .begin 1 (.start ⟨1, 2, 11, 51, "second"⟩) :: List.replicate 6 (.run 1) ++ [.commit 1] ++
  .begin 2 (.depart leaveTeam) :: List.replicate 4 (.run 2)

def isDeparted (r : DepartRequest) (tx : Transaction CallStage CallLock) : Bool :=
  match tx.stage with
  | .departed r' _ _ => r' = r
  | _ => false

theorem departureCommits_of_isDeparted {env : Environment}
    {s t : Shared SocialDatabase CallStage CallLock} {r : DepartRequest} {id : Nat}
    (h : (s.transactions.lookup id).any (isDeparted r) = true)
    (hcommit : commitTransaction (callPrograms env) s id = some t) :
    DepartureCommits env s t r := by
  obtain ⟨⟨stage, locks⟩, htx, hdeparted⟩ := (Option.any_eq_true ..).mp h
  cases stage <;> try cases hdeparted
  case departed r' successor declined =>
    obtain rfl : r' = r := of_decide_eq_true hdeparted
    exact ⟨id, successor, declined, locks, htx, hcommit⟩

/-- Bob was in the room of the call of the group he leaves, and stays out of it. -/
theorem callBothAndLeave_staysOut : ∃ accounts ∈ adaAndBob,
    ∃ s ∈ (callSystem plainHashing (twoGroups accounts)).run callBothAndLeave,
    ∃ t ∈ commitTransaction (callPrograms plainHashing) s 2,
      authorizeSfuRoom s.db 3 "first" (some 2) = .authorized ∧
        StaysOut plainHashing (twoGroups accounts) t "first" 2 := by
  obtain ⟨accounts, haccounts, s, hs, t, ht, hdeparted, hcall, hauthorized⟩ :
      ∃ accounts ∈ adaAndBob,
      ∃ s ∈ (callSystem plainHashing (twoGroups accounts)).run callBothAndLeave,
      ∃ t ∈ commitTransaction (callPrograms plainHashing) s 2,
        (s.transactions.lookup 2).any (isDeparted leaveTeam) = true ∧
        (∃ call ∈ t.db.calls.lookup 50, call.conversationId = 10 ∧ call.sfuRoomId = "first") ∧
        authorizeSfuRoom s.db 3 "first" (some 2) = .authorized := by
    decide +kernel
  obtain ⟨call, hlookup, hgroup, hroom⟩ := hcall
  have hsticky := (callAuthorization_sticky plainHashing (twoGroups_uniqueRooms accounts)).1
  have hstays := hsticky callBothAndLeave s t leaveTeam hs
    (departureCommits_of_isDeparted hdeparted ht) 50 call hlookup hgroup
  rw [hroom] at hstays
  exact ⟨accounts, haccounts, s, hs, t, ht, hauthorized, hstays⟩

/-- Bob may still enter the call of the group he has not left. -/
theorem callBothAndLeave_stillAuthorized : ∃ accounts ∈ adaAndBob,
    ¬ DeparturesRevoke plainHashing (twoGroups accounts) fun _ _ => True := by
  obtain ⟨accounts, haccounts, s, hs, t, ht, hdeparted, hcall, hauthorized⟩ :
      ∃ accounts ∈ adaAndBob,
      ∃ s ∈ (callSystem plainHashing (twoGroups accounts)).run callBothAndLeave,
      ∃ t ∈ commitTransaction (callPrograms plainHashing) s 2,
        (s.transactions.lookup 2).any (isDeparted leaveTeam) = true ∧
        (∃ call ∈ t.db.calls.lookup 51, call.sfuRoomId = "second") ∧
        authorizeSfuRoom t.db 3 "second" (some 2) = .authorized := by
    decide +kernel
  obtain ⟨call, hlookup, hroom⟩ := hcall
  refine ⟨accounts, haccounts, fun hrevokes => ?_⟩
  have hstays := hrevokes callBothAndLeave s t leaveTeam hs
    (departureCommits_of_isDeparted hdeparted ht) 51 call hlookup trivial
  rw [hroom] at hstays
  exact hstays [] t 3 rfl hauthorized

end OpenMeet.CallAuthorization
