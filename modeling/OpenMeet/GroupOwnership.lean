import OpenMeet.BadgeNews
import OpenMeet.GroupTransactions

/-!
Who owns a group, in every interleaving of the requests that change it. The
holder of the lock on a group's row is the only one who changes the group, so
what a transaction has read of it stays true until it commits. A creator who
leaves hands the group over in the same commit.
-/
namespace OpenMeet.GroupOwnership

open KeyedMap TransitionSystem Messages Accounts SocialTables ConversationApi FriendApi
  SocialRequests BadgeNews ReadCommitted GroupTransactions
open CallTransactions (DepartRequest handOver)

/-! ## The locked group -/

/-- The group whose row a transaction at this stage has locked. -/
def lockedGroup : GroupStage → Option Uuid
  | .created r _ => some r.groupId
  | .admissionLocked r _ | .admissionNew r _ | .admissionMembers r _ | .admissionGranted r
  | .admitted r _ => some r.groupId
  | .departLocked r _ | .departHanded r _ | .departed r _ => some r.groupId
  | .roleLocked r | .roleChanged r => some r.groupId
  | .updateLocked r _ | .updated r _ _ => some r.groupId
  | .inviteLocked r _ => some r.groupId
  | .deleteLocked r | .deleted r => some r.groupId
  | _ => none

section Frame

variable (db : SocialDatabase)

@[simp] theorem lookup_modifyConversation (id other : Uuid) (f : Conversation → Conversation) :
    (modifyConversation db id f).conversations.lookup other =
      if other = id then (db.conversations.lookup other).map f
      else db.conversations.lookup other :=
  Map.lookup_modify ..

theorem handOver_lookup (groupId other : Uuid) (successor : Option Uuid)
    (hother : other ≠ groupId) :
    (handOver db groupId successor).conversations.lookup other =
      db.conversations.lookup other := by
  cases successor with
  | none => rfl
  | some successor => exact (lookup_modifyConversation ..).trans (if_neg hother)

theorem removeMember_lookup (now : Timestamp) (groupId memberId other : Uuid) :
    (removeMember db now groupId memberId).conversations.lookup other =
      if other = groupId then (db.conversations.lookup other).map fun conversation =>
        { conversation with members := conversation.members.erase memberId, updatedAt := now }
      else db.conversations.lookup other :=
  lookup_modifyConversation ..

theorem admitMember_conversations (r : AdmissionRequest) (isMember : Bool) :
    (admitMember db r isMember).conversations =
      if isMember then db.conversations
      else (addMember db r.now r.groupId r.memberId).conversations := by
  obtain ⟨now, groupId, memberId, path⟩ := r
  cases isMember <;> cases path <;> rfl

theorem applyFriendRequest_conversations (r : FriendRequest) :
    (applyFriendRequest db r).conversations = db.conversations := by
  cases r with
  | send userId friendshipId notificationId request =>
    unfold applyFriendRequest createFriendRequest
    dsimp only
    repeat' split
    all_goals rfl
  | accept userId friendshipId =>
    unfold applyFriendRequest acceptFriendRequest
    dsimp only
    repeat' split
    all_goals rfl
  | remove userId friendshipId notificationId =>
    unfold applyFriendRequest deleteFriendship
    dsimp only
    repeat' split
    all_goals rfl

/-- A commit changes no group but the one its transaction has locked. -/
theorem groupEffect_lookup {stage : GroupStage} {groupId : Uuid}
    (hstage : lockedGroup stage ≠ some groupId) :
    (groupEffect stage db).conversations.lookup groupId = db.conversations.lookup groupId := by
  cases stage <;> try rfl
  case created r group =>
    exact AList.lookup_insert_ne fun h => hstage (h ▸ rfl)
  case admitted r isMember =>
    have hne : groupId ≠ r.groupId := fun h => hstage (h ▸ rfl)
    rw [groupEffect, admitMember_conversations]
    split
    · rfl
    · exact (lookup_modifyConversation ..).trans (if_neg hne)
  case departHanded r successor => exact handOver_lookup db _ _ _ fun h => hstage (h ▸ rfl)
  case departed r successor =>
    have hne : groupId ≠ r.groupId := fun h => hstage (h ▸ rfl)
    rw [groupEffect, removeMember_lookup, if_neg hne, handOver_lookup db _ _ _ hne]
  case roleChanged r =>
    have hne : groupId ≠ r.groupId := fun h => hstage (h ▸ rfl)
    exact (lookup_modifyConversation ..).trans (if_neg hne)
  case updated r before after =>
    have hne : groupId ≠ r.groupId := fun h => hstage (h ▸ rfl)
    exact (lookup_modifyConversation ..).trans (if_neg hne)
  case deleted r => exact AList.lookup_erase_ne fun h => hstage (h ▸ rfl)
  case friended r friendship =>
    rw [groupEffect, applyFriendRequest_conversations]

end Frame

/-! ## What a transaction knows -/

/-- Who takes the group over, if it is its creator who goes. -/
def Passes (conversation : Conversation) (leaving : Uuid) : Option Uuid → Prop
  | none => conversation.creatorId ≠ leaving
  | some successor =>
    conversation.creatorId = leaving ∧ groupSuccessor conversation leaving = some successor

/-- What a transaction has read of the group it has locked. -/
def Knows (row : Option Conversation) : GroupStage → Prop
  | .created _ _ => row = none
  | .departLocked _ creatorId => ∃ conversation ∈ row, conversation.creatorId = creatorId
  | .departHanded r successor | .departed r successor =>
    ∃ conversation ∈ row, Passes conversation r.memberId successor
  | .roleLocked r | .roleChanged r => ∃ conversation ∈ row, conversation.creatorId ≠ r.memberId
  | _ => True

/-- The creator of a new group is not one of its initial members. -/
def Validated : GroupStage → Prop
  | .createChecked r _ | .created r _ => r.userId ∉ r.request.memberIds
  | _ => True

structure Relies (db : SocialDatabase) (tx : Transaction GroupStage GroupLock) : Prop where
  validated : Validated tx.stage
  locked : ∀ groupId, lockedGroup tx.stage = some groupId →
    .conversation groupId ∈ tx.locks ∧ Knows (db.conversations.lookup groupId) tx.stage

section Statements

variable {env : Environment} {db : SocialDatabase} {tx : Transaction GroupStage GroupLock}
  {stage : GroupStage} {locks : Finset GroupLock}

theorem loadGroupForUpdate_some {groupId : Uuid} {row : Conversation × Group}
    (h : loadGroupForUpdate db groupId = some row) :
    db.conversations.lookup groupId = some row.1 ∧ row.1.kind = .group row.2 := by
  unfold loadGroupForUpdate at h
  cases hload : loadGroup db groupId with
  | error e =>
    rw [hload] at h
    cases h
  | ok found =>
    rw [hload] at h
    cases h
    exact loadGroup_ok hload

/-- A transaction at a stage without a locked group has read nothing that matters. -/
theorem relies_of_unlocked {locks : Finset GroupLock} (h : lockedGroup stage = none)
    (hvalidated : Validated stage) : Relies db ⟨stage, locks⟩ := by
  refine ⟨hvalidated, fun groupId hgroup => ?_⟩
  rw [h] at hgroup
  cases hgroup

/-- The row is locked now, and what was read of it is known. -/
theorem relies_of_lock {held : Finset GroupLock} {groupId : Uuid}
    (hstage : lockedGroup stage = some groupId) (hvalidated : Validated stage)
    (hknows : Knows (db.conversations.lookup groupId) stage) :
    Relies db ⟨stage, held ∪ {.conversation groupId}⟩ := by
  refine ⟨hvalidated, fun other hother => ?_⟩
  cases hstage.symm.trans hother
  exact ⟨Finset.mem_union_right _ (Finset.mem_singleton_self _), hknows⟩

/-- The row stays locked, and what was read of it is known. -/
theorem relies_of_held {held : Finset GroupLock} {groupId : Uuid}
    (hstage : lockedGroup stage = some groupId) (hvalidated : Validated stage)
    (hlock : .conversation groupId ∈ held)
    (hknows : Knows (db.conversations.lookup groupId) stage) :
    Relies db ⟨stage, held ∪ locks⟩ := by
  refine ⟨hvalidated, fun other hother => ?_⟩
  cases hstage.symm.trans hother
  exact ⟨Finset.mem_union_left _ hlock, hknows⟩

theorem validateInitialMemberIds_ok {creatorId : Uuid} {memberIds valid : List Uuid}
    (h : validateInitialMemberIds creatorId memberIds = .ok valid) : creatorId ∉ memberIds := by
  have hcheck : ∀ seen ids, validateInitialMemberIds.check creatorId seen ids = .ok () →
      creatorId ∉ ids := by
    intro seen ids hids
    induction ids generalizing seen with
    | nil => exact List.not_mem_nil
    | cons id rest ih =>
      unfold validateInitialMemberIds.check at hids
      split at hids
      · cases hids
      · rename_i hne
        split at hids
        · cases hids
        · exact List.not_mem_cons_of_ne_of_not_mem (Ne.symm hne) (ih (id :: seen) hids)
  unfold validateInitialMemberIds at h
  split at h
  · cases h
  · cases hids : validateInitialMemberIds.check creatorId [] memberIds with
    | error e =>
      rw [hids] at h
      cases h
    | ok _ => exact hcheck [] memberIds hids

theorem createStatement_relies (hrelies : Relies db tx)
    (h : createStatement env tx.stage (groupEffect tx.stage db) = some (stage, locks)) :
    Relies db ⟨stage, tx.locks ∪ locks⟩ := by
  obtain ⟨current, held⟩ := tx
  cases current with
  | create r =>
    simp only [createStatement] at h
    split at h <;> cases h
    rename_i memberIds _ _ hmembers _ _
    exact relies_of_unlocked rfl (validateInitialMemberIds_ok hmembers)
  | createChecked r group =>
    obtain ⟨hnew, heq⟩ := Option.ite_none_right_eq_some.mp h
    cases heq
    exact relies_of_lock rfl hrelies.validated (AList.lookup_eq_none.mpr hnew.1)
  | _ => cases h

theorem admissionStatement_relies (hrelies : Relies db tx)
    (h : admissionStatement env tx.stage (groupEffect tx.stage db) = some (stage, locks)) :
    Relies db ⟨stage, tx.locks ∪ locks⟩ := by
  obtain ⟨current, held⟩ := tx
  cases current with
  | joinByCode r =>
    obtain ⟨groupId, -, heq⟩ := Option.map_eq_some_iff.mp h
    cases heq
    exact relies_of_unlocked rfl trivial
  | acceptInvitation r =>
    obtain ⟨invitation, -, heq⟩ := Option.map_eq_some_iff.mp h
    cases heq
    exact relies_of_unlocked rfl trivial
  | admission r =>
    obtain ⟨row, -, heq⟩ := Option.map_eq_some_iff.mp h
    cases heq
    exact relies_of_lock rfl trivial trivial
  | admissionLocked r group =>
    obtain ⟨conversation, -, hchecks⟩ := Option.bind_eq_some_iff.mp h
    obtain ⟨-, hmember⟩ := Option.ite_none_right_eq_some.mp hchecks
    split at hmember <;> cases hmember <;>
      exact relies_of_held rfl trivial (hrelies.locked r.groupId rfl).1 trivial
  | admissionNew r group =>
    obtain ⟨conversation, -, hpolicy⟩ := Option.bind_eq_some_iff.mp h
    split at hpolicy
    · cases hpolicy
      exact relies_of_held rfl trivial (hrelies.locked r.groupId rfl).1 trivial
    · split at hpolicy <;> cases hpolicy
      exact relies_of_held rfl trivial (hrelies.locked r.groupId rfl).1 trivial
    · cases hpolicy
      exact relies_of_held rfl trivial (hrelies.locked r.groupId rfl).1 trivial
    · split at hpolicy <;> cases hpolicy
      exact relies_of_held rfl trivial (hrelies.locked r.groupId rfl).1 trivial
  | admissionMembers r remaining =>
    cases remaining with
    | nil =>
      cases h
      exact relies_of_held rfl trivial (hrelies.locked r.groupId rfl).1 trivial
    | cons id rest =>
      obtain ⟨-, heq⟩ := Option.ite_none_right_eq_some.mp h
      cases heq
      exact relies_of_held rfl trivial (hrelies.locked r.groupId rfl).1 trivial
  | admissionGranted r =>
    cases h
    exact relies_of_held rfl trivial (hrelies.locked r.groupId rfl).1 trivial
  | _ => cases h

theorem departStatement_relies (hrelies : Relies db tx)
    (h : departStatement tx.stage (groupEffect tx.stage db) = some (stage, locks)) :
    Relies db ⟨stage, tx.locks ∪ locks⟩ := by
  obtain ⟨current, held⟩ := tx
  cases current with
  | depart r =>
    obtain ⟨row, hrow, heq⟩ := Option.map_eq_some_iff.mp h
    cases heq
    exact relies_of_lock rfl trivial ⟨row.1, (loadGroupForUpdate_some hrow).1, rfl⟩
  | departLocked r creatorId =>
    obtain ⟨hlock, read, hread, hcreator⟩ := hrelies.locked r.groupId rfl
    obtain ⟨conversation, hconversation, hpath⟩ := Option.bind_eq_some_iff.mp h
    cases hread.symm.trans hconversation
    split at hpath
    · obtain ⟨hallowed, heq⟩ := Option.ite_none_right_eq_some.mp hpath
      cases heq
      have hother : r.memberId ≠ creatorId := of_decide_eq_true (Bool.and_eq_true .. ▸ hallowed).2
      exact relies_of_held rfl trivial hlock ⟨read, hread, fun h => hother (h.symm.trans hcreator)⟩
    · split at hpath
      · rename_i hleaving
        obtain ⟨successor, hsuccessor, heq⟩ := Option.map_eq_some_iff.mp hpath
        cases heq
        exact relies_of_held rfl trivial hlock ⟨read, hread, hcreator.trans hleaving, hsuccessor⟩
      · rename_i hstaying
        cases hpath
        exact relies_of_held rfl trivial hlock
          ⟨read, hread, fun h => hstaying (hcreator.symm.trans h)⟩
  | departHanded r successor =>
    obtain ⟨hlock, hknows⟩ := hrelies.locked r.groupId rfl
    obtain ⟨conversation, -, hmember⟩ := Option.bind_eq_some_iff.mp h
    obtain ⟨-, heq⟩ := Option.ite_none_right_eq_some.mp hmember
    cases heq
    exact relies_of_held rfl trivial hlock hknows
  | _ => cases h

theorem roleStatement_relies (hrelies : Relies db tx)
    (h : roleStatement tx.stage (groupEffect tx.stage db) = some (stage, locks)) :
    Relies db ⟨stage, tx.locks ∪ locks⟩ := by
  obtain ⟨current, held⟩ := tx
  cases current with
  | changeRole r =>
    obtain ⟨row, hrow, hchecks⟩ := Option.bind_eq_some_iff.mp h
    obtain ⟨hcreator, heq⟩ := Option.ite_none_right_eq_some.mp hchecks
    cases heq
    exact relies_of_lock rfl trivial ⟨row.1, (loadGroupForUpdate_some hrow).1, hcreator.2.symm⟩
  | roleLocked r =>
    obtain ⟨hlock, hknows⟩ := hrelies.locked r.groupId rfl
    obtain ⟨conversation, -, hmember⟩ := Option.bind_eq_some_iff.mp h
    obtain ⟨-, heq⟩ := Option.ite_none_right_eq_some.mp hmember
    cases heq
    exact relies_of_held rfl trivial hlock hknows
  | _ => cases h

theorem updateStatement_relies (hrelies : Relies db tx)
    (h : updateStatement tx.stage (groupEffect tx.stage db) = some (stage, locks)) :
    Relies db ⟨stage, tx.locks ∪ locks⟩ := by
  obtain ⟨current, held⟩ := tx
  cases current with
  | update r =>
    obtain ⟨row, -, heq⟩ := Option.map_eq_some_iff.mp h
    cases heq
    exact relies_of_lock rfl trivial trivial
  | updateLocked r group =>
    obtain ⟨conversation, -, hadmin⟩ := Option.bind_eq_some_iff.mp h
    obtain ⟨-, hpolicy⟩ := Option.ite_none_right_eq_some.mp hadmin
    obtain ⟨policy, -, heq⟩ := Option.map_eq_some_iff.mp hpolicy
    cases heq
    exact relies_of_held rfl trivial (hrelies.locked r.groupId rfl).1 trivial
  | delete r =>
    obtain ⟨row, -, heq⟩ := Option.map_eq_some_iff.mp h
    cases heq
    exact relies_of_lock rfl trivial trivial
  | deleteLocked r =>
    obtain ⟨conversation, -, hadmin⟩ := Option.bind_eq_some_iff.mp h
    obtain ⟨-, heq⟩ := Option.ite_none_right_eq_some.mp hadmin
    cases heq
    exact relies_of_held rfl trivial (hrelies.locked r.groupId rfl).1 trivial
  | _ => cases h

theorem inviteStatement_relies
    (h : inviteStatement tx.stage (groupEffect tx.stage db) = some (stage, locks)) :
    Relies db ⟨stage, tx.locks ∪ locks⟩ := by
  obtain ⟨current, held⟩ := tx
  cases current with
  | invite r =>
    obtain ⟨row, -, hinvitee⟩ := Option.bind_eq_some_iff.mp h
    split at hinvitee <;> cases hinvitee
    exact relies_of_lock rfl trivial trivial
  | inviteLocked r group =>
    obtain ⟨conversation, -, hchecks⟩ := Option.bind_eq_some_iff.mp h
    obtain ⟨-, heq⟩ := Option.ite_none_right_eq_some.mp hchecks
    cases heq
    exact relies_of_unlocked rfl trivial
  | _ => cases h

theorem friendStatement_relies
    (h : friendStatement tx.stage (groupEffect tx.stage db) = some (stage, locks)) :
    Relies db ⟨stage, tx.locks ∪ locks⟩ := by
  obtain ⟨current, held⟩ := tx
  cases current with
  | friends r =>
    cases r with
    | send userId friendshipId notificationId request =>
      cases h
      exact relies_of_unlocked rfl trivial
    | accept userId friendshipId =>
      obtain ⟨friendship, -, heq⟩ := Option.map_eq_some_iff.mp h
      cases heq
      exact relies_of_unlocked rfl trivial
    | remove userId friendshipId notificationId =>
      obtain ⟨friendship, -, heq⟩ := Option.map_eq_some_iff.mp h
      cases heq
      exact relies_of_unlocked rfl trivial
  | _ => cases h

theorem groupStatement_relies (hrelies : Relies db tx)
    (h : groupStatement env tx.stage (groupEffect tx.stage db) = some (stage, locks)) :
    Relies db ⟨stage, tx.locks ∪ locks⟩ := by
  unfold groupStatement at h
  split at h
  all_goals first
    | exact createStatement_relies hrelies h
    | exact admissionStatement_relies hrelies h
    | exact departStatement_relies hrelies h
    | exact roleStatement_relies hrelies h
    | exact updateStatement_relies hrelies h
    | exact inviteStatement_relies h
    | exact friendStatement_relies h

theorem relies_begun (h : isInitial stage = true) : Relies db ⟨stage, ∅⟩ := by
  cases stage <;> first | exact relies_of_unlocked rfl trivial | cases h

/-- Whoever has other rows locked leaves the group alone. -/
theorem relies_kept {other : Transaction GroupStage GroupLock} (hrelies : Relies db tx)
    (hother : Relies db other) (hdisjoint : Disjoint tx.locks other.locks) :
    Relies (groupEffect other.stage db) tx := by
  refine ⟨hrelies.validated, fun groupId hgroup => ?_⟩
  obtain ⟨hlock, hknows⟩ := hrelies.locked groupId hgroup
  have hunlocked : lockedGroup other.stage ≠ some groupId := fun h =>
    Finset.disjoint_left.mp hdisjoint hlock (hother.locked groupId h).1
  rw [groupEffect_lookup db hunlocked]
  exact ⟨hlock, hknows⟩

end Statements

/-! ## The owner and the successor -/

/-- Exactly one member row has the role of the creator, and it is that of creator_id. -/
def Owned (conversation : Conversation) : Prop :=
  ∀ userId, (∃ member ∈ conversation.members.lookup userId, member.role = .creator) ↔
    userId = conversation.creatorId

/-- Who joined first of those who stay and pass the test. -/
def JoinedFirst (conversation : Conversation) (leaving : Uuid) (test : ConversationMember → Prop)
    (userId : Uuid) : Prop :=
  userId ≠ leaving ∧ ∃ member ∈ conversation.members.lookup userId, test member ∧
    ∀ other ≠ leaving, ∀ member' ∈ conversation.members.lookup other, test member' →
      member.joinedAt ≤ member'.joinedAt

def AdminStays (conversation : Conversation) (leaving : Uuid) : Prop :=
  ∃ userId ≠ leaving, ∃ member ∈ conversation.members.lookup userId, member.role = .admin

/-- The admin who joined first, or the member who joined first where no admin stays. -/
structure IsSuccessor (conversation : Conversation) (leaving successor : Uuid) : Prop where
  admin : AdminStays conversation leaving →
    JoinedFirst conversation leaving (·.role = .admin) successor
  member : ¬ AdminStays conversation leaving →
    JoinedFirst conversation leaving (fun _ => True) successor

section Successor

variable {conversation : Conversation} {leaving successor : Uuid}

theorem minOn?_least {Row : Type*} {key : Row → Nat} {rows : List Row} {least : Row}
    (h : rows.minOn? key = some least) :
    least ∈ rows ∧ ∀ row ∈ rows, key least ≤ key row := by
  refine ⟨List.minOn?_mem h, fun row hrow => ?_⟩
  have hle := List.apply_get_minOn?_le_of_mem (f := key) hrow
  simpa only [h, Option.get_some] using hle

theorem joinedFirst_of_minOn? (test : ConversationMember → Bool)
    {row : (_ : Uuid) × ConversationMember}
    (h : ((conversation.members.entries.filter fun row => row.1 ≠ leaving).filter fun row =>
      test row.2).minOn? (fun row => row.2.joinedAt) = some row) :
    JoinedFirst conversation leaving (test · = true) row.1 := by
  obtain ⟨hmem, hleast⟩ := minOn?_least h
  obtain ⟨hstaying, htest⟩ := List.mem_filter.mp hmem
  obtain ⟨hrow, hne⟩ := List.mem_filter.mp hstaying
  refine ⟨of_decide_eq_true hne, row.2, AList.mem_lookup_iff.mpr hrow, htest, ?_⟩
  intro other hother member hmember htest'
  refine hleast ⟨other, member⟩ (List.mem_filter.mpr ⟨List.mem_filter.mpr ?_, htest'⟩)
  exact ⟨AList.mem_lookup_iff.mp hmember, decide_eq_true hother⟩

theorem isSuccessor_of_groupSuccessor
    (h : groupSuccessor conversation leaving = some successor) :
    IsSuccessor conversation leaving successor := by
  unfold groupSuccessor at h
  dsimp only at h
  obtain ⟨row, hrow, rfl⟩ := Option.map_eq_some_iff.mp h
  rcases Option.or_eq_some_iff.mp hrow with hadmin | ⟨hnone, hfirst⟩
  · have hjoined := joinedFirst_of_minOn? (fun member => member.role = .admin) hadmin
    simp only [decide_eq_true_eq] at hjoined
    obtain ⟨hstays, member, hmember, hrole, hleast⟩ := hjoined
    exact ⟨fun _ => ⟨hstays, member, hmember, hrole, hleast⟩,
      fun hnot => absurd ⟨row.1, hstays, member, hmember, hrole⟩ hnot⟩
  · constructor
    · rintro ⟨userId, hstays, member, hmember, hrole⟩
      have hmem : (⟨userId, member⟩ : (_ : Uuid) × ConversationMember) ∈
          (conversation.members.entries.filter fun row => row.1 ≠ leaving).filter fun row =>
            row.2.role = .admin := by
        refine List.mem_filter.mpr ⟨List.mem_filter.mpr ?_, decide_eq_true hrole⟩
        exact ⟨AList.mem_lookup_iff.mp hmember, decide_eq_true hstays⟩
      have hsome := List.isSome_minOn?_of_mem (f := fun row => row.2.joinedAt) hmem
      rw [hnone] at hsome
      cases hsome
    · intro _
      rw [← List.filter_true (conversation.members.entries.filter _)] at hfirst
      obtain ⟨hstays, member, hmember, -, hleast⟩ :=
        joinedFirst_of_minOn? (fun _ => true) hfirst
      exact ⟨hstays, member, hmember, trivial, fun other hother member' hmember' _ =>
        hleast other hother member' hmember' rfl⟩

end Successor

/-! ## Commits -/

/-- The creator of a group stays its creator, or leaves it to a successor. -/
structure PassesOn (before after : Conversation) : Prop where
  stays : before.creatorId ∈ after.members → after.creatorId = before.creatorId
  leaves : before.creatorId ∉ after.members →
    IsSuccessor before before.creatorId after.creatorId

/-- The conversations of these requests are groups. -/
def GroupsOwned (db : SocialDatabase) : Prop :=
  ∀ groupId, ∀ conversation ∈ db.conversations.lookup groupId, Owned conversation

section Owned

variable {conversation : Conversation} {userId : Uuid}

theorem Owned.creator_mem (h : Owned conversation) :
    conversation.creatorId ∈ conversation.members := by
  obtain ⟨member, hmember, -⟩ := (h conversation.creatorId).mpr rfl
  exact AList.lookup_isSome.mp (hmember ▸ rfl)

/-- Members keep their roles, but for one who is not the creator and does not become it. -/
theorem Owned.of_other {after : Conversation} (h : Owned conversation) (userId : Uuid)
    (hcreator : after.creatorId = conversation.creatorId) (hne : userId ≠ conversation.creatorId)
    (hrole : ∀ member ∈ after.members.lookup userId, member.role ≠ .creator)
    (hothers : ∀ other ≠ userId, after.members.lookup other = conversation.members.lookup other) :
    Owned after := by
  intro other
  rw [hcreator]
  by_cases hother : other = userId
  · subst hother
    exact ⟨fun ⟨member, hmember, hcreator⟩ => absurd hcreator (hrole member hmember),
      fun hcreator => absurd hcreator hne⟩
  · rw [hothers other hother]
    exact h other

theorem Owned.passesOn {after : Conversation} (h : Owned after)
    (hcreator : after.creatorId = conversation.creatorId) : PassesOn conversation after where
  stays _ := hcreator
  leaves hgone := absurd (hcreator ▸ h.creator_mem) hgone

theorem Owned.insert (h : Owned conversation) (hnew : userId ∉ conversation.members)
    (now : Timestamp) : Owned { conversation with
      members := conversation.members.insert userId ⟨.member, now⟩, updatedAt := now } := by
  refine h.of_other userId rfl (fun heq => hnew (heq ▸ h.creator_mem)) ?_ ?_
  · intro member hmember
    rw [AList.lookup_insert] at hmember
    cases hmember
    exact MemberRole.noConfusion
  · exact fun other hother => AList.lookup_insert_ne hother

theorem Owned.erase (h : Owned conversation) (hne : userId ≠ conversation.creatorId)
    (now : Timestamp) : Owned { conversation with
      members := conversation.members.erase userId, updatedAt := now } := by
  refine h.of_other userId rfl hne ?_ ?_
  · intro member hmember
    rw [AList.lookup_erase] at hmember
    cases hmember
  · exact fun other hother => AList.lookup_erase_ne hother

theorem Owned.setRole (h : Owned conversation) (hne : userId ≠ conversation.creatorId)
    (role : GroupMemberRole) (now : Timestamp) : Owned { conversation with
      members := conversation.members.modify userId fun member =>
        { member with role := role.asDbValue }
      updatedAt := now } := by
  refine h.of_other userId rfl hne ?_ ?_
  · intro member hmember
    rw [Map.lookup_modify, if_pos rfl] at hmember
    obtain ⟨earlier, -, rfl⟩ := Option.map_eq_some_iff.mp hmember
    cases role <;> exact MemberRole.noConfusion
  · exact fun other hother => (Map.lookup_modify ..).trans (if_neg hother)

/-- The creator's row goes, and the successor's has the role. -/
theorem Owned.handedOver (h : Owned conversation) {successor : Uuid}
    (hsuccessor : IsSuccessor conversation conversation.creatorId successor) (now : Timestamp) :
    Owned { conversation with
      creatorId := successor
      members := (conversation.members.modify successor fun member =>
        { member with role := .creator }).erase conversation.creatorId
      updatedAt := now } := by
  obtain ⟨hstays, member, hmember⟩ : successor ≠ conversation.creatorId ∧
      ∃ member, conversation.members.lookup successor = some member := by
    by_cases hadmin : AdminStays conversation conversation.creatorId
    · obtain ⟨hstays, member, hmember, -⟩ := hsuccessor.admin hadmin
      exact ⟨hstays, member, hmember⟩
    · obtain ⟨hstays, member, hmember, -⟩ := hsuccessor.member hadmin
      exact ⟨hstays, member, hmember⟩
  intro userId
  dsimp only
  by_cases hleft : userId = conversation.creatorId
  · rw [hleft, AList.lookup_erase]
    exact ⟨fun ⟨_, hnone, _⟩ => (Option.not_mem_none _ hnone).elim,
      fun heq => absurd heq.symm hstays⟩
  · rw [AList.lookup_erase_ne hleft, Map.lookup_modify]
    by_cases htakes : userId = successor
    · rw [if_pos htakes, htakes, hmember]
      exact ⟨fun _ => rfl, fun _ => ⟨_, rfl, rfl⟩⟩
    · rw [if_neg htakes]
      exact ⟨fun hcreator => absurd ((h userId).mp hcreator) hleft, fun heq => absurd heq htakes⟩

end Owned

section Creation

variable {now : Timestamp}

theorem lookup_foldl_insert {memberIds : List Uuid} {members : Map Uuid ConversationMember}
    {userId : Uuid} :
    (memberIds.foldl (fun members id => AList.insert id ⟨.member, now⟩ members) members).lookup
        userId =
      if userId ∈ memberIds then some ⟨.member, now⟩ else members.lookup userId := by
  induction memberIds generalizing members with
  | nil => rfl
  | cons id rest ih =>
    rw [List.foldl_cons, ih]
    by_cases hrest : userId ∈ rest
    · rw [if_pos hrest, if_pos (List.mem_cons_of_mem id hrest)]
    · rw [if_neg hrest]
      by_cases hid : userId = id
      · rw [hid, AList.lookup_insert, if_pos List.mem_cons_self]
      · rw [AList.lookup_insert_ne hid, if_neg (List.not_mem_cons_of_ne_of_not_mem hid hrest)]

theorem newGroup_owned {r : CreationRequest} {group : Group}
    (hcreator : r.userId ∉ r.request.memberIds) : Owned (newGroup r group) := by
  intro userId
  rw [newGroup, lookup_foldl_insert]
  by_cases hinitial : userId ∈ r.request.memberIds
  · rw [if_pos hinitial]
    constructor
    · rintro ⟨member, hmember, hrole⟩
      cases hmember
      cases hrole
    · rintro rfl
      exact absurd hinitial hcreator
  · rw [if_neg hinitial]
    by_cases huser : userId = r.userId
    · rw [huser, AList.lookup_insert]
      exact ⟨fun _ => rfl, fun _ => ⟨_, rfl, rfl⟩⟩
    · rw [AList.lookup_insert_ne huser, AList.lookup_empty]
      exact ⟨fun ⟨_, hnone, _⟩ => (Option.not_mem_none _ hnone).elim, fun heq => absurd heq huser⟩

end Creation

section Commits

variable {db : SocialDatabase}

/-- The row after a commit that has changed it in place. -/
theorem owned_of_modify {groupId : Uuid} {f : Conversation → Conversation} {after : Conversation}
    (hafter : (modifyConversation db groupId f).conversations.lookup groupId = some after)
    (hf : ∀ before, db.conversations.lookup groupId = some before →
      Owned (f before) ∧ PassesOn before (f before)) :
    Owned after ∧ ∀ before ∈ db.conversations.lookup groupId, PassesOn before after := by
  rw [lookup_modifyConversation, if_pos rfl] at hafter
  obtain ⟨before, hbefore, rfl⟩ := Option.map_eq_some_iff.mp hafter
  refine ⟨(hf before hbefore).1, fun other hother => ?_⟩
  cases hbefore.symm.trans hother
  exact (hf before hbefore).2

theorem removeMember_handOver_lookup (groupId memberId : Uuid) (successor : Option Uuid)
    (now : Timestamp) :
    (removeMember (handOver db groupId successor) now groupId memberId).conversations.lookup
        groupId =
      (db.conversations.lookup groupId).map fun conversation =>
        { conversation with
          creatorId := successor.getD conversation.creatorId
          members := (successor.elim conversation.members fun successor =>
            conversation.members.modify successor fun member =>
              { member with role := .creator }).erase memberId
          updatedAt := now } := by
  rw [removeMember_lookup, if_pos rfl]
  cases successor with
  | none => rfl
  | some successor =>
    rw [handOver, Option.elim_some, lookup_modifyConversation, if_pos rfl, Option.map_map]
    rfl

theorem departed_owned {r : DepartRequest} {successor : Option Uuid} {after : Conversation}
    (howned : GroupsOwned db) (hknows : ∃ conversation ∈ db.conversations.lookup r.groupId,
      Passes conversation r.memberId successor)
    (hafter : (removeMember (handOver db r.groupId successor) r.now r.groupId
      r.memberId).conversations.lookup r.groupId = some after) :
    Owned after ∧ ∀ before ∈ db.conversations.lookup r.groupId, PassesOn before after := by
  obtain ⟨before, hbefore, hpasses⟩ := hknows
  rw [removeMember_handOver_lookup, hbefore] at hafter
  cases hafter
  rw [hbefore]
  have hbeforeOwned := howned r.groupId before hbefore
  cases successor with
  | none =>
    have herased := hbeforeOwned.erase (Ne.symm hpasses) r.now
    refine ⟨herased, fun other hother => ?_⟩
    cases hother
    exact herased.passesOn rfl
  | some successor =>
    obtain ⟨hcreator, hsuccessor⟩ := hpasses
    rw [← hcreator] at hsuccessor ⊢
    have hvalid := isSuccessor_of_groupSuccessor hsuccessor
    refine ⟨hbeforeOwned.handedOver hvalid r.now, fun other hother => ?_⟩
    cases hother
    exact ⟨fun hmem => absurd rfl (AList.mem_erase.mp hmem).1, fun _ => hvalid⟩

/-- A commit leaves a group owned, and passes it on if its creator goes. -/
theorem groupEffect_owned {tx : Transaction GroupStage GroupLock} {groupId : Uuid}
    {after : Conversation} (howned : GroupsOwned db) (hrelies : Relies db tx)
    (hfinished : isFinished tx.stage = true)
    (hafter : (groupEffect tx.stage db).conversations.lookup groupId = some after) :
    Owned after ∧ ∀ before ∈ db.conversations.lookup groupId, PassesOn before after := by
  by_cases hstage : lockedGroup tx.stage = some groupId
  · obtain ⟨-, hknows⟩ := hrelies.locked groupId hstage
    have hvalidated := hrelies.validated
    obtain ⟨stage, locks⟩ := tx
    cases stage
    case created r group =>
      cases hstage
      have hnew : after = newGroup r group :=
        (Option.some.inj ((AList.lookup_insert ..).symm.trans hafter)).symm
      subst hnew
      refine ⟨newGroup_owned hvalidated, fun before hbefore => ?_⟩
      cases hknows.symm.trans hbefore
    case admitted r isMember =>
      cases hstage
      rw [groupEffect, admitMember_conversations] at hafter
      cases isMember with
      | true =>
        have hkept := howned r.groupId after hafter
        refine ⟨hkept, fun before hbefore => ?_⟩
        cases hafter.symm.trans hbefore
        exact hkept.passesOn rfl
      | false =>
        refine owned_of_modify hafter fun before hbefore => ?_
        have hbeforeOwned := howned r.groupId before hbefore
        by_cases hmember : r.memberId ∈ before.members
        · rw [if_pos hmember]
          exact ⟨hbeforeOwned, Owned.passesOn hbeforeOwned rfl⟩
        · rw [if_neg hmember]
          have hinserted := hbeforeOwned.insert hmember r.now
          exact ⟨hinserted, hinserted.passesOn rfl⟩
    case departed r successor =>
      cases hstage
      exact departed_owned howned hknows hafter
    case roleChanged r =>
      cases hstage
      obtain ⟨conversation, hconversation, hne⟩ := hknows
      refine owned_of_modify hafter fun before hbefore => ?_
      cases hconversation.symm.trans hbefore
      have hset := (howned r.groupId _ hbefore).setRole (Ne.symm hne) r.role r.now
      exact ⟨hset, hset.passesOn rfl⟩
    case updated r old new =>
      cases hstage
      refine owned_of_modify hafter fun before hbefore => ?_
      have hbeforeOwned := howned r.groupId before hbefore
      exact ⟨hbeforeOwned, Owned.passesOn hbeforeOwned rfl⟩
    case deleted r =>
      cases hstage
      cases (AList.lookup_erase ..).symm.trans hafter
    all_goals first | cases hstage; done | cases hfinished
  · rw [groupEffect_lookup db hstage] at hafter
    refine ⟨howned groupId after hafter, fun before hbefore => ?_⟩
    cases hafter.symm.trans hbefore
    exact (howned groupId after hafter).passesOn rfl

end Commits

theorem groupPrograms_stable (env : Environment) :
    Stable (groupPrograms env) GroupsOwned Relies where
  begun _ _ _ hinitial := relies_begun hinitial
  ran _ _ _ _ _ hrelies hstatement := groupStatement_relies hrelies hstatement
  committed _ _ howned hrelies hfinished _ _ hafter :=
    (groupEffect_owned howned hrelies hfinished hafter).1
  kept _ _ _ _ hrelies hother hdisjoint _ := relies_kept hrelies hother hdisjoint

/-! ## Runs -/

section Runs

variable (env : Environment) (accounts : Accounts.Database)

/-- The requests from the first one on, with any accounts. -/
def groupSystem : System (Shared SocialDatabase GroupStage GroupLock) (Action GroupStage) :=
  system (groupPrograms env) (emptyDatabase accounts)

/-- In every state reached each group has its one owner, and no step takes it away but for a
successor. -/
def OwnershipKept : Prop :=
  ∀ actions s, (groupSystem env accounts).run actions = some s →
    GroupsOwned s.db ∧
    ∀ a t, (groupSystem env accounts).step s a = some t →
      ∀ groupId, ∀ before ∈ s.db.conversations.lookup groupId,
        ∀ after ∈ t.db.conversations.lookup groupId, PassesOn before after

variable {accounts}

theorem emptyDatabase_owned : GroupsOwned (emptyDatabase accounts) := by
  intro groupId conversation hconversation
  simp [emptyDatabase] at hconversation

theorem step_passesOn {s t : Shared SocialDatabase GroupStage GroupLock} {a : Action GroupStage}
    (hs : Holds GroupsOwned Relies s) (hstep : step (groupPrograms env) s a = some t)
    {groupId : Uuid} {before after : Conversation}
    (hbefore : before ∈ s.db.conversations.lookup groupId)
    (hafter : after ∈ t.db.conversations.lookup groupId) : PassesOn before after := by
  have hsame : t.db = s.db → PassesOn before after := by
    intro hdb
    rw [hdb] at hafter
    cases hafter.symm.trans hbefore
    exact (hs.db groupId before hbefore).passesOn rfl
  cases a with
  | begin id stage =>
    obtain ⟨-, heq⟩ := Option.ite_none_right_eq_some.mp hstep
    cases heq
    exact hsame rfl
  | run id =>
    obtain ⟨tx, stage, locks, -, -, -, rfl⟩ := runStatement_some hstep
    exact hsame rfl
  | commit id =>
    obtain ⟨tx, htx, hfinished, rfl⟩ := commitTransaction_some hstep
    exact (groupEffect_owned hs.db (hs.transactions id tx htx) hfinished hafter).2 before hbefore
  | abort id =>
    obtain ⟨-, heq⟩ := Option.ite_none_right_eq_some.mp hstep
    cases heq
    exact hsame rfl

theorem groups_owned (accounts : Accounts.Database) : OwnershipKept env accounts := by
  intro actions s hrun
  have hs := (groupPrograms_stable env).runFrom (.init emptyDatabase_owned) hrun
  exact ⟨hs.db, fun a t hstep groupId before hbefore after hafter =>
    step_passesOn env hs hstep hbefore hafter⟩

end Runs

/-! ### Ada leaves her group to Bob -/

def foundTeam : CreationRequest := ⟨0, 1, 10, "", ⟨"Team", .open, none, []⟩⟩

def bobJoins : AdmissionRequest := ⟨1, 10, 2, .joined none⟩

def foundAndLeave : List (Action GroupStage) :=
  [.begin 0 (.create foundTeam), .run 0, .run 0, .commit 0] ++
  .begin 1 (.admission bobJoins) :: List.replicate 4 (.run 1) ++ [.commit 1] ++
  .begin 2 (.depart ⟨2, 10, 1, none⟩) :: List.replicate 3 (.run 2)

theorem foundAndLeave_passesOn : ∃ accounts ∈ adaAndBob,
    ∃ s ∈ (groupSystem plainHashing accounts).run foundAndLeave,
    ∃ t ∈ (groupSystem plainHashing accounts).step s (.commit 2),
    ∃ before ∈ s.db.conversations.lookup 10, ∃ after ∈ t.db.conversations.lookup 10,
      before.creatorId = 1 ∧ after.creatorId = 2 ∧ PassesOn before after := by
  obtain ⟨accounts, haccounts, s, hs, t, ht, before, hbefore, after, hafter, hada, hbob⟩ :
      ∃ accounts ∈ adaAndBob,
      ∃ s ∈ (groupSystem plainHashing accounts).run foundAndLeave,
      ∃ t ∈ (groupSystem plainHashing accounts).step s (.commit 2),
      ∃ before ∈ s.db.conversations.lookup 10, ∃ after ∈ t.db.conversations.lookup 10,
        before.creatorId = 1 ∧ after.creatorId = 2 := by
    decide +kernel
  have hpasses := (groups_owned plainHashing accounts foundAndLeave s hs).2 (.commit 2) t ht 10
    before hbefore after hafter
  exact ⟨accounts, haccounts, s, hs, t, ht, before, hbefore, after, hafter, hada, hbob, hpasses⟩

end OpenMeet.GroupOwnership
