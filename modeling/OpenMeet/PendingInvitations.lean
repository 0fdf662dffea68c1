import OpenMeet.GroupOwnership

/-!
Who is invited to a group. An invitation is made under the lock on the group's
row, for somebody outside who has none, and accepting it lets the user in and
resolves it in one commit. The other ways into a group leave it as it is.
-/
namespace OpenMeet.PendingInvitations

open KeyedMap TransitionSystem Messages Accounts SocialTables ConversationApi FriendApi
  SocialRequests BadgeNews ReadCommitted GroupTransactions GroupOwnership
open CallTransactions (DepartRequest handOver)

/-! ## Transactions -/

structure DeclineRequest where
  userId : Uuid
  invitationId : Uuid
  deriving DecidableEq

inductive DeclineStage
  | decline (r : DeclineRequest)
  | declined (r : DeclineRequest)

/-- The one statement of a refusal, which answers a pending invitation of the user. -/
def declineStatement (stage : DeclineStage) (db : SocialDatabase) :
    Option (DeclineStage × Finset GroupLock) :=
  match stage with
  | .decline r => (loadPendingInvitation db r.userId r.invitationId).toOption.map fun _ =>
    (.declined r, {.invitation r.invitationId})
  | .declined _ => none

def declineEffect : DeclineStage → SocialDatabase → SocialDatabase
  | .decline _ => id
  | .declined r => fun db => resolveInvitation db r.invitationId .declined

def declinePrograms : Programs SocialDatabase DeclineStage GroupLock where
  initial
    | .decline _ => true
    | .declined _ => false
  effect := declineEffect
  statement := declineStatement
  finished
    | .decline _ => false
    | .declined _ => true

/-- A group that is deleted takes its invitations along; that is left out here. -/
def keepsGroup : GroupStage → Bool
  | .delete _ | .deleteLocked _ | .deleted _ => false
  | _ => true

abbrev InvitationStage := GroupStage ⊕ DeclineStage

def invitationPrograms (env : Environment) : Programs SocialDatabase InvitationStage GroupLock :=
  ((groupPrograms env).starting keepsGroup).sum declinePrograms

/-! ## What holds of the tables -/

/-- The invitation is a pending one of this user to this group. -/
def IsPending (db : SocialDatabase) (id groupId userId : Uuid) : Prop :=
  ∃ invitation ∈ db.invitations.lookup id, invitation.status = .pending ∧
    invitation.conversationId = groupId ∧ invitation.inviteeId = userId

def Invited (db : SocialDatabase) (groupId userId : Uuid) : Prop :=
  ∃ id, IsPending db id groupId userId

def IsMember (db : SocialDatabase) (groupId userId : Uuid) : Prop :=
  ∃ conversation ∈ db.conversations.lookup groupId, userId ∈ conversation.members

/-- Whoever has a pending invitation to a group is not in it, and has one. -/
structure OnlyOutsiders (db : SocialDatabase) : Prop where
  outside : ∀ groupId userId, IsMember db groupId userId → ¬ Invited db groupId userId
  one : ∀ id id' groupId userId, IsPending db id groupId userId →
    IsPending db id' groupId userId → id = id'

/-- The foreign key of an invitation. -/
def InvitedToGroups (db : SocialDatabase) : Prop :=
  ∀ id, ∀ invitation ∈ db.invitations.lookup id, invitation.conversationId ∈ db.conversations

section Frame

variable {db : SocialDatabase} {groupId userId : Uuid}

theorem applyFriendRequest_invitations (db : SocialDatabase) (r : FriendRequest) :
    (applyFriendRequest db r).invitations = db.invitations := by
  cases r with
  | send userId friendshipId notificationId request =>
    unfold applyFriendRequest createFriendRequest
    dsimp only
    repeat' split
    all_goals rfl
  | accept userId friendshipId =>
    unfold applyFriendRequest acceptFriendRequest
    dsimp only
    repeat' split
    all_goals rfl
  | remove userId friendshipId notificationId =>
    unfold applyFriendRequest deleteFriendship
    dsimp only
    repeat' split
    all_goals rfl

theorem handOver_invitations (db : SocialDatabase) (groupId : Uuid) (successor : Option Uuid) :
    (handOver db groupId successor).invitations = db.invitations := by
  cases successor with
  | none => rfl
  | some successor => rfl

end Frame

/-! ## What a transaction knows -/

/-- The group whose row a transaction at this stage has locked. -/
def heldGroup : GroupStage → Option Uuid
  | .invited r => some r.groupId
  | stage => lockedGroup stage

def creates : GroupStage → Bool
  | .created _ _ => true
  | _ => false

/-- The invitation that an admission is about, with its group and invitee. -/
def acceptedBy (r : AdmissionRequest) : Option (Uuid × Uuid × Uuid) :=
  match r.path with
  | .invited id _ => some (id, r.groupId, r.memberId)
  | .joined _ | .added _ => none

theorem acceptedBy_some {r : AdmissionRequest} {row : Uuid × Uuid × Uuid}
    (h : acceptedBy r = some row) : row.2.1 = r.groupId ∧ row.2.2 = r.memberId := by
  obtain ⟨now, groupId, memberId, path⟩ := r
  cases path with
  | invited id password =>
    cases h
    exact ⟨rfl, rfl⟩
  | joined password => cases h
  | added adminId => cases h

def acceptedInvitation : GroupStage → Option (Uuid × Uuid × Uuid)
  | .admission r | .admissionLocked r _ | .admissionNew r _ | .admissionMembers r _
  | .admissionGranted r | .admitted r _ => acceptedBy r
  | _ => none

structure Informed (db : SocialDatabase) (stage : GroupStage) (locks : Finset GroupLock) :
    Prop where
  keeps : keepsGroup stage = true
  locked : ∀ groupId, heldGroup stage = some groupId → .conversation groupId ∈ locks
  present : ∀ groupId, heldGroup stage = some groupId →
    (groupId ∈ db.conversations ↔ creates stage = false)
  accepted : ∀ row, acceptedInvitation stage = some row →
    .invitation row.1 ∈ locks ∧ IsPending db row.1 row.2.1 row.2.2
  inviting : ∀ r, stage = .invited r → .invitation r.invitationId ∈ locks ∧
    r.invitationId ∉ db.invitations ∧ ¬ IsMember db r.groupId r.inviteeId ∧
      ¬ Invited db r.groupId r.inviteeId

def Knowing (db : SocialDatabase) (tx : Transaction InvitationStage GroupLock) : Prop :=
  match tx.stage with
  | .inl stage => Informed db stage tx.locks
  | .inr (.decline _) => True
  | .inr (.declined r) => .invitation r.invitationId ∈ tx.locks

section Statements

variable {env : Environment} {db : SocialDatabase} {current stage : GroupStage}
  {held locks : Finset GroupLock}

theorem isMember_of_eq {after : SocialDatabase} {groupId userId : Uuid}
    (h : after.conversations.lookup groupId = db.conversations.lookup groupId) :
    IsMember after groupId userId ↔ IsMember db groupId userId := by
  unfold IsMember
  rw [h]

theorem pendingInvitationExists_iff {groupId userId : Uuid} :
    pendingInvitationExists db groupId userId = true ↔ Invited db groupId userId := by
  unfold pendingInvitationExists
  simp only [List.any_eq_true, Bool.and_eq_true, decide_eq_true_eq]
  constructor
  · intro h
    obtain ⟨row, hrow, ⟨hgroup, hinvitee⟩, hpending⟩ := h
    exact ⟨row.1, row.2, AList.mem_lookup_iff.mpr hrow, hpending, hgroup, hinvitee⟩
  · intro h
    obtain ⟨id, invitation, hlookup, hpending, hgroup, hinvitee⟩ := h
    exact ⟨⟨id, invitation⟩, AList.mem_lookup_iff.mp hlookup, ⟨hgroup, hinvitee⟩, hpending⟩

/-- A transaction that holds no group and no invitation. -/
theorem informed_of_unlocked (hkeeps : keepsGroup stage = true) (hheld : heldGroup stage = none)
    (haccepted : acceptedInvitation stage = none) : Informed db stage locks where
  keeps := hkeeps
  locked _ hgroup := absurd (hheld.symm.trans hgroup) nofun
  present _ hgroup := absurd (hheld.symm.trans hgroup) nofun
  accepted _ hrow := absurd (haccepted.symm.trans hrow) nofun
  inviting r hstage := by
    subst hstage
    cases hheld

/-- The next stage with the same rows locked. -/
theorem Informed.next (h : Informed db current held) (hkeeps : keepsGroup stage = true)
    (hheld : heldGroup stage = heldGroup current) (hcreates : creates stage = creates current)
    (haccepted : acceptedInvitation stage = acceptedInvitation current)
    (hinvited : ∀ r, stage ≠ .invited r) : Informed db stage (held ∪ locks) where
  keeps := hkeeps
  locked groupId hgroup := Finset.mem_union_left _ (h.locked groupId (hheld ▸ hgroup))
  present groupId hgroup := by
    rw [hcreates]
    exact h.present groupId (hheld ▸ hgroup)
  accepted row hrow := by
    obtain ⟨hlock, hpending⟩ := h.accepted row (haccepted ▸ hrow)
    exact ⟨Finset.mem_union_left _ hlock, hpending⟩
  inviting r hstage := absurd hstage (hinvited r)

/-- The next stage has locked the row of the group. -/
theorem Informed.lock (h : Informed db current held) {groupId : Uuid}
    (hkeeps : keepsGroup stage = true) (hheld : heldGroup stage = some groupId)
    (hpresent : groupId ∈ db.conversations ↔ creates stage = false)
    (haccepted : acceptedInvitation stage = acceptedInvitation current)
    (hinvited : ∀ r, stage ≠ .invited r) :
    Informed db stage (held ∪ {.conversation groupId}) where
  keeps := hkeeps
  locked other hother := by
    cases hheld.symm.trans hother
    exact Finset.mem_union_right _ (Finset.mem_singleton_self _)
  present other hother := by
    cases hheld.symm.trans hother
    exact hpresent
  accepted row hrow := by
    obtain ⟨hlock, hpending⟩ := h.accepted row (haccepted ▸ hrow)
    exact ⟨Finset.mem_union_left _ hlock, hpending⟩
  inviting r hstage := absurd hstage (hinvited r)

theorem mem_of_loaded {groupId : Uuid} {row : Conversation × Group}
    (h : loadGroupForUpdate db groupId = some row) : groupId ∈ db.conversations :=
  AList.lookup_isSome.mp (Option.isSome_of_eq_some (loadGroupForUpdate_some h).1)

theorem createStatement_informed (h : Informed db current held)
    (hstatement : createStatement env current (groupEffect current db) = some (stage, locks)) :
    Informed db stage (held ∪ locks) := by
  cases current with
  | create r =>
    simp only [createStatement] at hstatement
    split at hstatement <;> cases hstatement
    exact informed_of_unlocked rfl rfl rfl
  | createChecked r group =>
    obtain ⟨hnew, heq⟩ := Option.ite_none_right_eq_some.mp hstatement
    cases heq
    refine h.lock rfl rfl ⟨fun hmem => absurd hmem hnew.1, fun h => ?_⟩ rfl fun r h => ?_
    · cases h
    · cases h
  | _ => cases hstatement

theorem loadPendingInvitation_some {userId id : Uuid} {invitation : GroupInvitation}
    (h : (loadPendingInvitation db userId id).toOption = some invitation) :
    IsPending db id invitation.conversationId userId := by
  unfold loadPendingInvitation at h
  split at h
  · rename_i found hfound
    split at h
    · rename_i hpending
      cases h
      exact ⟨invitation, hfound, hpending.2, rfl, hpending.1⟩
    · cases h
  · cases h

theorem admissionStatement_informed (h : Informed db current held)
    (hstatement : admissionStatement env current (groupEffect current db) = some (stage, locks)) :
    Informed db stage (held ∪ locks) := by
  cases current with
  | joinByCode r =>
    obtain ⟨groupId, -, heq⟩ := Option.map_eq_some_iff.mp hstatement
    cases heq
    exact informed_of_unlocked rfl rfl rfl
  | acceptInvitation r =>
    obtain ⟨invitation, hload, heq⟩ := Option.map_eq_some_iff.mp hstatement
    cases heq
    have hpending := loadPendingInvitation_some hload
    refine ⟨rfl, fun _ => nofun, fun _ => nofun, fun row hrow => ?_, fun _ => nofun⟩
    cases hrow
    exact ⟨Finset.mem_union_right _ (Finset.mem_singleton_self _), hpending⟩
  | admission r =>
    obtain ⟨row, hrow, heq⟩ := Option.map_eq_some_iff.mp hstatement
    cases heq
    exact h.lock rfl rfl ⟨fun _ => rfl, fun _ => mem_of_loaded hrow⟩ rfl nofun
  | admissionLocked r group =>
    obtain ⟨conversation, -, hchecks⟩ := Option.bind_eq_some_iff.mp hstatement
    obtain ⟨-, hmember⟩ := Option.ite_none_right_eq_some.mp hchecks
    split at hmember <;> cases hmember <;> exact h.next rfl rfl rfl rfl nofun
  | admissionNew r group =>
    obtain ⟨conversation, -, hpolicy⟩ := Option.bind_eq_some_iff.mp hstatement
    split at hpolicy
    · cases hpolicy
      exact h.next rfl rfl rfl rfl nofun
    · split at hpolicy <;> cases hpolicy
      exact h.next rfl rfl rfl rfl nofun
    · cases hpolicy
      exact h.next rfl rfl rfl rfl nofun
    · split at hpolicy <;> cases hpolicy
      exact h.next rfl rfl rfl rfl nofun
  | admissionMembers r remaining =>
    cases remaining with
    | nil =>
      cases hstatement
      exact h.next rfl rfl rfl rfl nofun
    | cons id rest =>
      obtain ⟨-, heq⟩ := Option.ite_none_right_eq_some.mp hstatement
      cases heq
      exact h.next rfl rfl rfl rfl nofun
  | admissionGranted r =>
    cases hstatement
    exact h.next rfl rfl rfl rfl nofun
  | _ => cases hstatement

theorem departStatement_informed (h : Informed db current held)
    (hstatement : departStatement current (groupEffect current db) = some (stage, locks)) :
    Informed db stage (held ∪ locks) := by
  cases current with
  | depart r =>
    obtain ⟨row, hrow, heq⟩ := Option.map_eq_some_iff.mp hstatement
    cases heq
    exact h.lock rfl rfl ⟨fun _ => rfl, fun _ => mem_of_loaded hrow⟩ rfl nofun
  | departLocked r creatorId =>
    obtain ⟨conversation, -, hpath⟩ := Option.bind_eq_some_iff.mp hstatement
    split at hpath
    · obtain ⟨-, heq⟩ := Option.ite_none_right_eq_some.mp hpath
      cases heq
      exact h.next rfl rfl rfl rfl nofun
    · split at hpath
      · obtain ⟨successor, -, heq⟩ := Option.map_eq_some_iff.mp hpath
        cases heq
        exact h.next rfl rfl rfl rfl nofun
      · cases hpath
        exact h.next rfl rfl rfl rfl nofun
  | departHanded r successor =>
    obtain ⟨conversation, -, hmember⟩ := Option.bind_eq_some_iff.mp hstatement
    obtain ⟨-, heq⟩ := Option.ite_none_right_eq_some.mp hmember
    cases heq
    exact h.next rfl rfl rfl rfl nofun
  | _ => cases hstatement

theorem roleStatement_informed (h : Informed db current held)
    (hstatement : roleStatement current (groupEffect current db) = some (stage, locks)) :
    Informed db stage (held ∪ locks) := by
  cases current with
  | changeRole r =>
    obtain ⟨row, hrow, hchecks⟩ := Option.bind_eq_some_iff.mp hstatement
    obtain ⟨-, heq⟩ := Option.ite_none_right_eq_some.mp hchecks
    cases heq
    exact h.lock rfl rfl ⟨fun _ => rfl, fun _ => mem_of_loaded hrow⟩ rfl nofun
  | roleLocked r =>
    obtain ⟨conversation, -, hmember⟩ := Option.bind_eq_some_iff.mp hstatement
    obtain ⟨-, heq⟩ := Option.ite_none_right_eq_some.mp hmember
    cases heq
    exact h.next rfl rfl rfl rfl nofun
  | _ => cases hstatement

theorem updateStatement_informed (h : Informed db current held)
    (hstatement : updateStatement current (groupEffect current db) = some (stage, locks)) :
    Informed db stage (held ∪ locks) := by
  cases current with
  | update r =>
    obtain ⟨row, hrow, heq⟩ := Option.map_eq_some_iff.mp hstatement
    cases heq
    exact h.lock rfl rfl ⟨fun _ => rfl, fun _ => mem_of_loaded hrow⟩ rfl nofun
  | updateLocked r group =>
    obtain ⟨conversation, -, hadmin⟩ := Option.bind_eq_some_iff.mp hstatement
    obtain ⟨-, hpolicy⟩ := Option.ite_none_right_eq_some.mp hadmin
    obtain ⟨policy, -, heq⟩ := Option.map_eq_some_iff.mp hpolicy
    cases heq
    exact h.next rfl rfl rfl rfl nofun
  | delete r => exact absurd h.keeps Bool.false_ne_true
  | deleteLocked r => exact absurd h.keeps Bool.false_ne_true
  | _ => cases hstatement

/-- The pending check stands under the lock on the group's row. -/
theorem inviteStatement_informed (h : Informed db current held)
    (hstatement : inviteStatement current (groupEffect current db) = some (stage, locks)) :
    Informed db stage (held ∪ locks) := by
  cases current with
  | invite r =>
    obtain ⟨row, hrow, hinvitee⟩ := Option.bind_eq_some_iff.mp hstatement
    split at hinvitee <;> cases hinvitee
    exact h.lock rfl rfl ⟨fun _ => rfl, fun _ => mem_of_loaded hrow⟩ rfl nofun
  | inviteLocked r group =>
    obtain ⟨conversation, hconversation, hchecks⟩ := Option.bind_eq_some_iff.mp hstatement
    obtain ⟨htests, heq⟩ := Option.ite_none_right_eq_some.mp hchecks
    cases heq
    simp only [Bool.and_eq_true, Bool.not_eq_true', decide_eq_true_eq] at htests
    obtain ⟨⟨⟨⟨-, houtside⟩, hpending⟩, hfresh⟩, -⟩ := htests
    refine ⟨rfl, fun groupId hgroup => ?_, fun groupId hgroup => ?_, fun _ => nofun,
      fun r' hr' => ?_⟩
    · exact Finset.mem_union_left _ (h.locked groupId hgroup)
    · exact h.present groupId hgroup
    · cases hr'
      refine ⟨Finset.mem_union_right _ (Finset.mem_singleton_self _), hfresh, fun hmember => ?_,
        fun hinvited => ?_⟩
      · obtain ⟨found, hfound, hmem⟩ := hmember
        cases hconversation.symm.trans hfound
        exact houtside hmem
      · have hexists : pendingInvitationExists db r.groupId r.inviteeId = true :=
          pendingInvitationExists_iff.mpr hinvited
        exact Bool.false_ne_true (hpending.symm.trans hexists)
  | _ => cases hstatement

theorem friendStatement_informed
    (hstatement : friendStatement current (groupEffect current db) = some (stage, locks)) :
    Informed db stage (held ∪ locks) := by
  cases current with
  | friends r =>
    cases r with
    | send userId friendshipId notificationId request =>
      cases hstatement
      exact informed_of_unlocked rfl rfl rfl
    | accept userId friendshipId =>
      obtain ⟨friendship, -, heq⟩ := Option.map_eq_some_iff.mp hstatement
      cases heq
      exact informed_of_unlocked rfl rfl rfl
    | remove userId friendshipId notificationId =>
      obtain ⟨friendship, -, heq⟩ := Option.map_eq_some_iff.mp hstatement
      cases heq
      exact informed_of_unlocked rfl rfl rfl
  | _ => cases hstatement

theorem groupStatement_informed (h : Informed db current held)
    (hstatement : groupStatement env current (groupEffect current db) = some (stage, locks)) :
    Informed db stage (held ∪ locks) := by
  unfold groupStatement at hstatement
  split at hstatement
  all_goals first
    | exact createStatement_informed h hstatement
    | exact admissionStatement_informed h hstatement
    | exact departStatement_informed h hstatement
    | exact roleStatement_informed h hstatement
    | exact updateStatement_informed h hstatement
    | exact inviteStatement_informed h hstatement
    | exact friendStatement_informed hstatement

theorem informed_begun (h : isInitial stage = true) (hkeeps : keepsGroup stage = true) :
    Informed db stage ∅ := by
  cases stage
  case admission r =>
    obtain ⟨now, groupId, memberId, path⟩ := r
    cases path with
    | joined password => exact informed_of_unlocked rfl rfl rfl
    | added adminId => exact informed_of_unlocked rfl rfl rfl
    | invited id password => cases h
  all_goals first | cases h; done | cases hkeeps; done | exact informed_of_unlocked rfl rfl rfl

end Statements

/-! ## Commits -/

/-- The invitation that a commit resolves or inserts. -/
def writtenInvitation : InvitationStage → Option Uuid
  | .inl (.admitted r _) => (acceptedBy r).map (·.1)
  | .inl (.invited r) => some r.invitationId
  | .inr (.declined r) => some r.invitationId
  | _ => none

def invitationEffect : InvitationStage → SocialDatabase → SocialDatabase :=
  Sum.elim groupEffect declineEffect

section Commits

variable {db : SocialDatabase} {tx other : Transaction InvitationStage GroupLock}
  {id groupId userId : Uuid}

theorem admitMember_invitations (db : SocialDatabase) (r : AdmissionRequest) (isMember : Bool) :
    (admitMember db r isMember).invitations =
      (acceptedBy r).elim db.invitations fun row =>
        db.invitations.modify row.1 fun invitation => { invitation with status := .accepted } := by
  obtain ⟨now, groupId, memberId, path⟩ := r
  cases path with
  | joined password => cases isMember <;> rfl
  | added adminId => cases isMember <;> rfl
  | invited id password => cases isMember <;> rfl

/-- A commit changes no invitation but the one it resolves or inserts. -/
theorem invitationEffect_lookup (hknowing : Knowing db tx)
    (hid : writtenInvitation tx.stage ≠ some id) :
    (invitationEffect tx.stage db).invitations.lookup id = db.invitations.lookup id := by
  obtain ⟨stage, locks⟩ := tx
  cases stage with
  | inl stage =>
    cases stage <;> try rfl
    case admitted r isMember =>
      refine (congrArg (AList.lookup id) (admitMember_invitations db r isMember)).trans ?_
      cases haccepted : acceptedBy r with
      | none => rfl
      | some row =>
        have hwritten : writtenInvitation (.inl (.admitted r isMember)) = some row.1 :=
          congrArg (Option.map Prod.fst) haccepted
        have hne : id ≠ row.1 := fun h => hid (hwritten.trans (congrArg some h.symm))
        exact (Map.lookup_modify ..).trans (if_neg hne)
    case departHanded r successor =>
      exact congrArg (AList.lookup id) (handOver_invitations db r.groupId successor)
    case departed r successor =>
      exact congrArg (AList.lookup id) (handOver_invitations db r.groupId successor)
    case invited r => exact AList.lookup_insert_ne fun h => hid (congrArg some h.symm)
    case deleted r => exact absurd hknowing.keeps Bool.false_ne_true
    case friended r friendship =>
      exact congrArg (AList.lookup id) (applyFriendRequest_invitations db r)
  | inr stage =>
    cases stage with
    | decline r => rfl
    | declined r =>
      exact (Map.lookup_modify ..).trans (if_neg fun h => hid (congrArg some h.symm))

theorem written_locked (hknowing : Knowing db tx) (hid : writtenInvitation tx.stage = some id) :
    .invitation id ∈ tx.locks := by
  obtain ⟨stage, locks⟩ := tx
  cases stage with
  | inl stage =>
    cases stage <;> try cases hid
    case admitted r isMember =>
      obtain ⟨row, hrow, rfl⟩ := Option.map_eq_some_iff.mp hid
      exact (hknowing.accepted row hrow).1
    case invited.refl r => exact (hknowing.inviting r rfl).1
  | inr stage =>
    cases stage with
    | decline r => cases hid
    | declined r =>
      cases hid
      exact hknowing

/-- An invitation after a commit was there before, pending if it is now; or it is a new one. -/
theorem invitation_after (hknowing : Knowing db tx) {invitation : GroupInvitation}
    (hlookup : (invitationEffect tx.stage db).invitations.lookup id = some invitation) :
    (∃ before ∈ db.invitations.lookup id, before.conversationId = invitation.conversationId ∧
      before.inviteeId = invitation.inviteeId ∧
        (invitation.status = .pending → before.status = .pending)) ∨
      ∃ r, tx.stage = .inl (.invited r) ∧ id = r.invitationId ∧
        invitation = ⟨r.groupId, r.userId, r.inviteeId, .pending⟩ := by
  by_cases hid : writtenInvitation tx.stage = some id
  · have hresolved : ∀ status, (db.invitations.modify id fun invitation =>
        { invitation with status := status }).lookup id = some invitation → status ≠ .pending →
          ∃ before ∈ db.invitations.lookup id,
            before.conversationId = invitation.conversationId ∧
            before.inviteeId = invitation.inviteeId ∧
              (invitation.status = .pending → before.status = .pending) := by
      intro status hmodified hstatus
      rw [Map.lookup_modify, if_pos rfl] at hmodified
      obtain ⟨before, hbefore, rfl⟩ := Option.map_eq_some_iff.mp hmodified
      exact ⟨before, hbefore, rfl, rfl, fun hpending => absurd hpending hstatus⟩
    obtain ⟨stage, locks⟩ := tx
    cases stage with
    | inl stage =>
      cases stage <;> try cases hid
      case admitted r isMember =>
        obtain ⟨row, hrow, rfl⟩ := Option.map_eq_some_iff.mp hid
        have hafter := (congrArg (AList.lookup row.1)
          (admitMember_invitations db r isMember)).symm.trans hlookup
        rw [hrow] at hafter
        exact .inl (hresolved .accepted hafter nofun)
      case invited.refl r =>
        cases (AList.lookup_insert ..).symm.trans hlookup
        exact .inr ⟨r, rfl, rfl, rfl⟩
    | inr stage =>
      cases stage with
      | decline r => cases hid
      | declined r =>
        cases hid
        exact .inl (hresolved .declined hlookup nofun)
  · have hsame := (invitationEffect_lookup hknowing hid).symm.trans hlookup
    exact .inl ⟨invitation, hsame, rfl, rfl, fun hpending => hpending⟩

def heldBy : InvitationStage → Option Uuid := Sum.elim heldGroup fun _ => none

theorem heldGroup_of_locked {stage : GroupStage} (h : lockedGroup stage = some groupId) :
    heldGroup stage = some groupId := by
  cases stage <;> first | exact h | cases h

/-- A commit changes no group but the one whose row it has locked. -/
theorem invitationEffect_conversation (hheld : heldBy tx.stage ≠ some groupId) :
    (invitationEffect tx.stage db).conversations.lookup groupId =
      db.conversations.lookup groupId := by
  obtain ⟨stage, locks⟩ := tx
  cases stage with
  | inl stage => exact groupEffect_lookup db fun h => hheld (heldGroup_of_locked h)
  | inr stage => cases stage <;> rfl

theorem held_locked (hknowing : Knowing db tx) (hheld : heldBy tx.stage = some groupId) :
    .conversation groupId ∈ tx.locks := by
  obtain ⟨stage, locks⟩ := tx
  cases stage with
  | inl stage => exact hknowing.locked groupId hheld
  | inr stage => cases hheld

theorem handOver_mem (h : groupId ∈ db.conversations) (other : Uuid) (successor : Option Uuid) :
    groupId ∈ (handOver db other successor).conversations := by
  cases successor with
  | none => exact h
  | some successor => exact (Map.mem_modify ..).mpr h

/-- No commit takes a group away. -/
theorem mem_invitationEffect (hknowing : Knowing db tx) (h : groupId ∈ db.conversations) :
    groupId ∈ (invitationEffect tx.stage db).conversations := by
  obtain ⟨stage, locks⟩ := tx
  cases stage with
  | inl stage =>
    cases stage <;> try exact h
    case created r group => exact (AList.mem_insert _).mpr (.inr h)
    case admitted r isMember =>
      have hmem : groupId ∈ (admitMember db r isMember).conversations := by
        rw [admitMember_conversations]
        split
        · exact h
        · exact (Map.mem_modify ..).mpr h
      exact hmem
    case departHanded r successor => exact handOver_mem h r.groupId successor
    case departed r successor =>
      exact (Map.mem_modify ..).mpr (handOver_mem h r.groupId successor)
    case roleChanged r => exact (Map.mem_modify ..).mpr h
    case updated r before after => exact (Map.mem_modify ..).mpr h
    case deleted r => exact absurd hknowing.keeps Bool.false_ne_true
    case friended r friendship =>
      have hsame := applyFriendRequest_conversations db r
      exact hsame ▸ h
  | inr stage => cases stage <;> exact h

/-- What a commit that rewrites one group in place makes of its members. -/
theorem isMember_of_modify {after : SocialDatabase} {f : Conversation → Conversation}
    (hlookup : after.conversations.lookup groupId = (db.conversations.lookup groupId).map f)
    (hf : ∀ conversation, userId ∈ (f conversation).members → userId ∈ conversation.members)
    (h : IsMember after groupId userId) : IsMember db groupId userId := by
  obtain ⟨written, hwritten, hmem⟩ := h
  rw [hlookup] at hwritten
  obtain ⟨before, hbefore, rfl⟩ := Option.map_eq_some_iff.mp hwritten
  exact ⟨before, hbefore, hf before hmem⟩

/-- A member after a commit was one before, or the group is new, or the user is let in. -/
theorem member_after (h : IsMember (invitationEffect tx.stage db) groupId userId) :
    IsMember db groupId userId ∨
      (∃ r group, tx.stage = .inl (.created r group) ∧ groupId = r.groupId) ∨
      ∃ r, tx.stage = .inl (.admitted r false) ∧ groupId = r.groupId ∧ userId = r.memberId := by
  by_cases hheld : heldBy tx.stage = some groupId
  · obtain ⟨stage, locks⟩ := tx
    cases stage with
    | inl stage =>
      cases stage <;> try exact .inl h
      case created r group =>
        cases hheld
        exact .inr (.inl ⟨r, group, rfl, rfl⟩)
      case admitted r isMember =>
        cases hheld
        have hconversations := admitMember_conversations db r isMember
        cases isMember with
        | true =>
          have hlookup := congrArg (AList.lookup r.groupId) hconversations
          exact .inl ((isMember_of_eq hlookup).mp h)
        | false =>
          by_cases huser : userId = r.memberId
          · exact .inr (.inr ⟨r, rfl, rfl, huser⟩)
          · refine .inl (isMember_of_modify ((congrArg (AList.lookup r.groupId)
              hconversations).trans ((lookup_modifyConversation ..).trans (if_pos rfl))) ?_ h)
            intro conversation hmem
            dsimp only at hmem
            split at hmem
            · exact hmem
            · exact ((AList.mem_insert _).mp hmem).resolve_left huser
      case departHanded r successor =>
        cases hheld
        cases successor with
        | none => exact .inl h
        | some successor =>
          refine .inl (isMember_of_modify ((lookup_modifyConversation ..).trans (if_pos rfl)) ?_ h)
          exact fun conversation hmem => (Map.mem_modify ..).mp hmem
      case departed r successor =>
        cases hheld
        refine .inl (isMember_of_modify (removeMember_handOver_lookup ..) ?_ h)
        intro conversation hmem
        have hstays := (AList.mem_erase.mp hmem).2
        cases successor with
        | none => exact hstays
        | some successor => exact (Map.mem_modify ..).mp hstays
      case roleChanged r =>
        cases hheld
        refine .inl (isMember_of_modify ((lookup_modifyConversation ..).trans (if_pos rfl)) ?_ h)
        exact fun conversation hmem => (Map.mem_modify ..).mp hmem
      case updated r before after =>
        cases hheld
        refine .inl (isMember_of_modify ((lookup_modifyConversation ..).trans (if_pos rfl)) ?_ h)
        exact fun conversation hmem => hmem
      case deleted r =>
        cases hheld
        obtain ⟨after, hafter, -⟩ := h
        cases (AList.lookup_erase ..).symm.trans hafter
      case friended r friendship => cases hheld
    | inr stage => cases hheld
  · exact .inl ((isMember_of_eq (invitationEffect_conversation hheld)).mp h)

theorem isPending_after (hknowing : Knowing db tx)
    (h : IsPending (invitationEffect tx.stage db) id groupId userId) :
    IsPending db id groupId userId ∨ ∃ r, tx.stage = .inl (.invited r) ∧ id = r.invitationId ∧
      groupId = r.groupId ∧ userId = r.inviteeId := by
  obtain ⟨invitation, hlookup, hpending, hgroup, huser⟩ := h
  rcases invitation_after hknowing hlookup with hbefore | hinvited
  · obtain ⟨before, hbefore, hgroup', huser', hpending'⟩ := hbefore
    exact .inl ⟨before, hbefore, hpending' hpending, hgroup'.trans hgroup, huser'.trans huser⟩
  · obtain ⟨r, hstage, hid, rfl⟩ := hinvited
    exact .inr ⟨r, hstage, hid, hgroup.symm, huser.symm⟩

/-- An accepted invitation is no longer pending. -/
theorem accepted_resolved {r : AdmissionRequest} {isMember : Bool} {row : Uuid × Uuid × Uuid}
    (hrow : acceptedBy r = some row) :
    ¬ IsPending (groupEffect (.admitted r isMember) db) row.1 groupId userId := by
  intro h
  obtain ⟨invitation, hlookup, hpending, -⟩ := h
  have hafter := (congrArg (AList.lookup row.1)
    (admitMember_invitations db r isMember)).symm.trans hlookup
  rw [hrow, Option.elim_some, Map.lookup_modify, if_pos rfl] at hafter
  obtain ⟨before, -, rfl⟩ := Option.map_eq_some_iff.mp hafter
  cases hpending

/-- What a transaction knows outlives the commits of those with other rows locked. -/
theorem knowing_kept (hknowing : Knowing db tx) (hother : Knowing db other)
    (hdisjoint : Disjoint tx.locks other.locks) :
    Knowing (invitationEffect other.stage db) tx := by
  obtain ⟨stage, locks⟩ := tx
  cases stage with
  | inr stage => cases stage <;> exact hknowing
  | inl stage =>
    obtain ⟨hkeeps, hlocked, hpresent, haccepted, hinviting⟩ := hknowing
    have hconversation : ∀ groupId, heldGroup stage = some groupId →
        (invitationEffect other.stage db).conversations.lookup groupId =
          db.conversations.lookup groupId := by
      intro groupId hgroup
      refine invitationEffect_conversation fun hheld => ?_
      exact Finset.disjoint_left.mp hdisjoint (hlocked groupId hgroup) (held_locked hother hheld)
    have hinvitation : ∀ id, .invitation id ∈ locks →
        (invitationEffect other.stage db).invitations.lookup id = db.invitations.lookup id := by
      intro id hlock
      refine invitationEffect_lookup hother fun hid => ?_
      exact Finset.disjoint_left.mp hdisjoint hlock (written_locked hother hid)
    refine ⟨hkeeps, hlocked, fun groupId hgroup => ?_, fun row hrow => ?_, fun r hr => ?_⟩
    · rw [← hpresent groupId hgroup, ← AList.lookup_isSome, hconversation groupId hgroup,
        AList.lookup_isSome]
    · obtain ⟨hlock, invitation, hlookup, hpending⟩ := haccepted row hrow
      exact ⟨hlock, invitation, (hinvitation row.1 hlock).trans hlookup, hpending⟩
    · obtain ⟨hlock, hfresh, houtside, hnone⟩ := hinviting r hr
      have hheld : heldGroup stage = some r.groupId := hr ▸ rfl
      refine ⟨hlock, ?_, fun hmember => ?_, fun hinvited => ?_⟩
      · rwa [← AList.lookup_eq_none, hinvitation r.invitationId hlock, AList.lookup_eq_none]
      · exact houtside ((isMember_of_eq (hconversation r.groupId hheld)).mp hmember)
      · obtain ⟨id, hpending⟩ := hinvited
        rcases isPending_after hother hpending with hbefore | hnew
        · exact hnone ⟨id, hbefore⟩
        · obtain ⟨r', hstage, -, hgroup, -⟩ := hnew
          have hheld' : heldBy other.stage = some r.groupId := by
            rw [hstage, hgroup]
            rfl
          exact Finset.disjoint_left.mp hdisjoint (hlocked r.groupId hheld)
            (held_locked hother hheld')

/-- The tables without regard to members: invitations are to groups, and one at a time. -/
structure Recorded (db : SocialDatabase) : Prop where
  toGroups : InvitedToGroups db
  one : ∀ id id' groupId userId, IsPending db id groupId userId →
    IsPending db id' groupId userId → id = id'

theorem recorded_committed (hrecorded : Recorded db) (hknowing : Knowing db tx) :
    Recorded (invitationEffect tx.stage db) := by
  have hinviting : ∀ r, tx.stage = .inl (.invited r) → r.groupId ∈ db.conversations ∧
      ¬ Invited db r.groupId r.inviteeId := by
    intro r hstage
    obtain ⟨stage, locks⟩ := tx
    subst hstage
    exact ⟨(hknowing.present r.groupId rfl).mpr rfl, (hknowing.inviting r rfl).2.2.2⟩
  constructor
  · intro id invitation hlookup
    rcases invitation_after hknowing hlookup with hbefore | hnew
    · obtain ⟨before, hbefore, hgroup, -⟩ := hbefore
      exact mem_invitationEffect hknowing (hgroup ▸ hrecorded.toGroups id before hbefore)
    · obtain ⟨r, hstage, -, rfl⟩ := hnew
      exact mem_invitationEffect hknowing (hinviting r hstage).1
  · intro id id' groupId userId hid hid'
    rcases isPending_after hknowing hid with hold | hnew
    · rcases isPending_after hknowing hid' with hold' | hnew'
      · exact hrecorded.one id id' groupId userId hold hold'
      · obtain ⟨r, hstage, -, rfl, rfl⟩ := hnew'
        exact absurd ⟨id, hold⟩ (hinviting r hstage).2
    · obtain ⟨r, hstage, rfl, rfl, rfl⟩ := hnew
      rcases isPending_after hknowing hid' with hold' | hnew'
      · exact absurd ⟨id', hold'⟩ (hinviting r hstage).2
      · obtain ⟨r', hstage', rfl, -, -⟩ := hnew'
        cases hstage.symm.trans hstage'
        rfl

theorem invitationPrograms_stable (env : Environment) :
    Stable (invitationPrograms env) Recorded Knowing where
  begun db stage _ hinitial := by
    cases stage with
    | inl stage =>
      obtain ⟨hinitial, hkeeps⟩ := Bool.and_eq_true_iff.mp hinitial
      exact informed_begun hinitial hkeeps
    | inr stage =>
      cases stage with
      | decline r => trivial
      | declined r => cases hinitial
  ran db tx stage locks _ hknowing hstatement := by
    obtain ⟨current, held⟩ := tx
    cases current with
    | inl current =>
      obtain ⟨row, hrow, heq⟩ := Option.map_eq_some_iff.mp hstatement
      cases heq
      exact groupStatement_informed hknowing hrow
    | inr current =>
      obtain ⟨row, hrow, heq⟩ := Option.map_eq_some_iff.mp hstatement
      cases heq
      cases current with
      | decline r =>
        obtain ⟨invitation, -, heq⟩ := Option.map_eq_some_iff.mp hrow
        cases heq
        exact Finset.mem_union_right _ (Finset.mem_singleton_self _)
      | declined r => cases hrow
  committed db tx hrecorded hknowing _ := recorded_committed hrecorded hknowing
  kept db tx other _ hknowing hother hdisjoint _ := knowing_kept hknowing hother hdisjoint

end Commits

/-! ## Other doors -/

/-- The group and the user a commit lets in without an invitation. -/
def entersBesides : InvitationStage → Option (Uuid × Uuid)
  | .inl (.admitted r false) =>
    match r.path with
    | .joined _ | .added _ => some (r.groupId, r.memberId)
    | .invited _ _ => none
  | _ => none

/-- Nobody with a pending invitation comes in by joining or by being added. -/
def NoneLeftPending (s : Shared SocialDatabase InvitationStage GroupLock) :
    Action InvitationStage → Prop
  | .commit id => ∀ tx ∈ s.transactions.lookup id, ∀ row ∈ entersBesides tx.stage,
    pendingInvitationExists s.db row.1 row.2 = false
  | .begin _ _ | .run _ | .abort _ => True

section Runs

variable {env : Environment} {db : SocialDatabase} {tx : Transaction InvitationStage GroupLock}

/-- A commit keeps invitations to outsiders, apart from those it lets in. -/
theorem onlyOutsiders_committed (honly : OnlyOutsiders db) (hrecorded : Recorded db)
    (hknowing : Knowing db tx)
    (hresolved : ∀ row ∈ entersBesides tx.stage, ¬ Invited db row.1 row.2) :
    OnlyOutsiders (invitationEffect tx.stage db) := by
  refine ⟨fun groupId userId hmember hinvited => ?_, (recorded_committed hrecorded hknowing).one⟩
  obtain ⟨id, hpending⟩ := hinvited
  rcases isPending_after hknowing hpending with hold | hnew
  · rcases member_after hmember with hbefore | hcreated | hadmitted
    · exact honly.outside groupId userId hbefore ⟨id, hold⟩
    · obtain ⟨r, group, hstage, rfl⟩ := hcreated
      obtain ⟨stage, locks⟩ := tx
      subst hstage
      obtain ⟨invitation, hlookup, -, hgroup, -⟩ := hold
      have hmem := hrecorded.toGroups id invitation hlookup
      rw [hgroup] at hmem
      exact Bool.false_ne_true ((hknowing.present r.groupId rfl).mp hmem).symm
    · obtain ⟨r, hstage, rfl, rfl⟩ := hadmitted
      obtain ⟨stage, locks⟩ := tx
      subst hstage
      cases haccepted : acceptedBy r with
      | none =>
        obtain ⟨now, groupId, memberId, path⟩ := r
        cases path with
        | joined password => exact hresolved (groupId, memberId) rfl ⟨id, hold⟩
        | added adminId => exact hresolved (groupId, memberId) rfl ⟨id, hold⟩
        | invited id' password => cases haccepted
      | some row =>
        have hread := (hknowing.accepted row haccepted).2
        obtain ⟨hgroup, hmember⟩ := acceptedBy_some haccepted
        rw [hgroup, hmember] at hread
        obtain rfl : id = row.1 := hrecorded.one id row.1 r.groupId r.memberId hold hread
        exact accepted_resolved haccepted hpending
  · obtain ⟨r, hstage, -, rfl, rfl⟩ := hnew
    obtain ⟨stage, locks⟩ := tx
    subst hstage
    rcases member_after hmember with hbefore | hcreated | hadmitted
    · exact (hknowing.inviting r rfl).2.2.1 hbefore
    · obtain ⟨_, _, hstage, -⟩ := hcreated
      cases hstage
    · obtain ⟨_, hstage, -⟩ := hadmitted
      cases hstage

/-- Whoever comes in by another door keeps a pending invitation. -/
theorem stays_pending (hknowing : Knowing db tx) {row : Uuid × Uuid}
    (hrow : row ∈ entersBesides tx.stage) (hinvited : Invited db row.1 row.2) :
    ¬ OnlyOutsiders (invitationEffect tx.stage db) := by
  obtain ⟨stage, locks⟩ := tx
  have hadmitted : ∃ r, stage = .inl (.admitted r false) ∧ row = (r.groupId, r.memberId) ∧
      acceptedBy r = none := by
    cases stage with
    | inr stage => cases hrow
    | inl stage =>
      cases stage <;> try cases hrow
      case admitted r isMember =>
        obtain ⟨now, groupId, memberId, path⟩ := r
        cases isMember with
        | true => cases hrow
        | false =>
          cases path with
          | joined password =>
            cases hrow
            exact ⟨_, rfl, rfl, rfl⟩
          | added adminId =>
            cases hrow
            exact ⟨_, rfl, rfl, rfl⟩
          | invited id password => cases hrow
  obtain ⟨r, rfl, rfl, haccepted⟩ := hadmitted
  intro honly
  have hpresent := (hknowing.present r.groupId rfl).mpr rfl
  obtain ⟨before, hbefore⟩ := Option.isSome_iff_exists.mp (AList.lookup_isSome.mpr hpresent)
  have hmember : IsMember
      (invitationEffect (.inl (.admitted r false)) db) r.groupId r.memberId := by
    have hlookup : (invitationEffect (.inl (.admitted r false)) db).conversations.lookup r.groupId =
        _ := (congrArg (AList.lookup r.groupId) (admitMember_conversations db r false)).trans
          ((lookup_modifyConversation ..).trans (if_pos rfl))
    rw [hbefore] at hlookup
    refine ⟨_, hlookup, ?_⟩
    dsimp only
    split
    · assumption
    · exact (AList.mem_insert _).mpr (.inl rfl)
  obtain ⟨id, invitation, hlookup, hpending⟩ := hinvited
  refine honly.outside r.groupId r.memberId hmember ⟨id, invitation, ?_, hpending⟩
  have hunwritten : writtenInvitation (.inl (.admitted r false)) = none :=
    congrArg (Option.map Prod.fst) haccepted
  refine (invitationEffect_lookup hknowing fun h => ?_).trans hlookup
  cases hunwritten.symm.trans h

theorem onlyOutsiders_step {s t : Shared SocialDatabase InvitationStage GroupLock}
    {a : Action InvitationStage} (hholds : Holds Recorded Knowing s) (honly : OnlyOutsiders s.db)
    (hstep : ReadCommitted.step (invitationPrograms env) s a = some t) :
    OnlyOutsiders t.db ↔ NoneLeftPending s a := by
  cases a with
  | begin id stage =>
    obtain ⟨-, heq⟩ := Option.ite_none_right_eq_some.mp hstep
    cases heq
    exact iff_of_true honly trivial
  | run id =>
    obtain ⟨tx, stage, locks, -, -, -, rfl⟩ := runStatement_some hstep
    exact iff_of_true honly trivial
  | abort id =>
    obtain ⟨-, heq⟩ := Option.ite_none_right_eq_some.mp hstep
    cases heq
    exact iff_of_true honly trivial
  | commit id =>
    obtain ⟨tx, htx, -, rfl⟩ := commitTransaction_some hstep
    have hknowing := hholds.transactions id tx htx
    constructor
    · intro hafter tx' htx' row hrow
      cases htx.symm.trans htx'
      by_contra hexists
      have hinvited := pendingInvitationExists_iff.mp (Bool.eq_true_of_not_eq_false hexists)
      exact stays_pending hknowing hrow hinvited hafter
    · intro hnone
      refine onlyOutsiders_committed honly hholds.db hknowing fun row hrow hinvited => ?_
      have hpending := hnone tx htx row hrow
      exact Bool.false_ne_true (hpending.symm.trans (pendingInvitationExists_iff.mpr hinvited))

end Runs

abbrev invitationSystem (env : Environment) (db : SocialDatabase) :
    System (Shared SocialDatabase InvitationStage GroupLock) (Action InvitationStage) :=
  system (invitationPrograms env) db

/-- In a run invitations are pending for outsiders only, and one at a time, exactly if nobody who
has a pending one joins or is added. -/
theorem onlyOutsiders_iff_noneLeftPending (env : Environment) {db : SocialDatabase}
    (htoGroups : InvitedToGroups db) (honly : OnlyOutsiders db)
    (actions : List (Action InvitationStage)) :
    (invitationSystem env db).Always (fun s => OnlyOutsiders s.db) (invitationSystem env db).init
        actions ↔
      (invitationSystem env db).Guarded NoneLeftPending (invitationSystem env db).init actions := by
  have hstable := invitationPrograms_stable env
  refine System.always_iff_guarded (J := Holds Recorded Knowing) ?_ ?_ ?_
    (Holds.init ⟨htoGroups, honly.one⟩) honly actions
  · exact fun s a t hholds _ hstep => hstable.step hholds hstep
  · exact fun s a t hholds honly hstep => onlyOutsiders_step hholds honly hstep
  · intro s a hnone
    cases a with
    | commit id =>
      intro tx htx row hrow
      have hfinished : (invitationPrograms env).finished tx.stage = true := by
        obtain ⟨stage, locks⟩ := tx
        cases stage with
        | inl stage => cases stage <;> first | rfl | cases hrow
        | inr stage => cases hrow
      exact absurd (hnone.symm.trans (commitTransaction_of_finished htx hfinished)) nofun
    | _ => trivial

/-! ### Bob is invited and joins with the password -/

theorem emptyDatabase_recorded (accounts : Accounts.Database) :
    InvitedToGroups (emptyDatabase accounts) ∧ OnlyOutsiders (emptyDatabase accounts) := by
  refine ⟨fun _ _ => nofun, fun _ _ hmember => ?_, fun _ _ _ _ hpending => ?_⟩
  · obtain ⟨_, hlookup, -⟩ := hmember
    cases hlookup
  · obtain ⟨_, hlookup, -⟩ := hpending
    cases hlookup

def inviteBob : List (Action InvitationStage) :=
  .begin 0 (.inl (.create ⟨0, 1, 10, "", ⟨"Team", .password, some "password", []⟩⟩)) ::
    List.replicate 2 (.run 0) ++ [.commit 0] ++
  .begin 1 (.inl (.invite ⟨1, 10, 2, 20, 30⟩)) :: List.replicate 2 (.run 1) ++ [.commit 1]

def acceptsWithPassword : List (Action InvitationStage) := inviteBob ++
  .begin 2 (.inl (.acceptInvitation ⟨2, 2, 20, some "password"⟩)) :: List.replicate 5 (.run 2) ++
  [.commit 2]

def joinsWithPassword : List (Action InvitationStage) := inviteBob ++
  .begin 2 (.inl (.admission ⟨2, 10, 2, .joined (some "password")⟩)) ::
    List.replicate 4 (.run 2) ++ [.commit 2]

/-- Somebody in the group has a pending invitation to it. -/
def isInvitedMember (groupId userId : Uuid) (s : Shared SocialDatabase InvitationStage GroupLock) :
    Bool :=
  (s.db.conversations.lookup groupId).any (fun conversation => userId ∈ conversation.members) &&
    pendingInvitationExists s.db groupId userId

theorem isInvitedMember_refutes {groupId userId : Uuid}
    {s : Shared SocialDatabase InvitationStage GroupLock}
    (h : isInvitedMember groupId userId s = true) : ¬ OnlyOutsiders s.db := by
  intro honly
  obtain ⟨hmember, hpending⟩ := Bool.and_eq_true_iff.mp h
  obtain ⟨conversation, hconversation, hmem⟩ := (Option.any_eq_true ..).mp hmember
  exact honly.outside groupId userId ⟨conversation, hconversation, of_decide_eq_true hmem⟩
    (pendingInvitationExists_iff.mp hpending)

instance (s : Shared SocialDatabase InvitationStage GroupLock) (a : Action InvitationStage) :
    Decidable (NoneLeftPending s a) :=
  match a with
  | .commit _ =>
    -- Read the one row, rather than try every pair of identifiers.
    have (tx : Transaction InvitationStage GroupLock) := Option.decidableForallMem
      (p := fun row => pendingInvitationExists s.db row.1 row.2 = false) (entersBesides tx.stage)
    Option.decidableForallMem _
  | .begin _ _ | .run _ | .abort _ => isTrue trivial

/-- The invitation that Bob accepts is resolved. -/
theorem acceptsWithPassword_onlyOutsiders : ∃ accounts ∈ adaAndBob,
    ((invitationSystem plainHashing (emptyDatabase accounts)).run acceptsWithPassword).isSome ∧
    (invitationSystem plainHashing (emptyDatabase accounts)).Always (fun s => OnlyOutsiders s.db)
      (invitationSystem plainHashing (emptyDatabase accounts)).init acceptsWithPassword := by
  obtain ⟨accounts, haccounts, hruns, hguarded⟩ : ∃ accounts ∈ adaAndBob,
      ((invitationSystem plainHashing (emptyDatabase accounts)).run acceptsWithPassword).isSome ∧
      (invitationSystem plainHashing (emptyDatabase accounts)).Guarded NoneLeftPending
        (invitationSystem plainHashing (emptyDatabase accounts)).init acceptsWithPassword := by
    decide +kernel
  obtain ⟨htoGroups, honly⟩ := emptyDatabase_recorded accounts
  exact ⟨accounts, haccounts, hruns, (onlyOutsiders_iff_noneLeftPending plainHashing htoGroups
    honly acceptsWithPassword).mpr hguarded⟩

/-- The invitation that Bob does not use stays pending. -/
theorem joinsWithPassword_staysInvited : ∃ accounts ∈ adaAndBob,
    ¬ (invitationSystem plainHashing (emptyDatabase accounts)).Always (fun s => OnlyOutsiders s.db)
      (invitationSystem plainHashing (emptyDatabase accounts)).init joinsWithPassword := by
  obtain ⟨accounts, haccounts, hruns⟩ : ∃ accounts ∈ adaAndBob,
      ((invitationSystem plainHashing (emptyDatabase accounts)).run joinsWithPassword).any
        (isInvitedMember 10 2) = true := by
    decide +kernel
  exact ⟨accounts, haccounts,
    System.not_always_of_run (isInvitedMember 10 2) hruns fun _ => isInvitedMember_refutes⟩

end OpenMeet.PendingInvitations
