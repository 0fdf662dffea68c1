import OpenMeet.GroupTransactions
import OpenMeet.LockOrder

/-!
The rows that requests about a group lock, in the order in which their
statements lock them: accepting, creating and declining an invitation, joining,
removing a member, deleting the group. A statement that locks a row finds it in
its snapshot and reads it again once it has the lock. Locks are kept to the end
of the transaction, and what it writes shows when it commits. Key locks on
users, which exclude nobody here, and rows with a fresh id are left out.
-/
namespace OpenMeet.GroupRowLocks

open KeyedMap Messages Accounts SocialTables ConversationApi GroupTransactions LockOrder

/-! ## Rows -/

/-- A row that goes with a group, a message or a call together with what hangs on it alone. -/
inductive GroupPart
  | member (userId : Uuid)
  | message (sequence : Sequence)
  | readState (userId : Uuid)
  | call (callId : Uuid)
  | callMember (callId userId : Uuid)
  deriving DecidableEq

/-- Rows are named with the group they belong to, which never changes. -/
inductive Row
  | conversation (groupId : Uuid)
  | invitation (groupId invitationId : Uuid)
  | part (groupId : Uuid) (part : GroupPart)
  deriving DecidableEq

def Row.groupId : Row → Uuid
  | .conversation groupId | .invitation groupId _ | .part groupId _ => groupId

section Rows

variable (db : SocialDatabase) (groupId : Uuid)

def groupCalls : List (Uuid × CallSession) :=
  (db.calls.entries.filter fun row => row.2.conversationId = groupId).map fun row => (row.1, row.2)

/-- The user's answers that revoke_group_call_memberships declines. -/
def revokedAnswers (userId : Uuid) : List Row :=
  let calls := (groupCalls db groupId).filter fun call =>
    (call.2.members.lookup userId).any (· ≠ .declined)
  (calls.map fun call => Row.part groupId (.callMember call.1 userId)).dedup

def conversationParts (conversation : Conversation) : List GroupPart :=
  conversation.members.keys.map .member ++ conversation.messages.keys.map .message ++
    conversation.readStates.keys.map .readState

def callParts (call : Uuid × CallSession) : List GroupPart :=
  .call call.1 :: call.2.members.keys.map (.callMember call.1)

/-- What ON DELETE CASCADE deletes with a group. -/
def cascadeRows : List Row :=
  let parts := (db.conversations.lookup groupId).elim [] conversationParts ++
    (groupCalls db groupId).flatMap callParts
  let invitations := db.invitations.entries.filter fun row => row.2.conversationId = groupId
  (parts.map (Row.part groupId) ++ invitations.map fun row => Row.invitation groupId row.1).dedup

end Rows

/-! ## Statements -/

inductive GroupTask
  | acceptInvitation (r : AcceptanceRequest)
  | createInvitation (r : InvitationRequest)
  | declineInvitation (userId invitationId : Uuid)
  | join (now : Timestamp) (groupId userId : Uuid) (password : Option String)
  | removeMember (now : Timestamp) (groupId userId memberId : Uuid)
  | delete (groupId userId : Uuid)

abbrev RowProgram := Program SocialDatabase Row GroupTask (Except ApiError Unit)

open Program

def refused (e : ApiError) : RowProgram := pure (.error e)

/-- The transaction's writes, as they show when it commits. -/
def commit (f : SocialDatabase → SocialDatabase) : RowProgram := access f fun _ => done (.ok ())

def lockRows (rows : List Row) (body : RowProgram) : RowProgram :=
  match rows with
  | [] => body
  | row :: rest => withLock row .exclusive (lockRows rest body)

/-- The rows in an order chosen outside, each put somewhere among those after it. -/
def inAnyOrder (rows : List Row) (f : List Row → RowProgram) : RowProgram :=
  match rows with
  | [] => f []
  | row :: rest => inAnyOrder rest fun rows => choose fun n =>
    f (rows.insertIdx (n % (rows.length + 1)) row)

/-- The user's pending invitation, its row locked: what is done with it is told its group. -/
def withPendingInvitation (userId invitationId : Uuid) (body : Uuid → RowProgram) :
    RowProgram := do
  match ← read fun db => loadPendingInvitation db userId invitationId with
  | .error e => refused e
  | .ok invitation => withLock (.invitation invitation.conversationId invitationId) .exclusive do
    match ← read fun db => loadPendingInvitation db userId invitationId with
    | .error e => refused e
    | .ok _ => body invitation.conversationId

/-- load_group_for_update -/
def withGroup (groupId : Uuid) (body : Conversation → Group → RowProgram) : RowProgram := do
  match ← read fun db => loadGroup db groupId with
  | .error e => refused e
  | .ok _ => withLock (.conversation groupId) .exclusive do
    match ← read fun db => loadGroup db groupId with
    | .error e => refused e
    | .ok (conversation, group) => body conversation group

/-- require_group_admin_for_update -/
def withGroupAdmin (groupId userId : Uuid) (body : Conversation → Group → RowProgram) :
    RowProgram :=
  withGroup groupId fun _ _ => do
    match ← read fun db => requireGroupAdmin db groupId userId with
    | .error e => refused e
    | .ok (conversation, group, _) => body conversation group

/-! ## Requests -/

section Requests

variable (env : Environment)

/-- A user who is not a member is admitted under the lock on the group, and is added. -/
def admission (now : Timestamp) (groupId userId : Uuid) (password : Option String)
    (resolve : SocialDatabase → SocialDatabase) : RowProgram :=
  withGroup groupId fun conversation group => do
    if userId ∈ conversation.members then commit resolve
    else
      match ← read fun db => authorizeGroupAdmission env db conversation group userId password with
      | .error e => refused e
      | .ok () =>
        lockRows [.part groupId (.member userId)]
          (commit fun db => resolve (addMember db now groupId userId))

def joinGroup (now : Timestamp) (groupId userId : Uuid) (password : Option String) : RowProgram :=
  admission env now groupId userId password id

/-- The invitation's row is locked before the group's. -/
def acceptGroupInvitation (r : AcceptanceRequest) : RowProgram :=
  withPendingInvitation r.userId r.invitationId fun groupId =>
    admission env r.now groupId r.userId r.password
      fun db => resolveInvitation db r.invitationId .accepted

def declineGroupInvitation (userId invitationId : Uuid) : RowProgram :=
  withPendingInvitation userId invitationId fun _ =>
    commit fun db => resolveInvitation db invitationId .declined

def createGroupInvitation (r : InvitationRequest) : RowProgram :=
  if r.inviteeId = r.userId then refused ⟨400, "You cannot invite yourself"⟩
  else withGroupAdmin r.groupId r.userId fun conversation group => do
    if group.accessPolicy ≠ .password then
      refused ⟨409, "Only password-protected groups use invitations"⟩
    else
      match ← read fun db => ensureUserExists db r.inviteeId with
      | .error e => refused e
      | .ok () =>
        if r.inviteeId ∈ conversation.members then
          refused ⟨409, "That person is already a member"⟩
        else if ← read fun db => pendingInvitationExists db r.groupId r.inviteeId then
          pure (.ok ())
        else if ← read fun db =>
            decide (r.invitationId ∈ db.invitations ∨ r.notificationId ∈ db.notifications) then
          refused requestFailed
        else commit fun db => insertInvitation db r

def removeGroupMember (now : Timestamp) (groupId userId memberId : Uuid) : RowProgram :=
  withGroupAdmin groupId userId fun conversation _ =>
    if memberId = conversation.creatorId then refused ⟨403, "The group creator cannot be removed"⟩
    else if memberId ∈ conversation.members then
      withLock (.part groupId (.member memberId)) .exclusive do
        let answers ← read fun db => revokedAnswers db groupId memberId
        inAnyOrder answers fun rows => lockRows rows
          (commit fun db => removeMember db now groupId memberId)
    else refused memberNotFound

/-- The group's row is locked before the rows that the cascade deletes. -/
def deleteGroup (groupId userId : Uuid) : RowProgram :=
  withGroupAdmin groupId userId fun _ _ => do
    let rows ← read fun db => cascadeRows db groupId
    inAnyOrder rows fun rows => lockRows rows (commit fun db => deleteConversation db groupId)

def groupRequest : GroupTask → RowProgram
  | .acceptInvitation r => acceptGroupInvitation env r
  | .createInvitation r => createGroupInvitation r
  | .declineInvitation userId invitationId => declineGroupInvitation userId invitationId
  | .join now groupId userId password => joinGroup env now groupId userId password
  | .removeMember now groupId userId memberId => removeGroupMember now groupId userId memberId
  | .delete groupId userId => deleteGroup groupId userId

def groupTasks : Tasks SocialDatabase Row GroupTask where
  body task := do
    let _ ← groupRequest env task
  external _ := true

end Requests

/-! ## One request alone -/

section Alone

variable {db t : SocialDatabase} {answer : Except ApiError Unit}

/-- The outcome of the request on its own: its database and its error. -/
def Agrees (o : Outcome Reply) (answer : Except ApiError Unit) (t : SocialDatabase) : Prop :=
  t = o.db ∧ answer = o.result.map fun _ => ()

theorem yields_refused {e : ApiError} :
    (refused e).Yields db answer t ↔ Agrees (.refuse db e) answer t := by
  rw [refused, yields_pure, and_comm]
  rfl

theorem yields_commit {f : SocialDatabase → SocialDatabase} :
    (commit f).Yields db answer t ↔ answer = .ok () ∧ t = f db :=
  yields_access

theorem yields_lockRows {rows : List Row} {body : RowProgram} :
    (lockRows rows body).Yields db answer t ↔ body.Yields db answer t := by
  induction rows with
  | nil => rfl
  | cons row rest ih => exact yields_withLock.trans ih

theorem perm_of_yields_inAnyOrder {rows : List Row} {f : List Row → RowProgram}
    (h : (inAnyOrder rows f).Yields db answer t) :
    ∃ rows', rows'.Perm rows ∧ (f rows').Yields db answer t := by
  induction rows generalizing f with
  | nil => exact ⟨[], .nil, h⟩
  | cons row rest ih =>
    obtain ⟨rows', hperm, h⟩ := ih h
    cases h with
    | choose n h =>
      have hle : n % (rows'.length + 1) ≤ rows'.length :=
        Nat.le_of_lt_succ (Nat.mod_lt _ (by omega))
      exact ⟨_, (List.perm_insertIdx row rows' hle).trans (hperm.cons row), h⟩

theorem yields_read {α : Type} {f : SocialDatabase → α} {next : α → RowProgram} :
    (Program.read f >>= next).Yields db answer t ↔ (next (f db)).Yields db answer t := by
  rw [yields_bind]
  constructor
  · rintro ⟨found, u, hread, hnext⟩
    obtain ⟨rfl, rfl⟩ := yields_access.mp hread
    exact hnext
  · exact fun h => ⟨f db, db, yields_access.mpr ⟨rfl, rfl⟩, h⟩

theorem yields_withPendingInvitation {userId invitationId : Uuid} {body : Uuid → RowProgram}
    (h : (withPendingInvitation userId invitationId body).Yields db answer t) :
    (∃ e, loadPendingInvitation db userId invitationId = .error e ∧
      Agrees (.refuse db e) answer t) ∨
    ∃ invitation, loadPendingInvitation db userId invitationId = .ok invitation ∧
      (body invitation.conversationId).Yields db answer t := by
  have h := yields_read.mp h
  cases hfound : loadPendingInvitation db userId invitationId with
  | error e =>
    rw [hfound] at h
    exact .inl ⟨e, rfl, yields_refused.mp h⟩
  | ok invitation =>
    rw [hfound] at h
    have h := yields_read.mp (yields_withLock.mp h)
    rw [hfound] at h
    exact .inr ⟨invitation, rfl, h⟩

theorem yields_withGroup {groupId : Uuid} {body : Conversation → Group → RowProgram}
    (h : (withGroup groupId body).Yields db answer t) :
    (∃ e, loadGroup db groupId = .error e ∧ Agrees (.refuse db e) answer t) ∨
    ∃ conversation group, loadGroup db groupId = .ok (conversation, group) ∧
      (body conversation group).Yields db answer t := by
  have h := yields_read.mp h
  cases hfound : loadGroup db groupId with
  | error e =>
    rw [hfound] at h
    exact .inl ⟨e, rfl, yields_refused.mp h⟩
  | ok row =>
    rw [hfound] at h
    have h := yields_read.mp (yields_withLock.mp h)
    rw [hfound] at h
    exact .inr ⟨row.1, row.2, rfl, h⟩

theorem yields_withGroupAdmin {groupId userId : Uuid} {body : Conversation → Group → RowProgram}
    (h : (withGroupAdmin groupId userId body).Yields db answer t) :
    (∃ e, requireGroupAdmin db groupId userId = .error e ∧ Agrees (.refuse db e) answer t) ∨
    ∃ conversation group role,
      requireGroupAdmin db groupId userId = .ok (conversation, group, role) ∧
      (body conversation group).Yields db answer t := by
  rcases yields_withGroup h with ⟨e, hmissing, hrefused⟩ | ⟨conversation, group, hgroup, h⟩
  · refine .inl ⟨e, ?_, hrefused⟩
    rw [requireGroupAdmin, hmissing]
  · have h := yields_read.mp h
    cases hfound : requireGroupAdmin db groupId userId with
    | error e =>
      rw [hfound] at h
      exact .inl ⟨e, rfl, yields_refused.mp h⟩
    | ok row =>
      rw [hfound] at h
      exact .inr ⟨row.1, row.2.1, row.2.2, rfl, h⟩

theorem groupReply_of_loadGroup {groupId : Uuid} {conversation : Conversation} {group : Group}
    (h : loadGroup db groupId = .ok (conversation, group)) (userId : Uuid) (role : MemberRole) :
    (groupReply groupId conversation userId role).map (fun _ => ()) = .ok () := by
  rw [groupReply, conversationResponse, (loadGroup_ok h).2]
  rfl

variable {env : Environment}

theorem yields_admission {now : Timestamp} {groupId userId : Uuid} {password : Option String}
    {resolve : SocialDatabase → SocialDatabase}
    (h : (admission env now groupId userId password resolve).Yields db answer t) :
    (∃ e, loadGroup db groupId = .error e ∧ Agrees (.refuse db e) answer t) ∨
    ∃ conversation group, loadGroup db groupId = .ok (conversation, group) ∧
      ((∃ member, conversation.members.lookup userId = some member ∧
          answer = .ok () ∧ t = resolve db) ∨
        conversation.members.lookup userId = none ∧
        ((∃ e, authorizeGroupAdmission env db conversation group userId password = .error e ∧
            Agrees (.refuse db e) answer t) ∨
          authorizeGroupAdmission env db conversation group userId password = .ok () ∧
            answer = .ok () ∧ t = resolve (addMember db now groupId userId))) := by
  refine (yields_withGroup h).imp_right ?_
  rintro ⟨conversation, group, hgroup, h⟩
  refine ⟨conversation, group, hgroup, ?_⟩
  by_cases hmember : userId ∈ conversation.members
  · rw [if_pos hmember] at h
    obtain ⟨member, hlookup⟩ := Option.isSome_iff_exists.mp (AList.lookup_isSome.mpr hmember)
    exact .inl ⟨member, hlookup, yields_commit.mp h⟩
  · rw [if_neg hmember] at h
    refine .inr ⟨AList.lookup_eq_none.mpr hmember, ?_⟩
    have h := yields_read.mp h
    cases hallowed : authorizeGroupAdmission env db conversation group userId password with
    | error e =>
      rw [hallowed] at h
      exact .inl ⟨e, rfl, yields_refused.mp h⟩
    | ok allowed =>
      cases allowed
      rw [hallowed] at h
      have h := yields_commit.mp (yields_lockRows.mp h)
      exact .inr ⟨rfl, h⟩

theorem joinGroup_alone {now : Timestamp} {groupId userId : Uuid} {password : Option String}
    (h : (joinGroup env now groupId userId password).Yields db answer t) :
    Agrees (ConversationApi.joinGroup env db now userId groupId password) answer t := by
  rw [ConversationApi.joinGroup]
  rcases yields_admission h with ⟨e, hmissing, hrefused⟩ | ⟨conversation, group, hgroup, h⟩
  · rw [hmissing]
    exact hrefused
  · have hreply := fun role => (groupReply_of_loadGroup hgroup userId role).symm
    rw [hgroup]
    rcases h with ⟨member, hlookup, rfl, rfl⟩ |
      ⟨hlookup, ⟨e, hdenied, hrefused⟩ | ⟨hallowed, rfl, rfl⟩⟩
    · simp only [hlookup]
      exact ⟨rfl, hreply _⟩
    · simp only [hlookup, hdenied]
      exact hrefused
    · simp only [hlookup, hallowed]
      exact ⟨rfl, hreply _⟩

theorem acceptGroupInvitation_alone {r : AcceptanceRequest}
    (h : (acceptGroupInvitation env r).Yields db answer t) :
    Agrees (ConversationApi.acceptGroupInvitation env db r.now r.userId r.invitationId r.password)
      answer t := by
  rw [ConversationApi.acceptGroupInvitation]
  rcases yields_withPendingInvitation h with ⟨e, hmissing, hrefused⟩ | ⟨invitation, hfound, h⟩
  · rw [hmissing]
    exact hrefused
  · rw [hfound]
    rcases yields_admission h with ⟨e, hmissing, hrefused⟩ | ⟨conversation, group, hgroup, h⟩
    · simp only [hmissing]
      exact hrefused
    · have hreply := fun role => (groupReply_of_loadGroup hgroup r.userId role).symm
      rcases h with ⟨member, hlookup, rfl, rfl⟩ |
        ⟨hlookup, ⟨e, hdenied, hrefused⟩ | ⟨hallowed, rfl, rfl⟩⟩
      · simp only [hgroup, hlookup]
        exact ⟨rfl, hreply _⟩
      · simp only [hgroup, hlookup, hdenied]
        exact hrefused
      · simp only [hgroup, hlookup, hallowed]
        exact ⟨rfl, hreply _⟩

theorem declineGroupInvitation_alone {userId invitationId : Uuid}
    (h : (declineGroupInvitation userId invitationId).Yields db answer t) :
    Agrees (ConversationApi.declineGroupInvitation db userId invitationId) answer t := by
  rw [ConversationApi.declineGroupInvitation]
  rcases yields_withPendingInvitation h with ⟨e, hmissing, hrefused⟩ | ⟨invitation, hfound, h⟩
  · rw [hmissing]
    exact hrefused
  · rw [hfound]
    exact (yields_commit.mp h).symm

theorem createGroupInvitation_alone {r : InvitationRequest}
    (h : (createGroupInvitation r).Yields db answer t) :
    Agrees (ConversationApi.createGroupInvitation db r.userId r.groupId r.inviteeId r.invitationId
      r.notificationId) answer t := by
  rw [ConversationApi.createGroupInvitation]
  rw [createGroupInvitation] at h
  by_cases hself : r.inviteeId = r.userId
  · rw [if_pos hself] at h ⊢
    exact yields_refused.mp h
  rw [if_neg hself] at h ⊢
  rcases yields_withGroupAdmin h with ⟨e, hdenied, hrefused⟩ |
    ⟨conversation, group, role, hadmin, h⟩
  · rw [hdenied]
    exact hrefused
  simp only [hadmin]
  by_cases hpolicy : group.accessPolicy ≠ .password
  · rw [if_pos hpolicy] at h ⊢
    exact yields_refused.mp h
  rw [if_neg hpolicy] at h ⊢
  have h := yields_read.mp h
  cases huser : ensureUserExists db r.inviteeId with
  | error e =>
    rw [huser] at h
    exact yields_refused.mp h
  | ok _ =>
    rw [huser] at h
    by_cases hmember : r.inviteeId ∈ conversation.members
    · simp only [if_pos hmember] at h ⊢
      exact yields_refused.mp h
    simp only [if_neg hmember] at h ⊢
    have h := yields_read.mp h
    by_cases hpending : pendingInvitationExists db r.groupId r.inviteeId = true
    · rw [if_pos hpending] at h ⊢
      exact (yields_pure.mp h).symm
    rw [if_neg hpending] at h ⊢
    have h := yields_read.mp h
    by_cases htaken : r.invitationId ∈ db.invitations ∨ r.notificationId ∈ db.notifications
    · rw [if_pos (decide_eq_true htaken)] at h
      rw [if_pos htaken]
      exact yields_refused.mp h
    · rw [if_neg (by rwa [decide_eq_true_eq])] at h
      rw [if_neg htaken]
      exact (yields_commit.mp h).symm

theorem removeGroupMember_alone {now : Timestamp} {groupId userId memberId : Uuid}
    (h : (removeGroupMember now groupId userId memberId).Yields db answer t) :
    Agrees (ConversationApi.removeGroupMember db now userId groupId memberId) answer t := by
  rw [ConversationApi.removeGroupMember]
  rcases yields_withGroupAdmin h with ⟨e, hdenied, hrefused⟩ |
    ⟨conversation, group, role, hadmin, h⟩
  · rw [hdenied]
    exact hrefused
  simp only [hadmin]
  by_cases hcreator : memberId = conversation.creatorId
  · rw [if_pos hcreator] at h ⊢
    exact yields_refused.mp h
  rw [if_neg hcreator] at h ⊢
  by_cases hmember : memberId ∈ conversation.members
  · rw [if_pos hmember] at h ⊢
    have h := yields_read.mp (yields_withLock.mp h)
    obtain ⟨rows, -, h⟩ := perm_of_yields_inAnyOrder h
    exact (yields_commit.mp (yields_lockRows.mp h)).symm
  · rw [if_neg hmember] at h ⊢
    exact yields_refused.mp h

theorem deleteGroup_alone {groupId userId : Uuid}
    (h : (deleteGroup groupId userId).Yields db answer t) :
    Agrees (ConversationApi.deleteGroup db userId groupId) answer t := by
  rw [ConversationApi.deleteGroup]
  rcases yields_withGroupAdmin h with ⟨e, hdenied, hrefused⟩ |
    ⟨conversation, group, role, hadmin, h⟩
  · rw [hdenied]
    exact hrefused
  simp only [hadmin]
  have h := yields_read.mp h
  obtain ⟨rows, -, h⟩ := perm_of_yields_inAnyOrder h
  exact (yields_commit.mp (yields_lockRows.mp h)).symm

/-- The request as one step, whose locks nobody else asks for. -/
def outcome (env : Environment) (db : SocialDatabase) : GroupTask → Outcome Reply
  | .acceptInvitation r =>
    ConversationApi.acceptGroupInvitation env db r.now r.userId r.invitationId r.password
  | .createInvitation r =>
    ConversationApi.createGroupInvitation db r.userId r.groupId r.inviteeId r.invitationId
      r.notificationId
  | .declineInvitation userId invitationId =>
    ConversationApi.declineGroupInvitation db userId invitationId
  | .join now groupId userId password =>
    ConversationApi.joinGroup env db now userId groupId password
  | .removeMember now groupId userId memberId =>
    ConversationApi.removeGroupMember db now userId groupId memberId
  | .delete groupId userId => ConversationApi.deleteGroup db userId groupId

theorem groupRequest_alone {task : GroupTask} (h : (groupRequest env task).Yields db answer t) :
    Agrees (outcome env db task) answer t := by
  cases task with
  | acceptInvitation r => exact acceptGroupInvitation_alone h
  | createInvitation r => exact createGroupInvitation_alone h
  | declineInvitation userId invitationId => exact declineGroupInvitation_alone h
  | join now groupId userId password => exact joinGroup_alone h
  | removeMember now groupId userId memberId => exact removeGroupMember_alone h
  | delete groupId userId => exact deleteGroup_alone h

end Alone

end OpenMeet.GroupRowLocks
