import OpenMeet.GroupDeadlocks
import OpenMeet.SerialOrder

/-!
Requests about a group that lock rows are serializable: whatever order their
statements run in, the database and the answers are those of the requests one
after another. A request holds the lock of what it has read when it commits, or
nobody else can have changed what it read in a way that matters to it.
-/
namespace OpenMeet.GroupSerialOrder

open KeyedMap TransitionSystem Messages Accounts SocialTables ConversationApi GroupTransactions
  LockOrder LockCrossing GroupRowLocks GroupDeadlocks SerialOrder BadgeNews

/-! ## What a request may change -/

def creation : GroupTask → Option InvitationRequest
  | .createInvitation r => some r
  | _ => none

/-- What a request changes under its locks: a group with the group's lock, an invitation with its
own, and a new one with the lock on its group. Only `created` are the requests that create them. -/
structure Changes (created : List InvitationRequest) (task : GroupTask) (held : Finset Row)
    (db db' : SocialDatabase) : Prop where
  accounts : db'.accounts = db.accounts
  friendships : db'.friendships = db.friendships
  conversation : ∀ groupId, .conversation groupId ∉ held →
    db'.conversations.lookup groupId = db.conversations.lookup groupId
  invitation : ∀ id i, db.invitations.lookup id = some i → .invitation i.conversationId id ∉ held →
    db'.invitations.lookup id = some i
  inserted : ∀ id i', db'.invitations.lookup id = some i' →
    (∃ i, db.invitations.lookup id = some i ∧ i'.conversationId = i.conversationId ∧
      i'.inviteeId = i.inviteeId ∧ (i'.status = .pending → i.status = .pending)) ∨
    ∃ r ∈ creation task, r ∈ created ∧ r.invitationId = id ∧ i'.conversationId = r.groupId ∧
      .conversation r.groupId ∈ held ∧ r.notificationId ∉ db.notifications ∧
      r.notificationId ∈ db'.notifications
  notified : ∀ id ∈ db.notifications, id ∈ db'.notifications
  notifications : ∀ id ∈ db'.notifications, id ∈ db.notifications ∨
    ∃ r ∈ creation task, r.notificationId = id

/-- An invitation that one of the requests creates has been notified about. -/
def Spent (created : List InvitationRequest) (db : SocialDatabase) : Prop :=
  ∀ r ∈ created, r.invitationId ∈ db.invitations → r.notificationId ∈ db.notifications

def UniqueIds (created : List InvitationRequest) : Prop :=
  ∀ r ∈ created, ∀ r' ∈ created, r.invitationId = r'.invitationId → r = r'

/-- The requests create different rows. -/
def ApartFrom (task other : GroupTask) : Prop :=
  ∀ r ∈ creation task, ∀ r' ∈ creation other,
    r.invitationId ≠ r'.invitationId ∧ r.notificationId ≠ r'.notificationId

section Contract

variable {created : List InvitationRequest} {task : GroupTask} {held : Finset Row}
  {db t : SocialDatabase}

theorem Changes.spent (hunique : UniqueIds created) (h : Changes created task held db t)
    (hdb : Spent created db) : Spent created t := by
  intro r hr hmem
  obtain ⟨i', hi'⟩ := Option.isSome_iff_exists.mp (AList.lookup_isSome.mpr hmem)
  rcases h.inserted r.invitationId i' hi' with ⟨i, hi, -⟩ | ⟨r', -, hr', hid, -, -, -, hnotified⟩
  · exact h.notified _ (hdb r hr (AList.lookup_isSome.mp (hi ▸ rfl)))
  · rwa [hunique r' hr' r hr hid] at hnotified

/-- Requests about groups of which `created` are those that create invitations. -/
def groupContract (created : List InvitationRequest) (hunique : UniqueIds created) :
    Contract SocialDatabase Row GroupTask where
  invariant := Spent created
  changes := Changes created
  meets := ApartFrom
  kept _ _ _ _ h hdb := h.spent hunique hdb

/-- A change that leaves the invitations and notifications alone. -/
theorem Changes.of_conversations (haccounts : t.accounts = db.accounts)
    (hfriendships : t.friendships = db.friendships) (hinvitations : t.invitations = db.invitations)
    (hnotifications : t.notifications = db.notifications)
    (hconversations : ∀ groupId, .conversation groupId ∉ held →
      t.conversations.lookup groupId = db.conversations.lookup groupId) :
    Changes created task held db t where
  accounts := haccounts
  friendships := hfriendships
  conversation := hconversations
  invitation id i hi _ := by rw [hinvitations, hi]
  inserted id i' hi' := .inl ⟨i', by rw [← hinvitations, hi'], rfl, rfl, fun h => h⟩
  notified id hid := by rwa [hnotifications]
  notifications id hid := .inl (by rwa [← hnotifications])

theorem Changes.refl : Changes created task held db db :=
  .of_conversations rfl rfl rfl rfl fun _ _ => rfl

theorem changes_addMember {groupId : Uuid} (hheld : .conversation groupId ∈ held)
    (now : Timestamp) (userId : Uuid) :
    Changes created task held db (addMember db now groupId userId) := by
  refine .of_conversations rfl rfl rfl rfl fun other hother => ?_
  have hne : other ≠ groupId := fun heq => hother (heq ▸ hheld)
  show (db.conversations.modify groupId _).lookup other = _
  rw [Map.lookup_modify, if_neg hne]

theorem changes_removeMember {groupId : Uuid} (hheld : .conversation groupId ∈ held)
    (now : Timestamp) (memberId : Uuid) :
    Changes created task held db (removeMember db now groupId memberId) := by
  refine .of_conversations rfl rfl rfl rfl fun other hother => ?_
  have hne : other ≠ groupId := fun heq => hother (heq ▸ hheld)
  show (db.conversations.modify groupId _).lookup other = _
  rw [Map.lookup_modify, if_neg hne]

/-- An invitation whose row is locked, or that is gone, is answered. -/
theorem changes_resolveInvitation {invitationId : Uuid} {status : RequestStatus}
    (hheld : ∀ i, db.invitations.lookup invitationId = some i →
      .invitation i.conversationId invitationId ∈ held)
    (hstatus : status ≠ .pending) :
    Changes created task held db (resolveInvitation db invitationId status) where
  accounts := rfl
  friendships := rfl
  conversation _ _ := rfl
  invitation id i hi hlock := by
    have hne : id ≠ invitationId := by
      rintro rfl
      exact hlock (hheld i hi)
    show (db.invitations.modify invitationId _).lookup id = _
    rw [Map.lookup_modify, if_neg hne, hi]
  inserted id i' hi' := by
    refine .inl ?_
    change (db.invitations.modify invitationId _).lookup id = some i' at hi'
    rw [Map.lookup_modify] at hi'
    split at hi'
    · obtain ⟨i, hi, rfl⟩ := Option.map_eq_some_iff.mp hi'
      exact ⟨i, hi, rfl, rfl, fun h => absurd h hstatus⟩
    · exact ⟨i', hi', rfl, rfl, fun h => h⟩
  notified _ hid := hid
  notifications _ hid := .inl hid

theorem Changes.trans {u : SocialDatabase} (h : Changes created task held db t)
    (h' : Changes created task held t u) : Changes created task held db u where
  accounts := h'.accounts.trans h.accounts
  friendships := h'.friendships.trans h.friendships
  conversation groupId hlock := (h'.conversation groupId hlock).trans (h.conversation groupId hlock)
  invitation id i hi hlock := h'.invitation id i (h.invitation id i hi hlock) hlock
  inserted id last hlast := by
    rcases h'.inserted id last hlast with ⟨i', hi', hgroup', hinvitee', hpending'⟩ |
      ⟨r, htask, hr, hid, hgroup, hlock, hnew, hnotified⟩
    · rcases h.inserted id i' hi' with ⟨i, hi, hgroup, hinvitee, hpending⟩ |
        ⟨r, htask, hr, hid, hgroup, hlock, hnew, hnotified⟩
      · exact .inl ⟨i, hi, hgroup'.trans hgroup, hinvitee'.trans hinvitee,
          fun h => hpending (hpending' h)⟩
      · exact .inr ⟨r, htask, hr, hid, hgroup'.trans hgroup, hlock, hnew, h'.notified _ hnotified⟩
    · exact .inr ⟨r, htask, hr, hid, hgroup, hlock, fun hmem => hnew (h.notified _ hmem), hnotified⟩
  notified id hid := h'.notified id (h.notified id hid)
  notifications id hid := by
    rcases h'.notifications id hid with hmem | hnew
    · exact h.notifications id hmem
    · exact .inr hnew

theorem changes_deleteConversation {groupId : Uuid} (hheld : .conversation groupId ∈ held)
    (hinvitations : ∀ id i, db.invitations.lookup id = some i → i.conversationId = groupId →
      .invitation groupId id ∈ held) :
    Changes created task held db (deleteConversation db groupId) where
  accounts := rfl
  friendships := rfl
  conversation other hother := by
    have hne : other ≠ groupId := fun heq => hother (heq ▸ hheld)
    exact AList.lookup_erase_ne hne
  invitation id i hi hlock := by
    have hne : i.conversationId ≠ groupId := by
      intro heq
      rw [heq] at hlock
      exact hlock (hinvitations id i hi heq)
    show (db.invitations.retain _).lookup id = _
    rw [Map.lookup_retain, hi]
    exact Option.filter_some_pos (decide_eq_true hne)
  inserted id i' hi' := by
    change (db.invitations.retain _).lookup id = some i' at hi'
    rw [Map.lookup_retain] at hi'
    obtain ⟨hi, -⟩ := Option.filter_eq_some_iff.mp hi'
    exact .inl ⟨i', hi, rfl, rfl, fun h => h⟩
  notified _ hid := hid
  notifications _ hid := .inl hid

theorem changes_insertInvitation {r : InvitationRequest} (htask : r ∈ creation task)
    (hr : r ∈ created) (hheld : .conversation r.groupId ∈ held)
    (hinvitation : r.invitationId ∉ db.invitations)
    (hnotification : r.notificationId ∉ db.notifications) :
    Changes created task held db (insertInvitation db r) where
  accounts := rfl
  friendships := rfl
  conversation _ _ := rfl
  invitation id i hi _ := by
    have hne : id ≠ r.invitationId := by
      rintro rfl
      exact hinvitation (AList.lookup_isSome.mp (hi ▸ rfl))
    exact (AList.lookup_insert_ne hne).trans hi
  inserted id i' hi' := by
    by_cases hid : id = r.invitationId
    · subst hid
      change (db.invitations.insert _ _).lookup _ = some i' at hi'
      rw [AList.lookup_insert] at hi'
      cases hi'
      exact .inr ⟨r, htask, hr, rfl, rfl, hheld, hnotification,
        AList.mem_insert _ |>.mpr (.inl rfl)⟩
    · exact .inl ⟨i', (AList.lookup_insert_ne hid).symm.trans hi', rfl, rfl, fun h => h⟩
  notified id hid := AList.mem_insert _ |>.mpr (.inr hid)
  notifications id hid := by
    rcases AList.mem_insert _ |>.mp hid with rfl | hold
    · exact .inr ⟨r, htask, rfl⟩
    · exact .inl hold

end Contract

/-! ## What stays as it was read -/

section Stable

variable {created : List InvitationRequest} {hunique : UniqueIds created} {task : GroupTask}
  {held : Finset Row} {db t : SocialDatabase}
  (h : Disturbed (groupContract created hunique) task held db t)

include h

theorem accounts_stable : t.accounts = db.accounts := by
  refine h.keeps (fun u => u.accounts = db.accounts)
    (fun other locks u v _ _ hchanges heq => ?_) rfl
  exact hchanges.accounts.trans heq

theorem friendships_stable : t.friendships = db.friendships := by
  refine h.keeps (fun u => u.friendships = db.friendships)
    (fun other locks u v _ _ hchanges heq => ?_) rfl
  exact hchanges.friendships.trans heq

theorem conversation_stable {groupId : Uuid} (hlock : .conversation groupId ∈ held) :
    t.conversations.lookup groupId = db.conversations.lookup groupId := by
  refine h.keeps (fun u => u.conversations.lookup groupId = db.conversations.lookup groupId)
    (fun other locks u v _ hdisjoint hchanges heq => ?_) rfl
  exact (hchanges.conversation groupId (Finset.disjoint_left.mp hdisjoint hlock)).trans heq

theorem loadGroup_stable {groupId : Uuid} (hlock : .conversation groupId ∈ held) :
    loadGroup t groupId = loadGroup db groupId := by
  rw [loadGroup, loadGroup, conversation_stable h hlock]

theorem invitation_stable {id : Uuid} {i : GroupInvitation}
    (hi : db.invitations.lookup id = some i) (hlock : .invitation i.conversationId id ∈ held) :
    t.invitations.lookup id = some i := by
  refine h.keeps (fun u => u.invitations.lookup id = some i)
    (fun other locks u v _ hdisjoint hchanges hu => ?_) hi
  exact hchanges.invitation id i hu (Finset.disjoint_left.mp hdisjoint hlock)

/-- An invitation's row does not come back for another group. -/
theorem invitation_group (hspent : Spent created db) {id : Uuid} {i : GroupInvitation}
    (hi : db.invitations.lookup id = some i) {i' : GroupInvitation}
    (hi' : t.invitations.lookup id = some i') : i'.conversationId = i.conversationId := by
  have hkept := h.keeps (fun u => (∀ i', u.invitations.lookup id = some i' →
      i'.conversationId = i.conversationId) ∧
        ∀ r ∈ created, r.invitationId = id → r.notificationId ∈ u.notifications)
    (fun other locks u v _ _ hchanges hu => ?_) ⟨fun i' hi' => ?_, fun r hr hid => ?_⟩
  · exact hkept.1 i' hi'
  · refine ⟨fun i' hi' => ?_, fun r hr hid => hchanges.notified _ (hu.2 r hr hid)⟩
    rcases hchanges.inserted id i' hi' with ⟨i, hi, hgroup, -⟩ | ⟨r, -, hr, hid, -, -, hnew, -⟩
    · exact hgroup.trans (hu.1 i hi)
    · exact absurd (hu.2 r hr hid) hnew
  · rw [hi] at hi'
    cases hi'
    rfl
  · exact hspent r hr (hid ▸ AList.lookup_isSome.mp (hi ▸ rfl))

/-- Under the lock on a group nobody else invites to it. -/
theorem invited_before {groupId : Uuid} (hlock : .conversation groupId ∈ held) {id : Uuid}
    {i' : GroupInvitation} (hi' : t.invitations.lookup id = some i')
    (hgroup : i'.conversationId = groupId) :
    ∃ i, db.invitations.lookup id = some i ∧ i.conversationId = groupId ∧
      i.inviteeId = i'.inviteeId ∧ (i'.status = .pending → i.status = .pending) := by
  refine h.keeps (fun u => ∀ i', u.invitations.lookup id = some i' → i'.conversationId = groupId →
      ∃ i, db.invitations.lookup id = some i ∧ i.conversationId = groupId ∧
        i.inviteeId = i'.inviteeId ∧ (i'.status = .pending → i.status = .pending))
    (fun other locks u v _ hdisjoint hchanges hu i' hi' hgroup => ?_) ?_ i' hi' hgroup
  · rcases hchanges.inserted id i' hi' with ⟨i, hi, hgroup', hinvitee, hpending⟩ |
      ⟨r, -, -, -, hgroup', hlocked, -, -⟩
    · obtain ⟨first, hfirst, hin, hinvitee', hpending'⟩ := hu i hi (hgroup'.symm.trans hgroup)
      exact ⟨first, hfirst, hin, hinvitee'.trans hinvitee.symm, fun h => hpending' (hpending h)⟩
    · rw [← hgroup', hgroup] at hlocked
      exact absurd hlocked (Finset.disjoint_left.mp hdisjoint hlock)
  · exact fun i' hi' hgroup => ⟨i', hi', hgroup, rfl, fun h => h⟩

omit h in
theorem pendingInvitationExists_iff {groupId inviteeId : Uuid} :
    pendingInvitationExists db groupId inviteeId = true ↔
      ∃ id i, db.invitations.lookup id = some i ∧ i.conversationId = groupId ∧
        i.inviteeId = inviteeId ∧ i.status = .pending := by
  rw [pendingInvitationExists, List.any_eq_true]
  constructor
  · rintro ⟨⟨id, i⟩, hmem, htest⟩
    simp only [Bool.and_eq_true, decide_eq_true_eq] at htest
    exact ⟨id, i, AList.mem_lookup_iff.mpr hmem, htest.1.1, htest.1.2, htest.2⟩
  · rintro ⟨id, i, hi, hgroup, hinvitee, hpending⟩
    refine ⟨⟨id, i⟩, AList.mem_lookup_iff.mp hi, ?_⟩
    simp only [hgroup, hinvitee, hpending, decide_true, Bool.and_self]

theorem notPending_stable {groupId inviteeId : Uuid} (hlock : .conversation groupId ∈ held)
    (hno : ¬ pendingInvitationExists db groupId inviteeId = true) :
    ¬ pendingInvitationExists t groupId inviteeId = true := by
  intro hyes
  obtain ⟨id, i', hi', hgroup, hinvitee, hpending⟩ := pendingInvitationExists_iff.mp hyes
  obtain ⟨i, hi, hgroup', hinvitee', hpending'⟩ := invited_before h hlock hi' hgroup
  refine hno (pendingInvitationExists_iff.mpr ⟨id, i, hi, hgroup', ?_, hpending' hpending⟩)
  exact hinvitee'.trans hinvitee

/-- Nobody else uses the ids of the row a request creates. -/
theorem unused_stable {r : InvitationRequest} (htask : r ∈ creation task)
    (hno : ¬ (r.invitationId ∈ db.invitations ∨ r.notificationId ∈ db.notifications)) :
    ¬ (r.invitationId ∈ t.invitations ∨ r.notificationId ∈ t.notifications) := by
  refine h.keeps (fun u => ¬ (r.invitationId ∈ u.invitations ∨ r.notificationId ∈ u.notifications))
    (fun other locks u v hapart _ hchanges hu => ?_) hno
  rintro (hmem | hmem)
  · obtain ⟨i', hi'⟩ := Option.isSome_iff_exists.mp (AList.lookup_isSome.mpr hmem)
    rcases hchanges.inserted _ i' hi' with ⟨i, hi, -⟩ | ⟨r', hr', -, hid, -⟩
    · exact hu (.inl (AList.lookup_isSome.mp (hi ▸ rfl)))
    · exact (hapart r htask r' hr').1 hid.symm
  · rcases hchanges.notifications _ hmem with hold | ⟨r', hr', hid⟩
    · exact hu (.inr hold)
    · exact (hapart r htask r' hr').2 hid.symm

end Stable

/-! ## Parts of requests -/

section Parts

variable {created : List InvitationRequest} {hunique : UniqueIds created} {task : GroupTask}
  {whole : RowProgram} {held : Finset Row} {db t : SocialDatabase} {answer : Except ApiError Unit}

theorem atomic_read {α : Type} {f : SocialDatabase → α} {next : α → RowProgram}
    (h : ∀ t, Disturbed (groupContract created hunique) task held db t →
      Settles (groupContract created hunique) task whole held (next (f t)) t) :
    Atomic (groupContract created hunique) task whole held (Program.read f >>= next) db :=
  .read (fun _ => Changes.refl) h

theorem settles_of_yields (h : whole.Yields db answer db) :
    Settles (groupContract created hunique) task whole held (pure answer) db :=
  .inl ⟨answer, rfl, h⟩

/-- A read that refuses the request, or goes on. -/
theorem atomic_tryRead {α : Type} {f : SocialDatabase → Except ApiError α}
    {next : Except ApiError α → RowProgram} (hnext : ∀ e, next (.error e) = refused e)
    (hstands : Stands (groupContract created hunique) task whole held
      (Program.read f >>= next) db)
    (h : ∀ t a, Disturbed (groupContract created hunique) task held db t → f t = .ok a →
      Settles (groupContract created hunique) task whole held (next (.ok a)) t) :
    Atomic (groupContract created hunique) task whole held (Program.read f >>= next) db := by
  refine atomic_read fun t ht => ?_
  cases hfound : f t with
  | error e =>
    rw [hnext]
    refine settles_of_yields (hstands t ht _ t (yields_read.mpr ?_))
    rw [hfound, hnext]
    exact yields_refused.mpr ⟨rfl, rfl⟩
  | ok a => exact h t a ht hfound

theorem yields_lockRows_inAnyOrder {rows : List Row} {body : RowProgram} :
    (inAnyOrder rows fun rows => lockRows rows body).Yields db answer t ↔
      body.Yields db answer t := by
  constructor
  · intro h
    obtain ⟨rows', -, h⟩ := perm_of_yields_inAnyOrder h
    exact yields_lockRows.mp h
  · intro h
    have hany : ∀ (rows : List Row) (f : List Row → RowProgram),
        (∀ rows, (f rows).Yields db answer t) → (inAnyOrder rows f).Yields db answer t := by
      intro rows
      induction rows with
      | nil => exact fun f hf => hf []
      | cons row rest ih => exact fun f hf => ih _ fun rows => .choose 0 (hf _)
    exact hany rows _ fun rows => yields_lockRows.mpr h

theorem atomic_lockRows {rows : List Row} {body : RowProgram}
    (h : ∀ held' t, held ⊆ held' → (∀ row ∈ rows, row ∈ held') →
      Disturbed (groupContract created hunique) task held db t →
      Atomic (groupContract created hunique) task whole held' body t) :
    Atomic (groupContract created hunique) task whole held (lockRows rows body) db := by
  induction rows generalizing held db with
  | nil => exact h held db subset_rfl (fun row hrow => absurd hrow List.not_mem_nil) .refl
  | cons row rest ih =>
    refine .withLock fun t ht => ih fun held' u hsub hrest hu => ?_
    have hsub' : held ⊆ held' := (Finset.subset_insert ..).trans hsub
    refine h held' u hsub' ?_ (ht.trans (hu.mono (Finset.subset_insert ..)))
    exact List.forall_mem_cons.mpr ⟨hsub (Finset.mem_insert_self ..), hrest⟩

theorem atomic_inAnyOrder {rows : List Row} {f : List Row → RowProgram}
    (h : ∀ rows' t, rows'.Perm rows → Disturbed (groupContract created hunique) task held db t →
      Atomic (groupContract created hunique) task whole held (f rows') t) :
    Atomic (groupContract created hunique) task whole held (inAnyOrder rows f) db := by
  induction rows generalizing f with
  | nil => exact h [] db .nil .refl
  | cons row rest ih =>
    refine ih fun rows' t hperm ht n u hu => h _ u ?_ (ht.trans hu)
    refine (List.perm_insertIdx row rows' ?_).trans (hperm.cons row)
    exact Nat.le_of_lt_succ (Nat.mod_lt _ rows'.length.succ_pos)

theorem withGroup_of_error {groupId : Uuid} {body : Conversation → Group → RowProgram}
    {e : ApiError} (h : loadGroup db groupId = .error e) :
    (withGroup groupId body).Yields db answer t ↔ (refused e).Yields db answer t := by
  refine yields_read.trans ?_
  rw [h]

theorem withGroup_of_ok {groupId : Uuid} {body : Conversation → Group → RowProgram}
    {conversation : Conversation} {group : Group}
    (h : loadGroup db groupId = .ok (conversation, group)) :
    (withGroup groupId body).Yields db answer t ↔
      (body conversation group).Yields db answer t := by
  refine yields_read.trans ?_
  rw [h]
  refine Program.yields_withLock.trans (yields_read.trans ?_)
  rw [h]

theorem atomic_withGroup {groupId : Uuid} {body : Conversation → Group → RowProgram}
    (hstands : Stands (groupContract created hunique) task whole held (withGroup groupId body) db)
    (h : ∀ t conversation group, Disturbed (groupContract created hunique) task held db t →
      loadGroup t groupId = .ok (conversation, group) →
      Stands (groupContract created hunique) task whole (insert (.conversation groupId) held)
        (body conversation group) t →
      Settles (groupContract created hunique) task whole (insert (.conversation groupId) held)
        (body conversation group) t) :
    Atomic (groupContract created hunique) task whole held (withGroup groupId body) db := by
  have hlock : Row.conversation groupId ∈ insert (.conversation groupId) held :=
    Finset.mem_insert_self ..
  refine atomic_tryRead (fun _ => rfl) hstands fun t row ht hrow => .inr (.withLock fun u hu => ?_)
  have hu' : Disturbed (groupContract created hunique) task held db u := ht.trans hu
  refine atomic_tryRead (fun _ => rfl) (fun v hv answer w hyields => ?_) fun v row' hv hrow' => ?_
  · refine hstands v (hu'.trans (hv.mono (Finset.subset_insert ..))) answer w ?_
    have hyields := yields_read.mp hyields
    cases hgroup : loadGroup v groupId with
    | error e =>
      rw [hgroup] at hyields
      exact (withGroup_of_error hgroup).mpr hyields
    | ok row' =>
      rw [hgroup] at hyields
      exact (withGroup_of_ok hgroup).mpr hyields
  · have hv' : Disturbed (groupContract created hunique) task held db v :=
      hu'.trans (hv.mono (Finset.subset_insert ..))
    refine h v row'.1 row'.2 hv' hrow' fun w hw answer x hyields => ?_
    refine hstands w (hv'.trans (hw.mono (Finset.subset_insert ..))) answer x ?_
    exact (withGroup_of_ok ((loadGroup_stable hw hlock).trans hrow')).mpr hyields

theorem atomic_withGroupAdmin {groupId userId : Uuid} {body : Conversation → Group → RowProgram}
    (hstands : Stands (groupContract created hunique) task whole held
      (withGroupAdmin groupId userId body) db)
    (h : ∀ t conversation group, Disturbed (groupContract created hunique) task held db t →
      loadGroup t groupId = .ok (conversation, group) →
      Stands (groupContract created hunique) task whole (insert (.conversation groupId) held)
        (body conversation group) t →
      Settles (groupContract created hunique) task whole (insert (.conversation groupId) held)
        (body conversation group) t) :
    Atomic (groupContract created hunique) task whole held (withGroupAdmin groupId userId body)
      db := by
  refine atomic_withGroup hstands fun t _ _ ht _ hbody => .inr ?_
  refine atomic_tryRead (fun _ => rfl) hbody fun u row hu hrow => ?_
  have hu' := ht.trans (hu.mono (Finset.subset_insert ..))
  refine h u row.1 row.2.1 hu' (requireGroupAdmin_ok hrow).1 fun v hv answer w hyields => ?_
  refine hbody v (hu.trans hv) answer w (yields_read.mpr ?_)
  have hstable : requireGroupAdmin v groupId userId = .ok row := by
    rw [← hrow, requireGroupAdmin, requireGroupAdmin,
      loadGroup_stable hv (Finset.mem_insert_self ..)]
  rw [hstable]
  exact hyields

theorem withPendingInvitation_of_error {userId invitationId : Uuid} {body : Uuid → RowProgram}
    {e : ApiError} (h : loadPendingInvitation db userId invitationId = .error e) :
    (withPendingInvitation userId invitationId body).Yields db answer t ↔
      (refused e).Yields db answer t := by
  refine yields_read.trans ?_
  rw [h]

theorem withPendingInvitation_of_ok {userId invitationId : Uuid} {body : Uuid → RowProgram}
    {i : GroupInvitation} (h : loadPendingInvitation db userId invitationId = .ok i) :
    (withPendingInvitation userId invitationId body).Yields db answer t ↔
      (body i.conversationId).Yields db answer t := by
  refine yields_read.trans ?_
  rw [h]
  refine Program.yields_withLock.trans (yields_read.trans ?_)
  rw [h]

theorem atomic_withPendingInvitation {userId invitationId : Uuid} {body : Uuid → RowProgram}
    (hspent : Spent created db)
    (hstands : Stands (groupContract created hunique) task whole held
      (withPendingInvitation userId invitationId body) db)
    (h : ∀ t i, Disturbed (groupContract created hunique) task held db t →
      loadPendingInvitation t userId invitationId = .ok i →
      Stands (groupContract created hunique) task whole
        (insert (.invitation i.conversationId invitationId) held) (body i.conversationId) t →
      Settles (groupContract created hunique) task whole
        (insert (.invitation i.conversationId invitationId) held) (body i.conversationId) t) :
    Atomic (groupContract created hunique) task whole held
      (withPendingInvitation userId invitationId body) db := by
  refine atomic_tryRead (fun _ => rfl) hstands fun t i ht hi => .inr (.withLock fun u hu => ?_)
  have hgroup : ∀ v, Disturbed (groupContract created hunique) task held t v → ∀ i',
      loadPendingInvitation v userId invitationId = .ok i' →
      i'.conversationId = i.conversationId := fun v hv i' hi' =>
    invitation_group hv (ht.invariant hspent) (loadPendingInvitation_ok hi).1
      (loadPendingInvitation_ok hi').1
  refine atomic_tryRead (fun _ => rfl) (fun v hv answer w hyields => ?_) fun v i' hv hi' => ?_
  · have hv' := hu.trans (hv.mono (Finset.subset_insert ..))
    refine hstands v (ht.trans hv') answer w ?_
    have hyields := yields_read.mp hyields
    cases hfound : loadPendingInvitation v userId invitationId with
    | error e =>
      rw [hfound] at hyields
      exact (withPendingInvitation_of_error hfound).mpr hyields
    | ok i' =>
      rw [hfound] at hyields
      refine (withPendingInvitation_of_ok hfound).mpr ?_
      rw [hgroup v hv' i' hfound]
      exact hyields
  · have hv' := hu.trans (hv.mono (Finset.subset_insert ..))
    have hsame := hgroup v hv' i' hi'
    have hsettles := h v i' (ht.trans hv') hi'
    rw [hsame] at hsettles
    refine hsettles fun w hw answer x hyields => ?_
    refine hstands w (ht.trans (hv'.trans (hw.mono (Finset.subset_insert ..)))) answer x ?_
    have hlock : Row.invitation i'.conversationId invitationId ∈
        insert (Row.invitation i.conversationId invitationId) held := by
      rw [hsame]
      exact Finset.mem_insert_self ..
    have hstable : loadPendingInvitation w userId invitationId = .ok i' := by
      rw [← hi', loadPendingInvitation, loadPendingInvitation,
        invitation_stable hw (loadPendingInvitation_ok hi').1 hlock,
        (loadPendingInvitation_ok hi').1]
    refine (withPendingInvitation_of_ok hstable).mpr ?_
    rw [hsame]
    exact hyields

end Parts

/-! ## Requests -/

section Requests

variable {created : List InvitationRequest} {hunique : UniqueIds created} {task : GroupTask}
  {whole : RowProgram} {held : Finset Row} {db t : SocialDatabase} {env : Environment}

theorem authorizeGroupAdmission_stable
    (h : Disturbed (groupContract created hunique) task held db t) (conversation : Conversation)
    (group : Group) (userId : Uuid) (password : Option String) :
    authorizeGroupAdmission env t conversation group userId password =
      authorizeGroupAdmission env db conversation group userId password := by
  have hfriends : areAcceptedFriends t = areAcceptedFriends db := by
    unfold areAcceptedFriends
    rw [friendships_stable h]
  unfold authorizeGroupAdmission authorizeFriendshipPolicy isFriendsWithEveryMember
    isFriendsWithAnyMember
  rw [hfriends]

theorem ensureUserExists_stable
    (h : Disturbed (groupContract created hunique) task held db t) (userId : Uuid) :
    ensureUserExists t userId = ensureUserExists db userId := by
  rw [ensureUserExists, ensureUserExists, accounts_stable h]

theorem atomic_commit {f : SocialDatabase → SocialDatabase}
    (hstands : Stands (groupContract created hunique) task whole held (commit f) db)
    (h : ∀ t, Disturbed (groupContract created hunique) task held db t →
      Changes created task held t (f t)) :
    Atomic (groupContract created hunique) task whole held (commit f) db :=
  .write hstands h

theorem atomic_admission {now : Timestamp} {groupId userId : Uuid} {password : Option String}
    {resolve : SocialDatabase → SocialDatabase}
    (hstands : Stands (groupContract created hunique) task whole held
      (admission env now groupId userId password resolve) db)
    (hresolve : ∀ held' t u, held ⊆ held' →
      Disturbed (groupContract created hunique) task held db t →
      u.invitations = t.invitations → Changes created task held' u (resolve u)) :
    Atomic (groupContract created hunique) task whole held
      (admission env now groupId userId password resolve) db := by
  refine atomic_withGroup hstands fun t conversation group ht _ hbody => .inr ?_
  have hlater : ∀ u, Disturbed (groupContract created hunique) task
      (insert (.conversation groupId) held) t u →
      Disturbed (groupContract created hunique) task held db u :=
    fun u hu => ht.trans (hu.mono (Finset.subset_insert ..))
  by_cases hmember : userId ∈ conversation.members
  · rw [if_pos hmember] at hbody ⊢
    exact atomic_commit hbody fun u hu =>
      hresolve _ u u (Finset.subset_insert ..) (hlater u hu) rfl
  · rw [if_neg hmember] at hbody ⊢
    refine atomic_tryRead (fun _ => rfl) hbody fun u allowed hu hallowed => .inr ?_
    refine atomic_lockRows fun held' v hsub hrows hv => atomic_commit ?_ fun w hw => ?_
    · intro w hw answer x hyields
      have hw' := hu.trans (hv.trans (hw.mono hsub))
      refine hbody w hw' answer x (yields_read.mpr ?_)
      rw [authorizeGroupAdmission_stable (hv.trans (hw.mono hsub)), hallowed]
      exact yields_lockRows.mpr hyields
    · have hw' := hlater w (hu.trans (hv.trans (hw.mono hsub)))
      have hgroup : Row.conversation groupId ∈ held' := hsub (Finset.mem_insert_self ..)
      exact (changes_addMember hgroup now userId).trans
        (hresolve held' w _ ((Finset.subset_insert ..).trans hsub) hw' rfl)

theorem joinGroup_atomic (env : Environment) (now : Timestamp) (groupId userId : Uuid)
    (password : Option String) :
    Atomic (groupContract created hunique) task
      (GroupRowLocks.joinGroup env now groupId userId password) ∅
      (GroupRowLocks.joinGroup env now groupId userId password) db :=
  atomic_admission .start fun _ _ _ _ _ _ => Changes.refl

/-- An invitation that is loaded with its row locked may be resolved. -/
theorem changes_resolve_locked {invitationId : Uuid} {status : RequestStatus} {i : GroupInvitation}
    {held' : Finset Row} {u : SocialDatabase} (hi : db.invitations.lookup invitationId = some i)
    (hlock : .invitation i.conversationId invitationId ∈ held) (hsub : held ⊆ held')
    (ht : Disturbed (groupContract created hunique) task held db t)
    (hu : u.invitations = t.invitations) (hstatus : status ≠ .pending) :
    Changes created task held' u (resolveInvitation u invitationId status) := by
  refine changes_resolveInvitation (fun i' hi' => ?_) hstatus
  rw [hu, invitation_stable ht hi hlock] at hi'
  cases hi'
  exact hsub hlock

theorem acceptGroupInvitation_atomic (env : Environment) (r : AcceptanceRequest)
    (hspent : Spent created db) :
    Atomic (groupContract created hunique) task (GroupRowLocks.acceptGroupInvitation env r) ∅
      (GroupRowLocks.acceptGroupInvitation env r) db := by
  refine atomic_withPendingInvitation hspent .start fun t i _ hi hbody => .inr ?_
  refine atomic_admission hbody fun held' u v hsub hu hv => ?_
  exact changes_resolve_locked (loadPendingInvitation_ok hi).1 (Finset.mem_insert_self ..) hsub hu
    hv nofun

theorem declineGroupInvitation_atomic (userId invitationId : Uuid) (hspent : Spent created db) :
    Atomic (groupContract created hunique) task
      (GroupRowLocks.declineGroupInvitation userId invitationId) ∅
      (GroupRowLocks.declineGroupInvitation userId invitationId) db := by
  refine atomic_withPendingInvitation hspent .start fun t i _ hi hbody => .inr ?_
  refine atomic_commit hbody fun u hu => ?_
  exact changes_resolve_locked (loadPendingInvitation_ok hi).1
    (Finset.mem_insert_self ..) subset_rfl hu rfl nofun

theorem removeGroupMember_atomic (now : Timestamp) (groupId userId memberId : Uuid) :
    Atomic (groupContract created hunique) task
      (GroupRowLocks.removeGroupMember now groupId userId memberId) ∅
      (GroupRowLocks.removeGroupMember now groupId userId memberId) db := by
  refine atomic_withGroupAdmin .start fun t conversation group _ _ hbody => ?_
  by_cases hcreator : memberId = conversation.creatorId
  · rw [if_pos hcreator] at hbody ⊢
    exact settles_of_yields (hbody t .refl _ t (yields_refused.mpr ⟨rfl, rfl⟩))
  rw [if_neg hcreator] at hbody ⊢
  by_cases hmember : memberId ∈ conversation.members
  · rw [if_pos hmember] at hbody ⊢
    refine .inr (.withLock fun u hu => atomic_read fun v hv => .inr ?_)
    refine atomic_inAnyOrder fun rows w hrows hw => atomic_lockRows fun held' x hsub _ hx => ?_
    have hv' := hu.trans (hv.mono (Finset.subset_insert ..))
    have hx' := hv'.trans ((hw.trans hx).mono (Finset.subset_insert ..))
    refine atomic_commit (fun y hy answer z hyields => ?_) fun y hy => ?_
    · refine hbody y (hx'.trans (hy.mono ((Finset.subset_insert ..).trans hsub))) answer z ?_
      refine Program.yields_withLock.mpr (yields_read.mpr ?_)
      exact yields_lockRows_inAnyOrder.mpr hyields
    · refine changes_removeMember (hsub ?_) now memberId
      exact Finset.mem_insert_of_mem (Finset.mem_insert_self ..)
  · rw [if_neg hmember] at hbody ⊢
    exact settles_of_yields (hbody t .refl _ t (yields_refused.mpr ⟨rfl, rfl⟩))

theorem deleteGroup_atomic (groupId userId : Uuid) :
    Atomic (groupContract created hunique) task (GroupRowLocks.deleteGroup groupId userId) ∅
      (GroupRowLocks.deleteGroup groupId userId) db := by
  refine atomic_withGroupAdmin .start fun t conversation group _ _ hbody => .inr ?_
  refine atomic_read fun u hu => .inr ?_
  refine atomic_inAnyOrder fun rows v hrows hv => atomic_lockRows fun held' w hsub hlocked hw => ?_
  have hw' := hv.trans hw
  refine atomic_commit (fun x hx answer y hyields => ?_) fun x hx => ?_
  · refine hbody x (hu.trans (hw'.trans (hx.mono hsub))) answer y (yields_read.mpr ?_)
    exact yields_lockRows_inAnyOrder.mpr hyields
  · have hgroup := hsub (Finset.mem_insert_self ..)
    refine changes_deleteConversation hgroup fun id i hi hin => ?_
    -- the invitation was there when the rows were listed, so that its row is among them
    obtain ⟨i', hi', hin', -⟩ := invited_before (hw'.trans (hx.mono hsub))
      (Finset.mem_insert_self ..) hi hin
    refine hlocked _ (hrows.symm.subset ?_)
    refine List.mem_dedup.mpr (List.mem_append_right _ (List.mem_map.mpr ⟨⟨id, i'⟩, ?_, rfl⟩))
    exact List.mem_filter.mpr ⟨AList.mem_lookup_iff.mp hi', decide_eq_true hin'⟩

theorem createGroupInvitation_atomic {r : InvitationRequest} (htask : r ∈ creation task)
    (hr : r ∈ created) :
    Atomic (groupContract created hunique) task (GroupRowLocks.createGroupInvitation r) ∅
      (GroupRowLocks.createGroupInvitation r) db := by
  rw [GroupRowLocks.createGroupInvitation]
  by_cases hself : r.inviteeId = r.userId
  · rw [if_pos hself]
    exact fun t => yields_refused.mpr ⟨rfl, rfl⟩
  rw [if_neg hself]
  refine atomic_withGroupAdmin .start fun t conversation group _ _ hbody => ?_
  have hlock := Finset.mem_insert_self (Row.conversation r.groupId) ∅
  by_cases hpolicy : group.accessPolicy ≠ .password
  · rw [if_pos hpolicy] at hbody ⊢
    exact settles_of_yields (hbody t .refl _ t (yields_refused.mpr ⟨rfl, rfl⟩))
  rw [if_neg hpolicy] at hbody ⊢
  refine .inr (atomic_tryRead (fun _ => rfl) hbody fun u found hu hfound => ?_)
  have hbody := (hbody.later hu).read fun v hv => ensureUserExists_stable hv r.inviteeId
  rw [hfound] at hbody
  cases found
  by_cases hmember : r.inviteeId ∈ conversation.members
  · simp only [if_pos hmember] at hbody ⊢
    exact settles_of_yields (hbody u .refl _ u (yields_refused.mpr ⟨rfl, rfl⟩))
  simp only [if_neg hmember] at hbody ⊢
  refine .inr (atomic_read fun v hv => ?_)
  by_cases hpending : pendingInvitationExists v r.groupId r.inviteeId = true
  · rw [if_pos hpending]
    refine settles_of_yields (hbody v hv _ v (yields_read.mpr ?_))
    rw [if_pos hpending]
    exact Program.yields_pure.mpr ⟨rfl, rfl⟩
  have hbody := (hbody.later hv).read fun w hw =>
    Bool.eq_false_iff.mpr (notPending_stable hw hlock hpending) |>.trans
      (Bool.eq_false_iff.mpr hpending).symm
  rw [if_neg hpending] at hbody ⊢
  refine .inr (atomic_read fun w hw => ?_)
  by_cases htaken : r.invitationId ∈ w.invitations ∨ r.notificationId ∈ w.notifications
  · rw [if_pos (decide_eq_true htaken)]
    refine settles_of_yields (hbody w hw _ w (yields_read.mpr ?_))
    rw [if_pos (decide_eq_true htaken)]
    exact yields_refused.mpr ⟨rfl, rfl⟩
  have hbody := (hbody.later hw).read fun x hx =>
    (decide_eq_false (unused_stable hx htask htaken)).trans (decide_eq_false htaken).symm
  rw [decide_eq_false htaken] at hbody ⊢
  refine .inr (atomic_commit hbody fun x hx => ?_)
  have hunused := not_or.mp (unused_stable hx htask htaken)
  exact changes_insertInvitation htask hr hlock hunused.1 hunused.2

end Requests

/-! ## Runs -/

section Runs

variable (env : Environment)

/-- The requests one after another, each with its answer. -/
def sequential (db : SocialDatabase) (order : List GroupTask) :
    SocialDatabase × List (GroupTask × Except ApiError Unit) :=
  order.foldl (fun past task =>
    let o := outcome env past.1 task
    (o.db, past.2 ++ [(task, o.result.map fun _ => ())])) (db, [])

/-- The database is the one that the requests leave in this order, all of them have been started,
and all answers given so far are among those they give in this order. -/
structure SerialAs (db : SocialDatabase) (actions : List (LockOrder.Action GroupTask))
    (s : Machine (SocialDatabase × List (GroupTask × Except ApiError Unit)) Row GroupTask)
    (order : List GroupTask) : Prop where
  database : s.shared.1 = (sequential env db order).1
  answers : s.shared.2.Subperm (sequential env db order).2
  started : order.Subperm (startedBy actions)

/-- The rows that the requests create have ids that nothing else has. -/
structure FreshIds (db : SocialDatabase) (tasks : List GroupTask) : Prop where
  apart : tasks.Pairwise ApartFrom
  unused : ∀ r ∈ tasks.filterMap creation, r.invitationId ∉ db.invitations

variable {env} {db t : SocialDatabase}
  {history : List (GroupTask × Except ApiError Unit)}

theorem sequential_of_oneByOne (h : OneByOne (groupRequest env) db history t) :
    sequential env db (history.map (·.1)) = (t, history) := by
  induction h with
  | nil => rfl
  | snoc _ hyields ih =>
    obtain ⟨rfl, rfl⟩ := groupRequest_alone hyields
    rw [List.map_append, sequential, List.foldl_append]
    rw [sequential] at ih
    rw [ih]
    rfl

theorem SerialAs.of_explains {actions : List (LockOrder.Action GroupTask)}
    {s : Machine (SocialDatabase × List (GroupTask × Except ApiError Unit)) Row GroupTask}
    (h : Explains (groupRequest env) db actions s history) :
    SerialAs env db actions s (history.map (·.1)) where
  database := by rw [sequential_of_oneByOne h.serial]
  answers := by
    rw [sequential_of_oneByOne h.serial]
    exact h.answered
  started := h.started

theorem apartFrom_symm {task other : GroupTask} (h : ApartFrom task other) :
    ApartFrom other task :=
  fun r hr r' hr' => ⟨(h r' hr' r hr).1.symm, (h r' hr' r hr).2.symm⟩

theorem uniqueIds_of_pairwise {tasks : List GroupTask} (h : tasks.Pairwise ApartFrom) :
    UniqueIds (tasks.filterMap creation) := by
  intro r hr r' hr' hid
  obtain ⟨task, htask, hcreates⟩ := List.mem_filterMap.mp hr
  obtain ⟨other, hother, hcreates'⟩ := List.mem_filterMap.mp hr'
  by_cases hsame : task = other
  · subst hsame
    exact Option.some.inj (hcreates.symm.trans hcreates')
  · have : Std.Symm ApartFrom := ⟨fun _ _ => apartFrom_symm⟩
    have hapart : ApartFrom task other := h.forall htask hother hsame
    exact absurd hid (hapart r hcreates r' hcreates').1

theorem groupRequest_atomic {created : List InvitationRequest} {hunique : UniqueIds created}
    {task : GroupTask} (hcreates : ∀ r ∈ creation task, r ∈ created) (hspent : Spent created db) :
    Atomic (groupContract created hunique) task (groupRequest env task) ∅ (groupRequest env task)
      db := by
  cases task with
  | acceptInvitation r => exact acceptGroupInvitation_atomic env r hspent
  | createInvitation r => exact createGroupInvitation_atomic rfl (hcreates r rfl)
  | declineInvitation userId invitationId =>
    exact declineGroupInvitation_atomic userId invitationId hspent
  | join now groupId userId password => exact joinGroup_atomic env now groupId userId password
  | removeMember now groupId userId memberId =>
    exact removeGroupMember_atomic now groupId userId memberId
  | delete groupId userId => exact deleteGroup_atomic groupId userId

variable (env) in
/-- However the statements of the requests interleave, there is an order of the requests that have
taken effect in which they leave the same database and give the same answers one by one, and what
takes effect later comes after them. -/
theorem group_requests_serializable {first second : List (LockOrder.Action GroupTask)}
    (hfresh : FreshIds db (startedBy (first ++ second)))
    {s t : Machine (SocialDatabase × List (GroupTask × Except ApiError Unit)) Row GroupTask}
    (hfirst : (system (answeringTasks (groupRequest env)) (db, [])).run first = some s)
    (hsecond : (system (answeringTasks (groupRequest env)) (db, [])).runFrom s second = some t) :
    ∃ order more, SerialAs env db first s order ∧
      SerialAs env db (first ++ second) t (order ++ more) := by
  have hunique := uniqueIds_of_pairwise hfresh.apart
  have hatomic : ∀ task ∈ startedBy (first ++ second), ∀ u,
      (groupContract _ hunique).invariant u →
      Atomic (groupContract _ hunique) task (groupRequest env task) ∅ (groupRequest env task) u :=
    fun task htask u hspent => groupRequest_atomic
      (fun r hr => List.mem_filterMap.mpr ⟨task, htask, hr⟩) hspent
  obtain ⟨history, more, hs, ht⟩ := exists_histories mayLock_exclusive (runs_groupRequest env)
    hatomic hfresh.apart (fun _ _ => apartFrom_symm)
    (fun r hr hmem => absurd hmem (hfresh.unused r hr)) hfirst hsecond
  refine ⟨history.map (·.1), more.map (·.1), .of_explains hs, ?_⟩
  rw [← List.map_append]
  exact .of_explains ht

/-- Bob accepts his invitation while Ada invites him again. Ada has the lock on the group first, and
has her answer before Bob goes on. -/
def inviteWhileAccepting : List (LockOrder.Action GroupTask) :=
  [.start (.acceptInvitation ⟨0, 2, 20, some "password"⟩),
    .start (.createInvitation ⟨1, 10, 2, 21, 31⟩), .run 0 0, .run 1 0, .run 0 0, .grant 0, .run 1 0,
    .grant 1, .run 0 0, .run 1 0, .run 0 0, .run 0 0] ++ List.replicate 5 (.run 1 0)

def acceptAfterwards : List (LockOrder.Action GroupTask) :=
  [.run 1 0, .grant 0] ++ List.replicate 3 (.run 0 0) ++ [.grant 0] ++ List.replicate 6 (.run 0 0)

theorem inviteWhileAccepting_serial : ∃ accounts ∈ adaAndBob, ∃ s t order more,
    t.shared.2.length = 2 ∧
    SerialAs plainHashing (bobInvited accounts) inviteWhileAccepting s order ∧
    SerialAs plainHashing (bobInvited accounts) (inviteWhileAccepting ++ acceptAfterwards) t
      (order ++ more) := by
  obtain ⟨accounts, haccounts, s, hfirst, t, hsecond, hanswers, hunused⟩ :
      ∃ accounts ∈ adaAndBob,
      ∃ s ∈ (system (answeringTasks (groupRequest plainHashing)) (bobInvited accounts, [])).run
        inviteWhileAccepting,
      ∃ t ∈ (system (answeringTasks (groupRequest plainHashing))
        (bobInvited accounts, [])).runFrom s acceptAfterwards, t.shared.2.length = 2 ∧
          21 ∉ (bobInvited accounts).invitations := by
    decide +kernel
  have hfresh : FreshIds (bobInvited accounts)
      (startedBy (inviteWhileAccepting ++ acceptAfterwards)) := by
    refine ⟨List.pairwise_pair.mpr fun r hr => ?_, List.forall_mem_singleton.mpr hunused⟩
    cases hr
  obtain ⟨order, more, hs, ht⟩ := group_requests_serializable plainHashing hfresh hfirst hsecond
  exact ⟨accounts, haccounts, s, t, order, more, hanswers, hs, ht⟩

end Runs

end OpenMeet.GroupSerialOrder
