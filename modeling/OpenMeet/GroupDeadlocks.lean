import OpenMeet.BadgeNews
import OpenMeet.GroupRowLocks
import OpenMeet.LockCrossing

/-!
Which requests about a group wait for one another in a cycle: one that accepts
an invitation and holds its row, and one that deletes the group, holds the
group's row and goes on to the invitations. All others lock the group's row
first, or no row besides an invitation's. So a run is free of cycles exactly if
in no step the later of such a pair asks for the row the other holds.
-/
namespace OpenMeet.GroupDeadlocks

open KeyedMap TransitionSystem Messages Accounts SocialTables ConversationApi GroupTransactions
  LockOrder LockCrossing GroupRowLocks BadgeNews SocialRequests

/-! ## Which rows are locked under which -/

/-- The group's row is locked, and no row of another group. -/
def InGroup (held : Finset Row) (groupId : Uuid) : Prop :=
  .conversation groupId ∈ held ∧ ∀ row ∈ held, row.groupId = groupId

/-- The group's row comes first or after one of its invitations; an invitation's row comes first or
under the group's; all other rows come under the group's. -/
def mayLock (held : Finset Row) (row : Row) (mode : Mode) : Prop :=
  mode = .exclusive ∧
    match row with
    | .conversation groupId => ∀ row ∈ held, ∃ id, row = .invitation groupId id
    | .invitation groupId _ => held = ∅ ∨ InGroup held groupId
    | .part groupId _ => InGroup held groupId

/-- What a request may lock while it holds another row: the group's when it accepts an invitation,
and an invitation's when it deletes the group. -/
def LocksUnder (task : GroupTask) : Row → Prop
  | .conversation _ => ∃ r, task = .acceptInvitation r
  | .invitation _ _ => ∃ groupId userId, task = .delete groupId userId
  | .part _ _ => True

def mayLockFor (task : GroupTask) (held : Finset Row) (row : Row) (mode : Mode) : Prop :=
  mayLock held row mode ∧ (held ≠ ∅ → LocksUnder task row)

/-- The program may run for the request with these locks, and has them again in the end. -/
abbrev Runs (task : GroupTask) (held : Finset Row) (p : RowProgram) : Prop :=
  Obeys (mayLockFor task) held held p

section Runs

variable {task : GroupTask} {held : Finset Row} {p : RowProgram} {groupId : Uuid} {row : Row}

theorem InGroup.insert (h : InGroup held groupId) (hrow : row.groupId = groupId) :
    InGroup (insert row held) groupId := by
  refine ⟨Finset.mem_insert_of_mem h.1, ?_⟩
  exact Finset.forall_mem_insert _ _ _ |>.mpr ⟨hrow, h.2⟩

theorem runs_refused (e : ApiError) : Runs task held (refused e) := rfl

theorem runs_commit (f : SocialDatabase → SocialDatabase) : Runs task held (commit f) :=
  fun _ => rfl

theorem runs_read {α : Type} {f : SocialDatabase → α} {next : α → RowProgram}
    (h : ∀ db, Runs task held (next (f db))) : Runs task held (Program.read f >>= next) :=
  h

/-- A row that goes under the group's for the request. -/
structure GoesUnder (task : GroupTask) (groupId : Uuid) (row : Row) : Prop where
  group : row.groupId = groupId
  ne : row ≠ .conversation groupId
  under : LocksUnder task row

theorem GoesUnder.may (h : InGroup held groupId) (hrow : GoesUnder task groupId row) :
    mayLockFor task held row .exclusive := by
  obtain ⟨hrow, hne, hunder⟩ := hrow
  refine ⟨⟨rfl, ?_⟩, fun _ => hunder⟩
  cases row with
  | conversation id =>
    obtain rfl : id = groupId := hrow
    exact absurd rfl hne
  | invitation id invitationId =>
    obtain rfl : id = groupId := hrow
    exact .inr h
  | part id part =>
    obtain rfl : id = groupId := hrow
    exact h

theorem runs_lockRows {rows : List Row} (hheld : InGroup held groupId) (hnodup : rows.Nodup)
    (hnew : ∀ row ∈ rows, row ∉ held) (hrows : ∀ row ∈ rows, GoesUnder task groupId row)
    (hp : ∀ held, Runs task held p) : Runs task held (lockRows rows p) := by
  induction rows generalizing held with
  | nil => exact hp held
  | cons row rest ih =>
    obtain ⟨hfirst, hrest⟩ := List.forall_mem_cons.mp hnew
    obtain ⟨hunder, hrows'⟩ := List.forall_mem_cons.mp hrows
    obtain ⟨hrow, hnodup'⟩ := List.nodup_cons.mp hnodup
    refine .withLock hfirst (hunder.may hheld) ?_
    refine ih (hheld.insert hunder.group) hnodup' (fun other hother hmem => ?_) hrows'
    rcases Finset.mem_insert.mp hmem with rfl | hmem
    · exact hrow hother
    · exact hrest other hother hmem

theorem runs_inAnyOrder {rows : List Row} {f : List Row → RowProgram}
    (h : ∀ rows', rows'.Perm rows → Runs task held (f rows')) :
    Runs task held (inAnyOrder rows f) := by
  induction rows generalizing f with
  | nil => exact h [] .nil
  | cons row rest ih =>
    refine ih fun rows' hperm n => h _ (.trans (List.perm_insertIdx row rows' ?_) (hperm.cons row))
    exact Nat.le_of_lt_succ (Nat.mod_lt _ rows'.length.succ_pos)

theorem runs_lockRows_inAnyOrder {rows : List Row} (hheld : InGroup held groupId)
    (hnodup : rows.Nodup) (hnew : ∀ row ∈ rows, row ∉ held)
    (hrows : ∀ row ∈ rows, GoesUnder task groupId row) (hp : ∀ held, Runs task held p) :
    Runs task held (inAnyOrder rows fun rows => lockRows rows p) := by
  refine runs_inAnyOrder fun rows' hperm => ?_
  refine runs_lockRows hheld (hperm.nodup_iff.mpr hnodup)
    (fun row hrow => ?_) (fun row hrow => ?_) hp
  · exact hnew row (hperm.subset hrow)
  · exact hrows row (hperm.subset hrow)

theorem runs_withPendingInvitation {userId invitationId : Uuid} {body : Uuid → RowProgram}
    (h : ∀ groupId, Runs task {.invitation groupId invitationId} (body groupId)) :
    Runs task ∅ (withPendingInvitation userId invitationId body) := by
  refine runs_read fun db => ?_
  cases loadPendingInvitation db userId invitationId with
  | error e => exact runs_refused e
  | ok invitation =>
    refine .withLock (Finset.notMem_empty _) ⟨⟨rfl, .inl rfl⟩, fun hne => absurd rfl hne⟩
      (runs_read fun db => ?_)
    cases loadPendingInvitation db userId invitationId with
    | error e => exact runs_refused e
    | ok _ => exact h invitation.conversationId

theorem runs_withGroup {body : Conversation → Group → RowProgram}
    (hheld : ∀ row ∈ held, ∃ id, row = .invitation groupId id)
    (hunder : held ≠ ∅ → LocksUnder task (.conversation groupId))
    (h : ∀ conversation group,
      Runs task (insert (.conversation groupId) held) (body conversation group)) :
    Runs task held (withGroup groupId body) := by
  refine runs_read fun db => ?_
  cases loadGroup db groupId with
  | error e => exact runs_refused e
  | ok _ =>
    refine .withLock (fun hmem => ?_) ⟨⟨rfl, hheld⟩, hunder⟩ (runs_read fun db => ?_)
    · obtain ⟨id, heq⟩ := hheld _ hmem
      cases heq
    · cases loadGroup db groupId with
      | error e => exact runs_refused e
      | ok row => exact h row.1 row.2

theorem runs_withGroupAdmin {userId : Uuid} {body : Conversation → Group → RowProgram}
    (h : ∀ conversation group, Runs task {.conversation groupId} (body conversation group)) :
    Runs task ∅ (withGroupAdmin groupId userId body) := by
  refine runs_withGroup (fun row hrow => absurd hrow (Finset.notMem_empty row))
    (fun hne => absurd rfl hne) fun _ _ => ?_
  refine runs_read fun db => ?_
  cases requireGroupAdmin db groupId userId with
  | error e => exact runs_refused e
  | ok row => exact h row.1 row.2.1

/-- The group's row is locked, after rows of its invitations only. -/
theorem inGroup_insert (hheld : ∀ row ∈ held, ∃ id, row = .invitation groupId id) :
    InGroup (insert (.conversation groupId) held) groupId := by
  refine ⟨Finset.mem_insert_self ..,
    Finset.forall_mem_insert _ _ _ |>.mpr ⟨rfl, fun row hrow => ?_⟩⟩
  obtain ⟨id, rfl⟩ := hheld row hrow
  rfl

end Runs

section Requests

variable (env : Environment)

theorem runs_admission {task : GroupTask} {held : Finset Row} {groupId : Uuid} (now : Timestamp)
    (userId : Uuid) (password : Option String) (resolve : SocialDatabase → SocialDatabase)
    (hheld : ∀ row ∈ held, ∃ id, row = .invitation groupId id)
    (hunder : held ≠ ∅ → LocksUnder task (.conversation groupId)) :
    Runs task held (admission env now groupId userId password resolve) := by
  refine runs_withGroup hheld hunder fun conversation group => ?_
  by_cases hmember : userId ∈ conversation.members
  · rw [if_pos hmember]
    exact runs_commit resolve
  · rw [if_neg hmember]
    refine runs_read fun db => ?_
    cases authorizeGroupAdmission env db conversation group userId password with
    | error e => exact runs_refused e
    | ok allowed =>
      refine runs_lockRows (inGroup_insert hheld) (List.nodup_singleton _) ?_ ?_
        fun _ => runs_commit _
      · refine List.forall_mem_singleton.mpr fun hmem => ?_
        rcases Finset.mem_insert.mp hmem with heq | hmem
        · cases heq
        · obtain ⟨id, heq⟩ := hheld _ hmem
          cases heq
      · exact List.forall_mem_singleton.mpr ⟨rfl, nofun, trivial⟩

theorem runs_acceptGroupInvitation (r : AcceptanceRequest) :
    Runs (.acceptInvitation r) ∅ (acceptGroupInvitation env r) := by
  refine runs_withPendingInvitation fun groupId => ?_
  exact runs_admission env r.now r.userId r.password _
    (fun row hrow => ⟨r.invitationId, Finset.mem_singleton.mp hrow⟩) fun _ => ⟨r, rfl⟩

theorem runs_createGroupInvitation (task : GroupTask) (r : InvitationRequest) :
    Runs task ∅ (GroupRowLocks.createGroupInvitation r) := by
  rw [GroupRowLocks.createGroupInvitation]
  split
  · exact runs_refused _
  · refine runs_withGroupAdmin fun conversation group => ?_
    split
    · exact runs_refused _
    · refine runs_read fun db => ?_
      cases ensureUserExists db r.inviteeId with
      | error e => exact runs_refused e
      | ok _ =>
        by_cases hmember : r.inviteeId ∈ conversation.members
        · simp only [if_pos hmember]
          exact runs_refused _
        · simp only [if_neg hmember]
          refine runs_read fun db => ?_
          split
          · rfl
          · refine runs_read fun db => ?_
            split
            · exact runs_refused _
            · exact runs_commit _

theorem inGroup_singleton (groupId : Uuid) : InGroup {.conversation groupId} groupId :=
  ⟨Finset.mem_singleton_self _, fun row hrow => by rw [Finset.mem_singleton.mp hrow]; rfl⟩

theorem runs_removeGroupMember (task : GroupTask) (now : Timestamp)
    (groupId userId memberId : Uuid) :
    Runs task ∅ (GroupRowLocks.removeGroupMember now groupId userId memberId) := by
  refine runs_withGroupAdmin fun conversation _ => ?_
  split
  · exact runs_refused _
  · split
    · have hmember : Row.part groupId (.member memberId) ∉ ({.conversation groupId} : Finset Row) :=
        fun h => nomatch Finset.mem_singleton.mp h
      refine .withLock hmember ⟨⟨rfl, inGroup_singleton groupId⟩, fun _ => trivial⟩
        (runs_read fun db => ?_)
      have hanswers : ∀ row ∈ revokedAnswers db groupId memberId,
          ∃ callId, row = .part groupId (.callMember callId memberId) := by
        intro row hrow
        obtain ⟨call, -, rfl⟩ := List.mem_map.mp (List.mem_dedup.mp hrow)
        exact ⟨call.1, rfl⟩
      refine runs_lockRows_inAnyOrder ((inGroup_singleton groupId).insert rfl) (List.nodup_dedup _)
        (fun row hrow hheld => ?_) (fun row hrow => ?_) fun _ => runs_commit _
      · obtain ⟨callId, rfl⟩ := hanswers row hrow
        simp at hheld
      · obtain ⟨callId, rfl⟩ := hanswers row hrow
        exact ⟨rfl, nofun, trivial⟩
    · exact runs_refused _

theorem mem_cascadeRows {db : SocialDatabase} {groupId : Uuid} (userId : Uuid) {row : Row}
    (h : row ∈ cascadeRows db groupId) : GoesUnder (.delete groupId userId) groupId row := by
  rcases List.mem_append.mp (List.mem_dedup.mp h) with hpart | hinvitation
  · obtain ⟨part, -, rfl⟩ := List.mem_map.mp hpart
    exact ⟨rfl, nofun, trivial⟩
  · obtain ⟨invitation, -, rfl⟩ := List.mem_map.mp hinvitation
    exact ⟨rfl, nofun, groupId, userId, rfl⟩

theorem runs_deleteGroup (groupId userId : Uuid) :
    Runs (.delete groupId userId) ∅ (GroupRowLocks.deleteGroup groupId userId) := by
  refine runs_withGroupAdmin fun _ _ => runs_read fun db => ?_
  refine runs_lockRows_inAnyOrder (inGroup_singleton groupId) (List.nodup_dedup _)
    (fun row hrow hheld => ?_) (fun row hrow => mem_cascadeRows userId hrow) fun _ => runs_commit _
  exact (mem_cascadeRows userId hrow).ne (Finset.mem_singleton.mp hheld)

/-- Only an acceptance asks for the group's row while it holds an invitation's, and only a deletion
for an invitation's row while it holds the group's. -/
theorem runs_for_groupRequest (task : GroupTask) : Runs task ∅ (groupRequest env task) := by
  cases task with
  | acceptInvitation r => exact runs_acceptGroupInvitation env r
  | createInvitation r => exact runs_createGroupInvitation _ r
  | declineInvitation userId invitationId =>
    exact runs_withPendingInvitation fun _ => runs_commit _
  | join now groupId userId password =>
    exact runs_admission env now userId password id
      (fun row hrow => absurd hrow (Finset.notMem_empty row)) fun hne => absurd rfl hne
  | removeMember now groupId userId memberId =>
    exact runs_removeGroupMember _ now groupId userId memberId
  | delete groupId userId => exact runs_deleteGroup groupId userId

theorem runs_groupRequest (task : GroupTask) : Obeys mayLock ∅ ∅ (groupRequest env task) :=
  (runs_for_groupRequest env task).mono fun _ _ _ h => h.1

theorem groupTasks_obey (task : GroupTask) : Obeys mayLock ∅ ∅ ((groupTasks env).body task) :=
  (runs_groupRequest env task).bind fun _ => rfl

end Requests

/-! ## Cycles -/

section Cycles

variable {s : Machine SocialDatabase Row GroupTask} {id other : Nat} {groupId : Uuid}
  {row row' : Row}

theorem mayLock_exclusive (held : Finset Row) (row : Row) (mode : Mode)
    (h : mayLock held row mode) : mode = .exclusive :=
  h.1

/-- A request that waits for a row holds all others it has asked for, and it holds none, rows of
invitations of the group whose row it waits for, or the row of the group. -/
theorem held_of_waits (hs : Tracked mayLock s) (h : Waits s id row) :
    ∃ held, (∀ row', id ∈ (s.queues row').ids → row' = row ∨ row' ∈ held) ∧
      (∀ row' ∈ held, Holds s id row') ∧ mayLock held row .exclusive := by
  obtain ⟨code, hcode⟩ := h
  obtain ⟨held, ⟨-, ⟨mode, hmay⟩, -⟩, hrequested, hholds⟩ := hs.thread id _ hcode
  refine ⟨held, fun row' hqueued => ?_, hholds, ?_⟩
  · exact Finset.mem_insert.mp ((hrequested row').mp hqueued)
  · obtain rfl := hmay.1
    exact hmay

/-- What a request holds while it waits for a row other than its group's. -/
theorem holds_group (hs : Tracked mayLock s) (h : Waits s id row)
    (hrow : ∀ groupId, row ≠ .conversation groupId) (hqueued : id ∈ (s.queues row').ids)
    (hne : row' ≠ row) : Holds s id (.conversation row'.groupId) ∧ row.groupId = row'.groupId := by
  obtain ⟨held, hasked, hholds, -, hmay⟩ := held_of_waits hs h
  have hheld := (hasked row' hqueued).resolve_left hne
  have hgroup : InGroup held row.groupId := by
    cases row with
    | conversation groupId => exact absurd rfl (hrow groupId)
    | invitation groupId id =>
      refine hmay.resolve_left ?_
      rintro rfl
      exact Finset.notMem_empty _ hheld
    | part groupId part => exact hmay
  have heq := hgroup.2 row' hheld
  exact ⟨heq ▸ hholds _ hgroup.1, heq.symm⟩

/-- A request that waits for its group's row has asked for nothing but an invitation of it. -/
theorem asked_invitation (hs : Tracked mayLock s) (h : Waits s id (.conversation groupId))
    (hqueued : id ∈ (s.queues row).ids) (hne : row ≠ .conversation groupId) :
    Holds s id row ∧ ∃ invitationId, row = .invitation groupId invitationId := by
  obtain ⟨held, hasked, hholds, -, hmay⟩ := held_of_waits hs h
  have hheld := (hasked row hqueued).resolve_left hne
  exact ⟨hholds row hheld, hmay row hheld⟩

/-- The request deletes the group: it holds its row and waits for an invitation. -/
structure Deletes (s : Machine SocialDatabase Row GroupTask) (id : Nat)
    (groupId invitationId : Uuid) : Prop where
  waits : Waits s id (.invitation groupId invitationId)
  holds : Holds s id (.conversation groupId)

/-- No request that holds an invitation and waits for the group meets one that holds the group and
waits for the invitation. -/
def Uncrossed (s : Machine SocialDatabase Row GroupTask) : Prop :=
  ∀ groupId invitationId id other,
    ¬ Crossed s (.conversation groupId) (.invitation groupId invitationId) id other

theorem waits_of_cycle (h : Relation.TransGen (WaitsFor s) id id) : ∃ row, Waits s id row := by
  obtain ⟨row, hwaits, -⟩ := blocked_of_cycle h
  exact ⟨row, hwaits⟩

/-- Who else has asked for the invitation that a deletion waits for waits for nothing else. -/
theorem Deletes.row_eq (hs : Tracked mayLock s) (huncrossed : Uncrossed s) {invitationId : Uuid}
    (h : Deletes s id groupId invitationId)
    (hqueued : other ∈ (s.queues (.invitation groupId invitationId)).ids)
    (hwaits : Waits s other row) : row = .invitation groupId invitationId := by
  by_contra hne
  by_cases hgroup : ∃ groupId', row = .conversation groupId'
  · obtain ⟨groupId', rfl⟩ := hgroup
    obtain ⟨hholds, invitationId', heq⟩ := asked_invitation hs hwaits hqueued nofun
    cases heq
    exact huncrossed _ _ _ _ ⟨hwaits, hholds, h.waits, h.holds⟩
  · push Not at hgroup
    obtain ⟨hholds, -⟩ := holds_group hs hwaits hgroup hqueued (Ne.symm hne)
    obtain rfl := Holds.unique mayLock_exclusive hs h.holds hholds
    exact hne (hwaits.unique h.waits)

/-- A deletion is on no cycle: those it waits for wait for the same invitation before it. -/
theorem Deletes.not_cycle (hs : Tracked mayLock s) (huncrossed : Uncrossed s)
    {invitationId : Uuid} (h : Deletes s id groupId invitationId) :
    ¬ Relation.TransGen (WaitsFor s) id id := by
  intro hcycle
  let q := s.queues (.invitation groupId invitationId)
  have hahead : ∀ other, Relation.TransGen (WaitsFor s) id other → ∀ row, Waits s other row →
      row = .invitation groupId invitationId ∧ q.ids.idxOf other < q.ids.idxOf id := by
    intro other hpath
    induction hpath with
    | single hedge =>
      obtain ⟨row', ⟨hblocked, -⟩, hahead⟩ := hedge
      obtain rfl := Waits.unique hblocked h.waits
      exact fun row hwaits =>
        ⟨h.row_eq hs huncrossed hahead.mem hwaits, hahead.idxOf_lt (hs.nodup _)⟩
    | tail hpath hedge ih =>
      obtain ⟨row', ⟨hblocked, -⟩, hahead⟩ := hedge
      obtain ⟨rfl, hlt⟩ := ih row' hblocked
      exact fun row hwaits =>
        ⟨h.row_eq hs huncrossed hahead.mem hwaits, (hahead.idxOf_lt (hs.nodup _)).trans hlt⟩
  exact Nat.lt_irrefl _ (hahead id hcycle _ h.waits).2

theorem holds_of_waits_part (hs : Tracked mayLock s) {part : GroupPart}
    (h : Waits s id (.part groupId part)) : Holds s id (.conversation groupId) := by
  obtain ⟨held, -, hholds, -, hmay⟩ := held_of_waits hs h
  exact hholds _ hmay.1

/-- All other rows are asked for under the group's, by one request at a time. -/
theorem not_waitsFor_part (hs : Tracked mayLock s) {part : GroupPart}
    (h : Waits s id (.part groupId part)) (hwaits : Waits s other row) : ¬ WaitsFor s id other := by
  rintro ⟨row', ⟨hblocked, -⟩, hahead⟩
  obtain rfl := Waits.unique hblocked h
  have hne : other ≠ id := by
    rintro rfl
    exact Nat.lt_irrefl _ (hahead.idxOf_lt (hs.nodup _))
  refine hne (Holds.unique mayLock_exclusive hs (holds_of_waits_part hs h) ?_)
  by_cases hsame : Row.part groupId part = row
  · subst hsame
    exact holds_of_waits_part hs hwaits
  · refine (holds_group hs hwaits (fun groupId' heq => ?_) hahead.mem hsame).1
    subst heq
    obtain ⟨-, invitationId, heq⟩ := asked_invitation hs hwaits hahead.mem hsame
    cases heq

def rowRank : Row → Nat
  | .invitation _ _ => 0
  | .conversation _ => 1
  | .part _ _ => 2

theorem noCycle_of_uncrossed (hs : Tracked mayLock s) (huncrossed : Uncrossed s) : NoCycle s := by
  refine noCycle_of_later rowRank fun id other hid hother h => ?_
  obtain ⟨row', hwaits'⟩ := waits_of_cycle hother
  have hedge := h
  obtain ⟨row, ⟨hwaits, -⟩, hahead⟩ := hedge
  obtain ⟨code, hcode⟩ := hwaits
  obtain ⟨code', hcode'⟩ := hwaits'
  refine ⟨row, row', code, code', hcode, hcode', ?_⟩
  by_cases hsame : row = row'
  · subst hsame
    exact .inr ⟨rfl, hahead.idxOf_lt (hs.nodup _)⟩
  cases row' with
  | conversation groupId =>
    obtain ⟨-, invitationId, rfl⟩ := asked_invitation hs ⟨code', hcode'⟩ hahead.mem hsame
    exact .inl Nat.zero_lt_one
  | invitation groupId invitationId =>
    -- the other holds the group's row and waits for an invitation
    obtain ⟨hholds, hgroup⟩ := holds_group hs ⟨code', hcode'⟩ nofun hahead.mem hsame
    rw [← hgroup] at hholds
    exact absurd hother (Deletes.not_cycle hs huncrossed ⟨⟨code', hcode'⟩, hholds⟩)
  | part groupId part =>
    obtain ⟨next, hfirst, hrest⟩ := Relation.TransGen.head'_iff.mp hother
    obtain ⟨row', hnext⟩ := waits_of_cycle (Relation.TransGen.tail' hrest hfirst)
    exact absurd hfirst (not_waitsFor_part hs ⟨code', hcode'⟩ hnext)

theorem noCycle_iff_uncrossed (hs : Tracked mayLock s) : NoCycle s ↔ Uncrossed s := by
  refine ⟨fun h groupId invitationId _ _ hcrossed => ?_, noCycle_of_uncrossed hs⟩
  have hne : Row.conversation groupId ≠ .invitation groupId invitationId := nofun
  exact hcrossed.not_noCycle mayLock_exclusive hs hne h

end Cycles

/-! ## Runs -/

def groupSystem (env : Environment) (db : SocialDatabase) :
    System (Machine SocialDatabase Row GroupTask) (LockOrder.Action GroupTask) :=
  system (groupTasks env) db

/-- In the step a request that holds an invitation asks for the group's row while the one that holds
it waits for the invitation, or one that holds the group's row asks for an invitation while the one
that holds it waits for the group's row. The one with the invitation runs as only an acceptance may,
the one with the group's row as only a deletion may. -/
def MeetsDeletion (s : Machine SocialDatabase Row GroupTask) (a : LockOrder.Action GroupTask) :
    Prop :=
  ∃ groupId invitationId acceptance deletion,
    Crosses s a (.conversation groupId) (.invitation groupId invitationId) acceptance deletion ∨
    Crosses s a (.invitation groupId invitationId) (.conversation groupId) deletion acceptance

theorem uncrossed_step {env : Environment} {s t : Machine SocialDatabase Row GroupTask}
    {a : LockOrder.Action GroupTask} (hs : Tracked mayLock s) (huncrossed : Uncrossed s)
    (h : step (groupTasks env) s a = some t) : Uncrossed t ↔ ¬ MeetsDeletion s a := by
  simp only [Uncrossed, MeetsDeletion, not_exists]
  refine forall_congr' fun groupId => forall_congr' fun invitationId => forall_congr' fun id =>
    forall_congr' fun other => not_congr ?_
  exact crossed_step hs h nofun (huncrossed groupId invitationId id other)

/-- A run has no cycle of requests that wait for one another, at any time, exactly if no acceptance
and deletion of one group ever come to hold and ask for the same two rows. -/
theorem groupLocks_noCycle_iff (env : Environment) (db : SocialDatabase)
    (actions : List (LockOrder.Action GroupTask)) :
    (groupSystem env db).Always NoCycle (groupSystem env db).init actions ↔
      (groupSystem env db).Guarded (fun s a => ¬ MeetsDeletion s a) (groupSystem env db).init
        actions := by
  have hinit : Tracked mayLock (groupSystem env db).init := initial_tracked (groupTasks env) db
  refine System.always_iff_guarded (J := Tracked mayLock)
    (fun s a t hs _ h => step_tracked (groupTasks_obey env) hs h)
    (fun s a t hs hcycle h => ?_) (fun s a hidle hmeets => ?_) hinit ?_ actions
  · have ht := step_tracked (groupTasks_obey env) hs h
    rw [noCycle_iff_uncrossed ht]
    exact uncrossed_step hs ((noCycle_iff_uncrossed hs).mp hcycle) h
  · obtain ⟨groupId, invitationId, acceptance, deletion, hcross | hcross⟩ := hmeets
    · obtain ⟨t, ht⟩ := step_of_asks (P := groupTasks env) hcross.asks
      rw [groupSystem, system] at hidle
      simp [ht] at hidle
    · obtain ⟨t, ht⟩ := step_of_asks (P := groupTasks env) hcross.asks
      rw [groupSystem, system] at hidle
      simp [ht] at hidle
  · refine noCycle_of_uncrossed hinit fun groupId invitationId id other hcrossed => ?_
    obtain ⟨code, hcode⟩ := hcrossed.first_waits
    cases hcode

/-- Bob has been invited to Ada's group. -/
def bobInvited (accounts : Accounts.Database) : SocialDatabase :=
  runRequests plainHashing (emptyDatabase accounts) inviteBob

/-- Bob's acceptance locks the invitation, Ada's deletion the group; then each asks for the other's
row, the deletion for the invitation's before the member's. -/
def acceptWhileDeleting : List (LockOrder.Action GroupTask) :=
  [.start (.acceptInvitation ⟨0, 2, 20, some "password"⟩), .start (.delete 10 1),
    .run 0 0, .run 0 0, .grant 0, .run 0 0, .run 0 0,
    .run 1 0, .run 1 0, .grant 1, .run 1 0, .run 1 0, .run 1 0, .run 1 0, .run 1 1,
    .run 1 0, .run 0 0]

def isWaiting (row : Row) : Thread SocialDatabase Row GroupTask → Bool
  | .waiting row' _ => row' = row
  | .running _ => false

theorem waits_of_isWaiting {s : Machine SocialDatabase Row GroupTask} {id : Nat} {row : Row}
    (h : (s.threads.lookup id).any (isWaiting row) = true) : Waits s id row := by
  obtain ⟨thread, hid, hwaits⟩ := (Option.any_eq_true ..).mp h
  cases thread with
  | running code => cases hwaits
  | waiting row' code =>
    obtain rfl : row' = row := of_decide_eq_true hwaits
    exact ⟨code, hid⟩

theorem acceptWhileDeleting_deadlocks : ∃ accounts ∈ adaAndBob,
    ¬ (groupSystem plainHashing (bobInvited accounts)).Always NoCycle
      (groupSystem plainHashing (bobInvited accounts)).init acceptWhileDeleting := by
  obtain ⟨accounts, haccounts, s, hs, hacceptance, hdeletion, hgroup, hinvitation⟩ :
      ∃ accounts ∈ adaAndBob,
      ∃ s ∈ (groupSystem plainHashing (bobInvited accounts)).run acceptWhileDeleting,
        (s.threads.lookup 0).any (isWaiting (.conversation 10)) = true ∧
        (s.threads.lookup 1).any (isWaiting (.invitation 10 20)) = true ∧
        1 ∈ (s.queues (.conversation 10)).holders ∧ 0 ∈ (s.queues (.invitation 10 20)).holders := by
    decide +kernel
  refine ⟨accounts, haccounts, fun halways => ?_⟩
  have htracked := run_tracked (groupTasks_obey plainHashing) hs
  have hcrossed : Crossed s (.conversation 10) (.invitation 10 20) 0 1 :=
    ⟨waits_of_isWaiting hacceptance, hinvitation, waits_of_isWaiting hdeletion, hgroup⟩
  rw [← List.append_nil acceptWhileDeleting] at halways
  exact (noCycle_iff_uncrossed htracked).mp (halways.runFrom hs) _ _ _ _ hcrossed

end OpenMeet.GroupDeadlocks
