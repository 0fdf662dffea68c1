import OpenMeet.GroupOwnership

/-!
Friends-only groups, while nobody changes their policy and no friendship ends.
Whoever is let in was compared with every member there was, under the lock on
the group's row, so nobody else came in meanwhile.
-/
namespace OpenMeet.FriendsOnlyGroups

open KeyedMap TransitionSystem Messages Accounts SocialTables ConversationApi FriendApi
  SocialRequests BadgeNews ReadCommitted GroupTransactions GroupOwnership
open CallTransactions (DepartRequest handOver)

/-! ## Friendships -/

section Friendships

variable {db after : SocialDatabase} {first second : Uuid}

theorem areAcceptedFriends_iff : areAcceptedFriends db first second = true ↔
    ∃ id friendship, db.friendships.lookup id = some friendship ∧ friendship.status = .accepted ∧
      (friendship.requesterId = first ∧ friendship.addresseeId = second ∨
        friendship.requesterId = second ∧ friendship.addresseeId = first) := by
  unfold areAcceptedFriends
  simp only [List.any_eq_true, Bool.and_eq_true, Bool.or_eq_true, decide_eq_true_eq]
  constructor
  · rintro ⟨row, hrow, hstatus, hparties⟩
    exact ⟨row.1, row.2, AList.mem_lookup_iff.mpr hrow, hstatus, hparties⟩
  · rintro ⟨id, friendship, hlookup, hstatus, hparties⟩
    exact ⟨⟨id, friendship⟩, AList.mem_lookup_iff.mp hlookup, hstatus, hparties⟩

theorem areAcceptedFriends_symm (h : areAcceptedFriends db first second = true) :
    areAcceptedFriends db second first = true := by
  obtain ⟨id, friendship, hlookup, hstatus, hparties⟩ := areAcceptedFriends_iff.mp h
  exact areAcceptedFriends_iff.mpr ⟨id, friendship, hlookup, hstatus, hparties.symm⟩

/-- No accepted friendship ends. -/
def FriendsGrow (db after : SocialDatabase) : Prop :=
  ∀ first second, areAcceptedFriends db first second = true →
    areAcceptedFriends after first second = true

theorem friendsGrow_of_eq (h : after.friendships = db.friendships) : FriendsGrow db after := by
  intro first second hfriends
  unfold areAcceptedFriends at hfriends ⊢
  rwa [h]

theorem friendsGrow_of_kept (h : ∀ id friendship, db.friendships.lookup id = some friendship →
    friendship.status = .accepted → after.friendships.lookup id = some friendship) :
    FriendsGrow db after := by
  intro first second hfriends
  obtain ⟨id, friendship, hlookup, hstatus, hparties⟩ := areAcceptedFriends_iff.mp hfriends
  exact areAcceptedFriends_iff.mpr
    ⟨id, friendship, h id friendship hlookup hstatus, hstatus, hparties⟩

theorem createFriendRequest_grow (userId friendshipId notificationId : Uuid)
    (request : CreateFriendRequest) :
    FriendsGrow db (createFriendRequest db userId friendshipId notificationId request).db := by
  rcases createFriendRequest_friendships db userId friendshipId notificationId request with
    hsame | ⟨targetId, -, -, hfresh, hinsert⟩
  · exact friendsGrow_of_eq hsame
  · refine friendsGrow_of_kept fun id friendship hlookup _ => ?_
    rw [hinsert, AList.lookup_insert_ne]
    · exact hlookup
    · rintro rfl
      exact hfresh (AList.lookup_isSome.mp (hlookup ▸ rfl))

theorem acceptFriendRequest_grow (userId friendshipId : Uuid) :
    FriendsGrow db (acceptFriendRequest db userId friendshipId).db := by
  rcases acceptFriendRequest_friendships db userId friendshipId with
    hsame | ⟨pending, hpending, -, hstatus, hmodify⟩
  · exact friendsGrow_of_eq hsame
  · refine friendsGrow_of_kept fun id friendship hlookup haccepted => ?_
    rw [hmodify, Map.lookup_modify, if_neg]
    · exact hlookup
    · rintro rfl
      cases hpending.symm.trans hlookup
      rw [hstatus] at haccepted
      cases haccepted

theorem deleteFriendship_grow (userId friendshipId notificationId : Uuid)
    (hpending : ∀ friendship ∈ db.friendships.lookup friendshipId,
      friendship.status ≠ .accepted) :
    FriendsGrow db (deleteFriendship db userId friendshipId notificationId).db := by
  rcases deleteFriendship_friendships db userId friendshipId notificationId with hsame | herase
  · exact friendsGrow_of_eq hsame
  · refine friendsGrow_of_kept fun id friendship hlookup haccepted => ?_
    rw [herase, AList.lookup_erase_ne]
    · exact hlookup
    · rintro rfl
      exact hpending friendship hlookup haccepted

end Friendships

/-! ## What the checks establish -/

def FriendsOnly (conversation : Conversation) : Prop :=
  ∃ group, conversation.kind = .group group ∧ group.accessPolicy = .friendsOnly

/-- Every two members are friends. -/
def Closed (db : SocialDatabase) (members : Map Uuid ConversationMember) : Prop :=
  ∀ first ∈ members, ∀ second ∈ members, first ≠ second →
    areAcceptedFriends db first second = true

/-- The candidate is a friend of every member but those still to be compared with. -/
def FriendOfMembers (db : SocialDatabase) (members : Map Uuid ConversationMember)
    (candidateId : Uuid) (remaining : List Uuid) : Prop :=
  ∀ id ∈ members, id = candidateId ∨ id ∈ remaining ∨ areAcceptedFriends db candidateId id = true

/-- What a transaction has checked of friendships, and the group it has read. -/
def Cleared (db : SocialDatabase) (row : Option Conversation) : GroupStage → Prop
  | .createChecked r group | .created r group =>
    group.accessPolicy = .friendsOnly → Closed db (newGroup r group).members
  | .admissionLocked _ group | .admissionNew _ group | .updateLocked _ group
  | .updated _ group _ => ∀ conversation ∈ row, conversation.kind = .group group
  | .admissionMembers r remaining =>
    ∀ conversation ∈ row, FriendOfMembers db conversation.members r.memberId remaining
  | .admissionGranted r | .admitted r false =>
    ∀ conversation ∈ row, FriendsOnly conversation →
      FriendOfMembers db conversation.members r.memberId []
  | _ => True

/-- A friendship that an answer is about is locked, and as it was read. -/
def RowRead (db : SocialDatabase) (locks : Finset GroupLock) : GroupStage → Prop
  | .friended (.accept _ id) row | .friended (.remove _ id _) row =>
    .friendship id ∈ locks ∧ row.isSome = true ∧ db.friendships.lookup id = row
  | _ => True

def lockedRow (db : SocialDatabase) (stage : GroupStage) : Option Conversation :=
  (lockedGroup stage).bind fun groupId => db.conversations.lookup groupId

structure Vetted (db : SocialDatabase) (tx : Transaction GroupStage GroupLock) : Prop where
  relies : Relies db tx
  cleared : Cleared db (lockedRow db tx.stage) tx.stage
  rowRead : RowRead db tx.locks tx.stage

/-- The commits that neither change the group's policy nor end a friendship. -/
def keepsClosed (groupId : Uuid) : GroupStage → Bool
  | .updated r before after => r.groupId ≠ groupId || after.accessPolicy = before.accessPolicy
  | .friended (.remove _ _ _) (some friendship) => friendship.status ≠ .accepted
  | _ => true

section Effects

variable {db after : SocialDatabase} {groupId : Uuid} {tx other : Transaction GroupStage GroupLock}

theorem Closed.grow {members : Map Uuid ConversationMember} (h : FriendsGrow db after)
    (hclosed : Closed db members) : Closed after members :=
  fun first hfirst second hsecond hne => h first second (hclosed first hfirst second hsecond hne)

theorem FriendOfMembers.grow {members : Map Uuid ConversationMember} {candidateId : Uuid}
    {remaining : List Uuid} (h : FriendsGrow db after)
    (hfriend : FriendOfMembers db members candidateId remaining) :
    FriendOfMembers after members candidateId remaining := by
  intro id hid
  exact (hfriend id hid).imp_right fun hrest => hrest.imp_right (h candidateId id)

theorem Cleared.grow {row : Option Conversation} {stage : GroupStage} (h : FriendsGrow db after)
    (hcleared : Cleared db row stage) : Cleared after row stage := by
  cases stage <;> try exact hcleared
  case createChecked r group => exact fun honly => (hcleared honly).grow h
  case created r group => exact fun honly => (hcleared honly).grow h
  case admissionMembers r remaining =>
    exact fun conversation hrow => (hcleared conversation hrow).grow h
  case admissionGranted r =>
    exact fun conversation hrow honly => (hcleared conversation hrow honly).grow h
  case admitted r isMember =>
    cases isMember with
    | true => trivial
    | false => exact fun conversation hrow honly => (hcleared conversation hrow honly).grow h

@[simp] theorem admitMember_friendships (r : AdmissionRequest) (isMember : Bool) :
    (admitMember db r isMember).friendships = db.friendships := by
  obtain ⟨now, groupId, memberId, path⟩ := r
  cases isMember <;> cases path <;> rfl

@[simp] theorem handOver_friendships (groupId : Uuid) (successor : Option Uuid) :
    (handOver db groupId successor).friendships = db.friendships := by
  cases successor <;> rfl

theorem groupEffect_friendships {stage : GroupStage} (h : ∀ r row, stage ≠ .friended r row) :
    (groupEffect stage db).friendships = db.friendships := by
  cases stage <;> try rfl
  case admitted r isMember => exact admitMember_friendships r isMember
  case departHanded r successor => exact handOver_friendships r.groupId successor
  case departed r successor => exact handOver_friendships r.groupId successor
  case friended r row => exact absurd rfl (h r row)

theorem groupEffect_grow (hvetted : Vetted db tx) (hkeeps : keepsClosed groupId tx.stage = true) :
    FriendsGrow db (groupEffect tx.stage db) := by
  obtain ⟨stage, locks⟩ := tx
  cases stage
  case friended r row =>
    cases r with
    | send userId friendshipId notificationId request => exact createFriendRequest_grow _ _ _ _
    | accept userId friendshipId => exact acceptFriendRequest_grow _ _
    | remove userId friendshipId notificationId =>
      obtain ⟨-, hsome, hread⟩ := hvetted.rowRead
      obtain ⟨friendship, rfl⟩ := Option.isSome_iff_exists.mp hsome
      refine deleteFriendship_grow _ _ _ fun found hfound => ?_
      cases hread.symm.trans hfound
      exact of_decide_eq_true hkeeps
  all_goals exact friendsGrow_of_eq (groupEffect_friendships fun _ _ => GroupStage.noConfusion)

/-- A friendship that somebody else has locked stays as it is. -/
theorem groupEffect_friendship (hvetted : Vetted db tx) {id : Uuid} {friendship : Friendship}
    (hunlocked : .friendship id ∉ tx.locks)
    (hlookup : db.friendships.lookup id = some friendship) :
    (groupEffect tx.stage db).friendships.lookup id = some friendship := by
  obtain ⟨stage, locks⟩ := tx
  cases stage
  case friended r row =>
    cases r with
    | send userId friendshipId notificationId request =>
      rcases createFriendRequest_friendships db userId friendshipId notificationId request with
        hsame | ⟨targetId, -, -, hfresh, hinsert⟩
      · exact (congrArg _ hsame).trans hlookup
      · refine (congrArg _ hinsert).trans ((AList.lookup_insert_ne ?_).trans hlookup)
        rintro rfl
        exact hfresh (AList.lookup_isSome.mp (hlookup ▸ rfl))
    | accept userId friendshipId =>
      have hne : id ≠ friendshipId := fun h => hunlocked (h ▸ hvetted.rowRead.1)
      rcases acceptFriendRequest_friendships db userId friendshipId with
        hsame | ⟨pending, -, -, -, hmodify⟩
      · exact (congrArg _ hsame).trans hlookup
      · exact (congrArg _ hmodify).trans
          ((Map.lookup_modify ..).trans ((if_neg hne).trans hlookup))
    | remove userId friendshipId notificationId =>
      have hne : id ≠ friendshipId := fun h => hunlocked (h ▸ hvetted.rowRead.1)
      rcases deleteFriendship_friendships db userId friendshipId notificationId with
        hsame | herase
      · exact (congrArg _ hsame).trans hlookup
      · exact (congrArg _ herase).trans ((AList.lookup_erase_ne hne).trans hlookup)
  all_goals
    exact (congrArg _ (groupEffect_friendships fun _ _ => GroupStage.noConfusion)).trans hlookup

theorem vetted_kept (hvetted : Vetted db tx) (hother : Vetted db other)
    (hdisjoint : Disjoint tx.locks other.locks)
    (hkeeps : keepsClosed groupId other.stage = true) :
    Vetted (groupEffect other.stage db) tx := by
  have hrow : lockedRow (groupEffect other.stage db) tx.stage = lockedRow db tx.stage := by
    unfold lockedRow
    cases hlocked : lockedGroup tx.stage with
    | none => rfl
    | some id =>
      refine groupEffect_lookup db fun h => ?_
      exact Finset.disjoint_left.mp hdisjoint (hvetted.relies.locked id hlocked).1
        (hother.relies.locked id h).1
  constructor
  · exact relies_kept hvetted.relies hother.relies hdisjoint
  · rw [hrow]
    exact hvetted.cleared.grow (groupEffect_grow hother hkeeps)
  · have hread := hvetted.rowRead
    obtain ⟨stage, locks⟩ := tx
    have hkept : ∀ id row, .friendship id ∈ locks → row.isSome = true →
        db.friendships.lookup id = row →
        (groupEffect other.stage db).friendships.lookup id = row := by
      intro id row hlock hsome hlookup
      obtain ⟨friendship, rfl⟩ := Option.isSome_iff_exists.mp hsome
      exact groupEffect_friendship hother (Finset.disjoint_left.mp hdisjoint hlock) hlookup
    cases stage <;> try exact trivial
    case friended r row =>
      cases r with
      | send userId friendshipId notificationId request => trivial
      | accept userId friendshipId =>
        obtain ⟨hlock, hsome, hlookup⟩ := hread
        exact ⟨hlock, hsome, hkept friendshipId row hlock hsome hlookup⟩
      | remove userId friendshipId notificationId =>
        obtain ⟨hlock, hsome, hlookup⟩ := hread
        exact ⟨hlock, hsome, hkept friendshipId row hlock hsome hlookup⟩

end Effects

section Statements

variable {env : Environment} {db : SocialDatabase} {tx : Transaction GroupStage GroupLock}
  {stage : GroupStage} {locks : Finset GroupLock}

theorem mem_newGroup {r : CreationRequest} {group : Group} {userId : Uuid}
    (h : userId ∈ (newGroup r group).members) :
    userId = r.userId ∨ userId ∈ r.request.memberIds := by
  rw [newGroup, ← AList.lookup_isSome, lookup_foldl_insert] at h
  by_cases hinitial : userId ∈ r.request.memberIds
  · exact .inr hinitial
  · rw [if_neg hinitial] at h
    by_contra hne
    rw [AList.lookup_insert_ne (fun h => hne (.inl h)), AList.lookup_empty] at h
    cases h

/-- The pairs that are compared before a friends-only group is created are all there are. -/
theorem newGroup_closed {r : CreationRequest} {group : Group}
    (hpolicy : r.request.accessPolicy = .friendsOnly)
    (h : validateInitialMemberFriendships db r.userId r.request.memberIds
      r.request.accessPolicy = .ok ()) : Closed db (newGroup r group).members := by
  unfold validateInitialMemberFriendships at h
  have hpairs : ∀ pair ∈ requiredInitialFriendshipPairs r.userId r.request.memberIds
      r.request.accessPolicy, areAcceptedFriends db pair.1 pair.2 = true := by
    split at h
    · rename_i hall
      exact List.all_eq_true.mp hall
    · cases h
  rw [requiredInitialFriendshipPairs, if_pos hpolicy] at hpairs
  have hcreator : ∀ id ∈ r.request.memberIds, areAcceptedFriends db r.userId id = true :=
    fun id hid => hpairs (r.userId, id)
      (List.mem_append_left _ (List.mem_map_of_mem (f := (r.userId, ·)) hid))
  have hbelow : ∀ id ∈ r.request.memberIds, ∀ other ∈ r.request.memberIds, id < other →
      areAcceptedFriends db id other = true := by
    intro id hid other hother hlt
    refine hpairs (id, other) (List.mem_append_right _ (List.mem_flatMap.mpr ⟨id, hid, ?_⟩))
    exact List.mem_filterMap.mpr ⟨other, hother, if_pos hlt⟩
  intro first hfirst second hsecond hne
  rcases mem_newGroup hfirst with rfl | hfirst <;> rcases mem_newGroup hsecond with rfl | hsecond
  · exact absurd rfl hne
  · exact hcreator second hsecond
  · exact areAcceptedFriends_symm (hcreator first hfirst)
  · rcases Nat.lt_or_gt_of_ne (BitVec.toNat_ne.mp hne) with hlt | hgt
    · exact hbelow first hfirst second hsecond hlt
    · exact areAcceptedFriends_symm (hbelow second hsecond first hfirst hgt)

theorem createStatement_vetted (hvetted : Vetted db tx)
    (hrelies : Relies db ⟨stage, tx.locks ∪ locks⟩)
    (h : createStatement env tx.stage (groupEffect tx.stage db) = some (stage, locks)) :
    Vetted db ⟨stage, tx.locks ∪ locks⟩ := by
  obtain ⟨current, held⟩ := tx
  cases current with
  | create r =>
    simp only [createStatement] at h
    split at h <;> cases h
    rename_i hfriendships
    exact ⟨hrelies, fun hpolicy => newGroup_closed hpolicy hfriendships, trivial⟩
  | createChecked r group =>
    obtain ⟨-, heq⟩ := Option.ite_none_right_eq_some.mp h
    cases heq
    exact ⟨hrelies, hvetted.cleared, trivial⟩
  | _ => cases h

theorem read_kind {groupId : Uuid} {row : Conversation × Group}
    (hrow : loadGroupForUpdate db groupId = some row) :
    ∀ conversation ∈ db.conversations.lookup groupId, conversation.kind = .group row.2 := by
  obtain ⟨hlookup, hkind⟩ := loadGroupForUpdate_some hrow
  intro conversation hconversation
  cases hlookup.symm.trans hconversation
  exact hkind

/-- Where the policy asks for something else there are no friends to have been compared with. -/
theorem granted_cleared {r : AdmissionRequest} {group : Group} {policy : GroupAccessPolicy}
    (hread : ∀ conversation ∈ db.conversations.lookup r.groupId, conversation.kind = .group group)
    (hpolicy : group.accessPolicy = policy) (hother : policy ≠ .friendsOnly) :
    Cleared db (lockedRow db (.admissionGranted r)) (.admissionGranted r) := by
  intro found hfound ⟨group', hkind, honly⟩
  cases (hread found hfound).symm.trans hkind
  exact absurd (hpolicy.symm.trans honly) hother

theorem admissionStatement_vetted (hvetted : Vetted db tx)
    (hrelies : Relies db ⟨stage, tx.locks ∪ locks⟩)
    (h : admissionStatement env tx.stage (groupEffect tx.stage db) = some (stage, locks)) :
    Vetted db ⟨stage, tx.locks ∪ locks⟩ := by
  obtain ⟨current, held⟩ := tx
  cases current with
  | joinByCode r =>
    obtain ⟨groupId, -, heq⟩ := Option.map_eq_some_iff.mp h
    cases heq
    exact ⟨hrelies, trivial, trivial⟩
  | acceptInvitation r =>
    obtain ⟨invitation, -, heq⟩ := Option.map_eq_some_iff.mp h
    cases heq
    exact ⟨hrelies, trivial, trivial⟩
  | admission r =>
    obtain ⟨row, hrow, heq⟩ := Option.map_eq_some_iff.mp h
    cases heq
    exact ⟨hrelies, read_kind hrow, trivial⟩
  | admissionLocked r group =>
    obtain ⟨conversation, -, hchecks⟩ := Option.bind_eq_some_iff.mp h
    obtain ⟨-, hmember⟩ := Option.ite_none_right_eq_some.mp hchecks
    split at hmember <;> cases hmember
    · exact ⟨hrelies, trivial, trivial⟩
    · exact ⟨hrelies, hvetted.cleared, trivial⟩
  | admissionNew r group =>
    obtain ⟨conversation, hconversation, hpolicy⟩ := Option.bind_eq_some_iff.mp h
    split at hpolicy
    · rename_i hopen
      cases hpolicy
      exact ⟨hrelies, granted_cleared hvetted.cleared hopen (by decide), trivial⟩
    · rename_i hpassword
      obtain ⟨-, heq⟩ := Option.ite_none_right_eq_some.mp hpolicy
      cases heq
      exact ⟨hrelies, granted_cleared hvetted.cleared hpassword (by decide), trivial⟩
    · cases hpolicy
      refine ⟨hrelies, fun found hfound id hid => ?_, trivial⟩
      cases hconversation.symm.trans hfound
      exact .inr (.inl (AList.mem_keys.mp hid))
    · rename_i hfriends
      obtain ⟨-, heq⟩ := Option.ite_none_right_eq_some.mp hpolicy
      cases heq
      exact ⟨hrelies, granted_cleared hvetted.cleared hfriends (by decide), trivial⟩
  | admissionMembers r remaining =>
    cases remaining with
    | nil =>
      cases h
      exact ⟨hrelies, fun found hfound _ => hvetted.cleared found hfound, trivial⟩
    | cons id rest =>
      obtain ⟨hcompared, heq⟩ := Option.ite_none_right_eq_some.mp h
      cases heq
      refine ⟨hrelies, fun found hfound other hother => ?_, trivial⟩
      rcases hvetted.cleared found hfound other hother with hcandidate | hremaining | hfriend
      · exact .inl hcandidate
      · rcases List.mem_cons.mp hremaining with rfl | hrest
        · rcases Bool.or_eq_true_iff.mp hcompared with hself | hfriend
          · exact .inl (of_decide_eq_true hself)
          · exact .inr (.inr hfriend)
        · exact .inr (.inl hrest)
      · exact .inr (.inr hfriend)
  | admissionGranted r =>
    cases h
    exact ⟨hrelies, hvetted.cleared, trivial⟩
  | _ => cases h

theorem departStatement_vetted (hrelies : Relies db ⟨stage, tx.locks ∪ locks⟩)
    (h : departStatement tx.stage (groupEffect tx.stage db) = some (stage, locks)) :
    Vetted db ⟨stage, tx.locks ∪ locks⟩ := by
  obtain ⟨current, held⟩ := tx
  cases current with
  | depart r =>
    obtain ⟨row, -, heq⟩ := Option.map_eq_some_iff.mp h
    cases heq
    exact ⟨hrelies, trivial, trivial⟩
  | departLocked r creatorId =>
    obtain ⟨conversation, -, hpath⟩ := Option.bind_eq_some_iff.mp h
    split at hpath
    · obtain ⟨-, heq⟩ := Option.ite_none_right_eq_some.mp hpath
      cases heq
      exact ⟨hrelies, trivial, trivial⟩
    · split at hpath
      · obtain ⟨successor, -, heq⟩ := Option.map_eq_some_iff.mp hpath
        cases heq
        exact ⟨hrelies, trivial, trivial⟩
      · cases hpath
        exact ⟨hrelies, trivial, trivial⟩
  | departHanded r successor =>
    obtain ⟨conversation, -, hmember⟩ := Option.bind_eq_some_iff.mp h
    obtain ⟨-, heq⟩ := Option.ite_none_right_eq_some.mp hmember
    cases heq
    exact ⟨hrelies, trivial, trivial⟩
  | _ => cases h

theorem roleStatement_vetted (hrelies : Relies db ⟨stage, tx.locks ∪ locks⟩)
    (h : roleStatement tx.stage (groupEffect tx.stage db) = some (stage, locks)) :
    Vetted db ⟨stage, tx.locks ∪ locks⟩ := by
  obtain ⟨current, held⟩ := tx
  cases current with
  | changeRole r =>
    obtain ⟨row, -, hchecks⟩ := Option.bind_eq_some_iff.mp h
    obtain ⟨-, heq⟩ := Option.ite_none_right_eq_some.mp hchecks
    cases heq
    exact ⟨hrelies, trivial, trivial⟩
  | roleLocked r =>
    obtain ⟨conversation, -, hmember⟩ := Option.bind_eq_some_iff.mp h
    obtain ⟨-, heq⟩ := Option.ite_none_right_eq_some.mp hmember
    cases heq
    exact ⟨hrelies, trivial, trivial⟩
  | _ => cases h

theorem updateStatement_vetted (hvetted : Vetted db tx)
    (hrelies : Relies db ⟨stage, tx.locks ∪ locks⟩)
    (h : updateStatement tx.stage (groupEffect tx.stage db) = some (stage, locks)) :
    Vetted db ⟨stage, tx.locks ∪ locks⟩ := by
  obtain ⟨current, held⟩ := tx
  cases current with
  | update r =>
    obtain ⟨row, hrow, heq⟩ := Option.map_eq_some_iff.mp h
    cases heq
    exact ⟨hrelies, read_kind hrow, trivial⟩
  | updateLocked r group =>
    obtain ⟨conversation, -, hadmin⟩ := Option.bind_eq_some_iff.mp h
    obtain ⟨-, hpolicy⟩ := Option.ite_none_right_eq_some.mp hadmin
    obtain ⟨policy, -, heq⟩ := Option.map_eq_some_iff.mp hpolicy
    cases heq
    exact ⟨hrelies, hvetted.cleared, trivial⟩
  | delete r =>
    obtain ⟨row, -, heq⟩ := Option.map_eq_some_iff.mp h
    cases heq
    exact ⟨hrelies, trivial, trivial⟩
  | deleteLocked r =>
    obtain ⟨conversation, -, hadmin⟩ := Option.bind_eq_some_iff.mp h
    obtain ⟨-, heq⟩ := Option.ite_none_right_eq_some.mp hadmin
    cases heq
    exact ⟨hrelies, trivial, trivial⟩
  | _ => cases h

theorem inviteStatement_vetted (hrelies : Relies db ⟨stage, tx.locks ∪ locks⟩)
    (h : inviteStatement tx.stage (groupEffect tx.stage db) = some (stage, locks)) :
    Vetted db ⟨stage, tx.locks ∪ locks⟩ := by
  obtain ⟨current, held⟩ := tx
  cases current with
  | invite r =>
    obtain ⟨row, -, hinvitee⟩ := Option.bind_eq_some_iff.mp h
    split at hinvitee <;> cases hinvitee
    exact ⟨hrelies, trivial, trivial⟩
  | inviteLocked r group =>
    obtain ⟨conversation, -, hchecks⟩ := Option.bind_eq_some_iff.mp h
    obtain ⟨-, heq⟩ := Option.ite_none_right_eq_some.mp hchecks
    cases heq
    exact ⟨hrelies, trivial, trivial⟩
  | _ => cases h

theorem friendStatement_vetted (hrelies : Relies db ⟨stage, tx.locks ∪ locks⟩)
    (h : friendStatement tx.stage (groupEffect tx.stage db) = some (stage, locks)) :
    Vetted db ⟨stage, tx.locks ∪ locks⟩ := by
  obtain ⟨current, held⟩ := tx
  cases current with
  | friends r =>
    cases r with
    | send userId friendshipId notificationId request =>
      cases h
      exact ⟨hrelies, trivial, trivial⟩
    | accept userId friendshipId =>
      obtain ⟨friendship, hread, heq⟩ := Option.map_eq_some_iff.mp h
      cases heq
      refine ⟨hrelies, trivial, Finset.mem_union_right _ (Finset.mem_singleton_self _), rfl, hread⟩
    | remove userId friendshipId notificationId =>
      obtain ⟨friendship, hread, heq⟩ := Option.map_eq_some_iff.mp h
      cases heq
      refine ⟨hrelies, trivial, Finset.mem_union_right _ (Finset.mem_singleton_self _), rfl, hread⟩
  | _ => cases h

theorem groupStatement_vetted (hvetted : Vetted db tx)
    (h : groupStatement env tx.stage (groupEffect tx.stage db) = some (stage, locks)) :
    Vetted db ⟨stage, tx.locks ∪ locks⟩ := by
  have hrelies := groupStatement_relies hvetted.relies h
  unfold groupStatement at h
  split at h
  all_goals first
    | exact createStatement_vetted hvetted hrelies h
    | exact admissionStatement_vetted hvetted hrelies h
    | exact departStatement_vetted hrelies h
    | exact roleStatement_vetted hrelies h
    | exact updateStatement_vetted hvetted hrelies h
    | exact inviteStatement_vetted hrelies h
    | exact friendStatement_vetted hrelies h

end Statements

/-! ## Commits -/

def GroupClosed (groupId : Uuid) (db : SocialDatabase) : Prop :=
  ∀ conversation ∈ db.conversations.lookup groupId, FriendsOnly conversation →
    Closed db conversation.members

section Commits

variable {db after : SocialDatabase} {groupId : Uuid}

theorem Closed.of_subset {members members' : Map Uuid ConversationMember}
    (h : Closed db members) (hsubset : ∀ id ∈ members', id ∈ members) : Closed db members' :=
  fun first hfirst second hsecond =>
    h first (hsubset first hfirst) second (hsubset second hsecond)

/-- Someone who was compared with every member comes in. -/
theorem Closed.insert {members : Map Uuid ConversationMember} {candidateId : Uuid}
    {member : ConversationMember} (h : Closed db members)
    (hfriend : FriendOfMembers db members candidateId []) :
    Closed db (members.insert candidateId member) := by
  have hnew : ∀ id ∈ members, id ≠ candidateId → areAcceptedFriends db candidateId id = true := by
    intro id hid hne
    rcases hfriend id hid with hsame | hremaining | hfriends
    · exact absurd hsame hne
    · cases hremaining
    · exact hfriends
  intro first hfirst second hsecond hne
  rcases (AList.mem_insert _).mp hfirst with rfl | hold
  · rcases (AList.mem_insert _).mp hsecond with rfl | hold'
    · exact absurd rfl hne
    · exact hnew second hold' hne.symm
  · rcases (AList.mem_insert _).mp hsecond with rfl | hold'
    · exact areAcceptedFriends_symm (hnew first hold hne)
    · exact h first hold second hold' hne

/-- A group whose row a commit has changed in place. -/
theorem closed_of_modify {f : Conversation → Conversation}
    (hlookup : after.conversations.lookup groupId = (db.conversations.lookup groupId).map f)
    (hgrow : FriendsGrow db after)
    (hf : ∀ before, db.conversations.lookup groupId = some before → FriendsOnly (f before) →
      Closed db (f before).members) : GroupClosed groupId after := by
  intro conversation hconversation honly
  rw [hlookup] at hconversation
  obtain ⟨before, hbefore, rfl⟩ := Option.map_eq_some_iff.mp hconversation
  exact (hf before hbefore honly).grow hgrow

theorem modified_lookup (f : Conversation → Conversation) :
    (modifyConversation db groupId f).conversations.lookup groupId =
      (db.conversations.lookup groupId).map f :=
  (lookup_modifyConversation ..).trans (if_pos rfl)

theorem groupEffect_closed {tx : Transaction GroupStage GroupLock}
    (hclosed : GroupClosed groupId db) (hvetted : Vetted db tx)
    (hfinished : isFinished tx.stage = true) (hkeeps : keepsClosed groupId tx.stage = true) :
    GroupClosed groupId (groupEffect tx.stage db) := by
  have hgrow : FriendsGrow db (groupEffect tx.stage db) := groupEffect_grow hvetted hkeeps
  by_cases hstage : lockedGroup tx.stage = some groupId
  · have hcleared := hvetted.cleared
    obtain ⟨stage, locks⟩ := tx
    cases stage
    case created r group =>
      cases hstage
      intro conversation hconversation ⟨group', hkind, honly⟩
      obtain rfl : conversation = newGroup r group :=
        (Option.some.inj ((AList.lookup_insert ..).symm.trans hconversation)).symm
      cases hkind
      exact (hcleared honly).grow hgrow
    case admitted r isMember =>
      cases hstage
      cases isMember with
      | true =>
        intro conversation hconversation honly
        rw [groupEffect, admitMember_conversations] at hconversation
        exact (hclosed conversation hconversation honly).grow hgrow
      | false =>
        refine closed_of_modify ((congrArg _ (admitMember_conversations ..)).trans
          (modified_lookup ..)) hgrow fun before hbefore honly => ?_
        by_cases hmember : r.memberId ∈ before.members
        · rw [if_pos hmember]
          exact hclosed before hbefore honly
        · rw [if_neg hmember]
          exact (hclosed before hbefore honly).insert (hcleared before hbefore honly)
    case departed r successor =>
      cases hstage
      refine closed_of_modify (removeMember_handOver_lookup ..) hgrow fun before hbefore honly => ?_
      refine (hclosed before hbefore honly).of_subset fun id hid => ?_
      obtain ⟨-, hmem⟩ := AList.mem_erase.mp hid
      cases successor with
      | none => exact hmem
      | some successor => exact (Map.mem_modify ..).mp hmem
    case roleChanged r =>
      cases hstage
      refine closed_of_modify (modified_lookup ..) hgrow fun before hbefore honly => ?_
      exact (hclosed before hbefore honly).of_subset fun id hid => (Map.mem_modify ..).mp hid
    case updated r old new =>
      cases hstage
      refine closed_of_modify (modified_lookup ..) hgrow fun before hbefore honly => ?_
      obtain ⟨group, hkind, honly⟩ := honly
      cases hkind
      have hpolicy : new.accessPolicy = old.accessPolicy := by
        simpa [keepsClosed] using hkeeps
      exact hclosed before hbefore ⟨old, hcleared before hbefore, hpolicy.symm.trans honly⟩
    case deleted r =>
      cases hstage
      intro conversation hconversation
      cases (AList.lookup_erase ..).symm.trans hconversation
    all_goals first | cases hstage; done | cases hfinished
  · intro conversation hconversation honly
    rw [groupEffect_lookup db hstage] at hconversation
    exact (hclosed conversation hconversation honly).grow hgrow

end Commits

/-! ## Runs -/

section Runs

variable (env : Environment) (groupId : Uuid) (accounts : Accounts.Database)

/-- The requests from the first one on, where no commit changes the policy of the group or ends a
friendship. -/
def closedSystem : System (Shared SocialDatabase GroupStage GroupLock) (Action GroupStage) :=
  system ((groupPrograms env).only (keepsClosed groupId)) (emptyDatabase accounts)

theorem closedPrograms_stable :
    Stable ((groupPrograms env).only (keepsClosed groupId)) (GroupClosed groupId) Vetted where
  begun _ stage _ hinitial := by
    refine ⟨relies_begun hinitial, ?_, ?_⟩ <;> cases stage <;> trivial
  ran _ _ _ _ _ hvetted hstatement := groupStatement_vetted hvetted hstatement
  committed _ _ hclosed hvetted hfinished := by
    obtain ⟨hend, hkeeps⟩ := Bool.and_eq_true_iff.mp hfinished
    exact groupEffect_closed hclosed hvetted hend hkeeps
  kept _ _ _ _ hvetted hother hdisjoint hfinished :=
    vetted_kept hvetted hother hdisjoint (Bool.and_eq_true_iff.mp hfinished).2

theorem emptyDatabase_closed : GroupClosed groupId (emptyDatabase accounts) := by
  intro conversation hconversation
  simp [emptyDatabase] at hconversation

theorem friendsOnly_closed (actions : List (Action GroupStage)) :
    (closedSystem env groupId accounts).Always (fun s => GroupClosed groupId s.db)
      (closedSystem env groupId accounts).init actions :=
  System.always_mono (fun _ hs => hs.db)
    ((closedPrograms_stable env groupId).always (.init (emptyDatabase_closed groupId accounts))
      actions)

end Runs

/-! ### Bob joins his friend's group -/

def askAndAccept : List (Action GroupStage) :=
  [.begin 0 (.friends (.send 1 20 30 ⟨some 2, none⟩)), .run 0, .commit 0,
    .begin 1 (.friends (.accept 2 20)), .run 1, .commit 1]

def foundFriends : CreationRequest := ⟨0, 1, 10, "", ⟨"Friends", .friendsOnly, none, []⟩⟩

def joinFriend : List (Action GroupStage) :=
  askAndAccept ++ [.begin 2 (.create foundFriends), .run 2, .run 2, .commit 2] ++
    .begin 3 (.admission ⟨1, 10, 2, .joined none⟩) :: List.replicate 6 (.run 3) ++ [.commit 3]

theorem joinFriend_closed : ∃ accounts ∈ adaAndBob,
    ∃ s ∈ (closedSystem plainHashing 10 accounts).run joinFriend,
    ∃ conversation ∈ s.db.conversations.lookup 10, 1 ∈ conversation.members ∧
      2 ∈ conversation.members ∧ FriendsOnly conversation ∧ Closed s.db conversation.members := by
  obtain ⟨accounts, haccounts, s, hs, conversation, hlookup, hada, hbob, honly⟩ :
      ∃ accounts ∈ adaAndBob, ∃ s ∈ (closedSystem plainHashing 10 accounts).run joinFriend,
      ∃ conversation ∈ s.db.conversations.lookup 10, 1 ∈ conversation.members ∧
        2 ∈ conversation.members ∧
        conversation.kind =
          .group ⟨"Friends", .friendsOnly, none, groupCodeFromUuid 10, none, none⟩ := by
    decide +kernel
  have hclosed := friendsOnly_closed plainHashing 10 accounts (joinFriend ++ [])
  have honly : FriendsOnly conversation := ⟨_, honly, rfl⟩
  exact ⟨accounts, haccounts, s, hs, conversation, hlookup, hada, hbob, honly,
    hclosed.runFrom hs conversation hlookup honly⟩

end OpenMeet.FriendsOnlyGroups
