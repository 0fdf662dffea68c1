import OpenMeet.ContactData

/-!
Whether a user who appears offline can be seen to be active. Two databases that
differ in the user's heartbeat only answer everyone else alike, but for the
profile a friend opens: it gives the time of the heartbeat.
-/
namespace OpenMeet.AppearOffline

open KeyedMap Messages Accounts SocialTables ConversationApi BadgeNews Presence PeopleApi
  ContactData

def withHeartbeat (db : PeopleDatabase) (userId : Uuid) (lastSeenAt : Timestamp) :
    PeopleDatabase :=
  { db with presence := db.presence.insert userId lastSeenAt }

/-- Whenever the user was last seen, the viewer gets the same answers. -/
structure HidesActivity (db : PeopleDatabase) (now : Timestamp) (viewer userId : Uuid) : Prop where
  profile : ∀ first second targetUserId,
    getUserProfile (withHeartbeat db userId first) now viewer targetUserId =
      getUserProfile (withHeartbeat db userId second) now viewer targetUserId
  friends : ∀ first second,
    listFriends (withHeartbeat db userId first) now viewer =
      listFriends (withHeartbeat db userId second) now viewer
  calls : ∀ first second,
    listIncomingCalls (withHeartbeat db userId first) now viewer =
      listIncomingCalls (withHeartbeat db userId second) now viewer
  members : ∀ first second groupId offset,
    listGroupMembers (withHeartbeat db userId first) now viewer groupId offset =
      listGroupMembers (withHeartbeat db userId second) now viewer groupId offset

section Heartbeats

variable {db : PeopleDatabase} {now : Timestamp} {viewer userId : Uuid} {first second : Timestamp}

theorem presence_withHeartbeat {id : Uuid} (hne : id ≠ userId) :
    (withHeartbeat db userId first).presence.lookup id = db.presence.lookup id :=
  AList.lookup_insert_ne hne

/-- The presence of anybody, to somebody else. -/
theorem visiblePresence_withHeartbeat (hoffline : (profileColumns db userId).status = .offline)
    {relationship : Relationship} {id : Uuid}
    (hother : id = userId → relationship.isSelf = false) :
    visiblePresence now id (profileColumns db id).status
        ((withHeartbeat db userId first).presence.lookup id) relationship =
      visiblePresence now id (profileColumns db id).status
        ((withHeartbeat db userId second).presence.lookup id) relationship := by
  by_cases hid : id = userId
  · subst hid
    rw [hoffline]
    exact visiblePresence_offline (hother rfl) _
  · rw [presence_withHeartbeat hid, presence_withHeartbeat hid]

theorem summaryOf_withHeartbeat (second : Timestamp)
    (hoffline : (profileColumns db userId).status = .offline)
    {relationship : Relationship} (hother : relationship.isSelf = false) (id : Uuid) :
    summaryOf (withHeartbeat db userId first) now id relationship =
      summaryOf (withHeartbeat db userId second) now id relationship := by
  unfold summaryOf userRow
  rw [Option.map_map, Option.map_map]
  refine congrArg (fun f => Option.map f _) (funext fun user => ?_)
  exact congrArg (friendSummary _) (visiblePresence_withHeartbeat hoffline fun _ => hother)

theorem listFriends_withHeartbeat (hoffline : (profileColumns db userId).status = .offline) :
    listFriends (withHeartbeat db userId first) now viewer =
      listFriends (withHeartbeat db userId second) now viewer := by
  unfold listFriends
  congr 1
  · refine congrArg (fun f => List.filterMap f _) (funext fun row => ?_)
    rw [summaryOf_withHeartbeat second hoffline rfl]
  · refine congrArg (fun f => List.filterMap f _) (funext fun row => ?_)
    rw [summaryOf_withHeartbeat second hoffline rfl]
    rfl

theorem listIncomingCalls_withHeartbeat
    (hoffline : (profileColumns db userId).status = .offline) :
    listIncomingCalls (withHeartbeat db userId first) now viewer =
      listIncomingCalls (withHeartbeat db userId second) now viewer := by
  unfold listIncomingCalls
  refine congrArg (fun f => List.map f _) (funext fun row => ?_)
  rw [summaryOf_withHeartbeat second hoffline rfl]

theorem visibleGroupMemberPresence_withHeartbeat (second : Timestamp) (hne : viewer ≠ userId)
    (hoffline : (profileColumns db userId).status = .offline) {member : UserRow}
    (hmember : userRow db member.id = some member) :
    visibleGroupMemberPresence (withHeartbeat db userId first) now viewer member =
      visibleGroupMemberPresence (withHeartbeat db userId second) now viewer member := by
  obtain ⟨user, -, heq⟩ := Option.map_eq_some_iff.mp hmember
  have hstatus : member.status = (profileColumns db member.id).status :=
    congrArg UserRow.status heq.symm
  unfold visibleGroupMemberPresence
  rw [hstatus]
  refine visiblePresence_withHeartbeat hoffline fun hid => ?_
  exact decide_eq_false fun hself => hne (hself.symm.trans hid)

theorem listGroupMembers_withHeartbeat (hne : viewer ≠ userId)
    (hoffline : (profileColumns db userId).status = .offline) (groupId : Uuid)
    (offset : Option Int) :
    listGroupMembers (withHeartbeat db userId first) now viewer groupId offset =
      listGroupMembers (withHeartbeat db userId second) now viewer groupId offset := by
  have hsocial : ∀ lastSeenAt, (withHeartbeat db userId lastSeenAt).social = db.social :=
    fun _ => rfl
  simp only [listGroupMembers, hsocial]
  cases hoffset : validatedPageOffset offset with
  | error e => rfl
  | ok start =>
    cases hgroup : loadGroup db.social groupId with
    | error e => rfl
    | ok found =>
      refine congrArg (fun page => if viewer ∉ found.1.members then _ else page) ?_
      refine congrArg (fun rows => Except.ok (GroupMembersPage.mk rows _)) ?_
      refine List.map_congr_left fun row hrow => ?_
      -- a row of the page is a user's, with the columns that belong to its id
      have hmem := List.mem_of_mem_drop (List.mem_of_mem_take (List.mem_of_mem_take hrow))
      obtain ⟨entry, -, hentry⟩ :=
        List.mem_filterMap.mp ((List.perm_insertionSort _ _).mem_iff.mp hmem)
      obtain ⟨member, hmember, rfl⟩ := Option.map_eq_some_iff.mp hentry
      have hid : member.id = entry.1 := by
        obtain ⟨user, -, rfl⟩ := Option.map_eq_some_iff.mp hmember
        rfl
      dsimp only
      rw [visibleGroupMemberPresence_withHeartbeat second hne hoffline
        (by rw [hid]; exact hmember)]

/-- A stranger's profile tells nothing of the time of the heartbeat. -/
theorem profileResponse_stranger {user : UserRow} (hoffline : user.status = .offline)
    (firstSeen secondSeen : Option Timestamp) (incoming : Bool) :
    profileResponse now user firstSeen .none incoming =
      profileResponse now user secondSeen .none incoming := by
  unfold profileResponse
  rw [hoffline]
  cases incoming with
  | false => rfl
  | true =>
    have hsame : visiblePresence now user.id .offline firstSeen .incomingFriendRequest =
        visiblePresence now user.id .offline secondSeen .incomingFriendRequest :=
      visiblePresence_offline rfl _
    simp only [profilePresenceRelationship, if_true, Option.bind_some, hsame]

theorem getUserProfile_withHeartbeat (hne : viewer ≠ userId)
    (hoffline : (profileColumns db userId).status = .offline)
    (hstranger : areAcceptedFriends db.social viewer userId = false) (targetUserId : Uuid) :
    getUserProfile (withHeartbeat db userId first) now viewer targetUserId =
      getUserProfile (withHeartbeat db userId second) now viewer targetUserId := by
  have hsocial : ∀ lastSeenAt, (withHeartbeat db userId lastSeenAt).social = db.social :=
    fun _ => rfl
  have hrows : ∀ lastSeenAt, userRow (withHeartbeat db userId lastSeenAt) targetUserId =
    userRow db targetUserId := fun _ => rfl
  simp only [getUserProfile, hrows, hsocial]
  by_cases htarget : targetUserId = userId
  · subst htarget
    rw [if_neg hne, hstranger]
    cases hrow : userRow db targetUserId with
    | none => rfl
    | some user =>
      obtain ⟨account, -, rfl⟩ := Option.map_eq_some_iff.mp hrow
      exact congrArg Except.ok (profileResponse_stranger hoffline _ _ _)
  · rw [presence_withHeartbeat htarget, presence_withHeartbeat htarget]
    rfl

/-- A friend reads the heartbeat off the profile. -/
theorem getUserProfile_friend (now first : Timestamp) (hne : viewer ≠ userId)
    (huser : userId ∈ db.social.accounts.users)
    (hfriends : areAcceptedFriends db.social viewer userId = true) :
    ∃ profile, getUserProfile (withHeartbeat db userId first) now viewer userId = .ok profile ∧
      profile.lastSeenAt = some first := by
  obtain ⟨account, haccount⟩ := Option.isSome_iff_exists.mp (AList.lookup_isSome.mpr huser)
  have hseen : (withHeartbeat db userId first).presence.lookup userId = some first :=
    AList.lookup_insert ..
  have haccount' : (withHeartbeat db userId first).social.accounts.users.lookup userId =
    some account := haccount
  have hfriends' : areAcceptedFriends (withHeartbeat db userId first).social viewer userId =
    true := hfriends
  unfold getUserProfile
  rw [userRow, haccount', hfriends', hseen, if_neg hne]
  exact ⟨_, rfl, rfl⟩

end Heartbeats

section Exactness

variable {db : PeopleDatabase} {now : Timestamp} {viewer userId : Uuid}

theorem hidesActivity_iff (hne : viewer ≠ userId) (huser : userId ∈ db.social.accounts.users)
    (hoffline : (profileColumns db userId).status = .offline) :
    HidesActivity db now viewer userId ↔
      areAcceptedFriends db.social viewer userId = false := by
  constructor
  · intro hhides
    by_contra hfriends
    rw [Bool.not_eq_false] at hfriends
    obtain ⟨early, hearly, hseen⟩ :=
      getUserProfile_friend now 0 hne huser hfriends
    obtain ⟨late, hlate, hseen'⟩ :=
      getUserProfile_friend now 1 hne huser hfriends
    cases hearly.symm.trans ((hhides.profile 0 1 userId).trans hlate)
    cases hseen.symm.trans hseen'
  · intro hstranger
    exact
      { profile := fun first second => getUserProfile_withHeartbeat hne hoffline hstranger
        friends := fun first second => listFriends_withHeartbeat hoffline
        calls := fun first second => listIncomingCalls_withHeartbeat hoffline
        members := fun first second => listGroupMembers_withHeartbeat hne hoffline }

end Exactness

/-! ### Ada appears offline -/

def adaHides : List (Timestamp × Uuid × PeopleRequest) :=
  [(0, 1, .updateSelfProfile ⟨none, none, some .offline, none⟩)]

theorem adaHides_hidden : ∃ accounts ∈ adaAndBob,
    HidesActivity (runPeople plainHashing (emptyPeople accounts) adaHides) 1 2 1 := by
  obtain ⟨accounts, haccounts, huser, hoffline, hstranger⟩ : ∃ accounts ∈ adaAndBob,
      let db := runPeople plainHashing (emptyPeople accounts) adaHides
      1 ∈ db.social.accounts.users ∧ (profileColumns db 1).status = .offline ∧
        areAcceptedFriends db.social 2 1 = false := by
    decide +kernel
  exact ⟨accounts, haccounts, (hidesActivity_iff (by decide) huser hoffline).mpr hstranger⟩

/-- Bob, her friend, sees when she was last there. -/
theorem adaHides_seen : ∃ accounts ∈ adaAndBob,
    let db := runPeople plainHashing (emptyPeople accounts) (befriend ++ adaHides)
    1 ∈ db.social.accounts.users ∧ (profileColumns db 1).status = .offline ∧
      ¬ HidesActivity db 2 2 1 := by
  obtain ⟨accounts, haccounts, huser, hoffline, hseen⟩ : ∃ accounts ∈ adaAndBob,
      let db := runPeople plainHashing (emptyPeople accounts) (befriend ++ adaHides)
      1 ∈ db.social.accounts.users ∧ (profileColumns db 1).status = .offline ∧
        getUserProfile (withHeartbeat db 1 0) 2 2 1 ≠
          getUserProfile (withHeartbeat db 1 1) 2 2 1 := by
    decide +kernel
  exact ⟨accounts, haccounts, huser, hoffline, fun hhides => hseen (hhides.profile 0 1 1)⟩

end OpenMeet.AppearOffline
