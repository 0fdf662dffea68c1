import OpenMeet.EndedMeetings
import OpenMeet.LikePatterns
import OpenMeet.Pages
import OpenMeet.PeopleApi
import OpenMeet.RoomPasswords

/-!
The lists of people one may add to a group or invite to a meeting room. Each
query states the friendship rule of the access policy over all users at once;
the admission of one person states it again for that person.
-/
namespace OpenMeet.CandidateLists

open KeyedMap Text Messages Accounts SocialTables ConversationApi PeopleApi LikePatterns Pages
open Urls
open EndedMeetings (isValidRoomId)
open SocialRequests (emptyDatabase)
open BadgeNews (plainHashing adaAndBob)

/-! ## Searching -/

def replaceChar (c : Char) (replacement text : List Char) : List Char :=
  text.flatMap fun d => if d = c then replacement else [d]

/-- Builds an ILIKE pattern that matches the query literally. -/
def userSearchPattern (query : String) : String :=
  String.ofList ('%' :: (replaceChar '_' ['\\', '_'] (replaceChar '%' ['\\', '%']
    (replaceChar '\\' ['\\', '\\'] query.toList)) ++ ['%']))

/-- The order of the database's collation. -/
structure Collation where
  le : String → String → Bool
  total : ∀ a b, le a b = true ∨ le b a = true
  trans : ∀ a b c, le a b = true → le b c = true → le a c = true

/-- Whether a name, a nickname or an email address matches the pattern. -/
def matchesPattern (env : Environment) (pattern : String) (user : User) : Bool :=
  ilike env.toLowercase pattern user.name || ilike env.toLowercase pattern user.email ||
    ilike env.toLowercase pattern user.nickname

theorem replaceChars_eq_escape (text : List Char) :
    replaceChar '_' ['\\', '_'] (replaceChar '%' ['\\', '%'] (replaceChar '\\' ['\\', '\\'] text)) =
      escape text := by
  induction text with
  | nil => rfl
  | cons c text ih =>
    simp only [replaceChar, escape, List.flatMap_cons, List.flatMap_append] at ih ⊢
    rw [ih]
    congr 1
    by_cases hbackslash : c = '\\'
    · subst hbackslash
      rfl
    · by_cases hpercent : c = '%'
      · subst hpercent
        rfl
      · by_cases hunderscore : c = '_'
        · subst hunderscore
          rfl
        · simp [special, hbackslash, hpercent, hunderscore]

/-- Where folding keeps the pattern's special characters apart, the query is looked for as it is. -/
theorem ilike_userSearchPattern {env : Environment} {query : String} (text : String)
    (hfold : env.toLowercase (userSearchPattern query) =
      userSearchPattern (env.toLowercase query)) :
    ilike env.toLowercase (userSearchPattern query) text = matchesQuery env query text := by
  apply Bool.eq_iff_iff.mpr
  rw [ilike, hfold, matchesQuery, decide_eq_true_eq]
  apply like_escape_iff
  rw [userSearchPattern, String.toList_ofList, replaceChars_eq_escape]

/-! ## Friendships in the queries -/

section Friendships

variable (db : SocialDatabase)

/-- An accepted friendship from one to the other, or from the other to the one. -/
def acceptedFriendship (first second : Uuid) : Bool :=
  db.friendships.entries.any fun row => row.2.status = .accepted &&
    (row.2.requesterId = first && row.2.addresseeId = second ||
      row.2.addresseeId = first && row.2.requesterId = second)

/-- viewer_friends and owner_friends -/
def friendsOf (userId : Uuid) : List Uuid :=
  (db.friendships.entries.filter fun row => row.2.status = .accepted &&
    (row.2.requesterId = userId || row.2.addresseeId = userId)).map fun row =>
      if row.2.requesterId = userId then row.2.addresseeId else row.2.requesterId

/-- Somebody's accepted friendship, one way or the other, with one of the people. -/
def linkedWith (userId : Uuid) (people : List Uuid) : Bool :=
  db.friendships.entries.any fun link => link.2.status = .accepted &&
    (link.2.requesterId = userId && people.contains link.2.addresseeId ||
      link.2.addresseeId = userId && people.contains link.2.requesterId)

end Friendships

/-! ## Candidates of a group -/

structure GroupCandidate where
  id : Uuid
  name : String
  nickname : String
  deriving DecidableEq

structure GroupCandidatesPage where
  results : List GroupCandidate
  nextOffset : Option ℕ
  deriving DecidableEq

section Groups

variable (env : Environment) (collation : Collation) (db : SocialDatabase) (userId : Uuid)

/-- The policy in the query; everybody passes where it asks for no friendship. -/
def groupPolicyAdmits (conversation : Conversation) (policy : GroupAccessPolicy)
    (candidateId : Uuid) : Bool :=
  match policy with
  | .friendsOfFriends =>
    conversation.members.keys.any fun memberId => acceptedFriendship db memberId candidateId
  | .friendsOnly =>
    !conversation.members.keys.any fun memberId => !acceptedFriendship db memberId candidateId
  | .open | .password => true

/-- ORDER BY candidate.name, candidate.email, candidate.id -/
def candidateBefore (a b : (_ : Uuid) × User) : Bool :=
  collation.le a.2.name b.2.name && (!collation.le b.2.name a.2.name ||
    collation.le a.2.email b.2.email && (!collation.le b.2.email a.2.email || a.1 ≤ b.1))

def groupCandidates (conversation : Conversation) (policy : GroupAccessPolicy) (query : String) :
    List ((_ : Uuid) × User) :=
  (db.accounts.users.entries.filter fun row => row.1 ≠ userId &&
    !conversation.members.keys.contains row.1 &&
    matchesPattern env (userSearchPattern query) row.2 &&
    groupPolicyAdmits db conversation policy row.1).insertionSort
      fun a b => candidateBefore collation a b = true

def groupCandidate (row : (_ : Uuid) × User) : GroupCandidate := ⟨row.1, row.2.name, row.2.nickname⟩

def listGroupCandidates (groupId : Uuid) (query : String) (offset : Option Int) :
    Except ApiError GroupCandidatesPage :=
  match validatedPageOffset offset with
  | .error e => .error e
  | .ok offset =>
    match validatedUserSearchQuery query with
    | none => .error ⟨400, "Query must be 2 to 80 characters"⟩
    | some query =>
      match requireGroupAdmin db groupId userId with
      | .error e => .error e
      | .ok (conversation, group, _) =>
        let rows := groupCandidates env collation db userId conversation group.accessPolicy query
        let page := offsetPage rows groupPageSize offset
        .ok ⟨page.1.map groupCandidate, page.2⟩

/-- What a reader of the pages gets at an offset. -/
def candidatesPage (groupId : Uuid) (query : String) (offset : ℕ) :
    List GroupCandidate × Option ℕ :=
  match listGroupCandidates env collation db userId groupId query (some offset) with
  | .ok page => (page.results, page.nextOffset)
  | .error _ => ([], none)

end Groups

/-! ## Candidates of a meeting room -/

def maxCandidates : ℕ := 20

structure InvitationCandidate where
  id : Uuid
  name : String
  nickname : String
  avatarUrl : Option String
  isFriend : Bool
  invited : Bool
  deriving DecidableEq

section Rooms

variable (env : Environment) (collation : Collation) (db : SocialDatabase)

/-- The host, or anybody in the meeting, may invite. -/
def ensureCanInvite (room : Option MeetingRoom) (roomId : RoomId) (userId : Uuid) :
    Except ApiError Unit :=
  if room.any (·.ownerId = userId) then .ok ()
  else
    let inMeeting := db.meetings.entries.any fun session =>
      session.2.sfuRoomId = roomId && session.2.endedAt.isNone &&
        session.2.participants.entries.any fun row =>
          row.2.leftAt.isNone && row.2.userId = some userId
    if inMeeting then .ok () else .error ⟨403, "Join the meeting to invite people"⟩

/-- A room without a row is open, and whoever invites stands for its host. -/
def policyAndOwner (room : Option MeetingRoom) (userId : Uuid) : GroupAccessPolicy × Uuid :=
  room.elim (.open, userId) fun room => (room.accessPolicy, room.ownerId)

/-- The policy in the query. -/
def roomPolicyAdmits (policy : GroupAccessPolicy) (ownerId candidateId : Uuid) : Bool :=
  match policy with
  | .friendsOnly => (friendsOf db ownerId).contains candidateId
  | .friendsOfFriends =>
    (friendsOf db ownerId).contains candidateId || linkedWith db candidateId (friendsOf db ownerId)
  | .open | .password => true

/-- Whether the policy's friendship rule admits the user. Open and password rooms admit everyone
here; the password is checked separately. -/
def isEligible (policy : GroupAccessPolicy) (ownerId userId : Uuid) : Bool :=
  match policy with
  | .open | .password => true
  | .friendsOnly =>
    db.friendships.entries.any fun row => row.2.status = .accepted &&
      (row.2.requesterId = ownerId && row.2.addresseeId = userId ||
        row.2.requesterId = userId && row.2.addresseeId = ownerId)
  | .friendsOfFriends =>
    (friendsOf db ownerId).contains userId || linkedWith db userId (friendsOf db ownerId)

/-- Without a search only the viewer's friends are listed; a search reaches everyone the policy
allows. -/
def invitationCandidates (policy : GroupAccessPolicy) (ownerId userId : Uuid)
    (pattern : Option String) : List ((_ : Uuid) × User) :=
  db.accounts.users.entries.filter fun row => row.1 ≠ userId && row.1 ≠ ownerId &&
    (pattern.elim ((friendsOf db userId).contains row.1) fun pattern =>
      matchesPattern env pattern row.2) &&
    roomPolicyAdmits db policy ownerId row.1

/-- Without a search there is no pattern. -/
def invitationPattern (query : String) : Except ApiError (Option String) :=
  let search := trim query
  if search = "" then .ok none
  else
    match validatedUserSearchQuery search with
    | none => .error ⟨400, "Query must be 2 to 80 characters"⟩
    | some search => .ok (some (userSearchPattern search))

def invitationCandidate (roomId : RoomId) (userId : Uuid) (row : (_ : Uuid) × User) :
    InvitationCandidate where
  id := row.1
  name := row.2.name
  nickname := row.2.nickname
  avatarUrl := row.2.avatarKey.map (userAvatarUrl row.1)
  isFriend := (friendsOf db userId).contains row.1
  invited := decide ((roomId, row.1) ∈ db.roomInvitations)

/-- ORDER BY is_friend DESC, name -/
def invitationBefore (a b : InvitationCandidate) : Bool :=
  (a.isFriend && !b.isFriend) || (a.isFriend = b.isFriend && collation.le a.name b.name)

def listInvitationCandidates (roomId : RoomId) (userId : Uuid) (query : String) :
    Except ApiError (List InvitationCandidate) :=
  if !isValidRoomId roomId then .error ⟨400, "Invalid room ID"⟩
  else
    let room := db.meetingRooms.lookup roomId
    match ensureCanInvite db room roomId userId with
    | .error e => .error e
    | .ok () =>
      (invitationPattern query).map fun pattern =>
        let (policy, ownerId) := policyAndOwner room userId
        let rows := (invitationCandidates env db policy ownerId userId pattern).map
          (invitationCandidate db roomId userId)
        (rows.insertionSort fun a b => invitationBefore collation a b = true).take maxCandidates

end Rooms

/-! ## The rules agree -/

section Rules

variable {db : SocialDatabase} {conversation : Conversation} {first second userId other : Uuid}

theorem acceptedFriendship_eq :
    acceptedFriendship db first second = areAcceptedFriends db second first := by
  unfold acceptedFriendship areAcceptedFriends
  congr 1
  funext row
  congr 1
  rw [Bool.or_comm, Bool.and_comm (decide (row.2.addresseeId = first))]

/-- The admission's own query asks for a friendship with one of the members. -/
theorem isFriendsWithAnyMember_eq_linkedWith (candidateId : Uuid) :
    isFriendsWithAnyMember db conversation candidateId =
      linkedWith db candidateId (conversation.members.keys.filter (· ≠ candidateId)) := by
  apply Bool.eq_iff_iff.mpr
  unfold isFriendsWithAnyMember linkedWith areAcceptedFriends
  simp only [List.any_eq_true, Bool.and_eq_true, Bool.or_eq_true, decide_eq_true_eq,
    List.contains_iff_mem, List.mem_filter]
  constructor
  · intro h
    obtain ⟨memberId, hmember, hne, row, hrow, hstatus, hparties⟩ := h
    refine ⟨row, hrow, hstatus, ?_⟩
    rcases hparties with ⟨hrequester, haddressee⟩ | ⟨hrequester, haddressee⟩
    · exact Or.inl ⟨hrequester, haddressee ▸ hmember, haddressee ▸ hne⟩
    · exact Or.inr ⟨haddressee, hrequester ▸ hmember, hrequester ▸ hne⟩
  · intro h
    obtain ⟨row, hrow, hstatus, hparties⟩ := h
    rcases hparties with ⟨hrequester, hmember, hne⟩ | ⟨haddressee, hmember, hne⟩
    · exact ⟨_, hmember, hne, row, hrow, hstatus, Or.inl ⟨hrequester, rfl⟩⟩
    · exact ⟨_, hmember, hne, row, hrow, hstatus, Or.inr ⟨rfl, haddressee⟩⟩

/-- For somebody outside the group the query and the admission ask for the same friendships. -/
theorem groupPolicyAdmits_iff {group : Group} {candidateId : Uuid}
    (hcandidate : candidateId ∉ conversation.members) :
    groupPolicyAdmits db conversation group.accessPolicy candidateId = true ↔
      (group.accessPolicy ≠ .password →
        authorizeAdminAddition db conversation group candidateId = .ok ()) := by
  have hne : ∀ memberId ∈ conversation.members.keys, memberId ≠ candidateId := by
    intro memberId hmember heq
    exact hcandidate (AList.mem_keys.mp (heq ▸ hmember))
  unfold groupPolicyAdmits authorizeAdminAddition
  cases group.accessPolicy with
  | «open» => simp
  | password => simp
  | friendsOnly =>
    have heq : isFriendsWithEveryMember db conversation candidateId =
        !conversation.members.keys.any fun memberId =>
          !acceptedFriendship db memberId candidateId := by
      unfold isFriendsWithEveryMember
      rw [List.not_any_eq_all_not, Bool.eq_iff_iff, List.all_eq_true, List.all_eq_true]
      apply forall₂_congr
      intro memberId hmember
      simp [hne memberId hmember, acceptedFriendship_eq]
    simp only [authorizeFriendshipPolicy, heq]
    split <;> simp_all
  | friendsOfFriends =>
    have heq : isFriendsWithAnyMember db conversation candidateId =
        conversation.members.keys.any fun memberId =>
          acceptedFriendship db memberId candidateId := by
      unfold isFriendsWithAnyMember
      rw [Bool.eq_iff_iff, List.any_eq_true, List.any_eq_true]
      apply exists_congr
      intro memberId
      apply and_congr_right
      intro hmember
      simp [hne memberId hmember, acceptedFriendship_eq]
    simp only [authorizeFriendshipPolicy, heq]
    split <;> simp_all

/-- Whose friend one is does not depend on who asked whom. -/
theorem mem_friendsOf : other ∈ friendsOf db userId ↔ ∃ row ∈ db.friendships.entries,
    row.2.status = .accepted ∧ (row.2.requesterId = userId ∧ row.2.addresseeId = other ∨
      row.2.requesterId = other ∧ row.2.addresseeId = userId) := by
  simp only [friendsOf, List.mem_map, List.mem_filter, Bool.and_eq_true, Bool.or_eq_true,
    decide_eq_true_eq]
  constructor
  · intro h
    obtain ⟨row, ⟨hrow, hstatus, hparty⟩, hother⟩ := h
    refine ⟨row, hrow, hstatus, ?_⟩
    split at hother
    · rename_i hrequester
      exact Or.inl ⟨hrequester, hother⟩
    · rename_i hrequester
      exact Or.inr ⟨hother, hparty.resolve_left hrequester⟩
  · intro h
    obtain ⟨row, hrow, hstatus, hparties⟩ := h
    rcases hparties with ⟨hrequester, haddressee⟩ | ⟨hrequester, haddressee⟩
    · refine ⟨row, ⟨hrow, hstatus, Or.inl hrequester⟩, ?_⟩
      rw [if_pos hrequester, haddressee]
    · refine ⟨row, ⟨hrow, hstatus, Or.inr haddressee⟩, ?_⟩
      split
      · rename_i hself
        rw [haddressee, ← hself, hrequester]
      · exact hrequester

/-- The query lets through whoever is eligible. -/
theorem roomPolicyAdmits_eq (policy : GroupAccessPolicy) (ownerId candidateId : Uuid) :
    roomPolicyAdmits db policy ownerId candidateId = isEligible db policy ownerId candidateId := by
  cases policy with
  | «open» | password | friendsOfFriends => rfl
  | friendsOnly =>
    apply Bool.eq_iff_iff.mpr
    simp [roomPolicyAdmits, isEligible, mem_friendsOf]

end Rules

/-! ## The pages of a group's candidates -/

section Pages

variable {env : Environment} {collation : Collation} {db : SocialDatabase} {userId : Uuid}
  {conversation : Conversation}

/-- Ties in the names and the addresses are broken by the id. -/
theorem candidateBefore_antisymm {a b : (_ : Uuid) × User}
    (hab : candidateBefore collation a b = true) (hba : candidateBefore collation b a = true) :
    a.1 = b.1 := by
  simp only [candidateBefore, Bool.and_eq_true, Bool.or_eq_true, Bool.not_eq_true',
    decide_eq_true_eq] at hab hba
  obtain ⟨hname, htie⟩ := hab
  obtain ⟨hname', htie'⟩ := hba
  obtain ⟨hemail, hid⟩ := htie.resolve_left (by simp [hname'])
  obtain ⟨hemail', hid'⟩ := htie'.resolve_left (by simp [hname])
  exact BitVec.le_antisymm (hid.resolve_left (by simp [hemail']))
    (hid'.resolve_left (by simp [hemail]))

theorem candidateBefore_total (a b : (_ : Uuid) × User) :
    candidateBefore collation a b = true ∨ candidateBefore collation b a = true := by
  have hname := collation.total a.2.name b.2.name
  have hemail := collation.total a.2.email b.2.email
  have hid : a.1 ≤ b.1 ∨ b.1 ≤ a.1 := BitVec.le_total a.1 b.1
  simp only [candidateBefore, Bool.and_eq_true, Bool.or_eq_true, Bool.not_eq_true',
    decide_eq_true_eq]
  grind

theorem candidateBefore_trans (a b c : (_ : Uuid) × User)
    (hab : candidateBefore collation a b = true) (hbc : candidateBefore collation b c = true) :
    candidateBefore collation a c = true := by
  have hname := collation.trans a.2.name b.2.name c.2.name
  have hname' := collation.trans c.2.name a.2.name b.2.name
  have hname'' := collation.trans b.2.name c.2.name a.2.name
  have hemail := collation.trans a.2.email b.2.email c.2.email
  have hemail' := collation.trans c.2.email a.2.email b.2.email
  have hemail'' := collation.trans b.2.email c.2.email a.2.email
  have hid : a.1 ≤ b.1 → b.1 ≤ c.1 → a.1 ≤ c.1 := BitVec.le_trans
  simp only [candidateBefore, Bool.and_eq_true, Bool.or_eq_true, Bool.not_eq_true',
    decide_eq_true_eq] at hab hbc ⊢
  grind

theorem mem_groupCandidates {policy : GroupAccessPolicy} {query : String}
    {row : (_ : Uuid) × User} :
    row ∈ groupCandidates env collation db userId conversation policy query ↔
      db.accounts.users.lookup row.1 = some row.2 ∧ row.1 ≠ userId ∧
        row.1 ∉ conversation.members ∧
        matchesPattern env (userSearchPattern query) row.2 = true ∧
        groupPolicyAdmits db conversation policy row.1 = true := by
  simp only [groupCandidates, List.mem_insertionSort, List.mem_filter, Bool.and_eq_true,
    Bool.not_eq_true', decide_eq_true_eq, List.contains_eq_mem, decide_eq_false_iff_not, and_assoc,
    AList.mem_keys]
  rw [← AList.mem_lookup_iff, Option.mem_def]

/-- No two rows tie, so every query cuts its page from the same list. -/
theorem eq_groupCandidates {policy : GroupAccessPolicy} {query : String}
    {rows : List ((_ : Uuid) × User)}
    (hrows : rows.Perm (groupCandidates env collation db userId conversation policy query))
    (hsorted : rows.Pairwise fun a b => candidateBefore collation a b = true) :
    rows = groupCandidates env collation db userId conversation policy query := by
  have : Std.Total fun a b : (_ : Uuid) × User => candidateBefore collation a b = true :=
    ⟨candidateBefore_total⟩
  have : IsTrans ((_ : Uuid) × User) fun a b => candidateBefore collation a b = true :=
    ⟨candidateBefore_trans⟩
  refine List.Perm.eq_of_pairwise ?_ hsorted (List.pairwise_insertionSort _ _) hrows
  intro a b ha hb hab hba
  have hid := candidateBefore_antisymm hab hba
  have hlookup := (mem_groupCandidates.mp (hrows.mem_iff.mp ha)).1
  have hlookup' := (mem_groupCandidates.mp hb).1
  rw [hid] at hlookup
  exact Sigma.ext hid (heq_of_eq (Option.some.inj (hlookup.symm.trans hlookup')))

/-- Somebody who matches the search and whom the admin could add, the password apart. -/
def Addable (env : Environment) (db : SocialDatabase) (userId : Uuid) (conversation : Conversation)
    (group : Group) (query : String) (id : Uuid) : Prop :=
  ∃ user, db.accounts.users.lookup id = some user ∧
    matchesPattern env (userSearchPattern query) user = true ∧ id ≠ userId ∧
    id ∉ conversation.members ∧
    (group.accessPolicy ≠ .password → authorizeAdminAddition db conversation group id = .ok ())

theorem mem_ids_groupCandidates (collation : Collation) {group : Group} {query : String}
    {id : Uuid} :
    id ∈ (groupCandidates env collation db userId conversation group.accessPolicy query).map
      (·.1) ↔ Addable env db userId conversation group query id := by
  rw [List.mem_map]
  constructor
  · intro h
    obtain ⟨row, hrow, rfl⟩ := h
    obtain ⟨hlookup, hne, hmember, hmatches, hpolicy⟩ := mem_groupCandidates.mp hrow
    exact ⟨row.2, hlookup, hmatches, hne, hmember, (groupPolicyAdmits_iff hmember).mp hpolicy⟩
  · intro h
    obtain ⟨user, hlookup, hmatches, hne, hmember, hpolicy⟩ := h
    exact ⟨⟨id, user⟩, mem_groupCandidates.mpr
      ⟨hlookup, hne, hmember, hmatches, (groupPolicyAdmits_iff hmember).mpr hpolicy⟩, rfl⟩

theorem nodup_groupCandidates {policy : GroupAccessPolicy} {query : String} :
    ((groupCandidates env collation db userId conversation policy query).map (·.1)).Nodup := by
  have hperm := (List.perm_insertionSort (fun a b => candidateBefore collation a b = true)
    (db.accounts.users.entries.filter fun row => row.1 ≠ userId &&
      !conversation.members.keys.contains row.1 &&
      matchesPattern env (userSearchPattern query) row.2 &&
      groupPolicyAdmits db conversation policy row.1)).map (·.1)
  apply hperm.nodup_iff.mpr
  exact db.accounts.users.nodupKeys.sublist List.filter_sublist

variable {groupId : Uuid} {group : Group} {role : MemberRole} {query search : String}

theorem listGroupCandidates_eq (hquery : validatedUserSearchQuery query = some search)
    (hadmin : requireGroupAdmin db groupId userId = .ok (conversation, group, role))
    (offset : Option Int) :
    listGroupCandidates env collation db userId groupId query offset =
      (validatedPageOffset offset).map fun offset =>
        let page := offsetPage
          (groupCandidates env collation db userId conversation group.accessPolicy search)
          groupPageSize offset
        ⟨page.1.map groupCandidate, page.2⟩ := by
  unfold listGroupCandidates
  rw [hquery, hadmin]
  cases validatedPageOffset offset <;> rfl

theorem listGroupCandidates_natCast (hquery : validatedUserSearchQuery query = some search)
    (hadmin : requireGroupAdmin db groupId userId = .ok (conversation, group, role))
    (offset : ℕ) :
    listGroupCandidates env collation db userId groupId query (some offset) = .ok
      ⟨(offsetPage (groupCandidates env collation db userId conversation group.accessPolicy search)
          groupPageSize offset).1.map groupCandidate,
        (offsetPage (groupCandidates env collation db userId conversation group.accessPolicy search)
          groupPageSize offset).2⟩ := by
  have hoffset : validatedPageOffset (some (offset : Int)) = .ok offset := by
    simp [validatedPageOffset]
  rw [listGroupCandidates_eq hquery hadmin, hoffset]
  rfl

theorem candidatesPage_eq (hquery : validatedUserSearchQuery query = some search)
    (hadmin : requireGroupAdmin db groupId userId = .ok (conversation, group, role))
    (offset : ℕ) :
    candidatesPage env collation db userId groupId query offset =
      ((offsetPage (groupCandidates env collation db userId conversation group.accessPolicy search)
          groupPageSize offset).1.map groupCandidate,
        (offsetPage (groupCandidates env collation db userId conversation group.accessPolicy search)
          groupPageSize offset).2) := by
  rw [candidatesPage, listGroupCandidates_natCast hquery hadmin]

end Pages

/-! ## The candidates of a room -/

section RoomCandidates

variable {env : Environment} {collation : Collation} {db : SocialDatabase} {roomId : RoomId}
  {userId : Uuid} {query : String} {pattern : Option String}

/-- Somebody else than the inviter and the host who passes the search, as the inviter's friends do
when there is none, and whom the policy of the room admits. -/
def Invitable (env : Environment) (db : SocialDatabase) (roomId : RoomId) (userId : Uuid)
    (pattern : Option String) (id : Uuid) : Prop :=
  let access := policyAndOwner (db.meetingRooms.lookup roomId) userId
  ∃ user, db.accounts.users.lookup id = some user ∧ id ≠ userId ∧ id ≠ access.2 ∧
    pattern.elim (id ∈ friendsOf db userId)
      (fun pattern => matchesPattern env pattern user = true) ∧
    isEligible db access.1 access.2 id = true

theorem mem_ids_invitationCandidates {id : Uuid} :
    id ∈ (invitationCandidates env db (policyAndOwner (db.meetingRooms.lookup roomId) userId).1
        (policyAndOwner (db.meetingRooms.lookup roomId) userId).2 userId pattern).map (·.1) ↔
      Invitable env db roomId userId pattern id := by
  have hsearch : ∀ user : User, (pattern.elim ((friendsOf db userId).contains id)
      fun pattern => matchesPattern env pattern user) = true ↔
        pattern.elim (id ∈ friendsOf db userId)
          fun pattern => matchesPattern env pattern user = true := by
    intro user
    cases pattern with
    | none => exact List.contains_iff_mem
    | some pattern => rfl
  simp only [invitationCandidates, List.mem_map, List.mem_filter, Bool.and_eq_true,
    decide_eq_true_eq, roomPolicyAdmits_eq, and_assoc]
  constructor
  · rintro ⟨⟨id', user⟩, hrow, hne, howner, hmatches, heligible, rfl⟩
    exact ⟨user, AList.mem_lookup_iff.mpr hrow, hne, howner, (hsearch user).mp hmatches, heligible⟩
  · rintro ⟨user, hlookup, hne, howner, hmatches, heligible⟩
    exact ⟨⟨id, user⟩, AList.mem_lookup_iff.mp hlookup, hne, howner, (hsearch user).mpr hmatches,
      heligible, rfl⟩

theorem listInvitationCandidates_ok {results : List InvitationCandidate}
    (hpattern : invitationPattern query = .ok pattern)
    (hok : listInvitationCandidates env collation db roomId userId query = .ok results) :
    results = (((invitationCandidates env db
        (policyAndOwner (db.meetingRooms.lookup roomId) userId).1
        (policyAndOwner (db.meetingRooms.lookup roomId) userId).2 userId pattern).map
      (invitationCandidate db roomId userId)).insertionSort
        fun a b => invitationBefore collation a b = true).take maxCandidates := by
  unfold listInvitationCandidates at hok
  split at hok
  · cases hok
  · dsimp only at hok
    split at hok
    · cases hok
    · rw [hpattern] at hok
      exact (Except.ok.inj hok).symm

/-- The rows are sorted and cut, so they are some of the people found, and all of them if there is
room for one more. -/
theorem ids_listInvitationCandidates {results : List InvitationCandidate}
    (hpattern : invitationPattern query = .ok pattern)
    (hok : listInvitationCandidates env collation db roomId userId query = .ok results) :
    (results.map (·.id)).Nodup ∧
      (∀ id ∈ results.map (·.id), Invitable env db roomId userId pattern id) ∧
      (results.length < maxCandidates →
        ∀ id, Invitable env db roomId userId pattern id → id ∈ results.map (·.id)) := by
  have hresults := listInvitationCandidates_ok hpattern hok
  set found := invitationCandidates env db
    (policyAndOwner (db.meetingRooms.lookup roomId) userId).1
    (policyAndOwner (db.meetingRooms.lookup roomId) userId).2 userId pattern with hfound
  set sorted := (found.map (invitationCandidate db roomId userId)).insertionSort
    fun a b => invitationBefore collation a b = true with hsorted
  have hperm : (sorted.map (·.id)).Perm (found.map (·.1)) := by
    have hids : (found.map (invitationCandidate db roomId userId)).map (·.id) =
        found.map (·.1) := by
      rw [List.map_map]
      rfl
    rw [← hids]
    exact (List.perm_insertionSort _ _).map _
  have hnodup : (found.map (·.1)).Nodup :=
    db.accounts.users.nodupKeys.sublist List.filter_sublist
  have hids : results.map (·.id) = (sorted.map (·.id)).take maxCandidates := by
    rw [hresults, List.map_take]
  refine ⟨?_, ?_, ?_⟩
  · rw [hids]
    exact (hperm.nodup_iff.mpr hnodup).sublist (List.take_sublist _ _)
  · intro id hid
    rw [hids] at hid
    exact mem_ids_invitationCandidates.mp (hperm.mem_iff.mp (List.mem_of_mem_take hid))
  · intro hlength id hid
    have hall : sorted.length ≤ maxCandidates := by
      rw [hresults, List.length_take] at hlength
      omega
    rw [hids, List.take_of_length_le (by rwa [List.length_map])]
    exact hperm.mem_iff.mpr (mem_ids_invitationCandidates.mpr hid)

end RoomCandidates

/-- Following the pages of a group's candidates lists everybody whom the admin could add once, and
no page lists anybody else. The candidates of a room pass the policy when they are eligible, and the
rows that are listed are people the inviter may invite, all of them unless the list is full. -/
theorem candidates_agree (env : Environment) (collation : Collation) (db : SocialDatabase) :
    (∀ userId groupId query search conversation group role,
      validatedUserSearchQuery query = some search →
      requireGroupAdmin db groupId userId = .ok (conversation, group, role) →
      (∃ pages, Follows (candidatesPage env collation db userId groupId query) 0 pages ∧
        (pages.flatten.map (·.id)).Nodup ∧
        ∀ id, id ∈ pages.flatten.map (·.id) ↔
          Addable env db userId conversation group search id) ∧
      ∀ id, (∃ offset page,
        listGroupCandidates env collation db userId groupId query offset = .ok page ∧
        id ∈ page.results.map (·.id)) ↔ Addable env db userId conversation group search id) ∧
    (∀ room userId candidateId,
      roomPolicyAdmits db (policyAndOwner room userId).1 (policyAndOwner room userId).2
          candidateId = true ↔
        isEligible db (policyAndOwner room userId).1 (policyAndOwner room userId).2
          candidateId = true) ∧
    ∀ roomId userId query pattern results, invitationPattern query = .ok pattern →
      listInvitationCandidates env collation db roomId userId query = .ok results →
      (results.map (·.id)).Nodup ∧
        (∀ id ∈ results.map (·.id), Invitable env db roomId userId pattern id) ∧
        (results.length < maxCandidates →
          ∀ id, Invitable env db roomId userId pattern id → id ∈ results.map (·.id)) := by
  refine ⟨?_, ?_, ?_⟩
  · intro userId groupId query search conversation group role hquery hadmin
    have hids : ∀ rows : List ((_ : Uuid) × User),
        (rows.map groupCandidate).map (·.id) = rows.map (·.1) := by
      intro rows
      rw [List.map_map]
      rfl
    constructor
    · obtain ⟨pages, hpages⟩ := exists_follows_offset
        (groupCandidates env collation db userId conversation group.accessPolicy search)
        groupPageSize (by decide) 0
      have hrows := flatten_of_follows_offset hpages
      rw [List.drop_zero] at hrows
      refine ⟨_, hpages.map (List.map groupCandidate) (candidatesPage_eq hquery hadmin), ?_, ?_⟩
      · rw [← List.map_flatten, hrows, hids]
        exact nodup_groupCandidates
      · intro id
        rw [← List.map_flatten, hrows, hids]
        exact mem_ids_groupCandidates collation
    · intro id
      rw [← mem_ids_groupCandidates collation, List.mem_map]
      constructor
      · intro h
        obtain ⟨offset, page, hpage, hid⟩ := h
        rw [listGroupCandidates_eq hquery hadmin] at hpage
        cases hoffset : validatedPageOffset offset with
        | error e =>
          rw [hoffset] at hpage
          cases hpage
        | ok n =>
          rw [hoffset] at hpage
          cases hpage
          rw [hids] at hid
          obtain ⟨row, hrow, heq⟩ := List.mem_map.mp hid
          exact ⟨row, mem_offsetPage hrow, heq⟩
      · intro h
        obtain ⟨row, hrow, heq⟩ := h
        have hsize : 0 < groupPageSize := by decide
        obtain ⟨n, hn⟩ := exists_mem_offsetPage hsize hrow
        refine ⟨some n, _, listGroupCandidates_natCast hquery hadmin n, ?_⟩
        rw [hids]
        exact List.mem_map.mpr ⟨row, hn, heq⟩
  · intro room userId candidateId
    rw [roomPolicyAdmits_eq]
  · intro roomId userId query pattern results hpattern hok
    exact ids_listInvitationCandidates hpattern hok

def codePoints : Collation where
  le a b := a ≤ b
  total a b := by simpa using String.le_total a b
  trans a b c hab hbc := by
    simp only [decide_eq_true_eq] at hab hbc ⊢
    exact String.le_trans hab hbc

/-- Ada's group is open to friends of its members, her meeting room to her friends, and Bob is a
friend of hers. -/
def friendlyGroup (accounts : Accounts.Database) : SocialDatabase :=
  { emptyDatabase accounts with
    conversations := (∅ : Map Uuid Conversation).insert 10
      { kind := .group ⟨"Friends", .friendsOfFriends, none, "code", none, none⟩
        creatorId := 1
        updatedAt := 0
        members := (∅ : Map Uuid ConversationMember).insert 1 ⟨.creator, 0⟩
        messages := ∅
        readStates := ∅
        hidden := ∅ }
    meetingRooms := (∅ : Map RoomId MeetingRoom).insert "r" ⟨"r", 1, .friendsOnly, none, by decide⟩
    friendships := (∅ : Map Uuid Friendship).insert 30 ⟨2, 1, .accepted⟩ }

theorem bob_listed : ∃ accounts ∈ adaAndBob, ∃ pages results,
    Follows (candidatesPage plainHashing codePoints (friendlyGroup accounts) 1 10 "bo") 0 pages ∧
      (2 : Uuid) ∈ pages.flatten.map (·.id) ∧
      listInvitationCandidates plainHashing codePoints (friendlyGroup accounts) "r" 1 "" =
        .ok results ∧ (2 : Uuid) ∈ results.map (·.id) := by
  obtain ⟨accounts, haccounts, hquery, hbob, hmatches, hfriend, hfew⟩ :
      ∃ accounts ∈ adaAndBob, validatedUserSearchQuery "bo" = some "bo" ∧
        accounts.users.lookup 2 = some ⟨"b@x", "Bob", "bob", "", "user", none⟩ ∧
        matchesPattern plainHashing (userSearchPattern "bo")
          ⟨"b@x", "Bob", "bob", "", "user", none⟩ = true ∧
        (2 : Uuid) ∈ friendsOf (friendlyGroup accounts) 1 ∧
        (listInvitationCandidates plainHashing codePoints (friendlyGroup accounts) "r" 1
          "").toOption.any (·.length < maxCandidates) = true := by
    decide +kernel
  obtain ⟨hgroups, -, hrooms⟩ :=
    candidates_agree plainHashing codePoints (friendlyGroup accounts)
  obtain ⟨pages, hpages, -, hids⟩ := (hgroups 1 10 "bo" "bo" _ _ _ hquery rfl).1
  obtain ⟨results, hlisted, hlength⟩ := (Option.any_eq_true ..).mp hfew
  have hresults : listInvitationCandidates plainHashing codePoints (friendlyGroup accounts) "r" 1
      "" = .ok results := by
    cases houtcome : listInvitationCandidates plainHashing codePoints (friendlyGroup accounts) "r" 1
        "" with
    | error e =>
      rw [houtcome] at hlisted
      cases hlisted
    | ok found =>
      rw [houtcome] at hlisted
      cases hlisted
      rfl
  obtain ⟨-, -, hall⟩ := hrooms "r" 1 "" none results rfl hresults
  refine ⟨accounts, haccounts, pages, results, hpages, (hids 2).mpr ?_, hresults,
    hall (of_decide_eq_true hlength) 2 ?_⟩
  · exact ⟨_, hbob, hmatches, by decide, by decide, fun _ => rfl⟩
  · refine ⟨_, hbob, by decide, (by decide : (2 : Uuid) ≠ 1), hfriend, ?_⟩
    rw [← roomPolicyAdmits_eq]
    exact List.contains_iff_mem.mpr hfriend

end OpenMeet.CandidateLists
