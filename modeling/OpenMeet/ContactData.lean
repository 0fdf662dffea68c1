import OpenMeet.BadgeNews
import OpenMeet.PeopleApi

/-!
What the endpoints say of a person to somebody else, and when it is no more than
friendship allows. The list of friends shows the email of whoever asks for a
friendship, and the list of calls shows a caller as a friend, although the
friendship may have ended while the call rings.
-/
namespace OpenMeet.ContactData

open KeyedMap Messages Accounts SocialTables ConversationApi SocialRequests BadgeNews Presence
  PeopleApi

/-- What a response says of a person. -/
structure Contact where
  id : Uuid
  email : String
  status : Option UserStatus
  isOnline : Bool
  deriving DecidableEq, Repr

namespace Contact

/-- A hidden status reads as offline in a profile. -/
def ofProfile (profile : UserProfile) : Contact where
  id := profile.id
  email := profile.email
  status := if profile.status = .offline then none else some profile.status
  isOnline := profile.isOnline

def ofSummary (summary : FriendSummary) : Contact :=
  ⟨summary.id, summary.email, summary.status, summary.isOnline⟩

def ofDiscovery (user : UserDiscoveryResponse) : Contact := ⟨user.id, "", none, false⟩

def ShowsEmail (contact : Contact) : Prop := contact.email ≠ ""

def ShowsPresence (contact : Contact) : Prop :=
  contact.status.isSome = true ∨ contact.isOnline = true

end Contact

inductive PeopleQuery
  | getUserProfile (targetUserId : Uuid)
  | listFriends
  | listIncomingCalls
  | searchUsers (precedes : String × String → String × String → Bool) (query : String)

section Property

variable (env : Environment) (db : PeopleDatabase) (now : Timestamp) (viewer : Uuid)

def contacts : PeopleQuery → List Contact
  | .getUserProfile targetUserId =>
    (PeopleApi.getUserProfile db now viewer targetUserId).toOption.toList.map .ofProfile
  | .listFriends =>
    let response := PeopleApi.listFriends db now viewer
    response.friends.map .ofSummary ++
      response.incomingRequests.map fun item => .ofSummary item.user
  | .listIncomingCalls =>
    (PeopleApi.listIncomingCalls db now viewer).filterMap fun call => call.caller.map .ofSummary
  | .searchUsers precedes query =>
    (PeopleApi.searchUsers db viewer env precedes query).toOption.toList.flatMap fun users =>
      users.map .ofDiscovery

/-- No response shows the other's email unless the two are friends, nor their presence unless they
are or the other asks to be. -/
def FollowsFriendship (other : Uuid) : Prop :=
  ∀ query, ∀ contact ∈ contacts env db now viewer query, contact.id = other →
    (contact.ShowsEmail → areAcceptedFriends db.social viewer other = true) ∧
    (contact.ShowsPresence → areAcceptedFriends db.social viewer other = true ∨
      hasIncomingFriendRequest db viewer other = true)

/-- One of the calls that ring for the viewer is from the other. -/
def CallsNow (other : Uuid) : Prop :=
  ∃ row ∈ incomingInvitations db now viewer, row.2.callerId = other

/-- The two are friends, or the other neither asks the viewer for a friendship nor rings them. An
asker without an email has none to show. -/
def MayBeListed (other : Uuid) : Prop :=
  areAcceptedFriends db.social viewer other = true ∨
    ∀ user ∈ db.social.accounts.users.lookup other,
      (hasIncomingFriendRequest db viewer other = true ∨ CallsNow db now viewer other →
        user.email = "") ∧
      (CallsNow db now viewer other → hasIncomingFriendRequest db viewer other = true)

end Property

section Responses

variable {env : Environment} {db : PeopleDatabase} {now : Timestamp} {viewer other : Uuid}

theorem hasIncomingFriendRequest_iff : hasIncomingFriendRequest db viewer other = true ↔
    ∃ row ∈ db.social.friendships.entries, row.2.status = .pending ∧
      row.2.requesterId = other ∧ row.2.addresseeId = viewer := by
  simp only [hasIncomingFriendRequest, List.any_eq_true, Bool.and_eq_true, decide_eq_true_eq,
    and_assoc]

/-- A summary shows the email, and the status wherever friends or askers are shown. -/
theorem summaryOf_some {id : Uuid} {relationship : Relationship} {summary : FriendSummary}
    (h : summaryOf db now id relationship = some summary) :
    summary.id = id ∧ ∃ user, db.social.accounts.users.lookup id = some user ∧
      summary.email = user.email := by
  obtain ⟨row, hrow, rfl⟩ := Option.map_eq_some_iff.mp h
  obtain ⟨user, huser, rfl⟩ := Option.map_eq_some_iff.mp hrow
  exact ⟨rfl, user, huser, rfl⟩

theorem exists_summaryOf (now : Timestamp) (relationship : Relationship) {id : Uuid} {user : User}
    (huser : db.social.accounts.users.lookup id = some user)
    (hshown : relationship.isFriend = true ∨ relationship.hasPendingFriendRequest = true) :
    ∃ summary, summaryOf db now id relationship = some summary ∧ summary.id = id ∧
      summary.email = user.email ∧ summary.status.isSome = true := by
  refine ⟨_, by rw [summaryOf, userRow, huser]; rfl, rfl, rfl, ?_⟩
  exact Option.isSome_map.trans (visiblePresence_isSome_iff.mpr (.inr (.inr hshown)))

theorem getUserProfile_id {targetUserId : Uuid} {profile : UserProfile}
    (h : getUserProfile db now viewer targetUserId = .ok profile) : profile.id = targetUserId := by
  unfold getUserProfile at h
  split at h
  · cases h
  · rename_i user hrow
    obtain ⟨found, -, rfl⟩ := Option.map_eq_some_iff.mp hrow
    cases h
    rfl

/-- A stranger's profile is public, and shows presence only if they ask for a friendship. -/
theorem getUserProfile_stranger {profile : UserProfile} (hne : viewer ≠ other)
    (hstranger : areAcceptedFriends db.social viewer other = false)
    (h : getUserProfile db now viewer other = .ok profile) :
    profile.email = "" ∧ ((Contact.ofProfile profile).ShowsPresence →
      hasIncomingFriendRequest db viewer other = true) := by
  unfold getUserProfile at h
  split at h
  · cases h
  · rename_i user hrow
    rw [if_neg hne, hstranger] at h
    cases h
    refine ⟨rfl, fun hshows => ?_⟩
    by_contra hnot
    rw [Bool.not_eq_true] at hnot
    simp [Contact.ShowsPresence, Contact.ofProfile, profileResponse, profilePresenceRelationship,
      hnot] at hshows

theorem mem_relationships {row : (_ : Uuid) × Friendship} :
    row ∈ relationships db viewer ↔ row ∈ db.social.friendships.entries ∧
      (row.2.requesterId = viewer ∨ row.2.addresseeId = viewer) := by
  rw [relationships, (orderByDesc_perm ..).mem_iff, List.mem_filter, Bool.or_eq_true,
    decide_eq_true_eq, decide_eq_true_eq]

/-- Whoever is in the list of friends is one. -/
theorem listed_friend {summary : FriendSummary} (h : summary ∈ (listFriends db now viewer).friends)
    (hother : summary.id = other) : areAcceptedFriends db.social viewer other = true := by
  obtain ⟨row, hrow, hsummary⟩ := List.mem_filterMap.mp h
  obtain ⟨haccepted, hmap⟩ := Option.ite_none_right_eq_some.mp hsummary
  obtain ⟨listed, hlisted, rfl⟩ := Option.map_eq_some_iff.mp hmap
  obtain ⟨hid, -⟩ := summaryOf_some hlisted
  obtain ⟨hmem, hparty⟩ := mem_relationships.mp hrow
  have hrelated : relatedId viewer row.2 = other := hid.symm.trans hother
  unfold areAcceptedFriends
  rw [List.any_eq_true]
  refine ⟨row, hmem, ?_⟩
  rw [Bool.and_eq_true, Bool.or_eq_true, Bool.and_eq_true, Bool.and_eq_true]
  simp only [decide_eq_true_eq]
  unfold relatedId at hrelated
  split at hrelated
  · rename_i hrequester
    exact ⟨haccepted, .inl ⟨hrequester, hrelated⟩⟩
  · rename_i hrequester
    exact ⟨haccepted, .inr ⟨hrelated, hparty.resolve_left hrequester⟩⟩

/-- Whoever is in the list of requests asks for a friendship. -/
theorem listed_asker {item : FriendRequestItem} (hne : viewer ≠ other)
    (h : item ∈ (listFriends db now viewer).incomingRequests) (hother : item.user.id = other) :
    hasIncomingFriendRequest db viewer other = true ∧
      ∃ user, db.social.accounts.users.lookup other = some user ∧ item.user.email = user.email := by
  obtain ⟨row, hrow, hitem⟩ := List.mem_filterMap.mp h
  obtain ⟨⟨hpending, haddressee⟩, hmap⟩ := Option.ite_none_right_eq_some.mp hitem
  obtain ⟨listed, hlisted, rfl⟩ := Option.map_eq_some_iff.mp hmap
  obtain ⟨hid, user, huser, hemail⟩ := summaryOf_some hlisted
  obtain ⟨hmem, -⟩ := mem_relationships.mp hrow
  have hrelated : relatedId viewer row.2 = other := hid.symm.trans hother
  rw [hrelated] at huser
  unfold relatedId at hrelated
  split at hrelated
  · exact absurd (haddressee.symm.trans hrelated) hne
  · refine ⟨hasIncomingFriendRequest_iff.mpr ⟨row, hmem, ?_, hrelated, haddressee⟩,
      user, huser, hemail⟩
    cases hstatus : row.2.status with
    | pending => rfl
    | accepted => exact absurd hstatus hpending

theorem asker_listed (env : Environment) (now : Timestamp) (hne : viewer ≠ other) {user : User}
    (huser : db.social.accounts.users.lookup other = some user)
    (h : hasIncomingFriendRequest db viewer other = true) :
    ∃ contact ∈ contacts env db now viewer .listFriends, contact.id = other ∧
      contact.email = user.email := by
  obtain ⟨row, hmem, hpending, hrequester, haddressee⟩ := hasIncomingFriendRequest_iff.mp h
  obtain ⟨summary, hsummary, hid, hemail, -⟩ := exists_summaryOf now
    .incomingFriendRequest huser (.inr rfl)
  have hrelated : relatedId viewer row.2 = other := by
    rw [relatedId, if_neg fun h => hne (h.symm.trans hrequester)]
    exact hrequester
  have hitem : (⟨row.1, { summary with friendshipId := some row.1 },
      (db.friendshipTimes.lookup row.1).elim 0 (·.createdAt)⟩ : FriendRequestItem) ∈
      (listFriends db now viewer).incomingRequests := by
    refine List.mem_filterMap.mpr ⟨row, mem_relationships.mpr ⟨hmem, .inr haddressee⟩, ?_⟩
    rw [if_pos ⟨by rw [hpending]; decide, haddressee⟩, hrelated, hsummary]
    rfl
  exact ⟨_, List.mem_append_right _ (List.mem_map_of_mem hitem), hid, hemail⟩

theorem caller_listed (env : Environment) {user : User}
    (huser : db.social.accounts.users.lookup other = some user)
    (h : CallsNow db now viewer other) :
    ∃ contact ∈ contacts env db now viewer .listIncomingCalls, contact.id = other ∧
      contact.email = user.email ∧ contact.ShowsPresence := by
  obtain ⟨row, hrow, hcaller⟩ := h
  obtain ⟨summary, hsummary, hid, hemail, hstatus⟩ := exists_summaryOf now .friend
    huser (.inl rfl)
  refine ⟨.ofSummary summary, List.mem_filterMap.mpr
    ⟨_, List.mem_map_of_mem hrow, ?_⟩, hid, hemail, .inl hstatus⟩
  dsimp only [callResponse]
  rw [hcaller, hsummary]
  rfl

end Responses

section Exactness

variable {env : Environment} {db : PeopleDatabase} {now : Timestamp} {viewer other : Uuid}

theorem mayBeListed_of_follows (hne : viewer ≠ other)
    (h : FollowsFriendship env db now viewer other) : MayBeListed db now viewer other := by
  by_cases hfriends : areAcceptedFriends db.social viewer other = true
  · exact .inl hfriends
  · refine .inr fun user huser => ?_
    constructor
    · rintro (hasks | hcalls)
      · obtain ⟨contact, hmem, hid, hemail⟩ :=
          asker_listed env now hne huser hasks
        by_contra hshown
        exact hfriends ((h _ contact hmem hid).1 fun hempty => hshown (hemail ▸ hempty))
      · obtain ⟨contact, hmem, hid, hemail, -⟩ := caller_listed env huser hcalls
        by_contra hshown
        exact hfriends ((h _ contact hmem hid).1 fun hempty => hshown (hemail ▸ hempty))
    · intro hcalls
      obtain ⟨contact, hmem, hid, -, hpresence⟩ := caller_listed env huser hcalls
      exact ((h _ contact hmem hid).2 hpresence).resolve_left hfriends

/-- Whoever rings is shown as a friend. -/
theorem listed_caller {response : CallInvitationResponse} {summary : FriendSummary}
    (h : response ∈ listIncomingCalls db now viewer) (hcaller : response.caller = some summary)
    (hother : summary.id = other) :
    CallsNow db now viewer other ∧
      ∃ user, db.social.accounts.users.lookup other = some user ∧ summary.email = user.email := by
  obtain ⟨row, hrow, rfl⟩ := List.mem_map.mp h
  obtain ⟨hid, user, huser, hemail⟩ := summaryOf_some hcaller
  have hsame : row.2.callerId = other := hid.symm.trans hother
  exact ⟨⟨row, hrow, hsame⟩, user, hsame ▸ huser, hemail⟩

theorem follows_of_mayBeListed (hne : viewer ≠ other)
    (h : MayBeListed db now viewer other) : FollowsFriendship env db now viewer other := by
  intro query contact hmem hid
  by_cases hfriends : areAcceptedFriends db.social viewer other = true
  · exact ⟨fun _ => hfriends, fun _ => .inl hfriends⟩
  · have hlisted := h.resolve_left hfriends
    cases query with
    | getUserProfile targetUserId =>
      obtain ⟨profile, hprofile, rfl⟩ := List.mem_map.mp hmem
      obtain hok := Option.mem_toList.mp hprofile
      cases hget : getUserProfile db now viewer targetUserId with
      | error e =>
        rw [hget] at hok
        cases hok
      | ok found =>
        rw [hget] at hok
        cases hok
        have htarget : targetUserId = other := (getUserProfile_id hget).symm.trans hid
        rw [htarget] at hget
        obtain ⟨hemail, hpresence⟩ :=
          getUserProfile_stranger hne ((Bool.not_eq_true _).mp hfriends) hget
        exact ⟨fun hshown => absurd hemail hshown, fun hshown => .inr (hpresence hshown)⟩
    | listFriends =>
      rcases List.mem_append.mp hmem with hfriend | hrequest
      · obtain ⟨summary, hsummary, rfl⟩ := List.mem_map.mp hfriend
        exact absurd (listed_friend hsummary hid) hfriends
      · obtain ⟨item, hitem, rfl⟩ := List.mem_map.mp hrequest
        obtain ⟨hasks, user, huser, hemail⟩ := listed_asker hne hitem hid
        exact ⟨fun hshown => absurd (hemail.trans ((hlisted user huser).1 (.inl hasks))) hshown,
          fun _ => .inr hasks⟩
    | listIncomingCalls =>
      obtain ⟨response, hresponse, hcontact⟩ := List.mem_filterMap.mp hmem
      obtain ⟨summary, hcaller, rfl⟩ := Option.map_eq_some_iff.mp hcontact
      obtain ⟨hcalls, user, huser, hemail⟩ := listed_caller hresponse hcaller hid
      exact ⟨fun hshown => absurd (hemail.trans ((hlisted user huser).1 (.inr hcalls))) hshown,
        fun _ => .inr ((hlisted user huser).2 hcalls)⟩
    | searchUsers precedes query =>
      obtain ⟨users, -, hfound⟩ := List.mem_flatMap.mp hmem
      obtain ⟨user, -, rfl⟩ := List.mem_map.mp hfound
      exact ⟨fun hshown => absurd rfl hshown, fun hshown => by
        rcases hshown with hstatus | honline
        · cases hstatus
        · cases honline⟩

theorem contactData_iff (hne : viewer ≠ other) :
    FollowsFriendship env db now viewer other ↔ MayBeListed db now viewer other :=
  ⟨mayBeListed_of_follows hne, follows_of_mayBeListed hne⟩

end Exactness

/-! ### Ada asks Bob -/

def emptyPeople (accounts : Accounts.Database) : PeopleDatabase :=
  ⟨emptyDatabase accounts, ∅, ∅, ∅, ∅⟩

def adaAsks : List (Timestamp × Uuid × PeopleRequest) :=
  [(0, 1, .sendFriendRequest 20 30 ⟨some 2, none⟩)]

def befriend : List (Timestamp × Uuid × PeopleRequest) :=
  adaAsks ++ [(1, 2, .answerFriendRequest 20)]

/-- Ada rings Bob and ends the friendship. -/
def ringAndEnd : List (Timestamp × Uuid × PeopleRequest) :=
  befriend ++ [(2, 1, .createCallInvitation 40 2 "ringing"), (3, 1, .endFriendship 20 31)]

theorem befriend_follows : ∃ accounts ∈ adaAndBob,
    FollowsFriendship plainHashing (runPeople plainHashing (emptyPeople accounts) befriend) 2 2
      1 := by
  obtain ⟨accounts, haccounts, hfriends⟩ : ∃ accounts ∈ adaAndBob,
      areAcceptedFriends (runPeople plainHashing (emptyPeople accounts) befriend).social 2 1 =
        true := by
    decide +kernel
  exact ⟨accounts, haccounts, (contactData_iff (by decide)).mpr (.inl hfriends)⟩

/-- Bob, who has not answered, sees Ada's email; and whether she is there, after the friendship,
while she rings. -/
theorem adaAsks_shown : ∃ accounts ∈ adaAndBob,
    ¬ FollowsFriendship plainHashing (runPeople plainHashing (emptyPeople accounts) adaAsks) 1 2
      1 ∧
    ¬ FollowsFriendship plainHashing (runPeople plainHashing (emptyPeople accounts) ringAndEnd) 4
      2 1 := by
  obtain ⟨accounts, haccounts, ⟨hstrangers, contact, hcontact, hid, hemail⟩,
      hended, hnotAsked, caller, hcaller, hcallerId, hstatus⟩ :
      ∃ accounts ∈ adaAndBob,
      (let db := runPeople plainHashing (emptyPeople accounts) adaAsks
       areAcceptedFriends db.social 2 1 = false ∧
         ∃ contact ∈ contacts plainHashing db 1 2 .listFriends, contact.id = 1 ∧
           contact.email ≠ "") ∧
      (let db := runPeople plainHashing (emptyPeople accounts) ringAndEnd
       areAcceptedFriends db.social 2 1 = false ∧ hasIncomingFriendRequest db 2 1 = false ∧
         ∃ contact ∈ contacts plainHashing db 4 2 .listIncomingCalls, contact.id = 1 ∧
           contact.status.isSome = true) := by
    decide +kernel
  refine ⟨accounts, haccounts, fun hfollows => ?_, fun hfollows => ?_⟩
  · have hfriends := (hfollows .listFriends contact hcontact hid).1 hemail
    rw [hstrangers] at hfriends
    cases hfriends
  · rcases (hfollows .listIncomingCalls caller hcaller hcallerId).2 (.inl hstatus) with
      hfriends | hasked
    · rw [hended] at hfriends
      cases hfriends
    · rw [hnotAsked] at hasked
      cases hasked

end OpenMeet.ContactData
