import OpenMeet.BadgeNews
import OpenMeet.TransitionSystem

/-!
What a user learns about an account from the answers to friend requests. Two
runs of the same requests are compared, with the account and without it. An
unknown target gets the answer of a sent request, but the sent request leaves a
row behind, and the next request for the same account finds it.
-/
namespace OpenMeet.RequestProbing

open KeyedMap Text Messages Accounts SocialTables FriendApi SocialRequests BadgeNews
open TransitionSystem

/-- One request, with the ids the database gives to the rows it may add. -/
structure RequestCall where
  friendshipId : Uuid
  notificationId : Uuid
  request : CreateFriendRequest

/-- The account is not there. The tables no friend request looks at are left as they are. -/
def withoutAccount (db : SocialDatabase) (x : Uuid) : SocialDatabase :=
  { db with
    accounts := { db.accounts with
      users := db.accounts.users.retain fun id _ => id ≠ x
      user_role := by
        intro id user huser
        rw [Map.lookup_retain, Option.filter_eq_some_iff] at huser
        exact db.accounts.user_role id user huser.1 }
    friendships := db.friendships.retain fun _ row => row.requesterId ≠ x ∧ row.addresseeId ≠ x
    notifications := db.notifications.retain fun _ row => row.recipientId ≠ x ∧ row.actorId ≠ x }

section Calls

variable (userId : Uuid) (db : SocialDatabase)

def send (call : RequestCall) : Outcome Unit :=
  createFriendRequest db userId call.friendshipId call.notificationId call.request

/-- Requests of one user, with nobody else acting. -/
def requests : System SocialDatabase RequestCall where
  init := db
  step db call := some (send userId db call).db

def responses (calls : List RequestCall) : List (Except ApiError Unit) :=
  (requests userId db).outputs (fun db call => [(send userId db call).result]) db calls

/-- The answers are those of a database that does not have the account. -/
def Conceals (x : Uuid) (calls : List RequestCall) : Prop :=
  responses userId db calls = responses userId (withoutAccount db x) calls

/-- Somebody else whom the request is for, if there is such an account. -/
def targetOf (request : CreateFriendRequest) : Option Uuid :=
  let email := (request.email.map trim).filter fun email => !email.isEmpty
  match findTarget db request.userId email with
  | .ok target => target.filter (· ≠ userId)
  | .error _ => none

/-- A request for the account finds no earlier one and no limit; a new request for anybody else
meets a limit only if it would without the account too. -/
def Unrevealing (x : Uuid) (call : RequestCall) : Prop :=
  ∀ targetId ∈ targetOf userId db call.request,
    if targetId = x then
      findFriendship db userId x = none ∧ pendingLimitReached db userId x = false
    else
      findFriendship db userId targetId = none →
        pendingLimitReached db userId targetId =
          pendingLimitReached (withoutAccount db x) userId targetId

instance (x : Uuid) (call : RequestCall) : Decidable (Unrevealing userId db x call) :=
  Option.decidableForallMem (targetOf userId db call.request)

end Calls

/-- users.email is unique. -/
def UniqueEmails (accounts : Accounts.Database) : Prop :=
  ∀ id id' user user', accounts.users.lookup id = some user →
    accounts.users.lookup id' = some user' → user.email = user'.email → id = id'

theorem insertUser_uniqueEmails {accounts after : Accounts.Database} {id : Uuid} {user : User}
    (hunique : UniqueEmails accounts) (h : accounts.insertUser id user = some after) :
    UniqueEmails after := by
  unfold Accounts.Database.insertUser at h
  split at h
  · split at h
    · cases h
    · rename_i hnew
      cases h
      rw [not_or, not_exists] at hnew
      have hemail : ∀ id' user', accounts.users.lookup id' = some user' →
          user'.email ≠ user.email := by
        intro id' user' hlookup heq
        exact hnew.2 ⟨id', user'⟩ ⟨AList.mem_lookup_iff.mp hlookup, .inl heq⟩
      intro first second user₁ user₂ hfirst hsecond heq
      dsimp only at hfirst hsecond
      by_cases hfst : first = id
      · by_cases hsnd : second = id
        · exact hfst.trans hsnd.symm
        · rw [hfst, AList.lookup_insert] at hfirst
          rw [AList.lookup_insert_ne hsnd] at hsecond
          cases hfirst
          exact absurd heq.symm (hemail second user₂ hsecond)
      · rw [AList.lookup_insert_ne hfst] at hfirst
        by_cases hsnd : second = id
        · rw [hsnd, AList.lookup_insert] at hsecond
          cases hsecond
          exact absurd heq (hemail first user₁ hfirst)
        · rw [AList.lookup_insert_ne hsnd] at hsecond
          exact hunique first second user₁ user₂ hfirst hsecond heq
  · cases h

/-- The ids of the rows are new, and each is given out once. -/
structure NewIds (db : SocialDatabase) (calls : List RequestCall) : Prop where
  friendships : ∀ call ∈ calls, call.friendshipId ∉ db.friendships
  notifications : ∀ call ∈ calls, call.notificationId ∉ db.notifications
  distinct : calls.Pairwise fun call later =>
    call.friendshipId ≠ later.friendshipId ∧ call.notificationId ≠ later.notificationId

section Answers

variable {userId x targetId : Uuid} {db : SocialDatabase} {call : RequestCall}

theorem findTarget_withoutAccount (hunique : UniqueEmails db.accounts) (id : Option Uuid)
    (email : Option String) :
    findTarget (withoutAccount db x) id email =
      (findTarget db id email).map fun target => target.filter (· ≠ x) := by
  have hmem : ∀ id, id ∈ (withoutAccount db x).accounts.users ↔
      id ∈ db.accounts.users ∧ id ≠ x := by
    intro id
    simp only [← AList.lookup_isSome, withoutAccount, Map.lookup_retain]
    cases db.accounts.users.lookup id <;> simp [Option.filter]
  unfold findTarget
  cases id with
  | some id =>
    simp only [hmem, Except.map]
    by_cases hid : id ∈ db.accounts.users
    · by_cases hx : id = x
      · subst hx
        simp [hid, Option.filter]
      · simp [hid, hx, Option.filter]
    · simp [hid]
  | none =>
    cases email with
    | none => rfl
    | some email =>
      have hagree : ∀ a ∈ db.accounts.users.entries, ∀ b ∈ db.accounts.users.entries,
          decide (a.2.email = email) → decide (b.2.email = email) →
            decide (a.1 ≠ x) = decide (b.1 ≠ x) := by
        intro a ha b hb hfirst hsecond
        have hsame : a.1 = b.1 := hunique a.1 b.1 a.2 b.2 (AList.mem_lookup_iff.mpr ha)
          (AList.mem_lookup_iff.mpr hb)
          ((of_decide_eq_true hfirst).trans (of_decide_eq_true hsecond).symm)
        rw [hsame]
      simp only [withoutAccount, Except.map]
      rw [Map.find_retain hagree]
      cases db.accounts.users.entries.find? fun row => decide (row.2.email = email) with
      | none => rfl
      | some row => by_cases hx : row.1 = x <;> simp [Option.filter, hx]

theorem targetOf_withoutAccount (hunique : UniqueEmails db.accounts)
    (request : CreateFriendRequest) :
    targetOf userId (withoutAccount db x) request =
      (targetOf userId db request).filter (· ≠ x) := by
  unfold targetOf
  simp only [findTarget_withoutAccount hunique]
  cases findTarget db request.userId _ with
  | error e => rfl
  | ok target =>
    simp only [Except.map, Option.filter_filter]
    congr 1
    funext id
    exact Bool.and_comm _ _

theorem findFriendship_withoutAccount (huser : userId ≠ x) (htarget : targetId ≠ x) :
    findFriendship (withoutAccount db x) userId targetId = findFriendship db userId targetId := by
  have hkept : ∀ row ∈ db.friendships.entries,
      (row.2.requesterId = userId && row.2.addresseeId = targetId ||
        row.2.requesterId = targetId && row.2.addresseeId = userId) = true →
      decide (row.2.requesterId ≠ x ∧ row.2.addresseeId ≠ x) = true := by
    intro row _ hparties
    simp only [Bool.or_eq_true, Bool.and_eq_true, decide_eq_true_eq] at hparties ⊢
    rcases hparties with ⟨hfirst, hsecond⟩ | ⟨hfirst, hsecond⟩
    · exact ⟨hfirst ▸ huser, hsecond ▸ htarget⟩
    · exact ⟨hfirst ▸ htarget, hsecond ▸ huser⟩
  unfold findFriendship
  simp only [withoutAccount]
  rw [Map.find_retain fun a ha b hb hfirst hsecond =>
    (hkept a ha hfirst).trans (hkept b hb hsecond).symm]
  cases hfound : db.friendships.entries.find? _ with
  | none => rfl
  | some row =>
    have hparties := List.find?_some hfound
    have hrow := hkept row (List.mem_of_find?_eq_some hfound) hparties
    simp only [Option.filter, hrow, if_true]

/-- The rows a sent request leaves behind. -/
def addRequest (userId : Uuid) (db : SocialDatabase) (targetId : Uuid) (call : RequestCall) :
    SocialDatabase :=
  { db with
    friendships := db.friendships.insert call.friendshipId ⟨userId, targetId, .pending⟩
    notifications := db.notifications.insert call.notificationId
      ⟨targetId, userId, "friendRequest", false⟩ }

/-- What a request does once it has found whom it is for. -/
def requestTo (userId : Uuid) (db : SocialDatabase) (targetId : Uuid) (call : RequestCall) :
    Outcome Unit :=
  match findFriendship db userId targetId with
  | some existing =>
    if existing.status = .accepted then .refuse db ⟨409, "Already friends"⟩
    else .refuse db ⟨409, "Friend request already pending"⟩
  | none =>
    if call.friendshipId ∈ db.friendships ∨ call.notificationId ∈ db.notifications then
      .refuse db ⟨409, "Friend request already pending"⟩
    else if pendingLimitReached db userId targetId then
      .refuse db ⟨400, "Invalid friend request"⟩
    else
      { db := addRequest userId db targetId call
        published := [⟨[targetId], .notifications⟩, ⟨[userId, targetId], .friends⟩]
        result := .ok () }

theorem send_targeted (htarget : targetOf userId db call.request = some targetId) :
    send userId db call = requestTo userId db targetId call := by
  unfold targetOf at htarget
  unfold send createFriendRequest
  dsimp only at htarget ⊢
  cases hfound : findTarget db call.request.userId _ with
  | error e =>
    rw [hfound] at htarget
    cases htarget
  | ok target =>
    rw [hfound] at htarget
    dsimp only at htarget ⊢
    rw [htarget]
    rfl

/-- The answer to a request that finds nobody else. -/
def unknownAnswer (request : CreateFriendRequest) : Except ApiError Unit :=
  let email := (request.email.map trim).filter fun email => !email.isEmpty
  if request.userId = none ∧ email = none then .error ⟨400, "Email or user ID is required"⟩
  else .ok ()

theorem send_untargeted (htarget : targetOf userId db call.request = none) :
    (send userId db call).db = db ∧ (send userId db call).result = unknownAnswer call.request := by
  unfold targetOf findTarget at htarget
  unfold send createFriendRequest findTarget unknownAnswer
  dsimp only at htarget ⊢
  cases hid : call.request.userId with
  | some id =>
    rw [hid] at htarget
    dsimp only at htarget ⊢
    rw [htarget]
    simp
  | none =>
    rw [hid] at htarget
    cases hemail : (call.request.email.map trim).filter _ with
    | none => simp [Outcome.refuse]
    | some email =>
      rw [hemail] at htarget
      dsimp only at htarget ⊢
      rw [htarget]
      simp

theorem unknownAnswer_of_targeted (htarget : targetOf userId db call.request = some targetId) :
    unknownAnswer call.request = .ok () := by
  unfold targetOf findTarget at htarget
  unfold unknownAnswer
  dsimp only at htarget ⊢
  split
  · rename_i hnone
    rw [hnone.1, hnone.2] at htarget
    cases htarget
  · rfl

/-- A request for the account is answered as an unknown one exactly when it finds nothing, and
what it adds is the account's. -/
theorem requestTo_account (hfriendship : call.friendshipId ∉ db.friendships)
    (hnotification : call.notificationId ∉ db.notifications) :
    withoutAccount (requestTo userId db x call).db x = withoutAccount db x ∧
      ((requestTo userId db x call).result = .ok () ↔
        findFriendship db userId x = none ∧ pendingLimitReached db userId x = false) := by
  unfold requestTo
  cases findFriendship db userId x with
  | some existing =>
    dsimp only
    split <;> simp [Outcome.refuse]
  | none =>
    simp only [hfriendship, hnotification, or_self, if_false, true_and]
    cases pendingLimitReached db userId x with
    | true => simp [Outcome.refuse]
    | false =>
      have hrow := Map.retain_insert_of_dropped (p := fun _ (row : Friendship) =>
        decide (row.requesterId ≠ x ∧ row.addresseeId ≠ x)) (v := ⟨userId, x, .pending⟩)
        hfriendship (by simp)
      have hnotice := Map.retain_insert_of_dropped (p := fun _ (row : Notification) =>
        decide (row.recipientId ≠ x ∧ row.actorId ≠ x)) (v := ⟨x, userId, "friendRequest", false⟩)
        hnotification (by simp)
      refine ⟨?_, by simp⟩
      simp only [Bool.false_eq_true, if_false, addRequest, withoutAccount, hrow, hnotice]

/-- A request for somebody else is answered alike exactly when a new one meets the limit in both
or in neither, and then it leaves the same rows. -/
theorem requestTo_other (huser : userId ≠ x) (htarget : targetId ≠ x)
    (hfriendship : call.friendshipId ∉ db.friendships)
    (hnotification : call.notificationId ∉ db.notifications) :
    let here := requestTo userId db targetId call
    let there := requestTo userId (withoutAccount db x) targetId call
    (here.result = there.result ↔ (findFriendship db userId targetId = none →
      pendingLimitReached db userId targetId =
        pendingLimitReached (withoutAccount db x) userId targetId)) ∧
      (here.result = there.result → there.db = withoutAccount here.db x) := by
  have hfriendship' : call.friendshipId ∉ (withoutAccount db x).friendships := by
    intro hmem
    obtain ⟨row, hrow, -⟩ := Map.mem_retain.mp hmem
    exact hfriendship (AList.lookup_isSome.mp (by simp [hrow]))
  have hnotification' : call.notificationId ∉ (withoutAccount db x).notifications := by
    intro hmem
    obtain ⟨row, hrow, -⟩ := Map.mem_retain.mp hmem
    exact hnotification (AList.lookup_isSome.mp (by simp [hrow]))
  unfold requestTo
  dsimp only
  rw [findFriendship_withoutAccount huser htarget]
  cases findFriendship db userId targetId with
  | some existing =>
    dsimp only
    split <;> simp [Outcome.refuse]
  | none =>
    simp only [hfriendship, hnotification, hfriendship', hnotification', or_self, if_false,
      true_imp_iff]
    cases pendingLimitReached db userId targetId <;>
      cases pendingLimitReached (withoutAccount db x) userId targetId <;>
        simp [Outcome.refuse]
    have hrow := Map.retain_insert (p := fun _ (row : Friendship) =>
      decide (row.requesterId ≠ x ∧ row.addresseeId ≠ x)) (v := ⟨userId, targetId, .pending⟩)
      hfriendship (by simp [huser, htarget])
    have hnotice := Map.retain_insert (p := fun _ (row : Notification) =>
      decide (row.recipientId ≠ x ∧ row.actorId ≠ x))
      (v := ⟨targetId, userId, "friendRequest", false⟩) hnotification (by simp [huser, htarget])
    simp only [addRequest, withoutAccount, hrow, hnotice]

/-- One request answers alike exactly when it is unrevealing, and then the account's rows stay
the only difference. -/
theorem send_alike_iff (huser : userId ≠ x) (hunique : UniqueEmails db.accounts)
    (hfriendship : call.friendshipId ∉ db.friendships)
    (hnotification : call.notificationId ∉ db.notifications) :
    let here := send userId db call
    let there := send userId (withoutAccount db x) call
    (here.result = there.result ↔ Unrevealing userId db x call) ∧
      (here.result = there.result → there.db = withoutAccount here.db x) := by
  dsimp only
  have htarget := @targetOf_withoutAccount userId x db hunique call.request
  cases hfound : targetOf userId db call.request with
  | none =>
    obtain ⟨hdb, hresult⟩ := send_untargeted hfound
    obtain ⟨hdb', hresult'⟩ := send_untargeted (htarget.trans (by rw [hfound]; rfl))
    rw [hdb, hresult, hdb', hresult']
    simp [Unrevealing, hfound]
  | some targetId =>
    rw [send_targeted hfound]
    by_cases hx : targetId = x
    · subst hx
      obtain ⟨hdb, hresult⟩ := send_untargeted (htarget.trans (by rw [hfound]; simp))
      obtain ⟨hsame, hok⟩ := @requestTo_account userId targetId db call hfriendship hnotification
      rw [hdb, hresult, unknownAnswer_of_targeted hfound, hok, hsame]
      simp [Unrevealing, hfound]
    · have hthere : targetOf userId (withoutAccount db x) call.request = some targetId := by
        simp [htarget, hfound, hx]
      rw [send_targeted hthere]
      obtain ⟨halike, hsame⟩ := requestTo_other huser hx hfriendship hnotification
      refine ⟨halike.trans ?_, hsame⟩
      simp [Unrevealing, hfound, hx]

/-- What a request leaves unchanged: the accounts, and every id it does not give out. -/
theorem send_frame :
    (send userId db call).db.accounts = db.accounts ∧
      (∀ id ∈ (send userId db call).db.friendships, id ∈ db.friendships ∨ id = call.friendshipId) ∧
      ∀ id ∈ (send userId db call).db.notifications,
        id ∈ db.notifications ∨ id = call.notificationId := by
  cases hfound : targetOf userId db call.request with
  | none =>
    rw [(send_untargeted hfound).1]
    exact ⟨rfl, fun _ => .inl, fun _ => .inl⟩
  | some targetId =>
    have hkept : ∀ e : ApiError, (Outcome.refuse db e : Outcome Unit).db.accounts = db.accounts ∧
        (∀ id ∈ (Outcome.refuse db e : Outcome Unit).db.friendships,
          id ∈ db.friendships ∨ id = call.friendshipId) ∧
        ∀ id ∈ (Outcome.refuse db e : Outcome Unit).db.notifications,
          id ∈ db.notifications ∨ id = call.notificationId :=
      fun _ => ⟨rfl, fun _ => .inl, fun _ => .inl⟩
    rw [send_targeted hfound]
    unfold requestTo
    split
    · split <;> exact hkept _
    · split
      · exact hkept _
      · split
        · exact hkept _
        · refine ⟨rfl, ?_, ?_⟩ <;> intro id hid <;>
            exact (AList.mem_insert _).mp hid |>.symm

theorem send_newIds {calls : List RequestCall} (hids : NewIds db (call :: calls)) :
    NewIds (send userId db call).db calls := by
  obtain ⟨-, hfriendships, hnotifications⟩ := @send_frame userId db call
  have hdistinct := List.pairwise_cons.mp hids.distinct
  refine ⟨fun later hlater hmem => ?_, fun later hlater hmem => ?_, hdistinct.2⟩
  · rcases hfriendships _ hmem with hold | hsame
    · exact hids.friendships later (List.mem_cons_of_mem _ hlater) hold
    · exact (hdistinct.1 later hlater).1 hsame.symm
  · rcases hnotifications _ hmem with hold | hsame
    · exact hids.notifications later (List.mem_cons_of_mem _ hlater) hold
    · exact (hdistinct.1 later hlater).2 hsame.symm

end Answers

/-- The system a run starts from plays no part in how it goes on. -/
theorem outputs_alike_iff {userId x : Uuid} (huser : userId ≠ x) (here there : SocialDatabase)
    (calls : List RequestCall) {db : SocialDatabase} (hunique : UniqueEmails db.accounts)
    (hids : NewIds db calls) :
    let answer (s : SocialDatabase) (call : RequestCall) := [(send userId s call).result]
    (requests userId here).outputs answer db calls =
        (requests userId there).outputs answer (withoutAccount db x) calls ↔
      (requests userId here).Guarded (fun s call => Unrevealing userId s x call) db calls := by
  induction calls generalizing db with
  | nil => simp [System.outputs, System.Guarded]
  | cons call rest ih =>
    obtain ⟨halike, hsame⟩ := @send_alike_iff userId x db call huser hunique
      (hids.friendships call List.mem_cons_self) (hids.notifications call List.mem_cons_self)
    have hunique' : UniqueEmails (send userId db call).db.accounts := by
      rw [(@send_frame userId db call).1]
      exact hunique
    have hrest := ih hunique' (send_newIds hids)
    simp only [System.outputs, System.Guarded, requests, Option.elim_some, List.singleton_append,
      List.cons.injEq, Option.some.injEq, forall_eq'] at hrest ⊢
    constructor
    · rintro ⟨hfirst, htail⟩
      rw [hsame hfirst] at htail
      exact ⟨halike.mp hfirst, hrest.mp htail⟩
    · rintro ⟨hfirst, htail⟩
      have hanswer := halike.mpr hfirst
      rw [hsame hanswer]
      exact ⟨hanswer, hrest.mpr htail⟩

/-- Over a whole sequence of requests the account shows in no answer exactly when every request
of the sequence is unrevealing. -/
theorem conceals_iff {userId x : Uuid} {db : SocialDatabase} {calls : List RequestCall}
    (huser : userId ≠ x) (hunique : UniqueEmails db.accounts) (hids : NewIds db calls) :
    Conceals userId db x calls ↔
      (requests userId db).Guarded (fun s call => Unrevealing userId s x call) db calls :=
  outputs_alike_iff huser db (withoutAccount db x) calls hunique hids

theorem adaAndBob_uniqueEmails {accounts : Accounts.Database} (h : accounts ∈ adaAndBob) :
    UniqueEmails accounts := by
  obtain ⟨first, hfirst, hsecond⟩ := Option.bind_eq_some_iff.mp h
  refine insertUser_uniqueEmails (insertUser_uniqueEmails ?_ hfirst) hsecond
  intro id id' user user' hlookup
  simp [Accounts.Database.migrated] at hlookup

/-- Ada asks for Bob's email. -/
def askBob : RequestCall := ⟨10, 20, ⟨none, some "b@x"⟩⟩

def askBobAgain : RequestCall := ⟨11, 21, ⟨none, some "b@x"⟩⟩

def askNobody : RequestCall := ⟨12, 22, ⟨none, some "c@x"⟩⟩

theorem conceals_askOnce : ∃ accounts ∈ adaAndBob,
    Conceals 1 (emptyDatabase accounts) 2 [askNobody, askBob] := by
  obtain ⟨accounts, haccounts, hfirst, hsecond⟩ : ∃ accounts ∈ adaAndBob,
      Unrevealing 1 (emptyDatabase accounts) 2 askNobody ∧
        Unrevealing 1 (send 1 (emptyDatabase accounts) askNobody).db 2 askBob := by
    decide +kernel
  refine ⟨accounts, haccounts, (conceals_iff (by decide) (adaAndBob_uniqueEmails haccounts)
    ⟨?_, ?_, by decide⟩).mpr ⟨hfirst, ?_⟩⟩
  · simp [emptyDatabase]
  · simp [emptyDatabase]
  · rintro t ht
    cases ht
    exact ⟨hsecond, fun _ _ => trivial⟩

/-- The second request for the same email finds the row of the first. -/
theorem askTwice_reveals : ∃ accounts ∈ adaAndBob,
    findFriendship (emptyDatabase accounts) 1 2 = none ∧
      ¬ Conceals 1 (emptyDatabase accounts) 2 [askBob, askBobAgain] := by
  unfold Conceals
  decide +kernel

end OpenMeet.RequestProbing
