import OpenMeet.GroupOwnership

/-!
The title, the access policy and the password of a group. An update is checked
against what is committed when it arrives, hashes its password for a while, and
is checked again in its transaction, against the group's row that it has locked
by then. What it leaves out is taken from that row, so the fields have the
outcome of the committed updates one after the other.
-/
namespace OpenMeet.GroupPasswords

open KeyedMap TransitionSystem Text Messages Accounts SocialTables ConversationApi FriendApi
  SocialRequests BadgeNews ReadCommitted GroupTransactions GroupOwnership
open CallTransactions (handOver)

/-! ## Updates on their way -/

/-- An update of a group, or of its policy alone. -/
structure GroupUpdate where
  now : Timestamp
  userId : Uuid
  groupId : Uuid
  salt : String
  request : UpdateGroupRequest
  deriving DecidableEq

def policyUpdate (now : Timestamp) (userId groupId : Uuid) (salt : String)
    (policy : GroupAccessPolicy) (password : Option String) : GroupUpdate :=
  ⟨now, userId, groupId, salt, ⟨none, some policy, password⟩⟩

inductive GroupRequest
  | update (u : GroupUpdate)
  | other (stage : GroupStage)

/-- The checks of an update before its transaction, and the hash of its password. -/
def checkUpdate (env : Environment) (u : GroupUpdate) (db : SocialDatabase) :
    Except ApiError UpdateRequest :=
  if u.request.title.isNone ∧ u.request.accessPolicy.isNone ∧ u.request.password.isNone then
    .error ⟨400, "At least one group field must be provided"⟩
  else
    let passwordCheck := if u.request.password.isSome then
      validatePasswordForPolicy .password u.request.password else .ok ()
    match u.request.title.mapM validateGroupTitle, passwordCheck,
      requireGroupAdmin db u.groupId u.userId with
    | .error e, _, _ | .ok _, .error e, _ | .ok _, .ok _, .error e => .error e
    | .ok title, .ok (), .ok (_, group, _) =>
      match validateGroupUpdateRequest group.accessPolicy u.request.accessPolicy
          u.request.password.isSome, hashGroupPassword env u.salt u.request.password with
      | .error e, _ | .ok _, .error e => .error e
      | .ok _, .ok passwordHash =>
        .ok ⟨u.now, u.userId, u.groupId, title, u.request.accessPolicy, passwordHash⟩

/-- The request of update_group, when nothing comes between its check and its transaction. -/
theorem updateGroup_eq (env : Environment) (db : SocialDatabase) (u : GroupUpdate) :
    updateGroup env db u.now u.userId u.groupId u.salt u.request =
      match checkUpdate env u db with
      | .error e => Outcome.refuse db e
      | .ok r => writeGroup db r.now r.userId r.groupId r.title r.accessPolicy r.passwordHash := by
  unfold updateGroup checkUpdate
  split
  · rfl
  · dsimp only
    generalize u.request.title.mapM validateGroupTitle = title
    generalize (if u.request.password.isSome = true then
      validatePasswordForPolicy .password u.request.password else .ok ()) = passwordCheck
    cases title with
    | error e => rfl
    | ok title =>
      cases passwordCheck with
      | error e => rfl
      | ok checked =>
        cases requireGroupAdmin db u.groupId u.userId with
        | error e => rfl
        | ok row =>
          dsimp only
          generalize validateGroupUpdateRequest row.2.1.accessPolicy u.request.accessPolicy
            u.request.password.isSome = policy
          cases policy with
          | error e => rfl
          | ok policy =>
            cases hashGroupPassword env u.salt u.request.password with
            | error e => rfl
            | ok hash => rfl

def isUpdate : GroupStage → Bool
  | .update _ => true
  | _ => false

def prepare (env : Environment) : GroupRequest → SocialDatabase → Option GroupStage
  | .update u => fun db => (checkUpdate env u db).toOption.map .update
  | .other stage => fun _ => if isInitial stage && !isUpdate stage then some stage else none

/-- Every request on groups, updates with the check before their transaction. -/
def groupRequests (env : Environment) :
    Programs SocialDatabase (Prepared GroupRequest GroupStage) GroupLock :=
  (groupPrograms env).prepared (prepare env)

/-! ## The fields in force -/

/-- The title, the policy and the hash of the last password supplied since it became the password
policy. -/
structure GroupFields where
  title : String
  accessPolicy : GroupAccessPolicy
  passwordHash : Option String
  deriving DecidableEq, Repr

inductive GroupChange
  | created (r : CreationRequest)
  | updated (u : GroupUpdate)
  | deleted

def createdFields (env : Environment) (r : CreationRequest) : GroupFields where
  title := trim r.request.title
  accessPolicy := r.request.accessPolicy
  passwordHash := r.request.password.bind (env.hashPassword r.salt)

/-- What an update leaves out keeps its value; leaving the password policy forgets the password. -/
def GroupFields.next (env : Environment) (before : GroupFields) (u : GroupUpdate) : GroupFields :=
  let policy := u.request.accessPolicy.getD before.accessPolicy
  { title := (u.request.title.map trim).getD before.title
    accessPolicy := policy
    passwordHash :=
      if policy = .password then
        (u.request.password.bind (env.hashPassword u.salt)).or
          (if before.accessPolicy = .password then before.passwordHash else none)
      else none }

def applyChange (env : Environment) (fields : Uuid → Option GroupFields)
    (change : Uuid × GroupChange) : Uuid → Option GroupFields :=
  Function.update fields change.1
    (match change.2 with
    | .created r => some (createdFields env r)
    | .updated u => (fields change.1).map fun before => before.next env u
    | .deleted => none)

/-- The fields of a group after the changes, in the order they have committed. -/
def inForce (env : Environment) (changes : List (Uuid × GroupChange)) (groupId : Uuid) :
    Option GroupFields :=
  changes.foldl (applyChange env) (fun _ => none) groupId

/-- The change that a transaction commits. -/
def changeOf : Prepared GroupRequest GroupStage → List (Uuid × GroupChange)
  | .running _ (.created r _) => [(r.groupId, .created r)]
  | .running (.update u) (.updated _ _ _) => [(u.groupId, .updated u)]
  | .running _ (.deleted r) => [(r.groupId, .deleted)]
  | _ => []

def fieldsOf : ConversationKind → Option GroupFields
  | .group group => some ⟨group.title, group.accessPolicy, group.passwordHash⟩
  | .direct _ _ => none

/-- The fields of the groups as they are stored. -/
def storedFields (db : SocialDatabase) (groupId : Uuid) : Option GroupFields :=
  (db.conversations.lookup groupId).bind fun conversation => fieldsOf conversation.kind

/-- A group has a password hash exactly with the password policy. -/
def HashesMatch (db : SocialDatabase) : Prop :=
  ∀ groupId, ∀ fields ∈ storedFields db groupId,
    fields.accessPolicy = .password ↔ fields.passwordHash.isSome = true

/-! ## What a transaction knows of the fields -/

/-- What an update writes over the row it has locked. -/
def Updates (r : UpdateRequest) (before after : Group) : Prop :=
  ∃ policy,
    validateGroupUpdateRequest before.accessPolicy r.accessPolicy r.passwordHash.isSome =
      .ok policy ∧
    after = { before with
      title := r.title.getD before.title
      accessPolicy := policy
      passwordHash :=
        if policy = .password then r.passwordHash.or before.passwordHash else none }

/-- A new group has the fields of its request. -/
def Founds (env : Environment) (r : CreationRequest) (group : Group) : Prop :=
  fieldsOf (.group group) = some (createdFields env r) ∧
    (group.accessPolicy = .password ↔ group.passwordHash.isSome = true)

def KnowsGroup (env : Environment) (db : SocialDatabase) : GroupStage → Prop
  | .createChecked r group | .created r group => Founds env r group
  | .updateLocked r group =>
    ∃ conversation ∈ db.conversations.lookup r.groupId, conversation.kind = .group group
  | .updated r before after =>
    (∃ conversation ∈ db.conversations.lookup r.groupId, conversation.kind = .group before) ∧
      Updates r before after
  | _ => True

structure ReliesOn (env : Environment) (db : SocialDatabase)
    (tx : Transaction GroupStage GroupLock) : Prop where
  base : Relies db tx
  group : KnowsGroup env db tx.stage

section Statements

variable {env : Environment} {db : SocialDatabase} {current stage : GroupStage}
  {locks : Finset GroupLock}

theorem validateGroupTitle_ok {text title : String} (h : validateGroupTitle text = .ok title) :
    title = trim text := by
  unfold validateGroupTitle at h
  dsimp only at h
  split at h <;> cases h
  rfl

theorem hashGroupPassword_ok {salt : String} {password hash : Option String}
    (h : hashGroupPassword env salt password = .ok hash) :
    hash = password.bind (env.hashPassword salt) ∧ hash.isSome = password.isSome := by
  unfold hashGroupPassword at h
  split at h
  · cases h
    exact ⟨rfl, rfl⟩
  · rename_i text
    split at h
    · rename_i value hvalue
      cases h
      exact ⟨hvalue.symm, rfl⟩
    · cases h

/-- The policy is the requested one, and a password comes exactly where one is needed. -/
theorem validateGroupUpdateRequest_ok {held policy : GroupAccessPolicy}
    {requested : Option GroupAccessPolicy} {supplied : Bool}
    (h : validateGroupUpdateRequest held requested supplied = .ok policy) :
    policy = requested.getD held ∧
      (policy = .password → held = .password ∨ supplied = true) := by
  unfold validateGroupUpdateRequest at h
  dsimp only at h
  split at h
  · split at h
    · cases h
    · rename_i hpassword hneeded
      cases h
      refine ⟨rfl, fun _ => ?_⟩
      by_cases hheld : held = .password
      · exact Or.inl hheld
      · right
        simpa [hheld] using hneeded
  · rename_i hpassword
    split at h <;> cases h
    exact ⟨rfl, fun hpolicy => absurd hpolicy hpassword⟩

theorem validatePasswordForPolicy_ok {policy : GroupAccessPolicy} {password : Option String}
    (h : validatePasswordForPolicy policy password = .ok ()) :
    policy = .password ↔ password.isSome = true := by
  unfold validatePasswordForPolicy at h
  split at h
  · simp
  · cases h
  · rename_i hpolicy
    simpa using hpolicy
  · cases h

theorem createStatement_knows (hknows : KnowsGroup env db current)
    (h : createStatement env current db = some (stage, locks)) : KnowsGroup env db stage := by
  cases current with
  | create r =>
    simp only [createStatement] at h
    split at h
    · rename_i title members hash htitle hpassword _ hhash _
      cases h
      obtain ⟨hvalue, hsome⟩ := hashGroupPassword_ok hhash
      refine ⟨?_, ?_⟩
      · rw [fieldsOf, createdFields, validateGroupTitle_ok htitle, hvalue]
      · rw [hsome]
        exact validatePasswordForPolicy_ok hpassword
    · cases h
  | createChecked r group =>
    obtain ⟨-, heq⟩ := Option.ite_none_right_eq_some.mp h
    cases heq
    exact hknows
  | _ => cases h

theorem updateStatement_knows (hknows : KnowsGroup env db current)
    (h : updateStatement current db = some (stage, locks)) : KnowsGroup env db stage := by
  cases current with
  | update r =>
    obtain ⟨row, hrow, heq⟩ := Option.map_eq_some_iff.mp h
    cases heq
    obtain ⟨hlookup, hkind⟩ := loadGroupForUpdate_some hrow
    exact ⟨row.1, hlookup, hkind⟩
  | updateLocked r group =>
    obtain ⟨conversation, hlookup, hadmin⟩ := Option.bind_eq_some_iff.mp h
    obtain ⟨-, hpolicy⟩ := Option.ite_none_right_eq_some.mp hadmin
    obtain ⟨policy, hvalid, heq⟩ := Option.map_eq_some_iff.mp hpolicy
    cases heq
    refine ⟨hknows, policy, ?_, rfl⟩
    revert hvalid
    cases validateGroupUpdateRequest group.accessPolicy r.accessPolicy r.passwordHash.isSome with
    | error e => exact nofun
    | ok other =>
      intro hvalid
      cases hvalid
      rfl
  | delete r =>
    obtain ⟨row, -, heq⟩ := Option.map_eq_some_iff.mp h
    cases heq
    trivial
  | deleteLocked r =>
    obtain ⟨conversation, -, hadmin⟩ := Option.bind_eq_some_iff.mp h
    obtain ⟨-, heq⟩ := Option.ite_none_right_eq_some.mp hadmin
    cases heq
    trivial
  | _ => cases h

/-- What is neither a creation nor an update knows nothing of the fields. -/
def isOther : GroupStage → Bool
  | .createChecked _ _ | .created _ _ | .update _ | .updateLocked _ _ | .updated _ _ _ => false
  | _ => true

theorem knowsGroup_of_isOther (h : isOther stage = true) : KnowsGroup env db stage := by
  revert h
  cases stage <;> simp [isOther, KnowsGroup]

theorem admissionStatement_other
    (h : admissionStatement env current db = some (stage, locks)) : isOther stage = true := by
  unfold admissionStatement at h
  split at h
  all_goals grind [Option.map_eq_some_iff, Option.bind_eq_some_iff, isOther]

theorem departStatement_other
    (h : departStatement current db = some (stage, locks)) : isOther stage = true := by
  unfold departStatement at h
  split at h
  all_goals grind [Option.map_eq_some_iff, Option.bind_eq_some_iff, isOther]

theorem roleStatement_other
    (h : roleStatement current db = some (stage, locks)) : isOther stage = true := by
  unfold roleStatement at h
  split at h
  all_goals grind [Option.map_eq_some_iff, Option.bind_eq_some_iff, isOther]

theorem inviteStatement_other
    (h : inviteStatement current db = some (stage, locks)) : isOther stage = true := by
  unfold inviteStatement at h
  split at h
  all_goals grind [Option.map_eq_some_iff, Option.bind_eq_some_iff, isOther]

theorem friendStatement_other
    (h : friendStatement current db = some (stage, locks)) : isOther stage = true := by
  unfold friendStatement at h
  split at h
  all_goals grind [Option.map_eq_some_iff, Option.bind_eq_some_iff, isOther]

/-- A statement creates, updates, or has nothing to do with the fields. -/
theorem groupStatement_cases (h : groupStatement env current db = some (stage, locks)) :
    createStatement env current db = some (stage, locks) ∨
      updateStatement current db = some (stage, locks) ∨ isOther stage = true := by
  unfold groupStatement at h
  cases current with
  | create | createChecked | created => exact Or.inl h
  | update | updateLocked | updated | delete | deleteLocked | deleted => exact Or.inr (Or.inl h)
  | joinByCode | acceptInvitation | admission | admissionLocked | admissionNew
  | admissionMembers | admissionGranted | admitted =>
    exact Or.inr (Or.inr (admissionStatement_other h))
  | depart | departLocked | departHanded | departed =>
    exact Or.inr (Or.inr (departStatement_other h))
  | changeRole | roleLocked | roleChanged => exact Or.inr (Or.inr (roleStatement_other h))
  | invite | inviteLocked | invited => exact Or.inr (Or.inr (inviteStatement_other h))
  | friends | friended => exact Or.inr (Or.inr (friendStatement_other h))

theorem groupStatement_knows (hknows : KnowsGroup env db current)
    (h : groupStatement env current db = some (stage, locks)) : KnowsGroup env db stage := by
  rcases groupStatement_cases h with hcreate | hupdate | hother
  · exact createStatement_knows hknows hcreate
  · exact updateStatement_knows hknows hupdate
  · exact knowsGroup_of_isOther hother

/-- Until it is about to commit a transaction has written nothing, but for the new owner of a group
whose creator leaves. -/
theorem groupEffect_eq (hstatement : groupStatement env current (groupEffect current db) =
    some (stage, locks)) : groupEffect current db = db ∨ isOther stage = true := by
  cases current with
  | departHanded r successor =>
    have hdepart : departStatement (.departHanded r successor) (handOver db r.groupId successor) =
        some (stage, locks) := hstatement
    exact Or.inr (departStatement_other hdepart)
  | created | admitted | departed | roleChanged | updated | invited | deleted | friended =>
    cases hstatement
  | _ => exact Or.inl rfl

theorem groupStatement_ran (hknows : KnowsGroup env db current)
    (h : groupStatement env current (groupEffect current db) = some (stage, locks)) :
    KnowsGroup env db stage := by
  rcases groupEffect_eq h with hdb | hother
  · rw [hdb] at h
    exact groupStatement_knows hknows h
  · exact knowsGroup_of_isOther hother

theorem knowsGroup_begun (h : isInitial stage = true) : KnowsGroup env db stage := by
  revert h
  cases stage <;> simp [isInitial, KnowsGroup]

/-- Whoever has other rows locked leaves the group's fields alone. -/
theorem knowsGroup_kept {tx other : Transaction GroupStage GroupLock}
    (hknows : KnowsGroup env db tx.stage) (hrelies : Relies db tx) (hother : Relies db other)
    (hdisjoint : Disjoint tx.locks other.locks) :
    KnowsGroup env (groupEffect other.stage db) tx.stage := by
  have hlookup : ∀ groupId, lockedGroup tx.stage = some groupId →
      (groupEffect other.stage db).conversations.lookup groupId =
        db.conversations.lookup groupId := by
    intro groupId hgroup
    apply groupEffect_lookup
    intro h
    exact Finset.disjoint_left.mp hdisjoint (hrelies.locked groupId hgroup).1
      (hother.locked groupId h).1
  obtain ⟨current, held⟩ := tx
  cases current with
  | updateLocked r group =>
    rw [KnowsGroup, hlookup r.groupId rfl]
    exact hknows
  | updated r before after =>
    rw [KnowsGroup, hlookup r.groupId rfl]
    exact hknows
  | _ => exact hknows

theorem groupPrograms_reliesOn (env : Environment) :
    Stable (groupPrograms env) GroupsOwned (ReliesOn env) where
  begun _ _ _ hinitial := ⟨relies_begun hinitial, knowsGroup_begun hinitial⟩
  ran _ _ _ _ _ hrelies hstatement :=
    ⟨groupStatement_relies hrelies.base hstatement, groupStatement_ran hrelies.group hstatement⟩
  committed db tx howned hrelies hfinished :=
    (groupPrograms_stable env).committed db tx howned hrelies.base hfinished
  kept _ _ _ _ hrelies hother hdisjoint _ :=
    ⟨relies_kept hrelies.base hother.base hdisjoint,
      knowsGroup_kept hrelies.group hrelies.base hother.base hdisjoint⟩

end Statements

/-! ## What a request has prepared -/

/-- The transaction of an update has the request's fields, with the password hashed. -/
structure Prepares (env : Environment) (u : GroupUpdate) (r : UpdateRequest) : Prop where
  groupId : r.groupId = u.groupId
  title : r.title = u.request.title.map trim
  accessPolicy : r.accessPolicy = u.request.accessPolicy
  passwordHash : r.passwordHash = u.request.password.bind (env.hashPassword u.salt)

def updateOf : GroupStage → Option UpdateRequest
  | .update r | .updateLocked r _ | .updated r _ _ => some r
  | _ => none

/-- A stage on the way of a request. -/
def OnTheWay (env : Environment) : GroupRequest → GroupStage → Prop
  | .update u => fun stage => ∃ r, updateOf stage = some r ∧ Prepares env u r
  | .other _ => fun stage => updateOf stage = none

section Requests

variable {env : Environment} {db : SocialDatabase} {current stage : GroupStage}
  {locks : Finset GroupLock}

theorem titles_ok {title : Option String} {valid : Option String}
    (h : title.mapM validateGroupTitle = .ok valid) : valid = title.map trim := by
  cases title with
  | none =>
    cases h
    rfl
  | some text =>
    simp only [Option.mapM_some] at h
    cases hvalid : validateGroupTitle text with
    | error e => simp [hvalid] at h
    | ok other =>
      simp only [hvalid] at h
      cases h
      rw [validateGroupTitle_ok hvalid]
      rfl

theorem checkUpdate_ok {u : GroupUpdate} {r : UpdateRequest}
    (h : checkUpdate env u db = .ok r) : Prepares env u r := by
  unfold checkUpdate at h
  split at h
  · cases h
  · dsimp only at h
    split at h
    · cases h
    · cases h
    · cases h
    · rename_i title _ _ _ _ htitle _ _
      split at h
      · cases h
      · cases h
      · rename_i hash _ hhash
        cases h
        exact ⟨rfl, titles_ok htitle, rfl, (hashGroupPassword_ok hhash).1⟩

theorem updateOf_of_isOther (h : isOther stage = true) : updateOf stage = none := by
  revert h
  cases stage <;> simp [isOther, updateOf]

theorem createStatement_updateOf (h : createStatement env current db = some (stage, locks)) :
    updateOf stage = none := by
  cases current with
  | create r =>
    simp only [createStatement] at h
    split at h <;> cases h
    rfl
  | createChecked r group =>
    obtain ⟨-, heq⟩ := Option.ite_none_right_eq_some.mp h
    cases heq
    rfl
  | _ => cases h

theorem updateStatement_updateOf (h : updateStatement current db = some (stage, locks)) :
    updateOf stage = updateOf current := by
  unfold updateStatement at h
  split at h
  all_goals grind [Option.map_eq_some_iff, Option.bind_eq_some_iff, updateOf]

/-- A statement stays with the update it belongs to. -/
theorem groupStatement_updateOf (h : groupStatement env current db = some (stage, locks)) :
    updateOf stage = updateOf current := by
  have hcases := groupStatement_cases h
  unfold groupStatement at h
  cases current with
  | create | createChecked | created => exact createStatement_updateOf h
  | update | updateLocked | updated | delete | deleteLocked | deleted =>
    exact updateStatement_updateOf h
  | _ =>
    rcases hcases with hcreate | hupdate | hother
    · cases hcreate
    · cases hupdate
    · exact updateOf_of_isOther hother

theorem prepare_onTheWay {request : GroupRequest} (h : prepare env request db = some stage) :
    isInitial stage = true ∧ OnTheWay env request stage := by
  cases request with
  | update u =>
    obtain ⟨r, hr, rfl⟩ := Option.map_eq_some_iff.mp h
    cases hcheck : checkUpdate env u db with
    | error e =>
      rw [hcheck] at hr
      cases hr
    | ok checked =>
      rw [hcheck] at hr
      cases hr
      exact ⟨rfl, r, rfl, checkUpdate_ok hcheck⟩
  | other started =>
    obtain ⟨hinitial, heq⟩ := Option.ite_none_right_eq_some.mp h
    cases heq
    obtain ⟨hinitial, hupdate⟩ := Bool.and_eq_true_iff.mp hinitial
    refine ⟨hinitial, ?_⟩
    revert hinitial hupdate
    cases stage <;> simp [isInitial, isUpdate, OnTheWay, updateOf]

theorem onTheWay_statement {request : GroupRequest} (hway : OnTheWay env request current)
    (h : groupStatement env current db = some (stage, locks)) : OnTheWay env request stage := by
  have hsame := groupStatement_updateOf h
  cases request with
  | update u =>
    obtain ⟨r, hr, hprepares⟩ := hway
    exact ⟨r, hsame.trans hr, hprepares⟩
  | other started => exact hsame.trans hway

theorem groupRequests_stable (env : Environment) :
    Stable (groupRequests env) GroupsOwned (PreparedJ (ReliesOn env) (OnTheWay env)) :=
  (groupPrograms_reliesOn env).prepared (fun _ _ _ => prepare_onTheWay)
    fun _ _ _ _ _ => onTheWay_statement

end Requests

/-! ## What a commit does to the fields -/

section Commits

variable {env : Environment} {db : SocialDatabase}

theorem storedFields_insert (id : Uuid) (conversation : Conversation) :
    storedFields (insertConversation db id conversation) =
      Function.update (storedFields db) id (fieldsOf conversation.kind) := by
  funext other
  by_cases hother : other = id
  · subst hother
    simp [storedFields, insertConversation]
  · simp [storedFields, insertConversation, hother]

theorem storedFields_delete (id : Uuid) :
    storedFields (deleteConversation db id) = Function.update (storedFields db) id none := by
  funext other
  by_cases hother : other = id
  · subst hother
    simp [storedFields, deleteConversation]
  · simp [storedFields, deleteConversation, hother]

theorem storedFields_modify (id : Uuid) {f : Conversation → Conversation}
    (hkind : ∀ conversation, (f conversation).kind = conversation.kind) :
    storedFields (modifyConversation db id f) = storedFields db := by
  funext other
  simp only [storedFields, lookup_modifyConversation]
  split
  · rw [Option.bind_map]
    simp only [Function.comp_def, hkind]
  · rfl

theorem storedFields_congr {after : SocialDatabase} (h : after.conversations = db.conversations) :
    storedFields after = storedFields db := by
  funext groupId
  rw [storedFields, storedFields, h]

theorem storedFields_handOver (groupId : Uuid) (successor : Option Uuid) :
    storedFields (handOver db groupId successor) = storedFields db := by
  cases successor with
  | none => rfl
  | some successor => exact storedFields_modify groupId fun _ => rfl

theorem storedFields_admitMember (r : AdmissionRequest) (isMember : Bool) :
    storedFields (admitMember db r isMember) = storedFields db := by
  have hconversations := admitMember_conversations db r isMember
  cases isMember with
  | true => exact storedFields_congr hconversations
  | false =>
    have hadded : storedFields (addMember db r.now r.groupId r.memberId) = storedFields db :=
      storedFields_modify r.groupId fun _ => rfl
    exact (storedFields_congr hconversations).trans hadded

theorem storedFields_removeMember (now : Timestamp) (groupId memberId : Uuid) :
    storedFields (removeMember db now groupId memberId) = storedFields db := by
  have hmodified : storedFields (modifyConversation db groupId fun conversation =>
      { conversation with members := conversation.members.erase memberId, updatedAt := now }) =
        storedFields db := storedFields_modify groupId fun _ => rfl
  exact (storedFields_congr rfl).trans hmodified

theorem storedFields_of_lookup {groupId : Uuid} {conversation : Conversation} {group : Group}
    (hlookup : db.conversations.lookup groupId = some conversation)
    (hkind : conversation.kind = .group group) :
    storedFields db groupId = some ⟨group.title, group.accessPolicy, group.passwordHash⟩ := by
  rw [storedFields, hlookup, Option.bind_some, hkind, fieldsOf]

theorem storedFields_setGroup {r : UpdateRequest} {after : Group} {conversation : Conversation}
    (hlookup : db.conversations.lookup r.groupId = some conversation) :
    storedFields (setGroup db r after) =
      Function.update (storedFields db) r.groupId (fieldsOf (.group after)) := by
  funext other
  by_cases hother : other = r.groupId
  · subst hother
    rw [Function.update_self, storedFields, setGroup, lookup_modifyConversation, if_pos rfl,
      hlookup]
    rfl
  · rw [Function.update_of_ne hother, storedFields, setGroup, lookup_modifyConversation,
      if_neg hother]
    rfl

/-- The group written has the fields that follow from those of the row and the request. -/
theorem fieldsOf_updated {u : GroupUpdate} {r : UpdateRequest} {before after : Group}
    (hprepares : Prepares env u r) (hupdates : Updates r before after)
    (hbefore : before.accessPolicy = .password ↔ before.passwordHash.isSome = true) :
    fieldsOf (.group after) = some
      (GroupFields.next env ⟨before.title, before.accessPolicy, before.passwordHash⟩ u) := by
  obtain ⟨policy, hpolicy, rfl⟩ := hupdates
  have hrequested : policy = u.request.accessPolicy.getD before.accessPolicy := by
    rw [← hprepares.accessPolicy]
    exact (validateGroupUpdateRequest_ok hpolicy).1
  have hheld : (if before.accessPolicy = .password then before.passwordHash else none) =
      before.passwordHash := by
    split
    · rfl
    · rename_i hother
      have hnone : ¬ before.passwordHash.isSome = true := fun h => hother (hbefore.mpr h)
      exact (Option.not_isSome_iff_eq_none.mp hnone).symm
  rw [GroupFields.next, hheld, ← hrequested, ← hprepares.title, ← hprepares.passwordHash]
  rfl

/-- An update to the password policy has a hash to store, its own or the row's. -/
theorem hash_of_updates {r : UpdateRequest} {before after : Group}
    (hupdates : Updates r before after)
    (hbefore : before.accessPolicy = .password ↔ before.passwordHash.isSome = true) :
    after.accessPolicy = .password ↔ after.passwordHash.isSome = true := by
  obtain ⟨policy, hpolicy, rfl⟩ := hupdates
  dsimp only
  by_cases hpassword : policy = .password
  · rw [if_pos hpassword, Option.isSome_or, Bool.or_eq_true]
    simp only [hpassword, true_iff]
    rcases (validateGroupUpdateRequest_ok hpolicy).2 hpassword with hheld | hsupplied
    · exact Or.inr (hbefore.mp hheld)
    · exact Or.inl hsupplied
  · rw [if_neg hpassword]
    simp [hpassword]

/-- A commit does to the stored fields what its change says. -/
theorem storedFields_commit {tx : Transaction (Prepared GroupRequest GroupStage) GroupLock}
    (hmatch : HashesMatch db) (hrelies : PreparedJ (ReliesOn env) (OnTheWay env) db tx)
    (hfinished : (groupRequests env).finished tx.stage = true) :
    storedFields ((groupRequests env).effect tx.stage db) =
      (changeOf tx.stage).foldl (applyChange env) (storedFields db) := by
  obtain ⟨stage, locks⟩ := tx
  cases stage with
  | waiting request => cases hfinished
  | running request stage =>
    obtain ⟨hway, hrelies⟩ := hrelies
    cases stage with
    | created r group =>
      have hfields : fieldsOf (.group group) = some (createdFields env r) := hrelies.group.1
      exact (storedFields_insert r.groupId (newGroup r group)).trans
        (congrArg (Function.update (storedFields db) r.groupId) hfields)
    | updated r before after =>
      obtain ⟨⟨conversation, hlookup, hkind⟩, hupdates⟩ := hrelies.group
      cases request with
      | update u =>
        obtain ⟨r', hr, hprepares⟩ := hway
        cases hr
        have hstored := storedFields_of_lookup hlookup hkind
        have hset : storedFields (setGroup db r after) =
            Function.update (storedFields db) r.groupId (fieldsOf (.group after)) :=
          storedFields_setGroup hlookup
        rw [fieldsOf_updated hprepares hupdates (hmatch r.groupId _ hstored)] at hset
        have hchange : (storedFields db u.groupId).map (fun held => held.next env u) = some
            (GroupFields.next env ⟨before.title, before.accessPolicy, before.passwordHash⟩ u) := by
          rw [← hprepares.groupId, hstored, Option.map_some]
        refine hset.trans ?_
        simp only [changeOf, List.foldl_cons, List.foldl_nil, applyChange, hchange,
          hprepares.groupId]
      | other started => cases hway
    | deleted r => exact storedFields_delete r.groupId
    | admitted r isMember => exact storedFields_admitMember r isMember
    | departed r successor =>
      exact (storedFields_removeMember ..).trans (storedFields_handOver r.groupId successor)
    | roleChanged r => exact storedFields_modify r.groupId fun _ => rfl
    | invited r => rfl
    | friended r friendship => exact storedFields_congr (applyFriendRequest_conversations db r)
    | _ => cases hfinished

theorem hashesMatch_update {groupId : Uuid} {fields : Option GroupFields} {after : SocialDatabase}
    (hmatch : HashesMatch db)
    (hafter : storedFields after = Function.update (storedFields db) groupId fields)
    (hfields : ∀ held ∈ fields, held.accessPolicy = .password ↔ held.passwordHash.isSome = true) :
    HashesMatch after := by
  intro other held hheld
  rw [hafter] at hheld
  by_cases hother : other = groupId
  · subst hother
    rw [Function.update_self] at hheld
    exact hfields held hheld
  · rw [Function.update_of_ne hother] at hheld
    exact hmatch other held hheld

/-- Every commit leaves hashes exactly with the password policy. -/
theorem hashesMatch_commit {tx : Transaction (Prepared GroupRequest GroupStage) GroupLock}
    (hmatch : HashesMatch db) (hrelies : PreparedJ (ReliesOn env) (OnTheWay env) db tx)
    (hfinished : (groupRequests env).finished tx.stage = true) :
    HashesMatch ((groupRequests env).effect tx.stage db) := by
  have hcommit := storedFields_commit hmatch hrelies hfinished
  obtain ⟨stage, locks⟩ := tx
  cases stage with
  | waiting request => cases hfinished
  | running request stage =>
    obtain ⟨hway, hrelies⟩ := hrelies
    have hsame : changeOf (.running request stage) = [] →
        HashesMatch ((groupRequests env).effect (.running request stage) db) := by
      intro hnone groupId fields hfields
      rw [hcommit, hnone] at hfields
      exact hmatch groupId fields hfields
    cases stage with
    | created r group =>
      refine hashesMatch_update hmatch (storedFields_insert r.groupId (newGroup r group)) ?_
      intro held hheld
      cases hheld
      exact hrelies.group.2
    | updated r before after =>
      obtain ⟨⟨conversation, hlookup, hkind⟩, hupdates⟩ := hrelies.group
      have hbefore := hmatch r.groupId _ (storedFields_of_lookup hlookup hkind)
      refine hashesMatch_update hmatch (storedFields_setGroup hlookup) ?_
      intro held hheld
      cases hheld
      exact hash_of_updates hupdates hbefore
    | deleted r =>
      refine hashesMatch_update hmatch (storedFields_delete r.groupId) ?_
      intro held hheld
      cases hheld
    | admitted r isMember => exact hsame rfl
    | departed r successor => exact hsame rfl
    | roleChanged r => exact hsame rfl
    | invited r => exact hsame rfl
    | friended r friendship => exact hsame rfl
    | _ => cases hfinished

end Commits

/-! ## Runs -/

/-- The requests from the first one on, with any accounts. -/
def groupUpdates (env : Environment) (accounts : Accounts.Database) :
    System (Shared SocialDatabase (Prepared GroupRequest GroupStage) GroupLock)
      (Action (Prepared GroupRequest GroupStage)) :=
  system (groupRequests env) (emptyDatabase accounts)

/-- The changes of a run, in the order they have committed. -/
def committedChanges (env : Environment) (accounts : Accounts.Database)
    (actions : List (Action (Prepared GroupRequest GroupStage))) : List (Uuid × GroupChange) :=
  (groupUpdates env accounts).outputs (commits changeOf) (groupUpdates env accounts).init actions

/-- A group has the fields in force in every state reached, and a password hash exactly with the
password policy. -/
theorem groupFields_inForce (env : Environment) (accounts : Accounts.Database)
    (actions : List (Action (Prepared GroupRequest GroupStage)))
    (s : Shared SocialDatabase (Prepared GroupRequest GroupStage) GroupLock)
    (hrun : (groupUpdates env accounts).run actions = some s) (groupId : Uuid)
    (conversation : Conversation) (group : Group)
    (hgroup : loadGroup s.db groupId = .ok (conversation, group)) :
    (group.accessPolicy = .password ↔ group.passwordHash.isSome = true) ∧
      inForce env (committedChanges env accounts actions) groupId =
        some ⟨group.title, group.accessPolicy, group.passwordHash⟩ := by
  have hempty : HashesMatch (emptyDatabase accounts) := by
    intro other fields hfields
    simp [storedFields, emptyDatabase] at hfields
  have hstable : Stable (groupRequests env) (fun db => GroupsOwned db ∧ HashesMatch db)
      (PreparedJ (ReliesOn env) (OnTheWay env)) :=
    (groupRequests_stable env).and
      fun db tx _ hrelies hfinished hmatch => hashesMatch_commit hmatch hrelies hfinished
  have hinit : Holds (fun db => GroupsOwned db ∧ HashesMatch db)
      (PreparedJ (ReliesOn env) (OnTheWay env)) (groupUpdates env accounts).init :=
    .init ⟨emptyDatabase_owned, hempty⟩
  have hmatch := (hstable.runFrom hinit hrun).db.2
  have hfields := hstable.observe_runFrom
    (fun db tx hI hrelies hfinished => storedFields_commit hI.2 hrelies hfinished) hinit hrun
  have hnone : storedFields (groupUpdates env accounts).init.db = fun _ => none := rfl
  obtain ⟨hlookup, hkind⟩ := loadGroup_ok hgroup
  have hstored := storedFields_of_lookup hlookup hkind
  refine ⟨hmatch groupId _ hstored, ?_⟩
  rw [← hstored, hfields, hnone]
  rfl

/-- Ada's group gets a password while an update of its title is on its way. -/
def renameWhileLocking : List (Action (Prepared GroupRequest GroupStage)) :=
  [.begin 0 (.waiting (.other (.create foundTeam))), .run 0, .run 0, .run 0, .commit 0,
    .begin 1 (.waiting (.update ⟨1, 1, 10, "", ⟨some "Crew", none, none⟩⟩)), .run 1,
    .begin 2 (.waiting (.update (policyUpdate 2 1 10 "salt" .password (some "password")))),
    .run 2, .run 2, .run 2, .commit 2, .run 1, .run 1, .commit 1]

theorem renameWhileLocking_inForce : ∃ accounts ∈ adaAndBob,
    ∃ s ∈ (groupUpdates plainHashing accounts).run renameWhileLocking,
    ∃ row ∈ (loadGroup s.db 10).toOption,
      (row.2.title = "Crew" ∧ row.2.passwordHash = some "password") ∧
      inForce plainHashing (committedChanges plainHashing accounts renameWhileLocking) 10 =
        some ⟨row.2.title, row.2.accessPolicy, row.2.passwordHash⟩ := by
  obtain ⟨accounts, haccounts, s, hs, row, hrow, hfields⟩ : ∃ accounts ∈ adaAndBob,
      ∃ s ∈ (groupUpdates plainHashing accounts).run renameWhileLocking,
      ∃ row ∈ (loadGroup s.db 10).toOption,
        row.2.title = "Crew" ∧ row.2.passwordHash = some "password" := by
    decide +kernel
  have hgroup : loadGroup s.db 10 = .ok (row.1, row.2) := by
    cases hload : loadGroup s.db 10 with
    | error e =>
      rw [hload] at hrow
      cases hrow
    | ok other =>
      rw [hload] at hrow
      cases hrow
      rfl
  have hforce := groupFields_inForce plainHashing accounts renameWhileLocking s hs 10 row.1 row.2
    hgroup
  exact ⟨accounts, haccounts, s, hs, row, hrow, hfields, hforce.2⟩

end OpenMeet.GroupPasswords
