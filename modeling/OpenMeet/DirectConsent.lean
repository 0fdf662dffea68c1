import OpenMeet.DirectTransactions
import OpenMeet.FriendsOnlyGroups

/-!
Direct conversations, in every interleaving of the requests that open them with
each other and with changes of friendships. The unique index on the pair keeps
them unique, and a request is accepted in the commit that makes sure of its
conversation. That users agreed to a conversation is not in any row: it is read
off the run, whose states and commits the checks go back to.
-/
namespace OpenMeet.DirectConsent

open KeyedMap TransitionSystem Messages Accounts SocialTables ConversationApi ReadCommitted
  DirectTransactions SocialRequests BadgeNews
open GroupTransactions (FriendRequest applyFriendRequest)
open FriendsOnlyGroups (areAcceptedFriends_symm)
open GroupOwnership (applyFriendRequest_conversations)

/-! ## Pairs -/

section Pairs

variable {db : SocialDatabase} {first second : Uuid}

def pairOf (conversation : Conversation) : Option (Uuid × Uuid) :=
  match conversation.kind with
  | .group _ => none
  | .direct lowId highId => some (lowId, highId)

/-- The pair of the conversation with this id, if it is a direct one. -/
def pairAt (db : SocialDatabase) (id : Uuid) : Option (Uuid × Uuid) :=
  (db.conversations.lookup id).bind pairOf

/-- The conversation is the direct one of the two users. -/
def IsDirect (db : SocialDatabase) (id first second : Uuid) : Prop :=
  pairAt db id = some (first, second) ∨ pairAt db id = some (second, first)

theorem orderedPair_eq (first second : Uuid) :
    orderedPair first second = (first, second) ∨ orderedPair first second = (second, first) := by
  unfold orderedPair
  split
  · exact .inl rfl
  · exact .inr rfl

theorem orderedPair_le (first second : Uuid) :
    (orderedPair first second).1 ≤ (orderedPair first second).2 := by
  unfold orderedPair
  split
  · exact BitVec.le_of_lt ‹_›
  · exact BitVec.not_lt.mp ‹_›

theorem orderedPair_comm (first second : Uuid) :
    orderedPair first second = orderedPair second first := by
  unfold orderedPair
  split <;> split
  · exact absurd (BitVec.lt_asymm ‹first < second›) (not_not_intro ‹second < first›)
  · rfl
  · rfl
  · have heq : first = second := by bv_omega
    rw [heq]

theorem orderedPair_of_between {request : DirectMessageRequest} (h : Between request first second) :
    orderedPair request.requesterId request.recipientId = orderedPair first second := by
  rcases h with ⟨rfl, rfl⟩ | ⟨rfl, rfl⟩
  · rfl
  · exact orderedPair_comm _ _

theorem isDirect_of_ordered {id : Uuid} (h : pairAt db id = some (orderedPair first second)) :
    IsDirect db id first second := by
  rcases orderedPair_eq first second with heq | heq
  · exact .inl (h.trans (congrArg some heq))
  · exact .inr (h.trans (congrArg some heq))

theorem pairOf_eq_some {conversation : Conversation} {pair : Uuid × Uuid} :
    pairOf conversation = some pair ↔ conversation.kind = .direct pair.1 pair.2 := by
  unfold pairOf
  cases conversation.kind with
  | group group => exact ⟨nofun, nofun⟩
  | direct lowId highId =>
    constructor
    · intro h
      cases h
      rfl
    · intro h
      cases h
      rfl

theorem findDirectConversation_some {row : Uuid × Conversation}
    (h : findDirectConversation db first second = some row) :
    pairAt db row.1 = some (orderedPair first second) := by
  obtain ⟨found, hfound, rfl⟩ := Option.map_eq_some_iff.mp h
  have hkind := List.find?_some hfound
  have hlookup := AList.mem_lookup_iff.mpr (List.mem_of_find?_eq_some hfound)
  exact Option.bind_eq_some_iff.mpr
    ⟨found.2, hlookup, pairOf_eq_some.mpr (of_decide_eq_true hkind)⟩

theorem findDirectConversation_none (h : findDirectConversation db first second = none)
    (id : Uuid) : pairAt db id ≠ some (orderedPair first second) := by
  intro hpair
  obtain ⟨conversation, hlookup, hkind⟩ := Option.bind_eq_some_iff.mp hpair
  have hnone := List.find?_eq_none.mp (Option.map_eq_none_iff.mp h) ⟨id, conversation⟩
    (AList.mem_lookup_iff.mp hlookup)
  exact hnone (decide_eq_true (pairOf_eq_some.mp hkind))

end Pairs

/-! ## What a commit writes -/

section Effects

variable (db : SocialDatabase)

/-- A conversation that a transaction has inserted, or found to be there. -/
structure Opening where
  now : Timestamp
  freshId : Uuid
  first : Uuid
  second : Uuid
  inserted : Bool

def opening : DirectStage → Option Opening
  | .ensured r inserted | .resolved r inserted _ | .opened r inserted =>
    some ⟨r.now, r.freshId, r.userId, r.targetId, inserted⟩
  | .agreed q request inserted =>
    some ⟨q.now, q.freshId, q.userId, request.requesterId, inserted⟩
  | _ => none

/-- The pair a transaction inserts a conversation for. -/
def insertedPair (stage : DirectStage) (id : Uuid) : Option (Uuid × Uuid) :=
  (opening stage).bind fun o =>
    if o.inserted ∧ id = o.freshId then some (orderedPair o.first o.second) else none

/-- The requests that a transaction has written. -/
def writtenRequests : DirectStage → Finset Uuid
  | .resolved _ _ ids => ids
  | .requested r => {r.requestId}
  | .responded q _ | .agreed q _ _ => {q.requestId}
  | _ => ∅

theorem pairAt_ensureDirect (inserted : Bool) (now : Timestamp)
    (freshId first second id : Uuid) :
    pairAt (ensureDirect db inserted now freshId first second) id =
      if inserted ∧ id = freshId then some (orderedPair first second) else pairAt db id := by
  cases inserted with
  | false => exact (if_neg (by simp)).symm
  | true =>
    unfold pairAt ensureDirect insertConversation
    by_cases hid : id = freshId
    · subst hid
      rw [if_pos rfl, AList.lookup_insert, if_pos ⟨rfl, rfl⟩]
      rfl
    · rw [if_pos rfl, AList.lookup_insert_ne hid, if_neg fun h => hid h.2]

theorem pairAt_congr {after : SocialDatabase} (h : after.conversations = db.conversations)
    (id : Uuid) : pairAt after id = pairAt db id := by
  unfold pairAt
  rw [h]

theorem pairAt_unhide (conversationId userId id : Uuid) :
    pairAt (ConversationApi.unhide db conversationId userId) id = pairAt db id := by
  have hlookup : (ConversationApi.unhide db conversationId userId).conversations.lookup id =
      _ := Map.lookup_modify ..
  unfold pairAt
  rw [hlookup]
  split
  · cases db.conversations.lookup id with
    | none => rfl
    | some conversation => rfl
  · rfl

/-- A commit changes no pair, apart from the conversation it inserts. -/
theorem pairAt_directEffect (stage : DirectStage) (id : Uuid) :
    pairAt (directEffect stage db) id = (insertedPair stage id).or (pairAt db id) := by
  have hensure : ∀ base : SocialDatabase, base.conversations = db.conversations →
      ∀ o : Opening, pairAt (ensureDirect base o.inserted o.now o.freshId o.first o.second) id =
        (if o.inserted ∧ id = o.freshId then some (orderedPair o.first o.second) else none).or
          (pairAt db id) := by
    intro base hbase o
    rw [pairAt_ensureDirect, pairAt_congr db hbase]
    split
    · rfl
    · rfl
  cases stage with
  | unhide userId conversationId => exact pairAt_unhide db conversationId userId id
  | ensured r inserted => exact hensure db rfl ⟨r.now, r.freshId, r.userId, r.targetId, inserted⟩
  | resolved r inserted ids =>
    exact hensure db rfl ⟨r.now, r.freshId, r.userId, r.targetId, inserted⟩
  | opened r inserted => exact hensure db rfl ⟨r.now, r.freshId, r.userId, r.targetId, inserted⟩
  | agreed q request inserted =>
    exact hensure (answerRequest db q) rfl
      ⟨q.now, q.freshId, q.userId, request.requesterId, inserted⟩
  | friended r friendship => exact pairAt_congr db (applyFriendRequest_conversations db r) id
  | _ => rfl

theorem applyFriendRequest_directRequests (r : FriendRequest) :
    (applyFriendRequest db r).directRequests = db.directRequests := by
  cases r with
  | send userId friendshipId notificationId request =>
    unfold applyFriendRequest FriendApi.createFriendRequest
    dsimp only
    repeat' split
    all_goals rfl
  | accept userId friendshipId =>
    unfold applyFriendRequest FriendApi.acceptFriendRequest
    dsimp only
    repeat' split
    all_goals rfl
  | remove userId friendshipId notificationId =>
    unfold applyFriendRequest FriendApi.deleteFriendship
    dsimp only
    repeat' split
    all_goals rfl

theorem ensureDirect_directRequests (inserted : Bool) (now : Timestamp)
    (freshId first second : Uuid) :
    (ensureDirect db inserted now freshId first second).directRequests = db.directRequests := by
  cases inserted with
  | false => rfl
  | true => rfl

/-- A commit changes no request but those it has written. -/
theorem directEffect_request {stage : DirectStage} {id : Uuid} (h : id ∉ writtenRequests stage) :
    (directEffect stage db).directRequests.lookup id = db.directRequests.lookup id := by
  cases stage with
  | ensured r inserted => rw [directEffect, ensureDirect_directRequests]
  | opened r inserted => rw [directEffect, ensureDirect_directRequests]
  | resolved r inserted ids =>
    have hnot : id ∉ ids := h
    refine (Map.lookup_mapValues ..).trans ?_
    simp only [ensureDirect_directRequests, if_neg hnot, Option.map_id']
  | requested r => exact AList.lookup_insert_ne fun heq => h (Finset.mem_singleton.mpr heq)
  | responded q request =>
    exact (Map.lookup_modify ..).trans (if_neg fun heq => h (Finset.mem_singleton.mpr heq))
  | agreed q request inserted =>
    rw [directEffect, ensureDirect_directRequests]
    exact (Map.lookup_modify ..).trans (if_neg fun heq => h (Finset.mem_singleton.mpr heq))
  | friended r friendship => rw [directEffect, applyFriendRequest_directRequests]
  | _ => rfl

end Effects

/-! ## What a transaction knows -/

def HasDirect (db : SocialDatabase) (pair : Uuid × Uuid) : Prop := ∃ id, pairAt db id = some pair

/-- An inserted conversation is the first of its pair; one that was found stays there. -/
def Opens (db : SocialDatabase) (locks : Finset DirectLock) (o : Opening) : Prop :=
  if o.inserted then
    .pair (orderedPair o.first o.second) ∈ locks ∧ .conversation o.freshId ∈ locks ∧
      pairAt db o.freshId = none ∧ ¬ HasDirect db (orderedPair o.first o.second)
  else HasDirect db (orderedPair o.first o.second)

/-- A written request as it was read. -/
def ReadAs (row : Option DirectMessageRequest) : DirectStage → Prop
  | .resolved r _ _ =>
    ∃ request ∈ row, request.status = .pending ∧ Between request r.userId r.targetId
  | .requested _ => row = none
  | .responded q request | .agreed q request _ =>
    row = some request ∧ request.recipientId = q.userId ∧ request.status = .pending
  | _ => True

structure Relies (db : SocialDatabase) (tx : Transaction DirectStage DirectLock) : Prop where
  locked : ∀ id ∈ writtenRequests tx.stage, .request id ∈ tx.locks
  read : ∀ id ∈ writtenRequests tx.stage, ReadAs (db.directRequests.lookup id) tx.stage
  opens : ∀ o, opening tx.stage = some o → Opens db tx.locks o

section Alone

variable {db : SocialDatabase} {first second : Uuid}

/-- The read after the insert finds a conversation. -/
theorem findDirectConversation_ensure {inserted : Bool} {now : Timestamp} {freshId : Uuid}
    {locks : Finset DirectLock}
    (h : ensureStatement db freshId first second = some (inserted, locks)) :
    (findDirectConversation (ensureDirect db inserted now freshId first second)
      first second).isSome = true := by
  by_contra hnone
  have hnone := findDirectConversation_none (Option.not_isSome_iff_eq_none.mp hnone)
  unfold ensureStatement at h
  split at h
  · rename_i row hfound
    cases h
    exact hnone row.1 (findDirectConversation_some hfound)
  · obtain ⟨-, heq⟩ := Option.ite_none_left_eq_some.mp h
    cases heq
    exact hnone freshId ((pairAt_ensureDirect ..).trans (if_pos ⟨rfl, rfl⟩))

/-- A transaction that meets no other inserts what the request does on its own. -/
theorem ensureDirectConversation_eq {inserted : Bool} {now : Timestamp} {freshId : Uuid}
    {locks : Finset DirectLock}
    (h : ensureStatement db freshId first second = some (inserted, locks)) :
    ∃ id conversation, ensureDirectConversation db now freshId first second =
      .ok (ensureDirect db inserted now freshId first second, id, conversation) := by
  unfold ensureStatement at h
  unfold ensureDirectConversation
  split at h
  · rename_i row hfound
    cases h
    rw [hfound]
    exact ⟨row.1, row.2, rfl⟩
  · rename_i hnone
    obtain ⟨hfresh, heq⟩ := Option.ite_none_left_eq_some.mp h
    cases heq
    rw [hnone]
    exact ⟨freshId, newDirect now first second, if_neg hfresh⟩

theorem mem_pendingRequests {id : Uuid} : id ∈ pendingRequests db first second ↔
    ∃ request, db.directRequests.lookup id = some request ∧ request.status = .pending ∧
      Between request first second := by
  unfold pendingRequests
  simp only [List.mem_toFinset, Map.mem_matching, decide_eq_true_eq]

theorem acceptRequests_pending : acceptRequests db (pendingRequests db first second) =
    resolvePendingDirectRequest db first second := by
  have hentries : (acceptRequests db (pendingRequests db first second)).directRequests.entries =
      (resolvePendingDirectRequest db first second).directRequests.entries := ?_
  · exact congrArg (fun requests => { db with directRequests := requests }) (AList.ext hentries)
  refine List.map_congr_left fun row hrow => ?_
  have hlookup : db.directRequests.lookup row.1 = some row.2 := AList.mem_lookup_iff.mpr hrow
  have hmem : row.1 ∈ pendingRequests db first second ↔
      row.2.status = .pending ∧ Between row.2 first second := by
    rw [mem_pendingRequests, hlookup]
    constructor
    · intro h
      obtain ⟨request, heq, hpending⟩ := h
      cases heq
      exact hpending
    · exact fun hpending => ⟨row.2, rfl, hpending⟩
  exact congrArg (Sigma.mk row.1) (if_congr hmem rfl rfl)

end Alone

section Statements

variable {db base : SocialDatabase} {held locks : Finset DirectLock} {stage : DirectStage}

theorem Opens.mono {o : Opening} (h : Opens db held o) : Opens db (held ∪ locks) o := by
  unfold Opens at h ⊢
  split
  · rename_i hinserted
    rw [if_pos hinserted] at h
    exact ⟨Finset.mem_union_left _ h.1, Finset.mem_union_left _ h.2.1, h.2.2⟩
  · rename_i hfound
    rwa [if_neg hfound] at h

/-- A transaction that has written nothing yet relies on nothing. -/
theorem relies_of_reading (hwritten : writtenRequests stage = ∅) (hopening : opening stage = none) :
    Relies db ⟨stage, locks⟩ where
  locked id hid := absurd (hwritten ▸ hid) (Finset.notMem_empty id)
  read id hid := absurd (hwritten ▸ hid) (Finset.notMem_empty id)
  opens o ho := by
    rw [hopening] at ho
    cases ho

theorem ensureStatement_opens {now : Timestamp} {freshId first second : Uuid} {inserted : Bool}
    (hbase : base.conversations = db.conversations)
    (h : ensureStatement base freshId first second = some (inserted, locks)) :
    Opens db (held ∪ locks) ⟨now, freshId, first, second, inserted⟩ := by
  unfold ensureStatement at h
  split at h
  · rename_i row hfound
    cases h
    exact ⟨row.1, (pairAt_congr db hbase _).symm.trans (findDirectConversation_some hfound)⟩
  · rename_i hnone
    obtain ⟨hfresh, heq⟩ := Option.ite_none_left_eq_some.mp h
    cases heq
    refine ⟨Finset.mem_union_right _ (Finset.mem_insert_self _ _), Finset.mem_union_right _ ?_,
      ?_, ?_⟩
    · exact Finset.mem_insert_of_mem (Finset.mem_singleton_self _)
    · have hlookup := AList.lookup_eq_none.mpr hfresh
      rw [hbase] at hlookup
      exact Option.bind_eq_none_iff.mpr fun _ h => absurd (hlookup.symm.trans h) nofun
    · intro hdirect
      obtain ⟨id, hid⟩ := hdirect
      exact findDirectConversation_none hnone id ((pairAt_congr db hbase _).trans hid)

theorem openStatement_relies {tx : Transaction DirectStage DirectLock} (hrelies : Relies db tx)
    (h : openStatement tx.stage (directEffect tx.stage db) = some (stage, locks)) :
    Relies db ⟨stage, tx.locks ∪ locks⟩ := by
  obtain ⟨current, held⟩ := tx
  cases current with
  | openDirect r =>
    obtain ⟨-, heq⟩ := Option.ite_none_right_eq_some.mp h
    cases heq
    exact relies_of_reading rfl rfl
  | targetFound r =>
    simp only [openStatement] at h
    split at h <;> cases h <;> exact relies_of_reading rfl rfl
  | notFound r =>
    simp only [openStatement] at h
    split at h <;> cases h <;> exact relies_of_reading rfl rfl
  | befriended r =>
    obtain ⟨row, hensure, heq⟩ := Option.map_eq_some_iff.mp h
    cases heq
    refine ⟨fun _ => nofun, fun _ => nofun, fun o ho => ?_⟩
    cases ho
    exact ensureStatement_opens rfl hensure
  | ensured r inserted =>
    cases h
    have hsame : (directEffect (.ensured r inserted) db).directRequests = db.directRequests :=
      ensureDirect_directRequests db inserted r.now r.freshId r.userId r.targetId
    refine ⟨fun id hid => ?_, fun id hid => ?_, fun o ho => ?_⟩
    · exact Finset.mem_union_right _ (Finset.mem_image_of_mem _ hid)
    · have hpending := mem_pendingRequests.mp hid
      rwa [hsame] at hpending
    · cases ho
      exact (hrelies.opens _ rfl).mono
  | strangers r =>
    simp only [openStatement] at h
    split at h
    · obtain ⟨-, htrusted⟩ := Option.ite_none_left_eq_some.mp h
      obtain ⟨-, heq⟩ := Option.ite_none_right_eq_some.mp htrusted
      cases heq
      exact relies_of_reading rfl rfl
    · cases h
      exact relies_of_reading rfl rfl
  | trusted r =>
    obtain ⟨row, hensure, heq⟩ := Option.map_eq_some_iff.mp h
    cases heq
    refine ⟨fun _ => nofun, fun _ => nofun, fun o ho => ?_⟩
    cases ho
    exact ensureStatement_opens rfl hensure
  | unrequested r =>
    obtain ⟨hnew, heq⟩ := Option.ite_none_left_eq_some.mp h
    cases heq
    refine ⟨fun id hid => ?_, fun id hid => ?_, fun _ => nofun⟩
    · have hid' : id = r.requestId := Finset.mem_singleton.mp hid
      rw [hid']
      exact Finset.mem_union_right _ (Finset.mem_insert_of_mem (Finset.mem_singleton_self _))
    · have hid' : id = r.requestId := Finset.mem_singleton.mp hid
      rw [hid']
      exact AList.lookup_eq_none.mpr (not_or.mp hnew).2
  | _ => cases h

theorem answerStatement_relies {tx : Transaction DirectStage DirectLock} (hrelies : Relies db tx)
    (h : answerStatement tx.stage (directEffect tx.stage db) = some (stage, locks)) :
    Relies db ⟨stage, tx.locks ∪ locks⟩ := by
  obtain ⟨current, held⟩ := tx
  cases current with
  | respond q =>
    obtain ⟨request, hlookup, hanswer⟩ := Option.bind_eq_some_iff.mp h
    obtain ⟨hpending, heq⟩ := Option.ite_none_right_eq_some.mp hanswer
    cases heq
    refine ⟨fun id hid => ?_, fun id hid => ?_, fun _ => nofun⟩
    · have hid' : id = q.requestId := Finset.mem_singleton.mp hid
      rw [hid']
      exact Finset.mem_union_right _ (Finset.mem_singleton_self _)
    · have hid' : id = q.requestId := Finset.mem_singleton.mp hid
      rw [hid']
      exact ⟨hlookup, hpending⟩
  | responded q request =>
    obtain ⟨-, hagree⟩ := Option.ite_none_right_eq_some.mp h
    obtain ⟨row, hensure, heq⟩ := Option.map_eq_some_iff.mp hagree
    cases heq
    refine ⟨fun id hid => ?_, fun id hid => hrelies.read id hid, fun o ho => ?_⟩
    · exact Finset.mem_union_left _ (hrelies.locked id hid)
    · cases ho
      exact ensureStatement_opens rfl hensure
  | _ => cases h

theorem friendStatement_relies {tx : Transaction DirectStage DirectLock}
    (h : friendStatement tx.stage (directEffect tx.stage db) = some (stage, locks)) :
    Relies db ⟨stage, tx.locks ∪ locks⟩ := by
  obtain ⟨current, held⟩ := tx
  cases current with
  | friends r =>
    cases r with
    | send userId friendshipId notificationId request =>
      cases h
      exact relies_of_reading rfl rfl
    | accept userId friendshipId =>
      obtain ⟨friendship, -, heq⟩ := Option.map_eq_some_iff.mp h
      cases heq
      exact relies_of_reading rfl rfl
    | remove userId friendshipId notificationId =>
      obtain ⟨friendship, -, heq⟩ := Option.map_eq_some_iff.mp h
      cases heq
      exact relies_of_reading rfl rfl
  | _ => cases h

theorem directStatement_relies {tx : Transaction DirectStage DirectLock} (hrelies : Relies db tx)
    (h : directStatement tx.stage (directEffect tx.stage db) = some (stage, locks)) :
    Relies db ⟨stage, tx.locks ∪ locks⟩ := by
  unfold directStatement at h
  split at h
  · exact answerStatement_relies hrelies (by assumption)
  · exact answerStatement_relies hrelies (by assumption)
  · exact friendStatement_relies (by assumption)
  · exact openStatement_relies hrelies h

end Statements

/-! ## Uniqueness -/

structure Consistent (db : SocialDatabase) : Prop where
  ordered : ∀ id pair, pairAt db id = some pair → pair.1 ≤ pair.2
  unique : ∀ id id' pair, pairAt db id = some pair → pairAt db id' = some pair → id = id'
  conversed : ∀ id request, db.directRequests.lookup id = some request →
    request.status = .accepted →
      HasDirect db (orderedPair request.requesterId request.recipientId)

section Commits

variable {db : SocialDatabase} {tx other : Transaction DirectStage DirectLock}

theorem insertedPair_some {stage : DirectStage} {id : Uuid} {pair : Uuid × Uuid}
    (h : insertedPair stage id = some pair) :
    ∃ o, opening stage = some o ∧ o.inserted = true ∧ id = o.freshId ∧
      pair = orderedPair o.first o.second := by
  obtain ⟨o, ho, hinserted⟩ := Option.bind_eq_some_iff.mp h
  obtain ⟨hid, heq⟩ := Option.ite_none_right_eq_some.mp hinserted
  cases heq
  exact ⟨o, ho, hid.1, hid.2, rfl⟩

theorem Relies.inserts (hrelies : Relies db tx) {o : Opening} (ho : opening tx.stage = some o)
    (hinserted : o.inserted = true) :
    .pair (orderedPair o.first o.second) ∈ tx.locks ∧ .conversation o.freshId ∈ tx.locks ∧
      pairAt db o.freshId = none ∧ ¬ HasDirect db (orderedPair o.first o.second) := by
  have hopens := hrelies.opens o ho
  unfold Opens at hopens
  rwa [if_pos hinserted] at hopens

/-- What a commit makes of a pair: it was there before, or it is inserted. -/
theorem pairAt_after (hrelies : Relies db tx) {id : Uuid} {pair : Uuid × Uuid} :
    pairAt (directEffect tx.stage db) id = some pair ↔
      pairAt db id = some pair ∨ insertedPair tx.stage id = some pair := by
  rw [pairAt_directEffect]
  cases hinserted : insertedPair tx.stage id with
  | none =>
    rw [Option.none_or]
    exact ⟨.inl, fun h => h.resolve_right nofun⟩
  | some new =>
    obtain ⟨o, ho, hnew, rfl, -⟩ := insertedPair_some hinserted
    have habsent := (hrelies.inserts ho hnew).2.2.1
    rw [Option.some_or, habsent]
    exact ⟨.inr, fun h => h.resolve_left nofun⟩

theorem HasDirect.kept (hrelies : Relies db tx) {pair : Uuid × Uuid} (h : HasDirect db pair) :
    HasDirect (directEffect tx.stage db) pair := by
  obtain ⟨id, hid⟩ := h
  exact ⟨id, (pairAt_after hrelies).mpr (.inl hid)⟩

theorem hasDirect_opened (hrelies : Relies db tx) {o : Opening} (ho : opening tx.stage = some o) :
    HasDirect (directEffect tx.stage db) (orderedPair o.first o.second) := by
  cases hinserted : o.inserted with
  | true =>
    have hpair : insertedPair tx.stage o.freshId = some (orderedPair o.first o.second) := by
      unfold insertedPair
      rw [ho, Option.bind_some, if_pos ⟨hinserted, rfl⟩]
    exact ⟨o.freshId, (pairAt_after hrelies).mpr (.inr hpair)⟩
  | false =>
    have hopens := hrelies.opens o ho
    unfold Opens at hopens
    rw [hinserted, if_neg Bool.false_ne_true] at hopens
    exact hopens.kept hrelies

/-- A request that is accepted after a commit was so before, or the commit opens its
conversation. -/
theorem accepted_after (hrelies : Relies db tx) (hfinished : isFinished tx.stage = true)
    {id : Uuid} {request : DirectMessageRequest}
    (hlookup : (directEffect tx.stage db).directRequests.lookup id = some request)
    (haccepted : request.status = .accepted) :
    db.directRequests.lookup id = some request ∨ ∃ o, opening tx.stage = some o ∧
      orderedPair request.requesterId request.recipientId = orderedPair o.first o.second := by
  by_cases hid : id ∈ writtenRequests tx.stage
  · have hread := hrelies.read id hid
    obtain ⟨stage, locks⟩ := tx
    cases stage with
    | resolved r inserted ids =>
      obtain ⟨read, hrow, -, hbetween⟩ := hread
      have hmem : id ∈ ids := hid
      have hafter := (Map.lookup_mapValues ..).symm.trans hlookup
      rw [ensureDirect_directRequests, Option.mem_def.mp hrow, Option.map_some,
        if_pos hmem] at hafter
      cases hafter
      have hpair : orderedPair read.requesterId read.recipientId = _ :=
        orderedPair_of_between hbetween
      exact .inr ⟨_, rfl, hpair⟩
    | requested r =>
      cases Finset.mem_singleton.mp hid
      cases (AList.lookup_insert ..).symm.trans hlookup
      cases haccepted
    | responded q read =>
      cases Finset.mem_singleton.mp hid
      have hafter := (Map.lookup_modify ..).symm.trans hlookup
      have hdeclined : q.accept = false := Bool.not_eq_true' _ ▸ hfinished
      rw [if_pos rfl, hread.1, Option.map_some, hdeclined] at hafter
      cases hafter
      cases haccepted
    | agreed q read inserted =>
      cases Finset.mem_singleton.mp hid
      rw [directEffect, ensureDirect_directRequests] at hlookup
      have hafter := (Map.lookup_modify ..).symm.trans hlookup
      rw [if_pos rfl, hread.1, Option.map_some] at hafter
      cases hafter
      have hpair : orderedPair read.requesterId read.recipientId =
          orderedPair q.userId read.requesterId := by
        rw [hread.2.1]
        exact orderedPair_comm _ _
      exact .inr ⟨_, rfl, hpair⟩
    | _ => exact absurd hid (Finset.notMem_empty id)
  · exact .inl ((directEffect_request db hid).symm.trans hlookup)

theorem consistent_committed (hconsistent : Consistent db) (hrelies : Relies db tx)
    (hfinished : isFinished tx.stage = true) : Consistent (directEffect tx.stage db) := by
  constructor
  · intro id pair hpair
    rcases (pairAt_after hrelies).mp hpair with hold | hnew
    · exact hconsistent.ordered id pair hold
    · obtain ⟨o, -, -, -, rfl⟩ := insertedPair_some hnew
      exact orderedPair_le _ _
  · intro id id' pair hpair hpair'
    have hfirst : ∀ id id', pairAt db id = some pair →
        insertedPair tx.stage id' = some pair → False := by
      intro id id' hold hnew
      obtain ⟨o, ho, hinserted, -, rfl⟩ := insertedPair_some hnew
      exact (hrelies.inserts ho hinserted).2.2.2 ⟨id, hold⟩
    rcases (pairAt_after hrelies).mp hpair with hold | hnew
    · rcases (pairAt_after hrelies).mp hpair' with hold' | hnew'
      · exact hconsistent.unique id id' pair hold hold'
      · exact (hfirst id id' hold hnew').elim
    · rcases (pairAt_after hrelies).mp hpair' with hold' | hnew'
      · exact (hfirst id' id hold' hnew).elim
      · obtain ⟨o, ho, -, rfl, -⟩ := insertedPair_some hnew
        obtain ⟨o', ho', -, rfl, -⟩ := insertedPair_some hnew'
        cases ho.symm.trans ho'
        rfl
  · intro id request hlookup haccepted
    rcases accepted_after hrelies hfinished hlookup haccepted with hold | hopened
    · exact (hconsistent.conversed id request hold haccepted).kept hrelies
    · obtain ⟨o, ho, hpair⟩ := hopened
      rw [hpair]
      exact hasDirect_opened hrelies ho

/-- What a transaction knows outlives the commits of those with other locks. -/
theorem relies_kept (hrelies : Relies db tx) (hother : Relies db other)
    (hdisjoint : Disjoint tx.locks other.locks) : Relies (directEffect other.stage db) tx := by
  refine ⟨hrelies.locked, fun id hid => ?_, fun o ho => ?_⟩
  · have hunwritten : id ∉ writtenRequests other.stage := fun h =>
      Finset.disjoint_left.mp hdisjoint (hrelies.locked id hid) (hother.locked id h)
    rw [directEffect_request db hunwritten]
    exact hrelies.read id hid
  · have hopens := hrelies.opens o ho
    unfold Opens at hopens ⊢
    split
    · rename_i hinserted
      rw [if_pos hinserted] at hopens
      obtain ⟨hpair, hfresh, habsent, hfirst⟩ := hopens
      refine ⟨hpair, hfresh, ?_, fun hdirect => ?_⟩
      · rw [pairAt_directEffect, habsent, Option.or_none, Option.eq_none_iff_forall_ne_some]
        intro pair hnew
        obtain ⟨o', ho', hinserted', hid, -⟩ := insertedPair_some hnew
        rw [hid] at hfresh
        exact Finset.disjoint_left.mp hdisjoint hfresh (hother.inserts ho' hinserted').2.1
      · obtain ⟨id, hid⟩ := hdirect
        rcases (pairAt_after hother).mp hid with hold | hnew
        · exact hfirst ⟨id, hold⟩
        · obtain ⟨o', ho', hinserted', -, heq⟩ := insertedPair_some hnew
          rw [heq] at hpair
          exact Finset.disjoint_left.mp hdisjoint hpair (hother.inserts ho' hinserted').1
    · rename_i hfound
      rw [if_neg hfound] at hopens
      exact hopens.kept hother

theorem initial_relies {stage : DirectStage} (h : isInitial stage = true) :
    Relies db ⟨stage, ∅⟩ := by
  cases stage <;> first | exact relies_of_reading rfl rfl | cases h

theorem stable_direct : Stable directPrograms Consistent Relies where
  begun _ _ _ hinitial := initial_relies hinitial
  ran _ _ _ _ _ hrelies hstatement := directStatement_relies hrelies hstatement
  committed _ _ hconsistent hrelies hfinished :=
    consistent_committed hconsistent hrelies hfinished
  kept _ _ _ _ hrelies hother hdisjoint _ := relies_kept hrelies hother hdisjoint

end Commits

/-! ## Consent -/

abbrev directSystem (db : SocialDatabase) :
    System (Shared SocialDatabase DirectStage DirectLock) (Action DirectStage) :=
  system directPrograms db

/-- The next action commits the acceptance of a pending request between the two users, by its
recipient. -/
def Accepts (s : Shared SocialDatabase DirectStage DirectLock) (action : Action DirectStage)
    (first second : Uuid) : Prop :=
  ∃ id tx q read inserted request, action = .commit id ∧ s.transactions.lookup id = some tx ∧
    tx.stage = .agreed q read inserted ∧ s.db.directRequests.lookup q.requestId = some request ∧
    request.status = .pending ∧ request.recipientId = q.userId ∧ Between request first second

/-- At some moment of the run the two were friends, or one accepted the other's request. -/
def Consented (db : SocialDatabase) (past : List (Action DirectStage)) (first second : Uuid) :
    Prop :=
  ∃ earlier later s, past = earlier ++ later ∧ (directSystem db).run earlier = some s ∧
    (areAcceptedFriends s.db first second = true ∨
      ∃ action ∈ later.head?, Accepts s action first second)

/-- The users whose consent a transaction has seen in what it read. -/
def assumed : DirectStage → Option (Uuid × Uuid)
  | .befriended r | .ensured r _ | .resolved r _ _ | .trusted r | .opened r _ =>
    some (r.userId, r.targetId)
  | _ => none

structure Agreed (db : SocialDatabase) (past : List (Action DirectStage))
    (s : Shared SocialDatabase DirectStage DirectLock) : Prop where
  conversations : ∀ id pair, pairAt s.db id = some pair → Consented db past pair.1 pair.2
  requests : ∀ id request, s.db.directRequests.lookup id = some request →
    request.status = .accepted → Consented db past request.requesterId request.recipientId
  transactions : ∀ id tx users, s.transactions.lookup id = some tx →
    assumed tx.stage = some users → Consented db past users.1 users.2

section History

variable {db : SocialDatabase} {past : List (Action DirectStage)} {first second : Uuid}
  {s t : Shared SocialDatabase DirectStage DirectLock} {action : Action DirectStage}

theorem Between.symm {request : DirectMessageRequest} (h : Between request first second) :
    Between request second first := Or.symm h

theorem Consented.symm (h : Consented db past first second) : Consented db past second first := by
  obtain ⟨earlier, later, s, hpast, hrun, hconsent⟩ := h
  refine ⟨earlier, later, s, hpast, hrun, ?_⟩
  rcases hconsent with hfriends | ⟨action, hnext, haccepts⟩
  · exact .inl (areAcceptedFriends_symm hfriends)
  · obtain ⟨id, tx, q, read, inserted, request, hcommit, htx, hstage, hlookup, hpending, hrecipient,
      hbetween⟩ := haccepts
    exact .inr ⟨action, hnext, id, tx, q, read, inserted, request, hcommit, htx, hstage, hlookup,
      hpending, hrecipient, hbetween.symm⟩

theorem Consented.append (h : Consented db past first second) (action : Action DirectStage) :
    Consented db (past ++ [action]) first second := by
  obtain ⟨earlier, later, s, rfl, hrun, hconsent⟩ := h
  refine ⟨earlier, later ++ [action], s, List.append_assoc .., hrun, ?_⟩
  refine hconsent.imp_right fun haccepted => ?_
  obtain ⟨next, hnext, haccepts⟩ := haccepted
  refine ⟨next, ?_, haccepts⟩
  rw [List.head?_append, Option.mem_def.mp hnext]
  rfl

theorem consented_of_friends (hrun : (directSystem db).run past = some s)
    (h : areAcceptedFriends s.db first second = true) (action : Action DirectStage) :
    Consented db (past ++ [action]) first second :=
  ⟨past, [action], s, rfl, hrun, .inl h⟩

theorem consented_of_accepts (hrun : (directSystem db).run past = some s)
    (h : Accepts s action first second) : Consented db (past ++ [action]) first second :=
  ⟨past, [action], s, rfl, hrun, .inr ⟨action, rfl, h⟩⟩

theorem consented_of_ordered (h : Consented db past first second) :
    Consented db past (orderedPair first second).1 (orderedPair first second).2 := by
  rcases orderedPair_eq first second with heq | heq
  · rwa [heq]
  · rw [heq]
    exact h.symm

theorem consented_of_pair {pair : Uuid × Uuid} (hpair : pair = orderedPair first second)
    (h : Consented db past pair.1 pair.2) : Consented db past first second := by
  rcases orderedPair_eq first second with heq | heq
  · rw [hpair, heq] at h
    exact h
  · rw [hpair, heq] at h
    exact h.symm

theorem findDirectRequest_some {db : SocialDatabase} {row : Uuid × DirectMessageRequest}
    (h : findDirectRequest db first second = some row) :
    db.directRequests.lookup row.1 = some row.2 ∧ Between row.2 first second := by
  obtain ⟨found, hfound, rfl⟩ := Option.map_eq_some_iff.mp h
  have hbetween := List.find?_some hfound
  simp only [Bool.or_eq_true, Bool.and_eq_true, decide_eq_true_eq] at hbetween
  exact ⟨AList.mem_lookup_iff.mpr (List.mem_of_find?_eq_some hfound), hbetween⟩

theorem initial_assumed {stage : DirectStage} (h : isInitial stage = true) :
    assumed stage = none := by
  cases stage <;> first | rfl | cases h

/-- A statement that comes to assume consent has read of it, or went on from one that had. -/
theorem assumed_after {stage : DirectStage} {current : DirectStage} {locks : Finset DirectLock}
    {users : Uuid × Uuid}
    (h : directStatement current (directEffect current s.db) = some (stage, locks))
    (hassumed : assumed stage = some users) :
    assumed current = some users ∨ areAcceptedFriends s.db users.1 users.2 = true ∨
      ∃ id request, s.db.directRequests.lookup id = some request ∧ request.status = .accepted ∧
        Between request users.1 users.2 := by
  cases current with
  | notFound r =>
    simp only [directStatement, openStatement] at h
    split at h
    · rename_i hfriends
      cases h
      cases hassumed
      exact .inr (.inl hfriends)
    · cases h
      cases hassumed
  | strangers r =>
    simp only [directStatement, openStatement] at h
    split at h
    · rename_i id request hfound
      obtain ⟨-, htrusted⟩ := Option.ite_none_left_eq_some.mp h
      obtain ⟨haccepted, heq⟩ := Option.ite_none_right_eq_some.mp htrusted
      cases heq
      cases hassumed
      obtain ⟨hlookup, hbetween⟩ := findDirectRequest_some hfound
      exact .inr (.inr ⟨id, request, hlookup, haccepted, hbetween⟩)
    · cases h
      cases hassumed
  | befriended r =>
    obtain ⟨row, -, heq⟩ := Option.map_eq_some_iff.mp h
    cases heq
    exact .inl hassumed
  | trusted r =>
    obtain ⟨row, -, heq⟩ := Option.map_eq_some_iff.mp h
    cases heq
    exact .inl hassumed
  | ensured r inserted =>
    cases h
    exact .inl hassumed
  | openDirect r =>
    obtain ⟨-, heq⟩ := Option.ite_none_right_eq_some.mp h
    cases heq
    cases hassumed
  | targetFound r =>
    simp only [directStatement, openStatement] at h
    split at h <;> cases h <;> cases hassumed
  | unrequested r =>
    obtain ⟨-, heq⟩ := Option.ite_none_left_eq_some.mp h
    cases heq
    cases hassumed
  | respond q =>
    obtain ⟨request, -, hanswer⟩ := Option.bind_eq_some_iff.mp h
    obtain ⟨-, heq⟩ := Option.ite_none_right_eq_some.mp hanswer
    cases heq
    cases hassumed
  | responded q request =>
    obtain ⟨-, hagree⟩ := Option.ite_none_right_eq_some.mp h
    obtain ⟨row, -, heq⟩ := Option.map_eq_some_iff.mp hagree
    cases heq
    cases hassumed
  | friends r =>
    cases r with
    | send userId friendshipId notificationId request =>
      cases h
      cases hassumed
    | accept userId friendshipId =>
      obtain ⟨friendship, -, heq⟩ := Option.map_eq_some_iff.mp h
      cases heq
      cases hassumed
    | remove userId friendshipId notificationId =>
      obtain ⟨friendship, -, heq⟩ := Option.map_eq_some_iff.mp h
      cases heq
      cases hassumed
  | _ => cases h

/-- Whoever a commit opens a conversation for has consented by then. -/
theorem consented_of_opening (hagreed : Agreed db past s) {id : Nat}
    {tx : Transaction DirectStage DirectLock} (hrun : (directSystem db).run past = some s)
    (htx : s.transactions.lookup id = some tx) (hrelies : Relies s.db tx) {o : Opening}
    (ho : opening tx.stage = some o) :
    Consented db (past ++ [.commit id]) o.first o.second := by
  have hassumed : ∀ users, assumed tx.stage = some users →
      Consented db (past ++ [.commit id]) users.1 users.2 := fun users husers =>
    (hagreed.transactions id tx users htx husers).append _
  cases hstage : tx.stage with
  | ensured r inserted =>
    rw [hstage] at ho hassumed
    cases ho
    exact hassumed _ rfl
  | resolved r inserted ids =>
    rw [hstage] at ho hassumed
    cases ho
    exact hassumed _ rfl
  | opened r inserted =>
    rw [hstage] at ho hassumed
    cases ho
    exact hassumed _ rfl
  | agreed q read inserted =>
    have hread := hrelies.read q.requestId (by
      rw [hstage]
      exact Finset.mem_singleton_self _)
    rw [hstage] at ho hread
    cases ho
    obtain ⟨hlookup, hrecipient, hpending⟩ := hread
    exact consented_of_accepts hrun
      ⟨id, tx, q, read, inserted, read, rfl, htx, hstage, hlookup, hpending, hrecipient,
        .inr ⟨rfl, hrecipient⟩⟩
  | _ =>
    rw [hstage] at ho
    cases ho

theorem agreed_step (hholds : Holds Consistent Relies s) (hagreed : Agreed db past s)
    (hrun : (directSystem db).run past = some s)
    (hstep : ReadCommitted.step directPrograms s action = some t) :
    Agreed db (past ++ [action]) t := by
  -- Until the next commit the database is the same, and so is who has consented.
  have hsame : t.db = s.db →
      (∀ id tx users, t.transactions.lookup id = some tx → assumed tx.stage = some users →
        Consented db (past ++ [action]) users.1 users.2) → Agreed db (past ++ [action]) t := by
    intro hdb htransactions
    refine ⟨fun id pair hpair => ?_, fun id request hlookup haccepted => ?_, htransactions⟩
    · exact (hagreed.conversations id pair (hdb ▸ hpair)).append action
    · exact (hagreed.requests id request (hdb ▸ hlookup) haccepted).append action
  cases action with
  | begin id stage =>
    obtain ⟨⟨hinitial, -⟩, heq⟩ := Option.ite_none_right_eq_some.mp hstep
    cases heq
    refine hsame rfl fun other tx users htx hassumed => ?_
    by_cases hother : other = id
    · subst hother
      cases (AList.lookup_insert ..).symm.trans htx
      exact absurd ((initial_assumed hinitial).symm.trans hassumed) nofun
    · rw [AList.lookup_insert_ne hother] at htx
      exact (hagreed.transactions other tx users htx hassumed).append _
  | run id =>
    obtain ⟨before, stage, locks, hbefore, hstatement, -, rfl⟩ := runStatement_some hstep
    refine hsame rfl fun other tx users htx hassumed => ?_
    by_cases hother : other = id
    · subst hother
      cases (AList.lookup_insert ..).symm.trans htx
      rcases assumed_after hstatement hassumed with hbefore' | hfriends | hrequest
      · exact (hagreed.transactions other before users hbefore hbefore').append _
      · exact consented_of_friends hrun hfriends _
      · obtain ⟨requestId, request, hlookup, haccepted, hbetween⟩ := hrequest
        have hconsent := (hagreed.requests requestId request hlookup haccepted).append (.run other)
        rcases hbetween with ⟨hfirst, hsecond⟩ | ⟨hfirst, hsecond⟩
        · rwa [hfirst, hsecond] at hconsent
        · rw [hfirst, hsecond] at hconsent
          exact hconsent.symm
    · rw [AList.lookup_insert_ne hother] at htx
      exact (hagreed.transactions other tx users htx hassumed).append _
  | commit id =>
    obtain ⟨tx, htx, hfinished, rfl⟩ := commitTransaction_some hstep
    have hrelies := hholds.transactions id tx htx
    refine ⟨fun conversationId pair hpair => ?_, fun requestId request hlookup haccepted => ?_,
      fun other tx' users htx' hassumed => ?_⟩
    · rcases (pairAt_after hrelies).mp hpair with hold | hnew
      · exact (hagreed.conversations conversationId pair hold).append _
      · obtain ⟨o, ho, -, -, rfl⟩ := insertedPair_some hnew
        exact consented_of_ordered (consented_of_opening hagreed hrun htx hrelies ho)
    · rcases accepted_after hrelies hfinished hlookup haccepted with hold | hopened
      · exact (hagreed.requests requestId request hold haccepted).append _
      · obtain ⟨o, ho, hpair⟩ := hopened
        have hconsent := consented_of_opening hagreed hrun htx hrelies ho
        exact consented_of_pair hpair.symm (consented_of_ordered hconsent)
    · exact (hagreed.transactions other tx' users (lookup_of_erase htx').2 hassumed).append _
  | abort id =>
    obtain ⟨-, heq⟩ := Option.ite_none_right_eq_some.mp hstep
    cases heq
    exact hsame rfl fun other tx users htx hassumed =>
      (hagreed.transactions other tx users (lookup_of_erase htx).2 hassumed).append _

end History

/-- Nobody has a direct conversation yet, and no request for one has been accepted. -/
def Unopened (db : SocialDatabase) : Prop :=
  (∀ id, pairAt db id = none) ∧
    ∀ id request, db.directRequests.lookup id = some request → request.status ≠ .accepted

theorem consistent_of_unopened {db : SocialDatabase} (h : Unopened db) : Consistent db where
  ordered id _ hpair := absurd ((h.1 id).symm.trans hpair) nofun
  unique id _ _ hpair := absurd ((h.1 id).symm.trans hpair) nofun
  conversed id request hlookup haccepted := absurd haccepted (h.2 id request hlookup)

theorem agreed_run {db : SocialDatabase} (h : Unopened db) {actions : List (Action DirectStage)}
    {s : Shared SocialDatabase DirectStage DirectLock}
    (hrun : (directSystem db).run actions = some s) : Agreed db actions s := by
  have hholds : Holds Consistent Relies (directSystem db).init :=
    Holds.init (consistent_of_unopened h)
  refine System.history_runFrom (M := directSystem db) (H := Agreed db) ?_ ?_ hrun
  · refine ⟨fun id _ hpair => ?_, fun id request hlookup haccepted => ?_, fun id tx _ htx => ?_⟩
    · exact absurd ((h.1 id).symm.trans hpair) nofun
    · exact absurd haccepted (h.2 id request hlookup)
    · exact absurd ((AList.lookup_empty id).symm.trans htx) nofun
  · intro past u action t hpast hagreed hstep
    exact agreed_step (stable_direct.runFrom hholds hpast) hagreed hpast hstep

theorem isDirect_unique {db : SocialDatabase} (hconsistent : Consistent db)
    {id id' first second : Uuid} (h : IsDirect db id first second)
    (h' : IsDirect db id' first second) : id = id' := by
  have hswapped : ∀ {id id'}, pairAt db id = some (first, second) →
      pairAt db id' = some (second, first) → id = id' := by
    intro id id' hpair hpair'
    have hle : first ≤ second := hconsistent.ordered id _ hpair
    have hge : second ≤ first := hconsistent.ordered id' _ hpair'
    have heq : first = second := BitVec.le_antisymm hle hge
    exact hconsistent.unique id id' _ hpair (heq ▸ hpair')
  rcases h with hpair | hpair
  · rcases h' with hpair' | hpair'
    · exact hconsistent.unique id id' _ hpair hpair'
    · exact hswapped hpair hpair'
  · rcases h' with hpair' | hpair'
    · exact (hswapped hpair' hpair).symm
    · exact hconsistent.unique id id' _ hpair hpair'

/-- In every interleaving, two users have one direct conversation at most, they have one only if
they were friends or one accepted the other's request before, and an accepted request has its
conversation. -/
theorem direct_conversations_agreed {db : SocialDatabase} (hunopened : Unopened db)
    {actions : List (Action DirectStage)} {s : Shared SocialDatabase DirectStage DirectLock}
    (hrun : (directSystem db).run actions = some s) :
    (∀ first second id id', IsDirect s.db id first second → IsDirect s.db id' first second →
      id = id') ∧
    (∀ first second id, IsDirect s.db id first second → Consented db actions first second) ∧
    ∀ id request, s.db.directRequests.lookup id = some request → request.status = .accepted →
      ∃ conversationId,
        IsDirect s.db conversationId request.requesterId request.recipientId := by
  have hconsistent : Consistent s.db :=
    (stable_direct.runFrom (Holds.init (consistent_of_unopened hunopened)) hrun).db
  have hagreed : Agreed db actions s := agreed_run hunopened hrun
  refine ⟨fun first second id id' h h' => isDirect_unique hconsistent h h', ?_, ?_⟩
  · intro first second id hdirect
    rcases hdirect with hpair | hpair
    · exact hagreed.conversations id _ hpair
    · exact (hagreed.conversations id _ hpair).symm
  · intro id request hlookup haccepted
    obtain ⟨conversationId, hpair⟩ := hconsistent.conversed id request hlookup haccepted
    exact ⟨conversationId, isDirect_of_ordered hpair⟩

/-! ### Ada asks Bob, who agrees -/

def askAndAgree : List (Action DirectStage) :=
  .begin 0 (.openDirect ⟨1, 1, 2, 10, 20⟩) :: List.replicate 5 (.run 0) ++ [.commit 0] ++
  .begin 1 (.respond ⟨2, 2, 20, 11, true⟩) :: List.replicate 2 (.run 1) ++ [.commit 1]

theorem emptyDatabase_unopened (accounts : Accounts.Database) :
    Unopened (emptyDatabase accounts) := ⟨fun _ => rfl, fun _ _ => nofun⟩

instance (db : SocialDatabase) (id first second : Uuid) : Decidable (IsDirect db id first second) :=
  inferInstanceAs (Decidable (_ ∨ _))

theorem askAndAgree_agreed : ∃ accounts ∈ adaAndBob,
    ∃ s ∈ (directSystem (emptyDatabase accounts)).run askAndAgree,
      IsDirect s.db 11 1 2 ∧ Consented (emptyDatabase accounts) askAndAgree 1 2 := by
  obtain ⟨accounts, haccounts, s, hs, hdirect⟩ : ∃ accounts ∈ adaAndBob,
      ∃ s ∈ (directSystem (emptyDatabase accounts)).run askAndAgree, IsDirect s.db 11 1 2 := by
    decide +kernel
  have hagreed := direct_conversations_agreed (emptyDatabase_unopened accounts) hs
  exact ⟨accounts, haccounts, s, hs, hdirect, hagreed.2.1 1 2 11 hdirect⟩

end OpenMeet.DirectConsent
