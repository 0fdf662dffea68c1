import OpenMeet.PeopleApi
import OpenMeet.SocialRequests
import OpenMeet.TransitionSystem

/-!
Calls between friends that are made at the same time. Each statement of a request
is a step of its own, so two requests of the same pair can both find nothing to
reuse; the index on pending calls lets one of them insert, and the other looks
again. What that one finds it announces as if it had inserted it.
-/
namespace OpenMeet.RingingCalls

open KeyedMap Messages SocialTables ConversationApi PeopleApi TransitionSystem

/-- A call request, once it has looked at the clock. -/
structure CallRequest where
  userId : Uuid
  friendId : Uuid
  now : Timestamp
  deriving DecidableEq, Repr

/-- Where a request is. It looks for a call to reuse before it inserts one, and again, late, after
another request has been faster. -/
inductive Task
  | checking (userId friendId : Uuid)
  | expiring (request : CallRequest)
  | reusing (request : CallRequest) (late : Bool)
  | accepting (request : CallRequest) (late : Bool) (callId : Uuid)
  | limiting (request : CallRequest)
  | counting (request : CallRequest)
  | inserting (request : CallRequest)
  | pruning (callId callerId calleeId : Uuid)
  | alerting (callId calleeId : Uuid)
  deriving DecidableEq, Repr

/-- What requests have done to calls, each noted with the request. -/
inductive Event
  | inserted (id : ℕ) (callId calleeId : Uuid)
  | reused (id : ℕ) (callId : Uuid)
  | alerted (id : ℕ) (callId recipientId : Uuid)
  deriving DecidableEq, Repr

structure State where
  now : Timestamp
  db : PeopleDatabase
  started : ℕ
  tasks : Map ℕ Task
  history : List Event

def initial (db : PeopleDatabase) : State := ⟨0, db, 0, ∅, []⟩

namespace State

def setTask (s : State) (id : ℕ) (task : Task) : State :=
  { s with tasks := s.tasks.insert id task }

/-- The request has its answer. -/
def finish (s : State) (id : ℕ) : State := { s with tasks := s.tasks.erase id }

def note (s : State) (event : Event) : State := { s with history := s.history ++ [event] }

end State

/-! ## Statements -/

/-- The pending call of the two that has not expired. -/
def findPending (db : PeopleDatabase) (request : CallRequest) : Option (Uuid × CallInvitation) :=
  (db.callInvitations.entries.find? fun row =>
    row.2.between request.userId request.friendId && row.2.rings request.now).map
      fun row => (row.1, row.2)

/-- Sets the status of a call that is still pending. -/
def acceptPending (db : PeopleDatabase) (callId : Uuid) :
    Option (CallInvitation × PeopleDatabase) :=
  match db.callInvitations.lookup callId with
  | none => none
  | some invitation =>
    if invitation.status = .pending then
      let accepted := { invitation with status := .accepted }
      some (accepted, { db with callInvitations := db.callInvitations.insert callId accepted })
    else none

def recentlyCalled (db : PeopleDatabase) (request : CallRequest) : Bool :=
  db.callInvitations.entries.any fun row =>
    row.2.between request.userId request.friendId && request.now < row.2.createdAt + 30000000

inductive InsertError
  | checkViolation
  | uniqueViolation
  deriving DecidableEq, Repr

/-- Another pending call of the two. -/
def PairPending (db : PeopleDatabase) (first second : Uuid) : Prop :=
  ∃ row ∈ db.callInvitations.entries,
    row.2.status = .pending ∧ row.2.between first second = true

instance (db : PeopleDatabase) (first second : Uuid) : Decidable (PairPending db first second) :=
  inferInstanceAs (Decidable (∃ row ∈ db.callInvitations.entries, _))

/-- The trigger and the checks on the row come before the index on pending calls. -/
def insertCall (db : PeopleDatabase) (now : Timestamp) (request : CallRequest) (callId : Uuid)
    (room : RoomId) : Except InsertError PeopleDatabase :=
  let invitation : CallInvitation :=
    ⟨request.userId, request.friendId, room, .pending, request.now + 300000000, now⟩
  if activeCallLimitReached db now request.userId ∨ request.userId = request.friendId ∨
      invitation.expiresAt ≤ invitation.createdAt then .error .checkViolation
  else if PairPending db request.userId request.friendId then .error .uniqueViolation
  else .ok { db with callInvitations := db.callInvitations.insert callId invitation }

/-! ## Steps -/

inductive Action
  | advance (elapsed : ℕ)
  /-- What other requests do to the tables that are not about these calls. -/
  | elsewhere (social : SocialDatabase)
  | start (userId friendId : Uuid)
  | checkFriendship (id : ℕ)
  | expire (id : ℕ)
  | reuse (id : ℕ)
  | accept (id : ℕ)
  | checkRecent (id : ℕ)
  | countActive (id : ℕ)
  | insert (id : ℕ) (callId : Uuid) (room : RoomId)
  | prune (id : ℕ) (succeeds : Bool)
  | alert (id : ℕ) (succeeds : Bool)
  | respond (userId callId : Uuid) (accept : Bool)
  /-- A query has failed and the request ends with an error. -/
  | fail (id : ℕ)

/-- How a request goes on with the call it reuses: early it has its answer, late it is taken for the
request that has inserted the call. -/
def reuseCall (s : State) (id : ℕ) (late : Bool) (callId : Uuid) (invitation : CallInvitation) :
    State :=
  let s := s.note (.reused id callId)
  if late then s.setTask id (.pruning callId invitation.callerId invitation.calleeId)
  else s.finish id

/-- Nothing to reuse: early the request goes on to its limits, late it is refused. -/
def reuseNothing (s : State) (id : ℕ) (request : CallRequest) (late : Bool) : State :=
  if late then s.finish id else s.setTask id (.limiting request)

/-- The alert goes out if the caller's name and the status of the callee have been read. -/
def alertIncomingCall (s : State) (id : ℕ) (callId calleeId : Uuid) (succeeds : Bool) : State :=
  if succeeds then s.note (.alerted id callId calleeId) else s

/-- Identifiers of calls are drawn at random and never drawn again. -/
def Unused (s : State) (callId : Uuid) : Prop :=
  callId ∉ s.db.callInvitations ∧
    ∀ event ∈ s.history, match event with
      | .inserted _ other _ => other ≠ callId
      | _ => True

instance (s : State) (callId : Uuid) : Decidable (Unused s callId) :=
  have : DecidablePred fun event : Event => match event with
      | .inserted _ other _ => other ≠ callId
      | _ => True := fun event => by cases event <;> exact inferInstance
  inferInstanceAs (Decidable (_ ∧ ∀ event ∈ s.history, _))

def step (s : State) : Action → Option State
  | .advance elapsed => some { s with now := s.now + elapsed }
  | .elsewhere social => some { s with db := { s.db with social } }
  | .start userId friendId =>
    some ({ s with started := s.started + 1 }.setTask s.started (.checking userId friendId))
  | .checkFriendship id =>
    match s.tasks.lookup id with
    | some (.checking userId friendId) =>
      if areAcceptedFriends s.db.social userId friendId then
        some (s.setTask id (.expiring ⟨userId, friendId, s.now⟩))
      else some (s.finish id)
    | _ => none
  | .expire id =>
    match s.tasks.lookup id with
    | some (.expiring request) =>
      let calls := expireInvitations s.db request.now request.userId request.friendId
      some ({ s with db := { s.db with callInvitations := calls } }.setTask id
        (.reusing request false))
    | _ => none
  | .reuse id =>
    match s.tasks.lookup id with
    | some (.reusing request late) =>
      match findPending s.db request with
      | none => some (reuseNothing s id request late)
      | some (callId, invitation) =>
        if invitation.callerId = request.userId then some (reuseCall s id late callId invitation)
        else some (s.setTask id (.accepting request late callId))
    | _ => none
  | .accept id =>
    match s.tasks.lookup id with
    | some (.accepting request late callId) =>
      match acceptPending s.db callId with
      | none => some (reuseNothing s id request late)
      | some (accepted, db) => some (reuseCall { s with db } id late callId accepted)
    | _ => none
  | .checkRecent id =>
    match s.tasks.lookup id with
    | some (.limiting request) =>
      if recentlyCalled s.db request then some (s.finish id)
      else some (s.setTask id (.counting request))
    | _ => none
  | .countActive id =>
    match s.tasks.lookup id with
    | some (.counting request) =>
      if activeCallLimitReached s.db request.now request.userId then some (s.finish id)
      else some (s.setTask id (.inserting request))
    | _ => none
  | .insert id callId room =>
    match s.tasks.lookup id with
    | some (.inserting request) =>
      if Unused s callId then
        match insertCall s.db s.now request callId room with
        | .error .checkViolation => some (s.finish id)
        | .error .uniqueViolation => some (s.setTask id (.reusing request true))
        | .ok db =>
          some (({ s with db }.note (.inserted id callId request.friendId)).setTask id
            (.pruning callId request.userId request.friendId))
      else none
    | _ => none
  | .prune id succeeds =>
    match s.tasks.lookup id with
    | some (.pruning callId callerId calleeId) =>
      let db := if succeeds then pruneInvitations s.db callerId else s.db
      some ({ s with db }.setTask id (.alerting callId calleeId))
    | _ => none
  | .alert id succeeds =>
    match s.tasks.lookup id with
    | some (.alerting callId calleeId) =>
      some ((alertIncomingCall s id callId calleeId succeeds).finish id)
    | _ => none
  | .respond userId callId accept =>
    match s.db.callInvitations.lookup callId with
    | none => some s
    | some invitation =>
      if invitation.calleeId = userId ∧ invitation.rings s.now then
        let answered := { invitation with status := if accept then .accepted else .declined }
        let calls := s.db.callInvitations.insert callId answered
        some { s with db := { s.db with callInvitations := calls } }
      else some s
  | .fail id => some (s.finish id)

def system (db : PeopleDatabase) : System State Action where
  init := initial db
  step := step

/-! ## Ringing once -/

/-- Every alert for a call is the only one, goes to the callee and comes from the request that has
inserted the call, which has reused none. -/
structure RingsOnce (history : List Event) : Prop where
  once : ∀ callId, (history.countP fun
    | .alerted _ other _ => other = callId
    | _ => false) ≤ 1
  inserter : ∀ id callId recipientId, .alerted id callId recipientId ∈ history →
    .inserted id callId recipientId ∈ history
  silent : ∀ id callId recipientId, .alerted id callId recipientId ∈ history →
    ∀ other, .reused id other ∉ history

/-- At most one call of two users is pending, whichever of them has made it. -/
def OnePendingPerPair (db : PeopleDatabase) : Prop :=
  ∀ first second firstCall secondCall,
    db.callInvitations.lookup first = some firstCall → firstCall.status = .pending →
    db.callInvitations.lookup second = some secondCall → secondCall.status = .pending →
    secondCall.between firstCall.callerId firstCall.calleeId = true → first = second

/-- Looking late, a request finds no call of its own, and one of the friend's only if that is
answered before it can be accepted. -/
def FindsNone (db : PeopleDatabase) : Task → Prop
  | .reusing request true =>
    ∀ found ∈ findPending db request, found.2.callerId ≠ request.userId
  | .accepting _ true callId =>
    ∀ invitation ∈ db.callInvitations.lookup callId, invitation.status ≠ .pending
  | _ => True

/-- A request that another one has been faster than finds no call to reuse. -/
def FindsNothingLate (s : State) : Action → Prop
  | .reuse id | .accept id => ∀ task ∈ s.tasks.lookup id, FindsNone s.db task
  | _ => True

instance (db : PeopleDatabase) : ∀ task, Decidable (FindsNone db task)
  | .reusing request true => Option.decidableForallMem (findPending db request)
  | .accepting _ true callId => Option.decidableForallMem (db.callInvitations.lookup callId)
  | .reusing _ false => isTrue trivial
  | .accepting _ false _ => isTrue trivial
  | .checking _ _ => isTrue trivial
  | .expiring _ => isTrue trivial
  | .limiting _ => isTrue trivial
  | .counting _ => isTrue trivial
  | .inserting _ => isTrue trivial
  | .pruning _ _ _ => isTrue trivial
  | .alerting _ _ => isTrue trivial

instance (s : State) : ∀ action, Decidable (FindsNothingLate s action)
  | .reuse id => Option.decidableForallMem (s.tasks.lookup id)
  | .accept id => Option.decidableForallMem (s.tasks.lookup id)
  | .advance _ => isTrue trivial
  | .elsewhere _ => isTrue trivial
  | .start _ _ => isTrue trivial
  | .checkFriendship _ => isTrue trivial
  | .expire _ => isTrue trivial
  | .checkRecent _ => isTrue trivial
  | .countActive _ => isTrue trivial
  | .insert _ _ _ => isTrue trivial
  | .prune _ _ => isTrue trivial
  | .alert _ _ => isTrue trivial
  | .respond _ _ _ => isTrue trivial
  | .fail _ => isTrue trivial

/-! ## One pending call per pair -/

section Pairs

variable {db after : PeopleDatabase}

theorem between_swap (first second : CallInvitation) :
    first.between second.callerId second.calleeId =
      second.between first.callerId first.calleeId := by
  unfold CallInvitation.between
  grind

/-- Statements that leave every pending call as it was keep the pairs apart. -/
theorem OnePendingPerPair.of_pending (h : OnePendingPerPair db)
    (hpending : ∀ id call, after.callInvitations.lookup id = some call → call.status = .pending →
      db.callInvitations.lookup id = some call) : OnePendingPerPair after := by
  intro first second firstCall secondCall hfirst hfirstPending hsecond hsecondPending hbetween
  exact h first second firstCall secondCall (hpending _ _ hfirst hfirstPending) hfirstPending
    (hpending _ _ hsecond hsecondPending) hsecondPending hbetween

theorem OnePendingPerPair.update (h : OnePendingPerPair db) (callId : Uuid)
    {call : CallInvitation} (hcall : call.status ≠ .pending) :
    OnePendingPerPair
      { db with callInvitations := db.callInvitations.insert callId call } := by
  refine h.of_pending fun id other hlookup hpending => ?_
  by_cases heq : id = callId
  · subst heq
    rw [AList.lookup_insert] at hlookup
    cases hlookup
    exact absurd hpending hcall
  · rwa [AList.lookup_insert_ne heq] at hlookup

theorem OnePendingPerPair.expire (h : OnePendingPerPair db) (request : CallRequest) :
    OnePendingPerPair { db with
      callInvitations := expireInvitations db request.now request.userId request.friendId } := by
  refine h.of_pending fun id call hlookup hpending => ?_
  simp only [expireInvitations, Map.lookup_mapValues, Option.map_eq_some_iff] at hlookup
  obtain ⟨before, hbefore, heq⟩ := hlookup
  split at heq
  · subst heq
    cases hpending
  · rwa [← heq]

theorem OnePendingPerPair.prune (h : OnePendingPerPair db) (callerId : Uuid) :
    OnePendingPerPair (pruneInvitations db callerId) := by
  refine h.of_pending fun id call hlookup _ => ?_
  simp only [pruneInvitations, Map.lookup_retain, Option.filter_eq_some_iff] at hlookup
  exact hlookup.1

theorem OnePendingPerPair.accept (h : OnePendingPerPair db) {callId : Uuid}
    {accepted : CallInvitation} (haccept : acceptPending db callId = some (accepted, after)) :
    OnePendingPerPair after := by
  unfold acceptPending at haccept
  split at haccept
  · cases haccept
  · split at haccept
    · cases haccept
      exact h.update callId nofun
    · cases haccept

/-- The index refuses a second pending call of the two. -/
theorem OnePendingPerPair.insert (h : OnePendingPerPair db) {now : Timestamp}
    {request : CallRequest} {callId : Uuid} {room : RoomId}
    (hinsert : insertCall db now request callId room = .ok after) :
    OnePendingPerPair after := by
  unfold insertCall at hinsert
  dsimp only at hinsert
  split at hinsert
  · cases hinsert
  · split at hinsert
    · cases hinsert
    · rename_i hnone
      cases hinsert
      have hothers : ∀ id call, db.callInvitations.lookup id = some call →
          call.status = .pending → call.between request.userId request.friendId = false := by
        intro id call hlookup hpending
        by_contra hbetween
        rw [Bool.not_eq_false] at hbetween
        exact hnone ⟨⟨id, call⟩, AList.mem_lookup_iff.mp hlookup, hpending, hbetween⟩
      intro first second firstCall secondCall hfirst hfirstPending hsecond hsecondPending hbetween
      by_cases hone : first = callId <;> by_cases htwo : second = callId
      · rw [hone, htwo]
      · subst hone
        rw [AList.lookup_insert] at hfirst
        rw [AList.lookup_insert_ne htwo] at hsecond
        cases hfirst
        rw [hothers second secondCall hsecond hsecondPending] at hbetween
        cases hbetween
      · subst htwo
        rw [AList.lookup_insert] at hsecond
        rw [AList.lookup_insert_ne hone] at hfirst
        cases hsecond
        rw [between_swap, hothers first firstCall hfirst hfirstPending] at hbetween
        cases hbetween
      · rw [AList.lookup_insert_ne hone] at hfirst
        rw [AList.lookup_insert_ne htwo] at hsecond
        exact h first second firstCall secondCall hfirst hfirstPending hsecond hsecondPending
          hbetween

/-- Every step keeps the pairs apart, whatever the requests find. -/
theorem onePending_step {s t : State} {action : Action} (h : OnePendingPerPair s.db)
    (hstep : step s action = some t) : OnePendingPerPair t.db := by
  have hreuse : ∀ (s : State) id late callId invitation, OnePendingPerPair s.db →
      OnePendingPerPair (reuseCall s id late callId invitation).db := by
    intro s id late callId invitation hs
    cases late <;> exact hs
  have hnothing : ∀ id request late, OnePendingPerPair (reuseNothing s id request late).db := by
    intro id request late
    cases late <;> exact h
  cases action with
  | advance elapsed =>
    cases hstep
    exact h
  | elsewhere social =>
    cases hstep
    exact h
  | start userId friendId =>
    cases hstep
    exact h
  | fail id =>
    cases hstep
    exact h
  | checkFriendship id =>
    simp only [step] at hstep
    split at hstep
    · split at hstep <;> cases hstep <;> exact h
    · cases hstep
  | expire id =>
    simp only [step] at hstep
    split at hstep
    · rename_i request _
      cases hstep
      exact h.expire request
    · cases hstep
  | reuse id =>
    simp only [step] at hstep
    split at hstep
    · split at hstep
      · cases hstep
        exact hnothing _ _ _
      · split at hstep <;> cases hstep
        · exact hreuse s _ _ _ _ h
        · exact h
    · cases hstep
  | accept id =>
    simp only [step] at hstep
    split at hstep
    · split at hstep
      · cases hstep
        exact hnothing _ _ _
      · rename_i haccept
        cases hstep
        exact hreuse _ _ _ _ _ (h.accept haccept)
    · cases hstep
  | checkRecent id =>
    simp only [step] at hstep
    split at hstep
    · split at hstep <;> cases hstep <;> exact h
    · cases hstep
  | countActive id =>
    simp only [step] at hstep
    split at hstep
    · split at hstep <;> cases hstep <;> exact h
    · cases hstep
  | insert id callId room =>
    simp only [step] at hstep
    split at hstep
    · split at hstep
      · split at hstep <;> cases hstep
        · exact h
        · exact h
        · rename_i hinsert
          exact h.insert hinsert
      · cases hstep
    · cases hstep
  | prune id succeeds =>
    simp only [step] at hstep
    split at hstep
    · cases hstep
      cases succeeds
      · exact h
      · exact h.prune _
    · cases hstep
  | alert id succeeds =>
    simp only [step] at hstep
    split at hstep
    · cases hstep
      cases succeeds <;> exact h
    · cases hstep
  | respond userId callId accept =>
    simp only [step] at hstep
    split at hstep
    · cases hstep
      exact h
    · split at hstep <;> cases hstep
      · exact h.update callId (by cases accept <;> exact nofun)
      · exact h

end Pairs

/-! ## What the requests have noted -/

section Orderly

/-- The request is about to announce the call. -/
def Announcing (s : State) (id : ℕ) (callId calleeId : Uuid) : Prop :=
  (∃ callerId, s.tasks.lookup id = some (.pruning callId callerId calleeId)) ∨
    s.tasks.lookup id = some (.alerting callId calleeId)

/-- A call that is about to be announced has been inserted by the request and not been announced
yet; requests that have reused or announced a call are over. -/
structure Orderly (s : State) : Prop where
  known : ∀ id ∈ s.tasks, id < s.started
  insertedOnce : ∀ first second callId calleeId otherId,
    .inserted first callId calleeId ∈ s.history → .inserted second callId otherId ∈ s.history →
      first = second
  announcing : ∀ id callId calleeId, Announcing s id callId calleeId →
    .inserted id callId calleeId ∈ s.history ∧
      ∀ other recipientId, .alerted other callId recipientId ∉ s.history
  reused : ∀ id callId, .reused id callId ∈ s.history → id < s.started ∧ id ∉ s.tasks
  alerted : ∀ id callId recipientId, .alerted id callId recipientId ∈ s.history →
    id < s.started ∧ id ∉ s.tasks
  ringsOnce : RingsOnce s.history

theorem orderly_initial (db : PeopleDatabase) : Orderly (initial db) where
  known _ h := by cases h
  insertedOnce _ _ _ _ _ h := by cases h
  announcing _ _ _ h := by rcases h with ⟨_, h⟩ | h <;> cases h
  reused _ _ h := by cases h
  alerted _ _ _ h := by cases h
  ringsOnce := ⟨fun _ => Nat.zero_le _, nofun, nofun⟩

variable {s t : State} {id : ℕ}

theorem mem_of_task {task : Task} (htask : s.tasks.lookup id = some task) : id ∈ s.tasks :=
  AList.lookup_isSome.mp (Option.isSome_of_eq_some htask)

namespace Orderly

variable (h : Orderly s)

include h

/-- Nothing is noted, and nobody is about to announce a call who was not before. -/
theorem of_quiet (hhistory : t.history = s.history) (hstarted : s.started ≤ t.started)
    (htasks : ∀ id ∈ t.tasks, id ∈ s.tasks ∨ (s.started ≤ id ∧ id < t.started))
    (hannouncing : ∀ id callId calleeId, Announcing t id callId calleeId →
      Announcing s id callId calleeId) : Orderly t where
  known id hid := by
    rcases htasks id hid with hold | ⟨_, hnew⟩
    · exact (h.known id hold).trans_le hstarted
    · exact hnew
  insertedOnce := by
    rw [hhistory]
    exact h.insertedOnce
  announcing id callId calleeId hid := by
    rw [hhistory]
    exact h.announcing id callId calleeId (hannouncing id callId calleeId hid)
  reused id callId hevent := by
    rw [hhistory] at hevent
    obtain ⟨hlt, hnot⟩ := h.reused id callId hevent
    refine ⟨hlt.trans_le hstarted, fun hid => ?_⟩
    rcases htasks id hid with hold | ⟨hle, _⟩
    · exact hnot hold
    · exact absurd hlt (Nat.not_lt_of_ge hle)
  alerted id callId recipientId hevent := by
    rw [hhistory] at hevent
    obtain ⟨hlt, hnot⟩ := h.alerted id callId recipientId hevent
    refine ⟨hlt.trans_le hstarted, fun hid => ?_⟩
    rcases htasks id hid with hold | ⟨hle, _⟩
    · exact hnot hold
    · exact absurd hlt (Nat.not_lt_of_ge hle)
  ringsOnce := by
    rw [hhistory]
    exact h.ringsOnce

theorem finish : Orderly (s.finish id) := by
  refine h.of_quiet rfl (Nat.le_refl _) (fun other hother => ?_)
    fun other callId calleeId hother => ?_
  · exact .inl (AList.mem_erase.mp hother).2
  · have hne : other ≠ id := by
      rintro rfl
      simp [Announcing, State.finish] at hother
    simpa [Announcing, State.finish, AList.lookup_erase_ne hne] using hother

/-- A request of the running ones goes on. -/
theorem setTask {task : Task} (hid : id ∈ s.tasks)
    (hquiet : ∀ callId calleeId, Announcing (s.setTask id task) id callId calleeId →
      Announcing s id callId calleeId) : Orderly (s.setTask id task) := by
  refine h.of_quiet rfl (Nat.le_refl _) (fun other hother => ?_)
    fun other callId calleeId hother => ?_
  · rcases (AList.mem_insert s.tasks).mp hother with rfl | hold
    · exact .inl hid
    · exact .inl hold
  · by_cases hne : other = id
    · subst hne
      exact hquiet callId calleeId hother
    · simpa [Announcing, State.setTask, AList.lookup_insert_ne hne] using hother

/-- The request that has inserted a call nobody has announced is about to announce it. -/
theorem announce {callId callerId calleeId : Uuid} (hid : id ∈ s.tasks)
    (hinserted : .inserted id callId calleeId ∈ s.history)
    (hnone : ∀ other recipientId, .alerted other callId recipientId ∉ s.history) :
    Orderly (s.setTask id (.pruning callId callerId calleeId)) where
  known other hother := by
    rcases (AList.mem_insert s.tasks).mp hother with rfl | hold
    · exact h.known _ hid
    · exact h.known other hold
  insertedOnce := h.insertedOnce
  announcing other otherCall otherCallee hother := by
    by_cases hne : other = id
    · subst hne
      rcases hother with ⟨_, hother⟩ | hother
      · rw [State.setTask, AList.lookup_insert] at hother
        cases hother
        exact ⟨hinserted, hnone⟩
      · rw [State.setTask, AList.lookup_insert] at hother
        cases hother
    · refine h.announcing other otherCall otherCallee ?_
      simpa [Announcing, State.setTask, AList.lookup_insert_ne hne] using hother
  reused other otherCall hevent := by
    obtain ⟨hlt, hnot⟩ := h.reused other otherCall hevent
    refine ⟨hlt, fun hother => ?_⟩
    rcases (AList.mem_insert s.tasks).mp hother with rfl | hold
    · exact hnot hid
    · exact hnot hold
  alerted other otherCall recipientId hevent := by
    obtain ⟨hlt, hnot⟩ := h.alerted other otherCall recipientId hevent
    refine ⟨hlt, fun hother => ?_⟩
    rcases (AList.mem_insert s.tasks).mp hother with rfl | hold
    · exact hnot hid
    · exact hnot hold
  ringsOnce := h.ringsOnce

/-- A request that is over has reused a call, and announces none. -/
theorem note_reused {callId : Uuid} (hlt : id < s.started) (hover : id ∉ s.tasks)
    (hsilent : ∀ other recipientId, .alerted id other recipientId ∉ s.history) :
    Orderly (s.note (.reused id callId)) where
  known := h.known
  insertedOnce first second _ _ _ hfirst hsecond := by
    simp only [State.note, List.mem_append, List.mem_singleton, reduceCtorEq, or_false]
      at hfirst hsecond
    exact h.insertedOnce _ _ _ _ _ hfirst hsecond
  announcing other otherCall calleeId hother := by
    obtain ⟨hinserted, hnone⟩ := h.announcing other otherCall calleeId hother
    simp only [State.note, List.mem_append, List.mem_singleton, reduceCtorEq, or_false]
    exact ⟨hinserted, hnone⟩
  reused other otherCall hevent := by
    rcases List.mem_append.mp hevent with hold | hnew
    · exact h.reused other otherCall hold
    · cases List.mem_singleton.mp hnew
      exact ⟨hlt, hover⟩
  alerted other otherCall recipientId hevent := by
    simp only [State.note, List.mem_append, List.mem_singleton, reduceCtorEq, or_false] at hevent
    exact h.alerted other otherCall recipientId hevent
  ringsOnce := by
    refine ⟨fun other => ?_, fun other otherCall recipientId hevent => ?_,
      fun other otherCall recipientId hevent last hreused => ?_⟩
    · simpa [State.note, List.countP_append] using h.ringsOnce.once other
    · simp only [State.note, List.mem_append, List.mem_singleton, reduceCtorEq, or_false]
        at hevent ⊢
      exact h.ringsOnce.inserter other otherCall recipientId hevent
    · simp only [State.note, List.mem_append, List.mem_singleton, reduceCtorEq, or_false] at hevent
      rcases List.mem_append.mp hreused with hold | hnew
      · exact h.ringsOnce.silent other otherCall recipientId hevent last hold
      · cases List.mem_singleton.mp hnew
        exact hsilent otherCall recipientId hevent

theorem note_inserted {callId calleeId : Uuid}
    (hunused : ∀ other otherCallee, .inserted other callId otherCallee ∉ s.history) :
    Orderly (s.note (.inserted id callId calleeId)) where
  known := h.known
  insertedOnce first second otherCall firstCallee secondCallee hfirst hsecond := by
    rcases List.mem_append.mp hfirst with hfirst | hfirst <;>
      rcases List.mem_append.mp hsecond with hsecond | hsecond
    · exact h.insertedOnce _ _ _ _ _ hfirst hsecond
    · cases List.mem_singleton.mp hsecond
      exact absurd hfirst (hunused _ _)
    · cases List.mem_singleton.mp hfirst
      exact absurd hsecond (hunused _ _)
    · cases List.mem_singleton.mp hfirst
      cases List.mem_singleton.mp hsecond
      rfl
  announcing other otherCall otherCallee hother := by
    obtain ⟨hinserted, hnone⟩ := h.announcing other otherCall otherCallee hother
    refine ⟨List.mem_append_left _ hinserted, fun last recipientId hevent => ?_⟩
    simp only [State.note, List.mem_append, List.mem_singleton, reduceCtorEq, or_false] at hevent
    exact hnone last recipientId hevent
  reused other otherCall hevent := by
    simp only [State.note, List.mem_append, List.mem_singleton, reduceCtorEq, or_false] at hevent
    exact h.reused other otherCall hevent
  alerted other otherCall recipientId hevent := by
    simp only [State.note, List.mem_append, List.mem_singleton, reduceCtorEq, or_false] at hevent
    exact h.alerted other otherCall recipientId hevent
  ringsOnce := by
    refine ⟨fun other => ?_, fun other otherCall recipientId hevent => ?_,
      fun other otherCall recipientId hevent last hreused => ?_⟩
    · simpa [State.note, List.countP_append] using h.ringsOnce.once other
    · simp only [State.note, List.mem_append, List.mem_singleton, reduceCtorEq, or_false] at hevent
      exact List.mem_append_left _ (h.ringsOnce.inserter other otherCall recipientId hevent)
    · simp only [State.note, List.mem_append, List.mem_singleton, reduceCtorEq, or_false]
        at hevent hreused
      exact h.ringsOnce.silent other otherCall recipientId hevent last hreused

/-- The request that has inserted the call is over and announces it, as the first. -/
theorem note_alerted {callId calleeId : Uuid} (hlt : id < s.started) (hover : id ∉ s.tasks)
    (hinserted : .inserted id callId calleeId ∈ s.history)
    (hnone : ∀ other recipientId, .alerted other callId recipientId ∉ s.history)
    (hfresh : ∀ other, .reused id other ∉ s.history) :
    Orderly (s.note (.alerted id callId calleeId)) where
  known := h.known
  insertedOnce first second _ _ _ hfirst hsecond := by
    simp only [State.note, List.mem_append, List.mem_singleton, reduceCtorEq, or_false]
      at hfirst hsecond
    exact h.insertedOnce _ _ _ _ _ hfirst hsecond
  announcing other otherCall otherCallee hother := by
    obtain ⟨hother', hnone'⟩ := h.announcing other otherCall otherCallee hother
    refine ⟨List.mem_append_left _ hother', fun last recipientId hevent => ?_⟩
    rcases List.mem_append.mp hevent with hold | hnew
    · exact hnone' last recipientId hold
    · -- Whoever else is about to announce this call would have inserted it.
      cases List.mem_singleton.mp hnew
      have hsame := h.insertedOnce _ _ _ _ _ hother' hinserted
      subst hsame
      rcases hother with ⟨_, hother⟩ | hother <;>
        exact hover (AList.lookup_isSome.mp (Option.isSome_of_eq_some hother))
  reused other otherCall hevent := by
    simp only [State.note, List.mem_append, List.mem_singleton, reduceCtorEq, or_false] at hevent
    exact h.reused other otherCall hevent
  alerted other otherCall recipientId hevent := by
    rcases List.mem_append.mp hevent with hold | hnew
    · exact h.alerted other otherCall recipientId hold
    · cases List.mem_singleton.mp hnew
      exact ⟨hlt, hover⟩
  ringsOnce := by
    refine ⟨fun other => ?_, fun other otherCall recipientId hevent => ?_,
      fun other otherCall recipientId hevent last hreused => ?_⟩
    · have honce := h.ringsOnce.once other
      rw [State.note, List.countP_append]
      by_cases heq : callId = other
      · subst heq
        have hzero : (s.history.countP fun
            | .alerted _ otherCall _ => otherCall = callId
            | _ => false) = 0 := by
          rw [List.countP_eq_zero]
          intro event hevent
          cases event with
          | alerted last otherCall recipientId =>
            intro hmatch
            cases of_decide_eq_true hmatch
            exact hnone last recipientId hevent
          | inserted _ _ _ => exact nofun
          | reused _ _ => exact nofun
        rw [hzero, Nat.zero_add]
        exact List.countP_le_length
      · simpa [List.countP_singleton, heq] using honce
    · rcases List.mem_append.mp hevent with hold | hnew
      · exact List.mem_append_left _ (h.ringsOnce.inserter other otherCall recipientId hold)
      · cases List.mem_singleton.mp hnew
        exact List.mem_append_left _ hinserted
    · simp only [State.note, List.mem_append, List.mem_singleton, reduceCtorEq, or_false] at hreused
      rcases List.mem_append.mp hevent with hold | hnew
      · exact h.ringsOnce.silent other otherCall recipientId hold last hreused
      · cases List.mem_singleton.mp hnew
        exact hfresh last hreused

theorem with_db (db : PeopleDatabase) : Orderly { s with db } :=
  h.of_quiet rfl (Nat.le_refl _) (fun _ hid => .inl hid) fun _ _ _ hid => hid

theorem reuseNothing (hid : id ∈ s.tasks) (request : CallRequest) (late : Bool) :
    Orderly (reuseNothing s id request late) := by
  cases late with
  | true => exact h.finish
  | false => exact h.setTask hid (by simp [Announcing, State.setTask])

/-- A request that finds a call early has its answer. -/
theorem reuseCall (hid : id ∈ s.tasks) (callId : Uuid) (invitation : CallInvitation) :
    Orderly (reuseCall s id false callId invitation) := by
  refine h.finish.note_reused (h.known id hid) (by simp [State.finish]) fun other recipientId => ?_
  exact fun hevent => (h.alerted id other recipientId hevent).2 hid

/-- The call inserted is the request's own to announce. -/
theorem insertCall (hid : id ∈ s.tasks) {callId : Uuid} (hunused : Unused s callId)
    (db : PeopleDatabase) (callerId calleeId : Uuid) :
    Orderly (({ s with db }.note (.inserted id callId calleeId)).setTask id
      (.pruning callId callerId calleeId)) := by
  have hnew : ∀ other otherCallee, .inserted other callId otherCallee ∉ s.history :=
    fun other otherCallee hevent => hunused.2 _ hevent rfl
  refine ((h.with_db db).note_inserted hnew).announce hid
    (List.mem_append_right _ List.mem_cons_self) fun other recipientId hevent => ?_
  simp only [State.note, List.mem_append, List.mem_singleton, reduceCtorEq, or_false] at hevent
  exact hnew other recipientId (h.ringsOnce.inserter other callId recipientId hevent)

theorem alertIncomingCall {callId calleeId : Uuid}
    (htask : s.tasks.lookup id = some (.alerting callId calleeId)) (succeeds : Bool) :
    Orderly ((alertIncomingCall s id callId calleeId succeeds).finish id) := by
  cases succeeds with
  | false => exact h.finish
  | true =>
    have hid := mem_of_task htask
    obtain ⟨hinserted, hnone⟩ := h.announcing id callId calleeId (.inr htask)
    exact h.finish.note_alerted (h.known id hid) (by simp [State.finish]) hinserted hnone
      fun other hevent => (h.reused id other hevent).2 hid

/-! One lemma for each kind of step that a request takes. -/

theorem step_start (userId friendId : Uuid) :
    Orderly ({ s with started := s.started + 1 }.setTask s.started
      (.checking userId friendId)) := by
  refine h.of_quiet rfl (Nat.le_succ _) (fun id hid => ?_) fun id callId calleeId hid => ?_
  · rcases (AList.mem_insert s.tasks).mp hid with rfl | hold
    · exact .inr ⟨Nat.le_refl _, Nat.lt_succ_self _⟩
    · exact .inl hold
  · by_cases heq : id = s.started
    · subst heq
      simp [Announcing, State.setTask] at hid
    · simpa [Announcing, State.setTask, AList.lookup_insert_ne heq] using hid

theorem step_checkFriendship (hstep : step s (.checkFriendship id) = some t) : Orderly t := by
  simp only [step] at hstep
  split at hstep
  · rename_i htask
    split at hstep <;> cases hstep
    · exact h.setTask (mem_of_task htask) (by simp [Announcing, State.setTask])
    · exact h.finish
  · cases hstep

theorem step_expire (hstep : step s (.expire id) = some t) : Orderly t := by
  simp only [step] at hstep
  split at hstep
  · rename_i htask
    cases hstep
    exact (h.with_db _).setTask (mem_of_task htask) (by simp [Announcing, State.setTask])
  · cases hstep

theorem step_reuse (hlate : FindsNothingLate s (.reuse id))
    (hstep : step s (.reuse id) = some t) : Orderly t := by
  simp only [step] at hstep
  split at hstep
  · rename_i request late htask
    split at hstep
    · cases hstep
      exact h.reuseNothing (mem_of_task htask) request late
    · rename_i callId invitation hfound
      split at hstep <;> cases hstep
      · rename_i hown
        cases late with
        | false => exact h.reuseCall (mem_of_task htask) callId invitation
        | true => exact absurd hown (hlate _ htask (callId, invitation) hfound)
      · exact h.setTask (mem_of_task htask) (by simp [Announcing, State.setTask])
  · cases hstep

theorem step_accept (hlate : FindsNothingLate s (.accept id))
    (hstep : step s (.accept id) = some t) : Orderly t := by
  simp only [step] at hstep
  split at hstep
  · rename_i request late callId htask
    split at hstep
    · cases hstep
      exact h.reuseNothing (mem_of_task htask) request late
    · rename_i accepted db haccept
      cases hstep
      cases late with
      | false => exact (h.with_db db).reuseCall (mem_of_task htask) callId accepted
      | true =>
        unfold acceptPending at haccept
        split at haccept
        · cases haccept
        · rename_i invitation hlookup
          rw [if_neg (hlate _ htask invitation hlookup)] at haccept
          cases haccept
  · cases hstep

theorem step_checkRecent (hstep : step s (.checkRecent id) = some t) : Orderly t := by
  simp only [step] at hstep
  split at hstep
  · rename_i htask
    split at hstep <;> cases hstep
    · exact h.finish
    · exact h.setTask (mem_of_task htask) (by simp [Announcing, State.setTask])
  · cases hstep

theorem step_countActive (hstep : step s (.countActive id) = some t) : Orderly t := by
  simp only [step] at hstep
  split at hstep
  · rename_i htask
    split at hstep <;> cases hstep
    · exact h.finish
    · exact h.setTask (mem_of_task htask) (by simp [Announcing, State.setTask])
  · cases hstep

theorem step_insert {callId : Uuid} {room : RoomId}
    (hstep : step s (.insert id callId room) = some t) : Orderly t := by
  simp only [step] at hstep
  split at hstep
  · rename_i htask
    split at hstep
    · rename_i hunused
      split at hstep <;> cases hstep
      · exact h.finish
      · exact h.setTask (mem_of_task htask) (by simp [Announcing, State.setTask])
      · exact h.insertCall (mem_of_task htask) hunused _ _ _
    · cases hstep
  · cases hstep

theorem step_prune {succeeds : Bool} (hstep : step s (.prune id succeeds) = some t) :
    Orderly t := by
  simp only [step] at hstep
  split at hstep
  · rename_i callId callerId calleeId htask
    cases hstep
    refine (h.with_db _).setTask (mem_of_task htask) fun otherCall otherCallee hother => ?_
    simp only [Announcing, State.setTask, AList.lookup_insert, Option.some.injEq, reduceCtorEq,
      exists_false, false_or, Task.alerting.injEq] at hother
    obtain ⟨rfl, rfl⟩ := hother
    exact .inl ⟨callerId, htask⟩
  · cases hstep

theorem step_alert {succeeds : Bool} (hstep : step s (.alert id succeeds) = some t) :
    Orderly t := by
  simp only [step] at hstep
  split at hstep
  · rename_i htask
    cases hstep
    exact h.alertIncomingCall htask succeeds
  · cases hstep

theorem step_respond {userId callId : Uuid} {accept : Bool}
    (hstep : step s (.respond userId callId accept) = some t) : Orderly t := by
  simp only [step] at hstep
  split at hstep
  · cases hstep
    exact h
  · split at hstep <;> cases hstep
    · exact h.with_db _
    · exact h

end Orderly

/-- A step keeps what is noted in order, if a request that comes late finds nothing. -/
theorem orderly_step {action : Action} (h : Orderly s) (hlate : FindsNothingLate s action)
    (hstep : step s action = some t) : Orderly t := by
  cases action with
  | advance elapsed =>
    cases hstep
    exact h.of_quiet rfl (Nat.le_refl _) (fun _ hid => .inl hid) fun _ _ _ hid => hid
  | elsewhere social =>
    cases hstep
    exact h.with_db _
  | fail id =>
    cases hstep
    exact h.finish
  | start userId friendId =>
    cases hstep
    exact h.step_start userId friendId
  | checkFriendship id => exact h.step_checkFriendship hstep
  | expire id => exact h.step_expire hstep
  | reuse id => exact h.step_reuse hlate hstep
  | accept id => exact h.step_accept hlate hstep
  | checkRecent id => exact h.step_checkRecent hstep
  | countActive id => exact h.step_countActive hstep
  | insert id callId room => exact h.step_insert hstep
  | prune id succeeds => exact h.step_prune hstep
  | alert id succeeds => exact h.step_alert hstep
  | respond userId callId accept => exact h.step_respond hstep

end Orderly

/-! ## A call rings once -/

/-- The pairs are kept apart in every state of every run; and a call rings once as long as no
request that another one has been faster than finds a call to reuse. -/
theorem call_rings_once (db : PeopleDatabase) (hdb : OnePendingPerPair db)
    (actions : List Action) :
    (system db).Always (fun s => OnePendingPerPair s.db) (initial db) actions ∧
      ((system db).Guarded FindsNothingLate (initial db) actions →
        (system db).Always (fun s => RingsOnce s.history) (initial db) actions) := by
  have hpairs : ∀ s action t, OnePendingPerPair s.db → (system db).step s action = some t →
      OnePendingPerPair t.db := fun _ _ _ hs hstep => onePending_step hs hstep
  have horder : ∀ s action t, Orderly s → FindsNothingLate s action →
      (system db).step s action = some t → Orderly t :=
    fun _ _ _ hs hlate hstep => orderly_step hs hlate hstep
  refine ⟨System.always_of_invariant hpairs hdb actions, fun hlate => ?_⟩
  exact System.always_mono (fun _ hs => hs.ringsOnce)
    (System.always_of_guarded horder (orderly_initial db) hlate)

/-- Users 1 and 2 are friends. -/
def friends : PeopleDatabase :=
  ⟨{ SocialRequests.emptyDatabase Accounts.Database.migrated with
      friendships := AList.insert 1 ⟨1, 2, .accepted⟩ ∅ }, ∅, ∅, ∅, ∅⟩

/-- Up to where the request inserts its call. -/
def upToInsert (id : ℕ) : List Action :=
  [.checkFriendship id, .expire id, .reuse id, .checkRecent id, .countActive id]

def announce (id : ℕ) : List Action := [.prune id true, .alert id true]

/-- User 1 calls twice; the second request finds the call of the first. -/
def calledAgain : List Action :=
  [.start 1 2, .start 1 2] ++ upToInsert 0 ++ [.insert 0 7 "room"] ++
    [.checkFriendship 1, .expire 1, .reuse 1] ++ announce 0 ++ [.respond 2 7 true]

/-- Both requests have found nothing to reuse before the first inserts its call. -/
def calledAtOnce : List Action :=
  [.start 1 2, .start 1 2] ++ upToInsert 0 ++ upToInsert 1 ++
    [.insert 0 7 "room", .insert 1 8 "other", .reuse 1] ++ announce 0 ++ announce 1

theorem onePending_friends : OnePendingPerPair friends := by
  intro first second firstCall secondCall hfirst
  cases hfirst

/-- The call is announced by the request that has made it, and answered. -/
theorem calledAgain_rings_once :
    ((system friends).runFrom (initial friends) calledAgain).any (fun s =>
        s.history = [.inserted 0 7 2, .reused 1 7, .alerted 0 7 2] ∧
          (s.db.callInvitations.lookup 7).any (·.status = .accepted)) ∧
      (system friends).Always (fun s => RingsOnce s.history) (initial friends) calledAgain :=
  ⟨by decide +kernel,
    (call_rings_once friends onePending_friends calledAgain).2 (by decide +kernel)⟩

/-- The slower request announces the call of the faster one once more. -/
theorem calledAtOnce_rings_twice :
    ¬ (system friends).Always (fun s => RingsOnce s.history) (initial friends) calledAtOnce := by
  refine System.not_always_of_run
    (fun s => .reused 1 7 ∈ s.history ∧ .alerted 1 7 2 ∈ s.history) (by decide +kernel) ?_
  intro t ht hrings
  obtain ⟨hreused, halerted⟩ := of_decide_eq_true ht
  exact hrings.silent 1 7 2 halerted 7 hreused

end OpenMeet.RingingCalls
