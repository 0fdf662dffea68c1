import OpenMeet.BadgeNews
import OpenMeet.SignalingServer
import OpenMeet.SlidingWindow
import OpenMeet.TransitionSystem

/-!
Passwords of meeting rooms and the limit on guessing them. The failed attempts
of a room are looked at before a password is verified and added to afterwards,
with the slow hash between the two, so passwords under verification do not count
against the limit.
-/
namespace OpenMeet.RoomPasswords

open KeyedMap Messages RoomState SlidingWindow SocialTables ConversationApi BadgeNews
open TransitionSystem
open SignalingServer (MeetingRoomAdmission)

def passwordAttemptLimit : ℕ := 10

/-- A minute, in the nanoseconds of the monotonic clock. -/
def passwordAttemptWindow : ℕ := 60 * 10 ^ 9

structure AdmissionRequest where
  roomId : RoomId
  userId : Option Uuid
  password : Option String
  deriving DecidableEq, Repr

/-- Admission but for the password. -/
def admissionWithoutPassword (policy : GroupAccessPolicy)
    (isOwner isInvited isEligible isSignedIn : Bool) : MeetingRoomAdmission :=
  if isOwner || isInvited then .allowed
  else
    match policy with
    | .open => .allowed
    | .password => .passwordRequired
    | .friendsOnly =>
      if !isSignedIn then .denied "Sign in to join this meeting"
      else if !isEligible then .denied "This meeting is limited to the host's friends"
      else .allowed
    | .friendsOfFriends =>
      if !isSignedIn then .denied "Sign in to join this meeting"
      else if !isEligible then
        .denied "This meeting is limited to the host's friends and their friends"
      else .allowed

/-- Guests are neither invited nor eligible. -/
def admissionFor (room : MeetingRoom) (userId : Option Uuid) (isInvited isEligible : Bool) :
    MeetingRoomAdmission :=
  admissionWithoutPassword room.accessPolicy (userId = some room.ownerId)
    (userId.isSome && isInvited) (userId.isSome && isEligible) userId.isSome

/-- Whether the password fits; a failure to verify counts as a wrong one. -/
def passwordMatches (env : Environment) (room : MeetingRoom) (password : String) : Bool :=
  (verifyGroupPassword env room.passwordHash (some password)).toOption.getD false

/-! ## Failed attempts -/

abbrev Failures := Map RoomId (List Instant)

def timesOf (failures : Failures) (roomId : RoomId) : List Instant :=
  (failures.lookup roomId).getD []

/-- Whether another attempt at the room is allowed, once a failure is recorded if one is. Failures
that have left the window are forgotten first, in every room. -/
def failedPasswordAttempts (failures : Failures) (now : Instant) (roomId : RoomId)
    (recordFailure : Bool) : Bool × Failures :=
  let failures := (failures.mapValues fun _ times => prune passwordAttemptWindow now times).retain
    fun _ times => !times.isEmpty
  let times := timesOf failures roomId
  let times := if recordFailure then times ++ [now] else times
  (times.length < passwordAttemptLimit, failures.insert roomId times)

theorem timesOf_pruned (failures : Failures) (now : Instant) (roomId : RoomId) :
    timesOf ((failures.mapValues fun _ times => prune passwordAttemptWindow now times).retain
      fun _ times => !times.isEmpty) roomId =
        prune passwordAttemptWindow now (timesOf failures roomId) := by
  unfold timesOf
  rw [Map.lookup_retain, Map.lookup_mapValues]
  cases failures.lookup roomId with
  | none => rfl
  | some times =>
    cases hpruned : prune passwordAttemptWindow now times <;> simp [hpruned, Option.filter]

@[simp] theorem failedPasswordAttempts_fst (failures : Failures) (now : Instant)
    (roomId : RoomId) :
    (failedPasswordAttempts failures now roomId false).1 =
      decide ((prune passwordAttemptWindow now (timesOf failures roomId)).length <
        passwordAttemptLimit) := by
  simp only [failedPasswordAttempts, timesOf_pruned, Bool.false_eq_true, if_false]

theorem timesOf_failedPasswordAttempts (failures : Failures) (now : Instant)
    (roomId other : RoomId) (recordFailure : Bool) :
    timesOf (failedPasswordAttempts failures now roomId recordFailure).2 other =
      prune passwordAttemptWindow now (timesOf failures other) ++
        if recordFailure ∧ other = roomId then [now] else [] := by
  unfold failedPasswordAttempts
  by_cases heq : other = roomId
  · subst heq
    rw [timesOf, AList.lookup_insert, Option.getD_some, timesOf_pruned]
    cases recordFailure <;> simp
  · rw [timesOf, AList.lookup_insert_ne heq, if_neg (by simp [heq]), List.append_nil]
    exact timesOf_pruned failures now other

/-! ## Requests in progress -/

/-- Where a request is in the admission check. -/
inductive Task
  | started (request : AdmissionRequest)
  | deciding (request : AdmissionRequest) (room : MeetingRoom)
  | checking (room : MeetingRoom) (password : String)
  | verifying (room : MeetingRoom) (password : String)
  | recording (room : MeetingRoom)
  deriving DecidableEq, Repr

structure Answer where
  time : Instant
  roomId : RoomId
  admission : MeetingRoomAdmission
  deriving DecidableEq, Repr

structure State where
  now : Instant
  rooms : Map RoomId MeetingRoom
  failures : Failures
  tasks : Map ℕ Task
  answers : List Answer

def initial : State := ⟨0, ∅, ∅, ∅, []⟩

namespace State

def answer (s : State) (id : ℕ) (roomId : RoomId) (admission : MeetingRoomAdmission) : State :=
  { s with tasks := s.tasks.erase id, answers := s.answers ++ [⟨s.now, roomId, admission⟩] }

def setTask (s : State) (id : ℕ) (task : Task) : State :=
  { s with tasks := s.tasks.insert id task }

end State

inductive Action
  | advance (elapsed : ℕ)
  | setRoom (room : MeetingRoom)
  | removeRoom (roomId : RoomId)
  | start (id : ℕ) (request : AdmissionRequest)
  | findRoom (id : ℕ)
  | decide (id : ℕ) (isInvited isEligible : Bool)
  | check (id : ℕ)
  | verify (id : ℕ)
  | record (id : ℕ)
  | abandon (id : ℕ)
  deriving DecidableEq, Repr

/-- One step of one request, of a room's owner or of the clock. A request ends without an answer
when a query fails or its client goes away. -/
def step (env : Environment) (s : State) : Action → Option State
  | .advance elapsed => some { s with now := s.now + elapsed }
  | .setRoom room => some { s with rooms := s.rooms.insert room.roomId room }
  | .removeRoom roomId => some { s with rooms := s.rooms.erase roomId }
  | .start id request => if id ∈ s.tasks then none else some (s.setTask id (.started request))
  | .findRoom id =>
    match s.tasks.lookup id with
    | some (.started request) =>
      match s.rooms.lookup request.roomId with
      | none => some (s.answer id request.roomId .allowed)
      | some room => some (s.setTask id (.deciding request room))
    | _ => none
  | .decide id isInvited isEligible =>
    match s.tasks.lookup id with
    | some (.deciding request room) =>
      let admission := admissionFor room request.userId isInvited isEligible
      if admission ≠ .passwordRequired then some (s.answer id room.roomId admission)
      else
        match request.password.filter fun password => !password.isEmpty with
        | none => some (s.answer id room.roomId admission)
        | some password => some (s.setTask id (.checking room password))
    | _ => none
  | .check id =>
    match s.tasks.lookup id with
    | some (.checking room password) =>
      let (allowed, failures) := failedPasswordAttempts s.failures s.now room.roomId false
      let s := { s with failures }
      if allowed then some (s.setTask id (.verifying room password))
      else
        some (s.answer id room.roomId
          (.denied "Too many password attempts. Try again in a minute."))
    | _ => none
  | .verify id =>
    match s.tasks.lookup id with
    | some (.verifying room password) =>
      if passwordMatches env room password then some (s.answer id room.roomId .allowed)
      else some (s.setTask id (.recording room))
    | _ => none
  | .record id =>
    match s.tasks.lookup id with
    | some (.recording room) =>
      let (_, failures) := failedPasswordAttempts s.failures s.now room.roomId true
      some ({ s with failures }.answer id room.roomId .wrongPassword)
    | _ => none
  | .abandon id => some { s with tasks := s.tasks.erase id }

def system (env : Environment) : System State Action where
  init := initial
  step := step env

/-! ## The limit -/

/-- When the wrong passwords for the room were answered. -/
def wrongTimes (answers : List Answer) (roomId : RoomId) : List Instant :=
  (answers.filter fun answer =>
    answer.roomId = roomId ∧ answer.admission = .wrongPassword).map (·.time)

/-- No minute has more wrong passwords answered for a room than the limit. -/
def GuessesBounded (s : State) : Prop :=
  ∀ roomId start,
    within passwordAttemptWindow start (wrongTimes s.answers roomId) ≤ passwordAttemptLimit

/-- The request has passed the check with a wrong password that is not recorded yet. -/
def unrecorded (env : Environment) (roomId : RoomId) (_ : ℕ) : Task → Bool
  | .verifying room password => room.roomId = roomId ∧ passwordMatches env room password = false
  | .recording room => room.roomId = roomId
  | _ => false

def unrecordedOf (env : Environment) (s : State) (roomId : RoomId) : List ℕ :=
  Map.matching (unrecorded env roomId) s.tasks

def recentFailures (s : State) (roomId : RoomId) : List Instant :=
  recent passwordAttemptWindow s.now (timesOf s.failures roomId)

/-- A wrong password is checked only while the failures of the last minute and the wrong
passwords still under verification leave room for it, or the failures alone do not. -/
def LeavesRoom (env : Environment) (s : State) : Action → Prop
  | .check id =>
    match s.tasks.lookup id with
    | some (.checking room password) =>
      passwordMatches env room password = false →
        (recentFailures s room.roomId).length < passwordAttemptLimit →
        (recentFailures s room.roomId).length + (unrecordedOf env s room.roomId).length <
          passwordAttemptLimit
    | _ => True
  | _ => True

/-! ## What every run keeps -/

section Invariant

variable {env : Environment} {s t : State}

/-- The failures kept are those answered, as far as they still count, and together with the wrong
passwords under verification they stay within the limit. -/
structure Counted (env : Environment) (s : State) : Prop where
  past : ∀ roomId, ∀ time ∈ wrongTimes s.answers roomId, time ≤ s.now
  sorted : ∀ roomId, (timesOf s.failures roomId).Pairwise (· ≤ ·)
  failed : ∀ roomId, ∀ time ∈ timesOf s.failures roomId, time ≤ s.now
  recorded : ∀ roomId, recent passwordAttemptWindow s.now (wrongTimes s.answers roomId) =
    recentFailures s roomId
  room : ∀ roomId, (recentFailures s roomId).length + (unrecordedOf env s roomId).length ≤
    passwordAttemptLimit
  bounded : GuessesBounded s

theorem counted_initial (env : Environment) : Counted env initial where
  past _ _ h := by cases h
  sorted _ := List.Pairwise.nil
  failed _ _ h := by cases h
  recorded _ := rfl
  room _ := Nat.zero_le _
  bounded _ _ := Nat.zero_le _

theorem wrongTimes_concat (answers : List Answer) (answer : Answer) (roomId : RoomId) :
    wrongTimes (answers ++ [answer]) roomId = wrongTimes answers roomId ++
      if answer.roomId = roomId ∧ answer.admission = .wrongPassword then [answer.time] else [] := by
  unfold wrongTimes
  rw [List.filter_append, List.map_append]
  by_cases h : answer.roomId = roomId ∧ answer.admission = .wrongPassword
  · rw [if_pos h, List.filter_singleton]
    simp [h]
  · rw [if_neg h, List.filter_singleton]
    simp [h]

@[simp] theorem wrongTimes_answer {id : ℕ} {other : RoomId} {admission : MeetingRoomAdmission}
    (h : admission ≠ .wrongPassword) (roomId : RoomId) :
    wrongTimes (s.answer id other admission).answers roomId = wrongTimes s.answers roomId := by
  simp only [State.answer, wrongTimes_concat, h, and_false, if_false, List.append_nil]

/-- The failures of a room after a step that records none there: the clock may have moved, and the
old ones may be forgotten. -/
def Forgotten (s t : State) : Prop :=
  ∀ roomId, timesOf t.failures roomId = timesOf s.failures roomId ∨
    timesOf t.failures roomId = prune passwordAttemptWindow t.now (timesOf s.failures roomId)

namespace Counted

variable (h : Counted env s)

include h

theorem recent_forgotten (hfailures : Forgotten s t) (roomId : RoomId) :
    recentFailures t roomId =
      recent passwordAttemptWindow t.now (timesOf s.failures roomId) := by
  unfold recentFailures
  rcases hfailures roomId with hsame | hpruned
  · rw [hsame]
  · rw [hpruned, prune_eq_recent (h.sorted roomId), recent_recent (Nat.le_refl _)]

theorem length_recent_forgotten (hnow : s.now ≤ t.now) (hfailures : Forgotten s t)
    (roomId : RoomId) :
    (recentFailures t roomId).length ≤ (recentFailures s roomId).length := by
  rw [h.recent_forgotten hfailures]
  exact length_recent_le hnow

/-- A step that answers no wrong password, if it leaves room for those under verification. -/
theorem of_forgotten (hnow : s.now ≤ t.now) (hfailures : Forgotten s t)
    (hwrong : ∀ roomId, wrongTimes t.answers roomId = wrongTimes s.answers roomId)
    (hroom : ∀ roomId, (recentFailures t roomId).length + (unrecordedOf env t roomId).length ≤
      passwordAttemptLimit) : Counted env t where
  past roomId time htime := by
    rw [hwrong] at htime
    exact (h.past roomId time htime).trans hnow
  sorted roomId := by
    rcases hfailures roomId with hsame | hpruned
    · rw [hsame]
      exact h.sorted roomId
    · rw [hpruned, prune_eq_recent (h.sorted roomId)]
      exact sorted_recent (h.sorted roomId)
  failed roomId time htime := by
    have hold : time ∈ timesOf s.failures roomId := by
      rcases hfailures roomId with hsame | hpruned
      · rwa [hsame] at htime
      · rw [hpruned] at htime
        exact (List.dropWhile_sublist _).mem htime
    exact (h.failed roomId time hold).trans hnow
  recorded roomId := by
    calc
      _ = recent passwordAttemptWindow t.now (recentFailures s roomId) := by
        rw [hwrong, ← recent_recent hnow, h.recorded]
      _ = recent passwordAttemptWindow t.now (timesOf s.failures roomId) := recent_recent hnow
      _ = recentFailures t roomId := (h.recent_forgotten hfailures roomId).symm
  room := hroom
  bounded roomId start := by
    rw [hwrong]
    exact h.bounded roomId start

/-- A step that moves no request past the check with a wrong password. -/
theorem of_unrecorded (hnow : s.now ≤ t.now) (hfailures : Forgotten s t)
    (hwrong : ∀ roomId, wrongTimes t.answers roomId = wrongTimes s.answers roomId)
    (hcount : ∀ roomId,
      (unrecordedOf env t roomId).length ≤ (unrecordedOf env s roomId).length) :
    Counted env t := by
  refine h.of_forgotten hnow hfailures hwrong fun roomId => ?_
  have hrecent := h.length_recent_forgotten hnow hfailures roomId
  have hcount := hcount roomId
  have hroom := h.room roomId
  omega

/-- The answer with a wrong password is recorded, and the request is no longer under
verification. -/
theorem of_recorded {failedRoom : RoomId} (hnow : t.now = s.now)
    (hfailures : ∀ roomId, timesOf t.failures roomId =
      prune passwordAttemptWindow s.now (timesOf s.failures roomId) ++
        if roomId = failedRoom then [s.now] else [])
    (hwrong : ∀ roomId, wrongTimes t.answers roomId = wrongTimes s.answers roomId ++
      if roomId = failedRoom then [s.now] else [])
    (hcount : ∀ roomId, (unrecordedOf env t roomId).length +
      (if roomId = failedRoom then 1 else 0) ≤ (unrecordedOf env s roomId).length) :
    Counted env t := by
  have hwindow : 0 < passwordAttemptWindow := by decide
  have hrecent : ∀ roomId, recentFailures t roomId = recentFailures s roomId ++
      if roomId = failedRoom then [s.now] else [] := by
    intro roomId
    unfold recentFailures
    rw [hfailures, hnow, recent_append, prune_eq_recent (h.sorted roomId),
      recent_recent (Nat.le_refl _)]
    split
    · rw [recent_singleton hwindow]
    · rfl
  have hpast : ∀ roomId, ∀ time ∈ wrongTimes t.answers roomId, time ≤ t.now := by
    intro roomId time htime
    rw [hwrong, List.mem_append] at htime
    rw [hnow]
    rcases htime with hold | hnew
    · exact h.past roomId time hold
    · split at hnew
      · rw [List.mem_singleton] at hnew
        exact Nat.le_of_eq hnew
      · cases hnew
  have hrecorded : ∀ roomId,
      recent passwordAttemptWindow t.now (wrongTimes t.answers roomId) =
        recentFailures t roomId := by
    intro roomId
    rw [hwrong, hrecent, hnow, recent_append, h.recorded]
    split
    · rw [recent_singleton hwindow]
    · rfl
  have hroom : ∀ roomId, (recentFailures t roomId).length + (unrecordedOf env t roomId).length ≤
      passwordAttemptLimit := by
    intro roomId
    have hroom := h.room roomId
    have hcount := hcount roomId
    rw [hrecent, List.length_append]
    by_cases heq : roomId = failedRoom
    · rw [if_pos heq] at hcount ⊢
      rw [List.length_singleton]
      omega
    · rw [if_neg heq] at hcount ⊢
      rw [List.length_nil]
      omega
  refine ⟨hpast, fun roomId => ?_, fun roomId time htime => ?_, hrecorded, hroom,
    fun roomId start => ?_⟩
  · have hsorted : (recent passwordAttemptWindow s.now _).Pairwise (· ≤ ·) :=
      sorted_recent (h.sorted roomId)
    rw [hfailures, prune_eq_recent (h.sorted roomId)]
    split
    · refine sorted_concat hsorted fun time htime => ?_
      exact h.failed roomId time (List.mem_of_mem_filter htime)
    · rwa [List.append_nil]
  · rw [hfailures, List.mem_append] at htime
    rw [hnow]
    rcases htime with hold | hnew
    · exact h.failed roomId time ((List.dropWhile_sublist _).mem hold)
    · split at hnew
      · rw [List.mem_singleton] at hnew
        exact Nat.le_of_eq hnew
      · cases hnew
  · rcases Nat.lt_or_ge t.now (start + passwordAttemptWindow) with hopen | hended
    · -- Everything in a window that has not ended still counts now.
      have hwithin := within_le_recent (hpast roomId) hopen
      have hlimit := hroom roomId
      rw [hrecorded] at hwithin
      omega
    · rw [hwrong]
      split
      · have hout : ¬ (start ≤ s.now ∧ s.now < start + passwordAttemptWindow) := by
          rw [hnow] at hended
          exact fun hin => Nat.not_lt_of_ge hended hin.2
        rw [within_concat_of_not hout]
        exact h.bounded roomId start
      · rw [List.append_nil]
        exact h.bounded roomId start

/-- A wrong password goes under verification, where there is room for it. -/
theorem of_checked {checkedRoom : RoomId} (hnow : s.now ≤ t.now) (hfailures : Forgotten s t)
    (hwrong : ∀ roomId, wrongTimes t.answers roomId = wrongTimes s.answers roomId)
    (hleft : (recentFailures s checkedRoom).length + (unrecordedOf env s checkedRoom).length <
      passwordAttemptLimit)
    (hcount : ∀ roomId, (unrecordedOf env t roomId).length ≤
      (unrecordedOf env s roomId).length + if roomId = checkedRoom then 1 else 0) :
    Counted env t := by
  refine h.of_forgotten hnow hfailures hwrong fun roomId => ?_
  have hrecent := h.length_recent_forgotten hnow hfailures roomId
  have hcount := hcount roomId
  by_cases heq : roomId = checkedRoom
  · subst heq
    rw [if_pos rfl] at hcount
    omega
  · have hroom := h.room roomId
    rw [if_neg heq] at hcount
    omega

end Counted

/-- What the condition says of a check with a wrong password. -/
theorem LeavesRoom.check {id : ℕ} {room : MeetingRoom} {password : String}
    (h : LeavesRoom env s (.check id))
    (htask : s.tasks.lookup id = some (.checking room password))
    (hwrong : passwordMatches env room password = false)
    (hfew : (recentFailures s room.roomId).length < passwordAttemptLimit) :
    (recentFailures s room.roomId).length + (unrecordedOf env s room.roomId).length <
      passwordAttemptLimit := by
  simp only [LeavesRoom, htask] at h
  exact h hwrong hfew

theorem wrongTimes_recorded {id : ℕ} {failures : Failures} {other : RoomId} (roomId : RoomId) :
    wrongTimes ({ s with failures }.answer id other .wrongPassword).answers roomId =
      wrongTimes s.answers roomId ++ if roomId = other then [s.now] else [] := by
  simp only [State.answer, wrongTimes_concat, and_true, eq_comm]

theorem admissionFor_ne_wrongPassword (room : MeetingRoom) (userId : Option Uuid)
    (isInvited isEligible : Bool) :
    admissionFor room userId isInvited isEligible ≠ .wrongPassword := by
  unfold admissionFor admissionWithoutPassword
  cases room.accessPolicy <;> grind

section Unrecorded

variable {id : ℕ}

theorem unrecordedOf_setTask {task : Task} (roomId : RoomId)
    (h : unrecorded env roomId id task = true → id ∈ unrecordedOf env s roomId) :
    (unrecordedOf env (s.setTask id task) roomId).length ≤
      (unrecordedOf env s roomId).length :=
  Map.length_matching_insert_le_self h

theorem unrecordedOf_answer {other : RoomId} {admission : MeetingRoomAdmission}
    (roomId : RoomId) :
    (unrecordedOf env (s.answer id other admission) roomId).length ≤
      (unrecordedOf env s roomId).length :=
  Map.length_matching_erase_le

theorem unrecordedOf_verifying {failures : Failures} {room : MeetingRoom} {password : String}
    (roomId : RoomId) :
    (unrecordedOf env ({ s with failures }.setTask id (.verifying room password)) roomId).length ≤
      (unrecordedOf env s roomId).length + if roomId = room.roomId then 1 else 0 := by
  split
  · exact Map.length_matching_insert_le
  · rename_i hne
    exact Map.length_matching_insert_le_self (by simp [unrecorded, Ne.symm hne])

end Unrecorded

/-- One step keeps the failures counted, if a check with a wrong password leaves room. -/
theorem counted_step {action : Action} (h : Counted env s) (hroom : LeavesRoom env s action)
    (hstep : step env s action = some t) : Counted env t := by
  have hsame : Forgotten s s := fun _ => .inl rfl
  cases action with
  | advance elapsed =>
    cases hstep
    exact h.of_unrecorded (Nat.le_add_right _ _) (fun _ => .inl rfl) (fun _ => rfl)
      fun _ => Nat.le_refl _
  | setRoom room =>
    cases hstep
    exact h.of_unrecorded (Nat.le_refl _) hsame (fun _ => rfl) fun _ => Nat.le_refl _
  | removeRoom roomId =>
    cases hstep
    exact h.of_unrecorded (Nat.le_refl _) hsame (fun _ => rfl) fun _ => Nat.le_refl _
  | start id request =>
    simp only [step] at hstep
    split at hstep
    · cases hstep
    · cases hstep
      exact h.of_unrecorded (Nat.le_refl _) hsame (fun _ => rfl) fun roomId =>
        unrecordedOf_setTask roomId nofun
  | findRoom id =>
    simp only [step] at hstep
    split at hstep
    · rename_i request htask
      split at hstep <;> cases hstep
      · exact h.of_unrecorded (Nat.le_refl _) hsame (wrongTimes_answer nofun)
          unrecordedOf_answer
      · exact h.of_unrecorded (Nat.le_refl _) hsame (fun _ => rfl) fun roomId =>
          unrecordedOf_setTask roomId nofun
    · cases hstep
  | decide id isInvited isEligible =>
    simp only [step] at hstep
    split at hstep
    · rename_i request room htask
      have hadmission := admissionFor_ne_wrongPassword room request.userId isInvited isEligible
      split at hstep
      · cases hstep
        exact h.of_unrecorded (Nat.le_refl _) hsame (wrongTimes_answer hadmission)
          unrecordedOf_answer
      · split at hstep <;> cases hstep
        · exact h.of_unrecorded (Nat.le_refl _) hsame (wrongTimes_answer hadmission)
            unrecordedOf_answer
        · exact h.of_unrecorded (Nat.le_refl _) hsame (fun _ => rfl) fun roomId =>
            unrecordedOf_setTask roomId nofun
    · cases hstep
  | check id =>
    simp only [step] at hstep
    split at hstep
    · rename_i room password htask
      have hforgotten : ∀ tasks answers, Forgotten s
          ⟨s.now, s.rooms, (failedPasswordAttempts s.failures s.now room.roomId false).2, tasks,
            answers⟩ := by
        intro tasks answers roomId
        right
        simp [timesOf_failedPasswordAttempts]
      split at hstep <;> cases hstep
      · rename_i hallowed
        by_cases hmatches : passwordMatches env room password = true
        · refine h.of_unrecorded (Nat.le_refl _) (hforgotten _ _) (fun _ => rfl) fun roomId => ?_
          exact Map.length_matching_insert_le_self (by simp [unrecorded, hmatches])
        · -- The wrong password goes under verification, for which the condition has left room.
          have hfew : (recentFailures s room.roomId).length < passwordAttemptLimit := by
            rw [recentFailures, ← prune_eq_recent (h.sorted _)]
            simpa using hallowed
          have hleft := hroom.check htask (by simpa using hmatches) hfew
          exact h.of_checked (Nat.le_refl _) (hforgotten _ _) (fun _ => rfl) hleft
            unrecordedOf_verifying
      · exact h.of_unrecorded (Nat.le_refl _) (hforgotten _ _) (wrongTimes_answer nofun)
          unrecordedOf_answer
    · cases hstep
  | verify id =>
    simp only [step] at hstep
    split at hstep
    · rename_i room password htask
      split at hstep <;> cases hstep
      · exact h.of_unrecorded (Nat.le_refl _) hsame (wrongTimes_answer nofun)
          unrecordedOf_answer
      · rename_i hwrong
        refine h.of_unrecorded (Nat.le_refl _) hsame (fun _ => rfl) fun roomId =>
          unrecordedOf_setTask roomId fun hroom => ?_
        exact Map.mem_matching.mpr ⟨_, htask, by simpa [unrecorded, hwrong] using hroom⟩
    · cases hstep
  | record id =>
    simp only [step] at hstep
    split at hstep
    · rename_i room htask
      cases hstep
      refine h.of_recorded rfl ?_ wrongTimes_recorded fun roomId => ?_
      · intro roomId
        have := timesOf_failedPasswordAttempts s.failures s.now room.roomId roomId true
        simpa [State.answer] using this
      · split
        · rename_i heq
          subst heq
          exact Map.length_matching_erase_lt (Map.mem_matching.mpr ⟨_, htask, by simp [unrecorded]⟩)
        · exact unrecordedOf_answer roomId
    · cases hstep
  | abandon id =>
    cases hstep
    exact h.of_unrecorded (Nat.le_refl _) hsame (fun _ => rfl) fun _ =>
      Map.length_matching_erase_le

end Invariant

/-! ## Guessing -/

/-- As long as every wrong password is checked while the limit leaves room for it, no minute has
more wrong passwords answered for a room than the limit. -/
theorem guesses_bounded_of_leavesRoom (env : Environment) (actions : List Action)
    (h : (system env).Guarded (LeavesRoom env) initial actions) :
    (system env).Always GuessesBounded initial actions := by
  have hkeep : ∀ s action t, Counted env s → LeavesRoom env s action →
      (system env).step s action = some t → Counted env t :=
    fun _ _ _ hs hroom hstep => counted_step hs hroom hstep
  have hcounted := System.always_of_guarded hkeep (counted_initial env) h
  exact System.always_mono (fun _ hs => hs.bounded) hcounted

instance decidableLeavesRoom (env : Environment) (s : State) :
    ∀ action, Decidable (LeavesRoom env s action)
  | .check id =>
    match h : s.tasks.lookup id with
    | some (.checking room password) =>
      decidable_of_iff
        (passwordMatches env room password = false →
          (recentFailures s room.roomId).length < passwordAttemptLimit →
          (recentFailures s room.roomId).length + (unrecordedOf env s room.roomId).length <
            passwordAttemptLimit) (by simp only [LeavesRoom, h])
    | none => isTrue (by simp only [LeavesRoom, h])
    | some (.started _) => isTrue (by simp only [LeavesRoom, h])
    | some (.deciding _ _) => isTrue (by simp only [LeavesRoom, h])
    | some (.verifying _ _) => isTrue (by simp only [LeavesRoom, h])
    | some (.recording _) => isTrue (by simp only [LeavesRoom, h])
  | .advance _ => isTrue trivial
  | .setRoom _ => isTrue trivial
  | .removeRoom _ => isTrue trivial
  | .start _ _ => isTrue trivial
  | .findRoom _ => isTrue trivial
  | .decide _ _ _ => isTrue trivial
  | .verify _ => isTrue trivial
  | .record _ => isTrue trivial
  | .abandon _ => isTrue trivial

def standup : MeetingRoom := ⟨"standup", 1, .password, some "secret", by decide⟩

/-- A guest's guess, up to where the failed attempts allow it. -/
def ask (id : ℕ) : List Action :=
  [.start id ⟨"standup", none, some "guess"⟩, .findRoom id, .decide id false false, .check id]

def settle (id : ℕ) : List Action := [.verify id, .record id]

/-- Ten guesses one after the other, and one more. -/
def oneByOne : List Action :=
  .setRoom standup :: ((List.range 10).flatMap fun id => ask id ++ settle id) ++ ask 10

/-- Eleven guesses that have all passed the check before the first is recorded. -/
def atOnce : List Action :=
  .setRoom standup :: ((List.range 11).flatMap ask) ++ (List.range 11).flatMap settle

/-- The eleventh guess in a row is turned away. -/
theorem oneByOne_bounded :
    (((system plainHashing).runFrom initial oneByOne).any fun s =>
      (wrongTimes s.answers "standup").length = 10 ∧
        s.answers.getLast?.map (·.admission) =
          some (.denied "Too many password attempts. Try again in a minute.")) ∧
      (system plainHashing).Always GuessesBounded initial oneByOne :=
  ⟨by decide +kernel,
    guesses_bounded_of_leavesRoom plainHashing oneByOne (by decide +kernel)⟩

/-- Eleven guesses at once are all answered within the same minute. -/
theorem atOnce_unbounded :
    ¬ (system plainHashing).Always GuessesBounded initial atOnce := by
  refine System.not_always_of_run (fun s => passwordAttemptLimit <
    within passwordAttemptWindow 0 (wrongTimes s.answers "standup")) (by decide +kernel) ?_
  intro t ht hbounded
  have hmore := of_decide_eq_true ht
  exact Nat.not_lt_of_ge (hbounded "standup" 0) hmore

end OpenMeet.RoomPasswords
