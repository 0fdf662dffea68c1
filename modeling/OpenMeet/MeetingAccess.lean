import OpenMeet.ReadThenWrite
import OpenMeet.RoomPasswords

/-!
Who may join a meeting, as its host changes it. A request reads the room, hashes
a password for a while if it brings one, and writes the policy and the hash. A
request that keeps the password writes the hash it has read, which is the
password in force only if nobody has changed it in between.
-/
namespace OpenMeet.MeetingAccess

open Accounts Messages SocialTables ConversationApi BadgeNews RoomPasswords ReadThenWrite
  TransitionSystem

structure MeetingRoomSettingsRequest where
  userId : Uuid
  accessPolicy : GroupAccessPolicy
  password : Option String
  /-- What the hash of the password is salted with. -/
  salt : String
  deriving DecidableEq, Repr

/-- The columns a request writes, as the table's constraint has them. -/
structure Access where
  accessPolicy : GroupAccessPolicy
  passwordHash : Option String
  hash_of_policy : accessPolicy = .password ↔ passwordHash.isSome = true
  deriving Repr

def validatedPasswordHash (env : Environment) (salt : String) (policy : GroupAccessPolicy)
    (password : Option String) : Except ApiError (Option String) :=
  match policy, password with
  | .password, some password =>
    if 4 ≤ password.utf8ByteSize ∧ password.utf8ByteSize ≤ 256 then
      hashGroupPassword env salt (some password)
    else .error ⟨400, "Meeting passwords must contain 4 to 256 characters"⟩
  | .password, none => .error ⟨400, "Meeting passwords must contain 4 to 256 characters"⟩
  | _, none => .ok none
  | _, some _ => .error ⟨400, "Only password meetings may include a password"⟩

/-- A password is hashed for the password policy and there is none for the others. -/
theorem validatedPasswordHash_ok {env : Environment} {salt : String} {policy : GroupAccessPolicy}
    {password hash : Option String}
    (h : validatedPasswordHash env salt policy password = .ok hash) :
    (policy = .password ∧ ∃ text value, password = some text ∧
        env.hashPassword salt text = some value ∧ hash = some value) ∨
      (policy ≠ .password ∧ hash = none) := by
  unfold validatedPasswordHash at h
  split at h
  · rename_i text
    split at h
    · left
      simp only [hashGroupPassword] at h
      split at h
      · rename_i value hvalue
        cases h
        exact ⟨rfl, text, value, rfl, hvalue, rfl⟩
      · cases h
    · cases h
  · cases h
  · rename_i hpolicy
    cases h
    exact Or.inr ⟨hpolicy, rfl⟩
  · cases h

theorem hash_of_validated {env : Environment} {salt : String} {policy : GroupAccessPolicy}
    {password hash : Option String}
    (h : validatedPasswordHash env salt policy password = .ok hash) :
    policy = .password ↔ hash.isSome = true := by
  rcases validatedPasswordHash_ok h with ⟨hpolicy, _, _, _, _, rfl⟩ | ⟨hpolicy, rfl⟩
  · simp [hpolicy]
  · simp [hpolicy]

/-- Keeping a password policy without a new password keeps the current password. -/
def keeps (request : MeetingRoomSettingsRequest) (room : MeetingRoom) : Prop :=
  request.accessPolicy = .password ∧ room.accessPolicy = .password ∧ request.password = none

instance (request : MeetingRoomSettingsRequest) (room : MeetingRoom) :
    Decidable (keeps request room) :=
  inferInstanceAs (Decidable (_ ∧ _ ∧ _))

/-- What a request writes once it has read the room. -/
def requestedAccess (env : Environment) (request : MeetingRoomSettingsRequest)
    (room : MeetingRoom) : Except ApiError Access :=
  if room.ownerId ≠ request.userId then
    .error ⟨403, "Only the host can change meeting access"⟩
  else if h : keeps request room then
    .ok ⟨request.accessPolicy, room.passwordHash, by
      rw [← room.hash_of_policy, h.1, h.2.1]⟩
  else
    match h : validatedPasswordHash env request.salt request.accessPolicy request.password with
    | .error e => .error e
    | .ok hash => .ok ⟨request.accessPolicy, hash, hash_of_validated h⟩

/-- The update has no condition but the room's id. -/
def updateMeetingRoom (env : Environment) :
    Endpoint MeetingRoom MeetingRoomSettingsRequest Access where
  prepare request room := (requestedAccess env request room).toOption
  store access room :=
    { room with
      accessPolicy := access.accessPolicy
      passwordHash := access.passwordHash
      hash_of_policy := access.hash_of_policy }

theorem requestedAccess_ok {env : Environment} {request : MeetingRoomSettingsRequest}
    {room : MeetingRoom} {access : Access} (h : requestedAccess env request room = .ok access) :
    room.ownerId = request.userId ∧ access.accessPolicy = request.accessPolicy ∧
      ((keeps request room ∧ access.passwordHash = room.passwordHash) ∨
        (¬ keeps request room ∧ validatedPasswordHash env request.salt request.accessPolicy
          request.password = .ok access.passwordHash)) := by
  unfold requestedAccess at h
  split at h
  · cases h
  · rename_i howner
    have howner : room.ownerId = request.userId := by simpa using howner
    split at h
    · rename_i hkeeps
      cases h
      exact ⟨howner, rfl, Or.inl ⟨hkeeps, rfl⟩⟩
    · rename_i hkeeps
      split at h
      · cases h
      · rename_i hash hhash
        cases h
        exact ⟨howner, rfl, Or.inr ⟨hkeeps, hhash⟩⟩

/-! ## The password in force -/

/-- The policy, and the hash of the last password supplied since it became the password policy. -/
structure InForce where
  accessPolicy : GroupAccessPolicy
  supplied : Option String
  deriving DecidableEq, Repr

/-- A password supplied replaces the one in force; leaving the policy forgets it. -/
def InForce.next (env : Environment) (before : InForce) (request : MeetingRoomSettingsRequest) :
    InForce where
  accessPolicy := request.accessPolicy
  supplied :=
    if request.accessPolicy = .password then
      (request.password.bind (env.hashPassword request.salt)).or
        (if before.accessPolicy = .password then before.supplied else none)
    else none

/-- After the requests, in the order they have committed. -/
def inForce (env : Environment) (room : MeetingRoom)
    (committed : List MeetingRoomSettingsRequest) : InForce :=
  committed.foldl (InForce.next env) ⟨room.accessPolicy, room.passwordHash⟩

/-- A password policy has the hash of the password in force. -/
def HasPassword (env : Environment) (initial room : MeetingRoom)
    (committed : List MeetingRoomSettingsRequest) : Prop :=
  room.accessPolicy = .password →
    room.passwordHash.isSome = true ∧
      room.passwordHash = (inForce env initial committed).supplied

/-- A request that keeps the password writes while the room still has the policy and the hash that
it has read. -/
def KeepsCurrent (s : State MeetingRoom MeetingRoomSettingsRequest) (id : Nat) : Prop :=
  ∀ request seen, s.pending.lookup id = some (request, seen) →
    seen.ownerId = request.userId → keeps request seen →
      s.row.accessPolicy = .password ∧ s.row.passwordHash = seen.passwordHash

section Update

variable {env : Environment} {initial : MeetingRoom}

theorem inForce_concat {committed : List MeetingRoomSettingsRequest}
    {request : MeetingRoomSettingsRequest} :
    inForce env initial (committed ++ [request]) =
      (inForce env initial committed).next env request := by
  simp [inForce]

/-- One write has the right password exactly when it does not keep a changed one. -/
theorem hasPassword_write {s t : State MeetingRoom MeetingRoomSettingsRequest} {id : Nat}
    (hpolicy : (inForce env initial s.committed).accessPolicy = s.row.accessPolicy)
    (hbefore : HasPassword env initial s.row s.committed)
    (h : ReadThenWrite.step (updateMeetingRoom env) s (.write id) = some t) :
    HasPassword env initial t.row t.committed ↔ KeepsCurrent s id := by
  obtain ⟨request, seen, access, hpending, hprepare, rfl⟩ := write_some h
  have hok : requestedAccess env request seen = .ok access := by
    cases heq : requestedAccess env request seen with
    | error e => simp [updateMeetingRoom, heq, Except.toOption] at hprepare
    | ok other =>
      simp only [updateMeetingRoom, heq, Except.toOption, Option.some.injEq] at hprepare
      rw [hprepare]
  obtain ⟨howner, haccess, hcases⟩ := requestedAccess_ok hok
  simp only [HasPassword, updateMeetingRoom, inForce_concat, InForce.next]
  rcases hcases with ⟨hkeeps, hhash⟩ | ⟨hkeeps, hvalid⟩
  · -- The hash that was read is written again.
    have hseen : seen.passwordHash.isSome = true := seen.hash_of_policy.mp hkeeps.2.1
    have hcurrent : KeepsCurrent s id ↔
        s.row.accessPolicy = .password ∧ s.row.passwordHash = seen.passwordHash := by
      constructor
      · intro hall
        exact hall request seen hpending howner hkeeps
      · intro hnow other seen' hpending'
        rw [hpending] at hpending'
        cases hpending'
        exact fun _ _ => hnow
    rw [hcurrent, haccess, hhash, hkeeps.1, hkeeps.2.2, hpolicy]
    simp only [Option.bind_none, Option.none_or, if_true, forall_const, hseen, true_and]
    by_cases hrow : s.row.accessPolicy = .password
    · rw [(hbefore hrow).2]
      simp only [hrow, if_true, true_and]
      exact eq_comm
    · simp only [hrow, if_false, false_and, iff_false]
      intro hnone
      rw [hnone] at hseen
      cases hseen
  · have hcurrent : KeepsCurrent s id := by
      intro other seen' hpending' _ hkeeps'
      rw [hpending] at hpending'
      cases hpending'
      exact absurd hkeeps' hkeeps
    simp only [hcurrent, iff_true]
    intro hpassword
    rcases validatedPasswordHash_ok hvalid with ⟨-, text, value, htext, hvalue, hhash⟩ | ⟨hno, -⟩
    · rw [haccess] at hpassword
      simp [hhash, hpassword, htext, hvalue]
    · exact absurd (haccess ▸ hpassword) hno

theorem inForce_write {s t : State MeetingRoom MeetingRoomSettingsRequest} {id : Nat}
    (h : ReadThenWrite.step (updateMeetingRoom env) s (.write id) = some t) :
    (inForce env initial t.committed).accessPolicy = t.row.accessPolicy := by
  obtain ⟨request, seen, access, -, hprepare, rfl⟩ := write_some h
  cases heq : requestedAccess env request seen with
  | error e => simp [updateMeetingRoom, heq, Except.toOption] at hprepare
  | ok other =>
    simp only [updateMeetingRoom, heq, Except.toOption, Option.some.injEq] at hprepare
    subst hprepare
    rw [inForce_concat]
    exact (requestedAccess_ok heq).2.1.symm

/-- A request of the host that keeps the password is not refused. -/
theorem prepare_of_keeps {request : MeetingRoomSettingsRequest} {room : MeetingRoom}
    (howner : room.ownerId = request.userId) (hkeeps : keeps request room) :
    (updateMeetingRoom env).prepare request room ≠ none := by
  simp [updateMeetingRoom, requestedAccess, howner, hkeeps, Except.toOption]

end Update

/-- The password in force is the one stored in every state of a run, exactly when no request that
keeps the password writes after the room's policy or password has changed. -/
theorem updateMeetingRoom_keeps_iff (env : Environment) (room : MeetingRoom)
    (actions : List (Action MeetingRoomSettingsRequest)) :
    (system (updateMeetingRoom env) room).Always
        (fun s => HasPassword env room s.row s.committed)
        (system (updateMeetingRoom env) room).init actions ↔
      (system (updateMeetingRoom env) room).Guarded
        (fun s a => ∀ id, a = .write id → KeepsCurrent s id)
        (system (updateMeetingRoom env) room).init actions := by
  apply always_iff_writes (E := updateMeetingRoom env)
    (J := fun row committed => (inForce env room committed).accessPolicy = row.accessPolicy)
    (P := HasPassword env room)
  · intro s id t _ h
    exact inForce_write h
  · intro s id t hpolicy hbefore h
    exact hasPassword_write hpolicy hbefore h
  · intro s id h request seen hpending howner hkeeps
    exact absurd (write_none h hpending) (prepare_of_keeps howner hkeeps)
  · rfl
  · intro hpassword
    exact ⟨room.hash_of_policy.mp hpassword, rfl⟩

def standup : MeetingRoom where
  roomId := "standup"
  ownerId := 1
  accessPolicy := .password
  passwordHash := some "leaked"
  hash_of_policy := by decide

/-- Two windows of the host: one keeps the password, the other replaces it meanwhile. -/
def keepWhileReplacing : List (Action MeetingRoomSettingsRequest) :=
  [.read 1 ⟨1, .password, none, ""⟩, .read 2 ⟨1, .password, some "fresh", "salt"⟩,
    .write 2, .write 1]

/-- The replaced password opens the meeting again. -/
theorem keepWhileReplacing_restores :
    ∃ s, (system (updateMeetingRoom plainHashing) standup).run keepWhileReplacing = some s ∧
      s.pending = ∅ ∧ s.row.passwordHash = some "leaked" ∧
      ¬ HasPassword plainHashing standup s.row s.committed := by
  refine ⟨_, rfl, rfl, rfl, ?_⟩
  intro h
  exact absurd (h rfl).2 (by decide)

end OpenMeet.MeetingAccess
