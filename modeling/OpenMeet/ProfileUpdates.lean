import OpenMeet.BadgeNews
import OpenMeet.PeopleApi
import OpenMeet.ReadThenWrite

/-!
Updates of a user's own profile. A request may bring some of the four fields; it
reads the row, takes the other fields from what it has read and writes all four.
A field that a request leaves out is put back to what it was at the read.
-/
namespace OpenMeet.ProfileUpdates

open SocialTables BadgeNews Presence PeopleApi ReadThenWrite TransitionSystem

/-- The four columns of the update; nickname conflicts and other failures end a request early. -/
def updateSelfProfile (env : Environment) :
    Endpoint UserRow UpdateSelfProfileRequest UserRow where
  prepare request existing := (requestedProfile env existing request).toOption
  store user row :=
    { row with
      name := user.name
      nickname := user.nickname
      status := user.status
      statusMessage := user.statusMessage }

/-- The value of the last request that supplied one. -/
def lastSupplied {Value : Type*} (field : UpdateSelfProfileRequest → Option Value)
    (initial : Value) (committed : List UpdateSelfProfileRequest) : Value :=
  (committed.filterMap field).getLastD initial

/-- Every field has the value last supplied for it. -/
structure HasLastSupplied (env : Environment) (initial row : UserRow)
    (committed : List UpdateSelfProfileRequest) : Prop where
  name : row.name = lastSupplied (·.name.bind normalizeName) initial.name committed
  nickname : row.nickname =
    lastSupplied (·.nickname.bind (normalizeNickname env)) initial.nickname committed
  status : row.status = lastSupplied (·.status) initial.status committed
  statusMessage : row.statusMessage =
    lastSupplied (·.statusMessage.bind normalizeStatusMessage) initial.statusMessage committed

/-- The fields that the request leaves out have the same value in both rows. -/
structure SameOmitted (request : UpdateSelfProfileRequest) (row seen : UserRow) : Prop where
  name : request.name = none → row.name = seen.name
  nickname : request.nickname = none → row.nickname = seen.nickname
  status : request.status = none → row.status = seen.status
  statusMessage : request.statusMessage = none → row.statusMessage = seen.statusMessage

/-- A request that can write does so while the fields it leaves out are as it has read them. -/
def OmitsCurrent (env : Environment) (s : State UserRow UpdateSelfProfileRequest) (id : Nat) :
    Prop :=
  ∀ request seen, s.pending.lookup id = some (request, seen) →
    (requestedProfile env seen request).isOk = true → SameOmitted request s.row seen

section Update

variable {env : Environment} {initial : UserRow} {Value : Type*}
  {committed : List UpdateSelfProfileRequest} {request : UpdateSelfProfileRequest}

theorem lastSupplied_concat (field : UpdateSelfProfileRequest → Option Value)
    (first : Value) :
    lastSupplied field first (committed ++ [request]) =
      (field request).getD (lastSupplied field first committed) := by
  unfold lastSupplied
  rw [List.filterMap_append]
  cases hfield : field request with
  | none => simp [hfield]
  | some value => simp [hfield]

/-- The fields of a valid request, and those of the row it has read for the others. -/
theorem requestedProfile_ok {existing user : UserRow}
    (h : requestedProfile env existing request = .ok user) :
    (request.name.elim (some existing.name) normalizeName = some user.name ∧
      request.nickname.elim (some existing.nickname) (normalizeNickname env) =
        some user.nickname) ∧
    user.status = request.status.getD existing.status ∧
    request.statusMessage.elim (some existing.statusMessage) normalizeStatusMessage =
      some user.statusMessage := by
  unfold requestedProfile at h
  split at h
  · cases h
  · cases h
  · cases h
  · rename_i name nickname message hname hnickname hmessage
    cases h
    exact ⟨⟨hname, hnickname⟩, rfl, hmessage⟩

/-- A field holds the last value after a write exactly when it was not put back. -/
theorem field_iff (field : UpdateSelfProfileRequest → Option Value) {text : Option Value}
    {normalize : Value → Option Value} {current seen written first : Value}
    (hfield : field request = text.bind normalize)
    (hbefore : current = lastSupplied field first committed)
    (hwritten : text.elim (some seen) normalize = some written) :
    written = lastSupplied field first (committed ++ [request]) ↔
      (text = none → current = seen) := by
  rw [lastSupplied_concat, hfield, ← hbefore]
  cases text with
  | none =>
    obtain rfl : seen = written := Option.some.inj hwritten
    simp only [Option.bind_none, Option.getD_none, forall_const]
    exact eq_comm
  | some value =>
    have hnormal : normalize value = some written := hwritten
    simp [hnormal]

theorem hasLastSupplied_write {s t : State UserRow UpdateSelfProfileRequest} {id : Nat}
    (hbefore : HasLastSupplied env initial s.row s.committed)
    (h : ReadThenWrite.step (updateSelfProfile env) s (.write id) = some t) :
    HasLastSupplied env initial t.row t.committed ↔ OmitsCurrent env s id := by
  obtain ⟨request, seen, user, hpending, hprepare, rfl⟩ := write_some h
  have hok : requestedProfile env seen request = .ok user := by
    cases heq : requestedProfile env seen request with
    | error e => simp [updateSelfProfile, heq, Except.toOption] at hprepare
    | ok other =>
      simp only [updateSelfProfile, heq, Except.toOption, Option.some.injEq] at hprepare
      rw [hprepare]
  have hcurrent : OmitsCurrent env s id ↔ SameOmitted request s.row seen := by
    constructor
    · intro hall
      exact hall request seen hpending (by rw [hok]; rfl)
    · intro hsame other seen' hpending' _
      rw [hpending] at hpending'
      cases hpending'
      exact hsame
  obtain ⟨⟨hname, hnickname⟩, hstatus, hmessage⟩ := requestedProfile_ok hok
  have hstatus : request.status.elim (some seen.status) some = some user.status := by
    rw [hstatus]
    cases request.status <;> rfl
  have hsupplied : request.status = request.status.bind some := by
    cases request.status <;> rfl
  have hnames := field_iff (·.name.bind normalizeName) rfl hbefore.name hname
  have hnicknames := field_iff (·.nickname.bind (normalizeNickname env)) rfl hbefore.nickname
    hnickname
  have hstatuses := field_iff (·.status) hsupplied hbefore.status hstatus
  have hmessages := field_iff (·.statusMessage.bind normalizeStatusMessage) rfl
    hbefore.statusMessage hmessage
  rw [hcurrent]
  constructor
  · intro hafter
    exact ⟨hnames.mp hafter.name, hnicknames.mp hafter.nickname, hstatuses.mp hafter.status,
      hmessages.mp hafter.statusMessage⟩
  · intro hsame
    exact ⟨hnames.mpr hsame.name, hnicknames.mpr hsame.nickname, hstatuses.mpr hsame.status,
      hmessages.mpr hsame.statusMessage⟩

end Update

/-- Every field has the last value supplied for it in every state of a run, exactly when no request
puts a field it leaves out back to an earlier value. -/
theorem updateSelfProfile_last_iff (env : Environment) (user : UserRow)
    (actions : List (Action UpdateSelfProfileRequest)) :
    (system (updateSelfProfile env) user).Always
        (fun s => HasLastSupplied env user s.row s.committed)
        (system (updateSelfProfile env) user).init actions ↔
      (system (updateSelfProfile env) user).Guarded
        (fun s a => ∀ id, a = .write id → OmitsCurrent env s id)
        (system (updateSelfProfile env) user).init actions := by
  apply always_iff_writes (E := updateSelfProfile env) (J := fun _ _ => True)
    (P := HasLastSupplied env user)
  · intros
    trivial
  · intro s id t _ hbefore h
    exact hasLastSupplied_write hbefore h
  · intro s id h request seen hpending hok
    have hnone := write_none h hpending
    cases heq : requestedProfile env seen request with
    | error e =>
      rw [heq] at hok
      cases hok
    | ok other => simp [updateSelfProfile, heq, Except.toOption] at hnone
  · trivial
  · constructor <;> rfl

def ada : UserRow where
  id := 1
  email := "a@x"
  name := "Ada"
  nickname := "ada"
  status := .available
  statusMessage := ""
  avatarKey := none
  createdAt := 0

/-- A name is saved in one tab while the status is changed in another. -/
def saveWhileLeaving : List (Action UpdateSelfProfileRequest) :=
  [.read 1 ⟨some "Ada L.", none, none, none⟩, .read 2 ⟨none, none, some .away, none⟩,
    .write 2, .write 1]

/-- The status is put back. -/
theorem saveWhileLeaving_undone :
    ∃ s, (system (updateSelfProfile plainHashing) ada).run saveWhileLeaving = some s ∧
      s.pending = ∅ ∧ s.row.status = .available ∧
      ¬ HasLastSupplied plainHashing ada s.row s.committed := by
  refine ⟨_, rfl, rfl, rfl, ?_⟩
  intro h
  have hstatus : UserStatus.available = .away := h.status
  cases hstatus

end OpenMeet.ProfileUpdates
