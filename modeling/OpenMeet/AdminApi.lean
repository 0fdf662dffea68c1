import OpenMeet.Accounts
import OpenMeet.TransitionSystem
import Mathlib.Logic.Function.Basic

/-!
The requests of the admin panel that change users or roles. A request first
reads who its admin is and what that admin's role may do, then what it is about
to change, and writes in the end; between two statements others may read and
write. Transactions run at read committed: creating a role is one step, and
replacing a role's permissions takes out the rows its delete has seen and
commits the new ones later. A row that another transaction has taken out in the
meantime is passed over, though one with the same key may have come instead.
Timestamps and the listing pages are left out.
-/
namespace OpenMeet.AdminApi

open KeyedMap Text Messages Accounts TransitionSystem

/-- The signed-in admin and the permissions of their role, as read when the request began. -/
structure Admin where
  id : Uuid
  role : RoleName
  permissions : Finset Permission
  deriving DecidableEq

namespace Admin

def can (admin : Admin) (permission : Permission) : Bool := permission ∈ admin.permissions

/-- An admin may only hand out permissions they hold. -/
def holdsAll (admin : Admin) (keys : Finset Permission) : Bool := keys ⊆ admin.permissions

end Admin

def forbidden : ApiError := ⟨403, "You are not allowed to do this"⟩
def internalError : ApiError := ⟨500, "Internal server error"⟩
def roleNotFound : ApiError := ⟨404, "Role not found"⟩

inductive AdminRequest
  | createRole (name description : String) (permissions : List String)
  | updateRole (name : RoleName) (description : Option String) (permissions : Option (List String))
  | deleteRole (name : RoleName)
  | updateUser (userId : Uuid) (role : RoleName)
  deriving DecidableEq, Repr

/-- The permission a request needs besides access to the panel. -/
def AdminRequest.permission : AdminRequest → Permission
  | createRole _ _ _ | updateRole _ _ _ | deleteRole _ => .adminRolesManage
  | updateUser _ _ => .adminUsersManage

/-- The admin role keeps every permission. -/
def adminRole : RoleName := "admin"

def maxDescriptionLength : Nat := 255

/-- Unicode's lower-casing, which the role names go through. -/
structure Environment where
  lowercase : String → String

def validateRoleName (env : Environment) (name : String) : Except ApiError RoleName :=
  let name := env.lowercase (trim name)
  let valid := 2 ≤ name.utf8ByteSize && name.utf8ByteSize ≤ 50 &&
    match name.toList with
    | [] => false
    | first :: rest =>
      first.isLower && rest.all fun c => c.isLower || c.isDigit || c == '_' || c == '-'
  if valid then .ok name
  else .error ⟨400, "Role names are 2 to 50 lowercase letters, numbers, hyphens, or underscores " ++
    "and start with a letter"⟩

def validateDescription (description : String) : Except ApiError String :=
  let description := trim description
  if maxDescriptionLength < charCount description then
    .error ⟨400, s!"Descriptions are at most {maxDescriptionLength} characters"⟩
  else .ok description

def validatePermissions (keys : List String) : Except ApiError (Finset Permission) :=
  match keys with
  | [] => .ok ∅
  | key :: rest =>
    match Permission.fromKey key with
    | none => .error ⟨400, s!"Unknown permission: {key}"⟩
    | some permission => (validatePermissions rest).map (insert permission)

/-- Where a request is: the statement it runs next, with what it has read before. -/
inductive Stage
  | readingRole (adminId : Uuid) (request : AdminRequest)
  | readingPermissions (adminId : Uuid) (role : RoleName) (request : AdminRequest)
  | insertingRole (admin : Admin) (name : RoleName) (description : String)
      (permissions : Finset Permission)
  | findingRole (admin : Admin) (name : RoleName) (description : Option String)
      (permissions : Option (List String))
  | readingTarget (admin : Admin) (name : RoleName) (description : Option String)
      (permissions : Finset Permission)
  | clearingRole (admin : Admin) (name : RoleName) (description : Option String)
      (permissions : Finset Permission)
  | savingRole (admin : Admin) (name : RoleName) (description : Option String)
      (replacement : Option (Finset Permission × Finset Permission))
  | findingDoomed (admin : Admin) (name : RoleName)
  | readingDoomed (admin : Admin) (name : RoleName)
  | countingUsers (name : RoleName)
  | deletingRole (name : RoleName)
  | findingUser (admin : Admin) (userId : Uuid) (role : RoleName)
  | findingNewRole (admin : Admin) (userId : Uuid) (currentRole role : RoleName)
  | readingCurrent (admin : Admin) (userId : Uuid) (currentRole role : RoleName)
  | readingNew (admin : Admin) (userId : Uuid) (current : Finset Permission) (role : RoleName)
  | savingUser (admin : Admin) (userId : Uuid) (role : RoleName)
      (permissions : Finset Permission)
  | endingSessions (userId : Uuid)
  | loadingUser (userId : Uuid)
  | loadingRole (name : RoleName) (status : Nat)
  | done (result : Except ApiError Nat)

def refuse (error : ApiError) : Stage := .done (.error error)

/-- What an authorized request does first. -/
def begin (env : Environment) (admin : Admin) : AdminRequest → Stage
  | .createRole name description permissions =>
    match validateRoleName env name, validateDescription description,
        validatePermissions permissions with
    | .error e, _, _ | .ok _, .error e, _ | .ok _, .ok _, .error e => refuse e
    | .ok name, .ok description, .ok permissions =>
      if admin.holdsAll permissions then .insertingRole admin name description permissions
      else refuse forbidden
  | .updateRole name description permissions => .findingRole admin name description permissions
  | .deleteRole name => .findingDoomed admin name
  | .updateUser userId role =>
    if admin.id = userId then refuse ⟨400, "You cannot change your own role"⟩
    else .findingUser admin userId role

/-- The checks of update_role once the role is known to exist. -/
def checkUpdate (admin : Admin) (name : RoleName) (description : Option String)
    (permissions : Option (List String)) : Stage :=
  match description.mapM validateDescription, permissions.mapM validatePermissions with
  | .error e, _ | .ok _, .error e => refuse e
  | .ok description, .ok none => .savingRole admin name description none
  | .ok description, .ok (some permissions) =>
    if name = adminRole then refuse ⟨400, "The admin role always has every permission"⟩
    -- editing one's own role could remove one's own access to the panel
    else if name = admin.role then
      refuse ⟨400, "You cannot change the permissions of your own role"⟩
    else .readingTarget admin name description permissions

/-- The transaction of update_role commits. -/
def saveRole (db : Database) (name : RoleName) (description : Option String)
    (replacement : Option (Finset Permission × Finset Permission)) : Option Database :=
  let described := description.elim db (db.setDescription name)
  match replacement with
  | none => some described
  | some (seen, permissions) => described.replacePermissions name seen permissions

theorem saveRole_eq_some {db after : Database} {name : RoleName} {description : Option String}
    {replacement : Option (Finset Permission × Finset Permission)}
    (h : saveRole db name description replacement = some after) :
    after.users = db.users ∧ after.rolePermissions = replacement.elim db.rolePermissions fun r =>
      (db.rolePermissions \ Database.rowsOf name r.1) ∪ Database.rowsOf name r.2 := by
  have hdescribed : (description.elim db (db.setDescription name)).users = db.users ∧
      (description.elim db (db.setDescription name)).rolePermissions = db.rolePermissions := by
    cases description <;> exact ⟨rfl, rfl⟩
  cases replacement with
  | none =>
    obtain rfl := Option.some.inj h
    exact hdescribed
  | some r =>
    obtain ⟨husers, hrows⟩ := Database.replacePermissions_eq_some h
    rw [hdescribed.1] at husers
    rw [hdescribed.2] at hrows
    exact ⟨husers, hrows⟩

/-- Run the next statement of a request. -/
def advance (env : Environment) (db : Database) : Stage → Option (Database × Stage)
  | .readingRole adminId request =>
    match db.roleOf adminId with
    | none => some (db, refuse ⟨401, "User not found"⟩)
    | some role => some (db, .readingPermissions adminId role request)
  | .readingPermissions adminId role request =>
    let admin : Admin :=
      { id := adminId, role := role, permissions := db.userPermissions adminId }
    if admin.can .adminAccess && admin.can request.permission then
      some (db, begin env admin request)
    else some (db, refuse forbidden)
  | .insertingRole _ name description permissions =>
    match db.insertRole name description permissions with
    | none => some (db, refuse ⟨409, "A role with this name already exists"⟩)
    | some after => some (after, .loadingRole name 201)
  | .findingRole admin name description permissions =>
    if name ∈ db.roles then some (db, checkUpdate admin name description permissions)
    else some (db, refuse roleNotFound)
  | .readingTarget admin name description permissions =>
    if admin.holdsAll permissions && admin.holdsAll (db.rolePermissionKeys name) then
      some (db, .clearingRole admin name description permissions)
    else some (db, refuse forbidden)
  | .clearingRole admin name description permissions =>
    -- the delete takes out the rows it sees; rows committed after it stay
    some (db, .savingRole admin name description (some (db.rolePermissionKeys name, permissions)))
  | .savingRole _ name description replacement =>
    match saveRole db name description replacement with
    | none => some (db, refuse internalError)
    | some after => some (after, .loadingRole name 200)
  | .findingDoomed admin name =>
    match db.roles.lookup name with
    | none => some (db, refuse roleNotFound)
    | some role =>
      if role.isSystem then some (db, refuse ⟨400, "System roles cannot be deleted"⟩)
      else some (db, .readingDoomed admin name)
  | .readingDoomed admin name =>
    if admin.holdsAll (db.rolePermissionKeys name) then some (db, .countingUsers name)
    else some (db, refuse forbidden)
  | .countingUsers name =>
    let assigned := (db.users.entries.filter fun row => row.2.role = name).length
    if 0 < assigned then
      some (db, refuse
        ⟨409, s!"Move the {assigned} users with this role to another role first"⟩)
    else some (db, .deletingRole name)
  | .deletingRole name =>
    match db.deleteRole name with
    | none => some (db, refuse ⟨409, "Users still have this role"⟩)
    | some after => some (after, .done (.ok 204))
  | .findingUser admin userId role =>
    match db.roleOf userId with
    | none => some (db, refuse ⟨404, "User not found"⟩)
    | some currentRole => some (db, .findingNewRole admin userId currentRole role)
  | .findingNewRole admin userId currentRole role =>
    if role ∈ db.roles then some (db, .readingCurrent admin userId currentRole role)
    else some (db, refuse ⟨400, "Role does not exist"⟩)
  | .readingCurrent admin userId currentRole role =>
    some (db, .readingNew admin userId (db.rolePermissionKeys currentRole) role)
  | .readingNew admin userId current role =>
    let permissions := db.rolePermissionKeys role
    -- only users whose current and new roles hold nothing the admin lacks
    if admin.holdsAll current && admin.holdsAll permissions then
      some (db, .savingUser admin userId role permissions)
    else some (db, refuse forbidden)
  | .savingUser _ userId role permissions =>
    match db.setUserRole userId role with
    | none => some (db, refuse internalError)
    | some after =>
      some (after, if .appLogin ∈ permissions then .loadingUser userId else .endingSessions userId)
  | .endingSessions userId => some (db.endSessions userId, .loadingUser userId)
  | .loadingUser userId =>
    some (db, .done (if userId ∈ db.users then .ok 200 else .error internalError))
  | .loadingRole name status =>
    some (db, .done (if name ∈ db.roles then .ok status else .error roleNotFound))
  | .done _ => none

/-- The rows of role_permissions that a statement takes out when it commits. -/
def Stage.takenOut (db : Database) : Stage → Finset (RoleName × Permission)
  | .savingRole _ name description (some (seen, permissions)) =>
    if (saveRole db name description (some (seen, permissions))).isSome then
      Database.rowsOf name seen
    else ∅
  | .deletingRole name =>
    if (db.deleteRole name).isSome then Database.rowsOf name (db.rolePermissionKeys name) else ∅
  | _ => ∅

/-- A delete that waited for these rows to go passes over them. -/
def Stage.passOver (rows : Finset (RoleName × Permission)) : Stage → Stage
  | .savingRole admin name description (some (seen, permissions)) =>
    .savingRole admin name description
      (some (seen.filter fun permission => (name, permission) ∉ rows, permissions))
  | stage => stage

structure Panel where
  db : Database
  requests : Nat → Option Stage

inductive Action
  | start (i : Nat) (adminId : Uuid) (request : AdminRequest)
  | advance (i : Nat)
  | fail (i : Nat)
  deriving DecidableEq, Repr

namespace Panel

def initial (db : Database) : Panel where
  db := db
  requests := fun _ => none

@[simp] def setRequest (s : Panel) (i : Nat) (stage : Stage) : Panel :=
  { s with requests := Function.update s.requests i (some stage) }

def passOver (s : Panel) (rows : Finset (RoleName × Permission)) : Panel :=
  { s with requests := fun i => (s.requests i).map (Stage.passOver rows) }

theorem forall_passOver {s : Panel} {P : Stage → Prop} {rows : Finset (RoleName × Permission)}
    (h : ∀ j stage, s.requests j = some stage → P stage)
    (hpass : ∀ stage, P stage → P (stage.passOver rows)) :
    ∀ j stage, (s.passOver rows).requests j = some stage → P stage := by
  intro j stage hj
  obtain ⟨before, hbefore, rfl⟩ := Option.map_eq_some_iff.mp hj
  exact hpass before (h j before hbefore)

/-- A fact about every request needs to be checked for the one that is set. -/
theorem forall_setRequest {s : Panel} {db : Database} {P : Stage → Prop} {i : Nat} {stage : Stage}
    (h : ∀ j stage', s.requests j = some stage' → P stage') (hstage : P stage) :
    ∀ j stage', ({ s with db := db }.setRequest i stage).requests j = some stage' → P stage' := by
  intro j stage' hj
  by_cases hij : j = i
  · subst hij
    simp only [setRequest, Function.update_self, Option.some.injEq] at hj
    exact hj ▸ hstage
  · simp only [setRequest, Function.update_of_ne hij] at hj
    exact h j stage' hj

end Panel

/-- A statement that fails ends its request, and a transaction leaves nothing behind. -/
def step (env : Environment) (s : Panel) : Action → Option Panel
  | .start i adminId request =>
    match s.requests i with
    | none => some (s.setRequest i (.readingRole adminId request))
    | some _ => none
  | .advance i =>
    match s.requests i with
    | some stage =>
      (advance env s.db stage).map fun after =>
        { s.passOver (stage.takenOut s.db) with db := after.1 }.setRequest i after.2
    | none => none
  | .fail i =>
    match s.requests i with
    | some (.done _) | none => none
    | some _ => some (s.setRequest i (refuse internalError))

def system (env : Environment) (db : Database) : System Panel Action where
  init := Panel.initial db
  step := step env

/-! ## What a statement can do -/

/-- The database and the stage after a statement, from those before it. -/
inductive Advance (db : Database) : Stage → Database → Stage → Prop
  | stop (stage : Stage) (result : Except ApiError Nat) : Advance db stage db (.done result)
  | readRole (adminId : Uuid) (role : RoleName) (request : AdminRequest)
      (hrole : db.roleOf adminId = some role) :
      Advance db (.readingRole adminId request) db (.readingPermissions adminId role request)
  | beginCreate (adminId : Uuid) (role name : RoleName) (description : String)
      (permissions : Finset Permission) (request : AdminRequest)
      (hholds : permissions ⊆ db.userPermissions adminId) :
      Advance db (.readingPermissions adminId role request) db
        (.insertingRole ⟨adminId, role, db.userPermissions adminId⟩ name description permissions)
  | beginUpdate (adminId : Uuid) (role name : RoleName) (description : Option String)
      (permissions : Option (List String)) :
      Advance db (.readingPermissions adminId role (.updateRole name description permissions)) db
        (.findingRole ⟨adminId, role, db.userPermissions adminId⟩ name description permissions)
  | beginDelete (adminId : Uuid) (role name : RoleName) :
      Advance db (.readingPermissions adminId role (.deleteRole name)) db
        (.findingDoomed ⟨adminId, role, db.userPermissions adminId⟩ name)
  | beginUser (adminId userId : Uuid) (role newRole : RoleName) (hother : adminId ≠ userId) :
      Advance db (.readingPermissions adminId role (.updateUser userId newRole)) db
        (.findingUser ⟨adminId, role, db.userPermissions adminId⟩ userId newRole)
  | insertRole (admin : Admin) (name : RoleName) (description : String)
      (permissions : Finset Permission) (after : Database)
      (hafter : db.insertRole name description permissions = some after) :
      Advance db (.insertingRole admin name description permissions) after (.loadingRole name 201)
  | describe (admin : Admin) (name : RoleName) (given description : Option String)
      (permissions : Option (List String)) :
      Advance db (.findingRole admin name given permissions) db
        (.savingRole admin name description none)
  | checkUpdate (admin : Admin) (name : RoleName) (given description : Option String)
      (keys : Option (List String)) (permissions : Finset Permission) (hown : name ≠ admin.role) :
      Advance db (.findingRole admin name given keys) db
        (.readingTarget admin name description permissions)
  | readTarget (admin : Admin) (name : RoleName) (description : Option String)
      (permissions : Finset Permission) (hnew : permissions ⊆ admin.permissions)
      (hcurrent : db.rolePermissionKeys name ⊆ admin.permissions) :
      Advance db (.readingTarget admin name description permissions) db
        (.clearingRole admin name description permissions)
  | clearRole (admin : Admin) (name : RoleName) (description : Option String)
      (permissions : Finset Permission) :
      Advance db (.clearingRole admin name description permissions) db
        (.savingRole admin name description (some (db.rolePermissionKeys name, permissions)))
  | saveRole (admin : Admin) (name : RoleName) (description : Option String)
      (replacement : Option (Finset Permission × Finset Permission)) (after : Database)
      (hafter : AdminApi.saveRole db name description replacement = some after) :
      Advance db (.savingRole admin name description replacement) after (.loadingRole name 200)
  | findDoomed (admin : Admin) (name : RoleName) :
      Advance db (.findingDoomed admin name) db (.readingDoomed admin name)
  | readDoomed (admin : Admin) (name : RoleName)
      (hcurrent : db.rolePermissionKeys name ⊆ admin.permissions) :
      Advance db (.readingDoomed admin name) db (.countingUsers name)
  | countUsers (name : RoleName) : Advance db (.countingUsers name) db (.deletingRole name)
  | deleteRole (name : RoleName) (after : Database) (hafter : db.deleteRole name = some after) :
      Advance db (.deletingRole name) after (.done (.ok 204))
  | findUser (admin : Admin) (userId : Uuid) (currentRole role : RoleName)
      (hcurrent : db.roleOf userId = some currentRole) :
      Advance db (.findingUser admin userId role) db
        (.findingNewRole admin userId currentRole role)
  | findNewRole (admin : Admin) (userId : Uuid) (currentRole role : RoleName) :
      Advance db (.findingNewRole admin userId currentRole role) db
        (.readingCurrent admin userId currentRole role)
  | readCurrent (admin : Admin) (userId : Uuid) (currentRole role : RoleName) :
      Advance db (.readingCurrent admin userId currentRole role) db
        (.readingNew admin userId (db.rolePermissionKeys currentRole) role)
  | readNew (admin : Admin) (userId : Uuid) (current : Finset Permission) (role : RoleName)
      (hcurrent : current ⊆ admin.permissions)
      (hnew : db.rolePermissionKeys role ⊆ admin.permissions) :
      Advance db (.readingNew admin userId current role) db
        (.savingUser admin userId role (db.rolePermissionKeys role))
  | saveUser (admin : Admin) (userId : Uuid) (role : RoleName) (permissions : Finset Permission)
      (after : Database) (hafter : db.setUserRole userId role = some after) :
      Advance db (.savingUser admin userId role permissions) after
        (if .appLogin ∈ permissions then .loadingUser userId else .endingSessions userId)
  | endSessions (userId : Uuid) :
      Advance db (.endingSessions userId) (db.endSessions userId) (.loadingUser userId)

section Inversion

variable {env : Environment} {db : Database}

theorem begin_advance {adminId : Uuid} {role : RoleName} (request : AdminRequest) :
    Advance db (.readingPermissions adminId role request) db
      (begin env ⟨adminId, role, db.userPermissions adminId⟩ request) := by
  cases request with
  | createRole name description permissions =>
    simp only [begin]
    split
    · exact .stop _ _
    · exact .stop _ _
    · exact .stop _ _
    · split
      · rename_i hholds
        exact .beginCreate _ _ _ _ _ _ (by simpa [Admin.holdsAll] using hholds)
      · exact .stop _ _
  | updateRole name description permissions => exact .beginUpdate ..
  | deleteRole name => exact .beginDelete ..
  | updateUser userId newRole =>
    simp only [begin]
    split
    · exact .stop _ _
    · rename_i hother
      exact .beginUser _ _ _ _ hother

theorem checkUpdate_advance {admin : Admin} {name : RoleName} (description : Option String)
    (permissions : Option (List String)) :
    Advance db (.findingRole admin name description permissions) db
      (AdminApi.checkUpdate admin name description permissions) := by
  unfold AdminApi.checkUpdate
  split
  · exact .stop _ _
  · exact .stop _ _
  · exact .describe ..
  · split
    · exact .stop _ _
    · split
      · exact .stop _ _
      · rename_i hown
        exact .checkUpdate _ _ _ _ _ _ hown

theorem advance_cases {stage next : Stage} {after : Database}
    (h : advance env db stage = some (after, next)) : Advance db stage after next := by
  unfold advance at h
  cases stage with
  | readingRole adminId request =>
    dsimp only at h
    split at h <;> cases h
    · exact .stop _ _
    · rename_i hrole
      exact .readRole _ _ _ hrole
  | readingPermissions adminId role request =>
    dsimp only at h
    split at h <;> cases h
    · exact begin_advance _
    · exact .stop _ _
  | insertingRole admin name description permissions =>
    dsimp only at h
    split at h <;> cases h
    · exact .stop _ _
    · rename_i hafter
      exact .insertRole _ _ _ _ _ hafter
  | findingRole admin name description permissions =>
    dsimp only at h
    split at h <;> cases h
    · exact checkUpdate_advance _ _
    · exact .stop _ _
  | readingTarget admin name description permissions =>
    dsimp only at h
    split at h <;> cases h
    · rename_i hholds
      simp only [Admin.holdsAll, Bool.and_eq_true, decide_eq_true_eq] at hholds
      exact .readTarget _ _ _ _ hholds.1 hholds.2
    · exact .stop _ _
  | clearingRole admin name description permissions =>
    cases h
    exact .clearRole ..
  | savingRole admin name description replacement =>
    dsimp only at h
    split at h <;> cases h
    · exact .stop _ _
    · rename_i hafter
      exact .saveRole _ _ _ _ _ hafter
  | findingDoomed admin name =>
    dsimp only at h
    split at h
    · cases h
      exact .stop _ _
    · split at h <;> cases h
      · exact .stop _ _
      · exact .findDoomed ..
  | readingDoomed admin name =>
    dsimp only at h
    split at h <;> cases h
    · rename_i hholds
      exact .readDoomed _ _ (by simpa [Admin.holdsAll] using hholds)
    · exact .stop _ _
  | countingUsers name =>
    dsimp only at h
    split at h <;> cases h
    · exact .stop _ _
    · exact .countUsers _
  | deletingRole name =>
    dsimp only at h
    split at h <;> cases h
    · exact .stop _ _
    · rename_i hafter
      exact .deleteRole _ _ hafter
  | findingUser admin userId role =>
    dsimp only at h
    split at h <;> cases h
    · exact .stop _ _
    · rename_i hcurrent
      exact .findUser _ _ _ _ hcurrent
  | findingNewRole admin userId currentRole role =>
    dsimp only at h
    split at h <;> cases h
    · exact .findNewRole ..
    · exact .stop _ _
  | readingCurrent admin userId currentRole role =>
    cases h
    exact .readCurrent ..
  | readingNew admin userId current role =>
    dsimp only at h
    split at h <;> cases h
    · rename_i hholds
      simp only [Admin.holdsAll, Bool.and_eq_true, decide_eq_true_eq] at hholds
      exact .readNew _ _ _ _ hholds.1 hholds.2
    · exact .stop _ _
  | savingUser admin userId role permissions =>
    dsimp only at h
    split at h <;> cases h
    · exact .stop _ _
    · rename_i hafter
      exact .saveUser _ _ _ _ _ hafter
  | endingSessions userId =>
    cases h
    exact .endSessions _
  | loadingUser userId =>
    cases h
    exact .stop _ _
  | loadingRole name status =>
    cases h
    exact .stop _ _
  | done result => cases h

end Inversion

/-- A step starts a request, runs one of its statements, or fails one. -/
theorem step_cases {env : Environment} {s t : Panel} {a : Action} (h : step env s a = some t) :
    (∃ i adminId request, a = .start i adminId request ∧
      t = s.setRequest i (.readingRole adminId request)) ∨
    (∃ i stage after next, a = .advance i ∧ s.requests i = some stage ∧
      Advance s.db stage after next ∧
      t = { s.passOver (stage.takenOut s.db) with db := after }.setRequest i next) ∨
    (∃ i, a = .fail i ∧ t = s.setRequest i (refuse internalError)) := by
  cases a with
  | start i adminId request =>
    simp only [step] at h
    split at h <;> cases h
    exact Or.inl ⟨i, adminId, request, rfl, rfl⟩
  | advance i =>
    simp only [step] at h
    split at h
    · rename_i stage hstage
      obtain ⟨⟨after, next⟩, hafter, rfl⟩ := Option.map_eq_some_iff.mp h
      exact Or.inr (Or.inl ⟨i, stage, after, next, rfl, hstage, advance_cases hafter, rfl⟩)
    · cases h
  | fail i =>
    simp only [step] at h
    split at h <;> cases h
    exact Or.inr (Or.inr ⟨i, rfl, rfl⟩)

end OpenMeet.AdminApi
