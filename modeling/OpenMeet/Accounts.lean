import OpenMeet.KeyedMap
import OpenMeet.Messages
import Mathlib.Data.Finset.Image

/-!
Accounts, roles and permissions as the database keeps them. A user names a
role, and the rows of role_permissions say what a role may do; the catalog of
permissions is fixed. The foreign keys are fields of the database, so that no
write can leave a row pointing at a role that is gone.
-/
namespace OpenMeet.Accounts

open KeyedMap Messages

inductive Permission
  | appLogin
  | meetingsCreate
  | messagesSend
  | adminAccess
  | adminUsersManage
  | adminRolesManage
  deriving DecidableEq, Repr

namespace Permission

def all : List Permission :=
  [appLogin, meetingsCreate, messagesSend, adminAccess, adminUsersManage, adminRolesManage]

def key : Permission → String
  | appLogin => "app.login"
  | meetingsCreate => "meetings.create"
  | messagesSend => "messages.send"
  | adminAccess => "admin.access"
  | adminUsersManage => "admin.users.manage"
  | adminRolesManage => "admin.roles.manage"

def fromKey (key : String) : Option Permission :=
  all.find? fun permission => permission.key = key

def deniedMessage : Permission → String
  | appLogin => "This account is suspended"
  | meetingsCreate => "You are not allowed to create meeting rooms"
  | messagesSend => "You are not allowed to send messages"
  | adminAccess | adminUsersManage | adminRolesManage => "You are not allowed to do this"

theorem fromKey_key (permission : Permission) : fromKey permission.key = some permission := by
  cases permission <;> decide

theorem key_of_fromKey {key : String} {permission : Permission}
    (h : fromKey key = some permission) : permission.key = key := by
  simpa using List.find?_some h

theorem mem_all (permission : Permission) : permission ∈ all := by
  cases permission <;> decide

end Permission

structure ApiError where
  status : Nat
  message : String
  deriving DecidableEq, Repr

abbrev RoleName := String
abbrev TokenHash := String

structure Role where
  description : String
  isSystem : Bool
  deriving DecidableEq, Repr

structure User where
  email : String
  name : String
  nickname : String
  passwordHash : String
  role : RoleName
  avatarKey : Option String
  deriving DecidableEq, Repr

structure RefreshToken where
  userId : Uuid
  expiresAt : Nat
  deriving DecidableEq, Repr

/-- The tables of the account pages, with users.role and role_permissions.role_name as foreign
keys into roles. -/
structure Database where
  roles : Map RoleName Role
  rolePermissions : Finset (RoleName × Permission)
  users : Map Uuid User
  refreshTokens : Map TokenHash RefreshToken
  permission_role : ∀ row ∈ rolePermissions, row.1 ∈ roles
  user_role : ∀ id user, users.lookup id = some user → user.role ∈ roles

namespace Database

variable (db : Database)

def roleOf (id : Uuid) : Option RoleName := (db.users.lookup id).map (·.role)

def rolePermissionKeys (role : RoleName) : Finset Permission :=
  (db.rolePermissions.filter fun row => row.1 = role).image Prod.snd

/-- The permissions of the user's role, in one join. -/
def userPermissions (id : Uuid) : Finset Permission :=
  match db.roleOf id with
  | some role => db.rolePermissionKeys role
  | none => ∅

def hasPermission (id : Uuid) (permission : Permission) : Bool :=
  permission ∈ db.userPermissions id

def requirePermission (userId : Uuid) (permission : Permission) :
    Except ApiError Unit :=
  if db.hasPermission userId permission then .ok ()
  else .error ⟨403, permission.deniedMessage⟩

@[simp] theorem mem_rolePermissionKeys {role : RoleName} {permission : Permission} :
    permission ∈ db.rolePermissionKeys role ↔ (role, permission) ∈ db.rolePermissions := by
  simp only [rolePermissionKeys, Finset.mem_image, Finset.mem_filter]
  constructor
  · rintro ⟨⟨r, p⟩, ⟨hmem, rfl⟩, rfl⟩
    exact hmem
  · intro hmem
    exact ⟨(role, permission), ⟨hmem, rfl⟩, rfl⟩

theorem mem_userPermissions {id : Uuid} {permission : Permission} :
    permission ∈ db.userPermissions id ↔
      ∃ role, db.roleOf id = some role ∧ (role, permission) ∈ db.rolePermissions := by
  unfold userPermissions
  cases db.roleOf id <;> simp

/-- The rows of a role, as a set of keys. -/
def rowsOf (role : RoleName) (permissions : Finset Permission) : Finset (RoleName × Permission) :=
  permissions.image (Prod.mk role)

@[simp] theorem mem_rowsOf {role name : RoleName} {permissions : Finset Permission}
    {permission : Permission} :
    (name, permission) ∈ rowsOf role permissions ↔ name = role ∧ permission ∈ permissions := by
  simp only [rowsOf, Finset.mem_image, Prod.mk.injEq]
  constructor
  · rintro ⟨p, hp, rfl, rfl⟩
    exact ⟨rfl, hp⟩
  · rintro ⟨rfl, hp⟩
    exact ⟨permission, hp, rfl, rfl⟩

/-! ## Writes

Each answers none where a constraint of the schema refuses it. -/

def insertRole (name : RoleName) (description : String) (permissions : Finset Permission) :
    Option Database :=
  if name ∈ db.roles then none
  else
    some { db with
      roles := db.roles.insert name { description := description, isSystem := false }
      rolePermissions := db.rolePermissions ∪ rowsOf name permissions
      permission_role := by
        rintro ⟨role, permission⟩ hrow
        rcases Finset.mem_union.mp hrow with hrow | hrow
        · exact AList.mem_insert _ |>.mpr (Or.inr (db.permission_role _ hrow))
        · exact AList.mem_insert _ |>.mpr (Or.inl (mem_rowsOf.mp hrow).1)
      user_role := fun id user huser =>
        AList.mem_insert _ |>.mpr (Or.inr (db.user_role id user huser)) }

def setDescription (name : RoleName) (description : String) : Database :=
  { db with
    roles := db.roles.modify name fun role => { role with description := description }
    permission_role := by simpa using db.permission_role
    user_role := by simpa using db.user_role }

/-- Take the rows seen out and put the new ones in: refused if the role is gone or one of the
new rows is still there. -/
def replacePermissions (name : RoleName) (seen permissions : Finset Permission) :
    Option Database :=
  let kept := db.rolePermissions \ rowsOf name seen
  if h : permissions = ∅ ∨ (name ∈ db.roles ∧ Disjoint kept (rowsOf name permissions)) then
    some { db with
      rolePermissions := kept ∪ rowsOf name permissions
      permission_role := by
        rintro ⟨role, permission⟩ hrow
        rcases Finset.mem_union.mp hrow with hrow | hrow
        · exact db.permission_role _ (Finset.mem_sdiff.mp hrow).1
        · obtain ⟨rfl, hmem⟩ := mem_rowsOf.mp hrow
          rcases h with rfl | ⟨hrole, -⟩
          · simp at hmem
          · exact hrole }
  else none

/-- The rows of role_permissions go with the role; users keep it from going. -/
def deleteRole (name : RoleName) : Option Database :=
  if h : ∀ id ∈ db.users, db.roleOf id ≠ some name then
    some { db with
      roles := db.roles.erase name
      rolePermissions := db.rolePermissions.filter fun row => row.1 ≠ name
      permission_role := by
        intro row hrow
        obtain ⟨hrow, hne⟩ := Finset.mem_filter.mp hrow
        exact AList.mem_erase.mpr ⟨hne, db.permission_role row hrow⟩
      user_role := by
        intro id user huser
        refine AList.mem_erase.mpr ⟨?_, db.user_role id user huser⟩
        rintro rfl
        refine h id ?_ (by simp [roleOf, huser])
        rw [← AList.lookup_isSome, huser]
        rfl }
  else none

def setUserRole (id : Uuid) (role : RoleName) : Option Database :=
  if h : role ∈ db.roles then
    some { db with
      users := db.users.modify id fun user => { user with role := role }
      user_role := by
        intro id' user huser
        rw [Map.lookup_modify] at huser
        split at huser
        · obtain ⟨before, -, rfl⟩ := Option.map_eq_some_iff.mp huser
          exact h
        · exact db.user_role id' user huser }
  else none

/-- A new user, whose values fit their columns: the id is fresh, and email and nickname are
unique. -/
def insertUser (id : Uuid) (user : User) : Option Database :=
  if h : user.role ∈ db.roles then
    if id ∈ db.users ∨ ∃ row ∈ db.users.entries,
        row.2.email = user.email ∨ row.2.nickname = user.nickname then none
    else
      some { db with
        users := db.users.insert id user
        user_role := by
          intro id' user' huser
          by_cases hid : id' = id
          · subst hid
            rw [AList.lookup_insert] at huser
            exact Option.some.inj huser ▸ h
          · rw [AList.lookup_insert_ne hid] at huser
            exact db.user_role id' user' huser }
  else none

def insertRefreshToken (hash : TokenHash) (token : RefreshToken) : Option Database :=
  if hash ∈ db.refreshTokens then none
  else some { db with refreshTokens := db.refreshTokens.insert hash token }

def deleteRefreshToken (hash : TokenHash) : Database :=
  { db with refreshTokens := db.refreshTokens.erase hash }

/-- Delete every refresh token of a user. -/
def endSessions (id : Uuid) : Database :=
  { db with refreshTokens := db.refreshTokens.retain fun _ token => token.userId ≠ id }

/-- What the migration that made the roles leaves in an empty database. -/
def migrated : Database where
  roles := AList.insert "admin" ⟨"Full access, including the admin panel", true⟩ <|
    AList.insert "user" ⟨"Default role for registered users", true⟩ <|
    AList.insert "suspended" ⟨"Cannot sign in", true⟩ ∅
  rolePermissions := rowsOf "admin" Permission.all.toFinset ∪
    rowsOf "user" {.appLogin, .meetingsCreate, .messagesSend}
  users := ∅
  refreshTokens := ∅
  permission_role := by decide
  user_role := by
    intro id user huser
    simp at huser

variable {db}

theorem insertRole_eq_some {name : RoleName} {description : String}
    {permissions : Finset Permission} {after : Database}
    (h : db.insertRole name description permissions = some after) :
    name ∉ db.roles ∧ after.users = db.users ∧
      after.rolePermissions = db.rolePermissions ∪ rowsOf name permissions := by
  unfold insertRole at h
  split at h
  · cases h
  · rename_i hname
    cases h
    exact ⟨hname, rfl, rfl⟩

theorem replacePermissions_eq_some {name : RoleName} {seen permissions : Finset Permission}
    {after : Database} (h : db.replacePermissions name seen permissions = some after) :
    after.users = db.users ∧
      after.rolePermissions =
        (db.rolePermissions \ rowsOf name seen) ∪ rowsOf name permissions := by
  unfold replacePermissions at h
  dsimp only at h
  split at h
  · cases h
    exact ⟨rfl, rfl⟩
  · cases h

theorem deleteRole_eq_some {name : RoleName} {after : Database}
    (h : db.deleteRole name = some after) :
    (∀ id, db.roleOf id ≠ some name) ∧ after.users = db.users ∧
      after.rolePermissions = db.rolePermissions.filter fun row => row.1 ≠ name := by
  unfold deleteRole at h
  split at h
  · rename_i hunused
    cases h
    refine ⟨fun id hid => ?_, rfl, rfl⟩
    obtain ⟨user, huser, -⟩ := Option.map_eq_some_iff.mp hid
    have hmem : id ∈ db.users := by
      rw [← AList.lookup_isSome, huser]
      rfl
    exact hunused id hmem hid
  · cases h

theorem setUserRole_eq_some {id : Uuid} {role : RoleName} {after : Database}
    (h : db.setUserRole id role = some after) :
    after.rolePermissions = db.rolePermissions ∧
      ∀ id', after.roleOf id' =
        if id' = id then (db.roleOf id).map fun _ => role else db.roleOf id' := by
  unfold setUserRole at h
  split at h
  · cases h
    refine ⟨rfl, fun id' => ?_⟩
    simp only [roleOf, Map.lookup_modify]
    split
    · rename_i heq
      subst heq
      simp [Option.map_map, Function.comp_def]
    · rfl
  · cases h

theorem insertUser_eq_some {id : Uuid} {user : User} {after : Database}
    (h : db.insertUser id user = some after) :
    after.rolePermissions = db.rolePermissions ∧ after.refreshTokens = db.refreshTokens ∧
      after.roleOf id = some user.role := by
  unfold insertUser at h
  split at h
  · split at h
    · cases h
    · cases h
      exact ⟨rfl, rfl, by simp [roleOf]⟩
  · cases h

theorem roleOf_congr {after : Database} (h : after.users = db.users) (id : Uuid) :
    after.roleOf id = db.roleOf id := by
  rw [roleOf, roleOf, h]

theorem hasPermission_congr {after : Database} (husers : after.users = db.users)
    (hrows : after.rolePermissions = db.rolePermissions) (id : Uuid) (permission : Permission) :
    after.hasPermission id permission = db.hasPermission id permission := by
  have hsame : after.userPermissions id = db.userPermissions id := by
    simp only [userPermissions, roleOf_congr husers, rolePermissionKeys, hrows]
  rw [hasPermission, hasPermission, hsame]

theorem hasPermission_of_roleOf {id : Uuid} {role : RoleName} (h : db.roleOf id = some role)
    (permission : Permission) :
    db.hasPermission id permission = decide (permission ∈ db.rolePermissionKeys role) := by
  simp only [hasPermission, userPermissions, h]

end Database

end OpenMeet.Accounts
