import OpenMeet.AdminApi

/-!
Confinement of a permission. Admins who lack a permission can give it to nobody
and take it from nobody, in whatever order their requests read and write: what
holds the permission is never written, and nothing that holds it is ever made,
so that what a request has read about it is still true when it writes.
-/
namespace OpenMeet.PrivilegeConfinement

open KeyedMap Messages Accounts Database AdminApi TransitionSystem

def rolesHolding (db : Database) (k : Permission) : Set RoleName :=
  { role | k ∈ db.rolePermissionKeys role }

def usersHolding (db : Database) (k : Permission) : Set Uuid :=
  { id | k ∈ db.userPermissions id }

/-- The same roles and users hold the permission, such a role has the same permissions and such
a user the same role. -/
structure SameHolders (before : Database) (k : Permission) (after : Database) : Prop where
  roles : rolesHolding after k = rolesHolding before k
  users : usersHolding after k = usersHolding before k
  permissions : ∀ role ∈ rolesHolding before k,
    after.rolePermissionKeys role = before.rolePermissionKeys role
  assignments : ∀ id ∈ usersHolding before k, after.roleOf id = before.roleOf id

/-- The admin a request is made by. -/
def actingAdmin : Action → Option Uuid
  | .start _ adminId _ => some adminId
  | _ => none

/-- A write touches no role and no user that holds the permission before or after it. -/
structure Spares (k : Permission) (db after : Database) : Prop where
  roles : ∀ role, k ∈ db.rolePermissionKeys role ∨ k ∈ after.rolePermissionKeys role →
    after.rolePermissionKeys role = db.rolePermissionKeys role
  users : ∀ id, k ∈ db.userPermissions id ∨ k ∈ after.userPermissions id →
    after.roleOf id = db.roleOf id

theorem Spares.refl (k : Permission) (db : Database) : Spares k db db :=
  ⟨fun _ _ => rfl, fun _ _ => rfl⟩

section Spares

variable {k : Permission} {before db after : Database}

theorem Spares.mem_roles (h : Spares k db after) (role : RoleName) :
    k ∈ after.rolePermissionKeys role ↔ k ∈ db.rolePermissionKeys role := by
  constructor
  · intro hafter
    rwa [h.roles role (Or.inr hafter)] at hafter
  · intro hbefore
    rwa [h.roles role (Or.inl hbefore)]

theorem Spares.mem_users (h : Spares k db after) (id : Uuid) :
    k ∈ after.userPermissions id ↔ k ∈ db.userPermissions id := by
  constructor
  · intro hafter
    obtain ⟨role, hrole, hrow⟩ := after.mem_userPermissions.mp hafter
    rw [h.users id (Or.inr hafter)] at hrole
    have hkey := (h.mem_roles role).mp (after.mem_rolePermissionKeys.mpr hrow)
    exact db.mem_userPermissions.mpr ⟨role, hrole, db.mem_rolePermissionKeys.mp hkey⟩
  · intro hbefore
    obtain ⟨role, hrole, hrow⟩ := db.mem_userPermissions.mp hbefore
    rw [← h.users id (Or.inl hbefore)] at hrole
    have hkey := (h.mem_roles role).mpr (db.mem_rolePermissionKeys.mpr hrow)
    exact after.mem_userPermissions.mpr ⟨role, hrole, after.mem_rolePermissionKeys.mp hkey⟩

theorem SameHolders.trans (w : SameHolders before k db) (h : Spares k db after) :
    SameHolders before k after where
  roles := (Set.ext fun role => h.mem_roles role).trans w.roles
  users := (Set.ext fun id => h.mem_users id).trans w.users
  permissions role hrole := by
    have hold : role ∈ rolesHolding db k := w.roles ▸ hrole
    exact (h.roles role (Or.inl hold)).trans (w.permissions role hrole)
  assignments id hid := by
    have hold : id ∈ usersHolding db k := w.users ▸ hid
    exact (h.users id (Or.inl hold)).trans (w.assignments id hid)

/-- A write that leaves the users' roles alone and changes only the permissions of a role that
lacks the permission before and after. -/
theorem spares_of_role (name : RoleName) (husers : after.users = db.users)
    (hlacks : k ∉ db.rolePermissionKeys name) (hstill : k ∉ after.rolePermissionKeys name)
    (hothers : ∀ role ≠ name, after.rolePermissionKeys role = db.rolePermissionKeys role) :
    Spares k db after where
  roles role hrole := by
    refine hothers role ?_
    rintro rfl
    exact hrole.elim hlacks hstill
  users id _ := roleOf_congr husers id

theorem insertRole_spares {name : RoleName} {description : String}
    {permissions : Finset Permission}
    (h : db.insertRole name description permissions = some after) (hk : k ∉ permissions) :
    Spares k db after := by
  obtain ⟨hnew, husers, hrows⟩ := insertRole_eq_some h
  have hnone : ∀ p, (name, p) ∉ db.rolePermissions := fun p hrow =>
    hnew (db.permission_role _ hrow)
  refine spares_of_role name husers ?_ ?_ ?_
  · simpa using hnone k
  · simp [hrows, hnone, hk]
  · intro role hrole
    ext p
    simp [hrows, hrole]

theorem saveRole_spares {name : RoleName} {description : Option String}
    {replacement : Option (Finset Permission × Finset Permission)}
    (h : saveRole db name description replacement = some after)
    (hk : ∀ r ∈ replacement, k ∉ db.rolePermissionKeys name ∧ k ∉ r.2) : Spares k db after := by
  obtain ⟨husers, hrows⟩ := saveRole_eq_some h
  cases replacement with
  | none =>
    refine ⟨fun role _ => ?_, fun id _ => roleOf_congr husers id⟩
    simp only [rolePermissionKeys, hrows, Option.elim_none]
  | some r =>
    obtain ⟨hlacks, hnew⟩ := hk r rfl
    refine spares_of_role _ husers hlacks ?_ ?_
    · have hnone : (name, k) ∉ db.rolePermissions := by simpa using hlacks
      simp [hrows, hnone, hnew]
    · intro role hrole
      ext p
      simp [hrows, hrole]

theorem deleteRole_spares {name : RoleName} (h : db.deleteRole name = some after)
    (hk : k ∉ db.rolePermissionKeys name) : Spares k db after := by
  obtain ⟨-, husers, hrows⟩ := deleteRole_eq_some h
  refine spares_of_role _ husers hk ?_ ?_
  · simp [hrows]
  · intro role hrole
    ext p
    simp [hrows, hrole]

theorem setUserRole_spares {id : Uuid} {role : RoleName} (h : db.setUserRole id role = some after)
    (huser : k ∉ db.userPermissions id) (hrole : k ∉ db.rolePermissionKeys role) :
    Spares k db after := by
  obtain ⟨hrows, hroles⟩ := setUserRole_eq_some h
  have hkeys : ∀ name, after.rolePermissionKeys name = db.rolePermissionKeys name := fun name => by
    simp only [rolePermissionKeys, hrows]
  refine ⟨fun name _ => hkeys name, fun id' hholds => ?_⟩
  rw [hroles]
  refine if_neg ?_
  rintro rfl
  rcases hholds with hholds | hholds
  · exact huser hholds
  · obtain ⟨name, hname, hrow⟩ := after.mem_userPermissions.mp hholds
    rw [hroles, if_pos rfl] at hname
    obtain ⟨-, -, rfl⟩ := Option.map_eq_some_iff.mp hname
    rw [hrows] at hrow
    exact hrole (db.mem_rolePermissionKeys.mpr hrow)

end Spares

/-- What a request has read and is about to write has nothing to do with the permission. -/
def Clean (before : Database) (k : Permission) : Stage → Prop
  | .readingRole adminId _ | .readingPermissions adminId _ _ =>
    adminId ∉ usersHolding before k
  | .insertingRole _ _ _ permissions => k ∉ permissions
  | .findingRole admin _ _ _ | .readingTarget admin _ _ _ | .findingDoomed admin _
  | .readingDoomed admin _ | .findingUser admin _ _ => k ∉ admin.permissions
  | .clearingRole _ name _ permissions => name ∉ rolesHolding before k ∧ k ∉ permissions
  | .savingRole _ name _ replacement =>
    ∀ r ∈ replacement, name ∉ rolesHolding before k ∧ k ∉ r.2
  | .countingUsers name | .deletingRole name => name ∉ rolesHolding before k
  | .findingNewRole admin userId currentRole _ | .readingCurrent admin userId currentRole _ =>
    k ∉ admin.permissions ∧
      (currentRole ∉ rolesHolding before k → userId ∉ usersHolding before k)
  | .readingNew admin userId current _ =>
    k ∉ admin.permissions ∧ (k ∉ current → userId ∉ usersHolding before k)
  | .savingUser _ userId role _ =>
    userId ∉ usersHolding before k ∧ role ∉ rolesHolding before k
  | .endingSessions _ | .loadingUser _ | .loadingRole _ _ | .done _ => True

structure Confined (before : Database) (k : Permission) (s : Panel) : Prop where
  holders : SameHolders before k s.db
  clean : ∀ i stage, s.requests i = some stage → Clean before k stage

section Step

variable {before db after : Database} {k : Permission} {stage next : Stage}

/-- A statement of a clean request spares the holders and leaves the request clean. -/
theorem advance_clean (w : SameHolders before k db) (hclean : Clean before k stage)
    (h : Advance db stage after next) : Spares k db after ∧ Clean before k next := by
  have hrole : ∀ {role}, role ∉ rolesHolding before k → k ∉ db.rolePermissionKeys role :=
    fun {role} => mt (Set.ext_iff.mp w.roles role).mp
  have hrole' : ∀ {role}, k ∉ db.rolePermissionKeys role → role ∉ rolesHolding before k :=
    fun {role} => mt (Set.ext_iff.mp w.roles role).mpr
  have huser : ∀ {id}, id ∉ usersHolding before k → k ∉ db.userPermissions id :=
    fun {id} => mt (Set.ext_iff.mp w.users id).mp
  cases h with
  | stop stage result => exact ⟨.refl k db, trivial⟩
  | readRole adminId role request => exact ⟨.refl k db, hclean⟩
  | beginCreate adminId role name description permissions request hholds =>
    exact ⟨.refl k db, fun hmem => huser hclean (hholds hmem)⟩
  | beginUpdate => exact ⟨.refl k db, huser hclean⟩
  | beginDelete => exact ⟨.refl k db, huser hclean⟩
  | beginUser => exact ⟨.refl k db, huser hclean⟩
  | insertRole admin name description permissions after hafter =>
    exact ⟨insertRole_spares hafter hclean, trivial⟩
  | describe => exact ⟨.refl k db, by simp [Clean]⟩
  | checkUpdate => exact ⟨.refl k db, hclean⟩
  | readTarget admin name description permissions hnew hcurrent =>
    exact ⟨.refl k db, hrole' fun hmem => hclean (hcurrent hmem), fun hmem => hclean (hnew hmem)⟩
  | clearRole admin name description permissions =>
    exact ⟨.refl k db, by simpa [Clean] using hclean⟩
  | saveRole admin name description replacement after hafter =>
    exact ⟨saveRole_spares hafter fun r hr => ⟨hrole (hclean r hr).1, (hclean r hr).2⟩, trivial⟩
  | findDoomed => exact ⟨.refl k db, hclean⟩
  | readDoomed admin name hcurrent =>
    exact ⟨.refl k db, hrole' fun hmem => hclean (hcurrent hmem)⟩
  | countUsers => exact ⟨.refl k db, hclean⟩
  | deleteRole name after hafter => exact ⟨deleteRole_spares hafter (hrole hclean), trivial⟩
  | findUser admin userId currentRole role hcurrent =>
    refine ⟨.refl k db, hclean, fun hnot hmem => ?_⟩
    have hholds : k ∈ db.userPermissions userId := (Set.ext_iff.mp w.users userId).mpr hmem
    obtain ⟨name, hname, hrow⟩ := db.mem_userPermissions.mp hholds
    obtain rfl := Option.some.inj (hname.symm.trans hcurrent)
    exact hrole hnot (db.mem_rolePermissionKeys.mpr hrow)
  | findNewRole => exact ⟨.refl k db, hclean⟩
  | readCurrent admin userId currentRole role =>
    exact ⟨.refl k db, hclean.1, fun hnot => hclean.2 (hrole' hnot)⟩
  | readNew admin userId current role hcurrent hnew =>
    refine ⟨.refl k db, hclean.2 fun hmem => hclean.1 (hcurrent hmem), ?_⟩
    exact hrole' fun hmem => hclean.1 (hnew hmem)
  | saveUser admin userId role permissions after hafter =>
    refine ⟨setUserRole_spares hafter (huser hclean.1) (hrole hclean.2), ?_⟩
    split <;> trivial
  | endSessions => exact ⟨⟨fun _ _ => rfl, fun _ _ => rfl⟩, trivial⟩

theorem clean_passOver (rows : Finset (RoleName × Permission)) (hclean : Clean before k stage) :
    Clean before k (stage.passOver rows) := by
  unfold Stage.passOver
  split
  · rename_i admin name description seen permissions
    intro r hr
    cases hr
    exact hclean (seen, permissions) rfl
  · exact hclean

theorem confined_step {env : Environment} {s t : Panel} {a : Action} (w : Confined before k s)
    (hlacks : ∀ adminId ∈ actingAdmin a, adminId ∉ usersHolding before k)
    (h : step env s a = some t) : Confined before k t := by
  have hset : ∀ (i : Nat) (stage : Stage), Clean before k stage →
      Confined before k (s.setRequest i stage) := fun i stage hclean =>
    ⟨w.holders, Panel.forall_setRequest w.clean hclean⟩
  rcases step_cases h with ⟨i, adminId, request, rfl, rfl⟩ | ⟨i, stage, after, next, rfl, hstage,
    hadvance, rfl⟩ | ⟨i, rfl, rfl⟩
  · exact hset i _ (hlacks adminId rfl)
  · obtain ⟨hspares, hclean⟩ := advance_clean w.holders (w.clean i stage hstage) hadvance
    have hpassed := Panel.forall_passOver w.clean fun _ hstage =>
      clean_passOver (stage.takenOut s.db) hstage
    exact ⟨w.holders.trans hspares, Panel.forall_setRequest hpassed hclean⟩
  · exact hset i _ trivial

end Step

theorem confined_initial (db : Database) (k : Permission) :
    Confined db k (Panel.initial db) :=
  ⟨⟨rfl, rfl, fun _ _ => rfl, fun _ _ => rfl⟩, by simp [Panel.initial]⟩

/-- Along every run of requests whose admins all lack a permission, the same roles and users
hold it. -/
theorem sameHolders_of_lacking (env : Environment) (db : Database) (k : Permission)
    (actions : List Action)
    (hlacks : ∀ a ∈ actions, ∀ adminId ∈ actingAdmin a, adminId ∉ usersHolding db k) :
    (system env db).Always (fun s => SameHolders db k s.db) (system env db).init actions := by
  refine System.always_mono (fun s (w : Confined db k s) => w.holders) ?_
  refine System.always_of_kept (confined_initial db k) fun a ha s t w h => ?_
  exact confined_step w (hlacks a ha) h

/-- A helpdesk that may manage roles and users, but not send messages. -/
def helpdesk : Option Database :=
  ((Database.migrated.insertRole "helpdesk" "" {.adminAccess, .adminUsersManage,
    .adminRolesManage}).bind fun db =>
      db.insertUser 1 ⟨"a@x", "Ada", "ada", "", "helpdesk", none⟩).bind fun db =>
        db.insertUser 2 ⟨"b@x", "Bob", "bob", "", "suspended", none⟩

/-- The helpdesk makes a role and gives it to the suspended user. -/
def handOut : List AdminApi.Action :=
  [.start 0 1 (.createRole "desk" "" ["admin.access"]), .advance 0, .advance 0, .advance 0,
    .start 1 1 (.updateUser 2 "desk"), .advance 1, .advance 1, .advance 1, .advance 1, .advance 1,
    .advance 1, .advance 1]

theorem sameHolders_handOut :
    ∃ db ∈ helpdesk, ((system ⟨id⟩ db).run handOut).any (fun s => s.db.roleOf 2 = some "desk") ∧
      (system ⟨id⟩ db).Always (fun s => SameHolders db .messagesSend s.db) (system ⟨id⟩ db).init
        handOut := by
  obtain ⟨db, hdb, hlacks, hrun⟩ : ∃ db ∈ helpdesk,
      Permission.messagesSend ∉ db.userPermissions 1 ∧
        ((system ⟨id⟩ db).run handOut).any (fun s => s.db.roleOf 2 = some "desk") := by
    decide
  refine ⟨db, hdb, hrun, sameHolders_of_lacking ⟨id⟩ db .messagesSend handOut ?_⟩
  have hself : ∀ a ∈ handOut, ∀ adminId ∈ actingAdmin a, adminId = 1 := by
    simp [handOut, actingAdmin]
  intro a ha adminId hadmin
  obtain rfl := hself a ha adminId hadmin
  exact hlacks

/-- The helpdesk gives the role of every permission another description. -/
def describeAdmins : List AdminApi.Action :=
  [.start 0 1 (.updateRole "admin" (some "Staff") none), .advance 0, .advance 0, .advance 0,
    .advance 0, .advance 0]

/-- The text that describes a role is not confined: update_role asks for the role's permissions
only when the request replaces them. -/
theorem describeAdmins_changes : ¬ ∀ (env : Environment) (db : Database) (k : Permission)
    (actions : List Action),
    (∀ a ∈ actions, ∀ adminId ∈ actingAdmin a, adminId ∉ usersHolding db k) →
      (system env db).Always (fun s => ∀ role ∈ rolesHolding db k,
        s.db.roles.lookup role = db.roles.lookup role) (system env db).init actions := by
  obtain ⟨db, -, hlacks, hholds, hrun⟩ : ∃ db ∈ helpdesk,
      Permission.messagesSend ∉ db.userPermissions 1 ∧
        Permission.messagesSend ∈ db.rolePermissionKeys "admin" ∧
        ((system ⟨id⟩ db).run describeAdmins).any (fun s =>
          s.db.roles.lookup "admin" ≠ db.roles.lookup "admin") := by
    decide
  have hself : ∀ a ∈ describeAdmins, ∀ adminId ∈ actingAdmin a, adminId = 1 := by
    simp [describeAdmins, actingAdmin]
  intro hconfined
  refine System.not_always_of_run _ hrun (fun s hchanged hsame => ?_)
    (hconfined ⟨id⟩ db .messagesSend describeAdmins fun a ha adminId hadmin => ?_)
  · exact of_decide_eq_true hchanged (hsame "admin" hholds)
  · obtain rfl := hself a ha adminId hadmin
    exact hlacks

end OpenMeet.PrivilegeConfinement
