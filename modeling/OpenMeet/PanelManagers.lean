import OpenMeet.AdminApi

/-!
Whether the panel keeps someone who can manage it. No request writes the role
of its own admin, and only an admin who holds every permission may touch a user
or a role that holds them all; but both were read before the write, and by then
the admin may have been demoted. Writes whose admin is still what was read keep
a manager.
-/
namespace OpenMeet.PanelManagers

open KeyedMap Messages Accounts Database AdminApi TransitionSystem

def FullRole (db : Database) (role : RoleName) : Prop :=
  ∀ permission ∈ Permission.all, permission ∈ db.rolePermissionKeys role

/-- The user's role holds every permission. -/
def Manager (db : Database) (id : Uuid) : Prop :=
  ∀ permission ∈ Permission.all, permission ∈ db.userPermissions id

def HasManager (db : Database) : Prop := ∃ id, Manager db id

instance (db : Database) (role : RoleName) : Decidable (FullRole db role) :=
  inferInstanceAs (Decidable (∀ permission ∈ Permission.all, _))

instance (db : Database) (id : Uuid) : Decidable (Manager db id) :=
  inferInstanceAs (Decidable (∀ permission ∈ Permission.all, _))

/-- A write that takes a permission from a user or a role holding them all is made while its
admin still holds them all, and not through the role written. -/
def AdminStands (db : Database) : Stage → Prop
  | .savingUser admin userId role _ =>
    Manager db userId ∧ ¬ FullRole db role → Manager db admin.id
  | .savingRole admin name _ (some (_, permissions)) =>
    FullRole db name ∧ ¬ Permission.all.toFinset ⊆ permissions →
      Manager db admin.id ∧ db.roleOf admin.id ≠ some name
  | _ => True

instance (db : Database) (stage : Stage) : Decidable (AdminStands db stage) := by
  unfold AdminStands
  split <;> infer_instance

def AdminsStand (s : Panel) : Action → Prop
  | .advance i => ∀ stage ∈ s.requests i, AdminStands s.db stage
  | _ => True

instance (s : Panel) (a : Action) : Decidable (AdminsStand s a) := by
  unfold AdminsStand
  split <;> infer_instance

/-- update_user is never about its own admin. -/
def OthersOnly : Stage → Prop
  | .findingUser admin userId _ | .findingNewRole admin userId _ _
  | .readingCurrent admin userId _ _ | .readingNew admin userId _ _
  | .savingUser admin userId _ _ => admin.id ≠ userId
  | _ => True

section Manager

variable {db after : Database} {id : Uuid} {role : RoleName}

theorem manager_iff : Manager db id ↔ ∃ role, db.roleOf id = some role ∧ FullRole db role := by
  constructor
  · intro h
    obtain ⟨role, hrole, -⟩ := db.mem_userPermissions.mp (h .appLogin (Permission.mem_all _))
    refine ⟨role, hrole, fun permission hall => ?_⟩
    obtain ⟨role', hrole', hrow⟩ := db.mem_userPermissions.mp (h permission hall)
    obtain rfl := Option.some.inj (hrole'.symm.trans hrole)
    exact db.mem_rolePermissionKeys.mpr hrow
  · rintro ⟨role, hrole, hfull⟩ permission hall
    have hrow := db.mem_rolePermissionKeys.mp (hfull permission hall)
    exact db.mem_userPermissions.mpr ⟨role, hrole, hrow⟩

theorem Manager.mem_users (h : Manager db id) : id ∈ db.users := by
  obtain ⟨role, hrole, -⟩ := manager_iff.mp h
  obtain ⟨user, huser, -⟩ := Option.map_eq_some_iff.mp hrole
  rw [← AList.lookup_isSome, huser]
  rfl

/-- A manager stays one where their role stays and loses nothing. -/
theorem Manager.of_kept (h : Manager db id) (hrole : after.roleOf id = db.roleOf id)
    (hkeys : ∀ role, db.roleOf id = some role →
      db.rolePermissionKeys role ⊆ after.rolePermissionKeys role) : Manager after id := by
  obtain ⟨role, hassigned, hfull⟩ := manager_iff.mp h
  have hsub := hkeys role hassigned
  exact manager_iff.mpr ⟨role, hrole.trans hassigned, fun p hall => hsub (hfull p hall)⟩

theorem hasManager_of_users (h : HasManager db) (husers : after.users = db.users)
    (hkeys : ∀ id role, db.roleOf id = some role →
      db.rolePermissionKeys role ⊆ after.rolePermissionKeys role) : HasManager after := by
  obtain ⟨id, hid⟩ := h
  exact ⟨id, hid.of_kept (roleOf_congr husers id) (hkeys id)⟩

theorem insertRole_hasManager {name : RoleName} {description : String}
    {permissions : Finset Permission} (h : HasManager db)
    (hafter : db.insertRole name description permissions = some after) : HasManager after := by
  obtain ⟨-, husers, hrows⟩ := insertRole_eq_some hafter
  refine hasManager_of_users h husers fun id role _ permission hmem => ?_
  rw [mem_rolePermissionKeys] at hmem ⊢
  rw [hrows]
  exact Finset.mem_union_left _ hmem

theorem deleteRole_hasManager {name : RoleName} (h : HasManager db)
    (hafter : db.deleteRole name = some after) : HasManager after := by
  obtain ⟨hunused, husers, hrows⟩ := deleteRole_eq_some hafter
  refine hasManager_of_users h husers fun id role hrole permission hmem => ?_
  rw [mem_rolePermissionKeys] at hmem ⊢
  rw [hrows]
  refine Finset.mem_filter.mpr ⟨hmem, ?_⟩
  rintro rfl
  exact hunused id hrole

theorem saveRole_hasManager {admin : Admin} {name : RoleName} {description : Option String}
    {replacement : Option (Finset Permission × Finset Permission)} (h : HasManager db)
    (hstands : AdminStands db (.savingRole admin name description replacement))
    (hafter : saveRole db name description replacement = some after) : HasManager after := by
  obtain ⟨husers, hrows⟩ := saveRole_eq_some hafter
  cases replacement with
  | none => exact hasManager_of_users h husers fun id role _ => by simp [rolePermissionKeys, hrows]
  | some r =>
    -- a manager under another role loses nothing
    have hkept : ∀ id, Manager db id → db.roleOf id ≠ some name → HasManager after := by
      intro id hid hne
      refine ⟨id, hid.of_kept (roleOf_congr husers id) fun role hrole permission hmem => ?_⟩
      have hname : role ≠ name := fun heq => hne (heq ▸ hrole)
      rw [mem_rolePermissionKeys] at hmem ⊢
      simp [hrows, hname, hmem]
    obtain ⟨id, hid⟩ := h
    by_cases hrole : db.roleOf id = some name
    · by_cases hall : Permission.all.toFinset ⊆ r.2
      · refine ⟨id, manager_iff.mpr ⟨name, (roleOf_congr husers id).trans hrole, ?_⟩⟩
        intro permission hmem
        have hnew : permission ∈ r.2 := hall (List.mem_toFinset.mpr hmem)
        simp [hrows, hnew]
      · obtain ⟨role, hrole', hfull⟩ := manager_iff.mp hid
        obtain rfl := Option.some.inj (hrole'.symm.trans hrole)
        obtain ⟨hadmin, hne⟩ := hstands ⟨hfull, hall⟩
        exact hkept admin.id hadmin hne
    · exact hkept id hid hrole

theorem setUserRole_hasManager {admin : Admin} {userId : Uuid} {permissions : Finset Permission}
    (h : HasManager db) (hother : admin.id ≠ userId)
    (hstands : AdminStands db (.savingUser admin userId role permissions))
    (hafter : db.setUserRole userId role = some after) : HasManager after := by
  obtain ⟨hrows, hroles⟩ := setUserRole_eq_some hafter
  have hkeys : ∀ name, after.rolePermissionKeys name = db.rolePermissionKeys name := fun name => by
    simp only [rolePermissionKeys, hrows]
  have hkept : ∀ id, Manager db id → id ≠ userId → HasManager after := fun id hid hne =>
    ⟨id, hid.of_kept ((hroles id).trans (if_neg hne)) fun role _ => (hkeys role).ge⟩
  obtain ⟨id, hid⟩ := h
  by_cases heq : id = userId
  · subst heq
    by_cases hfull : FullRole db role
    · obtain ⟨before, hbefore, -⟩ := manager_iff.mp hid
      refine ⟨id, manager_iff.mpr ⟨role, ?_, fun permission hall => ?_⟩⟩
      · simp [hroles, hbefore]
      · exact (hkeys role).ge (hfull permission hall)
    · exact hkept admin.id (hstands ⟨hid, hfull⟩) hother
  · exact hkept id hid heq

end Manager

theorem advance_othersOnly {db after : Database} {stage next : Stage} (w : OthersOnly stage)
    (h : Advance db stage after next) : OthersOnly next := by
  cases h with
  | beginUser adminId userId role newRole hother => exact hother
  | findUser | findNewRole | readCurrent | readNew => exact w
  | saveUser => split <;> trivial
  | _ => trivial

theorem othersOnly_passOver (rows : Finset (RoleName × Permission)) {stage : Stage}
    (w : OthersOnly stage) : OthersOnly (stage.passOver rows) := by
  unfold Stage.passOver
  split
  · trivial
  · exact w

/-- A statement whose admin stands leaves a manager. -/
theorem advance_hasManager {db after : Database} {stage next : Stage} (h : HasManager db)
    (w : OthersOnly stage) (hstands : AdminStands db stage)
    (hadvance : Advance db stage after next) :
    HasManager after := by
  cases hadvance with
  | insertRole admin name description permissions after hafter =>
    exact insertRole_hasManager h hafter
  | saveRole admin name description replacement after hafter =>
    exact saveRole_hasManager h hstands hafter
  | deleteRole name after hafter => exact deleteRole_hasManager h hafter
  | saveUser admin userId role permissions after hafter =>
    exact setUserRole_hasManager h w hstands hafter
  | endSessions userId => exact hasManager_of_users h rfl fun _ _ _ => subset_rfl
  | _ => exact h

structure Managed (s : Panel) : Prop where
  manager : HasManager s.db
  others : ∀ i stage, s.requests i = some stage → OthersOnly stage

theorem managed_step {env : Environment} {s t : Panel} {a : Action} (w : Managed s)
    (hstand : AdminsStand s a) (h : step env s a = some t) : Managed t := by
  have hset : ∀ (i : Nat) (stage : Stage), OthersOnly stage → Managed (s.setRequest i stage) :=
    fun i stage hothers => ⟨w.manager, Panel.forall_setRequest w.others hothers⟩
  rcases step_cases h with ⟨i, adminId, request, rfl, rfl⟩ | ⟨i, stage, after, next, rfl, hstage,
    hadvance, rfl⟩ | ⟨i, rfl, rfl⟩
  · exact hset i _ trivial
  · have hothers := w.others i stage hstage
    have hstands := hstand stage hstage
    have hpassed := Panel.forall_passOver w.others fun _ hothers =>
      othersOnly_passOver (stage.takenOut s.db) hothers
    exact ⟨advance_hasManager w.manager hothers hstands hadvance,
      Panel.forall_setRequest hpassed (advance_othersOnly hothers hadvance)⟩
  · exact hset i _ trivial

/-- Where a role or user with every permission is only written while the writing admin still
stands, the panel keeps a manager in every state. -/
theorem hasManager_of_adminsStand (env : Environment) (db : Database) (hmanager : HasManager db)
    (actions : List Action)
    (hstand : (system env db).Guarded AdminsStand (system env db).init actions) :
    (system env db).Always (fun s => HasManager s.db) (system env db).init actions := by
  refine System.always_mono (fun s (w : Managed s) => w.manager) ?_
  refine System.always_of_guarded (fun s a t w hs h => managed_step w hs h) ?_ hstand
  exact ⟨hmanager, by simp [system, Panel.initial]⟩

def twoAdmins : Option Database :=
  (Database.migrated.insertUser 1 ⟨"a@x", "Ada", "ada", "", "admin", none⟩).bind fun db =>
    db.insertUser 2 ⟨"b@x", "Bob", "bob", "", "admin", none⟩

def advances (i n : Nat) : List Action := List.replicate n (.advance i)

/-- Each admin makes the other a user: both are checked before either is written. -/
def demoteEachOther : List Action :=
  .start 0 1 (.updateUser 2 "user") :: .start 1 2 (.updateUser 1 "user") ::
    (advances 0 6 ++ advances 1 6 ++ advances 0 1 ++ advances 1 1)

/-- The second admin is made a user and is then refused. -/
def demoteOne : List Action :=
  .start 0 1 (.updateUser 2 "user") :: .start 1 2 (.updateUser 1 "user") ::
    (advances 0 7 ++ advances 1 2)

theorem demoteEachOther_unmanaged :
    ∃ db ∈ twoAdmins, HasManager db ∧
      ¬ (system ⟨id⟩ db).Always (fun s => HasManager s.db) (system ⟨id⟩ db).init
        demoteEachOther := by
  obtain ⟨db, hdb, hone, hrun⟩ : ∃ db ∈ twoAdmins, Manager db 1 ∧
      ((system ⟨id⟩ db).run demoteEachOther).any fun s =>
        s.db.users.keys.all fun id => ¬ Manager s.db id := by
    decide
  refine ⟨db, hdb, ⟨1, hone⟩, System.not_always_of_run _ hrun fun s hnone hmanager => ?_⟩
  obtain ⟨id, hid⟩ := hmanager
  have hnot := List.all_eq_true.mp hnone id (AList.mem_keys.mpr hid.mem_users)
  exact of_decide_eq_true hnot hid

theorem hasManager_demoteOne :
    ∃ db ∈ twoAdmins, ((system ⟨id⟩ db).run demoteOne).any (fun s => s.db.roleOf 2 = some "user") ∧
      (system ⟨id⟩ db).Always (fun s => HasManager s.db) (system ⟨id⟩ db).init demoteOne := by
  obtain ⟨db, hdb, hone, hrun, hstand⟩ : ∃ db ∈ twoAdmins, Manager db 1 ∧
      ((system ⟨id⟩ db).run demoteOne).any (fun s => s.db.roleOf 2 = some "user") ∧
      (system ⟨id⟩ db).Guarded AdminsStand (system ⟨id⟩ db).init demoteOne := by
    decide
  exact ⟨db, hdb, hrun, hasManager_of_adminsStand ⟨id⟩ db ⟨1, hone⟩ demoteOne hstand⟩

end OpenMeet.PanelManagers
