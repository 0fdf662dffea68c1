import Mathlib.Data.List.Basic
import Mathlib.Data.List.Induction
import Mathlib.Data.List.Nodup
import Mathlib.Data.List.Perm.Subperm
import Mathlib.Order.MinMax

/-!
Rows collected into groups by a key, one after the other: a row of a new key
starts a group at the end, and a row of a known key is merged into its group. So
the groups come in the order in which their keys first appear, and each is what
becomes of the rows of its key alone. Where merging takes a maximum, further
rows leave a group as it is exactly when earlier rows of its key reach as far.
-/
namespace OpenMeet.Grouping

variable {Row Key Group : Type*} [DecidableEq Key]

section Groups

variable (key : Row → Key) (start : Row → Group) (merge : Group → Row → Group)

def addRow (groups : List (Key × Group)) (row : Row) : List (Key × Group) :=
  if groups.any (·.1 = key row) then
    groups.map fun group =>
      if group.1 = key row then (group.1, merge group.2 row) else group
  else groups ++ [(key row, start row)]

/-- The keys in the order in which they first appear. -/
def keysOf (rows : List Row) : List Key := (rows.map key).eraseDups

/-- The group of rows that share a key. -/
def collect : List Row → Option Group
  | [] => none
  | first :: rest => some (rest.foldl merge (start first))

def groupOf (rows : List Row) (k : Key) : Option Group :=
  collect start merge (rows.filter (key · = k))

variable {key} {rows extra : List Row} {row : Row} {k : Key}

@[simp] theorem mem_keysOf : k ∈ keysOf key rows ↔ ∃ row ∈ rows, key row = k := by
  rw [keysOf, List.mem_eraseDups, List.mem_map]

theorem keysOf_concat : keysOf key (rows ++ [row]) =
    if key row ∈ keysOf key rows then keysOf key rows else keysOf key rows ++ [key row] := by
  unfold keysOf
  rw [List.map_append, List.eraseDups_append, List.map_singleton]
  split
  · rename_i hold
    have hmem : ∃ old ∈ rows, key old = key row := mem_keysOf.mp hold
    simp [List.removeAll, hmem]
  · rename_i hnew
    have hmem : ¬∃ old ∈ rows, key old = key row := fun h => hnew (mem_keysOf.mpr h)
    simp [List.removeAll, hmem, List.eraseDups_cons]

theorem nodup_keysOf (rows : List Row) : (keysOf key rows).Nodup := by
  induction rows using List.reverseRecOn with
  | nil => exact List.nodup_nil
  | append_singleton rows row ih =>
    rw [keysOf_concat]
    split
    · exact ih
    · rename_i hnew
      exact List.Nodup.append ih (List.nodup_singleton _) (by simpa using hnew)

/-- Rows of known keys add no key. -/
theorem keysOf_append (h : ∀ row ∈ extra, key row ∈ keysOf key rows) :
    keysOf key (rows ++ extra) = keysOf key rows := by
  induction extra using List.reverseRecOn with
  | nil => rw [List.append_nil]
  | append_singleton extra row ih =>
    have hextra := ih fun other hother => h other (List.mem_append_left _ hother)
    have hrow := h row (List.mem_append_right _ (List.mem_singleton_self row))
    rw [← List.append_assoc, keysOf_concat, hextra, if_pos hrow]

/-- Keys may be replaced by names that tell them apart. -/
theorem keysOf_map {Name : Type*} [DecidableEq Name] {name : Key → Name}
    (hname : Function.Injective name) (rows : List Row) :
    keysOf (fun row => name (key row)) rows = (keysOf key rows).map name := by
  induction rows using List.reverseRecOn with
  | nil => rfl
  | append_singleton rows row ih =>
    have hmem : name (key row) ∈ (keysOf key rows).map name ↔ key row ∈ keysOf key rows :=
      List.mem_map_of_injective hname
    rw [keysOf_concat, keysOf_concat, ih]
    by_cases hold : key row ∈ keysOf key rows
    · rw [if_pos (hmem.mpr hold), if_pos hold]
    · rw [if_neg (mt hmem.mp hold), if_neg hold, List.map_append, List.map_singleton]

theorem length_keysOf_append : (keysOf key (rows ++ extra)).length = (keysOf key rows).length ↔
    ∀ row ∈ extra, key row ∈ keysOf key rows := by
  constructor
  · intro hlength row hrow
    have hsubset : keysOf key rows ⊆ keysOf key (rows ++ extra) := by
      intro k hk
      obtain ⟨old, hold, rfl⟩ := mem_keysOf.mp hk
      exact mem_keysOf.mpr ⟨old, List.mem_append_left _ hold, rfl⟩
    have hperm := ((nodup_keysOf rows).subperm hsubset).perm_of_length_le hlength.le
    exact hperm.mem_iff.mpr (mem_keysOf.mpr ⟨row, List.mem_append_right _ hrow, rfl⟩)
  · intro h
    rw [keysOf_append h]

theorem groupOf_isSome : (groupOf key start merge rows k).isSome = true ↔ k ∈ keysOf key rows := by
  rw [mem_keysOf, groupOf]
  constructor
  · intro h
    cases hrows : rows.filter (key · = k) with
    | nil =>
      rw [hrows] at h
      cases h
    | cons first rest =>
      obtain ⟨hfirst, hkey⟩ := List.mem_filter.mp (hrows ▸ List.mem_cons_self)
      exact ⟨first, hfirst, of_decide_eq_true hkey⟩
  · intro h
    obtain ⟨row, hrow, hkey⟩ := h
    have hmem : row ∈ rows.filter (key · = k) := List.mem_filter.mpr ⟨hrow, decide_eq_true hkey⟩
    cases hrows : rows.filter (key · = k) with
    | nil =>
      rw [hrows] at hmem
      cases hmem
    | cons first rest => rfl

variable {start merge}

theorem groupOf_concat (h : key row = k) : groupOf key start merge (rows ++ [row]) k =
    some ((groupOf key start merge rows k).elim (start row) (merge · row)) := by
  unfold groupOf
  rw [List.filter_append, List.filter_singleton, decide_eq_true h, cond_true]
  cases rows.filter (key · = k) with
  | nil => rfl
  | cons first rest => simp [collect]

theorem groupOf_concat_ne (h : key row ≠ k) : groupOf key start merge (rows ++ [row]) k =
    groupOf key start merge rows k := by
  unfold groupOf
  rw [List.filter_append, List.filter_singleton]
  simp [h]

theorem map_fst_addRow {groups : List (Key × Group)} (hgroups : groups.map Prod.fst =
    keysOf key rows) : (addRow key start merge groups row).map Prod.fst =
      keysOf key (rows ++ [row]) := by
  have hany : groups.any (·.1 = key row) = true ↔ key row ∈ keysOf key rows := by
    rw [← hgroups]
    simp
  unfold addRow
  rw [keysOf_concat]
  by_cases hold : key row ∈ keysOf key rows
  · rw [if_pos (hany.mpr hold), if_pos hold, List.map_map, ← hgroups]
    apply List.map_congr_left
    intro group _
    simp only [Function.comp_apply]
    split <;> rfl
  · rw [if_neg (mt hany.mp hold), if_neg hold, List.map_append, hgroups]
    rfl

/-- The groups have the keys in the order in which these first appear. -/
theorem map_fst_foldl (start : Row → Group) (merge : Group → Row → Group) (rows : List Row) :
    (rows.foldl (addRow key start merge) []).map Prod.fst = keysOf key rows := by
  induction rows using List.reverseRecOn with
  | nil => rfl
  | append_singleton rows row ih =>
    rw [List.foldl_append, List.foldl_cons, List.foldl_nil, map_fst_addRow ih]

/-- Merging into a group changes the list of groups in one place. -/
theorem map_snd_addRow {groups : List (Key × Group)} {index : ℕ} {group : Group}
    (hnodup : (groups.map Prod.fst).Nodup) (hindex : groups[index]? = some (key row, group)) :
    (addRow key start merge groups row).map Prod.snd =
      (groups.map Prod.snd).set index (merge group row) := by
  have hmem : (key row, group) ∈ groups := List.mem_of_getElem? hindex
  unfold addRow
  rw [if_pos (List.any_eq_true.mpr ⟨_, hmem, decide_eq_true rfl⟩), List.map_map]
  apply List.ext_getElem?
  intro other
  rw [List.getElem?_set, List.getElem?_map, List.getElem?_map, List.length_map]
  by_cases hother : index = other
  · subst hother
    have hlength : index < groups.length := (List.getElem?_eq_some_iff.mp hindex).1
    rw [if_pos rfl, if_pos hlength, hindex]
    simp
  · rw [if_neg hother]
    cases hgroup : groups[other]? with
    | none => rfl
    | some found =>
      have hkey : found.1 ≠ key row := by
        intro heq
        have hfirst : (groups.map Prod.fst)[index]? = some (key row) := by
          rw [List.getElem?_map, hindex, Option.map_some]
        have hsecond : (groups.map Prod.fst)[other]? = some (key row) := by
          rw [List.getElem?_map, hgroup, Option.map_some, heq]
        have hlength : index < (groups.map Prod.fst).length :=
          (List.getElem?_eq_some_iff.mp hfirst).1
        exact hother ((List.getElem?_inj hlength hnodup).mp (hfirst.trans hsecond.symm))
      simp [hkey]

theorem groupOf_of_mem {group : Key × Group}
    (h : group ∈ rows.foldl (addRow key start merge) []) :
    groupOf key start merge rows group.1 = some group.2 := by
  induction rows using List.reverseRecOn generalizing group with
  | nil => cases h
  | append_singleton rows row ih =>
    have hkeys : ∀ other ∈ rows.foldl (addRow key start merge) [], other.1 ∈ keysOf key rows := by
      intro other hother
      rw [← map_fst_foldl start merge]
      exact List.mem_map_of_mem hother
    rw [List.foldl_append, List.foldl_cons, List.foldl_nil, addRow] at h
    split at h
    · obtain ⟨old, hold, rfl⟩ := List.mem_map.mp h
      have hgroup := ih hold
      split
      · rename_i hkey
        rw [groupOf_concat hkey.symm, hgroup]
        rfl
      · rename_i hkey
        rw [groupOf_concat_ne fun heq => hkey heq.symm, hgroup]
    · rename_i hnew
      rcases List.mem_append.mp h with hold | hlast
      · have hgroup := ih hold
        have hkey : key row ≠ group.1 := by
          intro heq
          exact hnew (List.any_eq_true.mpr ⟨group, hold, decide_eq_true heq.symm⟩)
        rw [groupOf_concat_ne hkey, hgroup]
      · obtain rfl := List.mem_singleton.mp hlast
        have hnone : groupOf key start merge rows (key row) = none := by
          rw [← Option.not_isSome_iff_eq_none, groupOf_isSome]
          intro hmem
          rw [← map_fst_foldl start merge, List.mem_map] at hmem
          obtain ⟨old, hold, hkey⟩ := hmem
          exact hnew (List.any_eq_true.mpr ⟨old, hold, decide_eq_true hkey⟩)
        rw [groupOf_concat rfl, hnone]
        rfl

end Groups

/-! ## Groups that take a maximum -/

/-- Merging a row takes the maximum of its value, and changes nothing if the group reaches as
far. -/
structure Absorbing {Value : Type*} [LinearOrder Value] (start : Row → Group)
    (merge : Group → Row → Group) (value : Group → Value) (rowValue : Row → Value) : Prop where
  value_start : ∀ row, value (start row) = rowValue row
  value_merge : ∀ group row, value (merge group row) = max (value group) (rowValue row)
  absorb : ∀ group row, rowValue row ≤ value group → merge group row = group

section Absorbing

variable {Value : Type*} [LinearOrder Value] {key : Row → Key} {start : Row → Group}
  {merge : Group → Row → Group} {value : Group → Value} {rowValue : Row → Value}
  {rows extra : List Row} {k : Key} {group : Group}

theorem Absorbing.le_foldl_iff (h : Absorbing start merge value rowValue) (bound : Value) :
    bound ≤ value (rows.foldl merge group) ↔
      bound ≤ value group ∨ ∃ row ∈ rows, bound ≤ rowValue row := by
  induction rows generalizing group with
  | nil => simp
  | cons first rest ih =>
    rw [List.foldl_cons, ih, h.value_merge, le_max_iff]
    simp [or_assoc]

/-- A group reaches as far as the rows of its key. -/
theorem Absorbing.le_groupOf_iff (h : Absorbing start merge value rowValue)
    (hgroup : groupOf key start merge rows k = some group) (bound : Value) :
    bound ≤ value group ↔ ∃ row ∈ rows, key row = k ∧ bound ≤ rowValue row := by
  unfold groupOf at hgroup
  have hmem : (∃ row ∈ rows, key row = k ∧ bound ≤ rowValue row) ↔
      ∃ row ∈ rows.filter (key · = k), bound ≤ rowValue row := by
    simp [and_assoc]
  rw [hmem]
  cases hrows : rows.filter (key · = k) with
  | nil =>
    rw [hrows] at hgroup
    cases hgroup
  | cons first rest =>
    rw [hrows] at hgroup
    cases hgroup
    rw [h.le_foldl_iff, h.value_start]
    simp

theorem Absorbing.foldl_eq_iff (h : Absorbing start merge value rowValue) :
    rows.foldl merge group = group ↔ ∀ row ∈ rows, rowValue row ≤ value group := by
  constructor
  · intro heq row hrow
    rw [← heq, h.le_foldl_iff]
    exact Or.inr ⟨row, hrow, le_rfl⟩
  · intro hrows
    induction rows with
    | nil => rfl
    | cons first rest ih =>
      rw [List.foldl_cons, h.absorb group first (hrows first List.mem_cons_self)]
      exact ih fun row hrow => hrows row (List.mem_cons_of_mem first hrow)

/-- Further rows leave a group as it is exactly when earlier ones of its key reach as far. -/
theorem Absorbing.groupOf_append_eq_iff (h : Absorbing start merge value rowValue)
    (hgroup : groupOf key start merge rows k = some group) :
    groupOf key start merge (rows ++ extra) k = groupOf key start merge rows k ↔
      ∀ row ∈ extra, key row = k →
        ∃ old ∈ rows, key old = k ∧ rowValue row ≤ rowValue old := by
  have hold := fun bound => h.le_groupOf_iff hgroup bound
  have happend : groupOf key start merge (rows ++ extra) k =
      some ((extra.filter (key · = k)).foldl merge group) := by
    unfold groupOf at hgroup ⊢
    rw [List.filter_append]
    cases hrows : rows.filter (key · = k) with
    | nil =>
      rw [hrows] at hgroup
      cases hgroup
    | cons first rest =>
      rw [hrows] at hgroup
      cases hgroup
      rw [List.cons_append, collect, List.foldl_append]
  rw [happend, hgroup, Option.some.injEq, h.foldl_eq_iff]
  simp only [List.mem_filter, decide_eq_true_eq, and_imp, hold]

end Absorbing

end OpenMeet.Grouping
