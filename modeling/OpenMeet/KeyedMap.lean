import Mathlib.Data.List.AList
import Mathlib.Data.Finset.Basic

/-!
Finite maps as association lists with distinct keys, and the operations the
standard hash map offers beyond insertion, lookup and removal: rewriting the
values in place and the per-key sets reached through entry and or_default.
-/
namespace OpenMeet.KeyedMap

abbrev Map (K V : Type*) := AList fun _ : K => V

namespace Map

variable {K V W : Type*}

/-- Rewrite every value, keeping the keys and their order. -/
def mapValues (f : K → V → W) (m : Map K V) : Map K W :=
  ⟨m.entries.map (Sigma.map id f), m.nodupKeys.map₂ f m.entries⟩

def isEmpty (m : Map K V) : Bool := m.entries.isEmpty

/-- Keep the entries that pass the test. -/
def retain (p : K → V → Bool) (m : Map K V) : Map K V :=
  ⟨m.entries.filter fun e => p e.1 e.2, m.nodupKeys.sublist List.filter_sublist⟩

@[simp] theorem keys_mapValues (f : K → V → W) (m : Map K V) :
    (mapValues f m).keys = m.keys := by
  simp only [mapValues, AList.keys, List.keys, List.map_map]
  exact List.map_congr_left fun e _ => rfl

@[simp] theorem mem_mapValues (f : K → V → W) (m : Map K V) (k : K) :
    k ∈ mapValues f m ↔ k ∈ m := by
  simp only [AList.mem_keys, keys_mapValues]

@[simp] theorem isEmpty_mapValues (f : K → V → W) (m : Map K V) :
    (mapValues f m).isEmpty = m.isEmpty := by
  simp [mapValues, isEmpty]

theorem isEmpty_iff (m : Map K V) : m.isEmpty = true ↔ ∀ k, k ∉ m := by
  constructor
  · intro h k hk
    have hnil : m.entries = [] := by simpa [isEmpty] using h
    simp [AList.mem_keys, AList.keys, hnil] at hk
  · intro h
    cases hm : m.entries with
    | nil => simp [isEmpty, hm]
    | cons e rest =>
      exact absurd (by simp [AList.mem_keys, AList.keys, hm]) (h e.1)

theorem isEmpty_eq_false_iff (m : Map K V) : m.isEmpty = false ↔ ∃ k, k ∈ m := by
  rw [← Bool.not_eq_true, isEmpty_iff, not_forall_not]

/-- Where the entries that match agree on whether they are kept, keeping leaves the first match
or drops them all. -/
theorem find_retain {p : K → V → Bool} {q : (_ : K) × V → Bool} {m : Map K V}
    (hagree : ∀ a ∈ m.entries, ∀ b ∈ m.entries, q a → q b → p a.1 a.2 = p b.1 b.2) :
    (m.retain p).entries.find? q = (m.entries.find? q).filter fun e => p e.1 e.2 := by
  simp only [retain]
  generalize m.entries = entries at hagree
  induction entries with
  | nil => rfl
  | cons first rest ih =>
    have hrest := ih fun a ha b hb =>
      hagree a (List.mem_cons_of_mem _ ha) b (List.mem_cons_of_mem _ hb)
    cases hfirst : q first with
    | false =>
      rw [List.find?_cons_of_neg (by simp [hfirst]), ← hrest, List.filter_cons]
      split
      · rw [List.find?_cons_of_neg (by simp [hfirst])]
      · rfl
    | true =>
      rw [List.find?_cons_of_pos hfirst, List.filter_cons]
      cases hkeep : p first.1 first.2 with
      | true => simp [hfirst, hkeep, Option.filter]
      | false =>
        have hnone : ∀ e ∈ rest.filter fun e => p e.1 e.2, ¬ q e = true := by
          intro e he hmatch
          have hmem := List.mem_filter.mp he
          have hsame := hagree e (List.mem_cons_of_mem _ hmem.1) first List.mem_cons_self
            hmatch hfirst
          simp [hsame, hkeep] at hmem
        simp [hkeep, Option.filter, List.find?_eq_none.mpr hnone]

variable [DecidableEq K]

@[simp] theorem lookup_mapValues (f : K → V → W) (m : Map K V) (k : K) :
    (mapValues f m).lookup k = (m.lookup k).map (f k) :=
  List.dlookup_map₂ k

/-- Rewrite the value of one key in place, if the key is there. -/
def modify (k : K) (f : V → V) (m : Map K V) : Map K V :=
  m.mapValues fun k' v => if k' = k then f v else v

@[simp] theorem keys_modify (k : K) (f : V → V) (m : Map K V) :
    (m.modify k f).keys = m.keys := keys_mapValues _ m

@[simp] theorem mem_modify (k : K) (f : V → V) (m : Map K V) (k' : K) :
    k' ∈ m.modify k f ↔ k' ∈ m := mem_mapValues _ m k'

@[simp] theorem lookup_modify (k : K) (f : V → V) (m : Map K V) (k' : K) :
    (m.modify k f).lookup k' =
      if k' = k then (m.lookup k').map f else m.lookup k' := by
  by_cases h : k' = k <;> simp [modify, h]

theorem lookup_retain (p : K → V → Bool) (m : Map K V) (k : K) :
    (m.retain p).lookup k = (m.lookup k).filter (p k) := by
  ext v
  simp only [← Option.mem_def, AList.mem_lookup_iff, retain, List.mem_filter, Option.mem_filter_iff]

theorem mem_retain {p : K → V → Bool} {m : Map K V} {k : K} :
    k ∈ m.retain p ↔ ∃ v, m.lookup k = some v ∧ p k v = true := by
  rw [← AList.lookup_isSome, lookup_retain, Option.isSome_iff_exists]
  simp only [Option.filter_eq_some_iff]

/-- A new entry that passes the test stays. -/
theorem retain_insert {p : K → V → Bool} {m : Map K V} {k : K} {v : V} (hnew : k ∉ m)
    (hkeep : p k v = true) : retain p (m.insert k v) = (m.retain p).insert k v := by
  have hstill : k ∉ m.retain p := by
    rw [← AList.lookup_eq_none, lookup_retain, AList.lookup_eq_none.mpr hnew]
    rfl
  apply AList.ext
  rw [AList.entries_insert_of_notMem hstill]
  simp only [retain, AList.entries_insert_of_notMem hnew]
  exact List.filter_cons_of_pos hkeep

theorem retain_insert_of_dropped {p : K → V → Bool} {m : Map K V} {k : K} {v : V} (hnew : k ∉ m)
    (hdrop : p k v = false) : retain p (m.insert k v) = m.retain p := by
  apply AList.ext
  simp only [retain, AList.entries_insert_of_notMem hnew]
  rw [List.filter_cons_of_neg (by simp [hdrop])]

/-! ## Keys that match -/

/-- The keys whose entry passes the test. -/
def matching (p : K → V → Bool) (m : Map K V) : List K :=
  m.keys.filter fun k => (m.lookup k).any (p k)

@[simp] theorem mem_matching {p : K → V → Bool} {m : Map K V} {k : K} :
    k ∈ matching p m ↔ ∃ v, m.lookup k = some v ∧ p k v = true := by
  simp only [matching, List.mem_filter, Option.any_eq_true, and_iff_right_iff_imp]
  rintro ⟨v, hv, -⟩
  rw [← AList.mem_keys, ← AList.lookup_isSome, hv]
  rfl

theorem nodup_matching (p : K → V → Bool) (m : Map K V) : (matching p m).Nodup :=
  m.keys_nodup.filter _

theorem length_matching_congr {p q : K → V → Bool} {m m' : Map K V}
    (h : ∀ k, k ∈ matching p m ↔ k ∈ matching q m') :
    (matching p m).length = (matching q m').length :=
  ((List.perm_ext_iff_of_nodup (nodup_matching p m) (nodup_matching q m')).mpr h).length_eq

theorem length_matching_lt {p q : K → V → Bool} {m m' : Map K V} {k : K}
    (hsub : ∀ k, k ∈ matching p m → k ∈ matching q m') (hk : k ∈ matching q m')
    (hnot : k ∉ matching p m) : (matching p m).length < (matching q m').length := by
  have hnodup : (k :: matching p m).Nodup :=
    List.nodup_cons.mpr ⟨hnot, nodup_matching p m⟩
  have hsubset : k :: matching p m ⊆ matching q m' :=
    List.cons_subset.mpr ⟨hk, hsub⟩
  exact (List.subperm_of_subset hnodup hsubset).length_le

section Matching

variable {p q : K → V → Bool} {m : Map K V} {k k' : K} {v : V}

theorem mem_matching_mapValues {f : K → V → V}
    (h : ∀ v, m.lookup k' = some v → p k' (f k' v) = q k' v) :
    k' ∈ matching p (m.mapValues f) ↔ k' ∈ matching q m := by
  simp only [mem_matching, lookup_mapValues]
  cases hv : m.lookup k' with
  | none => simp
  | some v => simp [h v hv]

theorem mem_matching_modify {f : V → V} (h : ∀ v, m.lookup k = some v → p k (f v) = p k v) :
    k' ∈ matching p (m.modify k f) ↔ k' ∈ matching p m := by
  refine mem_matching_mapValues fun v hv => ?_
  split
  · rename_i heq
    subst heq
    exact h v hv
  · rfl

/-- A new entry that does not match. -/
theorem mem_matching_insert (hk : k ∉ m) (hv : p k v = false) :
    k' ∈ matching p (m.insert k v) ↔ k' ∈ matching p m := by
  by_cases heq : k' = k
  · subst heq
    simp [AList.lookup_eq_none.mpr hk, hv]
  · simp [AList.lookup_insert_ne heq]

/-- An entry that does not match is taken out. -/
theorem mem_matching_erase (h : ∀ v, m.lookup k = some v → p k v = false) :
    k' ∈ matching p (m.erase k) ↔ k' ∈ matching p m := by
  by_cases heq : k' = k
  · subst heq
    simp only [mem_matching, AList.lookup_erase]
    constructor
    · simp
    · rintro ⟨v, hv, hp⟩
      simp [h v hv] at hp
  · simp [AList.lookup_erase_ne heq]

/-- Entries that match are all kept. -/
theorem mem_matching_retain (h : ∀ v, m.lookup k' = some v → p k' v = true → q k' v = true) :
    k' ∈ matching p (m.retain q) ↔ k' ∈ matching p m := by
  simp only [mem_matching, lookup_retain]
  cases hv : m.lookup k' with
  | none => simp
  | some v =>
    by_cases hp : p k' v = true
    · simp [hp, h v hv hp]
    · simp [hp]

theorem mem_matching_insert_iff :
    k' ∈ matching p (m.insert k v) ↔
      if k' = k then p k v = true else k' ∈ matching p m := by
  split
  · rename_i heq
    subst heq
    simp
  · rename_i hne
    simp [AList.lookup_insert_ne hne]

/-- One entry more matches at most. -/
theorem length_matching_insert_le :
    (matching p (m.insert k v)).length ≤ (matching p m).length + 1 := by
  have hsubset : matching p (m.insert k v) ⊆ k :: matching p m := by
    intro k' hk'
    rw [mem_matching_insert_iff] at hk'
    split at hk'
    · rename_i heq
      exact heq ▸ List.mem_cons_self
    · exact List.mem_cons_of_mem _ hk'
  exact (List.subperm_of_subset (nodup_matching p _) hsubset).length_le

/-- None more matches than those of before, if the new entry does not or the old one did. -/
theorem length_matching_insert_le_self (h : p k v = true → k ∈ matching p m) :
    (matching p (m.insert k v)).length ≤ (matching p m).length := by
  have hsubset : matching p (m.insert k v) ⊆ matching p m := by
    intro k' hk'
    rw [mem_matching_insert_iff] at hk'
    split at hk'
    · rename_i heq
      exact heq ▸ h hk'
    · exact hk'
  exact (List.subperm_of_subset (nodup_matching p _) hsubset).length_le

theorem length_matching_erase_le :
    (matching p (m.erase k)).length ≤ (matching p m).length := by
  have hsubset : matching p (m.erase k) ⊆ matching p m := by
    intro k' hk'
    obtain ⟨v, hv, hp⟩ := mem_matching.mp hk'
    by_cases heq : k' = k
    · subst heq
      simp at hv
    · rw [AList.lookup_erase_ne heq] at hv
      exact mem_matching.mpr ⟨v, hv, hp⟩
  exact (List.subperm_of_subset (nodup_matching p _) hsubset).length_le

theorem length_matching_erase_lt (h : k ∈ matching p m) :
    (matching p (m.erase k)).length < (matching p m).length := by
  refine length_matching_lt (fun k' hk' => ?_) h (fun hk => ?_)
  · obtain ⟨v, hv, hp⟩ := mem_matching.mp hk'
    by_cases heq : k' = k
    · subst heq
      exact h
    · rw [AList.lookup_erase_ne heq] at hv
      exact mem_matching.mpr ⟨v, hv, hp⟩
  · obtain ⟨v, hv, -⟩ := mem_matching.mp hk
    simp at hv

end Matching

/-- The set stored under a key, empty when the key is absent. -/
def setAt (m : Map K (Finset V)) (k : K) : Finset V := (m.lookup k).getD ∅

@[simp] theorem setAt_empty (k : K) : setAt (∅ : Map K (Finset V)) k = ∅ := rfl

@[simp] theorem setAt_insert (m : Map K (Finset V)) (k k' : K) (vs : Finset V) :
    setAt (m.insert k vs) k' = if k' = k then vs else m.setAt k' := by
  by_cases h : k' = k
  · subst k'
    simp [setAt]
  · simp [setAt, h]

@[simp] theorem setAt_erase (m : Map K (Finset V)) (k k' : K) :
    setAt (m.erase k) k' = if k' = k then ∅ else m.setAt k' := by
  by_cases h : k' = k
  · subst k'
    simp [setAt]
  · simp [setAt, h]

theorem mem_of_mem_setAt {m : Map K (Finset V)} {k : K} {v : V}
    (h : v ∈ m.setAt k) : k ∈ m := by
  rw [← AList.lookup_isSome]
  cases hk : m.lookup k with
  | none => simp [setAt, hk] at h
  | some vs => rfl

/-- Keep in every set the values that pass the test; the keys stay. -/
def retainValues (p : V → Prop) [DecidablePred p] (m : Map K (Finset V)) :
    Map K (Finset V) :=
  m.mapValues fun _ vs => vs.filter p

@[simp] theorem setAt_retainValues (p : V → Prop) [DecidablePred p]
    (m : Map K (Finset V)) (k : K) :
    setAt (m.retainValues p) k = (m.setAt k).filter p := by
  cases h : m.lookup k <;> simp [setAt, retainValues, h]

variable [DecidableEq V]

def insertAt (m : Map K (Finset V)) (k : K) (v : V) : Map K (Finset V) :=
  m.insert k (insert v (m.setAt k))

def extendAt (m : Map K (Finset V)) (k : K) (vs : Finset V) : Map K (Finset V) :=
  m.insert k (m.setAt k ∪ vs)

theorem mem_setAt_insertAt (m : Map K (Finset V)) (k k' : K) (v v' : V) :
    v' ∈ setAt (m.insertAt k v) k' ↔ (k' = k ∧ v' = v) ∨ v' ∈ m.setAt k' := by
  by_cases h : k' = k
  · subst k'
    simp [insertAt]
  · simp [insertAt, h]

theorem mem_setAt_extendAt (m : Map K (Finset V)) (k k' : K) (vs : Finset V) (v : V) :
    v ∈ setAt (m.extendAt k vs) k' ↔ (k' = k ∧ v ∈ vs) ∨ v ∈ m.setAt k' := by
  by_cases h : k' = k
  · subst k'
    simp [extendAt, or_comm]
  · simp [extendAt, h]

@[simp] theorem mem_insertAt (m : Map K (Finset V)) (k k' : K) (v : V) :
    k' ∈ m.insertAt k v ↔ k' = k ∨ k' ∈ m := by
  simp [insertAt]

/-- Insert values under one key, one after the other. -/
def insertEach (k : K) : List V → Map K (Finset V) → Map K (Finset V)
  | [], m => m
  | v :: rest, m => insertEach k rest (m.insertAt k v)

theorem mem_setAt_insertEach (k k' : K) (vs : List V) (v : V) (m : Map K (Finset V)) :
    v ∈ setAt (insertEach k vs m) k' ↔ (k' = k ∧ v ∈ vs) ∨ v ∈ m.setAt k' := by
  induction vs generalizing m with
  | nil => simp [insertEach]
  | cons w rest ih =>
    simp only [insertEach, ih, mem_setAt_insertAt, List.mem_cons]
    grind

theorem mem_insertEach (k k' : K) (vs : List V) (m : Map K (Finset V)) :
    k' ∈ insertEach k vs m ↔ (k' = k ∧ vs ≠ []) ∨ k' ∈ m := by
  induction vs generalizing m with
  | nil => simp [insertEach]
  | cons w rest ih =>
    simp only [insertEach, ih, mem_insertAt]
    grind

/-- Remove one value; its key goes with the last one. -/
def discardAt (m : Map K (Finset V)) (k : K) (v : V) : Map K (Finset V) :=
  if (m.setAt k).erase v = ∅ then m.erase k else m.insert k ((m.setAt k).erase v)

theorem mem_setAt_discardAt (m : Map K (Finset V)) (k k' : K) (v v' : V) :
    v' ∈ setAt (m.discardAt k v) k' ↔ v' ∈ m.setAt k' ∧ ¬ (k' = k ∧ v' = v) := by
  by_cases hempty : (m.setAt k).erase v = ∅
  · by_cases hk : k' = k
    · subst k'
      have hnone : v' ∉ (m.setAt k).erase v := by simp [hempty]
      simp only [Finset.mem_erase, not_and_or, not_not] at hnone
      simp only [discardAt, hempty, if_true, setAt_erase, Finset.notMem_empty, true_and]
      grind
    · simp [discardAt, hempty, hk]
  · by_cases hk : k' = k
    · subst k'
      simp [discardAt, hempty, and_comm]
    · simp [discardAt, hempty, hk]

theorem mem_of_mem_discardAt {m : Map K (Finset V)} {k k' : K} {v : V}
    (h : k' ∈ m.discardAt k v) : k' ∈ m := by
  by_cases hempty : (m.setAt k).erase v = ∅
  · rw [discardAt, if_pos hempty, AList.mem_erase] at h
    exact h.2
  · rw [discardAt, if_neg hempty, AList.mem_insert] at h
    obtain ⟨w, hw⟩ := Finset.nonempty_iff_ne_empty.mpr hempty
    have hk : k ∈ m := mem_of_mem_setAt (Finset.mem_of_mem_erase hw)
    rcases h with rfl | h
    · exact hk
    · exact h

end Map

end OpenMeet.KeyedMap
