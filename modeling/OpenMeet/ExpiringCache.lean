import Mathlib.Data.List.Perm.Subperm
import OpenMeet.KeyedMap

/-!
A cache of bounded size whose entries expire. When it is full the expired
entries go, and if that makes no room the oldest of the others goes, whichever
of several it is. So what is stored last for a key stays until it expires or as
many entries as fit have been stored since.
-/
namespace OpenMeet.ExpiringCache

open KeyedMap

/-- Something that is stored under a key at some time. -/
structure Stored (K V : Type*) where
  key : K
  time : ℕ
  value : V
  deriving DecidableEq

/-- Values with the times at which they were stored. -/
abbrev Cache (K V : Type*) := Map K (ℕ × V)

variable {K V : Type*} [DecidableEq K]

section Operations

variable (ttl capacity : ℕ) (cache : Cache K V) (now : ℕ)

/-- What is stored for a key and has not expired. -/
def get (key : K) : Option V :=
  ((cache.lookup key).filter fun entry => now - entry.1 < ttl).map (·.2)

/-- A cache that is full loses what has expired. -/
def expire : Cache K V :=
  if capacity ≤ cache.keys.length then cache.retain fun _ entry => now - entry.1 < ttl else cache

def isOldest (key : K) : Bool :=
  (cache.lookup key).any fun entry => cache.entries.all fun other => entry.1 ≤ other.2.1

/-- Store a value. The oldest entry is named, since several may be as old. -/
def put (oldest key : K) (value : V) : Option (Cache K V) :=
  let kept := expire ttl capacity cache now
  if capacity ≤ kept.keys.length then
    if isOldest kept oldest then some ((kept.erase oldest).insert key (now, value)) else none
  else some (kept.insert key (now, value))

end Operations

/-- What has been stored for a key last. -/
def latest (log : List (Stored K V)) (key : K) : Option (Stored K V) :=
  (log.filter (·.key = key)).getLast?

section Latest

variable {log : List (Stored K V)} {key : K} {stored new : Stored K V}

theorem latest_concat :
    latest (log ++ [new]) key = if new.key = key then some new else latest log key := by
  unfold latest
  rw [List.filter_append, List.filter_singleton]
  by_cases h : new.key = key
  · simp [h]
  · simp [h]

theorem latest_mem (h : latest log key = some stored) : stored ∈ log ∧ stored.key = key := by
  have hmem := List.mem_filter.mp (List.mem_of_getLast? h)
  exact ⟨hmem.1, of_decide_eq_true hmem.2⟩

end Latest

section Put

variable {ttl capacity now : ℕ} {cache cache' : Cache K V} {oldest key other : K} {value : V}
  {entry : ℕ × V}

theorem get_eq_some {found : V} : get ttl cache now key = some found ↔
    ∃ time, cache.lookup key = some (time, found) ∧ now - time < ttl := by
  simp only [get, Option.map_eq_some_iff, Option.filter_eq_some_iff, decide_eq_true_eq, Prod.exists]
  constructor
  · intro h
    obtain ⟨time, value, h, rfl⟩ := h
    exact ⟨time, h⟩
  · intro h
    obtain ⟨time, h⟩ := h
    exact ⟨time, found, h, rfl⟩

theorem lookup_of_expire (h : (expire ttl capacity cache now).lookup key = some entry) :
    cache.lookup key = some entry := by
  unfold expire at h
  split at h
  · rw [Map.lookup_retain, Option.filter_eq_some_iff] at h
    exact h.1
  · exact h

theorem lookup_expire (capacity : ℕ) (h : cache.lookup key = some entry)
    (hfresh : now - entry.1 < ttl) : (expire ttl capacity cache now).lookup key = some entry := by
  unfold expire
  split
  · rw [Map.lookup_retain, Option.filter_eq_some_iff]
    exact ⟨h, decide_eq_true hfresh⟩
  · exact h

omit [DecidableEq K] in
theorem expire_sublist (ttl capacity : ℕ) (cache : Cache K V) (now : ℕ) :
    (expire ttl capacity cache now).entries.Sublist cache.entries := by
  unfold expire
  split
  · exact List.filter_sublist
  · exact List.Sublist.refl _

omit [DecidableEq K] in
theorem length_expire_le (ttl capacity : ℕ) (cache : Cache K V) (now : ℕ) :
    (expire ttl capacity cache now).keys.length ≤ cache.keys.length :=
  ((expire_sublist ttl capacity cache now).map Sigma.fst).length_le

/-- Two ways to store a value: with and without an entry that has to go. -/
theorem put_cases (h : put ttl capacity cache now oldest key value = some cache') :
    (capacity ≤ (expire ttl capacity cache now).keys.length ∧
      isOldest (expire ttl capacity cache now) oldest = true ∧
      cache' = ((expire ttl capacity cache now).erase oldest).insert key (now, value)) ∨
    ((expire ttl capacity cache now).keys.length < capacity ∧
      cache' = (expire ttl capacity cache now).insert key (now, value)) := by
  unfold put at h
  dsimp only at h
  split at h
  · rename_i hfull
    obtain ⟨holdest, heq⟩ := Option.ite_none_right_eq_some.mp h
    exact .inl ⟨hfull, holdest, (Option.some.inj heq).symm⟩
  · rename_i hroom
    exact .inr ⟨by omega, (Option.some.inj h).symm⟩

variable (h : put ttl capacity cache now oldest key value = some cache')
include h

theorem put_length_le (hsize : cache.keys.length ≤ capacity) : cache'.keys.length ≤ capacity := by
  have hexpire := length_expire_le ttl capacity cache now
  rcases put_cases h with ⟨-, holdest, rfl⟩ | ⟨hroom, rfl⟩
  · obtain ⟨entry, hentry, -⟩ := (Option.any_eq_true ..).mp holdest
    have hmem : oldest ∈ (expire ttl capacity cache now).keys :=
      AList.mem_keys.mp (AList.lookup_isSome.mp (Option.isSome_of_eq_some hentry))
    have hpos := List.length_pos_of_mem hmem
    have herase : (((expire ttl capacity cache now).erase oldest).keys.erase key).length ≤
        ((expire ttl capacity cache now).erase oldest).keys.length := List.erase_sublist.length_le
    have hless : ((expire ttl capacity cache now).erase oldest).keys.length =
        (expire ttl capacity cache now).keys.length - 1 := by
      rw [AList.keys_erase, List.length_erase_of_mem hmem]
    rw [AList.keys_insert, List.length_cons]
    omega
  · have herase : ((expire ttl capacity cache now).keys.erase key).length ≤
        (expire ttl capacity cache now).keys.length := List.erase_sublist.length_le
    rw [AList.keys_insert, List.length_cons]
    omega

theorem lookup_put : cache'.lookup key = some (now, value) := by
  rcases put_cases h with ⟨-, -, rfl⟩ | ⟨-, rfl⟩
  · exact AList.lookup_insert _
  · exact AList.lookup_insert _

theorem lookup_of_put (hother : other ≠ key) (hentry : cache'.lookup other = some entry) :
    cache.lookup other = some entry := by
  rcases put_cases h with ⟨-, -, rfl⟩ | ⟨-, rfl⟩
  · rw [AList.lookup_insert_ne hother] at hentry
    by_cases holdest : other = oldest
    · subst holdest
      rw [AList.lookup_erase] at hentry
      cases hentry
    · rw [AList.lookup_erase_ne holdest] at hentry
      exact lookup_of_expire hentry
  · rw [AList.lookup_insert_ne hother] at hentry
    exact lookup_of_expire hentry

/-- What goes although it has not expired is as old as everything else in a full cache. -/
theorem lookup_put_or (hother : other ≠ key) (hentry : cache.lookup other = some entry)
    (hfresh : now - entry.1 < ttl) :
    cache'.lookup other = some entry ∨
      capacity ≤ cache.entries.countP (entry.1 ≤ ·.2.1) := by
  have hkept := lookup_expire capacity hentry hfresh
  rcases put_cases h with ⟨hfull, holdest, rfl⟩ | ⟨-, rfl⟩
  · by_cases hgoes : other = oldest
    · subst hgoes
      right
      rw [isOldest, hkept, Option.any_some, List.all_eq_true] at holdest
      calc capacity ≤ (expire ttl capacity cache now).entries.length := by
              rwa [AList.keys, List.keys, List.length_map] at hfull
        _ = (expire ttl capacity cache now).entries.countP (entry.1 ≤ ·.2.1) :=
              (List.countP_eq_length.mpr holdest).symm
        _ ≤ cache.entries.countP (entry.1 ≤ ·.2.1) :=
              (expire_sublist ttl capacity cache now).countP_le
    · left
      rw [AList.lookup_insert_ne hother, AList.lookup_erase_ne hgoes]
      exact hkept
  · left
    rw [AList.lookup_insert_ne hother]
    exact hkept

end Put

/-! ## The cache and what has been stored -/

section Reflects

variable (ttl capacity : ℕ) (cache : Cache K V) (now : ℕ) (log : List (Stored K V))

/-- The cache holds what was stored last for its keys, and all of that which has neither expired
nor been followed by as many others as fit. -/
structure Reflects : Prop where
  size : cache.keys.length ≤ capacity
  past : ∀ stored ∈ log, stored.time ≤ now
  stored : ∀ key entry, cache.lookup key = some entry →
    latest log key = some ⟨key, entry.1, entry.2⟩
  kept : ∀ stored, latest log stored.key = some stored → now < stored.time + ttl →
    log.countP (stored.time ≤ ·.time) ≤ capacity →
    cache.lookup stored.key = some (stored.time, stored.value)

end Reflects

section Reflects

variable {ttl capacity now : ℕ} {cache cache' : Cache K V} {log : List (Stored K V)}
  {oldest key : K} {value : V}

theorem reflects_empty : Reflects ttl capacity (∅ : Cache K V) now [] := by
  refine ⟨Nat.zero_le capacity, ?_, ?_, ?_⟩
  · intro stored h
    cases h
  · intro key entry h
    cases h
  · intro stored h
    cases h

theorem Reflects.later {later : ℕ} (h : Reflects ttl capacity cache now log) (hle : now ≤ later) :
    Reflects ttl capacity cache later log where
  size := h.size
  past stored hstored := (h.past stored hstored).trans hle
  stored := h.stored
  kept stored hlatest hfresh := h.kept stored hlatest (by omega)

/-- Every entry has been stored, each by a store of its own. -/
theorem Reflects.countP_le (h : Reflects ttl capacity cache now log) (time : ℕ) :
    cache.entries.countP (time ≤ ·.2.1) ≤ log.countP (time ≤ ·.time) := by
  rw [List.countP_eq_length_filter, List.countP_eq_length_filter,
    ← List.length_map (f := fun entry => (⟨entry.1, entry.2.1, entry.2.2⟩ : Stored K V))]
  apply List.Subperm.length_le
  apply List.subperm_of_subset
  · have hkeys : (cache.entries.filter fun entry => time ≤ entry.2.1).Pairwise
        fun a b => a.1 ≠ b.1 :=
      List.Pairwise.sublist List.filter_sublist (List.pairwise_map.mp cache.keys_nodup)
    rw [List.Nodup, List.pairwise_map]
    refine hkeys.imp ?_
    intro a b hne heq
    exact hne (congrArg Stored.key heq)
  · intro stored hstored
    obtain ⟨entry, hentry, rfl⟩ := List.mem_map.mp hstored
    obtain ⟨hmem, htime⟩ := List.mem_filter.mp hentry
    have hlatest := h.stored entry.1 entry.2 (AList.mem_lookup_iff.mpr hmem)
    exact List.mem_filter.mpr ⟨(latest_mem hlatest).1, htime⟩

/-- Storing a value keeps the cache true to what has been stored. -/
theorem Reflects.put (h : Reflects ttl capacity cache now log)
    (hput : put ttl capacity cache now oldest key value = some cache') :
    Reflects ttl capacity cache' now (log ++ [⟨key, now, value⟩]) where
  size := put_length_le hput h.size
  past stored hstored := by
    rcases List.mem_append.mp hstored with hold | hnew
    · exact h.past stored hold
    · rw [List.mem_singleton.mp hnew]
  stored other entry hentry := by
    rw [latest_concat]
    by_cases hother : key = other
    · subst hother
      rw [lookup_put hput] at hentry
      cases hentry
      rw [if_pos rfl]
    · rw [if_neg hother]
      exact h.stored other entry (lookup_of_put hput (Ne.symm hother) hentry)
  kept stored hlatest hfresh hcount := by
    rw [latest_concat] at hlatest
    rw [List.countP_append] at hcount
    by_cases hsame : key = stored.key
    · rw [if_pos hsame] at hlatest
      cases hlatest
      exact lookup_put hput
    · rw [if_neg hsame] at hlatest
      have hpast := h.past stored (latest_mem hlatest).1
      have hnew : [(⟨key, now, value⟩ : Stored K V)].countP (stored.time ≤ ·.time) = 1 := by
        simp [hpast]
      have hbefore := h.kept stored hlatest hfresh (by omega)
      have helapsed : now - stored.time < ttl := by omega
      rcases lookup_put_or hput (Ne.symm hsame) hbefore helapsed with hstays | hfull
      · exact hstays
      -- what goes has as many others as fit beside it, and the new one comes on top
      · have hle := h.countP_le stored.time
        dsimp only at hfull
        omega

/-- What is found for a key is what was stored for it last, unless that has expired. -/
theorem Reflects.latest_of_get (h : Reflects ttl capacity cache now log)
    (hget : get ttl cache now key = some value) :
    ∃ time, latest log key = some ⟨key, time, value⟩ ∧ now < time + ttl := by
  obtain ⟨time, hlookup, hfresh⟩ := get_eq_some.mp hget
  exact ⟨time, h.stored key _ hlookup, by omega⟩

theorem Reflects.get_eq (h : Reflects ttl capacity cache now log) {stored : Stored K V}
    (hlatest : latest log stored.key = some stored)
    (hcount : log.countP (stored.time ≤ ·.time) ≤ capacity) :
    get ttl cache now stored.key =
      if now < stored.time + ttl then some stored.value else none := by
  have hpast := h.past stored (latest_mem hlatest).1
  split
  · rename_i hfresh
    have hlookup := h.kept stored hlatest hfresh hcount
    exact get_eq_some.mpr ⟨stored.time, hlookup, by omega⟩
  · rename_i hstale
    rw [Option.eq_none_iff_forall_ne_some]
    intro value hget
    obtain ⟨time, hsame, hfresh⟩ := h.latest_of_get hget
    have htime : stored.time = time :=
      congrArg Stored.time (Option.some.inj (hlatest.symm.trans hsame))
    rw [htime] at hstale
    exact hstale hfresh

end Reflects

end OpenMeet.ExpiringCache
