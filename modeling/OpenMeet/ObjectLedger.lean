import Mathlib.Data.Set.Lattice

/-!
Objects in a store that a database refers to. A task stores objects before the
database refers to them and deletes objects after the database has let go of
them, so at every moment an object in the store is referred to, in the care of
one task, or leaked. Each step of a task is a transfer; a transfer keeps the
ledger balanced, and once no task has anything in its care the store holds what
the database refers to exactly if nothing has leaked.
-/
namespace OpenMeet.ObjectLedger

/-- What a task knows of an object in its care: it has not stored it yet, it has stored it, or
it is on its way to delete it. -/
inductive Role
  | planned
  | held
  | doomed
  deriving DecidableEq

structure Ledger (Object Task : Type*) where
  stored : Set Object
  referenced : Set Object
  seen : Set Object
  account : Task → Object → Option Role

variable {Object Task : Type*} {i : Task} {l l' : Ledger Object Task} {leaked leaks : Set Object}

structure Balanced (l : Ledger Object Task) (leaked : Set Object) : Prop where
  owned_once : ∀ i j o, (l.account i o).isSome → (l.account j o).isSome → i = j
  owned_unreferenced : ∀ i o, (l.account i o).isSome → o ∉ l.referenced
  leaked_apart : ∀ o ∈ leaked, o ∉ l.referenced ∧ ∀ i, l.account i o = none
  planned_absent : ∀ i o, l.account i o = some .planned → o ∉ l.stored
  held_stored : ∀ i o, l.account i o = some .held → o ∈ l.stored
  referenced_stored : l.referenced ⊆ l.stored
  leaked_stored : leaked ⊆ l.stored
  accounted : ∀ o ∈ l.stored, o ∈ l.referenced ∨ o ∈ leaked ∨ ∃ i, (l.account i o).isSome
  referenced_seen : l.referenced ⊆ l.seen
  leaked_seen : leaked ⊆ l.seen
  owned_seen : ∀ i o, (l.account i o).isSome → o ∈ l.seen

/-- What one task may do at once, and what it leaks by it. -/
structure Transfer (i : Task) (l l' : Ledger Object Task) (leaks : Set Object) : Prop where
  others : ∀ j, j ≠ i → l'.account j = l.account j
  seen : l.seen ⊆ l'.seen
  elsewhere : ∀ o, l.account i o = none → l'.account i o = none →
    (o ∈ l'.stored ↔ o ∈ l.stored)
  entered : ∀ o ∈ l'.referenced, o ∈ l.referenced ∨
    l.account i o = some .held ∧ l'.account i o = none ∧ o ∈ l'.stored
  left : ∀ o ∈ l.referenced, o ∉ l'.referenced → (l'.account i o).isSome
  taken : ∀ o, (l'.account i o).isSome → (l.account i o).isSome ∨
    (o ∈ l.referenced ∧ o ∉ l'.referenced) ∨ (o ∉ l.seen ∧ o ∈ l'.seen)
  dropped : ∀ o, (l.account i o).isSome → l'.account i o = none → o ∉ l'.referenced →
    (o ∈ l'.stored ↔ o ∈ leaks)
  leaked : ∀ o ∈ leaks, (l.account i o).isSome ∧ l'.account i o = none ∧ o ∉ l'.referenced
  planned : ∀ o, l'.account i o = some .planned → o ∉ l'.stored
  held : ∀ o, l'.account i o = some .held → o ∈ l'.stored

namespace Balanced

/-- What the database refers to after a transfer is in nobody's care. -/
theorem unowned_of_referenced (hl : Balanced l leaked) (h : Transfer i l l' leaks) {o : Object}
    (ho : o ∈ l'.referenced) : l'.account i o = none := by
  rcases h.entered o ho with hbefore | ⟨-, hafter, -⟩
  · by_contra howned
    rcases h.taken o (Option.isSome_iff_ne_none.mpr howned) with hown | ⟨-, hgone⟩ | ⟨hnew, -⟩
    · exact hl.owned_unreferenced i o hown hbefore
    · exact hgone ho
    · exact hnew (hl.referenced_seen hbefore)
  · exact hafter

/-- A transfer takes nothing out of another task's care, and nothing that had leaked. -/
theorem kept_of_owned (hl : Balanced l leaked) (h : Transfer i l l' leaks) {j : Task} {o : Object}
    (hj : j ≠ i) (ho : (l.account j o).isSome) :
    l.account i o = none ∧ l'.account i o = none ∧ o ∉ l'.referenced := by
  have hbefore : l.account i o = none := by
    by_contra hown
    exact hj (hl.owned_once j i o ho (Option.isSome_iff_ne_none.mpr hown))
  refine ⟨hbefore, ?_, ?_⟩
  · by_contra howned
    rcases h.taken o (Option.isSome_iff_ne_none.mpr howned) with hown | ⟨href, -⟩ | ⟨hnew, -⟩
    · rw [hbefore] at hown
      cases hown
    · exact hl.owned_unreferenced j o ho href
    · exact hnew (hl.owned_seen j o ho)
  · intro hafter
    rcases h.entered o hafter with href | ⟨hheld, -, -⟩
    · exact hl.owned_unreferenced j o ho href
    · rw [hbefore] at hheld
      cases hheld

theorem kept_of_leaked (hl : Balanced l leaked) (h : Transfer i l l' leaks) {o : Object}
    (ho : o ∈ leaked) : l'.account i o = none ∧ o ∉ l'.referenced := by
  obtain ⟨hunreferenced, hunowned⟩ := hl.leaked_apart o ho
  constructor
  · by_contra howned
    rcases h.taken o (Option.isSome_iff_ne_none.mpr howned) with hown | ⟨href, -⟩ | ⟨hnew, -⟩
    · rw [hunowned i] at hown
      cases hown
    · exact hunreferenced href
    · exact hnew (hl.leaked_seen ho)
  · intro hafter
    rcases h.entered o hafter with href | ⟨hheld, -, -⟩
    · exact hunreferenced href
    · rw [hunowned i] at hheld
      cases hheld

theorem owned_apart (hl : Balanced l leaked) (h : Transfer i l l' leaks) {j : Task} {o : Object}
    (ho : (l'.account j o).isSome) : o ∉ l'.referenced ∧ o ∉ leaked ∧ o ∉ leaks := by
  by_cases hj : j = i
  · subst hj
    have howned := Option.isSome_iff_ne_none.mp ho
    refine ⟨?_, ?_, ?_⟩
    · intro href
      exact howned (hl.unowned_of_referenced h href)
    · intro hleaked
      exact howned (hl.kept_of_leaked h hleaked).1
    · intro hleaks
      exact howned (h.leaked o hleaks).2.1
  · rw [h.others j hj] at ho
    obtain ⟨hbefore, -, href⟩ := hl.kept_of_owned h hj ho
    refine ⟨href, ?_, ?_⟩
    · intro hleaked
      rw [(hl.leaked_apart o hleaked).2 j] at ho
      cases ho
    · intro hleaks
      have hown := (h.leaked o hleaks).1
      rw [hbefore] at hown
      cases hown

/-- A transfer keeps the ledger balanced. -/
theorem transfer (hl : Balanced l leaked) (h : Transfer i l l' leaks) :
    Balanced l' (leaked ∪ leaks) where
  owned_once := by
    intro j k o hj hk
    by_cases hji : j = i
    · by_cases hki : k = i
      · rw [hji, hki]
      · rw [h.others k hki] at hk
        rw [hji, (hl.kept_of_owned h hki hk).2.1] at hj
        cases hj
    · rw [h.others j hji] at hj
      by_cases hki : k = i
      · rw [hki, (hl.kept_of_owned h hji hj).2.1] at hk
        cases hk
      · rw [h.others k hki] at hk
        exact hl.owned_once j k o hj hk
  owned_unreferenced := by
    intro j o ho
    exact (hl.owned_apart h ho).1
  leaked_apart := by
    intro o ho
    constructor
    · rcases ho with hleaked | hleaks
      · exact (hl.kept_of_leaked h hleaked).2
      · exact (h.leaked o hleaks).2.2
    · intro j
      by_contra howned
      obtain ⟨-, hnotLeaked, hnotLeaks⟩ :=
        hl.owned_apart h (Option.isSome_iff_ne_none.mpr howned)
      exact ho.elim hnotLeaked hnotLeaks
  planned_absent := by
    intro j o ho
    by_cases hj : j = i
    · exact h.planned o (hj ▸ ho)
    · rw [h.others j hj] at ho
      obtain ⟨hbefore, hafter, -⟩ := hl.kept_of_owned h hj (Option.isSome_of_mem ho)
      rw [h.elsewhere o hbefore hafter]
      exact hl.planned_absent j o ho
  held_stored := by
    intro j o ho
    by_cases hj : j = i
    · exact h.held o (hj ▸ ho)
    · rw [h.others j hj] at ho
      obtain ⟨hbefore, hafter, -⟩ := hl.kept_of_owned h hj (Option.isSome_of_mem ho)
      rw [h.elsewhere o hbefore hafter]
      exact hl.held_stored j o ho
  referenced_stored := by
    intro o ho
    rcases h.entered o ho with href | ⟨-, -, hstored⟩
    · have hbefore : l.account i o = none := by
        by_contra howned
        exact hl.owned_unreferenced i o (Option.isSome_iff_ne_none.mpr howned) href
      rw [h.elsewhere o hbefore (hl.unowned_of_referenced h ho)]
      exact hl.referenced_stored href
    · exact hstored
  leaked_stored := by
    intro o ho
    rcases ho with hleaked | hleaks
    · rw [h.elsewhere o ((hl.leaked_apart o hleaked).2 i) (hl.kept_of_leaked h hleaked).1]
      exact hl.leaked_stored hleaked
    · obtain ⟨hown, hafter, hunreferenced⟩ := h.leaked o hleaks
      exact (h.dropped o hown hafter hunreferenced).mpr hleaks
  accounted := by
    intro o ho
    by_cases href : o ∈ l'.referenced
    · exact Or.inl href
    by_cases hafter : l'.account i o = none
    · by_cases hbefore : l.account i o = none
      · rw [h.elsewhere o hbefore hafter] at ho
        rcases hl.accounted o ho with hold | hleaked | ⟨j, hj⟩
        · have howned := h.left o hold href
          rw [hafter] at howned
          cases howned
        · exact Or.inr (Or.inl (Or.inl hleaked))
        · have hne : j ≠ i := by
            intro heq
            rw [heq, hbefore] at hj
            cases hj
          exact Or.inr (Or.inr ⟨j, by rw [h.others j hne]; exact hj⟩)
      · have hleaks := (h.dropped o (Option.isSome_iff_ne_none.mpr hbefore) hafter href).mp ho
        exact Or.inr (Or.inl (Or.inr hleaks))
    · exact Or.inr (Or.inr ⟨i, Option.isSome_iff_ne_none.mpr hafter⟩)
  referenced_seen := by
    intro o ho
    rcases h.entered o ho with href | ⟨hheld, -, -⟩
    · exact h.seen (hl.referenced_seen href)
    · exact h.seen (hl.owned_seen i o (Option.isSome_of_mem hheld))
  leaked_seen := by
    intro o ho
    rcases ho with hleaked | hleaks
    · exact h.seen (hl.leaked_seen hleaked)
    · exact h.seen (hl.owned_seen i o (h.leaked o hleaks).1)
  owned_seen := by
    intro j o ho
    by_cases hj : j = i
    · subst hj
      rcases h.taken o ho with hown | ⟨href, -⟩ | ⟨-, hseen⟩
      · exact h.seen (hl.owned_seen j o hown)
      · exact h.seen (hl.referenced_seen href)
      · exact hseen
    · rw [h.others j hj] at ho
      exact h.seen (hl.owned_seen j o ho)

/-- When no task has anything in its care, what is stored beyond the references has leaked. -/
theorem stored_eq_iff (hl : Balanced l leaked) (hidle : ∀ i o, l.account i o = none) :
    l.stored = l.referenced ↔ leaked = ∅ := by
  constructor
  · intro hsame
    apply Set.eq_empty_of_forall_notMem
    intro o ho
    exact (hl.leaked_apart o ho).1 (hsame ▸ hl.leaked_stored ho)
  · intro hnone
    apply Set.Subset.antisymm
    · intro o ho
      rcases hl.accounted o ho with href | hleaked | ⟨i, hi⟩
      · exact href
      · rw [hnone] at hleaked
        cases hleaked
      · rw [hidle] at hi
        cases hi
    · exact hl.referenced_stored

end Balanced

end OpenMeet.ObjectLedger
