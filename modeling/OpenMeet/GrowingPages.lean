import Mathlib.Data.List.Chain
import OpenMeet.Pages

/-!
Lists that are read page by page while rows are added to them. A page is cut
from the rows that are there when it is read, below the key of the last row of
the page before. Rows may appear anywhere and none goes away, so a row is on
exactly one page if it is there, below the bound, when some page is read, and on
none otherwise.
-/
namespace OpenMeet.GrowingPages

open Pages

variable {Row Key : Type*} [LinearOrder Key]

/-- A page is read: the rows there are, and what is asked for. -/
structure Load (Row Key : Type*) where
  rows : List Row
  before : Option Key
  size : ℕ

def Load.page (key : Row → Key) (load : Load Row Key) : List Row × Option (Option Key) :=
  keysetPage load.rows key load.size load.before

/-- The keys below the bound when the page is read. -/
def Load.offered (key : Row → Key) (load : Load Row Key) : List Key :=
  (below load.rows key load.before).map key

/-- The keys on the pages, in the order in which they are read. -/
def keysRead (key : Row → Key) (loads : List (Load Row Key)) : List Key :=
  loads.flatMap fun load => (load.page key).1.map key

/-- Each page is asked for with the cursor of the page before. -/
def Linked (key : Row → Key) (loads : List (Load Row Key)) : Prop :=
  loads.IsChain fun earlier later => (earlier.page key).2 = some later.before

/-- The rows are in strict order whenever a page is read, and none has gone away since. -/
structure Growing (key : Row → Key) (loads : List (Load Row Key)) : Prop where
  sorted : ∀ load ∈ loads, load.rows.Pairwise fun a b => key b < key a
  grow : loads.Pairwise fun earlier later =>
    ∀ row ∈ earlier.rows, ∃ kept ∈ later.rows, key kept = key row

section Load

variable {key : Row → Key} {load later : Load Row Key} {k : Key}

theorem Load.mem_offered : k ∈ load.offered key ↔
    (∃ row ∈ load.rows, key row = k) ∧ ∀ bound ∈ load.before, k < bound := by
  simp only [Load.offered, below, List.mem_map, List.mem_filter, Option.all_eq_true,
    decide_eq_true_eq]
  constructor
  · intro h
    obtain ⟨row, ⟨hrow, hbound⟩, rfl⟩ := h
    exact ⟨⟨row, hrow, rfl⟩, hbound⟩
  · intro h
    obtain ⟨⟨row, hrow, rfl⟩, hbound⟩ := h
    exact ⟨row, ⟨hrow, hbound⟩, rfl⟩

theorem Load.page_sublist : List.Sublist ((load.page key).1.map key) (load.offered key) :=
  (List.take_sublist ..).map key

variable (hsorted : load.rows.Pairwise fun a b => key b < key a)
include hsorted

theorem Load.offered_pairwise : (load.offered key).Pairwise fun a b => b < a :=
  List.pairwise_map.mpr (hsorted.sublist List.filter_sublist)

/-- The next page is asked for below everything on this one. -/
theorem Load.next_le (hnext : (load.page key).2 = some later.before) :
    ∃ bound, later.before = some bound ∧ ∀ k ∈ (load.page key).1.map key, bound ≤ k := by
  have hweak : load.rows.Pairwise fun a b => key b ≤ key a := hsorted.imp fun h => h.le
  obtain ⟨last, hbefore, hcut⟩ := keysetPage_next hweak hnext
  refine ⟨key last, hbefore, ?_⟩
  intro k hk
  obtain ⟨row, hrow, rfl⟩ := List.mem_map.mp hk
  exact hcut.last_le hrow

/-- What is offered and not on the page is below the next cursor. -/
theorem Load.lt_next (hsize : 0 < load.size) (hk : k ∈ load.offered key)
    (hpage : k ∉ (load.page key).1.map key) :
    ∃ bound, (load.page key).2 = some (some bound) ∧ k < bound := by
  have hweak : load.rows.Pairwise fun a b => key b ≤ key a := hsorted.imp fun h => h.le
  obtain ⟨row, hrow, rfl⟩ := List.mem_map.mp hk
  have hafter : row ∈ (below load.rows key load.before).drop load.size := by
    rw [← List.take_append_drop load.size (below load.rows key load.before),
      List.mem_append] at hrow
    rcases hrow with htake | hdrop
    · exact absurd (List.mem_map_of_mem htake) hpage
    · exact hdrop
  cases hnext : (load.page key).2 with
  | none =>
    have hshort : (below load.rows key load.before).length ≤ load.size := by
      rcases keysetPage_last hnext with hzero | hshort
      · omega
      · exact hshort
    rw [List.drop_of_length_le hshort] at hafter
    cases hafter
  | some next =>
    obtain ⟨last, rfl, hcut⟩ := keysetPage_next hweak hnext
    have hbelow : (below load.rows key load.before).Pairwise fun a b => key b < key a :=
      hsorted.sublist List.filter_sublist
    exact ⟨key last, rfl, hcut.lt_last hbelow hafter⟩

end Load

section Loads

variable {key : Row → Key} {load : Load Row Key} {loads : List (Load Row Key)}

theorem Growing.tail (h : Growing key (load :: loads)) : Growing key loads :=
  ⟨fun other hother => h.sorted other (List.mem_cons_of_mem load hother),
    (List.pairwise_cons.mp h.grow).2⟩

theorem mem_keysRead {k : Key} :
    k ∈ keysRead key loads ↔ ∃ load ∈ loads, k ∈ (load.page key).1.map key := List.mem_flatMap

/-- Only what is below the first bound is ever read. -/
theorem keysRead_lt (hgrowing : Growing key (load :: loads)) (hlinked : Linked key (load :: loads))
    {k : Key} (hk : k ∈ keysRead key (load :: loads)) : ∀ bound ∈ load.before, k < bound := by
  induction loads generalizing load with
  | nil =>
    obtain ⟨only, honly, hpage⟩ := mem_keysRead.mp hk
    rw [List.mem_singleton.mp honly] at hpage
    exact (Load.mem_offered.mp (Load.page_sublist.subset hpage)).2
  | cons next rest ih =>
    obtain ⟨hnext, hrest⟩ := List.isChain_cons_cons.mp hlinked
    have hsorted := hgrowing.sorted load List.mem_cons_self
    rw [keysRead, List.flatMap_cons, List.mem_append] at hk
    rcases hk with hpage | hlater
    · exact (Load.mem_offered.mp (Load.page_sublist.subset hpage)).2
    · obtain ⟨bound, hbound, hle⟩ := Load.next_le hsorted hnext
      have hlt : k < bound := ih hgrowing.tail hrest hlater bound hbound
      have hweak : load.rows.Pairwise fun a b => key b ≤ key a := hsorted.imp fun h => h.le
      obtain ⟨last, hlast, hcut⟩ := keysetPage_next hweak hnext
      obtain rfl : bound = key last := Option.some.inj (hbound.symm.trans hlast)
      intro first hfirst
      have hbelow : key last ∈ load.offered key := List.mem_map_of_mem hcut.mem_rows
      exact hlt.trans ((Load.mem_offered.mp hbelow).2 first hfirst)

/-- The pages are in order, across all of them. -/
theorem keysRead_pairwise (hgrowing : Growing key loads) (hlinked : Linked key loads) :
    (keysRead key loads).Pairwise fun a b => b < a := by
  induction loads with
  | nil => exact List.Pairwise.nil
  | cons load rest ih =>
    have hsorted := hgrowing.sorted load List.mem_cons_self
    rw [keysRead, List.flatMap_cons, List.pairwise_append]
    refine ⟨(Load.offered_pairwise hsorted).sublist Load.page_sublist,
      ih hgrowing.tail hlinked.tail, ?_⟩
    intro k hk later hlater
    cases rest with
    | nil => cases hlater
    | cons next rest =>
      obtain ⟨hnext, hrest⟩ := List.isChain_cons_cons.mp hlinked
      obtain ⟨bound, hbound, hle⟩ := Load.next_le hsorted hnext
      have hlt : later < bound := keysRead_lt hgrowing.tail hrest hlater bound hbound
      exact hlt.trans_le (hle k hk)

/-- Pages read to the end hold what any of them was offered, and nothing else. -/
theorem mem_keysRead_iff (hsize : ∀ load ∈ loads, 0 < load.size) (hgrowing : Growing key loads)
    (hlinked : Linked key loads) (hend : ∀ load ∈ loads.getLast?, (load.page key).2 = none)
    {k : Key} : k ∈ keysRead key loads ↔ ∃ load ∈ loads, k ∈ load.offered key := by
  constructor
  · intro hk
    obtain ⟨load, hload, hpage⟩ := mem_keysRead.mp hk
    exact ⟨load, hload, Load.page_sublist.subset hpage⟩
  · intro hk
    induction loads with
    | nil =>
      obtain ⟨load, hload, -⟩ := hk
      cases hload
    | cons load rest ih =>
      have hsorted := hgrowing.sorted load List.mem_cons_self
      have hsizeRest : ∀ other ∈ rest, 0 < other.size := fun other hother =>
        hsize other (List.mem_cons_of_mem load hother)
      rw [keysRead, List.flatMap_cons, List.mem_append]
      by_cases hpage : k ∈ (load.page key).1.map key
      · exact .inl hpage
      · right
        cases rest with
        | nil =>
          obtain ⟨only, honly, hoffered⟩ := hk
          rw [List.mem_singleton.mp honly] at hoffered
          obtain ⟨bound, hnext, -⟩ :=
            Load.lt_next hsorted (hsize load List.mem_cons_self) hoffered hpage
          rw [hend load rfl] at hnext
          cases hnext
        | cons next rest =>
          obtain ⟨hnext, hrest⟩ := List.isChain_cons_cons.mp hlinked
          apply ih hsizeRest hgrowing.tail hrest
          · rw [List.getLast?_cons_cons] at hend
            exact hend
          · obtain ⟨other, hother, hoffered⟩ := hk
            rcases List.mem_cons.mp hother with rfl | hmem
            -- a row that the page leaves is still there for the next one, below its bound
            · obtain ⟨bound, hcursor, hlt⟩ :=
                Load.lt_next hsorted (hsize other List.mem_cons_self) hoffered hpage
              rw [hnext] at hcursor
              have hbefore : next.before = some bound := Option.some.inj hcursor
              obtain ⟨⟨row, hrow, rfl⟩, -⟩ := Load.mem_offered.mp hoffered
              have hgrow := (List.pairwise_cons.mp hgrowing.grow).1 next List.mem_cons_self
              obtain ⟨kept, hkept, hsame⟩ := hgrow row hrow
              refine ⟨next, List.mem_cons_self, Load.mem_offered.mpr ⟨⟨kept, hkept, hsame⟩, ?_⟩⟩
              intro limit hlimit
              rw [hbefore] at hlimit
              cases hlimit
              exact hlt
            · exact ⟨other, hmem, hoffered⟩

end Loads

end OpenMeet.GrowingPages
