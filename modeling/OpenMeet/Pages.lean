import Mathlib.Data.List.Basic
import Mathlib.Order.Lattice

/-!
Lists that are read page by page. Each page answers some rows and the cursor of
the next page, and a reader follows the cursors until there is none. Pages are
cut by an offset into the rows, or by the key of the last row of the page before
with a strict comparison; the second kind skips rows when a cut falls between
two rows of one key, and only then.
-/
namespace OpenMeet.Pages

variable {Row Cursor Key : Type*}

/-- The pages from a cursor to the last one. -/
inductive Follows (page : Cursor → List Row × Option Cursor) : Cursor → List (List Row) → Prop
  | last {cursor : Cursor} (h : (page cursor).2 = none) : Follows page cursor [(page cursor).1]
  | next {cursor next : Cursor} {rest : List (List Row)} (h : (page cursor).2 = some next)
      (hrest : Follows page next rest) : Follows page cursor ((page cursor).1 :: rest)

section Follow

variable {page : Cursor → List Row × Option Cursor} {cursor : Cursor}
  {pages pages' : List (List Row)}

theorem Follows.unique (h : Follows page cursor pages) (h' : Follows page cursor pages') :
    pages = pages' := by
  induction h generalizing pages' with
  | last hnone =>
    cases h' with
    | last => rfl
    | next hsome => rw [hnone] at hsome; cases hsome
  | next hsome _ ih =>
    cases h' with
    | last hnone => rw [hsome] at hnone; cases hnone
    | next hsome' hrest' =>
      cases hsome.symm.trans hsome'
      exact congrArg _ (ih hrest')

/-- Cursors that leave fewer and fewer rows come to an end. -/
theorem exists_follows (remaining : Cursor → ℕ)
    (hless : ∀ cursor next, (page cursor).2 = some next → remaining next < remaining cursor)
    (cursor : Cursor) : ∃ pages, Follows page cursor pages := by
  induction hn : remaining cursor using Nat.strong_induction_on generalizing cursor with
  | _ n ih =>
    cases hnext : (page cursor).2 with
    | none => exact ⟨_, .last hnext⟩
    | some next =>
      obtain ⟨pages, hpages⟩ := ih (remaining next) (hn ▸ hless cursor next hnext) next rfl
      exact ⟨_, .next hnext hpages⟩

/-- What is shown of the rows changes nothing about the pages, on the cursors that are handed
out. -/
theorem Follows.mapOn {Shown : Type*} (display : List Row → List Shown)
    {shown : Cursor → List Shown × Option Cursor} {HandedOut : Cursor → Prop}
    (hshown : ∀ cursor, HandedOut cursor →
      shown cursor = (display (page cursor).1, (page cursor).2))
    (hnext : ∀ cursor next, (page cursor).2 = some next → HandedOut next)
    (h : Follows page cursor pages) (hcursor : HandedOut cursor) :
    Follows shown cursor (pages.map display) := by
  induction h with
  | @last cursor hnone =>
    have hlast : (shown cursor).2 = none := by rw [hshown cursor hcursor, hnone]
    simpa [hshown cursor hcursor] using Follows.last hlast
  | @next cursor next rest hsome _ ih =>
    have hshownNext : (shown cursor).2 = some next := by rw [hshown cursor hcursor, hsome]
    simpa [hshown cursor hcursor] using Follows.next hshownNext (ih (hnext cursor next hsome))

theorem Follows.map {Shown : Type*} (display : List Row → List Shown)
    {shown : Cursor → List Shown × Option Cursor}
    (hshown : ∀ cursor, shown cursor = (display (page cursor).1, (page cursor).2))
    (h : Follows page cursor pages) : Follows shown cursor (pages.map display) :=
  have hall : ∀ cursor, True → shown cursor = (display (page cursor).1, (page cursor).2) :=
    fun cursor _ => hshown cursor
  h.mapOn display hall (fun _ _ _ => trivial) trivial

/-- Two cursors with the same page have the same pages. -/
theorem Follows.restart {other : Cursor} (hpage : page other = page cursor)
    (h : Follows page cursor pages) : Follows page other pages := by
  cases h with
  | last hnone =>
    rw [← hpage] at hnone ⊢
    exact .last hnone
  | next hsome hrest =>
    rw [← hpage] at hsome ⊢
    exact .next hsome hrest

end Follow

/-! ## By offset -/

section Offset

variable (rows : List Row) (size : ℕ)

/-- One row more than a page is read, to see whether another page follows. -/
def offsetPage (offset : ℕ) : List Row × Option ℕ :=
  let found := (rows.drop offset).take (size + 1)
  (found.take size, if size < found.length then some (offset + size) else none)

theorem offsetPage_fst (offset : ℕ) : (offsetPage rows size offset).1 =
    (rows.drop offset).take size := by
  rw [offsetPage, List.take_take, Nat.min_eq_left (Nat.le_succ size)]

theorem offsetPage_snd (offset : ℕ) : (offsetPage rows size offset).2 =
    if offset + size < rows.length then some (offset + size) else none := by
  simp only [offsetPage, List.length_take, List.length_drop]
  congr 1
  apply propext
  omega

theorem exists_follows_offset (hsize : 0 < size) (offset : ℕ) :
    ∃ pages, Follows (offsetPage rows size) offset pages := by
  apply exists_follows fun offset => rows.length - offset
  intro offset next hnext
  rw [offsetPage_snd, Option.ite_none_right_eq_some] at hnext
  obtain ⟨hmore, heq⟩ := hnext
  have hnext : offset + size = next := Option.some.inj heq
  omega

variable {rows size}

/-- The pages from an offset on hold the rows from there on. -/
theorem flatten_of_follows_offset {offset : ℕ} {pages : List (List Row)}
    (h : Follows (offsetPage rows size) offset pages) : pages.flatten = rows.drop offset := by
  induction h with
  | @last offset hnone =>
    rw [offsetPage_snd, ite_eq_right_iff] at hnone
    have hshort : ¬offset + size < rows.length := fun hmore => nomatch hnone hmore
    rw [List.flatten_singleton, offsetPage_fst, List.take_of_length_le]
    rw [List.length_drop]
    omega
  | @next offset next rest hsome _ ih =>
    rw [offsetPage_snd, Option.ite_none_right_eq_some] at hsome
    obtain ⟨-, heq⟩ := hsome
    cases heq
    rw [List.flatten_cons, offsetPage_fst, ih, ← List.drop_drop, List.take_append_drop]

theorem mem_offsetPage {offset : ℕ} {row : Row}
    (h : row ∈ (offsetPage rows size offset).1) : row ∈ rows := by
  rw [offsetPage_fst] at h
  exact List.mem_of_mem_drop (List.mem_of_mem_take h)

/-- Every row is on the page that begins with it. -/
theorem exists_mem_offsetPage (hsize : 0 < size) {row : Row} (hrow : row ∈ rows) :
    ∃ offset, row ∈ (offsetPage rows size offset).1 := by
  obtain ⟨i, hi, rfl⟩ := List.getElem_of_mem hrow
  refine ⟨i, ?_⟩
  rw [offsetPage_fst, List.drop_eq_getElem_cons hi]
  obtain ⟨n, rfl⟩ : ∃ n, size = n + 1 := ⟨size - 1, by omega⟩
  exact List.mem_cons_self

end Offset

/-! ## By the key of the last row -/

section Keyset

variable [LinearOrder Key] (rows : List Row) (key : Row → Key) (size : ℕ)

/-- The rows below the cursor, all of them at first. -/
def below (before : Option Key) : List Row := rows.filter fun row => before.all (key row < ·)

/-- Drops the extra row read to detect another page and answers the cursor for it. -/
def lookAhead (found : List Row) : List Row × Option Key :=
  if size < found.length then (found.take size, (found.take size).getLast?.map key)
  else (found, none)

def keysetPage (before : Option Key) : List Row × Option (Option Key) :=
  let found := below rows key before
  (found.take size,
    (if size < found.length then (found.take size).getLast?.map key else none).map some)

/-- Some page ends between two rows of one key: a multiple of the page size lies strictly between
the number of rows above a key and the number of rows at it or above. -/
def CutsTie : Prop :=
  ∃ pages, ∃ row ∈ rows, rows.countP (key row < key ·) < pages * size ∧
    pages * size < rows.countP (key row ≤ key ·)

end Keyset

section Keyset

variable [LinearOrder Key] {rows : List Row} {key : Row → Key} {size : ℕ}

/-- A page of rows in order, and the rows after it. -/
structure Cut (rows : List Row) (key : Row → Key) (size : ℕ) (last : Row) : Prop where
  sorted : rows.Pairwise fun a b => key b ≤ key a
  more : size < rows.length
  last : (rows.take size).getLast? = some last

theorem countP_eq (p : Row → Bool) :
    rows.countP p = (rows.take size).countP p + (rows.drop size).countP p := by
  rw [← List.countP_append, List.take_append_drop]

section Cut

variable {last : Row} (hcut : Cut rows key size last)
include hcut

theorem Cut.last_le {row : Row} (hrow : row ∈ rows.take size) : key last ≤ key row := by
  obtain ⟨init, hinit⟩ := List.getLast?_eq_some_iff.mp hcut.last
  have hsorted : (init ++ [last]).Pairwise fun a b => key b ≤ key a :=
    hinit ▸ hcut.sorted.sublist (List.take_sublist size rows)
  rw [hinit, List.mem_append, List.mem_singleton] at hrow
  rcases hrow with hold | rfl
  · exact (List.pairwise_append.mp hsorted).2.2 row hold last (List.mem_singleton_self last)
  · exact le_rfl

theorem Cut.le_last {row : Row} (hrow : row ∈ rows.drop size) : key row ≤ key last := by
  have hsorted := hcut.sorted
  rw [← List.take_append_drop size rows] at hsorted
  exact (List.pairwise_append.mp hsorted).2.2 last (List.mem_of_getLast? hcut.last) row hrow

theorem Cut.length_take : (rows.take size).length = size := by
  have hmore := hcut.more
  rw [List.length_take]
  omega

/-- The page itself is not below its last row. -/
theorem Cut.below_eq : (rows.filter fun row => key row < key last) =
    (rows.drop size).filter fun row => key row < key last := by
  conv_lhs => rw [← List.take_append_drop size rows, List.filter_append]
  have hnone : (rows.take size).filter (fun row => key row < key last) = [] := by
    apply List.filter_eq_nil_iff.mpr
    intro row hrow
    have hle := hcut.last_le hrow
    simpa using hle
  rw [hnone, List.nil_append]

/-- The rows of the page count in full towards what is above a later row. -/
theorem Cut.countP_take {row : Row} (hrow : key row < key last) {p : Row → Bool}
    (hp : ∀ other, key row < key other → p other = true) : (rows.take size).countP p = size := by
  rw [List.countP_eq_length.mpr, hcut.length_take]
  intro other hother
  exact hp other (hrow.trans_le (hcut.last_le hother))

/-- A page that ends between keys leaves the others to the pages after it. -/
theorem Cut.cutsTie_iff (hrest : ∀ row ∈ rows.drop size, key row < key last) :
    CutsTie rows key size ↔ CutsTie (rows.drop size) key size := by
  have hlength := hcut.length_take
  constructor
  · intro h
    obtain ⟨pages, row, hrow, habove, hat⟩ := h
    rw [← List.take_append_drop size rows, List.mem_append] at hrow
    rcases hrow with hpage | hafter
    · have hnone : (rows.drop size).countP (key row ≤ key ·) = 0 := by
        apply List.countP_eq_zero.mpr
        intro other hother
        have hlt := (hrest other hother).trans_le (hcut.last_le hpage)
        simpa using hlt
      have hle := List.countP_le_length (p := (key row ≤ key ·)) (l := rows.take size)
      rw [countP_eq, hnone, Nat.add_zero] at hat
      have hsmall : pages * size < 1 * size := by omega
      have hzero : pages < 1 := Nat.lt_of_mul_lt_mul_right hsmall
      obtain rfl : pages = 0 := by omega
      omega
    · have hlt := hrest row hafter
      rw [countP_eq, hcut.countP_take hlt fun other h => by simpa using h] at habove
      rw [countP_eq, hcut.countP_take hlt fun other h => by simpa using h.le] at hat
      cases pages with
      | zero => omega
      | succ pages =>
        rw [Nat.succ_mul] at habove hat
        exact ⟨pages, row, hafter, by omega, by omega⟩
  · intro h
    obtain ⟨pages, row, hrow, habove, hat⟩ := h
    have hlt := hrest row hrow
    refine ⟨pages + 1, row, List.mem_of_mem_drop hrow, ?_, ?_⟩
    · rw [countP_eq, hcut.countP_take hlt fun other h => by simpa using h, Nat.succ_mul]
      omega
    · rw [countP_eq, hcut.countP_take hlt fun other h => by simpa using h.le, Nat.succ_mul]
      omega

/-- A page that ends within a key cuts a tie. -/
theorem Cut.cutsTie {row : Row} (hrow : row ∈ rows.drop size) (heq : key row = key last) :
    CutsTie rows key size := by
  have hlength := hcut.length_take
  refine ⟨1, row, List.mem_of_mem_drop hrow, ?_, ?_⟩
  · have hafter : (rows.drop size).countP (key row < key ·) = 0 := by
      apply List.countP_eq_zero.mpr
      intro other hother
      have hle := hcut.le_last hother
      simpa [heq] using hle
    have hpage : (rows.take size).countP (key row < key ·) < (rows.take size).length := by
      apply lt_of_le_of_ne List.countP_le_length
      intro hall
      have hlast := List.countP_eq_length.mp hall last (List.mem_of_getLast? hcut.last)
      simp [heq] at hlast
    rw [countP_eq, hafter]
    omega
  · have hpage : (rows.take size).countP (key row ≤ key ·) = (rows.take size).length := by
      apply List.countP_eq_length.mpr
      intro other hother
      simpa [heq] using hcut.last_le hother
    have hafter : 0 < (rows.drop size).countP (key row ≤ key ·) :=
      List.countP_pos_iff.mpr ⟨row, hrow, by simp⟩
    rw [countP_eq, hpage]
    omega

end Cut

/-- One row more than a page tells whether there is another page. -/
theorem lookAhead_below (before : Option Key) :
    lookAhead key size ((below rows key before).take (size + 1)) =
      ((keysetPage rows key size before).1,
        if size < (below rows key before).length then
          ((below rows key before).take size).getLast?.map key else none) := by
  have htake : ((below rows key before).take (size + 1)).take size =
      (below rows key before).take size := by
    rw [List.take_take, Nat.min_eq_left (Nat.le_succ size)]
  unfold lookAhead
  rw [htake, List.length_take]
  by_cases hmore : size < (below rows key before).length
  · rw [if_pos hmore, if_pos (by omega)]
    rfl
  · have hshort : (below rows key before).length ≤ size := by omega
    rw [if_neg hmore, if_neg (by omega), List.take_of_length_le (by omega)]
    exact Prod.ext (List.take_of_length_le hshort).symm rfl

theorem below_none : below rows key none = rows :=
  List.filter_eq_self.mpr fun _ _ => rfl

theorem sorted_below (hsorted : rows.Pairwise fun a b => key b ≤ key a) (before : Option Key) :
    (below rows key before).Pairwise fun a b => key b ≤ key a :=
  hsorted.sublist List.filter_sublist

/-- The rows below the next cursor are among those below the cursor. -/
theorem below_last {before : Option Key} {last : Row} (hlast : last ∈ below rows key before) :
    below rows key (some (key last)) =
      (below rows key before).filter fun row => key row < key last := by
  obtain ⟨-, hbefore⟩ := List.mem_filter.mp hlast
  simp only [below, List.filter_filter]
  apply List.filter_congr
  intro row _
  cases before with
  | none => simp
  | some bound =>
    have hbound : key last < bound := by simpa using hbefore
    have himp : key row < key last → key row < bound := fun h => h.trans hbound
    simpa using himp

theorem keysetPage_last {before : Option Key} (h : (keysetPage rows key size before).2 = none) :
    size = 0 ∨ (below rows key before).length ≤ size := by
  rw [keysetPage, Option.map_eq_none_iff, ite_eq_right_iff] at h
  by_cases hmore : size < (below rows key before).length
  · left
    have hnone := h hmore
    rw [Option.map_eq_none_iff, List.getLast?_eq_none_iff, List.take_eq_nil_iff] at hnone
    rcases hnone with hzero | hempty
    · exact hzero
    · rw [hempty] at hmore
      cases hmore
  · right
    omega

theorem keysetPage_next (hsorted : rows.Pairwise fun a b => key b ≤ key a)
    {before next : Option Key} (h : (keysetPage rows key size before).2 = some next) :
    ∃ last, next = some (key last) ∧ Cut (below rows key before) key size last := by
  obtain ⟨bound, hbound, rfl⟩ := Option.map_eq_some_iff.mp h
  obtain ⟨hmore, hmap⟩ := Option.ite_none_right_eq_some.mp hbound
  obtain ⟨last, hlast, rfl⟩ := Option.map_eq_some_iff.mp hmap
  exact ⟨last, rfl, sorted_below hsorted before, hmore, hlast⟩

theorem Cut.mem_rows {last : Row} (hcut : Cut rows key size last) : last ∈ rows :=
  List.mem_of_mem_take (List.mem_of_getLast? hcut.last)

/-- Where keys differ the rows after a page are strictly below its last row. -/
theorem Cut.lt_last {last row : Row} (hcut : Cut rows key size last)
    (hsorted : rows.Pairwise fun a b => key b < key a) (hrow : row ∈ rows.drop size) :
    key row < key last := by
  rw [← List.take_append_drop size rows] at hsorted
  exact (List.pairwise_append.mp hsorted).2.2 last (List.mem_of_getLast? hcut.last) row hrow

theorem exists_follows_keyset (size : ℕ) (hsorted : rows.Pairwise fun a b => key b ≤ key a)
    (before : Option Key) : ∃ pages, Follows (keysetPage rows key size) before pages := by
  apply exists_follows fun before => (below rows key before).length
  intro before next h
  obtain ⟨last, rfl, hcut⟩ := keysetPage_next hsorted h
  rw [below_last hcut.mem_rows]
  apply lt_of_le_of_ne (List.length_filter_le ..)
  intro hall
  have hself := List.length_filter_eq_length_iff.mp hall last hcut.mem_rows
  simp at hself

/-- The pages hold rows below the cursor, in order and each at most once. -/
theorem flatten_sublist (hsorted : rows.Pairwise fun a b => key b ≤ key a) {before : Option Key}
    {pages : List (List Row)} (h : Follows (keysetPage rows key size) before pages) :
    List.Sublist pages.flatten (below rows key before) := by
  induction h with
  | @last before hnone =>
    rw [List.flatten_singleton]
    exact List.take_sublist ..
  | @next before next rest hsome hrest ih =>
    obtain ⟨last, rfl, hcut⟩ := keysetPage_next hsorted hsome
    rw [below_last hcut.mem_rows, hcut.below_eq] at ih
    rw [List.flatten_cons]
    have hrows := (List.Sublist.refl ((below rows key before).take size)).append
      (ih.trans List.filter_sublist)
    rwa [List.take_append_drop] at hrows

/-- The pages hold every row below the cursor exactly when none of them cuts a tie. -/
theorem flatten_eq_iff (hsize : 0 < size) (hsorted : rows.Pairwise fun a b => key b ≤ key a)
    {before : Option Key} {pages : List (List Row)}
    (h : Follows (keysetPage rows key size) before pages) :
    pages.flatten = below rows key before ↔ ¬CutsTie (below rows key before) key size := by
  induction h with
  | @last before hnone =>
    have hshort : (below rows key before).length ≤ size := by
      rcases keysetPage_last hnone with hzero | hshort
      · omega
      · exact hshort
    rw [List.flatten_singleton, keysetPage, List.take_of_length_le hshort]
    simp only [true_iff]
    intro hcuts
    obtain ⟨pages, row, -, habove, hat⟩ := hcuts
    have hle := List.countP_le_length (p := (key row ≤ key ·)) (l := below rows key before)
    cases pages with
    | zero => omega
    | succ pages =>
      rw [Nat.succ_mul] at hat
      omega
  | @next before next rest hsome hrest ih =>
    obtain ⟨last, rfl, hcut⟩ := keysetPage_next hsorted hsome
    have hsublist := flatten_sublist hsorted hrest
    rw [below_last hcut.mem_rows, hcut.below_eq] at ih hsublist
    have hflatten : (below rows key before).take size ++ rest.flatten = below rows key before ↔
        rest.flatten = (below rows key before).drop size := by
      constructor
      · intro hall
        apply List.append_cancel_left (hall.trans (List.take_append_drop size _).symm)
      · intro hafter
        rw [hafter, List.take_append_drop]
    rw [List.flatten_cons]
    refine hflatten.trans ?_
    by_cases hrows : ∀ row ∈ (below rows key before).drop size, key row < key last
    · have hfilter : ((below rows key before).drop size).filter (fun row => key row < key last) =
          (below rows key before).drop size :=
        List.filter_eq_self.mpr fun row hrow => by simpa using hrows row hrow
      rw [hfilter] at ih
      exact ih.trans (not_congr (hcut.cutsTie_iff hrows).symm)
    · obtain ⟨row, hrow, hle⟩ : ∃ row ∈ (below rows key before).drop size, key last ≤ key row := by
        simpa using hrows
      have heq : key row = key last := le_antisymm (hcut.le_last hrow) hle
      constructor
      · intro hall
        have hmem := (hsublist.subset (hall ▸ hrow))
        obtain ⟨-, hlt⟩ := List.mem_filter.mp hmem
        simp [heq] at hlt
      · intro hcuts
        exact absurd (hcut.cutsTie hrow heq) hcuts

/-- Keys that differ leave no tie to cut. -/
theorem not_cutsTie (hsorted : rows.Pairwise fun a b => key b < key a) :
    ¬CutsTie rows key size := by
  intro hcuts
  obtain ⟨pages, row, hrow, habove, hat⟩ := hcuts
  have hsplit : rows.countP (key row ≤ key ·) ≤ rows.countP (key row < key ·) + 1 := by
    clear habove hat hrow
    induction rows with
    | nil => simp
    | cons first rest ih =>
      obtain ⟨hfirst, hrest⟩ := List.pairwise_cons.mp hsorted
      have hle := ih hrest
      rw [List.countP_cons, List.countP_cons]
      rcases lt_trichotomy (key row) (key first) with hlt | heq | hgt
      · simp only [hlt.le, hlt, decide_true, if_true]
        omega
      · have hnone : rest.countP (key row ≤ key ·) = 0 := by
          apply List.countP_eq_zero.mpr
          intro other hother
          simpa [heq] using hfirst other hother
        rw [hnone]
        split <;> omega
      · simp only [hgt.not_ge, hgt.asymm, decide_false, Bool.false_eq_true, if_false]
        omega
  omega

end Keyset

end OpenMeet.Pages
