import Mathlib.Algebra.GroupWithZero.Nat
import Mathlib.Data.List.Infix
import Mathlib.Data.List.TakeWhile

/-!
Texts in UTF-8, cut at byte offsets. A cut past the end or inside a character
is an error. Searching gives the offset of the first place that fits, where a
text can always be cut, and lowering ASCII letters keeps all offsets.
-/
namespace OpenMeet.TextSlices

/-! ## Offsets -/

def byteLength (text : List Char) : ℕ := (text.map Char.utf8Size).sum

/-- The parts before and after an offset. -/
def cut : ℕ → List Char → Option (List Char × List Char)
  | 0, text => some ([], text)
  | _ + 1, [] => none
  | n + 1, c :: rest =>
    if c.utf8Size ≤ n + 1 then
      (cut (n + 1 - c.utf8Size) rest).map fun parts => (c :: parts.1, parts.2)
    else none

def sliceFrom (text : List Char) (start : ℕ) : Option (List Char) := (cut start text).map (·.2)

def sliceTo (text : List Char) (stop : ℕ) : Option (List Char) := (cut stop text).map (·.1)

def slice (text : List Char) (start stop : ℕ) : Option (List Char) :=
  (sliceTo text stop).bind fun before => sliceFrom before start

section Offsets

variable {text first second : List Char} {c : Char} {n : ℕ}

@[simp] theorem byteLength_nil : byteLength [] = 0 := rfl

@[simp] theorem byteLength_cons : byteLength (c :: text) = c.utf8Size + byteLength text := by
  simp [byteLength]

@[simp] theorem byteLength_append :
    byteLength (first ++ second) = byteLength first + byteLength second := by
  simp [byteLength]

theorem byteLength_pos (h : text ≠ []) : 0 < byteLength text := by
  cases text with
  | nil => exact absurd rfl h
  | cons c rest =>
    have hc := c.utf8Size_pos
    rw [byteLength_cons]
    omega

theorem cut_append (first second : List Char) :
    cut (byteLength first) (first ++ second) = some (first, second) := by
  induction first with
  | nil => rw [byteLength_nil, List.nil_append, cut]
  | cons c rest ih =>
    have hc := c.utf8Size_pos
    obtain ⟨n, hn⟩ : ∃ n, byteLength (c :: rest) = n + 1 := by
      rw [byteLength_cons]
      exact ⟨c.utf8Size + byteLength rest - 1, by omega⟩
    have hrest : n + 1 - c.utf8Size = byteLength rest := by
      rw [← hn, byteLength_cons]
      omega
    have hle : c.utf8Size ≤ n + 1 := by
      rw [← hn, byteLength_cons]
      omega
    rw [hn, List.cons_append, cut, if_pos hle, hrest, ih, Option.map_some]

theorem cut_eq_some_iff :
    cut n text = some (first, second) ↔ text = first ++ second ∧ byteLength first = n := by
  constructor
  · intro h
    induction text generalizing n first with
    | nil =>
      cases n with
      | zero =>
        rw [cut] at h
        cases h
        exact ⟨rfl, rfl⟩
      | succ n => cases h
    | cons c rest ih =>
      cases n with
      | zero =>
        rw [cut] at h
        cases h
        exact ⟨rfl, rfl⟩
      | succ n =>
        rw [cut] at h
        obtain ⟨hle, hmap⟩ := Option.ite_none_right_eq_some.mp h
        obtain ⟨⟨before, after⟩, hcut, heq⟩ := Option.map_eq_some_iff.mp hmap
        cases heq
        obtain ⟨rfl, hlength⟩ := ih hcut
        refine ⟨rfl, ?_⟩
        rw [byteLength_cons, hlength]
        omega
  · intro h
    obtain ⟨rfl, rfl⟩ := h
    exact cut_append first second

theorem sliceFrom_append (first second : List Char) :
    sliceFrom (first ++ second) (byteLength first) = some second := by
  rw [sliceFrom, cut_append, Option.map_some]

theorem sliceTo_append (first second : List Char) :
    sliceTo (first ++ second) (byteLength first) = some first := by
  rw [sliceTo, cut_append, Option.map_some]

theorem slice_append (first second third : List Char) :
    slice (first ++ second ++ third) (byteLength first) (byteLength first + byteLength second) =
      some second := by
  rw [slice, ← byteLength_append, sliceTo_append, Option.bind_some, sliceFrom_append]

theorem sliceFrom_eq_some_iff : sliceFrom text n = some second ↔
    ∃ first, text = first ++ second ∧ byteLength first = n := by
  rw [sliceFrom, Option.map_eq_some_iff]
  constructor
  · intro h
    obtain ⟨parts, hcut, rfl⟩ := h
    exact ⟨parts.1, cut_eq_some_iff.mp hcut⟩
  · intro h
    obtain ⟨first, hsplit⟩ := h
    exact ⟨(first, second), cut_eq_some_iff.mpr hsplit, rfl⟩

end Offsets

/-! ## Searching -/

/-- The offset of the first place where the rest of the text fits. -/
def findWhere (fits : List Char → Bool) : List Char → Option ℕ
  | [] => if fits [] then some 0 else none
  | c :: rest =>
    if fits (c :: rest) then some 0 else (findWhere fits rest).map (c.utf8Size + ·)

def findChar (p : Char → Bool) : List Char → Option ℕ := findWhere fun rest => rest.head?.any p

def findText (needle : List Char) : List Char → Option ℕ :=
  findWhere fun rest => needle.isPrefixOf rest

section Searching

variable {fits : List Char → Bool} {p : Char → Bool} {needle text before after : List Char} {n : ℕ}

theorem findWhere_some (h : findWhere fits text = some n) :
    ∃ before after, text = before ++ after ∧ byteLength before = n ∧ fits after = true ∧
      ∀ first rest, before = first ++ rest → rest ≠ [] → fits (rest ++ after) = false := by
  induction text generalizing n with
  | nil =>
    obtain ⟨hfits, heq⟩ := Option.ite_none_right_eq_some.mp h
    cases heq
    refine ⟨[], [], rfl, rfl, hfits, fun first rest hsplit hrest => ?_⟩
    exact absurd (List.append_eq_nil_iff.mp hsplit.symm).2 hrest
  | cons c rest ih =>
    rw [findWhere] at h
    split at h
    · rename_i hfits
      cases h
      refine ⟨[], c :: rest, rfl, rfl, hfits, fun first rest hsplit hrest => ?_⟩
      exact absurd (List.append_eq_nil_iff.mp hsplit.symm).2 hrest
    · rename_i hfits
      obtain ⟨m, hm, rfl⟩ := Option.map_eq_some_iff.mp h
      obtain ⟨before, after, rfl, rfl, hafter, hbefore⟩ := ih hm
      refine ⟨c :: before, after, rfl, byteLength_cons, hafter, fun first part hsplit hpart => ?_⟩
      cases first with
      | nil =>
        rw [List.nil_append] at hsplit
        subst hsplit
        exact Bool.eq_false_iff.mpr hfits
      | cons d first =>
        cases hsplit
        exact hbefore first part rfl hpart

theorem findWhere_none (h : findWhere fits text = none) (hsplit : text = before ++ after) :
    fits after = false := by
  induction text generalizing before with
  | nil =>
    have hafter : after = [] := (List.append_eq_nil_iff.mp hsplit.symm).2
    subst hafter
    exact Bool.eq_false_iff.mpr fun hfits => by simp [findWhere, hfits] at h
  | cons c rest ih =>
    rw [findWhere] at h
    split at h
    · cases h
    · rename_i hfits
      cases before with
      | nil =>
        rw [List.nil_append] at hsplit
        exact hsplit ▸ Bool.eq_false_iff.mpr hfits
      | cons d before =>
        cases hsplit
        exact ih (Option.map_eq_none_iff.mp h) rfl

theorem findWhere_append (hafter : fits after = true)
    (hbefore : ∀ first rest, before = first ++ rest → rest ≠ [] → fits (rest ++ after) = false) :
    findWhere fits (before ++ after) = some (byteLength before) := by
  induction before with
  | nil =>
    rw [List.nil_append]
    cases after with
    | nil => exact if_pos hafter
    | cons c rest => exact if_pos hafter
  | cons c rest ih =>
    have hfirst : fits (c :: (rest ++ after)) = false := hbefore [] _ rfl (List.cons_ne_nil c rest)
    have hrest := ih fun first part hsplit hpart =>
      hbefore (c :: first) part (by rw [hsplit]; rfl) hpart
    rw [List.cons_append, findWhere, if_neg (Bool.eq_false_iff.mp hfirst), hrest, byteLength_cons]
    rfl

theorem findWhere_eq_none (h : ∀ before after, text = before ++ after → fits after = false) :
    findWhere fits text = none := by
  cases hfound : findWhere fits text with
  | none => rfl
  | some n =>
    obtain ⟨before, after, hsplit, -, hfits, -⟩ := findWhere_some hfound
    rw [h before after hsplit] at hfits
    cases hfits

theorem findChar_some (h : findChar p text = some n) : ∃ before c after,
    text = before ++ c :: after ∧ byteLength before = n ∧ p c = true ∧
      ∀ d ∈ before, p d = false := by
  obtain ⟨before, after, rfl, rfl, hafter, hbefore⟩ := findWhere_some h
  cases after with
  | nil => cases hafter
  | cons c after =>
    refine ⟨before, c, after, rfl, rfl, hafter, fun d hd => ?_⟩
    obtain ⟨first, rest, rfl⟩ := List.mem_iff_append.mp hd
    exact hbefore first (d :: rest) rfl (List.cons_ne_nil d rest)

theorem findChar_append {c : Char} (hc : p c = true) (hbefore : ∀ d ∈ before, p d = false) :
    findChar p (before ++ c :: after) = some (byteLength before) := by
  refine findWhere_append hc fun first rest hsplit hrest => ?_
  cases rest with
  | nil => exact absurd rfl hrest
  | cons d rest =>
    subst hsplit
    exact hbefore d (List.mem_append_right _ List.mem_cons_self)

theorem findChar_eq_none_iff : findChar p text = none ↔ ∀ c ∈ text, p c = false := by
  constructor
  · intro h c hc
    obtain ⟨before, after, rfl⟩ := List.mem_iff_append.mp hc
    exact findWhere_none h rfl
  · intro h
    refine findWhere_eq_none fun before after hsplit => ?_
    cases after with
    | nil => rfl
    | cons c after =>
      subst hsplit
      exact h c (List.mem_append_right _ List.mem_cons_self)

theorem findText_some (h : findText needle text = some n) : ∃ before after,
    text = before ++ (needle ++ after) ∧ byteLength before = n ∧
      ∀ first rest, before = first ++ rest → rest ≠ [] →
        ¬ needle <+: rest ++ (needle ++ after) := by
  obtain ⟨before, after, rfl, rfl, hafter, hbefore⟩ := findWhere_some h
  obtain ⟨rest, rfl⟩ := List.isPrefixOf_iff_prefix.mp hafter
  refine ⟨before, rest, rfl, rfl, fun first part hsplit hpart hprefix => ?_⟩
  have hfalse := hbefore first part hsplit hpart
  rw [List.isPrefixOf_iff_prefix.mpr hprefix] at hfalse
  cases hfalse

theorem findText_append (hbefore : ∀ first rest, before = first ++ rest → rest ≠ [] →
    ¬ needle <+: rest ++ (needle ++ after)) :
    findText needle (before ++ (needle ++ after)) = some (byteLength before) := by
  refine findWhere_append (List.isPrefixOf_iff_prefix.mpr (List.prefix_append ..)) ?_
  intro first rest hsplit hrest
  exact Bool.eq_false_iff.mpr fun h =>
    hbefore first rest hsplit hrest (List.isPrefixOf_iff_prefix.mp h)

theorem findText_eq_none_iff : findText needle text = none ↔ ¬ needle <:+: text := by
  constructor
  · intro h hinfix
    obtain ⟨before, after, rfl⟩ := hinfix
    have hfalse := findWhere_none h (List.append_assoc before needle after)
    rw [List.isPrefixOf_iff_prefix.mpr (List.prefix_append ..)] at hfalse
    cases hfalse
  · intro h
    refine findWhere_eq_none fun before after hsplit => ?_
    refine Bool.eq_false_iff.mpr fun hfits => h ?_
    obtain ⟨rest, rfl⟩ := List.isPrefixOf_iff_prefix.mp hfits
    exact ⟨before, rest, by rw [hsplit, List.append_assoc]⟩

/-- A text is cut before the first character that fits, or at its end. -/
theorem cut_findChar (p : Char → Bool) (text : List Char) :
    cut ((findChar p text).getD (byteLength text)) text =
      some (text.takeWhile fun c => !p c, text.dropWhile fun c => !p c) := by
  cases hfound : findChar p text with
  | none =>
    have hall : ∀ c ∈ text, (!p c) = true := fun c hc => by
      rw [findChar_eq_none_iff.mp hfound c hc]
      rfl
    rw [Option.getD_none, List.takeWhile_eq_self_iff.mpr hall, List.dropWhile_eq_nil_iff.mpr hall]
    have hself := cut_append text []
    rwa [List.append_nil] at hself
  | some n =>
    obtain ⟨before, c, after, rfl, rfl, hc, hbefore⟩ := findChar_some hfound
    have hall : ∀ d ∈ before, (!p d) = true := fun d hd => by
      rw [hbefore d hd]
      rfl
    rw [Option.getD_some, cut_append, List.takeWhile_append_of_pos hall,
      List.dropWhile_append_of_pos hall]
    simp [hc]

theorem takeWhile_ne {c : Char} (h : c ∉ before) (after : List Char) :
    (before ++ c :: after).takeWhile (· ≠ c) = before := by
  have hall : ∀ d ∈ before, decide (d ≠ c) = true := fun d hd =>
    decide_eq_true fun heq => h (heq ▸ hd)
  rw [List.takeWhile_append_of_pos hall]
  simp

theorem byteLength_lt_of_append (hbefore : before ≠ []) (h : text = before ++ after) :
    byteLength after < byteLength text := by
  have hpos := byteLength_pos hbefore
  rw [h, byteLength_append]
  omega

end Searching

/-! ## Lower case -/

def asciiLower (text : List Char) : List Char := text.map Char.toLower

section Lower

variable {text : List Char} {n : ℕ}

/-- Only capital letters are changed. -/
theorem toLower_cases (c : Char) : c.toLower = c ∨
    65 ≤ c.toNat ∧ c.toNat ≤ 90 ∧ c.toLower.toNat = c.toNat + 32 := by
  unfold Char.toLower
  split
  · rename_i h
    obtain ⟨hlow, hhigh⟩ := h
    have hletter : 65 ≤ c.val.toNat ∧ c.val.toNat ≤ 90 :=
      ⟨UInt32.le_iff_toNat_le.mp hlow, UInt32.le_iff_toNat_le.mp hhigh⟩
    have hdistance : ('a'.val - 'A'.val).toNat = 32 := by decide
    refine Or.inr ⟨hletter.1, hletter.2, ?_⟩
    have hlowered : (c.val + ('a'.val - 'A'.val)).toNat = c.val.toNat + 32 := by
      rw [UInt32.toNat_add, hdistance]
      exact Nat.mod_eq_of_lt (by omega)
    exact hlowered
  · exact Or.inl rfl

theorem utf8Size_ascii {c : Char} (h : c.toNat < 128) : c.utf8Size = 1 := by
  have hascii : (0x7f : UInt32).toNat = 127 := by decide
  have hvalue : c.val.toNat = c.toNat := rfl
  exact Char.utf8Size_eq_one_iff.mpr (UInt32.le_iff_toNat_le.mpr (by omega))

theorem utf8Size_toLower (c : Char) : c.toLower.utf8Size = c.utf8Size := by
  rcases toLower_cases c with hsame | ⟨hlow, hhigh, hlowered⟩
  · rw [hsame]
  · rw [utf8Size_ascii (by omega), utf8Size_ascii (by omega)]

@[simp] theorem asciiLower_append (first second : List Char) :
    asciiLower (first ++ second) = asciiLower first ++ asciiLower second :=
  List.map_append

@[simp] theorem byteLength_asciiLower (text : List Char) :
    byteLength (asciiLower text) = byteLength text := by
  rw [byteLength, asciiLower, List.map_map]
  exact congrArg List.sum (List.map_congr_left fun c _ => utf8Size_toLower c)

/-- The copy in lower case is cut at the same offsets. -/
theorem cut_asciiLower (n : ℕ) (text : List Char) : cut n (asciiLower text) =
    (cut n text).map fun parts => (asciiLower parts.1, asciiLower parts.2) := by
  cases hcut : cut n text with
  | some parts =>
    obtain ⟨rfl, rfl⟩ := cut_eq_some_iff.mp hcut
    rw [asciiLower_append, ← byteLength_asciiLower, cut_append]
    rfl
  | none =>
    cases hlower : cut n (asciiLower text) with
    | none => rfl
    | some parts =>
      obtain ⟨hsplit, rfl⟩ := cut_eq_some_iff.mp hlower
      obtain ⟨first, second, rfl, hfirst, hsecond⟩ := List.map_eq_append_iff.mp hsplit
      rw [← hfirst] at hcut
      have hlength : byteLength (List.map Char.toLower first) = byteLength first :=
        byteLength_asciiLower first
      rw [hlength, cut_append] at hcut
      cases hcut

@[simp] theorem asciiLower_cons (c : Char) (text : List Char) :
    asciiLower (c :: text) = c.toLower :: asciiLower text :=
  rfl

theorem sliceFrom_asciiLower (first second : List Char) :
    sliceFrom (asciiLower (first ++ second)) (byteLength first) = some (asciiLower second) := by
  rw [asciiLower_append, ← byteLength_asciiLower, sliceFrom_append]

theorem sliceTo_asciiLower (first second : List Char) :
    sliceTo (asciiLower (first ++ second)) (byteLength first) = some (asciiLower first) := by
  rw [asciiLower_append, ← byteLength_asciiLower, sliceTo_append]

/-- A character below the capital letters is only the lower case of itself. -/
theorem toLower_eq_iff {c d : Char} (hd : d.toNat < 65) : c.toLower = d ↔ c = d := by
  rcases toLower_cases c with hsame | ⟨hlow, hhigh, hlowered⟩
  · rw [hsame]
  · constructor
    · rintro rfl
      omega
    · rintro rfl
      omega

theorem findChar_asciiLower {p : Char → Bool} (hp : ∀ c, p c.toLower = p c) (text : List Char) :
    findChar p (asciiLower text) = findChar p text := by
  induction text with
  | nil => rfl
  | cons c rest ih =>
    unfold findChar at ih ⊢
    rw [asciiLower_cons, findWhere, findWhere, ih, utf8Size_toLower]
    cases hc : p c with
    | true => simp [hp, hc]
    | false => simp [hp, hc]

/-- A word in lower case comes up at the start of the second text, in any case, and no earlier. -/
def FirstAt (needle first second : List Char) : Prop :=
  needle <+: asciiLower second ∧
    ∀ skipped rest, first = skipped ++ rest → rest ≠ [] → ¬ needle <+: asciiLower (rest ++ second)

theorem findText_firstAt {needle first second : List Char} (h : FirstAt needle first second) :
    findText needle (asciiLower (first ++ second)) = some (byteLength first) := by
  obtain ⟨⟨after, hafter⟩, hfirst⟩ := h
  rw [asciiLower_append, ← hafter, ← byteLength_asciiLower]
  refine findText_append fun skipped rest hsplit hrest => ?_
  obtain ⟨before, part, rfl, hbefore, hpart⟩ := List.map_eq_append_iff.mp hsplit
  have hnonempty : part ≠ [] := by
    rintro rfl
    exact hrest hpart.symm
  have hnot := hfirst before part rfl hnonempty
  rw [asciiLower_append, ← hafter] at hnot
  rw [← hpart]
  exact hnot

theorem exists_firstAt {needle text : List Char} {n : ℕ}
    (h : findText needle (asciiLower text) = some n) :
    ∃ first second, text = first ++ second ∧ byteLength first = n ∧
      FirstAt needle first second := by
  obtain ⟨before, after, hsplit, rfl, hbefore⟩ := findText_some h
  obtain ⟨first, second, rfl, hfirst, hsecond⟩ := List.map_eq_append_iff.mp hsplit
  refine ⟨first, second, rfl, ?_, ?_, fun skipped rest hskipped hrest => ?_⟩
  · rw [← hfirst]
    exact (byteLength_asciiLower first).symm
  · exact ⟨after, hsecond.symm⟩
  · subst hskipped
    rw [asciiLower_append]
    have hlowered : asciiLower second = needle ++ after := hsecond
    rw [hlowered]
    refine hbefore (asciiLower skipped) (asciiLower rest) ?_ ?_
    · rw [← hfirst, ← asciiLower_append]
      rfl
    · intro hnil
      exact hrest (List.map_eq_nil_iff.mp hnil)

/-- A word that begins with a character it does not have again cannot begin before another one. -/
theorem firstAt_of_start {c : Char} {word first second : List Char} (hword : c ∉ word)
    (hfirst : ¬ c :: word <:+: asciiLower first) (hsecond : c :: word <+: asciiLower second) :
    FirstAt (c :: word) first second := by
  refine ⟨hsecond, fun skipped rest hsplit hrest hprefix => ?_⟩
  obtain ⟨later, hlater⟩ := hsecond
  obtain ⟨after, hafter⟩ := hprefix
  rw [asciiLower_append, ← hlater] at hafter
  rcases List.append_eq_append_iff.mp hafter with ⟨part, hpart, -⟩ | ⟨part, hneedle, hpart⟩
  · have hinfix : c :: word <:+: asciiLower first := by
      rw [hsplit, asciiLower_append, hpart]
      exact ⟨asciiLower skipped, part, by simp⟩
    exact hfirst hinfix
  · cases hlowered : asciiLower rest with
    | nil => exact hrest (List.map_eq_nil_iff.mp hlowered)
    | cons d others =>
      rw [hlowered] at hneedle
      obtain ⟨-, hword'⟩ := List.cons_eq_cons.mp hneedle
      cases part with
      | nil =>
        rw [List.append_nil] at hneedle
        refine hfirst ?_
        rw [hsplit, asciiLower_append, hlowered, ← hneedle]
        exact ⟨asciiLower skipped, [], by simp⟩
      | cons e part =>
        obtain ⟨rfl, -⟩ := List.cons_eq_cons.mp hpart
        exact hword (hword' ▸ List.mem_append_right _ List.mem_cons_self)

theorem FirstAt.append {needle first second : List Char} (h : FirstAt needle first second)
    (more : List Char) : FirstAt needle first (second ++ more) := by
  obtain ⟨hsecond, hfirst⟩ := h
  constructor
  · rw [asciiLower_append]
    exact hsecond.trans (List.prefix_append _ _)
  · intro skipped rest hsplit hrest hprefix
    rw [← List.append_assoc, asciiLower_append] at hprefix
    have hlength : needle.length ≤ (asciiLower (rest ++ second)).length := by
      have hle := hsecond.length_le
      rw [asciiLower_append, List.length_append]
      omega
    exact hfirst skipped rest hsplit hrest
      (List.prefix_of_prefix_length_le hprefix (List.prefix_append _ _) hlength)

theorem prefix_of_append_cons {needle first second : List Char} {c : Char} (hc : c ∉ needle)
    (h : needle <+: first ++ c :: second) : needle <+: first := by
  have hother : first ++ [c] <+: first ++ c :: second := ⟨second, by simp⟩
  rcases List.prefix_or_prefix_of_prefix h hother with hneedle | hneedle
  · rcases List.prefix_concat_iff.mp hneedle with rfl | hfirst
    · exact absurd (List.mem_append_right _ List.mem_cons_self) hc
    · exact hfirst
  · exact absurd (hneedle.subset (List.mem_append_right _ List.mem_cons_self)) hc

/-- A word does not reach over a character it does not have. -/
theorem infix_append_cons {needle first second : List Char} {c : Char} (hc : c ∉ needle)
    (h : needle <:+: first ++ c :: second) : needle <:+: first ∨ needle <:+: second := by
  induction first with
  | nil =>
    rcases List.infix_cons_iff.mp h with hprefix | hinfix
    · have hnil : needle <+: [] := prefix_of_append_cons hc hprefix
      exact Or.inl hnil.isInfix
    · exact Or.inr hinfix
  | cons d first ih =>
    rcases List.infix_cons_iff.mp h with hprefix | hinfix
    · have hcons : needle <+: d :: first := prefix_of_append_cons hc hprefix
      exact Or.inl hcons.isInfix
    · rcases ih hinfix with hfirst | hsecond
      · exact Or.inl (List.infix_cons hfirst)
      · exact Or.inr hsecond

end Lower

end OpenMeet.TextSlices
