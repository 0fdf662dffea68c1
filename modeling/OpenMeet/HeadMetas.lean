import OpenMeet.ScannedHeads

/-!
What the meta loop finds. The first tag that gives a value for a key decides it:
tags before it give none, and tags after it change nothing.
-/
namespace OpenMeet.HeadMetas

open TextSlices HtmlScanner ScannedHeads

/-! ## The end of the head -/

section Head

variable {html head first second : List Char}

/-- A head is not cut in a part of the text that has no closing tag. -/
theorem IsHead.contains {c : Char} (hc : c.toLower ∉ "</head".toList)
    (h : IsHead (first ++ c :: second) head) (hfirst : ¬ "</head".toList <:+: asciiLower first) :
    ∃ rest, head = first ++ c :: rest := by
  obtain ⟨rest, hsplit, ⟨rfl, -⟩ | hclosing⟩ := h.splits
  · rw [List.append_nil] at hsplit
    exact ⟨second, hsplit.symm⟩
  · rcases List.append_eq_append_iff.mp hsplit with ⟨part, hhead, hpart⟩ | ⟨part, rfl, hrest⟩
    · cases part with
      | nil =>
        rw [List.nil_append] at hpart
        obtain ⟨after, hafter⟩ := hclosing.1
        rw [← hpart, asciiLower_cons] at hafter
        have hstart : '<' = c.toLower := (List.cons_eq_cons.mp hafter).1
        exact absurd (hstart ▸ List.mem_cons_self) hc
      | cons d part =>
        obtain ⟨rfl, -⟩ := List.cons_eq_cons.mp hpart
        exact ⟨part, hhead⟩
    · subst hrest
      have hprefix := hclosing.1
      rw [asciiLower_append, asciiLower_cons] at hprefix
      obtain ⟨after, hafter⟩ := prefix_of_append_cons hc hprefix
      refine absurd ⟨asciiLower head, after, ?_⟩ hfirst
      rw [asciiLower_append, ← hafter, List.append_assoc]

/-- A head is cut before a closing tag in the text. -/
theorem IsHead.isPrefix (h : IsHead (first ++ second) head)
    (hfirst : "</head".toList <:+: asciiLower first) : head <+: first := by
  obtain ⟨before, after, hinfix⟩ := hfirst
  obtain ⟨rest, hsplit, ⟨rfl, hnone⟩ | hclosing⟩ := h.splits
  · refine absurd ⟨before, after ++ asciiLower second, ?_⟩ hnone
    rw [asciiLower_append, ← hinfix]
    simp only [List.append_assoc]
  · rcases List.append_eq_append_iff.mp hsplit with ⟨part, rfl, -⟩ | ⟨part, rfl, -⟩
    · -- the closing tag in the text would come before the one the head ends at
      rw [List.append_assoc] at hinfix
      obtain ⟨skipped, closing, rfl, -, hlowered⟩ := List.map_eq_append_iff.mp hinfix.symm
      have hnonempty : closing ++ part ≠ [] := by
        intro hnil
        rw [(List.append_eq_nil_iff.mp hnil).1] at hlowered
        cases hlowered
      refine absurd ?_ (hclosing.2 skipped (closing ++ part) (List.append_assoc ..) hnonempty)
      have hclosing' : asciiLower closing = "</head".toList ++ after := hlowered
      rw [asciiLower_append, asciiLower_append, hclosing', List.append_assoc, List.append_assoc]
      exact List.prefix_append _ _
    · exact List.prefix_append _ _

end Head

/-! ## Keys -/

section Keys

variable {key value property : List Char} {found attributes after : Attributes}

theorem lookup_addMeta (h : found.lookup key = some value) (attributes : Attributes) :
    (addMeta found attributes).lookup key = some value := by
  unfold addMeta
  dsimp only
  split
  · rename_i other content _ _
    split
    · exact h
    · rename_i hother
      have hne : key ≠ other := by
        rintro rfl
        exact hother (AList.lookup_isSome.mp (Option.isSome_of_eq_some h))
      rw [AList.lookup_insert_ne hne, h]
  · exact h

/-- A key comes from what was found, or from the tag. -/
theorem mem_addMeta (h : key ∈ addMeta found attributes) :
    key ∈ found ∨ key ∈ addMeta ∅ attributes := by
  unfold addMeta at h ⊢
  dsimp only at h ⊢
  split at h
  · rename_i other content hkey hcontent
    split at h
    · exact Or.inl h
    · rcases (AList.mem_insert _).mp h with rfl | hmem
      · right
        rw [if_neg (AList.notMem_empty key)]
        exact (AList.mem_insert _).mpr (Or.inl rfl)
      · exact Or.inl hmem
  · exact Or.inl h

/-- A tag gives its content to a key that is new. -/
theorem lookup_addMeta_new (hnew : key ∉ found)
    (hproperty : attributes.lookup "property".toList = some property)
    (hkey : asciiLower property = key)
    (hcontent : attributes.lookup "content".toList = some value) :
    (addMeta found attributes).lookup key = some value := by
  unfold addMeta
  rw [hproperty, hcontent, Option.some_or, Option.map_some, hkey]
  dsimp only
  rw [if_neg hnew, AList.lookup_insert]

end Keys

/-! ## Rounds -/

section Rounds

variable {head lowerHead : List Char} {searchFrom next : ℕ} {found after last : Attributes}

theorem metaFrom_of_round
    (h : metaRound head lowerHead searchFrom found = some (some (next, after))) :
    metaFrom head lowerHead searchFrom found = metaFrom head lowerHead next after := by
  rw [metaFrom]
  split
  · rename_i hround
    rw [h] at hround
    cases hround
  · rename_i hround
    rw [h] at hround
    cases hround
  · rename_i next' after' hround
    rw [h] at hround
    cases hround
    rfl

theorem metaFrom_of_end (h : metaRound head lowerHead searchFrom found = some none) :
    metaFrom head lowerHead searchFrom found = some found := by
  rw [metaFrom]
  split
  · rename_i hround
    rw [h] at hround
    cases hround
  · rfl
  · rename_i hround
    rw [h] at hround
    cases hround

theorem metaRound_found
    (h : metaRound head lowerHead searchFrom found = some (some (next, after))) :
    ∃ attributes, after = addMeta found attributes := by
  obtain ⟨rest, -, h⟩ := Option.bind_eq_some_iff.mp h
  cases hoffset : findText "<meta".toList rest with
  | none =>
    rw [hoffset] at h
    cases h
  | some offset =>
    rw [hoffset] at h
    obtain ⟨tag, -, h⟩ := Option.bind_eq_some_iff.mp h
    cases hlength : findChar (· = '>') tag with
    | none =>
      rw [hlength] at h
      cases h
    | some length =>
      rw [hlength] at h
      obtain ⟨inside, -, h⟩ := Option.bind_eq_some_iff.mp h
      obtain ⟨attributes, -, h⟩ := Option.bind_eq_some_iff.mp h
      cases h
      exact ⟨attributes, rfl⟩

/-- What is found stays. -/
theorem lookup_metaFrom {key value : List Char}
    (h : metaFrom head lowerHead searchFrom found = some last)
    (hkey : found.lookup key = some value) : last.lookup key = some value := by
  induction hleft : byteLength lowerHead - searchFrom using Nat.strong_induction_on
    generalizing searchFrom found with
  | _ n ih =>
    subst hleft
    cases hround : metaRound head lowerHead searchFrom found with
    | none =>
      rw [metaFrom] at h
      split at h
      · cases h
      · rename_i hround'
        rw [hround] at hround'
        cases hround'
      · rename_i hround'
        rw [hround] at hround'
        cases hround'
    | some result =>
      cases result with
      | none =>
        rw [metaFrom_of_end hround] at h
        cases h
        exact hkey
      | some result =>
        obtain ⟨next, after⟩ := result
        have hadvances := metaRound_advances hround
        obtain ⟨attributes, rfl⟩ := metaRound_found hround
        rw [metaFrom_of_round hround] at h
        exact ih _ (by omega) h (lookup_addMeta hkey attributes) rfl

end Rounds

/-! ## The first tag of a key -/

/-- Text before a tag: every tag in it is closed, and none gives a value for the key. -/
structure Precedes (key before : List Char) : Prop where
  closed : ∀ first rest, before = first ++ rest → "<meta".toList <+: asciiLower rest → '>' ∈ rest
  unclaimed : ∀ first name inside rest attributes,
    before = first ++ (name ++ (inside ++ '>' :: rest)) → asciiLower name = "<meta".toList →
    '>' ∉ inside → parseAttributes inside = some attributes → key ∉ addMeta ∅ attributes

section Tags

variable {key before name inside later property value : List Char} {attributes found : Attributes}

/-- The tags before another one are read, and the key is still free. -/
theorem metaFrom_before (h : Precedes key before) (tag : List Char) {first rest : List Char}
    (hsplit : before = first ++ rest) (hfound : key ∉ found) :
    ∃ skipped left after, before = skipped ++ left ∧ ¬ "<meta".toList <:+: asciiLower left ∧
      key ∉ after ∧
      metaFrom (before ++ tag) (asciiLower (before ++ tag)) (byteLength first) found =
        metaFrom (before ++ tag) (asciiLower (before ++ tag)) (byteLength skipped) after := by
  induction hlength : rest.length using Nat.strong_induction_on generalizing first rest found with
  | _ n ih =>
    subst hlength
    by_cases hinfix : "<meta".toList <:+: asciiLower rest
    · obtain ⟨offset, hoffset⟩ : ∃ offset,
          findText "<meta".toList (asciiLower rest) = some offset := by
        cases hfind : findText "<meta".toList (asciiLower rest) with
        | none => exact absurd hinfix (findText_eq_none_iff.mp hfind)
        | some offset => exact ⟨offset, rfl⟩
      obtain ⟨gap, opened, rfl, -, hfirst⟩ := exists_firstAt hoffset
      have hclosed : '>' ∈ opened :=
        h.closed (first ++ gap) opened (by rw [hsplit, List.append_assoc]) hfirst.1
      obtain ⟨opened, later, rfl, hopened⟩ := List.eq_append_cons_of_mem hclosed
      obtain ⟨name, inside, rfl, hname⟩ := FirstAt.splits hfirst (by decide)
      have hinside : '>' ∉ inside := fun hmem => hopened (List.mem_append_right _ hmem)
      obtain ⟨attributes, hattributes⟩ := parseAttributes_total inside
      have hnew : key ∉ addMeta found attributes := by
        intro hmem
        rcases mem_addMeta hmem with hold | hclaimed
        · exact hfound hold
        · exact h.unclaimed (first ++ gap) name inside later attributes
            (by rw [hsplit]; simp only [List.append_assoc]) hname hinside hattributes hclaimed
      have hmore : FirstAt "<meta".toList gap (name ++ (inside ++ '>' :: (later ++ tag))) := by
        simpa only [List.append_assoc, List.cons_append] using FirstAt.append hfirst tag
      have hround := metaRound_tag hname hinside hmore first found
      rw [hattributes, Option.map_some] at hround
      have htext : first ++ (gap ++ (name ++ (inside ++ '>' :: (later ++ tag)))) =
          before ++ tag := by
        rw [hsplit]
        simp only [List.append_assoc, List.cons_append]
      rw [htext] at hround
      have hnonempty : name ≠ [] := by
        rintro rfl
        cases hname
      have hshorter : ('>' :: later).length <
          (gap ++ (name ++ inside ++ '>' :: later)).length := by
        have hpositive := List.length_pos_iff.mpr hnonempty
        simp only [List.length_append, List.length_cons]
        omega
      have hrest : before = first ++ gap ++ name ++ inside ++ '>' :: later := by
        rw [hsplit]
        simp only [List.append_assoc]
      rw [metaFrom_of_round hround]
      exact ih _ hshorter hrest hnew rfl
    · exact ⟨first, rest, found, hsplit, hinfix, hfound, rfl⟩

/-- The first tag of a key gives its value. -/
theorem lookup_of_tag (h : Precedes key before) (hname : asciiLower name = "<meta".toList)
    (hinside : '>' ∉ inside) (hattributes : parseAttributes inside = some attributes)
    (hproperty : attributes.lookup "property".toList = some property)
    (hkey : asciiLower property = key) (hcontent : attributes.lookup "content".toList = some value)
    (hfound : metaFrom (before ++ (name ++ (inside ++ '>' :: later)))
      (asciiLower (before ++ (name ++ (inside ++ '>' :: later)))) 0 ∅ = some found) :
    found.lookup key = some value := by
  obtain ⟨skipped, left, after, rfl, hleft, hnew, hread⟩ :=
    metaFrom_before h (name ++ (inside ++ '>' :: later)) (List.nil_append before).symm
      (AList.notMem_empty key)
  have hstart : "<meta".toList <+: asciiLower (name ++ (inside ++ '>' :: later)) := by
    rw [asciiLower_append, hname]
    exact List.prefix_append _ _
  have hfirst := firstAt_of_start (by decide) hleft hstart
  have hround := metaRound_tag hname hinside hfirst skipped after
  rw [hattributes, Option.map_some, ← List.append_assoc skipped] at hround
  rw [byteLength_nil] at hread
  rw [hread, metaFrom_of_round hround] at hfound
  exact lookup_metaFrom hfound (lookup_addMeta_new hnew hproperty hkey hcontent)

theorem Precedes.of_absent (h : ¬ "<meta".toList <:+: asciiLower before) : Precedes key before := by
  constructor
  · rintro first rest rfl ⟨after, hafter⟩
    refine absurd ⟨asciiLower first, after, ?_⟩ h
    rw [asciiLower_append, ← hafter, List.append_assoc]
  · rintro first name inside rest attributes rfl hname - - -
    refine absurd ⟨asciiLower first, asciiLower (inside ++ '>' :: rest), ?_⟩ h
    rw [asciiLower_append first, asciiLower_append name, hname, List.append_assoc]

end Tags

/-- Nothing is found in a head whose tags are not closed. -/
theorem metaFrom_open {head : List Char} (h : ∀ first rest, head = first ++ rest →
    "<meta".toList <+: asciiLower rest → '>' ∉ rest) :
    metaFrom head (asciiLower head) 0 ∅ = some ∅ := by
  cases hoffset : findText "<meta".toList (asciiLower head) with
  | none => exact metaFrom_of_end (metaRound_none (findText_eq_none_iff.mp hoffset) [] ∅)
  | some offset =>
    obtain ⟨skipped, tag, rfl, -, hfirst⟩ := exists_firstAt hoffset
    exact metaFrom_of_end (metaRound_open hfirst (h skipped tag rfl hfirst.1) [] ∅)

end OpenMeet.HeadMetas
