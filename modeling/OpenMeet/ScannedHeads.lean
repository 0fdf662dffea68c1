import OpenMeet.EntityDecoding

/-!
The scanner has a result for every text. An offset found in the lower-case copy
cuts the text itself between two characters, so no slice fails, and each round of
a loop shortens what is left or moves the search forward.
-/
namespace OpenMeet.ScannedHeads

open Text TextSlices LinkPreviews HtmlScanner EntityDecoding

/-! ## Rounds of the meta loop -/

section MetaRounds

variable {after skipped tag name inside later : List Char}

theorem findTagEnd (text : List Char) :
    findChar (· = '>') (asciiLower text) = findChar (· = '>') text :=
  findChar_asciiLower (fun c => decide_eq_decide.mpr (toLower_eq_iff (by decide))) text

/-- Without another tag the loop ends. -/
theorem metaRound_none (h : ¬ "<meta".toList <:+: asciiLower after) (before : List Char)
    (found : Attributes) :
    metaRound (before ++ after) (asciiLower (before ++ after)) (byteLength before) found =
      some none := by
  unfold metaRound
  rw [sliceFrom_asciiLower, Option.bind_eq_bind, Option.bind_some, findText_eq_none_iff.mpr h]

/-- A tag that is not closed ends the loop, too. -/
theorem metaRound_open (hfirst : FirstAt "<meta".toList skipped tag) (hopen : '>' ∉ tag)
    (before : List Char) (found : Attributes) :
    metaRound (before ++ (skipped ++ tag)) (asciiLower (before ++ (skipped ++ tag)))
      (byteLength before) found = some none := by
  have hend : findChar (· = '>') (asciiLower tag) = none := by
    rw [findTagEnd, findChar_eq_none_iff]
    exact fun c hc => decide_eq_false fun heq => hopen (heq ▸ hc)
  have htag : sliceFrom (asciiLower (before ++ (skipped ++ tag)))
      (byteLength before + byteLength skipped) = some (asciiLower tag) := by
    rw [← byteLength_append, ← List.append_assoc, sliceFrom_asciiLower]
  unfold metaRound
  rw [sliceFrom_asciiLower, Option.bind_eq_bind, Option.bind_some, findText_firstAt hfirst]
  dsimp only
  rw [htag, Option.bind_eq_bind, Option.bind_some, hend]

/-- A closed tag is read, and the search goes on where it is closed. -/
theorem metaRound_tag (hname : asciiLower name = "<meta".toList) (hinside : '>' ∉ inside)
    (hfirst : FirstAt "<meta".toList skipped (name ++ (inside ++ '>' :: later)))
    (before : List Char) (found : Attributes) :
    metaRound (before ++ (skipped ++ (name ++ (inside ++ '>' :: later))))
      (asciiLower (before ++ (skipped ++ (name ++ (inside ++ '>' :: later)))))
      (byteLength before) found =
    (parseAttributes inside).map fun attributes =>
      some (byteLength (before ++ skipped ++ name ++ inside), addMeta found attributes) := by
  have hlength : byteLength "<meta".toList = byteLength name := by
    rw [← hname, byteLength_asciiLower]
  have hend : findChar (· = '>') (asciiLower (name ++ (inside ++ '>' :: later))) =
      some (byteLength (name ++ inside)) := by
    rw [findTagEnd, ← List.append_assoc]
    refine findChar_append (decide_eq_true rfl) fun c hc => decide_eq_false fun heq => ?_
    subst heq
    rcases List.mem_append.mp hc with hmem | hmem
    · have hlower : '>' ∈ asciiLower name := List.mem_map.mpr ⟨'>', hmem, rfl⟩
      rw [hname] at hlower
      exact absurd hlower (by decide)
    · exact hinside hmem
  have htag : sliceFrom (asciiLower (before ++ (skipped ++ (name ++ (inside ++ '>' :: later)))))
      (byteLength before + byteLength skipped) =
        some (asciiLower (name ++ (inside ++ '>' :: later))) := by
    rw [← byteLength_append, ← List.append_assoc, sliceFrom_asciiLower]
  have hstop : byteLength before + byteLength skipped + byteLength (name ++ inside) =
      byteLength (before ++ skipped ++ name ++ inside) := by
    simp only [byteLength_append]
    omega
  have hslice : slice (before ++ (skipped ++ (name ++ (inside ++ '>' :: later))))
      (byteLength before + byteLength skipped + byteLength "<meta".toList)
      (byteLength (before ++ skipped ++ name ++ inside)) = some inside := by
    have h := slice_append (before ++ skipped ++ name) inside ('>' :: later)
    simp only [byteLength_append, List.append_assoc, Nat.add_assoc, hlength] at h ⊢
    exact h
  unfold metaRound
  rw [sliceFrom_asciiLower, Option.bind_eq_bind, Option.bind_some, findText_firstAt hfirst]
  dsimp only
  rw [htag, Option.bind_eq_bind, Option.bind_some, hend]
  dsimp only
  rw [hstop, hslice, Option.bind_some]
  cases parseAttributes inside with
  | none => rfl
  | some attributes => rfl

end MetaRounds

/-! ## Results -/

section Results

variable {library : PageLibrary} {pageUrl : Url} {html head : List Char}

theorem attributesFrom_total (rest : List Char) (attributes : Attributes) :
    ∃ found, attributesFrom rest attributes = some found := by
  induction hlength : byteLength rest using Nat.strong_induction_on
    generalizing rest attributes with
  | _ n ih =>
    subst hlength
    rw [attributesFrom]
    split
    · rename_i hround
      rw [attributeRound_eq] at hround
      split at hround
      · cases hround
      · cases hround
    · exact ⟨attributes, rfl⟩
    · rename_i next found hround
      exact ih _ (attributeRound_shrinks hround) next found rfl

theorem parseAttributes_total (tag : List Char) :
    ∃ attributes, parseAttributes tag = some attributes :=
  attributesFrom_total _ _

/-- A word that is found before a character it does not have ends before it. -/
theorem FirstAt.splits {needle skipped opened later : List Char} {c : Char}
    (h : FirstAt needle skipped (opened ++ c :: later)) (hc : c.toLower ∉ needle) :
    ∃ name inside, opened = name ++ inside ∧ asciiLower name = needle := by
  obtain ⟨after, hafter⟩ := h.1
  rw [asciiLower_append, asciiLower_cons] at hafter
  rcases List.append_eq_append_iff.mp hafter with ⟨rest, hopened, -⟩ | ⟨rest, hneedle, hrest⟩
  · obtain ⟨name, inside, rfl, hname, -⟩ := List.map_eq_append_iff.mp hopened
    exact ⟨name, inside, rfl, hname⟩
  · cases rest with
    | nil =>
      rw [List.append_nil] at hneedle
      exact ⟨opened, [], (List.append_nil opened).symm, hneedle.symm⟩
    | cons d rest =>
      obtain ⟨rfl, -⟩ := List.cons_eq_cons.mp hrest
      exact absurd (hneedle ▸ List.mem_append_right _ List.mem_cons_self) hc

/-- A round at an offset that cuts the head ends at one that cuts it, too. -/
theorem metaRound_total {searchFrom : ℕ} (hcut : (cut searchFrom head).isSome)
    (found : Attributes) :
    metaRound head (asciiLower head) searchFrom found = some none ∨
      ∃ next after, metaRound head (asciiLower head) searchFrom found = some (some (next, after)) ∧
        (cut next head).isSome := by
  obtain ⟨⟨before, after⟩, hcut⟩ := Option.isSome_iff_exists.mp hcut
  obtain ⟨rfl, rfl⟩ := cut_eq_some_iff.mp hcut
  cases hoffset : findText "<meta".toList (asciiLower after) with
  | none => exact Or.inl (metaRound_none (findText_eq_none_iff.mp hoffset) before found)
  | some offset =>
    obtain ⟨skipped, tag, rfl, -, hfirst⟩ := exists_firstAt hoffset
    by_cases hclosed : '>' ∈ tag
    · obtain ⟨opened, later, rfl, hopened⟩ := List.eq_append_cons_of_mem hclosed
      obtain ⟨name, inside, rfl, hname⟩ := FirstAt.splits hfirst (by decide)
      obtain ⟨attributes, hattributes⟩ := parseAttributes_total inside
      have hinside : '>' ∉ inside := fun hmem => hopened (List.mem_append_right _ hmem)
      rw [List.append_assoc] at hfirst ⊢
      have hround := metaRound_tag hname hinside hfirst before found
      rw [hattributes] at hround
      refine Or.inr ⟨_, _, hround, ?_⟩
      have hcut := cut_append (before ++ skipped ++ name ++ inside) ('>' :: later)
      simp only [List.append_assoc] at hcut ⊢
      rw [hcut]
      rfl
    · exact Or.inl (metaRound_open hfirst hclosed before found)

theorem metaFrom_total (searchFrom : ℕ) (hcut : (cut searchFrom head).isSome) (found : Attributes) :
    ∃ after, metaFrom head (asciiLower head) searchFrom found = some after := by
  induction hleft : byteLength (asciiLower head) - searchFrom using Nat.strong_induction_on
    generalizing searchFrom found with
  | _ n ih =>
    subst hleft
    rw [metaFrom]
    rcases metaRound_total hcut found with hround | ⟨next, after, hround, hnext⟩
    · split
      · rename_i hfailed
        rw [hround] at hfailed
        cases hfailed
      · exact ⟨found, rfl⟩
      · rename_i hfailed
        rw [hround] at hfailed
        cases hfailed
    · split
      · rename_i hfailed
        rw [hround] at hfailed
        cases hfailed
      · exact ⟨found, rfl⟩
      · rename_i next' after' hround'
        rw [hround] at hround'
        cases hround'
        have hadvances := metaRound_advances hround
        exact ih _ (by omega) next hnext after rfl

theorem first_total (found : Attributes) (keys : List String) :
    ∃ value, first found keys = some value := by
  unfold first
  split
  · exact ⟨none, rfl⟩
  · rename_i value _
    obtain ⟨text, htext⟩ := cleanText_total value
    exact ⟨nonEmpty text, by rw [htext, Option.map_some]⟩

theorem titleElement_total (head : List Char) :
    ∃ title, titleElement head (asciiLower head) = some title := by
  unfold titleElement
  cases hstart : findText "<title".toList (asciiLower head) with
  | none => exact ⟨none, rfl⟩
  | some start =>
    obtain ⟨before, element, rfl, rfl, -⟩ := exists_firstAt hstart
    dsimp only
    rw [sliceFrom_asciiLower, Option.bind_eq_bind, Option.bind_some, findTagEnd]
    cases hlength : findChar (· = '>') element with
    | none => exact ⟨none, rfl⟩
    | some length =>
      obtain ⟨tag, c, rest, rfl, rfl, hc, -⟩ := findChar_some hlength
      obtain rfl := of_decide_eq_true hc
      have hsize : Char.utf8Size '>' = 1 := by decide
      have hsplit : before ++ (tag ++ '>' :: rest) = (before ++ tag ++ ['>']) ++ rest := by simp
      have hstart : byteLength before + byteLength tag + 1 =
          byteLength (before ++ tag ++ ['>']) := by
        simp [hsize, Nat.add_assoc]
      dsimp only
      rw [hstart, hsplit, sliceFrom_asciiLower, Option.bind_some]
      cases hend : findText "</title".toList (asciiLower rest) with
      | none => exact ⟨none, rfl⟩
      | some stop =>
        obtain ⟨text, after, rfl, rfl, -⟩ := exists_firstAt hend
        obtain ⟨cleaned, hcleaned⟩ := cleanText_total text
        have hslice := slice_append (before ++ tag ++ ['>']) text after
        rw [List.append_assoc] at hslice
        dsimp only
        rw [hslice, Option.bind_some, hcleaned]
        exact ⟨nonEmpty cleaned, rfl⟩

/-- The head of a text reaches to the first closing tag, or to the end. -/
structure IsHead (html head : List Char) : Prop where
  splits : ∃ rest, html = head ++ rest ∧
    (rest = [] ∧ ¬ "</head".toList <:+: asciiLower html ∨ FirstAt "</head".toList head rest)

theorem exists_head (html : List Char) : ∃ head, IsHead html head := by
  cases hend : findText "</head".toList (asciiLower html) with
  | none =>
    exact ⟨html, [], (List.append_nil html).symm, Or.inl ⟨rfl, findText_eq_none_iff.mp hend⟩⟩
  | some stop =>
    obtain ⟨head, rest, rfl, -, hfirst⟩ := exists_firstAt hend
    exact ⟨head, rest, rfl, Or.inr hfirst⟩

theorem IsHead.length (h : IsHead html head) :
    (findText "</head".toList (asciiLower html)).getD (byteLength (asciiLower html)) =
      byteLength head := by
  obtain ⟨rest, rfl, ⟨rfl, hnone⟩ | hfirst⟩ := h.splits
  · rw [findText_eq_none_iff.mpr hnone, Option.getD_none, byteLength_asciiLower, List.append_nil]
  · rw [findText_firstAt hfirst, Option.getD_some]

/-- What the preview of a text is made of. -/
theorem parsePreview_of_head (h : IsHead html head) (library : PageLibrary) (pageUrl : Url) :
    ∃ found title element description preview,
      metaFrom head (asciiLower head) 0 ∅ = some found ∧
      first found ["og:title", "twitter:title"] = some title ∧
      titleElement head (asciiLower head) = some element ∧
      first found ["og:description", "twitter:description", "description"] = some description ∧
      parsePreview library pageUrl html = some preview ∧
      preview.title = (title.or element).map (truncate · maxTitleCharacters) ∧
      preview.description = description.map (truncate · maxDescriptionCharacters) := by
  have hlength := h.length
  obtain ⟨rest, rfl, -⟩ := h.splits
  have hstart : cut 0 head = some ([], head) := cut_append [] head
  obtain ⟨found, hfound⟩ := metaFrom_total 0 (Option.isSome_of_eq_some hstart) ∅
  obtain ⟨title, htitle⟩ := first_total found ["og:title", "twitter:title"]
  obtain ⟨element, helement⟩ := titleElement_total head
  obtain ⟨image, himage⟩ := first_total found
    ["og:image:secure_url", "og:image:url", "og:image", "twitter:image", "twitter:image:src"]
  obtain ⟨description, hdescription⟩ := first_total found
    ["og:description", "twitter:description", "description"]
  obtain ⟨siteName, hsiteName⟩ := first_total found ["og:site_name", "application-name"]
  have hpreview : ∃ preview, parsePreview library pageUrl (head ++ rest) = some preview ∧
      preview.title = (title.or element).map (truncate · maxTitleCharacters) ∧
      preview.description = description.map (truncate · maxDescriptionCharacters) := by
    unfold parsePreview
    dsimp only
    rw [hlength, sliceTo_append, sliceTo_asciiLower]
    simp only [Option.bind_eq_bind, Option.bind_some, hfound, htitle, hdescription, himage,
      hsiteName]
    cases title with
    | some title => exact ⟨_, rfl, rfl, rfl⟩
    | none =>
      simp only [helement, Option.bind_some]
      exact ⟨_, rfl, rfl, rfl⟩
  obtain ⟨preview, hpreview⟩ := hpreview
  exact ⟨found, title, element, description, preview, hfound, htitle, helement, hdescription,
    hpreview⟩

theorem parsePreview_total (library : PageLibrary) (pageUrl : Url) (html : List Char) :
    ∃ preview, parsePreview library pageUrl html = some preview := by
  obtain ⟨head, hhead⟩ := exists_head html
  obtain ⟨_, _, _, _, preview, -, -, -, -, hpreview, -⟩ :=
    parsePreview_of_head hhead library pageUrl
  exact ⟨preview, hpreview⟩

end Results

/-- Every text has a preview, attributes and a cleaned text, so no slice fails; an offset cuts the
copy where it cuts the text; and no loop stands still. -/
theorem scanning_is_total :
    (∀ library pageUrl html, ∃ preview, parsePreview library pageUrl html = some preview) ∧
    (∀ tag, ∃ attributes, parseAttributes tag = some attributes) ∧
    (∀ value, ∃ text, cleanText value = some text) ∧
    (∀ text n, (cut n (asciiLower text)).isSome = (cut n text).isSome) ∧
    (∀ head searchFrom found next after,
      metaRound head (asciiLower head) searchFrom found = some (some (next, after)) →
      searchFrom < next ∧ next ≤ byteLength head) ∧
    (∀ rest attributes next found,
      attributeRound rest attributes = some (some (next, found)) →
      byteLength next < byteLength rest) ∧
    (∀ rest decoded next, decodeRound rest = some (some (decoded, next)) →
      byteLength next < byteLength rest) := by
  refine ⟨parsePreview_total, parseAttributes_total, cleanText_total, fun text n => ?_,
    fun head searchFrom found next after h => ?_, fun _ _ _ _ => attributeRound_shrinks,
    fun _ _ _ => decodeRound_shrinks⟩
  · rw [cut_asciiLower, Option.isSome_map]
  · have hadvances := metaRound_advances h
    rwa [byteLength_asciiLower] at hadvances

end OpenMeet.ScannedHeads
