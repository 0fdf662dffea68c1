import OpenMeet.HtmlScanner

/-!
The attributes of a tag as HTML writes them: bare names, plain values and values
in quotes, with whitespace and slashes between them. The attribute loop reads
every attribute that is written so, and the first part of a quoted value that is
cut off.
-/
namespace OpenMeet.TagAttributes

open Text TextSlices HtmlScanner

def IsName (name : List Char) : Prop := name ≠ [] ∧ ∀ c ∈ name, endsName c = false

def IsPlain (value : List Char) : Prop :=
  value ≠ [] ∧ value.head? ≠ some '"' ∧ value.head? ≠ some '\'' ∧
    ∀ c ∈ value, isWhitespace c = false

def IsBlank (gap : List Char) : Prop := ∀ c ∈ gap, isWhitespace c = true

def IsGap (gap : List Char) : Prop := ∀ c ∈ gap, isSeparator c = true

theorem IsName.of_all {name : List Char} (hnonempty : name ≠ [])
    (h : (name.all fun c => !endsName c) = true) : IsName name := by
  refine ⟨hnonempty, fun c hc => ?_⟩
  simpa using List.all_eq_true.mp h c hc

theorem IsBlank.of_all {gap : List Char} (h : gap.all isWhitespace = true) : IsBlank gap :=
  List.all_eq_true.mp h

theorem IsGap.of_all {gap : List Char} (h : gap.all isSeparator = true) : IsGap gap :=
  List.all_eq_true.mp h

/-- Attributes with the gap after each of them, and their names and values. -/
inductive Written : List Char → List (List Char × List Char) → Prop
  | nil : Written [] []
  | bare {name gap rest : List Char} {space : Char} {pairs : List (List Char × List Char)}
    (hname : IsName name) (hspace : isSeparator space = true) (hgap : IsGap gap)
    (h : Written rest pairs) : Written (name ++ space :: (gap ++ rest)) ((name, []) :: pairs)
  | plain {name before after value gap rest : List Char} {space : Char}
    {pairs : List (List Char × List Char)} (hname : IsName name) (hbefore : IsBlank before)
    (hafter : IsBlank after) (hvalue : IsPlain value) (hspace : isWhitespace space = true)
    (hgap : IsGap gap) (h : Written rest pairs) :
    Written (name ++ (before ++ '=' :: (after ++ (value ++ space :: (gap ++ rest)))))
      ((name, value) :: pairs)
  | quoted {name before after value gap rest : List Char} {quote : Char}
    {pairs : List (List Char × List Char)} (hname : IsName name) (hbefore : IsBlank before)
    (hafter : IsBlank after) (hquote : quote = '"' ∨ quote = '\'') (hvalue : quote ∉ value)
    (hgap : IsGap gap) (h : Written rest pairs) :
    Written (name ++ (before ++ '=' :: (after ++ quote :: (value ++ quote :: (gap ++ rest)))))
      ((name, value) :: pairs)

/-- What may stand at the end of a tag, without a gap after it. -/
inductive Last : List Char → List (List Char × List Char) → Prop
  | nil : Last [] []
  | bare {name : List Char} (hname : IsName name) : Last name [(name, [])]
  | plain {name before after value : List Char} (hname : IsName name) (hbefore : IsBlank before)
    (hafter : IsBlank after) (hvalue : IsPlain value) :
    Last (name ++ (before ++ '=' :: (after ++ value))) [(name, value)]

/-- Every attribute is put in, so the last one of a name stays. -/
def insertAll (found : Attributes) (pairs : List (List Char × List Char)) : Attributes :=
  pairs.foldl (fun found pair => insertNamed found (asciiLower pair.1) pair.2) found

/-! ## Rounds -/

section Rounds

variable {name before after value gap text : List Char} {found : Attributes}

theorem attributesFrom_eq (rest : List Char) (found : Attributes) :
    attributesFrom rest found =
      if (rest.dropWhile isSeparator).isEmpty then some found
      else
        attributesFrom (attributeStep (rest.dropWhile isSeparator) found).1
          (attributeStep (rest.dropWhile isSeparator) found).2 := by
  rw [attributesFrom]
  split
  · rename_i hround
    rw [attributeRound_eq] at hround
    split at hround <;> cases hround
  · rename_i hround
    rw [attributeRound_eq] at hround
    split at hround
    · rename_i hempty
      rw [if_pos hempty]
    · cases hround
  · rename_i next after hround
    rw [attributeRound_eq] at hround
    split at hround
    · cases hround
    · rename_i hnonempty
      have hstep := Option.some.inj (Option.some.inj hround)
      rw [if_neg hnonempty, hstep]

theorem attributesFrom_gap (hgap : IsGap gap) (text : List Char) (found : Attributes) :
    attributesFrom (gap ++ text) found = attributesFrom text found := by
  rw [attributesFrom_eq, attributesFrom_eq text, List.dropWhile_append_of_pos hgap]

theorem IsName.dropWhile_eq (hname : IsName name) (text : List Char) :
    (name ++ text).dropWhile isSeparator = name ++ text := by
  obtain ⟨hnonempty, hall⟩ := hname
  cases name with
  | nil => exact absurd rfl hnonempty
  | cons c rest =>
    have hc : isSeparator c = false := by
      have hends := hall c List.mem_cons_self
      unfold endsName at hends
      simp only [Bool.or_eq_false_iff] at hends
      simp [isSeparator, hends]
    rw [List.cons_append, List.dropWhile_cons_of_neg (by rw [hc]; exact Bool.false_ne_true)]

/-- A round reads one name. -/
theorem attributesFrom_name (hname : IsName name) (text : List Char) (found : Attributes) :
    attributesFrom (name ++ text) found =
      attributesFrom (attributeStep (name ++ text) found).1
        (attributeStep (name ++ text) found).2 := by
  have hnonempty : (name ++ text).isEmpty = false := by
    cases name with
    | nil => exact absurd rfl hname.1
    | cons c rest => rfl
  rw [attributesFrom_eq, hname.dropWhile_eq, hnonempty]
  rfl

theorem takeWhile_name (hname : IsName name) (htext : text.head?.all endsName) :
    (name ++ text).takeWhile (fun c => !endsName c) = name ∧
      (name ++ text).dropWhile (fun c => !endsName c) = text := by
  have hall : ∀ c ∈ name, (!endsName c) = true := fun c hc => by
    rw [hname.2 c hc]
    rfl
  rw [List.takeWhile_append_of_pos hall, List.dropWhile_append_of_pos hall]
  cases text with
  | nil => simp
  | cons c rest =>
    have hc : endsName c = true := htext
    simp [hc]

theorem endsName_blank {c : Char} (h : isWhitespace c = true) : endsName c = true := by
  simp [endsName, h]

theorem endsName_separator {c : Char} (h : isSeparator c = true) : endsName c = true := by
  unfold isSeparator at h
  simp only [Bool.or_eq_true] at h
  rcases h with h | h <;> simp [endsName, h]

theorem IsBlank.dropWhile_eq (h : IsBlank before)
    (htext : text.head?.all fun c => !isWhitespace c) :
    (before ++ text).dropWhile isWhitespace = text := by
  rw [List.dropWhile_append_of_pos h]
  cases text with
  | nil => rfl
  | cons c rest =>
    have hc : (!isWhitespace c) = true := htext
    rw [List.dropWhile_cons_of_neg (by simpa using hc)]

/-- The value of a name comes after the equals sign. -/
theorem attributeStep_equals (hname : IsName name) (hbefore : IsBlank before)
    (hafter : IsBlank after) (htext : text.head?.all fun c => !isWhitespace c) :
    attributeStep (name ++ (before ++ '=' :: (after ++ text))) found =
      ((valueOf text).2, insertNamed found (asciiLower name) (valueOf text).1) := by
  have hends : (before ++ '=' :: (after ++ text)).head?.all endsName := by
    cases before with
    | nil => rfl
    | cons c rest => exact endsName_blank (hbefore c List.mem_cons_self)
  obtain ⟨htake, hdrop⟩ := takeWhile_name hname hends
  have hblank : (before ++ '=' :: (after ++ text)).dropWhile isWhitespace =
      '=' :: (after ++ text) :=
    hbefore.dropWhile_eq rfl
  have hstrip : stripPrefix ['='] ('=' :: (after ++ text)) = some (after ++ text) :=
    stripPrefix_eq_some_iff.mpr rfl
  unfold attributeStep
  dsimp only
  rw [htake, hdrop, hblank, hstrip]
  dsimp only
  rw [hafter.dropWhile_eq htext]

/-- A name without an equals sign has no value. -/
theorem attributeStep_bare (hname : IsName name) (htext : text.head?.all endsName)
    (hequals : (text.dropWhile isWhitespace).head? ≠ some '=') :
    attributeStep (name ++ text) found =
      (text.dropWhile isWhitespace, insertNamed found (asciiLower name) []) := by
  obtain ⟨htake, hdrop⟩ := takeWhile_name hname htext
  have hstrip : stripPrefix ['='] (text.dropWhile isWhitespace) = none := by
    cases hsome : stripPrefix ['='] (text.dropWhile isWhitespace) with
    | none => rfl
    | some rest =>
      rw [stripPrefix_eq_some_iff.mp hsome] at hequals
      exact absurd rfl hequals
  unfold attributeStep
  dsimp only
  rw [htake, hdrop, hstrip]

theorem valueOf_quoted {quote : Char} (hquote : quote = '"' ∨ quote = '\'') (hvalue : quote ∉ value)
    (text : List Char) : valueOf (quote :: (value ++ quote :: text)) = (value, text) := by
  have hall : ∀ c ∈ value, decide (c ≠ quote) = true := fun c hc =>
    decide_eq_true fun heq => hvalue (heq ▸ hc)
  have hfilter : ((quote :: (value ++ quote :: text)).head?.filter fun c => c = '"' || c = '\'') =
      some quote := by
    rcases hquote with rfl | rfl <;> rfl
  unfold valueOf
  rw [hfilter]
  dsimp only [List.tail_cons]
  rw [takeWhile_ne hvalue, List.dropWhile_append_of_pos hall]
  simp

/-- A quoted value that is cut off goes to the end. -/
theorem valueOf_unterminated {quote : Char} (hquote : quote = '"' ∨ quote = '\'')
    (hvalue : quote ∉ value) : valueOf (quote :: value) = (value, []) := by
  have hall : ∀ c ∈ value, decide (c ≠ quote) = true := fun c hc =>
    decide_eq_true fun heq => hvalue (heq ▸ hc)
  have hfilter : ((quote :: value).head?.filter fun c => c = '"' || c = '\'') = some quote := by
    rcases hquote with rfl | rfl <;> rfl
  unfold valueOf
  rw [hfilter]
  dsimp only [List.tail_cons]
  rw [List.takeWhile_eq_self_iff.mpr hall, List.dropWhile_eq_nil_iff.mpr hall, List.tail_nil]

theorem valueOf_plain (hvalue : IsPlain value) (htext : text.head?.all isWhitespace) :
    valueOf (value ++ text) = (value, text) := by
  obtain ⟨hnonempty, hdouble, hsingle, hall⟩ := hvalue
  have hplain : ∀ c ∈ value, (!isWhitespace c) = true := fun c hc => by
    rw [hall c hc]
    rfl
  have hfilter : ((value ++ text).head?.filter fun c => c = '"' || c = '\'') = none := by
    cases value with
    | nil => exact absurd rfl hnonempty
    | cons c rest =>
      have hd : c ≠ '"' := fun heq => hdouble (congrArg some heq)
      have hs : c ≠ '\'' := fun heq => hsingle (congrArg some heq)
      simp [hd, hs]
  unfold valueOf
  rw [hfilter]
  dsimp only
  rw [List.takeWhile_append_of_pos hplain, List.dropWhile_append_of_pos hplain]
  cases text with
  | nil => simp
  | cons c rest =>
    have hc : isWhitespace c = true := htext
    simp [hc]

end Rounds

/-! ## Whole tags -/

section Tags

variable {text name value key : List Char} {pairs : List (List Char × List Char)}

/-- After whitespace, no equals sign comes first. -/
def NoEquals (text : List Char) : Prop := (text.dropWhile isWhitespace).head? ≠ some '='

theorem IsName.noEquals (hname : IsName name) (text : List Char) : NoEquals (name ++ text) := by
  obtain ⟨hnonempty, hall⟩ := hname
  cases name with
  | nil => exact absurd rfl hnonempty
  | cons c rest =>
    have hends := hall c List.mem_cons_self
    unfold endsName at hends
    simp only [Bool.or_eq_false_iff, decide_eq_false_iff_not] at hends
    obtain ⟨⟨hequals, hblank⟩, -⟩ := hends
    have hdrop : (c :: rest ++ text).dropWhile isWhitespace = c :: rest ++ text := by
      rw [List.cons_append, List.dropWhile_cons_of_neg (by rw [hblank]; exact Bool.false_ne_true)]
    unfold NoEquals
    rw [hdrop]
    intro heq
    exact hequals (Option.some.inj heq)

theorem Written.noEquals (h : Written text pairs) {follow : List Char} (hfollow : NoEquals follow) :
    NoEquals (text ++ follow) := by
  cases h with
  | nil => exact hfollow
  | bare hname =>
    rw [List.append_assoc]
    exact hname.noEquals _
  | plain hname =>
    rw [List.append_assoc]
    exact hname.noEquals _
  | quoted hname =>
    rw [List.append_assoc]
    exact hname.noEquals _

theorem IsGap.noEquals {gap : List Char} (hgap : IsGap gap) (htext : NoEquals text) :
    NoEquals (gap ++ text) := by
  induction gap with
  | nil => exact htext
  | cons c rest ih =>
    have hrest := ih fun d hd => hgap d (List.mem_cons_of_mem c hd)
    unfold NoEquals at hrest ⊢
    by_cases hblank : isWhitespace c = true
    · rw [List.cons_append, List.dropWhile_cons_of_pos hblank]
      exact hrest
    · have hslash : c = '/' := by
        have hc := hgap c List.mem_cons_self
        unfold isSeparator at hc
        simpa [hblank] using hc
      rw [List.cons_append, List.dropWhile_cons_of_neg hblank, hslash]
      intro heq
      cases heq

theorem attributesFrom_dropWhile (text : List Char) (found : Attributes) :
    attributesFrom (text.dropWhile isWhitespace) found = attributesFrom text found := by
  have hgap : IsGap (text.takeWhile isWhitespace) := by
    intro c hc
    have hblank := List.mem_takeWhile_imp hc
    simp [isSeparator, hblank]
  have h := attributesFrom_gap hgap (text.dropWhile isWhitespace) found
  rw [List.takeWhile_append_dropWhile] at h
  exact h.symm

/-- Written attributes are put in one after the other, whatever follows them. -/
theorem Written.attributesFrom_append (h : Written text pairs) {follow : List Char}
    (hfollow : NoEquals follow) (found : Attributes) :
    attributesFrom (text ++ follow) found = attributesFrom follow (insertAll found pairs) := by
  induction h generalizing found with
  | nil => rfl
  | @bare name gap rest space pairs hname hspace hgap h ih =>
    have hsplit : name ++ space :: (gap ++ rest) ++ follow =
        name ++ (space :: gap ++ (rest ++ follow)) := by
      simp
    have hgaps : IsGap (space :: gap) := by
      intro c hc
      rcases List.mem_cons.mp hc with rfl | hmem
      · exact hspace
      · exact hgap c hmem
    have hends : (space :: gap ++ (rest ++ follow)).head?.all endsName := endsName_separator hspace
    rw [hsplit, attributesFrom_name hname,
      attributeStep_bare hname hends (hgaps.noEquals (h.noEquals hfollow)),
      attributesFrom_dropWhile, attributesFrom_gap hgaps]
    exact ih _
  | @plain name before after value gap rest space pairs hname hbefore hafter hvalue hspace
      hgap h ih =>
    have hsplit : name ++ (before ++ '=' :: (after ++ (value ++ space :: (gap ++ rest)))) ++
        follow =
        name ++ (before ++ '=' :: (after ++ (value ++ (space :: gap ++ (rest ++ follow))))) := by
      simp
    have hnonblank : (value ++ (space :: gap ++ (rest ++ follow))).head?.all
        fun c => !isWhitespace c := by
      cases value with
      | nil => exact absurd rfl hvalue.1
      | cons c others =>
        have hc := hvalue.2.2.2 c List.mem_cons_self
        simp [hc]
    have hgaps : IsGap (space :: gap) := by
      intro c hc
      rcases List.mem_cons.mp hc with rfl | hmem
      · simp [isSeparator, hspace]
      · exact hgap c hmem
    have hblank : (space :: gap ++ (rest ++ follow)).head?.all isWhitespace := hspace
    rw [hsplit, attributesFrom_name hname, attributeStep_equals hname hbefore hafter hnonblank,
      valueOf_plain hvalue hblank, attributesFrom_gap hgaps]
    exact ih _
  | @quoted name before after value gap rest quote pairs hname hbefore hafter hquote hvalue
      hgap h ih =>
    have hsplit : name ++ (before ++ '=' ::
        (after ++ quote :: (value ++ quote :: (gap ++ rest)))) ++
        follow = name ++ (before ++ '=' :: (after ++ quote :: (value ++ quote ::
          (gap ++ (rest ++ follow))))) := by
      simp
    have hnonblank : (quote :: (value ++ quote :: (gap ++ (rest ++ follow)))).head?.all
        fun c => !isWhitespace c := by
      rcases hquote with rfl | rfl <;> rfl
    rw [hsplit, attributesFrom_name hname, attributeStep_equals hname hbefore hafter hnonblank,
      valueOf_quoted hquote hvalue, attributesFrom_gap hgap]
    exact ih _

theorem attributesFrom_nil (found : Attributes) : attributesFrom [] found = some found := by
  rw [attributesFrom_eq]
  rfl

theorem Last.attributesFrom_eq (h : Last text pairs) (found : Attributes) :
    attributesFrom text found = some (insertAll found pairs) := by
  cases h with
  | nil => exact attributesFrom_nil found
  | bare hname =>
    have h := attributesFrom_name hname [] found
    have hnone : (List.dropWhile isWhitespace []).head? ≠ some '=' := by
      intro heq
      cases heq
    rw [attributeStep_bare hname rfl hnone, List.append_nil] at h
    rw [h]
    exact attributesFrom_nil _
  | @plain name before after value hname hbefore hafter hvalue =>
    have hnonblank : value.head?.all fun c => !isWhitespace c := by
      cases value with
      | nil => exact absurd rfl hvalue.1
      | cons c others =>
        have hc := hvalue.2.2.2 c List.mem_cons_self
        simp [hc]
    have hread : valueOf (value ++ []) = (value, []) := valueOf_plain hvalue rfl
    rw [List.append_nil] at hread
    rw [attributesFrom_name hname, attributeStep_equals hname hbefore hafter hnonblank, hread]
    exact attributesFrom_nil _

/-- The value of the last attribute goes to the end when its quote is missing. -/
theorem attributesFrom_unterminated {before after : List Char} {quote : Char} (hname : IsName name)
    (hbefore : IsBlank before) (hafter : IsBlank after) (hquote : quote = '"' ∨ quote = '\'')
    (hvalue : quote ∉ value) (found : Attributes) :
    attributesFrom (name ++ (before ++ '=' :: (after ++ quote :: value))) found =
      some (insertNamed found (asciiLower name) value) := by
  have hnonblank : (quote :: value).head?.all fun c => !isWhitespace c := by
    rcases hquote with rfl | rfl <;> rfl
  rw [attributesFrom_name hname, attributeStep_equals hname hbefore hafter hnonblank,
    valueOf_unterminated hquote hvalue]
  exact attributesFrom_nil _

/-! ## What is found -/

theorem lookup_insertNamed (found : Attributes) (hkey : key ≠ []) (value : List Char) :
    (insertNamed found key value).lookup key = some value := by
  unfold insertNamed
  rw [if_neg (by simpa using hkey), AList.lookup_insert]

theorem lookup_insertNamed_ne (found : Attributes) (hne : key ≠ name) (value : List Char) :
    (insertNamed found name value).lookup key = found.lookup key := by
  unfold insertNamed
  split
  · rfl
  · rw [AList.lookup_insert_ne hne]

theorem lookup_insertAll_of_forall (h : ∀ pair ∈ pairs, asciiLower pair.1 ≠ key)
    (found : Attributes) : (insertAll found pairs).lookup key = found.lookup key := by
  induction pairs generalizing found with
  | nil => rfl
  | cons pair rest ih =>
    have hpair := h pair List.mem_cons_self
    have hrest := ih (fun other hother => h other (List.mem_cons_of_mem pair hother))
      (insertNamed found (asciiLower pair.1) pair.2)
    exact hrest.trans (lookup_insertNamed_ne found (Ne.symm hpair) pair.2)

theorem insertAll_append (found : Attributes) (first second : List (List Char × List Char)) :
    insertAll found (first ++ second) = insertAll (insertAll found first) second :=
  List.foldl_append

/-- The only attribute of a name is found. -/
theorem lookup_insertAll {first second : List (List Char × List Char)}
    (hname : asciiLower name = key)
    (hkey : key ≠ []) (hsecond : ∀ pair ∈ second, asciiLower pair.1 ≠ key) (found : Attributes) :
    (insertAll found (first ++ (name, value) :: second)).lookup key = some value := by
  have hcons : insertAll found (first ++ (name, value) :: second) =
      insertAll (insertNamed (insertAll found first) (asciiLower name) value) second := by
    rw [insertAll_append]
    rfl
  rw [hcons, lookup_insertAll_of_forall hsecond, hname]
  exact lookup_insertNamed _ hkey value

theorem parseAttributes_eq (tag : List Char) : parseAttributes tag = attributesFrom tag ∅ := by
  have hgap : IsGap (tag.takeWhile (· = '/')) := by
    intro c hc
    have hslash := List.mem_takeWhile_imp hc
    unfold isSeparator
    rw [hslash, Bool.or_true]
  have h := attributesFrom_gap hgap (tag.dropWhile (· = '/')) ∅
  rw [List.takeWhile_append_dropWhile] at h
  exact h.symm

end Tags

end OpenMeet.TagAttributes
