import Mathlib.Data.List.DropRight
import OpenMeet.KeyedMap
import OpenMeet.LinkPreviews
import OpenMeet.TextSlices

/-!
The scanner of a page's head. It searches the text and a copy of it in lower
case for tags, cuts both at the offsets it finds, and takes the attributes and
the entities apart in loops of their own. A text is the list of its characters,
and a slice out of range or inside a character ends everything without a result.
-/
namespace OpenMeet.HtmlScanner

open KeyedMap Text TextSlices LinkPreviews

def maxTitleCharacters : ℕ := 200
def maxDescriptionCharacters : ℕ := 300

/-! ## Numbers and characters -/

def digitValue (radix : ℕ) (c : Char) : Option ℕ :=
  let value :=
    if '0' ≤ c ∧ c ≤ '9' then c.toNat - '0'.toNat
    else if 'a' ≤ c ∧ c ≤ 'z' then c.toNat - 'a'.toNat + 10
    else if 'A' ≤ c ∧ c ≤ 'Z' then c.toNat - 'A'.toNat + 10
    else radix
  if value < radix then some value else none

def addDigit (radix n : ℕ) (c : Char) : Option ℕ :=
  (digitValue radix c).bind fun digit =>
    if n * radix + digit < 2 ^ 32 then some (n * radix + digit) else none

/-- A plus sign may come first, and there is no number without a digit. -/
def parseU32 (radix : ℕ) (text : List Char) : Option ℕ :=
  let digits := if text.head? = some '+' then text.tail else text
  if digits.isEmpty then none else digits.foldlM (addDigit radix) 0

def charFromU32 (n : ℕ) : Option Char :=
  if h : n.isValidChar then some (Char.ofNatAux n h) else none

/-! ## Entities -/

def stripPrefix (start text : List Char) : Option (List Char) :=
  if start.isPrefixOf text then some (text.drop start.length) else none

def namedEntities : List (List Char × Char) :=
  [("amp".toList, '&'), ("lt".toList, '<'), ("gt".toList, '>'), ("quot".toList, '"'),
    ("apos".toList, '\''), ("nbsp".toList, ' ')]

def decodeEntity (entity : List Char) : Option Char :=
  match namedEntities.lookup entity with
  | some character => some character
  | none =>
    let hex :=
      ((stripPrefix ['#', 'x'] entity).or (stripPrefix ['#', 'X'] entity)).bind (parseU32 16)
    (hex.or ((stripPrefix ['#'] entity).bind (parseU32 10))).bind charFromU32

/-- What the entity at the start of the text stands for, and the length of the entity. -/
def replacement (rest : List Char) : Option (Option (Char × ℕ)) :=
  match (findChar (· = ';') rest).filter (· ≤ 12) with
  | none => some none
  | some stop => (slice rest 1 stop).map fun entity =>
    (decodeEntity entity).map fun character => (character, stop + 1)

/-- What one round appends to the decoded text, and what is left; none if the loop ends. -/
def decodeRound (rest : List Char) : Option (Option (List Char × List Char)) :=
  match findChar (· = '&') rest with
  | none => some none
  | some start => do
    let (before, rest) ← cut start rest
    match ← replacement rest with
    | some (character, length) =>
      let rest ← sliceFrom rest length
      some (some (before ++ [character], rest))
    | none =>
      let rest ← sliceFrom rest 1
      some (some (before ++ ['&'], rest))

/-- What an ampersand stands for before a text, and what is left of the text. -/
inductive Decodes : List Char → Char → List Char → Prop
  | entity {entity later : List Char} {character : Char} (hend : ';' ∉ entity)
    (hlength : byteLength entity ≤ 11) (hentity : decodeEntity entity = some character) :
    Decodes (entity ++ ';' :: later) character later
  | ampersand {after : List Char} (hnone : ∀ entity later, after = entity ++ ';' :: later →
      ';' ∉ entity → byteLength entity ≤ 11 → decodeEntity entity = none) :
    Decodes after '&' after

section Entities

variable {before after entity later : List Char}

theorem replacement_entity (hend : ';' ∉ entity) (hlength : byteLength entity ≤ 11) :
    replacement ('&' :: (entity ++ ';' :: later)) =
      some ((decodeEntity entity).map fun character => (character, byteLength entity + 2)) := by
  have hfound : findChar (· = ';') ('&' :: (entity ++ ';' :: later)) =
      some (1 + byteLength entity) := by
    have hbefore : ∀ c ∈ '&' :: entity, decide (c = ';') = false := by
      intro c hc
      rcases List.mem_cons.mp hc with rfl | hmem
      · rfl
      · exact decide_eq_false fun heq => hend (heq ▸ hmem)
    have h : findChar (· = ';') ('&' :: entity ++ ';' :: later) =
        some (byteLength ('&' :: entity)) :=
      findChar_append (decide_eq_true rfl) hbefore
    rw [byteLength_cons] at h
    exact h
  have hslice : slice ('&' :: (entity ++ ';' :: later)) 1 (1 + byteLength entity) = some entity :=
    slice_append ['&'] entity (';' :: later)
  have hle : 1 + byteLength entity ≤ 12 := by omega
  have hsum : 1 + byteLength entity + 1 = byteLength entity + 2 := by omega
  unfold replacement
  rw [hfound, Option.filter_some, decide_eq_true hle, if_pos rfl]
  dsimp only
  rw [hslice, Option.map_some, hsum]

theorem replacement_none (hnone : ∀ entity later, after = entity ++ ';' :: later →
    ';' ∉ entity → 11 < byteLength entity) : replacement ('&' :: after) = some none := by
  have hfilter : (findChar (· = ';') ('&' :: after)).filter (· ≤ 12) = none := by
    rw [Option.filter_eq_none_iff]
    intro n hn
    obtain ⟨before, c, later, hsplit, rfl, hc, hbefore⟩ := findChar_some hn
    obtain rfl := of_decide_eq_true hc
    cases before with
    | nil => cases hsplit
    | cons d entity =>
      cases hsplit
      have hend : ';' ∉ entity := fun hmem =>
        of_decide_eq_false (hbefore ';' (List.mem_cons_of_mem _ hmem)) rfl
      have hlong := hnone entity later rfl hend
      have hampersand : Char.utf8Size '&' = 1 := by decide
      rw [decide_eq_true_eq, byteLength_cons, hampersand]
      omega
  unfold replacement
  rw [hfilter]

/-- One round decodes one ampersand. -/
theorem decodeRound_eq (hbefore : '&' ∉ before) (after : List Char) :
    ∃ character next, Decodes after character next ∧
      decodeRound (before ++ '&' :: after) = some (some (before ++ [character], next)) := by
  have hfound : findChar (· = '&') (before ++ '&' :: after) = some (byteLength before) :=
    findChar_append (decide_eq_true rfl) fun d hd => decide_eq_false fun heq => hbefore (heq ▸ hd)
  have hampersand : byteLength ['&'] = 1 := by decide
  unfold decodeRound
  rw [hfound]
  simp only [cut_append, Option.bind_eq_bind, Option.bind_some]
  by_cases hentity : ∃ entity later, after = entity ++ ';' :: later ∧ ';' ∉ entity ∧
      byteLength entity ≤ 11
  · obtain ⟨entity, later, rfl, hend, hlength⟩ := hentity
    rw [replacement_entity hend hlength]
    cases hdecoded : decodeEntity entity with
    | some character =>
      have hrest : sliceFrom ('&' :: (entity ++ ';' :: later)) (byteLength entity + 2) =
          some later := by
        have h := sliceFrom_append ('&' :: (entity ++ [';'])) later
        have hlength : byteLength ('&' :: (entity ++ [';'])) = byteLength entity + 2 := by
          have hsemicolon : byteLength [';'] = 1 := by decide
          have hsize : Char.utf8Size '&' = 1 := by decide
          rw [byteLength_cons, byteLength_append, hsemicolon, hsize]
          omega
        rw [hlength] at h
        simpa using h
      refine ⟨character, later, .entity hend hlength hdecoded, ?_⟩
      simp [hrest]
    | none =>
      have hrest : sliceFrom ('&' :: (entity ++ ';' :: later)) 1 = some (entity ++ ';' :: later) :=
        sliceFrom_append ['&'] _
      refine ⟨'&', _, .ampersand ?_, ?_⟩
      · intro entity' later' hsplit hend' _
        have hsame : entity' = entity := by
          rw [← takeWhile_ne hend later, hsplit, takeWhile_ne hend']
        rw [hsame]
        exact hdecoded
      · simp [hrest]
  · have hnone : replacement ('&' :: after) = some none := by
      refine replacement_none fun entity later hsplit hend => ?_
      by_contra hle
      exact hentity ⟨entity, later, hsplit, hend, by omega⟩
    have hrest : sliceFrom ('&' :: after) 1 = some after := sliceFrom_append ['&'] _
    refine ⟨'&', after, .ampersand fun entity later hsplit hend hlength => ?_, ?_⟩
    · exact absurd ⟨entity, later, hsplit, hend, hlength⟩ hentity
    · simp [hnone, hrest]

theorem decodeRound_plain {rest : List Char} (h : '&' ∉ rest) : decodeRound rest = some none := by
  have hnone : findChar (· = '&') rest = none :=
    findChar_eq_none_iff.mpr fun c hc => decide_eq_false fun heq => h (heq ▸ hc)
  unfold decodeRound
  rw [hnone]

theorem Decodes.suffix {character : Char} (h : Decodes after character later) :
    later <:+ after := by
  cases h with
  | entity hend hlength hentity => exact ⟨_, List.append_cons .. |>.symm⟩
  | ampersand hnone => exact List.suffix_rfl

/-- A round of the entity loop shortens what is left. -/
theorem decodeRound_shrinks {rest decoded next : List Char}
    (h : decodeRound rest = some (some (decoded, next))) : byteLength next < byteLength rest := by
  by_cases hmem : '&' ∈ rest
  · obtain ⟨before, after, rfl, hbefore⟩ := List.eq_append_cons_of_mem hmem
    obtain ⟨character, later, hdecodes, hround⟩ := decodeRound_eq hbefore after
    rw [hround] at h
    cases h
    obtain ⟨skipped, rfl⟩ := hdecodes.suffix
    have hsplit : before ++ '&' :: (skipped ++ next) = (before ++ '&' :: skipped) ++ next := by simp
    exact byteLength_lt_of_append (by simp) hsplit
  · rw [decodeRound_plain hmem] at h
    cases h

end Entities

def decodeFrom (decoded rest : List Char) : Option (List Char) :=
  match _h : decodeRound rest with
  | none => none
  | some none => some (decoded ++ rest)
  | some (some (found, next)) => decodeFrom (decoded ++ found) next
termination_by byteLength rest
decreasing_by exact decodeRound_shrinks _h

def splitWhitespace (text : List Char) : List (List Char) :=
  (text.splitOnP isWhitespace).filter fun word => !word.isEmpty

/-- Runs of whitespace become one space, and there is none at the ends. -/
def collapse (text : List Char) : List Char := [' '].intercalate (splitWhitespace text)

def cleanText (value : List Char) : Option (List Char) := (decodeFrom [] value).map collapse

def truncate (value : List Char) (limit : ℕ) : List Char :=
  if (value.drop limit).isEmpty then value.take limit else value.take limit ++ ['…']

/-! ## Attributes -/

abbrev Attributes := Map (List Char) (List Char)

def isSeparator (c : Char) : Bool := isWhitespace c || c = '/'

def endsName (c : Char) : Bool := c = '=' || isWhitespace c || c = '/'

def insertNamed (attributes : Attributes) (name value : List Char) : Attributes :=
  if name.isEmpty then attributes else attributes.insert name value

/-- The value after an equals sign, and what comes after it. -/
def attributeValue (afterEquals : List Char) : Option (List Char × List Char) :=
  match afterEquals.head?.filter fun c => c = '"' || c = '\'' with
  | some quote => do
    let valueStart ← sliceFrom afterEquals 1
    match findChar (· = quote) valueStart with
    | some stop => do
      let value ← sliceTo valueStart stop
      let remaining ← sliceFrom valueStart (stop + 1)
      some (value, remaining)
    | none => some (valueStart, [])
  | none => cut ((findChar isWhitespace afterEquals).getD (byteLength afterEquals)) afterEquals

def attributeRound (rest : List Char) (attributes : Attributes) :
    Option (Option (List Char × Attributes)) :=
  let rest := rest.dropWhile isSeparator
  if rest.isEmpty then some none
  else
    let nameEnd := (findChar endsName rest).getD (byteLength rest)
    do
      let (name, rest) ← cut nameEnd rest
      let name := asciiLower name
      let rest := rest.dropWhile isWhitespace
      match stripPrefix ['='] rest with
      | none =>
        let attributes := insertNamed attributes name []
        if nameEnd = 0 then
          -- skips a character that cannot start a name
          let rest ← sliceFrom rest (rest.head?.elim 0 Char.utf8Size)
          some (some (rest, attributes))
        else some (some (rest, attributes))
      | some afterEquals =>
        let (value, remaining) ← attributeValue (afterEquals.dropWhile isWhitespace)
        some (some (remaining, insertNamed attributes name value))

section Rounds

/-- The value and what comes after it, without offsets. -/
def valueOf (afterEquals : List Char) : List Char × List Char :=
  match afterEquals.head?.filter fun c => c = '"' || c = '\'' with
  | some quote =>
    (afterEquals.tail.takeWhile (· ≠ quote), (afterEquals.tail.dropWhile (· ≠ quote)).tail)
  | none =>
    (afterEquals.takeWhile fun c => !isWhitespace c, afterEquals.dropWhile fun c => !isWhitespace c)

/-- A round of the attribute loop on a text that begins with no separator, without offsets. -/
def attributeStep (text : List Char) (attributes : Attributes) : List Char × Attributes :=
  let name := asciiLower (text.takeWhile fun c => !endsName c)
  let rest := (text.dropWhile fun c => !endsName c).dropWhile isWhitespace
  match stripPrefix ['='] rest with
  | none => (rest, insertNamed attributes name [])
  | some afterEquals =>
    let value := valueOf (afterEquals.dropWhile isWhitespace)
    (value.2, insertNamed attributes name value.1)

variable {rest next : List Char} {attributes found : Attributes}

theorem attributeValue_eq (afterEquals : List Char) :
    attributeValue afterEquals = some (valueOf afterEquals) := by
  unfold attributeValue valueOf
  cases hquote : afterEquals.head?.filter fun c => c = '"' || c = '\'' with
  | none => exact cut_findChar isWhitespace afterEquals
  | some quote =>
    obtain ⟨hhead, hkind⟩ := Option.filter_eq_some_iff.mp hquote
    obtain ⟨valueStart, rfl⟩ := List.head?_eq_some_iff.mp hhead
    have hsize : quote.utf8Size = 1 := by
      rcases Bool.or_eq_true_iff.mp hkind with h | h
      · rw [of_decide_eq_true h]
        rfl
      · rw [of_decide_eq_true h]
        rfl
    have hstart : sliceFrom (quote :: valueStart) 1 = some valueStart := by
      have h := sliceFrom_append [quote] valueStart
      rw [byteLength_cons, hsize] at h
      exact h
    simp only [hstart, Option.bind_eq_bind, Option.bind_some, List.tail_cons]
    cases hfound : findChar (· = quote) valueStart with
    | none =>
      have hall : ∀ c ∈ valueStart, decide (c ≠ quote) = true := fun c hc =>
        decide_eq_true (of_decide_eq_false (findChar_eq_none_iff.mp hfound c hc))
      rw [List.takeWhile_eq_self_iff.mpr hall, List.dropWhile_eq_nil_iff.mpr hall]
      rfl
    | some stop =>
      obtain ⟨value, c, remaining, rfl, rfl, hc, hvalue⟩ := findChar_some hfound
      obtain rfl := of_decide_eq_true hc
      have hall : ∀ d ∈ value, decide (d ≠ c) = true := fun d hd =>
        decide_eq_true (of_decide_eq_false (hvalue d hd))
      have hrest : sliceFrom (value ++ c :: remaining) (byteLength value + 1) = some remaining := by
        have h := sliceFrom_append (value ++ [c]) remaining
        rw [byteLength_append, byteLength_cons, hsize, List.append_assoc] at h
        exact h
      rw [List.dropWhile_append_of_pos hall, takeWhile_ne fun hmem =>
        of_decide_eq_true (hall c hmem) rfl]
      simp [sliceTo_append, hrest]

theorem stripPrefix_eq_some_iff {start text after : List Char} :
    stripPrefix start text = some after ↔ text = start ++ after := by
  unfold stripPrefix
  rw [Option.ite_none_right_eq_some, List.isPrefixOf_iff_prefix, Option.some.injEq]
  constructor
  · intro h
    obtain ⟨⟨rest, rfl⟩, hdrop⟩ := h
    rw [← hdrop, List.drop_left]
  · intro h
    subst h
    exact ⟨List.prefix_append .., List.drop_left⟩

/-- A text that begins with no separator begins with a name or with an equals sign. -/
theorem startsName {text : List Char} (hnonempty : text ≠ [])
    (hstart : text.dropWhile isSeparator = text) :
    (text.takeWhile fun c => !endsName c) ≠ [] ∨ ∃ after, text = '=' :: after := by
  cases text with
  | nil => exact absurd rfl hnonempty
  | cons c rest =>
    have hseparator : isSeparator c = false := by
      by_contra h
      rw [Bool.not_eq_false] at h
      have hlength := congrArg List.length hstart
      rw [List.dropWhile_cons_of_pos h, List.length_cons] at hlength
      have hle := (List.dropWhile_suffix isSeparator (l := rest)).length_le
      omega
    by_cases hequals : c = '='
    · subst hequals
      exact Or.inr ⟨rest, rfl⟩
    · refine Or.inl ?_
      have hends : endsName c = false := by
        unfold isSeparator at hseparator
        simp [endsName, hequals, hseparator]
      rw [List.takeWhile_cons_of_pos (by rw [hends]; rfl)]
      exact List.cons_ne_nil _ _

theorem dropWhile_separator (rest : List Char) :
    (rest.dropWhile isSeparator).dropWhile isSeparator = rest.dropWhile isSeparator :=
  List.dropWhile_idempotent ..

/-- A round takes no slice that fails. -/
theorem attributeRound_eq (rest : List Char) (attributes : Attributes) :
    attributeRound rest attributes =
      if (rest.dropWhile isSeparator).isEmpty then some none
      else some (some (attributeStep (rest.dropWhile isSeparator) attributes)) := by
  unfold attributeRound
  dsimp only
  split
  · rfl
  · rename_i hnonempty
    generalize htext : rest.dropWhile isSeparator = text at hnonempty
    have hstart : text.dropWhile isSeparator = text := by
      rw [← htext]
      exact dropWhile_separator rest
    have hne : text ≠ [] := fun h => hnonempty (List.isEmpty_iff.mpr h)
    rw [cut_findChar]
    simp only [Option.bind_eq_bind, Option.bind_some, attributeStep]
    cases hequals : stripPrefix ['=']
        ((text.dropWhile fun c => !endsName c).dropWhile isWhitespace) with
    | some afterEquals => simp [attributeValue_eq]
    | none =>
      have hname : (text.takeWhile fun c => !endsName c) ≠ [] := by
        rcases startsName hne hstart with hname | ⟨after, rfl⟩
        · exact hname
        · have hstops : ('=' :: after).dropWhile (fun c => !endsName c) = '=' :: after := rfl
          rw [hstops] at hequals
          cases hequals
      have hcut := cut_eq_some_iff.mp (cut_findChar endsName text)
      have hpositive := byteLength_pos hname
      rw [hcut.2] at hpositive
      rw [if_neg (by omega)]

theorem valueOf_suffix (afterEquals : List Char) : (valueOf afterEquals).2 <:+ afterEquals := by
  unfold valueOf
  cases afterEquals.head?.filter fun c => c = '"' || c = '\'' with
  | none => exact List.dropWhile_suffix _
  | some quote =>
    exact ((List.tail_suffix _).trans (List.dropWhile_suffix _)).trans (List.tail_suffix _)

/-- A round of the attribute loop shortens what is left. -/
theorem attributeRound_shrinks (h : attributeRound rest attributes = some (some (next, found))) :
    byteLength next < byteLength rest := by
  rw [attributeRound_eq] at h
  split at h
  · cases h
  · rename_i hnonempty
    generalize htext : rest.dropWhile isSeparator = text at h hnonempty
    have hstart : text.dropWhile isSeparator = text := by
      rw [← htext]
      exact dropWhile_separator rest
    have hne : text ≠ [] := fun h => hnonempty (List.isEmpty_iff.mpr h)
    have hrest : text <:+ rest := htext ▸ List.dropWhile_suffix _
    have hnext : ∃ before, before ≠ [] ∧ text = before ++ next := by
      have hstep : (attributeStep text attributes).1 = next :=
        congrArg Prod.fst (Option.some.inj (Option.some.inj h))
      have hsplit := List.takeWhile_append_dropWhile (p := fun c => !endsName c) (l := text)
      generalize hname : (text.takeWhile fun c => !endsName c) = name at hsplit
      generalize htail : (text.dropWhile fun c => !endsName c) = tail at hsplit
      obtain ⟨spaces, hspaces⟩ := List.dropWhile_suffix isWhitespace (l := tail)
      rw [attributeStep, htail] at hstep
      cases hequals : stripPrefix ['='] (tail.dropWhile isWhitespace) with
      | none =>
        rw [hequals] at hstep
        refine ⟨name ++ spaces, ?_, ?_⟩
        · rcases startsName hne hstart with hnamed | ⟨after, rfl⟩
          · rw [hname] at hnamed
            simp [hnamed]
          · obtain rfl : '=' :: after = tail := htail
            cases hequals
        · rw [← hsplit, ← hspaces, ← hstep, List.append_assoc]
      | some afterEquals =>
        rw [hequals] at hstep
        have hvalue : (valueOf (afterEquals.dropWhile isWhitespace)).2 = next := hstep
        obtain ⟨skipped, hskipped⟩ :=
          (valueOf_suffix _).trans (List.dropWhile_suffix isWhitespace (l := afterEquals))
        have hafter := stripPrefix_eq_some_iff.mp hequals
        refine ⟨name ++ spaces ++ '=' :: skipped, by simp, ?_⟩
        rw [← hsplit, ← hspaces, hafter, ← hskipped, hvalue]
        simp
    obtain ⟨before, hbefore, hsplit⟩ := hnext
    obtain ⟨skipped, rfl⟩ := hrest
    have hlt := byteLength_lt_of_append hbefore hsplit
    rw [byteLength_append]
    omega

end Rounds

def attributesFrom (rest : List Char) (attributes : Attributes) : Option Attributes :=
  match _h : attributeRound rest attributes with
  | none => none
  | some none => some attributes
  | some (some (next, found)) => attributesFrom next found
termination_by byteLength rest
decreasing_by exact attributeRound_shrinks _h

def parseAttributes (tag : List Char) : Option Attributes :=
  attributesFrom (tag.dropWhile (· = '/')) ∅

/-! ## The head -/

/-- The first value of a key stays. -/
def addMeta (found : Attributes) (attributes : Attributes) : Attributes :=
  let key :=
    ((attributes.lookup "property".toList).or (attributes.lookup "name".toList)).map asciiLower
  match key, attributes.lookup "content".toList with
  | some key, some content => if key ∈ found then found else found.insert key content
  | _, _ => found

/-- One meta tag at or after an offset: where it ends, with what is found so far. -/
def metaRound (head lowerHead : List Char) (searchFrom : ℕ) (found : Attributes) :
    Option (Option (ℕ × Attributes)) := do
  let rest ← sliceFrom lowerHead searchFrom
  match findText "<meta".toList rest with
  | none => some none
  | some offset =>
    let start := searchFrom + offset
    let tag ← sliceFrom lowerHead start
    match findChar (· = '>') tag with
    | none => some none
    | some length =>
      let stop := start + length
      let inside ← slice head (start + byteLength "<meta".toList) stop
      let attributes ← parseAttributes inside
      some (some (stop, addMeta found attributes))

/-- A round of the meta loop moves the search forward, and not past the end. -/
theorem metaRound_advances {head lowerHead : List Char} {searchFrom next : ℕ}
    {found after : Attributes}
    (h : metaRound head lowerHead searchFrom found = some (some (next, after))) :
    searchFrom < next ∧ next ≤ byteLength lowerHead := by
  obtain ⟨rest, hrest, h⟩ := Option.bind_eq_some_iff.mp h
  obtain ⟨start, rfl, rfl⟩ := sliceFrom_eq_some_iff.mp hrest
  cases hoffset : findText "<meta".toList rest with
  | none =>
    rw [hoffset] at h
    cases h
  | some offset =>
    obtain ⟨skipped, later, rfl, rfl, -⟩ := findText_some hoffset
    rw [hoffset] at h
    obtain ⟨tag, htag, h⟩ := Option.bind_eq_some_iff.mp h
    have hslice := sliceFrom_append (start ++ skipped) ("<meta".toList ++ later)
    rw [byteLength_append, List.append_assoc, htag] at hslice
    obtain rfl := Option.some.inj hslice
    cases hlength : findChar (· = '>') ("<meta".toList ++ later) with
    | none =>
      rw [hlength] at h
      cases h
    | some length =>
      obtain ⟨inside, c, others, hsplit, rfl, hc, -⟩ := findChar_some hlength
      rw [hlength] at h
      obtain ⟨value, -, h⟩ := Option.bind_eq_some_iff.mp h
      obtain ⟨attributes, -, h⟩ := Option.bind_eq_some_iff.mp h
      cases h
      have hinside : inside ≠ [] := by
        rintro rfl
        cases hsplit
        cases hc
      have hpositive := byteLength_pos hinside
      have hbytes := congrArg byteLength hsplit
      simp only [byteLength_append] at hbytes ⊢
      omega

def metaFrom (head lowerHead : List Char) (searchFrom : ℕ) (found : Attributes) :
    Option Attributes :=
  match _h : metaRound head lowerHead searchFrom found with
  | none => none
  | some none => some found
  | some (some (next, after)) => metaFrom head lowerHead next after
termination_by byteLength lowerHead - searchFrom
decreasing_by
  have hround := metaRound_advances _h
  omega

/-- A text, unless it is empty. -/
def nonEmpty (text : List Char) : Option (List Char) := if text.isEmpty then none else some text

/-- The value of the first key that is there. -/
def first (found : Attributes) (keys : List String) : Option (Option (List Char)) :=
  match keys.findSome? fun key => found.lookup key.toList with
  | none => some none
  | some value => (cleanText value).map nonEmpty

def titleElement (head lowerHead : List Char) : Option (Option (List Char)) :=
  match findText "<title".toList lowerHead with
  | none => some none
  | some start => do
    let tag ← sliceFrom lowerHead start
    match findChar (· = '>') tag with
    | none => some none
    | some length =>
      let start := start + length + 1
      let rest ← sliceFrom lowerHead start
      match findText "</title".toList rest with
      | none => some none
      | some length =>
        let text ← slice head start (start + length)
        (cleanText text).map nonEmpty

/-! ## Previews -/

/-- The URL library, with what the scanner asks of the page's URL. -/
structure PageLibrary extends UrlLibrary where
  join : Url → String → Option Url
  hostStr : Url → Option String

structure LinkPreview where
  url : String
  title : Option (List Char)
  description : Option (List Char)
  siteName : Option (List Char)
  hasImage : Bool
  imageUrl : Option Url
  deriving DecidableEq, Repr

def trimWww : List Char → List Char
  | 'w' :: 'w' :: 'w' :: '.' :: rest => trimWww rest
  | text => text

def parsePreview (library : PageLibrary) (pageUrl : Url) (html : List Char) :
    Option LinkPreview := do
  let lower := asciiLower html
  let headEnd := (findText "</head".toList lower).getD (byteLength lower)
  let head ← sliceTo html headEnd
  let lowerHead ← sliceTo lower headEnd
  let found ← metaFrom head lowerHead 0 ∅
  let title ← match ← first found ["og:title", "twitter:title"] with
    | some title => some (some title)
    | none => titleElement head lowerHead
  let image ← first found
    ["og:image:secure_url", "og:image:url", "og:image", "twitter:image", "twitter:image:src"]
  let imageUrl :=
    (image.bind fun image => library.join pageUrl (String.ofList image)).bind fun url =>
    parsePublicUrl library.toUrlLibrary (library.asStr url)
  let description ← first found ["og:description", "twitter:description", "description"]
  let siteName ← first found ["og:site_name", "application-name"]
  some
    { url := library.asStr pageUrl
      title := title.map (truncate · maxTitleCharacters)
      description := description.map (truncate · maxDescriptionCharacters)
      siteName := siteName.or ((library.hostStr pageUrl).map fun host => trimWww host.toList)
      hasImage := imageUrl.isSome
      imageUrl := imageUrl }

end OpenMeet.HtmlScanner
