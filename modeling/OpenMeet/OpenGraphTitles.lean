import OpenMeet.CollapsedTexts
import OpenMeet.HeadMetas
import OpenMeet.TagAttributes

/-!
Open Graph titles and descriptions that are read back. A page gives a text in the
content of a meta tag, in double quotes and with ampersands and double quotes
escaped; the preview has the text if nothing in it ends the tag or the head.
-/
namespace OpenMeet.OpenGraphTitles

open Text TextSlices LinkPreviews HtmlScanner EntityDecoding ScannedHeads HeadMetas TagAttributes
  CollapsedTexts

/-! ## Escaped texts -/

def escapedInQuotes : List Char := ['&', '"']

def escapeChar (c : Char) : List Char :=
  if c = '&' then "&amp;".toList else if c = '"' then "&quot;".toList else [c]

/-- Ampersands and double quotes as their entities, and all else as it is. -/
def escape (text : List Char) : List Char := text.flatMap escapeChar

/-- What a reader sees that takes the first angle bracket for the end of the tag. -/
def visible (text : List Char) : List Char := text.takeWhile (· ≠ '>')

section Escape

variable {c : Char} {text first second needle : List Char}

@[simp] theorem escape_nil : escape [] = [] := rfl

theorem escape_cons (c : Char) (text : List Char) :
    escape (c :: text) = escapeChar c ++ escape text :=
  rfl

theorem escape_append (first second : List Char) :
    escape (first ++ second) = escape first ++ escape second :=
  List.flatMap_append

theorem escape_plain (hampersand : c ≠ '&') (hquote : c ≠ '"') (text : List Char) :
    escape (c :: text) = c :: escape text := by
  rw [escape_cons, escapeChar, if_neg hampersand, if_neg hquote]
  rfl

theorem escapes_escape (text : List Char) : Escapes escapedInQuotes text (escape text) := by
  have hamp : IsReference '&' ['a', 'm', 'p'] := .named (by decide)
  have hquot : IsReference '"' ['q', 'u', 'o', 't'] := .named (by decide)
  induction text with
  | nil => exact .nil
  | cons c rest ih =>
    by_cases hampersand : c = '&'
    · subst hampersand
      exact .reference (by decide) hamp ih
    · by_cases hquote : c = '"'
      · subst hquote
        exact .reference (by decide) hquot ih
      · rw [escape_plain hampersand hquote]
        exact .plain (by simp [escapedInQuotes, hampersand, hquote]) ih

/-- An escaped text is read back. -/
theorem cleanText_escape (text : List Char) : cleanText (escape text) = some (collapse text) :=
  cleanText_escapes (by decide) (escapes_escape text)

theorem quote_notMem_escape (text : List Char) : '"' ∉ escape text := by
  intro hmem
  obtain ⟨c, -, hc⟩ := List.mem_flatMap.mp hmem
  unfold escapeChar at hc
  split at hc
  · exact absurd hc (by decide)
  · split at hc
    · exact absurd hc (by decide)
    · rename_i hquote
      exact hquote (List.mem_singleton.mp hc).symm

theorem bracket_mem_escape : '>' ∈ escape text ↔ '>' ∈ text := by
  constructor
  · intro hmem
    obtain ⟨c, hc, hbracket⟩ := List.mem_flatMap.mp hmem
    unfold escapeChar at hbracket
    split at hbracket
    · exact absurd hbracket (by decide)
    · split at hbracket
      · exact absurd hbracket (by decide)
      · exact List.mem_singleton.mp hbracket ▸ hc
  · intro hmem
    exact List.mem_flatMap.mpr ⟨'>', hmem, by decide⟩

/-- A word without the escaped characters begins an escaped text if it begins the text. -/
theorem prefix_escape (hampersand : '&' ∉ needle) (hquote : '"' ∉ needle) :
    needle <+: asciiLower (escape text) ↔ needle <+: asciiLower text := by
  induction text generalizing needle with
  | nil => exact Iff.rfl
  | cons c rest ih =>
    cases needle with
    | nil => exact iff_of_true List.nil_prefix List.nil_prefix
    | cons d word =>
      have hd : d ≠ '&' ∧ d ≠ '"' := by
        constructor
        · rintro rfl
          exact hampersand List.mem_cons_self
        · rintro rfl
          exact hquote List.mem_cons_self
      have hword : word <+: asciiLower (escape rest) ↔ word <+: asciiLower rest :=
        ih (fun hmem => hampersand (List.mem_cons_of_mem d hmem))
          fun hmem => hquote (List.mem_cons_of_mem d hmem)
      by_cases hc : c = '&'
      · subst hc
        exact iff_of_false (fun h => hd.1 (List.cons_prefix_cons.mp h).1)
          fun h => hd.1 (List.cons_prefix_cons.mp h).1
      · by_cases hc' : c = '"'
        · subst hc'
          exact iff_of_false (fun h => hd.1 (List.cons_prefix_cons.mp h).1)
            fun h => hd.2 (List.cons_prefix_cons.mp h).1
        · rw [escape_plain hc hc', asciiLower_cons, asciiLower_cons, List.cons_prefix_cons,
            List.cons_prefix_cons]
          exact and_congr Iff.rfl hword

theorem closing_infix_cons (hc : c.toLower ≠ '<') (text : List Char) :
    "</head".toList <:+: asciiLower (c :: text) ↔ "</head".toList <:+: asciiLower text := by
  rw [asciiLower_cons, List.infix_cons_iff]
  refine or_iff_right fun hprefix => ?_
  obtain ⟨rest, hrest⟩ := hprefix
  exact hc (List.cons_eq_cons.mp hrest).1.symm

/-- The closing tag of the head is in an escaped text if it is in the text. -/
theorem closing_infix_escape :
    "</head".toList <:+: asciiLower (escape text) ↔ "</head".toList <:+: asciiLower text := by
  induction text with
  | nil => exact Iff.rfl
  | cons c rest ih =>
    by_cases hampersand : c = '&'
    · subst hampersand
      have hescaped : escape ('&' :: rest) = '&' :: 'a' :: 'm' :: 'p' :: ';' :: escape rest := rfl
      rw [hescaped, closing_infix_cons (by decide), closing_infix_cons (by decide),
        closing_infix_cons (by decide), closing_infix_cons (by decide),
        closing_infix_cons (by decide), closing_infix_cons (by decide)]
      exact ih
    · by_cases hquote : c = '"'
      · subst hquote
        have hescaped : escape ('"' :: rest) =
            '&' :: 'q' :: 'u' :: 'o' :: 't' :: ';' :: escape rest := rfl
        rw [hescaped, closing_infix_cons (by decide), closing_infix_cons (by decide),
          closing_infix_cons (by decide), closing_infix_cons (by decide),
          closing_infix_cons (by decide), closing_infix_cons (by decide),
          closing_infix_cons (by decide)]
        exact ih
      · have hprefix : "</head".toList <+: asciiLower (escape (c :: rest)) ↔
            "</head".toList <+: asciiLower (c :: rest) := prefix_escape (by decide) (by decide)
        rw [escape_plain hampersand hquote] at hprefix ⊢
        rw [asciiLower_cons, asciiLower_cons] at hprefix ⊢
        rw [List.infix_cons_iff, List.infix_cons_iff]
        exact or_congr hprefix ih

end Escape

/-! ## Pages -/

/-- A page whose head has a meta tag with a key as its property and, in double quotes, a content.
No tag before it claims the key, no other attribute is called property or content, and outside the
content nothing ends the tag or the head early. -/
structure Page (key : List Char) where
  before : List Char
  opening : List Char
  gap : List Char
  ahead : List Char
  content : List Char
  blankBefore : List Char
  blankAfter : List Char
  gapBehind : List Char
  behind : List Char
  last : List Char
  after : List Char
  aheadPairs : List (List Char × List Char)
  behindPairs : List (List Char × List Char)
  lastPairs : List (List Char × List Char)
  precedes : Precedes key before
  isOpening : asciiLower opening = "<meta".toList
  isGap : IsGap gap
  writtenAhead : Written ahead aheadPairs
  isContent : asciiLower content = "content".toList
  isBlankBefore : IsBlank blankBefore
  isBlankAfter : IsBlank blankAfter
  isGapBehind : IsGap gapBehind
  writtenBehind : Written behind behindPairs
  isLast : Last last lastPairs
  propertyName : List Char
  property : List Char
  isKey : asciiLower property = key
  onlyProperty : ((aheadPairs ++ behindPairs ++ lastPairs).filter fun pair =>
    asciiLower pair.1 = "property".toList) = [(propertyName, property)]
  onlyContent : ∀ pair ∈ aheadPairs ++ behindPairs ++ lastPairs,
    asciiLower pair.1 ≠ "content".toList
  plainStart : '>' ∉ gap ++ (ahead ++ (content ++ (blankBefore ++ '=' :: blankAfter)))
  plainBehind : '>' ∉ gapBehind ++ (behind ++ last)
  openStart : ¬ "</head".toList <:+: asciiLower
    (before ++ (opening ++ (gap ++ (ahead ++ (content ++ (blankBefore ++ '=' :: blankAfter))))))
  openBehind : ¬ "</head".toList <:+: asciiLower (gapBehind ++ (behind ++ last))

namespace Page

variable {key : List Char} (page : Page key)

/-- What the tag has before the content's value. -/
def start : List Char :=
  page.gap ++ (page.ahead ++ (page.content ++ (page.blankBefore ++ '=' :: page.blankAfter)))

def inside (escaped : List Char) : List Char :=
  page.start ++ '"' :: (escaped ++ '"' :: (page.gapBehind ++ (page.behind ++ page.last)))

def html (escaped : List Char) : List Char :=
  page.before ++ (page.opening ++ (page.inside escaped ++ '>' :: page.after))

/-- The property is named before the content. -/
def PropertyFirst : Prop := (page.propertyName, page.property) ∈ page.aheadPairs

end Page

section Reading

variable {key value : List Char} {pairs : List (List Char × List Char)}

theorem endsName_letter {c : Char} (hlow : 65 ≤ c.toNat) (hhigh : c.toNat ≤ 122) :
    endsName c = false := by
  have hequals : c ≠ '=' := by
    rintro rfl
    exact absurd hlow (by decide)
  have hslash : c ≠ '/' := by
    rintro rfl
    exact absurd hlow (by decide)
  have hblank : isWhitespace c = false := by
    unfold isWhitespace
    simp only [Bool.or_eq_false_iff, Bool.and_eq_false_iff, decide_eq_false_iff_not,
      beq_eq_false_iff_ne]
    omega
  simp [endsName, hequals, hslash, hblank]

theorem endsName_toLower (c : Char) : endsName c.toLower = endsName c := by
  rcases toLower_cases c with hsame | ⟨hlow, hhigh, hlowered⟩
  · rw [hsame]
  · rw [endsName_letter (by omega) (by omega), endsName_letter (by omega) (by omega)]

theorem isName_of_lower {name word : List Char} (hname : asciiLower name = word)
    (hword : IsName word) : IsName name := by
  subst hname
  constructor
  · rintro rfl
    exact hword.1 rfl
  · intro c hc
    rw [← endsName_toLower]
    exact hword.2 _ (List.mem_map_of_mem hc)

theorem Last.noEquals {text : List Char} (h : Last text pairs) : NoEquals text := by
  cases h with
  | nil =>
    intro heq
    cases heq
  | bare hname =>
    have h := hname.noEquals []
    rwa [List.append_nil] at h
  | plain hname => exact hname.noEquals _

/-- The value of the only attribute of a name. -/
theorem lookup_only (name : List Char) (hkey : key ≠ [])
    (h : (pairs.filter fun pair => asciiLower pair.1 = key) = [(name, value)])
    (found : Attributes) : (insertAll found pairs).lookup key = some value := by
  obtain ⟨first, second, rfl, -, hname, hsecond⟩ := List.filter_eq_cons_iff.mp h
  refine lookup_insertAll (of_decide_eq_true hname) hkey (fun pair hpair heq => ?_) found
  have hmem : pair ∈ second.filter fun pair => asciiLower pair.1 = key :=
    List.mem_filter.mpr ⟨hpair, decide_eq_true heq⟩
  rw [hsecond] at hmem
  cases hmem

variable (page : Page key)

theorem Page.isName_content : IsName page.content :=
  isName_of_lower page.isContent (.of_all (by decide) (by decide))

theorem Page.isProperty : asciiLower page.propertyName = "property".toList := by
  have hmem : (page.propertyName, page.property) ∈
      (page.aheadPairs ++ page.behindPairs ++ page.lastPairs).filter fun pair =>
        asciiLower pair.1 = "property".toList := by
    rw [page.onlyProperty]
    exact List.mem_singleton_self _
  exact of_decide_eq_true (List.mem_filter.mp hmem).2

/-- A whole tag is read. -/
theorem Page.attributes_inside (hvalue : '"' ∉ value) : parseAttributes (page.inside value) =
    some (insertAll ∅ (page.aheadPairs ++
      (page.content, value) :: (page.behindPairs ++ page.lastPairs))) := by
  have hcontent := Written.quoted page.isName_content page.isBlankBefore page.isBlankAfter
    (Or.inl rfl) hvalue page.isGapBehind page.writtenBehind
  have hinside : page.inside value =
      page.gap ++ (page.ahead ++ (page.content ++ (page.blankBefore ++
      '=' :: (page.blankAfter ++ '"' :: (value ++ '"' :: (page.gapBehind ++ page.behind)))) ++
        page.last)) := by
    simp [Page.inside, Page.start]
  have hequals := Last.noEquals page.isLast
  rw [parseAttributes_eq, hinside, attributesFrom_gap page.isGap,
    page.writtenAhead.attributesFrom_append (hcontent.noEquals hequals),
    hcontent.attributesFrom_append hequals, page.isLast.attributesFrom_eq, ← insertAll_append,
    ← insertAll_append, List.cons_append]

/-- Of a tag that is cut in the content's value the rest is the value. -/
theorem Page.attributes_cut (hvalue : '"' ∉ value) :
    parseAttributes (page.start ++ '"' :: value) =
      some (insertNamed (insertAll ∅ page.aheadPairs) "content".toList value) := by
  have hinside : page.start ++ '"' :: value = page.gap ++ (page.ahead ++ (page.content ++
      (page.blankBefore ++ '=' :: (page.blankAfter ++ '"' :: value)))) := by
    simp [Page.start]
  rw [parseAttributes_eq, hinside, attributesFrom_gap page.isGap,
    page.writtenAhead.attributesFrom_append (page.isName_content.noEquals _),
    attributesFrom_unterminated page.isName_content page.isBlankBefore page.isBlankAfter
      (Or.inl rfl) hvalue, page.isContent]

theorem Page.lookup_content (hvalue : '"' ∉ value) {attributes : Attributes}
    (h : parseAttributes (page.inside value) = some attributes) :
    attributes.lookup "content".toList = some value ∧
      attributes.lookup "property".toList = some page.property := by
  rw [page.attributes_inside hvalue] at h
  cases h
  constructor
  · refine lookup_insertAll page.isContent (by decide) (fun pair hpair => ?_) ∅
    refine page.onlyContent pair ?_
    rw [List.append_assoc]
    exact List.mem_append_right _ hpair
  · refine lookup_only page.propertyName (by decide) ?_ ∅
    have hcontent : asciiLower page.content ≠ "property".toList := by
      rw [page.isContent]
      decide
    have honly := page.onlyProperty
    rw [List.append_assoc, List.filter_append] at honly
    have hskipped : ((page.content, value) :: (page.behindPairs ++ page.lastPairs)).filter
        (fun pair => asciiLower pair.1 = "property".toList) =
          (page.behindPairs ++ page.lastPairs).filter
            fun pair => asciiLower pair.1 = "property".toList := by
      rw [List.filter_cons]
      exact if_neg fun h => hcontent (of_decide_eq_true h)
    rw [List.filter_append, hskipped]
    exact honly

theorem Page.lookup_content_cut (hfirst : page.PropertyFirst) (hvalue : '"' ∉ value)
    {attributes : Attributes} (h : parseAttributes (page.start ++ '"' :: value) = some attributes) :
    attributes.lookup "content".toList = some value ∧
      attributes.lookup "property".toList = some page.property := by
  rw [page.attributes_cut hvalue] at h
  cases h
  constructor
  · exact lookup_insertNamed _ (by decide) value
  · rw [lookup_insertNamed_ne _ (by decide)]
    refine lookup_only page.propertyName (by decide) ?_ ∅
    have hmem : (page.propertyName, page.property) ∈ page.aheadPairs.filter fun pair =>
        asciiLower pair.1 = "property".toList :=
      List.mem_filter.mpr ⟨hfirst, decide_eq_true page.isProperty⟩
    have honly := page.onlyProperty
    rw [List.append_assoc, List.filter_append] at honly
    rcases List.append_eq_singleton_iff.mp honly with ⟨hnone, -⟩ | ⟨hahead, -⟩
    · rw [hnone] at hmem
      cases hmem
    · exact hahead

/-! ## What the preview has -/

variable {text head : List Char} {found : Attributes}

theorem closing_infix_quote {first second : List Char}
    (h : "</head".toList <:+: asciiLower (first ++ '"' :: second)) :
    "</head".toList <:+: asciiLower first ∨ "</head".toList <:+: asciiLower second := by
  rw [asciiLower_append, asciiLower_cons] at h
  exact infix_append_cons (by decide) h

/-- Nothing ends the head up to the content, so it is only the content that can end it. -/
theorem Page.open_value (hclosing : ¬ "</head".toList <:+: asciiLower value) :
    ¬ "</head".toList <:+:
      asciiLower (page.before ++ (page.opening ++ (page.start ++ '"' :: value))) := by
  have hsplit : page.before ++ (page.opening ++ (page.start ++ '"' :: value)) =
      (page.before ++ (page.opening ++ page.start)) ++ '"' :: value := by
    simp only [List.append_assoc]
  intro h
  rw [hsplit] at h
  rcases closing_infix_quote h with hstart | hvalue
  · exact page.openStart hstart
  · exact hclosing hvalue

/-- The head reaches into the content. -/
theorem Page.exists_head_start {escaped : List Char} (hhead : IsHead (page.html escaped) head) :
    ∃ rest, head = page.before ++ (page.opening ++ page.start) ++ '"' :: rest := by
  have hhtml : page.html escaped = page.before ++ (page.opening ++ page.start) ++ '"' ::
      (escaped ++ '"' :: (page.gapBehind ++ (page.behind ++ page.last)) ++ '>' :: page.after) := by
    simp [Page.html, Page.inside]
  rw [hhtml] at hhead
  exact IsHead.contains (by decide) hhead page.openStart

/-- The head does not reach over a closing tag in the content. -/
theorem Page.head_isPrefix {first second : List Char}
    (hhead : IsHead (page.html (first ++ second)) head)
    (hclosing : "</head".toList <:+: asciiLower first) :
    head <+: page.before ++ (page.opening ++ (page.start ++ '"' :: first)) := by
  have hhtml : page.html (first ++ second) =
      (page.before ++ (page.opening ++ (page.start ++ '"' :: first))) ++
        (second ++ '"' :: (page.gapBehind ++ (page.behind ++ page.last)) ++ '>' :: page.after) := by
    simp [Page.html, Page.inside]
  have hinfix : "</head".toList <:+:
      asciiLower (page.before ++ (page.opening ++ (page.start ++ '"' :: first))) := by
    have hsuffix : first <:+ page.before ++ (page.opening ++ (page.start ++ '"' :: first)) :=
      ⟨page.before ++ (page.opening ++ (page.start ++ ['"'])), by simp⟩
    exact hclosing.trans (hsuffix.isInfix.map Char.toLower)
  rw [hhtml] at hhead
  exact IsHead.isPrefix hhead hinfix

/-- Of a text without the end of a tag or a head the content is found. -/
theorem Page.lookup_whole (hbracket : '>' ∉ text)
    (hclosing : ¬ "</head".toList <:+: asciiLower text)
    (hhead : IsHead (page.html (escape text)) head)
    (hfound : metaFrom head (asciiLower head) 0 ∅ = some found) :
    found.lookup key = some (escape text) := by
  have hinside : '>' ∉ page.inside (escape text) := by
    intro hmem
    unfold Page.inside at hmem
    rcases List.mem_append.mp hmem with hstart | hrest
    · exact page.plainStart hstart
    · rcases List.mem_cons.mp hrest with heq | hrest
      · cases heq
      · rcases List.mem_append.mp hrest with hescaped | hrest
        · exact hbracket (bracket_mem_escape.mp hescaped)
        · rcases List.mem_cons.mp hrest with heq | hbehind
          · cases heq
          · exact page.plainBehind hbehind
  have hopen : ¬ "</head".toList <:+:
      asciiLower (page.before ++ (page.opening ++ page.inside (escape text))) := by
    refine page.open_value fun h => ?_
    rcases closing_infix_quote h with hescaped | hbehind
    · exact hclosing (closing_infix_escape.mp hescaped)
    · exact page.openBehind hbehind
  have hhtml : page.html (escape text) =
      (page.before ++ (page.opening ++ page.inside (escape text))) ++ '>' :: page.after := by
    simp [Page.html]
  rw [hhtml] at hhead
  obtain ⟨rest, rfl⟩ := IsHead.contains (by decide) hhead hopen
  obtain ⟨attributes, hattributes⟩ := parseAttributes_total (page.inside (escape text))
  obtain ⟨hcontent, hproperty⟩ := page.lookup_content (quote_notMem_escape text) hattributes
  have hread : metaFrom
      (page.before ++ (page.opening ++ (page.inside (escape text) ++ '>' :: rest)))
      (asciiLower
        (page.before ++ (page.opening ++ (page.inside (escape text) ++ '>' :: rest)))) 0 ∅ =
        some found := by
    simpa only [List.append_assoc] using hfound
  exact lookup_of_tag page.precedes page.isOpening hinside hattributes hproperty page.isKey
    hcontent hread

/-- Of a text with an end of a tag the part before it is found. -/
theorem Page.lookup_cut (hfirst : page.PropertyFirst) {later : List Char} (hbracket : '>' ∉ text)
    (hclosing : ¬ "</head".toList <:+: asciiLower text)
    (hhead : IsHead (page.html (escape (text ++ '>' :: later))) head)
    (hfound : metaFrom head (asciiLower head) 0 ∅ = some found) :
    found.lookup key = some (escape text) := by
  have hinside : '>' ∉ page.start ++ '"' :: escape text := by
    intro hmem
    rcases List.mem_append.mp hmem with hstart | hrest
    · exact page.plainStart hstart
    · rcases List.mem_cons.mp hrest with heq | hescaped
      · cases heq
      · exact hbracket (bracket_mem_escape.mp hescaped)
  have hopen := page.open_value fun h => hclosing (closing_infix_escape.mp h)
  have hhtml : page.html (escape (text ++ '>' :: later)) =
      (page.before ++ (page.opening ++ (page.start ++ '"' :: escape text))) ++ '>' ::
        (escape later ++ '"' :: (page.gapBehind ++ (page.behind ++ page.last)) ++
          '>' :: page.after) := by
    rw [escape_append, escape_plain (by decide) (by decide)]
    simp [Page.html, Page.inside]
  rw [hhtml] at hhead
  obtain ⟨rest, rfl⟩ := IsHead.contains (by decide) hhead hopen
  obtain ⟨attributes, hattributes⟩ := parseAttributes_total (page.start ++ '"' :: escape text)
  obtain ⟨hcontent, hproperty⟩ :=
    page.lookup_content_cut hfirst (quote_notMem_escape text) hattributes
  have hread : metaFrom
      (page.before ++ (page.opening ++ (page.start ++ '"' :: escape text ++ '>' :: rest)))
      (asciiLower
        (page.before ++ (page.opening ++ (page.start ++ '"' :: escape text ++ '>' :: rest))))
        0 ∅ = some found := by
    simpa only [List.append_assoc] using hfound
  exact lookup_of_tag page.precedes page.isOpening hinside hattributes hproperty page.isKey
    hcontent hread

end Reading

/-! ## Fields -/

/-- The two texts of a preview that a meta tag of their own gives. -/
inductive Field
  | title
  | description
  deriving DecidableEq, Repr

namespace Field

def key : Field → List Char
  | .title => "og:title".toList
  | .description => "og:description".toList

/-- The keys that are tried for a field, in their order. -/
def keys : Field → List String
  | .title => ["og:title", "twitter:title"]
  | .description => ["og:description", "twitter:description", "description"]

def limit : Field → ℕ
  | .title => maxTitleCharacters
  | .description => maxDescriptionCharacters

def read : Field → LinkPreview → Option (List Char)
  | .title => LinkPreview.title
  | .description => LinkPreview.description

end Field

/-- The preview has the text of the page, collapsed, and cut if it is too long. -/
def ReadsBack (library : PageLibrary) (pageUrl : Url) (field : Field) (page : Page field.key)
    (text : List Char) : Prop :=
  (parsePreview library pageUrl (page.html (escape text))).map field.read =
    some (some (truncate (collapse text) field.limit))

section Fields

variable {library : PageLibrary} {pageUrl : Url} {field : Field} {text value : List Char}
  {html : List Char}

theorem first_of_lookup {found : Attributes} {key : String} {keys : List String}
    (h : found.lookup key.toList = some value) :
    first found (key :: keys) = (cleanText value).map nonEmpty := by
  unfold first
  rw [List.findSome?_cons, h]

/-- The preview has what was found for the key of a field, unless it is blank. -/
theorem read_of_lookup (hfound : ∀ head found, IsHead html head →
    metaFrom head (asciiLower head) 0 ∅ = some found → found.lookup field.key = some (escape text))
    (htext : collapse text ≠ []) : (parsePreview library pageUrl html).map field.read =
      some (some (truncate (collapse text) field.limit)) := by
  obtain ⟨head, hhead⟩ := exists_head html
  obtain ⟨found, title, element, description, preview, hmetas, htitle, -, hdescription, hpreview,
    hreadTitle, hreadDescription⟩ := parsePreview_of_head hhead library pageUrl
  have hlookup := hfound head found hhead hmetas
  have hvalue : (cleanText (escape text)).map nonEmpty = some (some (collapse text)) := by
    rw [cleanText_escape, Option.map_some, nonEmpty, if_neg (by simpa using htext)]
  rw [hpreview, Option.map_some]
  cases field with
  | title =>
    rw [first_of_lookup hlookup, hvalue] at htitle
    cases htitle
    exact congrArg some hreadTitle
  | description =>
    rw [first_of_lookup hlookup, hvalue] at hdescription
    cases hdescription
    exact congrArg some hreadDescription

/-- No end of a head is in the visible part of a text, and if there is more than that, it is cut off
anyway. -/
def Unharmed (limit : ℕ) (text : List Char) : Prop :=
  ¬ "</head".toList <:+: asciiLower (visible text) ∧
    ('>' ∈ text → limit < (collapse (visible text)).length)

theorem bracket_notMem_visible (text : List Char) : '>' ∉ visible text := by
  intro hmem
  have hne := List.mem_takeWhile_imp (p := fun c => decide (c ≠ '>')) hmem
  cases hne

theorem visible_of_notMem (h : '>' ∉ text) : visible text = text := by
  refine List.takeWhile_eq_self_iff.mpr fun c hc => decide_eq_true ?_
  rintro rfl
  exact h hc

/-- A text with the end of a tag goes on with it after its visible part. -/
theorem exists_later (h : '>' ∈ text) :
    ∃ later, text = visible text ++ '>' :: later ∧ '>' ∉ visible text := by
  obtain ⟨before, later, rfl, hbefore⟩ := List.eq_append_cons_of_mem h
  have hvisible : visible (before ++ '>' :: later) = before := takeWhile_ne hbefore later
  rw [hvisible]
  exact ⟨later, rfl, hbefore⟩

theorem truncate_of_prefix {first second : List Char} {limit : ℕ} (h : first <+: second)
    (hlimit : limit < first.length) : truncate first limit = truncate second limit := by
  obtain ⟨rest, rfl⟩ := h
  have hlonger : limit < (first ++ rest).length := by
    rw [List.length_append]
    omega
  rw [truncate_of_lt hlimit, truncate_of_lt hlonger, List.take_append_of_le_length hlimit.le]

/-- A text that goes on after a short visible part is not cut to it. -/
theorem truncate_ne {limit : ℕ} (hbracket : '>' ∈ text)
    (hlimit : (collapse (visible text)).length ≤ limit) :
    truncate (collapse text) limit ≠ collapse (visible text) := by
  have hplain : isWhitespace '>' = false := by decide
  intro heq
  by_cases hle : (collapse text).length ≤ limit
  · rw [truncate_of_le hle] at heq
    have hmem := (mem_collapse_iff hplain).mpr hbracket
    rw [heq] at hmem
    exact bracket_notMem_visible text ((mem_collapse_iff hplain).mp hmem)
  · rw [Nat.not_le] at hle
    have hlength := congrArg List.length heq
    rw [truncate_of_lt hle, List.length_append, List.length_take, List.length_singleton] at hlength
    omega

theorem readsBack_of_unharmed (library : PageLibrary) (pageUrl : Url) (page : Page field.key)
    (hfirst : page.PropertyFirst) (htext : collapse text ≠ []) (h : Unharmed field.limit text) :
    ReadsBack library pageUrl field page text := by
  obtain ⟨hclosing, hlimit⟩ := h
  by_cases hbracket : '>' ∈ text
  · obtain ⟨later, hsplit, hvisible⟩ := exists_later hbracket
    have hlong := hlimit hbracket
    have hnonempty : collapse (visible text) ≠ [] := by
      intro hnil
      rw [hnil] at hlong
      exact absurd hlong (Nat.not_lt_zero _)
    have hprefix : collapse (visible text) <+: collapse text := by
      have h := collapse_prefix (visible text) ('>' :: later)
      rwa [← hsplit] at h
    have hread : (parsePreview library pageUrl (page.html (escape text))).map field.read =
        some (some (truncate (collapse (visible text)) field.limit)) := by
      refine read_of_lookup (fun head found hhead hfound => ?_) hnonempty
      rw [hsplit] at hhead
      exact page.lookup_cut hfirst hvisible hclosing hhead hfound
    rw [ReadsBack, hread, truncate_of_prefix hprefix hlong]
  · rw [visible_of_notMem hbracket] at hclosing
    exact read_of_lookup (fun head found => page.lookup_whole hbracket hclosing) htext

end Fields

/-! ## A plain page -/

/-- A page with an empty title element and one meta tag. -/
def plainPage (field : Field) : Page field.key where
  before := "<title></title".toList ++ ['>']
  opening := "<meta".toList
  gap := [' ']
  ahead := "property".toList ++ ([] ++ '=' :: ([] ++ '"' :: (field.key ++ '"' :: ([' '] ++ []))))
  content := "content".toList
  blankBefore := []
  blankAfter := []
  gapBehind := []
  behind := []
  last := []
  after := []
  aheadPairs := [("property".toList, field.key)]
  behindPairs := []
  lastPairs := []
  precedes := .of_absent (by decide)
  isOpening := by decide
  isGap := .of_all (by decide)
  writtenAhead := .quoted (.of_all (by decide) (by decide)) (.of_all rfl) (.of_all rfl) (Or.inl rfl)
    (by cases field <;> decide) (.of_all (by decide)) .nil
  isContent := by decide
  isBlankBefore := .of_all rfl
  isBlankAfter := .of_all rfl
  isGapBehind := .of_all rfl
  writtenBehind := .nil
  isLast := .nil
  propertyName := "property".toList
  property := field.key
  isKey := by cases field <;> decide
  onlyProperty := rfl
  onlyContent := by cases field <;> decide
  plainStart := by cases field <;> decide
  plainBehind := by decide
  openStart := by cases field <;> decide
  openBehind := by decide

section Plain

variable {library : PageLibrary} {pageUrl : Url} {field : Field} {text : List Char}

theorem titleElement_empty (rest : List Char) :
    titleElement ("<title></title".toList ++ '>' :: rest)
      (asciiLower ("<title></title".toList ++ '>' :: rest)) = some none := by
  have hstart : findText "<title".toList
      (asciiLower ("<title></title".toList ++ '>' :: rest)) = some 0 := rfl
  have htag : sliceFrom (asciiLower ("<title></title".toList ++ '>' :: rest)) 0 =
      some (asciiLower ("<title></title".toList ++ '>' :: rest)) := rfl
  have hlength : findChar (· = '>') (asciiLower ("<title></title".toList ++ '>' :: rest)) =
      some 6 := rfl
  have hrest : sliceFrom (asciiLower ("<title></title".toList ++ '>' :: rest)) 7 =
      some ("</title".toList ++ '>' :: asciiLower rest) := rfl
  have hend : findText "</title".toList ("</title".toList ++ '>' :: asciiLower rest) = some 0 := rfl
  have htext : slice ("<title></title".toList ++ '>' :: rest) 7 7 = some [] := rfl
  have hclean : cleanText [] = some [] := cleanText_escape []
  unfold titleElement
  rw [hstart]
  dsimp only
  rw [htag, Option.bind_eq_bind, Option.bind_some, hlength]
  dsimp only
  rw [hrest, Option.bind_some, hend]
  dsimp only
  rw [htext, Option.bind_some, hclean]
  rfl

variable (library pageUrl field) in
/-- Without a title element the preview has what was found for the field, if anything. -/
theorem read_of_head {html head : List Char} (hhead : IsHead html head)
    (helement : titleElement head (asciiLower head) = some none) :
    ∃ found value, metaFrom head (asciiLower head) 0 ∅ = some found ∧
      first found field.keys = some value ∧
      (parsePreview library pageUrl html).map field.read =
        some (value.map (truncate · field.limit)) := by
  obtain ⟨found, title, element, description, preview, hmetas, htitle, helement', hdescription,
    hpreview, hreadTitle, hreadDescription⟩ := parsePreview_of_head hhead library pageUrl
  rw [helement] at helement'
  cases helement'
  rw [hpreview, Option.map_some]
  cases field with
  | title =>
    refine ⟨found, title, hmetas, htitle, ?_⟩
    rw [Option.or_none] at hreadTitle
    exact congrArg some hreadTitle
  | description => exact ⟨found, description, hmetas, hdescription, congrArg some hreadDescription⟩

/-- A head with the end of a head in the content's value has no tag that is closed. -/
theorem plain_open {head : List Char}
    (h : head <+: (plainPage field).before ++ ((plainPage field).opening ++
      ((plainPage field).start ++ '"' :: escape (visible text)))) :
    metaFrom head (asciiLower head) 0 ∅ = some ∅ := by
  obtain ⟨more, hmore⟩ := h
  refine metaFrom_open fun first rest hsplit hopening hbracket => ?_
  subst hsplit
  have htag : '>' ∉ (plainPage field).opening ++ ((plainPage field).start ++
      '"' :: escape (visible text)) := by
    intro hmem
    rcases List.mem_append.mp hmem with hopening | hrest
    · have hplain : '>' ∉ "<meta".toList := by decide
      exact hplain hopening
    · rcases List.mem_append.mp hrest with hstart | hvalue
      · exact (plainPage field).plainStart hstart
      · rcases List.mem_cons.mp hvalue with heq | hescaped
        · cases heq
        · exact bracket_notMem_visible text (bracket_mem_escape.mp hescaped)
  have hopening' : "<meta".toList <+: asciiLower (rest ++ more) := by
    rw [asciiLower_append]
    exact hopening.trans (List.prefix_append _ _)
  have hsplit : "<title></title".toList ++ '>' :: ((plainPage field).opening ++
      ((plainPage field).start ++ '"' :: escape (visible text))) = first ++ (rest ++ more) := by
    rw [← List.append_assoc first, hmore]
    exact (List.append_assoc "<title></title".toList ['>'] _).symm
  rcases List.append_eq_append_iff.mp hsplit with ⟨part, rfl, hpart⟩ | ⟨part, hfirst, hrest⟩
  · cases part with
    | nil =>
      rw [List.nil_append] at hpart
      rw [← hpart] at hopening'
      obtain ⟨after, hafter⟩ := hopening'
      cases hafter
    | cons c part =>
      obtain ⟨-, hpart⟩ := List.cons_eq_cons.mp hpart
      refine htag (hpart ▸ ?_)
      exact List.mem_append_right _ (List.mem_append_left _ hbracket)
  · rw [hrest, asciiLower_append, asciiLower_cons] at hopening'
    obtain ⟨after, hafter⟩ := prefix_of_append_cons (by decide) hopening'
    have hinfix : "<meta".toList <:+: asciiLower "<title></title".toList := by
      rw [hfirst, asciiLower_append, ← hafter]
      exact ⟨asciiLower first, after, by simp⟩
    exact absurd hinfix (by decide)

theorem first_empty (keys : List String) : first ∅ keys = some none := by
  have hnone : (keys.findSome? fun key => (∅ : Attributes).lookup key.toList) = none :=
    List.findSome?_eq_none_iff.mpr fun key _ => AList.lookup_empty _
  rw [first, hnone]

/-- The plain page is read back only if the text is not harmed. -/
theorem unharmed_of_readsBack (h : ReadsBack library pageUrl field (plainPage field) text) :
    Unharmed field.limit text := by
  obtain ⟨head, hhead⟩ := exists_head ((plainPage field).html (escape text))
  obtain ⟨later, hlater⟩ := (plainPage field).exists_head_start hhead
  have hrest : head = "<title></title".toList ++ '>' ::
      ((plainPage field).opening ++ (plainPage field).start ++ '"' :: later) := by
    rw [hlater, List.append_assoc]
    exact List.append_assoc "<title></title".toList ['>'] _
  have helement : titleElement head (asciiLower head) = some none := by
    rw [hrest]
    exact titleElement_empty _
  obtain ⟨found, value, hfound, hvalue, hread⟩ :=
    read_of_head library pageUrl field hhead helement
  rw [ReadsBack, hread] at h
  have hgiven := Option.some.inj h
  have hclosing : ¬ "</head".toList <:+: asciiLower (visible text) := by
    intro hclosing
    have hsplit : escape text = escape (visible text) ++ escape (text.dropWhile (· ≠ '>')) := by
      rw [← escape_append]
      exact congrArg escape List.takeWhile_append_dropWhile.symm
    rw [hsplit] at hhead
    have hprefix := (plainPage field).head_isPrefix hhead (closing_infix_escape.mpr hclosing)
    rw [plain_open hprefix] at hfound
    cases hfound
    rw [first_empty] at hvalue
    cases hvalue
    cases hgiven
  refine ⟨hclosing, fun hbracket => ?_⟩
  by_contra hle
  rw [Nat.not_lt] at hle
  obtain ⟨later, hsplit, hvisible⟩ := exists_later hbracket
  have hhead' : IsHead ((plainPage field).html (escape (visible text ++ '>' :: later))) head := by
    rw [← hsplit]
    exact hhead
  have hlookup := (plainPage field).lookup_cut (List.mem_singleton_self _) hvisible hclosing hhead'
    hfound
  have hcleaned : value = nonEmpty (collapse (visible text)) := by
    have hfirst : first found field.keys = (cleanText (escape (visible text))).map nonEmpty := by
      cases field with
      | title => exact first_of_lookup hlookup
      | description => exact first_of_lookup hlookup
    rw [hfirst, cleanText_escape] at hvalue
    exact (Option.some.inj hvalue).symm
  by_cases hblank : collapse (visible text) = []
  · rw [hcleaned, hblank] at hgiven
    cases hgiven
  · rw [hcleaned, nonEmpty, if_neg (by simpa using hblank), Option.map_some,
      truncate_of_le hle] at hgiven
    exact truncate_ne hbracket hle (Option.some.inj hgiven).symm

end Plain

theorem collapse_ne_nil {text : List Char} (h : ∃ c ∈ text, isWhitespace c = false) :
    collapse text ≠ [] := by
  obtain ⟨c, hmem, hc⟩ := h
  exact List.ne_nil_of_mem ((mem_collapse_iff hc).mpr hmem)

/-- A text is read back from every page that names the property first if and only if it is not
harmed, and from every other page, too, if it has no end of a tag and none of a head. -/
theorem texts_readBack_iff (library : PageLibrary) (pageUrl : Url) (field : Field)
    {text : List Char}
    (htext : ∃ c ∈ text, isWhitespace c = false) :
    ((∀ page : Page field.key, page.PropertyFirst → ReadsBack library pageUrl field page text) ↔
      Unharmed field.limit text) ∧
    ('>' ∉ text → ¬ "</head".toList <:+: asciiLower text →
      ∀ page : Page field.key, ReadsBack library pageUrl field page text) := by
  have hnonempty := collapse_ne_nil htext
  refine ⟨⟨fun h => ?_, fun h page hfirst => ?_⟩, fun hbracket hclosing page => ?_⟩
  · exact unharmed_of_readsBack (h (plainPage field) (List.mem_singleton_self _))
  · exact readsBack_of_unharmed library pageUrl page hfirst hnonempty h
  · exact read_of_lookup (fun head found => page.lookup_whole hbracket hclosing) hnonempty

def exampleLibrary : PageLibrary where
  toUrlLibrary := oneLibrary
  join := fun _ _ => none
  hostStr := fun _ => some "example.com"

def exampleUrl : Url := plainUrl (.domain "example.com")

/-- A title with an ampersand is read back. -/
theorem ampersand_readBack :
    ReadsBack exampleLibrary exampleUrl .title (plainPage .title) "a & b".toList :=
  (texts_readBack_iff exampleLibrary exampleUrl .title ⟨'a', by decide, by decide⟩).2
    (by decide) (by decide) (plainPage .title)

/-- A title with an angle bracket is cut at it. -/
theorem bracket_notReadBack :
    ¬ ReadsBack exampleLibrary exampleUrl .title (plainPage .title) "a > b".toList := by
  intro h
  have hlimit := (unharmed_of_readsBack h).2 (by decide)
  exact absurd hlimit (by decide)

end OpenMeet.OpenGraphTitles
