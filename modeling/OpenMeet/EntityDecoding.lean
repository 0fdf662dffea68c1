import OpenMeet.HtmlScanner
import OpenMeet.Numerals

/-!
Entities are decoded once. Text in which the special characters are written as
references of any kind is read back as it was, apart from its whitespace, and a
reference that appears in it only after decoding stays as it is.
-/
namespace OpenMeet.EntityDecoding

open Text TextSlices Numerals HtmlScanner

/-! ## References -/

/-- The characters that are escaped, with the names of their entities. -/
def escapedCharacters : List (List Char × Char) :=
  [("amp".toList, '&'), ("lt".toList, '<'), ("gt".toList, '>'), ("quot".toList, '"'),
    ("apos".toList, '\'')]

/-- What may stand between the ampersand and the semicolon for a character; after the number sign
there are at most ten characters. -/
inductive IsReference (c : Char) : List Char → Prop
  | named {name : List Char} (h : (name, c) ∈ escapedCharacters) : IsReference c name
  | decimal {digits : List Char} {values : List ℕ} (hnonempty : digits ≠ [])
    (hdigits : digits.mapM (digitValue 10) = some values) (hvalue : value 10 values = c.toNat)
    (hlength : digits.length ≤ 10) : IsReference c ('#' :: digits)
  | hexadecimal {x : Char} {digits : List Char} {values : List ℕ} (hx : x = 'x' ∨ x = 'X')
    (hnonempty : digits ≠ []) (hdigits : digits.mapM (digitValue 16) = some values)
    (hvalue : value 16 values = c.toNat) (hlength : digits.length + 1 ≤ 10) :
    IsReference c ('#' :: x :: digits)

/-- A text, and the same text with its special characters written as references. -/
inductive Escapes (special : List Char) : List Char → List Char → Prop
  | nil : Escapes special [] []
  | plain {c : Char} {text escaped : List Char} (hc : c ∉ special)
    (h : Escapes special text escaped) : Escapes special (c :: text) (c :: escaped)
  | reference {c : Char} {entity text escaped : List Char} (hc : c ∈ special)
    (hentity : IsReference c entity) (h : Escapes special text escaped) :
    Escapes special (c :: text) ('&' :: (entity ++ ';' :: escaped))

section Digits

variable {radix : ℕ} {c : Char} {digits : List Char} {values : List ℕ}

theorem digitValue_ascii {n : ℕ} (h : digitValue radix c = some n) (hradix : radix ≤ 16) :
    c.utf8Size = 1 ∧ c ∉ [';', '+', 'x', 'X'] := by
  have hvalue : c.val.toNat = c.toNat := rfl
  have hdigits : '0'.val.toNat = 48 ∧ '0'.toNat = 48 ∧ '9'.val.toNat = 57 := by decide
  have hsmall : 'a'.val.toNat = 97 ∧ 'a'.toNat = 97 ∧ 'z'.val.toNat = 122 := by decide
  have hcapital : 'A'.val.toNat = 65 ∧ 'A'.toNat = 65 ∧ 'Z'.val.toNat = 90 := by decide
  have hrange : c.toNat ≤ 57 ∧ 48 ≤ c.toNat ∨ c.toNat ≤ 102 ∧ 97 ≤ c.toNat ∨
      c.toNat ≤ 70 ∧ 65 ≤ c.toNat := by
    unfold digitValue at h
    obtain ⟨hlt, -⟩ := Option.ite_none_right_eq_some.mp h
    simp only [Char.le_def, UInt32.le_iff_toNat_le] at hlt
    split at hlt
    · omega
    · split at hlt
      · omega
      · split at hlt
        · omega
        · omega
  constructor
  · exact utf8Size_ascii (by omega)
  · intro hmem
    have hnumbers : c.toNat ∈ [59, 43, 120, 88] := List.mem_map_of_mem (f := Char.toNat) hmem
    simp only [List.mem_cons, List.not_mem_nil, or_false] at hnumbers
    omega

theorem value_le_foldl (hradix : 0 < radix) (acc : ℕ) :
    acc ≤ values.foldl (fun acc digit => acc * radix + digit) acc := by
  induction values generalizing acc with
  | nil => exact Nat.le_refl acc
  | cons digit rest ih =>
    have hstep : acc ≤ acc * radix + digit :=
      (Nat.le_mul_of_pos_right acc hradix).trans (Nat.le_add_right _ _)
    exact hstep.trans (ih _)

theorem foldlM_addDigit (hradix : 0 < radix)
    (hdigits : digits.mapM (digitValue radix) = some values)
    (acc : ℕ) (hlt : values.foldl (fun acc digit => acc * radix + digit) acc < 2 ^ 32) :
    digits.foldlM (addDigit radix) acc =
      some (values.foldl (fun acc digit => acc * radix + digit) acc) := by
  induction digits generalizing values acc with
  | nil =>
    cases hdigits
    rfl
  | cons c rest ih =>
    rw [List.mapM_cons] at hdigits
    obtain ⟨digit, hdigit, hdigits⟩ := Option.bind_eq_some_iff.mp hdigits
    obtain ⟨others, hothers, heq⟩ := Option.bind_eq_some_iff.mp hdigits
    cases heq
    have hle : acc * radix + digit ≤
        others.foldl (fun acc digit => acc * radix + digit) (acc * radix + digit) :=
      value_le_foldl hradix _
    have hstep := hle.trans_lt hlt
    rw [List.foldlM_cons, addDigit, hdigit, Option.bind_some, if_pos hstep]
    exact ih hothers _ hlt

theorem parseU32_digits (hradix : 0 < radix) (hle : radix ≤ 16) (hnonempty : digits ≠ [])
    (hdigits : digits.mapM (digitValue radix) = some values) (hlt : value radix values < 2 ^ 32) :
    parseU32 radix digits = some (value radix values) := by
  have hplus : digits.head? ≠ some '+' := by
    intro h
    obtain ⟨rest, rfl⟩ := List.head?_eq_some_iff.mp h
    rw [List.mapM_cons] at hdigits
    obtain ⟨digit, hdigit, -⟩ := Option.bind_eq_some_iff.mp hdigits
    exact (digitValue_ascii hdigit hle).2 (by simp)
  unfold parseU32
  dsimp only
  rw [if_neg hplus, if_neg (by simpa using hnonempty)]
  exact foldlM_addDigit hradix hdigits 0 hlt

theorem digits_ascii (hle : radix ≤ 16) (hdigits : digits.mapM (digitValue radix) = some values) :
    byteLength digits = digits.length ∧ ∀ c ∈ digits, c ∉ [';', '+', 'x', 'X'] := by
  induction digits generalizing values with
  | nil => exact ⟨rfl, fun c hc => absurd hc List.not_mem_nil⟩
  | cons c rest ih =>
    rw [List.mapM_cons] at hdigits
    obtain ⟨digit, hdigit, hdigits⟩ := Option.bind_eq_some_iff.mp hdigits
    obtain ⟨others, hothers, -⟩ := Option.bind_eq_some_iff.mp hdigits
    obtain ⟨hlength, hrest⟩ := ih hothers
    obtain ⟨hsize, hc⟩ := digitValue_ascii hdigit hle
    constructor
    · rw [byteLength_cons, hlength, hsize, List.length_cons, Nat.add_comm]
    · intro d hd
      rcases List.mem_cons.mp hd with rfl | hmem
      · exact hc
      · exact hrest d hmem

end Digits

section References

variable {c : Char} {entity : List Char}

theorem charFromU32_toNat (c : Char) : charFromU32 c.toNat = some c := by
  have hvalid : c.toNat.isValidChar := c.valid
  have hself : Char.ofNat c.toNat = c := Char.ofNat_toNat c
  unfold Char.ofNat at hself
  rw [dif_pos hvalid] at hself
  rw [charFromU32, dif_pos hvalid, hself]

theorem toNat_lt (c : Char) : c.toNat < 2 ^ 32 := c.val.toNat_lt

theorem decodeEntity_numeric (entity : List Char) : decodeEntity ('#' :: entity) =
    ((((stripPrefix ['x'] entity).or (stripPrefix ['X'] entity)).bind (parseU32 16)).or
      (parseU32 10 entity)).bind charFromU32 := by
  have hname : namedEntities.lookup ('#' :: entity) = none := by
    simp [namedEntities, List.lookup_cons]
  have hdecimal : stripPrefix ['#'] ('#' :: entity) = some entity :=
    stripPrefix_eq_some_iff.mpr rfl
  unfold decodeEntity
  rw [hname, hdecimal]
  simp [stripPrefix]

/-- A reference has no semicolon, is short enough, and is decoded to its character. -/
theorem IsReference.decodes (h : IsReference c entity) :
    ';' ∉ entity ∧ byteLength entity ≤ 11 ∧ decodeEntity entity = some c := by
  cases h with
  | named h =>
    have hall : escapedCharacters.all (fun row => decide (';' ∉ row.1 ∧ byteLength row.1 ≤ 11 ∧
        decodeEntity row.1 = some row.2)) = true := by decide
    exact of_decide_eq_true (List.all_eq_true.mp hall _ h)
  | @decimal digits values hnonempty hdigits hvalue hlength =>
    obtain ⟨hbytes, hplain⟩ := digits_ascii (by decide) hdigits
    have hlt : value 10 values < 2 ^ 32 := hvalue ▸ toNat_lt c
    have hparsed := parseU32_digits (by decide) (by decide) hnonempty hdigits hlt
    have hnumber : Char.utf8Size '#' = 1 := by decide
    refine ⟨?_, ?_, ?_⟩
    · intro hmem
      rcases List.mem_cons.mp hmem with heq | hmem
      · cases heq
      · exact hplain _ hmem (by simp)
    · rw [byteLength_cons, hbytes, hnumber]
      omega
    · have hnone (x : Char) (hx : x ∈ [';', '+', 'x', 'X']) : stripPrefix [x] digits = none := by
        cases hstrip : stripPrefix [x] digits with
        | none => rfl
        | some rest =>
          have hsplit := stripPrefix_eq_some_iff.mp hstrip
          exact absurd hx (hplain x (hsplit ▸ List.mem_cons_self))
      rw [decodeEntity_numeric, hnone 'x' (by simp), hnone 'X' (by simp), hparsed, hvalue]
      exact charFromU32_toNat c
  | @hexadecimal x digits values hx hnonempty hdigits hvalue hlength =>
    obtain ⟨hbytes, hplain⟩ := digits_ascii (by decide) hdigits
    have hlt : value 16 values < 2 ^ 32 := hvalue ▸ toNat_lt c
    have hparsed := parseU32_digits (by decide) (by decide) hnonempty hdigits hlt
    have hsizes : Char.utf8Size '#' = 1 ∧ Char.utf8Size 'x' = 1 ∧ Char.utf8Size 'X' = 1 := by decide
    refine ⟨?_, ?_, ?_⟩
    · intro hmem
      rcases List.mem_cons.mp hmem with heq | hmem
      · cases heq
      · rcases List.mem_cons.mp hmem with heq | hmem
        · rcases hx with rfl | rfl <;> cases heq
        · exact hplain _ hmem (by simp)
    · rcases hx with rfl | rfl <;> simp only [byteLength_cons, hbytes, hsizes] <;> omega
    · have hstrip : (stripPrefix ['x'] (x :: digits)).or (stripPrefix ['X'] (x :: digits)) =
          some digits := by
        rcases hx with rfl | rfl <;> simp [stripPrefix]
      rw [decodeEntity_numeric, hstrip, Option.bind_some, hparsed, hvalue]
      exact charFromU32_toNat c

end References

/-! ## Decoding -/

theorem decodeFrom_of_round {decoded rest found next : List Char}
    (h : decodeRound rest = some (some (found, next))) :
    decodeFrom decoded rest = decodeFrom (decoded ++ found) next := by
  rw [decodeFrom]
  split
  · rename_i hround
    rw [h] at hround
    cases hround
  · rename_i hround
    rw [h] at hround
    cases hround
  · rename_i found' next' hround
    rw [h] at hround
    cases hround
    rfl

theorem decodeFrom_of_end {decoded rest : List Char} (h : decodeRound rest = some none) :
    decodeFrom decoded rest = some (decoded ++ rest) := by
  rw [decodeFrom]
  split
  · rename_i hround
    rw [h] at hround
    cases hround
  · rfl
  · rename_i found next hround
    rw [h] at hround
    cases hround

theorem Decodes.of_reference {c character : Char} {entity later next : List Char}
    (hentity : IsReference c entity) (h : Decodes (entity ++ ';' :: later) character next) :
    character = c ∧ next = later := by
  obtain ⟨hend, hlength, hdecoded⟩ := hentity.decodes
  generalize htext : entity ++ ';' :: later = text at h
  cases h with
  | @entity entity' later' _ hend' hlength' hdecoded' =>
    have hsame : entity = entity' := by
      rw [← takeWhile_ne hend later, htext, takeWhile_ne hend']
    subst hsame
    rw [hdecoded] at hdecoded'
    cases hdecoded'
    have hlater := List.append_cancel_left htext
    cases hlater
    exact ⟨rfl, rfl⟩
  | ampersand hnone =>
    rw [hnone entity later htext.symm hend hlength] at hdecoded
    cases hdecoded

/-- Text without an ampersand is taken along, and each reference is decoded. -/
theorem decodeFrom_escapes {special text escaped : List Char} (hspecial : '&' ∈ special)
    (h : Escapes special text escaped) (decoded before : List Char) (hbefore : '&' ∉ before) :
    decodeFrom decoded (before ++ escaped) = some (decoded ++ before ++ text) := by
  induction h generalizing decoded before with
  | nil =>
    rw [List.append_nil, List.append_nil]
    exact decodeFrom_of_end (decodeRound_plain hbefore)
  | @plain c text escaped hc _ ih =>
    have hampersand : '&' ∉ before ++ [c] := by
      intro hmem
      rcases List.mem_append.mp hmem with hmem | hmem
      · exact hbefore hmem
      · rw [← List.mem_singleton.mp hmem] at hc
        exact hc hspecial
    have hrest := ih decoded _ hampersand
    simpa using hrest
  | @reference c entity text escaped _ hentity _ ih =>
    obtain ⟨character, next, hdecodes, hround⟩ := decodeRound_eq hbefore (entity ++ ';' :: escaped)
    obtain ⟨rfl, rfl⟩ := Decodes.of_reference hentity hdecodes
    have hrest := ih (decoded ++ (before ++ [character])) [] List.not_mem_nil
    rw [decodeFrom_of_round hround]
    simpa using hrest

/-- The entity loop ends, and takes no slice that fails. -/
theorem decodeFrom_total (decoded rest : List Char) :
    ∃ text, decodeFrom decoded rest = some text := by
  induction hlength : byteLength rest using Nat.strong_induction_on generalizing decoded rest with
  | _ n ih =>
    subst hlength
    by_cases hmem : '&' ∈ rest
    · obtain ⟨before, after, rfl, hbefore⟩ := List.eq_append_cons_of_mem hmem
      obtain ⟨character, next, -, hround⟩ := decodeRound_eq hbefore after
      rw [decodeFrom_of_round hround]
      exact ih _ (decodeRound_shrinks hround) _ next rfl
    · exact ⟨_, decodeFrom_of_end (decodeRound_plain hmem)⟩

theorem cleanText_total (value : List Char) : ∃ text, cleanText value = some text := by
  obtain ⟨text, htext⟩ := decodeFrom_total [] value
  exact ⟨collapse text, by rw [cleanText, htext, Option.map_some]⟩

theorem cleanText_escapes {special text escaped : List Char} (hspecial : '&' ∈ special)
    (h : Escapes special text escaped) :
    cleanText escaped = some (collapse text) := by
  have hdecoded := decodeFrom_escapes hspecial h [] [] List.not_mem_nil
  rw [cleanText]
  simpa using congrArg (Option.map collapse) hdecoded

/-- Decoding undoes escaping once, whichever references were used, and it has a result for every
text. -/
theorem decoding_undoes_escaping :
    (∀ text escaped, Escapes (escapedCharacters.map Prod.snd) text escaped →
      cleanText escaped = some (collapse text)) ∧
    ∀ value, ∃ text, cleanText value = some text :=
  ⟨fun _ _ => cleanText_escapes (by decide), cleanText_total⟩

/-- A text that is an entity itself is escaped and read back as it was. -/
theorem escapedEntity_readBack : cleanText "&amp;lt;".toList = some "&lt;".toList := by
  have hampersand : IsReference '&' ['a', 'm', 'p'] := .named (by decide)
  have hescapes : Escapes (escapedCharacters.map Prod.snd) ['&', 'l', 't', ';']
      ['&', 'a', 'm', 'p', ';', 'l', 't', ';'] :=
    .reference (by decide) hampersand
      (.plain (by decide) (.plain (by decide) (.plain (by decide) .nil)))
  exact decoding_undoes_escaping.1 _ _ hescapes

end OpenMeet.EntityDecoding
