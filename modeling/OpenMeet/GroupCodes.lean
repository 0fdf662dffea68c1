import OpenMeet.ConversationApi
import OpenMeet.Numerals

/-!
Group codes. The server divides the sixteen bytes of a UUID by 62 in place, 22
times over; the database has a second derivation in NUMERIC arithmetic. Both
write the UUID in base 62, and looking a code up finds it as it was written.
-/
namespace OpenMeet.GroupCodes

open Text Messages ConversationApi Numerals

/-! ## The server's arithmetic -/

/-- One byte of the division, where none stands for a value that does not fit its type. -/
def divideByte (acc : UInt16 × List UInt8) (byte : UInt8) : Option (UInt16 × List UInt8) :=
  if acc.1.toNat * 256 + byte.toNat < UInt16.size then
    let value := acc.1 * 256 + byte.toUInt16
    if (value / 62).toNat < UInt8.size then
      some (value % 62, acc.2 ++ [(value / 62).toUInt8])
    else none
  else none

def divideBytes (remaining : List UInt8) : Option (UInt16 × List UInt8) :=
  remaining.foldlM divideByte (0, [])

/-- The characters that are left to write, the last one first; what remains of the number comes
with the code. -/
def writeCharacters : ℕ → List UInt8 → List Char → Option (List UInt8 × List Char)
  | 0, remaining, code => some (remaining, code)
  | n + 1, remaining, code =>
    (divideBytes remaining).bind fun divided =>
      writeCharacters n divided.2 (alphabet.getD divided.1.toNat '0' :: code)

def asBytes (id : Uuid) : List UInt8 := (uuidBytes id).map UInt8.ofNat

/-! ## The database's function -/

def encodeNumeric : ℕ → ℕ → List Char → List Char
  | 0, _, output => output
  | n + 1, number, output =>
    encodeNumeric n (number / 62) (alphabet.getD (number % 62) '0' :: output)

def uuidToBase62 (id : Uuid) : String :=
  let number := (asBytes id).foldl (fun number byte => number * 256 + byte.toNat) 0
  String.ofList (encodeNumeric 22 number [])

/-! ## The numeral -/

/-- The UUID, a big-endian integer, written in base 62 with 22 digits. -/
def base62Numeral (id : Uuid) : String :=
  String.ofList ((numeral 62 22 id.toNat).map fun digit => alphabet.getD digit '0')

theorem uuid_lt (id : Uuid) : id.toNat < 62 ^ 22 := by
  have h := id.isLt
  omega

theorem uuidBytes_eq (id : Uuid) : uuidBytes id = numeral 256 16 id.toNat := by
  rw [numeral_eq_map (by omega) 16 _ (by have h := id.isLt; omega)]
  rfl

theorem asBytes_toNat (id : Uuid) : (asBytes id).map UInt8.toNat = uuidBytes id := by
  rw [asBytes, List.map_map]
  conv_rhs => rw [← List.map_id (uuidBytes id)]
  apply List.map_congr_left
  intro byte hbyte
  rw [uuidBytes_eq] at hbyte
  have hlt : byte < 256 := lt_of_mem_numeral (by omega) hbyte
  exact UInt8.toNat_ofNat_of_lt hlt

theorem value_asBytes (id : Uuid) : value 256 ((asBytes id).map UInt8.toNat) = id.toNat := by
  rw [asBytes_toNat, uuidBytes_eq]
  exact value_numeral (by omega) 16 _ (by have h := id.isLt; omega)

/-! ## No value overflows -/

/-- With a remainder below 62, the sum fits 16 bits and the quotient a byte. -/
theorem divideByte_eq (acc : UInt16 × List UInt8) (byte : UInt8) (hacc : acc.1.toNat < 62) :
    ∃ divided, divideByte acc byte = some divided ∧
      (divided.1.toNat, divided.2.map UInt8.toNat) =
        divideDigit 256 62 (acc.1.toNat, acc.2.map UInt8.toNat) byte.toNat := by
  have hbyte := byte.toNat_lt
  have hvalue : (acc.1 * 256 + byte.toUInt16).toNat = acc.1.toNat * 256 + byte.toNat := by
    rw [UInt16.toNat_add, UInt16.toNat_mul, UInt8.toNat_toUInt16,
      show (256 : UInt16).toNat = 256 from rfl]
    omega
  have hquotient : ((acc.1 * 256 + byte.toUInt16) / 62).toNat =
      (acc.1.toNat * 256 + byte.toNat) / 62 := by
    rw [UInt16.toNat_div, hvalue]
    rfl
  refine ⟨((acc.1 * 256 + byte.toUInt16) % 62,
    acc.2 ++ [((acc.1 * 256 + byte.toUInt16) / 62).toUInt8]), ?_, ?_⟩
  · have hsum : acc.1.toNat * 256 + byte.toNat < UInt16.size := by
      have : UInt16.size = 65536 := rfl
      omega
    have hfits : ((acc.1 * 256 + byte.toUInt16) / 62).toNat < UInt8.size := by
      have : UInt8.size = 256 := rfl
      omega
    simp only [divideByte, if_pos hsum, if_pos hfits]
  · have hremainder : ((acc.1 * 256 + byte.toUInt16) % 62).toNat =
        (acc.1.toNat * 256 + byte.toNat) % 62 := by
      rw [UInt16.toNat_mod, hvalue]
      rfl
    have hlow : ((acc.1 * 256 + byte.toUInt16) / 62).toUInt8.toNat =
        (acc.1.toNat * 256 + byte.toNat) / 62 := by
      rw [UInt16.toNat_toUInt8, hquotient]
      omega
    simp only [divideDigit, List.map_append, List.map_singleton, hremainder, hlow]

/-- The division of the bytes is the long division of their values. -/
theorem foldlM_divideByte (bytes : List UInt8) (acc : UInt16 × List UInt8)
    (hacc : acc.1.toNat < 62) :
    ∃ divided, bytes.foldlM divideByte acc = some divided ∧
      (divided.1.toNat, divided.2.map UInt8.toNat) =
        (bytes.map UInt8.toNat).foldl (divideDigit 256 62)
          (acc.1.toNat, acc.2.map UInt8.toNat) := by
  induction bytes generalizing acc with
  | nil => exact ⟨acc, rfl, rfl⟩
  | cons byte rest ih =>
    obtain ⟨next, hnext, heq⟩ := divideByte_eq acc byte hacc
    have hlt : next.1.toNat < 62 := by
      rw [show next.1.toNat = (acc.1.toNat * 256 + byte.toNat) % 62 from congrArg Prod.fst heq]
      exact Nat.mod_lt _ (by omega)
    obtain ⟨divided, hdivided, hfold⟩ := ih next hlt
    refine ⟨divided, ?_, ?_⟩
    · rw [List.foldlM_cons, hnext]
      exact hdivided
    · rw [hfold, heq, List.map_cons, List.foldl_cons]

theorem divideBytes_eq (bytes : List UInt8) :
    ∃ divided, divideBytes bytes = some divided ∧
      (divided.1.toNat, divided.2.map UInt8.toNat) =
        longDivision 256 62 (bytes.map UInt8.toNat) :=
  foldlM_divideByte bytes (0, []) (by decide)

/-- Each round writes the remainder and leaves the quotient. -/
theorem writeCharacters_eq (n : ℕ) (bytes : List UInt8) (code : List Char) :
    ∃ remaining, writeCharacters n bytes code =
        some (remaining, (numeral 62 n (value 256 (bytes.map UInt8.toNat) % 62 ^ n)).map
          (fun digit => alphabet.getD digit '0') ++ code) ∧
      remaining.length = bytes.length ∧
      value 256 (remaining.map UInt8.toNat) = value 256 (bytes.map UInt8.toNat) / 62 ^ n := by
  induction n generalizing bytes code with
  | zero =>
    refine ⟨bytes, ?_, rfl, by simp⟩
    simp [writeCharacters, numeral, Nat.digitsAppend, Nat.mod_one]
  | succ n ih =>
    obtain ⟨divided, hdivided, heq⟩ := divideBytes_eq bytes
    have hremainder : divided.1.toNat = value 256 (bytes.map UInt8.toNat) % 62 := by
      rw [← longDivision_remainder (by omega), ← heq]
    have hquotient : value 256 (divided.2.map UInt8.toNat) =
        value 256 (bytes.map UInt8.toNat) / 62 := by
      rw [← value_quotient (by omega), ← heq]
    have hlength : divided.2.length = bytes.length := by
      have h : (longDivision 256 62 (bytes.map UInt8.toNat)).2.length = _ :=
        longDivision_length (bytes.map UInt8.toNat)
      rw [← heq, List.length_map, List.length_map] at h
      exact h
    obtain ⟨remaining, hwrite, hlen, hvalue⟩ :=
      ih divided.2 (alphabet.getD divided.1.toNat '0' :: code)
    generalize value 256 (bytes.map UInt8.toNat) = number at *
    refine ⟨remaining, ?_, hlen.trans hlength, ?_⟩
    · rw [writeCharacters, hdivided, Option.bind_some, hwrite, hquotient, hremainder,
        numeral_succ (by omega)]
      have hdiv : number % 62 ^ (n + 1) / 62 = number / 62 % 62 ^ n := by
        rw [Nat.pow_succ', Nat.mod_mul_right_div_self]
      have hmod : number % 62 ^ (n + 1) % 62 = number % 62 :=
        Nat.mod_mod_of_dvd _ (Dvd.intro_left (62 ^ n) (Nat.pow_succ ..).symm)
      rw [hdiv, hmod]
      simp
    · rw [hvalue, hquotient, Nat.div_div_eq_div_mul, ← Nat.pow_succ']

/-- The database writes the same digits. -/
theorem encodeNumeric_eq (n number : ℕ) (output : List Char) :
    encodeNumeric n number output =
      (numeral 62 n (number % 62 ^ n)).map (fun digit => alphabet.getD digit '0') ++ output := by
  induction n generalizing number output with
  | zero => simp [encodeNumeric, numeral, Nat.digitsAppend, Nat.mod_one]
  | succ n ih =>
    have hdiv : number % 62 ^ (n + 1) / 62 = number / 62 % 62 ^ n := by
      rw [Nat.pow_succ', Nat.mod_mul_right_div_self]
    have hmod : number % 62 ^ (n + 1) % 62 = number % 62 :=
      Nat.mod_mod_of_dvd _ (Dvd.intro_left (62 ^ n) (Nat.pow_succ ..).symm)
    rw [encodeNumeric, ih, numeral_succ (by omega), hdiv, hmod]
    simp

/-- The division by bytes and the earlier one by numbers write the same characters. -/
theorem groupCodeDigits_eq (n : ℕ) (remaining : List ℕ) (code : List Char) :
    groupCodeDigits n remaining code = encodeNumeric n (value 256 remaining) code := by
  induction n generalizing remaining code with
  | zero => rfl
  | succ n ih =>
    have hdivide : divideBy62 remaining = longDivision 256 62 remaining := rfl
    rw [groupCodeDigits, ih, encodeNumeric, hdivide, value_quotient (by omega),
      longDivision_remainder (by omega)]

theorem groupCodeFromUuid_eq (id : Uuid) : groupCodeFromUuid id = base62Numeral id := by
  rw [groupCodeFromUuid, groupCodeDigits_eq, encodeNumeric_eq, ← asBytes_toNat, value_asBytes,
    Nat.mod_eq_of_lt (uuid_lt id), List.append_nil]
  rfl

theorem uuidToBase62_eq (id : Uuid) : uuidToBase62 id = base62Numeral id := by
  have hnumber : (asBytes id).foldl (fun number byte => number * 256 + byte.toNat) 0 =
      id.toNat := by
    rw [← value_asBytes id, value, List.foldl_map]
  rw [uuidToBase62, hnumber, encodeNumeric_eq, Nat.mod_eq_of_lt (uuid_lt id), List.append_nil]
  rfl

/-- All 22 rounds fit their types, and nothing of the number is left. -/
theorem writeCharacters_uuid (id : Uuid) :
    writeCharacters 22 (asBytes id) [] =
      some (List.replicate 16 0, (base62Numeral id).toList) := by
  obtain ⟨remaining, hwrite, hlength, hvalue⟩ := writeCharacters_eq 22 (asBytes id) []
  rw [value_asBytes, Nat.div_eq_of_lt (uuid_lt id)] at hvalue
  rw [value_asBytes, Nat.mod_eq_of_lt (uuid_lt id), List.append_nil] at hwrite
  have hzeros : remaining.map UInt8.toNat = (List.replicate 16 (0 : UInt8)).map UInt8.toNat := by
    rw [eq_replicate_of_value (by omega) hvalue, List.length_map, hlength, List.map_replicate]
    rfl
  rw [hwrite, base62Numeral, String.toList_ofList,
    List.map_injective_iff.mpr (fun _ _ h => UInt8.toNat_inj.mp h) hzeros]

/-! ## Looking a code up -/

/-- A digit of a code is written by one character of the alphabet. -/
theorem alphabet_getD_mem {digit : ℕ} (h : digit < 62) : alphabet.getD digit '0' ∈ alphabet := by
  have hlength : alphabet.length = 62 := rfl
  rw [List.getD_eq_getElem?_getD, List.getElem?_eq_getElem (by omega)]
  exact List.getElem_mem _

theorem mem_base62Numeral {id : Uuid} {c : Char} (h : c ∈ (base62Numeral id).toList) :
    c ∈ alphabet := by
  rw [base62Numeral, String.toList_ofList] at h
  obtain ⟨digit, hdigit, rfl⟩ := List.mem_map.mp h
  exact alphabet_getD_mem (lt_of_mem_numeral (by omega) hdigit)

theorem alphabet_ascii : ∀ c ∈ alphabet,
    isWhitespace c = false ∧ (c.isUpper || c.isLower || c.isDigit) = true ∧ c.utf8Size = 1 := by
  have hall : alphabet.all fun c => isWhitespace c = false ∧
      (c.isUpper || c.isLower || c.isDigit) = true ∧ c.utf8Size = 1 := by
    decide +kernel
  intro c hc
  exact of_decide_eq_true (List.all_eq_true.mp hall c hc)

theorem base62Numeral_length (id : Uuid) : (base62Numeral id).toList.length = 22 := by
  rw [base62Numeral, String.toList_ofList, List.length_map,
    numeral_length (by omega) (uuid_lt id)]

/-- A string of one-byte characters has as many bytes as characters. -/
theorem utf8ByteSize_eq_length (text : List Char) (h : ∀ c ∈ text, c.utf8Size = 1) :
    (String.ofList text).utf8ByteSize = text.length := by
  induction text with
  | nil => rfl
  | cons c rest ih =>
    have hrest := ih fun d hd => h d (List.mem_cons_of_mem _ hd)
    rw [← List.singleton_append, String.ofList_append, String.utf8ByteSize_append, hrest,
      List.length_append]
    have hc : (String.ofList [c]).utf8ByteSize = 1 :=
      String.utf8ByteSize_singleton.trans (h c List.mem_cons_self)
    rw [hc, List.length_singleton]

/-- Trimming takes the whitespace around a text that neither begins nor ends with any. -/
theorem trim_surrounded {before text after : List Char} (hne : text ≠ [])
    (hbefore : ∀ c ∈ before, isWhitespace c = true) (hafter : ∀ c ∈ after, isWhitespace c = true)
    (htext : ∀ c ∈ text, isWhitespace c = false) :
    trim (String.ofList (before ++ text ++ after)) = String.ofList text := by
  have hdrop : ∀ (spaces rest : List Char), (∀ c ∈ spaces, isWhitespace c = true) →
      (∀ c ∈ rest.head?, isWhitespace c = false) →
      (spaces ++ rest).dropWhile isWhitespace = rest := by
    intro spaces rest hspaces hrest
    rw [List.dropWhile_append_of_pos hspaces]
    cases rest with
    | nil => rfl
    | cons c rest => exact List.dropWhile_cons_of_neg (by simp [hrest c rfl])
  have hhead : ∀ c ∈ (text ++ after).head?, isWhitespace c = false := by
    intro c hc
    rw [List.head?_append_of_ne_nil _ hne] at hc
    exact htext c (List.mem_of_mem_head? hc)
  have hlast : ∀ c ∈ text.reverse.head?, isWhitespace c = false := by
    intro c hc
    exact htext c (List.mem_reverse.mp (List.mem_of_mem_head? hc))
  rw [trim, String.toList_ofList, List.append_assoc, hdrop before _ hbefore hhead,
    List.reverse_append, hdrop after.reverse _
      (fun c hc => hafter c (List.mem_reverse.mp hc)) hlast,
    List.reverse_reverse]

theorem normalize_base62Numeral (id : Uuid) {before after : List Char}
    (hbefore : ∀ c ∈ before, isWhitespace c = true)
    (hafter : ∀ c ∈ after, isWhitespace c = true) :
    normalizeGroupCode (String.ofList before ++ base62Numeral id ++ String.ofList after) =
      some (base62Numeral id) := by
  have hlength := base62Numeral_length id
  have hne : (base62Numeral id).toList ≠ [] := by
    intro h
    rw [h] at hlength
    cases hlength
  have htrim : trim (String.ofList before ++ base62Numeral id ++ String.ofList after) =
      base62Numeral id := by
    have h := trim_surrounded hne hbefore hafter
      (fun c hc => (alphabet_ascii c (mem_base62Numeral hc)).1)
    rw [String.ofList_append, String.ofList_append, String.ofList_toList] at h
    exact h
  have hsize : (base62Numeral id).utf8ByteSize = 22 := by
    have h := utf8ByteSize_eq_length (base62Numeral id).toList
      (fun c hc => (alphabet_ascii c (mem_base62Numeral hc)).2.2)
    rw [String.ofList_toList, hlength] at h
    exact h
  have hall : (base62Numeral id).toList.all
      (fun c => c.isUpper || c.isLower || c.isDigit) = true :=
    List.all_eq_true.mpr fun c hc => (alphabet_ascii c (mem_base62Numeral hc)).2.1
  simp only [normalizeGroupCode, htrim]
  rw [if_pos ⟨hsize, hall⟩]

/-! ## Group codes -/

theorem idxOf_getD : ∀ digit < 62, alphabet.idxOf (alphabet.getD digit '0') = digit := by
  decide +kernel

theorem base62Numeral_injective {id other : Uuid} (h : base62Numeral id = base62Numeral other) :
    id = other := by
  have hread : ∀ digits : List ℕ, (∀ digit ∈ digits, digit < 62) →
      (digits.map fun digit => alphabet.getD digit '0').map alphabet.idxOf = digits := by
    intro digits hdigits
    rw [List.map_map]
    conv_rhs => rw [← List.map_id digits]
    apply List.map_congr_left
    intro digit hdigit
    exact idxOf_getD digit (hdigits digit hdigit)
  have hlists := congrArg String.toList h
  rw [base62Numeral, base62Numeral, String.toList_ofList, String.toList_ofList] at hlists
  have hdigits : numeral 62 22 id.toNat = numeral 62 22 other.toNat := by
    rw [← hread (numeral 62 22 id.toNat) (fun _ => lt_of_mem_numeral (by omega)), hlists,
      hread _ (fun _ => lt_of_mem_numeral (by omega))]
  exact BitVec.eq_of_toNat_eq (numeral_injective (by omega) (uuid_lt id) (uuid_lt other) hdigits)

/-- For every UUID, the 22 rounds of the server's division overflow nothing, leave nothing, and
write the 22-digit base-62 numeral, which the database's function writes too. Distinct UUIDs have
distinct codes, and a code with whitespace around it is looked up as it is. -/
theorem group_codes (id : Uuid) :
    writeCharacters 22 (asBytes id) [] =
        some (List.replicate 16 0, (groupCodeFromUuid id).toList) ∧
      groupCodeFromUuid id = base62Numeral id ∧
      uuidToBase62 id = groupCodeFromUuid id ∧
      (∀ other, groupCodeFromUuid other = groupCodeFromUuid id → other = id) ∧
      ∀ before after : List Char, (∀ c ∈ before, isWhitespace c = true) →
        (∀ c ∈ after, isWhitespace c = true) →
        normalizeGroupCode (String.ofList before ++ groupCodeFromUuid id ++ String.ofList after) =
          some (groupCodeFromUuid id) := by
  rw [groupCodeFromUuid_eq]
  refine ⟨writeCharacters_uuid id, rfl, uuidToBase62_eq id, ?_, ?_⟩
  · intro other h
    rw [groupCodeFromUuid_eq] at h
    exact base62Numeral_injective h
  · intro before after hbefore hafter
    exact normalize_base62Numeral id hbefore hafter

/-- The UUID of the repository's own test, in lines of text. -/
theorem group_codes_of_test :
    normalizeGroupCode (String.ofList ['\n', ' '] ++
        groupCodeFromUuid 0x418874e5a2f54b14a1772353e0e9061d#128 ++ String.ofList ['\t']) =
      some (groupCodeFromUuid 0x418874e5a2f54b14a1772353e0e9061d#128) :=
  (group_codes _).2.2.2.2 _ _ (List.all_eq_true.mp (by decide)) (List.all_eq_true.mp (by decide))

example : groupCodeFromUuid 0x418874e5a2f54b14a1772353e0e9061d#128 = "1zerRwRYnyht7gsK8shFaX" := by
  decide +kernel

end OpenMeet.GroupCodes
