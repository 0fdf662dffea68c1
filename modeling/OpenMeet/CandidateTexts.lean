import OpenMeet.CollapsedTexts

/-!
ICE candidates as text. A candidate is written as words with a space between
them and read back word by word. What has been read and is written again is read
as the same candidate, unless it stands for an address behind a server or relay
and came without one: its empty word is lost, and the text is refused.
-/
namespace OpenMeet.CandidateTexts

open Text HtmlScanner CollapsedTexts

/-- A text without whitespace that is not empty. -/
def IsWord (text : List Char) : Prop := text ≠ [] ∧ ∀ c ∈ text, isWhitespace c = false

instance (text : List Char) : Decidable (IsWord text) :=
  decidable_of_iff ((!text.isEmpty && text.all fun c => !isWhitespace c) = true)
    (by simp [IsWord])

/-! ## Numbers -/

def digits (n : ℕ) : List Char := Nat.toDigits 10 n

/-- Read an unsigned number below a bound, with or without a plus sign. -/
def parseUnsigned (bound : ℕ) (text : List Char) : Option ℕ :=
  let written := match text with
    | '+' :: rest => rest
    | _ => text
  if written.isEmpty || !written.all Char.isDigit then none
  else
    let value := Nat.ofDigitChars 10 written 0
    if value < bound then some value else none

def u16Bound : ℕ := 65536
def u32Bound : ℕ := 4294967296

/-! ## Candidates -/

inductive NetworkType
  | unspecified
  | udp4
  | udp6
  | tcp4
  | tcp6
  deriving DecidableEq, Repr

inductive TcpType
  | unspecified
  | active
  | passive
  | simultaneousOpen
  deriving DecidableEq, Repr

inductive CandidateType
  | unspecified
  | host
  | serverReflexive
  | peerReflexive
  | relay
  deriving DecidableEq, Repr

def udp : List Char := ['u', 'd', 'p']
def tcp : List Char := ['t', 'c', 'p']

namespace NetworkType

def networkShort : NetworkType → List Char
  | udp4 | udp6 => udp
  | tcp4 | tcp6 => tcp
  | unspecified => "Unspecified".toList

def text : NetworkType → List Char
  | udp4 => "udp4".toList
  | udp6 => "udp6".toList
  | tcp4 => "tcp4".toList
  | tcp6 => "tcp6".toList
  | unspecified => "unspecified".toList

def isTcp (network : NetworkType) : Bool := network = tcp4 || network = tcp6

end NetworkType

namespace TcpType

def text : TcpType → List Char
  | active => "active".toList
  | passive => "passive".toList
  | simultaneousOpen => "so".toList
  | unspecified => "unspecified".toList

def fromText (raw : List Char) : TcpType :=
  if raw = "active".toList then active
  else if raw = "passive".toList then passive
  else if raw = "so".toList then simultaneousOpen
  else unspecified

end TcpType

namespace CandidateType

def text : CandidateType → List Char
  | host => "host".toList
  | serverReflexive => "srflx".toList
  | peerReflexive => "prflx".toList
  | relay => "relay".toList
  | unspecified => "Unknown candidate type".toList

def preference : CandidateType → ℕ
  | host => 126
  | peerReflexive => 110
  | serverReflexive => 100
  | relay | unspecified => 0

end CandidateType

/-- Lower-casing, the addresses of the standard library and the checksum of a foundation. -/
structure Environment (Ip : Type) where
  lowercase : List Char → List Char
  parseIp : List Char → Option Ip
  isIpv4 : Ip → Bool
  unspecifiedIp : Ip
  checksum : List Char → ℕ

structure CandidateRelatedAddress where
  address : List Char
  port : ℕ
  deriving DecidableEq, Repr

structure CandidateBaseConfig where
  network : List Char
  address : List Char
  port : ℕ
  component : ℕ
  priority : ℕ
  foundation : List Char
  deriving DecidableEq, Repr

structure CandidateBase (Ip : Type) where
  networkType : NetworkType
  candidateType : CandidateType
  component : ℕ
  address : List Char
  port : ℕ
  relatedAddress : Option CandidateRelatedAddress
  tcpType : TcpType
  resolvedAddr : Ip × ℕ
  foundationOverride : List Char
  priorityOverride : ℕ
  deriving DecidableEq, Repr

inductive CandidateError
  | attributeTooShort (words : ℕ)
  | parseInt
  | parseIp
  | parseRelatedAddr
  | parseType
  | unknownCandidateType (typ : List Char)
  | addressParseFailed
  | determineNetworkType
  deriving DecidableEq, Repr

section Model

variable {Ip : Type} (env : Environment Ip)

def determineNetworkType (network : List Char) (ip : Ip) : Except CandidateError NetworkType :=
  let net := env.lowercase network
  if udp.isPrefixOf net then .ok (if env.isIpv4 ip then .udp4 else .udp6)
  else if tcp.isPrefixOf net then .ok (if env.isIpv4 ip then .tcp4 else .tcp6)
  else .error .determineNetworkType

def localSuffix : List Char := ".local".toList

/-- The network type and the address of a host. A name of the local network is not resolved and
keeps the first network type. -/
def hostAddress (network address : List Char) (port : ℕ) :
    Except CandidateError (NetworkType × Ip × ℕ) :=
  if localSuffix.isSuffixOf address then .ok (.udp4, env.unspecifiedIp, 0)
  else
    match env.parseIp address with
    | none => .error .parseIp
    | some ip =>
      match determineNetworkType env network ip with
      | .error e => .error e
      | .ok networkType => .ok (networkType, ip, port)

def newCandidateHost (config : CandidateBaseConfig) (tcpType : TcpType) :
    Except CandidateError (CandidateBase Ip) :=
  match hostAddress env config.network config.address config.port with
  | .error e => .error e
  | .ok (networkType, resolvedAddr) =>
    .ok { networkType := networkType
          candidateType := .host
          component := config.component
          address := config.address
          port := config.port
          relatedAddress := none
          tcpType := tcpType
          resolvedAddr := resolvedAddr
          foundationOverride := config.foundation
          priorityOverride := config.priority }

/-- The candidates that stand for an address elsewhere, with the one they are related to. -/
def newRelated (candidateType : CandidateType) (config : CandidateBaseConfig)
    (relAddr : List Char) (relPort : ℕ) : Except CandidateError (CandidateBase Ip) :=
  match env.parseIp config.address with
  | none => .error .addressParseFailed
  | some ip =>
    match determineNetworkType env config.network ip with
    | .error e => .error e
    | .ok network =>
      .ok { networkType := network
            candidateType := candidateType
            component := config.component
            address := config.address
            port := config.port
            relatedAddress := some { address := relAddr, port := relPort }
            tcpType := .unspecified
            resolvedAddr := (ip, config.port)
            foundationOverride := config.foundation
            priorityOverride := config.priority }

def newCandidateServerReflexive := newRelated env .serverReflexive
def newCandidatePeerReflexive := newRelated env .peerReflexive
def newCandidateRelay := newRelated env .relay

/-- What the words of a candidate say. -/
structure Fields where
  config : CandidateBaseConfig
  typ : List Char
  relAddr : List Char
  relPort : ℕ
  tcpType : TcpType
  deriving DecidableEq, Repr

/-- What may come after the eighth word. -/
def readExtension : List (List Char) → Except CandidateError (List Char × ℕ × TcpType)
  | [] => .ok ([], 0, .unspecified)
  | key :: rest =>
    if key = "raddr".toList then
      match rest with
      | address :: _ :: port :: _ =>
        match parseUnsigned u16Bound port with
        | none => .error .parseInt
        | some relPort => .ok (address, relPort, .unspecified)
      | _ => .error .parseRelatedAddr
    else if key = "tcptype".toList then
      match rest with
      | typ :: _ => .ok ([], 0, TcpType.fromText typ)
      | [] => .error .parseType
    else .ok ([], 0, .unspecified)

def readFields (split : List (List Char)) : Except CandidateError Fields :=
  match split with
  | foundation :: component :: network :: priority :: address :: port :: _ :: typ :: rest =>
    match parseUnsigned u16Bound component, parseUnsigned u32Bound priority,
        parseUnsigned u16Bound port with
    | some component, some priority, some port =>
      match readExtension rest with
      | .error e => .error e
      | .ok (relAddr, relPort, tcpType) =>
        .ok { config := { network, address, port, component, priority, foundation }
              typ, relAddr, relPort, tcpType }
    | _, _, _ => .error .parseInt
  | _ => .error (.attributeTooShort split.length)

def build (f : Fields) : Except CandidateError (CandidateBase Ip) :=
  if f.typ = "host".toList then newCandidateHost env f.config f.tcpType
  else if f.typ = "srflx".toList then
    newCandidateServerReflexive env f.config f.relAddr f.relPort
  else if f.typ = "prflx".toList then newCandidatePeerReflexive env f.config f.relAddr f.relPort
  else if f.typ = "relay".toList then newCandidateRelay env f.config f.relAddr f.relPort
  else .error (.unknownCandidateType f.typ)

/-- Creates a candidate from its text. -/
def unmarshalCandidate (raw : List Char) : Except CandidateError (CandidateBase Ip) :=
  match readFields (splitWhitespace raw) with
  | .error e => .error e
  | .ok f => build env f

def directionPref (candidateType : CandidateType) (tcpType : TcpType) : ℕ :=
  match candidateType, tcpType with
  | .unspecified, _ | _, .unspecified => 0
  | .host, .active | .relay, .active => 6
  | .host, .passive | .relay, .passive => 4
  | .host, .simultaneousOpen | .relay, .simultaneousOpen => 2
  | .peerReflexive, .simultaneousOpen | .serverReflexive, .simultaneousOpen => 6
  | .peerReflexive, .active | .serverReflexive, .active => 4
  | .peerReflexive, .passive | .serverReflexive, .passive => 2

def defaultLocalPreference : ℕ := 65535

namespace CandidateBase

variable {Ip : Type}

def localPreference (c : CandidateBase Ip) : ℕ :=
  if c.networkType.isTcp then 8192 * directionPref c.candidateType c.tcpType + 8191
  else defaultLocalPreference

/-- The priority that was given, or else computed in 32 bits that wrap around. -/
def priority (c : CandidateBase Ip) : ℕ :=
  if c.priorityOverride ≠ 0 then c.priorityOverride
  else
    (16777216 * c.candidateType.preference + 256 * c.localPreference +
      (u32Bound + 256 - c.component)) % u32Bound

def foundation (env : Environment Ip) (c : CandidateBase Ip) : List Char :=
  if c.foundationOverride ≠ [] then c.foundationOverride
  else digits (env.checksum (c.candidateType.text ++ c.address ++ c.networkType.text))

def firstWords (env : Environment Ip) (c : CandidateBase Ip) : List (List Char) :=
  [c.foundation env, digits c.component, c.networkType.networkShort, digits c.priority,
    c.address, digits c.port, "typ".toList, c.candidateType.text]

/-- The words a candidate is written with. -/
def words (env : Environment Ip) (c : CandidateBase Ip) : List (List Char) :=
  c.firstWords env ++
  (if c.tcpType ≠ .unspecified then ["tcptype".toList, c.tcpType.text] else []) ++
  (match c.relatedAddress with
    | some related => ["raddr".toList, related.address, "rport".toList, digits related.port]
    | none => [])

def marshal (env : Environment Ip) (c : CandidateBase Ip) : List Char :=
  [' '].intercalate (c.words env)

/-- Used to compare two candidates. -/
def equal (c other : CandidateBase Ip) : Bool :=
  c.networkType = other.networkType && c.candidateType = other.candidateType &&
    c.address = other.address && c.port = other.port && c.tcpType = other.tcpType &&
    c.relatedAddress = other.relatedAddress

end CandidateBase

end Model

/-! ## Words -/

section Words

variable {word text : List Char} {n bound : ℕ}

theorem splitWhitespace_word (hword : IsWord word) : splitWhitespace word = [word] := by
  obtain ⟨hne, hplain⟩ := hword
  have hsplit : word.splitOnP isWhitespace = [word] :=
    List.splitOnP_eq_singleton hplain
  unfold splitWhitespace
  rw [hsplit, List.filter_cons_of_pos (by simpa using hne), List.filter_nil]

/-- The text up to a space is a word, if there is any. -/
theorem splitWhitespace_append (hplain : ∀ c ∈ word, isWhitespace c = false) (rest : List Char) :
    splitWhitespace (word ++ ' ' :: rest) =
      (if word = [] then [] else [word]) ++ splitWhitespace rest := by
  have hsplit : (word ++ ' ' :: rest).splitOnP isWhitespace =
      word :: rest.splitOnP isWhitespace :=
    List.splitOnP_append_cons_of_forall_mem hplain ' ' (by decide) rest
  unfold splitWhitespace
  rw [hsplit]
  split
  · rename_i hnil
    subst hnil
    rfl
  · rename_i hne
    rw [List.filter_cons_of_pos (by simpa using hne)]
    rfl

/-- Texts without whitespace that are joined by spaces are read back, the empty ones apart. -/
theorem splitWhitespace_intercalate {words : List (List Char)}
    (hplain : ∀ word ∈ words, ∀ c ∈ word, isWhitespace c = false) :
    splitWhitespace ([' '].intercalate words) = words.filter fun word => !word.isEmpty := by
  induction words with
  | nil => rfl
  | cons word rest ih =>
    have hword := hplain word List.mem_cons_self
    have hrest := ih fun w hw => hplain w (List.mem_cons_of_mem _ hw)
    have hhead : (if word = [] then [] else [word]) ++ rest.filter (fun word => !word.isEmpty) =
        (word :: rest).filter fun word => !word.isEmpty := by
      cases word with
      | nil => rfl
      | cons c word => rfl
    cases rest with
    | nil =>
      rw [List.intercalate_singleton, ← hhead]
      by_cases hnil : word = []
      · subst hnil
        rfl
      · rw [splitWhitespace_word ⟨hnil, hword⟩, if_neg hnil]
        rfl
    | cons next rest =>
      rw [List.intercalate_cons_of_ne_nil (List.cons_ne_nil _ _), List.append_assoc,
        List.singleton_append, splitWhitespace_append hword, hrest, hhead]

theorem plain_of_mem_splitOnP (h : word ∈ text.splitOnP isWhitespace) :
    ∀ c ∈ word, isWhitespace c = false := by
  induction text generalizing word with
  | nil =>
    obtain rfl : word = [] := by simpa [List.splitOnP_nil] using h
    simp
  | cons d rest ih =>
    rw [List.splitOnP_cons_eq_if_modifyHead] at h
    by_cases hd : isWhitespace d = true
    · rw [if_pos hd, List.mem_cons] at h
      rcases h with rfl | h
      · simp
      · exact ih h
    · rw [if_neg hd] at h
      obtain ⟨first, others, hsplit⟩ :=
        List.exists_cons_of_ne_nil (List.splitOnP_ne_nil isWhitespace rest)
      rw [hsplit, List.modifyHead_cons, List.mem_cons] at h
      rcases h with rfl | h
      · intro c hc
        rcases List.mem_cons.mp hc with rfl | hc
        · exact Bool.not_eq_true _ ▸ hd
        · exact ih (hsplit ▸ List.mem_cons_self) c hc
      · exact ih (hsplit ▸ List.mem_cons_of_mem _ h)

theorem mem_splitWhitespace (h : word ∈ splitWhitespace text) : IsWord word := by
  obtain ⟨hmem, hne⟩ := List.mem_filter.mp h
  refine ⟨by simpa using hne, ?_⟩
  intro c hc
  exact plain_of_mem_splitOnP hmem c hc

theorem isWhitespace_of_isDigit {c : Char} (h : c.isDigit = true) : isWhitespace c = false := by
  have hrange : 48 ≤ c.toNat ∧ c.toNat ≤ 57 := by
    unfold Char.isDigit at h
    rw [Bool.and_eq_true, decide_eq_true_eq, decide_eq_true_eq] at h
    exact ⟨UInt32.le_iff_toNat_le.mp h.1, UInt32.le_iff_toNat_le.mp h.2⟩
  unfold isWhitespace
  simp only [Bool.or_eq_false_iff, Bool.and_eq_false_iff, decide_eq_false_iff_not,
    beq_eq_false_iff_ne]
  omega

theorem isWord_digits (n : ℕ) : IsWord (digits n) := by
  refine ⟨Nat.toDigits_ne_nil, ?_⟩
  intro c hc
  have hdigit : c.isDigit = true := Nat.isDigit_of_mem_toDigits (by omega) (by omega) hc
  exact isWhitespace_of_isDigit hdigit

/-- A number that is written and read again is the same. -/
theorem parseUnsigned_digits (h : n < bound) : parseUnsigned bound (digits n) = some n := by
  have hne : digits n ≠ [] := Nat.toDigits_ne_nil
  have hdigits : ∀ c ∈ digits n, c.isDigit = true := fun c hc =>
    Nat.isDigit_of_mem_toDigits (by omega) (by omega) hc
  have hplus : ∀ rest, digits n ≠ '+' :: rest := by
    intro rest heq
    have hsign := hdigits '+' (by rw [heq]; exact List.mem_cons_self)
    exact absurd hsign (by decide)
  unfold parseUnsigned
  split
  · rename_i rest heq
    exact absurd heq (hplus rest)
  · have hall : (digits n).all Char.isDigit = true := List.all_eq_true.mpr hdigits
    have hempty : (digits n).isEmpty = false := by simpa using hne
    have hvalue : Nat.ofDigitChars 10 (digits n) 0 = n := Nat.ofDigitChars_ten_toDigits
    simp [hall, hempty, hvalue, h]

theorem lt_of_parseUnsigned (h : parseUnsigned bound text = some n) : n < bound := by
  simp only [parseUnsigned, Option.ite_none_left_eq_some, Option.ite_none_right_eq_some,
    Option.some.injEq] at h
  obtain ⟨-, hlt, rfl⟩ := h
  exact hlt

end Words

/-! ## What is read -/

/-- What the words of a text can say. -/
structure Fields.Sound (f : Fields) : Prop where
  foundation : IsWord f.config.foundation
  address : IsWord f.config.address
  component : f.config.component < u16Bound
  priority : f.config.priority < u32Bound
  port : f.config.port < u16Bound
  relAddr : f.relAddr = [] ∨ IsWord f.relAddr
  relPort : f.relPort < u16Bound

theorem readExtension_ok {rest : List (List Char)} {relAddr : List Char} {relPort : ℕ}
    {tcpType : TcpType} (hwords : ∀ word ∈ rest, IsWord word)
    (h : readExtension rest = .ok (relAddr, relPort, tcpType)) :
    (relAddr = [] ∨ IsWord relAddr) ∧ relPort < u16Bound := by
  unfold readExtension at h
  split at h
  · cases h
    exact ⟨.inl rfl, by decide⟩
  · rename_i key rest
    split at h
    · split at h
      · rename_i address _ port _
        split at h
        · cases h
        · rename_i hport
          cases h
          exact ⟨.inr (hwords _ (by simp)), lt_of_parseUnsigned hport⟩
      · cases h
    · split at h
      · split at h
        · cases h
          exact ⟨.inl rfl, by decide⟩
        · cases h
      · cases h
        exact ⟨.inl rfl, by decide⟩

theorem readFields_ok {split : List (List Char)} {f : Fields}
    (hwords : ∀ word ∈ split, IsWord word) (h : readFields split = .ok f) : f.Sound := by
  unfold readFields at h
  split at h
  · rename_i foundation component network priority address port _ typ rest
    split at h
    · rename_i hcomponent hpriority hport
      split at h
      · cases h
      · rename_i hextension
        obtain ⟨hrelAddr, hrelPort⟩ :=
          readExtension_ok (fun word hword => hwords word (by simp [hword])) hextension
        cases h
        exact {
          foundation := hwords _ (by simp)
          address := hwords _ (by simp)
          component := lt_of_parseUnsigned hcomponent
          priority := lt_of_parseUnsigned hpriority
          port := lt_of_parseUnsigned hport
          relAddr := hrelAddr
          relPort := hrelPort
        }
    · cases h
  · cases h

section Read

variable {Ip : Type} {env : Environment Ip} {f : Fields} {c : CandidateBase Ip}

/-- A candidate that has been read: a host without related address, or one of the others with
one, which may be empty. -/
structure CandidateBase.IsRead (c : CandidateBase Ip) : Prop where
  foundation : IsWord c.foundationOverride
  address : IsWord c.address
  component : c.component < u16Bound
  priority : c.priorityOverride < u32Bound
  port : c.port < u16Bound
  related : (c.candidateType = .host ∧ c.relatedAddress = none) ∨
    c.candidateType ≠ .host ∧ c.tcpType = .unspecified ∧
      ∃ related, c.relatedAddress = some related ∧
        (related.address = [] ∨ IsWord related.address) ∧ related.port < u16Bound
  typ : c.candidateType ≠ .unspecified

theorem newRelated_isRead {candidateType : CandidateType}
    (htype : candidateType ≠ .host ∧ candidateType ≠ .unspecified) (hf : f.Sound)
    (h : newRelated env candidateType f.config f.relAddr f.relPort = .ok c) : c.IsRead := by
  unfold newRelated at h
  split at h
  · cases h
  · split at h <;> cases h
    exact ⟨hf.foundation, hf.address, hf.component, hf.priority, hf.port,
      .inr ⟨htype.1, rfl, _, rfl, hf.relAddr, hf.relPort⟩, htype.2⟩

theorem newCandidateHost_isRead (hf : f.Sound)
    (h : newCandidateHost env f.config f.tcpType = .ok c) : c.IsRead := by
  unfold newCandidateHost at h
  split at h <;> cases h
  exact ⟨hf.foundation, hf.address, hf.component, hf.priority, hf.port, .inl ⟨rfl, rfl⟩, by simp⟩

theorem build_isRead (hf : f.Sound) (h : build env f = .ok c) : c.IsRead := by
  unfold build at h
  split at h
  · exact newCandidateHost_isRead hf h
  · split at h
    · exact newRelated_isRead (by decide) hf h
    · split at h
      · exact newRelated_isRead (by decide) hf h
      · split at h
        · exact newRelated_isRead (by decide) hf h
        · cases h

/-! ## What is written -/

theorem IsWord.networkShort (network : NetworkType) : IsWord network.networkShort := by
  cases network <;> decide

/-- The fields a candidate is written with. -/
def fieldsOf (env : Environment Ip) (c : CandidateBase Ip) : Fields where
  config :=
    { network := c.networkType.networkShort
      address := c.address
      port := c.port
      component := c.component
      priority := c.priority
      foundation := c.foundation env }
  typ := c.candidateType.text
  relAddr := (c.relatedAddress.map (·.address)).getD []
  relPort := (c.relatedAddress.map (·.port)).getD 0
  tcpType := c.tcpType

theorem foundation_of_isRead (hc : c.IsRead) : c.foundation env = c.foundationOverride := by
  unfold CandidateBase.foundation
  rw [if_pos hc.foundation.1]

theorem priority_lt (hc : c.IsRead) : c.priority < u32Bound := by
  unfold CandidateBase.priority
  split
  · exact hc.priority
  · exact Nat.mod_lt _ (by decide)

/-- The first eight words of a candidate that has been read. -/
theorem isWord_first (hc : c.IsRead) : ∀ word ∈ c.firstWords env, IsWord word := by
  have htype : c.candidateType ≠ .unspecified → IsWord c.candidateType.text := by
    cases c.candidateType <;> decide
  have hfoundation : IsWord (c.foundation env) := foundation_of_isRead hc ▸ hc.foundation
  have htyp : IsWord "typ".toList := by decide
  simp only [CandidateBase.firstWords, List.mem_cons, List.not_mem_nil, or_false,
    forall_eq_or_imp, forall_eq]
  exact ⟨hfoundation, isWord_digits _, IsWord.networkShort _, isWord_digits _, hc.address,
    isWord_digits _, htyp, htype hc.typ⟩

theorem splitWhitespace_words {words : List (List Char)} (h : ∀ word ∈ words, IsWord word) :
    splitWhitespace ([' '].intercalate words) = words := by
  rw [splitWhitespace_intercalate fun word hword => (h word hword).2, List.filter_eq_self]
  intro word hword
  simpa using (h word hword).1

/-- The first eight words are read back, and what follows them decides. -/
theorem readFields_first (hc : c.IsRead) (extension : List (List Char)) :
    readFields (c.firstWords env ++ extension) =
      match readExtension extension with
      | .error e => .error e
      | .ok (relAddr, relPort, tcpType) =>
        .ok { fieldsOf env c with relAddr := relAddr, relPort := relPort, tcpType := tcpType } := by
  simp only [CandidateBase.firstWords, List.cons_append, List.nil_append, readFields,
    parseUnsigned_digits hc.component, parseUnsigned_digits (priority_lt hc),
    parseUnsigned_digits hc.port]
  rfl

/-- A host candidate is read with its type of TCP connection. -/
theorem read_host (hc : c.IsRead) (hnone : c.relatedAddress = none) :
    readFields (splitWhitespace (c.marshal env)) = .ok (fieldsOf env c) := by
  by_cases htcp : c.tcpType = .unspecified
  · have hwords : c.words env = c.firstWords env ++ [] := by
      simp [CandidateBase.words, htcp, hnone]
    rw [CandidateBase.marshal, hwords, splitWhitespace_words (by simpa using isWord_first hc),
      readFields_first hc]
    simp only [readExtension]
    congr 1
    simp [fieldsOf, hnone, htcp]
  · have hwords : c.words env = c.firstWords env ++ ["tcptype".toList, c.tcpType.text] := by
      simp [CandidateBase.words, htcp, hnone]
    have hextension : ∀ word ∈ ["tcptype".toList, c.tcpType.text], IsWord word := by
      cases c.tcpType <;> decide
    rw [CandidateBase.marshal, hwords, splitWhitespace_words ?_, readFields_first hc]
    · have hread : readExtension ["tcptype".toList, c.tcpType.text] =
          .ok ([], 0, c.tcpType) := by
        cases c.tcpType <;> decide
      rw [hread]
      simp [fieldsOf, hnone]
    · intro word hword
      rcases List.mem_append.mp hword with hfirst | hlast
      · exact isWord_first hc word hfirst
      · exact hextension word hlast

/-- The other candidates are read with the address they are related to. -/
theorem read_related (hc : c.IsRead) (htcp : c.tcpType = .unspecified)
    {related : CandidateRelatedAddress} (hrelated : c.relatedAddress = some related)
    (hword : IsWord related.address) (hport : related.port < u16Bound) :
    readFields (splitWhitespace (c.marshal env)) = .ok (fieldsOf env c) := by
  have hwords : c.words env = c.firstWords env ++
      ["raddr".toList, related.address, "rport".toList, digits related.port] := by
    simp [CandidateBase.words, htcp, hrelated]
  have hraddr : IsWord "raddr".toList := by decide
  have hrport : IsWord "rport".toList := by decide
  rw [CandidateBase.marshal, hwords, splitWhitespace_words ?_, readFields_first hc]
  · have hread : readExtension ["raddr".toList, related.address, "rport".toList,
        digits related.port] = .ok (related.address, related.port, .unspecified) := by
      simp only [readExtension, if_true, parseUnsigned_digits hport]
    rw [hread]
    simp [fieldsOf, hrelated, htcp]
  · intro word hmem
    rcases List.mem_append.mp hmem with hfirst | hlast
    · exact isWord_first hc word hfirst
    · simp only [List.mem_cons, List.not_mem_nil, or_false] at hlast
      rcases hlast with rfl | rfl | rfl | rfl
      · exact hraddr
      · exact hword
      · exact hrport
      · exact isWord_digits _

/-- Without one, the empty word is lost and the rest is too short. -/
theorem read_unrelated (hc : c.IsRead) (htcp : c.tcpType = .unspecified)
    {related : CandidateRelatedAddress} (hrelated : c.relatedAddress = some related)
    (hempty : related.address = []) :
    readFields (splitWhitespace (c.marshal env)) = .error .parseRelatedAddr := by
  have hwords : c.words env = c.firstWords env ++
      ["raddr".toList, [], "rport".toList, digits related.port] := by
    simp [CandidateBase.words, htcp, hrelated, hempty]
  have hplain : ∀ word ∈ ["raddr".toList, [], "rport".toList, digits related.port],
      ∀ c ∈ word, isWhitespace c = false := by
    have hraddr : IsWord "raddr".toList := by decide
    have hrport : IsWord "rport".toList := by decide
    simp only [List.mem_cons, List.not_mem_nil, or_false, forall_eq_or_imp, forall_eq]
    exact ⟨hraddr.2, by simp, hrport.2, (isWord_digits _).2⟩
  have hfirst : (c.firstWords env).filter (fun word => !word.isEmpty) = c.firstWords env := by
    apply List.filter_eq_self.mpr
    intro word hword
    simpa using (isWord_first hc word hword).1
  have hlast : List.filter (fun word => !word.isEmpty)
      ["raddr".toList, [], "rport".toList, digits related.port] =
      ["raddr".toList, "rport".toList, digits related.port] := by
    have hdigits : (digits related.port).isEmpty = false := by
      simpa using (isWord_digits related.port).1
    simp [hdigits]
  rw [CandidateBase.marshal, hwords, splitWhitespace_intercalate ?_, List.filter_append, hfirst,
    hlast, readFields_first hc]
  · simp only [readExtension, if_true]
  · intro word hmem
    rcases List.mem_append.mp hmem with hfirst | hlast
    · exact (isWord_first hc word hfirst).2
    · exact hplain word hlast

/-! ## Reading again -/

/-- The candidate that reading the written text makes. -/
def rewritten (env : Environment Ip) (c : CandidateBase Ip) : CandidateBase Ip :=
  { c with foundationOverride := c.foundation env, priorityOverride := c.priority }

/-- Alike for everything that is asked of a candidate. -/
structure SameCandidate (env : Environment Ip) (c other : CandidateBase Ip) : Prop where
  equal : c.equal other = true
  foundation : other.foundation env = c.foundation env
  component : other.component = c.component
  priority : other.priority = c.priority
  resolvedAddr : other.resolvedAddr = c.resolvedAddr

theorem priority_rewritten (env : Environment Ip) (c : CandidateBase Ip) :
    (rewritten env c).priority = c.priority := by
  by_cases hzero : c.priority = 0
  · -- nothing was given, and what is computed is computed again
    have hnone : c.priorityOverride = 0 := by
      by_contra hgiven
      unfold CandidateBase.priority at hzero
      rw [if_pos hgiven] at hzero
      exact hgiven hzero
    have hsame : (rewritten env c).priorityOverride = c.priorityOverride := by
      rw [hnone]
      exact hzero
    simp only [CandidateBase.priority, hsame]
    rfl
  · exact if_pos hzero

theorem sameCandidate_rewritten (hc : c.IsRead) : SameCandidate env c (rewritten env c) where
  equal := by simp [CandidateBase.equal, rewritten]
  foundation := by
    have hne : c.foundation env ≠ [] := foundation_of_isRead hc ▸ hc.foundation.1
    exact if_pos hne
  component := rfl
  priority := priority_rewritten env c
  resolvedAddr := rfl

/-- The short name of a network type determines it again. -/
theorem determineNetworkType_short (hudp : env.lowercase udp = udp) (htcp : env.lowercase tcp = tcp)
    {network : List Char} {ip : Ip} {found : NetworkType}
    (h : determineNetworkType env network ip = .ok found) :
    determineNetworkType env found.networkShort ip = .ok found := by
  have hprefix : udp.isPrefixOf udp = true ∧ udp.isPrefixOf tcp = false ∧
      tcp.isPrefixOf tcp = true := by decide
  unfold determineNetworkType at h
  dsimp only at h
  split at h
  · cases hip : env.isIpv4 ip with
    | true =>
      rw [hip, if_pos rfl] at h
      cases h
      show determineNetworkType env udp ip = _
      rw [determineNetworkType, hudp, if_pos hprefix.1, hip, if_pos rfl]
    | false =>
      rw [hip, if_neg Bool.false_ne_true] at h
      cases h
      show determineNetworkType env udp ip = _
      rw [determineNetworkType, hudp, if_pos hprefix.1, hip, if_neg Bool.false_ne_true]
  · split at h
    · cases hip : env.isIpv4 ip with
      | true =>
        rw [hip, if_pos rfl] at h
        cases h
        show determineNetworkType env tcp ip = _
        rw [determineNetworkType, htcp, hprefix.2.1, if_neg Bool.false_ne_true,
          if_pos hprefix.2.2, hip, if_pos rfl]
      | false =>
        rw [hip, if_neg Bool.false_ne_true] at h
        cases h
        show determineNetworkType env tcp ip = _
        rw [determineNetworkType, htcp, hprefix.2.1, if_neg Bool.false_ne_true,
          if_pos hprefix.2.2, hip, if_neg Bool.false_ne_true]
    · cases h

theorem hostAddress_short (hudp : env.lowercase udp = udp) (htcp : env.lowercase tcp = tcp)
    {network address : List Char} {port : ℕ} {found : NetworkType} {addr : Ip × ℕ}
    (h : hostAddress env network address port = .ok (found, addr)) :
    hostAddress env found.networkShort address port = .ok (found, addr) := by
  unfold hostAddress at h ⊢
  by_cases hlocal : localSuffix.isSuffixOf address = true
  · rw [if_pos hlocal] at h ⊢
    cases h
    rfl
  · rw [if_neg hlocal] at h ⊢
    split at h
    · cases h
    · split at h
      · cases h
      · rename_i hfound
        cases h
        rw [determineNetworkType_short hudp htcp hfound]

theorem newCandidateHost_again {config : CandidateBaseConfig} {tcpType : TcpType}
    (hudp : env.lowercase udp = udp) (htcp : env.lowercase tcp = tcp)
    (h : newCandidateHost env config tcpType = .ok c) :
    c.candidateType = .host ∧
      newCandidateHost env (fieldsOf env c).config c.tcpType = .ok (rewritten env c) := by
  unfold newCandidateHost at h
  split at h
  · cases h
  · rename_i found addr hfound
    cases h
    refine ⟨rfl, ?_⟩
    have hagain := hostAddress_short hudp htcp hfound
    unfold newCandidateHost
    dsimp only [fieldsOf]
    rw [hagain]
    rfl

theorem newRelated_again {config : CandidateBaseConfig} {candidateType : CandidateType}
    {relAddr : List Char} {relPort : ℕ}
    (hudp : env.lowercase udp = udp) (htcp : env.lowercase tcp = tcp)
    (h : newRelated env candidateType config relAddr relPort = .ok c) :
    c.candidateType = candidateType ∧
      newRelated env candidateType (fieldsOf env c).config (fieldsOf env c).relAddr
        (fieldsOf env c).relPort = .ok (rewritten env c) := by
  unfold newRelated at h
  split at h
  · cases h
  · rename_i ip hip
    split at h
    · cases h
    · rename_i found hfound
      cases h
      refine ⟨rfl, ?_⟩
      have hagain := determineNetworkType_short hudp htcp hfound
      unfold newRelated
      dsimp only [fieldsOf]
      rw [hip]
      dsimp only
      rw [hagain]
      rfl

theorem build_fieldsOf (hudp : env.lowercase udp = udp) (htcp : env.lowercase tcp = tcp)
    (h : build env f = .ok c) : build env (fieldsOf env c) = .ok (rewritten env c) := by
  have htexts : "srflx".toList ≠ "host".toList ∧ "prflx".toList ≠ "host".toList ∧
      "prflx".toList ≠ "srflx".toList ∧ "relay".toList ≠ "host".toList ∧
      "relay".toList ≠ "srflx".toList ∧ "relay".toList ≠ "prflx".toList := by decide
  obtain ⟨hsh, hph, hps, hrh, hrs, hrp⟩ := htexts
  unfold build at h
  split at h
  · obtain ⟨htype, hagain⟩ := newCandidateHost_again hudp htcp h
    have htyp : (fieldsOf env c).typ = "host".toList := congrArg CandidateType.text htype
    rw [build, htyp, if_pos rfl]
    exact hagain
  · split at h
    · obtain ⟨htype, hagain⟩ := newRelated_again hudp htcp h
      have htyp : (fieldsOf env c).typ = "srflx".toList := congrArg CandidateType.text htype
      rw [build, htyp, if_neg hsh, if_pos rfl]
      exact hagain
    · split at h
      · obtain ⟨htype, hagain⟩ := newRelated_again hudp htcp h
        have htyp : (fieldsOf env c).typ = "prflx".toList := congrArg CandidateType.text htype
        rw [build, htyp, if_neg hph, if_neg hps, if_pos rfl]
        exact hagain
      · split at h
        · obtain ⟨htype, hagain⟩ := newRelated_again hudp htcp h
          have htyp : (fieldsOf env c).typ = "relay".toList := congrArg CandidateType.text htype
          rw [build, htyp, if_neg hrh, if_neg hrs, if_neg hrp, if_pos rfl]
          exact hagain
        · cases h

/-- What was read from any text is written as a text that is read as the same candidate exactly if
its related address, where it has one, is not empty; otherwise the text is refused. -/
theorem unmarshal_marshal_iff (env : Environment Ip) (hudp : env.lowercase udp = udp)
    (htcp : env.lowercase tcp = tcp) (raw : List Char) (c : CandidateBase Ip)
    (h : unmarshalCandidate env raw = .ok c) :
    ((∃ again, unmarshalCandidate env (c.marshal env) = .ok again ∧ SameCandidate env c again) ↔
      ∀ related, c.relatedAddress = some related → related.address ≠ []) ∧
    ((∃ related, c.relatedAddress = some related ∧ related.address = []) →
      unmarshalCandidate env (c.marshal env) = .error .parseRelatedAddr) := by
  unfold unmarshalCandidate at h
  split at h
  · cases h
  · rename_i f hf
    have hc := build_isRead (readFields_ok (fun word hword => mem_splitWhitespace hword) hf) h
    have hagain : readFields (splitWhitespace (c.marshal env)) = .ok (fieldsOf env c) →
        ∃ again, unmarshalCandidate env (c.marshal env) = .ok again ∧
          SameCandidate env c again := by
      intro hread
      refine ⟨rewritten env c, ?_, sameCandidate_rewritten hc⟩
      unfold unmarshalCandidate
      rw [hread]
      exact build_fieldsOf hudp htcp h
    rcases hc.related with ⟨-, hnone⟩ | ⟨-, hplainTcp, related, hrelated, hword, hport⟩
    · have hunrelated : ∀ related, c.relatedAddress ≠ some related := by
        intro related
        rw [hnone]
        exact Option.some_ne_none related |>.symm
      refine ⟨iff_of_true (hagain (read_host hc hnone)) fun related hrelated => ?_, ?_⟩
      · exact absurd hrelated (hunrelated related)
      · rintro ⟨related, hrelated, -⟩
        exact absurd hrelated (hunrelated related)
    · have hrefused : (∃ found, c.relatedAddress = some found ∧ found.address = []) →
          unmarshalCandidate env (c.marshal env) = .error .parseRelatedAddr := by
        rintro ⟨found, hfound, hempty⟩
        unfold unmarshalCandidate
        rw [read_unrelated hc hplainTcp hfound hempty]
      refine ⟨⟨?_, ?_⟩, hrefused⟩
      · rintro ⟨again, hok, -⟩ found hfound hempty
        rw [hrefused ⟨found, hfound, hempty⟩] at hok
        cases hok
      · intro hnonempty
        have hfull : IsWord related.address := hword.resolve_left (hnonempty related hrelated)
        exact hagain (read_related hc hplainTcp hrelated hfull hport)

end Read

/-- One address, whose number is its version. -/
def oneAddress : Environment ℕ where
  lowercase := TextSlices.asciiLower
  parseIp text := if text = "192.0.2.1".toList then some 4 else none
  isIpv4 ip := ip = 4
  unspecifiedIp := 0
  checksum _ := 0

def reflexiveText : List Char :=
  "7 1 UDP 1694498815 192.0.2.1 5000 typ srflx raddr 10.0.0.1 rport 4000".toList

def reflexive : CandidateBase ℕ where
  networkType := .udp4
  candidateType := .serverReflexive
  component := 1
  address := "192.0.2.1".toList
  port := 5000
  relatedAddress := some ⟨"10.0.0.1".toList, 4000⟩
  tcpType := .unspecified
  resolvedAddr := (4, 5000)
  foundationOverride := "7".toList
  priorityOverride := 1694498815

theorem unmarshal_marshal_reflexive :
    unmarshalCandidate oneAddress reflexiveText = .ok reflexive ∧
      ∃ again, unmarshalCandidate oneAddress (reflexive.marshal oneAddress) = .ok again ∧
        SameCandidate oneAddress reflexive again := by
  have hread : unmarshalCandidate oneAddress reflexiveText = .ok reflexive := by decide
  refine ⟨hread, ?_⟩
  apply (unmarshal_marshal_iff oneAddress (by decide) (by decide) reflexiveText reflexive
    hread).1.mpr
  intro related hrelated
  cases hrelated
  decide

end OpenMeet.CandidateTexts
