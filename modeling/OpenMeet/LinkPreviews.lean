import OpenMeet.IpAddresses
import OpenMeet.SpecialAddresses
import OpenMeet.Text

/-!
The client that fetches link previews: which URLs it takes, which DNS answers it
connects to and which redirects it follows. The addresses it may connect to are
set against the IANA registries.
-/
namespace OpenMeet.LinkPreviews

open Text IpAddresses SpecialAddresses

/-! ## Addresses -/

def isPublicIpv4 (ip : Ipv4Addr) : Bool :=
  !(ip.isUnspecified || ip.isPrivate || ip.isLoopback || ip.isLinkLocal || ip.isBroadcast ||
    ip.isDocumentation || ip.isMulticast || ip.first = 0 ||
    (ip.first = 100 && (64 ≤ ip.second && ip.second ≤ 127)) ||
    (ip.first = 192 && ip.second = 0 && ip.third = 0) ||
    (ip.first = 198 && (18 ≤ ip.second && ip.second ≤ 19)) || 240 ≤ ip.first)

def isPublicIp : IpAddr → Bool
  | .v4 ip => isPublicIpv4 ip
  | .v6 ip =>
    match ip.toIpv4Mapped with
    | some mapped => isPublicIpv4 mapped
    | none =>
      -- NAT64 addresses embed an IPv4 address in the last 32 bits
      if ip.segments.take 6 = [0x64, 0xff9b, 0, 0, 0, 0] then
        isPublicIpv4 (ipv4OfSegments ip.seventh ip.eighth)
      else
        !(ip.isUnspecified || ip.isLoopback || ip.isMulticast || ip.first &&& 0xfe00 = 0xfc00 ||
          ip.first &&& 0xffc0 = 0xfe80 || (ip.first = 0x2001 && ip.second = 0x0db8))

/-! ## URLs -/

inductive Host
  | ipv4 (ip : Ipv4Addr)
  | ipv6 (ip : Ipv6Addr)
  | domain (name : String)
  deriving DecidableEq, Repr

/-- A parsed URL: what the checks read, and the rest as it stands. -/
structure Url where
  scheme : String
  username : String
  password : Option String
  host : Option Host
  port : Option ℕ
  rest : String
  fragment : Option String
  deriving DecidableEq, Repr

/-- The URL library: its parser and its serializer. -/
structure UrlLibrary where
  parse : String → Option Url
  asStr : Url → String

def maxUrlBytes : ℕ := 2048

def internalSuffixes : List String := ["localhost", "local", "internal", "home.arpa"]

def trimEndDots (text : String) : String :=
  String.ofList (text.toList.reverse.dropWhile (· = '.')).reverse

def isInternalName (name : String) : Bool :=
  let domain := (trimEndDots name).map Char.toLower
  !domain.toList.contains '.' || internalSuffixes.any fun suffix =>
    domain = suffix || ("." ++ suffix).toList.isSuffixOf domain.toList

/-- IP literals skip the resolver, so they are checked here. -/
def hostAllowed : Host → Bool
  | .ipv4 ip => isPublicIp (.v4 ip)
  | .ipv6 ip => isPublicIp (.v6 ip)
  | .domain name => !isInternalName name

section Client

variable (library : UrlLibrary)

def parsePublicUrl (raw : String) : Option Url :=
  if maxUrlBytes < raw.utf8ByteSize then none
  else (library.parse (trim raw)).bind fun url =>
    if (url.scheme ≠ "http" ∧ url.scheme ≠ "https") ∨ url.username ≠ "" then none
    else if url.password.isSome ∨ url.port.isSome then none
    else url.host.bind fun host =>
      if hostAllowed host then some { url with fragment := none } else none

/-- The resolver of the client: it refuses an answer that contains a non-public address. -/
def resolve (answer : Option (List IpAddr)) : Option (List IpAddr) :=
  answer.bind fun addresses =>
    if addresses.isEmpty || !addresses.all isPublicIp then none else some addresses

/-- Where a request for the URL may connect to: the address it names, or what its name resolves
to. -/
def connectAddresses (url : Url) (answer : Option (List IpAddr)) : List IpAddr :=
  match url.host with
  | some (.ipv4 ip) => [.v4 ip]
  | some (.ipv6 ip) => [.v6 ip]
  | some (.domain _) => (resolve answer).getD []
  | none => []

def maxRedirects : ℕ := 3

/-- What the network does with one request: the answer to its DNS query, if it has one, and where
the response redirects to, if it does. -/
structure Hop where
  answer : Option (List IpAddr)
  location : Option Url
  deriving DecidableEq, Repr

/-- One request after the other, as far as the redirect policy follows: the addresses the client may
connect to. The URLs before this one come first. -/
def fetch (previous : List Url) (url : Url) : List Hop → List IpAddr
  | [] => []
  | hop :: rest =>
    connectAddresses url hop.answer ++
      match hop.location with
      | none => []
      | some next =>
        let previous := previous ++ [url]
        if maxRedirects ≤ previous.length then []
        else if (parsePublicUrl library (library.asStr next)).isNone then []
        else fetch previous next rest

/-- A preview and its image. The image's URL is what the page's metadata name, joined to the URL of
the page, or none. -/
def previewAddresses (raw : String) (page : List Hop) (image : Option String)
    (imageHops : List Hop) : List IpAddr :=
  match parsePublicUrl library raw with
  | none => []
  | some url =>
    fetch library [] url page ++
      match image.bind (parsePublicUrl library) with
      | none => []
      | some imageUrl => fetch library [] imageUrl imageHops

end Client

/-! ## Globally reachable addresses -/

def reachableIpv4 (ip : Ipv4Addr) : Bool := globallyReachable 8 ipv4Registry ip.octets

/-- The IPv4 address in an IPv4-compatible, NAT64 or 6to4 address. -/
def embeddedIpv4 (ip : Ipv6Addr) : Option Ipv4Addr :=
  if ip.segments.take 6 = [0, 0, 0, 0, 0, 0] ∨ ip.segments.take 6 = [0x64, 0xff9b, 0, 0, 0, 0] then
    some (ipv4OfSegments ip.seventh ip.eighth)
  else if ip.first = 0x2002 then some (ipv4OfSegments ip.second ip.third)
  else none

/-- An IPv4-mapped address is the IPv4 address; another one that embeds an IPv4 address is reachable
only if that is. The registry has no NAT64 address of the local prefix reachable. -/
def reachable : IpAddr → Bool
  | .v4 ip => reachableIpv4 ip
  | .v6 ip =>
    match ip.toIpv4Mapped with
    | some mapped => reachableIpv4 mapped
    | none =>
      globallyReachable 16 ipv6Registry ip.segments && (embeddedIpv4 ip).all reachableIpv4

/-! ## The addresses the checks miss -/

/-- The blocks of 2001::/23 that are reachable. -/
def reachableProtocolBlock (ip : Ipv6Addr) : Bool :=
  ip.segments.tail = [1, 0, 0, 0, 0, 0, 1] || ip.segments.tail = [1, 0, 0, 0, 0, 0, 2] ||
    ip.segments.tail = [1, 0, 0, 0, 0, 0, 3] || ip.second = 3 ||
    (ip.second = 4 && ip.third = 0x112) || ip.second.toNat / 16 = 2 || ip.second.toNat / 16 = 3

/-- The anycast address of the 6a44 relays, the only unreachable IPv4 address the checks accept. -/
def relayAnycast : Ipv4Addr := ⟨192, 88, 99, 2⟩

/-- The 6a44 relays, also as an IPv4-mapped or NAT64 address; IPv4-compatible and 6to4 addresses of
unreachable IPv4 addresses, local NAT64, discard and dummy addresses, IETF protocol assignments, the
second documentation block and SRv6 segments. -/
def missed : IpAddr → Bool
  | .v4 ip => ip = relayAnycast
  | .v6 ip =>
    ((ip.segments.take 6 = [0, 0, 0, 0, 0, 0xffff] ||
        ip.segments.take 6 = [0x64, 0xff9b, 0, 0, 0, 0]) &&
        ipv4OfSegments ip.seventh ip.eighth = relayAnycast) ||
      (ip.segments.take 6 = [0, 0, 0, 0, 0, 0] && !ip.isUnspecified && !ip.isLoopback &&
        !reachableIpv4 (ipv4OfSegments ip.seventh ip.eighth)) ||
      (ip.first = 0x2002 && !reachableIpv4 (ipv4OfSegments ip.second ip.third)) ||
      ip.segments.take 3 = [0x64, 0xff9b, 1] ||
      ip.segments.take 4 = [0x100, 0, 0, 0] || ip.segments.take 4 = [0x100, 0, 0, 1] ||
      (ip.first = 0x2001 && ip.second < 0x200 && !reachableProtocolBlock ip) ||
      (ip.first = 0x3fff && ip.second < 0x1000) || ip.first = 0x5f00

section Masks

theorem land_shiftLeft (x m k : ℕ) : x &&& (m <<< k) = ((x >>> k) &&& m) <<< k := by
  apply Nat.eq_of_testBit_eq
  intro i
  rw [Nat.testBit_and, Nat.testBit_shiftLeft, Nat.testBit_shiftLeft, Nat.testBit_and,
    Nat.testBit_shiftRight]
  by_cases hk : k ≤ i
  · rw [Nat.add_sub_cancel' hk, decide_eq_true hk, Bool.true_and, Bool.true_and]
  · rw [decide_eq_false hk, Bool.false_and, Bool.false_and, Bool.and_false]

/-- The leading bits that a mask keeps. -/
theorem land_mask (x n k : ℕ) : x &&& ((2 ^ n - 1) <<< k) = (x / 2 ^ k % 2 ^ n) * 2 ^ k := by
  rw [land_shiftLeft, Nat.and_two_pow_sub_one_eq_mod, Nat.shiftRight_eq_div_pow, Nat.shiftLeft_eq]

/-- The masks of the checks keep the leading bits of unique local and link local addresses. -/
theorem land_eq_iff (a : UInt16) :
    (a &&& 0xfe00 = 0xfc00 ↔ a.toNat / 512 = 126) ∧
      (a &&& 0xffc0 = 0xfe80 ↔ a.toNat / 64 = 1018) := by
  have h := a.toNat_lt
  have hlocal : a.toNat &&& 65024 = a.toNat / 512 % 128 * 512 := land_mask a.toNat 7 9
  have hlink : a.toNat &&& 65472 = a.toNat / 64 % 1024 * 64 := land_mask a.toNat 10 6
  constructor
  · rw [← UInt16.toNat_inj, UInt16.toNat_and]
    change a.toNat &&& 65024 = 64512 ↔ _
    omega
  · rw [← UInt16.toNat_inj, UInt16.toNat_and]
    change a.toNat &&& 65472 = 65152 ↔ _
    omega

/-- The ranges that the checks name are blocks. -/
theorem range_eq_block (n : ℕ) : (n / 2 = 9 ↔ 18 ≤ n ∧ n ≤ 19) ∧ (n / 16 = 1 ↔ 16 ≤ n ∧ n ≤ 31) ∧
    (n / 64 = 1 ↔ 64 ≤ n ∧ n ≤ 127) ∧ (n / 16 = 15 ↔ 240 ≤ n ∧ n ≤ 255) := by
  omega

end Masks

/-- The checks on IPv4 addresses miss only the 6a44 relays. -/
theorem reachableIpv4_iff_of_isPublicIpv4 {ip : Ipv4Addr} (h : isPublicIpv4 ip = true) :
    reachableIpv4 ip = true ↔ ip ≠ relayAnycast := by
  refine ⟨fun hreachable heq => by rw [heq] at hreachable; revert hreachable; decide,
    fun hrelay => ?_⟩
  obtain ⟨a, b, c, d⟩ := ip
  simp only [relayAnycast, ne_eq, Ipv4Addr.mk.injEq, ← UInt8.toNat_inj, UInt8.reduceToNat]
    at hrelay
  simp only [isPublicIpv4, Ipv4Addr.isUnspecified, Ipv4Addr.isPrivate, Ipv4Addr.isLoopback,
    Ipv4Addr.isLinkLocal, Ipv4Addr.isBroadcast, Ipv4Addr.isDocumentation, Ipv4Addr.isMulticast,
    Ipv4Addr.octets, Bool.not_eq_true', Bool.or_eq_false_iff, Bool.and_eq_false_iff,
    decide_eq_false_iff_not, ← UInt8.toNat_inj, UInt8.le_iff_toNat_le, UInt8.reduceToNat] at h
  obtain ⟨⟨⟨⟨⟨⟨⟨⟨⟨⟨⟨-, ⟨hten, h172⟩, h192⟩, hloopback⟩, hlinkLocal⟩, -⟩, ⟨hfirst, hsecond⟩, hthird⟩,
    -⟩, hzero⟩, hcarrier⟩, hietf⟩, hbenchmark⟩, hreserved⟩ := h
  apply globallyReachable_of_forall
  simp only [ipv4Registry, List.forall_mem_cons]
  simp [samePrefix, Ipv4Addr.octets, range_eq_block]
  refine ⟨?_, ?_, ?_, ?_, ?_, ?_, ?_, ?_, ?_, ?_, ?_, ?_, ?_, ?_, ?_, ?_, ?_, ?_, ?_, ?_⟩ <;>
    grind

theorem mapped_reachable_iff {ip : Ipv6Addr} {mapped : Ipv4Addr}
    (hmapped : ip.toIpv4Mapped = some mapped) (h : isPublicIp (.v6 ip) = true) :
    reachable (.v6 ip) = true ↔ missed (.v6 ip) = false := by
  simp only [isPublicIp, hmapped] at h
  have hreachable : reachable (.v6 ip) = reachableIpv4 mapped := by
    simp only [reachable, hmapped]
  have hmissed : missed (.v6 ip) = decide (mapped = relayAnycast) := by
    obtain ⟨a, b, c, d, e, f, g, i⟩ := ip
    obtain ⟨hsegments, heq⟩ := Option.ite_none_right_eq_some.mp hmapped
    cases heq
    simp [Ipv6Addr.segments] at hsegments
    simp [missed, Ipv6Addr.segments, ← UInt16.toNat_inj, hsegments]
  rw [hreachable, hmissed, decide_eq_false_iff_not]
  exact reachableIpv4_iff_of_isPublicIpv4 h

theorem nat64_reachable_iff {ip : Ipv6Addr} (hmapped : ip.toIpv4Mapped = none)
    (hnat64 : ip.segments.take 6 = [0x64, 0xff9b, 0, 0, 0, 0])
    (h : isPublicIp (.v6 ip) = true) :
    reachable (.v6 ip) = true ↔ missed (.v6 ip) = false := by
  simp only [isPublicIp, hmapped, if_pos hnat64] at h
  have hreachable : reachable (.v6 ip) = reachableIpv4 (ipv4OfSegments ip.seventh ip.eighth) := by
    simp only [reachable, hmapped, embeddedIpv4, hnat64, or_true, if_true, Option.all_some]
    obtain ⟨a, b, c, d, e, f, g, i⟩ := ip
    simp [Ipv6Addr.segments] at hnat64
    simp [ipv6Registry, samePrefix, Ipv6Addr.segments, hnat64]
  have hmissed :
      missed (.v6 ip) = decide (ipv4OfSegments ip.seventh ip.eighth = relayAnycast) := by
    obtain ⟨a, b, c, d, e, f, g, i⟩ := ip
    simp [Ipv6Addr.segments] at hnat64
    simp [missed, Ipv6Addr.segments, ← UInt16.toNat_inj, hnat64]
  rw [hreachable, hmissed, decide_eq_false_iff_not]
  exact reachableIpv4_iff_of_isPublicIpv4 h

/-- Any other address that passes the checks is reachable unless it is one of those they miss. -/
theorem other_reachable_iff {ip : Ipv6Addr} (hmapped : ip.toIpv4Mapped = none)
    (hnat64 : ip.segments.take 6 ≠ [0x64, 0xff9b, 0, 0, 0, 0])
    (h : isPublicIp (.v6 ip) = true) :
    reachable (.v6 ip) = true ↔ missed (.v6 ip) = false := by
  simp only [isPublicIp, hmapped, if_neg hnat64] at h
  have hsixth : ip.segments.take 6 ≠ [0, 0, 0, 0, 0, 0xffff] := by
    intro hsegments
    rw [Ipv6Addr.toIpv4Mapped, if_pos hsegments] at hmapped
    cases hmapped
  simp only [reachable, hmapped, missed, embeddedIpv4, or_iff_left hnat64]
  clear hmapped
  obtain ⟨a, b, c, d, e, f, g, i⟩ := ip
  dsimp only at *
  simp only [Bool.not_eq_true', Bool.or_eq_false_iff, Bool.and_eq_false_iff,
    decide_eq_false_iff_not] at h
  obtain ⟨⟨⟨⟨⟨hunspecified, hloopback⟩, -⟩, hlocal⟩, hlink⟩, hdocumentation⟩ := h
  rw [(land_eq_iff a).1] at hlocal
  rw [(land_eq_iff a).2] at hlink
  simp [Ipv6Addr.segments, Ipv6Addr.isUnspecified, Ipv6Addr.isLoopback, ← UInt16.toNat_inj] at *
  -- the first segment tells which blocks are left
  by_cases hzero : a.toNat = 0
  · simp [hzero, reachableProtocolBlock, ipv6Registry, samePrefix, Ipv6Addr.segments] at *
    grind
  by_cases h6to4 : a.toNat = 0x2002
  · simp [h6to4, ipv6Registry, samePrefix] at *
  by_cases hprotocol : a.toNat = 0x2001
  · simp [hprotocol, reachableProtocolBlock, ipv6Registry, samePrefix, Ipv6Addr.segments,
      ← UInt16.toNat_inj, UInt16.lt_iff_toNat_lt] at *
    grind
  · simp [hzero, h6to4, hprotocol, hlocal, hlink, ipv6Registry, samePrefix, UInt16.le_iff_toNat_le,
      UInt16.lt_iff_toNat_lt] at *
    grind

theorem reachable_iff_not_missed {ip : IpAddr} (h : isPublicIp ip = true) :
    reachable ip = true ↔ missed ip = false := by
  cases ip with
  | v4 ip =>
    rw [reachable, missed, decide_eq_false_iff_not]
    exact reachableIpv4_iff_of_isPublicIpv4 h
  | v6 ip =>
    cases hmapped : ip.toIpv4Mapped with
    | some mapped => exact mapped_reachable_iff hmapped h
    | none =>
      by_cases hnat64 : ip.segments.take 6 = [0x64, 0xff9b, 0, 0, 0, 0]
      · exact nat64_reachable_iff hmapped hnat64 h
      · exact other_reachable_iff hmapped hnat64 h

/-! ## Where the client connects to -/

section Connections

variable {library : UrlLibrary}

theorem parsePublicUrl_some {raw : String} {url : Url} (h : parsePublicUrl library raw = some url) :
    ∃ parsed, library.parse (trim raw) = some parsed ∧ url.host = parsed.host ∧
      ∃ host, parsed.host = some host ∧ hostAllowed host = true := by
  unfold parsePublicUrl at h
  obtain ⟨-, h⟩ := Option.ite_none_left_eq_some.mp h
  obtain ⟨parsed, hparse, h⟩ := Option.bind_eq_some_iff.mp h
  obtain ⟨-, h⟩ := Option.ite_none_left_eq_some.mp h
  obtain ⟨-, h⟩ := Option.ite_none_left_eq_some.mp h
  obtain ⟨host, hhost, h⟩ := Option.bind_eq_some_iff.mp h
  obtain ⟨hallowed, h⟩ := Option.ite_none_right_eq_some.mp h
  cases h
  exact ⟨parsed, hparse, rfl, host, hhost, hallowed⟩

theorem resolve_public {answer : Option (List IpAddr)} {ip : IpAddr}
    (h : ip ∈ (resolve answer).getD []) : isPublicIp ip = true := by
  cases hresolve : resolve answer with
  | none =>
    rw [hresolve] at h
    cases h
  | some addresses =>
    rw [hresolve, Option.getD_some] at h
    obtain ⟨offered, -, hoffered⟩ := Option.bind_eq_some_iff.mp hresolve
    obtain ⟨hchecked, heq⟩ := Option.ite_none_left_eq_some.mp hoffered
    cases heq
    rw [Bool.or_eq_true, not_or, Bool.not_eq_true', Bool.not_eq_false] at hchecked
    exact List.all_eq_true.mp hchecked.2 ip h

/-- A URL with an allowed host connects only to addresses that pass the checks. -/
theorem connectAddresses_public {url : Url} {host : Host} (hhost : url.host = some host)
    (hallowed : hostAllowed host = true) {answer : Option (List IpAddr)} {ip : IpAddr}
    (h : ip ∈ connectAddresses url answer) : isPublicIp ip = true := by
  simp only [connectAddresses, hhost] at h
  cases host with
  | ipv4 literal =>
    cases List.mem_singleton.mp h
    exact hallowed
  | ipv6 literal =>
    cases List.mem_singleton.mp h
    exact hallowed
  | domain name => exact resolve_public h

/-- Parsing a URL that was serialized gives the URL back, for every redirect of a fetch. -/
def RoundTrips (library : UrlLibrary) (hops : List Hop) : Prop :=
  ∀ hop ∈ hops, ∀ next ∈ hop.location, library.parse (trim (library.asStr next)) = some next

/-- Each redirect that is followed goes to a URL with an allowed host. -/
theorem fetch_public {hops : List Hop} (hroundTrips : RoundTrips library hops) {url : Url}
    {host : Host} (hhost : url.host = some host) (hallowed : hostAllowed host = true)
    {previous : List Url} {ip : IpAddr} (h : ip ∈ fetch library previous url hops) :
    isPublicIp ip = true := by
  induction hops generalizing url host previous with
  | nil => cases h
  | cons hop rest ih =>
    rw [fetch, List.mem_append] at h
    refine h.elim (connectAddresses_public hhost hallowed) fun h => ?_
    cases hlocation : hop.location with
    | none =>
      rw [hlocation] at h
      cases h
    | some next =>
      rw [hlocation] at h
      dsimp only at h
      split at h
      · cases h
      split at h
      · cases h
      rename_i hpolicy
      obtain ⟨followed, hfollowed⟩ :=
        Option.isSome_iff_exists.mp (Option.isSome_iff_ne_none.mpr (by simpa using hpolicy))
      obtain ⟨parsed, hparse, -, host', hhost', hallowed'⟩ := parsePublicUrl_some hfollowed
      rw [hroundTrips hop List.mem_cons_self next hlocation] at hparse
      cases hparse
      have hrest : RoundTrips library rest := fun other hother =>
        hroundTrips other (List.mem_cons_of_mem _ hother)
      exact ih hrest hhost' hallowed' h

theorem previewAddresses_public {raw : String} {page : List Hop} {image : Option String}
    {imageHops : List Hop} (hpage : RoundTrips library page) (himage : RoundTrips library imageHops)
    {ip : IpAddr} (h : ip ∈ previewAddresses library raw page image imageHops) :
    isPublicIp ip = true := by
  unfold previewAddresses at h
  cases hraw : parsePublicUrl library raw with
  | none =>
    rw [hraw] at h
    cases h
  | some url =>
    obtain ⟨parsed, -, hsame, host, hhost, hallowed⟩ := parsePublicUrl_some hraw
    simp only [hraw, List.mem_append] at h
    refine h.elim (fetch_public hpage (hsame.trans hhost) hallowed) fun h => ?_
    cases hjoined : image.bind (parsePublicUrl library) with
    | none =>
      rw [hjoined] at h
      cases h
    | some imageUrl =>
      rw [hjoined] at h
      obtain ⟨text, -, htext⟩ := Option.bind_eq_some_iff.mp hjoined
      obtain ⟨parsed, -, hsame, host', hhost', hallowed'⟩ := parsePublicUrl_some htext
      exact fetch_public himage (hsame.trans hhost') hallowed' h

end Connections

/-- The addresses the client may connect to, for the page, its redirects and its image, are globally
reachable exactly when none of them is one that the checks miss. -/
theorem previews_reachable_iff (library : UrlLibrary) (raw : String) (page : List Hop)
    (image : Option String) (imageHops : List Hop) (hpage : RoundTrips library page)
    (himage : RoundTrips library imageHops) :
    (∀ ip ∈ previewAddresses library raw page image imageHops, reachable ip = true) ↔
      ∀ ip ∈ previewAddresses library raw page image imageHops, missed ip = false :=
  forall_congr' fun _ => imp_congr_right fun h =>
    reachable_iff_not_missed (previewAddresses_public hpage himage h)

/-- The URL library on a table of URLs. -/
def tableLibrary (table : List (String × Url)) : UrlLibrary where
  parse text := (table.find? (·.1 = text)).map (·.2)
  asStr url := (table.find? (·.2 = url)).elim "" (·.1)

def plainUrl (host : Host) : Url := ⟨"http", "", none, some host, none, "/", none⟩

def oneLibrary : UrlLibrary :=
  tableLibrary [("http://example.com/", plainUrl (.domain "example.com")),
    ("http://1.1.1.1/", plainUrl (.ipv4 ⟨1, 1, 1, 1⟩)),
    ("http://[::7f00:1]/", plainUrl (.ipv6 ⟨0, 0, 0, 0, 0, 0, 0x7f00, 1⟩))]

/-- A page that redirects to an address literal. -/
def redirected : List Hop :=
  [⟨some [.v4 ⟨93, 184, 216, 34⟩], some (plainUrl (.ipv4 ⟨1, 1, 1, 1⟩))⟩, ⟨none, none⟩]

theorem redirected_reachable :
    (previewAddresses oneLibrary "http://example.com/" redirected none []).length = 2 ∧
      ∀ ip ∈ previewAddresses oneLibrary "http://example.com/" redirected none [],
        reachable ip = true := by
  refine ⟨by decide +kernel, ?_⟩
  have hpage : RoundTrips oneLibrary redirected := by
    unfold RoundTrips redirected
    decide +kernel
  have himage : RoundTrips oneLibrary [] := fun hop hhop => by cases hhop
  exact (previews_reachable_iff oneLibrary "http://example.com/" redirected none [] hpage
    himage).mpr (by decide +kernel)

/-- The IPv4-compatible address of the loopback interface passes the checks. -/
theorem compatible_loopback :
    .v6 ⟨0, 0, 0, 0, 0, 0, 0x7f00, 1⟩ ∈
        previewAddresses oneLibrary "http://[::7f00:1]/" [⟨none, none⟩] none [] ∧
      reachable (.v6 ⟨0, 0, 0, 0, 0, 0, 0x7f00, 1⟩) = false := by
  decide +kernel

end OpenMeet.LinkPreviews
