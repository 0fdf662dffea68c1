import Mathlib.Data.Nat.Bitwise

/-!
The IANA registries of special-purpose addresses. An address is a list of groups
of bits, the most significant one first, and a block is the addresses that share
its leading bits. The most specific block an address is in decides whether it is
globally reachable; an address in none is.
-/
namespace OpenMeet.SpecialAddresses

/-- A block of a registry, where the entry "Globally Reachable" may be N/A. The groups that are not
written are zero. -/
structure Block where
  groups : List ℕ
  length : ℕ
  reachable : Option Bool
  deriving DecidableEq, Repr

/-- The first bits of two lists of groups agree. -/
def samePrefix (width : ℕ) : List ℕ → List ℕ → ℕ → Bool
  | [], _, _ => true
  | group :: rest, base, length =>
    if length < width then
      group / 2 ^ (width - length) = base.headD 0 / 2 ^ (width - length)
    else group = base.headD 0 &&
      (length = width || samePrefix width rest base.tail (length - width))

def Block.contains (width : ℕ) (block : Block) (address : List ℕ) : Bool :=
  samePrefix width address block.groups block.length

/-- The first row that says something about the address decides, in a registry whose more specific
rows come first. -/
def globallyReachable (width : ℕ) : List Block → List ℕ → Bool
  | [], _ => true
  | block :: rest, address =>
    match block.reachable with
    | some reachable =>
      if block.contains width address then reachable else globallyReachable width rest address
    | none => globallyReachable width rest address

section Registry

variable (width : ℕ) (groups : List ℕ) (length : ℕ) (rest : List Block) (address : List ℕ)

@[simp] theorem globallyReachable_nil : globallyReachable width [] address = true := rfl

@[simp] theorem globallyReachable_cons_false :
    globallyReachable width (⟨groups, length, some false⟩ :: rest) address =
      (!samePrefix width address groups length && globallyReachable width rest address) := by
  rw [globallyReachable, Block.contains]
  cases samePrefix width address groups length <;> rfl

@[simp] theorem globallyReachable_cons_true :
    globallyReachable width (⟨groups, length, some true⟩ :: rest) address =
      (samePrefix width address groups length || globallyReachable width rest address) := by
  rw [globallyReachable, Block.contains]
  cases samePrefix width address groups length <;> rfl

@[simp] theorem globallyReachable_cons_none :
    globallyReachable width (⟨groups, length, none⟩ :: rest) address =
      globallyReachable width rest address := rfl

/-- An address that is in no unreachable block is reachable. -/
theorem globallyReachable_of_forall {registry : List Block}
    (h : ∀ block ∈ registry, block.reachable = some false →
      samePrefix width address block.groups block.length = false) :
    globallyReachable width registry address = true := by
  induction registry with
  | nil => rfl
  | cons block rest ih =>
    have hrest := ih fun other hother => h other (List.mem_cons_of_mem _ hother)
    obtain ⟨groups, length, reachable⟩ := block
    cases reachable with
    | none => exact hrest
    | some value =>
      cases value with
      | true => rw [globallyReachable_cons_true, hrest, Bool.or_true]
      | false =>
        have hout := h ⟨groups, length, some false⟩ List.mem_cons_self rfl
        rw [globallyReachable_cons_false, hout, hrest]
        rfl

end Registry

/-- IPv4, in groups of 8 bits. -/
def ipv4Registry : List Block :=
  [⟨[255, 255, 255, 255], 32, some false⟩,
   ⟨[0, 0, 0, 0], 32, some false⟩,
   ⟨[192, 0, 0, 8], 32, some false⟩,
   ⟨[192, 0, 0, 9], 32, some true⟩,
   ⟨[192, 0, 0, 10], 32, some true⟩,
   ⟨[192, 0, 0, 170], 32, some false⟩,
   ⟨[192, 0, 0, 171], 32, some false⟩,
   ⟨[192, 88, 99, 2], 32, some false⟩,
   ⟨[192, 0, 0], 29, some false⟩,
   ⟨[192, 0, 0], 24, some false⟩,
   ⟨[192, 0, 2], 24, some false⟩,
   ⟨[192, 31, 196], 24, some true⟩,
   ⟨[192, 52, 193], 24, some true⟩,
   ⟨[192, 88, 99], 24, none⟩,
   ⟨[192, 175, 48], 24, some true⟩,
   ⟨[198, 51, 100], 24, some false⟩,
   ⟨[203, 0, 113], 24, some false⟩,
   ⟨[169, 254], 16, some false⟩,
   ⟨[192, 168], 16, some false⟩,
   ⟨[198, 18], 15, some false⟩,
   ⟨[172, 16], 12, some false⟩,
   ⟨[100, 64], 10, some false⟩,
   ⟨[0], 8, some false⟩,
   ⟨[10], 8, some false⟩,
   ⟨[127], 8, some false⟩,
   ⟨[240], 4, some false⟩]

/-- IPv6, in groups of 16 bits. -/
def ipv6Registry : List Block :=
  [⟨[0, 0, 0, 0, 0, 0, 0, 1], 128, some false⟩,
   ⟨[0, 0, 0, 0, 0, 0, 0, 0], 128, some false⟩,
   ⟨[0x2001, 1, 0, 0, 0, 0, 0, 1], 128, some true⟩,
   ⟨[0x2001, 1, 0, 0, 0, 0, 0, 2], 128, some true⟩,
   ⟨[0x2001, 1, 0, 0, 0, 0, 0, 3], 128, some true⟩,
   ⟨[0, 0, 0, 0, 0, 0xffff], 96, some false⟩,
   ⟨[0x64, 0xff9b, 0, 0, 0, 0], 96, some true⟩,
   ⟨[0x100, 0, 0, 0], 64, some false⟩,
   ⟨[0x100, 0, 0, 1], 64, some false⟩,
   ⟨[0x64, 0xff9b, 1], 48, some false⟩,
   ⟨[0x2001, 2, 0], 48, some false⟩,
   ⟨[0x2001, 4, 0x112], 48, some true⟩,
   ⟨[0x2620, 0x4f, 0x8000], 48, some true⟩,
   ⟨[0x2001, 0], 32, none⟩,
   ⟨[0x2001, 3], 32, some true⟩,
   ⟨[0x2001, 0xdb8], 32, some false⟩,
   ⟨[0x2001, 0x10], 28, none⟩,
   ⟨[0x2001, 0x20], 28, some true⟩,
   ⟨[0x2001, 0x30], 28, some true⟩,
   ⟨[0x2001, 0], 23, some false⟩,
   ⟨[0x3fff, 0], 20, some false⟩,
   ⟨[0x2002], 16, none⟩,
   ⟨[0x5f00], 16, some false⟩,
   ⟨[0xfe80], 10, some false⟩,
   ⟨[0xfc00], 7, some false⟩]

example : ipv4Registry.Pairwise fun a b => b.length ≤ a.length := by decide
example : ipv6Registry.Pairwise fun a b => b.length ≤ a.length := by decide

end OpenMeet.SpecialAddresses
