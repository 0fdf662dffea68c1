import Mathlib.Algebra.Group.Nat.Defs
import OpenMeet.KeyedMap

/-!
The buffer that answers a receiver's NACKs. Packets are kept by sequence
number, next to a circular list of the numbers in the order they came; when the
list is full the number it overwrites is dropped from the buffer, whatever packet
is stored under it by then.
-/
namespace OpenMeet.PacketBuffer

open KeyedMap

structure RtpPacket where
  sequenceNumber : UInt16
  ssrc : UInt32
  payload : List UInt8
  deriving DecidableEq, Repr

def bufferSize : ℕ := 512

structure PacketBufferInner where
  packets : Map UInt16 RtpPacket
  sequenceOrder : List UInt16
  writePos : ℕ
  order_le : sequenceOrder.length ≤ bufferSize
  writePos_lt : writePos < bufferSize

namespace PacketBufferInner

def new : PacketBufferInner where
  packets := ∅
  sequenceOrder := []
  writePos := 0
  order_le := Nat.zero_le _
  writePos_lt := by decide

/-- Store a packet; in a full buffer the number at the write position makes room for it. -/
def store (buffer : PacketBufferInner) (packet : RtpPacket) : PacketBufferInner :=
  let seq := packet.sequenceNumber
  if hfull : bufferSize ≤ buffer.sequenceOrder.length then
    let oldSeq := buffer.sequenceOrder.get ⟨buffer.writePos, buffer.writePos_lt.trans_le hfull⟩
    { packets := (buffer.packets.erase oldSeq).insert seq packet
      sequenceOrder := buffer.sequenceOrder.set buffer.writePos seq
      writePos := (buffer.writePos + 1) % bufferSize
      order_le := by simpa using buffer.order_le
      writePos_lt := Nat.mod_lt _ (by decide) }
  else
    { packets := buffer.packets.insert seq packet
      sequenceOrder := buffer.sequenceOrder ++ [seq]
      writePos := (buffer.writePos + 1) % bufferSize
      order_le := by
        rw [List.length_append, List.length_singleton]
        omega
      writePos_lt := Nat.mod_lt _ (by decide) }

def get (buffer : PacketBufferInner) (seq : UInt16) : Option RtpPacket := buffer.packets.lookup seq

end PacketBufferInner

open PacketBufferInner

def storeAll (stores : List RtpPacket) : PacketBufferInner := stores.foldl store new

/-- The writer task rewrites the SSRC for its receiver before it stores a packet. -/
def forwardAll (localSsrc : UInt32) (received : List RtpPacket) : PacketBufferInner :=
  storeAll (received.map fun packet => { packet with ssrc := localSsrc })

/-! ## What the buffer holds -/

section Holds

variable (stores : List RtpPacket) (q : UInt16)

def seqAt (i : ℕ) : Option UInt16 := stores[i]?.map (·.sequenceNumber)

/-- The store at this index is the last one of the number. -/
def LatestAt (j : ℕ) : Prop := seqAt stores j = some q ∧ ∀ k, j < k → seqAt stores k ≠ some q

/-- A packet is held if it was stored last under its number, and the place of none of the number's
stores has been overwritten since. -/
def Held (packet : RtpPacket) : Prop :=
  ∃ j, stores[j]? = some packet ∧ LatestAt stores q j ∧
    ∀ i, seqAt stores i = some q → j < i + bufferSize → stores.length ≤ i + bufferSize

/-- The buffer after these stores: the circular list has the last 512 numbers, each at its place. -/
structure Follows (buffer : PacketBufferInner) : Prop where
  length : buffer.sequenceOrder.length = min stores.length bufferSize
  position : buffer.writePos = stores.length % bufferSize
  order : ∀ i, i < stores.length → stores.length ≤ i + bufferSize →
    buffer.sequenceOrder[i % bufferSize]? = seqAt stores i
  held : ∀ q packet, buffer.get q = some packet ↔ Held stores q packet

end Holds

section Step

variable {stores : List RtpPacket} {packet : RtpPacket}

theorem seqAt_eq_none {i : ℕ} (h : stores.length ≤ i) : seqAt stores i = none := by
  rw [seqAt, List.getElem?_eq_none h]
  rfl

theorem lt_of_seqAt {i : ℕ} {q : UInt16} (h : seqAt stores i = some q) : i < stores.length := by
  by_contra hge
  rw [seqAt_eq_none (by omega)] at h
  cases h

theorem seqAt_concat (i : ℕ) :
    seqAt (stores ++ [packet]) i =
      if i = stores.length then some packet.sequenceNumber else seqAt stores i := by
  unfold seqAt
  split
  · rename_i h
    rw [h, List.getElem?_concat_length]
    rfl
  · rename_i h
    by_cases hlt : i < stores.length
    · rw [List.getElem?_append_left hlt]
    · rw [List.getElem?_eq_none (by simp; omega), List.getElem?_eq_none (by omega)]

theorem LatestAt.unique {q : UInt16} {i j : ℕ} (hi : LatestAt stores q i)
    (hj : LatestAt stores q j) : i = j := by
  by_contra hne
  by_cases hlt : i < j
  · exact hi.2 j hlt hj.1
  · exact hj.2 i (by omega) hi.1

/-- The number just stored is held with its packet. -/
theorem held_concat_self (p : RtpPacket) :
    Held (stores ++ [packet]) packet.sequenceNumber p ↔ p = packet := by
  have hlast : LatestAt (stores ++ [packet]) packet.sequenceNumber stores.length := by
    refine ⟨by rw [seqAt_concat, if_pos rfl], fun k hk => ?_⟩
    rw [seqAt_eq_none (by simp; omega)]
    intro h
    cases h
  constructor
  · rintro ⟨j, hj, hlatest, -⟩
    have : j = stores.length := hlatest.unique hlast
    subst this
    rw [List.getElem?_concat_length] at hj
    exact (Option.some.inj hj).symm
  · intro h
    subst h
    refine ⟨stores.length, List.getElem?_concat_length, hlast, fun i _ hi => ?_⟩
    rw [List.length_append, List.length_singleton]
    omega

/-- Any other number stays unless the place just overwritten was one of its stores. -/
theorem held_concat_ne {q : UInt16} (hne : q ≠ packet.sequenceNumber) (p : RtpPacket) :
    Held (stores ++ [packet]) q p ↔
      Held stores q p ∧ ∀ i, i + bufferSize = stores.length → seqAt stores i ≠ some q := by
  have hseq : ∀ i, seqAt (stores ++ [packet]) i = some q ↔ seqAt stores i = some q := by
    intro i
    rw [seqAt_concat]
    split
    · rename_i h
      rw [h, seqAt_eq_none (Nat.le_refl _)]
      exact ⟨fun h => absurd (Option.some.inj h).symm hne, nofun⟩
    · exact Iff.rfl
  have hlatest : ∀ j, LatestAt (stores ++ [packet]) q j ↔ LatestAt stores q j := by
    intro j
    unfold LatestAt
    rw [hseq]
    exact and_congr_right fun _ => forall_congr' fun k => imp_congr_right fun _ =>
      not_congr (hseq k)
  have hget : ∀ j, LatestAt stores q j → (stores ++ [packet])[j]? = stores[j]? :=
    fun j hj => List.getElem?_append_left (lt_of_seqAt hj.1)
  constructor
  · intro ⟨j, hj, hlate, hkept⟩
    rw [hlatest] at hlate
    rw [hget j hlate] at hj
    have hjlt := lt_of_seqAt hlate.1
    refine ⟨⟨j, hj, hlate, fun i hi hji => ?_⟩, fun i hi hq => ?_⟩
    · have h := hkept i ((hseq i).mpr hi) hji
      rw [List.length_append, List.length_singleton] at h
      omega
    · have h := hkept i ((hseq i).mpr hq) (by omega)
      rw [List.length_append, List.length_singleton] at h
      omega
  · intro ⟨⟨j, hj, hlate, hkept⟩, hplace⟩
    refine ⟨j, (hget j hlate).trans hj, (hlatest j).mpr hlate, fun i hi hji => ?_⟩
    rw [hseq] at hi
    have h := hkept i hi hji
    have hne : i + bufferSize ≠ stores.length := fun h => hplace i h hi
    rw [List.length_append, List.length_singleton]
    omega

/-- Of two indices less than a full round apart only one has its place in the list. -/
theorem eq_of_place {i n : ℕ} (hle : i ≤ n) (hround : n < i + bufferSize)
    (hplace : n % bufferSize = i % bufferSize) : i = n := by
  have hzero : (n - i) % bufferSize = 0 := Nat.sub_mod_eq_zero_of_mod_eq hplace
  rw [Nat.mod_eq_of_lt (by omega)] at hzero
  omega

section Store

variable {buffer : PacketBufferInner}

/-- A full list has the number of the oldest store at the write position. -/
theorem Follows.oldest (h : Follows stores buffer)
    (hfull : bufferSize ≤ buffer.sequenceOrder.length) :
    seqAt stores (stores.length - bufferSize) =
      some (buffer.sequenceOrder.get ⟨buffer.writePos, buffer.writePos_lt.trans_le hfull⟩) := by
  have hpos : 0 < bufferSize := by decide
  have hlength := h.length
  have hplace : (stores.length - bufferSize) % bufferSize = buffer.writePos := by
    rw [h.position]
    exact (Nat.mod_eq_sub_mod (by omega)).symm
  have horder := h.order (stores.length - bufferSize) (by omega) (by omega)
  rw [hplace, List.getElem?_eq_getElem (buffer.writePos_lt.trans_le hfull)] at horder
  exact horder.symm

theorem Follows.store_full (h : Follows stores buffer)
    (hfull : bufferSize ≤ buffer.sequenceOrder.length) :
    Follows (stores ++ [packet]) (buffer.store packet) := by
  have hlength := h.length
  have hlen : bufferSize ≤ stores.length := by omega
  have hold := h.oldest hfull
  simp only [PacketBufferInner.store, dif_pos hfull]
  constructor
  · simp only [List.length_set, List.length_append, List.length_singleton]
    omega
  · simp only [h.position, List.length_append, List.length_singleton, Nat.mod_add_mod]
  · intro i hi hwindow
    rw [List.length_append, List.length_singleton] at hi hwindow
    simp only [List.getElem?_set, seqAt_concat]
    by_cases hlast : i = stores.length
    · rw [hlast, if_pos h.position, if_pos (h.position ▸ buffer.writePos_lt.trans_le hfull),
        if_pos rfl]
    · have hother : buffer.writePos ≠ i % bufferSize := fun hplace =>
        hlast (eq_of_place (by omega) (by omega) (h.position ▸ hplace))
      rw [if_neg hother, if_neg hlast]
      exact h.order i (by omega) (by omega)
  · intro q p
    simp only [PacketBufferInner.get]
    generalize buffer.sequenceOrder.get ⟨buffer.writePos, _⟩ = oldSeq at hold
    by_cases hq : q = packet.sequenceNumber
    · subst hq
      rw [AList.lookup_insert, held_concat_self]
      exact ⟨fun h => (Option.some.inj h).symm, fun h => congrArg some h.symm⟩
    · have hdropped : (∀ i, i + bufferSize = stores.length → seqAt stores i ≠ some q) ↔
          q ≠ oldSeq := by
        constructor
        · intro hplace heq
          exact hplace _ (Nat.sub_add_cancel hlen) (by rw [hold, heq])
        · intro hne i hi hseq
          have : i = stores.length - bufferSize := by omega
          rw [this, hold] at hseq
          exact hne (Option.some.inj hseq).symm
      rw [AList.lookup_insert_ne hq, held_concat_ne hq, ← h.held, hdropped]
      by_cases hq' : q = oldSeq
      · rw [← hq', AList.lookup_erase]
        exact ⟨nofun, fun h => absurd rfl h.2⟩
      · rw [AList.lookup_erase_ne hq']
        exact ⟨fun h => ⟨h, hq'⟩, fun h => h.1⟩

theorem Follows.store_room (h : Follows stores buffer)
    (hroom : ¬ bufferSize ≤ buffer.sequenceOrder.length) :
    Follows (stores ++ [packet]) (buffer.store packet) := by
  have hlength := h.length
  have hlen : stores.length < bufferSize := by omega
  have hlist : buffer.sequenceOrder.length = stores.length := by omega
  simp only [PacketBufferInner.store, dif_neg hroom]
  constructor
  · simp only [List.length_append, List.length_singleton]
    omega
  · simp only [h.position, List.length_append, List.length_singleton, Nat.mod_add_mod]
  · intro i hi hwindow
    rw [List.length_append, List.length_singleton] at hi
    have hplace : i % bufferSize = i := Nat.mod_eq_of_lt (by omega)
    simp only [seqAt_concat, hplace]
    by_cases hlast : i = stores.length
    · rw [if_pos hlast, hlast, ← hlist, List.getElem?_concat_length]
    · have horder := h.order i (by omega) (by omega)
      rw [hplace] at horder
      rw [if_neg hlast, List.getElem?_append_left (by omega), horder]
  · intro q p
    simp only [PacketBufferInner.get]
    by_cases hq : q = packet.sequenceNumber
    · subst hq
      rw [AList.lookup_insert, held_concat_self]
      exact ⟨fun h => (Option.some.inj h).symm, fun h => congrArg some h.symm⟩
    · rw [AList.lookup_insert_ne hq, held_concat_ne hq, ← h.held]
      exact ⟨fun h => ⟨h, fun i hi => by omega⟩, fun h => h.1⟩

end Store

end Step

theorem follows_storeAll (stores : List RtpPacket) : Follows stores (storeAll stores) := by
  induction stores using List.reverseRecOn with
  | nil =>
    refine ⟨rfl, rfl, fun i hi => absurd hi (Nat.not_lt_zero i), fun q packet => ?_⟩
    exact ⟨nofun, fun ⟨j, hj, _⟩ => by cases hj⟩
  | append_singleton stores packet ih =>
    rw [storeAll, List.foldl_append]
    by_cases hfull : bufferSize ≤ (storeAll stores).sequenceOrder.length
    · exact ih.store_full hfull
    · exact ih.store_room hfull

/-- The buffer never has more packets than its list has places. -/
theorem packets_length_le (stores : List RtpPacket) :
    (storeAll stores).packets.entries.length ≤ bufferSize := by
  have hfollows := follows_storeAll stores
  have hlisted : ∀ q ∈ (storeAll stores).packets.keys, q ∈ (storeAll stores).sequenceOrder := by
    intro q hq
    obtain ⟨packet, hpacket⟩ := Option.isSome_iff_exists.mp (AList.lookup_isSome.mpr hq)
    obtain ⟨j, -, hlatest, hkept⟩ := (hfollows.held q packet).mp hpacket
    have hpos : 0 < bufferSize := by decide
    have hplace := hfollows.order j (lt_of_seqAt hlatest.1) (hkept j hlatest.1 (by omega))
    rw [hlatest.1] at hplace
    exact List.mem_of_getElem? hplace
  have hkeys : (storeAll stores).packets.keys.length = (storeAll stores).packets.entries.length :=
    List.length_map _
  have hsub := ((storeAll stores).packets.keys_nodup.subperm hlisted).length_le
  have horder := (storeAll stores).order_le
  omega

/-! ## The last stores -/

section Last

variable (stores : List RtpPacket) (q : UInt16)

/-- The latest packet stored with this number, if one of the last 512 stores had it. -/
def latestStored : Option RtpPacket :=
  (stores.drop (stores.length - bufferSize)).reverse.find? (·.sequenceNumber = q)

/-- The number was stored twice less than 512 stores apart, last time within the last 512 stores and
before that earlier than them: dropping the earlier one drops the packet of the later one. -/
def Forgotten : Prop :=
  ∃ i j, i < j ∧ j < i + bufferSize ∧ i + bufferSize < stores.length ∧
    stores.length ≤ j + bufferSize ∧ seqAt stores i = some q ∧ LatestAt stores q j

variable {stores q}

theorem find_last {p : RtpPacket → Bool} {packets : List RtpPacket} {packet : RtpPacket} :
    packets.reverse.find? p = some packet ↔
      ∃ j, packets[j]? = some packet ∧ p packet = true ∧
        ∀ (k : ℕ) (other : RtpPacket), j < k → packets[k]? = some other → p other = false := by
  induction packets using List.reverseRecOn with
  | nil => simp
  | append_singleton packets last ih =>
    rw [List.reverse_append, List.reverse_singleton, List.singleton_append, List.find?_cons]
    cases hlast : p last with
    | true =>
      constructor
      · intro h
        cases h
        refine ⟨packets.length, List.getElem?_concat_length, hlast, fun k other hk hother => ?_⟩
        rw [List.getElem?_eq_none (by simp; omega)] at hother
        cases hother
      · rintro ⟨j, hj, -, hafter⟩
        have hlt : j < (packets ++ [last]).length := (List.getElem?_eq_some_iff.mp hj).1
        rw [List.length_append, List.length_singleton] at hlt
        by_cases hend : j = packets.length
        · rw [hend, List.getElem?_concat_length] at hj
          exact hj
        · have := hafter packets.length last (by omega) List.getElem?_concat_length
          rw [hlast] at this
          cases this
    | false =>
      refine ih.trans (exists_congr fun j => ?_)
      constructor
      · rintro ⟨hj, hp, hafter⟩
        have hlt : j < packets.length := (List.getElem?_eq_some_iff.mp hj).1
        refine ⟨by rw [List.getElem?_append_left hlt, hj], hp, fun k other hk hother => ?_⟩
        by_cases hend : k < packets.length
        · rw [List.getElem?_append_left hend] at hother
          exact hafter k other hk hother
        · have hk' : k = packets.length := by
            have := (List.getElem?_eq_some_iff.mp hother).1
            rw [List.length_append, List.length_singleton] at this
            omega
          rw [hk', List.getElem?_concat_length] at hother
          cases hother
          exact hlast
      · rintro ⟨hj, hp, hafter⟩
        have hlt : j < packets.length := by
          by_contra hge
          have hbound := (List.getElem?_eq_some_iff.mp hj).1
          rw [List.length_append, List.length_singleton] at hbound
          have hend : j = packets.length := by omega
          rw [hend, List.getElem?_concat_length] at hj
          cases hj
          rw [hlast] at hp
          cases hp
        rw [List.getElem?_append_left hlt] at hj
        refine ⟨hj, hp, fun k other hk hother => hafter k other hk ?_⟩
        rw [List.getElem?_append_left (List.getElem?_eq_some_iff.mp hother).1, hother]

theorem latestStored_eq_some {packet : RtpPacket} :
    latestStored stores q = some packet ↔
      ∃ j, stores[j]? = some packet ∧ LatestAt stores q j ∧ stores.length ≤ j + bufferSize := by
  rw [latestStored, find_last]
  simp only [List.getElem?_drop, decide_eq_true_eq, decide_eq_false_iff_not]
  constructor
  · intro ⟨j, hj, hq, hafter⟩
    refine ⟨stores.length - bufferSize + j, hj, ⟨by rw [seqAt, hj, ← hq]; rfl, fun k hk => ?_⟩,
      by omega⟩
    intro hseq
    obtain ⟨other, hother, hnumber⟩ := Option.map_eq_some_iff.mp hseq
    refine hafter (k - (stores.length - bufferSize)) other (by omega) ?_ hnumber
    rw [Nat.add_sub_cancel' (by omega), hother]
  · intro ⟨j, hj, hlatest, hwindow⟩
    have hindex : stores.length - bufferSize + (j - (stores.length - bufferSize)) = j := by omega
    refine ⟨j - (stores.length - bufferSize), by rw [hindex, hj], ?_,
      fun k other hk hother hq => ?_⟩
    · have h := hlatest.1
      rw [seqAt, hj] at h
      exact Option.some.inj h
    · refine hlatest.2 (stores.length - bufferSize + k) (by omega) ?_
      rw [seqAt, hother, ← hq]
      rfl

/-- The buffer has the latest packet of the last 512 stores, unless it was dropped in place of an
earlier one of the same number. -/
theorem get_eq_latestStored_iff :
    (storeAll stores).get q = latestStored stores q ↔ ¬ Forgotten stores q := by
  have hheld := (follows_storeAll stores).held q
  constructor
  · intro heq ⟨i, j, hij, hnear, hout, hin, hi, hj⟩
    obtain ⟨packet, hpacket, -⟩ := Option.map_eq_some_iff.mp hj.1
    have hlatest : latestStored stores q = some packet :=
      latestStored_eq_some.mpr ⟨j, hpacket, hj, hin⟩
    obtain ⟨j', -, hj', hkept⟩ := (hheld packet).mp (heq.trans hlatest)
    have hsame : j' = j := hj'.unique hj
    have := hkept i hi (by omega)
    omega
  · intro hforgotten
    ext packet
    rw [hheld packet, latestStored_eq_some]
    constructor
    · intro ⟨j, hj, hlatest, hkept⟩
      have hpos : 0 < bufferSize := by decide
      exact ⟨j, hj, hlatest, hkept j hlatest.1 (by omega)⟩
    · intro ⟨j, hj, hlatest, hin⟩
      refine ⟨j, hj, hlatest, fun i hi hnear => ?_⟩
      by_contra hout
      exact hforgotten ⟨i, j, by omega, hnear, by omega, hin, hi, hlatest⟩

end Last

/-! ## Answering a NACK -/

structure NackPair where
  packetId : UInt16
  lostPackets : UInt16
  deriving DecidableEq, Repr

/-- One bit of the mask, the lowest one that is left. -/
def scanBit (packetId : UInt16) (acc : List UInt16 × UInt16) (i : ℕ) : List UInt16 × UInt16 :=
  (if acc.2 &&& 1 = 1 then acc.1 ++ [packetId + UInt16.ofNat i] else acc.1, acc.2 >>> 1)

def requestPair (requested : List UInt16) (pair : NackPair) : List UInt16 :=
  ((List.range' 1 16).foldl (scanBit pair.packetId)
    (requested ++ [pair.packetId], pair.lostPackets)).1

def requestedSeqs (nacks : List NackPair) : List UInt16 := nacks.foldl requestPair []

/-- Look the requested numbers up one after the other, while the writer task goes on storing: the
packets written to the receiver's track again. -/
def retransmit (localSsrc : UInt32) (buffers : ℕ → PacketBufferInner) (nacks : List NackPair) :
    List RtpPacket :=
  (requestedSeqs nacks).zipIdx.filterMap fun request =>
    ((buffers request.2).get request.1).filter (·.ssrc = localSsrc)

/-- The numbers that a pair reports lost: its own, and the one i after it for each bit i - 1. -/
def lostSeqs (pair : NackPair) : List UInt16 :=
  pair.packetId :: ((List.range' 1 16).filter fun i => pair.lostPackets.toNat.testBit (i - 1)).map
    fun i => pair.packetId + UInt16.ofNat i

theorem and_one_eq_one_iff (mask : UInt16) : mask &&& 1 = 1 ↔ mask.toNat % 2 = 1 := by
  rw [← UInt16.toNat_inj, UInt16.toNat_and, show (1 : UInt16).toNat = 1 from rfl,
    Nat.and_one_is_mod]

theorem toNat_shiftRight_one (mask : UInt16) : (mask >>> 1).toNat = mask.toNat / 2 := by
  rw [UInt16.toNat_shiftRight]
  rfl

/-- The scan has shifted out the bits it has looked at. -/
theorem foldl_scanBit (packetId lost : UInt16) (count start : ℕ) (requested : List UInt16)
    (mask : UInt16) (hmask : mask.toNat = lost.toNat / 2 ^ start) :
    ((List.range' (start + 1) count).foldl (scanBit packetId) (requested, mask)).1 =
      requested ++ ((List.range' (start + 1) count).filter fun i =>
        lost.toNat.testBit (i - 1)).map fun i => packetId + UInt16.ofNat i := by
  induction count generalizing start requested mask with
  | zero => simp
  | succ count ih =>
    have hshift : (mask >>> 1).toNat = lost.toNat / 2 ^ (start + 1) := by
      rw [toNat_shiftRight_one, hmask, Nat.div_div_eq_div_mul, ← Nat.pow_succ]
    have hbit : (mask &&& 1 = 1) ↔ lost.toNat.testBit start = true := by
      rw [and_one_eq_one_iff, hmask, Nat.testBit_eq_decide_div_mod_eq, decide_eq_true_eq]
    rw [List.range'_succ, List.foldl_cons, scanBit, ih (start + 1) _ _ hshift, List.filter_cons,
      Nat.add_sub_cancel]
    by_cases h : mask &&& 1 = 1
    · rw [if_pos h, if_pos (hbit.mp h)]
      simp
    · rw [if_neg h, if_neg (fun hb => h (hbit.mpr hb))]

theorem requestPair_eq (requested : List UInt16) (pair : NackPair) :
    requestPair requested pair = requested ++ lostSeqs pair := by
  rw [requestPair, foldl_scanBit pair.packetId pair.lostPackets 16 0 _ _ (by simp), lostSeqs,
    List.append_assoc, List.singleton_append]

theorem requestedSeqs_eq (nacks : List NackPair) :
    requestedSeqs nacks = nacks.flatMap lostSeqs := by
  have h : ∀ requested, nacks.foldl requestPair requested =
      requested ++ nacks.flatMap lostSeqs := by
    intro requested
    induction nacks generalizing requested with
    | nil => simp
    | cons pair rest ih =>
      rw [List.foldl_cons, ih, requestPair_eq, List.flatMap_cons, List.append_assoc]
  exact (h []).trans (List.nil_append _)

/-- A buffer filled by the writer task has only packets with the receiver's SSRC. -/
theorem ssrc_of_forwardAll {localSsrc : UInt32} {received : List RtpPacket} {q : UInt16}
    {packet : RtpPacket} (h : (forwardAll localSsrc received).get q = some packet) :
    packet.ssrc = localSsrc := by
  obtain ⟨j, hj, -⟩ := ((follows_storeAll _).held q packet).mp h
  obtain ⟨original, -, rfl⟩ := List.mem_map.mp (List.mem_of_getElem? hj)
  rfl

theorem retransmit_eq (localSsrc : UInt32) (received : ℕ → List RtpPacket) (nacks : List NackPair) :
    retransmit localSsrc (fun i => forwardAll localSsrc (received i)) nacks =
      (nacks.flatMap lostSeqs).zipIdx.filterMap fun request =>
        (forwardAll localSsrc (received request.2)).get request.1 := by
  rw [retransmit, requestedSeqs_eq]
  apply List.filterMap_congr
  intro request _
  cases hget : (forwardAll localSsrc (received request.2)).get request.1 with
  | none => rfl
  | some packet => exact Option.filter_some_pos (decide_eq_true (ssrc_of_forwardAll hget))

/-- The buffer has at most 512 packets, a NACK asks for the numbers it reports lost and has those
sent again that the buffer holds, and a number's latest packet of the last 512 stores is found: all
of this exactly when that packet was not dropped in place of an earlier one of its number. -/
theorem packet_buffer_iff (stores : List RtpPacket) (q : UInt16) (localSsrc : UInt32)
    (received : ℕ → List RtpPacket) (nacks : List NackPair) :
    ((storeAll stores).get q = latestStored stores q ∧
      (storeAll stores).packets.entries.length ≤ bufferSize ∧
      requestedSeqs nacks = nacks.flatMap lostSeqs ∧
      retransmit localSsrc (fun i => forwardAll localSsrc (received i)) nacks =
        (nacks.flatMap lostSeqs).zipIdx.filterMap fun request =>
          (forwardAll localSsrc (received request.2)).get request.1) ↔
      ¬ Forgotten stores q := by
  rw [get_eq_latestStored_iff]
  exact ⟨fun h => h.1, fun h => ⟨h, packets_length_le stores, requestedSeqs_eq nacks,
    retransmit_eq localSsrc received nacks⟩⟩

def laterPackets : List RtpPacket :=
  (List.range 511).map fun i => ⟨UInt16.ofNat (i + 1), 7, []⟩

/-- Number 0 twice in a row, then the numbers from 1 to 511. -/
def duplicated : List RtpPacket := ⟨0, 7, [1]⟩ :: ⟨0, 7, [2]⟩ :: laterPackets

theorem duplicated_length : duplicated.length = 513 := by
  simp [duplicated, laterPackets]

theorem duplicated_kept (i : ℕ) : duplicated.length ≤ i + bufferSize ↔ 1 ≤ i := by
  rw [duplicated_length, show bufferSize = 512 from rfl]
  omega

theorem duplicated_latestAt : LatestAt duplicated 0 1 := by
  refine ⟨rfl, fun k hk hseq => ?_⟩
  obtain ⟨n, rfl⟩ : ∃ n, k = n + 2 := ⟨k - 2, by omega⟩
  obtain ⟨packet, hpacket, hnumber⟩ := Option.map_eq_some_iff.mp hseq
  rw [duplicated, List.getElem?_cons_succ, List.getElem?_cons_succ] at hpacket
  obtain ⟨i, hi, rfl⟩ := List.mem_map.mp (List.mem_of_getElem? hpacket)
  have hlt := List.mem_range.mp hi
  have hzero := congrArg UInt16.toNat hnumber
  simp only [UInt16.toNat_ofNat', UInt16.toNat_zero] at hzero
  omega

/-- The second packet is the second of 513 stores, and is gone. -/
theorem duplicated_dropped :
    latestStored duplicated 0 = some ⟨0, 7, [2]⟩ ∧ (storeAll duplicated).get 0 = none := by
  constructor
  · have hkept := (duplicated_kept 1).mpr (Nat.le_refl 1)
    have hsecond : duplicated[1]? = some ⟨0, 7, [2]⟩ := rfl
    exact latestStored_eq_some.mpr ⟨1, hsecond, duplicated_latestAt, hkept⟩
  · apply Option.eq_none_iff_forall_ne_some.mpr
    intro packet hpacket
    obtain ⟨j, -, hlatest, hkept⟩ := ((follows_storeAll duplicated).held 0 packet).mp hpacket
    have hone : j = 1 := hlatest.unique duplicated_latestAt
    have hplace := hkept 0 rfl (by rw [hone]; decide)
    exact absurd ((duplicated_kept 0).mp hplace) (Nat.not_succ_le_zero 0)

end OpenMeet.PacketBuffer
