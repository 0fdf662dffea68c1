import OpenMeet.RoomState

/-!
Forwarding media inside a room: which receivers a new track goes to, which
existing tracks a late joiner is owed, and the books kept on the way. A track
is reserved for a receiver before it is added to the receiver's connection, its
sender is recorded under the source it came from, and its id is pending from a
server offer until the receiver's answer promotes it.
-/
namespace OpenMeet.RoomState

open KeyedMap Messages

/-- A track of one source, as a receiver may be forwarded it. -/
structure Forward where
  source : ParticipantId
  track : TrackId
  deriving DecidableEq, Repr

namespace Room

/-- An active participant, signed in as the user it joined as. -/
def isActive (room : Room) (participantId : ParticipantId) : Bool :=
  room.hasActiveParticipant participantId
    ((room.participants.lookup participantId).bind (·.participant.userId))

def hasPeerConnection (room : Room) (participantId : ParticipantId) : Bool :=
  ((room.participants.lookup participantId).bind (·.peerConnection)).isSome

/-- Store the track among those its participant sends. -/
def registerTrack (room : Room) (participantId : ParticipantId) (track : TrackRemote) : Room :=
  { room with
    participantTracks := room.participantTracks.insert participantId
      ((room.participantTracks.lookup participantId).getD [] ++ [{ track := track }]) }

/-- The receivers a track of the source is forwarded to when it arrives. -/
def receiversOf (room : Room) (sourceId : ParticipantId) : List ParticipantId :=
  room.participants.keys.filter fun id =>
    room.shouldForward sourceId id && room.hasPeerConnection id

/-- The tracks already there when the receiver's first offer is answered. -/
def existingTracks (room : Room) (receiverId : ParticipantId) : List Forward :=
  (room.participantTracks.entries.filter fun e => room.shouldForward e.1 receiverId).flatMap
    fun e => e.2.map fun info => { source := e.1, track := info.track.id }

/-- Claim a track for a receiver; false when its id is claimed already. -/
def reserveForwardedTrack (tracks : TrackSets) (participantId : ParticipantId)
    (trackId : TrackId) : Bool × TrackSets :=
  if trackId ∈ tracks.setAt participantId then (false, tracks)
  else (true, tracks.insertAt participantId trackId)

def releaseForwardedTrack (tracks : TrackSets) (participantId : ParticipantId)
    (trackId : TrackId) : TrackSets :=
  tracks.discardAt participantId trackId

def recordForwardedSender (room : Room) (receiverId sourceId : ParticipantId)
    (sender : RtpSender) : Room :=
  { room with
    forwardedSenders := room.forwardedSenders.insert receiverId
      ((room.forwardedSenders.lookup receiverId).getD [] ++ [(sourceId, sender)]) }

def trackIsNegotiatedOrPending (room : Room) (participantId : ParticipantId)
    (trackId : TrackId) : Bool :=
  trackId ∈ room.negotiatedTracks.setAt participantId ||
    trackId ∈ room.pendingNegotiatedTracks.setAt participantId

def reserve (room : Room) (receiverId : ParticipantId) (trackId : TrackId) : Room :=
  { room with
    forwardedTracks := (reserveForwardedTrack room.forwardedTracks receiverId trackId).2 }

def release (room : Room) (receiverId : ParticipantId) (trackId : TrackId) : Room :=
  { room with
    forwardedTracks := releaseForwardedTrack room.forwardedTracks receiverId trackId }

/-- Note the ids of a queued server offer. -/
def markPending (room : Room) (receiverId : ParticipantId) (trackIds : List TrackId) : Room :=
  { room with
    pendingNegotiatedTracks :=
      Map.insertEach receiverId trackIds room.pendingNegotiatedTracks }

/-- Empty the receiver's pending set, as the promotion after an answer does. -/
def takePending (room : Room) (receiverId : ParticipantId) : Room :=
  { room with
    pendingNegotiatedTracks := room.pendingNegotiatedTracks.erase receiverId }

def extendNegotiated (room : Room) (receiverId : ParticipantId) (trackIds : Finset TrackId) :
    Room :=
  { room with
    negotiatedTracks :=
      if trackIds = ∅ then room.negotiatedTracks
      else room.negotiatedTracks.extendAt receiverId trackIds }

/-- The ids the promotion task offers again: published for the receiver and reserved for
it, but neither negotiated nor pending. -/
def missingTrackIds (room : Room) (receiverId : ParticipantId) : List TrackId :=
  ((room.existingTracks receiverId).map (·.track)).filter fun trackId =>
    trackId ∉ room.negotiatedTracks.setAt receiverId &&
      trackId ∉ room.pendingNegotiatedTracks.setAt receiverId &&
      trackId ∈ room.forwardedTracks.setAt receiverId

section Lemmas

variable (room : Room)

theorem mem_of_isActive {p : ParticipantId} (h : room.isActive p = true) :
    p ∈ room.participants := by
  simp only [isActive, hasActiveParticipant, Bool.and_eq_true, decide_eq_true_eq] at h
  exact h.2

theorem reserveForwardedTrack_fst (tracks : TrackSets) (p : ParticipantId) (t : TrackId) :
    (reserveForwardedTrack tracks p t).1 = true ↔ t ∉ tracks.setAt p := by
  unfold reserveForwardedTrack
  split <;> simp_all

theorem mem_setAt_reserve (p q : ParticipantId) (t u : TrackId) :
    u ∈ (room.reserve p t).forwardedTracks.setAt q ↔
      (q = p ∧ u = t) ∨ u ∈ room.forwardedTracks.setAt q := by
  unfold reserve reserveForwardedTrack
  split
  · grind
  · exact Map.mem_setAt_insertAt ..

theorem mem_reserve (p q : ParticipantId) (t : TrackId) :
    q ∈ (room.reserve p t).forwardedTracks ↔ q = p ∨ q ∈ room.forwardedTracks := by
  unfold reserve reserveForwardedTrack
  split
  · rename_i h
    have hp : p ∈ room.forwardedTracks := Map.mem_of_mem_setAt h
    grind
  · exact Map.mem_insertAt ..

theorem trackIdsOf_registerTrack (p q : ParticipantId) (track : TrackRemote) :
    (room.registerTrack p track).trackIdsOf q =
      if q = p then room.trackIdsOf p ++ [track.id] else room.trackIdsOf q := by
  by_cases h : q = p
  · subst q
    simp [registerTrack, trackIdsOf]
  · simp [registerTrack, trackIdsOf, h]

theorem mem_existingTracks (r : ParticipantId) (f : Forward) :
    f ∈ room.existingTracks r ↔
      room.shouldForward f.source r = true ∧ f.track ∈ room.trackIdsOf f.source := by
  constructor
  · intro h
    obtain ⟨e, he, hf⟩ := List.mem_flatMap.mp h
    obtain ⟨hentry, hforward⟩ := List.mem_filter.mp he
    obtain ⟨info, hinfo, rfl⟩ := List.mem_map.mp hf
    have hlookup : room.participantTracks.lookup e.1 = some e.2 := AList.mem_lookup_iff.mpr hentry
    refine ⟨hforward, ?_⟩
    simp only [trackIdsOf, hlookup, Option.getD_some]
    exact List.mem_map_of_mem hinfo
  · rintro ⟨hforward, htrack⟩
    cases hlookup : room.participantTracks.lookup f.source with
    | none => simp [trackIdsOf, hlookup] at htrack
    | some infos =>
      simp only [trackIdsOf, hlookup, Option.getD_some, List.mem_map] at htrack
      obtain ⟨info, hinfo, htrack⟩ := htrack
      have hentry : (⟨f.source, infos⟩ : Sigma fun _ : ParticipantId => List SenderTrackInfo) ∈
          room.participantTracks.entries := AList.mem_lookup_iff.mp hlookup
      refine List.mem_flatMap.mpr ⟨_, List.mem_filter.mpr ⟨hentry, hforward⟩, ?_⟩
      exact List.mem_map.mpr ⟨info, hinfo, by rw [htrack]⟩

theorem mem_receiversOf (source r : ParticipantId) :
    r ∈ room.receiversOf source ↔
      r ∈ room.participants ∧ room.shouldForward source r = true ∧
        room.hasPeerConnection r = true := by
  simp [receiversOf, AList.mem_keys]

theorem ne_of_shouldForward {source r : ParticipantId} (h : room.shouldForward source r = true) :
    source ≠ r := by
  intro heq
  simp [shouldForward, heq] at h

@[simp] theorem setAt_clearTracks (tracks : TrackSets) (p q : ParticipantId)
    (removed : List TrackId) :
    Map.setAt (clearTracks tracks p removed) q =
      if q = p then ∅ else (tracks.setAt q).filter (· ∉ removed) := by
  unfold clearTracks
  by_cases h : q = p <;> simp [h]

theorem mem_setAt_release (p q : ParticipantId) (t u : TrackId) :
    u ∈ (room.release p t).forwardedTracks.setAt q ↔
      u ∈ room.forwardedTracks.setAt q ∧ ¬ (q = p ∧ u = t) :=
  Map.mem_setAt_discardAt ..

theorem mem_setAt_markPending (p q : ParticipantId) (ids : List TrackId) (t : TrackId) :
    t ∈ (room.markPending p ids).pendingNegotiatedTracks.setAt q ↔
      (q = p ∧ t ∈ ids) ∨ t ∈ room.pendingNegotiatedTracks.setAt q :=
  Map.mem_setAt_insertEach ..

theorem mem_markPending (p q : ParticipantId) (ids : List TrackId) :
    q ∈ (room.markPending p ids).pendingNegotiatedTracks ↔
      (q = p ∧ ids ≠ []) ∨ q ∈ room.pendingNegotiatedTracks :=
  Map.mem_insertEach ..

theorem mem_setAt_extendNegotiated (p q : ParticipantId) (ids : Finset TrackId) (t : TrackId) :
    t ∈ (room.extendNegotiated p ids).negotiatedTracks.setAt q ↔
      (q = p ∧ t ∈ ids) ∨ t ∈ room.negotiatedTracks.setAt q := by
  by_cases h : ids = ∅
  · simp [extendNegotiated, h]
  · simp [extendNegotiated, h, Map.mem_setAt_extendAt]

theorem mem_clearTracks {tracks : TrackSets} {p q : ParticipantId} {removed : List TrackId} :
    q ∈ clearTracks tracks p removed ↔ q ≠ p ∧ q ∈ tracks := by
  simp [clearTracks, Map.retainValues]

theorem mem_retireSendersFrom {p q : ParticipantId} :
    q ∈ (room.retireSendersFrom p).forwardedSenders ↔ q ≠ p ∧ q ∈ room.forwardedSenders := by
  simp [retireSendersFrom]

theorem mem_senders_retireSendersFrom {p q : ParticipantId}
    {senders : List (ParticipantId × RtpSender)}
    {e : ParticipantId × RtpSender}
    (hq : (room.retireSendersFrom p).forwardedSenders.lookup q = some senders)
    (he : e ∈ senders) :
    e.1 ≠ p ∧ ∃ senders, room.forwardedSenders.lookup q = some senders ∧ e ∈ senders := by
  by_cases hqp : q = p
  · subst q
    simp [retireSendersFrom] at hq
  · simp only [retireSendersFrom, Map.lookup_mapValues, AList.lookup_erase_ne hqp,
      Option.map_eq_some_iff] at hq
    obtain ⟨before, hbefore, rfl⟩ := hq
    obtain ⟨hmem, hne⟩ := List.mem_filter.mp he
    exact ⟨by simpa using hne, before, hbefore, hmem⟩

theorem mem_senders_recordForwardedSender {p q source : ParticipantId} {sender : RtpSender}
    {senders : List (ParticipantId × RtpSender)} {e : ParticipantId × RtpSender}
    (hq : (room.recordForwardedSender p source sender).forwardedSenders.lookup q = some senders)
    (he : e ∈ senders) :
    e = (source, sender) ∨ ∃ senders, room.forwardedSenders.lookup q = some senders ∧
      e ∈ senders := by
  by_cases hqp : q = p
  · subst q
    simp only [recordForwardedSender, AList.lookup_insert, Option.some.injEq] at hq
    subst hq
    rcases List.mem_append.mp he with he | he
    · cases hbefore : room.forwardedSenders.lookup p with
      | none => simp [hbefore] at he
      | some before => exact Or.inr ⟨before, rfl, by simpa [hbefore] using he⟩
    · exact Or.inl (List.mem_singleton.mp he)
  · rw [recordForwardedSender, AList.lookup_insert_ne hqp] at hq
    exact Or.inr ⟨senders, hq, he⟩

section Removal

variable {room} {p : ParticipantId} (h : p ∈ room.participants)
include h

theorem removeParticipant_negotiatedTracks :
    (room.removeParticipant p).1.negotiatedTracks =
      clearTracks room.negotiatedTracks p (room.trackIdsOf p) := by
  simp only [removeParticipant, h, if_true]
  rfl

theorem removeParticipant_pendingNegotiatedTracks :
    (room.removeParticipant p).1.pendingNegotiatedTracks =
      clearTracks room.pendingNegotiatedTracks p (room.trackIdsOf p) := by
  simp only [removeParticipant, h, if_true]
  rfl

theorem removeParticipant_forwardedTracks :
    (room.removeParticipant p).1.forwardedTracks =
      clearTracks room.forwardedTracks p (room.trackIdsOf p) := by
  simp only [removeParticipant, h, if_true]
  rfl

theorem trackIdsOf_removeParticipant (q : ParticipantId) :
    (room.removeParticipant p).1.trackIdsOf q = if q = p then [] else room.trackIdsOf q := by
  have htracks : (room.removeParticipant p).1.participantTracks =
      room.participantTracks.erase p := by
    simp only [removeParticipant, h, if_true]
    rfl
  by_cases hq : q = p
  · subst q
    simp [trackIdsOf, htracks]
  · simp [trackIdsOf, htracks, hq]

end Removal

end Lemmas

end Room

end OpenMeet.RoomState
