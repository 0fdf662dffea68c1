import OpenMeet.MediaMoves

/-!
What holds of the media tasks whatever clients and WebRTC do: who is present,
who holds which lock, and where the forwards of the tasks come from. The room's
participants and published tracks change at three moves only, and a task in the
middle of its work holds the guards that keep the others out.
-/
namespace OpenMeet.MediaInvariants

open KeyedMap Messages RoomState MediaTasks MediaMoves

/-- The same participants, published tracks and ids ever used. -/
structure SameParties (s t : Media) : Prop where
  participants : t.room.participants = s.room.participants
  tracks : t.room.participantTracks = s.room.participantTracks
  known : t.known = s.known

namespace SameParties

variable {s t : Media} (h : SameParties s t)
include h

theorem trackIdsOf (p : ParticipantId) : t.room.trackIdsOf p = s.room.trackIdsOf p := by
  simp [Room.trackIdsOf, h.tracks]

end SameParties

section Frames

variable {s t : Media} {k : TaskId} {r : ParticipantId}

theorem late_parties {phase : LatePhase} {event : LateEvent}
    (h : LateMove s k r phase event t) : SameParties s t := by
  cases h <;> exact ⟨rfl, rfl, rfl⟩

theorem renegotiation_parties {trackId : TrackId} {phase : RenegotiationPhase}
    {event : RenegotiationEvent} (h : RenegotiationMove s k r trackId phase event t) :
    SameParties s t := by
  cases h <;> exact ⟨rfl, rfl, rfl⟩

theorem promotion_parties {phase : PromotionPhase} {event : PromotionEvent}
    (h : PromotionMove s k r phase event t) : SameParties s t := by
  cases h <;> exact ⟨rfl, rfl, rfl⟩

theorem retirement_parties {attempt : Nat} {result : OfferResult}
    (h : RetirementMove s k r attempt result t) : SameParties s t := by
  cases h <;> exact ⟨rfl, rfl, rfl⟩

theorem forward_parties {op : ForwardTrack} {a : Action} (h : ForwardMove s op a t) :
    SameParties s t := by
  cases h <;> exact ⟨rfl, rfl, rfl⟩

theorem removal_parties {p : ParticipantId} {removed : List TrackId} {phase : RemovalPhase}
    {a : Action} (h : RemovalMove s p removed phase a t) : SameParties s t := by
  cases h <;> exact ⟨rfl, rfl, rfl⟩

end Frames

/-- How a move changes who is present and what is published. -/
inductive PartiesChange (s : Media) : Action → Media → Prop
  | same {a : Action} {t : Media} (h : SameParties s t) : PartiesChange s a t
  | join (connection : ParticipantConnection) {t : Media}
      (hfresh : connection.participant.id ∉ s.known)
      (participants : ∀ p, p ∈ t.room.participants ↔
        p = connection.participant.id ∨ p ∈ s.room.participants)
      (tracks : t.room.participantTracks = s.room.participantTracks)
      (known : t.known = insert connection.participant.id s.known) :
      PartiesChange s (.join connection) t
  | track (p : ParticipantId) (track : TrackRemote) {t : Media} (hp : p ∈ s.room.participants)
      (participants : t.room.participants = s.room.participants)
      (tracks : ∀ q, t.room.trackIdsOf q =
        if q = p then s.room.trackIdsOf p ++ [track.id] else s.room.trackIdsOf q)
      (known : t.known = s.known) : PartiesChange s (.track p track) t
  | remove (p : ParticipantId) {t : Media} (hp : p ∈ s.room.participants)
      (participants : ∀ q, q ∈ t.room.participants ↔ q ≠ p ∧ q ∈ s.room.participants)
      (tracks : ∀ q, t.room.trackIdsOf q = if q = p then [] else s.room.trackIdsOf q)
      (known : t.known = s.known) : PartiesChange s (.remove p) t

theorem parties_cases {s t : Media} {a : Action} (h : Move s a t) : PartiesChange s a t := by
  cases h with
  | join connection hlock hreaders hfresh =>
    exact .join connection hfresh (by simp [Room.addParticipant]) rfl rfl
  | track p track hlock hreaders hp =>
    exact .track p track hp rfl (s.room.trackIdsOf_registerTrack p · track) rfl
  | remove p hlock hreaders hp hholder =>
    refine .remove p hp (by simp [Room.removeParticipantTracks]) (fun q => ?_) rfl
    by_cases hq : q = p
    · subst q
      simp [Room.trackIdsOf, Room.removeParticipantTracks]
    · simp [Room.trackIdsOf, Room.removeParticipantTracks, hq]
  | denyUser | revoke | clientOffer | clientOfferLate | failAnswer | clientAnswer =>
    exact .same ⟨rfl, rfl, rfl⟩
  | forward op hlock hmove => exact .same (forward_parties hmove)
  | removal p removed phase hlock hmove => exact .same (removal_parties hmove)
  | late k r phase htask hmove => exact .same (late_parties hmove)
  | renegotiation k r trackId phase htask hmove => exact .same (renegotiation_parties hmove)
  | promotion k r phase htask hmove => exact .same (promotion_parties hmove)
  | retirement k r attempt htask hmove => exact .same (retirement_parties hmove)

/-- The task whose move an action is. -/
def actor : Action → Option TaskId
  | .late k _ | .renegotiation k _ | .promotion k _ | .retirement k _ => some k
  | _ => none

/-- The forwards a late joiner's task has still in hand. -/
def forwardsOf : LatePhase → List Forward
  | .checking existing | .waiting existing => existing
  | .adding current rest pendingForwards => current.toList ++ rest ++ pendingForwards
  | .offering _ pendingForwards | .sending pendingForwards | .marking pendingForwards =>
    pendingForwards

def isAdding : LatePhase → Bool
  | .adding _ _ _ => true
  | _ => false

def holdsPeer : PromotionPhase → Bool
  | .sleeping | .checked => false
  | _ => true

/-- A source once published the track, and still does while it is present. -/
def Traced (s : Media) (f : Forward) : Prop :=
  f.source ∈ s.known ∧
    (f.source ∈ s.room.participants → f.track ∈ s.room.trackIdsOf f.source)

/-- A task in the middle of its work holds its guards. -/
def TaskOk (s : Media) (k : TaskId) : Task → Prop
  | .late r phase =>
    r ∈ s.known ∧ (∀ f ∈ forwardsOf phase, Traced s f) ∧
      (isAdding phase = true → s.holder r = some k)
  | .promotion r phase =>
    (phase ≠ .sleeping → k ∈ s.readers ∧ r ∈ s.room.participants) ∧
      (holdsPeer phase = true → s.holder r = some k)
  | _ => True

/-- An arriving track's source and receivers are present, and no receiver comes twice. -/
structure ForwardingOk (room : Room) (op : ForwardTrack) : Prop where
  published : op.track ∈ room.trackIdsOf op.source
  rest_present : ∀ r ∈ op.rest, r ∈ room.participants
  current_present : ∀ r, op.current = some r → r ∈ room.participants
  current_fresh : ∀ r, op.current = some r → r ∉ op.rest ∧ r ∉ op.receivers
  rest_fresh : ∀ r ∈ op.rest, r ∉ op.receivers

structure Coherent (s : Media) : Prop where
  present_known : ∀ p ∈ s.room.participants, p ∈ s.known
  published_present : ∀ p t, t ∈ s.room.trackIdsOf p → p ∈ s.room.participants
  gone_closed : ∀ p ∈ s.known, p ∉ s.room.participants → (s.peers p).signaling = .closed
  forwarding : ∀ op, s.lock = .forwarding op → ForwardingOk s.room op
  removing : ∀ p removed phase, s.lock = .removing p removed phase → p ∉ s.room.participants
  reading : s.readers ≠ ∅ → s.lock = .free
  tasks : ∀ k task, s.tasks.lookup k = some task → TaskOk s k task
  writers : ∀ e ∈ s.writers, Traced s e.2

theorem coherent_initial (roomId : RoomId) : Coherent (Media.initial roomId) := by
  constructor <;> simp [Media.initial, Room.new, Room.trackIdsOf]

section Step

variable {s t : Media} {a : Action}

theorem known_subset (h : Move s a t) : s.known ⊆ t.known := by
  cases parties_cases h with
  | same h => rw [h.known]
  | join connection hfresh participants tracks known =>
    rw [known]
    exact Finset.subset_insert ..
  | track p track hp participants tracks known => rw [known]
  | remove p hp participants tracks known => rw [known]

theorem traced_step {f : Forward} (h : Move s a t) (hf : Traced s f) : Traced t f := by
  refine ⟨known_subset h hf.1, fun hsource => ?_⟩
  cases parties_cases h with
  | same h =>
    rw [h.participants] at hsource
    rw [h.trackIdsOf]
    exact hf.2 hsource
  | join connection hfresh participants tracks known =>
    rcases (participants _).mp hsource with heq | hsource
    · exact absurd (heq ▸ hf.1) hfresh
    · have hpublished := hf.2 hsource
      simpa [Room.trackIdsOf, tracks] using hpublished
  | track p track hp participants tracks known =>
    rw [participants] at hsource
    have hpublished := hf.2 hsource
    rw [tracks]
    split
    · rename_i heq
      exact List.mem_append_left _ (heq ▸ hpublished)
    · exact hpublished
  | remove p hp participants tracks known =>
    obtain ⟨hne, hsource⟩ := (participants _).mp hsource
    rw [tracks, if_neg hne]
    exact hf.2 hsource

/-- The connection an action adds a track to. -/
def adding (s : Media) : Action → Option (ParticipantId × TrackId)
  | .addTrack (.subscribed _) | .addTrack .withoutEncoding =>
    match s.lock with
    | .forwarding op => op.current.map fun r => (r, op.track)
    | _ => none
  | .late k (.add true) =>
    match s.tasks.lookup k with
    | some (.late r (.adding (some f) _ _)) => some (r, f.track)
    | _ => none
  | _ => none

/-- What a move can do to one peer connection. -/
inductive PeerMove (s : Media) (a : Action) (p : ParticipantId) : Negotiation → Prop
  | same : PeerMove s a p (s.peers p)
  | addTrack (trackId : TrackId) (hadds : adding s a = some (p, trackId))
      (hopen : (s.peers p).signaling ≠ .closed) : PeerMove s a p ((s.peers p).addTrack trackId)
  | createOffer (hstable : (s.peers p).signaling = .stable) :
      PeerMove s a p (s.peers p).createOffer
  | setRemoteAnswer (hoffer : (s.peers p).signaling = .haveLocalOffer) :
      PeerMove s a p (s.peers p).setRemoteAnswer
  | answerClient
      (hready : (s.peers p).signaling = .stable ∨ (s.peers p).signaling = .haveRemoteOffer)
      (signaling : SignalingState) (hopen : signaling ≠ .closed)
      (hidle : signaling ≠ .haveLocalOffer) :
      PeerMove s a p { s.peers p with signaling := signaling }
  | close (hremoved : a = .remove p) : PeerMove s a p { s.peers p with signaling := .closed }

theorem peerMove_update {r : ParticipantId} {peer : Negotiation} (h : PeerMove s a r peer)
    (p : ParticipantId) : PeerMove s a p (Function.update s.peers r peer p) := by
  by_cases hp : p = r
  · subst p
    rw [Function.update_self]
    exact h
  · rw [Function.update_of_ne hp]
    exact .same

theorem peer_cases (h : Move s a t) (p : ParticipantId) : PeerMove s a p (t.peers p) := by
  cases h with
  | join | denyUser | revoke | track => exact .same
  | forward op hlock hmove =>
    cases hmove with
    | subscribed r k hcurrent hholder hk hopen =>
      exact peerMove_update (.addTrack op.track (by simp [adding, hlock, hcurrent]) hopen) p
    | withoutEncoding r hcurrent hholder hopen =>
      exact peerMove_update (.addTrack op.track (by simp [adding, hlock, hcurrent]) hopen) p
    | _ => exact .same
  | remove q => exact peerMove_update (.close rfl) p
  | removal q removed phase hlock hmove => cases hmove <;> exact .same
  | clientOffer r k hreachable hsignaling =>
    exact peerMove_update (.answerClient hsignaling .stable (by simp) (by simp)) p
  | clientOfferLate r k hreachable hsignaling =>
    exact peerMove_update (.answerClient hsignaling .stable (by simp) (by simp)) p
  | failAnswer r hreachable hsignaling =>
    exact peerMove_update (.answerClient hsignaling .haveRemoteOffer (by simp) (by simp)) p
  | clientAnswer r k hreachable hsignaling => exact peerMove_update (.setRemoteAnswer hsignaling) p
  | late k r phase htask hmove =>
    cases hmove with
    | add f rest pendingForwards hopen =>
      exact peerMove_update (.addTrack f.track (by simp [adding, htask]) hopen) p
    | created attempt pendingForwards hholder hstable =>
      exact peerMove_update (.createOffer hstable) p
    | _ => exact .same
  | renegotiation k r trackId phase htask hmove =>
    cases hmove with
    | unsent attempt hholder hstable => exact peerMove_update (.createOffer hstable) p
    | created attempt hholder hstable => exact peerMove_update (.createOffer hstable) p
    | _ => exact .same
  | promotion k r phase htask hmove =>
    cases hmove with
    | unsent missing hstable => exact peerMove_update (.createOffer hstable) p
    | created missing hstable => exact peerMove_update (.createOffer hstable) p
    | _ => exact .same
  | retirement k r attempt htask hmove =>
    cases hmove with
    | created hholder hstable => exact peerMove_update (.createOffer hstable) p
    | _ => exact .same

/-- A closed connection stays closed. -/
theorem closed_step {p : ParticipantId} (h : Move s a t)
    (hp : (s.peers p).signaling = .closed) : (t.peers p).signaling = .closed := by
  have hpeer := peer_cases h p
  generalize t.peers p = after at hpeer
  cases hpeer with
  | same => exact hp
  | addTrack => exact hp
  | createOffer hstable => simp [hp] at hstable
  | setRemoteAnswer hoffer => simp [hp] at hoffer
  | answerClient hready => simp [hp] at hready
  | close => rfl

theorem removed_closed {p : ParticipantId} (h : Move s (.remove p) t) :
    (t.peers p).signaling = .closed := by
  cases h with
  | remove => simp
  | forward op hlock hmove => cases hmove
  | removal q removed phase hlock hmove => cases hmove

theorem readers_step {j : TaskId} (h : Move s a t) (hj : j ∈ s.readers)
    (hother : actor a ≠ some j) :
    j ∈ t.readers := by
  cases h with
  | promotion k r phase htask hmove =>
    have hne : j ≠ k := fun heq => hother (by rw [heq]; rfl)
    cases hmove <;> simp [hj, hne]
  | forward op hlock hmove => cases hmove <;> exact hj
  | removal p removed phase hlock hmove => cases hmove <;> exact hj
  | late k r phase htask hmove => cases hmove <;> exact hj
  | renegotiation k r trackId phase htask hmove => cases hmove <;> exact hj
  | retirement k r attempt htask hmove => cases hmove <;> exact hj
  | _ => exact hj

/-- Nobody else takes a peer connection out of a task's hands. -/
theorem holder_step (w : Coherent s) {q : ParticipantId} {j : TaskId} (h : Move s a t)
    (hj : s.holder q = some j) (hother : actor a ≠ some j) : t.holder q = some j := by
  cases h with
  | late k r phase htask hmove =>
    have hne : j ≠ k := fun heq => hother (by rw [heq]; rfl)
    have hok := (w.tasks k _ htask).2.2
    cases hmove with
    | lockPeer existing hholder =>
      have hqr : q ≠ r := by
        rintro rfl
        simp [hholder] at hj
      simpa [hqr] using hj
    | unlock pendingForwards =>
      have hheld := hok rfl
      have hqr : q ≠ r := by
        rintro rfl
        exact hne (Option.some.inj (hj.symm.trans hheld))
      simpa [hqr] using hj
    | _ => exact hj
  | promotion k r phase htask hmove =>
    have hne : j ≠ k := fun heq => hother (by rw [heq]; rfl)
    have hok := (w.tasks k _ htask).2
    have hkept : holdsPeer phase = true → q ≠ r := by
      rintro hholds rfl
      exact hne (Option.some.inj (hj.symm.trans (hok hholds)))
    cases hmove with
    | lockPeer hholder =>
      have hqr : q ≠ r := by
        rintro rfl
        simp [hholder] at hj
      simpa [hqr] using hj
    | nothingMissing | giveUp | unsent | mark =>
      have hqr := hkept rfl
      simpa [hqr] using hj
    | _ => exact hj
  | forward op hlock hmove => cases hmove <;> exact hj
  | removal p removed phase hlock hmove => cases hmove <;> exact hj
  | renegotiation k r trackId phase htask hmove => cases hmove <;> exact hj
  | retirement k r attempt htask hmove => cases hmove <;> exact hj
  | _ => exact hj

theorem present_step {p : ParticipantId} (h : Move s a t) (hreaders : s.readers ≠ ∅)
    (hp : p ∈ s.room.participants) : p ∈ t.room.participants := by
  cases parties_cases h with
  | same h => rwa [h.participants]
  | join connection hfresh participants tracks known => exact (participants p).mpr (Or.inr hp)
  | track q track hq participants tracks known => rwa [participants]
  | remove q hq participants tracks known =>
    cases h with
    | remove p hlock hnone => exact absurd hnone hreaders
    | forward op hlock hmove => cases hmove
    | removal q removed phase hlock hmove => cases hmove

theorem reading_step (w : Coherent s) (h : Move s a t) (hreaders : t.readers ≠ ∅) :
    t.lock = .free := by
  cases h with
  | track p track hlock hnone => exact absurd hnone hreaders
  | remove p hlock hnone => exact absurd hnone hreaders
  | forward op hlock hmove =>
    have hbusy : s.readers = ∅ := by
      by_contra hne
      simp [w.reading hne] at hlock
    cases hmove <;> exact absurd hbusy hreaders
  | removal p removed phase hlock hmove =>
    have hbusy : s.readers = ∅ := by
      by_contra hne
      simp [w.reading hne] at hlock
    cases hmove <;> exact absurd hbusy hreaders
  | late k r phase htask hmove => cases hmove <;> exact w.reading hreaders
  | renegotiation k r trackId phase htask hmove => cases hmove <;> exact w.reading hreaders
  | retirement k r attempt htask hmove => cases hmove <;> exact w.reading hreaders
  | promotion k r phase htask hmove =>
    have hstill : s.readers.erase k ≠ ∅ → s.lock = .free := fun hne =>
      w.reading fun hempty => hne (by simp [hempty])
    cases hmove with
    | wake hlock => exact hlock
    | nothingMissing | giveUp | unsent | mark => exact hstill hreaders
    | _ => exact w.reading hreaders
  | _ => exact w.reading hreaders

/-- An iteration over the receivers keeps to receivers that have not had their turn. -/
theorem forwarding_move {op op' : ForwardTrack} (hok : ForwardingOk s.room op)
    (hmove : ForwardMove s op a t) (hlock : t.lock = .forwarding op') :
    ForwardingOk t.room op' := by
  obtain ⟨hpublished, hrest, hcurrent, hfresh, hunserved⟩ := hok
  cases hmove with
  | reserve r hnone hr hfree =>
    cases hlock
    refine ⟨hpublished, fun q hq => hrest q (Finset.mem_of_mem_erase hq), ?_, ?_,
      fun q hq => hunserved q (Finset.mem_of_mem_erase hq)⟩
    · rintro q ⟨⟩
      exact hrest r hr
    · rintro q ⟨⟩
      exact ⟨Finset.notMem_erase r op.rest, hunserved r hr⟩
  | skip r hnone hr htaken =>
    cases hlock
    exact ⟨hpublished, fun q hq => hrest q (Finset.mem_of_mem_erase hq), by simp, by simp,
      fun q hq => hunserved q (Finset.mem_of_mem_erase hq)⟩
  | subscribed r k hsome =>
    cases hlock
    refine ⟨hpublished, hrest, by simp, by simp, fun q hq hmem => ?_⟩
    rcases Finset.mem_insert.mp hmem with rfl | hmem
    · exact (hfresh q hsome).1 hq
    · exact hunserved q hq hmem
  | withoutEncoding r hsome =>
    cases hlock
    exact ⟨hpublished, hrest, by simp, by simp, hunserved⟩
  | failed r hsome =>
    cases hlock
    exact ⟨hpublished, hrest, by simp, by simp, hunserved⟩
  | finish => cases hlock

theorem forwarding_same {op : ForwardTrack} (hok : ForwardingOk s.room op)
    (hparties : SameParties s t) : ForwardingOk t.room op := by
  obtain ⟨hpublished, hrest, hcurrent, hfresh, hunserved⟩ := hok
  rw [← hparties.trackIdsOf] at hpublished
  rw [← hparties.participants] at hrest hcurrent
  exact ⟨hpublished, hrest, hcurrent, hfresh, hunserved⟩

theorem forwarding_step (w : Coherent s) (h : Move s a t) {op : ForwardTrack}
    (hlock : t.lock = .forwarding op) : ForwardingOk t.room op := by
  have hstays : SameParties s t → t.lock = s.lock → ForwardingOk t.room op :=
    fun hparties hsame => forwarding_same (w.forwarding op (hsame ▸ hlock)) hparties
  cases h with
  | join connection hfree =>
    have hfree : s.lock = .forwarding op := hlock
    simp_all
  | track p track hfree hnone hp =>
    cases hlock
    refine ⟨by simp [s.room.trackIdsOf_registerTrack], fun r hr => ?_, by simp, by simp, by simp⟩
    exact ((s.room.mem_receiversOf p r).mp (List.mem_toFinset.mp hr)).1
  | forward op' hbusy hmove => exact forwarding_move (w.forwarding op' hbusy) hmove hlock
  | remove => cases hlock
  | removal p removed phase hbusy hmove => cases hmove <;> cases hlock
  | late k r phase htask hmove => exact hstays (late_parties hmove) (by cases hmove <;> rfl)
  | renegotiation k r trackId phase htask hmove =>
    exact hstays (renegotiation_parties hmove) (by cases hmove <;> rfl)
  | promotion k r phase htask hmove =>
    exact hstays (promotion_parties hmove) (by cases hmove <;> rfl)
  | retirement k r attempt htask hmove =>
    exact hstays (retirement_parties hmove) (by cases hmove <;> rfl)
  | _ => exact hstays ⟨rfl, rfl, rfl⟩ rfl

theorem present_cases (h : Move s a t) {p : ParticipantId} (hp : p ∈ s.room.participants) :
    p ∈ t.room.participants ∨ a = .remove p := by
  cases parties_cases h with
  | same h => exact Or.inl (by rwa [h.participants])
  | join connection hfresh participants tracks known =>
    exact Or.inl ((participants p).mpr (Or.inr hp))
  | track q track hq participants tracks known => exact Or.inl (by rwa [participants])
  | remove q hq participants tracks known =>
    by_cases hpq : p = q
    · exact Or.inr (by rw [hpq])
    · exact Or.inl ((participants p).mpr ⟨hpq, hp⟩)

theorem remove_lock {p : ParticipantId} (h : Move s (.remove p) t) :
    t.lock = .removing p (s.room.trackIdsOf p) .negotiated := by
  cases h with
  | remove => rfl
  | forward op hlock hmove => cases hmove
  | removal q removed phase hlock hmove => cases hmove

theorem removing_cases {p : ParticipantId} {removed : List TrackId} {phase : RemovalPhase}
    (h : Move s a t) (hlock : s.lock = .removing p removed phase) :
    t.lock = s.lock ∨ RemovalMove s p removed phase a t := by
  cases h with
  | track q track hfree => simp [hfree] at hlock
  | remove q hfree => simp [hfree] at hlock
  | forward op hbusy hmove => simp [hbusy] at hlock
  | removal q removed' phase' hbusy hmove =>
    obtain ⟨rfl, rfl, rfl⟩ := RoomLock.removing.inj (hbusy.symm.trans hlock)
    exact Or.inr hmove
  | late k r phase htask hmove => cases hmove <;> exact Or.inl rfl
  | renegotiation k r trackId phase htask hmove => cases hmove <;> exact Or.inl rfl
  | promotion k r phase htask hmove => cases hmove <;> exact Or.inl rfl
  | retirement k r attempt htask hmove => cases hmove <;> exact Or.inl rfl
  | _ => exact Or.inl rfl

theorem removing_step (w : Coherent s) (h : Move s a t) {p : ParticipantId}
    {removed : List TrackId} {phase : RemovalPhase} (hlock : t.lock = .removing p removed phase) :
    p ∉ t.room.participants := by
  have hstays : SameParties s t → t.lock = s.lock → p ∉ t.room.participants := by
    intro hparties hsame
    rw [hparties.participants]
    exact w.removing p removed phase (hsame ▸ hlock)
  cases h with
  | join connection hfree =>
    have hbusy : s.lock = .removing p removed phase := hlock
    simp [hfree] at hbusy
  | track => cases hlock
  | remove q =>
    cases hlock
    simp [Room.removeParticipantTracks]
  | forward op hbusy hmove => cases hmove <;> cases hlock
  | removal q removed' phase' hbusy hmove =>
    have hgone := w.removing q removed' phase' hbusy
    cases hmove <;> cases hlock <;> exact hgone
  | late k r phase' htask hmove => exact hstays (late_parties hmove) (by cases hmove <;> rfl)
  | renegotiation k r trackId phase' htask hmove =>
    exact hstays (renegotiation_parties hmove) (by cases hmove <;> rfl)
  | promotion k r phase' htask hmove =>
    exact hstays (promotion_parties hmove) (by cases hmove <;> rfl)
  | retirement k r attempt htask hmove =>
    exact hstays (retirement_parties hmove) (by cases hmove <;> rfl)
  | _ => exact hstays ⟨rfl, rfl, rfl⟩ rfl

/-- A task is none the worse for the moves of others. -/
theorem taskOk_other (w : Coherent s) (h : Move s a t) {j : TaskId} {task : Task}
    (hok : TaskOk s j task) (hother : actor a ≠ some j) : TaskOk t j task := by
  cases task with
  | late r phase =>
    obtain ⟨hknown, hforwards, hadding⟩ := hok
    exact ⟨known_subset h hknown, fun f hf => traced_step h (hforwards f hf),
      fun hphase => holder_step w h (hadding hphase) hother⟩
  | promotion r phase =>
    obtain ⟨hreads, hholds⟩ := hok
    refine ⟨fun hphase => ?_, fun hphase => holder_step w h (hholds hphase) hother⟩
    obtain ⟨hreader, hr⟩ := hreads hphase
    exact ⟨readers_step h hreader hother, present_step h (Finset.ne_empty_of_mem hreader) hr⟩
  | renegotiation r trackId phase => trivial
  | retirement r attempt => trivial

theorem late_ok (w : Coherent s) {k : TaskId} {r : ParticipantId} {phase : LatePhase}
    {event : LateEvent} (htask : s.tasks.lookup k = some (.late r phase))
    (hmove : LateMove s k r phase event t) {task : Task} (hnew : t.tasks.lookup k = some task) :
    TaskOk t k task := by
  have hstep : Move s (.late k event) t := .late k r phase htask hmove
  obtain ⟨hknown, hforwards, hadding⟩ := w.tasks k _ htask
  have hr : r ∈ t.known := known_subset hstep hknown
  have htraced : ∀ f ∈ forwardsOf phase, Traced t f := fun f hf =>
    traced_step hstep (hforwards f hf)
  cases hmove with
  | active | collide | created | send =>
    simp only [Media.setTask, AList.lookup_insert, Option.some.injEq] at hnew
    subst hnew
    exact ⟨hr, htraced, by simp [isAdding]⟩
  | unlock =>
    simp only [Media.setTask, AList.lookup_insert, Option.some.injEq] at hnew
    subst hnew
    refine ⟨hr, fun f hf => htraced f ?_, by simp [isAdding]⟩
    simpa [forwardsOf] using hf
  | lockPeer =>
    simp only [Media.setTask, AList.lookup_insert, Option.some.injEq] at hnew
    subst hnew
    refine ⟨hr, fun f hf => htraced f ?_, by simp⟩
    simpa [forwardsOf] using hf
  | reserve f rest pendingForwards hf =>
    simp only [Media.setTask, AList.lookup_insert, Option.some.injEq] at hnew
    subst hnew
    refine ⟨hr, fun g hg => htraced g ?_, fun _ => hadding rfl⟩
    simp only [forwardsOf, Option.toList_some, Option.toList_none, List.mem_append,
      List.mem_singleton] at hg ⊢
    rcases hg with (rfl | hg) | hg
    · exact Or.inl (Or.inr hf)
    · exact Or.inl (Or.inr (List.mem_of_mem_erase hg))
    · exact Or.inr hg
  | skip f rest pendingForwards hf =>
    simp only [Media.setTask, AList.lookup_insert, Option.some.injEq] at hnew
    subst hnew
    refine ⟨hr, fun g hg => htraced g ?_, fun _ => hadding rfl⟩
    simp only [forwardsOf, Option.toList_none, List.mem_append, List.not_mem_nil] at hg ⊢
    rcases hg with (hg | hg) | hg
    · exact Or.inl (Or.inl hg)
    · exact Or.inl (Or.inr (List.mem_of_mem_erase hg))
    · exact Or.inr hg
  | add f rest pendingForwards =>
    simp only [Media.setTask, AList.lookup_insert, Option.some.injEq] at hnew
    subst hnew
    refine ⟨hr, fun g hg => htraced g ?_, fun _ => hadding rfl⟩
    simp only [forwardsOf, Option.toList_none, Option.toList_some, List.mem_append,
      List.mem_singleton, List.not_mem_nil] at hg ⊢
    tauto
  | release f rest pendingForwards =>
    simp only [Media.setTask, AList.lookup_insert, Option.some.injEq] at hnew
    subst hnew
    refine ⟨hr, fun g hg => htraced g ?_, fun _ => hadding rfl⟩
    simp only [forwardsOf, Option.toList_none, Option.toList_some, List.mem_append,
      List.mem_singleton, List.not_mem_nil] at hg ⊢
    tauto
  | inactive | giveUp | fail | drop | mark => simp at hnew

theorem promotion_ok (w : Coherent s) {k : TaskId} {r : ParticipantId} {phase : PromotionPhase}
    {event : PromotionEvent} (htask : s.tasks.lookup k = some (.promotion r phase))
    (hmove : PromotionMove s k r phase event t) {task : Task}
    (hnew : t.tasks.lookup k = some task) : TaskOk t k task := by
  obtain ⟨hreads, hholds⟩ := w.tasks k _ htask
  cases hmove with
  | wake hlock hactive =>
    simp only [Media.setTask, AList.lookup_insert, Option.some.injEq] at hnew
    subst hnew
    exact ⟨fun _ => ⟨Finset.mem_insert_self .., s.room.mem_of_isActive hactive⟩,
      by simp [holdsPeer]⟩
  | lockPeer hholder =>
    simp only [Media.setTask, AList.lookup_insert, Option.some.injEq] at hnew
    subst hnew
    exact ⟨fun _ => hreads (by simp), fun _ => by simp⟩
  | take | promote | collect | created =>
    simp only [Media.setTask, AList.lookup_insert, Option.some.injEq] at hnew
    subst hnew
    exact ⟨fun _ => hreads (by simp), fun _ => hholds rfl⟩
  | inactive | nothingMissing | giveUp | unsent | mark => simp at hnew

/-- The tasks a move starts, as they start. -/
inductive Spawned (s : Media) : Action → TaskId → Task → Prop
  | renegotiation (op : ForwardTrack) (r : ParticipantId) (k : TaskId)
      (hlock : s.lock = .forwarding op) (hcurrent : op.current = some r) :
      Spawned s (.addTrack (.subscribed k)) k
        (.renegotiation r op.track (.checkingNegotiated 1))
  | retirement (r : ParticipantId) (k : TaskId) : Spawned s (.retire k) k (.retirement r 1)
  | late (r : ParticipantId) (k : TaskId) (hreachable : s.reachable r = true) :
      Spawned s (.clientOffer r k) k (.late r (.checking (s.room.existingTracks r)))
  | promotion (r : ParticipantId) (k : TaskId) :
      Spawned s (.clientAnswer r k) k (.promotion r .sleeping)

theorem lookup_insert_cases {tasks : Map TaskId Task} {j k : TaskId} {task new : Task}
    (h : (tasks.insert k new).lookup j = some task) :
    (j = k ∧ task = new) ∨ (j ≠ k ∧ tasks.lookup j = some task) := by
  by_cases hj : j = k
  · subst j
    rw [AList.lookup_insert] at h
    exact Or.inl ⟨rfl, (Option.some.inj h).symm⟩
  · rw [AList.lookup_insert_ne hj] at h
    exact Or.inr ⟨hj, h⟩

theorem lookup_erase_cases {tasks : Map TaskId Task} {j k : TaskId} {task : Task}
    (h : (tasks.erase k).lookup j = some task) : j ≠ k ∧ tasks.lookup j = some task := by
  by_cases hj : j = k
  · subst j
    simp at h
  · rw [AList.lookup_erase_ne hj] at h
    exact ⟨hj, h⟩

theorem lookup_insert_self {tasks : Map TaskId Task} {k : TaskId} {task new : Task}
    (h : (tasks.insert k new).lookup k = some task) : new = task := by
  rw [AList.lookup_insert] at h
  exact Option.some.inj h

/-- The own moves of a task that goes on, with the task before and after. -/
inductive Advances (s : Media) (k : TaskId) : Action → Media → Task → Prop
  | late (r : ParticipantId) (before after : LatePhase) {event : LateEvent} {t : Media}
      (htask : s.tasks.lookup k = some (.late r before))
      (hmove : LateMove s k r before event t)
      (hafter : t.tasks.lookup k = some (.late r after)) :
      Advances s k (.late k event) t (.late r after)
  | renegotiation (r : ParticipantId) (trackId : TrackId) (before after : RenegotiationPhase)
      {event : RenegotiationEvent} {t : Media}
      (htask : s.tasks.lookup k = some (.renegotiation r trackId before))
      (hmove : RenegotiationMove s k r trackId before event t)
      (hafter : t.tasks.lookup k = some (.renegotiation r trackId after)) :
      Advances s k (.renegotiation k event) t (.renegotiation r trackId after)
  | promotion (r : ParticipantId) (before after : PromotionPhase) {event : PromotionEvent}
      {t : Media} (htask : s.tasks.lookup k = some (.promotion r before))
      (hmove : PromotionMove s k r before event t)
      (hafter : t.tasks.lookup k = some (.promotion r after)) :
      Advances s k (.promotion k event) t (.promotion r after)
  | retirement (r : ParticipantId) (before after : Nat) {result : OfferResult} {t : Media}
      (htask : s.tasks.lookup k = some (.retirement r before))
      (hmove : RetirementMove s k r before result t)
      (hafter : t.tasks.lookup k = some (.retirement r after)) :
      Advances s k (.retirement k result) t (.retirement r after)

/-- Where a task of the state after a move comes from. -/
theorem task_cases {j : TaskId} {task : Task} (h : Move s a t)
    (hj : t.tasks.lookup j = some task) :
    Advances s j a t task ∨ (actor a ≠ some j ∧ s.tasks.lookup j = some task) ∨
      Spawned s a j task := by
  have hother : ∀ {k : TaskId}, actor a = some k → j ≠ k ∧ s.tasks.lookup j = some task →
      Advances s j a t task ∨ (actor a ≠ some j ∧ s.tasks.lookup j = some task) ∨
        Spawned s a j task := by
    rintro k hk ⟨hne, hlookup⟩
    exact Or.inr (Or.inl ⟨by simpa [hk] using hne.symm, hlookup⟩)
  cases h with
  | forward op hlock hmove =>
    cases hmove with
    | subscribed r k hcurrent =>
      rcases lookup_insert_cases hj with ⟨rfl, rfl⟩ | ⟨-, hj⟩
      · exact Or.inr (Or.inr (.renegotiation op r _ hlock hcurrent))
      · exact Or.inr (Or.inl ⟨by simp [actor], hj⟩)
    | _ => exact Or.inr (Or.inl ⟨by simp [actor], hj⟩)
  | removal p removed phase hlock hmove =>
    cases hmove with
    | retire r stale k =>
      rcases lookup_insert_cases hj with ⟨rfl, rfl⟩ | ⟨-, hj⟩
      · exact Or.inr (Or.inr (.retirement r _))
      · exact Or.inr (Or.inl ⟨by simp [actor], hj⟩)
    | _ => exact Or.inr (Or.inl ⟨by simp [actor], hj⟩)
  | clientOfferLate r k hreachable =>
    rcases lookup_insert_cases hj with ⟨rfl, rfl⟩ | ⟨-, hj⟩
    · exact Or.inr (Or.inr (.late r _ hreachable))
    · exact Or.inr (Or.inl ⟨by simp [actor], hj⟩)
  | clientAnswer r k =>
    rcases lookup_insert_cases hj with ⟨rfl, rfl⟩ | ⟨-, hj⟩
    · exact Or.inr (Or.inr (.promotion r _))
    · exact Or.inr (Or.inl ⟨by simp [actor], hj⟩)
  | late k r phase htask hmove =>
    have hown := hmove
    cases hmove <;> first
      | (rcases lookup_insert_cases hj with ⟨rfl, rfl⟩ | hold
         · exact Or.inl (.late r _ _ htask hown hj)
         · exact hother rfl hold)
      | exact hother rfl (lookup_erase_cases hj)
  | renegotiation k r trackId phase htask hmove =>
    have hown := hmove
    cases hmove <;> first
      | (rcases lookup_insert_cases hj with ⟨rfl, rfl⟩ | hold
         · exact Or.inl (.renegotiation r trackId _ _ htask hown hj)
         · exact hother rfl hold)
      | exact hother rfl (lookup_erase_cases hj)
  | promotion k r phase htask hmove =>
    have hown := hmove
    cases hmove <;> first
      | (rcases lookup_insert_cases hj with ⟨rfl, rfl⟩ | hold
         · exact Or.inl (.promotion r _ _ htask hown hj)
         · exact hother rfl hold)
      | exact hother rfl (lookup_erase_cases hj)
  | retirement k r attempt htask hmove =>
    have hown := hmove
    cases hmove <;> first
      | (rcases lookup_insert_cases hj with ⟨rfl, rfl⟩ | hold
         · exact Or.inl (.retirement r _ _ htask hown hj)
         · exact hother rfl hold)
      | exact hother rfl (lookup_erase_cases hj)
  | _ => exact Or.inr (Or.inl ⟨by simp [actor], hj⟩)

/-- A task stays where it is while others move. -/
theorem lookup_other {j : TaskId} {task : Task} (h : Move s a t)
    (hj : s.tasks.lookup j = some task) (hother : actor a ≠ some j) :
    t.tasks.lookup j = some task := by
  have hspawn : ∀ {k : TaskId} {new : Task}, k ∉ s.tasks →
      (s.tasks.insert k new).lookup j = some task := by
    intro k new hk
    have hne : j ≠ k := by
      rintro rfl
      simp [AList.lookup_eq_none.mpr hk] at hj
    rwa [AList.lookup_insert_ne hne]
  have hmoved : ∀ {k : TaskId}, some k ≠ some j →
      (∀ new, (s.tasks.insert k new).lookup j = some task) ∧
        (s.tasks.erase k).lookup j = some task := by
    intro k hk
    have hne : j ≠ k := fun heq => hk (by rw [heq])
    rw [AList.lookup_erase_ne hne]
    exact ⟨fun new => by rwa [AList.lookup_insert_ne hne], hj⟩
  cases h with
  | forward op hlock hmove =>
    cases hmove with
    | subscribed r k hcurrent hholder hk => exact hspawn hk
    | _ => exact hj
  | removal p removed phase hlock hmove =>
    cases hmove with
    | retire r stale k hk => exact hspawn hk
    | _ => exact hj
  | clientOfferLate r k hreachable hsignaling hk => exact hspawn hk
  | clientAnswer r k hreachable hsignaling hk => exact hspawn hk
  | late k r phase htask hmove =>
    cases hmove <;> first | exact (hmoved hother).1 _ | exact (hmoved hother).2
  | renegotiation k r trackId phase htask hmove =>
    cases hmove <;> first | exact (hmoved hother).1 _ | exact (hmoved hother).2
  | promotion k r phase htask hmove =>
    cases hmove <;> first | exact (hmoved hother).1 _ | exact (hmoved hother).2
  | retirement k r attempt htask hmove =>
    cases hmove <;> first | exact (hmoved hother).1 _ | exact (hmoved hother).2
  | _ => exact hj

/-- What a late joiner's task does when it is its turn. -/
theorem late_acts {k : TaskId} {r : ParticipantId} {phase : LatePhase} (h : Move s a t)
    (hactor : actor a = some k) (hk : s.tasks.lookup k = some (.late r phase)) :
    ∃ event, a = .late k event ∧ LateMove s k r phase event t := by
  cases h with
  | late j q before htask hmove =>
    cases hactor
    cases hk.symm.trans htask
    exact ⟨_, rfl, hmove⟩
  | renegotiation j q trackId before htask hmove =>
    cases hactor
    cases hk.symm.trans htask
  | promotion j q before htask hmove =>
    cases hactor
    cases hk.symm.trans htask
  | retirement j q attempt htask hmove =>
    cases hactor
    cases hk.symm.trans htask
  | forward op hlock hmove => cases hmove <;> cases hactor
  | removal p removed before hlock hmove => cases hmove <;> cases hactor
  | _ => cases hactor

theorem forwarding_moves {op : ForwardTrack} (h : Move s a t) (hlock : s.lock = .forwarding op) :
    t.lock = s.lock ∨ ForwardMove s op a t := by
  cases h with
  | track q track hfree => simp [hfree] at hlock
  | remove q hfree => simp [hfree] at hlock
  | removal q removed phase hbusy hmove => simp [hbusy] at hlock
  | forward op' hbusy hmove =>
    obtain rfl := RoomLock.forwarding.inj (hbusy.symm.trans hlock)
    exact Or.inr hmove
  | late k r phase htask hmove => cases hmove <;> exact Or.inl rfl
  | renegotiation k r trackId phase htask hmove => cases hmove <;> exact Or.inl rfl
  | promotion k r phase htask hmove => cases hmove <;> exact Or.inl rfl
  | retirement k r attempt htask hmove => cases hmove <;> exact Or.inl rfl
  | _ => exact Or.inl rfl

theorem reachable_present {r : ParticipantId} (h : s.reachable r = true) :
    r ∈ s.room.participants := by
  simp only [Media.reachable, Bool.and_eq_true] at h
  exact s.room.mem_of_isActive h.1.1.2

theorem existing_traced (w : Coherent s) {r : ParticipantId} {f : Forward}
    (hf : f ∈ s.room.existingTracks r) : Traced s f := by
  obtain ⟨-, hpublished⟩ := (s.room.mem_existingTracks r f).mp hf
  exact ⟨w.present_known _ (w.published_present _ _ hpublished), fun _ => hpublished⟩

theorem task_ok_step (w : Coherent s) (h : Move s a t) {j : TaskId} {task : Task}
    (hj : t.tasks.lookup j = some task) : TaskOk t j task := by
  rcases task_cases h hj with hadvances | ⟨hother, hlookup⟩ | hspawned
  · cases hadvances with
    | late r before after htask hmove hafter => exact late_ok w htask hmove hafter
    | promotion r before after htask hmove hafter => exact promotion_ok w htask hmove hafter
    | renegotiation => trivial
    | retirement => trivial
  · exact taskOk_other w h (w.tasks j task hlookup) hother
  · cases hspawned with
    | renegotiation => trivial
    | retirement => trivial
    | late r k hreachable =>
      refine ⟨known_subset h (w.present_known r (reachable_present hreachable)), ?_,
        by simp [isAdding]⟩
      exact fun f hf => traced_step h (existing_traced w hf)
    | promotion r k => exact ⟨by simp, by simp [holdsPeer]⟩

theorem writers_step (w : Coherent s) (h : Move s a t) {e : ParticipantId × Forward}
    (he : e ∈ t.writers) : Traced t e.2 := by
  by_cases hold : e ∈ s.writers
  · exact traced_step h (w.writers e hold)
  · refine traced_step h ?_
    cases h with
    | forward op hlock hmove =>
      cases hmove with
      | finish =>
        rcases Finset.mem_union.mp he with he | he
        · exact absurd he hold
        · obtain ⟨r, -, rfl⟩ := Finset.mem_image.mp he
          have hpublished := (w.forwarding op hlock).published
          exact ⟨w.present_known _ (w.published_present _ _ hpublished), fun _ => hpublished⟩
      | _ => exact absurd he hold
    | late k r phase htask hmove =>
      cases hmove with
      | mark pendingForwards withoutEncoding =>
        rcases Finset.mem_union.mp he with he | he
        · exact absurd he hold
        · obtain ⟨f, hf, rfl⟩ := List.mem_map.mp (List.mem_toFinset.mp he)
          exact (w.tasks k _ htask).2.1 f (List.mem_of_mem_filter hf)
      | _ => exact absurd he hold
    | removal p removed phase hlock hmove => cases hmove <;> exact absurd he hold
    | renegotiation k r trackId phase htask hmove => cases hmove <;> exact absurd he hold
    | promotion k r phase htask hmove => cases hmove <;> exact absurd he hold
    | retirement k r attempt htask hmove => cases hmove <;> exact absurd he hold
    | _ => exact absurd he hold

theorem coherent_step (w : Coherent s) (h : Move s a t) : Coherent t where
  present_known := by
    intro p hp
    cases parties_cases h with
    | same h =>
      rw [h.known]
      exact w.present_known p (h.participants ▸ hp)
    | join connection hfresh participants tracks known =>
      rw [known, Finset.mem_insert]
      exact ((participants p).mp hp).imp_right (w.present_known p)
    | track q track hq participants tracks known =>
      rw [known]
      exact w.present_known p (participants ▸ hp)
    | remove q hq participants tracks known =>
      rw [known]
      exact w.present_known p ((participants p).mp hp).2
  published_present := by
    intro p u hu
    cases parties_cases h with
    | same h =>
      rw [h.trackIdsOf] at hu
      rw [h.participants]
      exact w.published_present p u hu
    | join connection hfresh participants tracks known =>
      have hu : u ∈ s.room.trackIdsOf p := by simpa [Room.trackIdsOf, tracks] using hu
      exact (participants p).mpr (Or.inr (w.published_present p u hu))
    | track q track hq participants tracks known =>
      rw [tracks] at hu
      rw [participants]
      split at hu
      · rename_i heq
        exact heq ▸ hq
      · exact w.published_present p u hu
    | remove q hq participants tracks known =>
      rw [tracks] at hu
      split at hu
      · cases hu
      · rename_i hne
        exact (participants p).mpr ⟨hne, w.published_present p u hu⟩
  gone_closed := by
    intro p hp hgone
    cases parties_cases h with
    | same same =>
      rw [same.known] at hp
      rw [same.participants] at hgone
      exact closed_step h (w.gone_closed p hp hgone)
    | join connection hfresh participants tracks known =>
      rw [participants, not_or] at hgone
      rw [known, Finset.mem_insert] at hp
      exact closed_step h (w.gone_closed p (hp.resolve_left hgone.1) hgone.2)
    | track q track hq participants tracks known =>
      rw [known] at hp
      rw [participants] at hgone
      exact closed_step h (w.gone_closed p hp hgone)
    | remove q hq participants tracks known =>
      by_cases hpq : p = q
      · subst p
        exact removed_closed h
      · rw [known] at hp
        exact closed_step h (w.gone_closed p hp fun hp' => hgone ((participants p).mpr ⟨hpq, hp'⟩))
  forwarding := fun _ hlock => forwarding_step w h hlock
  removing := fun _ _ _ hlock => removing_step w h hlock
  reading := reading_step w h
  tasks := fun _ _ hj => task_ok_step w h hj
  writers := fun _ he => writers_step w h he

end Step

end OpenMeet.MediaInvariants
