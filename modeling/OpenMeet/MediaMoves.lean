import OpenMeet.MediaTasks

/-!
What a step of the media tasks can do. The step function is inverted once into
relations, one for each kind of task and one for the room as a whole, so that
an invariant about a map looks at the few moves that touch the map and takes
the frame of the others as it stands.
-/
namespace OpenMeet.MediaMoves

open KeyedMap Messages RoomState TransitionSystem MediaTasks

inductive LateMove (s : Media) (k : TaskId) (r : ParticipantId) :
    LatePhase → LateEvent → Media → Prop
  | active (existing : List Forward) (hlock : s.lock = .free)
      (hactive : s.room.isActive r = true) :
      LateMove s k r (.checking existing) .check (s.setTask k (.late r (.waiting existing)))
  | inactive (existing : List Forward) (hlock : s.lock = .free) :
      LateMove s k r (.checking existing) .check (s.endTask k)
  | lockPeer (existing : List Forward) (hholder : s.holder r = none) :
      LateMove s k r (.waiting existing) .lockPeer
        ((s.hold r k).setTask k (.late r (.adding none existing [])))
  | reserve (f : Forward) (rest pendingForwards : List Forward) (hf : f ∈ rest)
      (hfree : f.track ∉ s.room.forwardedTracks.setAt r) :
      LateMove s k r (.adding none rest pendingForwards) (.reserve f)
        ((s.setRoom (s.room.reserve r f.track)).setTask k
          (.late r (.adding (some f) (rest.erase f) pendingForwards)))
  | skip (f : Forward) (rest pendingForwards : List Forward) (hf : f ∈ rest)
      (htaken : f.track ∈ s.room.forwardedTracks.setAt r) :
      LateMove s k r (.adding none rest pendingForwards) (.reserve f)
        (s.setTask k (.late r (.adding none (rest.erase f) pendingForwards)))
  | add (f : Forward) (rest pendingForwards : List Forward)
      (hopen : (s.peers r).signaling ≠ .closed) :
      LateMove s k r (.adding (some f) rest pendingForwards) (.add true)
        (((s.setRoom (s.room.recordForwardedSender r f.source { trackId := f.track })).setPeer r
          ((s.peers r).addTrack f.track)).setTask k
          (.late r (.adding none rest (pendingForwards ++ [f]))))
  | release (f : Forward) (rest pendingForwards : List Forward) :
      LateMove s k r (.adding (some f) rest pendingForwards) (.add false)
        ((s.setRoom (s.room.release r f.track)).setTask k
          (.late r (.adding none rest pendingForwards)))
  | unlock (pendingForwards : List Forward) :
      LateMove s k r (.adding none [] pendingForwards) .unlock
        ((s.letGo r).setTask k (.late r (.offering 1 pendingForwards)))
  | collide (attempt : Nat) (pendingForwards : List Forward) (hholder : s.holder r = none)
      (hattempt : attempt < offerAttempts) :
      LateMove s k r (.offering attempt pendingForwards) (.offer .collision)
        (s.setTask k (.late r (.offering (attempt + 1) pendingForwards)))
  | giveUp (attempt : Nat) (pendingForwards : List Forward) (hattempt : ¬ attempt < offerAttempts) :
      LateMove s k r (.offering attempt pendingForwards) (.offer .collision) (s.endTask k)
  | fail (attempt : Nat) (pendingForwards : List Forward) :
      LateMove s k r (.offering attempt pendingForwards) (.offer .failed) (s.endTask k)
  | created (attempt : Nat) (pendingForwards : List Forward) (hholder : s.holder r = none)
      (hstable : (s.peers r).signaling = .stable) :
      LateMove s k r (.offering attempt pendingForwards) (.offer .created)
        ((s.setPeer r (s.peers r).createOffer).setTask k (.late r (.sending pendingForwards)))
  | send (pendingForwards : List Forward) (hlock : s.lock = .free)
      (hactive : s.room.isActive r = true) :
      LateMove s k r (.sending pendingForwards) (.send true)
        (s.setTask k (.late r (.marking pendingForwards)))
  | drop (pendingForwards : List Forward) (sent : Bool) (hlock : s.lock = .free)
      (hstop : (s.room.isActive r && sent) = false) :
      LateMove s k r (.sending pendingForwards) (.send sent) (s.endTask k)
  | mark (pendingForwards withoutEncoding : List Forward) :
      LateMove s k r (.marking pendingForwards) (.mark withoutEncoding)
        (((s.setRoom (s.room.markPending r (pendingForwards.map (·.track)))).addWriters
          ((pendingForwards.filter (· ∉ withoutEncoding)).map fun f => (r, f)).toFinset).endTask k)

inductive RenegotiationMove (s : Media) (k : TaskId) (r : ParticipantId) (trackId : TrackId) :
    RenegotiationPhase → RenegotiationEvent → Media → Prop
  | notNegotiated (attempt : Nat) (hfree : trackId ∉ s.room.negotiatedTracks.setAt r) :
      RenegotiationMove s k r trackId (.checkingNegotiated attempt) .check
        (s.setTask k (.renegotiation r trackId (.checkingPending attempt)))
  | notPending (attempt : Nat) (hfree : trackId ∉ s.room.pendingNegotiatedTracks.setAt r) :
      RenegotiationMove s k r trackId (.checkingPending attempt) .check
        (s.setTask k (.renegotiation r trackId (.offering attempt)))
  | collide (attempt : Nat) (sent : Bool) (hattempt : attempt < offerAttempts) :
      RenegotiationMove s k r trackId (.offering attempt) (.offer .collision sent)
        (s.setTask k (.renegotiation r trackId (.checkingNegotiated (attempt + 1))))
  | stop (phase : RenegotiationPhase) (event : RenegotiationEvent) :
      RenegotiationMove s k r trackId phase event (s.endTask k)
  | unsent (attempt : Nat) (hholder : s.holder r = none)
      (hstable : (s.peers r).signaling = .stable) :
      RenegotiationMove s k r trackId (.offering attempt) (.offer .created false)
        ((s.setPeer r (s.peers r).createOffer).endTask k)
  | created (attempt : Nat) (hholder : s.holder r = none)
      (hstable : (s.peers r).signaling = .stable) :
      RenegotiationMove s k r trackId (.offering attempt) (.offer .created true)
        ((s.setPeer r (s.peers r).createOffer).setTask k (.renegotiation r trackId .marking))
  | mark :
      RenegotiationMove s k r trackId .marking .mark
        ((s.setRoom (s.room.markPending r [trackId])).endTask k)

inductive PromotionMove (s : Media) (k : TaskId) (r : ParticipantId) :
    PromotionPhase → PromotionEvent → Media → Prop
  | wake (hlock : s.lock = .free) (hactive : s.room.isActive r = true) :
      PromotionMove s k r .sleeping .wake
        ({ s with readers := insert k s.readers }.setTask k (.promotion r .checked))
  | inactive (hlock : s.lock = .free) : PromotionMove s k r .sleeping .wake (s.endTask k)
  | lockPeer (hholder : s.holder r = none) :
      PromotionMove s k r .checked .lockPeer
        ((s.hold r k).setTask k (.promotion r .taking))
  | take :
      PromotionMove s k r .taking .take
        ((s.setRoom (s.room.takePending r)).setTask k
          (.promotion r (.promoting (s.room.pendingNegotiatedTracks.setAt r))))
  | promote (trackIds : Finset TrackId) :
      PromotionMove s k r (.promoting trackIds) .promote
        ((s.setRoom (s.room.extendNegotiated r trackIds)).setTask k (.promotion r .collecting))
  | nothingMissing (hmissing : s.room.missingTrackIds r = []) :
      PromotionMove s k r .collecting .collect (s.finishPromotion k r)
  | collect :
      PromotionMove s k r .collecting .collect
        (s.setTask k (.promotion r (.retrying (s.room.missingTrackIds r))))
  | giveUp (missing : List TrackId) (result : OfferResult) (sent : Bool) :
      PromotionMove s k r (.retrying missing) (.retry result sent) (s.finishPromotion k r)
  | unsent (missing : List TrackId) (hstable : (s.peers r).signaling = .stable) :
      PromotionMove s k r (.retrying missing) (.retry .created false)
        ((s.setPeer r (s.peers r).createOffer).finishPromotion k r)
  | created (missing : List TrackId) (hstable : (s.peers r).signaling = .stable) :
      PromotionMove s k r (.retrying missing) (.retry .created true)
        ((s.setPeer r (s.peers r).createOffer).setTask k (.promotion r (.marking missing)))
  | mark (missing : List TrackId) :
      PromotionMove s k r (.marking missing) .mark
        ((s.setRoom (s.room.markPending r missing)).finishPromotion k r)

inductive RetirementMove (s : Media) (k : TaskId) (r : ParticipantId) :
    Nat → OfferResult → Media → Prop
  | again (attempt : Nat) (hattempt : attempt < offerAttempts) :
      RetirementMove s k r attempt .collision (s.setTask k (.retirement r (attempt + 1)))
  | stop (attempt : Nat) (result : OfferResult) :
      RetirementMove s k r attempt result (s.endTask k)
  | created (attempt : Nat) (hholder : s.holder r = none)
      (hstable : (s.peers r).signaling = .stable) :
      RetirementMove s k r attempt .created ((s.setPeer r (s.peers r).createOffer).endTask k)

/-- What the loop over the receivers of an arriving track can do. -/
inductive ForwardMove (s : Media) (op : ForwardTrack) : Action → Media → Prop
  | reserve (r : ParticipantId) (hcurrent : op.current = none) (hr : r ∈ op.rest)
      (hfree : op.track ∉ s.room.forwardedTracks.setAt r) :
      ForwardMove s op (.reserve r)
        ((s.setRoom (s.room.reserve r op.track)).setLock
          (.forwarding { op with rest := op.rest.erase r, current := some r }))
  | skip (r : ParticipantId) (hcurrent : op.current = none) (hr : r ∈ op.rest)
      (htaken : op.track ∈ s.room.forwardedTracks.setAt r) :
      ForwardMove s op (.reserve r)
        (s.setLock (.forwarding { op with rest := op.rest.erase r, current := none }))
  | subscribed (r : ParticipantId) (k : TaskId) (hcurrent : op.current = some r)
      (hholder : s.holder r = none) (hk : k ∉ s.tasks) (hopen : (s.peers r).signaling ≠ .closed) :
      ForwardMove s op (.addTrack (.subscribed k))
        ((((s.setRoom (s.room.recordForwardedSender r op.source { trackId := op.track })).setPeer r
          ((s.peers r).addTrack op.track)).setTask k
          (.renegotiation r op.track (.checkingNegotiated 1))).setLock
          (.forwarding { op with current := none, receivers := insert r op.receivers }))
  | withoutEncoding (r : ParticipantId) (hcurrent : op.current = some r)
      (hholder : s.holder r = none) (hopen : (s.peers r).signaling ≠ .closed) :
      ForwardMove s op (.addTrack .withoutEncoding)
        ((s.setPeer r ((s.peers r).addTrack op.track)).setLock
          (.forwarding { op with current := none }))
  | failed (r : ParticipantId) (hcurrent : op.current = some r) (hholder : s.holder r = none) :
      ForwardMove s op (.addTrack .failed)
        ((s.setRoom (s.room.release r op.track)).setLock
          (.forwarding { op with current := none }))
  | finish (hcurrent : op.current = none) (hrest : op.rest = ∅) :
      ForwardMove s op .finishForward
        ((s.addWriters (op.receivers.image fun r =>
          (r, { source := op.source, track := op.track }))).setLock .free)

/-- What a removal can do after the participant is out. -/
inductive RemovalMove (s : Media) (p : ParticipantId) (removed : List TrackId) :
    RemovalPhase → Action → Media → Prop
  | negotiated :
      RemovalMove s p removed .negotiated .clear
        ((s.setRoom (s.room.clearNegotiated p removed)).setLock (.removing p removed .pending))
  | pending :
      RemovalMove s p removed .pending .clear
        ((s.setRoom (s.room.clearPending p removed)).setLock (.removing p removed .forwarded))
  | forwarded :
      RemovalMove s p removed .forwarded .clear
        ((s.setRoom (s.room.clearForwarded p removed)).setLock (.removing p removed .senders))
  | senders :
      RemovalMove s p removed .senders .clear
        ((s.setRoom (s.room.retireSendersFrom p)).setLock (.removing p removed
          (.retiring ((s.room.staleReceivers p).filter s.room.hasPeerConnection))))
  | retire (r : ParticipantId) (stale : List ParticipantId) (k : TaskId) (hk : k ∉ s.tasks) :
      RemovalMove s p removed (.retiring (r :: stale)) (.retire k)
        ((s.setLock (.removing p removed (.retiring stale))).setTask k (.retirement r 1))
  | finish : RemovalMove s p removed (.retiring []) .finishRemove (s.setLock .free)

inductive Move (s : Media) : Action → Media → Prop
  | join (connection : ParticipantConnection) (hlock : s.lock = .free) (hreaders : s.readers = ∅)
      (hfresh : connection.participant.id ∉ s.known) :
      Move s (.join connection)
        { s with
          room := (s.room.addParticipant connection).1
          known := insert connection.participant.id s.known }
  | denyUser (userId : Uuid) : Move s (.denyUser userId) (s.setRoom (s.room.denyUser userId))
  | revoke : Move s .revoke (s.setRoom { s.room with revoked := true })
  | track (p : ParticipantId) (track : TrackRemote) (hlock : s.lock = .free)
      (hreaders : s.readers = ∅) (hp : p ∈ s.room.participants) :
      Move s (.track p track)
        ((s.setRoom (s.room.registerTrack p track)).setLock
          (.forwarding
            { source := p
              track := track.id
              rest := (s.room.receiversOf p).toFinset
              current := none
              receivers := ∅ }))
  | forward (op : ForwardTrack) (hlock : s.lock = .forwarding op) {a : Action} {t : Media}
      (hmove : ForwardMove s op a t) : Move s a t
  | remove (p : ParticipantId) (hlock : s.lock = .free) (hreaders : s.readers = ∅)
      (hp : p ∈ s.room.participants) (hholder : s.holder p = none) :
      Move s (.remove p)
        (((s.setRoom
          ({ s.room with
            participants := s.room.participants.erase p }.removeParticipantTracks p)).setPeer p
          { s.peers p with signaling := .closed }).setLock
          (.removing p (s.room.trackIdsOf p) .negotiated))
  | removal (p : ParticipantId) (removed : List TrackId) (phase : RemovalPhase)
      (hlock : s.lock = .removing p removed phase) {a : Action} {t : Media}
      (hmove : RemovalMove s p removed phase a t) : Move s a t
  | clientOffer (r : ParticipantId) (k : TaskId) (hreachable : s.reachable r = true)
      (hsignaling : (s.peers r).signaling = .stable ∨ (s.peers r).signaling = .haveRemoteOffer) :
      Move s (.clientOffer r k) (s.setPeer r { s.peers r with signaling := .stable })
  | clientOfferLate (r : ParticipantId) (k : TaskId) (hreachable : s.reachable r = true)
      (hsignaling : (s.peers r).signaling = .stable ∨ (s.peers r).signaling = .haveRemoteOffer)
      (hk : k ∉ s.tasks) :
      Move s (.clientOffer r k)
        ((s.setPeer r { s.peers r with signaling := .stable }).setTask k
          (.late r (.checking (s.room.existingTracks r))))
  | failAnswer (r : ParticipantId) (hreachable : s.reachable r = true)
      (hsignaling : (s.peers r).signaling = .stable ∨ (s.peers r).signaling = .haveRemoteOffer) :
      Move s (.failAnswer r) (s.setPeer r { s.peers r with signaling := .haveRemoteOffer })
  | clientAnswer (r : ParticipantId) (k : TaskId) (hreachable : s.reachable r = true)
      (hsignaling : (s.peers r).signaling = .haveLocalOffer) (hk : k ∉ s.tasks) :
      Move s (.clientAnswer r k)
        ((s.setPeer r (s.peers r).setRemoteAnswer).setTask k (.promotion r .sleeping))
  | late (k : TaskId) (r : ParticipantId) (phase : LatePhase) {event : LateEvent} {t : Media}
      (htask : s.tasks.lookup k = some (.late r phase)) (hmove : LateMove s k r phase event t) :
      Move s (.late k event) t
  | renegotiation (k : TaskId) (r : ParticipantId) (trackId : TrackId)
      (phase : RenegotiationPhase) {event : RenegotiationEvent} {t : Media}
      (htask : s.tasks.lookup k = some (.renegotiation r trackId phase))
      (hmove : RenegotiationMove s k r trackId phase event t) :
      Move s (.renegotiation k event) t
  | promotion (k : TaskId) (r : ParticipantId) (phase : PromotionPhase)
      {event : PromotionEvent} {t : Media}
      (htask : s.tasks.lookup k = some (.promotion r phase))
      (hmove : PromotionMove s k r phase event t) : Move s (.promotion k event) t
  | retirement (k : TaskId) (r : ParticipantId) (attempt : Nat) {result : OfferResult}
      {t : Media} (htask : s.tasks.lookup k = some (.retirement r attempt))
      (hmove : RetirementMove s k r attempt result t) : Move s (.retirement k result) t

section Inversion

variable {s t : Media}

theorem reserve_of_mem {room : Room} {r : ParticipantId} {trackId : TrackId}
    (h : trackId ∈ room.forwardedTracks.setAt r) : room.reserve r trackId = room := by
  simp [Room.reserve, Room.reserveForwardedTrack, h]

theorem createOfferIfStable_cases {r : ParticipantId} {result : OfferResult}
    (h : createOfferIfStable s r result = some t) :
    (result = .collision ∧ (s.peers r).signaling ≠ .stable ∧ t = s) ∨
      (result = .failed ∧ (s.peers r).signaling = .stable ∧ t = s) ∨
      (result = .created ∧ (s.peers r).signaling = .stable ∧
        t = s.setPeer r (s.peers r).createOffer) := by
  unfold createOfferIfStable at h
  split at h
  · rename_i hstable
    split at h
    · cases h
    · cases h
      exact Or.inr (Or.inl ⟨rfl, hstable, rfl⟩)
    · cases h
      exact Or.inr (Or.inr ⟨rfl, hstable, rfl⟩)
  · rename_i hstable
    split at h
    · rename_i hresult
      cases h
      exact Or.inl ⟨hresult, hstable, rfl⟩
    · cases h

theorem stepLate_move {k : TaskId} {r : ParticipantId} {phase : LatePhase} {event : LateEvent}
    (h : stepLate s k r phase event = some t) : LateMove s k r phase event t := by
  unfold stepLate at h
  split at h
  · rename_i existing
    split at h
    · rename_i hlock
      split at h
      · rename_i hactive
        cases h
        exact .active existing hlock hactive
      · cases h
        exact .inactive existing hlock
    · cases h
  · rename_i existing
    split at h
    · rename_i hholder
      cases h
      exact .lockPeer existing hholder
    · cases h
  · rename_i rest pendingForwards f
    split at h
    · rename_i hf
      cases h
      by_cases htaken : f.track ∈ s.room.forwardedTracks.setAt r
      · have hreserved := mt (Room.reserveForwardedTrack_fst s.room.forwardedTracks r f.track).mp
          (not_not.mpr htaken)
        rw [reserve_of_mem htaken, if_neg hreserved]
        exact .skip f rest pendingForwards hf htaken
      · rw [if_pos ((Room.reserveForwardedTrack_fst s.room.forwardedTracks r f.track).mpr htaken)]
        exact .reserve f rest pendingForwards hf htaken
    · cases h
  · rename_i f rest pendingForwards
    split at h
    · rename_i hopen
      cases h
      exact .add f rest pendingForwards hopen
    · cases h
  · rename_i f rest pendingForwards
    cases h
    exact .release f rest pendingForwards
  · rename_i pendingForwards
    cases h
    exact .unlock pendingForwards
  · rename_i attempt pendingForwards result
    split at h
    · rename_i hholder
      obtain ⟨u, hu, rfl⟩ := Option.map_eq_some_iff.mp h
      rcases createOfferIfStable_cases hu with ⟨rfl, -, rfl⟩ | ⟨rfl, -, rfl⟩ | ⟨rfl, hstable, rfl⟩
      · by_cases hattempt : attempt < offerAttempts
        · simp only [hattempt, if_true]
          exact .collide attempt pendingForwards hholder hattempt
        · simp only [hattempt, if_false]
          exact .giveUp attempt pendingForwards hattempt
      · exact .fail attempt pendingForwards
      · exact .created attempt pendingForwards hholder hstable
    · cases h
  · rename_i pendingForwards sent
    split at h
    · rename_i hlock
      split at h
      · rename_i hready
        obtain ⟨hactive, rfl⟩ := Bool.and_eq_true_iff.mp hready
        cases h
        exact .send pendingForwards hlock hactive
      · rename_i hstop
        cases h
        exact .drop pendingForwards sent hlock (Bool.eq_false_iff.mpr hstop)
    · cases h
  · rename_i pendingForwards withoutEncoding
    cases h
    exact .mark pendingForwards withoutEncoding
  · cases h

theorem stepRenegotiation_move {k : TaskId} {r : ParticipantId} {trackId : TrackId}
    {phase : RenegotiationPhase} {event : RenegotiationEvent}
    (h : stepRenegotiation s k r trackId phase event = some t) :
    RenegotiationMove s k r trackId phase event t := by
  unfold stepRenegotiation at h
  split at h
  · rename_i attempt
    split at h
    · cases h
      exact .stop _ _
    · rename_i hfree
      cases h
      exact .notNegotiated attempt hfree
  · rename_i attempt
    split at h
    · cases h
      exact .stop _ _
    · rename_i hfree
      cases h
      exact .notPending attempt hfree
  · rename_i attempt result sent
    split at h
    · rename_i hholder
      obtain ⟨u, hu, rfl⟩ := Option.map_eq_some_iff.mp h
      rcases createOfferIfStable_cases hu with ⟨rfl, -, rfl⟩ | ⟨rfl, -, rfl⟩ | ⟨rfl, hstable, rfl⟩
      · by_cases hattempt : attempt < offerAttempts
        · simp only [hattempt, if_true]
          exact .collide attempt sent hattempt
        · simp only [hattempt, if_false]
          exact .stop _ _
      · exact .stop _ _
      · cases sent with
        | true => exact .created attempt hholder hstable
        | false => exact .unsent attempt hholder hstable
    · cases h
  · cases h
    exact .mark
  · cases h

theorem stepPromotion_move {k : TaskId} {r : ParticipantId} {phase : PromotionPhase}
    {event : PromotionEvent} (h : stepPromotion s k r phase event = some t) :
    PromotionMove s k r phase event t := by
  unfold stepPromotion at h
  split at h
  · split at h
    · rename_i hlock
      split at h
      · rename_i hactive
        cases h
        exact .wake hlock hactive
      · cases h
        exact .inactive hlock
    · cases h
  · split at h
    · rename_i hholder
      cases h
      exact .lockPeer hholder
    · cases h
  · cases h
    exact .take
  · rename_i trackIds
    cases h
    exact .promote trackIds
  · simp only at h
    split at h
    · rename_i hmissing
      cases h
      exact .nothingMissing hmissing
    · cases h
      exact .collect
  · rename_i missing result sent
    obtain ⟨u, hu, rfl⟩ := Option.map_eq_some_iff.mp h
    rcases createOfferIfStable_cases hu with ⟨rfl, -, rfl⟩ | ⟨rfl, -, rfl⟩ | ⟨rfl, hstable, rfl⟩
    · exact .giveUp missing .collision sent
    · exact .giveUp missing .failed sent
    · cases sent with
      | true => exact .created missing hstable
      | false => exact .unsent missing hstable
  · rename_i missing
    cases h
    exact .mark missing
  · cases h

theorem stepRetirement_move {k : TaskId} {r : ParticipantId} {attempt : Nat}
    {result : OfferResult} (h : stepRetirement s k r attempt result = some t) :
    RetirementMove s k r attempt result t := by
  unfold stepRetirement at h
  split at h
  · rename_i hholder
    obtain ⟨u, hu, rfl⟩ := Option.map_eq_some_iff.mp h
    rcases createOfferIfStable_cases hu with ⟨rfl, -, rfl⟩ | ⟨rfl, -, rfl⟩ | ⟨rfl, hstable, rfl⟩
    · by_cases hattempt : attempt < offerAttempts
      · simp only [hattempt]
        exact .again attempt hattempt
      · simp only [hattempt]
        exact .stop attempt .collision
    · exact .stop attempt .failed
    · exact .created attempt hholder hstable
  · cases h

theorem exclusive_iff : s.exclusive = true ↔ s.lock = .free ∧ s.readers = ∅ := by
  simp [Media.exclusive]

theorem reserve_move {r : ParticipantId} (h : MediaTasks.reserve s r = some t) :
    Move s (.reserve r) t := by
  unfold MediaTasks.reserve at h
  split at h
  · rename_i op hlock
    split at h
    · rename_i hready
      obtain ⟨hcurrent, hr⟩ := hready
      cases h
      refine .forward op hlock ?_
      by_cases htaken : op.track ∈ s.room.forwardedTracks.setAt r
      · have hreserved := mt (Room.reserveForwardedTrack_fst s.room.forwardedTracks r op.track).mp
          (not_not.mpr htaken)
        rw [reserve_of_mem htaken, if_neg hreserved]
        exact .skip r hcurrent hr htaken
      · rw [if_pos ((Room.reserveForwardedTrack_fst s.room.forwardedTracks r op.track).mpr htaken)]
        exact .reserve r hcurrent hr htaken
    · cases h
  · cases h

theorem addTrack_move {result : AddResult} (h : MediaTasks.addTrack s result = some t) :
    Move s (.addTrack result) t := by
  unfold MediaTasks.addTrack at h
  split at h
  · rename_i op hlock
    split at h
    · rename_i r hcurrent
      split at h
      · rename_i hholder
        refine .forward op hlock ?_
        cases result with
        | subscribed k =>
          simp only at h
          split at h
          · rename_i hready
            cases h
            exact .subscribed r k hcurrent hholder hready.1 hready.2
          · cases h
        | withoutEncoding =>
          simp only at h
          split at h
          · rename_i hopen
            cases h
            exact .withoutEncoding r hcurrent hholder hopen
          · cases h
        | failed =>
          cases h
          exact .failed r hcurrent hholder
      · cases h
    · cases h
  · cases h

theorem finishForward_move (h : finishForward s = some t) : Move s .finishForward t := by
  unfold finishForward at h
  split at h
  · rename_i op hlock
    split at h
    · rename_i hready
      cases h
      exact .forward op hlock (.finish hready.1 hready.2)
    · cases h
  · cases h

theorem clear_move (h : clear s = some t) : Move s .clear t := by
  unfold clear at h
  split at h
  · rename_i p removed hlock
    cases h
    exact .removal p removed .negotiated hlock .negotiated
  · rename_i p removed hlock
    cases h
    exact .removal p removed .pending hlock .pending
  · rename_i p removed hlock
    cases h
    exact .removal p removed .forwarded hlock .forwarded
  · rename_i p removed hlock
    cases h
    exact .removal p removed .senders hlock .senders
  · cases h

theorem clientOffer_move {r : ParticipantId} {k : TaskId} (h : clientOffer s r k = some t) :
    Move s (.clientOffer r k) t := by
  simp only [clientOffer] at h
  split at h
  · rename_i hready
    obtain ⟨hreachable, hsignaling⟩ := Bool.and_eq_true_iff.mp hready
    simp only [Bool.or_eq_true, decide_eq_true_eq] at hsignaling
    split at h
    · cases h
      exact .clientOffer r k hreachable hsignaling
    · split at h
      · cases h
      · rename_i hk
        cases h
        exact .clientOfferLate r k hreachable hsignaling hk
  · cases h

theorem step_move {a : Action} (h : step s a = some t) : Move s a t := by
  cases a with
  | join connection =>
    simp only [step, MediaTasks.join] at h
    split at h
    · rename_i hready
      simp only [Bool.and_eq_true, exclusive_iff, decide_eq_true_eq] at hready
      cases h
      exact .join connection hready.1.1 hready.1.2 hready.2
    · cases h
  | denyUser userId =>
    cases h
    exact .denyUser userId
  | revoke =>
    cases h
    exact .revoke
  | track p track =>
    simp only [step, handleIncomingTrack] at h
    split at h
    · rename_i hready
      simp only [Bool.and_eq_true, exclusive_iff] at hready
      cases h
      exact .track p track hready.1.1 hready.1.2 (s.room.mem_of_isActive hready.2)
    · cases h
  | reserve r => exact reserve_move h
  | addTrack result => exact addTrack_move h
  | finishForward => exact finishForward_move h
  | remove p =>
    simp only [step, MediaTasks.remove] at h
    split at h
    · rename_i hready
      simp only [Bool.and_eq_true, exclusive_iff, decide_eq_true_eq] at hready
      cases h
      exact .remove p hready.1.1.1 hready.1.1.2 hready.1.2 hready.2
    · cases h
  | clear => exact clear_move h
  | retire k =>
    simp only [step, MediaTasks.retire] at h
    split at h
    · rename_i p removed r stale hlock
      split at h
      · cases h
      · rename_i hk
        cases h
        exact .removal p removed _ hlock (.retire r stale k hk)
    · cases h
  | finishRemove =>
    simp only [step, finishRemove] at h
    split at h
    · rename_i p removed hlock
      cases h
      exact .removal p removed _ hlock .finish
    · cases h
  | clientOffer r k => exact clientOffer_move h
  | failAnswer r =>
    simp only [step, MediaTasks.failAnswer] at h
    split at h
    · rename_i hready
      obtain ⟨hreachable, hsignaling⟩ := Bool.and_eq_true_iff.mp hready
      cases h
      exact .failAnswer r hreachable (by simpa using hsignaling)
    · cases h
  | clientAnswer r k =>
    simp only [step, MediaTasks.clientAnswer] at h
    split at h
    · rename_i hready
      simp only [Bool.and_eq_true, decide_eq_true_eq] at hready
      cases h
      exact .clientAnswer r k hready.1.1 hready.1.2 hready.2
    · cases h
  | late k event =>
    simp only [step] at h
    split at h
    · rename_i r phase htask
      exact .late k r phase htask (stepLate_move h)
    · cases h
  | renegotiation k event =>
    simp only [step] at h
    split at h
    · rename_i r trackId phase htask
      exact .renegotiation k r trackId phase htask (stepRenegotiation_move h)
    · cases h
  | promotion k event =>
    simp only [step] at h
    split at h
    · rename_i r phase htask
      exact .promotion k r phase htask (stepPromotion_move h)
    · cases h
  | retirement k result =>
    simp only [step] at h
    split at h
    · rename_i r attempt htask
      exact .retirement k r attempt htask (stepRetirement_move h)
    · cases h

/-- Left alone, the steps of a removal add up to Room::remove_participant. -/
theorem run_removal (roomId : RoomId) {p : ParticipantId}
    (h : (system roomId).runFrom s [.remove p, .clear, .clear, .clear, .clear] = some t) :
    t.room = (s.room.removeParticipant p).1 := by
  simp only [System.runFrom, system, step, MediaTasks.remove] at h
  split at h
  · rename_i hready
    simp only [Bool.and_eq_true, decide_eq_true_eq] at hready
    simp only [Option.bind_some, clear, Media.setLock, Option.some.injEq] at h
    subst h
    simp only [Room.removeParticipant, hready.1.2, if_true]
    rfl
  · simp at h

end Inversion

end OpenMeet.MediaMoves
