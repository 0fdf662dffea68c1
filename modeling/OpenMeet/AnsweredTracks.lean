import OpenMeet.TrackMaps

/-!
Answered ids. An id travels from a server offer over the pending set into the
negotiated set: it is marked pending only after an offer made when its track
was already on the connection, and an answer covers everything offered. What
pending does not say is which offer an id was on, so a promotion that wakes up
late takes the ids of the next offer along.
-/
namespace OpenMeet.AnsweredTracks

open KeyedMap Messages RoomState TransitionSystem MediaTasks MediaMoves MediaInvariants
open TrackMaps

/-- Negotiated ids, and the pending ids a promotion has taken over, are answered: their
receiver has answered a server offer created after the track came on its connection. -/
def NegotiatedAnswered (s : Media) : Prop :=
  (∀ r, ∀ x ∈ s.room.negotiatedTracks.setAt r, x ∈ (s.peers r).answered) ∧
  ∀ k r trackIds, s.tasks.lookup k = some (.promotion r (.promoting trackIds)) →
    ∀ x ∈ trackIds, x ∈ (s.peers r).answered

def receiver : Task → ParticipantId
  | .late r _ | .renegotiation r _ _ | .promotion r _ | .retirement r _ => r

/-- The ids a task has added and has still to offer. -/
def toOffer : Task → List TrackId
  | .late _ (.adding _ _ pendingForwards) | .late _ (.offering _ pendingForwards) =>
    pendingForwards.map (·.track)
  | .renegotiation _ trackId (.checkingNegotiated _) | .renegotiation _ trackId (.checkingPending _)
  | .renegotiation _ trackId (.offering _) => [trackId]
  | .promotion _ (.retrying missing) => missing
  | _ => []

/-- The ids a task has offered and has still to mark pending. -/
def toMark : Task → List TrackId
  | .late _ (.sending pendingForwards) | .late _ (.marking pendingForwards) =>
    pendingForwards.map (·.track)
  | .renegotiation _ trackId .marking => [trackId]
  | .promotion _ (.marking missing) => missing
  | _ => []

/-- The receiver whose pending ids an action takes over. -/
def taking (s : Media) : Action → Option ParticipantId
  | .promotion k .take =>
    match s.tasks.lookup k with
    | some (.promotion r .taking) => some r
    | _ => none
  | _ => none

/-- A promotion takes no id that waits for the answer to the offer now outstanding, and a track
comes on a connection when nothing is left of its id from before: it is neither negotiated nor
pending there, and no task is on its way to mark it. -/
def OffersAwaited (s : Media) (a : Action) : Prop :=
  (∀ r ∈ taking s a, (s.peers r).signaling = .haveLocalOffer →
    ∀ x ∈ s.room.pendingNegotiatedTracks.setAt r, x ∈ (s.peers r).offered →
      x ∈ (s.peers r).answered) ∧
  ∀ w ∈ adding s a, w.2 ∉ s.room.negotiatedTracks.setAt w.1 ∧
    w.2 ∉ s.room.pendingNegotiatedTracks.setAt w.1 ∧
    ∀ e ∈ s.tasks.entries, receiver e.2 = w.1 → w.2 ∉ toMark e.2

instance (s : Media) (a : Action) : Decidable (OffersAwaited s a) :=
  inferInstanceAs (Decidable (_ ∧ _))

/-- The id has been on a server offer created since its track came on the connection. -/
def Offered (peer : Negotiation) (x : TrackId) : Prop := x ∈ peer.offered ∨ x ∈ peer.answered

/-- An offer is of what has been added, and none is outstanding in the other open states. -/
structure NegotiationOk (peer : Negotiation) : Prop where
  offered_added : peer.offered ⊆ peer.added
  offered_answered : peer.signaling ≠ .haveLocalOffer → peer.signaling ≠ .closed →
    peer.offered ⊆ peer.answered

/-- The reserved id is on its receiver's connection, or somebody is adding it. -/
def OnConnection (s : Media) (r : ParticipantId) (x : TrackId) : Prop :=
  x ∈ (s.peers r).added ∨
    (∃ op, s.lock = .forwarding op ∧ op.current = some r ∧ op.track = x) ∨
    ∃ f, f.track = x ∧ Adding s r f

/-- Every id is as far as the map or the task that names it. -/
structure Ordered (s : Media) : Prop where
  coherent : Coherent s
  peers : ∀ r, NegotiationOk (s.peers r)
  closed_gone : ∀ r, (s.peers r).signaling = .closed → r ∈ s.known ∧ r ∉ s.room.participants
  negotiated : ∀ r, ∀ x ∈ s.room.negotiatedTracks.setAt r, x ∈ (s.peers r).answered
  pending : ∀ r, ∀ x ∈ s.room.pendingNegotiatedTracks.setAt r, Offered (s.peers r) x
  reserved : ∀ r, ∀ x ∈ s.room.forwardedTracks.setAt r, OnConnection s r x
  promoting : ∀ k r trackIds, s.tasks.lookup k = some (.promotion r (.promoting trackIds)) →
    ∀ x ∈ trackIds, x ∈ (s.peers r).answered
  toOffer : ∀ k task, s.tasks.lookup k = some task →
    ∀ x ∈ toOffer task, x ∈ (s.peers (receiver task)).added
  toMark : ∀ k task, s.tasks.lookup k = some task →
    ∀ x ∈ toMark task, Offered (s.peers (receiver task)) x

theorem ordered_initial (roomId : RoomId) : Ordered (Media.initial roomId) := by
  have hpeer : NegotiationOk Negotiation.new := by
    constructor <;> simp [Negotiation.new]
  refine ⟨coherent_initial roomId, fun _ => hpeer, ?_, ?_, ?_, ?_, ?_, ?_, ?_⟩ <;>
    simp [Media.initial, Room.new, Negotiation.new]

theorem Ordered.negotiatedAnswered {s : Media} (w : Ordered s) : NegotiatedAnswered s :=
  ⟨w.negotiated, w.promoting⟩

section Step

variable {s t : Media} {a : Action} {p : ParticipantId} {x : TrackId}

theorem negotiationOk_move {peer : Negotiation} (hok : NegotiationOk (s.peers p))
    (h : PeerMove s a p peer) : NegotiationOk peer := by
  obtain ⟨hoffered, hidle⟩ := hok
  cases h with
  | same => exact ⟨hoffered, hidle⟩
  | addTrack trackId =>
    refine ⟨?_, fun hnot hopen => Finset.erase_subset_erase _ (hidle hnot hopen)⟩
    exact (Finset.erase_subset ..).trans (hoffered.trans (Finset.subset_insert ..))
  | createOffer => exact ⟨subset_rfl, fun hnot => absurd rfl hnot⟩
  | setRemoteAnswer => exact ⟨hoffered, fun _ _ => Finset.subset_union_right⟩
  | answerClient hready signaling =>
    refine ⟨hoffered, fun _ _ => ?_⟩
    rcases hready with hready | hready <;> exact hidle (by simp [hready]) (by simp [hready])
  | close => exact ⟨hoffered, fun _ hopen => absurd rfl hopen⟩

/-- What is on a connection stays on it. -/
theorem added_step (h : Move s a t) (hx : x ∈ (s.peers p).added) : x ∈ (t.peers p).added := by
  have hmove := peer_cases h p
  generalize t.peers p = peer at hmove
  cases hmove with
  | addTrack trackId => exact Finset.mem_insert_of_mem hx
  | _ => exact hx

/-- An answered id stays answered until its track is added again. -/
theorem answered_step (h : Move s a t) (hx : x ∈ (s.peers p).answered)
    (hkept : adding s a ≠ some (p, x)) : x ∈ (t.peers p).answered := by
  have hmove := peer_cases h p
  generalize t.peers p = peer at hmove
  cases hmove with
  | addTrack trackId hadds =>
    refine Finset.mem_erase.mpr ⟨?_, hx⟩
    rintro rfl
    exact hkept hadds
  | setRemoteAnswer => exact Finset.mem_union_left _ hx
  | _ => exact hx

/-- An offered id stays offered until its track is added again. -/
theorem offered_step (w : Ordered s) (h : Move s a t) (hx : Offered (s.peers p) x)
    (hkept : adding s a ≠ some (p, x)) : Offered (t.peers p) x := by
  rcases hx with hx | hx
  · have hmove := peer_cases h p
    generalize t.peers p = peer at hmove
    cases hmove with
    | addTrack trackId hadds =>
      refine Or.inl (Finset.mem_erase.mpr ⟨?_, hx⟩)
      rintro rfl
      exact hkept hadds
    | createOffer => exact Or.inl ((w.peers p).offered_added hx)
    | setRemoteAnswer => exact Or.inr (Finset.mem_union_right _ hx)
    | _ => exact Or.inl hx
  · exact Or.inr (answered_step h hx hkept)

/-- A track comes on a connection only in the hands of the task that holds it. -/
theorem adding_holder (w : Coherent s) (h : Move s a t) {j : TaskId}
    (hadds : adding s a = some (p, x)) (hj : s.holder p = some j) : actor a = some j := by
  cases h with
  | forward op hlock hmove =>
    cases hmove with
    | subscribed r k hcurrent hholder =>
      simp only [adding, hlock, hcurrent, Option.map_some, Option.some.injEq, Prod.mk.injEq]
        at hadds
      simp [← hadds.1, hholder] at hj
    | withoutEncoding r hcurrent hholder =>
      simp only [adding, hlock, hcurrent, Option.map_some, Option.some.injEq, Prod.mk.injEq]
        at hadds
      simp [← hadds.1, hholder] at hj
    | _ => cases hadds
  | late k r phase htask hmove =>
    cases hmove with
    | add f rest pendingForwards =>
      simp only [adding, htask, Option.some.injEq, Prod.mk.injEq] at hadds
      obtain ⟨rfl, rfl⟩ := hadds
      exact ((w.tasks k _ htask).2.2 rfl).symm.trans hj
    | _ => cases hadds
  | removal q removed phase hlock hmove => cases hmove <;> cases hadds
  | _ => cases hadds

theorem closedGone_step (w : Ordered s) (h : Move s a t) {r : ParticipantId}
    (hclosed : (t.peers r).signaling = .closed) : r ∈ t.known ∧ r ∉ t.room.participants := by
  have hold : (s.peers r).signaling = .closed → r ∈ t.known ∧ r ∉ t.room.participants := by
    intro hbefore
    obtain ⟨hknown, hgone⟩ := w.closed_gone r hbefore
    refine ⟨known_subset h hknown, fun hr => ?_⟩
    cases parties_cases h with
    | same h => exact hgone (h.participants ▸ hr)
    | join connection hfresh participants tracks known =>
      rcases (participants r).mp hr with rfl | hr
      · exact hfresh hknown
      · exact hgone hr
    | track q track hq participants => exact hgone (participants ▸ hr)
    | remove q hq participants => exact hgone ((participants r).mp hr).2
  have hmove := peer_cases h r
  generalize t.peers r = peer at hmove hclosed
  cases hmove with
  | same => exact hold hclosed
  | addTrack => exact hold hclosed
  | createOffer => cases hclosed
  | setRemoteAnswer => cases hclosed
  | answerClient hready signaling hopen => exact absurd hclosed hopen
  | close hremoved =>
    subst hremoved
    cases h with
    | remove q hlock hreaders hp =>
      exact ⟨w.coherent.present_known r hp, by simp [Room.removeParticipantTracks]⟩
    | forward op hlock hmove => cases hmove
    | removal q removed phase hlock hmove => cases hmove

theorem negotiated_step (w : Ordered s) (hG : OffersAwaited s a) (h : Move s a t)
    {r : ParticipantId} (hx : x ∈ t.room.negotiatedTracks.setAt r) :
    x ∈ (t.peers r).answered := by
  rcases entry_cases h .negotiated r x hx with hold | hwrites
  · exact answered_step h (w.negotiated r x hold) fun hadds => (hG.2 _ hadds).1 hold
  · cases hwrites with
    | promote k r trackIds x htask hx =>
      exact answered_step h (w.promoting k r trackIds htask x hx) (by simp [adding])

theorem marking_toMark {r : ParticipantId} {ids : List TrackId} (h : marking s a = some (r, ids)) :
    adding s a = none ∧
      ∃ k task, s.tasks.lookup k = some task ∧ receiver task = r ∧ toMark task = ids := by
  unfold marking at h
  split at h
  · split at h
    · cases h
      exact ⟨rfl, _, _, ‹_›, rfl, rfl⟩
    · cases h
  · split at h
    · cases h
      exact ⟨rfl, _, _, ‹_›, rfl, rfl⟩
    · cases h
  · cases h

theorem pending_step (w : Ordered s) (hG : OffersAwaited s a) (h : Move s a t)
    {r : ParticipantId} (hx : x ∈ t.room.pendingNegotiatedTracks.setAt r) :
    Offered (t.peers r) x := by
  rcases entry_cases h .pending r x hx with hold | hwrites
  · exact offered_step w h (w.pending r x hold) fun hadds => (hG.2 _ hadds).2.1 hold
  · cases hwrites with
    | mark a r ids x hmarking hx =>
      obtain ⟨hadds, k, task, htask, rfl, rfl⟩ := marking_toMark hmarking
      exact offered_step w h (w.toMark k task htask x hx) (by simp [hadds])
    | retry k r missing x htask hx =>
      exact offered_step w h (w.toMark k _ htask x hx) (by simp [adding])

theorem promoting_step (w : Ordered s) (hG : OffersAwaited s a) (h : Move s a t) {k : TaskId}
    {r : ParticipantId} {trackIds : Finset TrackId}
    (hk : t.tasks.lookup k = some (.promotion r (.promoting trackIds))) (hx : x ∈ trackIds) :
    x ∈ (t.peers r).answered := by
  rcases task_cases h hk with hadvances | ⟨hother, hlookup⟩ | hspawned
  · cases hadvances with
    | promotion r before after htask hmove =>
      cases hmove with
      | take =>
        cases lookup_insert_self hk
        refine answered_step h ?_ (by simp [adding])
        rcases w.pending r x hx with hoffered | hanswered
        · by_cases hawaits : (s.peers r).signaling = .haveLocalOffer
          · exact hG.1 r (by simp [taking, htask]) hawaits x hx hoffered
          · have hpresent := ((w.coherent.tasks k _ htask).1 (by simp)).2
            have hopen : (s.peers r).signaling ≠ .closed := fun hclosed =>
              (w.closed_gone r hclosed).2 hpresent
            exact (w.peers r).offered_answered hawaits hopen hoffered
        · exact hanswered
      | wake | lockPeer | promote | collect | created => cases lookup_insert_self hk
      | inactive | nothingMissing | giveUp | unsent | mark =>
        exact absurd rfl (lookup_erase_cases hk).1
  · refine answered_step h (w.promoting k r trackIds hlookup x hx) fun hadds => ?_
    exact hother (adding_holder w.coherent h hadds ((w.coherent.tasks k _ hlookup).2 rfl))
  · cases hspawned

/-- A reserved id of a receiver whose connection a reading task holds is on the connection. -/
theorem reserved_added (w : Ordered s) {k : TaskId} {r : ParticipantId} {phase : PromotionPhase}
    (hk : s.tasks.lookup k = some (.promotion r phase)) (hphase : holdsPeer phase = true)
    (hx : x ∈ s.room.forwardedTracks.setAt r) : x ∈ (s.peers r).added := by
  obtain ⟨hreads, hholds⟩ := w.coherent.tasks k _ hk
  rcases w.reserved r x hx with hadded | ⟨op, hlock, -⟩ | ⟨f, -, j, rest, pendingForwards, hj⟩
  · exact hadded
  · have hreader := (hreads (by rintro rfl; cases hphase)).1
    have hfree := w.coherent.reading (Finset.ne_empty_of_mem hreader)
    simp [hfree] at hlock
  · have hheld := (w.coherent.tasks j _ hj).2.2 rfl
    obtain rfl := Option.some.inj (hheld.symm.trans (hholds hphase))
    cases hk.symm.trans hj

theorem toOffer_step (w : Ordered s) (h : Move s a t) {k : TaskId} {task : Task}
    (hk : t.tasks.lookup k = some task) (hx : x ∈ toOffer task) :
    x ∈ (t.peers (receiver task)).added := by
  rcases task_cases h hk with hadvances | ⟨-, hlookup⟩ | hspawned
  · have hold : ∀ before, s.tasks.lookup k = some before → receiver before = receiver task →
        x ∈ toOffer before → x ∈ (t.peers (receiver task)).added := by
      rintro before hbefore hsame hmem
      exact added_step h (hsame ▸ w.toOffer k before hbefore x hmem)
    cases hadvances with
    | late r before after htask hmove =>
      cases hmove with
      | add f rest pendingForwards =>
        cases lookup_insert_self hk
        obtain ⟨g, hg, rfl⟩ := List.mem_map.mp hx
        rcases List.mem_append.mp hg with hg | hg
        · exact hold _ htask rfl (List.mem_map_of_mem hg)
        · obtain rfl := List.mem_singleton.mp hg
          simp [receiver, Negotiation.addTrack]
      | lockPeer | active | created | send =>
        cases lookup_insert_self hk
        cases hx
      | reserve | skip | release | unlock | collide =>
        cases lookup_insert_self hk
        exact hold _ htask rfl hx
      | inactive | giveUp | fail | drop | mark => exact absurd rfl (lookup_erase_cases hk).1
    | renegotiation r trackId before after htask hmove =>
      cases hmove with
      | notNegotiated | notPending | collide =>
        cases lookup_insert_self hk
        exact hold _ htask rfl hx
      | created =>
        cases lookup_insert_self hk
        cases hx
      | stop | unsent | mark => exact absurd rfl (lookup_erase_cases hk).1
    | promotion r before after htask hmove =>
      cases hmove with
      | collect =>
        cases lookup_insert_self hk
        have hmissing := (List.mem_filter.mp hx).2
        simp only [Bool.and_eq_true, decide_eq_true_eq] at hmissing
        exact added_step h (reserved_added w htask rfl hmissing.2)
      | wake | lockPeer | take | promote | created =>
        cases lookup_insert_self hk
        cases hx
      | inactive | nothingMissing | giveUp | unsent | mark =>
        exact absurd rfl (lookup_erase_cases hk).1
    | retirement => cases hx
  · exact added_step h (w.toOffer k task hlookup x hx)
  · cases h with
    | forward op hlock hmove =>
      cases hmove with
      | subscribed r k hcurrent =>
        cases hspawned with
        | renegotiation op' r' k hlock' hcurrent' =>
          obtain rfl := RoomLock.forwarding.inj (hlock.symm.trans hlock')
          obtain rfl := Option.some.inj (hcurrent.symm.trans hcurrent')
          obtain rfl := List.mem_singleton.mp hx
          simp [receiver, Negotiation.addTrack]
      | _ => cases hspawned
    | removal q removed phase hlock hmove =>
      cases hmove with
      | retire =>
        cases hspawned
        cases hx
      | _ => cases hspawned
    | late k r phase htask hmove => cases hspawned
    | renegotiation k r trackId phase htask hmove => cases hspawned
    | promotion k r phase htask hmove => cases hspawned
    | retirement k r attempt htask hmove => cases hspawned
    | _ =>
      cases hspawned
      try cases hx

theorem toMark_step (w : Ordered s) (hG : OffersAwaited s a) (h : Move s a t) {k : TaskId}
    {task : Task} (hk : t.tasks.lookup k = some task) (hx : x ∈ toMark task) :
    Offered (t.peers (receiver task)) x := by
  rcases task_cases h hk with hadvances | ⟨-, hlookup⟩ | hspawned
  · cases hadvances with
    | late r before after htask hmove =>
      cases hmove with
      | created attempt pendingForwards =>
        cases lookup_insert_self hk
        have hadded := w.toOffer k _ htask x hx
        exact Or.inl (by simpa [receiver, Negotiation.createOffer] using hadded)
      | send pendingForwards =>
        cases lookup_insert_self hk
        exact offered_step w h (w.toMark k _ htask x hx) (by simp [adding])
      | active | lockPeer | reserve | skip | add | release | unlock | collide =>
        cases lookup_insert_self hk
        cases hx
      | inactive | giveUp | fail | drop | mark => exact absurd rfl (lookup_erase_cases hk).1
    | renegotiation r trackId before after htask hmove =>
      cases hmove with
      | created attempt =>
        cases lookup_insert_self hk
        have hadded := w.toOffer k _ htask x hx
        exact Or.inl (by simpa [receiver, Negotiation.createOffer] using hadded)
      | notNegotiated | notPending | collide =>
        cases lookup_insert_self hk
        cases hx
      | stop | unsent | mark => exact absurd rfl (lookup_erase_cases hk).1
    | promotion r before after htask hmove =>
      cases hmove with
      | created missing =>
        cases lookup_insert_self hk
        have hadded := w.toOffer k _ htask x hx
        exact Or.inl (by simpa [receiver, Negotiation.createOffer] using hadded)
      | wake | lockPeer | take | promote | collect =>
        cases lookup_insert_self hk
        cases hx
      | inactive | nothingMissing | giveUp | unsent | mark =>
        exact absurd rfl (lookup_erase_cases hk).1
    | retirement => cases hx
  · refine offered_step w h (w.toMark k task hlookup x hx) fun hadds => ?_
    exact (hG.2 _ hadds).2.2 ⟨k, task⟩ (AList.mem_lookup_iff.mp hlookup) rfl hx
  · cases hspawned <;> cases hx

theorem reserved_step (w : Ordered s) (h : Move s a t) {r : ParticipantId}
    (hx : x ∈ t.room.forwardedTracks.setAt r) : OnConnection t r x := by
  have hkept : x ∈ s.room.forwardedTracks.setAt r → OnConnection t r x := by
    intro hold
    rcases w.reserved r x hold with hadded | ⟨op, hlock, hcurrent, rfl⟩ | ⟨f, rfl, k, rest,
      pendingForwards, hk⟩
    · exact Or.inl (added_step h hadded)
    · rcases forwarding_moves h hlock with hsame | hmove
      · exact Or.inr (Or.inl ⟨op, hsame.trans hlock, hcurrent, rfl⟩)
      · cases hmove with
        | subscribed q k hq =>
          obtain rfl := Option.some.inj (hq.symm.trans hcurrent)
          exact Or.inl (by simp [Negotiation.addTrack])
        | withoutEncoding q hq =>
          obtain rfl := Option.some.inj (hq.symm.trans hcurrent)
          exact Or.inl (by simp [Negotiation.addTrack])
        | failed q hq =>
          obtain rfl := Option.some.inj (hq.symm.trans hcurrent)
          exact absurd ⟨rfl, rfl⟩ ((s.room.mem_setAt_release ..).mp hx).2
        | reserve q hnone => simp [hnone] at hcurrent
        | skip q hnone => simp [hnone] at hcurrent
        | finish hnone => simp [hnone] at hcurrent
    · by_cases hactor : actor a = some k
      · obtain ⟨event, rfl, hmove⟩ := late_acts h hactor hk
        cases hmove with
        | add => exact Or.inl (by simp [Negotiation.addTrack])
        | release => exact absurd ⟨rfl, rfl⟩ ((s.room.mem_setAt_release ..).mp hx).2
      · exact Or.inr (Or.inr ⟨f, rfl, k, rest, pendingForwards, lookup_other h hk hactor⟩)
  rcases entry_cases h .forwarded r x hx with hold | hwrites
  · exact hkept hold
  · cases hwrites with
    | forward op r hlock =>
      cases h with
      | forward op' hbusy hmove =>
        obtain rfl := RoomLock.forwarding.inj (hbusy.symm.trans hlock)
        cases hmove with
        | reserve => exact Or.inr (Or.inl ⟨_, rfl, rfl, rfl⟩)
        | skip q hnone hq htaken => exact hkept htaken
      | removal q removed phase hbusy hmove => cases hmove
    | late k r f rest pendingForwards htask =>
      obtain ⟨event, heq, hmove⟩ := late_acts h rfl htask
      cases heq
      cases hmove with
      | reserve => exact Or.inr (Or.inr ⟨f, rfl, k, _, _, AList.lookup_insert _⟩)
      | skip f rest pendingForwards hf htaken => exact hkept htaken

theorem ordered_step (w : Ordered s) (hG : OffersAwaited s a) (h : Move s a t) : Ordered t where
  coherent := coherent_step w.coherent h
  peers r := negotiationOk_move (w.peers r) (peer_cases h r)
  closed_gone := fun _ hclosed => closedGone_step w h hclosed
  negotiated := fun _ _ hx => negotiated_step w hG h hx
  pending := fun _ _ hx => pending_step w hG h hx
  reserved := fun _ _ hx => reserved_step w h hx
  promoting := fun _ _ _ hk _ hx => promoting_step w hG h hk hx
  toOffer := fun _ _ hk _ hx => toOffer_step w h hk hx
  toMark := fun _ _ hk _ hx => toMark_step w hG h hk hx

end Step

/-- Negotiated is answered in every state of a run whose promotions await the answer to what
they take and whose tracks come on a connection afresh. -/
theorem negotiatedAnswered_of_offersAwaited (roomId : RoomId) (actions : List Action)
    (hG : (system roomId).Guarded OffersAwaited (system roomId).init actions) :
    (system roomId).Always NegotiatedAnswered (system roomId).init actions := by
  refine System.always_mono (fun s (w : Ordered s) => w.negotiatedAnswered) ?_
  refine System.always_of_guarded ?_ (ordered_initial roomId) hG
  exact fun s a t w hG h => ordered_step w hG (step_move h)

/-- A's camera is offered to B, marked pending and answered; the promotion is still asleep when
A's screen is added and its offer made. -/
def secondOffer : List Action :=
  [.join (connection "a"), .join (connection "b"),
    .track "a" { id := "camera", streamId := "main" }, .reserve "b", .addTrack (.subscribed 0),
    .finishForward, .renegotiation 0 .check, .renegotiation 0 .check,
    .renegotiation 0 (.offer .created true), .renegotiation 0 .mark, .clientAnswer "b" 1,
    .track "a" { id := "screen", streamId := "main" }, .reserve "b", .addTrack (.subscribed 2),
    .finishForward, .renegotiation 2 .check, .renegotiation 2 .check,
    .renegotiation 2 (.offer .created true)]

/-- The screen is marked pending before the promotion of the first answer wakes up. -/
def markBeforeWake : List Action :=
  secondOffer ++ [.renegotiation 2 .mark, .promotion 1 .wake, .promotion 1 .lockPeer,
    .promotion 1 .take, .promotion 1 .promote]

/-- The screen is negotiated, and B has not answered its offer. -/
theorem markBeforeWake_unanswered :
    ¬ (system "r").Always NegotiatedAnswered (system "r").init markBeforeWake := by
  refine System.not_always_of_run
    (fun t => decide ("screen" ∈ t.room.negotiatedTracks.setAt "b") &&
      decide ("screen" ∉ (t.peers "b").answered)) (by decide) ?_
  intro t hfails h
  simp only [Bool.and_eq_true, decide_eq_true_eq] at hfails
  exact hfails.2 (h.1 "b" "screen" hfails.1)

/-- The promotion of the first answer is done before the screen is marked pending. -/
def wakeBeforeMark : List Action :=
  secondOffer ++ [.promotion 1 .wake, .promotion 1 .lockPeer, .promotion 1 .take,
    .promotion 1 .promote, .promotion 1 .collect, .promotion 1 (.retry .collision false),
    .renegotiation 2 .mark, .clientAnswer "b" 3, .promotion 3 .wake, .promotion 3 .lockPeer,
    .promotion 3 .take, .promotion 3 .promote, .promotion 3 .collect]

theorem negotiatedAnswered_wakeBeforeMark :
    (system "r").Always NegotiatedAnswered (system "r").init wakeBeforeMark :=
  negotiatedAnswered_of_offersAwaited "r" wakeBeforeMark (by decide)

end OpenMeet.AnsweredTracks
