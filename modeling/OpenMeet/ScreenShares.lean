import OpenMeet.Eviction
import OpenMeet.LiveForwards

/-!
Screen shares and their presenters. A share is admitted under the room's write
lock, which its join holds until the share is in, and only a removal under the
same lock takes the presenter away: a disconnect removes the presenter's shares
by name, an eviction removes them as participants of the same user, and a
closure removes everybody. The media tasks never forward to a share, nor from a
share to its presenter, although their snapshots are taken at other times.
-/
namespace OpenMeet.ScreenShares

open KeyedMap Messages RoomState

section Signaling

open Repository SignalingServer SignalingSteps Transitions Consistency

theorem ownerPresent_iff {room : Room} {userId : Option Uuid} {ownerId : ParticipantId} :
    ownerPresent room userId ownerId = true ↔
      ∃ owner, room.participants.lookup ownerId = some owner ∧
        owner.participant.screenShareOf = none ∧ owner.participant.userId = userId := by
  simp [ownerPresent, Option.any_eq_true]

/-- The presenter of every share is in its room, is no share, and joined as the same user. A
share whose peer is being set up has its presenter there too. -/
structure Attached (s : Server) : Prop where
  consistent : Consistent s
  present : ∀ ref q c o, (s.room ref).participants.lookup q = some c →
    c.participant.screenShareOf = some o →
    ownerPresent (s.room ref) c.participant.userId o = true
  admitted : ∀ p req ref existing history o,
    s.recvTask p = .settingUpPeer req ref existing history → req.screenShareOf = some o →
    ownerPresent (s.room ref) (s.identity p).userId o = true

theorem attached_initial : Attached Server.initial := by
  refine ⟨consistent_initial, ?_, ?_⟩ <;>
    simp [Server.initial, InMemoryRoomRepository.new, Room.new]

variable {env : Environment} {s t : Server} {a : Action}

/-! ### What an operation does to a presenter -/

section Rooms

variable {room after : Room} {userId : Option Uuid} {o : ParticipantId}

/-- No participant of the user is a share of the presenter. -/
def SharesGone (room : Room) (userId : Option Uuid) (o : ParticipantId) : Prop :=
  ∀ q c, room.participants.lookup q = some c → c.participant.userId = userId →
    c.participant.screenShareOf ≠ some o

theorem ownerPresent_of_participants (hsame : after.participants = room.participants)
    (howner : ownerPresent room userId o = true) : ownerPresent after userId o = true := by
  rwa [ownerPresent, hsame]

theorem ownerPresent_of_mem {p : ParticipantId} (howner : ownerPresent room userId o = true)
    (hp : p ∉ room.participants) : o ≠ p := by
  intro heq
  subst heq
  obtain ⟨owner, hlookup, -⟩ := ownerPresent_iff.mp howner
  exact hp (AList.lookup_isSome.mp (Option.isSome_of_mem hlookup))

theorem ownerPresent_addParticipant (connection : ParticipantConnection)
    (howner : ownerPresent room userId o = true) (hne : o ≠ connection.participant.id) :
    ownerPresent (room.addParticipant connection).1 userId o = true := by
  rwa [ownerPresent, Room.addParticipant, AList.lookup_insert_ne hne]

theorem ownerPresent_runRequest {p : ParticipantId} {name : Option String} {recent : List Instant}
    {now timestamp : Nat} {request : RoomRequest} (howner : ownerPresent room userId o = true) :
    ownerPresent (runRequest room p name recent now timestamp request).1 userId o = true := by
  obtain ⟨owner, hlookup, hnone, huser⟩ := ownerPresent_iff.mp howner
  have hkeys := (runRequest_frame room p name recent now timestamp request).2.1
  have hstill : o ∈ (runRequest room p name recent now timestamp request).1.participants := by
    rw [AList.mem_keys, hkeys, ← AList.mem_keys]
    exact AList.lookup_isSome.mp (Option.isSome_of_mem hlookup)
  obtain ⟨after, hafter⟩ := Option.isSome_iff_exists.mp (AList.lookup_isSome.mpr hstill)
  obtain ⟨before, hbefore, -, hsame, hshare⟩ := lookup_runRequest hafter
  obtain rfl := Option.some.inj (hlookup.symm.trans hbefore)
  rw [ownerPresent_iff]
  exact ⟨after, hafter, hshare.trans hnone, hsame.trans huser⟩

/-- A disconnect removes the presenter's shares by name. -/
theorem ownerPresent_removeWithScreenShares (p : ParticipantId)
    (howner : ownerPresent room userId o = true) :
    ownerPresent (room.removeWithScreenShares p).1 userId o = true ∨
      SharesGone (room.removeWithScreenShares p).1 userId o := by
  obtain ⟨owner, hlookup, hnone, huser⟩ := ownerPresent_iff.mp howner
  have hrest : ∀ {q : ParticipantId}, q ≠ p →
      (room.removeParticipant p).1.participants.lookup q = room.participants.lookup q := by
    intro q hq
    rw [Room.removeParticipant_participants, AList.lookup_erase_ne hq]
  by_cases ho : o = p
  · right
    intro q c hq hsame hshare
    rw [Room.lookup_removeWithScreenShares, Option.ite_none_left_eq_some, not_or] at hq
    obtain ⟨⟨hqp, hstays⟩, hq⟩ := hq
    exact hstays ((Room.mem_screenSharesOf _).mpr ⟨c, (hrest hqp).trans hq, ho ▸ hshare⟩)
  · left
    have hstays : ¬ (o = p ∨ o ∈ (room.removeParticipant p).1.screenSharesOf p) := by
      intro hgone
      obtain ⟨c, hc, hshare⟩ := (Room.mem_screenSharesOf _).mp (hgone.resolve_left ho)
      obtain rfl := Option.some.inj (hlookup.symm.trans ((hrest ho).symm.trans hc))
      rw [hnone] at hshare
      cases hshare
    rw [ownerPresent_iff]
    refine ⟨owner, ?_, hnone, huser⟩
    rw [Room.lookup_removeWithScreenShares, if_neg hstays]
    exact hlookup

/-- An eviction removes the presenter and its shares as participants of one user. -/
theorem ownerPresent_removeUser (evicted : Uuid) (howner : ownerPresent room userId o = true) :
    ownerPresent (room.removeParticipants (room.participantsOfUser evicted)).1 userId o = true ∨
      SharesGone (room.removeParticipants (room.participantsOfUser evicted)).1 userId o := by
  obtain ⟨owner, hlookup, hnone, huser⟩ := ownerPresent_iff.mp howner
  by_cases he : userId = some evicted
  · right
    intro q c hq hsame
    rw [Room.lookup_removeParticipants, Option.ite_none_left_eq_some] at hq
    exact absurd ((Room.mem_participantsOfUser _).mpr ⟨c, hq.2, hsame.trans he⟩) hq.1
  · left
    have hstays : o ∉ room.participantsOfUser evicted := by
      intro hgone
      obtain ⟨c, hc, hevicted⟩ := (Room.mem_participantsOfUser _).mp hgone
      obtain rfl := Option.some.inj (hlookup.symm.trans hc)
      exact he (huser.symm.trans hevicted)
    rw [ownerPresent_iff]
    refine ⟨owner, ?_, hnone, huser⟩
    rw [Room.lookup_removeParticipants, if_neg hstays]
    exact hlookup

/-- A closure removes everybody. -/
theorem sharesGone_removeAll :
    SharesGone (room.removeParticipants room.participants.keys).1 userId o := by
  intro q c hq
  have hmem := AList.lookup_isSome.mp (Option.isSome_of_mem hq)
  obtain ⟨hpresent, hgone⟩ := (Room.mem_removeParticipants _).mp hmem
  exact absurd (AList.mem_keys.mp hpresent) hgone

end Rooms

/-- A presenter stays where it is, or a removal under the room's lock takes its shares along. -/
theorem owner_cases (w : Consistent s) (h : Transition env s a t) {ref : RoomRef}
    {userId : Option Uuid} {o : ParticipantId}
    (howner : ownerPresent (s.room ref) userId o = true) :
    ownerPresent (t.room ref) userId o = true ∨
      s.writer ref = none ∧ SharesGone (t.room ref) userId o := by
  -- an object that the step does not write
  have hother : ∀ {r : RoomRef} {room : Room}, ref ≠ r →
      ownerPresent (Function.update s.repository.objects r room ref) userId o = true := by
    intro r room hr
    rw [Function.update_of_ne hr]
    exact howner
  cases h with
  | createRoom p req authorization repository htask hcreate =>
    obtain ⟨-, -, -, -, hobjects, -⟩ := s.repository.createRoom_eq_ok hcreate
    obtain ⟨owner, hlookup, -⟩ := ownerPresent_iff.mp howner
    have hne : ref ≠ s.repository.nextRef := by
      intro hr
      exact w.vacant ref o (Nat.le_of_eq hr.symm)
        (AList.lookup_isSome.mp (Option.isSome_of_mem hlookup))
    left
    simpa [hobjects, hne] using howner
  | join p peer req r existing history htask hpeer haccess =>
    left
    by_cases hr : ref = r
    · subst r
      have hne : o ≠ p := by
        apply ownerPresent_of_mem howner
        intro hmem
        have houtside := w.joining_outside p (by simp [isJoining, htask])
        rw [w.member_room ref p hmem] at houtside
        cases houtside
      simpa using ownerPresent_addParticipant (newConnection p (s.identity p).userId req)
        howner hne
    · exact hother hr
  | applyRequest p now timestamp roomId request r recent room outbox hid htask hfree hactive hrun =>
    left
    by_cases hr : ref = r
    · subst r
      obtain rfl := congrArg Prod.fst hrun
      simpa using ownerPresent_runRequest howner
    · exact hother hr
  | cleanUp p roomId r rest task hsocket hfree hp htask =>
    by_cases hr : ref = r
    · subst r
      simpa [hfree] using ownerPresent_removeWithScreenShares p howner
    · exact Or.inl (hother hr)
  | markDenied i e roomId r =>
    left
    by_cases hr : ref = r
    · subst r
      exact ownerPresent_of_participants (by simp [Room.denyUser]) howner
    · exact hother hr
  | evict i e roomId r rest heviction hstage hfree =>
    by_cases hr : ref = r
    · subst r
      simpa [hfree] using ownerPresent_removeUser e.userId howner
    · exact Or.inl (hother hr)
  | closeRoom i c r rest hclosure hstage hfree =>
    by_cases hr : ref = r
    · subst r
      right
      simpa [hfree] using sharesGone_removeAll
    · exact Or.inl (hother hr)
  | revokeMapped i c roomId r rest hclosure hstage hroom =>
    left
    by_cases hr : ref = r
    · subst r
      exact ownerPresent_of_participants
        (by simp [InMemoryRoomRepository.revokeRoom_objects, hroom]) howner
    · exact ownerPresent_of_participants
        (by simp [InMemoryRoomRepository.revokeRoom_objects, hroom, hr]) howner
  | revokeUnmapped i c roomId rest hclosure hstage hroom =>
    left
    exact ownerPresent_of_participants
      (by simp [InMemoryRoomRepository.revokeRoom_objects, hroom]) howner
  | _ => exact Or.inl howner

/-- A join gets to the setup of its peer only with its presenter in the room. -/
theorem admitted_owner (h : Transition env s (.lockRoom q) t) {req : JoinRequest} {ref : RoomRef}
    {existing : List Room.ParticipantInfo} {history : List ChatMessagePayload}
    (hbefore : s.recvTask q = .lockingRoom req ref)
    (hafter : t.recvTask q = .settingUpPeer req ref existing history) :
    req.screenShareOf.all (ownerPresent (s.room ref) (s.identity q).userId) = true := by
  cases h with
  | recv a p task messages hmove =>
    generalize s.recvTask p = before at hmove
    cases hmove
    simp at hafter
  | lockRoom p req' r htask hfree haccess howner =>
    rw [hbefore] at htask
    cases htask
    exact howner
  | socket a p task hmove =>
    generalize s.socketTask p = before at hmove
    cases hmove
  | eviction a i e stage heviction hmove =>
    generalize e.stage = before at hmove
    cases hmove

theorem attached_step (hs : Attached s) (h : Transition env s a t) : Attached t where
  consistent := consistent_step hs.consistent h
  present := by
    intro ref q after o hlookup hshare
    have howner : ownerPresent (s.room ref) after.participant.userId o = true := by
      rcases connection_cases h hlookup with ⟨before, hbefore, -, huser, hsame⟩ |
        ⟨req, existing, history, -, htask, -, rfl, -⟩
      · rw [huser]
        exact hs.present ref q before o hbefore (hsame ▸ hshare)
      · exact hs.admitted q req ref existing history o htask hshare
    rcases owner_cases hs.consistent h howner with hstill | ⟨-, hgone⟩
    · exact hstill
    · exact absurd hshare (hgone q after hlookup rfl)
  admitted := by
    intro p req ref existing history o htask hshare
    have hidentity : t.identity p = s.identity p := by
      apply (Eviction.identity_cases h p).resolve_right
      rw [htask]
      exact nofun
    rw [hidentity]
    rcases settingUp_cases h htask with hbefore | ⟨rfl, hbefore, -, -, -, -, hsame⟩
    · have howner := hs.admitted p req ref existing history o hbefore hshare
      -- the lock is held, so nobody is being removed
      have hheld : s.writer ref = some p :=
        (hs.consistent.writer_iff ref p).mpr ⟨req, existing, history, hbefore⟩
      rcases owner_cases hs.consistent h howner with hstill | ⟨hfree, -⟩
      · exact hstill
      · rw [hheld] at hfree
        cases hfree
    · have howner := admitted_owner h hbefore htask
      rw [hshare, Option.all_some] at howner
      have hroom : t.room ref = s.room ref := by
        simp only [Server.room, hsame]
      rw [hroom]
      exact howner

theorem attached_run {actions : List Action} (hrun : (system env).run actions = some s) :
    Attached s := by
  refine TransitionSystem.System.invariant_run attached_initial ?_ hrun
  intro u a t hu hstep
  exact attached_step hu (step_transition hstep)

end Signaling

section Media

open MediaTasks MediaMoves MediaInvariants TrackMaps LiveForwards

/-- A join of the run brought the participant in as a share of the presenter. -/
def JoinedAsShare (past : List Action) (share presenter : ParticipantId) : Prop :=
  ∃ connection, .join connection ∈ past ∧ connection.participant.id = share ∧
    connection.participant.screenShareOf = some presenter

/-- A forward to no share, and from no share of its receiver. Both ends are participants the
room has seen, which no later join can turn into shares. -/
structure Unshared (past : List Action) (s : Media) (r : ParticipantId) (f : Forward) : Prop where
  receiver_known : r ∈ s.known
  source_known : f.source ∈ s.known
  receiver : ∀ presenter, ¬ JoinedAsShare past r presenter
  source : ¬ JoinedAsShare past f.source r

/-- Every forward the tasks have in hand is unshared, and who joined as a share still says so. -/
structure SharesApart (past : List Action) (s : Media) : Prop where
  coherent : Coherent s
  joined_known : ∀ share presenter, JoinedAsShare past share presenter → share ∈ s.known
  recorded : ∀ share presenter c, JoinedAsShare past share presenter →
    s.room.participants.lookup share = some c → c.participant.screenShareOf = some presenter
  forwarding : ∀ op, s.lock = .forwarding op → ∀ r,
    r ∈ op.rest ∨ op.current = some r ∨ r ∈ op.receivers →
    Unshared past s r ⟨op.source, op.track⟩
  late : ∀ k r phase, s.tasks.lookup k = some (.late r phase) → ∀ f ∈ forwardsOf phase,
    Unshared past s r f
  writers : ∀ r f, (r, f) ∈ s.writers → Unshared past s r f

variable {past : List Action} {s t : Media} {a : Action}

theorem sharesApart_initial (roomId : RoomId) : SharesApart [] (Media.initial roomId) := by
  refine ⟨coherent_initial roomId, ?_, ?_, ?_, ?_, ?_⟩ <;>
    simp [Media.initial, JoinedAsShare]

theorem joinedAsShare_append {share presenter : ParticipantId} :
    JoinedAsShare (past ++ [a]) share presenter ↔
      JoinedAsShare past share presenter ∨ ∃ connection, a = .join connection ∧
        connection.participant.id = share ∧
        connection.participant.screenShareOf = some presenter := by
  simp only [JoinedAsShare, List.mem_append, List.mem_singleton, or_and_right, exists_or,
    eq_comm (b := a)]

/-- The room decides by what its participants joined as. -/
theorem unshared_of_shouldForward (hs : SharesApart past s) {r : ParticipantId} {f : Forward}
    (hr : r ∈ s.room.participants) (hsource : f.source ∈ s.room.participants)
    (hforward : s.room.shouldForward f.source r = true) : Unshared past s r f := by
  have hne : f.source ≠ r := s.room.ne_of_shouldForward hforward
  simp only [Room.shouldForward, if_neg hne, Bool.and_eq_true, decide_eq_true_eq] at hforward
  obtain ⟨hreceiver, hpresenter⟩ := hforward
  refine ⟨hs.coherent.present_known r hr, hs.coherent.present_known _ hsource, ?_, ?_⟩
  · intro presenter hjoined
    obtain ⟨c, hc⟩ := Option.isSome_iff_exists.mp (AList.lookup_isSome.mpr hr)
    have hshare := hs.recorded r presenter c hjoined hc
    simp [hc, hshare] at hreceiver
  · intro hjoined
    obtain ⟨c, hc⟩ := Option.isSome_iff_exists.mp (AList.lookup_isSome.mpr hsource)
    have hshare := hs.recorded f.source r c hjoined hc
    apply hpresenter
    simp [hc, hshare]

/-- The id of a join is new to the room, which then knows it. -/
theorem join_known {connection : ParticipantConnection} (h : Move s (.join connection) t) :
    connection.participant.id ∉ s.known ∧ connection.participant.id ∈ t.known := by
  cases h with
  | join connection hlock hreaders hfresh => exact ⟨hfresh, Finset.mem_insert_self ..⟩
  | forward op hlock hmove => cases hmove
  | removal p removed phase hlock hmove => cases hmove

theorem unshared_step (h : Move s a t) {r : ParticipantId} {f : Forward}
    (hf : Unshared past s r f) : Unshared (past ++ [a]) t r f := by
  have hold : ∀ {share presenter}, share ∈ s.known →
      JoinedAsShare (past ++ [a]) share presenter → JoinedAsShare past share presenter := by
    intro share presenter hknown hjoined
    rcases joinedAsShare_append.mp hjoined with hjoined | ⟨connection, rfl, rfl, -⟩
    · exact hjoined
    · exact absurd hknown (join_known h).1
  refine ⟨known_subset h hf.receiver_known, known_subset h hf.source_known, ?_, ?_⟩
  · intro presenter hjoined
    exact hf.receiver presenter (hold hf.receiver_known hjoined)
  · intro hjoined
    exact hf.source (hold hf.source_known hjoined)

/-- A connection found in the room was there before, or has just joined. -/
theorem connection_before (h : Move s a t) {q : ParticipantId} {c : ParticipantConnection}
    (hc : t.room.participants.lookup q = some c) :
    s.room.participants.lookup q = some c ∨ a = .join c ∧ c.participant.id = q := by
  cases h with
  | join connection hlock hreaders hfresh =>
    by_cases hq : q = connection.participant.id
    · subst q
      simp only [Room.addParticipant, AList.lookup_insert, Option.some.injEq] at hc
      subst hc
      exact Or.inr ⟨rfl, rfl⟩
    · left
      simpa [Room.addParticipant, AList.lookup_insert_ne hq] using hc
  | remove p =>
    left
    simp only [Media.setLock, Media.setPeer, Media.setRoom, Room.removeParticipantTracks] at hc
    by_cases hq : q = p
    · subst q
      simp at hc
    · rw [AList.lookup_erase_ne hq] at hc
      exact hc
  | forward op hlock hmove => exact Or.inl ((forward_parties hmove).participants ▸ hc)
  | removal p removed phase hlock hmove => exact Or.inl ((removal_parties hmove).participants ▸ hc)
  | late k r phase htask hmove => exact Or.inl ((late_parties hmove).participants ▸ hc)
  | renegotiation k r trackId phase htask hmove =>
    exact Or.inl ((renegotiation_parties hmove).participants ▸ hc)
  | promotion k r phase htask hmove => exact Or.inl ((promotion_parties hmove).participants ▸ hc)
  | retirement k r attempt htask hmove =>
    exact Or.inl ((retirement_parties hmove).participants ▸ hc)
  | _ => exact Or.inl hc

theorem recorded_step (hs : SharesApart past s) (h : Move s a t) {share presenter : ParticipantId}
    {c : ParticipantConnection} (hjoined : JoinedAsShare (past ++ [a]) share presenter)
    (hc : t.room.participants.lookup share = some c) :
    c.participant.screenShareOf = some presenter := by
  rcases joinedAsShare_append.mp hjoined with hbefore | ⟨connection, rfl, rfl, hshare⟩
  · rcases connection_before h hc with hc | ⟨rfl, rfl⟩
    · exact hs.recorded share presenter c hbefore hc
    · exact absurd (hs.joined_known _ _ hbefore) (join_known h).1
  · rcases connection_before h hc with hc | ⟨heq, -⟩
    · have hpresent := AList.lookup_isSome.mp (Option.isSome_of_mem hc)
      exact absurd (hs.coherent.present_known _ hpresent) (join_known h).1
    · cases heq
      exact hshare

/-- The loop over an arriving track takes its receivers from the room's choice. -/
theorem forwarding_unshared (hs : SharesApart past s) (h : Move s a t) {op : ForwardTrack}
    (hlock : t.lock = .forwarding op) {r : ParticipantId}
    (hr : r ∈ op.rest ∨ op.current = some r ∨ r ∈ op.receivers) :
    Unshared past s r ⟨op.source, op.track⟩ := by
  have hstays : t.lock = s.lock → Unshared past s r ⟨op.source, op.track⟩ := by
    intro hsame
    exact hs.forwarding op (hsame ▸ hlock) r hr
  cases h with
  | track p track hfree hreaders hp =>
    cases hlock
    have hreceiver : r ∈ (s.room.receiversOf p).toFinset := by simpa using hr
    obtain ⟨hpresent, hforward, -⟩ :=
      (s.room.mem_receiversOf p r).mp (List.mem_toFinset.mp hreceiver)
    exact unshared_of_shouldForward hs hpresent hp hforward
  | remove => cases hlock
  | removal p removed phase hbusy hmove => cases hmove <;> cases hlock
  | forward before hbusy hmove =>
    have hbefore := hs.forwarding before hbusy r
    cases hmove with
    | reserve q hcurrent hq hfree =>
      cases hlock
      rcases hr with hr | hr | hr
      · exact hbefore (Or.inl (Finset.mem_of_mem_erase hr))
      · cases hr
        exact hbefore (Or.inl hq)
      · exact hbefore (Or.inr (Or.inr hr))
    | skip q hcurrent hq htaken =>
      cases hlock
      rcases hr with hr | hr | hr
      · exact hbefore (Or.inl (Finset.mem_of_mem_erase hr))
      · cases hr
      · exact hbefore (Or.inr (Or.inr hr))
    | subscribed q k hcurrent hholder hk hopen =>
      cases hlock
      rcases hr with hr | hr | hr
      · exact hbefore (Or.inl hr)
      · cases hr
      · rcases Finset.mem_insert.mp hr with rfl | hr
        · exact hbefore (Or.inr (Or.inl hcurrent))
        · exact hbefore (Or.inr (Or.inr hr))
    | withoutEncoding q hcurrent hholder hopen =>
      cases hlock
      rcases hr with hr | hr | hr
      · exact hbefore (Or.inl hr)
      · cases hr
      · exact hbefore (Or.inr (Or.inr hr))
    | failed q hcurrent hholder =>
      cases hlock
      rcases hr with hr | hr | hr
      · exact hbefore (Or.inl hr)
      · cases hr
      · exact hbefore (Or.inr (Or.inr hr))
    | finish => cases hlock
  | late k q phase htask hmove => exact hstays (by cases hmove <;> rfl)
  | renegotiation k q trackId phase htask hmove => exact hstays (by cases hmove <;> rfl)
  | promotion k q phase htask hmove => exact hstays (by cases hmove <;> rfl)
  | retirement k q attempt htask hmove => exact hstays (by cases hmove <;> rfl)
  | _ => exact hstays rfl

/-- A late joiner's task never takes a forward in hand beyond those it started with. -/
theorem forwardsOf_subset {k : TaskId} {r : ParticipantId} {before after : LatePhase}
    {event : LateEvent} (hmove : LateMove s k r before event t)
    (hafter : t.tasks.lookup k = some (.late r after)) : forwardsOf after ⊆ forwardsOf before := by
  intro f hf
  cases hmove with
  | inactive | giveUp | fail | drop | mark => simp at hafter
  | reserve g rest pendingForwards hg =>
    simp only [Media.setTask, AList.lookup_insert, Option.some.injEq, Task.late.injEq] at hafter
    obtain ⟨-, rfl⟩ := hafter
    simp only [forwardsOf, Option.toList_some, Option.toList_none, List.mem_append,
      List.mem_singleton, List.not_mem_nil, false_or] at hf ⊢
    rcases hf with (rfl | hf) | hf
    · exact Or.inl hg
    · exact Or.inl (List.mem_of_mem_erase hf)
    · exact Or.inr hf
  | skip g rest pendingForwards hg =>
    simp only [Media.setTask, AList.lookup_insert, Option.some.injEq, Task.late.injEq] at hafter
    obtain ⟨-, rfl⟩ := hafter
    simp only [forwardsOf, Option.toList_none, List.mem_append, List.not_mem_nil,
      false_or] at hf ⊢
    exact hf.imp_left List.mem_of_mem_erase
  | _ =>
    simp only [Media.setTask, AList.lookup_insert, Option.some.injEq, Task.late.injEq] at hafter
    obtain ⟨-, rfl⟩ := hafter
    simp only [forwardsOf, Option.toList_some, Option.toList_none, List.mem_append,
      List.mem_singleton, List.not_mem_nil, false_or, or_false] at hf ⊢
    tauto

theorem late_unshared (hs : SharesApart past s) (h : Move s a t) {k : TaskId}
    {r : ParticipantId} {phase : LatePhase} (hk : t.tasks.lookup k = some (.late r phase))
    {f : Forward} (hf : f ∈ forwardsOf phase) : Unshared past s r f := by
  rcases task_cases h hk with hadvances | ⟨-, hlookup⟩ | hspawned
  · cases hadvances with
    | late r before after htask hmove hafter =>
      exact hs.late k r before htask f (forwardsOf_subset hmove hafter hf)
  · exact hs.late k r phase hlookup f hf
  · cases hspawned with
    | late r k hreachable =>
      obtain ⟨hforward, hpublished⟩ := (s.room.mem_existingTracks r f).mp hf
      have hsource := hs.coherent.published_present _ _ hpublished
      exact unshared_of_shouldForward hs (reachable_present hreachable) hsource hforward

theorem pendingOf_subset (phase : LatePhase) : pendingOf phase ⊆ forwardsOf phase := by
  cases phase with
  | adding current rest pendingForwards => exact List.subset_append_right ..
  | checking | waiting => exact List.nil_subset _
  | _ => exact List.Subset.refl _

theorem SharesApart.claimed (hs : SharesApart past s) {r : ParticipantId} {f : Forward}
    (hf : Claimed s r f) : Unshared past s r f := by
  rcases hf with ⟨op, hlock, rfl, hr⟩ | (hwriter | ⟨k, phase, hk, hf⟩) |
    ⟨k, rest, pendingForwards, hk⟩
  · exact hs.forwarding op hlock r (Or.inr hr.symm)
  · exact hs.writers r f hwriter
  · exact hs.late k r phase hk f (pendingOf_subset phase hf)
  · exact hs.late k r _ hk f (by simp [forwardsOf])

theorem sharesApart_step (hs : SharesApart past s) (h : Move s a t) :
    SharesApart (past ++ [a]) t where
  coherent := coherent_step hs.coherent h
  joined_known := by
    intro share presenter hjoined
    rcases joinedAsShare_append.mp hjoined with hjoined | ⟨connection, rfl, rfl, -⟩
    · exact known_subset h (hs.joined_known share presenter hjoined)
    · exact (join_known h).2
  recorded := by
    intro share presenter c hjoined hc
    exact recorded_step hs h hjoined hc
  forwarding := by
    intro op hlock r hr
    exact unshared_step h (forwarding_unshared hs h hlock hr)
  late := by
    intro k r phase hk f hf
    exact unshared_step h (late_unshared hs h hk hf)
  writers := by
    intro r f hwriter
    apply unshared_step h
    rcases writer_cases h hwriter with hdetached | ⟨-, hforwarding⟩
    · exact hs.claimed (Or.inr (Or.inl hdetached))
    · exact hs.claimed (Or.inl hforwarding)

theorem sharesApart_run {roomId : RoomId} {actions : List Action}
    (hrun : (system roomId).run actions = some s) : SharesApart actions s := by
  refine TransitionSystem.System.history_runFrom (sharesApart_initial roomId) ?_ hrun
  intro past u a t _ hu hstep
  exact sharesApart_step hu (step_move hstep)

end Media

/-- In every reachable state of the server the presenter of a share is in the share's room, is no
share itself, and joined as the same user; and no subscription that the loop over an arriving
track or a late joiner's task reserves, adds or writes has a share as its receiver or goes from a
share to its own presenter. -/
theorem screenShares_attached :
    (∀ (env : SignalingServer.Environment) (actions : List SignalingSteps.Action)
      (s : SignalingServer.Server), (SignalingSteps.system env).run actions = some s →
      ∀ ref q c o, (s.room ref).participants.lookup q = some c →
        c.participant.screenShareOf = some o →
        ∃ owner, (s.room ref).participants.lookup o = some owner ∧
          owner.participant.screenShareOf = none ∧
          owner.participant.userId = c.participant.userId) ∧
    ∀ (roomId : RoomId) (actions : List MediaTasks.Action) (s : MediaTasks.Media),
      (MediaTasks.system roomId).run actions = some s → ∀ r f, LiveForwards.Claimed s r f →
        (∀ presenter, ¬ JoinedAsShare actions r presenter) ∧
          ¬ JoinedAsShare actions f.source r := by
  constructor
  · intro env actions s hrun ref q c o hlookup hshare
    exact ownerPresent_iff.mp ((attached_run hrun).present ref q c o hlookup hshare)
  · intro roomId actions s hrun r f hclaimed
    have hunshared := (sharesApart_run hrun).claimed hclaimed
    exact ⟨hunshared.receiver, hunshared.source⟩

section Example

open SignalingServer SignalingSteps

def admittedJoin (p : ParticipantId) (screenShareOf : Option ParticipantId) : List Action :=
  [.connect p ⟨some 7, some "Ann"⟩, .receive p (.join "demo" "Ann" none screenShareOf),
    .authorize p (some ⟨false, false, false⟩), .admitToMeetingRoom p (some .allowed), .checkRoom p]

/-- Ann joins, and then her screen. -/
def annPresents : List Action :=
  admittedJoin "ann" none ++
    [.createRoom "ann", .getRoom "ann", .lockRoom "ann", .finishJoin "ann" (.ok ())] ++
    admittedJoin "screen" (some "ann") ++
    [.getRoom "screen", .lockRoom "screen", .finishJoin "screen" (.ok ())]

open MediaTasks in
/-- Bob is there when the screen publishes, Carol comes late, and both subscribe to it. -/
def bobAndCarolWatch : List MediaTasks.Action :=
  let screen : ParticipantConnection := connection "screen"
  [.join (connection "ann"),
    .join { screen with
      participant := { screen.participant with screenShareOf := some "ann" } },
    .join (connection "bob"), .track "screen" { id := "window", streamId := "main" },
    .reserve "bob", .addTrack (.subscribed 0), .finishForward,
    .join (connection "carol"), .clientOffer "carol" 1, .late 1 .check, .late 1 .lockPeer,
    .late 1 (.reserve ⟨"screen", "window"⟩), .late 1 (.add true), .late 1 .unlock,
    .late 1 (.offer .created), .late 1 (.send true), .late 1 (.mark [])]

theorem annPresents_attached :
    (∃ s c owner, (system ⟨fun _ => false, Char.isAlphanum⟩).run annPresents = some s ∧
      (s.room 0).participants.lookup "screen" = some c ∧
      c.participant.screenShareOf = some "ann" ∧
      (s.room 0).participants.lookup "ann" = some owner ∧
      owner.participant.userId = c.participant.userId) ∧
    ∃ s, (MediaTasks.system "demo").run bobAndCarolWatch = some s ∧
      ∀ r ∈ ["bob", "carol"], (r, ⟨"screen", "window"⟩) ∈ s.writers ∧
        ¬ JoinedAsShare bobAndCarolWatch "screen" r := by
  constructor
  · let M := system ⟨fun _ => false, Char.isAlphanum⟩
    obtain ⟨s, hrun, htest⟩ := M.exists_run_of_any Server.initial annPresents
      (fun s => ((s.room 0).participants.lookup "screen").any fun c : ParticipantConnection =>
        decide (c.participant.screenShareOf = some "ann")) (by decide +kernel)
    obtain ⟨c, hc, hshare⟩ := (Option.any_eq_true _ _).mp htest
    obtain ⟨owner, howner, -, huser⟩ :=
      screenShares_attached.1 _ annPresents s hrun 0 "screen" c "ann" hc (of_decide_eq_true hshare)
    exact ⟨s, c, owner, hrun, hc, of_decide_eq_true hshare, howner, huser⟩
  · obtain ⟨s, hrun, htest⟩ := (MediaTasks.system "demo").exists_run_of_any
      (MediaTasks.Media.initial "demo") bobAndCarolWatch
      (fun s => decide (∀ r ∈ ["bob", "carol"], (r, (⟨"screen", "window"⟩ : Forward)) ∈ s.writers))
      (by decide +kernel)
    refine ⟨s, hrun, ?_⟩
    intro r hr
    have hwriter := of_decide_eq_true htest r hr
    have hapart := screenShares_attached.2 "demo" bobAndCarolWatch s hrun r ⟨"screen", "window"⟩
      (Or.inr (Or.inl (Or.inl hwriter)))
    exact ⟨hwriter, hapart.2⟩

end Example

end OpenMeet.ScreenShares
