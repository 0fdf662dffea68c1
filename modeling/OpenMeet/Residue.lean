import OpenMeet.TrackMaps

/-!
Residue of departed participants. A removal takes the participant and its
tracks out, then clears the three track maps and the forwarded senders one
after the other, while detached tasks go on writing into them. Whatever stands
in a map for somebody or something gone is there only until its clearing is
due, unless a task writes it after the clearing is over: the condition asks
that a task which writes finds its receiver and its source still there, or
their clearing still to come.
-/
namespace OpenMeet.Residue

open KeyedMap Messages RoomState TransitionSystem MediaTasks MediaMoves MediaInvariants
open TrackMaps

/-- Somebody present publishes the id. -/
def Published (room : Room) (trackId : TrackId) : Prop :=
  ∃ p ∈ room.participants.keys, trackId ∈ room.trackIdsOf p

instance (room : Room) (trackId : TrackId) : Decidable (Published room trackId) :=
  inferInstanceAs (Decidable (∃ p ∈ _, _))

/-- The source whose senders a removal has still to retire. -/
def toRetire : RoomLock → Option ParticipantId
  | .removing _ _ (.retiring _) => none
  | .removing p _ _ => some p
  | _ => none

/-- The receiver is present, or its key is still to be cleared. -/
def KeyDue (s : Media) (m : TrackMap) (r : ParticipantId) : Prop :=
  r ∈ s.room.participants ∨ ∃ due ∈ toClear m s.lock, due.1 = r

/-- The id is published, or still to be cleared. -/
def IdDue (s : Media) (m : TrackMap) (trackId : TrackId) : Prop :=
  Published s.room trackId ∨ ∃ due ∈ toClear m s.lock, trackId ∈ due.2

/-- The source is present, or its senders are still to be retired. -/
def SourceDue (s : Media) (source : ParticipantId) : Prop :=
  source ∈ s.room.participants ∨ toRetire s.lock = some source

instance (s : Media) (m : TrackMap) (r : ParticipantId) : Decidable (KeyDue s m r) :=
  inferInstanceAs (Decidable (_ ∨ _))

instance (s : Media) (m : TrackMap) (t : TrackId) : Decidable (IdDue s m t) :=
  inferInstanceAs (Decidable (_ ∨ _))

instance (s : Media) (source : ParticipantId) : Decidable (SourceDue s source) :=
  inferInstanceAs (Decidable (_ ∨ _))

/-- When everything has come to rest, the maps mention nobody but participants present and
nothing but what they publish, so that any other track can be reserved again. -/
def ResidueFree (s : Media) : Prop :=
  Quiescent s →
    (∀ p, p ∉ s.room.participants →
      (∀ m : TrackMap, p ∉ m.of s.room) ∧ p ∉ s.room.forwardedSenders ∧
      ∀ r senders, s.room.forwardedSenders.lookup r = some senders → ∀ e ∈ senders, e.1 ≠ p) ∧
    (∀ (m : TrackMap) r t, t ∈ (m.of s.room).setAt r → Published s.room t) ∧
    ∀ r t, ¬ Published s.room t →
      (Room.reserveForwardedTrack s.room.forwardedTracks r t).1 = true

/-- A late joiner's task reserves for a present receiver only what is published or still to
be cleared, and records a sender only of a source present or still to be retired; ids are
marked pending for a receiver and of sources that are there or still to be cleared. -/
def WritesDue (s : Media) (a : Action) : Prop :=
  (∀ w ∈ reserving s a, w.1 ∈ s.room.participants → IdDue s .forwarded w.2.track) ∧
  (∀ w ∈ recording s a, SourceDue s w.2.source) ∧
  ∀ w ∈ marking s a, w.2 ≠ [] → KeyDue s .pending w.1 ∧ ∀ t ∈ w.2, IdDue s .pending t

instance (s : Media) (a : Action) : Decidable (WritesDue s a) :=
  inferInstanceAs (Decidable (_ ∧ _ ∧ _))

/-- A late joiner's task that has just reserved its only entry for a receiver already gone:
the connection is closed, so adding the track will fail and release the entry. -/
def Releasing (s : Media) (r : ParticipantId) : Prop :=
  ∃ k f rest pendingForwards,
    s.tasks.lookup k = some (.late r (.adding (some f) rest pendingForwards)) ∧
      ∀ t ∈ s.room.forwardedTracks.setAt r, t = f.track

/-- The ids a promotion task carries from one map to the next. -/
def inHand : PromotionPhase → TrackId → Prop
  | .promoting trackIds, t => t ∈ trackIds
  | .retrying missing, t | .marking missing, t => t ∈ missing
  | _, _ => False

structure Tidy (s : Media) : Prop where
  coherent : Coherent s
  keys : ∀ m r, r ∈ TrackMap.of m s.room →
    KeyDue s m r ∨ (m = .forwarded ∧ Releasing s r)
  ids : ∀ m r t, r ∈ s.room.participants → t ∈ (TrackMap.of m s.room).setAt r → IdDue s m t
  carried : ∀ k r phase, s.tasks.lookup k = some (.promotion r phase) →
    ∀ t, inHand phase t → Published s.room t
  senderKeys : ∀ r ∈ s.room.forwardedSenders, SourceDue s r
  sources : ∀ r senders, s.room.forwardedSenders.lookup r = some senders →
    ∀ e ∈ senders, SourceDue s e.1

theorem tidy_initial (roomId : RoomId) : Tidy (Media.initial roomId) := by
  refine ⟨coherent_initial roomId, ?_, ?_, ?_, ?_, ?_⟩
  · intro m r hr
    cases m <;> simp [TrackMap.of, Media.initial, Room.new] at hr
  · intro m r t hr
    simp [Media.initial, Room.new] at hr
  · simp [Media.initial]
  · simp [Media.initial, Room.new]
  · simp [Media.initial, Room.new]

/-- A tidy state at rest has no residue. -/
theorem Tidy.residueFree {s : Media} (w : Tidy s) : ResidueFree s := by
  rintro ⟨hlock, htasks⟩
  have hnone : ∀ k, s.tasks.lookup k = none := by
    intro k
    rw [AList.lookup_eq_none]
    exact (Map.isEmpty_iff s.tasks).mp htasks k
  have hkeys : ∀ m r, r ∈ TrackMap.of m s.room → r ∈ s.room.participants := by
    intro m r hr
    rcases w.keys m r hr with (hr | ⟨due, hdue, -⟩) | ⟨-, k, f, rest, pendingForwards, htask, -⟩
    · exact hr
    · simp [toClear, hlock] at hdue
    · simp [hnone k] at htask
  have hids : ∀ m r t, t ∈ (TrackMap.of m s.room).setAt r → Published s.room t := by
    intro m r t ht
    rcases w.ids m r t (hkeys m r (Map.mem_of_mem_setAt ht)) ht with ht | ⟨due, hdue, -⟩
    · exact ht
    · simp [toClear, hlock] at hdue
  have hsources : ∀ p, SourceDue s p → p ∈ s.room.participants := by
    intro p hp
    rcases hp with hp | hp
    · exact hp
    · simp [toRetire, hlock] at hp
  refine ⟨fun p hp => ⟨fun m hm => hp (hkeys m p hm), fun hm => hp (hsources p (w.senderKeys p hm)),
    ?_⟩, hids, ?_⟩
  · rintro r senders hsenders e he rfl
    exact hp (hsources _ (w.sources r senders hsenders e he))
  · intro r t ht
    rw [Room.reserveForwardedTrack_fst]
    exact fun hmem => ht (hids .forwarded r t hmem)

section Step

variable {s t : Media} {a : Action}

theorem published_iff (w : Coherent s) (x : TrackId) :
    Published s.room x ↔ ∃ p, x ∈ s.room.trackIdsOf p := by
  constructor
  · rintro ⟨p, -, hp⟩
    exact ⟨p, hp⟩
  · rintro ⟨p, hp⟩
    exact ⟨p, AList.mem_keys.mp (w.published_present p x hp), hp⟩

/-- An id stops being published only when a removal takes it down to be cleared. -/
theorem published_step (w : Coherent s) (h : Move s a t) {x : TrackId}
    (hx : Published s.room x) :
    Published t.room x ∨ ∃ p, a = .remove p ∧ x ∈ s.room.trackIdsOf p := by
  rw [published_iff w] at hx
  rw [published_iff (coherent_step w h)]
  obtain ⟨q, hq⟩ := hx
  cases parties_cases h with
  | same h => exact Or.inl ⟨q, by rwa [h.trackIdsOf]⟩
  | join connection hfresh participants tracks known =>
    exact Or.inl ⟨q, by simpa [Room.trackIdsOf, tracks] using hq⟩
  | track p track hp participants tracks known =>
    refine Or.inl ⟨q, ?_⟩
    rw [tracks]
    split
    · rename_i heq
      exact List.mem_append_left _ (heq ▸ hq)
    · exact hq
  | remove p hp participants tracks known =>
    by_cases hqp : q = p
    · exact Or.inr ⟨p, rfl, hqp ▸ hq⟩
    · exact Or.inl ⟨q, by rwa [tracks, if_neg hqp]⟩

theorem keyDue_step (h : Move s a t) {m : TrackMap} {r : ParticipantId} (hr : KeyDue s m r)
    (hkey : r ∈ m.of t.room) : KeyDue t m r := by
  rcases hr with hr | ⟨⟨p, removed⟩, hdue, rfl⟩
  · rcases present_cases h hr with hr | rfl
    · exact Or.inl hr
    · refine Or.inr ⟨(r, s.room.trackIdsOf r), ?_, rfl⟩
      rw [remove_lock h]
      rfl
  · rcases toClear_step h hdue with hdue | hcleared
    · exact Or.inr ⟨(p, removed), hdue, rfl⟩
    · rw [hcleared] at hkey
      exact absurd rfl (Room.mem_clearTracks.mp hkey).1

theorem idDue_step (w : Coherent s) (h : Move s a t) {m : TrackMap} {r : ParticipantId}
    {x : TrackId} (hx : IdDue s m x) (hentry : x ∈ (m.of t.room).setAt r) : IdDue t m x := by
  rcases hx with hx | ⟨⟨p, removed⟩, hdue, hx⟩
  · rcases published_step w h hx with hx | ⟨p, rfl, hx⟩
    · exact Or.inl hx
    · refine Or.inr ⟨(p, s.room.trackIdsOf p), ?_, hx⟩
      rw [remove_lock h]
      rfl
  · rcases toClear_step h hdue with hdue | hcleared
    · exact Or.inr ⟨(p, removed), hdue, hx⟩
    · rw [hcleared, Room.setAt_clearTracks] at hentry
      split at hentry
      · simp at hentry
      · exact absurd hx (by simpa using (Finset.mem_filter.mp hentry).2)

/-- Under a promotion task's read lock everything published stays published. -/
theorem published_reading (w : Coherent s) (h : Move s a t) (hreaders : s.readers ≠ ∅)
    {x : TrackId} (hx : Published s.room x) : Published t.room x := by
  rcases published_step w h hx with hx | ⟨p, rfl, -⟩
  · exact hx
  · cases h with
    | remove p hlock hnone => exact absurd hnone hreaders
    | forward op hlock hmove => cases hmove
    | removal q removed phase hlock hmove => cases hmove

theorem carried_step (w : Tidy s) (h : Move s a t) {k : TaskId} {r : ParticipantId}
    {phase : PromotionPhase} (hk : t.tasks.lookup k = some (.promotion r phase)) {x : TrackId}
    (hx : inHand phase x) : Published t.room x := by
  rcases task_cases h hk with hadvances | ⟨hother, hlookup⟩ | hspawned
  · cases hadvances with
    | promotion r before after htask hmove =>
      have hok := w.coherent.tasks k _ htask
      have hreads : before ≠ .sleeping → s.readers ≠ ∅ ∧ r ∈ s.room.participants := fun hne =>
        ⟨Finset.ne_empty_of_mem (hok.1 hne).1, (hok.1 hne).2⟩
      cases hmove with
      | take =>
        cases lookup_insert_self hk
        obtain ⟨hreaders, hr⟩ := hreads (by simp)
        refine published_reading w.coherent h hreaders ?_
        rcases w.ids .pending r x hr hx with hx | ⟨due, hdue, -⟩
        · exact hx
        · simp [w.coherent.reading hreaders, toClear] at hdue
      | collect =>
        cases lookup_insert_self hk
        refine published_reading w.coherent h (hreads (by simp)).1 ?_
        obtain ⟨f, hf, rfl⟩ := List.mem_map.mp (List.mem_of_mem_filter hx)
        exact (published_iff w.coherent _).mpr
          ⟨f.source, ((s.room.mem_existingTracks r f).mp hf).2⟩
      | created missing =>
        cases lookup_insert_self hk
        exact published_reading w.coherent h (hreads (by simp)).1 (w.carried k r _ htask x hx)
      | wake | lockPeer | promote =>
        cases lookup_insert_self hk
        cases hx
      | inactive | nothingMissing | giveUp | unsent | mark =>
        exact absurd rfl (lookup_erase_cases hk).1
  · have hsleeps : phase ≠ .sleeping := by
      rintro rfl
      exact hx
    have hreader := ((w.coherent.tasks k _ hlookup).1 hsleeps).1
    exact published_reading w.coherent h (Finset.ne_empty_of_mem hreader)
      (w.carried k r phase hlookup x hx)
  · cases hspawned
    exact absurd hx id

/-- The senders a move leaves, and the one it adds. -/
inductive SenderChange (s : Media) : Action → Media → Prop
  | same {a : Action} {t : Media} (h : t.room.forwardedSenders = s.room.forwardedSenders) :
      SenderChange s a t
  | record {a : Action} {t : Media} (r source : ParticipantId) (sender : RtpSender)
      (hr : r ∈ s.room.participants) (hsource : SourceDue s source)
      (h : t.room = s.room.recordForwardedSender r source sender) : SenderChange s a t
  | retire {a : Action} {t : Media} (p : ParticipantId)
      (h : t.room = s.room.retireSendersFrom p) : SenderChange s a t

theorem sender_cases (w : Coherent s) (h : Move s a t) (hG : WritesDue s a) :
    SenderChange s a t := by
  cases h with
  | forward op hlock hmove =>
    have hok := w.forwarding op hlock
    cases hmove with
    | subscribed r k hcurrent =>
      exact .record r op.source _ (hok.current_present r hcurrent)
        (Or.inl (w.published_present _ _ hok.published)) rfl
    | _ => exact .same rfl
  | removal p removed phase hlock hmove =>
    cases hmove with
    | senders => exact .retire p rfl
    | _ => exact .same rfl
  | late k r phase htask hmove =>
    cases hmove with
    | add f rest pendingForwards hopen =>
      have hr : r ∈ s.room.participants := by
        by_contra hgone
        exact hopen (w.gone_closed r (w.tasks k _ htask).1 hgone)
      exact .record r f.source _ hr (hG.2.1 (r, f) (by simp [recording, htask])) rfl
    | _ => exact .same rfl
  | renegotiation k r trackId phase htask hmove => cases hmove <;> exact .same rfl
  | promotion k r phase htask hmove => cases hmove <;> exact .same rfl
  | retirement k r attempt htask hmove => cases hmove <;> exact .same rfl
  | _ => exact .same rfl

theorem toRetire_step (h : Move s a t) {p : ParticipantId} (hdue : toRetire s.lock = some p) :
    toRetire t.lock = some p ∨ t.room = s.room.retireSendersFrom p := by
  cases hlock : s.lock with
  | free => simp [hlock, toRetire] at hdue
  | forwarding op => simp [hlock, toRetire] at hdue
  | removing q ids phase =>
    rcases removing_cases h hlock with hsame | hmove
    · exact Or.inl (hsame ▸ hdue)
    · rw [hlock] at hdue
      cases hmove <;> simp [toRetire] at hdue <;> subst hdue <;>
        first
          | exact Or.inl rfl
          | exact Or.inr rfl

theorem sourceDue_present (h : Move s a t) {p : ParticipantId}
    (hp : p ∈ s.room.participants) : SourceDue t p := by
  rcases present_cases h hp with hp | rfl
  · exact Or.inl hp
  · refine Or.inr ?_
    rw [remove_lock h]
    rfl

theorem sourceDue_step (h : Move s a t) {p : ParticipantId} (hp : SourceDue s p) :
    SourceDue t p ∨ t.room = s.room.retireSendersFrom p := by
  rcases hp with hp | hdue
  · exact Or.inl (sourceDue_present h hp)
  · exact (toRetire_step h hdue).imp_left Or.inr

theorem senderKeys_step (w : Tidy s) (h : Move s a t) (hG : WritesDue s a) {r : ParticipantId}
    (hr : r ∈ t.room.forwardedSenders) : SourceDue t r := by
  have hold : r ∈ s.room.forwardedSenders → SourceDue t r := by
    intro hmem
    rcases sourceDue_step h (w.senderKeys r hmem) with hdue | hretired
    · exact hdue
    · rw [hretired, Room.mem_retireSendersFrom] at hr
      exact absurd rfl hr.1
  cases sender_cases w.coherent h hG with
  | same heq => exact hold (heq ▸ hr)
  | record q source sender hq hsource heq =>
    rw [heq] at hr
    rcases (AList.mem_insert _).mp hr with rfl | hr
    · exact sourceDue_present h hq
    · exact hold hr
  | retire p heq =>
    rw [heq, Room.mem_retireSendersFrom] at hr
    exact hold hr.2

theorem sources_step (w : Tidy s) (h : Move s a t) (hG : WritesDue s a) {r : ParticipantId}
    {senders : List (ParticipantId × RtpSender)}
    (hr : t.room.forwardedSenders.lookup r = some senders) {e : ParticipantId × RtpSender}
    (he : e ∈ senders) : SourceDue t e.1 := by
  have hdue : SourceDue s e.1 → SourceDue t e.1 := by
    intro hsource
    rcases sourceDue_step h hsource with hsource | hretired
    · exact hsource
    · rw [hretired] at hr
      exact absurd rfl (s.room.mem_senders_retireSendersFrom hr he).1
  cases sender_cases w.coherent h hG with
  | same heq => exact hdue (w.sources r senders (heq ▸ hr) e he)
  | record q source sender hq hsource heq =>
    rw [heq] at hr
    rcases s.room.mem_senders_recordForwardedSender hr he with rfl | ⟨before, hbefore, he⟩
    · exact hdue hsource
    · exact hdue (w.sources r before hbefore e he)
  | retire p heq =>
    rw [heq] at hr
    obtain ⟨-, before, hbefore, he⟩ := s.room.mem_senders_retireSendersFrom hr he
    exact hdue (w.sources r before hbefore e he)

/-- Nobody but the task that reserved for an absent receiver touches that receiver's entry. -/
theorem releasing_step (w : Coherent s) (h : Move s a t) {r : ParticipantId}
    (hgone : r ∉ s.room.participants) (hr : Releasing s r)
    (hkey : r ∈ t.room.forwardedTracks) : Releasing t r := by
  obtain ⟨k, f, rest, pendingForwards, htask, honly⟩ := hr
  have hok := w.tasks k _ htask
  have hkept : actor a ≠ some k → (∀ x ∈ t.room.forwardedTracks.setAt r, x = f.track) →
      Releasing t r :=
    fun hother honly => ⟨k, f, rest, pendingForwards, lookup_other h htask hother, honly⟩
  by_cases hactor : actor a = some k
  · obtain ⟨event, rfl, hmove⟩ := late_acts h hactor htask
    cases hmove with
    | add f rest pendingForwards hopen => exact absurd (w.gone_closed r hok.1 hgone) hopen
    | release f rest pendingForwards =>
      have hempty : (s.room.forwardedTracks.setAt r).erase f.track = ∅ := by
        ext x
        simpa using fun hne hx => hne (honly x hx)
      simp [Room.release, Room.releaseForwardedTrack, Map.discardAt, hempty] at hkey
  · refine hkept hactor fun x hx => ?_
    rcases entry_cases h .forwarded r x hx with hx | hwrites
    · exact honly x hx
    · cases hwrites with
      | forward op r hlock hr => exact absurd ((w.forwarding op hlock).rest_present _ hr) hgone
      | late k' r g rest' pendingForwards' htask' =>
        have hsame : k' = k := by
          have hheld := hok.2.2 rfl
          have hheld' := (w.tasks k' _ htask').2.2 rfl
          exact Option.some.inj (hheld'.symm.trans hheld)
        exact absurd (congrArg some hsame) hactor

/-- A receiver whose entries are neither its own nor being cleared nor being released has
none. -/
theorem no_entry (w : Tidy s) {m : TrackMap} {r : ParticipantId} (hkey : ¬ KeyDue s m r)
    (hreleasing : ¬ Releasing s r) (x : TrackId) : x ∉ (m.of s.room).setAt r := by
  intro hx
  rcases w.keys m r (Map.mem_of_mem_setAt hx) with hdue | ⟨-, hreleases⟩
  · exact hkey hdue
  · exact hreleasing hreleases

theorem keys_step (w : Tidy s) (h : Move s a t) (hG : WritesDue s a) {m : TrackMap}
    {r : ParticipantId} (hr : r ∈ m.of t.room) :
    KeyDue t m r ∨ (m = .forwarded ∧ Releasing t r) := by
  have hdue : KeyDue s m r → KeyDue t m r ∨ (m = .forwarded ∧ Releasing t r) :=
    fun hdue => Or.inl (keyDue_step h hdue hr)
  rcases key_cases h m r hr with hold | ⟨x, hwrites⟩
  · rcases w.keys m r hold with hkey | ⟨rfl, hreleasing⟩
    · exact hdue hkey
    · by_cases hpresent : r ∈ s.room.participants
      · exact hdue (Or.inl hpresent)
      · exact Or.inr ⟨rfl, releasing_step w.coherent h hpresent hreleasing hr⟩
  · cases hwrites with
    | forward op r hlock hrest =>
      exact hdue (Or.inl ((w.coherent.forwarding op hlock).rest_present _ hrest))
    | late k r f rest pendingForwards htask hfree =>
      by_cases hkey : KeyDue s .forwarded r
      · exact hdue hkey
      · have hidle : ¬ Releasing s r := by
          rintro ⟨k', g, rest', pendingForwards', htask', -⟩
          have hheld := (w.coherent.tasks k _ htask).2.2 rfl
          have hheld' := (w.coherent.tasks k' _ htask').2.2 rfl
          cases Option.some.inj (hheld.symm.trans hheld')
          cases htask.symm.trans htask'
        have hlookup : t.tasks.lookup k =
            some (.late r (.adding (some f) (rest.erase f) pendingForwards)) := by
          cases h with
          | late k' q phase htask' hmove =>
            cases htask.symm.trans htask'
            cases hmove with
            | reserve f rest pendingForwards hf hfree => simp
            | skip f rest pendingForwards hf htaken => exact absurd htaken hfree
          | forward op hlock hmove => cases hmove
          | removal p removed phase hlock hmove => cases hmove
        refine Or.inr ⟨rfl, k, f, rest.erase f, pendingForwards, hlookup, fun y hy => ?_⟩
        rcases entry_cases h .forwarded r y hy with hy | hwrites
        · exact absurd hy (no_entry w hkey hidle y)
        · cases hwrites with
          | late => rfl
    | mark a r ids x hmark hx =>
      exact hdue (hG.2.2 (r, ids) hmark (List.ne_nil_of_mem hx)).1
    | retry k r missing x htask hx =>
      exact hdue (Or.inl ((w.coherent.tasks k _ htask).1 (by simp)).2)
    | promote k r trackIds x htask hx =>
      exact hdue (Or.inl ((w.coherent.tasks k _ htask).1 (by simp)).2)

/-- A participant that has just joined finds no entries under its id. -/
theorem joined_no_entry (w : Tidy s) (h : Move s a t) {m : TrackMap} {r : ParticipantId}
    (hr : r ∈ t.room.participants) (hnew : r ∉ s.room.participants) (x : TrackId) :
    x ∉ (m.of s.room).setAt r := by
  have hstays : t.room.participants = s.room.participants → x ∉ (m.of s.room).setAt r :=
    fun heq => absurd (heq ▸ hr) hnew
  cases parties_cases h with
  | same h => exact hstays h.participants
  | track p track hp participants tracks known => exact hstays participants
  | remove p hp participants tracks known => exact absurd ((participants r).mp hr).2 hnew
  | join connection hfresh participants tracks known =>
    rcases (participants r).mp hr with rfl | hold
    · refine no_entry w ?_ ?_ x
      · rintro (hpresent | ⟨due, hdue, -⟩)
        · exact hnew hpresent
        · cases h with
          | join connection hlock => simp [hlock, toClear] at hdue
          | forward op hlock hmove => cases hmove
          | removal p removed phase hlock hmove => cases hmove
      · rintro ⟨k, f, rest, pendingForwards, htask, -⟩
        exact hfresh (w.coherent.tasks k _ htask).1
    · exact absurd hold hnew

theorem ids_step (w : Tidy s) (h : Move s a t) (hG : WritesDue s a) {m : TrackMap}
    {r : ParticipantId} (hr : r ∈ t.room.participants) {x : TrackId}
    (hx : x ∈ (m.of t.room).setAt r) : IdDue t m x := by
  have hdue : IdDue s m x → IdDue t m x := fun hdue => idDue_step w.coherent h hdue hx
  have hpublished : (∃ p, x ∈ s.room.trackIdsOf p) → IdDue t m x := fun hp =>
    hdue (Or.inl ((published_iff w.coherent x).mpr hp))
  rcases entry_cases h m r x hx with hold | hwrites
  · by_cases hpresent : r ∈ s.room.participants
    · exact hdue (w.ids m r x hpresent hold)
    · exact absurd hold (joined_no_entry w h hr hpresent x)
  · cases hwrites with
    | forward op r hlock hrest =>
      exact hpublished ⟨op.source, (w.coherent.forwarding op hlock).published⟩
    | late k r f rest pendingForwards htask hfree =>
      refine hdue (hG.1 (r, f) (by simp [reserving, htask]) ?_)
      cases parties_cases h with
      | same h => exact h.participants ▸ hr
    | mark a r ids x hmark hids =>
      exact hdue ((hG.2.2 (r, ids) hmark (List.ne_nil_of_mem hids)).2 x hids)
    | retry k r missing x htask hids => exact hdue (Or.inl (w.carried k r _ htask x hids))
    | promote k r trackIds x htask hids => exact hdue (Or.inl (w.carried k r _ htask x hids))

theorem tidy_step (w : Tidy s) (hG : WritesDue s a) (h : Move s a t) : Tidy t where
  coherent := coherent_step w.coherent h
  keys := fun _ _ hr => keys_step w h hG hr
  ids := fun _ _ _ hr hx => ids_step w h hG hr hx
  carried := fun _ _ _ hk _ hx => carried_step w h hk hx
  senderKeys := fun _ hr => senderKeys_step w h hG hr
  sources := fun _ _ hr _ he => sources_step w h hG hr he

end Step

/-- A removed participant leaves no residue behind once everything has come to rest, in every
state of a run whose writes all find their receivers and sources there or still to be cleared. -/
theorem residueFree_of_writesDue (roomId : RoomId) (actions : List Action)
    (hG : (system roomId).Guarded WritesDue (system roomId).init actions) :
    (system roomId).Always ResidueFree (system roomId).init actions := by
  refine System.always_mono (fun s (w : Tidy s) => w.residueFree) ?_
  refine System.always_of_guarded ?_ (tidy_initial roomId) hG
  exact fun s a t w hG h => tidy_step w hG (step_move h)

/-- A publishes, B comes late and its task has passed its check. -/
def lateJoin : List Action :=
  [.join (connection "a"), .track "a" { id := "camera", streamId := "main" }, .finishForward,
    .join (connection "b"), .clientOffer "b" 0, .late 0 .check, .late 0 .lockPeer]

/-- A is removed before B's task gets to reserve its track. -/
def removeBeforeReserve : List Action :=
  lateJoin ++ [.remove "a", .clear, .clear, .clear, .clear, .finishRemove,
    .late 0 (.reserve ⟨"a", "camera"⟩), .late 0 (.add true), .late 0 .unlock,
    .late 0 (.offer .created), .late 0 (.send true), .late 0 (.mark [])]

/-- All tasks have finished, and B's entries still name the track of A. -/
theorem removeBeforeReserve_residue :
    ¬ (system "r").Always ResidueFree (system "r").init removeBeforeReserve := by
  refine System.not_always_of_run
    (fun t => decide (t.lock = .free) && t.tasks.isEmpty &&
      decide ("camera" ∈ t.room.forwardedTracks.setAt "b") &&
      decide (¬ Published t.room "camera")) (by decide) ?_
  intro t hfails h
  simp only [Bool.and_eq_true, decide_eq_true_eq] at hfails
  obtain ⟨⟨⟨hlock, htasks⟩, hentry⟩, hgone⟩ := hfails
  exact hgone ((h ⟨hlock, htasks⟩).2.1 .forwarded "b" "camera" hentry)

/-- A is removed while B's task has an offer out: the id is marked before pending is cleared,
the sender is retired, and B answers. -/
def removeBeforeMark : List Action :=
  lateJoin ++ [.late 0 (.reserve ⟨"a", "camera"⟩), .late 0 (.add true), .late 0 .unlock,
    .late 0 (.offer .created), .late 0 (.send true), .remove "a", .late 0 (.mark []), .clear,
    .clear, .clear, .clear, .retire 1, .finishRemove, .retirement 1 .collision,
    .clientAnswer "b" 2, .retirement 1 .created, .promotion 2 .wake, .promotion 2 .lockPeer,
    .promotion 2 .take, .promotion 2 .promote, .promotion 2 .collect]

theorem residueFree_removeBeforeMark :
    (system "r").Always ResidueFree (system "r").init removeBeforeMark :=
  residueFree_of_writesDue "r" removeBeforeMark (by decide)

end OpenMeet.Residue
