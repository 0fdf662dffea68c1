import OpenMeet.TrackMaps

/-!
Reserved forwards. A reservation stands for an RTP writer, or for the loop or
task that is on its way to spawn one: for every receiver present, its reserved
ids are exactly those claimed by somebody for a source that still publishes
them, up to what a removal has still to clear. Claims and reservations come
apart where a reservation is kept without a writer, given up without a
release, released from under another claim, or made for a source that is gone.
-/
namespace OpenMeet.LiveForwards

open KeyedMap Messages RoomState TransitionSystem MediaTasks MediaMoves MediaInvariants
open TrackMaps

def Publishes (room : Room) (f : Forward) : Prop := f.track ∈ room.trackIdsOf f.source

instance (room : Room) (f : Forward) : Decidable (Publishes room f) :=
  inferInstanceAs (Decidable (_ ∈ _))

/-- The receivers the loop over an arriving track has claimed it for. -/
def Forwarding (lock : RoomLock) (r : ParticipantId) (f : Forward) : Prop :=
  ∃ op, lock = .forwarding op ∧ f = ⟨op.source, op.track⟩ ∧
    (r ∈ op.receivers ∨ op.current = some r)

/-- A writer, or a late joiner's task that has added the forward. -/
def Detached (s : Media) (r : ParticipantId) (f : Forward) : Prop :=
  (r, f) ∈ s.writers ∨ ∃ k phase, s.tasks.lookup k = some (.late r phase) ∧ f ∈ pendingOf phase

def Claimed (s : Media) (r : ParticipantId) (f : Forward) : Prop :=
  Forwarding s.lock r f ∨ Detached s r f ∨ Adding s r f

/-- At rest an id is reserved for a participant present exactly when a writer has been spawned
for it from a source that publishes it, and an id a retry is about to mark pending is at any
time one that somebody has spawned a writer for or is on the way to. -/
def ReservedIffLive (s : Media) : Prop :=
  (Quiescent s → ∀ r ∈ s.room.participants, ∀ t,
    t ∈ s.room.forwardedTracks.setAt r ↔
      ∃ f, f.track = t ∧ Publishes s.room f ∧ (r, f) ∈ s.writers) ∧
  ∀ k r missing, s.tasks.lookup k = some (.promotion r (.marking missing)) → ∀ t ∈ missing,
    ∃ f, f.track = t ∧ Publishes s.room f ∧ Claimed s r f

/-- The forward whose addition has failed for a late joiner's task. -/
def releasing (s : Media) : Action → Option (ParticipantId × Forward)
  | .late k (.add false) =>
    match s.tasks.lookup k with
    | some (.late r (.adding (some f) _ _)) => some (r, f)
    | _ => none
  | _ => none

/-- The forwards a late joiner's task has added and is about to drop without a writer. -/
def dropping (s : Media) : Action → Option (ParticipantId × List Forward)
  | .late k event =>
    match s.tasks.lookup k, event with
    | some (.late r (.offering attempt pendingForwards)), .offer .collision =>
      if attempt < offerAttempts then none else some (r, pendingForwards)
    | some (.late r (.offering _ pendingForwards)), .offer .failed => some (r, pendingForwards)
    | some (.late r (.sending pendingForwards)), .send sent =>
      if s.room.isActive r && sent then none else some (r, pendingForwards)
    | some (.late r (.marking pendingForwards)), .mark withoutEncoding =>
      some (r, pendingForwards.filter (· ∈ withoutEncoding))
    | _, _ => none
  | _ => none

/-- The ids an action clears from the reservations of everybody. -/
def clearing (s : Media) : Action → Option (List TrackId)
  | .clear =>
    match s.lock with
    | .removing _ removed .forwarded => some removed
    | _ => none
  | _ => none

/-- No forward of an arriving track ends without an encoding; a late joiner's task reserves for
a source that publishes the track or whose id is still to be cleared, drops only what its
source no longer publishes, and releases no id another live claim stands for; and no removal
clears an id that a live claim of somebody present stands for. -/
structure ForwardsTended (s : Media) (a : Action) : Prop where
  encoded : a ≠ .addTrack .withoutEncoding
  reserved : ∀ w ∈ reserving s a, w.1 ∈ s.room.participants → Publishes s.room w.2 ∨
    ∃ due ∈ toClear .forwarded s.lock, w.2.track ∈ due.2
  released : ∀ w ∈ releasing s a, w.1 ∈ s.room.participants → ∀ f, f.track = w.2.track →
    Publishes s.room f → ¬ (Forwarding s.lock w.1 f ∨ Detached s w.1 f)
  dropped : ∀ w ∈ dropping s a, w.1 ∈ s.room.participants → ∀ f ∈ w.2, ¬ Publishes s.room f
  cleared : ∀ removed ∈ clearing s a, ∀ r ∈ s.room.participants, ∀ f,
    f.track ∈ removed → Publishes s.room f → ¬ Claimed s r f

/-- The ids a promotion task is offering again. -/
def retriesOf : PromotionPhase → List TrackId
  | .retrying missing | .marking missing => missing
  | _ => []

/-- Reservations and live claims agree, up to what a removal has still to clear. -/
structure Backed (s : Media) : Prop where
  coherent : Coherent s
  receivers_known : ∀ r t, t ∈ s.room.forwardedTracks.setAt r → r ∈ s.known
  claims_known : ∀ r f, Claimed s r f → r ∈ s.known
  reserved : ∀ r t, r ∈ s.room.participants → t ∈ s.room.forwardedTracks.setAt r →
    (∃ f, f.track = t ∧ Publishes s.room f ∧ Claimed s r f) ∨
      ∃ due ∈ toClear .forwarded s.lock, t ∈ due.2
  live : ∀ r f, r ∈ s.room.participants → Publishes s.room f → Claimed s r f →
    f.track ∈ s.room.forwardedTracks.setAt r
  current : ∀ op r, s.lock = .forwarding op → op.current = some r → ∀ f, f.track = op.track →
    Publishes s.room f → ¬ (Detached s r f ∨ Adding s r f)
  retried : ∀ k r phase, s.tasks.lookup k = some (.promotion r phase) →
    ∀ t ∈ retriesOf phase, t ∈ s.room.forwardedTracks.setAt r

theorem backed_initial (roomId : RoomId) : Backed (Media.initial roomId) := by
  refine ⟨coherent_initial roomId, ?_, ?_, ?_, ?_, ?_, ?_⟩ <;>
    simp [Media.initial, Room.new, Claimed, Forwarding, Detached, Adding]

theorem Backed.reservedIffLive {s : Media} (w : Backed s) : ReservedIffLive s := by
  refine ⟨?_, fun k r missing hk t ht => ?_⟩
  · rintro ⟨hlock, htasks⟩ r hr t
    have hnone : ∀ k, s.tasks.lookup k = none := by
      intro k
      rw [AList.lookup_eq_none]
      exact (Map.isEmpty_iff s.tasks).mp htasks k
    constructor
    · intro ht
      rcases w.reserved r t hr ht with ⟨f, htrack, hpublishes, hclaim⟩ | ⟨due, hdue, -⟩
      · refine ⟨f, htrack, hpublishes, ?_⟩
        rcases hclaim with ⟨op, hop, -⟩ | (hwriter | ⟨k, phase, hk, -⟩) | ⟨k, _, _, hk⟩
        · simp [hlock] at hop
        · exact hwriter
        · simp [hnone] at hk
        · simp [hnone] at hk
      · simp [hlock, toClear] at hdue
    · rintro ⟨f, rfl, hpublishes, hwriter⟩
      exact w.live r f hr hpublishes (Or.inr (Or.inl (Or.inl hwriter)))
  · have hok := (w.coherent.tasks k _ hk).1 (by simp)
    have hfree := w.coherent.reading (Finset.ne_empty_of_mem hok.1)
    rcases w.reserved r t hok.2 (w.retried k r _ hk t ht) with hlive | ⟨due, hdue, -⟩
    · exact hlive
    · simp [hfree, toClear] at hdue

/-- The claims an action makes. -/
inductive Claims (s : Media) : Action → ParticipantId → Forward → Prop
  | forward (op : ForwardTrack) (r : ParticipantId) (hlock : s.lock = .forwarding op)
      (hcurrent : op.current = none) (hr : r ∈ op.rest)
      (hfree : op.track ∉ s.room.forwardedTracks.setAt r) :
      Claims s (.reserve r) r ⟨op.source, op.track⟩
  | late (k : TaskId) (r : ParticipantId) (f : Forward) (rest pendingForwards : List Forward)
      (htask : s.tasks.lookup k = some (.late r (.adding none rest pendingForwards)))
      (hfree : f.track ∉ s.room.forwardedTracks.setAt r) : Claims s (.late k (.reserve f)) r f

/-- The claims an action gives up. -/
inductive GivesUp (s : Media) : Action → ParticipantId → Forward → Prop
  | withoutEncoding (op : ForwardTrack) (r : ParticipantId) :
      GivesUp s (.addTrack .withoutEncoding) r ⟨op.source, op.track⟩
  | failed (op : ForwardTrack) (r : ParticipantId) (hlock : s.lock = .forwarding op)
      (hcurrent : op.current = some r) : GivesUp s (.addTrack .failed) r ⟨op.source, op.track⟩
  | release (a : Action) (r : ParticipantId) (f : Forward) (h : releasing s a = some (r, f)) :
      GivesUp s a r f
  | drop (a : Action) (r : ParticipantId) (dropped : List Forward) (f : Forward)
      (h : dropping s a = some (r, dropped)) (hf : f ∈ dropped) : GivesUp s a r f

/-- The reservations an action takes back. -/
inductive Unreserves (s : Media) : Action → ParticipantId → TrackId → Prop
  | failed (op : ForwardTrack) (r : ParticipantId) (hlock : s.lock = .forwarding op)
      (hcurrent : op.current = some r) : Unreserves s (.addTrack .failed) r op.track
  | release (a : Action) (r : ParticipantId) (f : Forward) (h : releasing s a = some (r, f)) :
      Unreserves s a r f.track
  | clear (p r : ParticipantId) (removed : List TrackId) (x : TrackId)
      (hlock : s.lock = .removing p removed .forwarded) (hx : r = p ∨ x ∈ removed) :
      Unreserves s .clear r x

section Step

variable {s t : Media} {a : Action}

theorem forwarding_claims (h : Move s a t) {r : ParticipantId} {f : Forward}
    (hf : Forwarding t.lock r f) : Forwarding s.lock r f ∨ Claims s a r f := by
  obtain ⟨op', hlock, heq, hclaim⟩ := hf
  have hstays : t.lock = s.lock → Forwarding s.lock r f ∨ Claims s a r f := fun hsame =>
    Or.inl ⟨op', hsame ▸ hlock, heq, hclaim⟩
  cases h with
  | track p track hfree =>
    cases hlock
    simp at hclaim
  | remove => cases hlock
  | removal p removed phase hbusy hmove => cases hmove <;> cases hlock
  | forward op hbusy hmove =>
    cases hmove with
    | reserve q hcurrent hq hfree =>
      cases hlock
      subst heq
      rcases hclaim with hclaim | hclaim
      · exact Or.inl ⟨op, hbusy, rfl, Or.inl hclaim⟩
      · cases hclaim
        exact Or.inr (.forward op r hbusy hcurrent hq hfree)
    | skip q hcurrent =>
      cases hlock
      exact Or.inl ⟨op, hbusy, heq, Or.inl (by simpa using hclaim)⟩
    | subscribed q k hcurrent =>
      cases hlock
      have hmem : r ∈ insert q op.receivers := by simpa using hclaim
      rcases Finset.mem_insert.mp hmem with rfl | hmem
      · exact Or.inl ⟨op, hbusy, heq, Or.inr hcurrent⟩
      · exact Or.inl ⟨op, hbusy, heq, Or.inl hmem⟩
    | withoutEncoding q hcurrent =>
      cases hlock
      exact Or.inl ⟨op, hbusy, heq, Or.inl (by simpa using hclaim)⟩
    | failed q hcurrent =>
      cases hlock
      exact Or.inl ⟨op, hbusy, heq, Or.inl (by simpa using hclaim)⟩
    | finish => cases hlock
  | late k q phase htask hmove => exact hstays (by cases hmove <;> rfl)
  | renegotiation k q trackId phase htask hmove => exact hstays (by cases hmove <;> rfl)
  | promotion k q phase htask hmove => exact hstays (by cases hmove <;> rfl)
  | retirement k q attempt htask hmove => exact hstays (by cases hmove <;> rfl)
  | _ => exact hstays rfl

theorem writer_cases (h : Move s a t) {r : ParticipantId} {f : Forward}
    (hw : (r, f) ∈ t.writers) :
    Detached s r f ∨ (a = .finishForward ∧ Forwarding s.lock r f) := by
  by_cases hold : (r, f) ∈ s.writers
  · exact Or.inl (Or.inl hold)
  · cases h with
    | forward op hlock hmove =>
      cases hmove with
      | finish =>
        obtain ⟨q, hq, heq⟩ := Finset.mem_image.mp ((Finset.mem_union.mp hw).resolve_left hold)
        cases heq
        exact Or.inr ⟨rfl, op, hlock, rfl, Or.inl hq⟩
      | _ => exact absurd hw hold
    | late k q phase htask hmove =>
      cases hmove with
      | mark pendingForwards withoutEncoding =>
        have hmem := List.mem_toFinset.mp ((Finset.mem_union.mp hw).resolve_left hold)
        obtain ⟨g, hg, heq⟩ := List.mem_map.mp hmem
        cases heq
        exact Or.inl (Or.inr ⟨k, _, htask, List.mem_of_mem_filter hg⟩)
      | _ => exact absurd hw hold
    | removal p removed phase hlock hmove => cases hmove <;> exact absurd hw hold
    | renegotiation k q trackId phase htask hmove => cases hmove <;> exact absurd hw hold
    | promotion k q phase htask hmove => cases hmove <;> exact absurd hw hold
    | retirement k q attempt htask hmove => cases hmove <;> exact absurd hw hold
    | _ => exact absurd hw hold

/-- Where a writer or a claim of a late joiner's task comes from. -/
theorem other_cases (h : Move s a t) {r : ParticipantId} {f : Forward}
    (hf : Detached t r f ∨ Adding t r f) :
    (Detached s r f ∨ Adding s r f) ∨ (a = .finishForward ∧ Forwarding s.lock r f) ∨
      Claims s a r f := by
  rcases hf with (hwriter | ⟨k, phase, hk, hf⟩) | ⟨k, rest, pendingForwards, hk⟩
  · rcases writer_cases h hwriter with hold | hfinish
    · exact Or.inl (Or.inl hold)
    · exact Or.inr (Or.inl hfinish)
  · rcases late_cases h hk with hk | ⟨existing, rfl⟩ | ⟨before, event, rfl, htask, hmove⟩
    · exact Or.inl (Or.inl (Or.inr ⟨k, phase, hk, hf⟩))
    · simp [pendingOf] at hf
    · refine Or.inl ?_
      have hbefore : f ∈ pendingOf before → Detached s r f ∨ Adding s r f :=
        fun hmem => Or.inl (Or.inr ⟨k, before, htask, hmem⟩)
      cases hmove with
      | add g rest pendingForwards =>
        simp only [Media.setTask, AList.lookup_insert, Option.some.injEq, Task.late.injEq] at hk
        obtain ⟨-, rfl⟩ := hk
        rcases List.mem_append.mp hf with hf | hf
        · exact hbefore hf
        · obtain rfl := List.mem_singleton.mp hf
          exact Or.inr ⟨k, _, _, htask⟩
      | inactive | giveUp | fail | drop | mark => simp at hk
      | active | lockPeer =>
        simp only [Media.setTask, AList.lookup_insert, Option.some.injEq, Task.late.injEq] at hk
        obtain ⟨-, rfl⟩ := hk
        simp [pendingOf] at hf
      | _ =>
        simp only [Media.setTask, AList.lookup_insert, Option.some.injEq, Task.late.injEq] at hk
        obtain ⟨-, rfl⟩ := hk
        exact hbefore hf
  · rcases late_cases h hk with hk | ⟨existing, heq⟩ | ⟨before, event, rfl, htask, hmove⟩
    · exact Or.inl (Or.inr ⟨k, rest, pendingForwards, hk⟩)
    · cases heq
    · cases hmove with
      | reserve g rest pendingForwards hg hfree =>
        simp only [Media.setTask, AList.lookup_insert, Option.some.injEq, Task.late.injEq,
          LatePhase.adding.injEq] at hk
        obtain ⟨-, rfl, -⟩ := hk
        exact Or.inr (Or.inr (.late k r g _ _ htask hfree))
      | _ => simp at hk

/-- A claim after a move is an old one or one the move makes. -/
theorem claim_cases (h : Move s a t) {r : ParticipantId} {f : Forward} (hf : Claimed t r f) :
    Claimed s r f ∨ Claims s a r f := by
  rcases hf with hforward | hother
  · exact (forwarding_claims h hforward).imp_left Or.inl
  · rcases other_cases h hother with hold | ⟨-, hforward⟩ | hclaims
    · exact Or.inl (Or.inr hold)
    · exact Or.inl (Or.inl hforward)
    · exact Or.inr hclaims

theorem forwarding_kept (h : Move s a t) {r : ParticipantId} {f : Forward}
    (hf : Forwarding s.lock r f) : Claimed t r f ∨ GivesUp s a r f := by
  obtain ⟨op, hlock, rfl, hclaim⟩ := hf
  rcases forwarding_moves h hlock with hsame | hmove
  · exact Or.inl (Or.inl ⟨op, hsame.trans hlock, rfl, hclaim⟩)
  · cases hmove with
    | reserve q hcurrent =>
      have hreceiver := hclaim.resolve_right (by simp [hcurrent])
      exact Or.inl (Or.inl ⟨_, rfl, rfl, Or.inl hreceiver⟩)
    | skip q hcurrent =>
      have hreceiver := hclaim.resolve_right (by simp [hcurrent])
      exact Or.inl (Or.inl ⟨_, rfl, rfl, Or.inl hreceiver⟩)
    | subscribed q k hcurrent =>
      refine Or.inl (Or.inl ⟨_, rfl, rfl, Or.inl (Finset.mem_insert.mpr ?_)⟩)
      rcases hclaim with hclaim | hclaim
      · exact Or.inr hclaim
      · exact Or.inl (Option.some.inj (hclaim.symm.trans hcurrent))
    | withoutEncoding q hcurrent =>
      rcases hclaim with hclaim | hclaim
      · exact Or.inl (Or.inl ⟨_, rfl, rfl, Or.inl hclaim⟩)
      · exact Or.inr (.withoutEncoding op r)
    | failed q hcurrent =>
      rcases hclaim with hclaim | hclaim
      · exact Or.inl (Or.inl ⟨_, rfl, rfl, Or.inl hclaim⟩)
      · exact Or.inr (.failed op r hlock hclaim)
    | finish hcurrent =>
      have hreceiver := hclaim.resolve_right (by simp [hcurrent])
      refine Or.inl (Or.inr (Or.inl (Or.inl (Finset.mem_union_right _ ?_))))
      exact Finset.mem_image.mpr ⟨r, hreceiver, rfl⟩

theorem writers_subset (h : Move s a t) : s.writers ⊆ t.writers := by
  cases h with
  | forward op hlock hmove =>
    cases hmove with
    | finish => exact Finset.subset_union_left
    | _ => exact Finset.Subset.refl _
  | late k r phase htask hmove =>
    cases hmove with
    | mark => exact Finset.subset_union_left
    | _ => exact Finset.Subset.refl _
  | removal p removed phase hlock hmove => cases hmove <;> exact Finset.Subset.refl _
  | renegotiation k r trackId phase htask hmove => cases hmove <;> exact Finset.Subset.refl _
  | promotion k r phase htask hmove => cases hmove <;> exact Finset.Subset.refl _
  | retirement k r attempt htask hmove => cases hmove <;> exact Finset.Subset.refl _
  | _ => exact Finset.Subset.refl _

/-- Its own move leaves a late joiner's task its claims, or gives them up. -/
theorem late_kept {k : TaskId} {r : ParticipantId} {phase : LatePhase} {event : LateEvent}
    (htask : s.tasks.lookup k = some (.late r phase)) (hmove : LateMove s k r phase event t)
    {f : Forward} (hf : f ∈ pendingOf phase ∨
      ∃ rest pendingForwards, phase = .adding (some f) rest pendingForwards) :
    Claimed t r f ∨ GivesUp s (.late k event) r f := by
  have hdetached : ∀ {phase' : LatePhase}, t.tasks.lookup k = some (.late r phase') →
      f ∈ pendingOf phase' → Claimed t r f ∨ GivesUp s (.late k event) r f :=
    fun hk hmem => Or.inl (Or.inr (Or.inl (Or.inr ⟨k, _, hk, hmem⟩)))
  have hdropped : ∀ {dropped : List Forward}, dropping s (.late k event) = some (r, dropped) →
      f ∈ dropped → Claimed t r f ∨ GivesUp s (.late k event) r f :=
    fun hdrop hmem => Or.inr (.drop _ r _ f hdrop hmem)
  cases hmove with
  | active | inactive | lockPeer => simp [pendingOf] at hf
  | reserve g rest pendingForwards =>
    have hmem : f ∈ pendingForwards := by simpa [pendingOf] using hf
    exact hdetached (AList.lookup_insert _) hmem
  | skip g rest pendingForwards =>
    have hmem : f ∈ pendingForwards := by simpa [pendingOf] using hf
    exact hdetached (AList.lookup_insert _) hmem
  | add g rest pendingForwards =>
    refine hdetached (AList.lookup_insert _) (List.mem_append.mpr ?_)
    rcases hf with hf | ⟨rest', pendingForwards', heq⟩
    · exact Or.inl hf
    · cases heq
      exact Or.inr (List.mem_singleton_self f)
  | release g rest pendingForwards =>
    rcases hf with hf | ⟨rest', pendingForwards', heq⟩
    · exact hdetached (AList.lookup_insert _) hf
    · cases heq
      exact Or.inr (.release _ r f (by simp [releasing, htask]))
  | unlock pendingForwards =>
    have hmem : f ∈ pendingForwards := by simpa [pendingOf] using hf
    exact hdetached (AList.lookup_insert _) hmem
  | collide attempt pendingForwards =>
    have hmem : f ∈ pendingForwards := by simpa [pendingOf] using hf
    exact hdetached (AList.lookup_insert _) hmem
  | created attempt pendingForwards =>
    have hmem : f ∈ pendingForwards := by simpa [pendingOf] using hf
    exact hdetached (AList.lookup_insert _) hmem
  | send pendingForwards =>
    have hmem : f ∈ pendingForwards := by simpa [pendingOf] using hf
    exact hdetached (AList.lookup_insert _) hmem
  | giveUp attempt pendingForwards hattempt =>
    have hmem : f ∈ pendingForwards := by simpa [pendingOf] using hf
    exact hdropped (by simp [dropping, htask, hattempt]) hmem
  | fail attempt pendingForwards =>
    have hmem : f ∈ pendingForwards := by simpa [pendingOf] using hf
    exact hdropped (by simp [dropping, htask]) hmem
  | drop pendingForwards sent hlock hstop =>
    have hmem : f ∈ pendingForwards := by simpa [pendingOf] using hf
    exact hdropped (by simp only [dropping, htask, hstop]; rfl) hmem
  | mark pendingForwards withoutEncoding =>
    have hmem : f ∈ pendingForwards := by simpa [pendingOf] using hf
    by_cases hencoded : f ∈ withoutEncoding
    · have hdrop : dropping s (.late k (.mark withoutEncoding)) =
          some (r, pendingForwards.filter (· ∈ withoutEncoding)) := by
        simp only [dropping, htask]
      exact hdropped hdrop (List.mem_filter.mpr ⟨hmem, by simpa⟩)
    · refine Or.inl (Or.inr (Or.inl (Or.inl (Finset.mem_union_right _ ?_))))
      refine List.mem_toFinset.mpr (List.mem_map_of_mem ?_)
      exact List.mem_filter.mpr ⟨hmem, by simpa⟩

/-- A claim stays, in one form or another, unless its holder gives it up. -/
theorem claim_kept (h : Move s a t) {r : ParticipantId} {f : Forward} (hf : Claimed s r f) :
    Claimed t r f ∨ GivesUp s a r f := by
  have htask : ∀ k phase, s.tasks.lookup k = some (.late r phase) →
      (f ∈ pendingOf phase ∨
        ∃ rest pendingForwards, phase = .adding (some f) rest pendingForwards) →
      Claimed t r f ∨ GivesUp s a r f := by
    intro k phase hk hmem
    by_cases hactor : actor a = some k
    · obtain ⟨event, rfl, hmove⟩ := late_acts h hactor hk
      exact late_kept hk hmove hmem
    · have hstill := lookup_other h hk hactor
      rcases hmem with hmem | ⟨rest, pendingForwards, rfl⟩
      · exact Or.inl (Or.inr (Or.inl (Or.inr ⟨k, phase, hstill, hmem⟩)))
      · exact Or.inl (Or.inr (Or.inr ⟨k, rest, pendingForwards, hstill⟩))
  rcases hf with hforward | (hwriter | ⟨k, phase, hk, hmem⟩) | ⟨k, rest, pendingForwards, hk⟩
  · exact forwarding_kept h hforward
  · exact Or.inl (Or.inr (Or.inl (Or.inl (writers_subset h hwriter))))
  · exact htask k phase hk (Or.inl hmem)
  · exact htask k _ hk (Or.inr ⟨rest, pendingForwards, rfl⟩)

theorem reservation_kept (h : Move s a t) {r : ParticipantId} {x : TrackId}
    (hx : x ∈ s.room.forwardedTracks.setAt r) :
    x ∈ t.room.forwardedTracks.setAt r ∨ Unreserves s a r x := by
  cases h with
  | forward op hlock hmove =>
    cases hmove with
    | reserve q => exact Or.inl ((s.room.mem_setAt_reserve ..).mpr (Or.inr hx))
    | failed q hcurrent =>
      by_cases heq : r = q ∧ x = op.track
      · obtain ⟨rfl, rfl⟩ := heq
        exact Or.inr (.failed op r hlock hcurrent)
      · exact Or.inl ((s.room.mem_setAt_release ..).mpr ⟨hx, heq⟩)
    | _ => exact Or.inl hx
  | removal p removed phase hlock hmove =>
    cases hmove with
    | forwarded =>
      by_cases heq : r = p ∨ x ∈ removed
      · exact Or.inr (.clear p r removed x hlock heq)
      · obtain ⟨hne, hkept⟩ := not_or.mp heq
        exact Or.inl (by simp [Room.clearForwarded, hne, hx, hkept])
    | _ => exact Or.inl hx
  | late k q phase htask hmove =>
    cases hmove with
    | reserve f => exact Or.inl ((s.room.mem_setAt_reserve ..).mpr (Or.inr hx))
    | release f rest pendingForwards =>
      by_cases heq : r = q ∧ x = f.track
      · obtain ⟨rfl, rfl⟩ := heq
        exact Or.inr (.release _ r f (by simp [releasing, htask]))
      · exact Or.inl ((s.room.mem_setAt_release ..).mpr ⟨hx, heq⟩)
    | _ => exact Or.inl hx
  | renegotiation k q trackId phase htask hmove => cases hmove <;> exact Or.inl hx
  | promotion k q phase htask hmove => cases hmove <;> exact Or.inl hx
  | retirement k q attempt htask hmove => cases hmove <;> exact Or.inl hx
  | _ => exact Or.inl hx

theorem releasing_eq_some {r : ParticipantId} {f : Forward} (h : releasing s a = some (r, f)) :
    ∃ k rest pendingForwards, a = .late k (.add false) ∧
      s.tasks.lookup k = some (.late r (.adding (some f) rest pendingForwards)) := by
  unfold releasing at h
  split at h
  · rename_i k
    split at h
    · rename_i r' f' rest pendingForwards htask
      cases h
      exact ⟨k, rest, pendingForwards, rfl, htask⟩
    · cases h
  · cases h

theorem released_unreserved (h : Move s a t) {r : ParticipantId} {f : Forward}
    (hreleasing : releasing s a = some (r, f)) : f.track ∉ t.room.forwardedTracks.setAt r := by
  obtain ⟨k, rest, pendingForwards, rfl, htask⟩ := releasing_eq_some hreleasing
  cases h with
  | late k' q phase htask' hmove =>
    cases htask.symm.trans htask'
    cases hmove with
    | release =>
      intro hmem
      exact ((s.room.mem_setAt_release ..).mp hmem).2 ⟨rfl, rfl⟩
  | forward op hlock hmove => cases hmove
  | removal p removed phase hlock hmove => cases hmove

theorem failed_unreserved {op : ForwardTrack} (h : Move s (.addTrack .failed) t)
    {r : ParticipantId} (hlock : s.lock = .forwarding op) (hcurrent : op.current = some r) :
    op.track ∉ t.room.forwardedTracks.setAt r := by
  cases h with
  | forward op' hbusy hmove =>
    obtain rfl := RoomLock.forwarding.inj (hbusy.symm.trans hlock)
    cases hmove with
    | failed q hq =>
      obtain rfl := Option.some.inj (hcurrent.symm.trans hq)
      intro hmem
      exact ((s.room.mem_setAt_release ..).mp hmem).2 ⟨rfl, rfl⟩
  | removal p removed phase hbusy hmove => cases hmove

theorem claim_traced (w : Coherent s) {r : ParticipantId} {f : Forward} (hf : Claimed s r f) :
    Traced s f := by
  rcases hf with
    ⟨op, hlock, rfl, -⟩ | (hwriter | ⟨k, phase, hk, hf⟩) | ⟨k, rest, pendingForwards, hk⟩
  · have hpublished := (w.forwarding op hlock).published
    exact ⟨w.present_known _ (w.published_present _ _ hpublished), fun _ => hpublished⟩
  · exact w.writers _ hwriter
  · refine (w.tasks k _ hk).2.1 f ?_
    cases phase <;> simp_all [pendingOf, forwardsOf]
  · exact (w.tasks k _ hk).2.1 f (by simp [forwardsOf])

/-- A forward of a known source that is published after a move was published before, if it was
claimed before. -/
theorem published_before (w : Coherent s) (h : Move s a t) {r : ParticipantId} {f : Forward}
    (hf : Claimed s r f) (hpublishes : Publishes t.room f) : Publishes s.room f := by
  obtain ⟨hknown, hsource⟩ := claim_traced w hf
  have hpresent := (coherent_step w h).published_present _ _ hpublishes
  refine hsource ?_
  cases parties_cases h with
  | same h => exact h.participants ▸ hpresent
  | join connection hfresh participants tracks known =>
    refine ((participants _).mp hpresent).resolve_left ?_
    rintro heq
    exact hfresh (heq ▸ hknown)
  | track p track hp participants tracks known => exact participants ▸ hpresent
  | remove p hp participants tracks known => exact ((participants _).mp hpresent).2

/-- A published forward stays published, or its source has just been removed with it. -/
theorem published_after (h : Move s a t) {f : Forward} (hpublishes : Publishes s.room f) :
    Publishes t.room f ∨ ∃ p, a = .remove p ∧ f.track ∈ s.room.trackIdsOf p := by
  unfold Publishes at hpublishes ⊢
  cases parties_cases h with
  | same h => exact Or.inl (by rwa [h.trackIdsOf])
  | join connection hfresh participants tracks known =>
    exact Or.inl (by simpa [Room.trackIdsOf, tracks] using hpublishes)
  | track p track hp participants tracks known =>
    rw [tracks]
    split
    · rename_i heq
      exact Or.inl (List.mem_append_left _ (heq ▸ hpublishes))
    · exact Or.inl hpublishes
  | remove p hp participants tracks known =>
    by_cases hfp : f.source = p
    · exact Or.inr ⟨p, rfl, hfp ▸ hpublishes⟩
    · exact Or.inl (by rwa [tracks, if_neg hfp])

theorem known_before (h : Move s a t) {r : ParticipantId} (hr : r ∈ t.room.participants)
    (hknown : r ∈ s.known) : r ∈ s.room.participants := by
  cases parties_cases h with
  | same h => exact h.participants ▸ hr
  | join connection hfresh participants tracks known =>
    refine ((participants _).mp hr).resolve_left ?_
    rintro rfl
    exact hfresh hknown
  | track p track hp participants tracks known => exact participants ▸ hr
  | remove p hp participants tracks known => exact ((participants _).mp hr).2

theorem claims_present_known (w : Coherent s) {r : ParticipantId} {f : Forward}
    (hf : Claims s a r f) : r ∈ s.known := by
  cases hf with
  | forward op r hlock hcurrent hr =>
    exact w.present_known _ ((w.forwarding op hlock).rest_present _ hr)
  | late k r f rest pendingForwards htask => exact (w.tasks k _ htask).1

theorem reserved_step (w : Backed s) (h : Move s a t) (hG : ForwardsTended s a)
    {r : ParticipantId} {x : TrackId} (hr : r ∈ t.room.participants)
    (hx : x ∈ t.room.forwardedTracks.setAt r) :
    (∃ f, f.track = x ∧ Publishes t.room f ∧ Claimed t r f) ∨
      ∃ due ∈ toClear .forwarded t.lock, x ∈ due.2 := by
  have hdue : (∃ due ∈ toClear .forwarded s.lock, x ∈ due.2) →
      ∃ due ∈ toClear .forwarded t.lock, x ∈ due.2 := by
    rintro ⟨⟨p, removed⟩, hdue, hremoved⟩
    rcases toClear_step h hdue with hdue | hcleared
    · exact ⟨_, hdue, hremoved⟩
    · have hx : x ∈ (TrackMap.forwarded.of t.room).setAt r := hx
      rw [hcleared, Room.setAt_clearTracks] at hx
      split at hx
      · simp at hx
      · exact absurd hremoved (by simpa using (Finset.mem_filter.mp hx).2)
  by_cases hold : x ∈ s.room.forwardedTracks.setAt r
  · have hpresent := known_before h hr (w.receivers_known r x hold)
    rcases w.reserved r x hpresent hold with ⟨f, rfl, hpublishes, hclaim⟩ | hold
    · rcases published_after h hpublishes with hafter | ⟨p, rfl, hremoved⟩
      · rcases claim_kept h hclaim with hclaim | hgivesUp
        · exact Or.inl ⟨f, rfl, hafter, hclaim⟩
        · cases hgivesUp with
          | withoutEncoding => exact absurd rfl hG.encoded
          | failed op r hlock hcurrent => exact absurd hx (failed_unreserved h hlock hcurrent)
          | release a r f hreleasing => exact absurd hx (released_unreserved h hreleasing)
          | drop a r dropped f hdropping hf =>
            exact absurd hpublishes (hG.dropped _ hdropping hpresent f hf)
      · refine Or.inr ⟨(p, s.room.trackIdsOf p), ?_, hremoved⟩
        rw [remove_lock h]
        rfl
    · exact Or.inr (hdue hold)
  · cases (entry_cases h .forwarded r x hx).resolve_left hold with
    | forward op r hlock hrest =>
      have hpublished := (w.coherent.forwarding op hlock).published
      cases h with
      | forward op' hbusy hmove =>
        obtain rfl := RoomLock.forwarding.inj (hbusy.symm.trans hlock)
        cases hmove with
        | reserve => exact Or.inl ⟨⟨_, _⟩, rfl, hpublished, Or.inl ⟨_, rfl, rfl, Or.inr rfl⟩⟩
        | skip q hcurrent hq htaken => exact absurd htaken hold
      | removal p removed phase hbusy hmove => cases hmove
    | late k r f rest pendingForwards htask hfree =>
      cases h with
      | late k' q phase htask' hmove =>
        cases htask.symm.trans htask'
        cases hmove with
        | reserve f rest pendingForwards hf =>
          have hguard := hG.reserved (r, f) (by simp [reserving, htask]) hr
          rcases hguard with hpublishes | hdue
          · exact Or.inl ⟨f, rfl, hpublishes,
              Or.inr (Or.inr ⟨k, _, _, AList.lookup_insert _⟩)⟩
          · exact Or.inr hdue
        | skip f rest pendingForwards hf htaken => exact absurd htaken hold
      | forward op hbusy hmove => cases hmove
      | removal p removed phase hbusy hmove => cases hmove

theorem live_step (w : Backed s) (h : Move s a t) (hG : ForwardsTended s a)
    {r : ParticipantId} {f : Forward} (hr : r ∈ t.room.participants)
    (hpublishes : Publishes t.room f) (hf : Claimed t r f) :
    f.track ∈ t.room.forwardedTracks.setAt r := by
  rcases claim_cases h hf with hclaim | hclaims
  · have hpresent := known_before h hr (w.claims_known r f hclaim)
    have hbefore := published_before w.coherent h hclaim hpublishes
    have hreserved := w.live r f hpresent hbefore hclaim
    refine (reservation_kept h hreserved).resolve_right fun hunreserves => ?_
    generalize hx : f.track = x at hunreserves
    cases hunreserves with
    | failed op r hlock hcurrent =>
      cases h with
      | forward op' hbusy hmove =>
        obtain rfl := RoomLock.forwarding.inj (hbusy.symm.trans hlock)
        cases hmove with
        | failed q hq =>
          refine w.current op' r hlock hcurrent f hx hbefore ?_
          rcases hf with ⟨op, heq, -, hreceiver⟩ | hother
          · cases heq
            have hfresh := ((w.coherent.forwarding op' hlock).current_fresh r hcurrent).2
            exact absurd (by simpa using hreceiver) hfresh
          · exact hother
      | removal p removed phase hbusy hmove => cases hmove
    | release a r g hreleasing =>
      have hguard := hG.released (r, g) hreleasing hpresent f hx hbefore
      obtain ⟨k, rest, pendingForwards, rfl, htask⟩ := releasing_eq_some hreleasing
      cases h with
      | late k' q phase htask' hmove =>
        cases htask.symm.trans htask'
        cases hmove with
        | release =>
          rcases hf with hforward | (hwriter | ⟨j, phase, hj, hmem⟩) | ⟨j, rest', pending', hj⟩
          · exact hguard (Or.inl hforward)
          · exact hguard (Or.inr (Or.inl hwriter))
          · rcases lookup_insert_cases hj with ⟨rfl, heq⟩ | ⟨-, hj⟩
            · cases heq
              exact hguard (Or.inr (Or.inr ⟨_, _, htask, hmem⟩))
            · exact hguard (Or.inr (Or.inr ⟨j, phase, hj, hmem⟩))
          · rcases lookup_insert_cases hj with ⟨-, heq⟩ | ⟨hne, hj⟩
            · cases heq
            · have hheld := (w.coherent.tasks k _ htask).2.2 rfl
              have hheld' := (w.coherent.tasks j _ hj).2.2 rfl
              exact hne (Option.some.inj (hheld'.symm.trans hheld))
      | forward op hbusy hmove => cases hmove
      | removal p removed phase hbusy hmove => cases hmove
    | clear p r removed x hlock hcleared =>
      have hgone := w.coherent.removing p removed _ hlock
      have hmem : f.track ∈ removed := by
        rcases hcleared with rfl | hmem
        · exact absurd hpresent hgone
        · exact hx ▸ hmem
      exact hG.cleared removed (by simp [clearing, hlock]) r hpresent f hmem hbefore hclaim
  · cases hclaims with
    | forward op r hlock hcurrent hrest hfree =>
      cases h with
      | forward op' hbusy hmove =>
        obtain rfl := RoomLock.forwarding.inj (hbusy.symm.trans hlock)
        cases hmove with
        | reserve => exact (s.room.mem_setAt_reserve ..).mpr (Or.inl ⟨rfl, rfl⟩)
        | skip q hcurrent hq htaken => exact absurd htaken hfree
      | removal p removed phase hbusy hmove => cases hmove
    | late k r f rest pendingForwards htask hfree =>
      cases h with
      | late k' q phase htask' hmove =>
        cases htask.symm.trans htask'
        cases hmove with
        | reserve => exact (s.room.mem_setAt_reserve ..).mpr (Or.inl ⟨rfl, rfl⟩)
        | skip f rest pendingForwards hf htaken => exact absurd htaken hfree
      | forward op hbusy hmove => cases hmove
      | removal p removed phase hbusy hmove => cases hmove

/-- While a receiver's addition is under way, no other claim on the id is live. -/
theorem current_step (w : Backed s) (h : Move s a t) {op : ForwardTrack} {r : ParticipantId}
    (hlock : t.lock = .forwarding op) (hcurrent : op.current = some r) {f : Forward}
    (htrack : f.track = op.track) (hpublishes : Publishes t.room f) :
    ¬ (Detached t r f ∨ Adding t r f) := by
  intro hother
  have hstays : t.lock = s.lock → False := by
    intro hsame
    have hbusy : s.lock = .forwarding op := hsame ▸ hlock
    rcases other_cases h hother with hold | ⟨rfl, -⟩ | hclaims
    · have hbefore := published_before w.coherent h (Or.inr hold) hpublishes
      exact w.current op r hbusy hcurrent f htrack hbefore hold
    · cases h with
      | forward op' hbusy' hmove =>
        cases hmove
        cases hlock
      | removal p removed phase hbusy' hmove => cases hmove
    · cases hclaims with
      | forward op' r hlock' hnone =>
        obtain rfl := RoomLock.forwarding.inj (hlock'.symm.trans hbusy)
        simp [hnone] at hcurrent
      | late k r f rest pendingForwards htask hfree =>
        have hok := w.coherent.forwarding op hbusy
        have hmine := w.live r ⟨op.source, op.track⟩ (hok.current_present r hcurrent) hok.published
          (Or.inl ⟨op, hbusy, rfl, Or.inr hcurrent⟩)
        exact hfree (htrack ▸ hmine)
  cases h with
  | forward op' hbusy hmove =>
    cases hmove with
    | reserve q hnone hq hfree =>
      cases hlock
      obtain rfl := Option.some.inj hcurrent
      have hpresent := (w.coherent.forwarding op' hbusy).rest_present _ hq
      exact hfree (htrack ▸ w.live _ f hpresent hpublishes (Or.inr hother))
    | finish => cases hlock
    | _ =>
      cases hlock
      cases hcurrent
  | track =>
    cases hlock
    cases hcurrent
  | remove => cases hlock
  | removal p removed phase hbusy hmove => cases hmove <;> cases hlock
  | late k q phase htask hmove => exact hstays (by cases hmove <;> rfl)
  | renegotiation k q trackId phase htask hmove => exact hstays (by cases hmove <;> rfl)
  | promotion k q phase htask hmove => exact hstays (by cases hmove <;> rfl)
  | retirement k q attempt htask hmove => exact hstays (by cases hmove <;> rfl)
  | _ => exact hstays rfl

/-- A promotion task in the middle of its work keeps its receiver's reservations in place. -/
theorem reservation_held (w : Coherent s) (h : Move s a t) {k : TaskId} {r : ParticipantId}
    {phase : PromotionPhase} (hk : s.tasks.lookup k = some (.promotion r phase))
    (hphase : holdsPeer phase = true) {x : TrackId}
    (hx : x ∈ s.room.forwardedTracks.setAt r) : x ∈ t.room.forwardedTracks.setAt r := by
  obtain ⟨hreads, hholds⟩ := w.tasks k _ hk
  have hreader := (hreads (by rintro rfl; cases hphase)).1
  have hfree := w.reading (Finset.ne_empty_of_mem hreader)
  refine (reservation_kept h hx).resolve_right fun hunreserves => ?_
  cases hunreserves with
  | failed op r hlock => simp [hfree] at hlock
  | clear p r removed x hlock => simp [hfree] at hlock
  | release a r f hreleasing =>
    obtain ⟨j, rest, pendingForwards, -, htask⟩ := releasing_eq_some hreleasing
    have hheld := (w.tasks j _ htask).2.2 rfl
    obtain rfl := Option.some.inj (hheld.symm.trans (hholds hphase))
    cases hk.symm.trans htask

theorem retried_step (w : Backed s) (h : Move s a t) {k : TaskId} {r : ParticipantId}
    {phase : PromotionPhase} (hk : t.tasks.lookup k = some (.promotion r phase)) {x : TrackId}
    (hx : x ∈ retriesOf phase) : x ∈ t.room.forwardedTracks.setAt r := by
  rcases task_cases h hk with hadvances | ⟨-, hlookup⟩ | hspawned
  · cases hadvances with
    | promotion r before after htask hmove =>
      cases hmove with
      | collect =>
        cases lookup_insert_self hk
        have hmissing := (List.mem_filter.mp hx).2
        simp only [Bool.and_eq_true, decide_eq_true_eq] at hmissing
        exact hmissing.2
      | created missing =>
        cases lookup_insert_self hk
        exact w.retried k r _ htask x hx
      | wake | lockPeer | take | promote =>
        cases lookup_insert_self hk
        cases hx
      | inactive | nothingMissing | giveUp | unsent | mark =>
        exact absurd rfl (lookup_erase_cases hk).1
  · have hphase : holdsPeer phase = true := by
      cases phase <;> first | rfl | cases hx
    exact reservation_held w.coherent h hlookup hphase (w.retried k r phase hlookup x hx)
  · cases hspawned
    cases hx

theorem backed_step (w : Backed s) (hG : ForwardsTended s a) (h : Move s a t) : Backed t where
  coherent := coherent_step w.coherent h
  receivers_known := by
    intro r x hx
    refine known_subset h ?_
    rcases entry_cases h .forwarded r x hx with hold | hwrites
    · exact w.receivers_known r x hold
    · cases hwrites with
      | forward op r hlock hrest =>
        exact w.coherent.present_known _ ((w.coherent.forwarding op hlock).rest_present _ hrest)
      | late k r f rest pendingForwards htask => exact (w.coherent.tasks k _ htask).1
  claims_known := by
    intro r f hf
    refine known_subset h ?_
    rcases claim_cases h hf with hclaim | hclaims
    · exact w.claims_known r f hclaim
    · exact claims_present_known w.coherent hclaims
  reserved := fun _ _ hr hx => reserved_step w h hG hr hx
  live := fun _ _ hr hpublishes hf => live_step w h hG hr hpublishes hf
  current := fun _ _ hlock hcurrent _ htrack hpublishes =>
    current_step w h hlock hcurrent htrack hpublishes
  retried := fun _ _ _ hk _ hx => retried_step w h hk hx

end Step

/-- At rest reservations are exactly the live forwards, and a retry marks nothing without one, in
every state of a run in which no forward is lost on the way. -/
theorem reservedIffLive_of_forwardsTended (roomId : RoomId) (actions : List Action)
    (hG : (system roomId).Guarded ForwardsTended (system roomId).init actions) :
    (system roomId).Always ReservedIffLive (system roomId).init actions := by
  refine System.always_mono (fun s (w : Backed s) => w.reservedIffLive) ?_
  refine System.always_of_guarded ?_ (backed_initial roomId) hG
  exact fun s a t w hG h => backed_step w hG (step_move h)

/-- B is there when A publishes, and its sender has no encoding. -/
def senderWithoutEncoding : List Action :=
  [.join (connection "a"), .join (connection "b"),
    .track "a" { id := "camera", streamId := "main" }, .reserve "b",
    .addTrack .withoutEncoding, .finishForward]

/-- The track stays reserved for B, and nobody will ever write it. -/
theorem senderWithoutEncoding_reserved :
    ¬ (system "r").Always ReservedIffLive (system "r").init senderWithoutEncoding := by
  refine System.not_always_of_run
    (fun t => decide (t.lock = .free) && t.tasks.isEmpty &&
      decide ("b" ∈ t.room.participants) &&
      decide ("camera" ∈ t.room.forwardedTracks.setAt "b") && decide (t.writers = ∅))
    (by decide) ?_
  intro t hfails h
  simp only [Bool.and_eq_true, decide_eq_true_eq] at hfails
  obtain ⟨⟨⟨⟨hlock, htasks⟩, hpresent⟩, hreserved⟩, hwriters⟩ := hfails
  obtain ⟨f, -, -, hwriter⟩ := (h.1 ⟨hlock, htasks⟩ "b" hpresent "camera").mp hreserved
  simp [hwriters] at hwriter

/-- Adding the screen to B fails and the camera is offered and answered; C comes late and
subscribes to both. -/
def earlyAndLate : List Action :=
  [.join (connection "a"), .join (connection "b"),
    .track "a" { id := "screen", streamId := "main" }, .reserve "b", .addTrack .failed,
    .finishForward,
    .track "a" { id := "camera", streamId := "main" }, .reserve "b",
    .addTrack (.subscribed 0), .finishForward, .renegotiation 0 .check, .renegotiation 0 .check,
    .renegotiation 0 (.offer .created true), .renegotiation 0 .mark,
    .clientAnswer "b" 1, .promotion 1 .wake, .promotion 1 .lockPeer, .promotion 1 .take,
    .promotion 1 .promote, .promotion 1 .collect,
    .join (connection "c"), .clientOffer "c" 2, .late 2 .check, .late 2 .lockPeer,
    .late 2 (.reserve ⟨"a", "camera"⟩), .late 2 (.add true), .late 2 (.reserve ⟨"a", "screen"⟩),
    .late 2 (.add true), .late 2 .unlock, .late 2 (.offer .created), .late 2 (.send true),
    .late 2 (.mark [])]

/-- Every addition gets its encoding, every reservation is for a track still published, and
nothing is released, dropped or cleared. -/
private def forwardsKept (s : Media) (a : Action) : Prop :=
  a ≠ .addTrack .withoutEncoding ∧ (∀ w ∈ reserving s a, Publishes s.room w.2) ∧
    releasing s a = none ∧ (∀ w ∈ dropping s a, w.2 = []) ∧ clearing s a = none

private instance (s : Media) (a : Action) : Decidable (forwardsKept s a) :=
  inferInstanceAs (Decidable (_ ∧ _))

theorem reservedIffLive_earlyAndLate :
    (system "r").Always ReservedIffLive (system "r").init earlyAndLate := by
  refine reservedIffLive_of_forwardsTended _ _ ?_
  refine System.guarded_mono (G := forwardsKept) ?_ (by decide)
  rintro s a ⟨hencoded, hreserving, hreleasing, hdropping, hclearing⟩
  refine ⟨hencoded, fun w hw _ => Or.inl (hreserving w hw), ?_, ?_, ?_⟩
  · simp [hreleasing]
  · intro w hw _ f hf
    simp [hdropping w hw] at hf
  · simp [hclearing]

end OpenMeet.LiveForwards
