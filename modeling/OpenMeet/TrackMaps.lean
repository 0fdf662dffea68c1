import OpenMeet.MediaInvariants

/-!
The three maps of track ids under the tasks' moves. An entry comes into a map
through one of five writes and stays until it is released, taken or cleared;
a removal clears the maps one after the other, and what it has still to clear
from a map is known from the phase it is in.
-/
namespace OpenMeet.TrackMaps

open KeyedMap Messages RoomState MediaTasks MediaMoves MediaInvariants

/-- The maps of track ids, in the order a removal clears them. -/
inductive TrackMap
  | negotiated
  | pending
  | forwarded
  deriving DecidableEq

def TrackMap.of : TrackMap → Room → TrackSets
  | .negotiated => Room.negotiatedTracks
  | .pending => Room.pendingNegotiatedTracks
  | .forwarded => Room.forwardedTracks

/-- The participant and the ids that a removal has still to clear from a map. -/
def toClear (m : TrackMap) : RoomLock → Option (ParticipantId × List TrackId)
  | .removing p removed .negotiated => some (p, removed)
  | .removing p removed .pending => if m = .negotiated then none else some (p, removed)
  | .removing p removed .forwarded => if m = .forwarded then some (p, removed) else none
  | _ => none

/-- The forward a late joiner's task is about to reserve. -/
def reserving (s : Media) : Action → Option (ParticipantId × Forward)
  | .late k (.reserve f) =>
    match s.tasks.lookup k with
    | some (.late r (.adding none _ _)) => some (r, f)
    | _ => none
  | _ => none

/-- The forward a late joiner's task is about to add, recording its sender. -/
def recording (s : Media) : Action → Option (ParticipantId × Forward)
  | .late k (.add true) =>
    match s.tasks.lookup k with
    | some (.late r (.adding (some f) _ _)) => some (r, f)
    | _ => none
  | _ => none

/-- The ids a late joiner's task or a renegotiation task is about to mark pending. -/
def marking (s : Media) : Action → Option (ParticipantId × List TrackId)
  | .late k (.mark _) =>
    match s.tasks.lookup k with
    | some (.late r (.marking pendingForwards)) => some (r, pendingForwards.map (·.track))
    | _ => none
  | .renegotiation k .mark =>
    match s.tasks.lookup k with
    | some (.renegotiation r trackId .marking) => some (r, [trackId])
    | _ => none
  | _ => none

/-- The forwards a late joiner's task has added and will spawn writers for. -/
def pendingOf : LatePhase → List Forward
  | .adding _ _ pendingForwards | .offering _ pendingForwards | .sending pendingForwards
  | .marking pendingForwards => pendingForwards
  | _ => []

/-- A late joiner's task between its reservation and the outcome of adding the track. -/
def Adding (s : Media) (r : ParticipantId) (f : Forward) : Prop :=
  ∃ k rest pendingForwards,
    s.tasks.lookup k = some (.late r (.adding (some f) rest pendingForwards))

/-- The entries an action adds to the maps. -/
inductive Writes (s : Media) : Action → TrackMap → ParticipantId → TrackId → Prop
  | forward (op : ForwardTrack) (r : ParticipantId) (hlock : s.lock = .forwarding op)
      (hr : r ∈ op.rest) : Writes s (.reserve r) .forwarded r op.track
  | late (k : TaskId) (r : ParticipantId) (f : Forward) (rest pendingForwards : List Forward)
      (htask : s.tasks.lookup k = some (.late r (.adding none rest pendingForwards)))
      (hfree : f.track ∉ s.room.forwardedTracks.setAt r) :
      Writes s (.late k (.reserve f)) .forwarded r f.track
  | mark (a : Action) (r : ParticipantId) (ids : List TrackId) (t : TrackId)
      (hmark : marking s a = some (r, ids)) (ht : t ∈ ids) : Writes s a .pending r t
  | retry (k : TaskId) (r : ParticipantId) (missing : List TrackId) (t : TrackId)
      (htask : s.tasks.lookup k = some (.promotion r (.marking missing))) (ht : t ∈ missing) :
      Writes s (.promotion k .mark) .pending r t
  | promote (k : TaskId) (r : ParticipantId) (trackIds : Finset TrackId) (t : TrackId)
      (htask : s.tasks.lookup k = some (.promotion r (.promoting trackIds))) (ht : t ∈ trackIds) :
      Writes s (.promotion k .promote) .negotiated r t

section Step

variable {s t : Media} {a : Action}

theorem entry_cases (h : Move s a t) (m : TrackMap) (r : ParticipantId) (x : TrackId)
    (hx : x ∈ (m.of t.room).setAt r) : x ∈ (m.of s.room).setAt r ∨ Writes s a m r x := by
  cases h with
  | forward op hlock hmove =>
    cases hmove with
    | reserve q hcurrent hq =>
      cases m with
      | forwarded =>
        rcases (s.room.mem_setAt_reserve q r op.track x).mp hx with ⟨rfl, rfl⟩ | hx
        · exact Or.inr (.forward op _ hlock hq)
        · exact Or.inl hx
      | _ => exact Or.inl hx
    | failed q =>
      cases m with
      | forwarded => exact Or.inl ((s.room.mem_setAt_release q r op.track x).mp hx).1
      | _ => exact Or.inl hx
    | _ => cases m <;> exact Or.inl hx
  | removal p removed phase hlock hmove =>
    cases hmove <;> cases m <;> first
      | exact Or.inl hx
      | (refine Or.inl ?_
         simp only [TrackMap.of, Media.setLock, Media.setRoom, Room.clearNegotiated,
           Room.clearPending, Room.clearForwarded, Room.setAt_clearTracks] at hx
         split at hx
         · simp at hx
         · exact (Finset.mem_filter.mp hx).1)
  | late k q phase htask hmove =>
    cases hmove with
    | reserve f rest pendingForwards hf hfree =>
      cases m with
      | forwarded =>
        rcases (s.room.mem_setAt_reserve q r f.track x).mp hx with ⟨rfl, rfl⟩ | hx
        · exact Or.inr (.late k _ f rest pendingForwards htask hfree)
        · exact Or.inl hx
      | _ => exact Or.inl hx
    | release f =>
      cases m with
      | forwarded => exact Or.inl ((s.room.mem_setAt_release q r f.track x).mp hx).1
      | _ => exact Or.inl hx
    | mark pendingForwards withoutEncoding =>
      cases m with
      | pending =>
        rcases (s.room.mem_setAt_markPending q r _ x).mp hx with ⟨rfl, hmem⟩ | hmem
        · exact Or.inr (.mark _ _ _ x (by simp [marking, htask]) hmem)
        · exact Or.inl hmem
      | _ => exact Or.inl hx
    | _ => cases m <;> exact Or.inl hx
  | renegotiation k q trackId phase htask hmove =>
    cases hmove with
    | mark =>
      cases m with
      | pending =>
        rcases (s.room.mem_setAt_markPending q r _ x).mp hx with ⟨rfl, hmem⟩ | hmem
        · exact Or.inr (.mark _ _ _ x (by simp [marking, htask]) hmem)
        · exact Or.inl hmem
      | _ => exact Or.inl hx
    | _ => cases m <;> exact Or.inl hx
  | promotion k q phase htask hmove =>
    cases hmove with
    | take =>
      cases m with
      | pending =>
        simp only [TrackMap.of, Media.setTask, Media.setRoom, Room.takePending,
          Map.setAt_erase] at hx
        split at hx
        · simp at hx
        · exact Or.inl hx
      | _ => exact Or.inl hx
    | promote trackIds =>
      cases m with
      | negotiated =>
        rcases (s.room.mem_setAt_extendNegotiated q r trackIds x).mp hx with ⟨rfl, hmem⟩ | hmem
        · exact Or.inr (.promote k _ trackIds x htask hmem)
        · exact Or.inl hmem
      | _ => exact Or.inl hx
    | mark missing =>
      cases m with
      | pending =>
        rcases (s.room.mem_setAt_markPending q r missing x).mp hx with ⟨rfl, hmem⟩ | hmem
        · exact Or.inr (.retry k _ missing x htask hmem)
        · exact Or.inl hmem
      | _ => exact Or.inl hx
    | _ => cases m <;> exact Or.inl hx
  | retirement k q attempt htask hmove => cases hmove <;> exact Or.inl hx
  | _ => cases m <;> exact Or.inl hx

/-- A key comes into a map only with an entry. -/
theorem key_cases (h : Move s a t) (m : TrackMap) (r : ParticipantId) (hr : r ∈ m.of t.room) :
    r ∈ m.of s.room ∨ ∃ x, Writes s a m r x := by
  have hwritten : ∀ {x}, Writes s a m r x → r ∈ m.of s.room ∨ ∃ x, Writes s a m r x :=
    fun hw => Or.inr ⟨_, hw⟩
  cases h with
  | forward op hlock hmove =>
    cases hmove with
    | reserve q hcurrent hq =>
      cases m with
      | forwarded =>
        rcases (s.room.mem_reserve q r op.track).mp hr with rfl | hr
        · exact hwritten (.forward op _ hlock hq)
        · exact Or.inl hr
      | _ => exact Or.inl hr
    | failed q =>
      cases m with
      | forwarded => exact Or.inl (Map.mem_of_mem_discardAt hr)
      | _ => exact Or.inl hr
    | _ => cases m <;> exact Or.inl hr
  | removal p removed phase hlock hmove =>
    cases hmove <;> cases m <;> first
      | exact Or.inl hr
      | exact Or.inl (Room.mem_clearTracks.mp hr).2
  | late k q phase htask hmove =>
    cases hmove with
    | reserve f rest pendingForwards hf hfree =>
      cases m with
      | forwarded =>
        rcases (s.room.mem_reserve q r f.track).mp hr with rfl | hr
        · exact hwritten (.late k _ f rest pendingForwards htask hfree)
        · exact Or.inl hr
      | _ => exact Or.inl hr
    | release f =>
      cases m with
      | forwarded => exact Or.inl (Map.mem_of_mem_discardAt hr)
      | _ => exact Or.inl hr
    | mark pendingForwards withoutEncoding =>
      cases m with
      | pending =>
        rcases (s.room.mem_markPending q r _).mp hr with ⟨rfl, hne⟩ | hr
        · obtain ⟨x, hx⟩ := List.exists_mem_of_ne_nil _ hne
          exact hwritten (.mark _ _ _ x (by simp [marking, htask]) hx)
        · exact Or.inl hr
      | _ => exact Or.inl hr
    | _ => cases m <;> exact Or.inl hr
  | renegotiation k q trackId phase htask hmove =>
    cases hmove with
    | mark =>
      cases m with
      | pending =>
        rcases (s.room.mem_markPending q r _).mp hr with ⟨rfl, -⟩ | hr
        · exact hwritten (.mark _ _ _ trackId (by simp [marking, htask]; rfl) (by simp))
        · exact Or.inl hr
      | _ => exact Or.inl hr
    | _ => cases m <;> exact Or.inl hr
  | promotion k q phase htask hmove =>
    cases hmove with
    | take =>
      cases m with
      | pending => exact Or.inl (AList.mem_erase.mp hr).2
      | _ => exact Or.inl hr
    | promote trackIds =>
      cases m with
      | negotiated =>
        by_cases hempty : trackIds = ∅
        · exact Or.inl (by simpa [TrackMap.of, Room.extendNegotiated, hempty] using hr)
        · obtain ⟨x, hx⟩ := Finset.nonempty_iff_ne_empty.mpr hempty
          have hr : r = q ∨ r ∈ s.room.negotiatedTracks := by
            simpa [TrackMap.of, Room.extendNegotiated, hempty, Map.extendAt] using hr
          rcases hr with rfl | hr
          · exact hwritten (.promote k _ trackIds x htask hx)
          · exact Or.inl hr
      | _ => exact Or.inl hr
    | mark missing =>
      cases m with
      | pending =>
        rcases (s.room.mem_markPending q r missing).mp hr with ⟨rfl, hne⟩ | hr
        · obtain ⟨x, hx⟩ := List.exists_mem_of_ne_nil _ hne
          exact hwritten (.retry k _ missing x htask hx)
        · exact Or.inl hr
      | _ => exact Or.inl hr
    | _ => cases m <;> exact Or.inl hr
  | retirement k q attempt htask hmove => cases hmove <;> exact Or.inl hr
  | _ => cases m <;> exact Or.inl hr

/-- The phase of a late joiner's task after a move, from the one before. -/
theorem late_cases (h : Move s a t) {k : TaskId} {r : ParticipantId} {phase : LatePhase}
    (hk : t.tasks.lookup k = some (.late r phase)) :
    s.tasks.lookup k = some (.late r phase) ∨ (∃ existing, phase = .checking existing) ∨
      ∃ before event, a = .late k event ∧ s.tasks.lookup k = some (.late r before) ∧
        LateMove s k r before event t := by
  rcases task_cases h hk with hadvances | ⟨-, hlookup⟩ | hspawned
  · cases hadvances with
    | late r before after htask hmove => exact Or.inr (Or.inr ⟨before, _, rfl, htask, hmove⟩)
  · exact Or.inl hlookup
  · cases hspawned
    exact Or.inr (Or.inl ⟨_, rfl⟩)

/-- What a removal has to clear from a map is due until the map is cleared of it. -/
theorem toClear_step (h : Move s a t) {m : TrackMap} {p : ParticipantId}
    {removed : List TrackId} (hdue : toClear m s.lock = some (p, removed)) :
    toClear m t.lock = some (p, removed) ∨
      m.of t.room = Room.clearTracks (m.of s.room) p removed := by
  cases hlock : s.lock with
  | free => simp [hlock, toClear] at hdue
  | forwarding op => simp [hlock, toClear] at hdue
  | removing q ids phase =>
    rcases removing_cases h hlock with hsame | hmove
    · exact Or.inl (hsame ▸ hdue)
    · rw [hlock] at hdue
      cases hmove <;> cases m <;> simp [toClear] at hdue <;> obtain ⟨rfl, rfl⟩ := hdue <;>
        first
          | exact Or.inl rfl
          | exact Or.inr rfl

end Step

end OpenMeet.TrackMaps
