import OpenMeet.Forwarding
import OpenMeet.TransitionSystem

/-!
Per-source forwarding books. Operations on one room follow each other, every
track is added and every offer goes through. A subscription belongs to a
receiver and a track of one source, while reservations are kept per receiver
and bare track id. Both demands, that every subscription owed is made and that
removing a participant leaves the entries of others alone, hold along a run
exactly when no track starts to be forwarded to a receiver under an id that a
second participant present publishes.
-/
namespace OpenMeet.SourceBooks

open KeyedMap Messages RoomState TransitionSystem

/-- A room, the participants it ever had, and the subscriptions made and owed. A receiver
is owed a track that arrives while it is eligible for it, and every track its late-joiner
subscription finds. -/
structure Books where
  room : Room
  known : Finset ParticipantId
  subscribed : Finset (ParticipantId × Forward)
  due : Finset (ParticipantId × Forward)

inductive Operation
  | addParticipant (connection : ParticipantConnection)
  | handleIncomingTrack (participantId : ParticipantId) (track : TrackRemote)
  | subscribeExisting (receiverId : ParticipantId)
  | answer (receiverId : ParticipantId)
  | removeParticipant (participantId : ParticipantId)
  deriving DecidableEq

/-- The server offer for a track just added makes its id pending. The task a new track
spawns looks first whether the id is negotiated or pending; a late joiner's does not. -/
def announce (recheck : Bool) (room : Room) (receiverId : ParticipantId) (trackId : TrackId) :
    Room :=
  if recheck && room.trackIsNegotiatedOrPending receiverId trackId then room
  else room.markPending receiverId [trackId]

/-- Reserve, add, record and announce one track for one receiver, unless its id is taken. -/
def subscribe (recheck : Bool) (receiverId : ParticipantId) (f : Forward) (books : Books) :
    Books :=
  if (Room.reserveForwardedTrack books.room.forwardedTracks receiverId f.track).1 then
    let room := books.room.reserve receiverId f.track
    let room := room.recordForwardedSender receiverId f.source { trackId := f.track }
    { books with
      room := announce recheck room receiverId f.track
      subscribed := insert (receiverId, f) books.subscribed }
  else books

def subscribeEach (recheck : Bool) : List (ParticipantId × Forward) → Books → Books
  | [], books => books
  | (receiverId, f) :: rest, books =>
    subscribeEach recheck rest (subscribe recheck receiverId f books)

/-- Owe the subscriptions and go through them. -/
def serve (recheck : Bool) (owed : List (ParticipantId × Forward)) (books : Books) : Books :=
  subscribeEach recheck owed { books with due := books.due ∪ owed.toFinset }

def registerTrack (books : Books) (participantId : ParticipantId) (track : TrackRemote) : Books :=
  { books with room := books.room.registerTrack participantId track }

/-- Promote the pending ids of an answered offer and offer again what is still missing. -/
def promote (room : Room) (receiverId : ParticipantId) : Room :=
  let pending := room.pendingNegotiatedTracks.setAt receiverId
  let room := (room.takePending receiverId).extendNegotiated receiverId pending
  room.markPending receiverId (room.missingTrackIds receiverId)

/-- The receivers an arriving track is owed to. -/
def owedOnArrival (room : Room) (participantId : ParticipantId) (trackId : TrackId) :
    List (ParticipantId × Forward) :=
  (room.receiversOf participantId).map fun r => (r, { source := participantId, track := trackId })

def owedToLateJoiner (room : Room) (receiverId : ParticipantId) :
    List (ParticipantId × Forward) :=
  (room.existingTracks receiverId).map fun f => (receiverId, f)

def step (books : Books) : Operation → Option Books
  | .addParticipant connection =>
    let id := connection.participant.id
    if id ∈ books.known then none
    else
      some { books with
        room := (books.room.addParticipant connection).1
        known := insert id books.known }
  | .handleIncomingTrack participantId track =>
    if books.room.isActive participantId then
      some (serve true (owedOnArrival books.room participantId track.id)
        (registerTrack books participantId track))
    else none
  | .subscribeExisting receiverId =>
    if books.room.isActive receiverId && books.room.hasPeerConnection receiverId then
      some (serve false (owedToLateJoiner books.room receiverId) books)
    else none
  | .answer receiverId =>
    if books.room.isActive receiverId && books.room.hasPeerConnection receiverId then
      some { books with room := promote books.room receiverId }
    else none
  | .removeParticipant participantId =>
    if participantId ∈ books.room.participants then
      some { books with room := (books.room.removeParticipant participantId).1 }
    else none

def system (roomId : RoomId) : System Books Operation where
  init := { room := Room.new roomId, known := ∅, subscribed := ∅, due := ∅ }
  step := step

/-- Every subscription owed between two participants present has been made. -/
def Subscribed (books : Books) : Prop :=
  ∀ r f, (r, f) ∈ books.due → r ∈ books.room.participants →
    f.source ∈ books.room.participants → (r, f) ∈ books.subscribed

/-- Whoever is removed next, every entry of another receiver that stands for a track of
another participant present survives in each of the three maps. -/
def Undisturbed (books : Books) : Prop :=
  ∀ x r f, x ∈ books.room.participants → r ∈ books.room.participants → r ≠ x →
    f.source ∈ books.room.participants → f.source ≠ x → (r, f) ∈ books.subscribed →
    ∀ tracks ∈ [Room.forwardedTracks, Room.negotiatedTracks, Room.pendingNegotiatedTracks],
      f.track ∈ (tracks books.room).setAt r →
        f.track ∈ (tracks (books.room.removeParticipant x).1).setAt r

def PerSource (books : Books) : Prop := Subscribed books ∧ Undisturbed books

/-- Nobody present but the receiver publishes the id of a track owed from another source. -/
def Uncontested (books : Books) : Prop :=
  ∀ r f, (r, f) ∈ books.due → r ∈ books.room.participants →
    f.source ∈ books.room.participants →
    ∀ x ∈ books.room.participants, x ≠ f.source → x ≠ r → f.track ∉ books.room.trackIdsOf x

/-- An arriving track has an id of its own among what its receivers can be sent, and a late
joiner finds no id published twice. -/
def IdsDistinct (books : Books) : Operation → Prop
  | .handleIncomingTrack p track =>
    books.room.isActive p = true →
      (∀ r ∈ books.room.receiversOf p, ∀ x ∈ books.room.participants, x ≠ p → x ≠ r →
        track.id ∉ books.room.trackIdsOf x) ∧
      ∀ r f, (r, f) ∈ books.due → r ∈ books.room.participants →
        f.source ∈ books.room.participants → f.source ≠ p → r ≠ p → f.track ≠ track.id
  | .subscribeExisting r =>
    books.room.isActive r = true → books.room.hasPeerConnection r = true →
      ∀ f ∈ books.room.existingTracks r, ∀ x ∈ books.room.participants, x ≠ f.source → x ≠ r →
        f.track ∉ books.room.trackIdsOf x
  | _ => True

section Serving

variable (recheck : Bool)

@[simp] theorem announce_participants (room : Room) (r : ParticipantId) (t : TrackId) :
    (announce recheck room r t).participants = room.participants := by
  unfold announce
  split <;> rfl

@[simp] theorem announce_participantTracks (room : Room) (r : ParticipantId) (t : TrackId) :
    (announce recheck room r t).participantTracks = room.participantTracks := by
  unfold announce
  split <;> rfl

@[simp] theorem announce_forwardedTracks (room : Room) (r : ParticipantId) (t : TrackId) :
    (announce recheck room r t).forwardedTracks = room.forwardedTracks := by
  unfold announce
  split <;> rfl

/-- What subscribing leaves alone. -/
structure SameParties (before after : Books) : Prop where
  participants : after.room.participants = before.room.participants
  tracks : after.room.participantTracks = before.room.participantTracks
  known : after.known = before.known
  due : after.due = before.due

theorem SameParties.trackIdsOf {before after : Books} (h : SameParties before after)
    (p : ParticipantId) : after.room.trackIdsOf p = before.room.trackIdsOf p := by
  simp [Room.trackIdsOf, h.tracks]

theorem subscribe_frame (r : ParticipantId) (f : Forward) (books : Books) :
    SameParties books (subscribe recheck r f books) := by
  unfold subscribe
  split
  · constructor <;> simp [Room.recordForwardedSender, Room.reserve]
  · exact ⟨rfl, rfl, rfl, rfl⟩

theorem mem_forwarded_subscribe (r q : ParticipantId) (f : Forward) (t : TrackId) (books : Books) :
    t ∈ (subscribe recheck r f books).room.forwardedTracks.setAt q ↔
      (q = r ∧ t = f.track) ∨ t ∈ books.room.forwardedTracks.setAt q := by
  unfold subscribe
  split
  · have h := books.room.mem_setAt_reserve r q f.track t
    simpa [Room.recordForwardedSender] using h
  · rename_i htaken
    rw [Room.reserveForwardedTrack_fst, not_not] at htaken
    grind

theorem mem_subscribed_subscribe (r : ParticipantId) (f : Forward) (books : Books)
    (e : ParticipantId × Forward) :
    e ∈ (subscribe recheck r f books).subscribed ↔
      (e = (r, f) ∧ f.track ∉ books.room.forwardedTracks.setAt r) ∨ e ∈ books.subscribed := by
  unfold subscribe
  split
  · rename_i hfree
    rw [Room.reserveForwardedTrack_fst] at hfree
    simp [hfree]
  · rename_i htaken
    rw [Room.reserveForwardedTrack_fst, not_not] at htaken
    simp [htaken]

theorem subscribeEach_frame (owed : List (ParticipantId × Forward)) (books : Books) :
    SameParties books (subscribeEach recheck owed books) := by
  induction owed generalizing books with
  | nil => exact ⟨rfl, rfl, rfl, rfl⟩
  | cons e rest ih =>
    have hfirst := subscribe_frame recheck e.1 e.2 books
    have hrest := ih (subscribe recheck e.1 e.2 books)
    exact ⟨hrest.participants.trans hfirst.participants, hrest.tracks.trans hfirst.tracks,
      hrest.known.trans hfirst.known, hrest.due.trans hfirst.due⟩

theorem mem_forwarded_subscribeEach (owed : List (ParticipantId × Forward)) (books : Books)
    (r : ParticipantId) (t : TrackId) :
    t ∈ (subscribeEach recheck owed books).room.forwardedTracks.setAt r ↔
      (∃ f, (r, f) ∈ owed ∧ f.track = t) ∨ t ∈ books.room.forwardedTracks.setAt r := by
  induction owed generalizing books with
  | nil => simp [subscribeEach]
  | cons e rest ih =>
    obtain ⟨q, g⟩ := e
    simp only [subscribeEach, ih, mem_forwarded_subscribe, List.mem_cons, Prod.mk.injEq]
    grind

theorem subscribed_subset (owed : List (ParticipantId × Forward)) (books : Books) :
    books.subscribed ⊆ (subscribeEach recheck owed books).subscribed := by
  induction owed generalizing books with
  | nil => exact Finset.Subset.refl _
  | cons e rest ih =>
    intro d hd
    apply ih
    exact (mem_subscribed_subscribe ..).mpr (Or.inr hd)

theorem of_mem_subscribed {owed : List (ParticipantId × Forward)} {books : Books}
    {e : ParticipantId × Forward} (he : e ∈ (subscribeEach recheck owed books).subscribed) :
    e ∈ books.subscribed ∨ e ∈ owed := by
  induction owed generalizing books with
  | nil => exact Or.inl he
  | cons d rest ih =>
    rcases ih he with hsub | hrest
    · rcases (mem_subscribed_subscribe ..).mp hsub with ⟨rfl, -⟩ | hsub
      · exact Or.inr List.mem_cons_self
      · exact Or.inl hsub
    · exact Or.inr (List.mem_cons_of_mem d hrest)

/-- A track owed to a receiver that holds no reservation under its id gets its subscription,
if nothing else owed to the receiver has that id. -/
theorem mem_subscribed_of_owed {owed : List (ParticipantId × Forward)} {books : Books}
    {r : ParticipantId} {f : Forward} (howed : (r, f) ∈ owed)
    (hfree : f.track ∉ books.room.forwardedTracks.setAt r)
    (halone : ∀ g, (r, g) ∈ owed → g.track = f.track → g = f) :
    (r, f) ∈ (subscribeEach recheck owed books).subscribed := by
  induction owed generalizing books with
  | nil => cases howed
  | cons e rest ih =>
    obtain ⟨q, g⟩ := e
    by_cases he : (q, g) = (r, f)
    · obtain ⟨rfl, rfl⟩ := Prod.mk.inj he
      have hmade : (q, g) ∈ (subscribe recheck q g books).subscribed :=
        (mem_subscribed_subscribe ..).mpr (Or.inl ⟨rfl, hfree⟩)
      exact subscribed_subset recheck rest _ hmade
    · have hrest : (r, f) ∈ rest := by
        rcases List.mem_cons.mp howed with heq | hrest
        · exact absurd heq.symm he
        · exact hrest
      have hstill : f.track ∉ (subscribe recheck q g books).room.forwardedTracks.setAt r := by
        rw [mem_forwarded_subscribe, not_or]
        refine ⟨?_, hfree⟩
        rintro ⟨rfl, htrack⟩
        exact he (by rw [halone g List.mem_cons_self htrack.symm])
      exact ih hrest hstill fun g' hg' => halone g' (List.mem_cons_of_mem _ hg')

end Serving

/-- What the operations keep of the books whatever ids the clients choose. -/
structure Kept (books : Books) : Prop where
  present_known : ∀ p ∈ books.room.participants, p ∈ books.known
  published_present : ∀ p t, t ∈ books.room.trackIdsOf p → p ∈ books.room.participants
  due_known : ∀ r f, (r, f) ∈ books.due → r ∈ books.known ∧ f.source ∈ books.known
  due_apart : ∀ r f, (r, f) ∈ books.due → f.source ≠ r
  due_published : ∀ r f, (r, f) ∈ books.due → f.source ∈ books.room.participants →
    f.track ∈ books.room.trackIdsOf f.source
  due_reserved : ∀ r f, (r, f) ∈ books.due → r ∈ books.room.participants →
    f.source ∈ books.room.participants → f.track ∈ books.room.forwardedTracks.setAt r
  reserved_due : ∀ r t, t ∈ books.room.forwardedTracks.setAt r →
    ∃ f, (r, f) ∈ books.due ∧ f.track = t ∧ f.source ∈ books.room.participants
  subscribed_due : books.subscribed ⊆ books.due

theorem kept_initial (roomId : RoomId) : Kept (system roomId).init := by
  constructor <;> simp [system, Room.new, Room.trackIdsOf]

/-- With subscriptions and reservations in step, nothing is disturbed by a removal exactly
when nothing is contested. -/
theorem Kept.undisturbed_iff {books : Books} (k : Kept books) (hsub : Subscribed books) :
    Undisturbed books ↔ Uncontested books := by
  constructor
  · intro hundisturbed r f hdue hr hsource x hx hxsource hxr htrack
    have hkept := hundisturbed x r f hx hr hxr.symm hsource hxsource.symm
      (hsub r f hdue hr hsource) Room.forwardedTracks (by simp)
      (k.due_reserved r f hdue hr hsource)
    rw [Room.removeParticipant_forwardedTracks hx] at hkept
    simp [hxr.symm, htrack] at hkept
  · intro huncontested x r f hx hr hrx hsource hsourcex hsubscribed tracks htracks hentry
    have hfree : f.track ∉ books.room.trackIdsOf x :=
      huncontested r f (k.subscribed_due hsubscribed) hr hsource x hx hsourcex.symm hrx.symm
    simp only [List.mem_cons, List.not_mem_nil, or_false] at htracks
    rcases htracks with rfl | rfl | rfl
    · simpa [Room.removeParticipant_forwardedTracks hx, hrx, hfree] using hentry
    · simpa [Room.removeParticipant_negotiatedTracks hx, hrx, hfree] using hentry
    · simpa [Room.removeParticipant_pendingNegotiatedTracks hx, hrx, hfree] using hentry

section Step

variable {books after : Books}

/-- The subscriptions owed at one go: receivers and sources are present and apart, and the
sources publish what they owe. -/
def Payable (books : Books) (owed : List (ParticipantId × Forward)) : Prop :=
  ∀ r f, (r, f) ∈ owed → r ∈ books.room.participants ∧ f.source ≠ r ∧
    f.track ∈ books.room.trackIdsOf f.source

theorem kept_serve {recheck : Bool} {owed : List (ParticipantId × Forward)} (k : Kept books)
    (howed : Payable books owed) : Kept (serve recheck owed books) := by
  have hframe := subscribeEach_frame recheck owed { books with due := books.due ∪ owed.toFinset }
  have hforwarded := mem_forwarded_subscribeEach recheck owed
    { books with due := books.due ∪ owed.toFinset }
  have hdue : ∀ r f, (r, f) ∈ (serve recheck owed books).due ↔
      (r, f) ∈ books.due ∨ (r, f) ∈ owed := by
    simp [serve, hframe.due]
  constructor
  · simpa [serve, hframe.participants, hframe.known] using k.present_known
  · simpa [serve, hframe.participants, hframe.trackIdsOf] using k.published_present
  · intro r f h
    simp only [serve, hframe.known]
    rcases (hdue r f).mp h with h | h
    · exact k.due_known r f h
    · obtain ⟨hr, -, htrack⟩ := howed r f h
      exact ⟨k.present_known r hr, k.present_known _ (k.published_present _ _ htrack)⟩
  · intro r f h
    rcases (hdue r f).mp h with h | h
    · exact k.due_apart r f h
    · exact (howed r f h).2.1
  · intro r f h hsource
    simp only [serve, hframe.participants] at hsource
    simp only [serve, hframe.trackIdsOf]
    rcases (hdue r f).mp h with h | h
    · exact k.due_published r f h hsource
    · exact (howed r f h).2.2
  · intro r f h hr hsource
    simp only [serve, hframe.participants] at hr hsource
    apply (hforwarded r f.track).mpr
    rcases (hdue r f).mp h with h | h
    · exact Or.inr (k.due_reserved r f h hr hsource)
    · exact Or.inl ⟨f, h, rfl⟩
  · intro r t h
    simp only [serve, hframe.participants]
    rcases (hforwarded r t).mp h with ⟨f, hf, rfl⟩ | h
    · exact ⟨f, (hdue r f).mpr (Or.inr hf), rfl, k.published_present _ _ (howed r f hf).2.2⟩
    · obtain ⟨f, hf, ht, hsource⟩ := k.reserved_due r t h
      exact ⟨f, (hdue r f).mpr (Or.inl hf), ht, hsource⟩
  · intro e he
    obtain ⟨r, f⟩ := e
    rw [hdue]
    rcases of_mem_subscribed recheck he with he | he
    · exact Or.inl (k.subscribed_due he)
    · exact Or.inr he

/-- Where nothing is contested afterwards, everything owed has been subscribed: an id already
reserved was reserved for the same source. -/
theorem subscribed_serve {recheck : Bool} {owed : List (ParticipantId × Forward)} (k : Kept books)
    (hsub : Subscribed books) (howed : Payable books owed)
    (huncontested : Uncontested (serve recheck owed books)) :
    Subscribed (serve recheck owed books) := by
  have hframe := subscribeEach_frame recheck owed { books with due := books.due ∪ owed.toFinset }
  have hsame : ∀ r f g, (r, f) ∈ owed → f.track = g.track → g.source ≠ r →
      g.track ∈ books.room.trackIdsOf g.source → g = f := by
    intro r f g hf htrack hapart hpublished
    obtain ⟨hr, -, hftrack⟩ := howed r f hf
    by_contra hne
    have hsource : g.source ≠ f.source := by
      intro hsource
      exact hne (by cases f; cases g; simp_all)
    refine huncontested r f ?_ ?_ ?_ g.source ?_ hsource hapart ?_
    · simp [serve, hframe.due, hf]
    · simpa [serve, hframe.participants] using hr
    · simpa [serve, hframe.participants] using k.published_present _ _ hftrack
    · simpa [serve, hframe.participants] using k.published_present _ _ hpublished
    · simpa [serve, hframe.trackIdsOf, htrack] using hpublished
  intro r f hdue hr hsource
  simp only [serve, hframe.participants] at hr hsource
  simp only [serve, hframe.due, Finset.mem_union, List.mem_toFinset] at hdue
  rcases hdue with hdue | hf
  · exact subscribed_subset recheck owed _ (hsub r f hdue hr hsource)
  · by_cases hreserved : f.track ∈ books.room.forwardedTracks.setAt r
    · obtain ⟨g, hg, htrack, hgsource⟩ := k.reserved_due r f.track hreserved
      have hgf : g = f :=
        hsame r f g hf htrack.symm (k.due_apart r g hg) (k.due_published r g hg hgsource)
      subst hgf
      exact subscribed_subset recheck owed _ (hsub r g hg hr hgsource)
    · refine mem_subscribed_of_owed recheck hf hreserved fun g hg htrack => ?_
      obtain ⟨-, hapart, hpublished⟩ := howed r g hg
      exact hsame r f g hf htrack.symm hapart hpublished

theorem kept_registerTrack (k : Kept books) {p : ParticipantId} {track : TrackRemote}
    (hp : p ∈ books.room.participants) : Kept (registerTrack books p track) where
  present_known := k.present_known
  published_present := by
    intro q t h
    simp only [registerTrack, Room.trackIdsOf_registerTrack] at h
    split at h
    · rename_i hq
      exact hq ▸ hp
    · exact k.published_present q t h
  due_known := k.due_known
  due_apart := k.due_apart
  due_published := by
    intro r f h hsource
    have hpublished := k.due_published r f h hsource
    simp only [registerTrack, Room.trackIdsOf_registerTrack]
    split
    · rename_i hq
      exact List.mem_append_left _ (hq ▸ hpublished)
    · exact hpublished
  due_reserved := k.due_reserved
  reserved_due := k.reserved_due
  subscribed_due := k.subscribed_due

theorem uncontested_serve_iff {recheck : Bool} {owed : List (ParticipantId × Forward)}
    (k : Kept books) (howed : Payable books owed) :
    Uncontested (serve recheck owed books) ↔
      Uncontested books ∧ ∀ r f, (r, f) ∈ owed → ∀ x ∈ books.room.participants,
        x ≠ f.source → x ≠ r → f.track ∉ books.room.trackIdsOf x := by
  have hframe := subscribeEach_frame recheck owed { books with due := books.due ∪ owed.toFinset }
  simp only [Uncontested, serve, hframe.due, hframe.participants, hframe.trackIdsOf,
    Finset.mem_union, List.mem_toFinset]
  constructor
  · intro h
    refine ⟨fun r f hdue => h r f (Or.inl hdue), fun r f hf => ?_⟩
    obtain ⟨hr, -, htrack⟩ := howed r f hf
    exact h r f (Or.inr hf) hr (k.published_present _ _ htrack)
  · rintro ⟨hold, hnew⟩ r f (hdue | hf) hr hsource
    · exact hold r f hdue hr hsource
    · exact hnew r f hf

theorem uncontested_registerTrack_iff {p : ParticipantId} {track : TrackRemote}
    (hp : p ∈ books.room.participants) :
    Uncontested (registerTrack books p track) ↔
      Uncontested books ∧ ∀ r f, (r, f) ∈ books.due → r ∈ books.room.participants →
        f.source ∈ books.room.participants → f.source ≠ p → r ≠ p → f.track ≠ track.id := by
  have hids := books.room.trackIdsOf_registerTrack p
  constructor
  · intro h
    refine ⟨fun r f hdue hr hsource x hx hxsource hxr => ?_,
      fun r f hdue hr hsource hfp hrp => ?_⟩
    · have hfree := h r f hdue hr hsource x hx hxsource hxr
      simp only [registerTrack, hids] at hfree
      split at hfree
      · rename_i hxp
        exact fun hmem => hfree (List.mem_append_left _ (hxp ▸ hmem))
      · exact hfree
    · have hfree := h r f hdue hr hsource p hp hfp.symm hrp.symm
      intro htrack
      simp [registerTrack, hids, htrack] at hfree
  · rintro ⟨hold, hnew⟩ r f hdue hr hsource x hx hxsource hxr
    have hfree := hold r f hdue hr hsource x hx hxsource hxr
    simp only [registerTrack, hids]
    split
    · rename_i hxp
      subst hxp
      have hid := hnew r f hdue hr hsource hxsource.symm hxr.symm
      simp [hfree, hid]
    · exact hfree

/-- What an operation brings about when the books before it are kept per source. -/
structure Follows (books : Books) (operation : Operation) (after : Books) : Prop where
  kept : Kept after
  subscribed : Uncontested after → Subscribed after
  uncontested_iff : Uncontested after ↔ IdsDistinct books operation

theorem Follows.keeps_iff {operation : Operation} (h : Follows books operation after) :
    PerSource after ↔ IdsDistinct books operation := by
  rw [← h.uncontested_iff]
  constructor
  · rintro ⟨hsub, hundisturbed⟩
    exact (h.kept.undisturbed_iff hsub).mp hundisturbed
  · intro huncontested
    have hsub := h.subscribed huncontested
    exact ⟨hsub, (h.kept.undisturbed_iff hsub).mpr huncontested⟩

theorem promote_frame (room : Room) (r : ParticipantId) :
    (promote room r).participants = room.participants ∧
      (promote room r).participantTracks = room.participantTracks ∧
      (promote room r).forwardedTracks = room.forwardedTracks := ⟨rfl, rfl, rfl⟩

section Operations

variable (k : Kept books) (hsub : Subscribed books) (huncontested : Uncontested books)
include k hsub huncontested

theorem addParticipant_follows {connection : ParticipantConnection}
    (hstep : step books (.addParticipant connection) = some after) :
    Follows books (.addParticipant connection) after := by
  simp only [step] at hstep
  split at hstep
  · cases hstep
  · rename_i hfresh
    cases hstep
    have hmem : ∀ q, q ∈ (books.room.addParticipant connection).1.participants ↔
        q = connection.participant.id ∨ q ∈ books.room.participants := by
      simp [Room.addParticipant]
    have hold : ∀ q, q ∈ books.known → q ∈ (books.room.addParticipant connection).1.participants →
        q ∈ books.room.participants := by
      intro q hq hpresent
      rcases (hmem q).mp hpresent with rfl | hpresent
      · exact absurd hq hfresh
      · exact hpresent
    refine ⟨⟨?_, ?_, ?_, k.due_apart, ?_, ?_, ?_, k.subscribed_due⟩, fun _ => ?_,
      iff_of_true ?_ trivial⟩
    · intro q hq
      rcases (hmem q).mp hq with rfl | hq
      · exact Finset.mem_insert_self ..
      · exact Finset.mem_insert_of_mem (k.present_known q hq)
    · intro q t ht
      exact (hmem q).mpr (Or.inr (k.published_present q t ht))
    · intro r f h
      obtain ⟨hr, hsource⟩ := k.due_known r f h
      exact ⟨Finset.mem_insert_of_mem hr, Finset.mem_insert_of_mem hsource⟩
    · intro r f h hsource
      exact k.due_published r f h (hold _ (k.due_known r f h).2 hsource)
    · intro r f h hr hsource
      obtain ⟨hrknown, hsourceknown⟩ := k.due_known r f h
      exact k.due_reserved r f h (hold _ hrknown hr) (hold _ hsourceknown hsource)
    · intro r t ht
      obtain ⟨f, hf, htrack, hsource⟩ := k.reserved_due r t ht
      exact ⟨f, hf, htrack, (hmem _).mpr (Or.inr hsource)⟩
    · intro r f h hr hsource
      obtain ⟨hrknown, hsourceknown⟩ := k.due_known r f h
      exact hsub r f h (hold _ hrknown hr) (hold _ hsourceknown hsource)
    · intro r f h hr hsource x hx hxsource hxr
      obtain ⟨hrknown, hsourceknown⟩ := k.due_known r f h
      intro htrack
      exact huncontested r f h (hold _ hrknown hr) (hold _ hsourceknown hsource) x
        (k.published_present x _ htrack) hxsource hxr htrack

theorem handleIncomingTrack_follows {p : ParticipantId} {track : TrackRemote}
    (hstep : step books (.handleIncomingTrack p track) = some after) :
    Follows books (.handleIncomingTrack p track) after := by
  simp only [step] at hstep
  split at hstep
  · rename_i hactive
    cases hstep
    have hp : p ∈ books.room.participants := books.room.mem_of_isActive hactive
    have hids := books.room.trackIdsOf_registerTrack p
    have howed : Payable (registerTrack books p track) (owedOnArrival books.room p track.id) := by
      intro r f h
      obtain ⟨q, hq, heq⟩ := List.mem_map.mp h
      cases heq
      obtain ⟨hr, hforward, -⟩ := (books.room.mem_receiversOf p r).mp hq
      exact ⟨hr, books.room.ne_of_shouldForward hforward, by simp [registerTrack, hids]⟩
    have kafter : Kept (registerTrack books p track) := kept_registerTrack k hp
    refine ⟨kept_serve kafter howed, subscribed_serve kafter hsub howed, ?_⟩
    rw [uncontested_serve_iff kafter howed, uncontested_registerTrack_iff hp]
    constructor
    · rintro ⟨⟨-, hold⟩, hnew⟩ -
      refine ⟨fun r hr x hx hxp hxr => ?_, hold⟩
      have hfree := hnew r ⟨p, track.id⟩ (List.mem_map_of_mem hr) x hx hxp hxr
      simpa [registerTrack, hids, hxp] using hfree
    · intro h
      obtain ⟨hnew, hold⟩ := h hactive
      refine ⟨⟨huncontested, hold⟩, fun r f hf x hx hxsource hxr => ?_⟩
      obtain ⟨q, hq, heq⟩ := List.mem_map.mp hf
      cases heq
      have hfree := hnew r hq x hx hxsource hxr
      simpa [registerTrack, hids, hxsource] using hfree
  · cases hstep

theorem subscribeExisting_follows {r : ParticipantId}
    (hstep : step books (.subscribeExisting r) = some after) :
    Follows books (.subscribeExisting r) after := by
  simp only [step] at hstep
  split at hstep
  · rename_i hready
    cases hstep
    obtain ⟨hactive, hpeer⟩ := Bool.and_eq_true_iff.mp hready
    have howed : Payable books (owedToLateJoiner books.room r) := by
      intro q f h
      obtain ⟨g, hg, heq⟩ := List.mem_map.mp h
      cases heq
      obtain ⟨hforward, htrack⟩ := (books.room.mem_existingTracks r f).mp hg
      exact ⟨books.room.mem_of_isActive hactive, books.room.ne_of_shouldForward hforward, htrack⟩
    refine ⟨kept_serve k howed, subscribed_serve k hsub howed, ?_⟩
    rw [uncontested_serve_iff k howed]
    constructor
    · rintro ⟨-, hnew⟩ - - f hf
      exact hnew r f (List.mem_map_of_mem hf)
    · intro h
      refine ⟨huncontested, fun q f hf => ?_⟩
      obtain ⟨g, hg, heq⟩ := List.mem_map.mp hf
      cases heq
      exact h hactive hpeer f hg
  · cases hstep

theorem answer_follows {r : ParticipantId} (hstep : step books (.answer r) = some after) :
    Follows books (.answer r) after := by
  simp only [step] at hstep
  split at hstep
  · cases hstep
    obtain ⟨hparticipants, htracks, hforwarded⟩ := promote_frame books.room r
    have hids : ∀ q, (promote books.room r).trackIdsOf q = books.room.trackIdsOf q := by
      simp [Room.trackIdsOf, htracks]
    refine ⟨?_, fun _ => ?_, iff_of_true ?_ trivial⟩
    · constructor <;> simp only [hparticipants, hforwarded, hids]
      · exact k.present_known
      · exact k.published_present
      · exact k.due_known
      · exact k.due_apart
      · exact k.due_published
      · exact k.due_reserved
      · exact k.reserved_due
      · exact k.subscribed_due
    · simpa [Subscribed, hparticipants] using hsub
    · simpa [Uncontested, hparticipants, hids] using huncontested
  · cases hstep

theorem removeParticipant_follows {p : ParticipantId}
    (hstep : step books (.removeParticipant p) = some after) :
    Follows books (.removeParticipant p) after := by
  simp only [step] at hstep
  split at hstep
  · rename_i hp
    cases hstep
    have hmem : ∀ q, q ∈ (books.room.removeParticipant p).1.participants ↔
        q ≠ p ∧ q ∈ books.room.participants := by
      simp
    have hids := Room.trackIdsOf_removeParticipant hp
    have hforwarded := Room.removeParticipant_forwardedTracks hp
    refine ⟨⟨?_, ?_, k.due_known, k.due_apart, ?_, ?_, ?_, k.subscribed_due⟩, fun _ => ?_,
      iff_of_true ?_ trivial⟩
    · intro q hq
      exact k.present_known q ((hmem q).mp hq).2
    · intro q t ht
      simp only [hids] at ht
      split at ht
      · cases ht
      · rename_i hq
        exact (hmem q).mpr ⟨hq, k.published_present q t ht⟩
    · intro r f h hsource
      obtain ⟨hsourcep, hsource⟩ := (hmem _).mp hsource
      simpa [hids, hsourcep] using k.due_published r f h hsource
    · intro r f h hr hsource
      obtain ⟨hrp, hr⟩ := (hmem _).mp hr
      obtain ⟨hsourcep, hsource⟩ := (hmem _).mp hsource
      have hfree := huncontested r f h hr hsource p hp hsourcep.symm hrp.symm
      have hreserved := k.due_reserved r f h hr hsource
      simp [hforwarded, hrp, hfree, hreserved]
    · intro r t ht
      by_cases hrp : r = p
      · simp [hforwarded, hrp] at ht
      · simp only [hforwarded, Room.setAt_clearTracks, hrp, if_false, Finset.mem_filter] at ht
        obtain ⟨f, hf, htrack, hsource⟩ := k.reserved_due r t ht.1
        have hsourcep : f.source ≠ p := by
          rintro rfl
          exact ht.2 (htrack ▸ k.due_published r f hf hsource)
        exact ⟨f, hf, htrack, (hmem _).mpr ⟨hsourcep, hsource⟩⟩
    · intro r f h hr hsource
      exact hsub r f h ((hmem _).mp hr).2 ((hmem _).mp hsource).2
    · intro r f h hr hsource x hx hxsource hxr
      obtain ⟨hxp, hx⟩ := (hmem _).mp hx
      simpa [hids, hxp] using
        huncontested r f h ((hmem _).mp hr).2 ((hmem _).mp hsource).2 x hx hxsource hxr
  · cases hstep

end Operations

theorem step_follows (k : Kept books) (h : PerSource books) {operation : Operation}
    (hstep : step books operation = some after) : Follows books operation after := by
  have huncontested := (k.undisturbed_iff h.1).mp h.2
  cases operation with
  | addParticipant connection => exact addParticipant_follows k h.1 huncontested hstep
  | handleIncomingTrack p track => exact handleIncomingTrack_follows k h.1 huncontested hstep
  | subscribeExisting r => exact subscribeExisting_follows k h.1 huncontested hstep
  | answer r => exact answer_follows k h.1 huncontested hstep
  | removeParticipant p => exact removeParticipant_follows k h.1 huncontested hstep

theorem idle_distinct {operation : Operation} (hidle : step books operation = none) :
    IdsDistinct books operation := by
  cases operation with
  | handleIncomingTrack p track =>
    intro hactive
    simp [step, hactive] at hidle
  | subscribeExisting r =>
    intro hactive hpeer
    simp [step, hactive, hpeer] at hidle
  | _ => trivial

end Step

/-- Subscriptions are per source and removals leave others alone in every state of a run
exactly when no step of it makes a receiver's track share its id with another one. -/
theorem perSource_iff (roomId : RoomId) (operations : List Operation) :
    (system roomId).Always PerSource (system roomId).init operations ↔
      (system roomId).Guarded IdsDistinct (system roomId).init operations := by
  refine System.always_iff_guarded (J := Kept) ?_ ?_ ?_ (kept_initial roomId) ?_ operations
  · exact fun books operation after k h hstep => (step_follows k h hstep).kept
  · exact fun books operation after k h hstep => (step_follows k h hstep).keeps_iff
  · exact fun books operation => idle_distinct
  · constructor
    · intro r f h
      simp [system] at h
    · intro x r f hx
      simp [system, Room.new] at hx

def connection (id : ParticipantId) : ParticipantConnection where
  participant := Participant.new id id
  peerConnection := some { participantId := id }

/-- A client comes back while its old session is still there, and both publish the camera. -/
def sameCameraTwice : List Operation :=
  [.addParticipant (connection "old"), .addParticipant (connection "viewer"),
    .handleIncomingTrack "old" { id := "camera", streamId := "main" },
    .addParticipant (connection "new"),
    .handleIncomingTrack "new" { id := "camera", streamId := "main" },
    .removeParticipant "old"]

/-- The viewer gets no subscription for the new session's camera, neither when it arrives
nor after the old session has gone. -/
theorem sameCameraTwice_unsubscribed :
    ¬ (system "r").Always PerSource (system "r").init sameCameraTwice := by
  refine System.not_always_of_run
    (fun books => decide (("viewer", Forward.mk "new" "camera") ∈ books.due) &&
      decide ("viewer" ∈ books.room.participants) &&
      decide ("new" ∈ books.room.participants) &&
      decide (("viewer", Forward.mk "new" "camera") ∉ books.subscribed)) (by decide) ?_
  intro books hfails h
  obtain ⟨⟨⟨hdue, hviewer⟩, hnew⟩, hmissing⟩ := by simpa using hfails
  exact hmissing (h.1 "viewer" ⟨"new", "camera"⟩ hdue (by simpa using hviewer)
    (by simpa using hnew))

end OpenMeet.SourceBooks
