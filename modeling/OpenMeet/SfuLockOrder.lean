import OpenMeet.SfuTasks

/-!
The SFU's tasks take their locks in order: the repository's with nothing else,
a room's, one peer connection's, one of the room's maps'. So they never wait
for one another in a cycle, and no task for itself.
-/
namespace OpenMeet.SfuLockOrder

open KeyedMap TransitionSystem Messages RoomState Repository SignalingServer MediaTasks LockOrder
  SfuTasks

def lockRank : SfuLock → Nat
  | .repository => 0
  | .room _ => 1
  | .peerConnection _ => 2
  | .map _ _ => 3

/-- The program takes no lock below the level. -/
abbrev From {Result : Type} (level : Nat) (p : SfuProgram Result) : Prop :=
  RunsBelow lockRank level p

section Locks

variable {Result : Type} {mode : Mode} {p : SfuProgram Result}

theorem withMap_from {ref : RoomRef} {map : RoomMap} (hp : From 4 p) :
    From 3 (.withLock (.map ref map) mode p) :=
  .withLock (Nat.le_refl 3) hp

theorem withPeerConnection_from {peer : PeerRef} (hp : From 3 p) :
    From 2 (.withLock (.peerConnection peer) mode p) :=
  .withLock (Nat.le_refl 2) hp

theorem withRoom_from {ref : RoomRef} (hp : From 2 p) : From 1 (.withLock (.room ref) mode p) :=
  .withLock (Nat.le_refl 1) hp

theorem withRepository_from (hp : From 1 p) : From 0 (.withLock .repository mode p) :=
  .withLock (Nat.le_refl 0) hp

end Locks

section Maps

variable (ref : RoomRef) (participantId : ParticipantId)

theorem retireSendersFrom_from : From 3 (retireSendersFrom ref participantId) := by
  refine .bind (withMap_from ?_) fun stale => .inSomeOrder fun items => .forEach ?_ items
  · exact .bind .access fun stale => .bind .access fun _ => .done stale
  · intro receiverId
    refine .bind .access fun peer => ?_
    cases peer with
    | none => exact .done ()
    | some peer => exact .start _

theorem trackIsNegotiatedOrPending_from (trackId : TrackId) :
    From 3 (trackIsNegotiatedOrPending ref participantId trackId) :=
  .bind (withMap_from .access) fun _ => .ite (.done true) (withMap_from .access)

theorem reserveForwardedTrack_from (trackId : TrackId) :
    From 3 (reserveForwardedTrack ref participantId trackId) :=
  withMap_from (.bind .access fun _ => .bind .access fun _ => .done _)

theorem releaseForwardedTrack_from (trackId : TrackId) :
    From 3 (releaseForwardedTrack ref participantId trackId) :=
  withMap_from .access

theorem recordForwardedSender_from (f : Forward) :
    From 3 (recordForwardedSender ref participantId f) :=
  withMap_from .access

theorem markPending_from (trackIds : List TrackId) :
    From 3 (markPending ref participantId trackIds) :=
  withMap_from .access

theorem addExisting_from (f : Forward) : From 3 (addExisting ref participantId f) := by
  refine .bind (reserveForwardedTrack_from ref participantId f.track) fun _ =>
    .ite (.bind .choose fun _ => .ite ?_ ?_) (.done false)
  · exact .bind (recordForwardedSender_from ref participantId f) fun _ => .done true
  · exact .bind (releaseForwardedTrack_from ref participantId f.track) fun _ => .done false

theorem addAllExisting_from (existing : List Forward) :
    From 3 (addAllExisting ref participantId existing) := by
  induction existing with
  | nil => exact .done []
  | cons f rest ih =>
    exact .bind (addExisting_from ref participantId f) fun _ => .bind ih fun _ => .done _

theorem promotePending_from (client : Client) : From 3 (promotePending client ref) :=
  .bind (withMap_from (.bind .access fun _ => .bind .access fun _ => .done _)) fun _ =>
    .ite (withMap_from .access) (.done ())

theorem missingTrackIds_from (client : Client) : From 3 (missingTrackIds client ref) :=
  .bind (withMap_from .access) fun _ => .bind (withMap_from .access) fun _ =>
    .bind (withMap_from .access) fun _ => .bind .access fun _ => .done _

end Maps

section PeerConnections

variable (ref : RoomRef) (peer : PeerRef) (participantId : ParticipantId)

theorem closePeerConnection_from (peer : Option PeerRef) : From 2 (closePeerConnection peer) := by
  cases peer with
  | none => exact .done ()
  | some peer => exact .bind (withPeerConnection_from .choose) fun _ => .done ()

theorem removeParticipant_from : From 2 (removeParticipant ref participantId) := by
  have hmap : ∀ {map} {f : Room → Room} (hf : ∀ room, (f room).id = room.id),
      From 2 (.withLock (.map ref map) .exclusive (writeRoom ref f hf)) :=
    fun _ => (withMap_from .access).mono (Nat.le_succ 2)
  refine .bind .access fun _ => .ite ?_ (.done ())
  refine .bind .access fun peer => .bind .access fun _ => ?_
  refine .bind (closePeerConnection_from peer) fun _ => .bind .access fun removed => ?_
  refine .bind .access fun _ => .bind (hmap _) fun _ => .bind (hmap _) fun _ => ?_
  exact .bind (hmap _) fun _ => (retireSendersFrom_from ref participantId).mono (Nat.le_succ 2)

theorem removeParticipants_from (participantIds : List ParticipantId) :
    From 2 (.inSomeOrder participantIds (.forEach (removeParticipant ref))) :=
  .inSomeOrder fun items => .forEach (removeParticipant_from ref) items

theorem offerUntilStable_from (attempts : Nat) : From 2 (offerUntilStable peer attempts) := by
  induction attempts with
  | zero => exact .done _
  | succ attempts ih => exact .bind (withPeerConnection_from .choose) fun _ => .ite ih (.done _)

theorem retireForwardedSenders_from : From 2 (retireForwardedSenders peer) :=
  .bind (withPeerConnection_from .choose) fun _ => .bind (offerUntilStable_from peer _) fun _ =>
    .done ()

theorem renegotiate_from (trackId : TrackId) (attempts : Nat) :
    From 2 (renegotiate ref peer participantId trackId attempts) := by
  induction attempts with
  | zero => exact .done ()
  | succ attempts ih =>
    have hcheck := trackIsNegotiatedOrPending_from ref participantId trackId
    refine .bind (hcheck.mono (Nat.le_succ 2)) fun _ =>
      .ite (.done ()) (.bind (withPeerConnection_from .choose) fun result => ?_)
    cases result with
    | collision => exact ih
    | failed => exact .done ()
    | created =>
      exact .bind .choose fun _ =>
        .ite ((markPending_from ref participantId [trackId]).mono (Nat.le_succ 2)) (.done ())

theorem forwardTrackTo_from (f : Forward) : From 2 (forwardTrackTo ref f participantId) := by
  refine .bind .access fun peer => ?_
  cases peer with
  | none => exact .done ()
  | some peer =>
    have hreserve := reserveForwardedTrack_from ref participantId f.track
    refine .bind (hreserve.mono (Nat.le_succ 2)) fun _ => .ite ?_ (.done ())
    refine withPeerConnection_from (.bind .choose fun _ => .ite ?_ ?_)
    · refine .bind .choose fun _ => .ite ?_ (.done ())
      exact .bind (recordForwardedSender_from ref participantId f) fun _ => .start _
    · exact releaseForwardedTrack_from ref participantId f.track

theorem handleIncomingTrack_from (track : TrackRemote) :
    From 2 (handleIncomingTrack ref participantId track) :=
  .bind .access fun _ => .bind .access fun _ =>
    .inSomeOrder fun items => .forEach (fun id => forwardTrackTo_from ref id _) items

end PeerConnections

section Rooms

variable (client : Client)

theorem getRoom_from (roomId : RoomId) : From 0 (getRoom roomId) := withRepository_from .access

theorem inActiveRoom_from {mode : Mode} {body : RoomRef → SfuProgram Unit}
    (hbody : ∀ ref, From 2 (body ref)) : From 0 (inActiveRoom client mode body) := by
  refine .bind (getRoom_from client.roomId) fun ref => ?_
  cases ref with
  | none => exact .done ()
  | some ref =>
    exact (withRoom_from (.bind .access fun _ => .ite (hbody ref) (.done ()))).mono (Nat.zero_le 1)

theorem withClientConnection_from {body : RoomRef → PeerRef → SfuProgram Unit}
    (hbody : ∀ ref peer, From 2 (body ref peer)) : From 0 (withPeerConnection client body) := by
  refine inActiveRoom_from client fun ref => .bind .access fun peer => ?_
  cases peer with
  | none => exact .done ()
  | some peer => exact hbody ref peer

theorem offer_from : From 0 (offer client) := by
  refine withClientConnection_from client fun ref peer => withPeerConnection_from ?_
  refine .bind .choose fun _ => .bind .choose fun _ => .ite ?_ (.done ())
  exact .bind .access fun _ => .ite (.start _) (.done ())

theorem lateJoiner_from (ref : RoomRef) (peer : PeerRef) (existing : List Forward) :
    From 1 (lateJoiner client ref peer existing) := by
  refine .bind (withRoom_from .access) fun _ => .ite ?_ (.done ())
  refine .bind ((withPeerConnection_from ?_).mono (Nat.le_succ 1)) fun _ => ?_
  · exact .inSomeOrder fun items => addAllExisting_from ref client.participantId items
  refine .bind ((offerUntilStable_from peer _).mono (Nat.le_succ 1)) fun _ => .ite ?_ (.done ())
  refine .bind (withRoom_from .access) fun _ => .ite (.bind .choose fun _ => ?_) (.done ())
  exact .ite ((markPending_from ref client.participantId _).mono (by decide)) (.done ())

theorem answer_from : From 0 (answer client) :=
  withClientConnection_from client fun _ _ =>
    .bind (withPeerConnection_from .choose) fun _ => .ite (.start _) (.done ())

theorem retry_from (ref : RoomRef) (peer : PeerRef) : From 1 (retry client ref peer) := by
  refine withRoom_from (.bind .access fun _ => .ite (withPeerConnection_from ?_) (.done ()))
  refine .bind (promotePending_from ref client) fun _ => ?_
  refine .bind (missingTrackIds_from ref client) fun missing => .ite ?_ (.done ())
  refine .bind .choose fun _ => .ite (.bind .choose fun _ => ?_) (.done ())
  exact .ite (markPending_from ref client.participantId missing) (.done ())

theorem iceCandidate_from : From 0 (iceCandidate client) :=
  withClientConnection_from client fun _ _ =>
    .bind (withPeerConnection_from .choose) fun _ => .done ()

theorem incomingTrack_from (ref : RoomRef) (track : TrackRemote) :
    From 1 (incomingTrack client ref track) :=
  withRoom_from (.bind .access fun _ =>
    .ite (handleIncomingTrack_from ref client.participantId track) (.done ()))

theorem joinRoom_from (ref : RoomRef) (req : JoinRequest) : From 1 (joinRoom client ref req) := by
  have hregister : ∀ peer, From 2 (.withLock (.peerConnection peer) .exclusive (pure ())) :=
    fun peer => withPeerConnection_from (.done ())
  refine withRoom_from (.bind .access fun _ => .ite (.done ()) (.bind .access fun _ => ?_))
  refine .ite (.bind .choose fun _ => .ite (.bind .access fun peer => ?_) (.done ())) (.done ())
  refine .bind (hregister peer) fun _ => .bind (hregister peer) fun _ => .bind .access fun _ => ?_
  refine .ite (.bind (withPeerConnection_from .choose) fun _ => .done ()) ?_
  exact .bind .access fun _ => .access

theorem findOrCreateRoom_from (roomId : RoomId) : From 0 (findOrCreateRoom roomId) :=
  .bind (withRepository_from .access) fun _ => .ite (getRoom_from roomId)
    (.bind (withRepository_from .access) fun _ => .ite (getRoom_from roomId) (.done none))

theorem join_from (req : JoinRequest) : From 0 (join client req) := by
  refine .bind .choose fun _ => .ite (.bind (findOrCreateRoom_from req.roomId) fun ref => ?_)
    (.done ())
  cases ref with
  | none => exact .done ()
  | some ref =>
    exact .bind .choose fun _ =>
      .ite ((joinRoom_from client ref req).mono (Nat.zero_le 1)) (.done ())

end Rooms

section Cleanup

variable (roomId : RoomId) (participantId : ParticipantId)

theorem deleteEmpty_from (empty : Bool) : From 0 (deleteEmpty roomId empty) :=
  .ite (withRepository_from .access) (.done ())

theorem cleanupParticipantFromRoom_from :
    From 0 (cleanupParticipantFromRoom roomId participantId) := by
  refine .bind (getRoom_from roomId) fun ref => ?_
  cases ref with
  | none => exact .done false
  | some ref =>
    refine .bind ((withRoom_from (.bind .access fun _ => .ite ?_ (.done _))).mono (Nat.zero_le 1))
      fun _ => .bind (deleteEmpty_from roomId _) fun _ => .done _
    refine .bind (removeParticipant_from ref participantId) fun _ => .bind .access fun shares => ?_
    exact .bind (removeParticipants_from ref shares) fun _ => .bind .access fun _ => .done _

theorem cleanupFirst_from (roomIds : List RoomId) :
    From 0 (cleanupFirst participantId roomIds) := by
  induction roomIds with
  | nil => exact .done ()
  | cons roomId rest ih =>
    exact .bind (cleanupParticipantFromRoom_from roomId participantId) fun _ => .ite (.done ()) ih

theorem cleanup_from (knownRoomId : Option RoomId) :
    From 0 (cleanup knownRoomId participantId) := by
  cases knownRoomId with
  | some roomId =>
    exact .bind (cleanupParticipantFromRoom_from roomId participantId) fun _ => .done ()
  | none =>
    exact .bind (withRepository_from .access) fun _ =>
      .inSomeOrder fun items => cleanupFirst_from participantId items

theorem denyRoomUser_from (userId : Uuid) : From 0 (denyRoomUser roomId userId) := by
  refine .bind (getRoom_from roomId) fun ref => ?_
  cases ref with
  | none => exact .done ()
  | some ref => exact .access

theorem disconnectUserFromRoom_from (userId : Uuid) :
    From 0 (disconnectUserFromRoom userId roomId) := by
  refine .bind (denyRoomUser_from roomId userId) fun _ => .bind (getRoom_from roomId) fun ref => ?_
  cases ref with
  | none => exact .done ()
  | some ref =>
    exact (withRoom_from (.bind .access fun ids => removeParticipants_from ref ids)).mono
      (Nat.zero_le 1)

theorem revokeAndCloseRoom_from : From 0 (revokeAndCloseRoom roomId) := by
  refine .bind (withRepository_from .access) fun ref => ?_
  cases ref with
  | none => exact .done ()
  | some ref =>
    exact (withRoom_from (.bind .access fun ids => removeParticipants_from ref ids)).mono
      (Nat.zero_le 1)

end Cleanup

theorem body_from (task : SfuTask) : From 0 (body task) := by
  cases task with
  | join client req => exact join_from client req
  | offer client => exact offer_from client
  | lateJoiner client ref peer existing =>
    exact (lateJoiner_from client ref peer existing).mono (Nat.zero_le 1)
  | answer client => exact answer_from client
  | retry client ref peer => exact (retry_from client ref peer).mono (Nat.zero_le 1)
  | iceCandidate client => exact iceCandidate_from client
  | roomRequest client name recent now timestamp request =>
    exact inActiveRoom_from client fun _ => .access
  | incomingTrack client ref track =>
    exact (incomingTrack_from client ref track).mono (Nat.zero_le 1)
  | renegotiation ref peer receiverId trackId =>
    exact (renegotiate_from ref peer receiverId trackId _).mono (Nat.zero_le 2)
  | retirement peer => exact (retireForwardedSenders_from peer).mono (Nat.zero_le 2)
  | cleanup knownRoomId participantId => exact cleanup_from participantId knownRoomId
  | eviction userId roomIds =>
    exact .inSomeOrder fun items => .forEach (fun id => disconnectUserFromRoom_from id userId) items
  | closure roomIds => exact .inSomeOrder fun items => .forEach revokeAndCloseRoom_from items

def sfuSystem : System (Machine Sfu SfuLock SfuTask) (LockOrder.Action SfuTask) :=
  system sfuTasks initial

theorem run_sfu_consistent {actions : List (LockOrder.Action SfuTask)}
    {s : Machine Sfu SfuLock SfuTask} (hrun : sfuSystem.run actions = some s) :
    Consistent lockRank s :=
  run_consistent (fun task => (body_from task).ordered) hrun

/-- In no interleaving of any tasks do tasks wait for one another in a cycle, and none waits for a
lock it already holds. -/
theorem sfuLocks_noCycle (actions : List (LockOrder.Action SfuTask))
    (s : Machine Sfu SfuLock SfuTask) (hrun : sfuSystem.run actions = some s) :
    NoCycle s ∧ NoReentry s :=
  ⟨(run_sfu_consistent hrun).noCycle, (run_sfu_consistent hrun).noReentry⟩

def ada : Client := ⟨"ada", "room", none⟩

def locked (id : Nat) : List (LockOrder.Action SfuTask) := [.run id 0, .grant id]

/-- Until a lock is taken and what it guards has been read, or for some operations without one. -/
def underLock (id operations : Nat) : List (LockOrder.Action SfuTask) :=
  locked id ++ List.replicate operations (.run id 0)

/-- Ada has joined. Her offer is being handled when her socket closes; then comes a candidate. -/
def offerCleanupCandidate : List (LockOrder.Action SfuTask) :=
  [.start (.join ada ⟨"room", "Ada", none, none⟩), .run 0 0] ++ underLock 0 2 ++ underLock 0 2 ++
    underLock 0 3 ++ underLock 0 4 ++ underLock 0 1 ++ underLock 0 5 ++
  [.start (.offer ada)] ++ underLock 1 2 ++ underLock 1 2 ++ locked 1 ++
  [.start (.cleanup (some "room") "ada")] ++ underLock 2 3 ++
  [.start (.iceCandidate ada)] ++ underLock 3 3

def waitsAt (lock : SfuLock) : Thread Sfu SfuLock SfuTask → Bool
  | .waiting lock' _ => lock' = lock
  | .running _ => false

theorem blocked_of_waitsAt {s : Machine Sfu SfuLock SfuTask} {id : Nat} {lock : SfuLock}
    (h : (s.threads.lookup id).any (waitsAt lock) = true)
    (hwaiters : id ∈ (s.queues lock).waiters) : Blocked s id lock := by
  obtain ⟨thread, hid, hwaits⟩ := (Option.any_eq_true ..).mp h
  cases thread with
  | running code => cases hwaits
  | waiting lock' code =>
    obtain rfl : lock' = lock := of_decide_eq_true hwaits
    exact ⟨⟨code, hid⟩, hwaiters⟩

/-- The cleanup waits for the offer, and the candidate, which only reads, waits behind it. -/
theorem offerCleanupCandidate_noCycle : ∃ s ∈ sfuSystem.run offerCleanupCandidate,
    WaitsFor s 2 1 ∧ WaitsFor s 3 2 ∧ NoCycle s ∧ NoReentry s := by
  obtain ⟨s, hs, hcleanup, hcandidate, hqueue⟩ : ∃ s ∈ sfuSystem.run offerCleanupCandidate,
      (s.threads.lookup 2).any (waitsAt (.room 0)) = true ∧
      (s.threads.lookup 3).any (waitsAt (.room 0)) = true ∧
      s.queues (.room 0) = [(1, .shared), (2, .exclusive), (3, .shared)] := by
    decide +kernel
  refine ⟨s, hs, ⟨.room 0, blocked_of_waitsAt hcleanup ?_, ?_⟩,
    ⟨.room 0, blocked_of_waitsAt hcandidate ?_, ?_⟩, sfuLocks_noCycle _ s hs⟩
  all_goals rw [hqueue]; decide

/-- Some task can always go on, or wake up with the lock it asked for. -/
theorem exists_unblocked_task {actions : List (LockOrder.Action SfuTask)}
    {s : Machine Sfu SfuLock SfuTask} (hrun : sfuSystem.run actions = some s) {id : Nat}
    (hid : id ∈ s.threads) : ∃ other ∈ s.threads, ∀ lock, ¬ Blocked s other lock :=
  (run_sfu_consistent hrun).exists_unblocked hid

end OpenMeet.SfuLockOrder
