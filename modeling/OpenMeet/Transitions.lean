import OpenMeet.SignalingSteps

/-!
What a step of the signaling server can do. The executable step function is
inverted once: every step it takes is one of the transitions listed here, with
its guards and its result. Moves of a receive task that touch no room, moves of
a socket task and moves of an eviction are relations of their own, so that an
invariant about rooms looks at each kind of move only once.
-/
namespace OpenMeet.Transitions

open KeyedMap Messages RoomState Repository SignalingServer SignalingSteps

/-- Move a receive task on and queue messages to its client. -/
@[simp] def advance (s : Server) (p : ParticipantId) (task : RecvTask)
    (messages : List SignalingMessage) : Server :=
  { s with
    recvTask := Function.update s.recvTask p task
    sent := Function.update s.sent p (s.queue p messages) }

/-- Moves of a receive task outside peer setup that change nothing but the task. -/
inductive RecvMove (env : Environment) (s : Server) (p : ParticipantId) :
    Action → RecvTask → RecvTask → List SignalingMessage → Prop
  | report (message e : _) :
      RecvMove env s p (.receive p message) .receiving .receiving [.error e]
  | reject (message e : _) :
      RecvMove env s p (.receive p message) .receiving .stopped [.error e]
  | startJoin (message : _) (req : JoinRequest) (houtside : s.currentRoomId p = none) :
      RecvMove env s p (.receive p message) .receiving (.authorizing req) []
  | startRequest (message : _) (roomId : RoomId) (request : RoomRequest)
      (hinside : s.currentRoomId p = some roomId) :
      RecvMove env s p (.receive p message) .receiving (.findingRoom roomId request) []
  | authorized (req : JoinRequest) (answer : _)
      (hmember : ∀ u, (s.identity p).userId = some u → (u, req.roomId) ∉ s.removedMembers) :
      RecvMove env s p (.authorize p answer) (.authorizing req)
        (.checkingRoom req .authorized) []
  | legacy (req : JoinRequest) (answer : _) (hlegacy : env.isCallRoom req.roomId = false) :
      RecvMove env s p (.authorize p answer) (.authorizing req) (.admitting req) []
  | denied (req : JoinRequest) (answer e : _) :
      RecvMove env s p (.authorize p answer) (.authorizing req) .receiving [.error e]
  | admitted (req : JoinRequest) (answer : _) :
      RecvMove env s p (.admitToMeetingRoom p answer) (.admitting req)
        (.checkingRoom req .legacy) []
  | notAdmitted (req : JoinRequest) (answer e : _) :
      RecvMove env s p (.admitToMeetingRoom p answer) (.admitting req) .receiving [.error e]
  | roomFound (req : JoinRequest) (authorization : _)
      (hroom : s.repository.roomExists req.roomId = true) :
      RecvMove env s p (.checkRoom p) (.checkingRoom req authorization)
        (.gettingRoom req authorization) []
  | roomAbsent (req : JoinRequest) (authorization : _)
      (hroom : s.repository.roomExists req.roomId = false) :
      RecvMove env s p (.checkRoom p) (.checkingRoom req authorization)
        (.creatingRoom req authorization) []
  | notCreated (req : JoinRequest) (authorization e : _) :
      RecvMove env s p (.createRoom p) (.creatingRoom req authorization) .receiving [.error e]
  | roomGone (req : JoinRequest) (authorization e : _)
      (hroom : s.repository.getRoom req.roomId = none) :
      RecvMove env s p (.getRoom p) (.gettingRoom req authorization) .receiving [.error e]
  | gotManaged (req : JoinRequest) (ref : RoomRef)
      (hroom : s.repository.getRoom req.roomId = some ref) :
      RecvMove env s p (.getRoom p) (.gettingRoom req .authorized) (.reauthorizing req ref) []
  | gotLegacy (req : JoinRequest) (authorization : _) (ref : RoomRef)
      (hlegacy : authorization ≠ .authorized)
      (hroom : s.repository.getRoom req.roomId = some ref) :
      RecvMove env s p (.getRoom p) (.gettingRoom req authorization) (.lockingRoom req ref) []
  | reauthorized (req : JoinRequest) (ref : RoomRef) (answer : _)
      (hmember : ∀ u, (s.identity p).userId = some u → (u, req.roomId) ∉ s.removedMembers) :
      RecvMove env s p (.reauthorize p answer) (.reauthorizing req ref) (.lockingRoom req ref) []
  | notReauthorized (req : JoinRequest) (ref : RoomRef) (answer e : _)
      (hanswer : authorizeSfuRoom env s p req.roomId answer ≠ some (some .authorized))
      (hresult : (authorizeSfuRoom env s p req.roomId answer).isSome = true) :
      RecvMove env s p (.reauthorize p answer) (.reauthorizing req ref) .receiving [.error e]
  | accessDenied (req : JoinRequest) (ref : RoomRef) (e : _) (hfree : s.writer ref = none)
      (hdenied : (s.room ref).deniesAccess (s.identity p).userId = true ∨
        req.screenShareOf.all (ownerPresent (s.room ref) (s.identity p).userId) = false) :
      RecvMove env s p (.lockRoom p) (.lockingRoom req ref) .receiving [.error e]
  | found (roomId : RoomId) (request : RoomRequest) (ref : RoomRef)
      (hroom : s.repository.getRoom roomId = some ref) :
      RecvMove env s p (.findRoom p) (.findingRoom roomId request)
        (.lockingFor roomId request ref) []
  | notFound (roomId : RoomId) (request : RoomRequest) :
      RecvMove env s p (.findRoom p) (.findingRoom roomId request) .receiving []
  | inactive (roomId : RoomId) (request : RoomRequest) (ref : RoomRef) (now timestamp : Nat) :
      RecvMove env s p (.applyRequest p now timestamp) (.lockingFor roomId request ref)
        .receiving []
  | stop : RecvMove env s p (.stopReceiving p) .receiving .stopped []
  | abort (task : RecvTask) (habort : s.aborted p = true) (hrunning : task ≠ .stopped)
      (hunlocked : ∀ req ref existing history,
        task ≠ .settingUpPeer req ref existing history) :
      RecvMove env s p (.abortReceiver p) task .stopped []

/-- Moves of a socket task that change nothing but the task. -/
inductive SocketMove (s : Server) (p : ParticipantId) : Action → SocketTask → SocketTask → Prop
  | ended (hstopped : s.recvTask p = .stopped) :
      SocketMove s p (.selectReceiver p) .selecting (nextRoom (s.currentRoomId p).toList)
  | listed :
      SocketMove s p (.listRooms p) .listingRooms (nextRoom s.repository.listRooms)
  | skip (roomId : RoomId) (rest : List RoomId) (hroom : s.repository.getRoom roomId = none) :
      SocketMove s p (.findForCleanup p) (.findingRoom roomId rest) (nextRoom rest)
  | found (roomId : RoomId) (ref : RoomRef) (rest : List RoomId)
      (hroom : s.repository.getRoom roomId = some ref) :
      SocketMove s p (.findForCleanup p) (.findingRoom roomId rest)
        (.lockingRoom roomId ref rest)
  | absent (roomId : RoomId) (ref : RoomRef) (rest : List RoomId)
      (habsent : p ∉ (s.room ref).participants) :
      SocketMove s p (.cleanUp p) (.lockingRoom roomId ref rest) (nextRoom rest)

/-- Moves of an eviction that change nothing but its stage. -/
inductive EvictionMove (s : Server) (i : Nat) : Action → EvictionStage → EvictionStage → Prop
  | finish : EvictionMove s i (.denyRoomUser i) (.denying []) .returned
  | unmapped (roomId : RoomId) (rest : List RoomId)
      (hroom : s.repository.getRoom roomId = none) :
      EvictionMove s i (.denyRoomUser i) (.denying (roomId :: rest)) (.finding roomId rest)
  | mapped (roomId : RoomId) (ref : RoomRef) (rest : List RoomId)
      (hroom : s.repository.getRoom roomId = some ref) :
      EvictionMove s i (.denyRoomUser i) (.denying (roomId :: rest)) (.marking roomId ref rest)
  | gone (roomId : RoomId) (rest : List RoomId) (hroom : s.repository.getRoom roomId = none) :
      EvictionMove s i (.findForEviction i) (.finding roomId rest) (.denying rest)
  | found (roomId : RoomId) (ref : RoomRef) (rest : List RoomId)
      (hroom : s.repository.getRoom roomId = some ref) :
      EvictionMove s i (.findForEviction i) (.finding roomId rest) (.evicting roomId ref rest)

/-- Every kind of step, with its guards and the state it leaves. -/
inductive Transition (env : Environment) (s : Server) : Action → Server → Prop
  | idle (p : ParticipantId) (message : SignalingMessage) :
      Transition env s (.receive p message) s
  | connect (p : ParticipantId) (identity : SessionIdentity)
      (hsocket : s.socketTask p = .unopened) :
      Transition env s (.connect p identity)
        { s with
          identity := Function.update s.identity p identity
          recvTask := Function.update s.recvTask p .receiving
          socketTask := Function.update s.socketTask p .selecting }
  | recv (a : Action) (p : ParticipantId) (task : RecvTask) (messages : List SignalingMessage)
      (hmove : RecvMove env s p a (s.recvTask p) task messages) :
      Transition env s a (advance s p task messages)
  | createRoom (p : ParticipantId) (req : JoinRequest) (authorization : SfuRoomAuthorization)
      (repository : InMemoryRoomRepository)
      (htask : s.recvTask p = .creatingRoom req authorization)
      (hcreate : s.repository.createRoom req.roomId = .ok repository) :
      Transition env s (.createRoom p)
        { s with
          repository := repository
          recvTask := Function.update s.recvTask p (.gettingRoom req authorization) }
  | lockRoom (p : ParticipantId) (req : JoinRequest) (ref : RoomRef)
      (htask : s.recvTask p = .lockingRoom req ref) (hfree : s.writer ref = none)
      (haccess : (s.room ref).deniesAccess (s.identity p).userId = false)
      (howner : req.screenShareOf.all (ownerPresent (s.room ref) (s.identity p).userId) = true) :
      Transition env s (.lockRoom p)
        { s with
          writer := Function.update s.writer ref (some p)
          recvTask := Function.update s.recvTask p
            (.settingUpPeer req ref (s.room ref).getParticipantsWithMediaState
              (s.room ref).chatHistory) }
  | failJoin (p : ParticipantId) (peer : Except String Unit) (req : JoinRequest) (ref : RoomRef)
      (existing : List Room.ParticipantInfo) (history : List ChatMessagePayload) (e : String)
      (htask : s.recvTask p = .settingUpPeer req ref existing history)
      (hfail : (∃ e, peer = .error e) ∨
        (s.room ref).deniesAccess (s.identity p).userId = true) :
      Transition env s (.finishJoin p peer)
        (advance (s.setWriter ref none) p .receiving [.error e])
  | abortJoin (p : ParticipantId) (req : JoinRequest) (ref : RoomRef)
      (existing : List Room.ParticipantInfo) (history : List ChatMessagePayload)
      (htask : s.recvTask p = .settingUpPeer req ref existing history)
      (habort : s.aborted p = true) :
      Transition env s (.abortReceiver p) (advance (s.setWriter ref none) p .stopped [])
  | join (p : ParticipantId) (peer : Except String Unit) (req : JoinRequest) (ref : RoomRef)
      (existing : List Room.ParticipantInfo) (history : List ChatMessagePayload)
      (htask : s.recvTask p = .settingUpPeer req ref existing history)
      (hpeer : peer = .ok ())
      (haccess : (s.room ref).deniesAccess (s.identity p).userId = false) :
      Transition env s (.finishJoin p peer) (addToRoom s p req ref existing history)
  | applyRequest (p : ParticipantId) (now timestamp : Nat) (roomId : RoomId)
      (request : RoomRequest) (ref : RoomRef) (recent : List Instant) (room : Room)
      (outbox : Outbox) (hid : room.id = (s.room ref).id)
      (htask : s.recvTask p = .lockingFor roomId request ref) (hfree : s.writer ref = none)
      (hactive : (s.room ref).hasActiveParticipant p (s.identity p).userId = true)
      (hrun : runRequest (s.room ref) p (s.participantName p) (s.recentChatActions p) now
        timestamp request = (room, recent, outbox)) :
      Transition env s (.applyRequest p now timestamp)
        { (s.setRoom ref room hid).deliver outbox with
          recentChatActions := Function.update s.recentChatActions p recent
          recvTask := Function.update s.recvTask p .receiving }
  | endSender (p : ParticipantId) (hsocket : s.socketTask p ≠ .unopened) :
      Transition env s (.endSender p)
        { s with senderEnded := Function.update s.senderEnded p true }
  | selectSender (p : ParticipantId) (hsocket : s.socketTask p = .selecting)
      (hended : s.senderEnded p = true) :
      Transition env s (.selectSender p)
        { s with
          aborted := Function.update s.aborted p true
          socketTask := Function.update s.socketTask p .listingRooms }
  | socket (a : Action) (p : ParticipantId) (task : SocketTask)
      (hmove : SocketMove s p a (s.socketTask p) task) :
      Transition env s a (s.setSocket p task)
  | cleanUp (p : ParticipantId) (roomId : RoomId) (ref : RoomRef) (rest : List RoomId)
      (task : SocketTask) (hsocket : s.socketTask p = .lockingRoom roomId ref rest)
      (hfree : s.writer ref = none) (hmem : p ∈ (s.room ref).participants)
      (htask : task =
        if ((s.room ref).removeWithScreenShares p).1.isEmpty then .deletingRoom roomId
        else .leaving) :
      Transition env s (.cleanUp p)
        (((s.setRoom ref ((s.room ref).removeWithScreenShares p).1
          (Room.removeWithScreenShares_id ..)).deliver
            ((s.room ref).removeWithScreenShares p).2).setSocket p task)
  | deleteRoom (p : ParticipantId) (roomId : RoomId)
      (hsocket : s.socketTask p = .deletingRoom roomId) :
      Transition env s (.deleteRoom p)
        { s with
          repository := s.repository.deleteRoom roomId
          socketTask := Function.update s.socketTask p .leaving }
  | leave (p : ParticipantId) (hsocket : s.socketTask p = .leaving) :
      Transition env s (.leave p) ((s.record (.left p)).setSocket p .closed)
  | commitRemoval (i : Nat) (userId : Uuid) (roomIds : List RoomId)
      (hnew : s.evictions i = none) (hcalls : ∀ roomId ∈ roomIds, env.isCallRoom roomId = true) :
      Transition env s (.commitRemoval i userId roomIds)
        ({ s with
          removedMembers := s.removedMembers ∪ {userId} ×ˢ roomIds.toFinset }.setEviction i
          { userId := userId, roomIds := roomIds, committedAt := s.repository.nextRef,
            stage := .denying roomIds })
  | eviction (a : Action) (i : Nat) (e : Eviction) (stage : EvictionStage)
      (heviction : s.evictions i = some e) (hmove : EvictionMove s i a e.stage stage) :
      Transition env s a (s.setEviction i { e with stage := stage })
  | markDenied (i : Nat) (e : Eviction) (roomId : RoomId) (ref : RoomRef) (rest : List RoomId)
      (heviction : s.evictions i = some e) (hstage : e.stage = .marking roomId ref rest) :
      Transition env s (.markDenied i)
        ((s.setRoom ref ((s.room ref).denyUser e.userId) (Room.denyUser_id ..)).setEviction i
          { e with stage := .finding roomId rest })
  | evict (i : Nat) (e : Eviction) (roomId : RoomId) (ref : RoomRef) (rest : List RoomId)
      (heviction : s.evictions i = some e) (hstage : e.stage = .evicting roomId ref rest)
      (hfree : s.writer ref = none) :
      Transition env s (.evict i)
        (((s.setRoom ref
          ((s.room ref).removeParticipants ((s.room ref).participantsOfUser e.userId)).1
          (Room.removeParticipants_id ..)).deliver
          ((s.room ref).removeParticipants
            ((s.room ref).participantsOfUser e.userId)).2).setEviction i
          { e with stage := .denying rest })
  | startClosure (i : Nat) (roomIds : List RoomId) (hnew : s.closures i = none) :
      Transition env s (.startClosure i roomIds)
        (s.setClosure i { roomIds := roomIds, unmapped := [], stage := .revoking roomIds })
  | finishClosure (i : Nat) (c : Closure) (hclosure : s.closures i = some c)
      (hstage : c.stage = .revoking []) :
      Transition env s (.revokeRoom i) (s.setClosure i { c with stage := .returned })
  | revokeUnmapped (i : Nat) (c : Closure) (roomId : RoomId) (rest : List RoomId)
      (hclosure : s.closures i = some c) (hstage : c.stage = .revoking (roomId :: rest))
      (hroom : s.repository.getRoom roomId = none) :
      Transition env s (.revokeRoom i)
        ({ s with repository := (s.repository.revokeRoom roomId).1 }.setClosure i
          { c with stage := .revoking rest })
  | revokeMapped (i : Nat) (c : Closure) (roomId : RoomId) (ref : RoomRef) (rest : List RoomId)
      (hclosure : s.closures i = some c) (hstage : c.stage = .revoking (roomId :: rest))
      (hroom : s.repository.getRoom roomId = some ref) :
      Transition env s (.revokeRoom i)
        ({ s with repository := (s.repository.revokeRoom roomId).1 }.setClosure i
          { c with unmapped := c.unmapped ++ [ref], stage := .closing ref rest })
  | closeRoom (i : Nat) (c : Closure) (ref : RoomRef) (rest : List RoomId)
      (hclosure : s.closures i = some c) (hstage : c.stage = .closing ref rest)
      (hfree : s.writer ref = none) :
      Transition env s (.closeRoom i)
        (((s.setRoom ref
          ((s.room ref).removeParticipants (s.room ref).participants.keys).1
          (Room.removeParticipants_id ..)).deliver
          ((s.room ref).removeParticipants (s.room ref).participants.keys).2).setClosure i
          { c with stage := .revoking rest })

/-! ## Every step is one of them -/

section Inversion

variable {env : Environment} {s t : Server} {p : ParticipantId} {i : Nat}

private theorem setRecv_eq_advance (task : RecvTask) :
    s.setRecv p task = advance s p task [] := by
  simp only [Server.setRecv, advance, Server.queue_nil, Function.update_eq_self]

private theorem recvTransition {a : Action} {task task' : RecvTask}
    {messages : List SignalingMessage} (htask : s.recvTask p = task)
    (hmove : RecvMove env s p a task task' messages) :
    Transition env s a (advance s p task' messages) :=
  .recv a p task' messages (htask ▸ hmove)

private theorem receive_transition {message : SignalingMessage}
    (h : receive env s p message = some t) : Transition env s (.receive p message) t := by
  unfold receive at h
  split at h
  · rename_i htask
    have hrequest : ∀ roomRequest : RoomRequest,
        Transition env s (.receive p message) (request s p roomRequest) := by
      intro roomRequest
      unfold request
      cases hroom : s.currentRoomId p with
      | none => exact .idle p message
      | some roomId =>
        simp only [setRecv_eq_advance]
        exact recvTransition htask (.startRequest message roomId roomRequest hroom)
    split at h
    · cases h
      exact recvTransition htask (.reject _ _)
    · cases h
      exact recvTransition htask (.report _ _)
    · cases hroom : s.currentRoomId p with
      | some roomId =>
        simp only [hroom, Option.some.injEq] at h
        subst h
        exact .idle p _
      | none =>
        simp only [hroom] at h
        split at h
        · cases h
          exact recvTransition htask (.report _ _)
        · cases h
          simp only [setRecv_eq_advance]
          exact recvTransition htask (.startJoin _ _ hroom)
    · cases h
      exact hrequest _
    · cases h
      exact hrequest _
    · split at h
      · cases h
        exact hrequest _
      · cases h
        exact .idle p _
    · cases h
      exact .idle p _
  · cases h

/-- An authorization that is not denied was not answered from removed membership. -/
private theorem authorizeSfuRoom_authorized {roomId : RoomId}
    {answer : Option SfuRoomAuthorizationSnapshot}
    (h : authorizeSfuRoom env s p roomId answer = some (some .authorized)) :
    ∀ u, (s.identity p).userId = some u → (u, roomId) ∉ s.removedMembers := by
  intro u hu
  cases answer with
  | none => simp [authorizeSfuRoom] at h
  | some answer =>
    simp only [authorizeSfuRoom] at h
    split at h
    · rename_i hpossible
      simp only [Option.some.injEq, classifySfuRoomAuthorization] at h
      split at h
      · cases h
      · split at h
        · cases h
        · split at h
          · rename_i haccepted
            simp only [hu, Option.isSome_some, Bool.true_and] at haccepted
            simpa [answerPossible, haccepted, hu] using (Bool.and_eq_true_iff.mp hpossible).2
          · cases h
    · cases h

private theorem authorizeSfuRoom_legacy {roomId : RoomId}
    {answer : Option SfuRoomAuthorizationSnapshot}
    (h : authorizeSfuRoom env s p roomId answer = some (some .legacy)) :
    env.isCallRoom roomId = false := by
  cases answer with
  | none => simp [authorizeSfuRoom] at h
  | some answer =>
    simp only [authorizeSfuRoom] at h
    split at h
    · rename_i hpossible
      simp only [Option.some.injEq, classifySfuRoomAuthorization] at h
      split at h
      · cases h
      · rename_i hrevoked
        split at h
        · rename_i hmanaged
          have hunmanaged : answer.isCallSessionRoom = false := by simpa using hmanaged
          have hleft := (Bool.and_eq_true_iff.mp hpossible).1
          simpa [hrevoked, hunmanaged] using hleft
        · split at h <;> cases h
    · cases h

private theorem authorize_transition {answer : Option SfuRoomAuthorizationSnapshot}
    (h : authorize env s p answer = some t) : Transition env s (.authorize p answer) t := by
  unfold authorize at h
  split at h
  · rename_i req htask
    cases hauth : authorizeSfuRoom env s p req.roomId answer with
    | none => simp [hauth] at h
    | some result =>
      simp only [hauth] at h
      match result, hauth, h with
      | none, _, h =>
        cases h
        exact recvTransition htask (.denied _ _ _)
      | some .denied, _, h =>
        cases h
        exact recvTransition htask (.denied _ _ _)
      | some .legacy, hauth, h =>
        cases h
        rw [setRecv_eq_advance]
        exact recvTransition htask (.legacy _ _ (authorizeSfuRoom_legacy hauth))
      | some .authorized, hauth, h =>
        cases h
        rw [setRecv_eq_advance]
        exact recvTransition htask (.authorized _ _ (authorizeSfuRoom_authorized hauth))
  · cases h

private theorem admitToMeetingRoom_transition {answer : Option MeetingRoomAdmission}
    (h : admitToMeetingRoom s p answer = some t) :
    Transition env s (.admitToMeetingRoom p answer) t := by
  unfold admitToMeetingRoom at h
  split at h
  · rename_i req htask
    split at h
    · cases h
      exact recvTransition htask (.notAdmitted _ _ _)
    · cases h
      rw [setRecv_eq_advance]
      exact recvTransition htask (.admitted _ _)
    · cases h
      exact recvTransition htask (.notAdmitted _ _ _)
  · cases h

private theorem checkRoom_transition (h : checkRoom s p = some t) :
    Transition env s (.checkRoom p) t := by
  unfold checkRoom at h
  split at h
  · rename_i req authorization htask
    simp only [setRecv_eq_advance] at h
    split at h
    · rename_i hroom
      cases h
      exact recvTransition htask (.roomFound _ _ hroom)
    · rename_i hroom
      cases h
      exact recvTransition htask (.roomAbsent _ _ (by simpa using hroom))
  · cases h

private theorem createRoom_transition (h : createRoom s p = some t) :
    Transition env s (.createRoom p) t := by
  unfold SignalingSteps.createRoom at h
  split at h
  · rename_i req authorization htask
    split at h
    · cases h
      exact recvTransition htask (.notCreated _ _ _)
    · rename_i repository hcreate
      cases h
      exact .createRoom p req authorization repository htask hcreate
  · cases h

private theorem getRoom_transition (h : getRoom s p = some t) :
    Transition env s (.getRoom p) t := by
  unfold SignalingSteps.getRoom at h
  split at h
  · rename_i req authorization htask
    simp only [setRecv_eq_advance] at h
    split at h
    · rename_i hroom
      cases h
      exact recvTransition htask (.roomGone _ _ _ hroom)
    · rename_i ref hroom
      split at h
      · rename_i hmanaged
        subst hmanaged
        cases h
        exact recvTransition htask (.gotManaged _ _ hroom)
      · rename_i hlegacy
        cases h
        exact recvTransition htask (.gotLegacy _ _ _ hlegacy hroom)
  · cases h

private theorem reauthorize_transition {answer : Option SfuRoomAuthorizationSnapshot}
    (h : reauthorize env s p answer = some t) : Transition env s (.reauthorize p answer) t := by
  unfold reauthorize at h
  split at h
  · rename_i req ref htask
    simp only [setRecv_eq_advance] at h
    split at h
    · cases h
    · rename_i hauth
      cases h
      exact recvTransition htask (.notReauthorized _ _ _ _ (by simp [hauth]) (by simp [hauth]))
    · rename_i hauth
      cases h
      exact recvTransition htask (.reauthorized _ _ _ (authorizeSfuRoom_authorized hauth))
    · rename_i authorization hne hauth
      cases h
      exact recvTransition htask
        (.notReauthorized _ _ _ _ (by simpa [hauth] using hne) (by simp [hauth]))
  · cases h

private theorem lockRoom_transition (h : lockRoom s p = some t) :
    Transition env s (.lockRoom p) t := by
  unfold lockRoom at h
  split at h
  · rename_i req ref htask
    split at h
    · cases h
    · rename_i hfree
      dsimp only at h
      split at h
      · rename_i hdenied
        cases h
        exact recvTransition htask (.accessDenied _ _ _ hfree (.inl hdenied))
      · rename_i haccess
        split at h
        · rename_i hmissing
          cases h
          exact recvTransition htask (.accessDenied _ _ _ hfree (.inr (by simpa using hmissing)))
        · rename_i howner
          cases h
          exact .lockRoom p req ref htask hfree (by simpa using haccess) (by simpa using howner)
  · cases h

private theorem finishJoin_transition {peer : Except String Unit}
    (h : finishJoin s p peer = some t) : Transition env s (.finishJoin p peer) t := by
  unfold finishJoin at h
  split at h
  · rename_i req ref existing history htask
    split at h
    · cases h
      exact .failJoin p _ req ref existing history _ htask (.inl ⟨_, rfl⟩)
    · split at h
      · rename_i hdenied
        cases h
        exact .failJoin p _ req ref existing history _ htask (.inr hdenied)
      · rename_i haccess
        cases h
        exact .join p _ req ref existing history htask rfl (by simpa using haccess)
  · cases h

private theorem findRoom_transition (h : findRoom s p = some t) :
    Transition env s (.findRoom p) t := by
  unfold findRoom at h
  split at h
  · rename_i roomId message htask
    simp only [setRecv_eq_advance] at h
    split at h
    · cases h
      exact recvTransition htask (.notFound _ _)
    · rename_i ref hroom
      cases h
      exact recvTransition htask (.found _ _ _ hroom)
  · cases h

private theorem applyRequest_transition {now timestamp : Nat}
    (h : applyRequest s p now timestamp = some t) :
    Transition env s (.applyRequest p now timestamp) t := by
  unfold applyRequest at h
  split at h
  · rename_i roomId message ref htask
    split at h
    · cases h
    · rename_i hfree
      split at h
      · cases h
        rw [setRecv_eq_advance]
        exact recvTransition htask (.inactive _ _ _ _ _)
      · rename_i hactive
        cases h
        exact .applyRequest p now timestamp roomId message ref _ _ _ _ htask hfree
          (by simpa using hactive) rfl
  · cases h

private theorem stopReceiving_transition (h : stopReceiving s p = some t) :
    Transition env s (.stopReceiving p) t := by
  unfold stopReceiving at h
  split at h
  · rename_i htask
    cases h
    rw [setRecv_eq_advance]
    exact recvTransition htask .stop
  · cases h

private theorem abortReceiver_transition (h : abortReceiver s p = some t) :
    Transition env s (.abortReceiver p) t := by
  unfold abortReceiver at h
  split at h
  · rename_i habort
    simp only [setRecv_eq_advance] at h
    split at h
    · cases h
    · rename_i req ref existing history htask
      cases h
      exact .abortJoin p req ref existing history htask habort
    · rename_i hrunning hunlocked
      cases h
      exact recvTransition rfl (.abort _ habort hrunning hunlocked)
  · cases h

private theorem socket_transition {a : Action} {task task' : SocketTask}
    (hsocket : s.socketTask p = task) (hmove : SocketMove s p a task task') :
    Transition env s a (s.setSocket p task') :=
  .socket a p task' (hsocket ▸ hmove)

private theorem selectReceiver_transition (h : selectReceiver s p = some t) :
    Transition env s (.selectReceiver p) t := by
  unfold selectReceiver at h
  split at h
  · rename_i hsocket hstopped
    cases h
    exact socket_transition hsocket (.ended hstopped)
  · cases h

private theorem findForCleanup_transition (h : findForCleanup s p = some t) :
    Transition env s (.findForCleanup p) t := by
  unfold findForCleanup at h
  split at h
  · rename_i roomId rest hsocket
    split at h
    · rename_i hroom
      cases h
      exact socket_transition hsocket (.skip _ _ hroom)
    · rename_i ref hroom
      cases h
      exact socket_transition hsocket (.found _ _ _ hroom)
  · cases h

private theorem cleanUp_transition (h : cleanUp s p = some t) :
    Transition env s (.cleanUp p) t := by
  unfold cleanUp at h
  split at h
  · rename_i roomId ref rest hsocket
    split at h
    · cases h
    · rename_i hfree
      split at h
      · rename_i hmem
        dsimp only at h
        split at h
        · rename_i hempty
          cases h
          exact .cleanUp p roomId ref rest _ hsocket hfree hmem (if_pos hempty).symm
        · rename_i hpopulated
          cases h
          exact .cleanUp p roomId ref rest _ hsocket hfree hmem (if_neg hpopulated).symm
      · rename_i habsent
        cases h
        exact socket_transition hsocket (.absent _ _ _ habsent)
  · cases h

private theorem denyRoomUser_transition (h : denyRoomUser s i = some t) :
    Transition env s (.denyRoomUser i) t := by
  unfold denyRoomUser at h
  split at h
  · rename_i e heviction
    split at h
    · rename_i hstage
      cases h
      exact .eviction _ i e _ heviction (hstage ▸ .finish)
    · rename_i roomId rest hstage
      split at h
      · rename_i hroom
        cases h
        exact .eviction _ i e _ heviction (hstage ▸ .unmapped _ _ hroom)
      · rename_i ref hroom
        cases h
        exact .eviction _ i e _ heviction (hstage ▸ .mapped _ _ _ hroom)
    · cases h
  · cases h

private theorem markDenied_transition (h : markDenied s i = some t) :
    Transition env s (.markDenied i) t := by
  unfold markDenied at h
  split at h
  · rename_i e heviction
    split at h
    · rename_i roomId ref rest hstage
      cases h
      exact .markDenied i e roomId ref rest heviction hstage
    · cases h
  · cases h

private theorem findForEviction_transition (h : findForEviction s i = some t) :
    Transition env s (.findForEviction i) t := by
  unfold findForEviction at h
  split at h
  · rename_i e heviction
    split at h
    · rename_i roomId rest hstage
      split at h
      · rename_i hroom
        cases h
        exact .eviction _ i e _ heviction (hstage ▸ .gone _ _ hroom)
      · rename_i ref hroom
        cases h
        exact .eviction _ i e _ heviction (hstage ▸ .found _ _ _ hroom)
    · cases h
  · cases h

private theorem evict_transition (h : evict s i = some t) : Transition env s (.evict i) t := by
  unfold evict at h
  split at h
  · rename_i e heviction
    split at h
    · rename_i roomId ref rest hstage
      split at h
      · cases h
      · rename_i hfree
        cases h
        exact .evict i e roomId ref rest heviction hstage hfree
    · cases h
  · cases h

private theorem revokeRoom_transition (h : revokeRoom s i = some t) :
    Transition env s (.revokeRoom i) t := by
  unfold SignalingSteps.revokeRoom at h
  split at h
  · rename_i c hclosure
    split at h
    · rename_i hstage
      cases h
      exact .finishClosure i c hclosure hstage
    · rename_i roomId rest hstage
      simp only [InMemoryRoomRepository.revokeRoom_snd] at h
      split at h
      · rename_i hroom
        cases h
        exact .revokeUnmapped i c roomId rest hclosure hstage hroom
      · rename_i ref hroom
        cases h
        exact .revokeMapped i c roomId ref rest hclosure hstage hroom
    · cases h
  · cases h

private theorem closeRoom_transition (h : closeRoom s i = some t) :
    Transition env s (.closeRoom i) t := by
  unfold closeRoom at h
  split at h
  · rename_i c hclosure
    split at h
    · rename_i ref rest hstage
      split at h
      · cases h
      · rename_i hfree
        cases h
        exact .closeRoom i c ref rest hclosure hstage hfree
    · cases h
  · cases h

theorem step_transition {a : Action} (h : step env s a = some t) : Transition env s a t := by
  cases a with
  | connect p identity =>
    simp only [step, SignalingSteps.connect] at h
    split at h
    · rename_i hsocket
      cases h
      exact .connect p identity hsocket
    · cases h
  | receive p message => exact receive_transition h
  | authorize p answer => exact authorize_transition h
  | admitToMeetingRoom p answer => exact admitToMeetingRoom_transition h
  | checkRoom p => exact checkRoom_transition h
  | createRoom p => exact createRoom_transition h
  | getRoom p => exact getRoom_transition h
  | reauthorize p answer => exact reauthorize_transition h
  | lockRoom p => exact lockRoom_transition h
  | finishJoin p peer => exact finishJoin_transition h
  | findRoom p => exact findRoom_transition h
  | applyRequest p now timestamp => exact applyRequest_transition h
  | stopReceiving p => exact stopReceiving_transition h
  | abortReceiver p => exact abortReceiver_transition h
  | endSender p =>
    simp only [step, SignalingSteps.endSender] at h
    split at h
    · cases h
    · rename_i hsocket
      obtain ⟨-, heq⟩ := Option.ite_none_left_eq_some.mp h
      cases heq
      exact .endSender p hsocket
  | selectSender p =>
    simp only [step, SignalingSteps.selectSender] at h
    split at h
    · rename_i hsocket hended
      cases h
      exact .selectSender p hsocket hended
    · cases h
  | selectReceiver p => exact selectReceiver_transition h
  | listRooms p =>
    simp only [step, SignalingSteps.listRooms] at h
    split at h
    · rename_i hsocket
      cases h
      exact socket_transition hsocket .listed
    · cases h
  | findForCleanup p => exact findForCleanup_transition h
  | cleanUp p => exact cleanUp_transition h
  | deleteRoom p =>
    simp only [step, SignalingSteps.deleteRoom] at h
    split at h
    · rename_i roomId hsocket
      cases h
      exact .deleteRoom p roomId hsocket
    · cases h
  | leave p =>
    simp only [step, SignalingSteps.leave] at h
    split at h
    · rename_i hsocket
      cases h
      exact .leave p hsocket
    · cases h
  | commitRemoval i userId roomIds =>
    simp only [step, SignalingSteps.commitRemoval] at h
    split at h
    · cases h
    · rename_i hnew
      split at h
      · rename_i hrooms
        cases h
        exact .commitRemoval i userId roomIds hnew (by simpa using hrooms.2)
      · cases h
  | denyRoomUser i => exact denyRoomUser_transition h
  | markDenied i => exact markDenied_transition h
  | findForEviction i => exact findForEviction_transition h
  | evict i => exact evict_transition h
  | startClosure i roomIds =>
    simp only [step, SignalingSteps.startClosure] at h
    split at h
    · cases h
    · rename_i hnew
      split at h
      · cases h
        exact .startClosure i roomIds hnew
      · cases h
  | revokeRoom i => exact revokeRoom_transition h
  | closeRoom i => exact closeRoom_transition h

end Inversion

end OpenMeet.Transitions
