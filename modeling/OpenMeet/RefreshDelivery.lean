import OpenMeet.SocialEvents

/-!
Whether a client hears of every change published for it once it has been told that
it is authenticated. From then on a refresh that has not been answered is owed, and
a refresh on its way is unread in the channel, covered by the lag the next receive
will find, or among the messages of the branch the task is in. A refresh that is
owed and not on its way stays lost.
-/
namespace OpenMeet.RefreshDelivery

open Messages LossyBroadcast TransitionSystem SocialEvents

def Refreshes (event : SocialEvent) (userId : Uuid) (resource : SocialResource) : Prop :=
  event.payload = .refresh resource ∧ userId ∈ event.recipients

/-- A refresh published for the user after Authenticated was sent and before the
socket closed has not been followed by a refresh of its resource. -/
def Owed (userId : Uuid) (resource : SocialResource) (history : List Occurrence) : Prop :=
  ∃ event before after, history = after ++ .published event :: before ∧
    Refreshes event userId resource ∧
    .sent (some userId) .authenticated ∈ before ∧ .closed ∉ before ∧
    .sent (some userId) (.refresh resource) ∉ after

def Followed (history : List Occurrence) : Prop :=
  ∀ userId resource, ¬ Owed userId resource history

theorem owed_cons {userId : Uuid} {resource : SocialResource} {latest : Occurrence}
    {history : List Occurrence} :
    Owed userId resource (latest :: history) ↔
      (latest ≠ .sent (some userId) (.refresh resource) ∧ Owed userId resource history) ∨
      ∃ event, latest = .published event ∧ Refreshes event userId resource ∧
        .sent (some userId) .authenticated ∈ history ∧ .closed ∉ history := by
  constructor
  · rintro ⟨event, before, after, hsplit, hrefreshes, hauth, hopen, hafter⟩
    cases after with
    | nil =>
      cases hsplit
      exact .inr ⟨event, rfl, hrefreshes, hauth, hopen⟩
    | cons first after =>
      cases hsplit
      have hne := List.ne_of_not_mem_cons hafter
      have hrest := List.not_mem_of_not_mem_cons hafter
      exact .inl ⟨hne.symm, event, before, after, rfl, hrefreshes, hauth, hopen, hrest⟩
  · rintro (⟨hne, event, before, after, rfl, hrefreshes, hauth, hopen, hafter⟩ |
      ⟨event, rfl, hrefreshes, hauth, hopen⟩)
    · refine ⟨event, before, latest :: after, rfl, hrefreshes, hauth, hopen, ?_⟩
      exact List.not_mem_cons_of_ne_of_not_mem hne.symm hafter
    · exact ⟨event, history, [], rfl, hrefreshes, hauth, hopen, List.not_mem_nil⟩

/-- Only a publication can make a refresh owed. -/
theorem Owed.of_cons {userId : Uuid} {resource : SocialResource} {latest : Occurrence}
    {history : List Occurrence} (h : Owed userId resource (latest :: history))
    (hlatest : ∀ event, latest ≠ .published event) : Owed userId resource history := by
  obtain ⟨-, howed⟩ | ⟨event, heq, -⟩ := owed_cons.mp h
  · exact howed
  · exact absurd heq (hlatest event)

section Socket

variable {hub : Broadcast SocialEvent eventCapacity} {validateAccessToken : String → Option Uuid}

/-! ## What is on its way -/

/-- The subscription will hand over a refresh for the user, or that it lagged. -/
def InChannel (channel : hub.Channel) (events : hub.Subscription) (userId : Uuid)
    (resource : SocialResource) : Prop :=
  eventCapacity < (hub.unread channel events).length ∨
    ∃ event ∈ hub.unread channel events, Refreshes event userId resource

/-- The task has still to send a refresh of the resource. -/
def OnItsWay (socket : EventSocket hub) (resource : SocialResource) : Prop :=
  match socket.phase with
  | .listening userId events _ => InChannel socket.channel events userId resource
  | .sending userId events _ message rest =>
    .refresh resource ∈ message :: rest ∨ InChannel socket.channel events userId resource
  | _ => False

/-- What is owed is on its way. -/
def Promised (socket : EventSocket hub) : Prop :=
  ∀ userId resource, Owed userId resource socket.history → OnItsWay socket resource

def Action.isOwn : Action → Bool
  | .subscribe => true
  | .receive => true
  | .deliver sent => sent
  | _ => false

/-- The task, left to itself, sends every refresh the client is owed. -/
def NoneLost (validateAccessToken : String → Option Uuid) (socket : EventSocket hub) : Prop :=
  ∃ actions : List Action, (∀ action ∈ actions, Action.isOwn action = true) ∧
    ∃ after, (eventSystem hub validateAccessToken).runFrom socket actions = some after ∧
      Followed after.history

/-! ## What holds of every socket -/

def userOf : Phase hub.Subscription → Option Uuid
  | .acknowledged userId => some userId
  | .listening userId _ _ => some userId
  | .sending userId _ _ _ _ => some userId
  | _ => none

def eventsOf : Phase hub.Subscription → Option hub.Subscription
  | .listening _ events _ => some events
  | .sending _ events _ _ _ => some events
  | _ => none

structure Coherent (socket : EventSocket hub) : Prop where
  identified : ∀ userId, .sent (some userId) .authenticated ∈ socket.history →
    .closed ∉ socket.history → userOf socket.phase = some userId
  acknowledged : ∀ userId ∈ userOf socket.phase,
    .sent (some userId) .authenticated ∈ socket.history
  closed : .closed ∈ socket.history ↔ socket.phase = .closed
  attached : ∀ events ∈ eventsOf socket.phase, hub.Attached socket.channel events

/-! ## What a step does -/

/-- Nothing is sent to nobody. -/
def publishes : Action → Option SocialEvent
  | .publish recipients resource =>
    if recipients = [] then none else some ⟨recipients, .refresh resource⟩
  | .alert recipients (some status) alert =>
    let available := availableRecipients status recipients
    if available = [] then none else some ⟨available, .alert alert⟩
  | _ => none

/-- The action takes the task out of its loop. -/
def endsLoop (action : Action) : Phase hub.Subscription → Bool
  | .listening _ _ awaitingPong =>
    match action with
    | .incoming none => true
    | .incoming (some .close) => true
    | .heartbeat sent => awaitingPong || !sent
    | .expire _ => true
    | _ => false
  | .sending _ _ _ _ _ =>
    match action with
    | .deliver sent => !sent
    | _ => false
  | _ => false

inductive Move (socket : EventSocket hub) : Action → EventSocket hub → Prop
  | publish {action : Action} {event : SocialEvent} (hevent : publishes action = some event) :
    Move socket action
      { socket with
        channel := hub.send socket.channel event
        history := .published event :: socket.history }
  | idle (action : Action) : Move socket action socket
  | acknowledge {action : Action} (userId : Uuid) (hphase : socket.phase = .connecting) :
    Move socket action
      { socket.record (some userId) .authenticated with phase := .acknowledged userId }
  | subscribe {userId : Uuid} (hphase : socket.phase = .acknowledged userId) :
    Move socket .subscribe
      { socket with phase := .listening userId (hub.subscribe socket.channel) false }
  | listen {action : Action} {userId : Uuid} {events : hub.Subscription} {awaitingPong : Bool}
    (hphase : socket.phase = .listening userId events awaitingPong) (awaiting : Bool) :
    Move socket action { socket with phase := .listening userId events awaiting }
  | receive {userId : Uuid} {events next : hub.Subscription} {awaitingPong : Bool}
    {received : Received SocialEvent}
    (hphase : socket.phase = .listening userId events awaitingPong)
    (hrecv : hub.recv socket.channel events = some (received, next)) :
    Move socket .receive
      { socket with phase := resume userId next awaitingPong (messagesFor userId received) }
  | deliver {userId : Uuid} {events : hub.Subscription} {awaitingPong : Bool}
    {message : ServerMessage} {rest : List ServerMessage}
    (hphase : socket.phase = .sending userId events awaitingPong message rest) :
    Move socket (.deliver true)
      { socket.record (some userId) message with phase := resume userId events awaitingPong rest }
  | close {action : Action}
    (hends : socket.phase = .connecting ∨ endsLoop action socket.phase = true)
    (userId : Option Uuid) (sent : Bool) (message : String) :
    Move socket action (socket.closeWith userId sent message)

theorem send_move {socket : EventSocket hub} {action : Action} {recipients : List Uuid}
    {payload : SocialEventPayload}
    (hpublishes : publishes action =
      if recipients = [] then none else some ⟨recipients, payload⟩) :
    Move socket action (socket.send recipients payload) := by
  unfold EventSocket.send
  split
  · exact .idle action
  · rename_i hrecipients
    rw [if_neg hrecipients] at hpublishes
    exact .publish hpublishes

theorem authenticate_move {socket : EventSocket hub} {first : Option Frame} {sent : Bool}
    (hphase : socket.phase = .connecting) :
    Move socket (.authenticate first sent)
      (socket.authenticate validateAccessToken first sent) := by
  have hclose : Move socket (.authenticate first sent) socket.close :=
    .close (.inl hphase) none false ""
  unfold EventSocket.authenticate
  split
  · exact hclose
  · split
    · exact .close (.inl hphase) ..
    · split
      · exact .acknowledge _ hphase
      · exact hclose
  · exact .close (.inl hphase) ..

theorem step_move {socket after : EventSocket hub} {action : Action}
    (h : socket.step validateAccessToken action = some after) : Move socket action after := by
  have hclose (hends : endsLoop action socket.phase = true) : Move socket action socket.close :=
    .close (.inr hends) none false ""
  cases action with
  | publish recipients resource =>
    cases h
    exact send_move rfl
  | alert recipients status alert =>
    cases status with
    | none =>
      cases h
      exact .idle _
    | some status =>
      cases h
      exact send_move rfl
  | authenticate first sent =>
    simp only [EventSocket.step] at h
    split at h <;> cases h
    exact authenticate_move ‹_›
  | subscribe =>
    simp only [EventSocket.step] at h
    split at h <;> cases h
    exact .subscribe ‹_›
  | incoming frame =>
    simp only [EventSocket.step] at h
    split at h <;> cases h
    all_goals rename_i hphase
    · exact hclose (by rw [hphase]; rfl)
    · exact hclose (by rw [hphase]; rfl)
    · exact .listen hphase false
    · exact .idle _
  | receive =>
    simp only [EventSocket.step] at h
    split at h
    · obtain ⟨⟨received, next⟩, hrecv, hafter⟩ := Option.map_eq_some_iff.mp h
      cases hafter
      exact .receive ‹_› hrecv
    · cases h
  | deliver sent =>
    simp only [EventSocket.step] at h
    split at h
    · cases sent <;> cases h
      · exact hclose (by rw [‹socket.phase = _›]; rfl)
      · exact .deliver ‹_›
    · cases h
  | heartbeat sent =>
    simp only [EventSocket.step] at h
    split at h
    · rename_i hphase
      split at h <;> cases h
      · exact hclose (by rw [hphase]; assumption)
      · exact .listen hphase true
    · cases h
  | expire sent =>
    simp only [EventSocket.step] at h
    split at h <;> cases h
    exact .close (.inr (by rw [‹socket.phase = _›]; rfl)) ..

/-! ## Every socket is coherent -/

theorem userOf_resume (userId : Uuid) (events : hub.Subscription) (awaitingPong : Bool)
    (messages : List ServerMessage) :
    userOf (resume userId events awaitingPong messages) = some userId := by
  cases messages <;> rfl

theorem eventsOf_resume (userId : Uuid) (events : hub.Subscription) (awaitingPong : Bool)
    (messages : List ServerMessage) :
    eventsOf (resume userId events awaitingPong messages) = some events := by
  cases messages <;> rfl

@[simp]
theorem resume_ne_closed (userId : Uuid) (events : hub.Subscription) (awaitingPong : Bool)
    (messages : List ServerMessage) :
    resume userId events awaitingPong messages ≠ .closed := by
  cases messages <;> exact nofun

theorem closeWith_history (socket : EventSocket hub) (userId : Option Uuid) (sent : Bool)
    (message : String) :
    (socket.closeWith userId sent message).history =
      .closed :: (if sent then [.sent userId (.error message)] else []) ++ socket.history := by
  cases sent <;> rfl

variable {socket after : EventSocket hub} {action : Action}

theorem coherent_move (hs : Coherent socket) (h : Move socket action after) : Coherent after := by
  obtain ⟨hidentified, hacknowledged, hclosed, hattached⟩ := hs
  cases h with
  | publish hevent =>
    refine ⟨?_, ?_, ?_, fun events hevents => hub.attached_send (hattached events hevents) _⟩
    · simpa using hidentified
    · simpa using hacknowledged
    · simpa using hclosed
  | idle => exact ⟨hidentified, hacknowledged, hclosed, hattached⟩
  | acknowledge userId hphase =>
    rw [hphase] at hclosed hidentified
    have hopen : .closed ∉ socket.history := fun hmem => nomatch hclosed.mp hmem
    refine ⟨fun other hother _ => ?_, ?_, ?_, ?_⟩
    · rcases List.mem_cons.mp hother with heq | hmem
      · cases heq
        rfl
      · exact nomatch hidentified other hmem hopen
    · rintro other ⟨⟩
      exact List.mem_cons_self
    · simpa [EventSocket.record] using hopen
    · rintro events ⟨⟩
  | subscribe hphase =>
    rw [hphase] at hidentified hacknowledged hclosed
    refine ⟨hidentified, hacknowledged, ?_, ?_⟩
    · simpa using hclosed
    · rintro events ⟨⟩
      exact hub.attached_subscribe _
  | listen hphase awaiting =>
    rw [hphase] at hidentified hacknowledged hclosed hattached
    exact ⟨hidentified, hacknowledged, by simpa using hclosed, hattached⟩
  | receive hphase hrecv =>
    rw [hphase] at hidentified hacknowledged hclosed hattached
    refine ⟨fun other hother hopen => ?_, fun other hother => ?_, by simpa using hclosed,
      fun events hevents => ?_⟩
    · exact (userOf_resume ..).trans (hidentified other hother hopen)
    · exact hacknowledged other ((userOf_resume ..).symm.trans hother)
    · cases (eventsOf_resume ..).symm.trans hevents
      exact hub.attached_recv (hattached _ rfl) hrecv
  | @deliver userId events awaitingPong message rest hphase =>
    rw [hphase] at hidentified hacknowledged hclosed hattached
    refine ⟨fun other hother hopen => ?_, fun other hother => ?_,
      by simpa [EventSocket.record] using hclosed, fun events hevents => ?_⟩
    · rcases List.mem_cons.mp hother with heq | hmem
      · cases heq
        exact userOf_resume ..
      · have hopen := List.not_mem_of_not_mem_cons hopen
        exact (userOf_resume ..).trans (hidentified other hmem hopen)
    · exact List.mem_cons_of_mem _ (hacknowledged other ((userOf_resume ..).symm.trans hother))
    · exact hattached events ((eventsOf_resume ..).symm.trans hevents)
  | close hends userId sent message =>
    have hmem : .closed ∈ (socket.closeWith userId sent message).history := by
      rw [closeWith_history]
      exact List.mem_cons_self
    exact ⟨fun _ _ hopen => absurd hmem hopen, nofun, ⟨fun _ => rfl, fun _ => hmem⟩, nofun⟩

/-! ## What is owed stays on its way -/

theorem onItsWay_resume {socket : EventSocket hub} {userId : Uuid} {events : hub.Subscription}
    {awaitingPong : Bool} {messages : List ServerMessage} {resource : SocialResource}
    (hphase : socket.phase = resume userId events awaitingPong messages) :
    OnItsWay socket resource ↔
      .refresh resource ∈ messages ∨ InChannel socket.channel events userId resource := by
  cases messages with
  | nil => simp [OnItsWay, hphase, resume]
  | cons message rest => simp only [OnItsWay, hphase, resume]

theorem InChannel.send {channel : hub.Channel} {events : hub.Subscription} {userId : Uuid}
    {resource : SocialResource} (hattached : hub.Attached channel events) (event : SocialEvent)
    (h : InChannel channel events userId resource ∨ Refreshes event userId resource) :
    InChannel (hub.send channel event) events userId resource := by
  unfold InChannel at h ⊢
  rw [hub.unread_send hattached, List.length_append]
  rcases h with (hlag | ⟨unread, hunread, hrefreshes⟩) | hrefreshes
  · exact .inl (Nat.lt_add_right _ hlag)
  · exact .inr ⟨unread, List.mem_append_left _ hunread, hrefreshes⟩
  · exact .inr ⟨event, List.mem_append_right _ (List.mem_singleton_self _), hrefreshes⟩

/-- A receive takes from the channel what the branch then has to send. -/
theorem inChannel_recv {channel : hub.Channel} {events next : hub.Subscription}
    {received : Received SocialEvent} {userId : Uuid} {resource : SocialResource}
    (hattached : hub.Attached channel events)
    (hrecv : hub.recv channel events = some (received, next)) :
    InChannel channel events userId resource ↔
      .refresh resource ∈ messagesFor userId received ∨
        InChannel channel next userId resource := by
  obtain ⟨event, rfl, hunread, hlength⟩ | ⟨skipped, rfl, -, hlag, -⟩ :=
    Broadcast.recv_cases hattached hrecv
  · have hmessages : .refresh resource ∈ messagesFor userId (.event event) ↔
        Refreshes event userId resource := by
      obtain ⟨recipients, payload⟩ := event
      by_cases hmem : userId ∈ recipients <;> cases payload <;>
        simp [messagesFor, Refreshes, SocialEventPayload.serverMessage, hmem, eq_comm]
    have hrest : ¬ eventCapacity < (hub.unread channel next).length := by
      rw [hunread, List.length_cons] at hlength
      exact Nat.not_lt_of_gt hlength
    rw [hmessages, InChannel, InChannel, hunread, List.exists_mem_cons_iff]
    rw [hunread] at hlength
    simp only [Nat.not_lt_of_le hlength, hrest, false_or]
  · have hmessages : .refresh resource ∈ messagesFor userId (.lagged skipped) := by
      cases resource <;> simp [messagesFor, allRefreshes]
    exact iff_of_true (.inl hlag) (.inl hmessages)

def notSubscribed : Phase hub.Subscription → Option Uuid
  | .acknowledged userId => some userId
  | _ => none

/-- Who a refresh is published for. -/
def audience : Action → List Uuid
  | .publish recipients _ => recipients
  | _ => []

/-- Once Authenticated has been sent, no refresh is published for the user before
the task has subscribed. -/
def SubscribedInTime (socket : EventSocket hub) (action : Action) : Prop :=
  ∀ userId ∈ notSubscribed socket.phase, userId ∉ audience action

instance (socket : EventSocket hub) (action : Action) :
    Decidable (SubscribedInTime socket action) :=
  Option.decidableForallMem (notSubscribed socket.phase)

/-- The loop is left only with no refresh on its way. -/
def LeavesNothing (socket : EventSocket hub) (action : Action) : Prop :=
  endsLoop action socket.phase = true → ∀ resource, ¬ OnItsWay socket resource

theorem recipients_of_publishes {event : SocialEvent} {resource : SocialResource}
    (hevent : publishes action = some event) (hpayload : event.payload = .refresh resource) :
    action = .publish event.recipients resource := by
  cases action with
  | publish recipients published =>
    simp only [publishes] at hevent
    split at hevent <;> cases hevent
    cases hpayload
    rfl
  | alert recipients status alert =>
    cases status with
    | none => cases hevent
    | some status =>
      simp only [publishes] at hevent
      split at hevent <;> cases hevent
      cases hpayload
  | _ => cases hevent

theorem OnItsWay.publish (hs : Coherent socket) {resource : SocialResource} (event : SocialEvent)
    (h : OnItsWay socket resource) :
    OnItsWay { socket with
      channel := hub.send socket.channel event
      history := .published event :: socket.history } resource := by
  have hattached := hs.attached
  unfold OnItsWay at h ⊢
  cases hphase : socket.phase with
  | listening userId events awaitingPong =>
    rw [hphase] at h hattached
    exact InChannel.send (hattached events rfl) event (.inl h)
  | sending userId events awaitingPong message rest =>
    rw [hphase] at h hattached
    exact h.imp_right fun h => InChannel.send (hattached events rfl) event (.inl h)
  | _ =>
    rw [hphase] at h
    exact h.elim

/-- A refresh published to a task that has subscribed is on its way. -/
theorem onItsWay_published (hs : Coherent socket) {userId : Uuid} {resource : SocialResource}
    {event : SocialEvent} (hevent : publishes action = some event)
    (htime : SubscribedInTime socket action) (huser : userOf socket.phase = some userId)
    (hrefreshes : Refreshes event userId resource) :
    OnItsWay { socket with
      channel := hub.send socket.channel event
      history := .published event :: socket.history } resource := by
  have hattached := hs.attached
  have haction := recipients_of_publishes hevent hrefreshes.1
  unfold OnItsWay
  cases hphase : socket.phase with
  | connecting => rw [hphase] at huser; cases huser
  | acknowledged other =>
    rw [hphase] at huser
    cases huser
    have hnot := htime userId (by rw [hphase]; rfl)
    rw [haction] at hnot
    exact absurd hrefreshes.2 hnot
  | listening other events awaitingPong =>
    rw [hphase] at huser hattached
    cases huser
    exact InChannel.send (hattached events rfl) event (.inr hrefreshes)
  | sending other events awaitingPong message rest =>
    rw [hphase] at huser hattached
    cases huser
    exact .inr (InChannel.send (hattached events rfl) event (.inr hrefreshes))
  | closed => rw [hphase] at huser; cases huser

theorem owed_closeWith {userId : Uuid} {resource : SocialResource} {recipient : Option Uuid}
    {sent : Bool} {message : String}
    (h : Owed userId resource (socket.closeWith recipient sent message).history) :
    Owed userId resource socket.history := by
  rw [closeWith_history] at h
  cases sent with
  | true => exact (h.of_cons nofun).of_cons nofun
  | false => exact h.of_cons nofun

/-- Until it closes, a socket owes to the user it is the socket of. -/
theorem Owed.user {userId : Uuid} {resource : SocialResource}
    (h : Owed userId resource socket.history) (hs : Coherent socket)
    (hopen : socket.phase ≠ .closed) : userOf socket.phase = some userId := by
  obtain ⟨event, before, rest, hsplit, -, hauth, -, -⟩ := h
  have hauth : .sent (some userId) .authenticated ∈ socket.history := by
    rw [hsplit]
    exact List.mem_append_right _ (List.mem_cons_of_mem _ hauth)
  exact hs.identified userId hauth fun hmem => hopen (hs.closed.mp hmem)

theorem promised_move (hs : Coherent socket) (hpromised : Promised socket)
    (h : Move socket action after) (htime : SubscribedInTime socket action)
    (hends : after.phase ≠ .closed ∨ LeavesNothing socket action) : Promised after := by
  intro userId resource howed
  cases h with
  | publish hevent =>
    rcases owed_cons.mp howed with ⟨-, howed⟩ | ⟨event, heq, hrefreshes, hauth, hopen⟩
    · exact (hpromised userId resource howed).publish hs _
    · cases heq
      exact onItsWay_published hs hevent htime (hs.identified userId hauth hopen) hrefreshes
  | idle => exact hpromised userId resource howed
  | acknowledge other hphase =>
    have hway := hpromised userId resource (howed.of_cons nofun)
    rw [OnItsWay, hphase] at hway
    exact hway.elim
  | subscribe hphase =>
    have hway := hpromised userId resource howed
    rw [OnItsWay, hphase] at hway
    exact hway.elim
  | listen hphase awaiting =>
    have hway := hpromised userId resource howed
    rw [OnItsWay, hphase] at hway
    exact hway
  | receive hphase hrecv =>
    have hway := hpromised userId resource howed
    rw [OnItsWay, hphase] at hway
    have hattached := hs.attached _ (by rw [hphase]; rfl)
    exact (onItsWay_resume rfl).mpr ((inChannel_recv hattached hrecv).mp hway)
  | @deliver user events awaitingPong message rest hphase =>
    have huser := (howed.of_cons nofun).user hs (by rw [hphase]; exact nofun)
    rw [hphase] at huser
    cases huser
    rcases owed_cons.mp howed with ⟨hne, howed⟩ | ⟨event, heq, -⟩
    · have hphase : socket.phase = resume userId events awaitingPong (message :: rest) := hphase
      have hway := (onItsWay_resume hphase).mp (hpromised userId resource howed)
      rw [List.mem_cons] at hway
      refine (onItsWay_resume rfl).mpr (hway.imp_left fun hmem => hmem.resolve_left ?_)
      rintro rfl
      exact hne rfl
    · cases heq
  | close hclose other sent message =>
    have hway := hpromised userId resource (owed_closeWith howed)
    rcases hclose with hconnecting | hloop
    · rw [OnItsWay, hconnecting] at hway
      exact hway.elim
    · rcases hends with hopen | hquiet
      · exact absurd rfl hopen
      · exact absurd hway (hquiet hloop resource)

/-! ## What the task does by itself -/

/-- A refresh that is owed and not on its way stays so, whatever the task does. -/
theorem lost_move {userId : Uuid} {resource : SocialResource} (hs : Coherent socket)
    (howed : Owed userId resource socket.history) (hlost : ¬ OnItsWay socket resource)
    (hown : Action.isOwn action = true) (h : Move socket action after) :
    Owed userId resource after.history ∧ ¬ OnItsWay after resource := by
  cases h with
  | publish hevent => cases action <;> first | cases hown; done | cases hevent
  | idle => exact ⟨howed, hlost⟩
  | acknowledge other hphase => exact ⟨owed_cons.mpr (.inl ⟨nofun, howed⟩), id⟩
  | @subscribe user hphase =>
    have hnone : ¬ InChannel socket.channel (hub.subscribe socket.channel) user resource := by
      simp [InChannel, hub.unread_subscribe]
    exact ⟨howed, hnone⟩
  | listen hphase awaiting =>
    rw [OnItsWay, hphase] at hlost
    exact ⟨howed, hlost⟩
  | receive hphase hrecv =>
    rw [OnItsWay, hphase] at hlost
    have hattached := hs.attached _ (by rw [hphase]; rfl)
    refine ⟨howed, fun hway => hlost ((inChannel_recv hattached hrecv).mpr ?_)⟩
    have hcarried := (onItsWay_resume rfl).mp hway
    exact hcarried
  | @deliver user events awaitingPong message rest hphase =>
    have huser := howed.user hs (by rw [hphase]; exact nofun)
    rw [hphase] at huser
    cases huser
    have hphase : socket.phase = resume userId events awaitingPong (message :: rest) := hphase
    rw [onItsWay_resume hphase, List.mem_cons] at hlost
    refine ⟨owed_cons.mpr (.inl ⟨?_, howed⟩), fun hway => hlost ?_⟩
    · rintro ⟨⟩
      exact hlost (.inl (.inl rfl))
    · have hcarried := (onItsWay_resume rfl).mp hway
      exact hcarried.imp_left .inr
  | close hends recipient sent message =>
    refine ⟨?_, id⟩
    rw [closeWith_history]
    cases sent with
    | true =>
      exact owed_cons.mpr (.inl ⟨nofun, owed_cons.mpr (.inl ⟨nofun, howed⟩)⟩)
    | false => exact owed_cons.mpr (.inl ⟨nofun, howed⟩)

theorem lost_run {userId : Uuid} {resource : SocialResource} {actions : List Action}
    (hs : Coherent socket) (howed : Owed userId resource socket.history)
    (hlost : ¬ OnItsWay socket resource)
    (hown : ∀ action ∈ actions, Action.isOwn action = true)
    (hrun : (eventSystem hub validateAccessToken).runFrom socket actions = some after) :
    Owed userId resource after.history := by
  induction actions generalizing socket with
  | nil =>
    cases hrun
    exact howed
  | cons action rest ih =>
    obtain ⟨hfirst, hrest⟩ := List.forall_mem_cons.mp hown
    obtain ⟨next, hstep, hrun⟩ := Option.bind_eq_some_iff.mp hrun
    have hmove := step_move hstep
    obtain ⟨howed, hlost⟩ := lost_move hs howed hlost hfirst hmove
    exact ih (coherent_move hs hmove) howed hlost hrest hrun

theorem NoneLost.of_step (hown : Action.isOwn action = true)
    (hstep : socket.step validateAccessToken action = some after)
    (h : NoneLost validateAccessToken after) : NoneLost validateAccessToken socket := by
  obtain ⟨actions, hactions, last, hrun, hfollowed⟩ := h
  refine ⟨action :: actions, List.forall_mem_cons.mpr ⟨hown, hactions⟩, last, ?_, hfollowed⟩
  exact Option.bind_eq_some_iff.mpr ⟨after, hstep, hrun⟩

theorem subscribedInTime_of_isOwn (hown : Action.isOwn action = true) :
    SubscribedInTime socket action := by
  have hnobody : audience action = [] := by cases action <;> first | rfl | cases hown
  intro userId _
  rw [hnobody]
  exact List.not_mem_nil

theorem length_messagesFor (userId : Uuid) (received : Received SocialEvent) :
    (messagesFor userId received).length ≤ 4 := by
  cases received with
  | event event =>
    simp only [messagesFor]
    split <;> simp
  | lagged skipped => exact Nat.le_refl 4

/-- Reading on empties the channel. The induction is on what is unread, counted as
more than a branch can have to send, and what the present branch has to send. -/
theorem noneLost_of_reading (hs : Coherent socket) (hpromised : Promised socket) {userId : Uuid}
    {events : hub.Subscription} {awaitingPong : Bool} {messages : List ServerMessage}
    (hphase : socket.phase = resume userId events awaitingPong messages) :
    NoneLost validateAccessToken socket := by
  induction hn : 5 * (hub.unread socket.channel events).length + messages.length
    using Nat.strong_induction_on generalizing socket events messages with
  | _ n ih =>
  have hattached := hs.attached events (by rw [hphase]; exact eventsOf_resume ..)
  have next (action : Action) (hown : Action.isOwn action = true) {after : EventSocket hub}
      {later : hub.Subscription} {pending : List ServerMessage}
      (hstep : socket.step validateAccessToken action = some after)
      (hafter : after.phase = resume userId later awaitingPong pending)
      (hless : 5 * (hub.unread after.channel later).length + pending.length < n) :
      NoneLost validateAccessToken socket := by
    have hmove := step_move hstep
    have hopen : after.phase ≠ .closed := by
      rw [hafter]
      exact resume_ne_closed _ _ _ _
    have hstill := promised_move hs hpromised hmove (subscribedInTime_of_isOwn hown) (.inl hopen)
    exact .of_step hown hstep (ih _ hless (coherent_move hs hmove) hstill hafter rfl)
  cases messages with
  | cons message rest =>
    refine next (.deliver true) rfl (by simp only [EventSocket.step, hphase, resume]; rfl) rfl ?_
    rw [← hn]
    exact Nat.lt_succ_self _
  | nil =>
    by_cases hunread : hub.unread socket.channel events = []
    · refine ⟨[], nofun, socket, rfl, fun user resource howed => ?_⟩
      have hway := (onItsWay_resume hphase).mp (hpromised user resource howed)
      simp [InChannel, hunread] at hway
    · obtain ⟨received, later, hrecv⟩ := Broadcast.recv_isSome hattached hunread
      have hshorter := Broadcast.recv_shortens hattached hrecv
      have hmessages := length_messagesFor userId received
      refine next .receive rfl (by simp only [EventSocket.step, hphase, resume, hrecv]; rfl) rfl ?_
      simp only [List.length_nil] at hn
      dsimp only
      omega

theorem noneLost_iff_promised (hs : Coherent socket) :
    NoneLost validateAccessToken socket ↔ Promised socket := by
  constructor
  · rintro ⟨actions, hactions, after, hrun, hfollowed⟩ userId resource howed
    by_contra hlost
    exact hfollowed userId resource (lost_run hs howed hlost hactions hrun)
  · intro hpromised
    cases hphase : socket.phase with
    | listening userId events awaitingPong =>
      have hphase : socket.phase = resume userId events awaitingPong [] := hphase
      exact noneLost_of_reading hs hpromised hphase
    | sending userId events awaitingPong message rest =>
      have hphase : socket.phase = resume userId events awaitingPong (message :: rest) := hphase
      exact noneLost_of_reading hs hpromised hphase
    | _ =>
      refine ⟨[], nofun, socket, rfl, fun userId resource howed => ?_⟩
      have hway := hpromised userId resource howed
      rw [OnItsWay, hphase] at hway
      exact hway

/-! ## Whole runs -/

theorem coherent_init : Coherent (eventSystem hub validateAccessToken).init :=
  ⟨nofun, nofun, iff_of_false nofun nofun, nofun⟩

theorem promised_init : Promised (eventSystem hub validateAccessToken).init := by
  rintro userId resource ⟨event, before, after, hsplit, -⟩
  exact absurd hsplit.symm (List.append_ne_nil_of_right_ne_nil _ (List.cons_ne_nil _ _))

theorem closed_move (h : Move socket action after) (hclosed : socket.phase = .closed) :
    after.phase = .closed := by
  cases h with
  | publish => exact hclosed
  | idle => exact hclosed
  | close => rfl
  | _ => cases hclosed.symm.trans ‹socket.phase = _›

/-- Publishing to a user between the acknowledgement and the subscription loses
the refresh, and nothing else does. -/
theorem promised_step_iff (hs : Coherent socket)
    (hpromised : socket.phase ≠ .closed → Promised socket)
    (hstep : socket.step validateAccessToken action = some after) :
    (after.phase ≠ .closed → Promised after) ↔ SubscribedInTime socket action := by
  have hmove := step_move hstep
  constructor
  · intro hafter userId huser hmem
    cases action with
    | publish recipients resource =>
      have hrecipients : recipients ≠ [] := List.ne_nil_of_mem hmem
      have hphase : socket.phase = .acknowledged userId := by
        cases hphase : socket.phase <;> rw [hphase] at huser <;> cases huser
        rfl
      have hphase_after : after.phase = .acknowledged userId := by
        cases hstep
        rw [EventSocket.send, if_neg hrecipients, hphase]
      have howed : Owed userId resource after.history := by
        cases hstep
        rw [EventSocket.send, if_neg hrecipients]
        have hauth := hs.acknowledged userId (by rw [hphase]; rfl)
        have hopen : .closed ∉ socket.history := fun h => nomatch hphase.symm.trans (hs.closed.mp h)
        exact owed_cons.mpr (.inr ⟨_, rfl, ⟨rfl, hmem⟩, hauth, hopen⟩)
      have hway := hafter (by rw [hphase_after]; exact nofun) userId resource howed
      rw [OnItsWay, hphase_after] at hway
      exact hway
    | _ => cases hmem
  · intro htime hopen
    have hbefore : socket.phase ≠ .closed := fun h => hopen (closed_move hmove h)
    exact promised_move hs (hpromised hbefore) hmove htime (.inl hopen)

theorem subscribedInTime_of_disabled
    (hstep : socket.step validateAccessToken action = none) : SubscribedInTime socket action := by
  have hnobody : audience action = [] := by cases action <;> first | rfl | cases hstep
  intro userId _
  rw [hnobody]
  exact List.not_mem_nil

/-! ## Runs one can evaluate -/

instance (event : SocialEvent) (userId : Uuid) (resource : SocialResource) :
    Decidable (Refreshes event userId resource) :=
  inferInstanceAs (Decidable (_ ∧ _))

instance (channel : hub.Channel) (events : hub.Subscription) (userId : Uuid)
    (resource : SocialResource) : Decidable (InChannel channel events userId resource) :=
  inferInstanceAs (Decidable (_ ∨ _))

instance (socket : EventSocket hub) (resource : SocialResource) :
    Decidable (OnItsWay socket resource) :=
  match socket with
  | ⟨_, .listening _ _ _, _⟩ => inferInstanceAs (Decidable (InChannel _ _ _ _))
  | ⟨_, .sending _ _ _ _ _, _⟩ => inferInstanceAs (Decidable (_ ∨ _))
  | ⟨_, .connecting, _⟩ => inferInstanceAs (Decidable False)
  | ⟨_, .acknowledged _, _⟩ => inferInstanceAs (Decidable False)
  | ⟨_, .closed, _⟩ => inferInstanceAs (Decidable False)

instance (P : SocialResource → Prop) [DecidablePred P] : Decidable (∀ resource, P resource) :=
  decidable_of_iff (P .calls ∧ P .conversations ∧ P .friends ∧ P .notifications)
    ⟨fun ⟨calls, conversations, friends, notifications⟩ resource => match resource with
      | .calls => calls
      | .conversations => conversations
      | .friends => friends
      | .notifications => notifications,
    fun h => ⟨h _, h _, h _, h _⟩⟩

instance (socket : EventSocket hub) (action : Action) : Decidable (LeavesNothing socket action) :=
  inferInstanceAs (Decidable (_ → _))

end Socket

/-- In every run, a socket that has not closed loses no refresh, exactly when none is
published for its user between the acknowledgement and the subscription. When besides
the loop is only left with no refresh on its way, nothing is lost by closing either. -/
theorem refreshes_delivered (hub : Broadcast SocialEvent eventCapacity)
    (validateAccessToken : String → Option Uuid) (actions : List Action) :
    let M := eventSystem hub validateAccessToken
    (M.Always (fun socket => socket.phase ≠ .closed → NoneLost validateAccessToken socket)
        M.init actions ↔
      M.Guarded SubscribedInTime M.init actions) ∧
    (M.Guarded (fun socket action =>
        SubscribedInTime socket action ∧ LeavesNothing socket action) M.init actions →
      M.Always (NoneLost validateAccessToken) M.init actions) := by
  intro M
  have hcoherent (s t : EventSocket hub) (action : Action) (hs : Coherent s)
      (h : M.step s action = some t) : Coherent t := coherent_move hs (step_move h)
  constructor
  · refine System.always_iff_guarded (fun s a t hs _ => hcoherent s t a hs) ?_
      (fun s a => subscribedInTime_of_disabled) coherent_init
      (fun _ => (noneLost_iff_promised coherent_init).mpr promised_init) actions
    intro s a t hs hP h
    rw [noneLost_iff_promised (hcoherent s t a hs h)]
    rw [noneLost_iff_promised hs] at hP
    exact promised_step_iff hs hP h
  · intro hguarded
    have hkept : M.Always (fun socket => Coherent socket ∧ Promised socket) M.init actions := by
      refine System.always_of_guarded ?_ ⟨coherent_init, promised_init⟩ hguarded
      rintro s a t ⟨hs, hpromised⟩ ⟨htime, hleaves⟩ h
      have hmove := step_move h
      exact ⟨coherent_move hs hmove, promised_move hs hpromised hmove htime (.inr hleaves)⟩
    exact System.always_mono (fun s hs => (noneLost_iff_promised hs.1).mpr hs.2) hkept

/-- A client that signs in, is told of two changes and closes. -/
theorem readThenClose_delivered :
    (eventSystem (logBroadcast SocialEvent eventCapacity) fun _ => some 1).Always
      (NoneLost fun _ => some 1) ⟨[], .connecting, []⟩
      [.authenticate (some (.text (some (.authenticate "token")))) true, .subscribe,
        .publish [1, 2] .friends, .receive, .publish [1] .calls, .deliver true, .receive,
        .deliver true, .incoming (some .close)] :=
  (refreshes_delivered (logBroadcast SocialEvent eventCapacity) (fun _ => some 1) _).2
    (by decide +kernel)

/-- The change of friends falls between the acknowledgement and the subscription; no
refresh has followed when the token expires. -/
theorem publishBeforeSubscribe_owed :
    ∃ socket, (eventSystem (logBroadcast SocialEvent eventCapacity) fun _ => some 1).run
      [.authenticate (some (.text (some (.authenticate "token")))) true,
        .publish [1] .friends, .subscribe, .expire true] = some socket ∧
      Owed 1 .friends socket.history ∧ ¬ Followed socket.history := by
  have howed : Owed 1 .friends
      [.closed, .sent (some 1) (.error "Access token expired"),
        .published ⟨[1], .refresh .friends⟩, .sent (some 1) .authenticated] :=
    ⟨⟨[1], .refresh .friends⟩, [.sent (some 1) .authenticated],
      [.closed, .sent (some 1) (.error "Access token expired")], by decide⟩
  exact ⟨_, rfl, howed, fun hfollowed => hfollowed 1 .friends howed⟩

end OpenMeet.RefreshDelivery
