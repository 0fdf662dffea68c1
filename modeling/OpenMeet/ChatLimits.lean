import OpenMeet.RateLimiter
import OpenMeet.Transitions

/-!
Limits on chat. A chat message asks the sender's budget and then the room's,
each with a clock reading of its own; a reaction asks the sender's only. A
message that one budget lets through may still be stopped by the other, which
costs budget and has no effect, so effects are among the calls let through. The
rooms change in every other way between two messages; nothing else touches the
budgets.
-/
namespace OpenMeet.ChatLimits

open Text Messages RoomState Repository SignalingServer SignalingSteps SlidingWindow RateLimiter
  TransitionSystem

/-- A chat message under the room's write lock, with the reading of each limiter. -/
def handleChatMessage (room : Room) (p : ParticipantId) (name : Option String)
    (recent : List Instant) (senderNow roomNow : Instant) (timestamp : Nat) (message : String)
    (replyToId : Option Nat) : Room × List Instant × Outbox :=
  let message := trim message
  if message = "" ∨ 2000 < charCount message then (room, recent, [])
  else
    let sender := allowSenderChatAction recent senderNow
    if !sender.1 then (room, sender.2, [])
    else
      let allowed := room.allowChatMessage roomNow
      if !allowed.1 then (allowed.2, sender.2, [])
      else
        let recorded := allowed.2.recordChatMessage
          { participantId := p
            participantName := name.getD "Unknown"
            message := message
            timestamp := timestamp
            replyTo := replyToId.bind allowed.2.chatReplyPreview }
        (recorded.1, sender.2, recorded.1.broadcast recorded.2.intoSignalingMessage)

def handleMessage (room : Room) (p : ParticipantId) (name : Option String)
    (recent : List Instant) (senderNow roomNow : Instant) (timestamp : Nat) :
    RoomRequest → Room × List Instant × Outbox
  | .mediaStateChanged audioEnabled videoEnabled =>
    let room := room.setMediaState p audioEnabled videoEnabled
    (room, recent, room.broadcastExcept p (.mediaStateChanged p audioEnabled videoEnabled))
  | .chatMessage message replyToId =>
    handleChatMessage room p name recent senderNow roomNow timestamp message replyToId
  | .chatReaction messageId emoji => postReaction room p recent senderNow messageId emoji

/-- The server's handler is this one with both readings equal. -/
theorem runRequest_eq (room : Room) (p : ParticipantId) (name : Option String)
    (recent : List Instant) (now timestamp : Nat) (request : RoomRequest) :
    runRequest room p name recent now timestamp request =
      handleMessage room p name recent now now timestamp request := by
  cases request <;> rfl

/-! ## The limiters -/

theorem limiter_allowSenderChatAction :
    Limiter allowSenderChatAction chatRateWindow chatRateLimit id :=
  limiter_slide (by decide)

theorem allowChatMessage_eq (room : Room) (now : Instant) :
    room.allowChatMessage now =
      ((slide roomChatRateWindow roomChatRateLimit room.recentChatMessages now).1,
        { room with recentChatMessages :=
            (slide roomChatRateWindow roomChatRateLimit room.recentChatMessages now).2 }) := by
  have hprune : (room.recentChatMessages.dropWhile fun sentAt =>
      decide (roomChatRateWindow ≤ now - sentAt)) =
        prune roomChatRateWindow now room.recentChatMessages := rfl
  simp only [Room.allowChatMessage, slide, hprune]
  by_cases hfull : roomChatRateLimit ≤
      (prune roomChatRateWindow now room.recentChatMessages).length
  · simp only [hfull, if_true]
  · simp only [hfull, if_false]

theorem limiter_allowChatMessage :
    Limiter Room.allowChatMessage roomChatRateWindow roomChatRateLimit
      Room.recentChatMessages where
  positive := by decide
  answer room now := by
    rw [allowChatMessage_eq]
    exact (limiter_slide (by decide)).answer room.recentChatMessages now
  keeps room now := by
    rw [allowChatMessage_eq]
    exact (limiter_slide (by decide)).keeps room.recentChatMessages now

/-! ## Client messages on their way -/

structure ChatServer where
  room : RoomRef → Room
  recentChatMessages : ParticipantId → List Instant

/-- A message of a connection that is in the room, with the clock readings for it. -/
structure ClientMessage where
  sender : ParticipantId
  userId : Option Uuid
  name : Option String
  ref : RoomRef
  request : RoomRequest
  senderNow : Instant
  roomNow : Instant
  timestamp : Nat

inductive Event
  | handle (m : ClientMessage)
  /-- Joins, departures, media states: whatever leaves the room's budget alone. -/
  | change (ref : RoomRef) (room : Room)

def ClientMessage.run (s : ChatServer) (m : ClientMessage) : Room × List Instant × Outbox :=
  handleMessage (s.room m.ref) m.sender m.name (s.recentChatMessages m.sender) m.senderNow
    m.roomNow m.timestamp m.request

def step (s : ChatServer) : Event → Option ChatServer
  | .handle m =>
    if !(s.room m.ref).hasActiveParticipant m.sender m.userId then some s
    else some
      { room := Function.update s.room m.ref (m.run s).1
        recentChatMessages := Function.update s.recentChatMessages m.sender (m.run s).2.1 }
  | .change ref room =>
    if room.recentChatMessages = (s.room ref).recentChatMessages then
      some { s with room := Function.update s.room ref room }
    else none

/-- Room objects and connections start with their budgets whole. -/
def chatTraffic (ids : RoomRef → RoomId) : System ChatServer Event where
  init := { room := fun ref => Room.new (ids ref), recentChatMessages := fun _ => [] }
  step := step

def isChatMessage : RoomRequest → Bool
  | .chatMessage .. => true
  | _ => false

def isChat : RoomRequest → Bool
  | .mediaStateChanged .. => false
  | _ => true

/-- The room's chat changes or something is queued to its participants. -/
def ClientMessage.takesEffect (s : ChatServer) (m : ClientMessage) : Bool :=
  (s.room m.ref).hasActiveParticipant m.sender m.userId &&
    (decide ((m.run s).1.chatHistory ≠ (s.room m.ref).chatHistory) || !(m.run s).2.2.isEmpty)

/-- When the chat messages and reactions of a connection took effect. -/
def senderEffects (p : ParticipantId) (s : ChatServer) : Event → List Instant
  | .handle m =>
    if m.sender = p ∧ isChat m.request ∧ m.takesEffect s then [m.senderNow] else []
  | .change .. => []

/-- When the chat messages of a room took effect. -/
def roomEffects (ref : RoomRef) (s : ChatServer) : Event → List Instant
  | .handle m =>
    if m.ref = ref ∧ isChatMessage m.request ∧ m.takesEffect s then [m.roomNow] else []
  | .change .. => []

/-- The readings for the messages of a connection. -/
def senderReadings (p : ParticipantId) : Event → List Instant
  | .handle m => if m.sender = p then [m.senderNow] else []
  | .change .. => []

/-- The readings for the messages to a room. -/
def roomReadings (ref : RoomRef) : Event → List Instant
  | .handle m => if m.ref = ref then [m.roomNow] else []
  | .change .. => []

/-! ## What a message asks -/

def asksSender : RoomRequest → Bool
  | .mediaStateChanged .. => false
  | .chatMessage message _ => !(decide (trim message = "" ∨ 2000 < charCount (trim message)))
  | .chatReaction .. => true

def asksRoom (recent : List Instant) (senderNow : Instant) (request : RoomRequest) : Bool :=
  isChatMessage request && asksSender request && (allowSenderChatAction recent senderNow).1

section Handle

variable (room : Room) (p : ParticipantId) (name : Option String) (recent : List Instant)
  (senderNow roomNow : Instant) (timestamp : Nat) (request : RoomRequest)

theorem handleMessage_sender :
    (handleMessage room p name recent senderNow roomNow timestamp request).2.1 =
      after allowSenderChatAction recent (if asksSender request then [senderNow] else []) := by
  cases request with
  | mediaStateChanged => rfl
  | chatReaction messageId emoji =>
    simp only [handleMessage, postReaction, asksSender, after]
    split
    · rfl
    · split <;> rfl
  | chatMessage message replyToId =>
    simp only [handleMessage, handleChatMessage, asksSender]
    split
    · rename_i hinvalid
      simp [hinvalid, after]
    · rename_i hvalid
      simp only [hvalid, decide_false, Bool.not_false, if_true]
      split
      · rfl
      · split <;> rfl

theorem handleMessage_room :
    (handleMessage room p name recent senderNow roomNow timestamp request).1.recentChatMessages =
      after (slide roomChatRateWindow roomChatRateLimit) room.recentChatMessages
        (if asksRoom recent senderNow request then [roomNow] else []) := by
  cases request with
  | mediaStateChanged => rfl
  | chatReaction messageId emoji =>
    simp only [handleMessage, asksRoom, isChatMessage, Bool.false_and, postReaction]
    split
    · rfl
    · split
      · rfl
      · rename_i after reactions htoggle
        simp only [Room.toggleChatReaction, Option.bind_eq_some_iff, Option.map_eq_some_iff,
          Prod.mk.injEq] at htoggle
        obtain ⟨_, _, _, _, rfl, _⟩ := htoggle
        rfl
  | chatMessage message replyToId =>
    simp only [handleMessage, handleChatMessage, asksRoom, isChatMessage, asksSender,
      Bool.true_and]
    split
    · rename_i hinvalid
      simp [hinvalid, after]
    · rename_i hvalid
      simp only [hvalid, decide_false, Bool.not_false, Bool.true_and]
      split
      · rename_i hsender
        simp only [Bool.not_eq_eq_eq_not, Bool.not_true] at hsender
        simp [hsender, after]
      · rename_i hsender
        have hasked : (allowSenderChatAction recent senderNow).1 = true := by simpa using hsender
        simp only [hasked, if_true]
        have hqueue := congrArg (·.2.recentChatMessages) (allowChatMessage_eq room roomNow)
        split
        · exact hqueue
        · exact hqueue

/-- A message with an effect was let through by every budget it asked. -/
theorem handleMessage_effect (hchat : isChat request = true)
    (heffect :
      (handleMessage room p name recent senderNow roomNow timestamp request).1.chatHistory ≠
        room.chatHistory ∨
      (handleMessage room p name recent senderNow roomNow timestamp request).2.2 ≠ []) :
    (asksSender request = true ∧ (allowSenderChatAction recent senderNow).1 = true) ∧
      (isChatMessage request = true → (room.allowChatMessage roomNow).1 = true) := by
  cases request with
  | mediaStateChanged => cases hchat
  | chatReaction messageId emoji =>
    refine ⟨⟨rfl, ?_⟩, nofun⟩
    by_contra hrefused
    rw [Bool.not_eq_true] at hrefused
    simp [handleMessage, postReaction, hrefused] at heffect
  | chatMessage message replyToId =>
    have hvalid : ¬ (trim message = "" ∨ 2000 < charCount (trim message)) := by
      intro hinvalid
      simp [handleMessage, handleChatMessage, hinvalid] at heffect
    have hsender : (allowSenderChatAction recent senderNow).1 = true := by
      by_contra hrefused
      rw [Bool.not_eq_true] at hrefused
      simp [handleMessage, handleChatMessage, hvalid, hrefused] at heffect
    refine ⟨⟨by simp [asksSender, hvalid], hsender⟩, fun _ => ?_⟩
    by_contra hrefused
    rw [Bool.not_eq_true] at hrefused
    have hhistory := congrArg (·.2.chatHistory) (allowChatMessage_eq room roomNow)
    simp only [handleMessage, handleChatMessage, hvalid, hsender, hrefused, if_false,
      Bool.not_true, Bool.not_false, if_true, Bool.false_eq_true] at heffect
    simp [hhistory] at heffect

end Handle

/-- The calls of the sender's limiter. -/
def senderCalls (p : ParticipantId) (s : ChatServer) : Event → List Instant
  | .handle m =>
    if m.sender = p ∧ (s.room m.ref).hasActiveParticipant m.sender m.userId ∧
        asksSender m.request then [m.senderNow]
    else []
  | .change .. => []

/-- The calls of the room's limiter. -/
def roomCalls (ref : RoomRef) (s : ChatServer) : Event → List Instant
  | .handle m =>
    if m.ref = ref ∧ (s.room m.ref).hasActiveParticipant m.sender m.userId ∧
        asksRoom (s.recentChatMessages m.sender) m.senderNow m.request then [m.roomNow]
    else []
  | .change .. => []

section Steps

variable {s t : ChatServer} {event : Event} {p : ParticipantId} {ref : RoomRef}

theorem step_sender (h : step s event = some t) :
    t.recentChatMessages p =
      after allowSenderChatAction (s.recentChatMessages p) (senderCalls p s event) := by
  cases event with
  | change other room =>
    obtain ⟨-, h⟩ := Option.ite_none_right_eq_some.mp h
    cases h
    rfl
  | handle m =>
    simp only [step] at h
    split at h
    · rename_i hinactive
      have hcalls : senderCalls p s (.handle m) = [] := by
        simp only [Bool.not_eq_eq_eq_not, Bool.not_true] at hinactive
        simp [senderCalls, hinactive]
      cases h
      rw [hcalls]
      rfl
    · rename_i hactive
      simp only [Bool.not_eq_eq_eq_not, Bool.not_true, Bool.not_eq_false] at hactive
      cases h
      by_cases hsender : m.sender = p
      · subst hsender
        have hbudget := handleMessage_sender (s.room m.ref) m.sender m.name
          (s.recentChatMessages m.sender) m.senderNow m.roomNow m.timestamp m.request
        simpa [senderCalls, hactive, ClientMessage.run] using hbudget
      · simp [senderCalls, hsender, Ne.symm hsender, after]

theorem step_room (h : step s event = some t) :
    (t.room ref).recentChatMessages =
      after (slide roomChatRateWindow roomChatRateLimit) (s.room ref).recentChatMessages
        (roomCalls ref s event) := by
  cases event with
  | change other room =>
    obtain ⟨hsame, h⟩ := Option.ite_none_right_eq_some.mp h
    cases h
    by_cases hother : ref = other
    · subst hother
      simpa [roomCalls, after] using hsame
    · simp [roomCalls, after, hother]
  | handle m =>
    simp only [step] at h
    split at h
    · rename_i hinactive
      have hcalls : roomCalls ref s (.handle m) = [] := by
        simp only [Bool.not_eq_eq_eq_not, Bool.not_true] at hinactive
        simp [roomCalls, hinactive]
      cases h
      rw [hcalls]
      rfl
    · rename_i hactive
      simp only [Bool.not_eq_eq_eq_not, Bool.not_true, Bool.not_eq_false] at hactive
      cases h
      by_cases href : m.ref = ref
      · subst href
        have hbudget := handleMessage_room (s.room m.ref) m.sender m.name
          (s.recentChatMessages m.sender) m.senderNow m.roomNow m.timestamp m.request
        simpa [roomCalls, hactive, ClientMessage.run] using hbudget
      · simp [roomCalls, href, Ne.symm href, after]

/-- What taking effect says about the handler. -/
theorem effect_of_takesEffect {m : ClientMessage} (heffect : m.takesEffect s = true)
    (hchat : isChat m.request = true) :
    (s.room m.ref).hasActiveParticipant m.sender m.userId = true ∧
      (asksSender m.request = true ∧
        (allowSenderChatAction (s.recentChatMessages m.sender) m.senderNow).1 = true) ∧
      (isChatMessage m.request = true →
        ((s.room m.ref).allowChatMessage m.roomNow).1 = true) := by
  obtain ⟨hactive, hchange⟩ := Bool.and_eq_true_iff.mp heffect
  refine ⟨hactive, ?_⟩
  apply handleMessage_effect _ m.sender m.name _ _ _ m.timestamp _ hchat
  rcases Bool.or_eq_true_iff.mp hchange with hhistory | houtbox
  · exact Or.inl (of_decide_eq_true hhistory)
  · right
    simpa [ClientMessage.run] using houtbox

theorem senderEffects_sublist :
    (senderEffects p s event).Sublist
      (accepted allowSenderChatAction (s.recentChatMessages p) (senderCalls p s event)) := by
  cases event with
  | change => exact List.nil_sublist _
  | handle m =>
    rw [senderEffects]
    split
    · rename_i h
      obtain ⟨rfl, hchat, heffect⟩ := h
      obtain ⟨hactive, ⟨hasked, hallowed⟩, -⟩ := effect_of_takesEffect heffect hchat
      simp [senderCalls, hactive, hasked, accepted, hallowed]
    · exact List.nil_sublist _

theorem roomEffects_sublist :
    (roomEffects ref s event).Sublist
      (accepted (slide roomChatRateWindow roomChatRateLimit) (s.room ref).recentChatMessages
        (roomCalls ref s event)) := by
  cases event with
  | change => exact List.nil_sublist _
  | handle m =>
    rw [roomEffects]
    split
    · rename_i h
      obtain ⟨rfl, hmessage, heffect⟩ := h
      have hchat : isChat m.request = true := by
        revert hmessage
        cases m.request <;> simp [isChat, isChatMessage]
      obtain ⟨hactive, ⟨hasked, hallowed⟩, hroom⟩ := effect_of_takesEffect heffect hchat
      have hslide : (slide roomChatRateWindow roomChatRateLimit
          (s.room m.ref).recentChatMessages m.roomNow).1 = true := by
        have hallowed := hroom hmessage
        rwa [allowChatMessage_eq] at hallowed
      simp [roomCalls, hactive, asksRoom, hasked, hmessage, accepted, hallowed, hslide]
    · exact List.nil_sublist _

theorem senderCalls_sublist :
    (senderCalls p s event).Sublist (senderReadings p event) := by
  cases event with
  | change => exact List.Sublist.slnil
  | handle m =>
    simp only [senderCalls, senderReadings]
    split
    · rename_i h
      simp [h.1]
    · exact List.nil_sublist _

theorem roomCalls_sublist : (roomCalls ref s event).Sublist (roomReadings ref event) := by
  cases event with
  | change => exact List.Sublist.slnil
  | handle m =>
    simp only [roomCalls, roomReadings]
    split
    · rename_i h
      simp [h.1]
    · exact List.nil_sublist _

end Steps

/-- The limiters count accepted calls in a window, and so no window of a connection holds more
than 10 chat messages and reactions and no window of a room more than 50 chat messages. -/
theorem chatLimits :
    (∀ (calls : List Instant) (now : Instant), (calls ++ [now]).Pairwise (· ≤ ·) →
      ((allowSenderChatAction (after allowSenderChatAction [] calls) now).1 = true ↔
        (recent chatRateWindow now (accepted allowSenderChatAction [] calls)).length <
          chatRateLimit) ∧
      (allowSenderChatAction (after allowSenderChatAction [] calls) now).2.length ≤
        chatRateLimit) ∧
    (∀ (id : RoomId) (calls : List Instant) (now : Instant),
      (calls ++ [now]).Pairwise (· ≤ ·) →
      (((after Room.allowChatMessage (Room.new id) calls).allowChatMessage now).1 = true ↔
        (recent (5 * 1000000000) now
          (accepted Room.allowChatMessage (Room.new id) calls)).length < 50) ∧
      ((after Room.allowChatMessage (Room.new id) calls).allowChatMessage
        now).2.recentChatMessages.length ≤ 50) ∧
    ∀ (ids : RoomRef → RoomId) (events : List Event),
      (∀ p, (events.flatMap (senderReadings p)).Pairwise (· ≤ ·) → ∀ start,
        within chatRateWindow start
          ((chatTraffic ids).outputs (senderEffects p) (chatTraffic ids).init events) ≤
            chatRateLimit) ∧
      ∀ ref, (events.flatMap (roomReadings ref)).Pairwise (· ≤ ·) → ∀ start,
        within (5 * 1000000000) start
          ((chatTraffic ids).outputs (roomEffects ref) (chatTraffic ids).init events) ≤ 50 := by
  refine ⟨?_, ?_, ?_⟩
  · intro calls now hcalls
    exact limiter_allowSenderChatAction.answers rfl hcalls
  · intro id calls now hcalls
    exact limiter_allowChatMessage.answers rfl hcalls
  · intro ids events
    constructor
    · intro p hclock start
      have hreadings : ∀ s event, (senderCalls p s event).Sublist (senderReadings p event) :=
        fun _ _ => senderCalls_sublist
      exact limiter_allowSenderChatAction.within_effects (·.recentChatMessages p)
        (fun _ _ _ => step_sender) (fun _ _ => senderEffects_sublist) hreadings rfl hclock start
    · intro ref hclock start
      have hlimiter : Limiter (slide roomChatRateWindow roomChatRateLimit) roomChatRateWindow
          roomChatRateLimit id := limiter_slide (by decide)
      have hreadings : ∀ s event, (roomCalls ref s event).Sublist (roomReadings ref event) :=
        fun _ _ => roomCalls_sublist
      exact hlimiter.within_effects (fun s => (s.room ref).recentChatMessages)
        (fun _ _ _ => step_room) (fun _ _ => roomEffects_sublist) hreadings rfl hclock start

def alice : ClientMessage where
  sender := "a"
  userId := none
  name := some "Alice"
  ref := 0
  request := .chatMessage "hello" none
  senderNow := 7
  roomNow := 8
  timestamp := 0

def chatting : List Event :=
  let joined := (Room.new "room").addParticipant
    (newConnection "a" none ⟨"room", "Alice", none, none⟩)
  [.change 0 joined.1, .handle alice]

theorem chatting_limited :
    (allowSenderChatAction (after allowSenderChatAction [] [1, 2]) 3).2.length ≤
        chatRateLimit ∧
      (chatTraffic fun _ => "room").outputs (senderEffects "a") (chatTraffic fun _ => "room").init
        chatting = [7] ∧
      within chatRateWindow 7 ((chatTraffic fun _ => "room").outputs (senderEffects "a")
        (chatTraffic fun _ => "room").init chatting) ≤ chatRateLimit ∧
      within (5 * 1000000000) 8 ((chatTraffic fun _ => "room").outputs (roomEffects 0)
        (chatTraffic fun _ => "room").init chatting) ≤ 50 := by
  obtain ⟨hsender, -, htraffic⟩ := chatLimits
  obtain ⟨hsenders, hrooms⟩ := htraffic (fun _ => "room") chatting
  refine ⟨(hsender [1, 2] 3 (by decide)).2, by decide +kernel, ?_, ?_⟩
  · exact hsenders "a" (by decide) 7
  · exact hrooms 0 (by decide) 8

/-! ## The budgets of the signaling server -/

theorem removeParticipant_recentChatMessages (room : Room) (p : ParticipantId) :
    (room.removeParticipant p).1.recentChatMessages = room.recentChatMessages := by
  unfold Room.removeParticipant
  split <;> rfl

theorem removeParticipants_recentChatMessages (room : Room) (ids : List ParticipantId) :
    (room.removeParticipants ids).1.recentChatMessages = room.recentChatMessages := by
  induction ids generalizing room with
  | nil => rfl
  | cons id rest ih =>
    rw [Room.removeParticipants, ih, removeParticipant_recentChatMessages]

/-- Only a chat request touches a budget; a new room object has its budget whole. -/
theorem transition_budgets {env : Environment} {s t : Server} {a : Action}
    (h : Transitions.Transition env s a t)
    (ha : ∀ p now timestamp, a ≠ .applyRequest p now timestamp) :
    t.recentChatActions = s.recentChatActions ∧
      ∀ ref, (t.room ref).recentChatMessages = (s.room ref).recentChatMessages ∨
        ∃ roomId, t.room ref = Room.new roomId := by
  have hset : ∀ (ref : RoomRef) (room : Room), room.recentChatMessages =
      (s.room ref).recentChatMessages → ∀ other, (Function.update s.repository.objects ref room
        other).recentChatMessages = (s.room other).recentChatMessages := by
    intro ref room hroom other
    by_cases hother : other = ref
    · subst hother
      simpa using hroom
    · simp [hother]
  cases h with
  | applyRequest p now timestamp => exact absurd rfl (ha p now timestamp)
  | createRoom p req authorization repository htask hcreate =>
    obtain ⟨-, -, -, -, hobjects, -⟩ := s.repository.createRoom_eq_ok hcreate
    refine ⟨rfl, fun ref => ?_⟩
    by_cases href : ref = s.repository.nextRef
    · subst href
      exact Or.inr ⟨req.roomId, by simp [hobjects]⟩
    · exact Or.inl (by simp [hobjects, href])
  | join p peer req target =>
    refine ⟨rfl, fun ref => Or.inl ?_⟩
    exact hset target ((s.room target).addParticipant (newConnection p _ req)).1 rfl ref
  | cleanUp =>
    refine ⟨rfl, fun ref => Or.inl (hset _ _ ?_ ref)⟩
    rw [Room.removeWithScreenShares, removeParticipants_recentChatMessages,
      removeParticipant_recentChatMessages]
  | markDenied i e roomId target =>
    exact ⟨rfl, fun ref => Or.inl (hset target ((s.room target).denyUser e.userId) rfl ref)⟩
  | evict =>
    exact ⟨rfl, fun ref => Or.inl (hset _ _ (removeParticipants_recentChatMessages ..) ref)⟩
  | closeRoom =>
    exact ⟨rfl, fun ref => Or.inl (hset _ _ (removeParticipants_recentChatMessages ..) ref)⟩
  | revokeUnmapped i c roomId rest hclosure hstage hroom =>
    refine ⟨rfl, fun ref => Or.inl ?_⟩
    simp [s.repository.revokeRoom_objects, hroom]
  | revokeMapped i c roomId target rest hclosure hstage hroom =>
    refine ⟨rfl, fun ref => Or.inl ?_⟩
    have hrevoked := hset target { s.room target with revoked := true } rfl ref
    simpa [s.repository.revokeRoom_objects, hroom] using hrevoked
  | _ => exact ⟨rfl, fun ref => Or.inl rfl⟩

end OpenMeet.ChatLimits
