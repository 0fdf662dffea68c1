import OpenMeet.Consistency

/-!
What a client knows of its room. A client folds the messages queued to it since
it joined into a roster and a chat; the room keeps its participants and its chat
history. Every room operation queues to each participant what turns its view of
the room before into its view of the room after, and the messages of the join
build the view of the room the participant entered. Once a send task has ended
nothing more is queued to its participant, who stays in the room until the socket
task has found it there.
-/
namespace OpenMeet.ViewConvergence

open KeyedMap Messages RoomState Repository SignalingServer SignalingSteps TransitionSystem
open Transitions Consistency

structure RosterEntry where
  name : String
  screenShareOf : Option ParticipantId
  audioEnabled : Bool
  videoEnabled : Bool
  deriving DecidableEq, Repr

structure ChatEntry where
  id : Nat
  text : String
  reactions : List ChatMessageReaction
  deriving DecidableEq, Repr

structure ClientView where
  roster : Map ParticipantId RosterEntry
  chat : List ChatEntry

def rosterEntry (c : ParticipantConnection) : RosterEntry where
  name := c.participant.name
  screenShareOf := c.participant.screenShareOf
  audioEnabled := c.participant.audioEnabled
  videoEnabled := c.participant.videoEnabled

def chatEntry (m : ChatMessagePayload) : ChatEntry where
  id := m.id
  text := m.message
  reactions := m.reactions

/-- The newest 500 messages of a chat. -/
def newest (chat : List ChatEntry) : List ChatEntry := chat.drop (chat.length - 500)

def setEntryReactions (messageId : Nat) (reactions : List ChatMessageReaction)
    (chat : List ChatEntry) : List ChatEntry :=
  chat.map fun e => if e.id = messageId then { e with reactions := reactions } else e

namespace ClientView

def empty : ClientView where
  roster := ∅
  chat := []

/-- One message as a client takes it in. A participant that joins has both media on. -/
def apply (v : ClientView) : SignalingMessage → ClientView
  | .chatHistory messages => { v with chat := messages.map chatEntry }
  | .participantJoined id name screenShareOf =>
    { v with roster := v.roster.insert id ⟨name, screenShareOf, true, true⟩ }
  | .participantLeft id => { v with roster := v.roster.erase id }
  | .mediaStateChanged id audioEnabled videoEnabled =>
    { v with
      roster := v.roster.modify id fun e =>
        { e with audioEnabled := audioEnabled, videoEnabled := videoEnabled } }
  | .chatMessage id _ _ message _ _ _ reactions =>
    { v with chat := newest (v.chat ++ [⟨id, message, reactions⟩]) }
  | .chatReactionsChanged messageId reactions =>
    { v with chat := setEntryReactions messageId reactions v.chat }
  | _ => v

end ClientView

def isJoined : SignalingMessage → Bool
  | .joined _ _ => true
  | _ => false

/-- The messages from the confirmation of the join on. -/
def sinceJoined (messages : List SignalingMessage) : List SignalingMessage :=
  messages.dropWhile fun m => !isJoined m

def clientView (messages : List SignalingMessage) : ClientView :=
  (sinceJoined messages).foldl ClientView.apply ClientView.empty

/-- A view agrees with a room: its roster is the participants without the client itself, and
its chat is the room's history. -/
structure Agrees (v : ClientView) (room : Room) (p : ParticipantId) : Prop where
  roster : ∀ q, v.roster.lookup q =
    if q = p then none else (room.participants.lookup q).map rosterEntry
  chat : v.chat = room.chatHistory.map chatEntry

/-! ## Folding messages -/

theorem messagesTo_map {ids : List ParticipantId} (hnodup : ids.Nodup) (m : SignalingMessage)
    (p : ParticipantId) :
    messagesTo p (ids.map fun id => (id, m)) = if p ∈ ids then [m] else [] := by
  induction ids with
  | nil => rfl
  | cons id rest ih =>
    obtain ⟨hnot, hrest⟩ := List.nodup_cons.mp hnodup
    have hstep : messagesTo p ((id :: rest).map fun id => (id, m)) =
        (if id = p then [m] else []) ++ messagesTo p (rest.map fun id => (id, m)) := by
      by_cases hid : id = p <;> simp [messagesTo, hid]
    rw [hstep, ih hrest]
    by_cases hid : id = p
    · subst hid
      simp [hnot]
    · simp [hid, Ne.symm hid]

@[simp] theorem messagesTo_append (p : ParticipantId) (first second : Outbox) :
    messagesTo p (first ++ second) = messagesTo p first ++ messagesTo p second := by
  simp [messagesTo]

theorem messagesTo_broadcast (room : Room) (m : SignalingMessage) (p : ParticipantId) :
    messagesTo p (room.broadcast m) = if p ∈ room.participants then [m] else [] := by
  rw [Room.broadcast, messagesTo_map room.participants.keys_nodup]
  simp [AList.mem_keys]

theorem messagesTo_broadcastExcept (room : Room) (q : ParticipantId) (m : SignalingMessage)
    (p : ParticipantId) :
    messagesTo p (room.broadcastExcept q m) =
      if p ∈ room.participants ∧ p ≠ q then [m] else [] := by
  rw [Room.broadcastExcept, messagesTo_map (room.participants.keys_nodup.filter _)]
  simp [AList.mem_keys]

theorem sinceJoined_append {messages : List SignalingMessage}
    (hjoined : ∃ m ∈ messages, isJoined m = true) (later : List SignalingMessage) :
    sinceJoined (messages ++ later) = sinceJoined messages ++ later := by
  induction messages with
  | nil => simp at hjoined
  | cons m rest ih =>
    by_cases hm : isJoined m = true
    · simp [sinceJoined, hm]
    · have hrest : ∃ m ∈ rest, isJoined m = true := by simpa [hm] using hjoined
      simpa [sinceJoined, hm] using ih hrest

theorem clientView_append {messages : List SignalingMessage}
    (hjoined : ∃ m ∈ messages, isJoined m = true) (later : List SignalingMessage) :
    clientView (messages ++ later) = later.foldl ClientView.apply (clientView messages) := by
  rw [clientView, sinceJoined_append hjoined, List.foldl_append, clientView]

/-- Before the join nothing is folded. -/
theorem sinceJoined_of_silent {messages : List SignalingMessage}
    (hsilent : ∀ m ∈ messages, isJoined m = false) (later : List SignalingMessage) :
    sinceJoined (messages ++ later) = sinceJoined later := by
  induction messages with
  | nil => rfl
  | cons m rest ih =>
    have hm := hsilent m List.mem_cons_self
    simpa [sinceJoined, hm] using ih fun m hm => hsilent m (List.mem_cons_of_mem _ hm)

/-! ## Room operations -/

/-- Ids are assigned in order, none above the last one, and the history is bounded. -/
structure ChatOrdered (room : Room) : Prop where
  increasing : room.chatHistory.Pairwise fun m m' => m.id < m'.id
  id_le : ∀ m ∈ room.chatHistory, m.id ≤ room.lastChatMessageId
  length_le : room.chatHistory.length ≤ 500

/-- An operation queues to everybody who stays what turns the old view into the new one, and
nothing to anybody outside. -/
structure Delivers (before after : Room) (outbox : Outbox) : Prop where
  agrees : ∀ p ∈ before.participants, p ∈ after.participants → ∀ v, Agrees v before p →
    Agrees ((messagesTo p outbox).foldl ClientView.apply v) after p
  outside : ∀ p, p ∉ before.participants → messagesTo p outbox = []

section Operations

variable {room : Room}

theorem delivers_addParticipant (c : ParticipantConnection)
    (hmedia : c.participant.audioEnabled = true ∧ c.participant.videoEnabled = true)
    (hnew : c.participant.id ∉ room.participants) :
    Delivers room (room.addParticipant c).1 (room.addParticipant c).2 where
  agrees p hmem _ v hv := by
    have hne : p ≠ c.participant.id := by
      rintro rfl
      exact hnew hmem
    have hmessages : messagesTo p (room.addParticipant c).2 =
        [.participantJoined c.participant.id c.participant.name
          c.participant.screenShareOf] := by
      simp only [Room.addParticipant, messagesTo_broadcastExcept]
      simp [hmem, hne]
    rw [hmessages]
    refine ⟨?_, hv.chat⟩
    intro r
    by_cases hr : r = c.participant.id
    · subst hr
      simp [ClientView.apply, Room.addParticipant, Ne.symm hne, rosterEntry, hmedia]
    · simpa [ClientView.apply, Room.addParticipant, hr] using hv.roster r
  outside p hmem := by
    simp only [Room.addParticipant, messagesTo_broadcastExcept]
    simp [hmem]

theorem delivers_removeParticipant (q : ParticipantId) :
    Delivers room (room.removeParticipant q).1 (room.removeParticipant q).2 := by
  by_cases hq : q ∈ room.participants
  · have hmessages : ∀ p, messagesTo p (room.removeParticipant q).2 =
        if p ∈ room.participants ∧ p ≠ q then [.participantLeft q] else [] := by
      intro p
      have hafter := room.removeParticipant_participants q
      simp only [Room.removeParticipant, hq, if_true] at hafter ⊢
      rw [messagesTo_broadcast, hafter]
      simp [and_comm]
    refine ⟨?_, ?_⟩
    · intro p hmem hstays v hv
      have hne : p ≠ q := by
        rintro rfl
        simp at hstays
      rw [hmessages, if_pos ⟨hmem, hne⟩]
      refine ⟨?_, by simpa [ClientView.apply] using hv.chat⟩
      intro r
      by_cases hr : r = q
      · subst hr
        simp [ClientView.apply]
      · simpa [ClientView.apply, hr] using hv.roster r
    · intro p hmem
      rw [hmessages, if_neg (fun h => hmem h.1)]
  · simp only [Room.removeParticipant, hq, if_false]
    exact ⟨fun _ _ _ _ hv => hv, fun _ _ => rfl⟩

/-- Two operations, of which the second adds nobody the first removed. -/
theorem Delivers.trans {before middle after : Room} {first second : Outbox}
    (h₁ : Delivers before middle first) (h₂ : Delivers middle after second)
    (hmiddle : ∀ p ∈ middle.participants, p ∈ before.participants)
    (hafter : ∀ p ∈ after.participants, p ∈ middle.participants) :
    Delivers before after (first ++ second) where
  agrees p hmem hstays v hv := by
    rw [messagesTo_append, List.foldl_append]
    exact h₂.agrees p (hafter p hstays) hstays _ (h₁.agrees p hmem (hafter p hstays) v hv)
  outside p hmem := by
    rw [messagesTo_append, h₁.outside p hmem, h₂.outside p fun h => hmem (hmiddle p h)]
    rfl

private theorem mem_of_mem_removeParticipant {p q : ParticipantId}
    (h : p ∈ (room.removeParticipant q).1.participants) : p ∈ room.participants := by
  simp only [Room.removeParticipant_participants, AList.mem_erase] at h
  exact h.2

private theorem mem_of_mem_removeParticipants {p : ParticipantId} {ids : List ParticipantId}
    (h : p ∈ (room.removeParticipants ids).1.participants) : p ∈ room.participants := by
  rw [← AList.lookup_isSome, Room.lookup_removeParticipants] at h
  split at h
  · cases h
  · exact AList.lookup_isSome.mp h

theorem delivers_removeParticipants (ids : List ParticipantId) :
    Delivers room (room.removeParticipants ids).1 (room.removeParticipants ids).2 := by
  induction ids generalizing room with
  | nil => exact ⟨fun _ _ _ _ hv => hv, fun _ _ => rfl⟩
  | cons id rest ih =>
    refine (delivers_removeParticipant id).trans ih ?_ ?_
    · exact fun _ => mem_of_mem_removeParticipant
    · exact fun _ h => mem_of_mem_removeParticipants h

theorem delivers_removeWithScreenShares (q : ParticipantId) :
    Delivers room (room.removeWithScreenShares q).1 (room.removeWithScreenShares q).2 :=
  (delivers_removeParticipant q).trans (delivers_removeParticipants _)
    (fun _ => mem_of_mem_removeParticipant) (fun _ => mem_of_mem_removeParticipants)

theorem delivers_setMediaState (q : ParticipantId) (audioEnabled videoEnabled : Bool) :
    Delivers room (room.setMediaState q audioEnabled videoEnabled)
      ((room.setMediaState q audioEnabled videoEnabled).broadcastExcept q
        (.mediaStateChanged q audioEnabled videoEnabled)) where
  agrees p hmem hstays v hv := by
    rw [messagesTo_broadcastExcept]
    by_cases hpq : p = q
    · subst hpq
      refine ⟨?_, by simpa [Room.setMediaState] using hv.chat⟩
      intro r
      by_cases hr : r = p
      · subst hr
        simpa using hv.roster r
      · simpa [Room.setMediaState, hr] using hv.roster r
    · rw [if_pos ⟨hstays, hpq⟩]
      refine ⟨?_, hv.chat⟩
      intro r
      have hbefore := hv.roster r
      by_cases hr : r = q
      · subst hr
        have hne : r ≠ p := Ne.symm hpq
        simp only [if_neg hne] at hbefore ⊢
        simp [ClientView.apply, Room.setMediaState, hbefore, rosterEntry, Function.comp_def]
      · simpa [ClientView.apply, Room.setMediaState, hr] using hbefore
  outside p hmem := by
    rw [messagesTo_broadcastExcept, if_neg]
    simp [Room.setMediaState, hmem]

end Operations

/-! ## Chat -/

section Chat

variable {room : Room}

theorem ChatOrdered.congr {after : Room} (h : ChatOrdered room)
    (hhistory : after.chatHistory = room.chatHistory)
    (hlast : after.lastChatMessageId = room.lastChatMessageId) : ChatOrdered after where
  increasing := hhistory ▸ h.increasing
  id_le := hhistory ▸ hlast ▸ h.id_le
  length_le := hhistory ▸ h.length_le

/-- A view depends on the participants and the chat history of a room only. -/
theorem Agrees.congr {after : Room} {v : ClientView} {p : ParticipantId} (h : Agrees v room p)
    (hparticipants : after.participants = room.participants)
    (hhistory : after.chatHistory = room.chatHistory) : Agrees v after p where
  roster := hparticipants ▸ h.roster
  chat := hhistory ▸ h.chat

/-- What is left of the history when one more message is to come. -/
private theorem recorded_history (room : Room) (message : ChatMessagePayload) :
    (room.recordChatMessage message).1.chatHistory =
      room.chatHistory.drop (room.chatHistory.length + 1 - 500) ++
        [(room.recordChatMessage message).2] ∨ 500 < room.chatHistory.length := by
  by_cases hfull : room.chatHistory.length = 500
  · refine .inl ?_
    simp [Room.recordChatMessage, chatHistoryCapacity, hfull]
  · by_cases hlt : room.chatHistory.length < 500
    · have hzero : room.chatHistory.length + 1 - 500 = 0 := by omega
      refine .inl ?_
      simp [Room.recordChatMessage, chatHistoryCapacity, hfull, hzero]
    · exact .inr (by omega)

theorem chatOrdered_recordChatMessage (h : ChatOrdered room) (message : ChatMessagePayload) :
    ChatOrdered (room.recordChatMessage message).1 := by
  have hhistory := (recorded_history room message).resolve_right
    (Nat.not_lt.mpr h.length_le)
  have hlast : (room.recordChatMessage message).1.lastChatMessageId =
      room.lastChatMessageId + 1 := rfl
  have hid : (room.recordChatMessage message).2.id = room.lastChatMessageId + 1 := rfl
  refine ⟨?_, ?_, ?_⟩
  · rw [hhistory]
    refine List.pairwise_append.mpr ⟨h.increasing.drop, List.pairwise_singleton _ _, ?_⟩
    intro m hm m' hm'
    obtain rfl := List.mem_singleton.mp hm'
    have hle := h.id_le m (List.mem_of_mem_drop hm)
    omega
  · rw [hhistory]
    intro m hm
    rcases List.mem_append.mp hm with hold | hnew
    · have hle := h.id_le m (List.mem_of_mem_drop hold)
      omega
    · obtain rfl := List.mem_singleton.mp hnew
      omega
  · have hle := h.length_le
    simp only [hhistory, List.length_append, List.length_drop, List.length_singleton]
    omega

theorem delivers_recordChatMessage (h : ChatOrdered room) (message : ChatMessagePayload) :
    Delivers room (room.recordChatMessage message).1
      ((room.recordChatMessage message).1.broadcast
        (room.recordChatMessage message).2.intoSignalingMessage) where
  agrees p hmem hstays v hv := by
    have hhistory := (recorded_history room message).resolve_right
      (Nat.not_lt.mpr h.length_le)
    have hle := h.length_le
    rw [messagesTo_broadcast, if_pos hstays]
    refine ⟨fun r => by
      simpa [ClientView.apply, ChatMessagePayload.intoSignalingMessage,
        Room.recordChatMessage] using hv.roster r, ?_⟩
    rw [hhistory]
    simp only [List.foldl_cons, List.foldl_nil, ChatMessagePayload.intoSignalingMessage,
      ClientView.apply, newest, hv.chat, List.length_append, List.length_map,
      List.length_singleton, List.map_append, List.map_cons, List.map_nil, List.map_drop]
    rw [List.drop_append_of_le_length (by simp)]
    rfl
  outside p hmem := by
    have hsame : (room.recordChatMessage message).1.participants = room.participants := rfl
    rw [messagesTo_broadcast, hsame, if_neg hmem]

/-- Where ids are distinct, rewriting the first message with an id rewrites all of them. -/
theorem map_setReactions (messageId : Nat) (reactions : List ChatMessageReaction)
    {history : List ChatMessagePayload} (h : history.Pairwise fun m m' => m.id < m'.id) :
    (Room.setReactions messageId reactions history).map chatEntry =
      setEntryReactions messageId reactions (history.map chatEntry) := by
  induction history with
  | nil => rfl
  | cons m rest ih =>
    obtain ⟨hfirst, hrest⟩ := List.pairwise_cons.mp h
    by_cases hm : m.id = messageId
    · have hothers : (rest.map chatEntry).map (fun e =>
          if e.id = messageId then { e with reactions := reactions } else e) =
          rest.map chatEntry := by
        rw [List.map_map]
        refine List.map_congr_left fun m' hm' => ?_
        have hne : m'.id ≠ messageId := by
          have hlt := hfirst m' hm'
          omega
        simp [chatEntry, hne]
      simp only [Room.setReactions, hm, if_true, setEntryReactions, List.map_cons, hothers]
      simp [chatEntry, hm]
    · simp only [Room.setReactions, hm, if_false, List.map_cons, ih hrest, setEntryReactions]
      simp [chatEntry, hm]

theorem setReactions_ids (messageId : Nat) (reactions : List ChatMessageReaction)
    (history : List ChatMessagePayload) :
    (Room.setReactions messageId reactions history).map (·.id) = history.map (·.id) := by
  induction history with
  | nil => rfl
  | cons m rest ih =>
    by_cases hm : m.id = messageId
    · simp [Room.setReactions, hm]
    · simp [Room.setReactions, hm, ih]

/-- Toggling a reaction rewrites the reactions of one message. -/
private theorem toggleChatReaction_eq {after : Room} {messageId : Nat} {p : ParticipantId}
    {emoji : String} {reactions : List ChatMessageReaction}
    (h : room.toggleChatReaction messageId p emoji = some (after, reactions)) :
    after = { room with
      chatHistory := Room.setReactions messageId reactions room.chatHistory } := by
  simp only [Room.toggleChatReaction, Option.bind_eq_some_iff, Option.map_eq_some_iff,
    Prod.mk.injEq] at h
  obtain ⟨message, -, reactions', -, hafter, rfl⟩ := h
  exact hafter.symm

theorem chatOrdered_setReactions (h : ChatOrdered room) (messageId : Nat)
    (reactions : List ChatMessageReaction) :
    ChatOrdered { room with
      chatHistory := Room.setReactions messageId reactions room.chatHistory } := by
  have hids := setReactions_ids messageId reactions room.chatHistory
  refine ⟨?_, ?_, ?_⟩
  · have hbefore := List.pairwise_map.mpr h.increasing
    rw [← hids] at hbefore
    exact List.pairwise_map.mp hbefore
  · intro m hm
    have hmem : m.id ∈ room.chatHistory.map (·.id) := hids ▸ List.mem_map_of_mem hm
    obtain ⟨m', hm', heq⟩ := List.mem_map.mp hmem
    exact heq ▸ h.id_le m' hm'
  · have hlength := congrArg List.length hids
    simp only [List.length_map] at hlength
    exact hlength ▸ h.length_le

theorem delivers_setReactions (h : ChatOrdered room) (messageId : Nat)
    (reactions : List ChatMessageReaction) :
    Delivers room
      { room with chatHistory := Room.setReactions messageId reactions room.chatHistory }
      (room.broadcast (.chatReactionsChanged messageId reactions)) where
  agrees p hmem hstays v hv := by
    rw [messagesTo_broadcast, if_pos hmem]
    refine ⟨hv.roster, ?_⟩
    simp only [List.foldl_cons, List.foldl_nil, ClientView.apply, hv.chat]
    exact (map_setReactions messageId reactions h.increasing).symm
  outside p hmem := by rw [messagesTo_broadcast, if_neg hmem]

private theorem delivers_nothing {after : Room}
    (hparticipants : after.participants = room.participants)
    (hhistory : after.chatHistory = room.chatHistory) : Delivers room after [] where
  agrees _ _ _ _ hv := hv.congr hparticipants hhistory
  outside _ _ := rfl

private theorem allowChatMessage_frame (room : Room) (now : Instant) :
    (room.allowChatMessage now).2.participants = room.participants ∧
      (room.allowChatMessage now).2.chatHistory = room.chatHistory ∧
      (room.allowChatMessage now).2.lastChatMessageId = room.lastChatMessageId := by
  unfold Room.allowChatMessage
  dsimp only
  split <;> simp

private theorem postChatMessage_spec (h : ChatOrdered room) (p : ParticipantId)
    (name : Option String) (recent : List Instant) (now timestamp : Nat) (message : String)
    (replyToId : Option Nat) :
    let result := postChatMessage room p name recent now timestamp message replyToId
    ChatOrdered result.1 ∧ Delivers room result.1 result.2.2 := by
  obtain ⟨hparticipants, hhistory, hlast⟩ := allowChatMessage_frame room now
  have hallowed : ChatOrdered (room.allowChatMessage now).2 := h.congr hhistory hlast
  simp only [postChatMessage]
  split
  · exact ⟨h, delivers_nothing rfl rfl⟩
  · split
    · exact ⟨h, delivers_nothing rfl rfl⟩
    · split
      · exact ⟨hallowed, delivers_nothing hparticipants hhistory⟩
      · refine ⟨chatOrdered_recordChatMessage hallowed _, ?_⟩
        have hrecord := delivers_recordChatMessage hallowed
          { participantId := p, participantName := name.getD "Unknown",
            message := Text.trim message, timestamp := timestamp,
            replyTo := replyToId.bind (room.allowChatMessage now).2.chatReplyPreview }
        refine ⟨fun q hq hstays v hv => ?_, fun q hq => ?_⟩
        · exact hrecord.agrees q (hparticipants ▸ hq) hstays v (hv.congr hparticipants hhistory)
        · exact hrecord.outside q (hparticipants ▸ hq)

private theorem postReaction_spec (h : ChatOrdered room) (p : ParticipantId)
    (recent : List Instant) (now messageId : Nat) (emoji : String) :
    let result := postReaction room p recent now messageId emoji
    ChatOrdered result.1 ∧ Delivers room result.1 result.2.2 := by
  simp only [postReaction]
  split
  · exact ⟨h, delivers_nothing rfl rfl⟩
  · split
    · exact ⟨h, delivers_nothing rfl rfl⟩
    · rename_i after reactions htoggle
      obtain rfl := toggleChatReaction_eq htoggle
      exact ⟨chatOrdered_setReactions h _ _, delivers_setReactions h _ _⟩

/-- Every room message keeps the chat ordered and the views of the others converging. -/
theorem runRequest_spec (h : ChatOrdered room) (p : ParticipantId) (name : Option String)
    (recent : List Instant) (now timestamp : Nat) (message : RoomRequest) :
    let result := runRequest room p name recent now timestamp message
    ChatOrdered result.1 ∧ Delivers room result.1 result.2.2 := by
  cases message with
  | mediaStateChanged audioEnabled videoEnabled =>
    exact ⟨h.congr rfl rfl, delivers_setMediaState p audioEnabled videoEnabled⟩
  | chatMessage message replyToId => exact postChatMessage_spec h ..
  | chatReaction messageId emoji => exact postReaction_spec h ..

end Chat

/-! ## The join -/

section Join

/-- The messages about one existing participant add its entry to the roster. -/
private theorem apply_existingMessages (v : ClientView) (info : Room.ParticipantInfo) :
    let after := (existingMessages info).foldl ClientView.apply v
    (∀ q, after.roster.lookup q = if q = info.id then
      some ⟨info.name, info.screenShareOf, info.audioEnabled, info.videoEnabled⟩
      else v.roster.lookup q) ∧ after.chat = v.chat := by
  refine ⟨?_, ?_⟩
  · intro q
    by_cases hq : q = info.id
    · subst hq
      by_cases hmuted : (!info.audioEnabled || !info.videoEnabled) = true
      · simp [existingMessages, hmuted, ClientView.apply]
      · have hmedia : info.audioEnabled = true ∧ info.videoEnabled = true := by
          simpa using hmuted
        simp [existingMessages, ClientView.apply, hmedia]
    · by_cases hmuted : (!info.audioEnabled || !info.videoEnabled) = true <;>
        simp [existingMessages, hmuted, ClientView.apply, hq]
  · by_cases hmuted : (!info.audioEnabled || !info.videoEnabled) = true <;>
      simp [existingMessages, hmuted, ClientView.apply]

/-- The messages about all existing participants add their entries to the roster. -/
private theorem apply_existing (v : ClientView)
    {entries : List (Sigma fun _ : ParticipantId => ParticipantConnection)}
    (hnodup : entries.NodupKeys) :
    let infos := entries.map fun e => Room.ParticipantInfo.mk e.1 e.2.participant.name
      e.2.participant.audioEnabled e.2.participant.videoEnabled e.2.participant.screenShareOf
    let after := (infos.flatMap existingMessages).foldl ClientView.apply v
    (∀ q, after.roster.lookup q =
      ((entries.dlookup q).map rosterEntry).or (v.roster.lookup q)) ∧ after.chat = v.chat := by
  induction entries generalizing v with
  | nil => simp
  | cons e rest ih =>
    obtain ⟨id, c⟩ := e
    obtain ⟨hnot, hrest⟩ := List.nodupKeys_cons.mp hnodup
    let info := Room.ParticipantInfo.mk id c.participant.name c.participant.audioEnabled
      c.participant.videoEnabled c.participant.screenShareOf
    obtain ⟨hfirst, hchat⟩ := apply_existingMessages v info
    obtain ⟨hothers, hchat'⟩ := ih ((existingMessages info).foldl ClientView.apply v) hrest
    simp only [List.map_cons, List.flatMap_cons, List.foldl_append]
    refine ⟨?_, hchat'.trans hchat⟩
    intro q
    rw [hothers q, hfirst q]
    by_cases hq : q = id
    · subst hq
      have hnone : rest.dlookup q = none := List.dlookup_eq_none.mpr hnot
      rw [hnone, List.dlookup_cons_eq]
      simp [info, rosterEntry]
    · have hne : q ≠ info.id := hq
      rw [if_neg hne, List.dlookup_cons_ne _ _ hq]

/-- The messages of a join build the view of the room the participant enters. -/
theorem agrees_joinedMessages {room : Room} {p : ParticipantId} (name : String)
    (c : ParticipantConnection) (hid : c.participant.id = p) (hnew : p ∉ room.participants) :
    Agrees ((joinedMessages p name room.getParticipantsWithMediaState room.chatHistory).foldl
      ClientView.apply ClientView.empty) (room.addParticipant c).1 p := by
  obtain ⟨hroster, hchat⟩ := apply_existing
    { ClientView.empty with chat := room.chatHistory.map chatEntry }
    room.participants.nodupKeys
  refine ⟨?_, hchat⟩
  intro q
  refine (hroster q).trans ?_
  have hempty : (ClientView.empty.roster).lookup q = none := by simp [ClientView.empty]
  by_cases hq : q = p
  · subst hq
    have hnone : room.participants.lookup q = none := AList.lookup_eq_none.mpr hnew
    rw [AList.lookup] at hnone
    simp [hnone, hempty]
  · have hlookup : room.participants.lookup q = room.participants.entries.dlookup q := rfl
    simp [Room.addParticipant, hid, hq, hempty, hlookup]

end Join

/-! ## Convergence along runs -/

/-- The views of open queues agree with rooms in every state, and what is needed to keep it so: a
join in peer setup still holds what its room looks like, and a client is told once that it
joined. -/
structure Converging (s : Server) : Prop where
  consistent : Consistent s
  snapshot : ∀ p req ref existing history,
    s.recvTask p = .settingUpPeer req ref existing history →
    existing = (s.room ref).getParticipantsWithMediaState ∧ history = (s.room ref).chatHistory
  ordered : ∀ ref, ChatOrdered (s.room ref)
  silent : ∀ p, s.currentRoomId p = none → ∀ m ∈ s.sent p, isJoined m = false
  joined : ∀ p, s.senderEnded p = false → s.currentRoomId p ≠ none →
    ∃ m ∈ s.sent p, isJoined m = true
  agrees : ∀ ref p, p ∈ (s.room ref).participants → s.senderEnded p = false →
    Agrees (clientView (s.sent p)) (s.room ref) p

section Steps

variable {env : Environment} {s t : Server} {a : Action}

theorem mem_queue {p : ParticipantId} {messages : List SignalingMessage} {m : SignalingMessage}
    (h : m ∈ s.queue p messages) : m ∈ s.sent p ∨ m ∈ messages := by
  unfold Server.queue at h
  split at h
  · exact .inl h
  · exact List.mem_append.mp h

/-- A queue that is open now has been open before. -/
theorem senderEnded_before (h : Transition env s a t) {p : ParticipantId}
    (hopen : t.senderEnded p = false) : s.senderEnded p = false := by
  cases h with
  | endSender q hsocket =>
    by_cases hp : p = q
    · subst hp
      simp at hopen
    · simpa [hp] using hopen
  | _ => exact hopen

/-- While a join holds a room's lock, its participants and its chat stay as they are. -/
private theorem room_locked (w : Consistent s) (h : Transition env s a t) {p : ParticipantId}
    {req : JoinRequest} {ref : RoomRef} {existing : List Room.ParticipantInfo}
    {history : List ChatMessagePayload}
    (htask : s.recvTask p = .settingUpPeer req ref existing history)
    (hstill : t.recvTask p = .settingUpPeer req ref existing history) :
    (t.room ref).participants = (s.room ref).participants ∧
      (t.room ref).chatHistory = (s.room ref).chatHistory := by
  have hwriter : s.writer ref = some p := (w.writer_iff ref p).mpr ⟨_, _, _, htask⟩
  have hlt : ref < s.repository.nextRef :=
    (w.recv_held p req.roomId ref (by simp [heldRoom, htask])).1
  have hfree : ∀ r, s.writer r = none → ref ≠ r := by
    rintro r hr rfl
    simp [hwriter] at hr
  cases h with
  | createRoom q req' authorization repository htask' hcreate =>
    obtain ⟨-, -, -, -, hobjects, -⟩ := s.repository.createRoom_eq_ok hcreate
    have hne : ref ≠ s.repository.nextRef := Nat.ne_of_lt hlt
    simp [hobjects, hne]
  | join q peer req' r existing' history' htask' =>
    by_cases hr : ref = r
    · subst hr
      have hholder : s.writer ref = some q := (w.writer_iff ref q).mpr ⟨_, _, _, htask'⟩
      obtain rfl := Option.some.inj (hwriter.symm.trans hholder)
      simp at hstill
    · simp [hr]
  | applyRequest q now timestamp roomId request r recent room outbox hid htask' hunlocked =>
    simp [hfree r hunlocked]
  | cleanUp q roomId r rest task hsocket hunlocked => simp [hfree r hunlocked]
  | markDenied i e roomId r =>
    by_cases hr : ref = r
    · simp [hr, Room.denyUser]
    · simp [hr]
  | evict i e roomId r rest heviction hstage hunlocked => simp [hfree r hunlocked]
  | closeRoom i c r rest hclosure hstage hunlocked => simp [hfree r hunlocked]
  | revokeMapped i c roomId r rest hclosure hstage hroom =>
    by_cases hr : ref = r
    · simp [InMemoryRoomRepository.revokeRoom_objects, hroom, hr]
    · simp [InMemoryRoomRepository.revokeRoom_objects, hroom, hr]
  | revokeUnmapped i c roomId rest hclosure hstage hroom =>
    simp [InMemoryRoomRepository.revokeRoom_objects, hroom]
  | _ => exact ⟨rfl, rfl⟩

private theorem snapshot_step (hs : Converging s) (h : Transition env s a t)
    (p : ParticipantId) (req : JoinRequest) (ref : RoomRef)
    (existing : List Room.ParticipantInfo) (history : List ChatMessagePayload)
    (htask : t.recvTask p = .settingUpPeer req ref existing history) :
    existing = (t.room ref).getParticipantsWithMediaState ∧
      history = (t.room ref).chatHistory := by
  rcases settingUp_cases h htask with hold | ⟨-, -, -, -, hexisting, hhistory, hsame⟩
  · obtain ⟨hparticipants, hchat⟩ := room_locked hs.consistent h hold htask
    obtain ⟨hexisting, hhistory⟩ := hs.snapshot p req ref existing history hold
    rw [Room.getParticipantsWithMediaState, hparticipants, hchat]
    exact ⟨hexisting, hhistory⟩
  · rw [Server.room, hsame]
    exact ⟨hexisting, hhistory⟩

/-- A step that queues nothing but errors and leaves rosters and chats alone. -/
private theorem converging_frame (hs : Converging s) (h : Transition env s a t)
    (hrooms : ∀ ref, ((t.room ref).participants = (s.room ref).participants ∧
      (t.room ref).chatHistory = (s.room ref).chatHistory ∧
      (t.room ref).lastChatMessageId = (s.room ref).lastChatMessageId) ∨
      ∃ id, t.room ref = Room.new id)
    (hcurrent : t.currentRoomId = s.currentRoomId)
    (hsent : ∀ p, ∃ errors : List String, t.sent p = s.queue p (errors.map .error)) :
    Converging t := by
  have hfold : ∀ (errors : List String) (v : ClientView),
      (errors.map SignalingMessage.error).foldl ClientView.apply v = v := by
    intro errors
    induction errors with
    | nil => exact fun _ => rfl
    | cons e rest ih => exact ih
  refine ⟨consistent_step hs.consistent h, snapshot_step hs h, ?_, ?_, ?_, ?_⟩
  · intro ref
    rcases hrooms ref with ⟨-, hchat, hlast⟩ | ⟨id, hnew⟩
    · exact (hs.ordered ref).congr hchat hlast
    · rw [hnew]
      exact ⟨List.Pairwise.nil, by simp [Room.new], by simp [Room.new]⟩
  · intro p houtside m hm
    obtain ⟨errors, hafter⟩ := hsent p
    rw [hafter] at hm
    rcases mem_queue hm with hold | herror
    · exact hs.silent p (hcurrent ▸ houtside) m hold
    · obtain ⟨e, -, rfl⟩ := List.mem_map.mp herror
      rfl
  · intro p hopen hinside
    have hbefore := senderEnded_before h hopen
    obtain ⟨errors, hafter⟩ := hsent p
    obtain ⟨m, hm, hjoined⟩ := hs.joined p hbefore (hcurrent ▸ hinside)
    rw [hafter, Server.queue_of_open hbefore]
    exact ⟨m, List.mem_append_left _ hm, hjoined⟩
  · intro ref p hmem hopen
    have hbefore := senderEnded_before h hopen
    rcases hrooms ref with ⟨hparticipants, hchat, -⟩ | ⟨id, hnew⟩
    · obtain ⟨errors, hafter⟩ := hsent p
      rw [hparticipants] at hmem
      have hinside : s.currentRoomId p ≠ none := by
        simp [hs.consistent.member_room ref p hmem]
      rw [hafter, Server.queue_of_open hbefore,
        clientView_append (hs.joined p hbefore hinside), hfold]
      exact (hs.agrees ref p hmem hbefore).congr hparticipants hchat
    · simp [hnew, Room.new] at hmem

/-- A step under a room's lock that delivers to those who stay and adds nobody. -/
private theorem converging_deliver (hs : Converging s) (h : Transition env s a t)
    {r : RoomRef} {room : Room} {outbox : Outbox}
    (hobjects : t.repository.objects = Function.update s.repository.objects r room)
    (hsent : ∀ p, t.sent p = s.queue p (messagesTo p outbox))
    (hcurrent : t.currentRoomId = s.currentRoomId) (hordered : ChatOrdered room)
    (hmembers : ∀ p ∈ room.participants, p ∈ (s.room r).participants)
    (hdelivers : Delivers (s.room r) room outbox) : Converging t := by
  refine ⟨consistent_step hs.consistent h, snapshot_step hs h, ?_, ?_, ?_, ?_⟩
  · intro ref
    by_cases hr : ref = r
    · subst hr
      simpa [hobjects] using hordered
    · simpa [hobjects, hr] using hs.ordered ref
  · intro p houtside m hm
    have hbefore : s.currentRoomId p = none := hcurrent ▸ houtside
    have habsent : p ∉ (s.room r).participants := by
      intro hmem
      simp [hs.consistent.member_room r p hmem] at hbefore
    rw [hsent, hdelivers.outside p habsent, Server.queue_nil] at hm
    exact hs.silent p hbefore m hm
  · intro p hopen hinside
    have hearlier := senderEnded_before h hopen
    obtain ⟨m, hm, hjoined⟩ := hs.joined p hearlier (hcurrent ▸ hinside)
    rw [hsent, Server.queue_of_open hearlier]
    exact ⟨m, List.mem_append_left _ hm, hjoined⟩
  · intro ref p hmem hopen
    have hearlier := senderEnded_before h hopen
    by_cases hr : ref = r
    · subst hr
      have hstays : p ∈ room.participants := by simpa [hobjects] using hmem
      have hbefore := hmembers p hstays
      have hinside : s.currentRoomId p ≠ none := by
        simp [hs.consistent.member_room ref p hbefore]
      rw [hsent, Server.queue_of_open hearlier, clientView_append (hs.joined p hearlier hinside)]
      simpa [hobjects] using
        hdelivers.agrees p hbefore hstays _ (hs.agrees ref p hbefore hearlier)
    · have hbefore : p ∈ (s.room ref).participants := by simpa [hobjects, hr] using hmem
      have habsent : p ∉ (s.room r).participants := by
        intro hother
        exact hr (hs.consistent.member_unique ref r p hbefore hother)
      rw [hsent, hdelivers.outside p habsent, Server.queue_nil]
      simpa [hobjects, hr] using hs.agrees ref p hbefore hearlier

private theorem converging_join (hs : Converging s) {p : ParticipantId} {req : JoinRequest}
    {ref : RoomRef} {existing : List Room.ParticipantInfo} {history : List ChatMessagePayload}
    (htask : s.recvTask p = .settingUpPeer req ref existing history)
    (h : Transition env s a (addToRoom s p req ref existing history)) :
    Converging (addToRoom s p req ref existing history) := by
  have houtside : s.currentRoomId p = none :=
    hs.consistent.joining_outside p (by simp [isJoining, htask])
  have habsent : ∀ r, p ∉ (s.room r).participants := by
    intro r hmem
    simp [hs.consistent.member_room r p hmem] at houtside
  obtain ⟨hexisting, hhistory⟩ := hs.snapshot p req ref existing history htask
  have hdelivers := delivers_addParticipant (newConnection p (s.identity p).userId req)
    ⟨rfl, rfl⟩ (habsent ref)
  have hothers : ∀ q, q ≠ p → (addToRoom s p req ref existing history).sent q =
      s.queue q (messagesTo q
        ((s.room ref).addParticipant (newConnection p (s.identity p).userId req)).2) := by
    intro q hq
    simp [hq]
  have hself : (addToRoom s p req ref existing history).sent p =
      s.queue p (joinedMessages p req.name existing history) := by
    have hnothing := hdelivers.outside p (habsent ref)
    rw [Server.room] at hnothing
    simp [hnothing]
  refine ⟨consistent_step hs.consistent h, snapshot_step hs h, ?_, ?_, ?_, ?_⟩
  · intro r
    by_cases hr : r = ref
    · subst hr
      simp only [Server.room, addToRoom, InMemoryRoomRepository.setRoom_objects,
        Function.update_self]
      exact (hs.ordered r).congr rfl rfl
    · simpa [hr] using hs.ordered r
  · intro q hq m hm
    have hne : q ≠ p := by
      rintro rfl
      simp at hq
    have hbefore : s.currentRoomId q = none := by simpa [hne] using hq
    have hnot : q ∉ (s.room ref).participants := by
      intro hmem
      simp [hs.consistent.member_room ref q hmem] at hbefore
    rw [hothers q hne, hdelivers.outside q hnot, Server.queue_nil] at hm
    exact hs.silent q hbefore m hm
  · intro q hopen hq
    have hearlier : s.senderEnded q = false := hopen
    by_cases hne : q = p
    · subst hne
      rw [hself, Server.queue_of_open hearlier]
      exact ⟨.joined q req.name, by simp [joinedMessages], rfl⟩
    · obtain ⟨m, hm, hjoined⟩ := hs.joined q hearlier (by simpa [hne] using hq)
      rw [hothers q hne, Server.queue_of_open hearlier]
      exact ⟨m, List.mem_append_left _ hm, hjoined⟩
  · intro r q hmem hopen
    have hearlier : s.senderEnded q = false := hopen
    by_cases hne : q = p
    · subst hne
      have hr : r = ref := by
        by_contra hr
        exact habsent r (by simpa [hr] using hmem)
      subst hr
      rw [hself, Server.queue_of_open hearlier, clientView,
        sinceJoined_of_silent (hs.silent q houtside), hexisting, hhistory]
      have hjoined : ∀ existing history, sinceJoined (joinedMessages q req.name existing history) =
          joinedMessages q req.name existing history := fun _ _ => rfl
      have hid : (newConnection q (s.identity q).userId req).participant.id = q := rfl
      rw [hjoined]
      simpa using agrees_joinedMessages req.name
        (newConnection q (s.identity q).userId req) hid (habsent r)
    · rw [hothers q hne, Server.queue_of_open hearlier]
      by_cases hr : r = ref
      · subst hr
        have hbefore : q ∈ (s.room r).participants := by
          simpa [Room.addParticipant, newConnection, Participant.new, hne] using hmem
        have hinside : s.currentRoomId q ≠ none := by
          simp [hs.consistent.member_room r q hbefore]
        rw [clientView_append (hs.joined q hearlier hinside)]
        simpa using
          hdelivers.agrees q hbefore (by simpa using hmem) _ (hs.agrees r q hbefore hearlier)
      · have hbefore : q ∈ (s.room r).participants := by simpa [hr] using hmem
        have hnot : q ∉ (s.room ref).participants := by
          intro hother
          exact hr (hs.consistent.member_unique r ref q hbefore hother)
        rw [hdelivers.outside q hnot, List.append_nil]
        simpa [hr] using hs.agrees r q hbefore hearlier

/-- A receive task that moves on queues at most one error. -/
private theorem recvMove_messages {p : ParticipantId} {before after : RecvTask}
    {messages : List SignalingMessage} (hmove : RecvMove env s p a before after messages) :
    ∃ errors : List String, messages = errors.map .error := by
  cases hmove with
  | report message e => exact ⟨[e], rfl⟩
  | reject message e => exact ⟨[e], rfl⟩
  | denied req answer e => exact ⟨[e], rfl⟩
  | notAdmitted req answer e => exact ⟨[e], rfl⟩
  | notCreated req authorization e => exact ⟨[e], rfl⟩
  | roomGone req authorization e => exact ⟨[e], rfl⟩
  | notReauthorized req ref answer e => exact ⟨[e], rfl⟩
  | accessDenied req ref e => exact ⟨[e], rfl⟩
  | _ => exact ⟨[], rfl⟩

private theorem sent_advance (p q : ParticipantId) (task : RecvTask) (errors : List String) :
    ∃ errors' : List String, (advance s p task (errors.map .error)).sent q =
      s.queue q (errors'.map .error) := by
  by_cases hq : q = p
  · exact ⟨errors, by simp [hq]⟩
  · exact ⟨[], by simp [hq, Server.queue_nil]⟩

theorem converging_step (hs : Converging s) (h : Transition env s a t) : Converging t := by
  have hnone : ∀ p, ∃ errors : List String, s.sent p = s.queue p (errors.map .error) :=
    fun p => ⟨[], (s.queue_nil p).symm⟩
  have hstep := h
  cases h with
  | recv a p task messages hmove =>
    obtain ⟨errors, rfl⟩ := recvMove_messages hmove
    exact converging_frame hs hstep (fun _ => .inl ⟨rfl, rfl, rfl⟩) rfl
      (fun q => sent_advance p q task errors)
  | failJoin p peer req ref existing history e =>
    exact converging_frame hs hstep (fun _ => .inl ⟨rfl, rfl, rfl⟩) rfl
      (fun q => sent_advance p q .receiving [e])
  | abortJoin p req ref existing history =>
    exact converging_frame hs hstep (fun _ => .inl ⟨rfl, rfl, rfl⟩) rfl
      (fun q => sent_advance p q .stopped [])
  | createRoom p req authorization repository htask hcreate =>
    obtain ⟨-, -, -, -, hobjects, -⟩ := s.repository.createRoom_eq_ok hcreate
    refine converging_frame hs hstep ?_ rfl hnone
    intro ref
    by_cases hr : ref = s.repository.nextRef
    · exact .inr ⟨req.roomId, by simp [hobjects, hr]⟩
    · exact .inl (by simp [hobjects, hr])
  | join p peer req ref existing history htask => exact converging_join hs htask hstep
  | applyRequest p now timestamp roomId request r recent room outbox hid htask hfree hactive hrun =>
    have hspec := runRequest_spec (hs.ordered r) p (s.participantName p)
      (s.recentChatActions p) now timestamp request
    have hkeys := (runRequest_frame (s.room r) p (s.participantName p)
      (s.recentChatActions p) now timestamp request).2.1
    simp only [hrun] at hspec hkeys
    refine converging_deliver hs hstep rfl (fun _ => rfl) rfl hspec.1 ?_ hspec.2
    intro q hq
    rw [AList.mem_keys] at hq ⊢
    exact hkeys ▸ hq
  | cleanUp p roomId r =>
    have hframe := (s.room r).removeWithScreenShares_frame p
    refine converging_deliver hs hstep rfl (fun _ => rfl) rfl
      ((hs.ordered r).congr hframe.2.2.2.1 hframe.2.2.2.2) ?_ (delivers_removeWithScreenShares p)
    intro q hq
    exact mem_of_mem_removeParticipant (mem_of_mem_removeParticipants hq)
  | evict i e roomId r =>
    have hframe := (s.room r).removeParticipants_frame ((s.room r).participantsOfUser e.userId)
    exact converging_deliver hs hstep rfl (fun _ => rfl) rfl
      ((hs.ordered r).congr hframe.2.2.2.1 hframe.2.2.2.2)
      (fun q => mem_of_mem_removeParticipants) (delivers_removeParticipants _)
  | closeRoom i c r =>
    have hframe := (s.room r).removeParticipants_frame (s.room r).participants.keys
    exact converging_deliver hs hstep rfl (fun _ => rfl) rfl
      ((hs.ordered r).congr hframe.2.2.2.1 hframe.2.2.2.2)
      (fun q => mem_of_mem_removeParticipants) (delivers_removeParticipants _)
  | markDenied i e roomId r =>
    refine converging_frame hs hstep ?_ rfl hnone
    intro ref
    by_cases hr : ref = r
    · exact .inl (by simp [hr, Room.denyUser])
    · exact .inl (by simp [hr])
  | revokeMapped i c roomId r rest hclosure hstage hroom =>
    refine converging_frame hs hstep ?_ rfl hnone
    intro ref
    by_cases hr : ref = r
    · exact .inl (by simp [InMemoryRoomRepository.revokeRoom_objects, hroom, hr])
    · exact .inl (by simp [InMemoryRoomRepository.revokeRoom_objects, hroom, hr])
  | revokeUnmapped i c roomId rest hclosure hstage hroom =>
    refine converging_frame hs hstep ?_ rfl hnone
    intro ref
    exact .inl (by simp [InMemoryRoomRepository.revokeRoom_objects, hroom])
  | _ => exact converging_frame hs hstep (fun _ => .inl ⟨rfl, rfl, rfl⟩) rfl hnone

end Steps

theorem converging_initial : Converging Server.initial where
  consistent := consistent_initial
  snapshot p req ref existing history htask := by simp [Server.initial] at htask
  ordered ref := ⟨List.Pairwise.nil, by simp [Server.initial, InMemoryRoomRepository.new,
    Room.new], by simp [Server.initial, InMemoryRoomRepository.new, Room.new]⟩
  silent p _ m hm := by simp [Server.initial] at hm
  joined p _ hinside := by simp [Server.initial] at hinside
  agrees ref p hmem _ := absurd hmem (consistent_initial.vacant ref p (Nat.zero_le ref))

/-- The messages queued to a participant since it joined fold to the roster and the chat the server
keeps. -/
def ViewAgrees (s : Server) (ref : RoomRef) (p : ParticipantId) : Prop :=
  (∀ q, (clientView (s.sent p)).roster.lookup q =
    if q = p then none else ((s.room ref).participants.lookup q).map rosterEntry) ∧
  (clientView (s.sent p)).chat = (s.room ref).chatHistory.map chatEntry

/-- In every reachable state and every room object, the view of a participant whose send task has
not ended is what the server keeps. -/
theorem clientView_agrees (env : Environment) (actions : List Action) (s : Server)
    (hrun : (system env).run actions = some s) (ref : RoomRef) (p : ParticipantId)
    (hmem : p ∈ (s.room ref).participants) (hopen : s.senderEnded p = false) :
    ViewAgrees s ref p := by
  have hs : Converging s := System.invariant_run (I := Converging) converging_initial
    (fun s a t hs h => converging_step hs (step_transition h)) hrun
  have hagrees := hs.agrees ref p hmem hopen
  exact ⟨hagrees.roster, hagrees.chat⟩

/-- Ann mutes herself and writes before Bob joins, and Bob reacts. -/
def chatAcrossJoin : List Action :=
  [.connect "a" ⟨none, none⟩, .receive "a" (.join "r" "Ann" none none),
    .authorize "a" (some ⟨false, false, false⟩), .admitToMeetingRoom "a" (some .allowed),
    .checkRoom "a",
    .createRoom "a", .getRoom "a", .lockRoom "a", .finishJoin "a" (.ok ()),
    .receive "a" (.mediaStateChanged "a" false true), .findRoom "a", .applyRequest "a" 0 0,
    .receive "a" (.chatMessage 0 "a" "Ann" "hello" 0 none none []), .findRoom "a",
    .applyRequest "a" 1 1,
    .connect "b" ⟨none, none⟩, .receive "b" (.join "r" "Bob" none none),
    .authorize "b" (some ⟨false, false, false⟩), .admitToMeetingRoom "b" (some .allowed),
    .checkRoom "b",
    .getRoom "b", .lockRoom "b", .finishJoin "b" (.ok ()),
    .receive "b" (.chatReaction 1 "+"), .findRoom "b", .applyRequest "b" 2 2]

theorem clientView_agrees_chatAcrossJoin :
    ∃ s, (system ⟨fun _ => false, Char.isAlphanum⟩).run chatAcrossJoin = some s ∧
      ViewAgrees s 0 "b" ∧
      (clientView (s.sent "b")).chat = [⟨1, "hello", [⟨"+", ["b"]⟩]⟩] := by
  let M := system ⟨fun _ => false, Char.isAlphanum⟩
  obtain ⟨s, hrun, htest⟩ := M.exists_run_of_any Server.initial chatAcrossJoin
    (fun s => decide ("b" ∈ (s.room 0).participants) && (!s.senderEnded "b" &&
      decide ((clientView (s.sent "b")).chat = [⟨1, "hello", [⟨"+", ["b"]⟩]⟩]))) (by decide)
  obtain ⟨hmem, hrest⟩ := Bool.and_eq_true_iff.mp htest
  obtain ⟨hopen, hchat⟩ := Bool.and_eq_true_iff.mp hrest
  exact ⟨s, hrun, clientView_agrees _ chatAcrossJoin s hrun 0 "b" (of_decide_eq_true hmem)
    (by simpa using hopen), of_decide_eq_true hchat⟩

/-- Bob's socket fails, and Carol joins before his clean-up finds him. -/
def joinAfterFailure : List Action :=
  [.connect "b" ⟨none, none⟩, .receive "b" (.join "r" "Bob" none none),
    .authorize "b" (some ⟨false, false, false⟩), .admitToMeetingRoom "b" (some .allowed),
    .checkRoom "b",
    .createRoom "b", .getRoom "b", .lockRoom "b", .finishJoin "b" (.ok ()),
    .endSender "b", .selectSender "b",
    .connect "c" ⟨none, none⟩, .receive "c" (.join "r" "Carol" none none),
    .authorize "c" (some ⟨false, false, false⟩), .admitToMeetingRoom "c" (some .allowed),
    .checkRoom "c",
    .getRoom "c", .lockRoom "c", .finishJoin "c" (.ok ())]

/-- He is still in the room, and nobody has told him that she is. -/
theorem joinAfterFailure_untold : ¬ ∀ (actions : List Action) (s : Server),
    (system ⟨fun _ => false, Char.isAlphanum⟩).run actions = some s → ∀ ref p,
      p ∈ (s.room ref).participants → ViewAgrees s ref p := by
  let M := system ⟨fun _ => false, Char.isAlphanum⟩
  obtain ⟨s, hrun, htest⟩ := M.exists_run_of_any Server.initial joinAfterFailure
    (fun s => decide ("b" ∈ (s.room 0).participants) &&
      (decide ((clientView (s.sent "b")).roster.lookup "c" = none) &&
        ((s.room 0).participants.lookup "c").isSome)) (by decide)
  obtain ⟨hmem, hrest⟩ := Bool.and_eq_true_iff.mp htest
  obtain ⟨huntold, hcarol⟩ := Bool.and_eq_true_iff.mp hrest
  intro hall
  have hview := (hall joinAfterFailure s hrun 0 "b" (of_decide_eq_true hmem)).1 "c"
  rw [of_decide_eq_true huntold, if_neg (by decide)] at hview
  obtain ⟨carol, hlookup⟩ := Option.isSome_iff_exists.mp hcarol
  rw [hlookup] at hview
  cases hview

end OpenMeet.ViewConvergence
