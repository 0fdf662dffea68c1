import Mathlib.Data.Set.BooleanAlgebra
import Mathlib.Order.ConditionallyCompleteLattice.Basic
import Mathlib.Order.SymmDiff
import Mathlib.Data.Set.SymmDiff
import OpenMeet.Transitions

/-!
The chat kept in a room. A message is stored under the next id and pushes out
the oldest once there are 500. Its reactions stand for a set of pairs of an
emoji and a participant, and a toggle adds or removes one pair: the distinct
emoji and the participants of each, none of them empty, make the list a faithful
picture of the set, so the second toggle undoes the first.
-/
namespace OpenMeet.ChatStore

open Messages RoomState Room TransitionSystem

/-! ## The reactions of one message -/

structure WellFormed (reactions : List ChatMessageReaction) : Prop where
  distinct : (reactions.map (·.emoji)).Nodup
  bounded : reactions.length ≤ maxChatMessageReactions
  reactors : ∀ reaction ∈ reactions,
    reaction.participantIds ≠ [] ∧ reaction.participantIds.Nodup

theorem wellFormed_nil : WellFormed [] := by
  constructor <;> simp

/-- Who has reacted with what. -/
def pairs (reactions : List ChatMessageReaction) : Set (String × ParticipantId) :=
  {pair | ∃ reaction ∈ reactions, reaction.emoji = pair.1 ∧ pair.2 ∈ reaction.participantIds}

/-- What a toggle does to the list. -/
inductive Toggled (participantId : ParticipantId) (emoji : String) :
    List ChatMessageReaction → List ChatMessageReaction → Prop
  | joined (before after : List ChatMessageReaction) (ids : List ParticipantId)
      (hnew : participantId ∉ ids) :
      Toggled participantId emoji (before ++ ⟨emoji, ids⟩ :: after)
        (before ++ ⟨emoji, ids ++ [participantId]⟩ :: after)
  | left (before after : List ChatMessageReaction) (first last : List ParticipantId)
      (hothers : first ++ last ≠ []) :
      Toggled participantId emoji (before ++ ⟨emoji, first ++ participantId :: last⟩ :: after)
        (before ++ ⟨emoji, first ++ last⟩ :: after)
  | removed (before after : List ChatMessageReaction) :
      Toggled participantId emoji (before ++ ⟨emoji, [participantId]⟩ :: after) (before ++ after)
  | added (reactions : List ChatMessageReaction) (hnew : emoji ∉ reactions.map (·.emoji))
      (hroom : reactions.length < maxChatMessageReactions) :
      Toggled participantId emoji reactions (reactions ++ [⟨emoji, [participantId]⟩])

section Toggle

variable {participantId : ParticipantId} {emoji : String}
  {reactions after : List ChatMessageReaction}

/-- The first element that passes the test splits the list. -/
theorem split_of_findIdx? {α : Type*} {p : α → Bool} {xs : List α} {i : ℕ}
    (h : xs.findIdx? p = some i) :
    ∃ before x rest, xs = before ++ x :: rest ∧ before.length = i ∧ p x = true ∧
      ∀ y ∈ before, p y = false := by
  obtain ⟨hlt, hx, hbefore⟩ := List.findIdx?_eq_some_iff_getElem.mp h
  refine ⟨xs.take i, xs[i], xs.drop (i + 1), ?_, ?_, hx, ?_⟩
  · simp
  · simp only [List.length_take]
    omega
  · intro y hy
    obtain ⟨j, hj, rfl⟩ := List.getElem_of_mem hy
    have hji : j < i := by
      simp only [List.length_take] at hj
      omega
    simpa using hbefore j hji

theorem toggled_of_toggleReaction (h : toggleReaction reactions participantId emoji = some after) :
    Toggled participantId emoji reactions after := by
  unfold toggleReaction at h
  split at h
  · rename_i index hindex
    obtain ⟨before, reaction, rest, rfl, rfl, hemoji, -⟩ := split_of_findIdx? hindex
    obtain ⟨name, ids⟩ := reaction
    obtain rfl : name = emoji := by simpa using hemoji
    simp only [List.getElem?_append_right (Nat.le_refl _), Nat.sub_self, List.getElem?_cons_zero,
      List.eraseIdx_append_of_length_le (Nat.le_refl _), List.eraseIdx_cons_zero,
      List.set_append_right _ _ (Nat.le_refl _), List.set_cons_zero] at h
    split at h
    · rename_i reactor hreactor
      obtain ⟨first, id, last, rfl, rfl, hid, -⟩ := split_of_findIdx? hreactor
      obtain rfl : id = participantId := by simpa using hid
      simp only [List.eraseIdx_append_of_length_le (Nat.le_refl _), Nat.sub_self,
        List.eraseIdx_cons_zero] at h
      split at h
      · rename_i hempty
        obtain ⟨rfl, rfl⟩ := List.append_eq_nil_iff.mp (List.isEmpty_iff.mp hempty)
        cases h
        exact .removed before rest
      · rename_i hothers
        cases h
        exact .left before rest first last (by simpa using hothers)
    · rename_i hreactor
      cases h
      apply Toggled.joined before rest ids
      intro hmem
      have hother := List.findIdx?_eq_none_iff.mp hreactor participantId hmem
      simp at hother
  · rename_i hindex
    obtain ⟨hroom, heq⟩ := Option.ite_none_right_eq_some.mp h
    cases heq
    apply Toggled.added reactions _ hroom
    simpa [List.findIdx?_eq_none_iff] using hindex

theorem toggleReaction_isSome :
    (toggleReaction reactions participantId emoji).isSome ↔
      emoji ∈ reactions.map (·.emoji) ∨ reactions.length < maxChatMessageReactions := by
  unfold toggleReaction
  split
  · rename_i index hindex
    obtain ⟨before, reaction, rest, rfl, rfl, hemoji, -⟩ := split_of_findIdx? hindex
    have hmem : emoji ∈ (before ++ reaction :: rest).map (·.emoji) :=
      List.mem_map.mpr ⟨reaction, by simp, by simpa using hemoji⟩
    simp only [hmem, true_or, iff_true]
    split
    · rfl
    · split
      · split <;> rfl
      · rfl
  · rename_i hindex
    have hnew : emoji ∉ reactions.map (·.emoji) := by
      simpa [List.findIdx?_eq_none_iff] using hindex
    simp [hnew]

/-- A toggle keeps the emoji distinct and at most 20, and leaves nobody out or in twice. -/
theorem Toggled.wellFormed (h : Toggled participantId emoji reactions after)
    (hw : WellFormed reactions) : WellFormed after := by
  obtain ⟨hdistinct, hbounded, hreactors⟩ := hw
  cases h with
  | joined before rest ids hnew =>
    refine ⟨by simpa using hdistinct, by simpa using hbounded, ?_⟩
    intro reaction hreaction
    simp only [List.mem_append, List.mem_cons] at hreaction
    rcases hreaction with hmem | rfl | hmem
    · exact hreactors reaction (by simp [hmem])
    · have hids := (hreactors ⟨emoji, ids⟩ (by simp)).2
      refine ⟨by simp, ?_⟩
      simpa using hids.concat hnew
    · exact hreactors reaction (by simp [hmem])
  | left before rest first last hothers =>
    refine ⟨by simpa using hdistinct, by simpa using hbounded, ?_⟩
    intro reaction hreaction
    simp only [List.mem_append, List.mem_cons] at hreaction
    rcases hreaction with hmem | rfl | hmem
    · exact hreactors reaction (by simp [hmem])
    · have hids := (hreactors ⟨emoji, first ++ participantId :: last⟩ (by simp)).2
      refine ⟨hothers, ?_⟩
      exact (List.nodup_middle.mp hids).of_cons
    · exact hreactors reaction (by simp [hmem])
  | removed before rest =>
    refine ⟨?_, ?_, ?_⟩
    · rw [List.map_append, List.map_cons] at hdistinct
      rw [List.map_append]
      exact (List.nodup_middle.mp hdistinct).of_cons
    · simp only [List.length_append, List.length_cons] at hbounded ⊢
      omega
    · intro reaction hreaction
      rcases List.mem_append.mp hreaction with hmem | hmem
      · exact hreactors reaction (by simp [hmem])
      · exact hreactors reaction (by simp [hmem])
  | added _ hnew hroom =>
    refine ⟨?_, ?_, ?_⟩
    · rw [List.map_append]
      simpa using hdistinct.concat hnew
    · rw [List.length_append, List.length_singleton]
      omega
    · intro reaction hreaction
      simp only [List.mem_append, List.mem_singleton] at hreaction
      rcases hreaction with hmem | rfl
      · exact hreactors reaction hmem
      · simp

theorem mem_pairs_append {first second : List ChatMessageReaction}
    {pair : String × ParticipantId} :
    pair ∈ pairs (first ++ second) ↔ pair ∈ pairs first ∨ pair ∈ pairs second := by
  simp only [pairs, List.mem_append, or_and_right, exists_or]
  rfl

theorem mem_pairs_cons {reaction : ChatMessageReaction} {pair : String × ParticipantId} :
    pair ∈ pairs (reaction :: reactions) ↔
      (reaction.emoji = pair.1 ∧ pair.2 ∈ reaction.participantIds) ∨ pair ∈ pairs reactions := by
  simp only [pairs, List.mem_cons, or_and_right, exists_or, exists_eq_left]
  rfl

theorem pairs_nil : pairs [] = ∅ := by
  simp [pairs]

/-- Nobody has reacted with an emoji that is not in the list. -/
theorem notMem_pairs {pair : String × ParticipantId} (h : pair.1 ∉ reactions.map (·.emoji)) :
    pair ∉ pairs reactions := by
  intro hpair
  obtain ⟨reaction, hreaction, hemoji, -⟩ := hpair
  exact h (List.mem_map.mpr ⟨reaction, hreaction, hemoji⟩)

/-- On the set a toggle adds the pair, or removes it. -/
theorem Toggled.pairs_eq (h : Toggled participantId emoji reactions after)
    (hw : WellFormed reactions) :
    pairs after = symmDiff (pairs reactions) {(emoji, participantId)} := by
  ext pair
  obtain ⟨name, id⟩ := pair
  rw [Set.mem_symmDiff, Set.mem_singleton_iff, Prod.mk.injEq]
  have helsewhere : ∀ before reaction rest, reactions = before ++ reaction :: rest →
      (reaction.emoji, id) ∉ pairs before ∧ (reaction.emoji, id) ∉ pairs rest := by
    intro before reaction rest heq
    have hdistinct := hw.distinct
    rw [heq, List.map_append, List.map_cons] at hdistinct
    have hnot := (List.nodup_cons.mp (List.nodup_middle.mp hdistinct)).1
    rw [List.mem_append, not_or] at hnot
    exact ⟨notMem_pairs hnot.1, notMem_pairs hnot.2⟩
  cases h with
  | joined before rest ids hnew =>
    obtain ⟨hbefore, hrest⟩ := helsewhere _ _ _ rfl
    simp only [mem_pairs_append, mem_pairs_cons, List.mem_append, List.mem_singleton]
    by_cases hname : emoji = name
    · subst hname
      simp only [hbefore, hrest, true_and, false_or, or_false]
      by_cases hid : id = participantId
      · subst hid
        simp [hnew]
      · simp [hid]
    · simp [hname, Ne.symm hname]
  | left before rest first last hothers =>
    obtain ⟨hbefore, hrest⟩ := helsewhere _ _ _ rfl
    have hids := (hw.reactors ⟨emoji, first ++ participantId :: last⟩ (by simp)).2
    have hnot := (List.nodup_cons.mp (List.nodup_middle.mp hids)).1
    simp only [mem_pairs_append, mem_pairs_cons, List.mem_append, List.mem_cons]
    by_cases hname : emoji = name
    · subst hname
      simp only [hbefore, hrest, true_and, false_or, or_false]
      by_cases hid : id = participantId
      · subst hid
        simpa using hnot
      · simp [hid]
    · simp [hname, Ne.symm hname]
  | removed before rest =>
    obtain ⟨hbefore, hrest⟩ := helsewhere _ _ _ rfl
    simp only [mem_pairs_append, mem_pairs_cons, List.mem_singleton]
    by_cases hname : emoji = name
    · subst hname
      simp [hbefore, hrest]
    · simp [hname, Ne.symm hname]
  | added _ hnew hroom =>
    have hnot : (emoji, id) ∉ pairs reactions := notMem_pairs hnew
    simp only [mem_pairs_append, mem_pairs_cons, pairs_nil, List.mem_singleton,
      Set.mem_empty_iff_false, or_false]
    by_cases hname : emoji = name
    · subst hname
      simp [hnot]
    · simp [hname, Ne.symm hname]

/-- After a toggle there is room for the next one: an emoji that has gone made room for itself. -/
theorem Toggled.again (h : Toggled participantId emoji reactions after)
    (hw : WellFormed reactions) :
    (toggleReaction after participantId emoji).isSome := by
  rw [toggleReaction_isSome]
  cases h with
  | joined | left | added => simp
  | removed before rest =>
    right
    have hbounded := hw.bounded
    simp only [List.length_append, List.length_cons] at hbounded ⊢
    omega

/-- A second toggle restores the set. -/
theorem toggleReaction_twice (hw : WellFormed reactions)
    (h : toggleReaction reactions participantId emoji = some after) :
    ∃ last, toggleReaction after participantId emoji = some last ∧
      pairs last = pairs reactions := by
  have htoggled := toggled_of_toggleReaction h
  obtain ⟨last, hlast⟩ := Option.isSome_iff_exists.mp (htoggled.again hw)
  refine ⟨last, hlast, ?_⟩
  rw [(toggled_of_toggleReaction hlast).pairs_eq (htoggled.wellFormed hw), htoggled.pairs_eq hw]
  exact symmDiff_symmDiff_cancel_right _ _

end Toggle

/-! ## The history of a room -/

/-- A message without its reactions, which is what recording fixes for good. -/
def unreacted (message : ChatMessagePayload) : ChatMessagePayload :=
  { message with reactions := [] }

inductive ChatCall
  | record (message : ChatMessagePayload)
  | toggle (messageId : Nat) (participantId : ParticipantId) (emoji : String)

/-- The room after one call. -/
def runCall (room : Room) : ChatCall → Room
  | .record message => (room.recordChatMessage message).1
  | .toggle messageId participantId emoji =>
    (room.toggleChatReaction messageId participantId emoji).elim room (·.1)

/-- The message a call returns as recorded. -/
def recorded (room : Room) : ChatCall → List ChatMessagePayload
  | .record message => [(room.recordChatMessage message).2]
  | .toggle .. => []

def chatStore (id : RoomId) : System Room ChatCall where
  init := Room.new id
  step room call := some (runCall room call)

/-- The room keeps the last 500 messages of those recorded in it. -/
structure Keeps (room : Room) (messages : List ChatMessagePayload) : Prop where
  ids : messages.map (·.id) = List.range' 1 messages.length
  last : room.lastChatMessageId = messages.length
  history : room.chatHistory.map unreacted =
    (messages.map unreacted).drop (messages.length - chatHistoryCapacity)
  reactions : ∀ message ∈ room.chatHistory, WellFormed message.reactions

section Store

variable {room after : Room} {messageId : Nat} {participantId : ParticipantId} {emoji : String}
  {reactions : List ChatMessageReaction} {messages : List ChatMessagePayload}

theorem setReactions_append {before rest : List ChatMessagePayload} {message : ChatMessagePayload}
    (hid : message.id = messageId) (hbefore : ∀ earlier ∈ before, earlier.id ≠ messageId) :
    setReactions messageId reactions (before ++ message :: rest) =
      before ++ { message with reactions := reactions } :: rest := by
  induction before with
  | nil => simp [setReactions, hid]
  | cons first before ih =>
    have hfirst := hbefore first List.mem_cons_self
    have hrest := ih fun earlier hmem => hbefore earlier (List.mem_cons_of_mem first hmem)
    simp [setReactions, hfirst, hrest]

/-- A toggle that answers rewrites the reactions of one message, the first with the id. -/
theorem toggleChatReaction_eq_some :
    room.toggleChatReaction messageId participantId emoji = some (after, reactions) ↔
      ∃ before message rest, room.chatHistory = before ++ message :: rest ∧
        message.id = messageId ∧ (∀ earlier ∈ before, earlier.id ≠ messageId) ∧
        toggleReaction message.reactions participantId emoji = some reactions ∧
        after = { room with
          chatHistory := before ++ { message with reactions := reactions } :: rest } := by
  rw [Room.toggleChatReaction, Option.bind_eq_some_iff]
  constructor
  · intro h
    obtain ⟨message, hfind, h⟩ := h
    obtain ⟨found, htoggle, heq⟩ := Option.map_eq_some_iff.mp h
    obtain ⟨hid, before, rest, hsplit, hbefore⟩ := List.find?_eq_some_iff_append.mp hfind
    have hid : message.id = messageId := by simpa using hid
    have hbefore : ∀ earlier ∈ before, earlier.id ≠ messageId := by simpa using hbefore
    rw [hsplit, setReactions_append hid hbefore, Prod.mk.injEq] at heq
    obtain ⟨hafter, rfl⟩ := heq
    exact ⟨before, message, rest, hsplit, hid, hbefore, htoggle, hafter.symm⟩
  · intro h
    obtain ⟨before, message, rest, hsplit, hid, hbefore, htoggle, rfl⟩ := h
    refine ⟨message, ?_, ?_⟩
    · apply List.find?_eq_some_iff_append.mpr
      exact ⟨by simpa using hid, before, rest, hsplit, by simpa using hbefore⟩
    · rw [htoggle, Option.map_some, hsplit, setReactions_append hid hbefore]

/-- Recording appends to what is kept and drops the oldest of 500. -/
theorem Keeps.record (h : Keeps room messages) {message : ChatMessagePayload}
    (hreactions : WellFormed message.reactions) :
    Keeps (room.recordChatMessage message).1
      (messages ++ [(room.recordChatMessage message).2]) := by
  have hlength : room.chatHistory.length = min messages.length chatHistoryCapacity := by
    have hcount := congrArg List.length h.history
    simp only [List.length_map, List.length_drop] at hcount
    omega
  constructor
  · rw [List.map_append, h.ids, List.length_append, List.length_singleton, List.range'_concat]
    simp [Room.recordChatMessage, h.last, Nat.add_comm]
  · simp [Room.recordChatMessage, h.last]
  · simp only [Room.recordChatMessage, List.map_append, List.length_append,
      List.length_singleton]
    split
    · rename_i hfull
      have hmany : chatHistoryCapacity ≤ messages.length := by omega
      have hcut : messages.length - chatHistoryCapacity + 1 =
          messages.length + 1 - chatHistoryCapacity := by omega
      have hpositive : 0 < chatHistoryCapacity := by decide
      have hstart : messages.length + 1 - chatHistoryCapacity ≤
          (messages.map unreacted).length := by
        rw [List.length_map]
        omega
      rw [List.map_tail, h.history, List.tail_drop, hcut, List.drop_append_of_le_length hstart]
    · rename_i hroom
      have hfits : messages.length + 1 - chatHistoryCapacity = 0 := by omega
      have hfitted : messages.length - chatHistoryCapacity = 0 := by omega
      rw [h.history, hfits, hfitted]
      rfl
  · intro kept hkept
    simp only [Room.recordChatMessage, List.mem_append, List.mem_singleton] at hkept
    rcases hkept with hkept | rfl
    · split at hkept
      · exact h.reactions kept (List.mem_of_mem_tail hkept)
      · exact h.reactions kept hkept
    · exact hreactions

/-- A toggle leaves the messages and their order alone. -/
theorem Keeps.toggle (h : Keeps room messages)
    (htoggle : room.toggleChatReaction messageId participantId emoji = some (after, reactions)) :
    Keeps after messages := by
  obtain ⟨before, message, rest, hsplit, -, -, hreactions, rfl⟩ :=
    toggleChatReaction_eq_some.mp htoggle
  have hold := h.reactions message (by simp [hsplit])
  refine ⟨h.ids, h.last, ?_, ?_⟩
  · rw [← h.history, hsplit]
    simp [unreacted]
  · intro kept hkept
    simp only [List.mem_append, List.mem_cons] at hkept
    rcases hkept with hkept | rfl | hkept
    · exact h.reactions kept (by simp [hsplit, hkept])
    · exact (toggled_of_toggleReaction hreactions).wellFormed hold
    · exact h.reactions kept (by simp [hsplit, hkept])

theorem Keeps.runCall (h : Keeps room messages) {call : ChatCall}
    (hcall : ∀ message, call = .record message → WellFormed message.reactions) :
    Keeps (runCall room call) (messages ++ recorded room call) := by
  cases call with
  | record message => exact h.record (hcall message rfl)
  | toggle messageId participantId emoji =>
    rw [recorded, List.append_nil, ChatStore.runCall]
    cases htoggle : room.toggleChatReaction messageId participantId emoji with
    | none => exact h
    | some answer => exact h.toggle htoggle

theorem keeps_new {id : RoomId} : Keeps (Room.new id) [] := by
  constructor <;> simp [Room.new]

/-- What a run records is added to what was recorded before it. -/
theorem Keeps.runFrom {id : RoomId} {calls : List ChatCall} (h : Keeps room messages)
    (hcalls : ∀ message, .record message ∈ calls → WellFormed message.reactions)
    (hrun : (chatStore id).runFrom room calls = some after) :
    Keeps after (messages ++ (chatStore id).outputs recorded room calls) := by
  induction calls generalizing room messages with
  | nil =>
    cases hrun
    simpa [System.outputs] using h
  | cons call rest ih =>
    have hfirst : Keeps (ChatStore.runCall room call) (messages ++ recorded room call) := by
      apply h.runCall
      intro message heq
      exact hcalls message (heq ▸ List.mem_cons_self)
    have hrest := ih hfirst (fun message hmem => hcalls message (List.mem_cons_of_mem call hmem))
      hrun
    simpa [System.outputs, chatStore] using hrest

/-- The second toggle of the same reaction puts every message back. -/
theorem toggleChatReaction_twice
    (hroom : ∀ message ∈ room.chatHistory, WellFormed message.reactions)
    (h : room.toggleChatReaction messageId participantId emoji = some (after, reactions)) :
    ∃ last, after.toggleChatReaction messageId participantId emoji = some last ∧
      last.1.chatHistory.map (fun message => (unreacted message, pairs message.reactions)) =
        room.chatHistory.map fun message => (unreacted message, pairs message.reactions) := by
  obtain ⟨before, message, rest, hsplit, hid, hbefore, htoggle, rfl⟩ :=
    toggleChatReaction_eq_some.mp h
  have hold := hroom message (by simp [hsplit])
  obtain ⟨restored, hagain, hpairs⟩ := toggleReaction_twice hold htoggle
  refine ⟨_, toggleChatReaction_eq_some.mpr
    ⟨before, { message with reactions := reactions }, rest, rfl, hid, hbefore, hagain, rfl⟩, ?_⟩
  rw [hsplit]
  simp [unreacted, hpairs]

end Store

/-- Ids without gaps, the last 500 messages in order, sound reactions, and a toggle that a second
one undoes. -/
theorem chatStore_keeps (id : RoomId) (calls : List ChatCall) (room : Room)
    (hcalls : ∀ message, .record message ∈ calls → WellFormed message.reactions)
    (hrun : (chatStore id).run calls = some room) :
    ((chatStore id).outputs recorded (Room.new id) calls).map (·.id) =
        List.range' 1 ((chatStore id).outputs recorded (Room.new id) calls).length ∧
      room.chatHistory.map unreacted =
        (((chatStore id).outputs recorded (Room.new id) calls).map unreacted).drop
          (((chatStore id).outputs recorded (Room.new id) calls).length - 500) ∧
      (∀ message ∈ room.chatHistory,
        (message.reactions.map (·.emoji)).Nodup ∧ message.reactions.length ≤ 20 ∧
          ∀ reaction ∈ message.reactions,
            reaction.participantIds ≠ [] ∧ reaction.participantIds.Nodup) ∧
      ∀ messageId participantId emoji after reactions,
        room.toggleChatReaction messageId participantId emoji = some (after, reactions) →
          ∃ last, after.toggleChatReaction messageId participantId emoji = some last ∧
            last.1.chatHistory.map (fun message => (unreacted message, pairs message.reactions)) =
              room.chatHistory.map fun message =>
                (unreacted message, pairs message.reactions) := by
  have hkeeps : Keeps room ([] ++ (chatStore id).outputs recorded (Room.new id) calls) :=
    keeps_new.runFrom hcalls hrun
  rw [List.nil_append] at hkeeps
  refine ⟨hkeeps.ids, hkeeps.history, ?_, ?_⟩
  · intro message hmem
    have hsound := hkeeps.reactions message hmem
    exact ⟨hsound.distinct, hsound.bounded, hsound.reactors⟩
  · intro messageId participantId emoji after reactions htoggle
    exact toggleChatReaction_twice hkeeps.reactions htoggle

def twoReactors : List ChatCall :=
  [.record ⟨0, "a", "Alice", "hello", 1, none, []⟩, .toggle 1 "a" "👍", .toggle 1 "b" "👍"]

theorem twoReactors_kept :
    ∃ room, (chatStore "room").run twoReactors = some room ∧
      room.chatHistory.map unreacted = [⟨1, "a", "Alice", "hello", 1, none, []⟩] ∧
      ∃ after, room.toggleChatReaction 1 "b" "👍" = some after ∧
        ∃ last, after.1.toggleChatReaction 1 "b" "👍" = some last ∧
          last.1.chatHistory.map (fun message => (unreacted message, pairs message.reactions)) =
            room.chatHistory.map fun message =>
              (unreacted message, pairs message.reactions) := by
  have hcalls : ∀ message, .record message ∈ twoReactors → WellFormed message.reactions := by
    intro message hmem
    obtain rfl : message = ⟨0, "a", "Alice", "hello", 1, none, []⟩ := by
      simpa [twoReactors] using hmem
    exact wellFormed_nil
  refine ⟨_, rfl, ?_⟩
  obtain ⟨-, hhistory, -, htwice⟩ := chatStore_keeps "room" twoReactors _ hcalls rfl
  exact ⟨hhistory, _, rfl, htwice 1 "b" "👍" _ _ rfl⟩

/-- The only caller records messages without reactions. -/
theorem postChatMessage_keeps {room : Room} {messages : List ChatMessagePayload}
    (h : Keeps room messages) (p : ParticipantId) (name : Option String) (recent : List Instant)
    (now timestamp : Nat) (message : String) (replyToId : Option Nat) :
    ∃ added, Keeps (SignalingSteps.postChatMessage room p name recent now timestamp message
      replyToId).1 (messages ++ added) := by
  have hallowed : Keeps (room.allowChatMessage now).2 messages := by
    unfold Room.allowChatMessage
    dsimp only
    split
    · exact ⟨h.ids, h.last, h.history, h.reactions⟩
    · exact ⟨h.ids, h.last, h.history, h.reactions⟩
  have hkept : ∀ after, Keeps after messages → ∃ added, Keeps after (messages ++ added) := by
    intro after hafter
    exact ⟨[], by simpa using hafter⟩
  simp only [SignalingSteps.postChatMessage]
  split
  · exact hkept room h
  · split
    · exact hkept room h
    · split
      · exact hkept _ hallowed
      · exact ⟨_, hallowed.record wellFormed_nil⟩

end OpenMeet.ChatStore
