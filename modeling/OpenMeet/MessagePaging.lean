import OpenMeet.GrowingPages
import OpenMeet.ReadMarks
import OpenMeet.SharedMedia

/-!
Paging back through a conversation while messages are sent in it. The sequence
of a message is drawn before the message becomes visible, so a message may turn
up anywhere among those a reader has seen. The pages are in order all the same,
and they hold each message that was visible below the bound of one of them when
that page was read, once, and no other message.
-/
namespace OpenMeet.MessagePaging

open KeyedMap Messages Accounts SocialTables ConversationApi MessageApi MessageDelivery
  SocialRequests TransitionSystem Pages GrowingPages
open BadgeNews (plainHashing adaAndBob)
open ReadMarks (advance_some teamOfTwo)
open SharedMedia (orderByDesc_strict)

/-! ## Pages -/

section Pages

variable {conversation : Conversation}

theorem messagesBefore_strict (before : Option Sequence) :
    (messagesBefore conversation before).Pairwise fun a b => b.1 < a.1 := by
  apply orderByDesc_strict
  have hsublist := (List.filter_sublist (p := fun row : Sequence × ConversationMessage =>
    before.all (row.1 < ·)) (l := conversation.messages.entries.map fun row => (row.1, row.2))).map
      Prod.fst
  apply List.Nodup.sublist hsublist
  rw [List.map_map]
  exact conversation.messages.keys_nodup

theorem messagesBefore_eq_below (before : Option Sequence) :
    messagesBefore conversation before = below (messagesBefore conversation none) (·.1) before := by
  have : Std.Irrefl fun a b : Sequence × ConversationMessage => b.1 < a.1 :=
    ⟨fun a => Nat.lt_irrefl a.1⟩
  have : Std.Antisymm fun a b : Sequence × ConversationMessage => b.1 < a.1 :=
    ⟨fun a b hab hba => absurd hab (Nat.lt_asymm hba)⟩
  have hbelow : (below (messagesBefore conversation none) (·.1) before).Pairwise
      fun a b => b.1 < a.1 := (messagesBefore_strict none).sublist List.filter_sublist
  apply (messagesBefore_strict before).eq_of_mem_iff hbelow
  intro row
  rw [below, List.mem_filter, mem_messagesBefore, mem_messagesBefore]
  simp [Option.all_eq_true]

/-- A page of messages is a page of the rows that are there. -/
theorem messagePage_eq (userId : Uuid) (before : Option Sequence) (limit : Nat) :
    let page := messagePage conversation userId before limit
    (page.messages, page.nextBefore.map some) =
      keysetPage (messagesBefore conversation none) (·.1) limit before := by
  simp only [messagePage, keysetPage, ← messagesBefore_eq_below]

end Pages

/-! ## Reading -/

/-- A page is read, with the conversation as it is at that moment. -/
structure PageLoad where
  conversationId : Uuid
  before : Option Sequence
  limit : Nat
  snapshot : Conversation
  page : MessagesPage

def loads (s : Delivery) : DeliveryAction → List PageLoad
  | .loadPage request =>
    match s.listing.lookup request with
    | some ⟨userId, conversationId, before, limit, .bounded firstUnread⟩ =>
      match s.db.conversations.lookup conversationId with
      | some conversation => [⟨conversationId, before, limit, conversation,
          { messagePage conversation userId before limit with
            firstUnreadSequence := firstUnread }⟩]
      | none => []
    | _ => []
  | _ => []

/-- The pages of one conversation, each asked for with the cursor of the one before, to the end. -/
structure PagedBack (conversationId : Uuid) (pages : List PageLoad) : Prop where
  conversation : ∀ load ∈ pages, load.conversationId = conversationId
  linked : pages.IsChain fun earlier later =>
    ∃ bound, earlier.page.nextBefore = some bound ∧ later.before = some bound
  finished : ∀ load ∈ pages.getLast?, load.page.nextBefore = none

def sequencesRead (pages : List PageLoad) : List Sequence :=
  pages.flatMap fun load => load.page.messages.map (·.1)

/-- The message can be read when the page is, and it is below the bound of the page. -/
def Offered (load : PageLoad) (sequence : Sequence) : Prop :=
  sequence ∈ load.snapshot.messages ∧ ∀ bound ∈ load.before, sequence < bound

/-! ## Steps -/

section Frames

variable {s t : Delivery}

/-- A message that is not committed shows nowhere. -/
theorem insertRow_frame {transaction : Nat} {senderId id : Uuid} {content : String}
    {replyToSequence : Option Sequence} {attachments : List MessageAttachment}
    (h : insertRow s transaction senderId id content replyToSequence attachments = some t) :
    t.db.conversations = s.db.conversations ∧ t.listing = s.listing := by
  unfold insertRow at h
  split at h
  · cases h
  · split at h
    · cases h
    · split at h
      · cases h
      · obtain ⟨sender, -, rfl⟩ := Option.map_eq_some_iff.mp h
        exact ⟨rfl, rfl⟩

theorem authorizeRequest_frame {request : Nat} {userId id : Uuid} {before limit : Option Int}
    (h : authorizeRequest s request userId id before limit = some t) :
    t.db = s.db ∧ ∃ row, validateMessagePage before limit = .ok row ∧
      t.listing = s.listing.insert request ⟨userId, id, row.1, row.2, .authorized⟩ := by
  unfold authorizeRequest at h
  split at h
  · cases h
  · split at h <;> cases h
    rename_i hpage _
    exact ⟨rfl, _, hpage, rfl⟩

theorem answerRequest_frame {request : Nat} (h : answerRequest s request = some t) :
    t.db = s.db ∧ t.listing = s.listing.erase request := by
  unfold answerRequest at h
  split at h <;> cases h
  exact ⟨rfl, rfl⟩

end Frames

section Steps

variable {db : SocialDatabase} {s t : Delivery} {a : DeliveryAction}

/-- The messages are among those that can be read. -/
def StillVisible (conversationId : Uuid) (messages : Map Sequence ConversationMessage)
    (s : Delivery) : Prop :=
  ∃ conversation, s.db.conversations.lookup conversationId = some conversation ∧
    ∀ sequence ∈ messages, sequence ∈ conversation.messages

section Visible

variable {conversationId : Uuid} {messages : Map Sequence ConversationMessage}
  (h : StillVisible conversationId messages s)
include h

theorem StillVisible.of_eq (heq : t.db.conversations = s.db.conversations) :
    StillVisible conversationId messages t := by
  unfold StillVisible
  rw [heq]
  exact h

theorem StillVisible.modify {id : Uuid} {f : Conversation → Conversation}
    (hf : ∀ conversation, ∀ sequence ∈ conversation.messages,
      sequence ∈ (f conversation).messages)
    (heq : t.db.conversations = (modifyConversation s.db id f).conversations) :
    StillVisible conversationId messages t := by
  obtain ⟨conversation, hlookup, hall⟩ := h
  unfold StillVisible
  rw [heq, modifyConversation, Map.lookup_modify, hlookup]
  split
  · exact ⟨f conversation, rfl, fun sequence hmem => hf conversation sequence (hall sequence hmem)⟩
  · exact ⟨conversation, rfl, hall⟩

/-- No step takes a message away. -/
theorem StillVisible.step (hstep : (system db).step s a = some t) :
    StillVisible conversationId messages t := by
  cases a with
  | insertMessage transaction senderId id content replyToSequence attachments =>
    exact h.of_eq (insertRow_frame hstep).1
  | commitMessage transaction now =>
    obtain ⟨sending, -, rfl⟩ := Option.map_eq_some_iff.mp hstep
    refine h.modify ?_ rfl
    intro conversation sequence hmem
    exact AList.mem_insert _ |>.mpr (.inr hmem)
  | abortMessage transaction =>
    obtain ⟨-, heq⟩ := Option.ite_none_right_eq_some.mp hstep
    cases heq
    exact h
  | authorizeList request reader id before limit =>
    exact h.of_eq (congrArg (·.conversations) (authorizeRequest_frame hstep).1)
  | findFirstUnread request =>
    obtain ⟨listing, conversation, result, -, -, hnext, rfl⟩ := advance_some hstep
    split at hnext <;> cases hnext
    exact h
  | loadPage request =>
    obtain ⟨listing, conversation, result, -, -, hnext, rfl⟩ := advance_some hstep
    split at hnext <;> cases hnext
    exact h
  | markPage request =>
    obtain ⟨listing, conversation, result, -, -, hnext, rfl⟩ := advance_some hstep
    split at hnext
    · cases hnext
      dsimp only
      split
      · refine h.modify ?_ rfl
        exact fun _ _ hmem => hmem
      · exact h
    · cases hnext
  | answerList request =>
    exact h.of_eq (congrArg (·.conversations) (answerRequest_frame hstep).1)
  | dropList request =>
    obtain ⟨-, heq⟩ := Option.ite_none_right_eq_some.mp hstep
    cases heq
    exact h

end Visible

/-- Every page that is asked for has room for a message. -/
def RoomyPages (s : Delivery) : Prop :=
  ∀ request listing, s.listing.lookup request = some listing → 0 < listing.limit

theorem validateMessagePage_pos {before limit : Option Int} {row : Option Sequence × Nat}
    (h : validateMessagePage before limit = .ok row) : 0 < row.2 := by
  unfold validateMessagePage at h
  dsimp only at h
  split at h
  · cases h
  · split at h
    · cases h
    · rename_i hbounds
      cases h
      show 0 < (limit.getD 50).toNat
      omega

section Roomy

variable {request : Nat} (h : RoomyPages s)
include h

theorem RoomyPages.of_eq (heq : t.listing = s.listing) : RoomyPages t := by
  intro other listing hlisting
  exact h other listing (heq ▸ hlisting)

theorem RoomyPages.insert {listing : Listing} (hpos : 0 < listing.limit)
    (heq : t.listing = s.listing.insert request listing) : RoomyPages t := by
  intro other found hfound
  rw [heq] at hfound
  by_cases hother : other = request
  · subst hother
    rw [AList.lookup_insert] at hfound
    cases hfound
    exact hpos
  · rw [AList.lookup_insert_ne hother] at hfound
    exact h other found hfound

theorem RoomyPages.erase (heq : t.listing = s.listing.erase request) : RoomyPages t := by
  intro other found hfound
  rw [heq] at hfound
  by_cases hother : other = request
  · subst hother
    rw [AList.lookup_erase] at hfound
    cases hfound
  · rw [AList.lookup_erase_ne hother] at hfound
    exact h other found hfound

theorem RoomyPages.advance {next : Listing → Conversation → Option (SocialDatabase × ListStage)}
    (hadvance : MessageDelivery.advance s request next = some t) : RoomyPages t := by
  obtain ⟨listing, conversation, result, hlisting, -, -, rfl⟩ := advance_some hadvance
  have hpos : 0 < { listing with stage := result.2 }.limit := h request listing hlisting
  exact h.insert hpos rfl

theorem RoomyPages.step (hstep : (system db).step s a = some t) : RoomyPages t := by
  cases a with
  | insertMessage transaction senderId id content replyToSequence attachments =>
    exact h.of_eq (insertRow_frame hstep).2
  | commitMessage transaction now =>
    obtain ⟨sending, -, rfl⟩ := Option.map_eq_some_iff.mp hstep
    exact h
  | abortMessage transaction =>
    obtain ⟨-, heq⟩ := Option.ite_none_right_eq_some.mp hstep
    cases heq
    exact h
  | authorizeList request reader id before limit =>
    obtain ⟨-, row, hpage, hlisting⟩ := authorizeRequest_frame hstep
    exact h.insert (validateMessagePage_pos hpage) hlisting
  | findFirstUnread request => exact h.advance hstep
  | loadPage request => exact h.advance hstep
  | markPage request => exact h.advance hstep
  | answerList request => exact h.erase (answerRequest_frame hstep).2
  | dropList request =>
    obtain ⟨-, heq⟩ := Option.ite_none_right_eq_some.mp hstep
    cases heq
    exact h.erase rfl

end Roomy

/-- A page is read from the conversation as it is. -/
theorem mem_loads {load : PageLoad} (h : load ∈ loads s a) :
    ∃ request userId firstUnread, a = .loadPage request ∧
      s.listing.lookup request =
        some ⟨userId, load.conversationId, load.before, load.limit, .bounded firstUnread⟩ ∧
      s.db.conversations.lookup load.conversationId = some load.snapshot ∧
      load.page = { messagePage load.snapshot userId load.before load.limit with
        firstUnreadSequence := firstUnread } := by
  cases a with
  | loadPage request =>
    simp only [loads] at h
    split at h
    · rename_i hlisting
      split at h
      · rename_i conversation hconversation
        obtain rfl := List.mem_singleton.mp h
        exact ⟨request, _, _, rfl, hlisting, hconversation, rfl⟩
      · cases h
    · cases h
  | _ => cases h

theorem loads_pairwise {R : PageLoad → PageLoad → Prop} : (loads s a).Pairwise R := by
  cases a with
  | loadPage request =>
    simp only [loads]
    split
    · split
      · exact List.pairwise_singleton ..
      · exact List.Pairwise.nil
    · exact List.Pairwise.nil
  | _ => exact List.Pairwise.nil

end Steps

/-! ## Runs -/

section Runs

variable {db : SocialDatabase} {s : Delivery} {actions : List DeliveryAction} {load : PageLoad}

/-- The page as one of rows that grow. -/
def PageLoad.ofRows (load : PageLoad) : Load (Sequence × ConversationMessage) Sequence :=
  ⟨messagesBefore load.snapshot none, load.before, load.limit⟩

/-- The page is cut from what is visible, and there is room on it. -/
structure WellCut (load : PageLoad) : Prop where
  room : 0 < load.limit
  cut : (load.page.messages, load.page.nextBefore.map some) = load.ofRows.page (·.1)

theorem wellCut_of_mem_outputs (hs : RoomyPages s)
    (h : load ∈ (system db).outputs loads s actions) : WellCut load := by
  apply System.forall_mem_outputs (fun s a t hs hstep => RoomyPages.step hs hstep) ?_ hs h
  intro s a hs load hload
  obtain ⟨request, userId, firstUnread, -, hlisting, -, hpage⟩ := mem_loads hload
  refine ⟨hs request _ hlisting, ?_⟩
  rw [hpage]
  exact messagePage_eq userId load.before load.limit

/-- What can be read when a page is can be read whenever a later page is. -/
theorem snapshots_grow (s : Delivery) (actions : List DeliveryAction) :
    ((system db).outputs loads s actions).Pairwise fun earlier later =>
      later.conversationId = earlier.conversationId →
        ∀ sequence ∈ earlier.snapshot.messages, sequence ∈ later.snapshot.messages := by
  let Since (load : PageLoad) := StillVisible load.conversationId load.snapshot.messages
  have hkeep : ∀ load s a t, Since load s → (system db).step s a = some t → Since load t :=
    fun load s a t h hstep => h.step hstep
  refine System.pairwise_outputs (fun s a => loads_pairwise) ?_ hkeep ?_ s actions
  · intro s a t hstep load hload
    obtain ⟨request, userId, firstUnread, -, -, hconversation, -⟩ := mem_loads hload
    apply StillVisible.step ?_ hstep
    exact ⟨load.snapshot, hconversation, fun sequence hmem => hmem⟩
  · intro load s a h later hlater hsame sequence hmem
    obtain ⟨conversation, hconversation, hall⟩ := h
    obtain ⟨request, userId, firstUnread, -, -, hfound, -⟩ := mem_loads hlater
    rw [hsame, hconversation] at hfound
    obtain rfl := Option.some.inj hfound
    exact hall sequence hmem

theorem mem_messagesBefore_none {conversation : Conversation} {sequence : Sequence} :
    (∃ row ∈ messagesBefore conversation none, row.1 = sequence) ↔
      sequence ∈ conversation.messages := by
  rw [← AList.lookup_isSome, Option.isSome_iff_exists]
  constructor
  · intro h
    obtain ⟨⟨sequence, message⟩, hrow, rfl⟩ := h
    exact ⟨message, ((mem_messagesBefore conversation).mp hrow).1⟩
  · intro h
    obtain ⟨message, hmessage⟩ := h
    refine ⟨(sequence, message), (mem_messagesBefore conversation).mpr ⟨hmessage, ?_⟩, rfl⟩
    intro bound hbound
    cases hbound

theorem offered_iff {sequence : Sequence} :
    sequence ∈ load.ofRows.offered (·.1) ↔ Offered load sequence := by
  rw [Load.mem_offered, PageLoad.ofRows, mem_messagesBefore_none]
  exact Iff.rfl

variable {conversationId : Uuid} {pages : List PageLoad}

/-- Pages of one conversation that are read one after the other are pages of rows that grow. -/
theorem growing_of_sublist (hsublist : pages.Sublist ((system db).outputs loads s actions))
    (hconversation : ∀ load ∈ pages, load.conversationId = conversationId) :
    Growing (·.1) (pages.map PageLoad.ofRows) := by
  constructor
  · intro rows hrows
    obtain ⟨load, -, rfl⟩ := List.mem_map.mp hrows
    exact messagesBefore_strict none
  · rw [List.pairwise_map]
    have hgrow := (snapshots_grow s actions).sublist hsublist
    refine hgrow.imp_of_mem ?_
    intro earlier later hearlier hlater hkept row hrow
    have hsame := (hconversation later hlater).trans (hconversation earlier hearlier).symm
    have hmem := mem_messagesBefore_none.mp ⟨row, hrow, rfl⟩
    exact mem_messagesBefore_none.mpr (hkept hsame row.1 hmem)

theorem keysRead_ofRows (hcut : ∀ load ∈ pages, WellCut load) :
    keysRead (·.1) (pages.map PageLoad.ofRows) = sequencesRead pages := by
  rw [keysRead, sequencesRead, List.flatMap_map]
  apply List.flatMap_congr
  intro load hload
  rw [← (hcut load hload).cut]

theorem WellCut.next_eq (h : WellCut load) :
    (load.ofRows.page (·.1)).2 = load.page.nextBefore.map some := by
  rw [← h.cut]

theorem PagedBack.linked_ofRows (h : PagedBack conversationId pages)
    (hcut : ∀ load ∈ pages, WellCut load) : Linked (·.1) (pages.map PageLoad.ofRows) := by
  rw [Linked, List.isChain_map]
  apply List.IsChain.imp_of_mem_imp ?_ h.linked
  intro earlier later hearlier _ hnext
  obtain ⟨bound, hbound, hbefore⟩ := hnext
  rw [(hcut earlier hearlier).next_eq, hbound, PageLoad.ofRows, hbefore]
  rfl

theorem PagedBack.finished_ofRows (h : PagedBack conversationId pages)
    (hcut : ∀ load ∈ pages, WellCut load) :
    ∀ rows ∈ (pages.map PageLoad.ofRows).getLast?, (rows.page (·.1)).2 = none := by
  intro rows hrows
  rw [List.getLast?_map] at hrows
  obtain ⟨load, hload, rfl⟩ := Option.map_eq_some_iff.mp hrows
  rw [(hcut load (List.mem_of_getLast? hload)).next_eq, h.finished load hload]
  rfl

theorem roomyPages_init (db : SocialDatabase) : RoomyPages (system db).init := by
  intro request listing hlisting
  cases hlisting

/-- In whatever order messages are sent and pages read, the pages that lead back through a
conversation are in order, and a message is on one of them exactly if it could be read, below the
bound, when one of them was. -/
theorem paging_back_complete (db : SocialDatabase) (actions : List DeliveryAction)
    (conversationId : Uuid) (pages : List PageLoad)
    (hpages : pages.Sublist ((system db).outputs loads (system db).init actions))
    (hback : PagedBack conversationId pages) :
    (sequencesRead pages).Pairwise (fun earlier later => later < earlier) ∧
      ∀ sequence, sequence ∈ sequencesRead pages ↔ ∃ load ∈ pages, Offered load sequence := by
  have hcut : ∀ load ∈ pages, WellCut load := fun load hload =>
    wellCut_of_mem_outputs (roomyPages_init db) (hpages.subset hload)
  have hgrowing := growing_of_sublist hpages hback.conversation
  have hlinked := hback.linked_ofRows hcut
  have hread := keysRead_ofRows hcut
  constructor
  · rw [← hread]
    exact keysRead_pairwise hgrowing hlinked
  · intro sequence
    have hsize : ∀ rows ∈ pages.map PageLoad.ofRows, 0 < rows.size := by
      intro rows hrows
      obtain ⟨load, hload, rfl⟩ := List.mem_map.mp hrows
      exact (hcut load hload).room
    rw [← hread, mem_keysRead_iff hsize hgrowing hlinked (hback.finished_ofRows hcut)]
    simp only [List.mem_map, exists_exists_and_eq_and, offered_iff]

end Runs

/-- Bob reads two pages while a message with an earlier sequence becomes visible between them, and
a third one after a message that he has gone past. -/
def readWhileSending : List DeliveryAction :=
  [.insertMessage 1 1 10 "one" none [], .commitMessage 1 2, .insertMessage 2 1 10 "two" none [],
    .insertMessage 3 1 10 "three" none [], .commitMessage 3 3] ++
  listStatements 7 2 10 none (some 1) ++ [.commitMessage 2 4] ++
  listStatements 8 2 10 (some 3) (some 1) ++
  [.insertMessage 4 1 10 "four" none [], .commitMessage 4 5] ++
  listStatements 9 2 10 (some 2) (some 1)

theorem readWhileSending_complete : ∃ accounts ∈ adaAndBob,
    let M := system (runRequests plainHashing (emptyDatabase accounts) teamOfTwo)
    let pages := M.outputs loads M.init readWhileSending
    sequencesRead pages = [3, 2, 1] ∧
      ∀ sequence, sequence ∈ sequencesRead pages ↔ ∃ load ∈ pages, Offered load sequence := by
  obtain ⟨accounts, haccounts, hread, hconversation, hlinked, hfinished⟩ :
      ∃ accounts ∈ adaAndBob,
        let M := system (runRequests plainHashing (emptyDatabase accounts) teamOfTwo)
        let pages := M.outputs loads M.init readWhileSending
        sequencesRead pages = [3, 2, 1] ∧ (∀ load ∈ pages, load.conversationId = 10) ∧
          (pages.IsChain fun earlier later => earlier.page.nextBefore.isSome = true ∧
            later.before = earlier.page.nextBefore) ∧
          ∀ load ∈ pages.getLast?, load.page.nextBefore = none := by
    decide +kernel
  refine ⟨accounts, haccounts, hread, ?_⟩
  refine (paging_back_complete _ readWhileSending 10 _ (List.Sublist.refl _)
    ⟨hconversation, ?_, hfinished⟩).2
  refine hlinked.imp ?_
  intro earlier later h
  obtain ⟨bound, hbound⟩ := Option.isSome_iff_exists.mp h.1
  exact ⟨bound, hbound, h.2.trans hbound⟩

end OpenMeet.MessagePaging
