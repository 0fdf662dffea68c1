import OpenMeet.MessagePaging

/-!
When a message that was never shown still counts as unread. The read mark is one
number, and the latest page a user reads raises it to the newest message of the
page. So a message is read past when it is not on a page that holds a newer one:
it was not visible yet, or the page was too short to reach back to it. While no
page does that and every response that has marked its page goes out, whatever a
user has not been shown stays above the mark.
-/
namespace OpenMeet.ShownMessages

open KeyedMap Messages Accounts SocialTables Badges ConversationApi MessageApi MessageDelivery
  SocialRequests TransitionSystem ReadMarks MessagePaging BadgeNews

/-! ## Pages that reach back to a message -/

/-- How many messages are visible that are newer. -/
def newerCount (conversation : Conversation) (sequence : Sequence) : ℕ :=
  conversation.messages.keys.countP (sequence < ·)

/-- The latest page, if it were read now, would begin before the message or hold it. -/
def Reaches (conversation : Conversation) (limit : ℕ) (sequence : Sequence) : Prop :=
  newerCount conversation sequence = 0 ∨
    sequence ∈ conversation.messages ∧ newerCount conversation sequence < limit

instance (conversation : Conversation) (limit : ℕ) (sequence : Sequence) :
    Decidable (Reaches conversation limit sequence) := inferInstanceAs (Decidable (_ ∨ _))

section Pages

variable {conversation : Conversation} {limit : ℕ} {sequence : Sequence}

/-- A row is among the first exactly when few rows come before it. -/
theorem mem_take_iff {Row : Type*} {key : Row → Sequence} {rows : List Row} {row : Row}
    (hrows : rows.Pairwise fun a b => key b < key a) (hrow : row ∈ rows) (n : ℕ) :
    row ∈ rows.take n ↔ rows.countP (fun other => key row < key other) < n := by
  induction rows generalizing n with
  | nil => cases hrow
  | cons newest rest ih =>
    obtain ⟨hnewest, hrest⟩ := List.pairwise_cons.mp hrows
    cases n with
    | zero => simp
    | succ n =>
      rw [List.take_succ_cons, List.mem_cons]
      rcases List.mem_cons.mp hrow with rfl | hmem
      · have hnone : (row :: rest).countP (fun other => key row < key other) = 0 := by
          rw [List.countP_eq_zero]
          intro other hother
          rcases List.mem_cons.mp hother with rfl | hlater
          · simp
          · simpa using (hnewest other hlater).le
        rw [hnone]
        exact iff_of_true (.inl rfl) (Nat.succ_pos n)
      · have hlt : key row < key newest := hnewest row hmem
        have hne : row ≠ newest := fun heq => lt_irrefl _ (heq ▸ hlt)
        rw [List.countP_cons_of_pos (by simpa using hlt), Nat.add_lt_add_iff_right,
          ← ih hrest hmem n]
        exact or_iff_right hne

theorem countP_messagesBefore :
    (messagesBefore conversation none).countP (fun row => sequence < row.1) =
      newerCount conversation sequence := by
  unfold messagesBefore newerCount
  rw [(orderByDesc_perm _ _).countP_eq, AList.keys, List.keys, List.countP_map]
  simp [List.countP_map, Function.comp_def]

theorem holds_iff (userId : Uuid) : Holds (messagePage conversation userId none limit) sequence ↔
    sequence ∈ conversation.messages ∧ newerCount conversation sequence < limit := by
  rw [← mem_messagesBefore_none, ← countP_messagesBefore, Holds, messagePage, List.mem_map]
  constructor
  · intro h
    obtain ⟨row, hrow, rfl⟩ := h
    have hmem := List.mem_of_mem_take hrow
    exact ⟨⟨row, hmem, rfl⟩, (mem_take_iff (messagesBefore_strict none) hmem limit).mp hrow⟩
  · intro h
    obtain ⟨⟨row, hrow, rfl⟩, hfew⟩ := h
    exact ⟨row, (mem_take_iff (messagesBefore_strict none) hrow limit).mpr hfew, rfl⟩

/-- The newest message of a page is that of the conversation. -/
theorem latestSequence_le_iff (userId : Uuid) (hlimit : 0 < limit) :
    latestSequence (messagePage conversation userId none limit) ≤ sequence ↔
      newerCount conversation sequence = 0 := by
  rw [← countP_messagesBefore, List.countP_eq_zero, latestSequence, messagePage,
    List.head?_take, if_neg hlimit.ne']
  have hsorted : (messagesBefore conversation none).Pairwise fun a b => b.1 < a.1 :=
    messagesBefore_strict none
  cases hrows : messagesBefore conversation none with
  | nil => simp
  | cons newest rest =>
    rw [hrows, List.pairwise_cons] at hsorted
    simp only [List.head?_cons, Option.elim_some, List.forall_mem_cons, decide_eq_true_eq, not_lt]
    refine (and_iff_left_of_imp ?_).symm
    intro hnewest row hrow
    exact (hsorted.1 row hrow).le.trans hnewest

theorem holds_latestSequence {page : MessagesPage} (h : 0 < latestSequence page) :
    Holds page (latestSequence page) := by
  unfold latestSequence at h ⊢
  cases hhead : page.messages.head? with
  | none =>
    rw [hhead] at h
    exact absurd h (Nat.lt_irrefl 0)
  | some row => exact List.mem_map_of_mem (List.mem_of_mem_head? hhead)

/-- Reaching back to a message is being older than it or holding it: any other page raises the mark
past the message without showing it. -/
theorem reaches_iff (hlimit : 0 < limit) (hpos : 0 < sequence) (userId : Uuid) :
    Reaches conversation limit sequence ↔
      latestSequence (messagePage conversation userId none limit) < sequence ∨
        Holds (messagePage conversation userId none limit) sequence := by
  rw [Reaches, ← latestSequence_le_iff userId hlimit, ← holds_iff userId]
  constructor
  · intro h
    rcases h with hle | hholds
    · rcases hle.lt_or_eq with hlt | heq
      · exact .inl hlt
      · exact .inr (heq ▸ holds_latestSequence (heq ▸ hpos))
    · exact .inr hholds
  · exact Or.imp_left le_of_lt

end Pages

/-! ## Responses -/

def markedPage : ListStage → Option MessagesPage
  | .marked page => some page
  | _ => none

/-- A request for the latest page has marked it, with the message on it, and its response is yet
to go out. -/
def Underway (userId conversationId : Uuid) (sequence : Sequence) (s : Delivery) : Prop :=
  ∃ request limit page, s.listing.lookup request =
    some ⟨userId, conversationId, none, limit, .marked page⟩ ∧ Holds page sequence

/-- A response to the user holds the message: one that has gone out, or one that is about to. -/
def Shown (userId conversationId : Uuid) (sequence : Sequence) (log : List Answer) (s : Delivery) :
    Prop :=
  (∃ answer ∈ log, answer.userId = userId ∧ answer.conversationId = conversationId ∧
    Holds answer.page sequence) ∨ Underway userId conversationId sequence s

/-- When the latest page is read for the user it reaches back to the message, and a response that
holds the message is not given up once its page is marked. -/
def Shows (userId conversationId : Uuid) (sequence : Sequence) (s : Delivery) :
    DeliveryAction → Prop
  | .loadPage request => ∀ listing ∈ s.listing.lookup request, listing.userId = userId →
      listing.conversationId = conversationId → listing.before = none →
      ∀ conversation ∈ s.db.conversations.lookup conversationId,
        Reaches conversation listing.limit sequence
  | .dropList request => ∀ listing ∈ s.listing.lookup request, listing.userId = userId →
      listing.conversationId = conversationId → listing.before = none →
      ∀ page ∈ markedPage listing.stage, ¬ Holds page sequence
  | _ => True

instance (userId conversationId : Uuid) (sequence : Sequence) (s : Delivery)
    (a : DeliveryAction) : Decidable (Shows userId conversationId sequence s a) := by
  cases a <;> unfold Shows <;> infer_instance

section Steps

variable {db : SocialDatabase} {s t : Delivery} {a : DeliveryAction}
  {userId conversationId : Uuid} {sequence : Sequence}

/-- The latest pages that are read and not yet marked are older than the message or hold it. -/
def Loaded (userId conversationId : Uuid) (sequence : Sequence) (s : Delivery) : Prop :=
  ∀ request limit page,
    s.listing.lookup request = some ⟨userId, conversationId, none, limit, .loaded page⟩ →
      latestSequence page < sequence ∨ Holds page sequence

/-- The requests go on as they are, but for one. -/
theorem Loaded.insert {request : ℕ} {listing : Listing}
    (h : Loaded userId conversationId sequence s)
    (hnew : ∀ limit page, listing = ⟨userId, conversationId, none, limit, .loaded page⟩ →
      latestSequence page < sequence ∨ Holds page sequence)
    (heq : t.listing = s.listing.insert request listing) :
    Loaded userId conversationId sequence t := by
  intro other limit page hlookup
  rw [heq] at hlookup
  by_cases hother : other = request
  · subst hother
    rw [AList.lookup_insert] at hlookup
    exact hnew limit page (Option.some.inj hlookup)
  · rw [AList.lookup_insert_ne hother] at hlookup
    exact h other limit page hlookup

theorem Loaded.insert_other {request : ℕ} {listing : Listing}
    (h : Loaded userId conversationId sequence s) (hnew : ∀ page, listing.stage ≠ .loaded page)
    (heq : t.listing = s.listing.insert request listing) :
    Loaded userId conversationId sequence t :=
  h.insert (fun _ page hlisting => absurd (congrArg Listing.stage hlisting) (hnew page)) heq

theorem Loaded.erase {request : ℕ} (h : Loaded userId conversationId sequence s)
    (heq : t.listing = s.listing.erase request) : Loaded userId conversationId sequence t := by
  intro other limit page hlookup
  rw [heq] at hlookup
  by_cases hother : other = request
  · subst hother
    rw [AList.lookup_erase] at hlookup
    cases hlookup
  · rw [AList.lookup_erase_ne hother] at hlookup
    exact h other limit page hlookup

theorem Loaded.of_eq (h : Loaded userId conversationId sequence s) (heq : t.listing = s.listing) :
    Loaded userId conversationId sequence t := by
  intro request limit page hlookup
  exact h request limit page (heq ▸ hlookup)

/-- A page is only read when it reaches back to the message. -/
theorem Loaded.step (hpos : 0 < sequence) (hroomy : RoomyPages s)
    (h : Loaded userId conversationId sequence s)
    (hshows : Shows userId conversationId sequence s a) (hstep : (system db).step s a = some t) :
    Loaded userId conversationId sequence t := by
  cases a with
  | insertMessage transaction senderId id content replyToSequence attachments =>
    exact h.of_eq (insertRow_frame hstep).2
  | commitMessage transaction now =>
    obtain ⟨sending, -, rfl⟩ := Option.map_eq_some_iff.mp hstep
    exact h
  | abortMessage transaction =>
    obtain ⟨-, heq⟩ := Option.ite_none_right_eq_some.mp hstep
    cases heq
    exact h
  | authorizeList request reader id before limit =>
    obtain ⟨-, row, -, hlisting⟩ := authorizeRequest_frame hstep
    exact h.insert_other (fun _ heq => by cases heq) hlisting
  | findFirstUnread request =>
    obtain ⟨listing, conversation, result, -, -, hnext, rfl⟩ := advance_some hstep
    split at hnext <;> cases hnext
    exact h.insert_other (fun _ heq => by cases heq) rfl
  | loadPage request =>
    obtain ⟨listing, conversation, result, hlisting, hconversation, hnext, rfl⟩ :=
      advance_some hstep
    split at hnext <;> cases hnext
    refine h.insert ?_ rfl
    intro limit page heq
    obtain ⟨reader, id, before, size, stage⟩ := listing
    cases heq
    have hreaches := hshows _ hlisting rfl rfl rfl conversation hconversation
    exact (reaches_iff (hroomy request _ hlisting) hpos reader).mp hreaches
  | markPage request =>
    obtain ⟨listing, conversation, result, -, -, hnext, rfl⟩ := advance_some hstep
    split at hnext <;> cases hnext
    exact h.insert_other (fun _ heq => by cases heq) rfl
  | answerList request => exact h.erase (answerRequest_frame hstep).2
  | dropList request =>
    obtain ⟨-, heq⟩ := Option.ite_none_right_eq_some.mp hstep
    cases heq
    exact h.erase rfl

/-- A response that is about to go out is not held up by another request. -/
theorem Underway.insert {request : ℕ} {listing : Listing}
    (h : Underway userId conversationId sequence s)
    (hother : ∀ found ∈ s.listing.lookup request, markedPage found.stage = none)
    (heq : t.listing = s.listing.insert request listing) :
    Underway userId conversationId sequence t := by
  obtain ⟨marked, limit, page, hlookup, hholds⟩ := h
  refine ⟨marked, limit, page, ?_, hholds⟩
  have hne : marked ≠ request := by
    intro heq
    subst heq
    cases hother _ hlookup
  rw [heq, AList.lookup_insert_ne hne, hlookup]

theorem Underway.of_eq (h : Underway userId conversationId sequence s)
    (heq : t.listing = s.listing) : Underway userId conversationId sequence t := by
  unfold Underway
  rwa [heq]

/-- A response that is about to go out goes out or is still about to. -/
theorem Underway.step (h : Underway userId conversationId sequence s)
    (hshows : Shows userId conversationId sequence s a) (hstep : (system db).step s a = some t) :
    Shown userId conversationId sequence (answers s a) t := by
  cases a with
  | insertMessage transaction senderId id content replyToSequence attachments =>
    exact .inr (h.of_eq (insertRow_frame hstep).2)
  | commitMessage transaction now =>
    obtain ⟨sending, -, rfl⟩ := Option.map_eq_some_iff.mp hstep
    exact .inr h
  | abortMessage transaction =>
    obtain ⟨-, heq⟩ := Option.ite_none_right_eq_some.mp hstep
    cases heq
    exact .inr h
  | authorizeList request reader id before limit =>
    have hauthorize : authorizeRequest s request reader id before limit = some t := hstep
    have hnew : request ∉ s.listing := by
      intro hmem
      rw [authorizeRequest, if_pos hmem] at hauthorize
      cases hauthorize
    obtain ⟨-, row, -, hlisting⟩ := authorizeRequest_frame hauthorize
    refine .inr (h.insert ?_ hlisting)
    intro found hfound
    rw [AList.lookup_eq_none.mpr hnew] at hfound
    cases hfound
  | findFirstUnread request | loadPage request | markPage request =>
    obtain ⟨listing, conversation, result, hlisting, -, hnext, rfl⟩ := advance_some hstep
    refine .inr (h.insert ?_ rfl)
    intro found hfound
    obtain rfl := Option.some.inj (hlisting.symm.trans hfound)
    split at hnext
    · rename_i hstage
      rw [hstage]
      rfl
    · cases hnext
  | answerList request =>
    obtain ⟨marked, limit, page, hlookup, hholds⟩ := h
    by_cases hsame : marked = request
    · subst hsame
      refine .inl ⟨⟨userId, conversationId, page⟩, ?_, rfl, rfl, hholds⟩
      simp [answers, hlookup]
    · refine .inr ⟨marked, limit, page, ?_, hholds⟩
      rw [(answerRequest_frame hstep).2, AList.lookup_erase_ne hsame, hlookup]
  | dropList request =>
    obtain ⟨-, heq⟩ := Option.ite_none_right_eq_some.mp hstep
    cases heq
    obtain ⟨marked, limit, page, hlookup, hholds⟩ := h
    refine .inr ⟨marked, limit, page, ?_, hholds⟩
    have hne : marked ≠ request := by
      intro heq
      subst heq
      exact hshows _ hlookup rfl rfl rfl page rfl hholds
    dsimp only
    rw [AList.lookup_erase_ne hne, hlookup]

/-- Only a page that was read raises the mark, and then its response is about to go out. -/
theorem mem_reads {read : Read} (h : read ∈ reads s a) (hstep : (system db).step s a = some t) :
    ∃ request limit page,
      s.listing.lookup request =
        some ⟨read.userId, read.conversationId, none, limit, .loaded page⟩ ∧
      t.listing.lookup request =
        some ⟨read.userId, read.conversationId, none, limit, .marked page⟩ ∧
      read.newest = latestSequence page := by
  cases a with
  | markPage request =>
    simp only [reads] at h
    split at h
    · rename_i limit page hlisting
      obtain rfl := List.mem_singleton.mp h
      obtain ⟨listing, conversation, result, hfound, -, hnext, rfl⟩ := advance_some hstep
      obtain rfl := Option.some.inj (hlisting.symm.trans hfound)
      cases hnext
      exact ⟨request, limit, page, hlisting, AList.lookup_insert .., rfl⟩
    · cases h
  | _ => cases h

/-- Along a run with the responses so far. -/
structure Invariant (userId conversationId : Uuid) (sequence : Sequence) (log : List Answer)
    (s : Delivery) : Prop where
  roomy : RoomyPages s
  loaded : Loaded userId conversationId sequence s
  unread : readMark s.db userId conversationId < sequence ∨
    Shown userId conversationId sequence log s

theorem Invariant.step {log : List Answer} (hpos : 0 < sequence)
    (h : Invariant userId conversationId sequence log s)
    (hshows : Shows userId conversationId sequence s a) (hstep : (system db).step s a = some t) :
    Invariant userId conversationId sequence (log ++ answers s a) t where
  roomy := h.roomy.step hstep
  loaded := h.loaded.step hpos h.roomy hshows hstep
  unread := by
    rcases h.unread with hlt | ⟨answer, hanswer, hmatches⟩ | hunderway
    · by_cases hreads : ∀ read ∈ reads s a, read.userId = userId →
          read.conversationId = conversationId → read.newest < sequence
      · rw [readMark_step hstep]
        exact .inl (foldl_raiseMark_lt.mpr ⟨hlt, hreads⟩)
      · push Not at hreads
        obtain ⟨read, hread, rfl, rfl, hnewest⟩ := hreads
        obtain ⟨request, limit, page, hloaded, hmarked, heq⟩ := mem_reads hread hstep
        have hholds : Holds page sequence :=
          (h.loaded request limit page hloaded).resolve_left (heq ▸ hnewest.not_gt)
        exact .inr (.inr ⟨request, limit, page, hmarked, hholds⟩)
    · exact .inr (.inl ⟨answer, List.mem_append_left _ hanswer, hmatches⟩)
    · rcases hunderway.step hshows hstep with ⟨answer, hanswer, hmatches⟩ | hstill
      · exact .inr (.inl ⟨answer, List.mem_append_right _ hanswer, hmatches⟩)
      · exact .inr (.inr hstill)

end Steps

/-! ## Runs -/

/-- From the step that draws the sequence of a message, in whatever order messages are sent and
pages read: while no response to a user holds it, it stays unread for them. -/
def UnshownStaysUnread (db : SocialDatabase) : Prop :=
  ∀ first transaction senderId conversationId content replyToSequence attachments rest s s' t,
    (system db).run first = some s →
    (system db).step s (.insertMessage transaction senderId conversationId content replyToSequence
      attachments) = some s' →
    (system db).runFrom s' rest = some t →
    ∀ userId, let sequence := s.db.lastSequence + 1
      readMark s.db userId conversationId < sequence →
      CommittedFromOther t.db userId conversationId sequence →
      ¬ Shown userId conversationId sequence ((system db).outputs answers s' rest) t →
      StaysUnread t.db userId conversationId sequence

/-- The first message of a run ends up visible, behind the mark, and in no response. -/
def readPast (db : SocialDatabase) (userId conversationId : Uuid) (insert : DeliveryAction)
    (rest : List DeliveryAction) : Bool :=
  let sequence := db.lastSequence + 1
  ((system db).step (system db).init insert).any fun s' =>
    ((system db).runFrom s' rest).any fun t =>
      decide (readMark db userId conversationId < sequence ∧
        sequence ≤ readMark t.db userId conversationId) &&
      ((t.db.conversations.lookup conversationId).any fun conversation =>
        (conversation.messages.lookup sequence).any (·.senderId ≠ userId)) &&
      t.listing.isEmpty &&
      ((system db).outputs answers s' rest).all fun answer => ¬ Holds answer.page sequence

section Runs

variable {db : SocialDatabase} {log : List Answer} {t : Delivery} {transaction : ℕ}
  {senderId conversationId userId : Uuid} {content : String} {replyToSequence : Option Sequence}
  {attachments : List MessageAttachment} {rest : List DeliveryAction} {sequence : Sequence}

theorem not_shown (hlisting : t.listing.isEmpty = true)
    (hlog : log.all (fun answer => ¬ Holds answer.page sequence) = true) :
    ¬ Shown userId conversationId sequence log t := by
  intro h
  rcases h with ⟨answer, hanswer, -, -, hholds⟩ | ⟨request, limit, page, hlookup, -⟩
  · exact of_decide_eq_true (List.all_eq_true.mp hlog answer hanswer) hholds
  · have hmem := AList.lookup_isSome.mp (Option.isSome_of_eq_some hlookup)
    exact (Map.isEmpty_iff _).mp hlisting request hmem

theorem not_unshownStaysUnread (hrun : readPast db userId conversationId (.insertMessage transaction
    senderId conversationId content replyToSequence attachments) rest = true) :
    ¬ UnshownStaysUnread db := by
  obtain ⟨s', hinsert, hany⟩ := (Option.any_eq_true ..).mp hrun
  obtain ⟨t, hrest, htest⟩ := (Option.any_eq_true ..).mp hany
  simp only [Bool.and_eq_true, decide_eq_true_eq] at htest
  obtain ⟨⟨⟨⟨hnew, hread⟩, hcommitted⟩, hlisting⟩, hanswers⟩ := htest
  obtain ⟨conversation, hconversation, hmessages⟩ := (Option.any_eq_true ..).mp hcommitted
  obtain ⟨message, hmessage, hsender⟩ := (Option.any_eq_true ..).mp hmessages
  intro hunshown
  have hstays := hunshown [] transaction senderId conversationId content replyToSequence attachments
    rest (system db).init s' t rfl hinsert hrest userId hnew
    ⟨conversation, message, hconversation, hmessage, of_decide_eq_true hsender⟩
    (not_shown hlisting hanswers)
  exact hstays.2.not_ge hread

end Runs

/-- Two messages become visible in the other order, and Bob reads in between. -/
theorem overlappingSenders_readsPast : ∃ accounts ∈ adaAndBob,
    ¬ UnshownStaysUnread (runRequests plainHashing (emptyDatabase accounts) teamOfTwo) := by
  obtain ⟨accounts, haccounts, hrun⟩ : ∃ accounts ∈ adaAndBob,
      readPast (runRequests plainHashing (emptyDatabase accounts) teamOfTwo) 2 10
        (.insertMessage 1 1 10 "hello" none [])
        ([.insertMessage 2 1 10 "again" none [], .commitMessage 2 3] ++
          listStatements 7 2 10 none none ++ [.commitMessage 1 4]) = true := by
    decide +kernel
  exact ⟨accounts, haccounts, not_unshownStaysUnread hrun⟩

/-- Bob reads one message of two. -/
example : ∃ accounts ∈ adaAndBob,
    readPast (runRequests plainHashing (emptyDatabase accounts) teamOfTwo) 2 10
      (.insertMessage 1 1 10 "hello" none [])
      ([.commitMessage 1 2, .insertMessage 2 1 10 "again" none [], .commitMessage 2 3] ++
        listStatements 7 2 10 none (some 1)) = true := by
  decide +kernel

/-- Bob gives his request up before it is answered. -/
example : ∃ accounts ∈ adaAndBob,
    readPast (runRequests plainHashing (emptyDatabase accounts) teamOfTwo) 2 10
      (.insertMessage 1 1 10 "hello" none [])
      ([.commitMessage 1 2] ++ (listStatements 7 2 10 none none).dropLast ++ [.dropList 7]) =
        true := by
  decide +kernel

/-- From the step that draws the sequence of a message, in whatever order messages are sent and
pages read: if every latest page its reader reads reaches back to it and no response that holds it
is given up, it stays unread for them until one goes out. -/
theorem unshown_staysUnread (db : SocialDatabase) (first : List DeliveryAction) (transaction : ℕ)
    (senderId conversationId : Uuid) (content : String) (replyToSequence : Option Sequence)
    (attachments : List MessageAttachment) (rest : List DeliveryAction) (s s' t : Delivery)
    (hfirst : (system db).run first = some s)
    (hinsert : (system db).step s (.insertMessage transaction senderId conversationId content
      replyToSequence attachments) = some s')
    (hrest : (system db).runFrom s' rest = some t) (userId : Uuid)
    (hshows : (system db).Guarded (Shows userId conversationId (s.db.lastSequence + 1))
      (system db).init (first ++ .insertMessage transaction senderId conversationId content
        replyToSequence attachments :: rest))
    (hnew : readMark s.db userId conversationId < s.db.lastSequence + 1)
    (hcommitted : CommittedFromOther t.db userId conversationId (s.db.lastSequence + 1))
    (hunshown : ¬ Shown userId conversationId (s.db.lastSequence + 1)
      ((system db).outputs answers s' rest) t) :
    StaysUnread t.db userId conversationId (s.db.lastSequence + 1) := by
  have hpos : 0 < s.db.lastSequence + 1 := Nat.succ_pos _
  obtain ⟨hinserting, hreading⟩ := (System.guarded_append.mp hshows).2 s hfirst
  have hloaded : RoomyPages s ∧ Loaded userId conversationId (s.db.lastSequence + 1) s := by
    refine (System.always_of_guarded (I := fun u => RoomyPages u ∧ Loaded userId conversationId
      (s.db.lastSequence + 1) u) ?_ ⟨roomyPages_init db, ?_⟩ hshows).runFrom hfirst
    · intro u a v hu ha hstep
      exact ⟨hu.1.step hstep, hu.2.step hpos hu.1 ha hstep⟩
    · intro request limit page hlookup
      cases hlookup
  have hstart : Invariant userId conversationId (s.db.lastSequence + 1) [] s' := by
    refine ⟨hloaded.1.step hinsert, hloaded.2.step hpos hloaded.1 hinserting hinsert, ?_⟩
    rw [readMark_step hinsert]
    exact .inl hnew
  have hend := System.outputs_of_guarded
    (fun log u a v hu ha hstep => Invariant.step hpos hu ha hstep)
    hstart (hreading s' hinsert) hrest
  have hlt := hend.unread.resolve_right hunshown
  exact ⟨(countedUnread_iff_lt hcommitted).mpr hlt, hlt⟩

/-- Bob reads the group while Ada's second message is not visible yet. -/
theorem secondMessage_staysUnread : ∃ accounts ∈ adaAndBob,
    let M := system (runRequests plainHashing (emptyDatabase accounts) teamOfTwo)
    ∃ s s' t, M.run [.insertMessage 1 1 10 "hello" none [], .commitMessage 1 2] = some s ∧
      M.step s (.insertMessage 2 1 10 "again" none []) = some s' ∧
      M.runFrom s' (listStatements 7 2 10 none none ++ [.commitMessage 2 3]) = some t ∧
      readMark t.db 2 10 = 1 ∧ StaysUnread t.db 2 10 (s.db.lastSequence + 1) := by
  obtain ⟨accounts, haccounts, hguarded, hrun⟩ : ∃ accounts ∈ adaAndBob,
      let M := system (runRequests plainHashing (emptyDatabase accounts) teamOfTwo)
      let first : List DeliveryAction := [.insertMessage 1 1 10 "hello" none [], .commitMessage 1 2]
      let insert : DeliveryAction := .insertMessage 2 1 10 "again" none []
      let rest := listStatements 7 2 10 none none ++ [.commitMessage 2 3]
      M.Guarded (Shows 2 10 2) M.init (first ++ insert :: rest) ∧
      (M.run first).any (fun s => decide (s.db.lastSequence = 1 ∧ readMark s.db 2 10 < 2) &&
        (M.step s insert).any fun s' => (M.runFrom s' rest).any fun t =>
          decide (readMark t.db 2 10 = 1) && t.listing.isEmpty &&
          ((t.db.conversations.lookup 10).any fun conversation =>
            (conversation.messages.lookup 2).any (·.senderId ≠ 2)) &&
          (M.outputs answers s' rest).all fun answer => ¬ Holds answer.page 2) = true := by
    decide +kernel
  obtain ⟨s, hfirst, hany⟩ := (Option.any_eq_true ..).mp hrun
  obtain ⟨hstart, hany⟩ := Bool.and_eq_true_iff.mp hany
  obtain ⟨hsequence, hnew⟩ := of_decide_eq_true hstart
  obtain ⟨s', hinsert, hany⟩ := (Option.any_eq_true ..).mp hany
  obtain ⟨t, hrest, htest⟩ := (Option.any_eq_true ..).mp hany
  simp only [Bool.and_eq_true, decide_eq_true_eq] at htest
  obtain ⟨⟨⟨hread, hlisting⟩, hcommitted⟩, hanswers⟩ := htest
  obtain ⟨conversation, hconversation, hmessages⟩ := (Option.any_eq_true ..).mp hcommitted
  obtain ⟨message, hmessage, hsender⟩ := (Option.any_eq_true ..).mp hmessages
  refine ⟨accounts, haccounts, s, s', t, hfirst, hinsert, hrest, hread, ?_⟩
  refine unshown_staysUnread _ _ 2 1 10 "again" none [] _ s s' t hfirst hinsert hrest 2 ?_ ?_ ?_ ?_
  all_goals rw [hsequence]
  · exact hguarded
  · exact hnew
  · exact ⟨conversation, message, hconversation, hmessage, of_decide_eq_true hsender⟩
  · exact not_shown hlisting hanswers

end OpenMeet.ShownMessages
