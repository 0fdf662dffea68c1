import OpenMeet.MediaForwarding

/-!
What a receiver is sent of a track. From its subscription on the packets of the
sender come in the order in which they were read, each once and with nothing but
the SSRC changed; only a writer that has fallen further behind than the channel
remembers leaves packets out, and then those it had not received yet.
-/
namespace OpenMeet.ForwardedMedia

open LossyBroadcast PacketBuffer Components TransitionSystem MediaForwarding
open Messages (ParticipantId)

/-- A packet as its receiver is sent it. -/
def rewrite (localSsrc : UInt32) (packet : RtpPacket) : RtpPacket :=
  { packet with ssrc := localSsrc }

def forwarded (effects : List Effect) : List RtpPacket :=
  effects.filterMap fun effect =>
    match effect with
    | .forwarded packet => some packet
    | _ => none

def skipped (effects : List Effect) : List RtpPacket :=
  effects.flatMap fun effect =>
    match effect with
    | .skipped packets => packets
    | _ => []

def HasSkipped (effects : List Effect) : Prop := ∃ packets, .skipped packets ∈ effects

theorem forwarded_append (first second : List Effect) :
    forwarded (first ++ second) = forwarded first ++ forwarded second := List.filterMap_append ..

theorem skipped_append (first second : List Effect) :
    skipped (first ++ second) = skipped first ++ skipped second := List.flatMap_append ..

variable {hub : Hub} {kind : RTPCodecType} {sending : Sending hub} {s t : Forwarding hub}
  {act : ForwardingStep}

/-- The packet the writer has received and not yet written. -/
def inHand (s : Forwarding hub) : List RtpPacket :=
  match s.writer with
  | .storing packet => [packet]
  | .writing packet => [packet]
  | _ => []

/-! ## Steps -/

section Steps

theorem receive_some (h : receive sending s = some t) :
    s.writer = .receiving ∧
      ((∃ packet next, hub.recv sending.channel s.packets = some (.event packet, next) ∧
        t = { s with packets := next, writer := .storing (rewrite s.localSsrc packet) }) ∨
      ∃ count next, hub.recv sending.channel s.packets = some (.lagged count, next) ∧
        t = { s with packets := hub.subscribe sending.channel }) := by
  unfold receive at h
  split at h
  · rename_i hwriter
    obtain ⟨⟨received, next⟩, hrecv, heq⟩ := Option.map_eq_some_iff.mp h
    refine ⟨hwriter, ?_⟩
    cases received with
    | event packet => exact .inl ⟨packet, next, hrecv, heq.symm⟩
    | lagged count => exact .inr ⟨count, next, hrecv, heq.symm⟩
  · cases h

theorem store_some (h : store s = some t) : ∃ packet, s.writer = .storing packet ∧
    t = { s with buffer := s.buffer.store packet, writer := .writing packet } := by
  unfold store at h
  split at h
  · rename_i packet hwriter
    exact ⟨packet, hwriter, (Option.some.inj h).symm⟩
  · cases h

theorem write_some {written : Bool} (h : write s written = some t) :
    ∃ packet, s.writer = .writing packet ∧ t.localSsrc = s.localSsrc ∧ t.packets = s.packets ∧
      t.buffer = s.buffer ∧ (t.writer = .receiving ∨ t.writer = .ended) := by
  unfold write at h
  split at h
  · rename_i packet hwriter
    obtain rfl := Option.some.inj h
    exact ⟨packet, hwriter, rfl, rfl, rfl, (ite_eq_or_eq _ _ _).symm⟩
  · cases h

theorem endWriter_some (h : endWriter s = some t) :
    s.writer = .receiving ∧ t = { s with writer := .ended } := by
  unfold endWriter at h
  split at h
  · rename_i hwriter
    exact ⟨hwriter, (Option.some.inj h).symm⟩
  · cases h

/-- The steps of the handler leave the writer and the buffer alone. -/
structure SameWriter (s t : Forwarding hub) : Prop where
  localSsrc : t.localSsrc = s.localSsrc
  packets : t.packets = s.packets
  writer : t.writer = s.writer
  buffer : t.buffer = s.buffer

theorem readRtcp_sameWriter {packets : List RtcpPacket} (h : readRtcp s packets = some t) :
    SameWriter s t := by
  unfold readRtcp at h
  split at h <;> cases h
  exact ⟨rfl, rfl, rfl, rfl⟩

theorem handle_sameWriter (h : handle kind sending s = some t) : SameWriter s t := by
  unfold handle at h
  split at h
  · cases h
    exact ⟨rfl, rfl, rfl, rfl⟩
  · split at h <;> cases h
    · exact ⟨rfl, rfl, rfl, rfl⟩
    · exact ⟨rfl, rfl, rfl, rfl⟩
  · cases h

theorem sendPli_sameWriter {sent : Bool} (h : sendPli sending s sent = some t) :
    SameWriter s t := by
  unfold sendPli at h
  split at h <;> cases h
  exact ⟨rfl, rfl, rfl, rfl⟩

theorem endHandler_sameWriter (h : endHandler s = some t) : SameWriter s t := by
  unfold endHandler at h
  split at h <;> cases h
  exact ⟨rfl, rfl, rfl, rfl⟩

theorem localSsrc_step (hstep : forwardingStep kind sending s act = some t) :
    t.localSsrc = s.localSsrc := by
  cases act with
  | receive =>
    rcases (receive_some hstep).2 with ⟨packet, next, -, rfl⟩ | ⟨count, next, -, rfl⟩
    · rfl
    · rfl
  | store =>
    obtain ⟨packet, -, rfl⟩ := store_some hstep
    rfl
  | write written =>
    obtain ⟨packet, -, hssrc, -⟩ := write_some hstep
    exact hssrc
  | endWriter =>
    obtain ⟨-, rfl⟩ := endWriter_some hstep
    rfl
  | readRtcp packets => exact (readRtcp_sameWriter hstep).localSsrc
  | handle => exact (handle_sameWriter hstep).localSsrc
  | sendPli sent => exact (sendPli_sameWriter hstep).localSsrc
  | endHandler => exact (endHandler_sameWriter hstep).localSsrc

theorem SameWriter.inHand_eq (h : SameWriter s t) : inHand t = inHand s := by
  unfold inHand
  rw [h.writer]

end Steps

/-! ## Accounts -/

/-- What has been read since a receiver subscribed has been forwarded to it, is in its writer's
hand, has been skipped or is still to be received. -/
structure Accounts (read : List RtpPacket) (effects : List Effect) (sending : Sending hub)
    (s : Forwarding hub) : Prop where
  attached : hub.Attached sending.channel s.packets
  lagged : ∀ packets, .skipped packets ∈ effects → rtpBroadcastCapacity < packets.length
  past : ∃ past, read = past ++ hub.unread sending.channel s.packets ∧
    (forwarded effects ++ inHand s).Sublist (past.map (rewrite s.localSsrc)) ∧
    (forwarded effects ++ (skipped effects).map (rewrite s.localSsrc) ++ inHand s).Perm
      (past.map (rewrite s.localSsrc))

section Accounts

variable {read : List RtpPacket} {log : List Effect}

theorem accounts_subscribe (sending : Sending hub) (localSsrc : UInt32) :
    Accounts [] [] sending (subscribe sending localSsrc) where
  attached := hub.attached_subscribe sending.channel
  lagged packets h := by cases h
  past := ⟨[], (hub.unread_subscribe sending.channel).symm, List.Sublist.refl _, List.Perm.refl _⟩

theorem Accounts.elapse (h : Accounts read log sending s) (duration : ℕ) :
    Accounts read log { sending with now := sending.now + duration } s :=
  ⟨h.attached, h.lagged, h.past⟩

/-- A packet that is broadcast is to be received by everybody. -/
theorem Accounts.readRtp (h : Accounts read log sending s) (packet : RtpPacket) :
    Accounts (read ++ [packet]) log
      { sending with channel := hub.send sending.channel packet } s where
  attached := hub.attached_send h.attached packet
  lagged := h.lagged
  past := by
    obtain ⟨past, hread, hpast⟩ := h.past
    refine ⟨past, ?_, hpast⟩
    rw [hread, hub.unread_send h.attached packet, List.append_assoc]

/-- Nothing changes hands. -/
theorem Accounts.of_same (h : Accounts read log sending s) (hssrc : t.localSsrc = s.localSsrc)
    (hpackets : t.packets = s.packets) (hhand : inHand t = inHand s) {more : List Effect}
    (hforwarded : forwarded more = []) (hskipped : ∀ packets, .skipped packets ∉ more) :
    Accounts read (log ++ more) sending t where
  attached := hpackets ▸ h.attached
  lagged packets hmem := by
    rcases List.mem_append.mp hmem with hold | hnew
    · exact h.lagged packets hold
    · exact absurd hnew (hskipped packets)
  past := by
    have hnone : skipped more = [] := by
      apply List.flatMap_eq_nil_iff.mpr
      intro effect heffect
      cases effect with
      | skipped packets => exact absurd heffect (hskipped packets)
      | _ => rfl
    rw [forwarded_append, skipped_append, hforwarded, hnone, List.append_nil, List.append_nil,
      hssrc, hpackets, hhand]
    exact h.past

theorem Accounts.sameWriter (h : Accounts read log sending s) (hsame : SameWriter s t)
    {more : List Effect} (hforwarded : forwarded more = [])
    (hskipped : ∀ packets, .skipped packets ∉ more) : Accounts read (log ++ more) sending t :=
  h.of_same hsame.localSsrc hsame.packets hsame.inHand_eq hforwarded hskipped

theorem Accounts.receive (h : Accounts read log sending s)
    (hstep : MediaForwarding.receive sending s = some t) :
    Accounts read (log ++ effects sending s .receive) sending t := by
  obtain ⟨hwriter, hreceived⟩ := receive_some hstep
  have hempty : inHand s = [] := by
    unfold inHand
    rw [hwriter]
  obtain ⟨past, hread, hsublist, hperm⟩ := h.past
  rw [hempty, List.append_nil] at hsublist hperm
  rcases hreceived with ⟨packet, next, hrecv, rfl⟩ | ⟨count, next, hrecv, rfl⟩
  · have heffects : effects sending s .receive = [] := by
      simp only [effects, hwriter, hrecv]
    rw [heffects, List.append_nil]
    rcases Broadcast.recv_cases h.attached hrecv with ⟨event, heq, hunread, -⟩ | ⟨_, heq, -⟩
    · cases heq
      refine ⟨hub.attached_recv h.attached hrecv, h.lagged, past ++ [packet], ?_, ?_, ?_⟩
      · rw [hread, hunread, List.append_assoc]
        rfl
      · rw [List.map_append]
        exact hsublist.append (List.Sublist.refl _)
      · rw [List.map_append]
        exact hperm.append_right _
    · cases heq
  -- the writer that has lagged gives up everything it has not received
  · let unread := hub.unread sending.channel s.packets
    have heffects : effects sending s .receive = [.skipped unread] := by
      simp only [effects, hwriter, hrecv, unread]
    have hlag : rtpBroadcastCapacity < unread.length := by
      rcases Broadcast.recv_cases h.attached hrecv with ⟨_, heq, -⟩ | ⟨_, -, -, hlag, -⟩
      · cases heq
      · exact hlag
    have hhand : inHand { s with packets := hub.subscribe sending.channel } = [] := hempty
    rw [heffects]
    refine ⟨hub.attached_subscribe sending.channel, ?_, past ++ unread, ?_, ?_, ?_⟩
    · intro packets hmem
      rcases List.mem_append.mp hmem with hold | hnew
      · exact h.lagged packets hold
      · cases List.mem_singleton.mp hnew
        exact hlag
    · rw [hub.unread_subscribe, List.append_nil, hread]
    · rw [hhand, forwarded_append, List.map_append]
      show (forwarded log ++ [] ++ []).Sublist _
      rw [List.append_nil, List.append_nil]
      exact hsublist.trans (List.sublist_append_left _ _)
    · rw [hhand, forwarded_append, skipped_append, List.map_append, List.map_append,
        List.append_nil, ← List.append_assoc]
      show (forwarded log ++ [] ++ _ ++ (unread ++ []).map (rewrite s.localSsrc)).Perm _
      rw [List.append_nil, List.append_nil]
      exact hperm.append_right _

theorem Accounts.store (h : Accounts read log sending s)
    (hstep : MediaForwarding.store s = some t) :
    Accounts read (log ++ effects sending s .store) sending t := by
  obtain ⟨packet, hwriter, rfl⟩ := store_some hstep
  have hnone : forwarded (effects sending s .store) = [] := rfl
  refine h.of_same ?_ ?_ ?_ hnone ?_
  · rfl
  · rfl
  · unfold inHand
    rw [hwriter]
  · intro packets hmem
    cases hmem

theorem Accounts.write (h : Accounts read log sending s) {written : Bool}
    (hstep : MediaForwarding.write s written = some t) :
    Accounts read (log ++ effects sending s (.write written)) sending t := by
  obtain ⟨packet, hwriter, hssrc, hpackets, -, hdone⟩ := write_some hstep
  have heffects : effects sending s (.write written) = [.forwarded packet] := by
    simp only [effects, hwriter]
  have hbefore : inHand s = [packet] := by
    unfold inHand
    rw [hwriter]
  have hafter : inHand t = [] := by
    unfold inHand
    rcases hdone with hreceiving | hended
    · rw [hreceiving]
    · rw [hended]
  obtain ⟨past, hread, hsublist, hperm⟩ := h.past
  rw [hbefore] at hsublist hperm
  rw [heffects]
  refine ⟨hpackets ▸ h.attached, ?_, past, hpackets ▸ hread, ?_, ?_⟩
  · intro packets hmem
    rcases List.mem_append.mp hmem with hold | hnew
    · exact h.lagged packets hold
    · cases List.mem_singleton.mp hnew
  · rw [hssrc, hafter, forwarded_append, List.append_nil]
    exact hsublist
  · rw [hssrc, hafter, forwarded_append, skipped_append, List.append_nil]
    show (forwarded log ++ [packet] ++ (skipped log ++ []).map (rewrite s.localSsrc)).Perm _
    rw [List.append_nil, List.append_assoc]
    rw [List.append_assoc] at hperm
    exact (List.perm_append_comm.append_left _).trans hperm

theorem Accounts.endWriter (h : Accounts read log sending s)
    (hstep : MediaForwarding.endWriter s = some t) :
    Accounts read (log ++ effects sending s .endWriter) sending t := by
  obtain ⟨hwriter, rfl⟩ := endWriter_some hstep
  have hnone : forwarded (effects sending s .endWriter) = [] := rfl
  refine h.of_same ?_ ?_ ?_ hnone ?_
  · rfl
  · rfl
  · unfold inHand
    rw [hwriter]
  · intro packets hmem
    cases hmem

/-- The handler's effects forward and skip nothing. -/
theorem handler_effects (sending : Sending hub) (s : Forwarding hub)
    (hact : act = .handle ∨ ∃ sent, act = .sendPli sent) :
    forwarded (effects sending s act) = [] ∧
      ∀ packets, .skipped packets ∉ effects sending s act := by
  rcases hact with rfl | ⟨sent, rfl⟩
  · simp only [effects, retransmissions]
    split
    · split
      · split
        · exact ⟨rfl, fun packets hmem => by cases List.mem_singleton.mp hmem⟩
        · exact ⟨rfl, fun packets hmem => by cases hmem⟩
      · exact ⟨rfl, fun packets hmem => by cases hmem⟩
    · exact ⟨rfl, fun packets hmem => by cases hmem⟩
  · simp only [effects]
    split
    · split
      · exact ⟨rfl, fun packets hmem => by cases List.mem_singleton.mp hmem⟩
      · exact ⟨rfl, fun packets hmem => by cases hmem⟩
    · exact ⟨rfl, fun packets hmem => by cases hmem⟩

theorem Accounts.step (h : Accounts read log sending s)
    (hstep : forwardingStep kind sending s act = some t) :
    Accounts read (log ++ effects sending s act) sending t := by
  cases act with
  | receive => exact h.receive hstep
  | store => exact h.store hstep
  | write written => exact h.write hstep
  | endWriter => exact h.endWriter hstep
  | readRtcp packets =>
    refine h.sameWriter (readRtcp_sameWriter hstep) rfl ?_
    intro packets hmem
    cases hmem
  | handle =>
    obtain ⟨hforwarded, hskipped⟩ := handler_effects sending s (.inl rfl)
    exact h.sameWriter (handle_sameWriter hstep) hforwarded hskipped
  | sendPli sent =>
    obtain ⟨hforwarded, hskipped⟩ := handler_effects sending s (.inr ⟨sent, rfl⟩)
    exact h.sameWriter (sendPli_sameWriter hstep) hforwarded hskipped
  | endHandler =>
    refine h.sameWriter (endHandler_sameWriter hstep) rfl ?_
    intro packets hmem
    cases hmem

end Accounts

/-! ## Runs -/

section Runs

/-- The packets read in the run of one receiver. -/
def readOf (actions : List (SendingEvent ⊕ ForwardingStep)) : List RtpPacket :=
  actions.filterMap fun action =>
    match action with
    | .inl (.readRtp packet) => some packet
    | _ => none

theorem readOf_own (receiver : ParticipantId) (actions : List TrackAction) :
    readOf (actions.filterMap (own receiver)) = packetsRead actions := by
  unfold readOf packetsRead
  rw [List.filterMap_filterMap]
  apply List.filterMap_congr
  intro action _
  cases action with
  | shared event =>
    cases event with
    | elapse duration => rfl
    | readRtp packet => rfl
  | join other localSsrc => rfl
  | part other act =>
    show (if other = receiver then some (Sum.inr act) else none).bind _ = none
    split
    · rfl
    · rfl

theorem accounts_soloStep {past : List (SendingEvent ⊕ ForwardingStep)} {log : List Effect}
    {a : SendingEvent ⊕ ForwardingStep} {state next : Sending hub × Forwarding hub}
    (h : Accounts (readOf past) log state.1 state.2)
    (hstep : soloStep (design hub kind) state a = some next) :
    Accounts (readOf (past ++ [a])) (log ++ soloOutputs effects state a) next.1 next.2 := by
  have hread : readOf (past ++ [a]) = readOf past ++ readOf [a] := List.filterMap_append ..
  rw [hread]
  cases a with
  | inl event =>
    obtain ⟨sending, hsending, rfl⟩ := Option.map_eq_some_iff.mp hstep
    show Accounts _ (log ++ []) sending state.2
    rw [List.append_nil]
    cases event with
    | elapse duration =>
      cases hsending
      show Accounts (readOf past ++ []) log _ state.2
      rw [List.append_nil]
      exact h.elapse duration
    | readRtp packet =>
      cases hsending
      exact h.readRtp packet
  | inr act =>
    obtain ⟨s, hact, rfl⟩ := Option.map_eq_some_iff.mp hstep
    show Accounts (readOf past ++ []) (log ++ effects state.1 state.2 act) state.1 s
    rw [List.append_nil]
    exact h.step hact

variable {receiver : ParticipantId} {localSsrc : UInt32} {before after now : Track hub}
  {rest : List TrackAction}

/-- A receiver that subscribes begins with what is broadcast from then on. -/
theorem subscribed (hjoin : (track hub kind).step before (.join receiver localSsrc) = some after) :
    after.parts.lookup receiver = some (subscribe after.shared localSsrc) := by
  obtain ⟨-, heq⟩ := Option.ite_none_left_eq_some.mp hjoin
  cases heq
  exact AList.lookup_insert _

theorem accounts_of_run
    (hjoin : (track hub kind).step before (.join receiver localSsrc) = some after)
    (hrun : (track hub kind).runFrom after rest = some now) :
    ∃ s, now.parts.lookup receiver = some s ∧ s.localSsrc = localSsrc ∧
      Accounts (packetsRead rest) ((track hub kind).outputs (outputsOf receiver effects) after rest)
        now.shared s := by
  have hpart := subscribed hjoin
  let origin := (after.shared, subscribe after.shared localSsrc)
  obtain ⟨s, hsolo, hs⟩ := run_solo origin hrun hpart
  have hssrc : s.localSsrc = localSsrc := by
    refine System.unchanged_runFrom (fun state => state.2.localSsrc) ?_ hsolo
    intro a _ state next hstep
    cases a with
    | inl event =>
      obtain ⟨sending, -, rfl⟩ := Option.map_eq_some_iff.mp hstep
      rfl
    | inr act =>
      obtain ⟨forwarding, hact, rfl⟩ := Option.map_eq_some_iff.mp hstep
      exact localSsrc_step hact
  refine ⟨s, hs, hssrc, ?_⟩
  have houtputs : (track hub kind).outputs (outputsOf receiver effects) after rest = _ :=
    outputs_solo origin effects hrun hpart
  rw [houtputs, ← readOf_own receiver rest]
  let H (past : List (SendingEvent ⊕ ForwardingStep)) (log : List Effect)
      (state : Sending hub × Forwarding hub) : Prop := Accounts (readOf past) log state.1 state.2
  have hstart : H [] [] origin := accounts_subscribe after.shared localSsrc
  exact System.outputs_runFrom hstart
    (fun past log state a next h hstep => accounts_soloStep h hstep) hsolo

/-- Where nothing is skipped no packet is. -/
theorem hasSkipped_iff {log : List Effect}
    (hlagged : ∀ packets, .skipped packets ∈ log → rtpBroadcastCapacity < packets.length) :
    HasSkipped log ↔ 0 < (skipped log).length := by
  rw [List.length_pos_iff_exists_mem]
  constructor
  · intro h
    obtain ⟨packets, hmem⟩ := h
    have hmany := hlagged packets hmem
    obtain ⟨packet, hpacket⟩ := List.exists_mem_of_length_pos (by omega : 0 < packets.length)
    exact ⟨packet, List.mem_flatMap.mpr ⟨_, hmem, hpacket⟩⟩
  · intro h
    obtain ⟨packet, hpacket⟩ := h
    obtain ⟨effect, heffect, hmem⟩ := List.mem_flatMap.mp hpacket
    cases effect with
    | skipped packets => exact ⟨packets, heffect⟩
    | _ => cases hmem

/-- Whatever the other receivers do, a receiver is forwarded the packets read since it subscribed in
their order and each once, and what is neither forwarded nor still to come was skipped by a writer
more than the channel's capacity behind. -/
theorem forwarded_in_order
    (hjoin : (track hub kind).step before (.join receiver localSsrc) = some after)
    (hrun : (track hub kind).runFrom after rest = some now) :
    ∃ s, now.parts.lookup receiver = some s ∧
      let read := (packetsRead rest).map (rewrite localSsrc)
      let log := (track hub kind).outputs (outputsOf receiver effects) after rest
      let pending := inHand s ++
        (hub.unread now.shared.channel s.packets).map (rewrite localSsrc)
      (forwarded log ++ pending).Sublist read ∧
        (forwarded log ++ (skipped log).map (rewrite localSsrc) ++ pending).Perm read ∧
        (forwarded log ++ pending = read ↔ ¬ HasSkipped log) ∧
        ∀ packets, .skipped packets ∈ log → rtpBroadcastCapacity < packets.length := by
  obtain ⟨s, hs, rfl, haccounts⟩ := accounts_of_run hjoin hrun
  obtain ⟨past, hread, hsublist, hperm⟩ := haccounts.past
  refine ⟨s, hs, ?_⟩
  dsimp only
  rw [hread, List.map_append, ← List.append_assoc, ← List.append_assoc]
  refine ⟨hsublist.append (List.Sublist.refl _), hperm.append_right _, ?_, haccounts.lagged⟩
  rw [List.append_cancel_right_eq, hasSkipped_iff haccounts.lagged]
  have hlength := hperm.length_eq
  rw [List.length_append, List.length_append, List.length_map] at hlength
  constructor
  · intro hall
    rw [← hall, List.length_append] at hlength
    omega
  · intro hnone
    apply hsublist.eq_of_length
    rw [List.length_append]
    omega

end Runs

abbrev memoryHub : Hub := logBroadcast RtpPacket rtpBroadcastCapacity

/-- Bob's writer is behind by a packet while Eve's has given up on its first one. -/
def twoReceivers : List TrackAction :=
  [.join "eve" 9, .shared (.readRtp ⟨65535, 1, [1]⟩), .part "eve" .receive, .part "bob" .receive,
    .shared (.readRtp ⟨0, 1, [2]⟩), .part "bob" .store, .part "bob" (.write true),
    .part "eve" .store, .part "eve" (.write false)]

theorem twoReceivers_in_order :
    let M := track memoryHub .video
    ∃ after now s, M.step M.init (.join "bob" 7) = some after ∧
      M.runFrom after twoReceivers = some now ∧ now.parts.lookup "bob" = some s ∧
      forwarded (M.outputs (outputsOf "bob" effects) after twoReceivers) ++ (inHand s ++
          (memoryHub.unread now.shared.channel s.packets).map (rewrite 7)) =
        [⟨65535, 7, [1]⟩, ⟨0, 7, [2]⟩] := by
  intro M
  obtain ⟨after, hjoin⟩ : ∃ after, M.step M.init (.join "bob" 7) = some after := ⟨_, rfl⟩
  obtain ⟨hany, houtputs⟩ : (M.runFrom after twoReceivers).any (fun _ => true) = true ∧
      M.outputs (outputsOf "bob" effects) after twoReceivers = [.forwarded ⟨65535, 7, [1]⟩] := by
    cases hjoin
    decide +kernel
  obtain ⟨now, hrun, -⟩ := System.exists_run_of_any M after twoReceivers _ hany
  obtain ⟨s, hs, -, -, hall, -⟩ := forwarded_in_order hjoin hrun
  refine ⟨after, now, s, hjoin, hrun, hs, hall.mpr ?_⟩
  intro hskipped
  obtain ⟨packets, hmem⟩ := hskipped
  rw [houtputs] at hmem
  cases List.mem_singleton.mp hmem

end OpenMeet.ForwardedMedia
