import OpenMeet.ForwardedMedia

/-!
What becomes of a receiver's feedback. A packet reported lost is written again if
the buffer has it. Keyframes are requested from the sender at most every two
seconds for each of the two reasons, and a request is left out only if another
one for its reason has gone through less than two seconds before.
-/
namespace OpenMeet.ReceiverFeedback

open LossyBroadcast PacketBuffer Components TransitionSystem MediaForwarding ForwardedMedia
open Messages (ParticipantId)

/-- When keyframes were requested for a reason. -/
def requests (reason : PliReason) (log : List Effect) : List ℕ :=
  log.filterMap fun effect =>
    match effect with
    | .requestedKeyframe other time => if other = reason then some time else none
    | _ => none

theorem requests_append (reason : PliReason) (first second : List Effect) :
    requests reason (first ++ second) = requests reason first ++ requests reason second :=
  List.filterMap_append ..

/-- At least two seconds lie between requests. -/
def Spaced (times : List ℕ) : Prop :=
  times.Pairwise fun earlier later => earlier + lossRecoveryPliInterval ≤ later

theorem Spaced.le_last {times : List ℕ} (h : Spaced times) {last time : ℕ}
    (hlast : times.getLast? = some last) (htime : time ∈ times) : time ≤ last := by
  obtain ⟨init, rfl⟩ := List.getLast?_eq_some_iff.mp hlast
  rcases List.mem_append.mp htime with hold | hnew
  · have hle := (List.pairwise_append.mp h).2.2 time hold last (List.mem_singleton_self last)
    omega
  · exact (List.mem_singleton.mp hnew).le

theorem Spaced.concat {times : List ℕ} (h : Spaced times) {now : ℕ}
    (hlast : ∀ last : ℕ, times.getLast? = some last → last + lossRecoveryPliInterval ≤ now) :
    Spaced (times ++ [now]) := by
  refine List.pairwise_append.mpr ⟨h, List.pairwise_singleton _ _, ?_⟩
  intro time htime later hlater
  rw [List.mem_singleton.mp hlater]
  obtain ⟨last, hsome⟩ := Option.isSome_iff_exists.mp
    (List.getLast?_isSome.mpr (List.ne_nil_of_mem htime))
  have hle := h.le_last hsome htime
  have hnow := hlast last hsome
  omega

variable {hub : Hub} {kind : RTPCodecType} {sending : Sending hub} {s t : Forwarding hub}
  {act : ForwardingStep} {log : List Effect}

/-- The packet that is stored and not yet written. -/
def beingWritten (s : Forwarding hub) : List RtpPacket :=
  match s.writer with
  | .writing packet => [packet]
  | _ => []

/-- What has been stored for a receiver, in order. -/
def storedFor (log : List Effect) (s : Forwarding hub) : List RtpPacket :=
  forwarded log ++ beingWritten s

/-- The buffer and the times of the last requests are those of what a receiver's tasks have
done. -/
structure Answering (log : List Effect) (sending : Sending hub) (s : Forwarding hub) : Prop where
  buffer : s.buffer = storeAll (storedFor log s)
  last : ∀ reason, lastPli s reason = (requests reason log).getLast?
  spaced : ∀ reason, Spaced (requests reason log)
  ready : ∀ reason rest, s.handler = .sendingPli reason rest →
    ∀ last : ℕ, lastPli s reason = some last → last + lossRecoveryPliInterval ≤ sending.now

/-! ## Steps -/

section Steps

theorem answering_subscribe (sending : Sending hub) (localSsrc : UInt32) :
    Answering [] sending (subscribe sending localSsrc) where
  buffer := rfl
  last reason := by
    cases reason with
    | receiverRequested => rfl
    | nackMiss => rfl
  spaced reason := List.Pairwise.nil
  ready reason rest h := by cases h

/-- What the sender's side does takes at most time. -/
theorem Answering.sendingStep (h : Answering log sending s) {event : SendingEvent}
    {sending' : Sending hub} (hstep : MediaForwarding.sendingStep sending event = some sending') :
    Answering log sending' s := by
  refine ⟨h.buffer, h.last, h.spaced, ?_⟩
  intro reason rest hstage last hlast
  have hready := h.ready reason rest hstage last hlast
  cases event with
  | elapse duration =>
    cases hstep
    show last + lossRecoveryPliInterval ≤ sending.now + duration
    omega
  | readRtp packet =>
    cases hstep
    exact hready

/-- The steps of the writer leave the handler alone. -/
structure SameHandler (s t : Forwarding hub) : Prop where
  handler : t.handler = s.handler
  lastPli : ∀ reason, lastPli t reason = lastPli s reason

theorem receive_sameHandler (hstep : receive sending s = some t) : SameHandler s t := by
  rcases (receive_some hstep).2 with ⟨packet, next, -, rfl⟩ | ⟨count, next, -, rfl⟩
  · exact ⟨rfl, fun _ => rfl⟩
  · exact ⟨rfl, fun _ => rfl⟩

theorem store_sameHandler (hstep : store s = some t) : SameHandler s t := by
  obtain ⟨packet, -, rfl⟩ := store_some hstep
  exact ⟨rfl, fun _ => rfl⟩

theorem write_sameHandler {written : Bool} (hstep : write s written = some t) :
    SameHandler s t := by
  unfold write at hstep
  split at hstep <;> cases hstep
  exact ⟨rfl, fun _ => rfl⟩

theorem endWriter_sameHandler (hstep : endWriter s = some t) : SameHandler s t := by
  obtain ⟨-, rfl⟩ := endWriter_some hstep
  exact ⟨rfl, fun _ => rfl⟩

theorem Answering.sameHandler (h : Answering log sending s) (hsame : SameHandler s t)
    {more : List Effect} (hbuffer : t.buffer = storeAll (storedFor (log ++ more) t))
    (hmore : ∀ reason, requests reason more = []) : Answering (log ++ more) sending t := by
  have hrequests : ∀ reason, requests reason (log ++ more) = requests reason log := by
    intro reason
    rw [requests_append, hmore reason, List.append_nil]
  refine ⟨hbuffer, ?_, ?_, ?_⟩
  · intro reason
    rw [hrequests, hsame.lastPli]
    exact h.last reason
  · intro reason
    rw [hrequests]
    exact h.spaced reason
  · intro reason rest hstage
    rw [hsame.lastPli]
    exact h.ready reason rest (hsame.handler ▸ hstage)

theorem Answering.receive (h : Answering log sending s)
    (hstep : MediaForwarding.receive sending s = some t) :
    Answering (log ++ effects sending s .receive) sending t := by
  obtain ⟨hwriter, hreceived⟩ := receive_some hstep
  have hbefore : storedFor log s = forwarded log := by
    rw [storedFor, beingWritten, hwriter, List.append_nil]
  have hbuffer := h.buffer
  rw [hbefore] at hbuffer
  rcases hreceived with ⟨packet, next, hrecv, rfl⟩ | ⟨count, next, hrecv, rfl⟩
  · have heffects : effects sending s .receive = [] := by
      simp only [effects, hwriter, hrecv]
    rw [heffects]
    apply h.sameHandler (receive_sameHandler hstep)
    · rw [storedFor, beingWritten, List.append_nil, List.append_nil]
      exact hbuffer
    · intro reason
      rfl
  · have heffects : effects sending s .receive =
        [.skipped (hub.unread sending.channel s.packets)] := by
      simp only [effects, hwriter, hrecv]
    rw [heffects]
    apply h.sameHandler (receive_sameHandler hstep)
    · rw [storedFor, beingWritten, hwriter, forwarded_append, List.append_nil]
      show s.buffer = storeAll (forwarded log ++ [])
      rw [List.append_nil]
      exact hbuffer
    · intro reason
      rfl

theorem storeAll_concat (stores : List RtpPacket) (packet : RtpPacket) :
    storeAll (stores ++ [packet]) = (storeAll stores).store packet := by
  rw [storeAll, List.foldl_append]
  rfl

theorem Answering.store (h : Answering log sending s)
    (hstep : MediaForwarding.store s = some t) :
    Answering (log ++ effects sending s .store) sending t := by
  obtain ⟨packet, hwriter, rfl⟩ := store_some hstep
  have hbuffer := h.buffer
  rw [storedFor, beingWritten, hwriter, List.append_nil] at hbuffer
  show Answering (log ++ []) sending _
  apply h.sameHandler (store_sameHandler hstep)
  · rw [List.append_nil, storedFor, beingWritten, storeAll_concat, ← hbuffer]
  · intro reason
    rfl

theorem Answering.write (h : Answering log sending s) {written : Bool}
    (hstep : MediaForwarding.write s written = some t) :
    Answering (log ++ effects sending s (.write written)) sending t := by
  obtain ⟨packet, hwriter, -, -, hbufferKept, hdone⟩ := write_some hstep
  have heffects : effects sending s (.write written) = [.forwarded packet] := by
    simp only [effects, hwriter]
  have hafter : beingWritten t = [] := by
    unfold beingWritten
    rcases hdone with hreceiving | hended
    · rw [hreceiving]
    · rw [hended]
  have hbuffer := h.buffer
  rw [storedFor, beingWritten, hwriter] at hbuffer
  rw [heffects]
  apply h.sameHandler (write_sameHandler hstep)
  · rw [storedFor, hafter, List.append_nil, forwarded_append, hbufferKept]
    exact hbuffer
  · intro reason
    rfl

theorem Answering.endWriter (h : Answering log sending s)
    (hstep : MediaForwarding.endWriter s = some t) :
    Answering (log ++ effects sending s .endWriter) sending t := by
  obtain ⟨hwriter, rfl⟩ := endWriter_some hstep
  have hbuffer := h.buffer
  rw [storedFor, beingWritten, hwriter] at hbuffer
  show Answering (log ++ []) sending _
  apply h.sameHandler (endWriter_sameHandler hstep)
  · rw [List.append_nil]
    exact hbuffer
  · intro reason
    rfl

theorem proceed_ne {reason : PliReason} {feedback rest : List Feedback} :
    proceed feedback ≠ .sendingPli reason rest := by
  intro h
  cases feedback with
  | nil => cases h
  | cons first rest => cases h

/-- A request is sent if the last one for its reason is long enough ago. -/
theorem recover_cases (sending : Sending hub) (s : Forwarding hub) (reason : PliReason)
    (rest : List Feedback) :
    (shouldSendPli sending s reason = true ∧
        recover sending s reason rest = .sendingPli reason rest) ∨
      (shouldSendPli sending s reason = false ∧ recover sending s reason rest = proceed rest) := by
  unfold recover
  cases shouldSendPli sending s reason with
  | true => exact .inl ⟨rfl, rfl⟩
  | false => exact .inr ⟨rfl, rfl⟩

theorem shouldSendPli_iff {reason : PliReason} : shouldSendPli sending s reason = true ↔
    ∀ last : ℕ, lastPli s reason = some last → last + lossRecoveryPliInterval ≤ sending.now := by
  have hpos : 0 < lossRecoveryPliInterval := by decide
  rw [shouldSendPli, Option.all_eq_true]
  constructor
  · intro h last hlast
    have helapsed := of_decide_eq_true (h last hlast)
    omega
  · intro h last hlast
    have hle := h last hlast
    apply decide_eq_true
    omega

theorem handle_ready (hstep : handle kind sending s = some t) {reason : PliReason}
    {rest : List Feedback} (hstage : t.handler = .sendingPli reason rest) :
    shouldSendPli sending s reason = true := by
  have hrecover : ∀ other feedback, recover sending s other feedback = .sendingPli reason rest →
      shouldSendPli sending s reason = true := by
    intro other feedback heq
    rcases recover_cases sending s other feedback with ⟨hshould, hstays⟩ | ⟨-, hleft⟩
    · rw [hstays] at heq
      cases heq
      exact hshould
    · exact absurd (hleft.symm.trans heq) proceed_ne
  unfold handle at hstep
  split at hstep
  · cases hstep
    exact hrecover _ _ hstage
  · split at hstep
    · cases hstep
      exact absurd hstage proceed_ne
    · cases hstep
      dsimp only at hstage
      split at hstage
      · exact hrecover _ _ hstage
      · exact absurd hstage proceed_ne
  · cases hstep

theorem Answering.sameWriter (h : Answering log sending s) (hsame : SameWriter s t)
    {more : List Effect} (hforwarded : forwarded more = [])
    (hmore : ∀ reason, requests reason more = [])
    (hlast : ∀ reason, lastPli t reason = lastPli s reason)
    (hready : ∀ reason rest, t.handler = .sendingPli reason rest →
      shouldSendPli sending s reason = true) : Answering (log ++ more) sending t := by
  have hrequests : ∀ reason, requests reason (log ++ more) = requests reason log := by
    intro reason
    rw [requests_append, hmore reason, List.append_nil]
  refine ⟨?_, ?_, ?_, ?_⟩
  · rw [hsame.buffer, storedFor, beingWritten, hsame.writer, forwarded_append, hforwarded,
      List.append_nil]
    exact h.buffer
  · intro reason
    rw [hrequests, hlast]
    exact h.last reason
  · intro reason
    rw [hrequests]
    exact h.spaced reason
  · intro reason rest hstage
    rw [hlast]
    exact shouldSendPli_iff.mp (hready reason rest hstage)

theorem Answering.readRtcp (h : Answering log sending s) {packets : List RtcpPacket}
    (hstep : MediaForwarding.readRtcp s packets = some t) :
    Answering (log ++ effects sending s (.readRtcp packets)) sending t := by
  apply h.sameWriter (readRtcp_sameWriter hstep) rfl fun reason => rfl
  · unfold MediaForwarding.readRtcp at hstep
    split at hstep <;> cases hstep
    intro reason
    rfl
  · intro reason rest hstage
    unfold MediaForwarding.readRtcp at hstep
    split at hstep <;> cases hstep
    exact absurd hstage proceed_ne

theorem Answering.handle (h : Answering log sending s)
    (hstep : MediaForwarding.handle kind sending s = some t) :
    Answering (log ++ effects sending s .handle) sending t := by
  have hrequests : ∀ reason, requests reason (effects sending s .handle) = [] := by
    intro reason
    simp only [effects, retransmissions]
    split
    · split
      · split
        · rfl
        · rfl
      · rfl
    · rfl
  have hforwarded := (handler_effects sending s (.inl rfl)).1
  apply h.sameWriter (handle_sameWriter hstep) hforwarded hrequests
  · intro reason
    unfold MediaForwarding.handle at hstep
    split at hstep
    · cases hstep
      rfl
    · split at hstep
      · cases hstep
        rfl
      · cases hstep
        rfl
    · cases hstep
  · intro reason rest hstage
    exact handle_ready hstep hstage

theorem Answering.endHandler (h : Answering log sending s)
    (hstep : MediaForwarding.endHandler s = some t) :
    Answering (log ++ effects sending s .endHandler) sending t := by
  apply h.sameWriter (endHandler_sameWriter hstep) rfl fun reason => rfl
  · unfold MediaForwarding.endHandler at hstep
    split at hstep <;> cases hstep
    intro reason
    rfl
  · intro reason rest hstage
    unfold MediaForwarding.endHandler at hstep
    split at hstep <;> cases hstep
    cases hstage

/-- A request that goes through is the last one for its reason from then on. -/
theorem Answering.sendPli (h : Answering log sending s) {sent : Bool}
    (hstep : MediaForwarding.sendPli sending s sent = some t) :
    Answering (log ++ effects sending s (.sendPli sent)) sending t := by
  have hsame := sendPli_sameWriter hstep
  have hforwarded := (handler_effects sending s (.inr ⟨sent, rfl⟩)).1
  unfold MediaForwarding.sendPli at hstep
  split at hstep
  · rename_i reason rest hstage
    have hready := h.ready reason rest hstage
    obtain rfl := Option.some.inj hstep
    cases sent with
    | false =>
      have heffects : effects sending s (.sendPli false) = [] := by
        simp only [effects, hstage, Bool.false_eq_true, if_false]
      rw [heffects]
      apply h.sameWriter hsame rfl fun _ => rfl
      · intro other
        cases other with
        | receiverRequested => simp [lastPli]
        | nackMiss => simp [lastPli]
      · intro other feedback hproceed
        exact absurd hproceed proceed_ne
    | true =>
      have heffects : effects sending s (.sendPli true) =
          [.requestedKeyframe reason sending.now] := by
        simp only [effects, hstage, if_true]
      have hrequests : ∀ other, requests other (log ++ [.requestedKeyframe reason sending.now]) =
          requests other log ++ if reason = other then [sending.now] else [] := by
        intro other
        rw [requests_append]
        by_cases hother : reason = other
        · simp [requests, hother]
        · simp [requests, hother]
      rw [heffects]
      refine ⟨?_, ?_, ?_, ?_⟩
      · rw [hsame.buffer, storedFor, beingWritten, hsame.writer, forwarded_append]
        show s.buffer = storeAll (forwarded log ++ [] ++ beingWritten s)
        rw [List.append_nil]
        exact h.buffer
      · intro other
        have hlast := h.last other
        rw [hrequests]
        cases reason with
        | receiverRequested =>
          cases other with
          | receiverRequested => simp [lastPli]
          | nackMiss => simpa [lastPli] using hlast
        | nackMiss =>
          cases other with
          | receiverRequested => simpa [lastPli] using hlast
          | nackMiss => simp [lastPli]
      · intro other
        rw [hrequests]
        split
        · rename_i hother
          subst hother
          apply (h.spaced reason).concat
          intro last hlast
          exact hready last ((h.last reason).trans hlast)
        · rw [List.append_nil]
          exact h.spaced other
      · intro other feedback hproceed
        exact absurd hproceed proceed_ne
  · cases hstep

theorem Answering.step (h : Answering log sending s)
    (hstep : forwardingStep kind sending s act = some t) :
    Answering (log ++ effects sending s act) sending t := by
  cases act with
  | receive => exact h.receive hstep
  | store => exact h.store hstep
  | write written => exact h.write hstep
  | endWriter => exact h.endWriter hstep
  | readRtcp packets => exact h.readRtcp hstep
  | handle => exact h.handle hstep
  | sendPli sent => exact h.sendPli hstep
  | endHandler => exact h.endHandler hstep

end Steps

/-! ## Runs -/

section Runs

variable {receiver : ParticipantId} {localSsrc : UInt32} {before after now : Track hub}
  {rest : List TrackAction}

theorem answering_soloStep {a : SendingEvent ⊕ ForwardingStep}
    {state next : Sending hub × Forwarding hub} (h : Answering log state.1 state.2)
    (hstep : soloStep (design hub kind) state a = some next) :
    Answering (log ++ soloOutputs effects state a) next.1 next.2 := by
  cases a with
  | inl event =>
    obtain ⟨sending, hsending, rfl⟩ := Option.map_eq_some_iff.mp hstep
    show Answering (log ++ []) sending state.2
    rw [List.append_nil]
    exact h.sendingStep hsending
  | inr act =>
    obtain ⟨s, hact, rfl⟩ := Option.map_eq_some_iff.mp hstep
    exact h.step hact

theorem answering_of_run
    (hjoin : (track hub kind).step before (.join receiver localSsrc) = some after)
    (hrun : (track hub kind).runFrom after rest = some now) {s : Forwarding hub}
    (hs : now.parts.lookup receiver = some s) :
    Answering ((track hub kind).outputs (outputsOf receiver effects) after rest) now.shared s := by
  have hpart := subscribed hjoin
  let origin := (after.shared, subscribe after.shared localSsrc)
  obtain ⟨found, hsolo, hfound⟩ := run_solo origin hrun hpart
  obtain rfl := Option.some.inj (hs.symm.trans hfound)
  have houtputs : (track hub kind).outputs (outputsOf receiver effects) after rest = _ :=
    outputs_solo origin effects hrun hpart
  rw [houtputs]
  let H (_ : List (SendingEvent ⊕ ForwardingStep)) (log : List Effect)
      (state : Sending hub × Forwarding hub) : Prop := Answering log state.1 state.2
  have hstart : H [] [] origin := answering_subscribe after.shared localSsrc
  exact System.outputs_runFrom hstart
    (fun _ log state a next h hstep => answering_soloStep h hstep) hsolo

/-- A request for a reason has gone through less than two seconds ago. -/
def RecentlyRequested (reason : PliReason) (log : List Effect) (now : ℕ) : Prop :=
  ∃ time ∈ requests reason log, now < time + lossRecoveryPliInterval

theorem Answering.recover_or (h : Answering log sending s) (reason : PliReason)
    (rest : List Feedback) :
    recover sending s reason rest = .sendingPli reason rest ∨
      recover sending s reason rest = proceed rest ∧
        RecentlyRequested reason log sending.now := by
  rcases recover_cases sending s reason rest with ⟨-, hsends⟩ | ⟨hleft, hproceeds⟩
  · exact .inl hsends
  · right
    refine ⟨hproceeds, ?_⟩
    by_contra hnone
    rw [Bool.eq_false_iff] at hleft
    apply hleft
    apply shouldSendPli_iff.mpr
    intro last hlast
    rw [h.last reason] at hlast
    by_contra hrecent
    exact hnone ⟨last, List.mem_of_getLast? hlast, by omega⟩

/-- Every packet stored for a receiver bears its SSRC. -/
theorem ssrc_of_storedFor {read : List RtpPacket} (h : Accounts read log sending s)
    {packet : RtpPacket} (hpacket : packet ∈ storedFor log s) : packet.ssrc = s.localSsrc := by
  obtain ⟨past, -, hsublist, -⟩ := h.past
  have hsubset : packet ∈ forwarded log ++ inHand s := by
    rcases List.mem_append.mp hpacket with hold | hnow
    · exact List.mem_append_left _ hold
    · apply List.mem_append_right
      unfold beingWritten at hnow
      unfold inHand
      split at hnow
      · rename_i hwriter
        rw [hwriter]
        exact hnow
      · cases hnow
  obtain ⟨original, -, rfl⟩ := List.mem_map.mp (hsublist.subset hsubset)
  rfl

theorem Answering.get_eq_some_iff (h : Answering log sending s) {seq : UInt16}
    {packet : RtpPacket} :
    s.buffer.get seq = some packet ↔ Held (storedFor log s) seq packet := by
  rw [h.buffer]
  exact (follows_storeAll (storedFor log s)).held seq packet

/-- However the tasks of a track interleave, a receiver that asks for a keyframe has one requested,
and a packet it reports lost is written to it again as long as the buffer has it; if it is gone from
a video a keyframe is requested; and only a request less than two seconds old stands for another. -/
theorem feedback_answered
    (hjoin : (track hub kind).step before (.join receiver localSsrc) = some after)
    (hrun : (track hub kind).runFrom after rest = some now) {s : Forwarding hub}
    (hs : now.parts.lookup receiver = some s) {feedback : Feedback} {later : List Feedback}
    (hstage : s.handler = .handling feedback later) :
    let log := (track hub kind).outputs (outputsOf receiver effects) after rest
    ∃ t, handle kind now.shared s = some t ∧
      match feedback with
      | .keyframe => effects now.shared s .handle = [] ∧
          (t.handler = .sendingPli .receiverRequested later ∨
            t.handler = proceed later ∧
              RecentlyRequested .receiverRequested log now.shared.now)
      | .lost seq =>
        (∃ packet, Held (storedFor log s) seq packet ∧
          effects now.shared s .handle = [.retransmitted packet] ∧ t.handler = proceed later) ∨
        ((∀ packet, ¬ Held (storedFor log s) seq packet) ∧ effects now.shared s .handle = [] ∧
          if kind = .video then t.handler = .sendingPli .nackMiss later ∨
            t.handler = proceed later ∧ RecentlyRequested .nackMiss log now.shared.now
          else t.handler = proceed later) := by
  intro log
  have h : Answering log now.shared s := answering_of_run hjoin hrun hs
  cases feedback with
  | keyframe =>
    refine ⟨{ s with handler := recover now.shared s .receiverRequested later }, ?_, ?_, ?_⟩
    · simp only [handle, hstage]
    · simp only [effects, hstage]
    · exact h.recover_or .receiverRequested later
  | lost seq =>
    cases hget : s.buffer.get seq with
    | some packet =>
      have hheld := h.get_eq_some_iff.mp hget
      have hssrc : packet.ssrc = s.localSsrc := by
        obtain ⟨found, hfound, -, haccounts⟩ := accounts_of_run hjoin hrun
        obtain rfl := Option.some.inj (hs.symm.trans hfound)
        obtain ⟨j, hj, -⟩ := hheld
        exact ssrc_of_storedFor haccounts (List.mem_of_getElem? hj)
      refine ⟨{ s with handler := proceed later }, ?_, .inl ⟨packet, hheld, ?_, rfl⟩⟩
      · simp only [handle, hstage, hget]
      · simp only [effects, hstage, retransmissions, hget, hssrc, if_true]
    | none =>
      have hgone : ∀ packet, ¬ Held (storedFor log s) seq packet := by
        intro packet hheld
        have hsome := h.get_eq_some_iff.mpr hheld
        rw [hget] at hsome
        cases hsome
      let stage := if kind = .video then recover now.shared s .nackMiss later else proceed later
      refine ⟨{ s with handler := stage }, ?_, .inr ⟨hgone, ?_, ?_⟩⟩
      · simp only [handle, hstage, hget, stage]
      · simp only [effects, hstage, retransmissions, hget]
      · dsimp only [stage]
        split
        · exact h.recover_or .nackMiss later
        · rfl

end Runs

/-- Bob reports two packets lost, of which he has been sent the first. -/
def lossReport : List TrackAction :=
  [.shared (.readRtp ⟨65535, 1, [1]⟩), .part "bob" .receive, .part "bob" .store,
    .part "bob" (.readRtcp [.transportLayerNack [⟨65535, 1⟩]])]

theorem lossReport_answered :
    let M := track memoryHub .video
    ∃ after now s t, M.step M.init (.join "bob" 7) = some after ∧
      M.runFrom after lossReport = some now ∧ now.parts.lookup "bob" = some s ∧
      handle .video now.shared s = some t ∧ t.handler = .handling (.lost 0) [] ∧
      effects now.shared s .handle = [.retransmitted ⟨65535, 7, [1]⟩] := by
  intro M
  obtain ⟨after, hjoin⟩ : ∃ after, M.step M.init (.join "bob" 7) = some after := ⟨_, rfl⟩
  have hany : (M.runFrom after lossReport).any (fun now =>
      (now.parts.lookup "bob").any fun s =>
        s.handler = .handling (.lost 65535) [.lost 0] &&
          effects now.shared s .handle = [.retransmitted ⟨65535, 7, [1]⟩]) = true := by
    cases hjoin
    decide +kernel
  obtain ⟨now, hrun, hreceiver⟩ := System.exists_run_of_any M after lossReport _ hany
  obtain ⟨s, hs, htest⟩ := (Option.any_eq_true ..).mp hreceiver
  obtain ⟨hstage, heffects⟩ := Bool.and_eq_true_iff.mp htest
  obtain ⟨t, ht, hanswer⟩ := feedback_answered hjoin hrun hs (of_decide_eq_true hstage)
  refine ⟨after, now, s, t, hjoin, hrun, hs, ht, ?_, of_decide_eq_true heffects⟩
  rcases hanswer with ⟨packet, -, -, hproceeds⟩ | ⟨-, hnone, -⟩
  · exact hproceeds
  · rw [of_decide_eq_true heffects] at hnone
    cases hnone

section Spaced

variable {receiver : ParticipantId} {localSsrc : UInt32} {before after now : Track hub}
  {rest : List TrackAction}

/-- The keyframes that a receiver's tasks request from the sender for one reason are at least two
seconds apart. -/
theorem requests_spaced
    (hjoin : (track hub kind).step before (.join receiver localSsrc) = some after)
    (hrun : (track hub kind).runFrom after rest = some now) (reason : PliReason) :
    Spaced (requests reason
      ((track hub kind).outputs (outputsOf receiver effects) after rest)) := by
  obtain ⟨s, hs, -, -⟩ := accounts_of_run hjoin hrun
  exact (answering_of_run hjoin hrun hs).spaced reason

end Spaced

/-- Bob asks for a keyframe three times within three seconds. -/
def impatient : List TrackAction :=
  let ask : List TrackAction :=
    [.part "bob" (.readRtcp [.pictureLossIndication]), .part "bob" .handle]
  ask ++ [.part "bob" (.sendPli true), .shared (.elapse 1000000000)] ++ ask ++
    [.shared (.elapse 2000000000)] ++ ask ++ [.part "bob" (.sendPli true)]

theorem impatient_spaced :
    let M := track memoryHub .video
    ∃ after, M.step M.init (.join "bob" 7) = some after ∧
      let times := requests .receiverRequested (M.outputs (outputsOf "bob" effects) after impatient)
      times = [0, 3000000000] ∧ Spaced times := by
  intro M
  obtain ⟨after, hjoin⟩ : ∃ after, M.step M.init (.join "bob" 7) = some after := ⟨_, rfl⟩
  obtain ⟨hany, htimes⟩ : (M.runFrom after impatient).any (fun _ => true) = true ∧
      requests .receiverRequested (M.outputs (outputsOf "bob" effects) after impatient) =
        [0, 3000000000] := by
    cases hjoin
    decide +kernel
  obtain ⟨now, hrun, -⟩ := System.exists_run_of_any M after impatient _ hany
  exact ⟨after, hjoin, htimes, requests_spaced hjoin hrun .receiverRequested⟩

end OpenMeet.ReceiverFeedback
