import Mathlib.Data.List.Basic

/-!
Broadcast channels with bounded memory. A subscription sees what is sent after it
was taken. One that has fallen more than the capacity behind is told so once, and
goes on at the oldest value the channel still has.
-/
namespace OpenMeet.LossyBroadcast

/-- What a receive hands over. -/
inductive Received (Event : Type*) where
  | event (event : Event)
  | lagged (skipped : Nat)
deriving DecidableEq

/-- A channel is known by what its subscriptions have not read yet. -/
structure Broadcast (Event : Type) (capacity : Nat) where
  Channel : Type
  Subscription : Type
  new : Channel
  send : Channel → Event → Channel
  subscribe : Channel → Subscription
  /-- none where there is nothing to read. -/
  recv : Channel → Subscription → Option (Received Event × Subscription)
  unread : Channel → Subscription → List Event
  /-- The subscription was taken from this channel. -/
  Attached : Channel → Subscription → Prop
  attached_subscribe : ∀ channel, Attached channel (subscribe channel)
  attached_send : ∀ {channel subscription}, Attached channel subscription →
    ∀ event, Attached (send channel event) subscription
  attached_recv : ∀ {channel subscription received next}, Attached channel subscription →
    recv channel subscription = some (received, next) → Attached channel next
  unread_subscribe : ∀ channel, unread channel (subscribe channel) = []
  unread_send : ∀ {channel subscription}, Attached channel subscription →
    ∀ event, unread (send channel event) subscription = unread channel subscription ++ [event]
  recv_none : ∀ {channel subscription}, unread channel subscription = [] →
    recv channel subscription = none
  recv_event : ∀ {channel subscription event rest}, Attached channel subscription →
    unread channel subscription = event :: rest → rest.length < capacity →
      ∃ next, recv channel subscription = some (.event event, next) ∧ unread channel next = rest
  recv_lagged : ∀ {channel subscription}, Attached channel subscription →
    capacity < (unread channel subscription).length →
      let skipped := (unread channel subscription).length - capacity
      ∃ next, recv channel subscription = some (.lagged skipped, next) ∧
        unread channel next = (unread channel subscription).drop skipped

namespace Broadcast

variable {Event : Type} {capacity : Nat} {hub : Broadcast Event capacity}
  {channel : hub.Channel} {subscription next : hub.Subscription}

/-- A receive hands over the first unread value, or says that some were skipped. -/
theorem recv_cases (hattached : hub.Attached channel subscription)
    {received : Received Event} (h : hub.recv channel subscription = some (received, next)) :
    (∃ event, received = .event event ∧
      hub.unread channel subscription = event :: hub.unread channel next ∧
      (hub.unread channel subscription).length ≤ capacity) ∨
    (∃ skipped, received = .lagged skipped ∧ 0 < skipped ∧
      capacity < (hub.unread channel subscription).length ∧
      hub.unread channel next = (hub.unread channel subscription).drop skipped) := by
  by_cases hlag : capacity < (hub.unread channel subscription).length
  · obtain ⟨next', hrecv, hdrop⟩ := hub.recv_lagged hattached hlag
    rw [hrecv] at h
    cases h
    exact .inr ⟨_, rfl, Nat.sub_pos_of_lt hlag, hlag, hdrop⟩
  · cases hunread : hub.unread channel subscription with
    | nil =>
      rw [hub.recv_none hunread] at h
      cases h
    | cons event rest =>
      rw [hunread] at hlag
      obtain ⟨next', hrecv, hrest⟩ := hub.recv_event hattached hunread (Nat.le_of_not_lt hlag)
      rw [hrecv] at h
      cases h
      exact .inl ⟨event, rfl, by rw [hrest], Nat.le_of_not_lt hlag⟩

/-- Each receive leaves less to read. -/
theorem recv_shortens (hattached : hub.Attached channel subscription)
    {received : Received Event} (h : hub.recv channel subscription = some (received, next)) :
    (hub.unread channel next).length < (hub.unread channel subscription).length := by
  obtain ⟨event, -, hunread, -⟩ | ⟨skipped, -, hskipped, hlag, hdrop⟩ := recv_cases hattached h
  · rw [hunread]
    exact Nat.lt_succ_self _
  · rw [hdrop, List.length_drop]
    omega

/-- As long as something is unread, a receive goes through. -/
theorem recv_isSome (hattached : hub.Attached channel subscription)
    (hunread : hub.unread channel subscription ≠ []) :
    ∃ received next, hub.recv channel subscription = some (received, next) := by
  by_cases hlag : capacity < (hub.unread channel subscription).length
  · obtain ⟨next', hrecv, -⟩ := hub.recv_lagged hattached hlag
    exact ⟨_, next', hrecv⟩
  · obtain ⟨event, rest, hcons⟩ := List.exists_cons_of_ne_nil hunread
    rw [hcons] at hlag
    obtain ⟨next', hrecv, -⟩ := hub.recv_event hattached hcons (Nat.le_of_not_lt hlag)
    exact ⟨_, next', hrecv⟩

end Broadcast

/-! ## A channel that remembers its log -/

section Log

variable {Event : Type} (capacity : Nat)

/-- The subscription is a position in the log. -/
def logRecv (log : List Event) (position : Nat) : Option (Received Event × Nat) :=
  let unread := log.drop position
  if capacity < unread.length then
    let skipped := unread.length - capacity
    some (.lagged skipped, position + skipped)
  else
    unread.head?.map fun event => (.event event, position + 1)

variable {capacity} {log : List Event} {position : Nat}

theorem logRecv_event {event : Event} {rest : List Event}
    (hunread : log.drop position = event :: rest) (hlength : rest.length < capacity) :
    logRecv capacity log position = some (.event event, position + 1) := by
  have hlag : ¬ capacity < (event :: rest).length := Nat.not_lt.mpr hlength
  simp only [logRecv, hunread, hlag, if_false, List.head?_cons, Option.map_some]

theorem logRecv_lagged (hlag : capacity < (log.drop position).length) :
    logRecv capacity log position =
      some (.lagged ((log.drop position).length - capacity),
        position + ((log.drop position).length - capacity)) := by
  simp only [logRecv, hlag, if_true]

theorem logRecv_position {received : Received Event} {next : Nat}
    (hposition : position ≤ log.length)
    (h : logRecv capacity log position = some (received, next)) : next ≤ log.length := by
  simp only [logRecv, List.length_drop] at h
  split at h
  · cases h
    omega
  · obtain ⟨event, hevent, hnext⟩ := Option.map_eq_some_iff.mp h
    cases hnext
    have hne : log.drop position ≠ [] := List.ne_nil_of_mem (List.mem_of_mem_head? hevent)
    exact Nat.lt_of_not_le fun hle => hne (List.drop_eq_nil_of_le hle)

variable (Event capacity)

def logBroadcast : Broadcast Event capacity where
  Channel := List Event
  Subscription := Nat
  new := []
  send log event := log ++ [event]
  subscribe log := log.length
  recv := logRecv capacity
  unread log position := log.drop position
  Attached log position := position ≤ log.length
  attached_subscribe _ := Nat.le_refl _
  attached_send h event := Nat.le_trans h (by simp)
  attached_recv := logRecv_position
  unread_subscribe _ := List.drop_length
  unread_send h event := List.drop_append_of_le_length h
  recv_none h := by simp [logRecv, h]
  recv_event := fun {log position event rest} _ hunread hlength =>
    ⟨position + 1, logRecv_event hunread hlength, by
      rw [← List.drop_drop, hunread, List.drop_one, List.tail_cons]⟩
  recv_lagged := fun {log position} _ hlag =>
    ⟨position + ((log.drop position).length - capacity), logRecv_lagged hlag, by
      rw [← List.drop_drop]⟩

end Log

end OpenMeet.LossyBroadcast
