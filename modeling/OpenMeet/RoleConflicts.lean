import Mathlib.Algebra.Group.Nat.Even
import Mathlib.Data.List.Perm.Basic
import OpenMeet.BindingChecks

/-!
Two agents that check each other over a network that loses, repeats and reorders
what they send. Roles are settled if they are opposite and nothing on its way can
disturb them. A 487 switches its receiver whatever role its check was sent in, so
that the checks that met a conflict count: an even number of them resolves nothing.
-/
namespace OpenMeet.RoleConflicts

open BindingChecks TransitionSystem

inductive Peer
  | first
  | second
  deriving DecidableEq, Repr

def Peer.other : Peer → Peer
  | .first => .second
  | .second => .first

@[simp] theorem other_other (p : Peer) : p.other.other = p := by cases p <;> rfl

theorem other_ne (p : Peer) : p.other ≠ p := by cases p <;> decide

theorem eq_or_eq_other (p q : Peer) : q = p ∨ q = p.other := by cases p <;> cases q <;> decide

/-- Both agents, and the messages on their way, each with the peer it is for. -/
structure Link (Mac : Type) where
  agent : Peer → Agent
  inFlight : List (Peer × Message Mac)

inductive Action
  | ping (peer : Peer) (id : TransactionId) (priority : UInt32)
  | nominate (peer : Peer) (id : TransactionId) (priority : UInt32)
  | deliver (index : Nat) (id : TransactionId) (priority : UInt32)
  | lose (index : Nat)
  | duplicate (index : Nat)
  deriving DecidableEq, Repr

section Network

variable {Mac : Type} [DecidableEq Mac] (hmac : String → Content → Mac)

namespace Link

variable (s : Link Mac)

omit [DecidableEq Mac] in
def send (peer : Peer) (messages : List (Message Mac)) : Link Mac :=
  { s with inFlight := s.inFlight ++ messages.map fun m => (peer, m) }

omit [DecidableEq Mac] in
/-- A message is taken off the network. -/
def take (index : Nat) : Link Mac := { s with inFlight := s.inFlight.eraseIdx index }

/-- A message reaches the peer it is for, which may answer it. -/
def receive (p : Peer) (m : Message Mac) (id : TransactionId) (priority : UInt32) : Link Mac :=
  let a := (handleInbound hmac (s.agent p) m).1
  { s with agent := Function.update s.agent p a }.send p.other
    (replies hmac a m (handleInbound hmac (s.agent p) m).2 id priority)

variable {s hmac}

theorem receive_self {p : Peer} {m : Message Mac} {id : TransactionId} {priority : UInt32} :
    (s.receive hmac p m id priority).agent p = (handleInbound hmac (s.agent p) m).1 :=
  Function.update_self ..

theorem receive_of_ne {p q : Peer} (hq : q ≠ p) {m : Message Mac} {id : TransactionId}
    {priority : UInt32} : (s.receive hmac p m id priority).agent q = s.agent q :=
  Function.update_of_ne hq ..

/-- If its receiver does not switch, a message makes it answer and nothing else. -/
theorem receive_eq_send {p : Peer} {m : Message Mac} {id : TransactionId} {priority : UInt32}
    (h : ¬ (IsRoleConflict hmac (s.agent p) m ∨ Overrules (s.agent p) m)) :
    s.receive hmac p m id priority = s.send p.other
      (replies hmac (s.agent p) m (handleInbound hmac (s.agent p) m).2 id priority) := by
  unfold receive
  dsimp only
  rw [handleInbound_fst, if_neg h, Function.update_eq_self]

theorem receive_of_answer {p : Peer} {m : Message Mac} {id : TransactionId} {priority : UInt32}
    (h : (handleInbound hmac (s.agent p) m).2 = .answerRoleConflict) :
    s.receive hmac p m id priority = s.send p.other [sendRoleConflict hmac (s.agent p) m] := by
  obtain ⟨-, hrequest, hkeeps⟩ := of_answerRoleConflict h
  have herror : m.content.messageClass ≠ .errorResponse := by
    rw [hrequest]
    decide
  rw [receive_eq_send fun hswitches =>
    hswitches.elim (not_isRoleConflict_of_class herror) hkeeps, h]
  rfl

end Link

def step (s : Link Mac) : Action → Option (Link Mac)
  | .ping p id priority => some (s.send p.other [pingCandidate hmac (s.agent p) id priority])
  | .nominate p id priority =>
    if (s.agent p).isControlling then
      some (s.send p.other [nominatePair hmac (s.agent p) id priority])
    else none
  | .deliver index id priority =>
    (s.inFlight[index]?).map fun entry =>
      (s.take index).receive hmac entry.1 entry.2 id priority
  | .lose index => (s.inFlight[index]?).map fun _ => s.take index
  | .duplicate index => (s.inFlight[index]?).map fun entry => s.send entry.1 [entry.2]

def system (init : Link Mac) : System (Link Mac) Action := ⟨init, step hmac⟩

/-- Each side knows the other's password, and their tie-breakers differ. -/
structure Paired (s : Link Mac) : Prop where
  password : ∀ p, (s.agent p).ufragPwd.remotePwd = (s.agent p.other).ufragPwd.localPwd
  ufrag : ∀ p, (s.agent p).ufragPwd.remoteUfrag = (s.agent p.other).ufragPwd.localUfrag
  distinct : ∀ p, (s.agent p).tieBreaker ≠ (s.agent p.other).tieBreaker

def Opposite (s : Link Mac) : Prop :=
  (s.agent .first).isControlling ≠ (s.agent .second).isControlling

instance (s : Link Mac) : Decidable (Opposite s) := inferInstanceAs (Decidable (_ ≠ _))

/-- Opposite roles, and nothing on its way that makes one side switch. -/
def Settled (s : Link Mac) : Prop :=
  Opposite s ∧ ∀ entry ∈ s.inFlight, ¬ IsRoleConflict hmac (s.agent entry.1) entry.2 ∧
    ¬ MeetsConflict hmac (s.agent entry.1) entry.2

def conflictsInFlight (s : Link Mac) : Nat :=
  s.inFlight.countP fun entry => IsRoleConflict hmac (s.agent entry.1) entry.2

/-- The actions that count: a check that meets a conflict, a 487 that is lost or repeated. -/
def countedActions (s : Link Mac) (action : Action) : List Action :=
  match action with
  | .deliver index _ _ =>
    if (s.inFlight[index]?).any fun entry => MeetsConflict hmac (s.agent entry.1) entry.2 then
      [action] else []
  | .lose index | .duplicate index =>
    if (s.inFlight[index]?).any fun entry => IsRoleConflict hmac (s.agent entry.1) entry.2 then
      [action] else []
  | _ => []

/-- A keyed hash that tells the key. -/
def plainMac : String → Content → String := fun password _ => password

/-- The first agent has the larger tie-breaker. -/
def twoAgents (first second : Bool) : Link String where
  agent
    | .first => ⟨2, first, ⟨"ada", "secret", "bob", "hidden"⟩, .v4 ⟨10, 0, 0, 2⟩, 5000⟩
    | .second => ⟨1, second, ⟨"bob", "hidden", "ada", "secret"⟩, .v4 ⟨10, 0, 0, 1⟩, 5000⟩
  inFlight := []

theorem twoAgents_paired (first second : Bool) : Paired (twoAgents first second) where
  password p := by cases p <;> rfl
  ufrag p := by cases p <;> rfl
  distinct p := by cases p <;> simp [twoAgents, Peer.other]

/-! ## One step -/

variable {hmac} {s t : Link Mac}

omit [DecidableEq Mac] in
theorem opposite_iff (p : Peer) :
    Opposite s ↔ (s.agent p).isControlling ≠ (s.agent p.other).isControlling := by
  cases p with
  | first => rfl
  | second => exact ne_comm

/-- The agents keep all but their roles. -/
theorem step_frame {action : Action} (h : step hmac s action = some t) (p : Peer) :
    (t.agent p).ufragPwd = (s.agent p).ufragPwd ∧
      (t.agent p).tieBreaker = (s.agent p).tieBreaker := by
  cases action with
  | ping q id priority =>
    cases h
    exact ⟨rfl, rfl⟩
  | nominate q id priority =>
    obtain ⟨-, heq⟩ := Option.ite_none_right_eq_some.mp h
    cases heq
    exact ⟨rfl, rfl⟩
  | deliver index id priority =>
    obtain ⟨entry, -, heq⟩ := Option.map_eq_some_iff.mp h
    cases heq
    by_cases hp : p = entry.1
    · subst hp
      rw [Link.receive_self, handleInbound_fst]
      split <;> exact ⟨rfl, rfl⟩
    · rw [Link.receive_of_ne hp]
      exact ⟨rfl, rfl⟩
  | lose index =>
    obtain ⟨entry, -, heq⟩ := Option.map_eq_some_iff.mp h
    cases heq
    exact ⟨rfl, rfl⟩
  | duplicate index =>
    obtain ⟨entry, -, heq⟩ := Option.map_eq_some_iff.mp h
    cases heq
    exact ⟨rfl, rfl⟩

theorem step_paired {action : Action} (hs : Paired s) (h : step hmac s action = some t) :
    Paired t where
  password p := by
    rw [(step_frame h p).1, (step_frame h p.other).1]
    exact hs.password p
  ufrag p := by
    rw [(step_frame h p).1, (step_frame h p.other).1]
    exact hs.ufrag p
  distinct p := by
    rw [(step_frame h p).2, (step_frame h p.other).2]
    exact hs.distinct p

/-! ## Settled roles -/

theorem Settled.send (hs : Settled hmac s) {p : Peer} {messages : List (Message Mac)}
    (hcalm : ∀ m ∈ messages, Calm hmac (s.agent p) m) : Settled hmac (s.send p.other messages) := by
  refine ⟨hs.1, fun entry hentry => ?_⟩
  obtain hold | hnew := List.mem_append.mp hentry
  · exact hs.2 entry hold
  · obtain ⟨m, hm, rfl⟩ := List.mem_map.mp hnew
    have hrole := (opposite_iff p).mp hs.1
    exact ⟨(hcalm m hm _).1, (hcalm m hm _).2 hrole.symm⟩

theorem Settled.take (hs : Settled hmac s) (index : Nat) : Settled hmac (s.take index) :=
  ⟨hs.1, fun entry hentry => hs.2 entry (List.mem_of_mem_eraseIdx hentry)⟩

/-- Whatever the network does, no role changes and nothing appears that could change one. -/
theorem settled_step {action : Action} (hs : Settled hmac s) (h : step hmac s action = some t) :
    t.agent = s.agent ∧ Settled hmac t := by
  cases action with
  | ping p id priority =>
    cases h
    refine ⟨rfl, hs.send fun m hm => ?_⟩
    obtain rfl := List.mem_singleton.mp hm
    exact calm_check _ _ _ _
  | nominate p id priority =>
    obtain ⟨-, heq⟩ := Option.ite_none_right_eq_some.mp h
    cases heq
    refine ⟨rfl, hs.send fun m hm => ?_⟩
    obtain rfl := List.mem_singleton.mp hm
    exact calm_check _ _ _ _
  | deliver index id priority =>
    obtain ⟨entry, hentry, heq⟩ := Option.map_eq_some_iff.mp h
    cases heq
    obtain ⟨hbelieved, hmeets⟩ := hs.2 entry (List.mem_of_getElem? hentry)
    have hkeeps : ¬ (IsRoleConflict hmac (s.agent entry.1) entry.2 ∨
        Overrules (s.agent entry.1) entry.2) := by
      intro h
      exact h.elim hbelieved fun hoverrules => hmeets (.inl hoverrules)
    have hsend : (s.take index).receive hmac entry.1 entry.2 id priority = _ :=
      Link.receive_eq_send hkeeps
    rw [hsend]
    refine ⟨rfl, (hs.take index).send fun m hm => ?_⟩
    exact calm_replies (fun hanswer => hmeets (.inr hanswer)) hm
  | lose index =>
    obtain ⟨entry, -, heq⟩ := Option.map_eq_some_iff.mp h
    cases heq
    exact ⟨rfl, hs.take index⟩
  | duplicate index =>
    obtain ⟨entry, hentry, heq⟩ := Option.map_eq_some_iff.mp h
    cases heq
    refine ⟨rfl, hs.1, fun other hother => ?_⟩
    obtain hold | hnew := List.mem_append.mp hother
    · exact hs.2 other hold
    · obtain rfl := List.mem_singleton.mp hnew
      exact hs.2 entry (List.mem_of_getElem? hentry)

theorem step_ping (s : Link Mac) (p : Peer) (id : TransactionId) (priority : UInt32) :
    step hmac s (.ping p id priority) =
      some (s.send p.other [pingCandidate hmac (s.agent p) id priority]) :=
  rfl

/-- The message sent last can be the one that arrives next. -/
theorem deliver_last (s : Link Mac) (p : Peer) (m : Message Mac) (id : TransactionId)
    (priority : UInt32) : step hmac (s.send p [m]) (.deliver s.inFlight.length id priority) =
      some (s.receive hmac p m id priority) := by
  have hentry : (s.send p [m]).inFlight[s.inFlight.length]? = some (p, m) :=
    List.getElem?_concat_length
  have htake : (s.send p [m]).take s.inFlight.length = s := by
    unfold Link.take Link.send
    rw [List.eraseIdx_append_of_length_le (Nat.le_refl _), Nat.sub_self]
    simp
  rw [step, hentry, Option.map_some, htake]

/-- A message that its receiver switches for changes a role. -/
theorem receive_switches {p : Peer} {m : Message Mac} {id : TransactionId} {priority : UInt32}
    (h : IsRoleConflict hmac (s.agent p) m ∨ Overrules (s.agent p) m) :
    ((s.receive hmac p m id priority).agent p).isControlling ≠ (s.agent p).isControlling := by
  rw [Link.receive_self, handleInbound_fst, if_pos h]
  show (!(s.agent p).isControlling) ≠ (s.agent p).isControlling
  simp

omit [DecidableEq Mac] in
/-- Of two agents in one role, one can make the other switch by a check. -/
theorem exists_overrules (hpaired : Paired s) (hsame : ¬ Opposite s) :
    ∃ p, Overrules (s.agent p.other) (pingCandidate hmac (s.agent p) 0 0) := by
  have hless : ∃ p, (s.agent p).tieBreaker < (s.agent p.other).tieBreaker := by
    obtain hless | hless := UInt64.lt_or_lt_of_ne (hpaired.distinct .first)
    · exact ⟨.first, hless⟩
    · exact ⟨.second, hless⟩
  obtain ⟨p, hless⟩ := hless
  have hrole : (s.agent p).isControlling = (s.agent p.other).isControlling := by
    by_contra hne
    exact hsame ((opposite_iff p).mpr hne)
  -- the larger tie-breaker keeps the controlling role, the smaller one the controlled role
  cases hcontrolling : (s.agent p).isControlling with
  | true =>
    refine ⟨p.other, rfl, rfl, ?_⟩
    rw [other_other, if_pos hcontrolling]
    show Option.any _ (if (s.agent p.other).isControlling then _ else _) = true
    rw [← hrole, if_pos hcontrolling]
    exact decide_eq_true hless
  | false =>
    have hother : ¬ (s.agent p.other).isControlling = true := by simp [← hrole, hcontrolling]
    refine ⟨p, rfl, rfl, ?_⟩
    rw [if_neg hother]
    show Option.any _ (if (s.agent p).isControlling then _ else _) = true
    rw [hrole, if_neg hother]
    exact decide_eq_true hless

variable (hmac s) in
def RolesFixed : Prop :=
  ∀ actions t, (system hmac s).run actions = some t →
    ∀ p, (t.agent p).isControlling = (s.agent p).isControlling

theorem rolesFixed_of_settled (hs : Settled hmac s) : RolesFixed hmac s := by
  intro actions t hrun p
  have hkept : t.agent = s.agent ∧ Settled hmac t :=
    System.invariant_run (M := system hmac s) (I := fun u => u.agent = s.agent ∧ Settled hmac u)
      ⟨rfl, hs⟩ (fun u action v hu hstep => by
        obtain ⟨hagent, hsettled⟩ := settled_step hu.2 hstep
        exact ⟨hagent.trans hu.1, hsettled⟩) hrun
  rw [hkept.1]

variable (hmac) in
/-- Two agents keep their roles whatever the network does exactly if their roles are settled. -/
theorem rolesFixed_iff_settled (hpaired : Paired s) : RolesFixed hmac s ↔ Settled hmac s := by
  refine ⟨fun hfixed => ?_, rolesFixed_of_settled⟩
  by_contra hunsettled
  by_cases hopposite : Opposite s
  · have hstirs : ∃ entry ∈ s.inFlight, IsRoleConflict hmac (s.agent entry.1) entry.2 ∨
        MeetsConflict hmac (s.agent entry.1) entry.2 := by
      by_contra hnone
      push Not at hnone
      exact hunsettled ⟨hopposite, hnone⟩
    obtain ⟨entry, hmem, hstirs⟩ := hstirs
    obtain ⟨index, hentry⟩ := List.mem_iff_getElem?.mp hmem
    have hdeliver : step hmac s (.deliver index 0 0) =
        some ((s.take index).receive hmac entry.1 entry.2 0 0) := by
      rw [step, hentry, Option.map_some]
    by_cases hswitches : IsRoleConflict hmac (s.agent entry.1) entry.2 ∨
        Overrules (s.agent entry.1) entry.2
    · have hrun : (system hmac s).run [.deliver index 0 0] =
          some ((s.take index).receive hmac entry.1 entry.2 0 0) := by
        simp only [System.run, System.runFrom, system, hdeliver, Option.bind_some]
      exact receive_switches (s := s.take index) hswitches (hfixed _ _ hrun entry.1)
    · -- the receiver answers 487, which its sender believes
      have hmeets := hstirs.resolve_left fun h => hswitches (.inl h)
      have hanswer := hmeets.resolve_left fun h => hswitches (.inr h)
      have hsend : (s.take index).receive hmac entry.1 entry.2 0 0 = _ :=
        Link.receive_of_answer hanswer
      have hrun : (system hmac s).run
          [.deliver index 0 0, .deliver (s.take index).inFlight.length 0 0] =
          some ((s.take index).receive hmac entry.1.other
            (sendRoleConflict hmac ((s.take index).agent entry.1) entry.2) 0 0) := by
        simp only [System.run, System.runFrom, system, hdeliver, hsend, Option.bind_some,
          deliver_last]
      have hbelieved : IsRoleConflict hmac (s.agent entry.1.other)
          (sendRoleConflict hmac (s.agent entry.1) entry.2) := by
        apply isRoleConflict_sendRoleConflict
        have hpassword := hpaired.password entry.1.other
        rwa [other_other] at hpassword
      exact receive_switches (s := s.take index) (.inl hbelieved) (hfixed _ _ hrun entry.1.other)
  · obtain ⟨p, hoverrules⟩ := exists_overrules hpaired hopposite
    have hrun : (system hmac s).run [.ping p 0 0, .deliver s.inFlight.length 0 0] =
        some (s.receive hmac p.other (pingCandidate hmac (s.agent p) 0 0) 0 0) := by
      simp only [System.run, System.runFrom, system, step_ping, Option.bind_some, deliver_last]
    exact receive_switches (.inr hoverrules) (hfixed _ _ hrun p.other)

/-- Two agents that are both controlling do not stay so. -/
theorem twoControlling_unfixed : ¬ RolesFixed plainMac (twoAgents true true) := by
  rw [rolesFixed_iff_settled plainMac (twoAgents_paired true true)]
  exact fun h => h.1 rfl

/-! ## Counting conflicts -/

omit [DecidableEq Mac] in
/-- One agent switches. -/
theorem opposite_switch {p : Peer}
    (hself : (t.agent p).isControlling = !(s.agent p).isControlling)
    (hother : t.agent p.other = s.agent p.other) : Opposite t ↔ ¬ Opposite s := by
  rw [opposite_iff p, opposite_iff (s := s) p, hself, hother]
  cases (s.agent p).isControlling <;> cases (s.agent p.other).isControlling <;> decide

theorem conflictsInFlight_send (s : Link Mac) (p : Peer) (messages : List (Message Mac)) :
    conflictsInFlight hmac (s.send p messages) = conflictsInFlight hmac s +
      messages.countP fun m => IsRoleConflict hmac (s.agent p) m := by
  unfold conflictsInFlight Link.send
  rw [List.countP_append, List.countP_map]
  rfl

theorem conflictsInFlight_take {index : Nat} {entry : Peer × Message Mac}
    (h : s.inFlight[index]? = some entry) :
    conflictsInFlight hmac s = conflictsInFlight hmac (s.take index) +
      if IsRoleConflict hmac (s.agent entry.1) entry.2 then 1 else 0 := by
  obtain ⟨hlt, rfl⟩ := List.getElem?_eq_some_iff.mp h
  have hperm := List.getElem_cons_eraseIdx_perm hlt
  unfold conflictsInFlight
  rw [← hperm.countP_eq, List.countP_cons]
  congr 1
  by_cases hconflict : IsRoleConflict hmac (s.agent s.inFlight[index].1) s.inFlight[index].2
  · rw [if_pos (decide_eq_true hconflict), if_pos hconflict]
  · rw [if_neg (fun h => hconflict (of_decide_eq_true h)), if_neg hconflict]

/-- Roles do not matter for what is believed. -/
theorem conflictsInFlight_congr (hflight : t.inFlight = s.inFlight)
    (hagent : ∀ p, (t.agent p).ufragPwd = (s.agent p).ufragPwd) :
    conflictsInFlight hmac t = conflictsInFlight hmac s := by
  unfold conflictsInFlight
  rw [hflight]
  refine List.countP_congr fun entry _ => ?_
  rw [decide_eq_true_eq, decide_eq_true_eq, isRoleConflict_congr (hagent entry.1)]

/-- The parity of the conflicts on their way tells whether the roles are opposite. -/
def InStep (hmac : String → Content → Mac) (s : Link Mac) : Prop :=
  Opposite s ↔ Even (conflictsInFlight hmac s)

theorem inStep_send {p : Peer} {messages : List (Message Mac)}
    (hcalm : ∀ m ∈ messages, Calm hmac (s.agent p.other) m) :
    InStep hmac (s.send p messages) ↔ InStep hmac s := by
  have hzero : messages.countP (fun m => IsRoleConflict hmac (s.agent p) m) = 0 := by
    refine List.countP_eq_zero.mpr fun m hm => ?_
    simpa using (hcalm m hm _).1
  unfold InStep
  rw [conflictsInFlight_send, hzero]
  rfl

/-- What one message does to the parity: a check that meets a conflict turns it over. -/
theorem inStep_receive (hpaired : Paired s) {p : Peer} {m : Message Mac} {id : TransactionId}
    {priority : UInt32} : InStep hmac (s.receive hmac p m id priority) ↔
      (InStep hmac s ↔
        ¬ (IsRoleConflict hmac (s.agent p) m ∨ MeetsConflict hmac (s.agent p) m)) := by
  by_cases hanswer : (handleInbound hmac (s.agent p) m).2 = .answerRoleConflict
  · -- the answer joins the conflicts on their way
    have hbelieved :
        IsRoleConflict hmac (s.agent p.other) (sendRoleConflict hmac (s.agent p) m) := by
      apply isRoleConflict_sendRoleConflict
      have hpassword := hpaired.password p.other
      rwa [other_other] at hpassword
    have hmeets : IsRoleConflict hmac (s.agent p) m ∨ MeetsConflict hmac (s.agent p) m :=
      .inr (.inr hanswer)
    rw [Link.receive_of_answer hanswer]
    unfold InStep
    rw [conflictsInFlight_send, List.countP_singleton, if_pos (decide_eq_true hbelieved),
      Nat.even_add_one]
    show (Opposite s ↔ _) ↔ _
    grind
  · let u : Link Mac :=
      { s with agent := Function.update s.agent p (handleInbound hmac (s.agent p) m).1 }
    have hself : u.agent p = (handleInbound hmac (s.agent p) m).1 := Function.update_self ..
    have hother : u.agent p.other = s.agent p.other := Function.update_of_ne (other_ne p) ..
    have hsent : InStep hmac (s.receive hmac p m id priority) ↔ InStep hmac u := by
      refine inStep_send fun reply hreply => ?_
      rw [other_other, hself]
      exact calm_replies hanswer hreply
    have hcount : conflictsInFlight hmac u = conflictsInFlight hmac s := by
      refine conflictsInFlight_congr rfl fun q => ?_
      obtain rfl | rfl := eq_or_eq_other p q
      · rw [hself, handleInbound_fst]
        split <;> rfl
      · rw [hother]
    have hmeets : MeetsConflict hmac (s.agent p) m ↔ Overrules (s.agent p) m :=
      or_iff_left hanswer
    rw [hsent, hmeets]
    unfold InStep
    rw [hcount]
    by_cases hswitches : IsRoleConflict hmac (s.agent p) m ∨ Overrules (s.agent p) m
    · have hopposite : Opposite u ↔ ¬ Opposite s := by
        refine opposite_switch (p := p) ?_ hother
        rw [hself, handleInbound_fst, if_pos hswitches]
        rfl
      grind
    · have hopposite : Opposite u ↔ Opposite s := by
        rw [opposite_iff p, opposite_iff (s := s) p, hother, hself, handleInbound_fst,
          if_neg hswitches]
      grind

theorem inStep_take {index : Nat} {entry : Peer × Message Mac}
    (h : s.inFlight[index]? = some entry) : InStep hmac (s.take index) ↔
      (InStep hmac s ↔ ¬ IsRoleConflict hmac (s.agent entry.1) entry.2) := by
  unfold InStep
  rw [conflictsInFlight_take h]
  show (Opposite s ↔ _) ↔ _
  by_cases hconflict : IsRoleConflict hmac (s.agent entry.1) entry.2
  · rw [if_pos hconflict, Nat.even_add_one]
    grind
  · rw [if_neg hconflict, Nat.add_zero]
    grind

theorem even_length_ite {test : Bool} {action : Action} :
    Even (if test then [action] else []).length ↔ ¬ test = true := by
  cases test <;> simp

/-- The parity is turned over by the actions that count. -/
theorem inStep_step (hpaired : Paired s) {action : Action} (h : step hmac s action = some t) :
    InStep hmac t ↔ (InStep hmac s ↔ Even (countedActions hmac s action).length) := by
  cases action with
  | ping p id priority =>
    cases h
    refine (inStep_send fun m hm => ?_).trans (by simp [countedActions])
    obtain rfl := List.mem_singleton.mp hm
    rw [other_other]
    exact calm_check _ _ _ _
  | nominate p id priority =>
    obtain ⟨-, heq⟩ := Option.ite_none_right_eq_some.mp h
    cases heq
    refine (inStep_send fun m hm => ?_).trans (by simp [countedActions])
    obtain rfl := List.mem_singleton.mp hm
    rw [other_other]
    exact calm_check _ _ _ _
  | deliver index id priority =>
    obtain ⟨entry, hentry, heq⟩ := Option.map_eq_some_iff.mp h
    cases heq
    have htaken : Paired (s.take index) := ⟨hpaired.password, hpaired.ufrag, hpaired.distinct⟩
    have hexclusive : IsRoleConflict hmac (s.agent entry.1) entry.2 →
        ¬ MeetsConflict hmac (s.agent entry.1) entry.2 := by
      intro hconflict
      apply not_meetsConflict_of_class
      rw [hconflict.2.1]
      decide
    have hbefore : InStep hmac (s.take index) ↔ _ := inStep_take hentry
    have hafter : InStep hmac ((s.take index).receive hmac entry.1 entry.2 id priority) ↔
        (InStep hmac (s.take index) ↔ ¬ (IsRoleConflict hmac (s.agent entry.1) entry.2 ∨
          MeetsConflict hmac (s.agent entry.1) entry.2)) := inStep_receive htaken
    rw [countedActions, hentry, Option.any_some, even_length_ite, decide_eq_true_eq]
    grind
  | lose index =>
    obtain ⟨entry, hentry, heq⟩ := Option.map_eq_some_iff.mp h
    cases heq
    rw [inStep_take hentry, countedActions, hentry, Option.any_some, even_length_ite,
      decide_eq_true_eq]
  | duplicate index =>
    obtain ⟨entry, hentry, heq⟩ := Option.map_eq_some_iff.mp h
    cases heq
    unfold InStep
    rw [conflictsInFlight_send, List.countP_singleton, countedActions, hentry, Option.any_some,
      even_length_ite]
    show (Opposite s ↔ _) ↔ _
    by_cases hconflict : IsRoleConflict hmac (s.agent entry.1) entry.2
    · simp only [hconflict, decide_true, if_true, Nat.even_add_one]
      grind
    · simp [hconflict]

theorem inStep_runFrom {M : System (Link Mac) Action} (hM : M.step = step hmac) (hpaired : Paired s)
    {actions : List Action} (hrun : M.runFrom s actions = some t) :
    InStep hmac t ↔ (InStep hmac s ↔
      Even (M.outputs (countedActions hmac) s actions).length) := by
  induction actions generalizing s with
  | nil =>
    cases hrun
    simp [System.outputs]
  | cons action rest ih =>
    obtain ⟨u, hu, hrest⟩ := Option.bind_eq_some_iff.mp hrun
    have hstep : step hmac s action = some u := hM ▸ hu
    rw [ih (step_paired hpaired hstep) hrest, inStep_step hpaired hstep, System.outputs, hu,
      Option.elim_some, List.length_append, Nat.even_add]
    grind

variable (hmac) in
/-- Between two moments with no 487 on its way, the roles turn from opposite to equal or back
exactly if an odd number of actions counted. -/
theorem opposite_iff_even (hpaired : Paired s) {actions : List Action}
    (hrun : (system hmac s).run actions = some t) (hbefore : conflictsInFlight hmac s = 0)
    (hafter : conflictsInFlight hmac t = 0) :
    Opposite t ↔ (Opposite s ↔
      Even ((system hmac s).outputs (countedActions hmac) s actions).length) := by
  have h := inStep_runFrom rfl hpaired hrun
  unfold InStep at h
  simpa [hbefore, hafter] using h

/-- The agent with the smaller tie-breaker checks two pairs, and each check is answered 487. -/
def twoPings : List Action :=
  [.ping .second 1 0, .ping .second 2 0] ++ List.replicate 4 (.deliver 0 0 0)

theorem twoPings_unresolved : ∃ t,
    (system plainMac (twoAgents true true)).run twoPings = some t ∧ ¬ Opposite t := by
  obtain ⟨t, hrun, hquiet⟩ := System.exists_run_of_any (system plainMac (twoAgents true true))
    (twoAgents true true) twoPings (fun t => conflictsInFlight plainMac t = 0) (by decide +kernel)
  refine ⟨t, hrun, ?_⟩
  rw [opposite_iff_even plainMac (twoAgents_paired true true) hrun rfl (of_decide_eq_true hquiet)]
  decide +kernel

/-! ## A conflict that lasts -/

/-- Nothing is lost or repeated, and what was sent first arrives first. -/
def inOrder : Action → Bool
  | .ping .. | .nominate .. => true
  | .deliver index _ _ => index = 0
  | .lose _ | .duplicate _ => false

theorem deliver_first {agent : Peer → Agent} {p : Peer} {m : Message Mac}
    {rest : List (Peer × Message Mac)} {a : Agent} {verdict : Verdict}
    (h : handleInbound hmac (agent p) m = (a, verdict)) :
    step hmac ⟨agent, (p, m) :: rest⟩ (.deliver 0 0 0) = some ⟨Function.update agent p a,
      rest ++ (replies hmac a m verdict 0 0).map fun reply => (p.other, reply)⟩ := by
  simp [step, Link.take, Link.receive, Link.send, h]

theorem deliver_kept {agent : Peer → Agent} {p : Peer} {m : Message Mac}
    {rest : List (Peer × Message Mac)} {verdict : Verdict}
    (h : handleInbound hmac (agent p) m = (agent p, verdict)) :
    step hmac ⟨agent, (p, m) :: rest⟩ (.deliver 0 0 0) = some ⟨agent,
      rest ++ (replies hmac (agent p) m verdict 0 0).map fun reply => (p.other, reply)⟩ := by
  rw [deliver_first h, Function.update_eq_self]

/-- Both check each other before they hear of the other's role. -/
def crossedPings (p : Peer) : List Action := [.ping p 0 0, .ping p.other 0 0]

variable (hmac) in
theorem step_crossedPings (agent : Peer → Agent) (p : Peer) :
    (system hmac ⟨agent, []⟩).run (crossedPings p) = some ⟨agent,
      [(p.other, pingCandidate hmac (agent p) 0 0),
        (p, pingCandidate hmac (agent p.other) 0 0)]⟩ := by
  simp [crossedPings, System.run, System.runFrom, system, step, Link.send]

section Recurrence

variable {p : Peer} {a b : Agent}

/-- What two agents that know each other agree on. -/
structure Knows (a b : Agent) : Prop where
  password : a.ufragPwd.remotePwd = b.ufragPwd.localPwd
  password' : b.ufragPwd.remotePwd = a.ufragPwd.localPwd
  ufrag : a.ufragPwd.remoteUfrag = b.ufragPwd.localUfrag
  ufrag' : b.ufragPwd.remoteUfrag = a.ufragPwd.localUfrag

omit [DecidableEq Mac] in
theorem Paired.knows (hpaired : Paired s) (p : Peer) : Knows (s.agent p) (s.agent p.other) := by
  have hpassword := hpaired.password p.other
  have hufrag := hpaired.ufrag p.other
  rw [other_other] at hpassword hufrag
  exact ⟨hpaired.password p, hpassword, hpaired.ufrag p, hufrag⟩

omit [DecidableEq Mac] in
theorem Knows.symm (h : Knows a b) : Knows b a := ⟨h.password', h.password, h.ufrag', h.ufrag⟩

omit [DecidableEq Mac] in
theorem Knows.switch (h : Knows a b) (controlling : Bool) : Knows a (b.switchRole controlling) :=
  ⟨h.password, h.password', h.ufrag, h.ufrag'⟩

/-- A check that meets no conflict. -/
theorem accepts (hknows : Knows a b) {c : Agent} (hc : c.ufragPwd = b.ufragPwd)
    (h : resolveRoleConflict b (pingCandidate hmac a 0 0) = some (c, false)) :
    handleInbound hmac b (pingCandidate hmac a 0 0) = (c, .handleBindingRequest) :=
  handleInbound_pingCandidate hknows.password hknows.ufrag hknows.ufrag' hc h

theorem refuses (hknows : Knows a b)
    (h : resolveRoleConflict b (pingCandidate hmac a 0 0) = some (b, true)) :
    handleInbound hmac b (pingCandidate hmac a 0 0) = (b, .answerRoleConflict) :=
  handleInbound_pingCandidate hknows.password hknows.ufrag hknows.ufrag' rfl h

/-- Both are controlling: the smaller tie-breaker gives way, and is then told to switch. -/
theorem controlling_recurs {agent : Peer → Agent} (hknows : Knows (agent p) (agent p.other))
    (hlarger : (agent p.other).tieBreaker < (agent p).tieBreaker)
    (hrole : (agent p).isControlling = true) (hother : (agent p.other).isControlling = true) :
    (system hmac ⟨agent, []⟩).run (crossedPings p ++ List.replicate 6 (.deliver 0 0 0)) =
      some ⟨agent, []⟩ := by
  obtain ⟨a, ha⟩ : ∃ a, agent p = a := ⟨_, rfl⟩
  obtain ⟨b, hb⟩ : ∃ b, agent p.other = b := ⟨_, rfl⟩
  have hpings := step_crossedPings hmac agent p
  rw [ha, hb] at hknows hlarger hpings
  rw [ha] at hrole
  rw [hb] at hother
  have hne : a.tieBreaker ≠ b.tieBreaker := (UInt64.ne_of_lt hlarger).symm
  have hless : ¬ a.tieBreaker < b.tieBreaker := UInt64.not_lt.mpr (UInt64.le_of_lt hlarger)
  -- the smaller one hears first, gives way, and checks back in its new role
  have hyields : handleInbound hmac (agent p.other) (pingCandidate hmac a 0 0) =
      (b.switchRole false, .handleBindingRequest) := by
    rw [hb]
    exact accepts hknows rfl ((resolve_controlling hrole hother hne).trans (if_neg hless))
  obtain ⟨yielded, hupdate⟩ : ∃ f, f = Function.update agent p.other (b.switchRole false) :=
    ⟨_, rfl⟩
  have hself : yielded p = a := by rw [hupdate, Function.update_of_ne (other_ne p).symm, ha]
  have hswitched : yielded p.other = b.switchRole false := by rw [hupdate, Function.update_self]
  -- the larger one answers 487 to the check it gets, and accepts the one after
  have hyielded := hknows.switch false
  have hrefuses : handleInbound hmac (yielded p) (pingCandidate hmac b 0 0) =
      (yielded p, .answerRoleConflict) := by
    rw [hself]
    exact refuses hknows.symm ((resolve_controlling hother hrole hne.symm).trans (if_pos hlarger))
  have hanswered : ∀ m, handleInbound hmac (yielded p)
      (sendBindingSuccess hmac (b.switchRole false) m) = (yielded p, .handleSuccessResponse) := by
    intro m
    rw [hself]
    exact handleInbound_sendBindingSuccess hyielded.password
  have haccepts : handleInbound hmac (yielded p) (pingCandidate hmac (b.switchRole false) 0 0) =
      (yielded p, .handleBindingRequest) := by
    rw [hself]
    refine accepts hyielded.symm rfl (resolve_opposite ?_)
    rw [hrole]
    rfl
  -- told 487, the smaller one is back in the role it had
  have hswitches : ∀ m, handleInbound hmac (yielded p.other) (sendRoleConflict hmac a m) =
      (b, .discard) := by
    intro m
    rw [hswitched, handleInbound_sendRoleConflict hyielded.password']
    refine Prod.ext ?_ rfl
    show { b with isControlling := true } = b
    rw [← hother]
  have hback : Function.update yielded p.other b = agent := by
    rw [hupdate, Function.update_idem, ← hb, Function.update_eq_self]
  have hlast : ∀ m, handleInbound hmac (agent p.other) (sendBindingSuccess hmac a m) =
      (agent p.other, .handleSuccessResponse) := by
    intro m
    rw [hb]
    exact handleInbound_sendBindingSuccess hknows.password'
  have hreply : ∀ m, replies hmac (yielded p) m .handleBindingRequest 0 0 =
      [sendBindingSuccess hmac a m] := by
    intro m
    rw [hself]
    exact if_pos hrole
  have hrefusal : ∀ m, replies hmac (yielded p) m .answerRoleConflict 0 0 =
      [sendRoleConflict hmac a m] := by
    intro m
    rw [hself]
    rfl
  have hchecks : ∀ m, replies hmac (b.switchRole false) m .handleBindingRequest 0 0 =
      [sendBindingSuccess hmac (b.switchRole false) m,
        pingCandidate hmac (b.switchRole false) 0 0] := fun _ => rfl
  have hquiet : ∀ c m, replies hmac c m .handleSuccessResponse 0 0 = [] := fun _ _ => rfl
  have hsilent : ∀ c m, replies hmac c m .discard 0 0 = [] := fun _ _ => rfl
  rw [System.run, System.runFrom_append, ← System.run, hpings, Option.bind_some]
  simp only [List.replicate, System.runFrom, system, Option.bind_some, List.cons_append,
    List.nil_append, List.map_cons, List.map_nil, List.append_nil, other_other, hchecks, hrefusal,
    hreply, hquiet, hsilent, deliver_first hyields, ← hupdate, deliver_kept hrefuses,
    deliver_kept (hanswered _), deliver_kept haccepts, deliver_first (hswitches _), hback,
    deliver_kept (hlast _)]

/-- Both are controlled: the larger tie-breaker takes the other role, and is then told to switch. -/
theorem controlled_recurs {agent : Peer → Agent} (hknows : Knows (agent p) (agent p.other))
    (hlarger : (agent p.other).tieBreaker < (agent p).tieBreaker)
    (hrole : (agent p).isControlling = false) (hother : (agent p.other).isControlling = false) :
    (system hmac ⟨agent, []⟩).run (crossedPings p ++ List.replicate 4 (.deliver 0 0 0)) =
      some ⟨agent, []⟩ := by
  obtain ⟨a, ha⟩ : ∃ a, agent p = a := ⟨_, rfl⟩
  obtain ⟨b, hb⟩ : ∃ b, agent p.other = b := ⟨_, rfl⟩
  have hpings := step_crossedPings hmac agent p
  rw [ha, hb] at hknows hlarger hpings
  rw [ha] at hrole
  rw [hb] at hother
  have hne : a.tieBreaker ≠ b.tieBreaker := (UInt64.ne_of_lt hlarger).symm
  have hless : ¬ a.tieBreaker < b.tieBreaker := UInt64.not_lt.mpr (UInt64.le_of_lt hlarger)
  -- the smaller one answers 487
  have hrefuses : handleInbound hmac (agent p.other) (pingCandidate hmac a 0 0) =
      (agent p.other, .answerRoleConflict) := by
    rw [hb]
    exact refuses hknows ((resolve_controlled hrole hother hne).trans (if_neg hless))
  -- the larger one takes the other role before the answer comes
  have htakes : handleInbound hmac (agent p) (pingCandidate hmac b 0 0) =
      (a.switchRole true, .handleBindingRequest) := by
    rw [ha]
    exact accepts hknows.symm rfl
      ((resolve_controlled hother hrole hne.symm).trans (if_pos hlarger))
  obtain ⟨taken, hupdate⟩ : ∃ f, f = Function.update agent p (a.switchRole true) := ⟨_, rfl⟩
  have hswitched : taken p = a.switchRole true := by rw [hupdate, Function.update_self]
  have hswitches : ∀ m, handleInbound hmac (taken p) (sendRoleConflict hmac b m) =
      (a, .discard) := by
    intro m
    rw [hswitched, handleInbound_sendRoleConflict (hknows.symm.switch true).password']
    refine Prod.ext ?_ rfl
    show { a with isControlling := false } = a
    rw [← hrole]
  have hback : Function.update taken p a = agent := by
    rw [hupdate, Function.update_idem, ← ha, Function.update_eq_self]
  have hlast : ∀ m, handleInbound hmac (agent p.other)
      (sendBindingSuccess hmac (a.switchRole true) m) =
      (agent p.other, .handleSuccessResponse) := by
    intro m
    rw [hb]
    exact handleInbound_sendBindingSuccess (hknows.symm.switch true).symm.password'
  have hreply : ∀ m, replies hmac (a.switchRole true) m .handleBindingRequest 0 0 =
      [sendBindingSuccess hmac (a.switchRole true) m] := fun _ => rfl
  have hrefusal : ∀ m, replies hmac (agent p.other) m .answerRoleConflict 0 0 =
      [sendRoleConflict hmac b m] := by
    intro m
    rw [hb]
    rfl
  have hquiet : ∀ c m, replies hmac c m .handleSuccessResponse 0 0 = [] := fun _ _ => rfl
  have hsilent : ∀ c m, replies hmac c m .discard 0 0 = [] := fun _ _ => rfl
  rw [System.run, System.runFrom_append, ← System.run, hpings, Option.bind_some]
  simp only [List.replicate, System.runFrom, system, Option.bind_some, List.cons_append,
    List.nil_append, List.map_cons, List.map_nil, List.append_nil, other_other, hrefusal, hreply,
    hquiet, hsilent, deliver_kept hrefuses, deliver_first htakes, ← hupdate,
    deliver_first (hswitches _), hback, deliver_kept (hlast _)]

end Recurrence

variable (hmac) in
/-- A conflict can last for ever though every message arrives once and in order: there is a round
in which both sides check each other that ends where it began. -/
theorem conflict_recurs (hpaired : Paired s) (hsame : ¬ Opposite s) (hempty : s.inFlight = []) :
    ∃ round, (∀ p, .ping p 0 0 ∈ round) ∧ (∀ action ∈ round, inOrder action = true) ∧
      (system hmac s).run round = some s := by
  obtain ⟨agent, flight⟩ := s
  obtain rfl : flight = [] := hempty
  have hlarger : ∃ p : Peer, (agent p.other).tieBreaker < (agent p).tieBreaker := by
    obtain hless | hless := UInt64.lt_or_lt_of_ne (hpaired.distinct .first)
    · exact ⟨.second, hless⟩
    · exact ⟨.first, hless⟩
  obtain ⟨p, hlarger⟩ := hlarger
  have hrole : (agent p).isControlling = (agent p.other).isControlling := by
    by_contra hne
    exact hsame ((opposite_iff p).mpr hne)
  have hpings : ∀ n q, Action.ping q 0 0 ∈ crossedPings p ++ List.replicate n (.deliver 0 0 0) := by
    intro n q
    apply List.mem_append_left
    obtain rfl | rfl := eq_or_eq_other p q
    · exact List.mem_cons_self
    · exact List.mem_cons_of_mem _ List.mem_cons_self
  have horder : ∀ n, ∀ action ∈ crossedPings p ++ List.replicate n (.deliver 0 0 0),
      inOrder action = true := by
    intro n action haction
    obtain hping | hdeliver := List.mem_append.mp haction
    · obtain rfl | hlast := List.mem_cons.mp hping
      · rfl
      · obtain rfl := List.mem_singleton.mp hlast
        rfl
    · rw [(List.mem_replicate.mp hdeliver).2]
      rfl
  have hknows := hpaired.knows p
  cases hcontrolling : (agent p).isControlling with
  | true =>
    exact ⟨_, hpings 6, horder 6,
      controlling_recurs hknows hlarger hcontrolling (hrole ▸ hcontrolling)⟩
  | false =>
    exact ⟨_, hpings 4, horder 4,
      controlled_recurs hknows hlarger hcontrolling (hrole ▸ hcontrolling)⟩

theorem twoControlled_recurs : ∃ round, (∀ p, .ping p 0 0 ∈ round) ∧
    (∀ action ∈ round, inOrder action = true) ∧
    (system plainMac (twoAgents false false)).run round = some (twoAgents false false) :=
  conflict_recurs plainMac (twoAgents_paired false false) (by decide) rfl

end Network

end OpenMeet.RoleConflicts
