import OpenMeet.IpAddresses
import OpenMeet.TransitionSystem

/-!
Connectivity checks of an ICE agent: the messages it builds and what it does with
one that comes in. A binding request tells the role its sender thinks it has. If
both sides think they have the same role, the tie-breakers decide: the agent that
gets the request switches its role, or answers 487, and an agent that gets a 487
switches its own. The keyed hash behind MESSAGE-INTEGRITY is a parameter; the
FINGERPRINT, a checksum at the end of every message, is left out. So is what the
selectors do with a check that is accepted, beyond answering it.
-/
namespace OpenMeet.BindingChecks

open IpAddresses

abbrev TieBreaker := UInt64
abbrev TransactionId := Nat

inductive Method
  | binding
  | other
  deriving DecidableEq, Repr

inductive MessageClass
  | request
  | indication
  | successResponse
  | errorResponse
  deriving DecidableEq, Repr

structure ErrorCode where
  code : Nat
  reason : String
  deriving DecidableEq, Repr

/-- A message up to its integrity attribute. -/
structure Content where
  method : Method
  messageClass : MessageClass
  transactionId : TransactionId
  username : Option String
  useCandidate : Bool
  controlling : Option TieBreaker
  controlled : Option TieBreaker
  priority : Option UInt32
  errorCode : Option ErrorCode
  xorMappedAddress : Option SocketAddr
  deriving DecidableEq, Repr

structure Message (Mac : Type) where
  content : Content
  integrity : Option Mac
  deriving DecidableEq, Repr

structure UfragPwd where
  localUfrag : String
  localPwd : String
  remoteUfrag : String
  remotePwd : String
  deriving DecidableEq, Repr

/-- An agent with one remote candidate, whose address is known. -/
structure Agent where
  tieBreaker : TieBreaker
  isControlling : Bool
  ufragPwd : UfragPwd
  remote : SocketAddr
  deriving DecidableEq, Repr

def codeRoleConflict : Nat := 487

section Messages

variable {Mac : Type} (hmac : String → Content → Mac)

def sign (password : String) (content : Content) : Message Mac :=
  ⟨content, some (hmac password content)⟩

def isSigned [DecidableEq Mac] (m : Message Mac) (password : String) : Bool :=
  m.integrity = some (hmac password m.content)

variable (a : Agent)

/-- The controlling selector's check, or the controlled one's; only the former may nominate. -/
def checkContent (id : TransactionId) (priority : UInt32) (useCandidate : Bool) : Content where
  method := .binding
  messageClass := .request
  transactionId := id
  username := some (a.ufragPwd.remoteUfrag ++ ":" ++ a.ufragPwd.localUfrag)
  useCandidate := useCandidate
  controlling := if a.isControlling then some a.tieBreaker else none
  controlled := if a.isControlling then none else some a.tieBreaker
  priority := some priority
  errorCode := none
  xorMappedAddress := none

def pingCandidate (id : TransactionId) (priority : UInt32) : Message Mac :=
  sign hmac a.ufragPwd.remotePwd (checkContent a id priority false)

def nominatePair (id : TransactionId) (priority : UInt32) : Message Mac :=
  sign hmac a.ufragPwd.remotePwd (checkContent a id priority true)

/-- An answer takes the transaction of the request and nothing else of it. -/
def answerContent (m : Message Mac) (answer : MessageClass) (errorCode : Option ErrorCode)
    (xorMappedAddress : Option SocketAddr) : Content where
  method := .binding
  messageClass := answer
  transactionId := m.content.transactionId
  username := none
  useCandidate := false
  controlling := none
  controlled := none
  priority := none
  errorCode := errorCode
  xorMappedAddress := xorMappedAddress

def sendBindingSuccess (m : Message Mac) : Message Mac :=
  sign hmac a.ufragPwd.localPwd (answerContent m .successResponse none (some a.remote))

def sendRoleConflict (m : Message Mac) : Message Mac :=
  sign hmac a.ufragPwd.localPwd
    (answerContent m .errorResponse (some ⟨codeRoleConflict, "Role Conflict"⟩) none)

end Messages

def Agent.switchRole (a : Agent) (controlling : Bool) : Agent :=
  { a with isControlling := controlling }

/-- What is done with a message once its role is settled. -/
inductive Verdict
  | discard
  | answerRoleConflict
  | handleBindingRequest
  | handleSuccessResponse
  | seen
  deriving DecidableEq, Repr

section Inbound

variable {Mac : Type} [DecidableEq Mac] (hmac : String → Content → Mac) (a : Agent)
  (m : Message Mac)

def handleRoleConflictResponse : Agent :=
  match m.content.errorCode with
  | none => a
  | some error =>
    if error.code ≠ codeRoleConflict then a
    else if isSigned hmac m a.ufragPwd.remotePwd then a.switchRole (!a.isControlling)
    else a

/-- The agent after the tie-breakers have decided, and whether the sender has to switch instead;
none for a check of the agent's own that has come back. -/
def resolveRoleConflict : Option (Agent × Bool) :=
  if m.content.messageClass ≠ .request then some (a, false)
  else if a.isControlling then
    match m.content.controlling with
    | none => some (a, false)
    | some theirs =>
      if theirs = a.tieBreaker then none
      else if a.tieBreaker > theirs then some (a, true)
      else some (a.switchRole false, false)
  else
    match m.content.controlled with
    | none => some (a, false)
    | some theirs =>
      if theirs = a.tieBreaker then none
      else if a.tieBreaker > theirs then some (a.switchRole true, false)
      else some (a, true)

/-- Who sent the message is looked at only after the role has been switched. -/
def authenticate (answerRoleConflict : Bool) : Verdict :=
  match m.content.messageClass with
  | .successResponse =>
    if isSigned hmac m a.ufragPwd.remotePwd then .handleSuccessResponse else .discard
  | .request =>
    if m.content.username ≠ some (a.ufragPwd.localUfrag ++ ":" ++ a.ufragPwd.remoteUfrag) then
      .discard
    else if !isSigned hmac m a.ufragPwd.localPwd then .discard
    else if answerRoleConflict then .answerRoleConflict
    else .handleBindingRequest
  | .indication => .seen
  | .errorResponse => .discard

def handleInbound : Agent × Verdict :=
  if m.content.method = .binding ∧ m.content.messageClass = .errorResponse then
    (handleRoleConflictResponse hmac a m, .discard)
  else if m.content.method ≠ .binding then (a, .discard)
  else
    match resolveRoleConflict a m with
    | none => (a, .discard)
    | some (a, answerRoleConflict) =>
      if a.isControlling ∧ m.content.useCandidate then (a, .discard)
      else (a, authenticate hmac a m answerRoleConflict)

/-- The messages that go back. A controlled agent checks the pair itself when it is checked. -/
def replies (verdict : Verdict) (id : TransactionId) (priority : UInt32) : List (Message Mac) :=
  match verdict with
  | .answerRoleConflict => [sendRoleConflict hmac a m]
  | .handleBindingRequest =>
    if a.isControlling then [sendBindingSuccess hmac a m]
    else [sendBindingSuccess hmac a m, pingCandidate hmac a id priority]
  | _ => []

/-! ## What a message does to the role -/

/-- A 487 that the agent believes. -/
def IsRoleConflict : Prop :=
  m.content.method = .binding ∧ m.content.messageClass = .errorResponse ∧
    m.content.errorCode.any (·.code = codeRoleConflict) = true ∧
    isSigned hmac m a.ufragPwd.remotePwd = true

omit [DecidableEq Mac] in
/-- A check from an agent in the same role that the tie-breaker lets keep it. -/
def Overrules : Prop :=
  m.content.method = .binding ∧ m.content.messageClass = .request ∧
    if a.isControlling then m.content.controlling.any (a.tieBreaker < ·) = true
    else m.content.controlled.any (· < a.tieBreaker) = true

/-- A check that makes one side switch: the receiver at once, or the sender when it is answered. -/
def MeetsConflict : Prop := Overrules a m ∨ (handleInbound hmac a m).2 = .answerRoleConflict

instance : Decidable (IsRoleConflict hmac a m) := inferInstanceAs (Decidable (_ ∧ _))
instance : Decidable (Overrules a m) := inferInstanceAs (Decidable (_ ∧ _))
instance : Decidable (MeetsConflict hmac a m) := inferInstanceAs (Decidable (_ ∨ _))

variable {hmac a m}

theorem not_isRoleConflict_of_class (h : m.content.messageClass ≠ .errorResponse) :
    ¬ IsRoleConflict hmac a m :=
  fun hconflict => h hconflict.2.1

theorem isRoleConflict_congr {b : Agent} (h : a.ufragPwd = b.ufragPwd) :
    IsRoleConflict hmac a m ↔ IsRoleConflict hmac b m := by
  rw [IsRoleConflict, IsRoleConflict, h]

omit [DecidableEq Mac] in
theorem not_overrules_of_class (h : m.content.messageClass ≠ .request) : ¬ Overrules a m :=
  fun hoverrules => h hoverrules.2.1

theorem handleRoleConflictResponse_eq : handleRoleConflictResponse hmac a m =
    if m.content.errorCode.any (·.code = codeRoleConflict) = true ∧
      isSigned hmac m a.ufragPwd.remotePwd = true then a.switchRole (!a.isControlling) else a := by
  unfold handleRoleConflictResponse
  cases m.content.errorCode with
  | none => simp
  | some error =>
    by_cases hcode : error.code = codeRoleConflict
    · simp [hcode]
    · simp [hcode]

omit [DecidableEq Mac] in
/-- The receiver's tie-breaker is larger or smaller, or the check is its own. -/
theorem resolveRoleConflict_cases (hmethod : m.content.method = .binding) :
    (resolveRoleConflict a m = none ∧ ¬ Overrules a m) ∨
    (resolveRoleConflict a m = some (a.switchRole (!a.isControlling), false) ∧ Overrules a m) ∨
    ∃ answers, resolveRoleConflict a m = some (a, answers) ∧ ¬ Overrules a m ∧
      (answers = true → m.content.messageClass = .request) := by
  by_cases hrequest : m.content.messageClass = .request
  · have hoverrules : Overrules a m ↔
        if a.isControlling then m.content.controlling.any (a.tieBreaker < ·) = true
        else m.content.controlled.any (· < a.tieBreaker) = true :=
      ⟨fun h => h.2.2, fun h => ⟨hmethod, hrequest, h⟩⟩
    rw [hoverrules]
    unfold resolveRoleConflict
    rw [if_neg (not_not_intro hrequest)]
    cases hrole : a.isControlling with
    | true =>
      cases hattribute : m.content.controlling with
      | none => simp [hrequest]
      | some theirs =>
        by_cases hown : theirs = a.tieBreaker
        · simp [hown]
        · by_cases hlarger : theirs < a.tieBreaker
          · have hless : ¬ a.tieBreaker < theirs := fun h => UInt64.lt_asymm h hlarger
            simp [hown, hlarger, hless, hrequest]
          · have hless : a.tieBreaker < theirs :=
              UInt64.lt_of_le_of_ne (UInt64.not_lt.mp hlarger) (Ne.symm hown)
            simp [hown, hlarger, hless]
    | false =>
      cases hattribute : m.content.controlled with
      | none => simp [hrequest]
      | some theirs =>
        by_cases hown : theirs = a.tieBreaker
        · simp [hown]
        · by_cases hlarger : theirs < a.tieBreaker
          · simp [hown, hlarger]
          · simp [hown, hlarger, hrequest]
  · refine .inr (.inr ⟨false, ?_, not_overrules_of_class hrequest, fun h => by cases h⟩)
    rw [resolveRoleConflict, if_pos hrequest]

/-- The role of the agent is all that a message changes here. -/
theorem handleInbound_fst : (handleInbound hmac a m).1 =
    if IsRoleConflict hmac a m ∨ Overrules a m then a.switchRole (!a.isControlling) else a := by
  unfold handleInbound
  by_cases hmethod : m.content.method = .binding
  · by_cases herror : m.content.messageClass = .errorResponse
    · have hrequest : m.content.messageClass ≠ .request := by rw [herror]; decide
      rw [if_pos ⟨hmethod, herror⟩, handleRoleConflictResponse_eq]
      refine if_congr ?_ rfl rfl
      rw [or_iff_left (not_overrules_of_class hrequest)]
      exact ⟨fun h => ⟨hmethod, herror, h⟩, fun h => h.2.2⟩
    · rw [if_neg (fun h => herror h.2), if_neg (not_not_intro hmethod)]
      simp only [not_isRoleConflict_of_class herror, false_or]
      rcases resolveRoleConflict_cases (a := a) hmethod with
        ⟨heq, hkeeps⟩ | ⟨heq, hoverrules⟩ | ⟨answers, heq, hkeeps, -⟩
      · rw [heq, if_neg hkeeps]
      · rw [heq, if_pos hoverrules]
        dsimp only
        split <;> rfl
      · rw [heq, if_neg hkeeps]
        dsimp only
        split <;> rfl
  · have hkeeps : ¬ (IsRoleConflict hmac a m ∨ Overrules a m) := by
      intro h
      exact hmethod (h.elim (·.1) (·.1))
    rw [if_neg (fun h => hmethod h.1), if_pos hmethod, if_neg hkeeps]

/-- Only a check is answered by a 487, from an agent that keeps its role. -/
theorem of_answerRoleConflict (h : (handleInbound hmac a m).2 = .answerRoleConflict) :
    resolveRoleConflict a m = some (a, true) ∧ m.content.messageClass = .request ∧
      ¬ Overrules a m := by
  unfold handleInbound at h
  by_cases hmethod : m.content.method = .binding
  · by_cases herror : m.content.messageClass = .errorResponse
    · rw [if_pos ⟨hmethod, herror⟩] at h
      cases h
    · rw [if_neg (fun h => herror h.2), if_neg (not_not_intro hmethod)] at h
      have hverdict : ∀ b : Agent, authenticate hmac b m false ≠ .answerRoleConflict := by
        intro b
        unfold authenticate
        split
        · split <;> simp
        · split
          · simp
          · split <;> simp
        · simp
        · simp
      rcases resolveRoleConflict_cases (a := a) hmethod with
        ⟨heq, -⟩ | ⟨heq, -⟩ | ⟨answers, heq, hkeeps, hrequest⟩
      · rw [heq] at h
        cases h
      · rw [heq] at h
        dsimp only at h
        split at h
        · cases h
        · exact absurd h (hverdict _)
      · rw [heq] at h
        dsimp only at h
        split at h
        · cases h
        · cases answers with
          | true => exact ⟨heq, hrequest rfl, hkeeps⟩
          | false => exact absurd h (hverdict _)
  · rw [if_neg (fun h => hmethod h.1), if_pos hmethod] at h
    cases h

theorem not_meetsConflict_of_class (h : m.content.messageClass ≠ .request) :
    ¬ MeetsConflict hmac a m := by
  intro hmeets
  obtain hoverrules | hanswer := hmeets
  · exact not_overrules_of_class h hoverrules
  · exact h (of_answerRoleConflict hanswer).2.1

omit [DecidableEq Mac] in
theorem resolve_opposite {b : Agent} {id : TransactionId} {priority : UInt32}
    {useCandidate : Bool} {integrity : Option Mac} (h : a.isControlling = !b.isControlling) :
    resolveRoleConflict b ⟨checkContent a id priority useCandidate, integrity⟩ =
      some (b, false) := by
  cases hb : b.isControlling <;> simp [resolveRoleConflict, checkContent, h, hb]

/-- A check says the role of its sender, which the other side does not have. -/
theorem not_meetsConflict_of_opposite {b : Agent} {id : TransactionId} {priority : UInt32}
    {useCandidate : Bool} {integrity : Option Mac} (h : b.isControlling ≠ a.isControlling) :
    ¬ MeetsConflict hmac b ⟨checkContent a id priority useCandidate, integrity⟩ := by
  have hrole : a.isControlling = !b.isControlling := Bool.eq_not.mpr h.symm
  have hresolve : resolveRoleConflict b ⟨checkContent a id priority useCandidate, integrity⟩ = _ :=
    resolve_opposite hrole
  intro hmeets
  obtain hoverrules | hanswer := hmeets
  · revert hoverrules
    cases hb : b.isControlling <;> simp [Overrules, checkContent, hrole, hb]
  · rw [(of_answerRoleConflict hanswer).1] at hresolve
    cases hresolve

/-- What is sent to the other side makes no role conflict by itself. -/
def Calm (hmac : String → Content → Mac) (a : Agent) (m : Message Mac) : Prop :=
  ∀ b : Agent, ¬ IsRoleConflict hmac b m ∧
    (b.isControlling ≠ a.isControlling → ¬ MeetsConflict hmac b m)

theorem calm_check (a : Agent) (id : TransactionId) (priority : UInt32) (useCandidate : Bool) :
    Calm hmac a (sign hmac a.ufragPwd.remotePwd (checkContent a id priority useCandidate)) := by
  intro b
  refine ⟨not_isRoleConflict_of_class ?_, not_meetsConflict_of_opposite⟩
  show MessageClass.request ≠ .errorResponse
  decide

theorem calm_sendBindingSuccess (a : Agent) (m : Message Mac) :
    Calm hmac a (sendBindingSuccess hmac a m) := by
  intro b
  refine ⟨not_isRoleConflict_of_class ?_, fun _ => not_meetsConflict_of_class ?_⟩
  · show MessageClass.successResponse ≠ .errorResponse
    decide
  · show MessageClass.successResponse ≠ .request
    decide

/-- Everything but a 487 is calm. -/
theorem calm_replies {verdict : Verdict} (hverdict : verdict ≠ .answerRoleConflict)
    {id : TransactionId} {priority : UInt32} {reply : Message Mac}
    (hreply : reply ∈ replies hmac a m verdict id priority) : Calm hmac a reply := by
  unfold replies at hreply
  split at hreply
  · exact absurd rfl hverdict
  · split at hreply
    · obtain rfl := List.mem_singleton.mp hreply
      exact calm_sendBindingSuccess a m
    · obtain rfl | hping := List.mem_cons.mp hreply
      · exact calm_sendBindingSuccess a m
      · obtain rfl := List.mem_singleton.mp hping
        exact calm_check a id priority false
  · cases hreply

/-- Whoever is told 487 by the other side switches. -/
theorem isRoleConflict_sendRoleConflict {b : Agent}
    (hpassword : b.ufragPwd.remotePwd = a.ufragPwd.localPwd) :
    IsRoleConflict hmac b (sendRoleConflict hmac a m) := by
  refine ⟨rfl, rfl, rfl, ?_⟩
  rw [hpassword]
  exact decide_eq_true rfl

/-! ## What the other side sends -/

section Paired

variable {a b : Agent} {id : TransactionId} {priority : UInt32}

theorem handleInbound_of_resolve {answers : Bool} (hmethod : m.content.method = .binding)
    (hclass : m.content.messageClass ≠ .errorResponse) (huse : m.content.useCandidate = false)
    (h : resolveRoleConflict a m = some (b, answers)) :
    handleInbound hmac a m = (b, authenticate hmac b m answers) := by
  rw [handleInbound, if_neg (fun h => hclass h.2), if_neg (not_not_intro hmethod), h]
  simp [huse]

/-- A check of the other side is answered, or answered 487. -/
theorem handleInbound_pingCandidate {c : Agent} {answers : Bool}
    (hpassword : a.ufragPwd.remotePwd = b.ufragPwd.localPwd)
    (hremote : a.ufragPwd.remoteUfrag = b.ufragPwd.localUfrag)
    (hlocal : b.ufragPwd.remoteUfrag = a.ufragPwd.localUfrag) (hc : c.ufragPwd = b.ufragPwd)
    (h : resolveRoleConflict b (pingCandidate hmac a id priority) = some (c, answers)) :
    handleInbound hmac b (pingCandidate hmac a id priority) =
      (c, if answers then .answerRoleConflict else .handleBindingRequest) := by
  have hclass : (pingCandidate hmac a id priority).content.messageClass ≠ .errorResponse := by
    show MessageClass.request ≠ .errorResponse
    decide
  rw [handleInbound_of_resolve rfl hclass rfl h]
  simp [authenticate, pingCandidate, sign, checkContent, isSigned, hc, hpassword, hremote, hlocal]

theorem handleInbound_sendBindingSuccess {m : Message Mac}
    (hpassword : b.ufragPwd.remotePwd = a.ufragPwd.localPwd) :
    handleInbound hmac b (sendBindingSuccess hmac a m) = (b, .handleSuccessResponse) := by
  have hclass : (sendBindingSuccess hmac a m).content.messageClass ≠ .errorResponse := by
    show MessageClass.successResponse ≠ .errorResponse
    decide
  have hresolve : resolveRoleConflict b (sendBindingSuccess hmac a m) = some (b, false) := by
    apply if_pos
    show MessageClass.successResponse ≠ .request
    decide
  rw [handleInbound_of_resolve rfl hclass rfl hresolve]
  simp [authenticate, sendBindingSuccess, sign, answerContent, isSigned, hpassword]

theorem handleInbound_sendRoleConflict {m : Message Mac}
    (hpassword : b.ufragPwd.remotePwd = a.ufragPwd.localPwd) :
    handleInbound hmac b (sendRoleConflict hmac a m) =
      (b.switchRole (!b.isControlling), .discard) := by
  have hbelieved : IsRoleConflict hmac b (sendRoleConflict hmac a m) :=
    isRoleConflict_sendRoleConflict hpassword
  refine Prod.ext ?_ rfl
  rw [handleInbound_fst, if_pos (.inl hbelieved)]

omit [DecidableEq Mac] in
/-- Both are controlling: the larger tie-breaker keeps the role. -/
theorem resolve_controlling {hmac : String → Content → Mac} (ha : a.isControlling = true)
    (hb : b.isControlling = true) (hne : a.tieBreaker ≠ b.tieBreaker) :
    resolveRoleConflict b (pingCandidate hmac a id priority) =
      if a.tieBreaker < b.tieBreaker then some (b, true) else some (b.switchRole false, false) := by
  simp [resolveRoleConflict, pingCandidate, sign, checkContent, ha, hb, hne]

omit [DecidableEq Mac] in
/-- Both are controlled: the larger tie-breaker takes the other role. -/
theorem resolve_controlled {hmac : String → Content → Mac} (ha : a.isControlling = false)
    (hb : b.isControlling = false) (hne : a.tieBreaker ≠ b.tieBreaker) :
    resolveRoleConflict b (pingCandidate hmac a id priority) =
      if a.tieBreaker < b.tieBreaker then some (b.switchRole true, false) else some (b, true) := by
  simp [resolveRoleConflict, pingCandidate, sign, checkContent, ha, hb, hne]

end Paired

end Inbound

end OpenMeet.BindingChecks
