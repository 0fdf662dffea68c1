import Mathlib.Data.List.Induction

/-!
Guarded executable transition systems. A step function answers none when an
action is disabled, so one definition serves replay, refutation and induction.
Always follows a property along every state of a run; Guarded follows a
condition on the state before each step. An invariant that needs the condition
is carried from Guarded to Always, and where one step keeps the property
exactly when the condition holds the two are equivalent on every run.
-/
namespace OpenMeet.TransitionSystem

structure System (State Action : Type*) where
  init : State
  step : State → Action → Option State

namespace System

variable {State Action : Type*} (M : System State Action)

/-- Replay actions from a state; none if one of them is disabled on the way. -/
def runFrom : State → List Action → Option State
  | s, [] => some s
  | s, a :: rest => (M.step s a).bind fun t => runFrom t rest

def run (actions : List Action) : Option State := M.runFrom M.init actions

/-- The property holds in the start state and in every state the run visits. -/
def Always (P : State → Prop) : State → List Action → Prop
  | s, [] => P s
  | s, a :: rest => P s ∧ ∀ t, M.step s a = some t → Always P t rest

/-- Every step the run takes starts in a state that meets the condition. -/
def Guarded (G : State → Action → Prop) : State → List Action → Prop
  | _, [] => True
  | s, a :: rest => G s a ∧ ∀ t, M.step s a = some t → Guarded G t rest

/-- What the steps of a run put out, one after the other. -/
def outputs {Output : Type*} (out : State → Action → List Output) :
    State → List Action → List Output
  | _, [] => []
  | s, a :: rest => out s a ++ (M.step s a).elim [] fun t => outputs out t rest

/-- The same system with the actions outside the given set switched off. -/
def restrict (allowed : Action → Bool) : System State Action where
  init := M.init
  step s a := if allowed a then M.step s a else none

instance decidableGuarded (G : State → Action → Prop) [∀ s a, Decidable (G s a)] :
    ∀ (s : State) (actions : List Action), Decidable (M.Guarded G s actions)
  | _, [] => isTrue trivial
  | s, a :: rest =>
    have : Decidable (∀ t, M.step s a = some t → M.Guarded G t rest) :=
      match h : M.step s a with
      | none => isTrue (by intro t ht; cases ht)
      | some t =>
        match decidableGuarded G t rest with
        | isTrue hg => isTrue (by intro u hu; cases hu; exact hg)
        | isFalse hg => isFalse (fun hall => hg (hall t rfl))
    inferInstanceAs (Decidable (G s a ∧ _))

variable {M}

theorem runFrom_append (s : State) (first second : List Action) :
    M.runFrom s (first ++ second) =
      (M.runFrom s first).bind fun t => M.runFrom t second := by
  induction first generalizing s with
  | nil => rfl
  | cons a rest ih =>
    simp only [List.cons_append, runFrom]
    cases M.step s a with
    | none => rfl
    | some t => exact ih t

/-- An unconditional invariant holds at the end of every run. -/
theorem invariant_runFrom {I : State → Prop}
    (hstep : ∀ s a t, I s → M.step s a = some t → I t)
    {s : State} {actions : List Action} {t : State}
    (hs : I s) (hrun : M.runFrom s actions = some t) : I t := by
  induction actions generalizing s with
  | nil =>
    cases hrun
    exact hs
  | cons a rest ih =>
    obtain ⟨u, hu, hrest⟩ := Option.bind_eq_some_iff.mp hrun
    exact ih (hstep s a u hs hu) hrest

theorem invariant_run {I : State → Prop} (hinit : I M.init)
    (hstep : ∀ s a t, I s → M.step s a = some t → I t)
    {actions : List Action} {t : State} (hrun : M.run actions = some t) : I t :=
  invariant_runFrom hstep hinit hrun

/-- An invariant that speaks of the actions taken so far. -/
theorem history_runFrom {H : List Action → State → Prop} {s : State} (hstart : H [] s)
    (hstep : ∀ past u a t, M.runFrom s past = some u → H past u → M.step u a = some t →
      H (past ++ [a]) t)
    {actions : List Action} {t : State} (hrun : M.runFrom s actions = some t) : H actions t := by
  induction actions using List.reverseRecOn generalizing t with
  | nil =>
    cases hrun
    exact hstart
  | append_singleton past a ih =>
    rw [runFrom_append] at hrun
    obtain ⟨u, hu, hlast⟩ := Option.bind_eq_some_iff.mp hrun
    obtain ⟨t', ht, hend⟩ := Option.bind_eq_some_iff.mp hlast
    cases hend
    exact hstep past u a t hu (ih hu) ht

/-- What no action of a run changes is the same at its end. -/
theorem unchanged_runFrom {Value : Type*} (observe : State → Value) {s t : State}
    {actions : List Action}
    (hkeep : ∀ a ∈ actions, ∀ s t, M.step s a = some t → observe t = observe s)
    (hrun : M.runFrom s actions = some t) : observe t = observe s := by
  induction actions generalizing s with
  | nil =>
    cases hrun
    rfl
  | cons a rest ih =>
    obtain ⟨u, hu, hrest⟩ := Option.bind_eq_some_iff.mp hrun
    have hfirst := hkeep a List.mem_cons_self s u hu
    exact (ih (fun b hb => hkeep b (List.mem_cons_of_mem a hb)) hrest).trans hfirst

/-- A run does to what is observed what its outputs do. -/
theorem observe_runFrom {Value Output : Type*} {observe : State → Value}
    {out : State → Action → List Output} {update : Value → Output → Value}
    (hstep : ∀ s a t, M.step s a = some t → observe t = (out s a).foldl update (observe s))
    {s : State} {actions : List Action} {t : State} (hrun : M.runFrom s actions = some t) :
    observe t = (M.outputs out s actions).foldl update (observe s) := by
  induction actions generalizing s with
  | nil =>
    cases hrun
    rfl
  | cons a rest ih =>
    obtain ⟨u, hu, hrest⟩ := Option.bind_eq_some_iff.mp hrun
    rw [ih hrest, hstep s a u hu, outputs, hu, Option.elim_some, List.foldl_append]

theorem mem_outputs_cons {Output : Type*} {out : State → Action → List Output} {s : State}
    {a : Action} {rest : List Action} {o : Output} (h : o ∈ M.outputs out s (a :: rest)) :
    o ∈ out s a ∨ ∃ t, M.step s a = some t ∧ o ∈ M.outputs out t rest := by
  rw [outputs, List.mem_append] at h
  rcases h with hnow | hlater
  · exact .inl hnow
  · cases ht : M.step s a with
    | none =>
      rw [ht] at hlater
      cases hlater
    | some t =>
      rw [ht] at hlater
      exact .inr ⟨t, rfl, hlater⟩

theorem outputs_append {Output : Type*} {out : State → Action → List Output} {s t : State}
    {first : List Action} (hrun : M.runFrom s first = some t) (second : List Action) :
    M.outputs out s (first ++ second) = M.outputs out s first ++ M.outputs out t second := by
  induction first generalizing s with
  | nil =>
    cases hrun
    rfl
  | cons a rest ih =>
    obtain ⟨u, hu, hrest⟩ := Option.bind_eq_some_iff.mp hrun
    rw [List.cons_append, outputs, outputs, hu, Option.elim_some, Option.elim_some, ih hrest,
      List.append_assoc]

/-- An invariant may speak of the actions and the outputs so far. -/
theorem outputs_runFrom {Output : Type*} {out : State → Action → List Output}
    {H : List Action → List Output → State → Prop} {s : State} (hstart : H [] [] s)
    (hstep : ∀ past log s a t, H past log s → M.step s a = some t →
      H (past ++ [a]) (log ++ out s a) t)
    {actions : List Action} {t : State} (hrun : M.runFrom s actions = some t) :
    H actions (M.outputs out s actions) t := by
  apply M.history_runFrom (H := fun past t => H past (M.outputs out s past) t) hstart ?_ hrun
  intro past u a t hpast hu ht
  have hlast : M.outputs out u [a] = out u a := by
    rw [outputs, ht, Option.elim_some, outputs, List.append_nil]
  rw [outputs_append hpast, hlast]
  exact hstep past _ u a t hu ht

/-- What an invariant says of each output holds of all of them. -/
theorem forall_mem_outputs {Output : Type*} {out : State → Action → List Output}
    {I : State → Prop} {P : Output → Prop} (hstep : ∀ s a t, I s → M.step s a = some t → I t)
    (hout : ∀ s a, I s → ∀ o ∈ out s a, P o) {s : State} (hs : I s) {actions : List Action}
    {o : Output} (ho : o ∈ M.outputs out s actions) : P o := by
  induction actions generalizing s with
  | nil => cases ho
  | cons a rest ih =>
    rcases mem_outputs_cons ho with hnow | ⟨t, ht, hlater⟩
    · exact hout s a hs o hnow
    · exact ih (hstep s a t hs ht) hlater

/-- Outputs are related to later ones by what holds from then on. -/
theorem pairwise_outputs {Output : Type*} {out : State → Action → List Output}
    {R : Output → Output → Prop} {Since : Output → State → Prop}
    (hself : ∀ s a, (out s a).Pairwise R)
    (hsince : ∀ s a t, M.step s a = some t → ∀ o ∈ out s a, Since o t)
    (hkeep : ∀ o s a t, Since o s → M.step s a = some t → Since o t)
    (hrelated : ∀ o s a, Since o s → ∀ later ∈ out s a, R o later)
    (s : State) (actions : List Action) : (M.outputs out s actions).Pairwise R := by
  induction actions generalizing s with
  | nil => exact List.Pairwise.nil
  | cons a rest ih =>
    rw [outputs, List.pairwise_append]
    refine ⟨hself s a, ?_, ?_⟩
    · cases M.step s a with
      | none => exact List.Pairwise.nil
      | some t => exact ih t
    · intro o ho later hlater
      cases ht : M.step s a with
      | none =>
        rw [ht] at hlater
        cases hlater
      | some t =>
        rw [ht] at hlater
        exact forall_mem_outputs (hkeep o) (hrelated o) (hsince s a t ht o ho) hlater

theorem Always.start {P : State → Prop} {s : State} {actions : List Action}
    (h : M.Always P s actions) : P s := by
  cases actions with
  | nil => exact h
  | cons a rest => exact h.1

/-- Always speaks about the last state of every prefix of the run. -/
theorem Always.runFrom {P : State → Prop} {s : State} {first second : List Action}
    (h : M.Always P s (first ++ second)) {t : State}
    (hrun : M.runFrom s first = some t) : P t := by
  induction first generalizing s with
  | nil =>
    cases hrun
    exact h.start
  | cons a rest ih =>
    obtain ⟨u, hu, hrest⟩ := Option.bind_eq_some_iff.mp hrun
    exact ih (h.2 u hu) hrest

/-- A run that goes through and whose last state passes the test. -/
theorem exists_run_of_any (M : System State Action) (s : State) (actions : List Action)
    (test : State → Bool) (hrun : (M.runFrom s actions).any test = true) :
    ∃ t, M.runFrom s actions = some t ∧ test t = true :=
  Option.any_eq_true .. |>.mp hrun

/-- A run whose last state fails the property refutes it. -/
theorem not_always_of_run {P : State → Prop} {s : State} {actions : List Action}
    (fails : State → Bool) (hrun : (M.runFrom s actions).any fails = true)
    (hfails : ∀ t, fails t = true → ¬ P t) : ¬ M.Always P s actions := by
  obtain ⟨t, ht, hfail⟩ := M.exists_run_of_any s actions fails hrun
  intro halways
  rw [← List.append_nil actions] at halways
  exact hfails t hfail (halways.runFrom ht)

theorem always_mono {P Q : State → Prop} (hPQ : ∀ s, P s → Q s) {s : State}
    {actions : List Action} (h : M.Always P s actions) : M.Always Q s actions := by
  induction actions generalizing s with
  | nil => exact hPQ s h
  | cons a rest ih => exact ⟨hPQ s h.1, fun t ht => ih (h.2 t ht)⟩

theorem guarded_mono {G H : State → Action → Prop} (hGH : ∀ s a, G s a → H s a) {s : State}
    {actions : List Action} (h : M.Guarded G s actions) : M.Guarded H s actions := by
  induction actions generalizing s with
  | nil => trivial
  | cons a rest ih => exact ⟨hGH s a h.1, fun t ht => ih (h.2 t ht)⟩

/-- A condition may use what holds in every state of the run. -/
theorem guarded_of_always {P : State → Prop} {G H : State → Action → Prop}
    (hGH : ∀ s a, P s → G s a → H s a) {s : State} {actions : List Action}
    (hP : M.Always P s actions) (hG : M.Guarded G s actions) : M.Guarded H s actions := by
  induction actions generalizing s with
  | nil => trivial
  | cons a rest ih => exact ⟨hGH s a hP.1 hG.1, fun t ht => ih (hP.2 t ht) (hG.2 t ht)⟩

/-- What every action of the run keeps holds along it. -/
theorem always_of_kept {I : State → Prop} {s : State} {actions : List Action} (hs : I s)
    (hkeep : ∀ a ∈ actions, ∀ s t, I s → M.step s a = some t → I t) :
    M.Always I s actions := by
  induction actions generalizing s with
  | nil => exact hs
  | cons a rest ih =>
    refine ⟨hs, fun t ht => ih (hkeep a List.mem_cons_self s t hs ht) ?_⟩
    exact fun b hb => hkeep b (List.mem_cons_of_mem a hb)

theorem always_of_invariant {I : State → Prop}
    (hstep : ∀ s a t, I s → M.step s a = some t → I t)
    {s : State} (hs : I s) (actions : List Action) : M.Always I s actions :=
  always_of_kept hs fun a _ s t => hstep s a t

/-- An invariant whose preservation needs the condition holds along guarded runs. -/
theorem always_of_guarded {I : State → Prop} {G : State → Action → Prop}
    (hstep : ∀ s a t, I s → G s a → M.step s a = some t → I t)
    {s : State} (hs : I s) {actions : List Action}
    (hG : M.Guarded G s actions) : M.Always I s actions := by
  induction actions generalizing s with
  | nil => exact hs
  | cons a rest ih =>
    exact ⟨hs, fun t ht => ih (hstep s a t hs hG.1 ht) (hG.2 t ht)⟩

/-- A guarded run is guarded in each of its parts. -/
theorem guarded_append {G : State → Action → Prop} {s : State} {first second : List Action} :
    M.Guarded G s (first ++ second) ↔
      M.Guarded G s first ∧ ∀ t, M.runFrom s first = some t → M.Guarded G t second := by
  induction first generalizing s with
  | nil => simp [Guarded, runFrom]
  | cons a rest ih =>
    rw [List.cons_append, Guarded, Guarded, and_assoc]
    refine and_congr_right fun _ => ?_
    simp only [ih, runFrom, Option.bind_eq_some_iff]
    grind

/-- An invariant that speaks of the outputs so far, along a guarded run. -/
theorem outputs_of_guarded {Output : Type*} {out : State → Action → List Output}
    {H : List Output → State → Prop} {G : State → Action → Prop}
    (hstep : ∀ log s a t, H log s → G s a → M.step s a = some t → H (log ++ out s a) t)
    {log : List Output} {s t : State} (hs : H log s) {actions : List Action}
    (hG : M.Guarded G s actions) (hrun : M.runFrom s actions = some t) :
    H (log ++ M.outputs out s actions) t := by
  induction actions generalizing log s with
  | nil =>
    cases hrun
    rwa [outputs, List.append_nil]
  | cons a rest ih =>
    obtain ⟨u, hu, hrest⟩ := Option.bind_eq_some_iff.mp hrun
    have hnext := ih (hstep log s a u hs hG.1 hu) (hG.2 u hu) hrest
    rwa [outputs, hu, Option.elim_some, ← List.append_assoc]

/-- Where, under a background invariant, a step keeps the property exactly when
the condition held before it, the property holds along a run exactly when every
step of the run meets the condition. Disabled actions must satisfy it idly. -/
theorem always_iff_guarded {J P : State → Prop} {G : State → Action → Prop}
    (hJ : ∀ s a t, J s → P s → M.step s a = some t → J t)
    (hstep : ∀ s a t, J s → P s → M.step s a = some t → (P t ↔ G s a))
    (hidle : ∀ s a, M.step s a = none → G s a)
    {s : State} (hs : J s) (hP : P s) (actions : List Action) :
    M.Always P s actions ↔ M.Guarded G s actions := by
  induction actions generalizing s with
  | nil => exact ⟨fun _ => trivial, fun _ => hP⟩
  | cons a rest ih =>
    constructor
    · intro h
      refine ⟨?_, fun t ht => ?_⟩
      · cases ha : M.step s a with
        | none => exact hidle s a ha
        | some t => exact (hstep s a t hs hP ha).mp (h.2 t ha).start
      · have hPt : P t := (h.2 t ht).start
        exact (ih (hJ s a t hs hP ht) hPt).mp (h.2 t ht)
    · intro h
      refine ⟨hP, fun t ht => ?_⟩
      have hPt : P t := (hstep s a t hs hP ht).mpr h.1
      exact (ih (hJ s a t hs hP ht) hPt).mpr (h.2 t ht)

theorem restrict_step {allowed : Action → Bool} {s t : State} {a : Action}
    (h : (M.restrict allowed).step s a = some t) : allowed a = true ∧ M.step s a = some t := by
  cases ha : allowed a with
  | true => exact ⟨rfl, by simpa [restrict, ha] using h⟩
  | false => simp [restrict, ha] at h

end System

end OpenMeet.TransitionSystem
