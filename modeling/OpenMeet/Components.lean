import OpenMeet.KeyedMap
import OpenMeet.TransitionSystem

/-!
Components that read something they share and change only themselves. In a run
of all of them each one goes through a run of its own, in which the steps of the
others are left out, and it puts out the same there. So what holds of a component
alone holds of it among the others.
-/
namespace OpenMeet.Components

open KeyedMap TransitionSystem

/-- How what is shared changes, how a component starts and what steps it takes. -/
structure Design (Shared Part Event Act New : Type*) where
  shared : Shared → Event → Option Shared
  start : Shared → New → Part
  part : Shared → Part → Act → Option Part

structure Assembly (Key Shared Part : Type*) where
  shared : Shared
  parts : Map Key Part

inductive Action (Key Event Act New : Type*)
  | shared (event : Event)
  | join (key : Key) (new : New)
  | part (key : Key) (act : Act)
  deriving DecidableEq

variable {Key Shared Part Event Act New Output : Type*}

section Systems

variable [DecidableEq Key] (D : Design Shared Part Event Act New)

def step (s : Assembly Key Shared Part) :
    Action Key Event Act New → Option (Assembly Key Shared Part)
  | .shared event => (D.shared s.shared event).map fun shared => { s with shared := shared }
  | .join key new =>
    if key ∈ s.parts then none
    else some { s with parts := s.parts.insert key (D.start s.shared new) }
  | .part key act =>
    (s.parts.lookup key).bind fun part =>
      (D.part s.shared part act).map fun next => { s with parts := s.parts.insert key next }

def system (shared : Shared) :
    System (Assembly Key Shared Part) (Action Key Event Act New) := ⟨⟨shared, ∅⟩, step D⟩

/-- One component with what it shares. -/
def soloStep (s : Shared × Part) : Event ⊕ Act → Option (Shared × Part)
  | .inl event => (D.shared s.1 event).map fun shared => (shared, s.2)
  | .inr act => (D.part s.1 s.2 act).map fun part => (s.1, part)

def solo (origin : Shared × Part) : System (Shared × Part) (Event ⊕ Act) := ⟨origin, soloStep D⟩

end Systems

section Own

variable [DecidableEq Key] (key : Key)

/-- What an action is to one component, if anything. -/
def own : Action Key Event Act New → Option (Event ⊕ Act)
  | .shared event => some (.inl event)
  | .join _ _ => none
  | .part other act => if other = key then some (.inr act) else none

/-- What the steps of one component put out. -/
def outputsOf (out : Shared → Part → Act → List Output) (s : Assembly Key Shared Part) :
    Action Key Event Act New → List Output
  | .part other act =>
    if other = key then (s.parts.lookup key).elim [] fun part => out s.shared part act else []
  | _ => []

def soloOutputs (out : Shared → Part → Act → List Output) (s : Shared × Part) :
    Event ⊕ Act → List Output
  | .inl _ => []
  | .inr act => out s.1 s.2 act

end Own

section Runs

variable [DecidableEq Key] {D : Design Shared Part Event Act New} {shared : Shared}
  {s t : Assembly Key Shared Part} {a : Action Key Event Act New} {key : Key} {part : Part}

/-- A step of something else leaves a component and what it shares as they are. -/
theorem step_other (hstep : step D s a = some t) (hown : own key a = none)
    (hpart : s.parts.lookup key = some part) :
    t.shared = s.shared ∧ t.parts.lookup key = some part := by
  cases a with
  | shared event => cases hown
  | join other new =>
    obtain ⟨hnew, heq⟩ := Option.ite_none_left_eq_some.mp hstep
    cases heq
    refine ⟨rfl, ?_⟩
    have hne : key ≠ other := by
      intro hsame
      subst hsame
      exact hnew (AList.lookup_isSome.mp (Option.isSome_of_eq_some hpart))
    rw [AList.lookup_insert_ne hne]
    exact hpart
  | part other act =>
    obtain ⟨found, hfound, hnext⟩ := Option.bind_eq_some_iff.mp hstep
    obtain ⟨next, -, rfl⟩ := Option.map_eq_some_iff.mp hnext
    refine ⟨rfl, ?_⟩
    have hne : key ≠ other := by
      intro hsame
      rw [own, if_pos hsame.symm] at hown
      cases hown
    rw [AList.lookup_insert_ne hne]
    exact hpart

/-- A step of a component, or of what is shared, is one of the component alone. -/
theorem step_own {b : Event ⊕ Act} (hstep : step D s a = some t) (hown : own key a = some b)
    (hpart : s.parts.lookup key = some part) :
    ∃ next, soloStep D (s.shared, part) b = some (t.shared, next) ∧
      t.parts.lookup key = some next := by
  cases a with
  | shared event =>
    cases hown
    obtain ⟨next, hnext, rfl⟩ := Option.map_eq_some_iff.mp hstep
    exact ⟨part, Option.map_eq_some_iff.mpr ⟨next, hnext, rfl⟩, hpart⟩
  | join other new => cases hown
  | part other act =>
    obtain ⟨hsame, heq⟩ := Option.ite_none_right_eq_some.mp hown
    cases heq
    subst hsame
    obtain ⟨found, hfound, hnext⟩ := Option.bind_eq_some_iff.mp hstep
    obtain ⟨next, hact, rfl⟩ := Option.map_eq_some_iff.mp hnext
    obtain rfl := Option.some.inj (hpart.symm.trans hfound)
    exact ⟨next, Option.map_eq_some_iff.mpr ⟨next, hact, rfl⟩, AList.lookup_insert _⟩

variable {out : Shared → Part → Act → List Output}

theorem outputsOf_other (hown : own key a = none) : outputsOf key out s a = [] := by
  cases a with
  | shared event => rfl
  | join other new => rfl
  | part other act =>
    refine if_neg ?_
    intro hsame
    rw [own, if_pos hsame] at hown
    cases hown

theorem outputsOf_own {b : Event ⊕ Act} (hown : own key a = some b)
    (hpart : s.parts.lookup key = some part) :
    outputsOf key out s a = soloOutputs out (s.shared, part) b := by
  cases a with
  | shared event =>
    cases hown
    rfl
  | join other new => cases hown
  | part other act =>
    obtain ⟨hsame, heq⟩ := Option.ite_none_right_eq_some.mp hown
    cases heq
    subst hsame
    rw [outputsOf, if_pos rfl, hpart]
    rfl

/-- In a run of all components each goes through a run of its own. -/
theorem run_solo (origin : Shared × Part) {actions : List (Action Key Event Act New)}
    (hrun : (system D shared).runFrom s actions = some t)
    (hpart : s.parts.lookup key = some part) :
    ∃ next, (solo D origin).runFrom (s.shared, part) (actions.filterMap (own key)) =
        some (t.shared, next) ∧ t.parts.lookup key = some next := by
  induction actions generalizing s part with
  | nil =>
    cases hrun
    exact ⟨part, rfl, hpart⟩
  | cons a rest ih =>
    obtain ⟨u, hu, hrest⟩ := Option.bind_eq_some_iff.mp hrun
    rw [List.filterMap_cons]
    cases hown : own key a with
    | none =>
      obtain ⟨hshared, hkept⟩ := step_other hu hown hpart
      obtain ⟨next, hsolo, hnext⟩ := ih hrest hkept
      exact ⟨next, hshared ▸ hsolo, hnext⟩
    | some b =>
      obtain ⟨middle, hsolo, hmiddle⟩ := step_own hu hown hpart
      obtain ⟨next, hlater, hnext⟩ := ih hrest hmiddle
      exact ⟨next, Option.bind_eq_some_iff.mpr ⟨_, hsolo, hlater⟩, hnext⟩

theorem outputs_solo (origin : Shared × Part) (out : Shared → Part → Act → List Output)
    {actions : List (Action Key Event Act New)}
    (hrun : (system D shared).runFrom s actions = some t)
    (hpart : s.parts.lookup key = some part) :
    (system D shared).outputs (outputsOf key out) s actions =
      (solo D origin).outputs (soloOutputs out) (s.shared, part)
        (actions.filterMap (own key)) := by
  induction actions generalizing s part with
  | nil => rfl
  | cons a rest ih =>
    obtain ⟨u, hu, hrest⟩ := Option.bind_eq_some_iff.mp hrun
    rw [System.outputs, hu, Option.elim_some, List.filterMap_cons]
    cases hown : own key a with
    | none =>
      obtain ⟨hshared, hkept⟩ := step_other hu hown hpart
      rw [outputsOf_other hown, List.nil_append, ih hrest hkept, hshared]
    | some b =>
      obtain ⟨middle, hsolo, hmiddle⟩ := step_own hu hown hpart
      have hstep : (solo D origin).step (s.shared, part) b = some (u.shared, middle) := hsolo
      rw [outputsOf_own hown hpart, System.outputs, hstep, Option.elim_some, ih hrest hmiddle]

end Runs

end OpenMeet.Components
