import OpenMeet.TransitionSystem

/-!
What a log of events says about the past: that something came up once, and that
it did and nothing put an end to it since. Such a fact is checked for one more
event at the end of the log, and along the runs of a system with a story that
each step continues.
-/
namespace OpenMeet.PastTime

open TransitionSystem

variable {Event : Type*}

/-- Something was started by an event, as the log stood then, and no later event ended it. -/
def Since (Begins : List Event → Event → Prop) (Ends : Event → Prop) (log : List Event) : Prop :=
  ∃ before e after, log = before ++ e :: after ∧ Begins before e ∧ ∀ later ∈ after, ¬ Ends later

/-- There is such an event, with what the log held before it. -/
def Once (Holds : List Event → Event → Prop) (log : List Event) : Prop :=
  ∃ before e after, log = before ++ e :: after ∧ Holds before e

/-- Every event of the log agrees with what the log held before it. -/
def Throughout (Agrees : List Event → Event → Prop) (log : List Event) : Prop :=
  ∀ before e after, log = before ++ e :: after → Agrees before e

variable {Begins Holds Agrees : List Event → Event → Prop} {Ends : Event → Prop}
  {log : List Event} {e : Event}

theorem since_concat (h : Begins log e) : Since Begins Ends (log ++ [e]) :=
  ⟨log, e, [], rfl, h, by simp⟩

theorem Since.append (h : Since Begins Ends log) {more : List Event}
    (hmore : ∀ later ∈ more, ¬ Ends later) : Since Begins Ends (log ++ more) := by
  obtain ⟨before, e, after, rfl, hbegins, hafter⟩ := h
  refine ⟨before, e, after ++ more, by simp, hbegins, ?_⟩
  intro later hlater
  rcases List.mem_append.mp hlater with hold | hnew
  · exact hafter later hold
  · exact hmore later hnew

theorem once_concat (h : Holds log e) : Once Holds (log ++ [e]) :=
  ⟨log, e, [], rfl, h⟩

theorem Once.append (h : Once Holds log) (more : List Event) : Once Holds (log ++ more) := by
  obtain ⟨before, e, after, rfl, hholds⟩ := h
  exact ⟨before, e, after ++ more, by simp, hholds⟩

theorem throughout_nil : Throughout Agrees [] := by
  intro before e after h
  simp at h

theorem Throughout.concat (h : Throughout Agrees log) (he : Agrees log e) :
    Throughout Agrees (log ++ [e]) := by
  intro before e' after hsplit
  rcases List.eq_nil_or_concat after with rfl | ⟨rest, last, rfl⟩
  · obtain ⟨rfl, hlast⟩ := List.append_inj' hsplit rfl
    cases hlast
    exact he
  · have hlast : log ++ [e] = (before ++ e' :: rest) ++ [last] := by
      rw [hsplit]
      simp
    obtain ⟨rfl, -⟩ := List.append_inj' hlast rfl
    exact h before e' rest rfl

/-- Along a run, each event agrees with the events before it where a story told so far agrees
with the next event and can be continued. -/
theorem throughout_outputs {State Action : Type*} {M : System State Action}
    {out : State → Action → Option Event} {Story : List Event → State → Prop}
    (hstep : ∀ log s a t, Story log s → M.step s a = some t →
      Story (log ++ (out s a).toList) t)
    (hagrees : ∀ log s a e, Story log s → out s a = some e → Agrees log e)
    {s : State} (hs : Story [] s) {actions : List Action} {t : State}
    (hrun : M.runFrom s actions = some t) :
    Throughout Agrees (M.outputs (fun s a => (out s a).toList) s actions) := by
  let emitted (s : State) (a : Action) : List Event := (out s a).toList
  have hall : Story (M.outputs emitted s actions) t ∧
      Throughout Agrees (M.outputs emitted s actions) := by
    apply System.outputs_runFrom (H := fun _ log s => Story log s ∧ Throughout Agrees log)
      ⟨hs, throughout_nil⟩ ?_ hrun
    rintro past log u a v ⟨hstory, hlog⟩ hv
    refine ⟨hstep log u a v hstory hv, ?_⟩
    show Throughout Agrees (log ++ (out u a).toList)
    cases ho : out u a with
    | none =>
      rw [Option.toList_none, List.append_nil]
      exact hlog
    | some e =>
      rw [Option.toList_some]
      exact hlog.concat (hagrees log u a e hstory ho)
  exact hall.2

end OpenMeet.PastTime
