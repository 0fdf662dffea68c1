import Mathlib.Algebra.Order.BigOperators.Group.List
import Mathlib.Algebra.Order.Group.Nat
import OpenMeet.SlidingWindow
import OpenMeet.TransitionSystem

/-!
Limiters that count their accepted calls in a sliding window. A limiter keeps
the times of the calls it has let through, prunes the old ones from the front
at every call and answers by the number that is left. On a clock that never
goes back the queue stands for all calls ever let through: no window holds more
of them than the limit. In a system whose effects all go through the limiter
the bound is one on the effects.
-/
namespace OpenMeet.RateLimiter

open SlidingWindow TransitionSystem

variable {Q : Type*} {allow : Q → ℕ → Bool × Q} {window limit : ℕ} {queue : Q → List ℕ}

/-- The calls let through, of calls made one after the other. -/
def accepted (allow : Q → ℕ → Bool × Q) : Q → List ℕ → List ℕ
  | _, [] => []
  | q, now :: rest =>
    (if (allow q now).1 then [now] else []) ++ accepted allow (allow q now).2 rest

/-- The limiter after the calls. -/
def after (allow : Q → ℕ → Bool × Q) (q : Q) (calls : List ℕ) : Q :=
  calls.foldl (fun q now => (allow q now).2) q

structure Limiter (allow : Q → ℕ → Bool × Q) (window limit : ℕ) (queue : Q → List ℕ) :
    Prop where
  positive : 0 < window
  answer : ∀ q now, (allow q now).1 = true ↔ (prune window now (queue q)).length < limit
  keeps : ∀ q now, queue (allow q now).2 =
    prune window now (queue q) ++ if (allow q now).1 then [now] else []

/-- The limiter that is nothing but its queue. -/
def slide (window limit : ℕ) (times : List ℕ) (now : ℕ) : Bool × List ℕ :=
  if limit ≤ (prune window now times).length then (false, prune window now times)
  else (true, prune window now times ++ [now])

theorem limiter_slide (hwindow : 0 < window) :
    Limiter (slide window limit) window limit id where
  positive := hwindow
  answer times now := by
    unfold slide
    split
    · rename_i hfull
      simpa using hfull
    · rename_i hroom
      simpa using hroom
  keeps times now := by
    unfold slide
    split <;> simp

/-- The queue stands for the past calls at every time from the clock on. -/
structure Tracks (window limit : ℕ) (times past : List ℕ) (clock : ℕ) : Prop where
  sorted : past.Pairwise (· ≤ ·)
  before : ∀ time ∈ past, time ≤ clock
  suffix : times <:+ past
  counts : ∀ now, clock ≤ now → recent window now times = recent window now past
  bounded : times.length ≤ limit
  windows : ∀ start, within window start past ≤ limit

theorem tracks_nil {clock : ℕ} : Tracks window limit [] [] clock := by
  constructor <;> simp [within]

theorem Tracks.mono {times past : List ℕ} {clock later : ℕ}
    (h : Tracks window limit times past clock) (hle : clock ≤ later) :
    Tracks window limit times past later where
  sorted := h.sorted
  before time hmem := (h.before time hmem).trans hle
  suffix := h.suffix
  counts now hnow := h.counts now (hle.trans hnow)
  bounded := h.bounded
  windows := h.windows

theorem Tracks.prune_eq {times past : List ℕ} {clock now : ℕ}
    (h : Tracks window limit times past clock) (hnow : clock ≤ now) :
    prune window now times = recent window now past := by
  have hsorted : times.Pairwise (· ≤ ·) := h.sorted.sublist h.suffix.sublist
  rw [prune_eq_recent hsorted, h.counts now hnow]

section Calls

variable (hlimiter : Limiter allow window limit queue) {q : Q} {past : List ℕ} {clock : ℕ}

include hlimiter

/-- A call is let through when fewer than the limit of the past ones are recent. -/
theorem Limiter.answer_iff (h : Tracks window limit (queue q) past clock) {now : ℕ}
    (hnow : clock ≤ now) :
    (allow q now).1 = true ↔ (recent window now past).length < limit := by
  rw [hlimiter.answer, h.prune_eq hnow]

theorem Limiter.tracks_call (h : Tracks window limit (queue q) past clock) {now : ℕ}
    (hnow : clock ≤ now) :
    Tracks window limit (queue (allow q now).2)
      (past ++ if (allow q now).1 then [now] else []) now := by
  have hpruned := h.prune_eq hnow
  have hbefore : ∀ time ∈ past, time ≤ now := (h.mono hnow).before
  have hsuffix : prune window now (queue q) <:+ past :=
    (List.dropWhile_suffix _).trans h.suffix
  have hlater : ∀ later, now ≤ later →
      recent window later (prune window now (queue q)) = recent window later past := by
    intro later hle
    rw [hpruned, recent_recent hle]
  rw [hlimiter.keeps]
  by_cases hanswer : (allow q now).1 = true
  · have hfew := (hlimiter.answer_iff h hnow).mp hanswer
    simp only [hanswer, if_true]
    constructor
    · exact sorted_concat h.sorted hbefore
    · intro time htime
      rcases List.mem_append.mp htime with hpast | hlast
      · exact hbefore time hpast
      · exact (List.mem_singleton.mp hlast).le
    · obtain ⟨forgotten, hforgotten⟩ := hsuffix
      exact ⟨forgotten, by rw [← hforgotten, List.append_assoc]⟩
    · intro later hle
      rw [recent_append, recent_append, hlater later hle]
    · rw [hpruned, List.length_append, List.length_singleton]
      omega
    · intro start
      by_cases hin : start ≤ now ∧ now < start + window
      · have hle := within_le_recent hbefore hin.2
        have hone : within window start [now] ≤ 1 := List.countP_le_length
        have hsum : within window start (past ++ [now]) =
            within window start past + within window start [now] := List.countP_append ..
        omega
      · rw [within_concat_of_not hin]
        exact h.windows start
  · simp only [hanswer, Bool.false_eq_true, if_false, List.append_nil]
    constructor
    · exact h.sorted
    · exact hbefore
    · exact hsuffix
    · exact hlater
    · exact (List.dropWhile_sublist _).length_le.trans h.bounded
    · exact h.windows

/-- Calls on a clock that does not go back. -/
theorem Limiter.tracks_calls {calls : List ℕ} (h : Tracks window limit (queue q) past clock)
    (hcalls : calls.Pairwise (· ≤ ·)) (hstart : ∀ now ∈ calls, clock ≤ now) {last : ℕ}
    (hclock : clock ≤ last) (hlast : ∀ now ∈ calls, now ≤ last) :
    Tracks window limit (queue (after allow q calls)) (past ++ accepted allow q calls) last := by
  induction calls generalizing q past clock with
  | nil => simpa [after, accepted] using h.mono hclock
  | cons now rest ih =>
    obtain ⟨hfirst, hrest⟩ := List.pairwise_cons.mp hcalls
    have hcall := hlimiter.tracks_call h (hstart now List.mem_cons_self)
    have hafter := ih hcall hrest hfirst (hlast now List.mem_cons_self)
      (fun time hmem => hlast time (List.mem_cons_of_mem now hmem))
    rw [List.append_assoc] at hafter
    exact hafter

/-- Every call of a sequence is answered by the calls let through before it. -/
theorem Limiter.answers (hempty : queue q = []) {before : List ℕ} {now : ℕ}
    (hcalls : (before ++ [now]).Pairwise (· ≤ ·)) :
    ((allow (after allow q before) now).1 = true ↔
        (recent window now (accepted allow q before)).length < limit) ∧
      (queue (allow (after allow q before) now).2).length ≤ limit := by
  obtain ⟨hbefore, -, hnow⟩ := List.pairwise_append.mp hcalls
  have hstart : Tracks window limit (queue q) [] 0 := by
    rw [hempty]
    exact tracks_nil
  have hreached := hlimiter.tracks_calls hstart hbefore (fun _ _ => Nat.zero_le _)
    (Nat.zero_le now) (fun time hmem => hnow time hmem now List.mem_cons_self)
  rw [List.nil_append] at hreached
  exact ⟨hlimiter.answer_iff hreached le_rfl, (hlimiter.tracks_call hreached le_rfl).bounded⟩

/-- No window holds more calls let through than the limit. -/
theorem Limiter.within_accepted (hempty : queue q = []) {calls : List ℕ}
    (hcalls : calls.Pairwise (· ≤ ·)) (start : ℕ) :
    within window start (accepted allow q calls) ≤ limit := by
  have hstart : Tracks window limit (queue q) [] 0 := by
    rw [hempty]
    exact tracks_nil
  have hreached := hlimiter.tracks_calls hstart hcalls (fun _ _ => Nat.zero_le _)
    (Nat.zero_le calls.sum) (fun time hmem => List.le_sum_of_mem hmem)
  rw [List.nil_append] at hreached
  exact hreached.windows start

end Calls

/-! ## Systems that ask a limiter -/

section Systems

variable {State Action : Type*} {M : System State Action}

theorem accepted_append (q : Q) (first second : List ℕ) :
    accepted allow q (first ++ second) =
      accepted allow q first ++ accepted allow (after allow q first) second := by
  induction first generalizing q with
  | nil => rfl
  | cons now rest ih =>
    rw [List.cons_append, accepted, accepted, ih, List.append_assoc]
    rfl

/-- Where every step asks the limiter before it takes effect, a run's effects are among the
calls let through. -/
theorem effects_sublist (limiter : State → Q) {calls effects : State → Action → List ℕ}
    (hcalls : ∀ s a t, M.step s a = some t → limiter t = after allow (limiter s) (calls s a))
    (heffects : ∀ s a, (effects s a).Sublist (accepted allow (limiter s) (calls s a)))
    (s : State) (actions : List Action) :
    (M.outputs effects s actions).Sublist
      (accepted allow (limiter s) (M.outputs calls s actions)) := by
  induction actions generalizing s with
  | nil => exact List.Sublist.slnil
  | cons a rest ih =>
    rw [System.outputs, System.outputs, accepted_append]
    apply (heffects s a).append
    cases hstep : M.step s a with
    | none => exact List.Sublist.slnil
    | some t =>
      rw [← hcalls s a t hstep]
      exact ih t

/-- The calls of a run read the clock in the order of the actions. -/
theorem calls_sublist {calls : State → Action → List ℕ} {readings : Action → List ℕ}
    (hreadings : ∀ s a, (calls s a).Sublist (readings a)) (s : State) (actions : List Action) :
    (M.outputs calls s actions).Sublist (actions.flatMap readings) := by
  induction actions generalizing s with
  | nil => exact List.Sublist.slnil
  | cons a rest ih =>
    rw [System.outputs, List.flatMap_cons]
    apply (hreadings s a).append
    cases M.step s a with
    | none => exact List.nil_sublist _
    | some t => exact ih t

/-- The effects of a run stay within the limit in every window. -/
theorem Limiter.within_effects (hlimiter : Limiter allow window limit queue)
    (limiter : State → Q) {calls effects : State → Action → List ℕ}
    {readings : Action → List ℕ}
    (hcalls : ∀ s a t, M.step s a = some t → limiter t = after allow (limiter s) (calls s a))
    (heffects : ∀ s a, (effects s a).Sublist (accepted allow (limiter s) (calls s a)))
    (hreadings : ∀ s a, (calls s a).Sublist (readings a))
    {s : State} {actions : List Action} (hempty : queue (limiter s) = [])
    (hclock : (actions.flatMap readings).Pairwise (· ≤ ·)) (start : ℕ) :
    within window start (M.outputs effects s actions) ≤ limit := by
  have hsorted := hclock.sublist (calls_sublist (M := M) hreadings s actions)
  have heffect := effects_sublist limiter hcalls heffects s actions
  calc within window start (M.outputs effects s actions)
      ≤ within window start (accepted allow (limiter s) (M.outputs calls s actions)) :=
        heffect.countP_le
    _ ≤ limit := hlimiter.within_accepted hempty hsorted start

end Systems

end OpenMeet.RateLimiter
