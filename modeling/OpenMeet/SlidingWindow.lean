import Mathlib.Data.List.Count
import Mathlib.Order.Basic

/-!
Events counted in a sliding window. The times of past events are kept oldest
first, and those that have left the window are pruned from the front. On sorted
times pruning is filtering, so a list that is pruned now and then still has
every event that counts, and no window holds more events than counted at its
last one.
-/
namespace OpenMeet.SlidingWindow

variable (window : ℕ)

/-- The times that still count. -/
def recent (now : ℕ) (times : List ℕ) : List ℕ := times.filter fun time => now - time < window

/-- Drop the times that have left the window from the front. -/
def prune (now : ℕ) (times : List ℕ) : List ℕ :=
  times.dropWhile fun time => window ≤ now - time

/-- How many of the events fall into the window that starts here. -/
def within (start : ℕ) (times : List ℕ) : ℕ :=
  times.countP fun time => start ≤ time ∧ time < start + window

variable {window} {now later time start : ℕ} {times : List ℕ}

theorem recent_append (times others : List ℕ) :
    recent window now (times ++ others) = recent window now times ++ recent window now others :=
  List.filter_append ..

theorem recent_singleton (hwindow : 0 < window) : recent window now [now] = [now] := by
  apply List.filter_eq_self.mpr
  intro time htime
  rw [List.mem_singleton] at htime
  subst htime
  simpa using hwindow

/-- What still counts later counts now. -/
theorem recent_recent (h : now ≤ later) :
    recent window later (recent window now times) = recent window later times := by
  unfold recent
  rw [List.filter_filter]
  apply List.filter_congr
  intro time _
  rw [← Bool.decide_and]
  apply decide_eq_decide.mpr
  omega

theorem length_recent_le (h : now ≤ later) :
    (recent window later times).length ≤ (recent window now times).length := by
  rw [← recent_recent h]
  exact List.length_filter_le _ _

theorem prune_eq_recent (hsorted : times.Pairwise (· ≤ ·)) :
    prune window now times = recent window now times := by
  induction times with
  | nil => rfl
  | cons first rest ih =>
    obtain ⟨hfirst, hrest⟩ := List.pairwise_cons.mp hsorted
    by_cases hold : window ≤ now - first
    · have hprune : prune window now (first :: rest) = prune window now rest := by
        simp [prune, hold]
      have hrecent : recent window now (first :: rest) = recent window now rest := by
        simp [recent, hold]
      rw [hprune, hrecent]
      exact ih hrest
    · -- The first time still counts, and so does every later one.
      have hall : ∀ time ∈ first :: rest, now - time < window := by
        intro time htime
        rw [List.mem_cons] at htime
        rcases htime with rfl | htime
        · omega
        · have := hfirst time htime
          omega
      have hprune : prune window now (first :: rest) = first :: rest := by
        simp [prune, hold]
      rw [hprune, recent]
      exact (List.filter_eq_self.mpr fun time htime => by simpa using hall time htime).symm

theorem sorted_recent (hsorted : times.Pairwise (· ≤ ·)) :
    (recent window now times).Pairwise (· ≤ ·) :=
  hsorted.filter _

theorem sorted_concat (hsorted : times.Pairwise (· ≤ ·)) (hpast : ∀ time ∈ times, time ≤ now) :
    (times ++ [now]).Pairwise (· ≤ ·) := by
  rw [List.pairwise_append]
  refine ⟨hsorted, List.pairwise_singleton _ _, fun time htime last hlast => ?_⟩
  rw [List.mem_singleton] at hlast
  subst hlast
  exact hpast time htime

/-- A window that has not ended holds only events that still count. -/
theorem within_le_recent (hpast : ∀ time ∈ times, time ≤ now) (hopen : now < start + window) :
    within window start times ≤ (recent window now times).length := by
  unfold within recent
  rw [← List.countP_eq_length_filter]
  apply List.countP_mono_left
  intro time htime hin
  have hle := hpast time htime
  have hfrom : start ≤ time ∧ time < start + window := by simpa using hin
  simp only [decide_eq_true_eq]
  omega

/-- An event outside the window leaves its count as it was. -/
theorem within_concat_of_not (hout : ¬ (start ≤ time ∧ time < start + window)) :
    within window start (times ++ [time]) = within window start times := by
  unfold within
  rw [List.countP_append, List.countP_singleton]
  simp [hout]

end OpenMeet.SlidingWindow
