import OpenMeet.LockOrder

/-!
Two tasks that each wait for the lock the other holds. Such a pair comes about
in one step only: one of the two already waits, and the other asks for the lock
it holds. Where locks are taken exclusively the pair is a cycle.
-/
namespace OpenMeet.LockCrossing

open KeyedMap TransitionSystem LockOrder

variable {State Lock Task : Type}

/-- The task has asked for the lock and has not woken up with it. -/
def Waits (s : Machine State Lock Task) (id : Nat) (lock : Lock) : Prop :=
  ∃ code, s.threads.lookup id = some (.waiting lock code)

def Holds (s : Machine State Lock Task) (id : Nat) (lock : Lock) : Prop :=
  id ∈ (s.queues lock).holders

/-- In the step the task asks for the lock. -/
def Asks (s : Machine State Lock Task) (a : Action Task) (id : Nat) (lock : Lock) : Prop :=
  ∃ outcome mode next, a = .run id outcome ∧
    s.threads.lookup id = some (.running (.acquire lock mode next))

/-- The first task waits for the first lock, which the second holds, and the second for the second
lock, which the first holds. -/
structure Crossed (s : Machine State Lock Task) (lock lock' : Lock) (id other : Nat) : Prop where
  first_waits : Waits s id lock
  first_holds : Holds s id lock'
  second_waits : Waits s other lock'
  second_holds : Holds s other lock

/-- In the step a task asks for the first lock while it holds the second, and the task that holds
the first waits for the second. -/
structure Crosses (s : Machine State Lock Task) (a : Action Task) (lock lock' : Lock)
    (id other : Nat) : Prop where
  asks : Asks s a id lock
  holds : Holds s id lock'
  other_waits : Waits s other lock'
  other_holds : Holds s other lock

section Facts

variable {s t : Machine State Lock Task} {lock lock' : Lock} {id other : Nat}

theorem Waits.unique (h : Waits s id lock) (h' : Waits s id lock') : lock = lock' := by
  obtain ⟨code, hcode⟩ := h
  obtain ⟨code', hcode'⟩ := h'
  rw [hcode] at hcode'
  cases hcode'
  rfl

theorem Asks.not_waits {a : Action Task} (h : Asks s a id lock) : ¬ Waits s id lock' := by
  rintro ⟨code, hcode⟩
  obtain ⟨outcome, mode, next, -, hid⟩ := h
  rw [hcode] at hid
  cases hid

theorem Asks.unique {a : Action Task} (h : Asks s a id lock) (h' : Asks s a other lock') :
    id = other := by
  obtain ⟨outcome, mode, next, rfl, -⟩ := h
  obtain ⟨outcome', mode', next', heq, -⟩ := h'
  cases heq
  rfl

theorem waiting_of_insert_running {threads : Map Nat (Thread State Lock Task)}
    {code running : Program State Lock Task Unit}
    (h : (threads.insert other (.running running)).lookup id = some (.waiting lock code)) :
    threads.lookup id = some (.waiting lock code) := by
  by_cases hid : id = other
  · subst hid
    rw [AList.lookup_insert] at h
    cases h
  · rwa [AList.lookup_insert_ne hid] at h

theorem waiting_of_erase {threads : Map Nat (Thread State Lock Task)}
    {code : Program State Lock Task Unit}
    (h : (threads.erase other).lookup id = some (.waiting lock code)) :
    threads.lookup id = some (.waiting lock code) := by
  by_cases hid : id = other
  · subst hid
    rw [AList.lookup_erase] at h
    cases h
  · rwa [AList.lookup_erase_ne hid] at h

variable [DecidableEq Lock] {may : Finset Lock → Lock → Mode → Prop} {P : Tasks State Lock Task}

theorem holds_of_waits (hs : Tracked may s) (h : Waits s id lock)
    (hqueued : id ∈ (s.queues lock').ids) (hne : lock' ≠ lock) : Holds s id lock' := by
  obtain ⟨code, hcode⟩ := h
  obtain ⟨held, -, hrequested, hholds⟩ := hs.thread id _ hcode
  exact hholds lock' (Finset.mem_of_mem_insert_of_ne ((hrequested lock').mp hqueued) hne)

theorem holds_of_asks {a : Action Task} (hs : Tracked may s) (h : Asks s a id lock)
    (hqueued : id ∈ (s.queues lock').ids) : Holds s id lock' := by
  obtain ⟨outcome, mode, next, -, hid⟩ := h
  obtain ⟨held, -, hrequested, hholds⟩ := hs.thread id _ hid
  exact hholds lock' ((hrequested lock').mp hqueued)

/-! ## Steps -/

/-- A task comes to wait in no step but the one in which it asks. -/
theorem waits_step {a : Action Task} (h : step P s a = some t) (hwaits : Waits t id lock) :
    Waits s id lock ∨ Asks s a id lock := by
  obtain ⟨code, hid⟩ := hwaits
  cases a with
  | start task =>
    obtain ⟨-, heq⟩ := Option.ite_none_right_eq_some.mp h
    cases heq
    exact .inl ⟨code, waiting_of_insert_running hid⟩
  | run other outcome =>
    simp only [step] at h
    split at h
    · rename_i running hother
      cases h
      cases running with
      | done result => exact .inl ⟨code, waiting_of_erase hid⟩
      | acquire lock' mode next =>
        by_cases heq : id = other
        · subst heq
          rw [runProgram, Machine.setThread, AList.lookup_insert] at hid
          cases hid
          exact .inr ⟨outcome, mode, code, rfl, hother⟩
        · rw [runProgram, Machine.setThread, AList.lookup_insert_ne heq] at hid
          exact .inl ⟨code, hid⟩
      | release lock' next => exact .inl ⟨code, waiting_of_insert_running hid⟩
      | access write next => exact .inl ⟨code, waiting_of_insert_running hid⟩
      | choose next => exact .inl ⟨code, waiting_of_insert_running hid⟩
      | spawn task next =>
        exact .inl ⟨code, waiting_of_insert_running (waiting_of_insert_running hid)⟩
    · cases h
  | grant other =>
    simp only [step] at h
    split at h
    · obtain ⟨-, heq⟩ := Option.ite_none_right_eq_some.mp h
      cases heq
      exact .inl ⟨code, waiting_of_insert_running hid⟩
    · cases h
  | abort other =>
    obtain ⟨-, heq⟩ := Option.ite_none_right_eq_some.mp h
    cases heq
    exact .inl ⟨code, waiting_of_erase hid⟩

/-- A request is in a queue from the step on in which the task asks. -/
theorem queued_step {a : Action Task} (h : step P s a = some t)
    (hqueued : id ∈ (t.queues lock).ids) : id ∈ (s.queues lock).ids ∨ Asks s a id lock := by
  cases a with
  | start task =>
    obtain ⟨-, heq⟩ := Option.ite_none_right_eq_some.mp h
    cases heq
    exact .inl hqueued
  | run other outcome =>
    simp only [step] at h
    split at h
    · rename_i running hother
      cases h
      cases running with
      | done result => exact .inl hqueued
      | acquire lock' mode next =>
        by_cases heq : id = other
        · subst heq
          by_cases hlock : lock = lock'
          · exact .inr ⟨outcome, mode, next, rfl, hlock ▸ hother⟩
          · rw [runProgram, Machine.setThread, Machine.setQueue_of_ne hlock] at hqueued
            exact .inl hqueued
        · refine .inl (?_ : id ∈ (s.queues lock).ids)
          have hkeeps := (Function.forall_update_iff s.queues
            fun lock (q : Queue) => (s.queues lock).Keeps q id).mpr
            ⟨Queue.keeps_append (s.queues lock') mode heq, fun _ _ => .refl ..⟩
          exact (hkeeps lock).1.mp hqueued
      | release lock' next =>
        have hdropped : ∀ lock, id ∈ (Function.update s.queues lock'
            ((s.queues lock').drop other) lock).ids → id ∈ (s.queues lock).ids :=
          (Function.forall_update_iff s.queues
            fun lock (q : Queue) => id ∈ q.ids → id ∈ (s.queues lock).ids).mpr
            ⟨fun h => (Queue.mem_ids_drop.mp h).1, fun _ _ h => h⟩
        exact .inl (hdropped lock hqueued)
      | access write next => exact .inl hqueued
      | choose next => exact .inl hqueued
      | spawn task next => exact .inl hqueued
    · cases h
  | grant other =>
    simp only [step] at h
    split at h
    · obtain ⟨-, heq⟩ := Option.ite_none_right_eq_some.mp h
      cases heq
      exact .inl hqueued
    · cases h
  | abort other =>
    obtain ⟨-, heq⟩ := Option.ite_none_right_eq_some.mp h
    cases heq
    exact .inl (Queue.mem_ids_drop.mp hqueued).1

/-- What the task's request leaves: it waits, and the others wait and hold locks as before. -/
theorem asks_step {a : Action Task} (hasks : Asks s a id lock) (h : step P s a = some t) :
    Waits t id lock ∧ (∀ other lock', other ≠ id → Waits s other lock' → Waits t other lock') ∧
      ∀ other lock', Holds s other lock' → Holds t other lock' := by
  obtain ⟨outcome, mode, next, rfl, hid⟩ := hasks
  simp only [step, hid, runProgram, Option.some.injEq] at h
  subst h
  refine ⟨⟨next, AList.lookup_insert _⟩, fun other lock' hother => ?_, fun other lock' => ?_⟩
  · exact .imp fun code hcode => (AList.lookup_insert_ne hother).trans hcode
  · refine (Function.forall_update_iff s.queues fun lock (q : Queue) =>
      other ∈ (s.queues lock).holders → other ∈ q.holders).mpr ⟨?_, fun _ _ h => h⟩ lock'
    exact fun h => Queue.holders_append h _

/-- A pair comes about in a step if one of the two asks in it for the lock that completes it. -/
theorem crossed_step {a : Action Task} (hs : Tracked may s) (h : step P s a = some t)
    (hne : lock ≠ lock') (hcrossed : ¬ Crossed s lock lock' id other) :
    Crossed t lock lock' id other ↔
      Crosses s a lock lock' id other ∨ Crosses s a lock' lock other id := by
  constructor
  · intro ht
    have hother : other ∈ (s.queues lock).ids := by
      rcases queued_step h (Queue.mem_ids_of_mem_holders ht.second_holds) with hold | hasks
      · exact hold
      · exact absurd ((asks_step hasks h).1.unique ht.second_waits) hne
    have hid : id ∈ (s.queues lock').ids := by
      rcases queued_step h (Queue.mem_ids_of_mem_holders ht.first_holds) with hold | hasks
      · exact hold
      · exact absurd (ht.first_waits.unique (asks_step hasks h).1) hne
    rcases waits_step h ht.first_waits with hfirst | hfirst
    · have hfirst_holds := holds_of_waits hs hfirst hid hne.symm
      rcases waits_step h ht.second_waits with hsecond | hsecond
      · have hsecond_holds := holds_of_waits hs hsecond hother hne
        exact absurd ⟨hfirst, hfirst_holds, hsecond, hsecond_holds⟩ hcrossed
      · exact .inr ⟨hsecond, holds_of_asks hs hsecond hother, hfirst, hfirst_holds⟩
    · rcases waits_step h ht.second_waits with hsecond | hsecond
      · exact .inl ⟨hfirst, holds_of_asks hs hfirst hid, hsecond,
          holds_of_waits hs hsecond hother hne⟩
      · obtain rfl := hfirst.unique hsecond
        exact absurd (ht.first_waits.unique ht.second_waits) hne
  · rintro (hcross | hcross)
    · obtain ⟨hwaits, hothers, hholds⟩ := asks_step hcross.asks h
      have hdistinct : other ≠ id := fun heq => hcross.asks.not_waits (heq ▸ hcross.other_waits)
      exact ⟨hwaits, hholds _ _ hcross.holds, hothers _ _ hdistinct hcross.other_waits,
        hholds _ _ hcross.other_holds⟩
    · obtain ⟨hwaits, hothers, hholds⟩ := asks_step hcross.asks h
      have hdistinct : id ≠ other := fun heq => hcross.asks.not_waits (heq ▸ hcross.other_waits)
      exact ⟨hothers _ _ hdistinct hcross.other_waits, hholds _ _ hcross.other_holds, hwaits,
        hholds _ _ hcross.holds⟩

/-- In a step that is disabled no task asks. -/
theorem step_of_asks {a : Action Task} (hasks : Asks s a id lock) : ∃ t, step P s a = some t := by
  obtain ⟨outcome, mode, next, rfl, hid⟩ := hasks
  simp only [step, hid]
  exact ⟨_, rfl⟩

/-! ## Exclusive locks -/

section Exclusive

variable (hmay : ∀ held lock mode, may held lock mode → mode = .exclusive)

include hmay

theorem exclusive_queue (hs : Tracked may s) (lock : Lock) :
    ∀ request ∈ s.queues lock, request.2 = .exclusive := by
  intro request hrequest
  obtain ⟨held, hrequested⟩ := hs.mode lock request hrequest
  exact hmay held lock _ hrequested

theorem Holds.unique (hs : Tracked may s) (h : Holds s id lock) (hother : Holds s other lock) :
    other = id :=
  Queue.holders_unique (exclusive_queue hmay hs lock) h hother

/-- Who waits for a lock that another holds waits for that task. -/
theorem waitsFor_of_holds (hs : Tracked may s) (h : Waits s id lock) (hother : Holds s other lock)
    (hne : id ≠ other) : WaitsFor s id other := by
  obtain ⟨code, hcode⟩ := h
  obtain ⟨held, -, hrequested, -⟩ := hs.thread id _ hcode
  have hqueued := (hrequested lock).mpr (Finset.mem_insert_self ..)
  refine ⟨lock, ⟨⟨code, hcode⟩, Queue.mem_waiters hqueued fun hholds => hne ?_⟩, ?_⟩
  · exact Holds.unique hmay hs hother hholds
  · exact Queue.ahead_of_holder (exclusive_queue hmay hs lock) hother hqueued hne

theorem Crossed.not_noCycle (hs : Tracked may s) (hne : lock ≠ lock')
    (h : Crossed s lock lock' id other) : ¬ NoCycle s := by
  intro hcycle
  have hdistinct : id ≠ other := by
    rintro rfl
    exact hne (h.first_waits.unique h.second_waits)
  have hforth := waitsFor_of_holds hmay hs h.first_waits h.second_holds hdistinct
  have hback := waitsFor_of_holds hmay hs h.second_waits h.first_holds hdistinct.symm
  exact hcycle id (.head hforth (.single hback))

end Exclusive

end Facts

end OpenMeet.LockCrossing
