import OpenMeet.LockCrossing

/-!
Tasks that take effect at one moment, the rest of their code only reading what
nobody changes before that, or dropping locks after it. What the tasks of a run
have done and answered is then what they do one after another, each on its own,
in the order of their moments.
-/
namespace OpenMeet.SerialOrder

open KeyedMap TransitionSystem LockOrder LockCrossing

/-! ## What a task may rely on -/

/-- What holds of the state all along, how each task may change it under the locks it holds, and
which tasks may run at the same time. -/
structure Contract (State Lock Task : Type) where
  invariant : State → Prop
  changes : Task → Finset Lock → State → State → Prop
  meets : Task → Task → Prop
  kept : ∀ task held s t, changes task held s t → invariant s → invariant t

section Atomic

variable {State Lock Task Result : Type} (C : Contract State Lock Task) (task : Task)
  (whole : Program State Lock Task Result)

/-- One change by a task that this one may meet, under locks this one does not hold. -/
def DisturbedOnce (held : Finset Lock) (s t : State) : Prop :=
  ∃ other held', C.meets task other ∧ Disjoint held held' ∧ C.changes other held' s t

def Disturbed (held : Finset Lock) : State → State → Prop :=
  Relation.ReflTransGen (DisturbedOnce C task held)

/-- What is left of the program drops locks, and then returns the result. -/
def Ends (result : Result) : Program State Lock Task Result → Prop
  | .done found => found = result
  | .release _ next => Ends result next
  | .acquire .. | .access .. | .choose _ | .spawn .. => False

/-- The effect of the whole program is that of the write, and the rest only returns its result. -/
def Decided (rest : Program State Lock Task Result) (s t : State) : Prop :=
  ∃ result, Ends result rest ∧ whole.Yields s result t

/-- Whatever others do, the rest of the program takes one access with which it does what the whole
program does on its own there, and writes nothing before and after. -/
def Atomic [DecidableEq Lock] :
    Finset Lock → Program State Lock Task Result → State → Prop
  | _, .done result, _ => ∀ t, whole.Yields t result t
  | held, .acquire lock _ next, s =>
    ∀ t, Disturbed C task held s t → Atomic (insert lock held) next t
  | held, .release lock next, s =>
    ∀ t, Disturbed C task held s t → Atomic (held.erase lock) next t
  | held, .access write next, s => ∀ t, Disturbed C task held s t →
    C.changes task held t (write t) ∧
      (Decided whole (next t) t (write t) ∨ write t = t ∧ Atomic held (next t) t)
  | held, .choose next, s => ∀ n t, Disturbed C task held s t → Atomic held (next n) t
  | _, .spawn .., _ => False

/-- What the rest of the program yields from now on, whatever others do, the whole yields too. -/
def Stands (held : Finset Lock) (rest : Program State Lock Task Result) (s : State) : Prop :=
  ∀ t, Disturbed C task held s t → ∀ result u, rest.Yields t result u → whole.Yields t result u

/-- The rest only returns a result that the whole program yields here, or takes effect later. -/
def Settles [DecidableEq Lock] (held : Finset Lock) (rest : Program State Lock Task Result)
    (s : State) : Prop :=
  Decided whole rest s s ∨ Atomic C task whole held rest s

end Atomic

section Rules

variable {State Lock Task Result : Type} {C : Contract State Lock Task} {task : Task}
  {whole p : Program State Lock Task Result} {held : Finset Lock} {s t u : State}

theorem Disturbed.refl : Disturbed C task held s s := Relation.ReflTransGen.refl

theorem Disturbed.trans (h : Disturbed C task held s t) (h' : Disturbed C task held t u) :
    Disturbed C task held s u :=
  Relation.ReflTransGen.trans h h'

theorem Disturbed.mono {held' : Finset Lock} (hsub : held ⊆ held')
    (h : Disturbed C task held' s t) : Disturbed C task held s t := by
  have honce : DisturbedOnce C task held' ≤ DisturbedOnce C task held := by
    rintro s t ⟨other, locks, hmeets, hdisjoint, hchanges⟩
    exact ⟨other, locks, hmeets, hdisjoint.mono_left hsub, hchanges⟩
  exact Relation.ReflTransGen.mono honce s t h

theorem Disturbed.invariant (h : Disturbed C task held s t) (hs : C.invariant s) :
    C.invariant t := by
  induction h with
  | refl => exact hs
  | tail _ honce ih =>
    obtain ⟨other, locks, -, -, hchanges⟩ := honce
    exact C.kept other locks _ _ hchanges ih

/-- What no other task may change under locks of its own stays as it is. -/
theorem Disturbed.keeps (Holds : State → Prop) (h : Disturbed C task held s t)
    (hkeep : ∀ other held' s t, C.meets task other → Disjoint held held' →
      C.changes other held' s t → Holds s → Holds t) (hs : Holds s) : Holds t := by
  induction h with
  | refl => exact hs
  | tail _ honce ih =>
    obtain ⟨other, locks, hmeets, hdisjoint, hchanges⟩ := honce
    exact hkeep other locks _ _ hmeets hdisjoint hchanges ih

theorem Stands.start : Stands C task whole held whole s := fun _ _ _ _ h => h

theorem Stands.later (h : Stands C task whole held p s) (hlater : Disturbed C task held s t) :
    Stands C task whole held p t :=
  fun u hu => h u (hlater.trans hu)

theorem Stands.imp {q : Program State Lock Task Result} (h : Stands C task whole held p s)
    (himp : ∀ t, Disturbed C task held s t →
      ∀ result u, q.Yields t result u → p.Yields t result u) :
    Stands C task whole held q s :=
  fun t ht result u hyields => h t ht result u (himp t ht result u hyields)

/-- What has been read is read again later. -/
theorem Stands.read {α : Type} {f : State → α} {next : α → Program State Lock Task Result}
    (h : Stands C task whole held (Program.read f >>= next) s)
    (hstable : ∀ t, Disturbed C task held s t → f t = f s) :
    Stands C task whole held (next (f s)) s := by
  intro t ht result u hyields
  refine h t ht result u
    (Program.yields_bind.mpr ⟨f t, t, Program.yields_access.mpr ⟨rfl, rfl⟩, ?_⟩)
  rw [hstable t ht]
  exact hyields

variable [DecidableEq Lock]

theorem Atomic.later (h : Atomic C task whole held p s) (hlater : Disturbed C task held s t) :
    Atomic C task whole held p t := by
  cases p with
  | done result => exact h
  | acquire lock mode next => exact fun u hu => h u (hlater.trans hu)
  | release lock next => exact fun u hu => h u (hlater.trans hu)
  | access write next => exact fun u hu => h u (hlater.trans hu)
  | choose next => exact fun n u hu => h n u (hlater.trans hu)
  | spawn task next => exact h

omit [DecidableEq Lock] in
theorem Ends.bind_release {result : Result} (h : Ends result p) (lock : Lock) :
    Ends result (p >>= fun result => .release lock (.done result)) := by
  induction p with
  | done found => exact h
  | release lock next ih => exact ih h
  | acquire => exact h
  | access => exact h
  | choose => exact h
  | spawn => exact h

theorem Atomic.bind_release (h : Atomic C task whole held p s) (lock : Lock) :
    Atomic C task whole held (p >>= fun result => .release lock (.done result)) s := by
  induction p generalizing held s with
  | done result => exact fun t _ u => h u
  | acquire lock mode next ih => exact fun t ht => ih (h t ht)
  | release lock next ih => exact fun t ht => ih (h t ht)
  | access write next ih =>
    intro t ht
    obtain ⟨hchanges, ⟨result, hends, hyields⟩ | ⟨hwrite, hnext⟩⟩ := h t ht
    · exact ⟨hchanges, .inl ⟨result, hends.bind_release lock, hyields⟩⟩
    · exact ⟨hchanges, .inr ⟨hwrite, ih t hnext⟩⟩
  | choose next ih => exact fun n t ht => ih n (h n t ht)
  | spawn => exact h

theorem Atomic.withLock {lock : Lock} {mode : Mode}
    (h : ∀ t, Disturbed C task held s t → Atomic C task whole (insert lock held) p t) :
    Atomic C task whole held (.withLock lock mode p) s :=
  fun t ht => (h t ht).bind_release lock

theorem Atomic.read {α : Type} {f : State → α} {next : α → Program State Lock Task Result}
    (hsame : ∀ t, C.changes task held t t)
    (h : ∀ t, Disturbed C task held s t → Settles C task whole held (next (f t)) t) :
    Atomic C task whole held (Program.read f >>= next) s := by
  intro t ht
  refine ⟨hsame t, ?_⟩
  rcases h t ht with hdecided | hatomic
  · exact .inl hdecided
  · exact .inr ⟨rfl, hatomic⟩

/-- The one write of the program. -/
theorem Atomic.write {f : State → State} {result : Result}
    (hstands : Stands C task whole held (.access f fun _ => .done result) s)
    (hchanges : ∀ t, Disturbed C task held s t → C.changes task held t (f t)) :
    Atomic C task whole held (.access f fun _ => .done result) s := by
  intro t ht
  refine ⟨hchanges t ht, .inl ⟨result, rfl, hstands t ht result (f t) ?_⟩⟩
  exact Program.yields_access.mpr ⟨rfl, rfl⟩

end Rules

/-! ## Runs -/

section Runs

variable {State Lock Task Result : Type}

/-- The program with its answer at the end, which comes after those given so far. -/
def answering (task : Task) :
    Program State Lock Task Result → Program (State × List (Task × Result)) Lock Task Unit
  | .done result => .access (fun s => (s.1, s.2 ++ [(task, result)])) fun _ => .done ()
  | .acquire lock mode next => .acquire lock mode (answering task next)
  | .release lock next => .release lock (answering task next)
  | .access write next => .access (fun s => (write s.1, s.2)) fun s => answering task (next s.1)
  | .choose next => .choose fun n => answering task (next n)
  | .spawn other next => .spawn other (answering task next)

variable (request : Task → Program State Lock Task Result)

def answeringTasks : Tasks (State × List (Task × Result)) Lock Task where
  body task := answering task (request task)
  external _ := true

def startedTask : Action Task → Option Task
  | .start task => some task
  | .run .. | .grant _ | .abort _ => none

def startedBy (actions : List (Action Task)) : List Task := actions.filterMap startedTask

/-- The tasks one after another, nobody else taking a step meanwhile, and what each of them
answers. -/
inductive OneByOne (start : State) : List (Task × Result) → State → Prop
  | nil : OneByOne start [] start
  | snoc {history : List (Task × Result)} {s t : State} {task : Task} {result : Result}
      (h : OneByOne start history s) (hyields : (request task).Yields s result t) :
      OneByOne start (history ++ [(task, result)]) t

/-- The state and the answers given are those of the tasks in the history one after another, and all
tasks in it have been started. -/
structure Explains (start : State) (actions : List (Action Task))
    (s : Machine (State × List (Task × Result)) Lock Task) (history : List (Task × Result)) :
    Prop where
  serial : OneByOne request start history s.shared.1
  answered : s.shared.2.Subperm history
  started : (history.map (·.1)).Subperm (startedBy actions)

/-- The history names the threads, and so does the list of those that have answered. -/
structure Ledger (start : State) (tasks : List Task) (shared : State × List (Task × Result))
    (history answered : List (Nat × Task × Result)) : Prop where
  serial : OneByOne request start (history.map (·.2)) shared.1
  answers : shared.2 = answered.map (·.2)
  nodup : (history.map (·.1)).Nodup
  answered_nodup : (answered.map (·.1)).Nodup
  answered_subset : answered ⊆ history
  task : ∀ entry ∈ history, tasks[entry.1]? = some entry.2.1

variable (C : Contract State Lock Task) [DecidableEq Lock]

/-- How far a thread has come: before its effect, after it, and after its answer. -/
inductive Stage (history answered : List (Nat × Task × Result)) (s : State) (id : Nat)
    (task : Task) (held : Finset Lock) : Thread (State × List (Task × Result)) Lock Task → Prop
  | waits {lock : Lock} {p : Program State Lock Task Result} (hnew : lock ∉ held)
      (hid : id ∉ history.map (·.1))
      (h : ∀ t, Disturbed C task held s t →
        Atomic C task (request task) (insert lock held) p t) :
      Stage history answered s id task held (.waiting lock (answering task p))
  | pending {p : Program State Lock Task Result} (hid : id ∉ history.map (·.1))
      (h : Atomic C task (request task) held p s) :
      Stage history answered s id task held (.running (answering task p))
  | decided {p : Program State Lock Task Result} {result : Result}
      (hid : id ∉ answered.map (·.1)) (hmem : (id, task, result) ∈ history)
      (hends : Ends result p) :
      Stage history answered s id task held (.running (answering task p))
  | finished : Stage history answered s id task held (.running (.done ()))

/-- The thread runs its task with the locks it has, and has come to some stage. -/
def Fits (tasks : List Task) (history answered : List (Nat × Task × Result)) (s : State)
    (queues : Lock → Queue) (id : Nat) (thread : Thread (State × List (Task × Result)) Lock Task) :
    Prop :=
  ∃ task held, tasks[id]? = some task ∧
    (∀ lock, id ∈ (queues lock).ids ↔ lock ∈ requested held thread) ∧
    Stage request C history answered s id task held thread

structure Explained (start : State) (tasks : List Task)
    (s : Machine (State × List (Task × Result)) Lock Task)
    (history answered : List (Nat × Task × Result)) : Prop where
  ledger : Ledger request start tasks s.shared history answered
  invariant : C.invariant s.shared.1
  length : s.nextId = tasks.length
  thread : ∀ id thread, s.threads.lookup id = some thread →
    Fits request C tasks history answered s.shared.1 s.queues id thread

end Runs

section Ledger

variable {State Lock Task Result : Type} {request : Task → Program State Lock Task Result}
  {start : State} {tasks : List Task} {shared : State × List (Task × Result)}
  {history answered : List (Nat × Task × Result)} {id : Nat} {task : Task} {result : Result}

theorem Ledger.id_lt (h : Ledger request start tasks shared history answered)
    (hid : id ∈ history.map (·.1)) : id < tasks.length := by
  obtain ⟨entry, hentry, rfl⟩ := List.mem_map.mp hid
  exact (List.getElem?_eq_some_iff.mp (h.task entry hentry)).1

theorem Ledger.notMem_answered (h : Ledger request start tasks shared history answered)
    (hid : id ∉ history.map (·.1)) : id ∉ answered.map (·.1) :=
  fun hmem => hid (List.map_subset _ h.answered_subset hmem)

/-- A task takes effect. -/
theorem Ledger.decide (h : Ledger request start tasks shared history answered)
    (hid : id ∉ history.map (·.1)) (htask : tasks[id]? = some task) {t : State}
    (hyields : (request task).Yields shared.1 result t) :
    Ledger request start tasks (t, shared.2) (history ++ [(id, task, result)]) answered where
  serial := by
    rw [List.map_append]
    exact .snoc h.serial hyields
  answers := h.answers
  nodup := by
    rw [List.map_append]
    refine List.nodup_append.mpr ⟨h.nodup, List.nodup_singleton id, ?_⟩
    intro other hother last hlast heq
    obtain rfl := List.mem_singleton.mp hlast
    exact hid (heq ▸ hother)
  answered_nodup := h.answered_nodup
  answered_subset := fun entry hentry => List.mem_append_left _ (h.answered_subset hentry)
  task entry hentry := by
    rcases List.mem_append.mp hentry with hold | hlast
    · exact h.task entry hold
    · obtain rfl := List.mem_singleton.mp hlast
      exact htask

/-- A task that has taken effect answers. -/
theorem Ledger.answer (h : Ledger request start tasks shared history answered)
    (hid : id ∉ answered.map (·.1)) (hmem : (id, task, result) ∈ history) :
    Ledger request start tasks (shared.1, shared.2 ++ [(task, result)]) history
      (answered ++ [(id, task, result)]) where
  serial := h.serial
  answers := by
    show shared.2 ++ _ = _
    rw [h.answers, List.map_append]
    rfl
  nodup := h.nodup
  answered_nodup := by
    rw [List.map_append]
    refine List.nodup_append.mpr ⟨h.answered_nodup, List.nodup_singleton id, ?_⟩
    intro other hother last hlast heq
    obtain rfl := List.mem_singleton.mp hlast
    exact hid (heq ▸ hother)
  answered_subset := by
    refine List.append_subset.mpr ⟨h.answered_subset, fun entry hentry => ?_⟩
    obtain rfl := List.mem_singleton.mp hentry
    exact hmem
  task := h.task

theorem Ledger.grow (h : Ledger request start tasks shared history answered) (task : Task) :
    Ledger request start (tasks ++ [task]) shared history answered where
  serial := h.serial
  answers := h.answers
  nodup := h.nodup
  answered_nodup := h.answered_nodup
  answered_subset := h.answered_subset
  task entry hentry := by
    have hlt := h.id_lt (List.mem_map_of_mem hentry)
    rw [List.getElem?_append_left hlt]
    exact h.task entry hentry

theorem subperm_filterMap {Item Value : Type} {items items' : List Item}
    (h : items.Subperm items') (f : Item → Option Value) :
    (items.filterMap f).Subperm (items'.filterMap f) := by
  obtain ⟨middle, hperm, hsub⟩ := h
  exact ⟨middle.filterMap f, hperm.filterMap f, hsub.filterMap f⟩

theorem subperm_map {Item Value : Type} {items items' : List Item} (h : items.Subperm items')
    (f : Item → Value) : (items.map f).Subperm (items'.map f) := by
  have hsubperm := subperm_filterMap h (some ∘ f)
  rwa [List.filterMap_eq_map] at hsubperm

theorem filterMap_range {Item : Type} (items : List Item) :
    (List.range items.length).filterMap (items[·]?) = items := by
  induction items with
  | nil => rfl
  | cons item rest ih =>
    rw [List.length_cons, List.range_succ_eq_map, List.filterMap_cons, List.filterMap_map]
    exact congrArg (item :: ·) ih

theorem Ledger.explains (h : Ledger request start tasks shared history answered)
    {actions : List (Action Task)} (htasks : startedBy actions = tasks)
    {s : Machine (State × List (Task × Result)) Lock Task} (hs : s.shared = shared) :
    Explains request start actions s (history.map (·.2)) where
  serial := hs ▸ h.serial
  answered := by
    rw [hs, h.answers]
    exact subperm_map (List.subperm_of_subset h.answered_nodup.of_map h.answered_subset) _
  started := by
    have hids : (history.map (·.1)).Subperm (List.range tasks.length) := by
      refine List.subperm_of_subset h.nodup fun id hid => List.mem_range.mpr (h.id_lt hid)
    have hhistory : (history.map (·.2)).map (·.1) = (history.map (·.1)).filterMap (tasks[·]?) := by
      rw [List.map_map, List.filterMap_map]
      refine (List.filterMap_eq_map_iff_forall_eq_some.mpr fun entry hentry => ?_).symm
      exact h.task entry hentry
    have hsubperm := subperm_filterMap hids (tasks[·]?)
    rwa [filterMap_range, ← hhistory, ← htasks] at hsubperm

end Ledger

/-! ## Steps -/

section Steps

variable {State Lock Task Result : Type} [DecidableEq Lock]
  {request : Task → Program State Lock Task Result} {C : Contract State Lock Task} {start : State}
  {tasks : List Task} {s : Machine (State × List (Task × Result)) Lock Task}
  {history answered : List (Nat × Task × Result)} {may : Finset Lock → Lock → Mode → Prop}

/-- Any two tasks of the list may run at the same time. -/
def AllMeet (C : Contract State Lock Task) (tasks : List Task) : Prop :=
  ∀ (id other : Nat) (task task' : Task), other ≠ id → tasks[id]? = some task →
    tasks[other]? = some task' → C.meets task' task

omit [DecidableEq Lock] in
theorem AllMeet.before {later : List Task} (h : AllMeet C (tasks ++ later)) : AllMeet C tasks := by
  have hold : ∀ (id : Nat) (task : Task), tasks[id]? = some task →
      (tasks ++ later)[id]? = some task := by
    intro id task htask
    obtain ⟨hlt, -⟩ := List.getElem?_eq_some_iff.mp htask
    exact (List.getElem?_append_left hlt).trans htask
  intro id other task task' hne htask htask'
  exact h id other task task' hne (hold id task htask) (hold other task' htask')

omit [DecidableEq Lock] in
theorem allMeet_of_pairwise (h : tasks.Pairwise C.meets)
    (hsymm : ∀ task other, C.meets task other → C.meets other task) : AllMeet C tasks := by
  intro id other task task' hne htask htask'
  obtain ⟨hid, rfl⟩ := List.getElem?_eq_some_iff.mp htask
  obtain ⟨hother, rfl⟩ := List.getElem?_eq_some_iff.mp htask'
  rcases Nat.lt_or_gt_of_ne hne with hlt | hlt
  · exact List.pairwise_iff_getElem.mp h other id hother hid hlt
  · exact hsymm _ _ (List.pairwise_iff_getElem.mp h id other hid hother hlt)

theorem Stage.mono {more more' : List (Nat × Task × Result)} {u v : State} {id : Nat} {task : Task}
    {held : Finset Lock} {thread : Thread (State × List (Task × Result)) Lock Task}
    (h : Stage request C history answered u id task held thread)
    (hid : id ∉ more.map (·.1)) (hid' : id ∉ more'.map (·.1)) (hlater : Disturbed C task held u v) :
    Stage request C (history ++ more) (answered ++ more') v id task held thread := by
  have hnew : id ∉ history.map (·.1) → id ∉ (history ++ more).map (·.1) := by
    intro hold
    rw [List.map_append]
    exact fun hmem => (List.mem_append.mp hmem).elim hold hid
  cases h with
  | waits hlock hhistory h => exact .waits hlock (hnew hhistory) fun t ht => h t (hlater.trans ht)
  | pending hhistory h => exact .pending (hnew hhistory) (h.later hlater)
  | decided hanswered hmem hends =>
    refine .decided ?_ (List.mem_append_left _ hmem) hends
    rw [List.map_append]
    exact fun hmem => (List.mem_append.mp hmem).elim hanswered hid'
  | finished => exact .finished

/-- The locks a thread has are those of its requests, but for the one it waits for. -/
theorem held_unique {held held' : Finset Lock} {id : Nat} {queues : Lock → Queue}
    {thread : Thread (State × List (Task × Result)) Lock Task}
    (h : Stage request C history answered s.shared.1 id task held thread)
    (h' : ObeysThread may held' thread)
    (hheld : ∀ lock, id ∈ (queues lock).ids ↔ lock ∈ requested held thread)
    (hheld' : ∀ lock, id ∈ (queues lock).ids ↔ lock ∈ requested held' thread) : held = held' := by
  have heq : requested held thread = requested held' thread :=
    Finset.ext fun lock => (hheld lock).symm.trans (hheld' lock)
  cases h with
  | @waits lock p hnew hid h =>
    obtain ⟨hnew', -, -⟩ := h'
    have herase := congrArg (Finset.erase · lock) heq
    simpa only [requested, Finset.erase_insert hnew, Finset.erase_insert hnew'] using herase
  | pending hid h => exact heq
  | decided hid hmem hends => exact heq
  | finished => exact heq

/-- Threads hold different locks. -/
theorem held_disjoint (hexclusive : ∀ held lock mode, may held lock mode → mode = .exclusive)
    (hs : Tracked may s) {id other : Nat} (hne : other ≠ id)
    {thread thread' : Thread (State × List (Task × Result)) Lock Task}
    (hid : s.threads.lookup id = some thread) (hother : s.threads.lookup other = some thread')
    {task task' : Task} {held held' : Finset Lock}
    (hstage : Stage request C history answered s.shared.1 id task held thread)
    (hstage' : Stage request C history answered s.shared.1 other task' held' thread')
    (hheld : ∀ lock, id ∈ (s.queues lock).ids ↔ lock ∈ requested held thread)
    (hheld' : ∀ lock, other ∈ (s.queues lock).ids ↔ lock ∈ requested held' thread') :
    Disjoint held' held := by
  obtain ⟨locks, hobeys, hrequested, hholds⟩ := hs.thread id thread hid
  obtain ⟨locks', hobeys', hrequested', hholds'⟩ := hs.thread other thread' hother
  obtain rfl := held_unique hstage hobeys hheld hrequested
  obtain rfl := held_unique hstage' hobeys' hheld' hrequested'
  refine Finset.disjoint_left.mpr fun lock hlock' hlock => hne ?_
  exact Holds.unique hexclusive hs (hholds lock hlock) (hholds' lock hlock')

/-- What the step of one thread leaves of the others. -/
theorem Fits.frame {more more' : List (Nat × Task × Result)} {u v : State}
    {queues queues' : Lock → Queue} {id other : Nat}
    {thread : Thread (State × List (Task × Result)) Lock Task}
    (h : Fits request C tasks history answered u queues other thread) (hne : other ≠ id)
    (hmore : ∀ entry ∈ more, entry.1 = id) (hmore' : ∀ entry ∈ more', entry.1 = id)
    (hqueues : ∀ lock, other ∈ (queues' lock).ids ↔ other ∈ (queues lock).ids)
    (hlater : ∀ task held, tasks[other]? = some task →
      (∀ lock, other ∈ (queues lock).ids ↔ lock ∈ requested held thread) →
      Stage request C history answered u other task held thread → Disturbed C task held u v) :
    Fits request C tasks (history ++ more) (answered ++ more') v queues' other thread := by
  obtain ⟨task, held, htask, hheld, hstage⟩ := h
  refine ⟨task, held, htask, fun lock => (hqueues lock).trans (hheld lock), ?_⟩
  refine hstage.mono (fun hmem => ?_) (fun hmem => ?_) (hlater task held htask hheld hstage)
  · obtain ⟨entry, hentry, rfl⟩ := List.mem_map.mp hmem
    exact hne (hmore entry hentry)
  · obtain ⟨entry, hentry, rfl⟩ := List.mem_map.mp hmem
    exact hne (hmore' entry hentry)

/-- A thread moves on, and the others are only disturbed. -/
theorem Explained.move (h : Explained request C start tasks s history answered) {id : Nat}
    (more more' : List (Nat × Task × Result)) {shared : State × List (Task × Result)}
    {queues : Lock → Queue} {thread : Thread (State × List (Task × Result)) Lock Task}
    (hledger : Ledger request start tasks shared (history ++ more) (answered ++ more'))
    (hinvariant : C.invariant shared.1)
    (hmore : ∀ entry ∈ more, entry.1 = id) (hmore' : ∀ entry ∈ more', entry.1 = id)
    (hqueues : ∀ lock other, other ≠ id →
      (other ∈ (queues lock).ids ↔ other ∈ (s.queues lock).ids))
    (hlater : ∀ other thread' task held, other ≠ id → s.threads.lookup other = some thread' →
      tasks[other]? = some task →
      (∀ lock, other ∈ (s.queues lock).ids ↔ lock ∈ requested held thread') →
      Stage request C history answered s.shared.1 other task held thread' →
      Disturbed C task held s.shared.1 shared.1)
    (hthread : Fits request C tasks (history ++ more) (answered ++ more') shared.1 queues id
      thread) :
    Explained request C start tasks ⟨shared, queues, s.threads.insert id thread, s.nextId⟩
      (history ++ more) (answered ++ more') where
  ledger := hledger
  invariant := hinvariant
  length := h.length
  thread other thread' hlookup := by
    by_cases hother : other = id
    · subst hother
      rw [AList.lookup_insert] at hlookup
      cases hlookup
      exact hthread
    · rw [AList.lookup_insert_ne hother] at hlookup
      refine (h.thread other thread' hlookup).frame hother hmore hmore'
        (fun lock => hqueues lock other hother) fun task held => ?_
      exact hlater other thread' task held hother hlookup

/-- A thread moves on without an effect, and maybe asks for a lock or drops one. -/
theorem Explained.advance (h : Explained request C start tasks s history answered) {id : Nat}
    {queues : Lock → Queue} {thread : Thread (State × List (Task × Result)) Lock Task}
    (hqueues : ∀ lock other, other ≠ id →
      (other ∈ (queues lock).ids ↔ other ∈ (s.queues lock).ids))
    (hthread : Fits request C tasks history answered s.shared.1 queues id thread) :
    Explained request C start tasks ⟨s.shared, queues, s.threads.insert id thread, s.nextId⟩
      history answered := by
  rw [← List.append_nil history, ← List.append_nil answered]
  refine h.move [] [] (by simpa using h.ledger) h.invariant ?_ ?_ hqueues ?_
    (by simpa using hthread)
  · exact fun entry hentry => absurd hentry List.not_mem_nil
  · exact fun entry hentry => absurd hentry List.not_mem_nil
  · exact fun _ _ _ _ _ _ _ _ _ => Disturbed.refl

theorem Explained.erase (h : Explained request C start tasks s history answered) {id : Nat}
    {queues : Lock → Queue}
    (hqueues : ∀ lock other, other ≠ id →
      (other ∈ (queues lock).ids ↔ other ∈ (s.queues lock).ids)) :
    Explained request C start tasks ⟨s.shared, queues, s.threads.erase id, s.nextId⟩
      history answered where
  ledger := h.ledger
  invariant := h.invariant
  length := h.length
  thread other thread hlookup := by
    have hother : other ≠ id := by
      intro heq
      rw [heq, AList.lookup_erase] at hlookup
      cases hlookup
    rw [AList.lookup_erase_ne hother] at hlookup
    obtain ⟨task, held, htask, hheld, hstage⟩ := h.thread other thread hlookup
    exact ⟨task, held, htask, fun lock => (hqueues lock other hother).trans (hheld lock), hstage⟩

/-- The other threads keep their requests when one asks for a lock or drops one. -/
theorem ids_update {q : Queue} {lock : Lock} {id : Nat}
    (hkeeps : ∀ other, other ≠ id → (s.queues lock).Keeps q other) (lock' : Lock) (other : Nat)
    (hother : other ≠ id) :
    other ∈ (Function.update s.queues lock q lock').ids ↔ other ∈ (s.queues lock').ids := by
  by_cases hlock : lock' = lock
  · subst hlock
    rw [Function.update_self]
    exact (hkeeps other hother).1
  · rw [Function.update_of_ne hlock]

theorem ids_acquire {lock lock' : Lock} {id : Nat} {mode : Mode} :
    id ∈ (Function.update s.queues lock (s.queues lock ++ [(id, mode)]) lock').ids ↔
      lock' = lock ∨ id ∈ (s.queues lock').ids := by
  by_cases hlock : lock' = lock
  · subst hlock
    simp [Queue.ids]
  · rw [Function.update_of_ne hlock, or_iff_right hlock]

theorem ids_release {lock lock' : Lock} {id : Nat} :
    id ∈ (Function.update s.queues lock ((s.queues lock).drop id) lock').ids ↔
      lock' ≠ lock ∧ id ∈ (s.queues lock').ids := by
  by_cases hlock : lock' = lock
  · subst hlock
    simp [Queue.mem_ids_drop]
  · rw [Function.update_of_ne hlock, and_iff_right hlock]

/-- A thread that has not had its effect takes a step. -/
theorem run_pending (hexclusive : ∀ held lock mode, may held lock mode → mode = .exclusive)
    (hs : Tracked may s) (h : Explained request C start tasks s history answered)
    (hmeets : AllMeet C tasks)
    {id outcome : Nat} {task : Task} {held : Finset Lock} {p : Program State Lock Task Result}
    (hid : s.threads.lookup id = some (.running (answering task p)))
    (htask : tasks[id]? = some task) (hheld : ∀ lock, id ∈ (s.queues lock).ids ↔ lock ∈ held)
    (hnew : id ∉ history.map (·.1)) (hatomic : Atomic C task (request task) held p s.shared.1) :
    ∃ more more', Explained request C start tasks
      (runProgram (answeringTasks request) s id outcome (answering task p)) (history ++ more)
      (answered ++ more') := by
  obtain ⟨locks, hobeys, hrequested, -⟩ := hs.thread id _ hid
  have hstage : Stage request C history answered s.shared.1 id task held
      (.running (answering task p)) := .pending hnew hatomic
  obtain rfl := held_unique hstage hobeys hheld hrequested
  cases p with
  | done result =>
    refine ⟨[(id, task, result)], [(id, task, result)], h.move _ _ ?_ h.invariant ?_ ?_ ?_ ?_ ?_⟩
    · have hdecided := h.ledger.decide hnew htask (hatomic s.shared.1)
      exact hdecided.answer (h.ledger.notMem_answered hnew) List.mem_concat_self
    · exact List.forall_mem_singleton.mpr rfl
    · exact List.forall_mem_singleton.mpr rfl
    · exact fun _ _ _ => Iff.rfl
    · exact fun _ _ _ _ _ _ _ _ _ => Disturbed.refl
    · exact ⟨task, held, htask, hheld, .finished⟩
  | acquire lock mode next =>
    obtain ⟨hlock, -, -⟩ := hobeys
    refine ⟨[], [], ?_⟩
    rw [List.append_nil, List.append_nil]
    refine h.advance (ids_update fun other hother => Queue.keeps_append _ mode hother)
      ⟨task, held, htask, fun lock' => ?_, .waits hlock hnew hatomic⟩
    rw [requested, Finset.mem_insert, ← hheld]
    exact ids_acquire
  | release lock next =>
    refine ⟨[], [], ?_⟩
    rw [List.append_nil, List.append_nil]
    refine h.advance (ids_update fun other hother => Queue.keeps_drop _ hother)
      ⟨task, held.erase lock, htask, fun lock' => ?_, .pending hnew (hatomic _ .refl)⟩
    rw [requested, Finset.mem_erase, ← hheld]
    exact ids_release
  | access write next =>
    obtain ⟨hchanges, heffect⟩ := hatomic s.shared.1 .refl
    have hlater : ∀ other thread' task' held', other ≠ id →
        s.threads.lookup other = some thread' → tasks[other]? = some task' →
        (∀ lock, other ∈ (s.queues lock).ids ↔ lock ∈ requested held' thread') →
        Stage request C history answered s.shared.1 other task' held' thread' →
        Disturbed C task' held' s.shared.1 (write s.shared.1) := by
      intro other thread' task' held' hother hlookup htask' hheld' hstage'
      refine .single ⟨task, held, hmeets id other task task' hother htask htask', ?_, hchanges⟩
      exact held_disjoint hexclusive hs hother hid hlookup hstage hstage' hheld hheld'
    have hinvariant := C.kept task held _ _ hchanges h.invariant
    rcases heffect with ⟨result, hends, hyields⟩ | ⟨hwrite, hnext⟩
    · refine ⟨[(id, task, result)], [], h.move _ _ ?_ hinvariant ?_ ?_ ?_ hlater ?_⟩
      · rw [List.append_nil]
        exact h.ledger.decide hnew htask hyields
      · exact List.forall_mem_singleton.mpr rfl
      · exact fun entry hentry => absurd hentry List.not_mem_nil
      · exact fun _ _ _ => Iff.rfl
      · refine ⟨task, held, htask, hheld, .decided ?_ List.mem_concat_self hends⟩
        rw [List.append_nil]
        exact h.ledger.notMem_answered hnew
    · refine ⟨[], [], ?_⟩
      rw [List.append_nil, List.append_nil]
      have hshared : (write s.shared.1, s.shared.2) = s.shared := by rw [hwrite]
      show Explained request C start tasks ⟨(write s.shared.1, s.shared.2), _, _, _⟩ _ _
      rw [hshared]
      exact h.advance (fun _ _ _ => Iff.rfl) ⟨task, held, htask, hheld, .pending hnew hnext⟩
  | choose next =>
    refine ⟨[], [], ?_⟩
    rw [List.append_nil, List.append_nil]
    exact h.advance (fun _ _ _ => Iff.rfl)
      ⟨task, held, htask, hheld, .pending hnew (hatomic outcome _ .refl)⟩
  | spawn other next => exact hatomic.elim

/-- A thread that has had its effect takes a step. -/
theorem run_decided (h : Explained request C start tasks s history answered) {id outcome : Nat}
    {task : Task} {held : Finset Lock} {p : Program State Lock Task Result} {result : Result}
    (htask : tasks[id]? = some task) (hheld : ∀ lock, id ∈ (s.queues lock).ids ↔ lock ∈ held)
    (hid : id ∉ answered.map (·.1)) (hmem : (id, task, result) ∈ history) (hends : Ends result p) :
    ∃ more more', Explained request C start tasks
      (runProgram (answeringTasks request) s id outcome (answering task p)) (history ++ more)
      (answered ++ more') := by
  cases p with
  | done found =>
    obtain rfl : found = result := hends
    refine ⟨[], [(id, task, found)], h.move _ _ ?_ h.invariant ?_ ?_ ?_ ?_ ?_⟩
    · rw [List.append_nil]
      exact h.ledger.answer hid hmem
    · exact fun entry hentry => absurd hentry List.not_mem_nil
    · exact List.forall_mem_singleton.mpr rfl
    · exact fun _ _ _ => Iff.rfl
    · exact fun _ _ _ _ _ _ _ _ _ => Disturbed.refl
    · exact ⟨task, held, htask, hheld, .finished⟩
  | release lock next =>
    refine ⟨[], [], ?_⟩
    rw [List.append_nil, List.append_nil]
    refine h.advance (ids_update fun other hother => Queue.keeps_drop _ hother)
      ⟨task, held.erase lock, htask, fun lock' => ?_, .decided hid hmem hends⟩
    rw [requested, Finset.mem_erase, ← hheld]
    exact ids_release
  | acquire => exact hends.elim
  | access => exact hends.elim
  | choose => exact hends.elim
  | spawn => exact hends.elim

theorem explained_start (hs : Tracked may s)
    (h : Explained request C start tasks s history answered) (task : Task)
    (hatomic : ∀ s, C.invariant s → Atomic C task (request task) ∅ (request task) s) :
    Explained request C start (tasks ++ [task]) (s.spawn (answeringTasks request) task) history
      answered where
  ledger := h.ledger.grow task
  invariant := h.invariant
  length := by rw [Machine.spawn, List.length_append, h.length, List.length_singleton]
  thread id thread hlookup := by
    by_cases hid : id = s.nextId
    · subst hid
      rw [Machine.spawn, AList.lookup_insert] at hlookup
      cases hlookup
      refine ⟨task, ∅, ?_, fun lock => ?_, .pending (fun hmem => ?_) (hatomic _ h.invariant)⟩
      · rw [h.length, List.getElem?_concat_length]
      · refine iff_of_false (fun hqueued => ?_) (Finset.notMem_empty lock)
        exact Nat.lt_irrefl _ (hs.known _ (hs.queued lock _ hqueued))
      · have hlt := h.ledger.id_lt hmem
        rw [h.length] at hlt
        exact Nat.lt_irrefl _ hlt
    · rw [Machine.spawn, AList.lookup_insert_ne hid] at hlookup
      obtain ⟨task', held, htask, hheld, hstage⟩ := h.thread id thread hlookup
      obtain ⟨hlt, -⟩ := List.getElem?_eq_some_iff.mp htask
      exact ⟨task', held, (List.getElem?_append_left hlt).trans htask, hheld, hstage⟩

/-- A step adds to the history what takes effect in it. -/
theorem explained_step (hexclusive : ∀ held lock mode, may held lock mode → mode = .exclusive)
    (hs : Tracked may s) (h : Explained request C start tasks s history answered)
    {a : Action Task} {t : Machine (State × List (Task × Result)) Lock Task}
    (hatomic : ∀ task ∈ startedBy [a], ∀ s, C.invariant s →
      Atomic C task (request task) ∅ (request task) s)
    (hmeets : AllMeet C tasks)
    (hstep : step (answeringTasks request) s a = some t) :
    ∃ more more', Explained request C start (tasks ++ startedBy [a]) t (history ++ more)
      (answered ++ more') := by
  cases a with
  | start task =>
    have hspawn : some (s.spawn (answeringTasks request) task) = some t := hstep
    cases hspawn
    refine ⟨[], [], ?_⟩
    rw [List.append_nil, List.append_nil]
    exact explained_start hs h task (hatomic task List.mem_cons_self)
  | run id outcome =>
    have hnone : startedBy [Action.run id outcome] = ([] : List Task) := rfl
    rw [hnone, List.append_nil]
    simp only [step] at hstep
    split at hstep
    · rename_i code hid
      cases hstep
      obtain ⟨task, held, htask, hheld, hstage⟩ := h.thread id _ hid
      cases hstage with
      | pending hnew hatomic =>
        exact run_pending hexclusive hs h hmeets hid htask hheld hnew hatomic
      | decided hid' hmem hends => exact run_decided h htask hheld hid' hmem hends
      | finished =>
        refine ⟨[], [], ?_⟩
        rw [List.append_nil, List.append_nil]
        exact h.erase fun _ _ _ => Iff.rfl
    · cases hstep
  | grant id =>
    have hnone : startedBy [Action.grant id] = ([] : List Task) := rfl
    rw [hnone, List.append_nil]
    simp only [step] at hstep
    split at hstep
    · rename_i lock code hid
      obtain ⟨-, heq⟩ := Option.ite_none_right_eq_some.mp hstep
      cases heq
      obtain ⟨task, held, htask, hheld, hstage⟩ := h.thread id _ hid
      cases hstage with
      | waits hlock hnew hatomic =>
        refine ⟨[], [], ?_⟩
        rw [List.append_nil, List.append_nil]
        refine h.advance (fun _ _ _ => Iff.rfl) ⟨task, insert lock held, htask, hheld, ?_⟩
        exact .pending hnew (hatomic _ Disturbed.refl)
    · cases hstep
  | abort id =>
    have hnone : startedBy [Action.abort id] = ([] : List Task) := rfl
    rw [hnone, List.append_nil]
    obtain ⟨-, heq⟩ := Option.ite_none_right_eq_some.mp hstep
    cases heq
    refine ⟨[], [], ?_⟩
    rw [List.append_nil, List.append_nil]
    exact h.erase fun lock other hother => (Queue.keeps_drop _ hother).1

theorem obeys_answering {final held : Finset Lock} {p : Program State Lock Task Result}
    (h : Obeys may final held p) (task : Task) : Obeys may final held (answering task p) := by
  induction p generalizing held with
  | done result => exact fun _ => h
  | acquire lock mode next ih => exact ⟨h.1, h.2.1, ih h.2.2⟩
  | release lock next ih => exact ⟨h.1, ih h.2⟩
  | access write next ih => exact fun s => ih s.1 (h s.1)
  | choose next ih => exact fun n => ih n (h n)
  | spawn other next ih => exact ih h

theorem explained_runFrom (hexclusive : ∀ held lock mode, may held lock mode → mode = .exclusive)
    (hobeys : ∀ task, Obeys may ∅ ∅ (request task))
    {state : State × List (Task × Result)} {actions : List (Action Task)}
    {t : Machine (State × List (Task × Result)) Lock Task} (hs : Tracked may s)
    (h : Explained request C start tasks s history answered)
    (hatomic : ∀ task ∈ startedBy actions, ∀ s, C.invariant s →
      Atomic C task (request task) ∅ (request task) s)
    (hmeets : AllMeet C (tasks ++ startedBy actions))
    (hrun : (system (answeringTasks request) state).runFrom s actions = some t) :
    ∃ more more', Explained request C start (tasks ++ startedBy actions) t (history ++ more)
      (answered ++ more') := by
  induction actions generalizing tasks s history answered with
  | nil =>
    cases hrun
    refine ⟨[], [], ?_⟩
    rw [List.append_nil, List.append_nil]
    exact (List.append_nil tasks).symm ▸ h
  | cons a rest ih =>
    obtain ⟨u, hstep, hrest⟩ := Option.bind_eq_some_iff.mp hrun
    have hsplit : startedBy (a :: rest) = startedBy [a] ++ startedBy rest := by
      show startedBy ([a] ++ rest) = startedBy [a] ++ startedBy rest
      exact List.filterMap_append
    rw [hsplit, ← List.append_assoc] at hmeets ⊢
    rw [hsplit] at hatomic
    obtain ⟨more, more', hu⟩ := explained_step hexclusive hs h
      (fun task htask => hatomic task (List.mem_append_left _ htask)) hmeets.before.before hstep
    have hu' := step_tracked (fun task => obeys_answering (hobeys task) task) hs hstep
    obtain ⟨later, later', ht⟩ := ih hu' hu
      (fun task htask => hatomic task (List.mem_append_right _ htask)) hmeets hrest
    refine ⟨more ++ later, more' ++ later', ?_⟩
    rw [← List.append_assoc, ← List.append_assoc]
    exact ht

/-- Whatever run the tasks take, what it has done up to some time and what it goes on to do are one
history: the tasks in it one after another have left the state and given the answers. -/
theorem exists_histories (hexclusive : ∀ held lock mode, may held lock mode → mode = .exclusive)
    (hobeys : ∀ task, Obeys may ∅ ∅ (request task)) {first second : List (Action Task)}
    (hatomic : ∀ task ∈ startedBy (first ++ second), ∀ s, C.invariant s →
      Atomic C task (request task) ∅ (request task) s)
    (hmeets : (startedBy (first ++ second)).Pairwise C.meets)
    (hsymm : ∀ task other, C.meets task other → C.meets other task) (hstart : C.invariant start)
    {t : Machine (State × List (Task × Result)) Lock Task}
    (hfirst : (system (answeringTasks request) (start, [])).run first = some s)
    (hsecond : (system (answeringTasks request) (start, [])).runFrom s second = some t) :
    ∃ history more, Explains request start first s history ∧
      Explains request start (first ++ second) t (history ++ more) := by
  have hinit : Explained request C start [] (system (answeringTasks request) (start, [])).init
      [] [] :=
    { ledger := ⟨.nil, rfl, List.nodup_nil, List.nodup_nil, List.nil_subset _, by simp⟩
      invariant := hstart
      length := rfl
      thread := fun id thread h => by cases h }
  have hsplit : startedBy (first ++ second) = startedBy first ++ startedBy second :=
    List.filterMap_append
  rw [hsplit] at hatomic hmeets
  have hall := allMeet_of_pairwise hmeets hsymm
  obtain ⟨history, answered, hs⟩ := explained_runFrom hexclusive hobeys
    (initial_tracked (answeringTasks request) (start, [])) hinit
    (fun task htask => hatomic task (List.mem_append_left _ htask)) hall.before hfirst
  have htracked := run_tracked (fun task => obeys_answering (hobeys task) task) hfirst
  obtain ⟨more, answered', ht⟩ := explained_runFrom hexclusive hobeys htracked hs
    (fun task htask => hatomic task (List.mem_append_right _ htask)) hall hsecond
  refine ⟨history.map (·.2), more.map (·.2), hs.ledger.explains rfl rfl, ?_⟩
  rw [← List.map_append]
  exact ht.ledger.explains hsplit rfl

end Steps

end OpenMeet.SerialOrder
