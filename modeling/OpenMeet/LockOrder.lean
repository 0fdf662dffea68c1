import Mathlib.Data.Finset.Lattice.Lemmas
import Mathlib.Data.Fintype.EquivFin
import Mathlib.Data.Fintype.Sets
import Mathlib.Data.List.TakeWhile
import Mathlib.Logic.Relation
import Mathlib.Order.WellFounded
import OpenMeet.KeyedMap
import OpenMeet.TransitionSystem

/-!
Tasks that take locks. A lock serves its requests in the order they were made,
so that a waiting writer holds back the readers behind it, and a task that asks
again for a lock it holds may wait for itself. If every task takes its locks in
the order of their ranks, no tasks wait for one another in a cycle.
-/
namespace OpenMeet.LockOrder

open KeyedMap TransitionSystem

/-! ## Queues -/

inductive Mode
  | shared
  | exclusive
  deriving DecidableEq

/-- The requests for a lock in the order they were made. One is there until its guard is dropped. -/
abbrev Queue := List (Nat × Mode)

namespace Queue

def ids (q : Queue) : List Nat := q.map (·.1)

/-- The tasks that hold the lock: one writer, or the readers before the first writer. -/
def holders : Queue → List Nat
  | (id, .exclusive) :: _ => [id]
  | q => ids (q.takeWhile (·.2 = .shared))

/-- The tasks of the requests that are not served yet. -/
def waiters (q : Queue) : List Nat := q.ids.drop q.holders.length

theorem holders_append_waiters (q : Queue) : q.holders ++ q.waiters = q.ids := by
  refine List.prefix_iff_eq_append.mp ?_
  match q with
  | [] => exact List.prefix_rfl
  | (id, .exclusive) :: rest => exact ⟨ids rest, rfl⟩
  | (id, .shared) :: rest => exact (List.takeWhile_prefix _).map _

/-- With one request a task, whoever waits does not hold the lock. -/
theorem notMem_waiters {q : Queue} {id : Nat} (hq : q.ids.Nodup) (h : id ∈ q.holders) :
    id ∉ q.waiters := by
  rw [← holders_append_waiters] at hq
  exact fun hwaits => (List.nodup_append.mp hq).2.2 id h id hwaits rfl

theorem mem_waiters {q : Queue} {id : Nat} (h : id ∈ q.ids) (hholders : id ∉ q.holders) :
    id ∈ q.waiters := by
  rw [← holders_append_waiters, List.mem_append] at h
  exact h.resolve_left hholders

def drop (q : Queue) (id : Nat) : Queue := q.filter (·.1 ≠ id)

theorem ids_drop (q : Queue) (id : Nat) : (q.drop id).ids = q.ids.filter (· ≠ id) := by
  rw [ids, ids, drop, List.filter_map]
  rfl

theorem mem_ids_drop {q : Queue} {id other : Nat} :
    other ∈ (q.drop id).ids ↔ other ∈ q.ids ∧ other ≠ id := by
  rw [ids_drop, List.mem_filter, decide_eq_true_eq]

/-- The first task asked before the second. -/
def Ahead (q : Queue) (first second : Nat) : Prop := [first, second].Sublist q.ids

instance (q : Queue) (first second : Nat) : Decidable (q.Ahead first second) :=
  inferInstanceAs (Decidable (List.Sublist _ _))

theorem Ahead.mem {q : Queue} {first second : Nat} (h : q.Ahead first second) : first ∈ q.ids :=
  h.subset List.mem_cons_self

theorem Ahead.idxOf_lt {q : Queue} {first second : Nat} (hq : q.ids.Nodup)
    (h : q.Ahead first second) : q.ids.idxOf first < q.ids.idxOf second := by
  obtain ⟨before, after, hids, hfirst, hsecond⟩ := List.cons_sublist_iff.mp h
  have hmem : second ∈ after := hsecond.subset List.mem_cons_self
  rw [hids] at hq ⊢
  have hnot : second ∉ before := fun hbefore => (List.nodup_append.mp hq).2.2 _ hbefore _ hmem rfl
  rw [List.idxOf_append_of_mem hfirst, List.idxOf_append_of_notMem hnot]
  exact (List.idxOf_lt_length_iff.mpr hfirst).trans_le (Nat.le_add_right ..)

theorem nodup_drop {q : Queue} (h : q.ids.Nodup) (id : Nat) : (q.drop id).ids.Nodup := by
  rw [ids_drop]
  exact h.filter _

/-- Who holds the lock stands first, or among readers that do. -/
theorem mem_holders {q : Queue} {id : Nat} : id ∈ q.holders ↔
    (∃ rest, q = (id, .exclusive) :: rest) ∨
      ∃ first rest, q = first ++ rest ∧ (∀ request ∈ first, request.2 = .shared) ∧
        id ∈ ids first := by
  constructor
  · intro h
    match q, h with
    | (writer, .exclusive) :: rest, h =>
      obtain rfl := List.mem_singleton.mp h
      exact .inl ⟨rest, rfl⟩
    | (reader, .shared) :: rest, h =>
      refine .inr ⟨_, _, List.takeWhile_append_dropWhile.symm, fun request hrequest => ?_, h⟩
      have hshared := List.mem_takeWhile_imp hrequest
      exact of_decide_eq_true hshared
  · rintro (⟨rest, rfl⟩ | ⟨first, rest, rfl, hshared, hid⟩)
    · exact List.mem_singleton_self id
    · match first, hid with
      | (reader, mode) :: others, hid =>
        obtain rfl : mode = .shared := hshared _ List.mem_cons_self
        have hall : ∀ request ∈ (reader, .shared) :: others, decide (request.2 = .shared) = true :=
          fun request h => decide_eq_true (hshared request h)
        have hfirst : ((reader, .shared) :: others ++ rest).takeWhile (·.2 = .shared) =
            (reader, .shared) :: others ++ rest.takeWhile (·.2 = .shared) :=
          List.takeWhile_append_of_pos hall
        change id ∈ ids (((reader, .shared) :: others ++ rest).takeWhile (·.2 = .shared))
        rw [hfirst, ids, List.map_append]
        exact List.mem_append_left _ hid

theorem holders_append {q : Queue} {id : Nat} (h : id ∈ q.holders) (more : Queue) :
    id ∈ Queue.holders (q ++ more) := by
  rcases mem_holders.mp h with ⟨rest, rfl⟩ | ⟨first, rest, rfl, hshared, hid⟩
  · exact mem_holders.mpr (.inl ⟨rest ++ more, rfl⟩)
  · exact mem_holders.mpr (.inr ⟨first, rest ++ more, List.append_assoc .., hshared, hid⟩)

theorem holders_drop {q : Queue} {id other : Nat} (h : id ∈ q.holders) (hne : id ≠ other) :
    id ∈ (q.drop other).holders := by
  rcases mem_holders.mp h with ⟨rest, rfl⟩ | ⟨first, rest, rfl, hshared, hid⟩
  · refine mem_holders.mpr (.inl ⟨drop rest other, ?_⟩)
    exact List.filter_cons_of_pos (decide_eq_true hne)
  · refine mem_holders.mpr (.inr ⟨drop first other, drop rest other, List.filter_append .., ?_, ?_⟩)
    · exact fun request hrequest => hshared request (List.mem_of_mem_filter hrequest)
    · exact mem_ids_drop.mpr ⟨hid, hne⟩

theorem mem_ids_of_mem_holders {q : Queue} {id : Nat} (h : id ∈ q.holders) : id ∈ q.ids := by
  rcases mem_holders.mp h with ⟨rest, rfl⟩ | ⟨first, rest, rfl, -, hid⟩
  · exact List.mem_cons_self
  · rw [ids, List.map_append]
    exact List.mem_append_left _ hid

/-- A lock that is only asked for exclusively is held by the task that stands first. -/
theorem eq_cons_of_mem_holders {q : Queue} {id : Nat} (hq : ∀ request ∈ q, request.2 = .exclusive)
    (h : id ∈ q.holders) : ∃ rest, q = (id, .exclusive) :: rest := by
  rcases mem_holders.mp h with hfirst | ⟨first, rest, rfl, hshared, hid⟩
  · exact hfirst
  · obtain ⟨request, hrequest, -⟩ := List.mem_map.mp hid
    have hexclusive := hq request (List.mem_append_left _ hrequest)
    rw [hshared request hrequest] at hexclusive
    cases hexclusive

theorem holders_unique {q : Queue} {id other : Nat} (hq : ∀ request ∈ q, request.2 = .exclusive)
    (h : id ∈ q.holders) (hother : other ∈ q.holders) : other = id := by
  obtain ⟨rest, rfl⟩ := eq_cons_of_mem_holders hq h
  exact List.mem_singleton.mp hother

theorem ahead_of_holder {q : Queue} {id other : Nat} (hq : ∀ request ∈ q, request.2 = .exclusive)
    (h : other ∈ q.holders) (hid : id ∈ q.ids) (hne : id ≠ other) : q.Ahead other id := by
  obtain ⟨rest, rfl⟩ := eq_cons_of_mem_holders hq h
  have hrest : id ∈ Queue.ids rest := (List.mem_cons.mp hid).resolve_left hne
  exact (List.singleton_sublist.mpr hrest).cons_cons other

/-- In the second queue the task has a request if it had one, and the lock if it had it. -/
def Keeps (q q' : Queue) (id : Nat) : Prop :=
  (id ∈ q'.ids ↔ id ∈ q.ids) ∧ (id ∈ q.holders → id ∈ q'.holders)

theorem Keeps.refl (q : Queue) (id : Nat) : q.Keeps q id := ⟨Iff.rfl, fun h => h⟩

theorem keeps_append {id other : Nat} (q : Queue) (mode : Mode) (hne : other ≠ id) :
    q.Keeps (q ++ [(id, mode)]) other := by
  refine ⟨?_, fun h => holders_append h _⟩
  rw [ids, ids, List.map_append, List.mem_append, or_iff_left]
  exact fun h => hne (List.mem_singleton.mp h)

theorem keeps_drop {id other : Nat} (q : Queue) (hne : other ≠ id) : q.Keeps (q.drop id) other :=
  ⟨mem_ids_drop.trans (and_iff_left hne), fun h => holders_drop h hne⟩

end Queue

/-! ## Programs -/

/-- A task's code between its locks: an access to the shared state, which goes on with what it was
before, an outcome of code outside, and a task it starts. -/
inductive Program (State Lock Task Result : Type)
  | done (result : Result)
  | acquire (lock : Lock) (mode : Mode) (next : Program State Lock Task Result)
  | release (lock : Lock) (next : Program State Lock Task Result)
  | access (write : State → State) (next : State → Program State Lock Task Result)
  | choose (next : Nat → Program State Lock Task Result)
  | spawn (task : Task) (next : Program State Lock Task Result)

namespace Program

variable {State Lock Task Result Result' : Type}

def bind (p : Program State Lock Task Result) (f : Result → Program State Lock Task Result') :
    Program State Lock Task Result' :=
  match p with
  | done result => f result
  | acquire lock mode next => acquire lock mode (next.bind f)
  | release lock next => release lock (next.bind f)
  | access write next => access write fun s => (next s).bind f
  | choose next => choose fun n => (next n).bind f
  | spawn task next => spawn task (next.bind f)

instance : Monad (Program State Lock Task) where
  pure := done
  bind := bind

/-- A guard, dropped at the end of its scope. -/
def withLock (lock : Lock) (mode : Mode) (body : Program State Lock Task Result) :
    Program State Lock Task Result :=
  acquire lock mode (body.bind fun result => release lock (done result))

def read (f : State → Result) : Program State Lock Task Result := access id fun s => done (f s)

def write (f : State → State) : Program State Lock Task Unit := access f fun _ => done ()

def start (task : Task) : Program State Lock Task Unit := spawn task (done ())

def forEach {Item : Type} (f : Item → Program State Lock Task Unit) :
    List Item → Program State Lock Task Unit
  | [] => done ()
  | item :: rest => (f item).bind fun _ => forEach f rest

/-- In an order that is chosen outside. -/
def inSomeOrder {Item : Type} (items : List Item) (f : List Item → Program State Lock Task Result) :
    Program State Lock Task Result :=
  choose fun n => f ((items.permutations[n]?).getD items)

/-- What a program may return, and the state it leaves, if nobody else takes a step. -/
inductive Yields : Program State Lock Task Result → State → Result → State → Prop
  | done (result : Result) (s : State) : Yields (done result) s result s
  | acquire {lock : Lock} {mode : Mode} {next : Program State Lock Task Result} {s t : State}
      {result : Result} (h : Yields next s result t) : Yields (acquire lock mode next) s result t
  | release {lock : Lock} {next : Program State Lock Task Result} {s t : State} {result : Result}
      (h : Yields next s result t) : Yields (release lock next) s result t
  | access {write : State → State} {next : State → Program State Lock Task Result} {s t : State}
      {result : Result} (h : Yields (next s) (write s) result t) :
      Yields (access write next) s result t
  | choose {next : Nat → Program State Lock Task Result} {s t : State} {result : Result} (n : Nat)
      (h : Yields (next n) s result t) : Yields (choose next) s result t
  | spawn {task : Task} {next : Program State Lock Task Result} {s t : State} {result : Result}
      (h : Yields next s result t) : Yields (spawn task next) s result t

section Yields

variable {p : Program State Lock Task Result} {s t : State} {result : Result}

@[simp] theorem yields_pure {found : Result} :
    (pure result : Program State Lock Task Result).Yields s found t ↔ found = result ∧ t = s := by
  constructor
  · intro h
    cases h
    exact ⟨rfl, rfl⟩
  · rintro ⟨rfl, rfl⟩
    exact .done _ _

@[simp] theorem yields_access {write : State → State} {f : State → Result} :
    (access write fun s => done (f s) : Program State Lock Task Result).Yields s result t ↔
      result = f s ∧ t = write s := by
  constructor
  · rintro ⟨⟩
    rename_i h
    exact yields_pure.mp h
  · exact fun h => .access (yields_pure.mpr h)

@[simp] theorem yields_start {task : Task} {result : Unit} :
    (start task : Program State Lock Task Unit).Yields s result t ↔ t = s := by
  constructor
  · rintro ⟨⟩
    rename_i h
    exact (yields_pure.mp h).2
  · exact fun h => .spawn (yields_pure.mpr ⟨rfl, h⟩)

@[simp] theorem yields_bind {f : Result → Program State Lock Task Result'} {result' : Result'} :
    (p >>= f).Yields s result' t ↔
      ∃ result u, p.Yields s result u ∧ (f result).Yields u result' t := by
  constructor
  · intro h
    induction p generalizing s with
    | done result => exact ⟨result, s, .done result s, h⟩
    | acquire lock mode next ih =>
      cases h with
      | acquire h => exact (ih h).imp fun _ => .imp fun _ => .imp_left .acquire
    | release lock next ih =>
      cases h with
      | release h => exact (ih h).imp fun _ => .imp fun _ => .imp_left .release
    | access write next ih =>
      cases h with
      | access h => exact (ih s h).imp fun _ => .imp fun _ => .imp_left .access
    | choose next ih =>
      cases h with
      | choose n h => exact (ih n h).imp fun _ => .imp fun _ => .imp_left (.choose n)
    | spawn task next ih =>
      cases h with
      | spawn h => exact (ih h).imp fun _ => .imp fun _ => .imp_left .spawn
  · rintro ⟨result, u, hp, hf⟩
    induction hp with
    | done result s => exact hf
    | acquire _ ih => exact .acquire (ih hf)
    | release _ ih => exact .release (ih hf)
    | access _ ih => exact .access (ih hf)
    | choose n _ ih => exact .choose n (ih hf)
    | spawn _ ih => exact .spawn (ih hf)

@[simp] theorem yields_withLock {lock : Lock} {mode : Mode} :
    (withLock lock mode p).Yields s result t ↔ p.Yields s result t := by
  have hscope : (withLock lock mode p).Yields s result t ↔
      (p >>= fun result => release lock (pure result)).Yields s result t :=
    ⟨fun h => by cases h; assumption, .acquire⟩
  rw [hscope, yields_bind]
  constructor
  · rintro ⟨found, u, hp, ⟨⟩⟩
    rename_i h
    obtain ⟨rfl, rfl⟩ := yields_pure.mp h
    exact hp
  · exact fun h => ⟨result, t, h, .release (.done result t)⟩

theorem yields_forEach_of_unchanged {Item : Type} {f : Item → Program State Lock Task Unit}
    (hf : ∀ item s t, (f item).Yields s () t → t = s) (items : List Item) {result : Unit}
    (h : (forEach f items).Yields s result t) : t = s := by
  induction items generalizing s with
  | nil => exact (yields_pure.mp h).2
  | cons item rest ih =>
    obtain ⟨_, u, hfirst, hrest⟩ := yields_bind.mp h
    rw [ih hrest, hf item s u hfirst]

end Yields

end Program

/-! ## Tasks -/

/-- The code of each task, and which tasks may be started from outside. -/
structure Tasks (State Lock Task : Type) where
  body : Task → Program State Lock Task Unit
  external : Task → Bool

inductive Thread (State Lock Task : Type)
  | running (code : Program State Lock Task Unit)
  | waiting (lock : Lock) (code : Program State Lock Task Unit)

structure Machine (State Lock Task : Type) where
  shared : State
  queues : Lock → Queue
  threads : Map Nat (Thread State Lock Task)
  nextId : Nat

inductive Action (Task : Type)
  | start (task : Task)
  | run (id : Nat) (outcome : Nat)
  | grant (id : Nat)
  | abort (id : Nat)

section System

variable {State Lock Task : Type} [DecidableEq Lock] (P : Tasks State Lock Task)

namespace Machine

variable (s : Machine State Lock Task)

def setThread (id : Nat) (thread : Thread State Lock Task) : Machine State Lock Task :=
  { s with threads := s.threads.insert id thread }

def setQueue (lock : Lock) (q : Queue) : Machine State Lock Task :=
  { s with queues := Function.update s.queues lock q }

theorem setQueue_of_ne {s : Machine State Lock Task} {lock lock' : Lock} (h : lock' ≠ lock)
    {q : Queue} : (s.setQueue lock q).queues lock' = s.queues lock' :=
  Function.update_of_ne h ..

def spawn (task : Task) : Machine State Lock Task :=
  { s with
    threads := s.threads.insert s.nextId (.running (P.body task))
    nextId := s.nextId + 1 }

end Machine

def runProgram (s : Machine State Lock Task) (id outcome : Nat) :
    Program State Lock Task Unit → Machine State Lock Task
  | .done _ => { s with threads := s.threads.erase id }
  | .acquire lock mode next =>
    (s.setQueue lock (s.queues lock ++ [(id, mode)])).setThread id (.waiting lock next)
  | .release lock next =>
    (s.setQueue lock ((s.queues lock).drop id)).setThread id (.running next)
  | .access write next =>
    { s with shared := write s.shared }.setThread id (.running (next s.shared))
  | .choose next => s.setThread id (.running (next outcome))
  | .spawn task next => (s.spawn P task).setThread id (.running next)

/-- A task goes on when its last request is served too. A task that is aborted drops its guards and
takes its request back. -/
def step (s : Machine State Lock Task) : Action Task → Option (Machine State Lock Task)
  | .start task => if P.external task then some (s.spawn P task) else none
  | .run id outcome =>
    match s.threads.lookup id with
    | some (.running code) => some (runProgram P s id outcome code)
    | _ => none
  | .grant id =>
    match s.threads.lookup id with
    | some (.waiting lock code) =>
      if id ∈ (s.queues lock).holders ∧ id ∉ (s.queues lock).waiters then
        some (s.setThread id (.running code))
      else none
    | _ => none
  | .abort id =>
    if id ∈ s.threads then
      some { s with
        queues := fun lock => (s.queues lock).drop id
        threads := s.threads.erase id }
    else none

def system (shared : State) : System (Machine State Lock Task) (Action Task) :=
  ⟨⟨shared, fun _ => [], ∅, 0⟩, step P⟩

end System

/-! ## Discipline -/

section Discipline

variable {State Lock Task Result Result' : Type} [DecidableEq Lock]
  (may : Finset Lock → Lock → Mode → Prop)

/-- Whatever happens outside, the program asks for no lock it has, only for locks that it may ask
for while it holds those it has, and in the end it holds what it should. -/
def Obeys (final : Finset Lock) : Finset Lock → Program State Lock Task Result → Prop
  | held, .done _ => held = final
  | held, .acquire lock mode next =>
    lock ∉ held ∧ may held lock mode ∧ Obeys final (insert lock held) next
  | held, .release lock next => lock ∈ held ∧ Obeys final (held.erase lock) next
  | held, .access _ next => ∀ s, Obeys final held (next s)
  | held, .choose next => ∀ n, Obeys final held (next n)
  | held, .spawn _ next => Obeys final held next

def ObeysThread (held : Finset Lock) : Thread State Lock Task → Prop
  | .running code => Obeys may ∅ held code
  | .waiting lock code =>
    lock ∉ held ∧ (∃ mode, may held lock mode) ∧ Obeys may ∅ (insert lock held) code

/-- The locks a task holds or has asked for. -/
def requested (held : Finset Lock) : Thread State Lock Task → Finset Lock
  | .running _ => held
  | .waiting lock _ => insert lock held

/-- Every request was made by a program that might make it. -/
def RequestsMay (lock : Lock) (q : Queue) : Prop := ∀ request ∈ q, ∃ held, may held lock request.2

/-- Each task obeys, and its requests are those of the locks it holds and waits for. -/
structure Tracked (s : Machine State Lock Task) : Prop where
  nodup : ∀ lock, (s.queues lock).ids.Nodup
  mode : ∀ lock, RequestsMay may lock (s.queues lock)
  thread : ∀ id thread, s.threads.lookup id = some thread → ∃ held, ObeysThread may held thread ∧
    (∀ lock, id ∈ (s.queues lock).ids ↔ lock ∈ requested held thread) ∧
    ∀ lock ∈ held, id ∈ (s.queues lock).holders
  queued : ∀ lock id, id ∈ (s.queues lock).ids → id ∈ s.threads
  known : ∀ id, id ∈ s.threads → id < s.nextId

variable {may} {s t : Machine State Lock Task}

variable {held final : Finset Lock}

theorem Obeys.bind {middle : Finset Lock} {p : Program State Lock Task Result}
    {f : Result → Program State Lock Task Result'} (hp : Obeys may middle held p)
    (hf : ∀ result, Obeys may final middle (f result)) : Obeys may final held (p >>= f) := by
  induction p generalizing held with
  | done result =>
    cases hp
    exact hf result
  | acquire lock mode next ih => exact ⟨hp.1, hp.2.1, ih hp.2.2⟩
  | release lock next ih => exact ⟨hp.1, ih hp.2⟩
  | access write next ih => exact fun s => ih s (hp s)
  | choose next ih => exact fun n => ih n (hp n)
  | spawn task next ih => exact ih hp

theorem Obeys.mono {may' : Finset Lock → Lock → Mode → Prop}
    (h : ∀ held lock mode, may held lock mode → may' held lock mode)
    {p : Program State Lock Task Result} (hp : Obeys may final held p) :
    Obeys may' final held p := by
  induction p generalizing held with
  | done result => exact hp
  | acquire lock mode next ih => exact ⟨hp.1, h _ _ _ hp.2.1, ih hp.2.2⟩
  | release lock next ih => exact ⟨hp.1, ih hp.2⟩
  | access write next ih => exact fun s => ih s (hp s)
  | choose next ih => exact fun n => ih n (hp n)
  | spawn task next ih => exact ih hp

theorem Obeys.withLock {lock : Lock} {mode : Mode} {body : Program State Lock Task Result}
    (hnew : lock ∉ held) (hmay : may held lock mode)
    (hbody : Obeys may (insert lock held) (insert lock held) body) :
    Obeys may held held (.withLock lock mode body) := by
  refine ⟨hnew, hmay, hbody.bind fun result => ⟨Finset.mem_insert_self .., ?_⟩⟩
  exact Finset.erase_insert hnew

/-- A task moves on, and the others keep their requests and locks. -/
theorem Tracked.move (hs : Tracked may s) {id : Nat} (held : Finset Lock)
    {thread : Thread State Lock Task} {queues : Lock → Queue} (shared : State)
    (hid : id ∈ s.threads) (hnodup : ∀ lock, (queues lock).ids.Nodup)
    (hmode : ∀ lock, RequestsMay may lock (queues lock))
    (hothers : ∀ lock other, other ≠ id → (s.queues lock).Keeps (queues lock) other)
    (hthread : ObeysThread may held thread)
    (hrequested : ∀ lock, id ∈ (queues lock).ids ↔ lock ∈ requested held thread)
    (hholds : ∀ lock ∈ held, id ∈ (queues lock).holders) :
    Tracked may ⟨shared, queues, s.threads.insert id thread, s.nextId⟩ where
  nodup := hnodup
  mode := hmode
  thread other thread' h := by
    by_cases hother : other = id
    · subst hother
      rw [AList.lookup_insert] at h
      cases h
      exact ⟨held, hthread, hrequested, hholds⟩
    · rw [AList.lookup_insert_ne hother] at h
      obtain ⟨held', hthread', hrequested, hholds'⟩ := hs.thread other thread' h
      refine ⟨held', hthread', fun lock => ?_, fun lock hlock => ?_⟩
      · exact (hothers lock other hother).1.trans (hrequested lock)
      · exact (hothers lock other hother).2 (hholds' lock hlock)
  queued lock other h := by
    refine AList.mem_insert _ |>.mpr ?_
    by_cases hother : other = id
    · exact .inl hother
    · exact .inr (hs.queued lock other ((hothers lock other hother).1.mp h))
  known other h := by
    rcases AList.mem_insert _ |>.mp h with rfl | hmem
    · exact hs.known _ hid
    · exact hs.known other hmem

/-- A task moves on with the requests and locks it has. -/
theorem Tracked.advance (hs : Tracked may s) {id : Nat} {held : Finset Lock}
    {thread : Thread State Lock Task} (shared : State) (hid : id ∈ s.threads)
    (hthread : ObeysThread may held thread)
    (hrequested : ∀ lock, id ∈ (s.queues lock).ids ↔ lock ∈ requested held thread)
    (hholds : ∀ lock ∈ held, id ∈ (s.queues lock).holders) :
    Tracked may ⟨shared, s.queues, s.threads.insert id thread, s.nextId⟩ :=
  hs.move held shared hid hs.nodup hs.mode (fun _ _ _ => .refl ..) hthread hrequested hholds

/-- A task is gone, with all its requests. -/
theorem Tracked.erase (hs : Tracked may s) {id : Nat} {queues : Lock → Queue}
    (hnodup : ∀ lock, (queues lock).ids.Nodup)
    (hmode : ∀ lock, RequestsMay may lock (queues lock))
    (hgone : ∀ lock, id ∉ (queues lock).ids)
    (hothers : ∀ lock other, other ≠ id → (s.queues lock).Keeps (queues lock) other) :
    Tracked may ⟨s.shared, queues, s.threads.erase id, s.nextId⟩ where
  nodup := hnodup
  mode := hmode
  thread other thread' h := by
    have hother : other ≠ id := by
      rintro rfl
      rw [AList.lookup_erase] at h
      cases h
    rw [AList.lookup_erase_ne hother] at h
    obtain ⟨held, hthread, hrequested, hholds⟩ := hs.thread other thread' h
    refine ⟨held, hthread, fun lock => ?_, fun lock hlock => ?_⟩
    · exact (hothers lock other hother).1.trans (hrequested lock)
    · exact (hothers lock other hother).2 (hholds lock hlock)
  queued lock other h := by
    have hother : other ≠ id := fun heq => hgone lock (heq ▸ h)
    exact AList.mem_erase.mpr ⟨hother, hs.queued lock other ((hothers lock other hother).1.mp h)⟩
  known other h := hs.known other (AList.mem_erase.mp h).2

theorem Tracked.spawn (hs : Tracked may s) {P : Tasks State Lock Task} {task : Task}
    (hbody : Obeys may ∅ ∅ (P.body task)) : Tracked may (s.spawn P task) where
  nodup := hs.nodup
  mode := hs.mode
  thread other thread' h := by
    by_cases hother : other = s.nextId
    · subst hother
      rw [Machine.spawn, AList.lookup_insert] at h
      cases h
      refine ⟨∅, hbody, fun lock => iff_of_false (fun hmem => ?_) (Finset.notMem_empty lock), ?_⟩
      · exact Nat.lt_irrefl _ (hs.known _ (hs.queued lock _ hmem))
      · exact fun lock hlock => absurd hlock (Finset.notMem_empty lock)
    · rw [Machine.spawn, AList.lookup_insert_ne hother] at h
      exact hs.thread other thread' h
  queued lock other h := AList.mem_insert _ |>.mpr (.inr (hs.queued lock other h))
  known other h := by
    rcases AList.mem_insert _ |>.mp h with rfl | hmem
    · exact Nat.lt_succ_self _
    · exact Nat.lt_succ_of_lt (hs.known other hmem)

/-- What one operation of a running task keeps. -/
theorem runProgram_tracked {P : Tasks State Lock Task}
    (hbody : ∀ task, Obeys may ∅ ∅ (P.body task)) (hs : Tracked may s) {id outcome : Nat}
    {code : Program State Lock Task Unit} (hid : s.threads.lookup id = some (.running code)) :
    Tracked may (runProgram P s id outcome code) := by
  have hmem : id ∈ s.threads := AList.lookup_isSome.mp (hid ▸ rfl)
  obtain ⟨held, hcode, hheld, hholds⟩ := hs.thread id _ hid
  cases code with
  | done result =>
    refine hs.erase hs.nodup hs.mode (fun lock hqueued => ?_) fun _ _ _ => .refl ..
    obtain rfl : held = ∅ := hcode
    exact Finset.notMem_empty lock ((hheld lock).mp hqueued)
  | acquire lock mode next =>
    obtain ⟨hnew, hmay, hnext⟩ := hcode
    have hids : (s.queues lock ++ [(id, mode)] : Queue).ids = (s.queues lock).ids ++ [id] :=
      List.map_append
    have hfresh : id ∉ (s.queues lock).ids := fun hqueued => hnew ((hheld lock).mp hqueued)
    refine hs.move held s.shared hmem
      ((Function.forall_update_iff _ fun _ (q : Queue) => q.ids.Nodup).mpr
        ⟨?_, fun lock' _ => hs.nodup lock'⟩)
      ((Function.forall_update_iff _ (RequestsMay may)).mpr ⟨?_, fun lock' _ => hs.mode lock'⟩)
      (fun lock' other hother => ?_) ⟨hnew, ⟨mode, hmay⟩, hnext⟩ (fun lock' => ?_)
      fun lock' hlock' => ?_
    · rw [hids]
      refine List.nodup_append.mpr ⟨hs.nodup lock, List.nodup_singleton id, ?_⟩
      rintro other hother _ hid' rfl
      exact hfresh (List.mem_singleton.mp hid' ▸ hother)
    · intro request hrequest
      rcases List.mem_append.mp hrequest with hold | hlast
      · exact hs.mode lock request hold
      · exact ⟨held, List.mem_singleton.mp hlast ▸ hmay⟩
    · exact (Function.forall_update_iff _ fun lock q => (s.queues lock).Keeps q other).mpr
        ⟨Queue.keeps_append _ mode hother, fun _ _ => .refl ..⟩ lock'
    · by_cases hlock : lock' = lock
      · subst hlock
        simp [Machine.setQueue, hids, requested]
      · simp [Machine.setQueue, requested, hlock, hheld]
    · have hne : lock' ≠ lock := fun heq => hnew (heq ▸ hlock')
      rw [Machine.setQueue_of_ne hne]
      exact hholds lock' hlock'
  | release lock next =>
    obtain ⟨hlock, hnext⟩ := hcode
    refine hs.move (held.erase lock) s.shared hmem
      ((Function.forall_update_iff _ fun _ (q : Queue) => q.ids.Nodup).mpr
        ⟨Queue.nodup_drop (hs.nodup lock) id, fun lock' _ => hs.nodup lock'⟩)
      ((Function.forall_update_iff _ (RequestsMay may)).mpr ⟨?_, fun lock' _ => hs.mode lock'⟩)
      (fun lock' other hother => ?_) hnext (fun lock' => ?_) fun lock' hlock' => ?_
    · exact fun request hrequest => hs.mode lock request (List.mem_of_mem_filter hrequest)
    · exact (Function.forall_update_iff _ fun lock q => (s.queues lock).Keeps q other).mpr
        ⟨Queue.keeps_drop _ hother, fun _ _ => .refl ..⟩ lock'
    · by_cases hlock' : lock' = lock
      · subst hlock'
        simp [Machine.setQueue, Queue.mem_ids_drop, requested]
      · simp [Machine.setQueue, requested, hlock', hheld]
    · obtain ⟨hne, hheld'⟩ := Finset.mem_erase.mp hlock'
      rw [Machine.setQueue_of_ne hne]
      exact hholds lock' hheld'
  | access write next => exact hs.advance (write s.shared) hmem (hcode s.shared) hheld hholds
  | choose next => exact hs.advance s.shared hmem (hcode outcome) hheld hholds
  | spawn task next =>
    have hmem' : id ∈ (s.spawn P task).threads := AList.mem_insert _ |>.mpr (.inr hmem)
    exact (hs.spawn (hbody task)).advance s.shared hmem' hcode hheld hholds

theorem step_tracked {P : Tasks State Lock Task} (hbody : ∀ task, Obeys may ∅ ∅ (P.body task))
    {a : Action Task} (hs : Tracked may s) (h : step P s a = some t) : Tracked may t := by
  cases a with
  | start task =>
    obtain ⟨-, heq⟩ := Option.ite_none_right_eq_some.mp h
    cases heq
    exact hs.spawn (hbody task)
  | run id outcome =>
    simp only [step] at h
    split at h
    · rename_i code hid
      cases h
      exact runProgram_tracked hbody hs hid
    · cases h
  | grant id =>
    simp only [step] at h
    split at h
    · rename_i lock code hid
      obtain ⟨⟨hgranted, -⟩, heq⟩ := Option.ite_none_right_eq_some.mp h
      cases heq
      obtain ⟨held, ⟨-, -, hcode⟩, hheld, hholds⟩ := hs.thread id _ hid
      refine hs.advance s.shared (AList.lookup_isSome.mp (hid ▸ rfl)) hcode hheld ?_
      exact Finset.forall_mem_insert _ _ _ |>.mpr ⟨hgranted, hholds⟩
    · cases h
  | abort id =>
    obtain ⟨-, heq⟩ := Option.ite_none_right_eq_some.mp h
    cases heq
    refine hs.erase (fun lock => Queue.nodup_drop (hs.nodup lock) id) (fun lock request h => ?_)
      (fun lock h => (Queue.mem_ids_drop.mp h).2 rfl) fun _ _ => Queue.keeps_drop _
    exact hs.mode lock request (List.mem_of_mem_filter h)

theorem initial_tracked (P : Tasks State Lock Task) (shared : State) :
    Tracked may (system P shared).init where
  nodup _ := List.nodup_nil
  mode _ request h := absurd h List.not_mem_nil
  thread id thread h := by
    rw [system, AList.lookup_empty] at h
    cases h
  queued lock id h := by cases h
  known id h := absurd h (AList.notMem_empty id)

theorem run_tracked {P : Tasks State Lock Task} (hbody : ∀ task, Obeys may ∅ ∅ (P.body task))
    {shared : State} {actions : List (Action Task)}
    (hrun : (system P shared).run actions = some s) : Tracked may s :=
  System.invariant_run (M := system P shared) (initial_tracked P shared)
    (fun _ _ _ hs hstep => step_tracked hbody hs hstep) hrun

end Discipline
/-! ## Order -/

section Order

variable {State Lock Task Result Result' : Type} (rank : Lock → Nat)

/-- Every lock that is held ranks below the next one. -/
def Below (held : Finset Lock) (n : Nat) : Prop := ∀ lock ∈ held, rank lock < n

variable {rank} in
theorem Below.mono {held : Finset Lock} {m n : Nat} (h : Below rank held m) (hle : m ≤ n) :
    Below rank held n :=
  fun lock hlock => (h lock hlock).trans_le hle

variable {rank} in
theorem Below.notMem {held : Finset Lock} {lock : Lock} (h : Below rank held (rank lock)) :
    lock ∉ held :=
  fun hmem => Nat.lt_irrefl _ (h lock hmem)

variable [DecidableEq Lock]

/-- Whatever happens outside, each lock the program takes ranks above all it holds then, and in the
end it holds what it should. -/
def Ordered (final : Finset Lock) : Finset Lock → Program State Lock Task Result → Prop
  | held, .done _ => held = final
  | held, .acquire lock _ next =>
    Below rank held (rank lock) ∧ Ordered final (insert lock held) next
  | held, .release lock next => lock ∈ held ∧ Ordered final (held.erase lock) next
  | held, .access _ next => ∀ s, Ordered final held (next s)
  | held, .choose next => ∀ n, Ordered final held (next n)
  | held, .spawn _ next => Ordered final held next

/-- Each lock ranks above all that are held when it is asked for. -/
def RankedBy (held : Finset Lock) (lock : Lock) (_ : Mode) : Prop := Below rank held (rank lock)

variable {rank} {final held : Finset Lock}

theorem Below.insert {lock : Lock} {n : Nat} (h : Below rank held n) (hlock : rank lock < n) :
    Below rank (insert lock held) n := by
  intro other hother
  rcases Finset.mem_insert.mp hother with rfl | hheld
  · exact hlock
  · exact h other hheld

theorem ordered_iff {p : Program State Lock Task Result} :
    Ordered rank final held p ↔ Obeys (RankedBy rank) final held p := by
  induction p generalizing held with
  | done result => rfl
  | acquire lock mode next ih =>
    exact ⟨fun h => ⟨h.1.notMem, h.1, ih.mp h.2⟩, fun h => ⟨h.2.1, ih.mpr h.2.2⟩⟩
  | release lock next ih => exact and_congr_right fun _ => ih
  | access write next ih => exact forall_congr' fun s => ih s
  | choose next ih => exact forall_congr' fun n => ih n
  | spawn task next ih => exact ih

theorem Ordered.bind {middle : Finset Lock} {p : Program State Lock Task Result}
    {f : Result → Program State Lock Task Result'} (hp : Ordered rank middle held p)
    (hf : ∀ result, Ordered rank final middle (f result)) : Ordered rank final held (p >>= f) :=
  ordered_iff.mpr ((ordered_iff.mp hp).bind fun result => ordered_iff.mp (hf result))

theorem Ordered.withLock {lock : Lock} {mode : Mode} {body : Program State Lock Task Result}
    (hlock : Below rank held (rank lock))
    (hbody : Ordered rank (insert lock held) (insert lock held) body) :
    Ordered rank held held (.withLock lock mode body) :=
  ordered_iff.mpr (.withLock hlock.notMem hlock (ordered_iff.mp hbody))

variable (rank) in
/-- The program may run under any locks that rank below the level, and drops what it takes. -/
def RunsBelow (level : Nat) (p : Program State Lock Task Result) : Prop :=
  ∀ held, Below rank held level → Ordered rank held held p

section Rules

variable {level : Nat} {p q : Program State Lock Task Result}

theorem RunsBelow.ordered (h : RunsBelow rank level p) : Ordered rank ∅ ∅ p :=
  h ∅ fun lock hlock => absurd hlock (Finset.notMem_empty lock)

theorem RunsBelow.mono {m : Nat} (h : RunsBelow rank level p) (hle : m ≤ level) :
    RunsBelow rank m p :=
  fun held hheld => h held (hheld.mono hle)

theorem RunsBelow.done (result : Result) :
    RunsBelow rank level (pure result : Program State Lock Task Result) :=
  fun _ _ => rfl

theorem RunsBelow.access {write : State → State} {f : State → Result} :
    RunsBelow rank level (.access write fun s => .done (f s) : Program State Lock Task Result) :=
  fun _ _ _ => rfl

theorem RunsBelow.choose {f : Nat → Result} :
    RunsBelow rank level (.choose fun n => .done (f n) : Program State Lock Task Result) :=
  fun _ _ _ => rfl

theorem RunsBelow.start (task : Task) :
    RunsBelow rank level (Program.start task : Program State Lock Task Unit) :=
  fun _ _ => rfl

theorem RunsBelow.bind {f : Result → Program State Lock Task Result'} (hp : RunsBelow rank level p)
    (hf : ∀ result, RunsBelow rank level (f result)) : RunsBelow rank level (p >>= f) :=
  fun held hheld => (hp held hheld).bind fun result => hf result held hheld

theorem RunsBelow.ite {test : Prop} [Decidable test] (hp : RunsBelow rank level p)
    (hq : RunsBelow rank level q) : RunsBelow rank level (if test then p else q) := by
  split
  · exact hp
  · exact hq

theorem RunsBelow.withLock {lock : Lock} {mode : Mode} (hlevel : level ≤ rank lock)
    (hp : RunsBelow rank (rank lock + 1) p) : RunsBelow rank level (.withLock lock mode p) := by
  intro held hheld
  have hlock := hheld.mono hlevel
  exact .withLock hlock (hp _ ((hlock.mono (Nat.le_succ _)).insert (Nat.lt_succ_self _)))

theorem RunsBelow.inSomeOrder {Item : Type} {items : List Item}
    {f : List Item → Program State Lock Task Result}
    (hf : ∀ items, RunsBelow rank level (f items)) :
    RunsBelow rank level (.inSomeOrder items f) :=
  fun held hheld _ => hf _ held hheld

theorem RunsBelow.forEach {Item : Type} {f : Item → Program State Lock Task Unit}
    (hf : ∀ item, RunsBelow rank level (f item)) (items : List Item) :
    RunsBelow rank level (.forEach f items) := by
  induction items with
  | nil => exact .done ()
  | cons item rest ih => exact (hf item).bind fun _ => ih

end Rules

end Order

/-! ## Waiting -/

section Waiting

variable {State Lock Task : Type}

/-- The task has asked for the lock, and its request is not served yet. -/
def Blocked (s : Machine State Lock Task) (id : Nat) (lock : Lock) : Prop :=
  (∃ code, s.threads.lookup id = some (.waiting lock code)) ∧ id ∈ (s.queues lock).waiters

/-- The first task cannot go on before the second has dropped its guard, or has had it. -/
def WaitsFor (s : Machine State Lock Task) (id other : Nat) : Prop :=
  ∃ lock, Blocked s id lock ∧ (s.queues lock).Ahead other id

def NoCycle (s : Machine State Lock Task) : Prop :=
  ∀ id, ¬ Relation.TransGen (WaitsFor s) id id

/-- No task waits for a lock it already holds. -/
def NoReentry (s : Machine State Lock Task) : Prop :=
  ∀ id lock, Blocked s id lock → id ∉ (s.queues lock).holders

/-- The second task waits for a lock of a higher rank, or further ahead for one of the same rank. -/
def Later (rank : Lock → Nat) (s : Machine State Lock Task) (id other : Nat) : Prop :=
  ∃ lock lock' code code', s.threads.lookup id = some (.waiting lock code) ∧
    s.threads.lookup other = some (.waiting lock' code') ∧
    (rank lock < rank lock' ∨ rank lock = rank lock' ∧
      (s.queues lock').ids.idxOf other < (s.queues lock).ids.idxOf id)

section Later

variable {rank : Lock → Nat} {s : Machine State Lock Task}

theorem Later.trans {id middle other : Nat} (h : Later rank s id middle)
    (h' : Later rank s middle other) : Later rank s id other := by
  obtain ⟨lock, lock', code, code', hid, hmiddle, horder⟩ := h
  obtain ⟨lock₂, lock'', code₂, code'', hmiddle₂, hother, horder'⟩ := h'
  rw [hmiddle] at hmiddle₂
  cases hmiddle₂
  exact ⟨lock, lock'', code, code'', hid, hother, by omega⟩

theorem Later.irrefl {id : Nat} (h : Later rank s id id) : False := by
  obtain ⟨lock, lock', code, code', hid, hid', horder⟩ := h
  rw [hid] at hid'
  cases hid'
  omega

/-- Who waits for another can only be on a cycle if it is blocked. -/
theorem blocked_of_cycle {id : Nat} (h : Relation.TransGen (WaitsFor s) id id) :
    ∃ lock, Blocked s id lock := by
  obtain ⟨_, ⟨lock, hblocked, -⟩, -⟩ := Relation.TransGen.head'_iff.mp h
  exact ⟨lock, hblocked⟩

variable (rank) in
/-- There is no cycle if on every cycle tasks wait for later ones. -/
theorem noCycle_of_later (h : ∀ id other, Relation.TransGen (WaitsFor s) id id →
    Relation.TransGen (WaitsFor s) other other → WaitsFor s id other → Later rank s id other) :
    NoCycle s := by
  intro id hcycle
  have hlater : ∀ other, Relation.TransGen (WaitsFor s) id other →
      Relation.ReflTransGen (WaitsFor s) other id → Later rank s id other := by
    intro other hpath
    induction hpath with
    | single hlast =>
      intro hback
      exact h id _ hcycle (.tail' hback hlast) hlast
    | tail hpath hlast ih =>
      intro hback
      have hmiddle : Relation.ReflTransGen (WaitsFor s) _ id := hback.head hlast
      have hcycle' := Relation.TransGen.trans_right hmiddle hpath
      have hother := Relation.TransGen.tail' (hback.trans hpath.to_reflTransGen) hlast
      exact (ih hmiddle).trans (h _ _ hcycle' hother hlast)
  exact (hlater id hcycle .refl).irrefl

end Later

variable [DecidableEq Lock] (rank : Lock → Nat)

def OrderedThread (held : Finset Lock) : Thread State Lock Task → Prop
  | .running code => Ordered rank ∅ held code
  | .waiting lock code => Below rank held (rank lock) ∧ Ordered rank ∅ (insert lock held) code

/-- Each task's code is ordered, and its requests are those of the locks it holds and waits for. -/
structure Consistent (s : Machine State Lock Task) : Prop where
  nodup : ∀ lock, (s.queues lock).ids.Nodup
  thread : ∀ id thread, s.threads.lookup id = some thread → ∃ held,
    OrderedThread rank held thread ∧ ∀ lock, id ∈ (s.queues lock).ids ↔ lock ∈ requested held thread
  queued : ∀ lock id, id ∈ (s.queues lock).ids → id ∈ s.threads
  known : ∀ id, id ∈ s.threads → id < s.nextId

variable {rank} {s : Machine State Lock Task}

theorem Tracked.consistent (hs : Tracked (RankedBy rank) s) : Consistent rank s where
  nodup := hs.nodup
  thread id thread h := by
    obtain ⟨held, hthread, hrequested, -⟩ := hs.thread id thread h
    refine ⟨held, ?_, hrequested⟩
    cases thread with
    | running code => exact ordered_iff.mpr hthread
    | waiting lock code =>
      obtain ⟨-, ⟨_, hbelow⟩, hcode⟩ := hthread
      exact ⟨hbelow, ordered_iff.mpr hcode⟩
  queued := hs.queued
  known := hs.known

theorem run_consistent {P : Tasks State Lock Task}
    (hbody : ∀ task, Ordered rank ∅ ∅ (P.body task)) {shared : State} {actions : List (Action Task)}
    (hrun : (system P shared).run actions = some s) : Consistent rank s :=
  (run_tracked (fun task => ordered_iff.mp (hbody task)) hrun).consistent

/-! ## No cycle -/

/-- A task that others wait for holds what they ask for or stands before them in the queue. -/
theorem WaitsFor.later (hs : Consistent rank s) {id other : Nat} {lock' : Lock}
    {code' : Program State Lock Task Unit} (h : WaitsFor s id other)
    (hother : s.threads.lookup other = some (.waiting lock' code')) : Later rank s id other := by
  obtain ⟨lock, ⟨⟨code, hid⟩, -⟩, hahead⟩ := h
  refine ⟨lock, lock', code, code', hid, hother, ?_⟩
  obtain ⟨held, ⟨hbelow, -⟩, hrequested⟩ := hs.thread other _ hother
  rcases Finset.mem_insert.mp ((hrequested lock).mp hahead.mem) with rfl | hheld
  · exact .inr ⟨rfl, hahead.idxOf_lt (hs.nodup lock)⟩
  · exact .inl (hbelow lock hheld)

theorem Consistent.noCycle (hs : Consistent rank s) : NoCycle s := by
  refine noCycle_of_later rank fun id other _ hother h => ?_
  obtain ⟨lock, ⟨code, hcode⟩, -⟩ := blocked_of_cycle hother
  exact h.later hs hcode

theorem Consistent.noReentry (hs : Consistent rank s) : NoReentry s :=
  fun _ lock hblocked hholds => Queue.notMem_waiters (hs.nodup lock) hholds hblocked.2

theorem exists_ahead {q : Queue} {id : Nat} (hid : id ∈ q.ids) (hholders : id ∉ q.holders) :
    ∃ other, q.Ahead other id := by
  match q with
  | (first, mode) :: rest =>
    have hfirst : first ∈ Queue.holders ((first, mode) :: rest) := by
      cases mode <;> simp [Queue.holders, Queue.ids]
    have hrest : id ∈ Queue.ids rest := by
      rcases List.mem_cons.mp hid with rfl | hmem
      · exact absurd hfirst hholders
      · exact hmem
    exact ⟨first, (List.singleton_sublist.mpr hrest).cons_cons first⟩

/-- As long as there are tasks, one of them is not blocked. -/
theorem Consistent.exists_unblocked (hs : Consistent rank s) {id : Nat} (hid : id ∈ s.threads) :
    ∃ other ∈ s.threads, ∀ lock, ¬ Blocked s other lock := by
  by_contra hall
  push Not at hall
  let r : {other // other ∈ s.threads.keys.toFinset} → {other // other ∈ s.threads.keys.toFinset} →
    Prop := fun a b => Relation.TransGen (WaitsFor s) b a
  have hirrefl : Std.Irrefl r := ⟨fun a => hs.noCycle a⟩
  have htrans : IsTrans _ r := ⟨fun _ _ _ hab hbc => hbc.trans hab⟩
  obtain ⟨⟨last, hlast⟩, -, hmin⟩ := (Finite.wellFounded_of_trans_of_irrefl r).has_min Set.univ
    ⟨⟨id, List.mem_toFinset.mpr (AList.mem_keys.mp hid)⟩, trivial⟩
  obtain ⟨lock, hblocked⟩ := hall last (AList.mem_keys.mpr (List.mem_toFinset.mp hlast))
  have hholders := hs.noReentry last lock hblocked
  obtain ⟨code, hcode⟩ := hblocked.1
  obtain ⟨held, -, hrequested⟩ := hs.thread last _ hcode
  obtain ⟨other, hahead⟩ :=
    exists_ahead ((hrequested lock).mpr (Finset.mem_insert_self ..)) hholders
  have hother : other ∈ s.threads.keys.toFinset :=
    List.mem_toFinset.mpr (AList.mem_keys.mp (hs.queued lock other hahead.mem))
  exact hmin ⟨other, hother⟩ trivial (.single ⟨lock, hblocked, hahead⟩)

end Waiting

end OpenMeet.LockOrder
