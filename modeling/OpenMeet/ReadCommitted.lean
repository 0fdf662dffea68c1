import Mathlib.Data.Finset.Lattice.Lemmas
import OpenMeet.KeyedMap
import OpenMeet.TransitionSystem

/-!
Transactions under READ COMMITTED. A statement sees what is committed when it
runs and what its own transaction has written, and waits until the rows it locks
are free. What a transaction has written is there for the others, and its rows
are free again, once it commits. An invariant is proved transaction by
transaction: what a statement establishes, and what is kept while another
transaction, which has other rows locked, commits.
-/
namespace OpenMeet.ReadCommitted

open KeyedMap TransitionSystem

structure Transaction (Stage Lock : Type*) where
  stage : Stage
  locks : Finset Lock

/-- The stage of a transaction says what it has written so far. Its next statement leads to another
stage and locks some rows; there is none if the transaction gives up. -/
structure Programs (Db Stage Lock : Type*) where
  initial : Stage → Bool
  effect : Stage → Db → Db
  statement : Stage → Db → Option (Stage × Finset Lock)
  finished : Stage → Bool

/-- The same programs where only transactions at the allowed stages commit. -/
def Programs.only {Db Stage Lock : Type*} (P : Programs Db Stage Lock) (allowed : Stage → Bool) :
    Programs Db Stage Lock :=
  { P with finished := fun stage => P.finished stage && allowed stage }

/-- The same programs where only transactions at the allowed stages begin. -/
def Programs.starting {Db Stage Lock : Type*} (P : Programs Db Stage Lock)
    (allowed : Stage → Bool) : Programs Db Stage Lock :=
  { P with initial := fun stage => P.initial stage && allowed stage }

/-- The transactions of two programs, on the same tables and rows. -/
def Programs.sum {Db Stage Stage' Lock : Type*} (P : Programs Db Stage Lock)
    (Q : Programs Db Stage' Lock) : Programs Db (Stage ⊕ Stage') Lock where
  initial := Sum.elim P.initial Q.initial
  effect := Sum.elim P.effect Q.effect
  statement
    | .inl stage => fun db => (P.statement stage db).map fun row => (.inl row.1, row.2)
    | .inr stage => fun db => (Q.statement stage db).map fun row => (.inr row.1, row.2)
  finished := Sum.elim P.finished Q.finished

/-- A request on its way: still to be checked against what is committed, or in its transaction. -/
inductive Prepared (Request Stage : Type*)
  | waiting (request : Request)
  | running (request : Request) (stage : Stage)

/-- The same programs where a request is prepared before its transaction begins, without a lock. -/
def Programs.prepared {Db Stage Lock Request : Type*} (P : Programs Db Stage Lock)
    (prepare : Request → Db → Option Stage) : Programs Db (Prepared Request Stage) Lock where
  initial
    | .waiting _ => true
    | .running _ _ => false
  effect
    | .waiting _ => id
    | .running _ stage => P.effect stage
  statement
    | .waiting request => fun db =>
      (prepare request db).map fun stage => (.running request stage, ∅)
    | .running request stage => fun db =>
      (P.statement stage db).map fun row => (.running request row.1, row.2)
  finished
    | .waiting _ => false
    | .running _ stage => P.finished stage

structure Shared (Db Stage Lock : Type*) where
  db : Db
  transactions : Map Nat (Transaction Stage Lock)

inductive Action (Stage : Type*)
  | begin (id : Nat) (stage : Stage)
  | run (id : Nat)
  | commit (id : Nat)
  | abort (id : Nat)

section System

variable {Db Stage Lock : Type*} [DecidableEq Lock] (P : Programs Db Stage Lock)

/-- No other transaction has locked one of the rows. -/
def free (s : Shared Db Stage Lock) (id : Nat) (locks : Finset Lock) : Bool :=
  s.transactions.entries.all fun row => row.1 = id || locks ∩ row.2.locks = ∅

def runStatement (s : Shared Db Stage Lock) (id : Nat) : Option (Shared Db Stage Lock) :=
  match s.transactions.lookup id with
  | none => none
  | some tx =>
    match P.statement tx.stage (P.effect tx.stage s.db) with
    | none => none
    | some (stage, locks) =>
      if free s id locks then
        some { s with transactions := s.transactions.insert id ⟨stage, tx.locks ∪ locks⟩ }
      else none

def commitTransaction (s : Shared Db Stage Lock) (id : Nat) : Option (Shared Db Stage Lock) :=
  match s.transactions.lookup id with
  | none => none
  | some tx =>
    if P.finished tx.stage then
      some ⟨P.effect tx.stage s.db, s.transactions.erase id⟩
    else none

def step (s : Shared Db Stage Lock) : Action Stage → Option (Shared Db Stage Lock)
  | .begin id stage =>
    if P.initial stage = true ∧ id ∉ s.transactions then
      some { s with transactions := s.transactions.insert id ⟨stage, ∅⟩ }
    else none
  | .run id => runStatement P s id
  | .commit id => commitTransaction P s id
  | .abort id =>
    if id ∈ s.transactions then some { s with transactions := s.transactions.erase id } else none

def system (db : Db) : System (Shared Db Stage Lock) (Action Stage) := ⟨⟨db, ∅⟩, step P⟩

end System

section Invariants

variable {Db Stage Lock : Type*} {P : Programs Db Stage Lock}
  {I : Db → Prop} {J : Db → Transaction Stage Lock → Prop} {s t : Shared Db Stage Lock}

theorem commitTransaction_some {id : Nat} (h : commitTransaction P s id = some t) :
    ∃ tx, s.transactions.lookup id = some tx ∧ P.finished tx.stage = true ∧
      t = ⟨P.effect tx.stage s.db, s.transactions.erase id⟩ := by
  unfold commitTransaction at h
  split at h
  · cases h
  · rename_i tx htx
    obtain ⟨hfinished, heq⟩ := Option.ite_none_right_eq_some.mp h
    cases heq
    exact ⟨tx, htx, hfinished, rfl⟩

theorem commitTransaction_of_finished {id : Nat} {tx : Transaction Stage Lock}
    (htx : s.transactions.lookup id = some tx) (hfinished : P.finished tx.stage = true) :
    commitTransaction P s id = some ⟨P.effect tx.stage s.db, s.transactions.erase id⟩ := by
  unfold commitTransaction
  rw [htx]
  exact if_pos hfinished

/-- What holds of the database, of each transaction, and between any two. -/
structure Holds (I : Db → Prop) (J : Db → Transaction Stage Lock → Prop)
    (s : Shared Db Stage Lock) : Prop where
  db : I s.db
  transactions : ∀ id tx, s.transactions.lookup id = some tx → J s.db tx
  exclusive : ∀ id id' tx tx', id ≠ id' → s.transactions.lookup id = some tx →
    s.transactions.lookup id' = some tx' → Disjoint tx.locks tx'.locks

theorem Holds.insert (hs : Holds I J s) {id : Nat} {tx : Transaction Stage Lock}
    (htx : J s.db tx) (hdisjoint : ∀ other tx', other ≠ id →
      s.transactions.lookup other = some tx' → Disjoint tx.locks tx'.locks) :
    Holds I J { s with transactions := s.transactions.insert id tx } where
  db := hs.db
  transactions other tx' h := by
    by_cases hother : other = id
    · subst hother
      rw [AList.lookup_insert] at h
      exact Option.some.inj h ▸ htx
    · rw [AList.lookup_insert_ne hother] at h
      exact hs.transactions other tx' h
  exclusive first second tx' tx'' hne h h' := by
    by_cases hfirst : first = id
    · subst hfirst
      rw [AList.lookup_insert] at h
      rw [AList.lookup_insert_ne hne.symm] at h'
      exact Option.some.inj h ▸ hdisjoint second tx'' hne.symm h'
    · rw [AList.lookup_insert_ne hfirst] at h
      by_cases hsecond : second = id
      · subst hsecond
        rw [AList.lookup_insert] at h'
        exact Option.some.inj h' ▸ (hdisjoint first tx' hfirst h).symm
      · rw [AList.lookup_insert_ne hsecond] at h'
        exact hs.exclusive first second tx' tx'' hne h h'

theorem lookup_of_erase {id other : Nat} {tx : Transaction Stage Lock}
    (h : (s.transactions.erase id).lookup other = some tx) :
    other ≠ id ∧ s.transactions.lookup other = some tx := by
  have hne : other ≠ id := by
    rintro rfl
    rw [AList.lookup_erase] at h
    cases h
  rw [AList.lookup_erase_ne hne] at h
  exact ⟨hne, h⟩

variable [DecidableEq Lock]

theorem runStatement_some {id : Nat} (h : runStatement P s id = some t) :
    ∃ tx stage locks, s.transactions.lookup id = some tx ∧
      P.statement tx.stage (P.effect tx.stage s.db) = some (stage, locks) ∧
      free s id locks = true ∧
      t = { s with transactions := s.transactions.insert id ⟨stage, tx.locks ∪ locks⟩ } := by
  unfold runStatement at h
  split at h
  · cases h
  · rename_i tx htx
    split at h
    · cases h
    · rename_i stage locks hstatement
      obtain ⟨hfree, heq⟩ := Option.ite_none_right_eq_some.mp h
      cases heq
      exact ⟨tx, stage, locks, htx, hstatement, hfree, rfl⟩

theorem disjoint_of_free {id other : Nat} {locks : Finset Lock} {tx : Transaction Stage Lock}
    (h : free s id locks = true) (hne : other ≠ id) (htx : s.transactions.lookup other = some tx) :
    Disjoint locks tx.locks := by
  have hrow := List.all_eq_true.mp h ⟨other, tx⟩ (AList.mem_lookup_iff.mp htx)
  rw [Bool.or_eq_true, decide_eq_true_eq, decide_eq_true_eq] at hrow
  exact Finset.disjoint_iff_inter_eq_empty.mpr (hrow.resolve_left hne)

/-- One transaction's statements and commit keep the invariant, and so do the others' commits. -/
structure Stable (P : Programs Db Stage Lock) (I : Db → Prop)
    (J : Db → Transaction Stage Lock → Prop) : Prop where
  begun : ∀ db stage, I db → P.initial stage = true → J db ⟨stage, ∅⟩
  ran : ∀ db tx stage locks, I db → J db tx →
    P.statement tx.stage (P.effect tx.stage db) = some (stage, locks) →
      J db ⟨stage, tx.locks ∪ locks⟩
  committed : ∀ db tx, I db → J db tx → P.finished tx.stage = true → I (P.effect tx.stage db)
  kept : ∀ db tx other, I db → J db tx → J db other → Disjoint tx.locks other.locks →
    P.finished other.stage = true → J (P.effect other.stage db) tx

theorem Stable.step (h : Stable P I J) {a : Action Stage} (hs : Holds I J s)
    (hstep : ReadCommitted.step P s a = some t) : Holds I J t := by
  cases a with
  | begin id stage =>
    obtain ⟨⟨hinitial, -⟩, heq⟩ := Option.ite_none_right_eq_some.mp hstep
    cases heq
    exact hs.insert (h.begun s.db stage hs.db hinitial) fun _ _ _ _ => Finset.disjoint_empty_left _
  | run id =>
    obtain ⟨tx, stage, locks, htx, hstatement, hfree, rfl⟩ := runStatement_some hstep
    refine hs.insert (h.ran s.db tx stage locks hs.db (hs.transactions id tx htx) hstatement) ?_
    intro other tx' hne htx'
    exact Finset.disjoint_union_left.mpr
      ⟨hs.exclusive id other tx tx' hne.symm htx htx', disjoint_of_free hfree hne htx'⟩
  | commit id =>
    obtain ⟨tx, htx, hfinished, rfl⟩ := commitTransaction_some hstep
    have hcommit := hs.transactions id tx htx
    constructor
    · exact h.committed s.db tx hs.db hcommit hfinished
    · intro other tx' hother
      obtain ⟨hne, htx'⟩ := lookup_of_erase hother
      exact h.kept s.db tx' tx hs.db (hs.transactions other tx' htx') hcommit
        (hs.exclusive other id tx' tx hne htx' htx) hfinished
    · intro first second tx' tx'' hne hfirst hsecond
      exact hs.exclusive first second tx' tx'' hne (lookup_of_erase hfirst).2
        (lookup_of_erase hsecond).2
  | abort id =>
    obtain ⟨-, heq⟩ := Option.ite_none_right_eq_some.mp hstep
    cases heq
    exact ⟨hs.db, fun other tx hother => hs.transactions other tx (lookup_of_erase hother).2,
      fun first second tx tx' hne hfirst hsecond => hs.exclusive first second tx tx' hne
        (lookup_of_erase hfirst).2 (lookup_of_erase hsecond).2⟩

theorem Stable.runFrom (h : Stable P I J) {db : Db} {actions : List (Action Stage)}
    (hs : Holds I J s) (hrun : (system P db).runFrom s actions = some t) : Holds I J t :=
  System.invariant_runFrom (M := system P db) (I := Holds I J)
    (fun _ _ _ hs hstep => h.step hs hstep) hs hrun

theorem Stable.always (h : Stable P I J) {db : Db} (hs : Holds I J s)
    (actions : List (Action Stage)) : (system P db).Always (Holds I J) s actions :=
  System.always_of_invariant (M := system P db) (fun _ _ _ hs hstep => h.step hs hstep) hs actions

theorem Holds.init {db : Db} (h : I db) : Holds I J (system P db).init where
  db := h
  transactions id tx hlookup := by
    rw [system, AList.lookup_empty] at hlookup
    cases hlookup
  exclusive id id' tx tx' _ hlookup := by
    rw [system, AList.lookup_empty] at hlookup
    cases hlookup

/-- An invariant of the database that the commits keep may be added to one that holds. -/
theorem Stable.and (h : Stable P I J) {I' : Db → Prop}
    (hcommitted : ∀ db tx, I db → J db tx → P.finished tx.stage = true → I' db →
      I' (P.effect tx.stage db)) :
    Stable P (fun db => I db ∧ I' db) J where
  begun db stage hI := h.begun db stage hI.1
  ran db tx stage locks hI := h.ran db tx stage locks hI.1
  committed db tx hI hJ hfinished :=
    ⟨h.committed db tx hI.1 hJ hfinished, hcommitted db tx hI.1 hJ hfinished hI.2⟩
  kept db tx other hI := h.kept db tx other hI.1

/-- Along a run, what every commit keeps is kept. -/
theorem Stable.kept_runFrom (h : Stable P I J) {I' : Db → Prop}
    (hcommitted : ∀ db tx, I db → J db tx → P.finished tx.stage = true → I' db →
      I' (P.effect tx.stage db))
    {db : Db} {actions : List (Action Stage)} (hs : Holds I J s) (hI' : I' s.db)
    (hrun : (system P db).runFrom s actions = some t) : I' t.db :=
  ((h.and hcommitted).runFrom ⟨⟨hs.db, hI'⟩, hs.transactions, hs.exclusive⟩ hrun).db.2

/-- What a transaction relies on once its request is prepared, and what the request says of it. -/
def PreparedJ {Request : Type*} (J : Db → Transaction Stage Lock → Prop)
    (F : Request → Stage → Prop) (db : Db) (tx : Transaction (Prepared Request Stage) Lock) :
    Prop :=
  match tx.stage with
  | .waiting _ => tx.locks = ∅
  | .running request stage => F request stage ∧ J db ⟨stage, tx.locks⟩

/-- Preparing a request adds nothing to lock and nothing to rely on. -/
theorem Stable.prepared {Request : Type*} {F : Request → Stage → Prop} (h : Stable P I J)
    {prepare : Request → Db → Option Stage}
    (hprepare : ∀ request db stage, prepare request db = some stage →
      P.initial stage = true ∧ F request stage)
    (hstatement : ∀ request db stage next locks, F request stage →
      P.statement stage db = some (next, locks) → F request next) :
    Stable (P.prepared prepare) I (PreparedJ J F) where
  begun db stage hI hinitial := by
    cases stage with
    | waiting request => rfl
    | running request stage => cases hinitial
  ran db tx stage locks hI hJ hran := by
    obtain ⟨current, held⟩ := tx
    cases current with
    | waiting request =>
      obtain rfl : held = ∅ := hJ
      obtain ⟨next, hnext, heq⟩ := Option.map_eq_some_iff.mp hran
      cases heq
      obtain ⟨hinitial, hF⟩ := hprepare request _ next hnext
      have hbegun := h.begun db next hI hinitial
      exact ⟨hF, by simpa using hbegun⟩
    | running request current =>
      obtain ⟨hF, hJ⟩ := hJ
      obtain ⟨⟨next, others⟩, hnext, heq⟩ := Option.map_eq_some_iff.mp hran
      cases heq
      exact ⟨hstatement request _ current next others hF hnext, h.ran db _ next others hI hJ hnext⟩
  committed db tx hI hJ hfinished := by
    obtain ⟨current, held⟩ := tx
    cases current with
    | waiting request => cases hfinished
    | running request current => exact h.committed db _ hI hJ.2 hfinished
  kept db tx other hI hJ hother hdisjoint hfinished := by
    obtain ⟨current, held⟩ := tx
    obtain ⟨writer, locks⟩ := other
    cases writer with
    | waiting request => cases hfinished
    | running request writer =>
      cases current with
      | waiting request' => exact hJ
      | running request' current =>
        exact ⟨hJ.1, h.kept db _ _ hI hJ.2 hother.2 hdisjoint hfinished⟩

/-- What the commits of a run put out, in their order. -/
def commits {Output : Type*} (out : Stage → List Output) (s : Shared Db Stage Lock) :
    Action Stage → List Output
  | .commit id => (s.transactions.lookup id).elim [] fun tx => out tx.stage
  | _ => []

/-- A run does to what is observed of the database what its commits say. -/
theorem Stable.observe_runFrom (h : Stable P I J) {Value Output : Type*} {observe : Db → Value}
    {out : Stage → List Output} {update : Value → Output → Value}
    (hcommit : ∀ db tx, I db → J db tx → P.finished tx.stage = true →
      observe (P.effect tx.stage db) = (out tx.stage).foldl update (observe db))
    {db : Db} {actions : List (Action Stage)} (hs : Holds I J s)
    (hrun : (system P db).runFrom s actions = some t) :
    observe t.db = ((system P db).outputs (commits out) s actions).foldl update
      (observe s.db) := by
  induction actions generalizing s with
  | nil =>
    cases hrun
    rfl
  | cons a rest ih =>
    obtain ⟨u, hu, hrest⟩ := Option.bind_eq_some_iff.mp hrun
    have hstep : observe u.db = (commits out s a).foldl update (observe s.db) := by
      cases a with
      | begin id stage =>
        obtain ⟨-, heq⟩ := Option.ite_none_right_eq_some.mp hu
        cases heq
        rfl
      | run id =>
        obtain ⟨tx, stage, locks, -, -, -, rfl⟩ := runStatement_some hu
        rfl
      | commit id =>
        obtain ⟨tx, htx, hfinished, rfl⟩ := commitTransaction_some hu
        rw [commits, htx]
        exact hcommit s.db tx hs.db (hs.transactions id tx htx) hfinished
      | abort id =>
        obtain ⟨-, heq⟩ := Option.ite_none_right_eq_some.mp hu
        cases heq
        rfl
    rw [ih (h.step hs hu) hrest, hstep, System.outputs, hu, Option.elim_some, List.foldl_append]

end Invariants

end OpenMeet.ReadCommitted
