import Mathlib.Data.List.Basic
import OpenMeet.KeyedMap
import OpenMeet.TransitionSystem

/-!
Requests that read a row in one statement and write it in another, with nothing
held in between. What a request writes is prepared from the row it has read, and
is stored in the row as it is by then. Only the writes change the row, so what
holds of the row and of the requests written so far holds along a run exactly
when every write meets its condition.
-/
namespace OpenMeet.ReadThenWrite

open KeyedMap TransitionSystem

/-- What a request prepares from the row, unless it is refused, and what is stored of it. -/
structure Endpoint (Row Request Written : Type*) where
  prepare : Request → Row → Option Written
  store : Written → Row → Row

structure State (Row Request : Type*) where
  row : Row
  pending : Map Nat (Request × Row)
  committed : List Request

inductive Action (Request : Type*)
  | read (id : Nat) (request : Request)
  | write (id : Nat)
  | abandon (id : Nat)

variable {Row Request Written : Type*} (E : Endpoint Row Request Written)

def step (s : State Row Request) : Action Request → Option (State Row Request)
  | .read id request =>
    if id ∈ s.pending then none
    else some { s with pending := s.pending.insert id (request, s.row) }
  | .write id =>
    (s.pending.lookup id).bind fun request =>
      (E.prepare request.1 request.2).map fun written =>
        { row := E.store written s.row
          pending := s.pending.erase id
          committed := s.committed ++ [request.1] }
  | .abandon id =>
    if id ∈ s.pending then some { s with pending := s.pending.erase id } else none

def system (row : Row) : System (State Row Request) (Action Request) := ⟨⟨row, ∅, []⟩, step E⟩

variable {E} {s t : State Row Request} {id : Nat}

theorem write_some (h : step E s (.write id) = some t) :
    ∃ request seen written, s.pending.lookup id = some (request, seen) ∧
      E.prepare request seen = some written ∧
      t = { row := E.store written s.row
            pending := s.pending.erase id
            committed := s.committed ++ [request] } := by
  obtain ⟨⟨request, seen⟩, hpending, h⟩ := Option.bind_eq_some_iff.mp h
  obtain ⟨written, hprepare, rfl⟩ := Option.map_eq_some_iff.mp h
  exact ⟨request, seen, written, hpending, hprepare, rfl⟩

theorem write_none (h : step E s (.write id) = none) {request : Request} {seen : Row}
    (hpending : s.pending.lookup id = some (request, seen)) : E.prepare request seen = none := by
  simpa [step, hpending] using h

/-- Reading and giving up leave the row and the committed requests alone. -/
theorem unchanged_of_step {a : Action Request} (ha : ∀ id, a ≠ .write id)
    (h : step E s a = some t) : t.row = s.row ∧ t.committed = s.committed := by
  cases a with
  | read id request =>
    obtain ⟨-, heq⟩ := Option.ite_none_left_eq_some.mp h
    cases heq
    exact ⟨rfl, rfl⟩
  | write id => exact absurd rfl (ha id)
  | abandon id =>
    obtain ⟨-, heq⟩ := Option.ite_none_right_eq_some.mp h
    cases heq
    exact ⟨rfl, rfl⟩

/-- A property of the row and the committed requests that a write keeps exactly when it meets the
condition holds along a run exactly when all writes do. -/
theorem always_iff_writes {row : Row} {J P : Row → List Request → Prop}
    {G : State Row Request → Nat → Prop}
    (hJ : ∀ s id t, J s.row s.committed → step E s (.write id) = some t → J t.row t.committed)
    (hstep : ∀ s id t, J s.row s.committed → P s.row s.committed →
      step E s (.write id) = some t → (P t.row t.committed ↔ G s id))
    (hidle : ∀ s id, step E s (.write id) = none → G s id)
    (hinit : J row []) (hstart : P row []) (actions : List (Action Request)) :
    (system E row).Always (fun s => P s.row s.committed) (system E row).init actions ↔
      (system E row).Guarded (fun s a => ∀ id, a = .write id → G s id) (system E row).init
        actions := by
  apply System.always_iff_guarded (M := system E row) (J := fun s => J s.row s.committed)
  · intro s a t hs _ h
    by_cases ha : ∃ id, a = .write id
    · obtain ⟨id, rfl⟩ := ha
      exact hJ s id t hs h
    · obtain ⟨hrow, hcommitted⟩ := unchanged_of_step (fun id heq => ha ⟨id, heq⟩) h
      rw [hrow, hcommitted]
      exact hs
  · intro s a t hs hP h
    by_cases ha : ∃ id, a = .write id
    · obtain ⟨id, rfl⟩ := ha
      rw [hstep s id t hs hP h]
      constructor
      · intro hG other heq
        cases heq
        exact hG
      · intro hG
        exact hG id rfl
    · obtain ⟨hrow, hcommitted⟩ := unchanged_of_step (fun id heq => ha ⟨id, heq⟩) h
      rw [hrow, hcommitted]
      exact ⟨fun _ id heq => absurd ⟨id, heq⟩ ha, fun _ => hP⟩
  · intro s a h id heq
    subst heq
    exact hidle s id h
  · exact hinit
  · exact hstart

end OpenMeet.ReadThenWrite
