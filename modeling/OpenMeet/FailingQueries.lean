import Mathlib.Logic.Basic

/-!
Request handlers whose queries may fail. A handler runs under at most one
failure, at a query named by its place in the handler; the database may have
carried the query out when its answer was lost. A transaction whose body ends
with an error leaves the database as it was, so an error undoes everything
unless it comes after a commit.
-/
namespace OpenMeet.FailingQueries

/-- The query that fails, and whether the database had carried it out. -/
structure Failure (Query : Type) where
  query : Query
  carriedOut : Bool
  deriving DecidableEq, Repr

structure Handler (Query Db ε α : Type) where
  run : Option (Failure Query) → Db → Except ε α × Db

variable {Query Db ε α β : Type}

namespace Handler

instance : Monad (Handler Query Db ε) where
  pure a := ⟨fun _ db => (.ok a, db)⟩
  bind h next := ⟨fun failure db =>
    match h.run failure db with
    | (.error e, after) => (.error e, after)
    | (.ok a, after) => (next a).run failure after⟩

/-- A check of the handler's own, without a query. -/
def raise (result : Except ε α) : Handler Query Db ε α :=
  ⟨fun _ db => (result, db)⟩

/-- A failure is logged, and the handler goes on. -/
def attempt (h : Handler Query Db ε α) : Handler Query Db ε (Option α) :=
  ⟨fun failure db =>
    let (result, after) := h.run failure db
    (.ok result.toOption, after)⟩

section Queries

variable [DecidableEq Query] (failed : ε)

def query (label : Query) (run : Db → Except ε α × Db) : Handler Query Db ε α :=
  ⟨fun failure db =>
    match failure.filter (·.query = label) with
    | some f => (.error failed, if f.carriedOut then (run db).2 else db)
    | none => run db⟩

def read (label : Query) (value : Db → Except ε α) : Handler Query Db ε α :=
  query failed label fun db => (value db, db)

/-- The body between BEGIN and COMMIT; its error rolls the database back, and so does the end of
a connection whose COMMIT was not carried out. -/
def transaction (start commit rollback : Query) (body : Handler Query Db ε α) :
    Handler Query Db ε α :=
  ⟨fun failure db =>
    if failure.any (·.query = start) then (.error failed, db)
    else
      match body.run failure db with
      | (.error e, _) => (.error (if failure.any (·.query = rollback) then failed else e), db)
      | (.ok a, after) =>
        match failure.filter (·.query = commit) with
        | some f => (.error failed, if f.carriedOut then after else db)
        | none => (.ok a, after)⟩

theorem query_run (label : Query) (run : Db → Except ε α × Db) (failure : Option (Failure Query))
    (db : Db) :
    (query failed label run).run failure db =
      match failure.filter (·.query = label) with
      | some f => (.error failed, if f.carriedOut then (run db).2 else db)
      | none => run db := rfl

theorem transaction_run (start commit rollback : Query) (body : Handler Query Db ε α)
    (failure : Option (Failure Query)) (db : Db) :
    (transaction failed start commit rollback body).run failure db =
      if failure.any (·.query = start) then (.error failed, db)
      else
        match body.run failure db with
        | (.error e, _) => (.error (if failure.any (·.query = rollback) then failed else e), db)
        | (.ok a, after) =>
          match failure.filter (·.query = commit) with
          | some f => (.error failed, if f.carriedOut then after else db)
          | none => (.ok a, after) := rfl

end Queries

theorem bind_apply (h : Handler Query Db ε α) (next : α → Handler Query Db ε β)
    (failure : Option (Failure Query)) (db : Db) :
    (h >>= next).run failure db =
      match h.run failure db with
      | (.error e, after) => (.error e, after)
      | (.ok a, after) => (next a).run failure after := rfl

theorem bind_of_ok {h : Handler Query Db ε α} {next : α → Handler Query Db ε β}
    {failure : Option (Failure Query)} {db mid : Db} {a : α}
    (hok : h.run failure db = (.ok a, mid)) :
    (h >>= next).run failure db = (next a).run failure mid := by
  rw [bind_apply, hok]

theorem ok_of_bind {h : Handler Query Db ε α} {next : α → Handler Query Db ε β}
    {failure : Option (Failure Query)} {db after : Db} {b : β}
    (hok : (h >>= next).run failure db = (.ok b, after)) :
    ∃ a mid, h.run failure db = (.ok a, mid) := by
  rw [bind_apply] at hok
  match hrun : h.run failure db with
  | (.error e, mid) =>
    rw [hrun] at hok
    cases hok
  | (.ok a, mid) => exact ⟨a, mid, rfl⟩

theorem raise_eq_ok_iff {result : Except ε α} {failure : Option (Failure Query)} {db : Db}
    {a : α} :
    (raise result : Handler Query Db ε α).run failure db = (.ok a, db) ↔ result = .ok a :=
  ⟨congrArg Prod.fst, fun h => congrArg (·, db) h⟩

theorem pure_apply (a : α) (failure : Option (Failure Query)) (db : Db) :
    (pure a : Handler Query Db ε α).run failure db = (.ok a, db) := rfl

/-! ## Handlers that write nothing -/

/-- The handler leaves the database as it is, whatever fails. -/
def Unchanged (h : Handler Query Db ε α) : Prop := ∀ failure db, (h.run failure db).2 = db

namespace Unchanged

theorem pure (a : α) : Unchanged (Pure.pure a : Handler Query Db ε α) := fun _ _ => rfl

theorem raise (result : Except ε α) :
    Unchanged (Handler.raise result : Handler Query Db ε α) := fun _ _ => rfl

theorem bind {h : Handler Query Db ε α} {next : α → Handler Query Db ε β} (hfirst : Unchanged h)
    (hnext : ∀ a, Unchanged (next a)) : Unchanged (h >>= next) := by
  intro failure db
  have hdb := hfirst failure db
  rw [bind_apply]
  match hrun : h.run failure db with
  | (.error e, after) =>
    rw [hrun] at hdb
    exact hdb
  | (.ok a, after) =>
    rw [hrun] at hdb
    exact (hnext a failure after).trans hdb

theorem attempt {h : Handler Query Db ε α} (hh : Unchanged h) : Unchanged h.attempt := hh

theorem read [DecidableEq Query] (failed : ε) (label : Query) (value : Db → Except ε α) :
    Unchanged (Handler.read failed label value) := by
  intro failure db
  rw [Handler.read, query_run]
  split
  · exact ite_self _
  · rfl

end Unchanged

/-! ## Where a handler ends -/

variable {failure : Option (Failure Query)} {h : Handler Query Db ε α}
  {next : α → Handler Query Db ε β}

theorem attempt_of_unchanged (hh : Unchanged h) {db : Db} :
    h.attempt.run failure db = (.ok (h.run failure db).1.toOption, db) :=
  Prod.ext rfl (hh failure db)

/-- After a handler that writes nothing, either its error ends the request and nothing has changed,
or the request goes on from the same database. -/
theorem Unchanged.bind_cases (hh : Unchanged h) (db : Db) :
    (∃ e, h.run failure db = (.error e, db) ∧ (h >>= next).run failure db = (.error e, db)) ∨
      ∃ a, h.run failure db = (.ok a, db) ∧
        (h >>= next).run failure db = (next a).run failure db := by
  have hdb := hh failure db
  rw [bind_apply]
  match hrun : h.run failure db with
  | (.error e, after) =>
    rw [hrun] at hdb
    cases hdb
    exact .inl ⟨e, rfl, rfl⟩
  | (.ok a, after) =>
    rw [hrun] at hdb
    cases hdb
    exact .inr ⟨a, rfl, rfl⟩

theorem Unchanged.bind_eq_ok_iff (hh : Unchanged h) {db after : Db} {b : β} :
    (h >>= next).run failure db = (.ok b, after) ↔
      ∃ a, h.run failure db = (.ok a, db) ∧ (next a).run failure db = (.ok b, after) := by
  constructor
  · intro hok
    have hcases : (∃ e, _ ∧ (h >>= next).run failure db = (.error e, db)) ∨ _ := hh.bind_cases db
    rcases hcases with ⟨e, _, he⟩ | ⟨a, ha, hnext⟩
    · rw [hok] at he
      cases he
    · exact ⟨a, ha, hnext ▸ hok⟩
  · intro ⟨a, ha, hnext⟩
    rw [bind_of_ok ha]
    exact hnext

/-- A transaction leaves the database as it was, or its body has been carried out; then the answer
to its COMMIT may still be lost. -/
theorem transaction_cases [DecidableEq Query] (failed : ε) (start commit rollback : Query)
    (body : Handler Query Db ε α) (failure : Option (Failure Query)) (db : Db) :
    (∃ e, (transaction failed start commit rollback body).run failure db = (.error e, db)) ∨
      ∃ a after, body.run failure db = (.ok a, after) ∧
        ((failure = some ⟨commit, true⟩ ∧
            (transaction failed start commit rollback body).run failure db =
              (.error failed, after)) ∨
          ((∀ f ∈ failure, f.query ≠ commit) ∧
            (transaction failed start commit rollback body).run failure db = (.ok a, after))) := by
  rw [transaction_run]
  split
  · exact .inl ⟨failed, rfl⟩
  · match hbody : body.run failure db with
    | (.error e, _) => exact .inl ⟨_, rfl⟩
    | (.ok a, after) =>
      simp only
      split
      · rename_i f hf
        obtain ⟨hmem, hquery⟩ := Option.filter_eq_some_iff.mp hf
        cases hcarried : f.carriedOut with
        | false => exact .inl ⟨failed, rfl⟩
        | true =>
          refine .inr ⟨a, after, rfl, .inl ⟨?_, rfl⟩⟩
          rw [hmem, ← of_decide_eq_true hquery, ← hcarried]
      · rename_i hnone
        refine .inr ⟨a, after, rfl, .inr ⟨fun f hf heq => ?_, rfl⟩⟩
        exact Option.filter_eq_none_iff.mp hnone f hf (by simpa using heq)

/-- Nothing rolls the body back once its COMMIT is carried out. -/
theorem transaction_commits [DecidableEq Query] {failed : ε} {start commit rollback : Query}
    {body : Handler Query Db ε α} {db after : Db} {a : α} (hstart : ∀ f ∈ failure, f.query ≠ start)
    (hcommit : ∀ f ∈ failure, f.query = commit → f.carriedOut = true)
    (hbody : body.run failure db = (.ok a, after)) :
    ((transaction failed start commit rollback body).run failure db).2 = after := by
  have hnone : failure.any (·.query = start) = false := by
    rw [Option.any_eq_false_iff_get]
    intro hsome
    simpa using hstart _ (Option.get_mem hsome)
  rw [transaction_run, if_neg (by simp [hnone]), hbody]
  simp only
  split
  · rename_i f hf
    obtain ⟨hmem, hquery⟩ := Option.filter_eq_some_iff.mp hf
    rw [hcommit f hmem (of_decide_eq_true hquery)]
    rfl
  · rfl

/-! ## What an answer says -/

/-- Whenever the handler ends without an error, this holds of the database before it, of its result
and of the database after it. -/
def Ensures (h : Handler Query Db ε α) (Post : Db → α → Db → Prop) : Prop :=
  ∀ failure db a, (h.run failure db).1 = .ok a → Post db a (h.run failure db).2

/-- Whatever fails, the handler keeps the change made before it. -/
def Keeps (h : Handler Query Db ε α) (Changed : Db → Db → Prop) : Prop :=
  ∀ failure start db, Changed start db → Changed start (h.run failure db).2

section Keeping

variable {Changed : Db → Db → Prop}

theorem Unchanged.keeps (hh : Unchanged h) : Keeps h Changed := by
  intro failure start db hchanged
  rw [hh failure db]
  exact hchanged

theorem Keeps.query [DecidableEq Query] {failed : ε} {label : Query} {run : Db → Except ε α × Db}
    (hrun : ∀ start db, Changed start db → Changed start (run db).2) :
    Keeps (Handler.query failed label run) Changed := by
  intro failure start db hchanged
  rw [query_run]
  split
  · rename_i f _
    cases f.carriedOut with
    | true => exact hrun start db hchanged
    | false => exact hchanged
  · exact hrun start db hchanged

theorem Keeps.bind (hfirst : Keeps h Changed) (hnext : ∀ a, Keeps (next a) Changed) :
    Keeps (h >>= next) Changed := by
  intro failure start db hchanged
  have hmid := hfirst failure start db hchanged
  rw [bind_apply]
  match hrun : h.run failure db with
  | (.error e, after) =>
    rw [hrun] at hmid
    exact hmid
  | (.ok a, after) =>
    rw [hrun] at hmid
    exact hnext a failure start after hmid

end Keeping

variable {Mid : Db → α → Db → Prop} {Post : Db → β → Db → Prop}

theorem Ensures.query [DecidableEq Query] {failed : ε} {label : Query}
    {run : Db → Except ε α × Db} (hrun : ∀ db a, (run db).1 = .ok a → Mid db a (run db).2) :
    Ensures (Handler.query failed label run) Mid := by
  intro failure db a hok
  rw [query_run] at hok ⊢
  split at hok
  · cases hok
  · exact hrun db a hok

theorem Ensures.bind (hfirst : Ensures h Mid)
    (hnext : ∀ a failure start mid b, Mid start a mid → ((next a).run failure mid).1 = .ok b →
      Post start b ((next a).run failure mid).2) : Ensures (h >>= next) Post := by
  intro failure db b hok
  rw [bind_apply] at hok ⊢
  match hrun : h.run failure db with
  | (.error e, after) =>
    rw [hrun] at hok
    cases hok
  | (.ok a, after) =>
    have hmid := hfirst failure db a
    rw [hrun] at hmid hok
    exact hnext a failure db after b (hmid rfl) hok

theorem Ensures.bind_of_unchanged (hfirst : Unchanged h) (hnext : ∀ a, Ensures (next a) Post) :
    Ensures (h >>= next) Post := by
  have hsame : Ensures h fun start _ mid => mid = start := fun failure db _ _ => hfirst failure db
  refine hsame.bind fun a failure start mid b hmid hok => ?_
  subst hmid
  exact hnext a failure mid b hok

/-- What ends in a pure result has no other. -/
theorem eq_of_bind_pure {db : Db} {b c : β}
    (hok : ((h >>= fun _ => pure c).run failure db).1 = .ok b) : c = b := by
  rw [bind_apply] at hok
  match hrun : h.run failure db with
  | (.error e, after) =>
    rw [hrun] at hok
    cases hok
  | (.ok a, after) =>
    rw [hrun] at hok
    cases hok
    rfl

theorem Ensures.transaction [DecidableEq Query] {failed : ε} {start commit rollback : Query}
    {body : Handler Query Db ε α} (hbody : Ensures body Mid) :
    Ensures (Handler.transaction failed start commit rollback body) Mid := by
  intro failure db a hok
  rw [transaction_run] at hok ⊢
  split at hok
  · cases hok
  · rename_i hstart
    rw [if_neg hstart]
    have hmid := hbody failure db
    match hrun : body.run failure db with
    | (.error _, _) =>
      rw [hrun] at hok
      cases hok
    | (.ok b, after) =>
      rw [hrun] at hok hmid
      simp only at hok ⊢
      split at hok
      · cases hok
      · cases hok
        exact hmid _ rfl

/-! ## Queries the failure does not hit -/

/-- The failure is at none of these queries. -/
def Misses (failure : Option (Failure Query)) (labels : List Query) : Prop :=
  ∀ f ∈ failure, f.query ∉ labels

theorem Misses.mono {labels others : List Query} (hmiss : Misses failure labels)
    (hsub : ∀ label ∈ others, label ∈ labels) : Misses failure others :=
  fun f hf hmem => hmiss f hf (hsub f.query hmem)

section Misses

variable [DecidableEq Query] {failed : ε}

theorem filter_of_misses {labels : List Query} (hmiss : Misses failure labels) {label : Query}
    (hlabel : label ∈ labels) : failure.filter (·.query = label) = none := by
  rw [Option.filter_eq_none_iff]
  intro f hf heq
  exact hmiss f hf (of_decide_eq_true heq ▸ hlabel)

theorem query_of_misses {labels : List Query} (hmiss : Misses failure labels) {label : Query}
    (hlabel : label ∈ labels) (run : Db → Except ε α × Db) (db : Db) :
    (query failed label run).run failure db = run db := by
  rw [query_run, filter_of_misses hmiss hlabel]

theorem read_of_misses {labels : List Query} (hmiss : Misses failure labels) {label : Query}
    (hlabel : label ∈ labels) (value : Db → Except ε α) (db : Db) :
    (read failed label value).run failure db = (value db, db) :=
  query_of_misses hmiss hlabel _ db

end Misses

/-! ## When an error means that nothing has happened -/

/-- The request ends with an error exactly if it has changed nothing. -/
def ErrorMeansUndone (Changed : Db → Db → Prop) (db : Db) (outcome : Except ε α × Db) : Prop :=
  (∃ e, outcome.1 = .error e) ↔ ¬ Changed db outcome.2

section Law

variable {Changed : Db → Db → Prop} {db : Db}

theorem errorMeansUndone_error (hself : ¬ Changed db db) (e : ε) :
    ErrorMeansUndone Changed db ((.error e, db) : Except ε α × Db) :=
  ⟨fun _ => hself, fun _ => ⟨e, rfl⟩⟩

/-- Reading first breaks the law only where the reading goes through and the rest breaks it. -/
theorem bind_law (hself : ¬ Changed db db) {Breaks : α → Prop} (hh : Unchanged h)
    (hnext : ∀ a, ErrorMeansUndone Changed db ((next a).run failure db) ↔ ¬ Breaks a) :
    ErrorMeansUndone Changed db ((h >>= next).run failure db) ↔
      ¬ ∃ a, h.run failure db = (.ok a, db) ∧ Breaks a := by
  have hcases : (∃ e, _ ∧ (h >>= next).run failure db = (.error e, db)) ∨ _ := hh.bind_cases db
  rcases hcases with ⟨e, hh, he⟩ | ⟨a, ha, hrun⟩
  · rw [he]
    refine iff_of_true (errorMeansUndone_error hself e) ?_
    intro ⟨a, ha, _⟩
    rw [ha] at hh
    cases hh
  · rw [hrun, hnext]
    refine not_congr ⟨fun hbreaks => ⟨a, ha, hbreaks⟩, ?_⟩
    intro ⟨b, hb, hbreaks⟩
    rw [ha] at hb
    cases hb
    exact hbreaks

/-- The failure loses the answer to the COMMIT, or comes late enough to hit what is read after. -/
def Late [DecidableEq Query] (commit : Query) (after : List Query) (f : Failure Query) : Prop :=
  (f.query = commit ∧ f.carriedOut = true) ∨ f.query ∈ after

theorem misses_of_late [DecidableEq Query] {commit : Query} {after labels : List Query}
    (hlate : ∃ f ∈ failure, Late commit after f)
    (hlabels : ∀ label ∈ labels, label ≠ commit ∧ label ∉ after) : Misses failure labels := by
  obtain ⟨f, hf, hlate⟩ := hlate
  intro g hg hmem
  obtain rfl : f = g := Option.some.inj (hf.symm.trans hg)
  obtain ⟨hcommit, hafter⟩ := hlabels _ hmem
  rcases hlate with ⟨hquery, _⟩ | hquery
  · exact hcommit hquery
  · exact hafter hquery

/-- A transaction that changes something, and then an answer: the law is broken exactly where the
failure comes after the commit of an accepted request. -/
theorem transaction_law [DecidableEq Query] {failed : ε} {start commit rollback : Query}
    {body : Handler Query Db ε α} {answer : α → Handler Query Db ε β} {after : List Query}
    {Fits : α → Prop} {Accepted : Prop} (hself : ¬ Changed db db)
    (hstart : start ≠ commit ∧ start ∉ after) (hcommit : commit ∉ after)
    (hbody : Ensures body fun before a now => Changed before now ∧ Fits a)
    (haccepted : (∃ f ∈ failure, Late commit after f) →
      ((∃ a now, body.run failure db = (.ok a, now)) ↔ Accepted))
    (hanswer : ∀ a, Unchanged (answer a))
    (herror : ∀ a now, Fits a → ((∃ e, ((answer a).run failure now).1 = .error e) ↔
      ∃ f ∈ failure, f.query ∈ after)) :
    ErrorMeansUndone Changed db
        ((transaction failed start commit rollback body >>= answer).run failure db) ↔
      ¬ (Accepted ∧ ∃ f ∈ failure, Late commit after f) := by
  rcases transaction_cases failed start commit rollback body failure db with
    ⟨e, he⟩ | ⟨a, now, hok, hend⟩
  · -- Nothing is committed, so the failure cannot have been one that comes after a commit.
    rw [bind_apply, he]
    refine iff_of_true (errorMeansUndone_error hself e) ?_
    intro ⟨hacc, hlate⟩
    obtain ⟨a, now, hok⟩ := (haccepted hlate).mpr hacc
    have hmiss : Misses failure [start] :=
      misses_of_late hlate fun label hlabel => List.mem_singleton.mp hlabel ▸ hstart
    have hlost : ∀ f ∈ failure, f.query = commit → f.carriedOut = true := by
      obtain ⟨f, hf, hlate⟩ := hlate
      intro g hg hquery
      obtain rfl : f = g := Option.some.inj (hf.symm.trans hg)
      rcases hlate with ⟨_, hcarried⟩ | hmem
      · exact hcarried
      · exact absurd (hquery ▸ hmem) hcommit
    have hkept : ((transaction failed start commit rollback body).run failure db).2 = now :=
      transaction_commits (by simpa [Misses] using hmiss) hlost hok
    have hchanged := (hbody failure db a (by rw [hok])).1
    rw [he] at hkept
    rw [hok, ← hkept] at hchanged
    exact hself hchanged
  · obtain ⟨hchanged, hfits⟩ := hbody failure db a (by rw [hok])
    rw [hok] at hchanged
    have hacc : (∃ f ∈ failure, Late commit after f) → Accepted :=
      fun hlate => (haccepted hlate).mp ⟨a, now, hok⟩
    rcases hend with ⟨hlost, hrun⟩ | ⟨hanswered, hrun⟩
    · have hlate : ∃ f ∈ failure, Late commit after f := ⟨⟨commit, true⟩, hlost, .inl ⟨rfl, rfl⟩⟩
      rw [bind_apply, hrun]
      refine iff_of_false (fun hmeans => ?_) (not_not.mpr ⟨hacc hlate, hlate⟩)
      exact hmeans.mp ⟨failed, rfl⟩ hchanged
    · have hlate : (∃ f ∈ failure, Late commit after f) ↔ ∃ f ∈ failure, f.query ∈ after := by
        constructor
        · intro ⟨f, hf, hlate⟩
          rcases hlate with ⟨hquery, _⟩ | hmem
          · exact absurd hquery (hanswered f hf)
          · exact ⟨f, hf, hmem⟩
        · exact fun ⟨f, hf, hmem⟩ => ⟨f, hf, .inr hmem⟩
      rw [bind_of_ok hrun, ErrorMeansUndone, hanswer a failure now, herror a now hfits, ← hlate]
      have hchanged : Changed db now := hchanged
      constructor
      · exact fun hmeans hboth => hmeans.mp hboth.2 hchanged
      · intro hnot
        refine iff_of_false (fun hlate => hnot ⟨hacc hlate, hlate⟩) (not_not.mpr hchanged)

end Law

end Handler

end OpenMeet.FailingQueries
