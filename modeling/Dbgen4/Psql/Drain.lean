import Dbgen4.Async.Schedule
import Dbgen4.Async.Buffers
import Dbgen4.Psql.Backend
import Dbgen4.Psql.Block
import Dbgen4.Psql.Fetch

/-!
# The rows of a result set

A query hands out the rows of its last result in order, a window at a time
(`remaining_fetch`), and a successful `execute` puts a new result in the place
of the old one, however much of that is left (`remaining_execute`).

So in `async_db` every row that a statement obtained has been delivered or is
still to be, in order, exactly when the statement was never executed while rows
of its last result were left (`rows_kept_iff`). `exec` does not see to that: it
waits for the slot of the queue, and not for the rows to be drained
(`overrunRun`).
-/

namespace Dbgen4.Psql

open Rtl

variable {F : FloatText}

/-! ## One query -/

/-- The rows of the last result that `fetch` has not delivered. -/
def Query.remaining (q : Query) : List Row :=
  match q.rows with
  | none => []
  | some res => (List.range (q.cursor.total - q.cursor.next)).map fun r =>
      res.tuples[q.cursor.next + r]?.getD []

/-- `fetch` delivers the first of the rows that remain. -/
theorem remaining_fetch (q : Query) : q.remaining = q.delivered ++ (q.fetch F).2.remaining := by
  rw [Query.fetch, Query.delivered]
  by_cases hr : ¬q.hasR
  · rw [if_pos hr, if_pos hr]
    rfl
  · rw [if_neg hr, if_neg hr]
    cases q.checkLayout with
    | error e => rfl
    | ok u =>
      cases hrows : q.rows with
      | none => rfl
      | some res =>
        have hle : q.count ≤ q.cursor.total - q.cursor.next := Nat.min_le_left _ _
        obtain ⟨k, hk⟩ := Nat.exists_eq_add_of_le hle
        have hk' : q.cursor.total - (q.cursor.next + q.count) = k := by omega
        simp only [Query.remaining, hrows, Query.window, Cursor.advance]
        rw [hk, hk', List.range_add, List.map_append, List.map_map]
        simp [Function.comp_def, Nat.add_assoc]

theorem remaining_make (sql stmtName : String) (par res : Buffer) :
    (Query.make sql stmtName par res).remaining = [] := rfl

theorem remaining_prepare (q : Query) (pq : Libpq) : (q.prepare pq).2.remaining = q.remaining := by
  rw [Query.prepare]
  split <;> rfl

/-- The rows of a result. -/
def PGresult.rows (res : PGresult) : List Row := if res.status = .tuplesOk then res.tuples else []

theorem remaining_executeBatch (q : Query) (pq : Libpq) :
    (q.executeBatch F pq).1.isOk = false ∧ (q.executeBatch F pq).2.remaining = q.remaining ∨
      (q.executeBatch F pq).1.isOk ∧ (q.executeBatch F pq).2.remaining = [] := by
  rw [Query.executeBatch]
  split
  · exact .inl ⟨rfl, rfl⟩
  · dsimp only
    split
    · exact .inl ⟨rfl, rfl⟩
    · split
      · exact .inl ⟨rfl, rfl⟩
      · exact .inr ⟨rfl, rfl⟩

/-- `execute` fails and leaves the rows there are, or it succeeds and there are those of the new
    result; a batch has none. -/
theorem remaining_execute (q : Query) (pq : Libpq) :
    (q.execute F pq).1.isOk = false ∧ (q.execute F pq).2.remaining = q.remaining ∨
      (q.execute F pq).1.isOk ∧ ((q.execute F pq).2.remaining = [] ∨
        ∃ res, pq.execPrepared q.stmtName (Query.marshalRow F q.par.toBuffer 0) = some res ∧
          (q.execute F pq).2.remaining = res.rows) := by
  rw [Query.execute]
  split
  · exact .inl ⟨rfl, rfl⟩
  · split
    · exact .inl ⟨rfl, rfl⟩
    · split
      · rcases remaining_executeBatch (F := F) q pq with h | ⟨h, hr⟩
        · exact .inl h
        · exact .inr ⟨h, .inl hr⟩
      · split
        · exact .inl ⟨rfl, rfl⟩
        · rename_i res hres
          split
          · exact .inl ⟨rfl, rfl⟩
          · refine .inr ⟨rfl, .inr ⟨res, hres, ?_⟩⟩
            simp only [Query.remaining, PGresult.rows]
            split
            · refine List.ext_getElem? fun n => ?_
              by_cases hn : n < res.tuples.length
              · simp [hn]
              · simp [hn]
            · rfl

/-! ## The statements of the facade -/

section Facade

open Async (QueuedJob Task)

variable {E : Type} {L : Layout} {tr : List Async.Event} {s s' : Async.State (psqlBackend E L F)}
  {e : Async.Event} {i : ℕ}

/-- The rows of the statement `i` that have not been delivered. -/
def rowsLeft (s : Async.State (psqlBackend E L F)) (i : ℕ) : List Row :=
  match s.task i with
  | some t => Query.remaining t.query
  | none => []

/-- What a step does to the rows of a statement. -/
structure Moved where
  /-- The rows of a new result. -/
  obtained : List Row := []
  /-- The rows of the last result that the new one is put in the place of. -/
  lost : List Row := []
  delivered : List Row := []

/-- What a step does to the rows of the statement `i`: a successful `execute` obtains rows, and
    a `fetch` delivers some. -/
def moved (i : ℕ) (s : Async.State (psqlBackend E L F)) (e : Async.Event)
    (s' : Async.State (psqlBackend E L F)) : Moved :=
  match e with
  | .execute qj _ none =>
    if qj.fn.statement.map Prod.fst = some i then
      { obtained := rowsLeft s' i, lost := rowsLeft s i }
    else {}
  | .fetch qj _ =>
    if qj.taskId = some i then
      { delivered := match s.task i with
          | some t => Query.delivered t.query
          | none => [] }
    else {}
  | _ => {}

theorem rowsLeft_of_tasks (h : s'.tasks = s.tasks) : rowsLeft s' i = rowsLeft s i := by
  rw [rowsLeft, rowsLeft, Async.State.task, Async.State.task, h]

theorem rowsLeft_of_set {j : ℕ} {t t' : Task (psqlBackend E L F)} (ht : s.task j = some t)
    (h : s'.tasks = s.tasks.set j (some t')) :
    rowsLeft s' i = if j = i then Query.remaining t'.query else rowsLeft s i := by
  rw [Async.State.task_eq] at ht
  rw [rowsLeft, rowsLeft, Async.State.task, h]
  by_cases hj : j = i
  · subst hj
    rw [List.getElem?_set_self (List.getElem?_eq_some_iff.1 ht).1, if_pos rfl]
    rfl
  · rw [List.getElem?_set_ne hj, if_neg hj]
    rfl

/-- The rows of a task are left where its query is. -/
theorem rowsLeft_eq {t : Task (psqlBackend E L F)} (ht : s.task i = some t) :
    rowsLeft s i = Query.remaining t.query := by
  rw [rowsLeft, ht]

theorem eq_of_mapError_map {α β : Type} {r : Except PsqlError α} {b b' : β}
    (h : mapError (r.map fun _ => b) = .ok b') : b = b' := by
  cases r with
  | error err => cases h
  | ok a => exact Except.ok.inj h

theorem remaining_backend_prepare {db db' : DbPsql E} {stmt : Async.StmtType} {sql : String}
    {par : ParamBuffer} {m : ℕ} {q : Query}
    (h : (psqlBackend E L F).prepare db stmt sql par m = (.ok q, db')) : q.remaining = [] := by
  obtain ⟨hq, -⟩ := Prod.mk.inj h
  rw [← eq_of_mapError_map hq]
  exact (remaining_prepare _ _).trans (remaining_make _ _ _ _)

/-- On a connection, `execute` is `execute` with what the server answers. -/
theorem DbPsql.execute_query (db : DbPsql E) (F : FloatText) (q : Query) :
    ∃ pq, (db.execute F q).1 = (q.execute F pq).1 ∧ (db.execute F q).2.1 = (q.execute F pq).2 :=
  ⟨_, rfl, rfl⟩

theorem remaining_backend_execute {db db' : DbPsql E} {q q' : Query} {par : ParamBuffer}
    {err : DbError} (h : (psqlBackend E L F).execute db q par = (some err, db', q')) :
    q'.remaining = q.remaining := by
  obtain ⟨pq, hr, hq⟩ := db.execute_query F (q.load L par)
  rcases hx : db.execute F (q.load L par) with ⟨r, q₁, db₁⟩
  rw [hx] at hr hq
  dsimp only at hr hq
  cases r with
  | ok _ => cases (psqlBackend_execute_ok hx).symm.trans h
  | error _ =>
    cases (psqlBackend_execute_error hx).symm.trans h
    rcases remaining_execute (F := F) (q.load L par) pq with ⟨-, hrem⟩ | ⟨hok, -⟩
    · rw [hq, hrem]
      rfl
    · rw [← hr] at hok
      cases hok

theorem remaining_backend_fetch {db db' : DbPsql E} {q q' : Query} {out : Except DbError Bool}
    (h : (psqlBackend E L F).fetch db q = (out, db', q')) :
    q.remaining = q.delivered ++ q'.remaining := by
  obtain ⟨-, hq⟩ := Prod.mk.inj h
  obtain ⟨-, rfl⟩ := Prod.mk.inj hq
  exact remaining_fetch q

/-- The task that `prepare` has made has no rows. -/
theorem remaining_made (h : (Async.asyncDb (psqlBackend E L F)).Run tr s) :
    ∀ t ∈ s.frame.task, Query.remaining t.query = [] := by
  refine h.invariant (I := fun _ s => ∀ t ∈ s.frame.task, Query.remaining t.query = []) ?_ ?_
  · rintro _ ⟨db, rfl⟩ t ht
    cases ht
  · rintro tr s e s' - ih (h | h) t ht
    · cases h with
      | call _ _ => cases ht
      | _ => exact ih t ht
    · cases h with
      | @prepare qj stmt sql n m query db hw hj hp =>
        obtain rfl := Option.some.inj ht
        exact remaining_backend_prepare hp
      | fetch _ _ _ _ | fetchError _ _ _ _ =>
        refine ih t ?_
        dsimp only at ht
        split at ht <;> exact ht
      | _ => exact ih t ht

/-- A step puts the rows of a new result in the place of those that are left, or delivers the
    first of these. -/
theorem rows_step (hr : (Async.asyncDb (psqlBackend E L F)).Run tr s)
    (h : (Async.asyncDb (psqlBackend E L F)).step s e s') (i : ℕ) :
    (moved i s e s').delivered = [] ∧ (moved i s e s').lost = rowsLeft s i ∧
        rowsLeft s' i = (moved i s e s').obtained ∨
      (moved i s e s').obtained = [] ∧ (moved i s e s').lost = [] ∧
        rowsLeft s i = (moved i s e s').delivered ++ rowsLeft s' i := by
  rcases h with h | h
  · have hm : moved i s e s' = {} := by
      cases h <;> rfl
    rw [hm]
    refine .inr ⟨rfl, rfl, ?_⟩
    rcases h.callers with ⟨_, _, _, -, -, -, -, hs⟩ | ⟨_, _, -, -, hs⟩ | ⟨-, hs⟩
    · exact (rowsLeft_of_tasks hs).symm
    · -- The new task, if there is one, has no rows.
      rw [rowsLeft, rowsLeft, Async.State.task, Async.State.task, hs]
      rcases Nat.lt_trichotomy i s.tasks.length with hi | rfl | hi
      · rw [List.getElem?_append_left hi]
        rfl
      · have hmade := remaining_made hr
        cases ht : s.frame.task with
        | none => simp
        | some t => simpa using (hmade t ht).symm
      · rw [List.getElem?_eq_none hi.le, List.getElem?_eq_none (by simp; omega)]
        rfl
    · exact (rowsLeft_of_tasks hs).symm
  · cases h with
    | @restore qj j snap t par hw hj ht hp =>
      refine .inr ⟨rfl, rfl, Eq.symm (Eq.trans (rowsLeft_of_set ht rfl) ?_)⟩
      split
      · rename_i hij
        rw [← hij, rowsLeft_eq ht]
      · rfl
    | @executeError qj j snap t err db query hw hj ht hx =>
      refine .inr ⟨rfl, rfl, Eq.symm (Eq.trans (rowsLeft_of_set ht rfl) ?_)⟩
      split
      · rename_i hij
        rw [← hij, rowsLeft_eq ht]
        exact remaining_backend_execute hx
      · rfl
    | @execute qj j snap t db query hw hj ht hx =>
      -- The rows of a statement that is executed are replaced; those of the others stay.
      dsimp only [moved]
      rw [hj, Option.map_some]
      by_cases hij : j = i
      · rw [if_pos (congrArg some hij)]
        exact .inl ⟨rfl, rfl, rfl⟩
      · rw [if_neg fun h => hij (Option.some.inj h)]
        refine .inr ⟨rfl, rfl, Eq.symm (Eq.trans (rowsLeft_of_set ht rfl) ?_)⟩
        rw [if_neg hij]
    | @fetch qj j t b db query hw hj ht hx | @fetchError qj j t b db query hw hj ht hx =>
      dsimp only [moved]
      rw [hj]
      by_cases hij : j = i
      · subst hij
        rw [if_pos rfl, ht]
        refine .inr ⟨rfl, rfl, (rowsLeft_eq ht).trans ((remaining_backend_fetch hx).trans ?_)⟩
        refine congrArg _ (Eq.symm (Eq.trans (rowsLeft_of_set ht rfl) ?_))
        rw [if_pos rfl]
      · rw [if_neg fun h => hij (Option.some.inj h)]
        refine .inr ⟨rfl, rfl, Eq.symm (Eq.trans (rowsLeft_of_set ht rfl) ?_)⟩
        rw [if_neg hij]
    | _ => exact .inr ⟨rfl, rfl, (rowsLeft_of_tasks rfl).symm⟩

/-! ## Whole runs -/

/-- The rows of one kind that a trace tells of, in chronological order. -/
def gather (f : Moved → List Row) : List (Async.Event × Moved) → List Row
  | [] => []
  | l :: tr => gather f tr ++ f l.2

theorem gather_cons {f : Moved → List Row} {l : Async.Event × Moved}
    {tr : List (Async.Event × Moved)} (h : f l.2 = []) : gather f (l :: tr) = gather f tr := by
  rw [gather, h, List.append_nil]

/-- Every row obtained has been delivered or lost, or is left. -/
theorem length_obtained {tr : List (Async.Event × Moved)}
    (h : ((Async.asyncDb (psqlBackend E L F)).annotate (moved i)).Run tr s) :
    (gather Moved.obtained tr).length =
      (gather Moved.delivered tr).length + (gather Moved.lost tr).length +
        (rowsLeft s i).length := by
  induction h with
  | init hs =>
    obtain ⟨db, rfl⟩ := hs
    rfl
  | @step tr s s' l hr hst ih =>
    obtain ⟨hst, hl⟩ := hst
    rcases rows_step hr.of_annotate hst i with ⟨hd, hlo, hs⟩ | ⟨ho, hlo, hs⟩
    · rw [gather_cons (f := Moved.delivered) (by rw [hl, hd]), gather, gather, hl, hlo, hs,
        List.length_append, List.length_append, ih]
      omega
    · rw [gather_cons (f := Moved.obtained) (by rw [hl, ho]),
        gather_cons (f := Moved.lost) (by rw [hl, hlo]), gather, hl, ih, hs, List.length_append,
        List.length_append]
      omega

/-- When none was lost, they have been delivered in order. -/
theorem obtained_of_lost {tr : List (Async.Event × Moved)}
    (h : ((Async.asyncDb (psqlBackend E L F)).annotate (moved i)).Run tr s)
    (hlost : gather Moved.lost tr = []) :
    gather Moved.obtained tr = gather Moved.delivered tr ++ rowsLeft s i := by
  induction h with
  | init hs =>
    obtain ⟨db, rfl⟩ := hs
    rfl
  | @step tr s s' l hr hst ih =>
    obtain ⟨hst, hl⟩ := hst
    rw [gather, List.append_eq_nil_iff] at hlost
    have ih := ih hlost.1
    rcases rows_step hr.of_annotate hst i with ⟨hd, hlo, hs⟩ | ⟨ho, hlo, hs⟩
    · -- Nothing was left when the statement was executed.
      rw [hl, hlo] at hlost
      rw [hlost.2, List.append_nil] at ih
      rw [gather_cons (f := Moved.delivered) (by rw [hl, hd]), gather, hl, hs, ih]
    · rw [gather_cons (f := Moved.obtained) (by rw [hl, ho]), gather, hl, ih, hs,
        List.append_assoc]

/-- **No row is lost**: the rows that a statement has obtained are, in order, those delivered and
    those left, exactly when it was never executed anew while rows of its last result were
    left. -/
theorem rows_kept_iff {tr : List (Async.Event × Moved)}
    (h : ((Async.asyncDb (psqlBackend E L F)).annotate (moved i)).Run tr s) :
    gather Moved.obtained tr = gather Moved.delivered tr ++ rowsLeft s i ↔
      gather Moved.lost tr = [] := by
  refine ⟨fun hk => ?_, obtained_of_lost h⟩
  have hlen := length_obtained h
  rw [hk, List.length_append] at hlen
  exact List.eq_nil_of_length_eq_zero (by omega)

end Facade

/-! ### Two rows, a window of one -/

/-- A statement that returns rows, and has no parameters. -/
def selectType : Async.StmtType := ⟨[], 1, true⟩

/-- It returns a column of integers. -/
def amounts : Layout where
  params _ := []
  results stmt := if stmt.hasResults then [amount] else []
  columns _ _ := []

/-- A server whose table has these rows. -/
def shelf (rows : List Row) : Server String :=
  { ledger [] with
    answers := fun _ =>
      { verdict := .ok [], result := { status := .tuplesOk, tuples := rows },
         status_ne := fun h => (by cases h) } }

/-- The facade on a connection to it. -/
def shop : Async.State (psqlBackend String amounts noFloats) :=
  { db := { server := shelf [seven, [none]], conn := true, alive := true, session := ⟨.idle, []⟩ } }

/-- The statement is prepared, -/
def prepareSelect : List Async.Choice :=
  [.call (.prepare selectType "select amount from account order by id" 1 1), .client, .client,
    .worker, .worker, .worker, .worker, .worker, .client, .client, .client]

/-- executed, with a first fetch, -/
def execSelect : List Async.Choice :=
  [.call (.exec ⟨some 0⟩), .client, .client, .client, .client, .worker, .worker, .worker, .worker,
    .worker, .worker, .worker]

/-- and fetched from once more. -/
def fetchSelect : List Async.Choice :=
  [.call (.fetchMore ⟨some 0⟩), .client, .client, .worker, .worker, .worker, .worker, .worker,
    .worker, .client, .client, .client]

/-- The rows are drained before the statement is executed again. -/
def drainedRun : List (Async.Event × Moved) × Async.State (psqlBackend String amounts noFloats) :=
  (Async.annotatedRun (moved 0) (prepareSelect ++ execSelect ++ fetchSelect ++ execSelect)
    ([], shop)).get (by decide)

theorem rows_kept_drained : gather Moved.obtained drainedRun.1 =
    gather Moved.delivered drainedRun.1 ++ rowsLeft drainedRun.2 0 :=
  (rows_kept_iff (Async.annotatedRun_sound (x := ([], shop)) (.init ⟨_, rfl⟩)
    (Option.some_get _).symm)).2 (by decide)

/-- They are not. -/
def overrunRun : List (Async.Event × Moved) × Async.State (psqlBackend String amounts noFloats) :=
  (Async.annotatedRun (moved 0) (prepareSelect ++ execSelect ++ execSelect) ([], shop)).get
    (by decide)

/-- The second row of the first result is lost. -/
theorem not_rows_kept :
    ¬∀ (E : Type) (L : Layout) (F : FloatText) (i : ℕ) (tr : List (Async.Event × Moved))
      (s : Async.State (psqlBackend E L F)),
      ((Async.asyncDb (psqlBackend E L F)).annotate (moved i)).Run tr s →
      gather Moved.obtained tr = gather Moved.delivered tr ++ rowsLeft s i := by
  intro h
  have hk := h String amounts noFloats 0 overrunRun.1 overrunRun.2
    (Async.annotatedRun_sound (x := ([], shop)) (.init ⟨_, rfl⟩) (Option.some_get _).symm)
  exact absurd hk (by decide)

end Dbgen4.Psql
