import Dbgen4.Gen.Statement

/-!
# Loading the metadata of a file

`parser::load_file_meta_data` (`parser/parser.cpp`) goes through the statements of a
file, has the database describe each, and puts what it learned into a copy of the
statements. A statement may come with SQL to run before and after it; the unit of
work that all of it runs in is ended by exactly one commit or rollback.

The database is any that answers the calls (`Database`); the calls are recorded with
their answers. `Protocol` says which calls a file takes, independently of the loop that
makes them, and what comes of them (`loadFileMetaData_protocol`).
-/

namespace Dbgen4.Gen

open Rtl

/-- What the generator asks of a database, whose state is `σ`. -/
structure Database (σ : Type) where
  exec : String → σ → DbSts × σ
  commit : σ → DbSts × σ
  rollback : σ → DbSts × σ
  /-- `as_describer()`, as the `get_sql_metadata` of the describer. -/
  describer : Option (String → σ → Except DbSts QryMetadata × σ)

/-- A call, and what it returned. -/
inductive DbCall
  | exec (sql : String) (sts : DbSts)
  | describe (sql : String) (res : Except DbSts QryMetadata)
  | commit (sts : DbSts)
  | rollback (sts : DbSts)

/-- An `exec` that did not succeed. -/
def DbCall.execFailed : DbCall → Bool
  | .exec _ sts => !sts.isSuccess
  | _ => false

variable {σ : Type}

namespace Database

variable (db : Database σ) (describe : String → σ → Except DbSts QryMetadata × σ)

/-- `exec` of a text, unless it is empty. -/
def execAny (sql : String) (st : σ) : List DbCall × σ :=
  if sql.isEmpty then ([], st)
  else
    let (sts, st) := db.exec sql st
    ([.exec sql sts], st)

/-- One turn of the loop of `load_file_meta_data`, up to the end of the unit of work. -/
def validate (stmt : DataStatement) (st : σ) : Except ExitStatus QryMetadata × List DbCall × σ :=
  let (before, st) := db.execAny stmt.beforeSql st
  if before.any DbCall.execFailed then
    let (sts, st) := db.rollback st
    (.error .sqlSyntaxErr, before ++ [.rollback sts], st)
  else
    let (res, st) := describe stmt.sql st
    -- Whatever the describe returned, and whether it succeeds or not.
    let (after, st) := db.execAny stmt.afterSql st
    match res with
    | .error e =>
      let (sts, st) := db.rollback st
      (.error .sqlSyntaxErr,
        before ++ .describe stmt.sql (.error e) :: after ++ [.rollback sts], st)
    | .ok m =>
      let (sts, st) := db.commit st
      (.ok m, before ++ .describe stmt.sql (.ok m) :: after ++ [.commit sts], st)

/-- The loop of `load_file_meta_data`; `res` is the copy that is being updated. -/
def loadLoop (maxFieldLen : ℕ) : List DataStatement → DataStatements → σ →
    Except ExitStatus DataStatements × List DbCall × σ
  | [], res, st => (.ok res, [], st)
  | stmt :: stmts, res, st =>
    let (r, calls, st) := db.validate describe stmt st
    match r with
    | .error e => (.error e, calls, st)
    | .ok m =>
      let stmt := { stmt with results := m.columns, params := m.params }
      let (r, calls', st) := loadLoop maxFieldLen stmts
        (res.addStatementWithReplace (stmt.pushColumnNames.applyFieldLen maxFieldLen)) st
      (r, calls ++ calls', st)

/-- `load_file_meta_data`. -/
def loadFileMetaData (s : DataStatements) (maxFieldLen : ℕ) (st : σ) :
    Except ExitStatus DataStatements × List DbCall × σ :=
  match db.describer with
  | none => (.error .notImplemented, [], st)
  | some describe => db.loadLoop describe maxFieldLen s.statements s st

end Database

/-! ## The protocol -/

/-- A statement with its columns and parameters: the names of the yaml file override those of
    the database, position by position, and the widths are settled. -/
def DataStatement.withMetadata (stmt : DataStatement) (maxFieldLen : ℕ) (m : QryMetadata) :
    DataStatement :=
  { stmt with
    results := (m.columns.mapIdx fun i col =>
      { col with name := stmt.resultNames.getD i col.name }).map (stmt.settle maxFieldLen)
    params := (m.params.mapIdx fun i col =>
      { col with name := stmt.paramNames.getD i col.name }).map (stmt.settle maxFieldLen) }

/-- The calls that run an optional text: one, unless it is empty. -/
def Ran (sql : String) (calls : List DbCall) : Prop :=
  sql = "" ∧ calls = [] ∨ sql ≠ "" ∧ ∃ sts, calls = [.exec sql sts]

/-- The calls for one statement, and what comes of them. -/
inductive Visit (stmt : DataStatement) : List DbCall → Except ExitStatus QryMetadata → Prop
  | beforeFailed {sts ended : DbSts} (hsql : stmt.beforeSql ≠ "") (hsts : sts.isSuccess = false) :
    Visit stmt [.exec stmt.beforeSql sts, .rollback ended] (.error .sqlSyntaxErr)
  | invalid {before after : List DbCall} {e ended : DbSts} (hbefore : Ran stmt.beforeSql before)
    (hok : ∀ c ∈ before, c.execFailed = false) (hafter : Ran stmt.afterSql after) :
    Visit stmt (before ++ .describe stmt.sql (.error e) :: after ++ [.rollback ended])
      (.error .sqlSyntaxErr)
  | valid {before after : List DbCall} {m : QryMetadata} {ended : DbSts}
    (hbefore : Ran stmt.beforeSql before) (hok : ∀ c ∈ before, c.execFailed = false)
    (hafter : Ran stmt.afterSql after) :
    Visit stmt (before ++ .describe stmt.sql (.ok m) :: after ++ [.commit ended]) (.ok m)

/-- A visit fails with one error only. -/
theorem Visit.error_eq {stmt : DataStatement} {calls : List DbCall} {e : ExitStatus}
    (h : Visit stmt calls (.error e)) : e = .sqlSyntaxErr := by
  cases h <;> rfl

/-- The calls for the statements of a file, in order up to the first that fails, and the
    statements with their metadata. -/
inductive Protocol (maxFieldLen : ℕ) :
    List DataStatement → List DbCall → Except ExitStatus (List DataStatement) → Prop
  | done : Protocol maxFieldLen [] [] (.ok [])
  | failed {stmt : DataStatement} {stmts : List DataStatement} {calls : List DbCall}
    {e : ExitStatus} (hvisit : Visit stmt calls (.error e)) :
    Protocol maxFieldLen (stmt :: stmts) calls (.error e)
  | next {stmt : DataStatement} {stmts : List DataStatement} {calls calls' : List DbCall}
    {m : QryMetadata} {r : Except ExitStatus (List DataStatement)}
    (hvisit : Visit stmt calls (.ok m)) (hrest : Protocol maxFieldLen stmts calls' r) :
    Protocol maxFieldLen (stmt :: stmts) (calls ++ calls')
      (r.map (stmt.withMetadata maxFieldLen m :: ·))

namespace Database

variable (db : Database σ) (describe : String → σ → Except DbSts QryMetadata × σ)

theorem ran_execAny (sql : String) (st : σ) : Ran sql (db.execAny sql st).1 := by
  rw [execAny]
  split
  · rename_i h
    exact .inl ⟨String.isEmpty_iff.1 h, rfl⟩
  · rename_i h
    exact .inr ⟨fun hsql => h (String.isEmpty_iff.2 hsql), _, rfl⟩

/-- One turn of the loop is a visit. -/
theorem visit_validate (stmt : DataStatement) (st : σ) :
    Visit stmt (db.validate describe stmt st).2.1 (db.validate describe stmt st).1 := by
  have hbefore := db.ran_execAny stmt.beforeSql st
  rw [validate]
  dsimp only
  split
  · rename_i hfailed
    -- Something was run, and it is all that was run.
    rcases hbefore with ⟨-, hcalls⟩ | ⟨hsql, sts, hcalls⟩
    · rw [hcalls] at hfailed
      cases hfailed
    · rw [hcalls] at hfailed ⊢
      refine .beforeFailed hsql ?_
      simpa [DbCall.execFailed] using hfailed
  · rename_i hok
    have hok : ∀ c ∈ (db.execAny stmt.beforeSql st).1, c.execFailed = false := fun c hc =>
      Bool.eq_false_of_not_eq_true fun h => hok (List.any_eq_true.2 ⟨c, hc, h⟩)
    split
    · exact .invalid hbefore hok (db.ran_execAny _ _)
    · exact .valid hbefore hok (db.ran_execAny _ _)

theorem loadLoop_error {n : ℕ} {stmts : List DataStatement} {res : DataStatements} {st : σ}
    {e : ExitStatus} (h : (db.loadLoop describe n stmts res st).1 = .error e) :
    e = .sqlSyntaxErr := by
  induction stmts generalizing res st with
  | nil => cases h
  | cons stmt stmts ih =>
    have hvisit := visit_validate db describe stmt st
    rw [loadLoop] at h
    dsimp only at h
    split at h
    · rename_i e' he
      cases Except.error.inj h
      rw [he] at hvisit
      exact hvisit.error_eq
    · exact ih h

theorem loadFileMetaData_ne_ok {s : DataStatements} {n : ℕ} {st : σ} {e : ExitStatus}
    (h : (db.loadFileMetaData s n st).1 = .error e) : e ≠ .ok := by
  rintro rfl
  unfold loadFileMetaData at h
  split at h
  · cases h
  · cases db.loadLoop_error _ h

/-- What the loop makes of a statement. -/
theorem applyFieldLen_pushColumnNames (stmt : DataStatement) (n : ℕ) (m : QryMetadata) :
    ({ stmt with results := m.columns, params := m.params } :
      DataStatement).pushColumnNames.applyFieldLen n = stmt.withMetadata n m := by
  rw [DataStatement.pushColumnNames, DataStatement.pushNames_eq, DataStatement.pushNames_eq]
  rfl

/-- The loop, with the statements `done` behind it. -/
theorem loadLoop_protocol {n : ℕ} {stmts done : List DataStatement} {res : DataStatements}
    (st : σ) (hres : res.statements = done ++ stmts) :
    ∃ r, Protocol n stmts (db.loadLoop describe n stmts res st).2.1 r ∧
      (db.loadLoop describe n stmts res st).1.map DataStatements.statements = r.map (done ++ ·) ∧
      ∀ res', (db.loadLoop describe n stmts res st).1 = .ok res' → res'.summary = res.summary ∧
        res'.description = res.description ∧ res'.filename = res.filename := by
  induction stmts generalizing done res st with
  | nil =>
    refine ⟨.ok [], .done, congrArg Except.ok hres, fun res' h => ?_⟩
    cases Except.ok.inj h
    exact ⟨rfl, rfl, rfl⟩
  | cons stmt stmts ih =>
    have hvisit := visit_validate db describe stmt st
    rw [loadLoop]
    dsimp only
    split
    · rename_i e he
      rw [he] at hvisit
      exact ⟨.error e, .failed hvisit, rfl, fun res' h => by cases h⟩
    · rename_i m hm
      rw [hm] at hvisit
      dsimp only
      rw [applyFieldLen_pushColumnNames]
      -- The statement replaces the one it was made from, which comes next in the copy.
      have hplace : (res.addStatementWithReplace (stmt.withMetadata n m)).statements =
          (done ++ [stmt.withMetadata n m]) ++ stmts := by
        have hlt : ∀ z ∈ done, z.id < (stmt.withMetadata n m).id := by
          have hs := res.sorted
          rw [hres] at hs
          exact fun z hz => (List.pairwise_append.1 hs).2.2 z hz stmt List.mem_cons_self
        rw [DataStatements.statements_addStatementWithReplace, hres,
          KeyedList.put_append_cons (y := stmt) hlt rfl, List.append_assoc, List.singleton_append]
      obtain ⟨r, hprotocol, hstatements, hframe⟩ := ih (db.validate describe stmt st).2.2 hplace
      refine ⟨r.map (stmt.withMetadata n m :: ·), .next hvisit hprotocol, ?_, hframe⟩
      rw [hstatements]
      cases r with
      | error e => rfl
      | ok l => exact congrArg Except.ok (List.append_assoc ..)

end Database

/-- **Metadata is loaded by the protocol**: for every file and whatever the database answers, the
    calls are those of the statements in the order of their ids up to the first that fails, and
    the result is that of the calls. -/
theorem loadFileMetaData_protocol (db : Database σ)
    {describe : String → σ → Except DbSts QryMetadata × σ} (hd : db.describer = some describe)
    (s : DataStatements) (maxFieldLen : ℕ) (st : σ) :
    Protocol maxFieldLen s.statements (db.loadFileMetaData s maxFieldLen st).2.1
      ((db.loadFileMetaData s maxFieldLen st).1.map DataStatements.statements) ∧
    ∀ res, (db.loadFileMetaData s maxFieldLen st).1 = .ok res → res.summary = s.summary ∧
      res.description = s.description ∧ res.filename = s.filename := by
  rw [Database.loadFileMetaData, hd]
  dsimp only
  obtain ⟨r, hprotocol, hstatements, hframe⟩ :=
    db.loadLoop_protocol describe (n := maxFieldLen) st (List.nil_append s.statements).symm
  refine ⟨?_, hframe⟩
  rw [hstatements]
  cases r <;> exact hprotocol

/-- A file with one statement, which has a staging table made before it and dropped after it. -/
def documents : DataStatements where
  statements := [{
    id := "sel"
    sql := "select body from stage"
    beforeSql := "create table stage (body text)"
    afterSql := "drop table stage" }]
  sorted := List.pairwise_singleton ..

/-- A text column: the database declares no width. -/
def bodyColumn : MetaDscr := ⟨1, "body", .longVarChar, 25, 0, 0, 1⟩

/-- A database that accepts everything and describes every statement alike. -/
def describing (m : QryMetadata) : Database Unit where
  exec _ _ := (.success, ())
  commit _ := (.success, ())
  rollback _ := (.success, ())
  describer := some fun _ _ => (.ok m, ())

theorem loadFileMetaData_protocol_documents :
    Protocol 4096 documents.statements
      ((describing ⟨[bodyColumn], []⟩).loadFileMetaData documents 4096 ()).2.1
      (((describing ⟨[bodyColumn], []⟩).loadFileMetaData documents 4096 ()).1.map
        DataStatements.statements) :=
  (loadFileMetaData_protocol (describing ⟨[bodyColumn], []⟩) rfl documents 4096 ()).1

/-- More than the names is changed: the column comes out with a width. -/
theorem not_namesOnly :
    ((describing ⟨[bodyColumn], []⟩).loadFileMetaData documents 4096 ()).1.map
      (fun res => res.statements.map DataStatement.results) =
        .ok [[{ bodyColumn with size := 4096 }]] ∧
    ({ bodyColumn with size := 4096 } : MetaDscr) ≠ bodyColumn :=
  ⟨rfl, by decide⟩

end Dbgen4.Gen
