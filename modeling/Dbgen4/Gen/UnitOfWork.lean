import Dbgen4.Db2.Connection
import Dbgen4.Gen.Parser
import Dbgen4.Psql.Describer

/-!
# What a statement that fails to validate leaves behind

`load_file_meta_data` runs the `before_sql` of a statement, describes it, runs its
`after_sql` and, if it could not be described, rolls back. That this undoes the two texts
rests on `exec`, which is the backend's own: that of psql leaves a transaction block as it
is, and that of db2 commits.

What a text commits by itself is what stays, on any database that can tell it
(`Ledger.committed_loadFileMetaData`); `leavesNothing_iff` is what this comes to on both.
-/

namespace Dbgen4.Gen

open Rtl Psql Db2 Transaction

variable {σ E : Type}

/-! ## Turns -/

namespace Database

variable (db : Database σ) (describe : String → σ → Except DbSts QryMetadata × σ)

/-- The turn of a statement comes, in a state: all statements before it are valid. -/
inductive Turn : List DataStatement → σ → DataStatement → σ → Prop
  | here (stmt : DataStatement) (stmts : List DataStatement) (st : σ) :
    Turn (stmt :: stmts) st stmt st
  | later {stmt stmt' : DataStatement} {stmts : List DataStatement} {st st' : σ} {m : QryMetadata}
    (hvalid : (db.validate describe stmt st).1 = .ok m)
    (hturn : Turn stmts (db.validate describe stmt st).2.2 stmt' st') :
    Turn (stmt :: stmts) st stmt' st'

/-- The turn of a statement comes; its `before_sql` succeeds, and it cannot be described. -/
structure Invalid (s : DataStatements) (st : σ) (stmt : DataStatement) (st' : σ) : Prop where
  describer : db.describer = some describe
  turn : db.Turn describe s.statements st stmt st'
  beforeSql_ne : stmt.beforeSql ≠ ""
  before : (db.exec stmt.beforeSql st').1.isSuccess = true
  invalid : ∃ e, (describe stmt.sql (db.exec stmt.beforeSql st').2).1 = .error e

/-- The state in which the `after_sql` of a statement is run. -/
def described (stmt : DataStatement) (st : σ) : σ :=
  (describe stmt.sql (db.exec stmt.beforeSql st).2).2

variable {db describe}

/-- A statement that fails to validate is the last one. -/
theorem Turn.loadLoop {stmts : List DataStatement} {st st' : σ} {stmt : DataStatement}
    (h : db.Turn describe stmts st stmt st') {e : ExitStatus}
    (he : (db.validate describe stmt st').1 = .error e) (n : ℕ) (res : DataStatements) :
    (db.loadLoop describe n stmts res st).2.2 = (db.validate describe stmt st').2.2 := by
  induction h generalizing res with
  | here stmt stmts st =>
    rw [Database.loadLoop]
    dsimp only
    split
    · rfl
    · rename_i hok
      cases he.symm.trans hok
  | later hvalid hturn ih =>
    rw [Database.loadLoop]
    dsimp only
    split
    · rename_i hfail
      cases hvalid.symm.trans hfail
    · exact ih he _

/-- It is rolled back after its `after_sql`. -/
theorem Invalid.validate {s : DataStatements} {st st' : σ} {stmt : DataStatement}
    (h : db.Invalid describe s st stmt st') :
    (db.validate describe stmt st').1 = .error .sqlSyntaxErr ∧
      (db.validate describe stmt st').2.2 =
        (db.rollback (db.execAny stmt.afterSql (db.described describe stmt st')).2).2 := by
  have hbefore : db.execAny stmt.beforeSql st' =
      ([.exec stmt.beforeSql (db.exec stmt.beforeSql st').1], (db.exec stmt.beforeSql st').2) :=
    if_neg fun hempty => h.beforeSql_ne (String.isEmpty_iff.1 hempty)
  obtain ⟨e, he⟩ := h.invalid
  rw [Database.validate, hbefore]
  simp only [List.any_cons, List.any_nil, DbCall.execFailed, h.before, Bool.not_true,
    Bool.or_false, Bool.false_eq_true, if_false, he, described, and_self]

end Database

/-! ## What is committed -/

/-- A database of which it is known what it has committed, and what running a text commits. -/
structure Ledger (db : Database σ) (E : Type) where
  committed : σ → List E
  publishes : String → σ → List E
  exec (sql : String) (st : σ) : committed (db.exec sql st).2 = committed st ++ publishes sql st
  rollback (st : σ) : committed (db.rollback st).2 = committed st
  describe : ∀ describe ∈ db.describer, ∀ sql st, committed (describe sql st).2 = committed st

namespace Ledger

variable {db : Database σ} {describe : String → σ → Except DbSts QryMetadata × σ}
  (ledger : Ledger db E)

/-- What running an optional text commits. -/
def publishesAny (sql : String) (st : σ) : List E :=
  if sql.isEmpty then [] else ledger.publishes sql st

theorem committed_execAny (sql : String) (st : σ) :
    ledger.committed (db.execAny sql st).2 = ledger.committed st ++ ledger.publishesAny sql st := by
  unfold Database.execAny publishesAny
  split
  · exact (List.append_nil _).symm
  · exact ledger.exec sql st

/-- What a statement that fails to validate leaves behind is what its texts commit by
    themselves. -/
theorem committed_loadFileMetaData {s : DataStatements} {st st' : σ} {stmt : DataStatement}
    (h : db.Invalid describe s st stmt st') (n : ℕ) :
    ledger.committed (db.loadFileMetaData s n st).2.2 =
      ledger.committed st' ++ ledger.publishes stmt.beforeSql st' ++
        ledger.publishesAny stmt.afterSql (db.described describe stmt st') := by
  obtain ⟨herror, hfinal⟩ := h.validate
  have hload : (db.loadFileMetaData s n st).2.2 =
      (db.rollback (db.execAny stmt.afterSql (db.described describe stmt st')).2).2 := by
    rw [Database.loadFileMetaData, h.describer, ← hfinal]
    exact h.turn.loadLoop herror n s
  rw [hload, ledger.rollback, committed_execAny, Database.described,
    ledger.describe describe h.describer, ledger.exec]

/-- It leaves nothing behind just if they commit nothing. -/
theorem committed_eq_iff {s : DataStatements} {st st' : σ} {stmt : DataStatement}
    (h : db.Invalid describe s st stmt st') (n : ℕ) :
    ledger.committed (db.loadFileMetaData s n st).2.2 = ledger.committed st' ↔
      ledger.publishes stmt.beforeSql st' = [] ∧
        ledger.publishesAny stmt.afterSql (db.described describe stmt st') = [] := by
  rw [ledger.committed_loadFileMetaData h, List.append_assoc, List.append_right_eq_self,
    List.append_eq_nil_iff]

end Ledger

/-! ## The backends -/

/-- psql; `desc` is what the answer to a message describes. -/
def psql (E : Type) (desc : ℕ → PGdescription) : Database (DbPsql E) where
  exec sql db := db.exec sql
  commit db := db.commit
  rollback db := db.rollback
  describer := some fun sql db => db.getSqlMetadata desc sql

/-- db2. -/
def db2 (E : Type) : Database (DbDb2 E) where
  exec sql db := db.exec sql
  commit db := db.commit
  rollback db := db.rollback
  describer := some fun sql db => db.getSqlMetadata sql

/-- What psql commits. -/
def psqlLedger (E : Type) (desc : ℕ → PGdescription) : Ledger (psql E desc) E where
  committed db := db.session.committed
  publishes sql db := db.publishes sql
  exec _ _ := DbPsql.committed_execCommand
  rollback _ := DbPsql.committed_rollback
  describe := by
    rintro _ ⟨⟩ sql db
    exact DbPsql.committed_getSqlMetadata

/-- What db2 commits. -/
def db2Ledger (E : Type) : Ledger (db2 E) E where
  committed db := db.committed
  publishes sql db := db.publishes sql
  exec sql db := db.committed_exec sql
  rollback db := db.committed_rollback
  describe := by
    rintro _ ⟨⟩ sql db
    exact db.committed_getSqlMetadata sql

/-- On psql, in a transaction block that `before_sql` does not end, nothing stays. -/
theorem psql_committed_eq {desc : ℕ → PGdescription} {s : DataStatements} {db db' : DbPsql E}
    {stmt : DataStatement}
    (h : (psql E desc).Invalid (fun sql db => db.getSqlMetadata desc sql) s db stmt db')
    (hin : db'.InBlock) (hcommit : db'.server.command stmt.beforeSql ≠ .commit)
    (hrollback : db'.server.command stmt.beforeSql ≠ .rollback) (n : ℕ) :
    ((psql E desc).loadFileMetaData s n db).2.2.session.committed = db'.session.committed := by
  refine ((psqlLedger E desc).committed_eq_iff h n).2 ⟨DbPsql.publishes_eq_nil hin hcommit, ?_⟩
  have hin' : (db'.execCommand stmt.beforeSql).2.InBlock :=
    (DbPsql.inBlock_execCommand hin).2 fun hl => hl.2.2.elim hcommit fun hr => hrollback hr.1
  obtain ⟨e, he⟩ := h.invalid
  unfold Ledger.publishesAny
  split
  · rfl
  · exact DbPsql.publishes_getSqlMetadata hin' he stmt.afterSql

/-- **What a statement that fails to validate leaves behind**: nothing just if its texts commit
    nothing by themselves. On psql they do not if its turn comes in a transaction block that
    `before_sql` does not end. -/
theorem leavesNothing_iff (s : DataStatements) (n : ℕ) (stmt : DataStatement) :
    (∀ (desc : ℕ → PGdescription) (db db' : DbPsql E),
      (psql E desc).Invalid (fun sql db => db.getSqlMetadata desc sql) s db stmt db' →
      (((psql E desc).loadFileMetaData s n db).2.2.session.committed = db'.session.committed ↔
        db'.publishes stmt.beforeSql = [] ∧
          (stmt.afterSql ≠ "" →
            ((db'.exec stmt.beforeSql).2.getSqlMetadata desc stmt.sql).2.publishes
              stmt.afterSql = [])) ∧
      (db'.InBlock → db'.server.command stmt.beforeSql ≠ .commit →
        db'.server.command stmt.beforeSql ≠ .rollback →
        ((psql E desc).loadFileMetaData s n db).2.2.session.committed = db'.session.committed)) ∧
    ∀ db db' : DbDb2 E, (db2 E).Invalid (fun sql db => db.getSqlMetadata sql) s db stmt db' →
      (((db2 E).loadFileMetaData s n db).2.2.committed = db'.committed ↔
        db'.publishes stmt.beforeSql = [] ∧
          (stmt.afterSql ≠ "" →
            ((db'.exec stmt.beforeSql).2.getSqlMetadata stmt.sql).2.publishes
              stmt.afterSql = [])) := by
  have hany : ∀ es : List E, (if stmt.afterSql.isEmpty then [] else es) = [] ↔
      (stmt.afterSql ≠ "" → es = []) := by
    intro es
    rw [Ne, ← String.isEmpty_iff]
    split <;> simp_all
  refine ⟨fun desc db db' h => ⟨?_, fun hin hcommit hrollback =>
    psql_committed_eq h hin hcommit hrollback n⟩, fun db db' h => ?_⟩
  · exact ((psqlLedger E desc).committed_eq_iff h n).trans (and_congr_right' (hany _))
  · exact ((db2Ledger E).committed_eq_iff h n).trans (and_congr_right' (hany _))

/-! ### A staging table -/

/-- The statement of `documents`. -/
def staged : DataStatement where
  id := "sel"
  sql := "select body from stage"
  beforeSql := "create table stage (body text)"
  afterSql := "drop table stage"

/-- A psql connection, in a block, whose server knows no table from which to select. -/
def psqlStage : DbPsql String where
  server := ledger [.ok ["create stage"], .ok [], .refused]
  conn := true
  alive := true
  session := ⟨.opened [] [], []⟩

/-- A db2 connection to such a database, in which the table cannot be dropped. -/
def db2Stage : DbDb2 String where
  cli := {
    execDirect := fun _ sql =>
      if sql = staged.afterSql then { ret := sqlError } else { effects := [sql] }
    describing := fun _ _ => {
      prepare := sqlError
      describeParam := fun _ => (sqlError, ⟨"", 0, 0, 0, 0⟩)
      describeCol := fun _ => (sqlError, ⟨"", 0, 0, 0, 0⟩) } }
  connected := true

/-- No column and no parameter is described. -/
def noDescription (_ : ℕ) : PGdescription := ⟨[], []⟩

theorem psqlStage_invalid : (psql String noDescription).Invalid
    (fun sql db => db.getSqlMetadata noDescription sql) documents psqlStage staged psqlStage :=
  ⟨rfl, .here _ _ _, by decide, by decide, .invalidSql, rfl⟩

theorem db2Stage_invalid : (db2 String).Invalid
    (fun sql db => db.getSqlMetadata sql) documents db2Stage staged db2Stage :=
  ⟨rfl, .here _ _ _, by decide, by decide, .invalidSql, rfl⟩

/-- The same on a schema of its own, which is set before and reset after. -/
def inSchema : DataStatement :=
  { staged with beforeSql := "set schema archive", afterSql := "set schema app" }

def schemaDocuments : DataStatements where
  statements := [inSchema]
  sorted := List.pairwise_singleton ..

/-- To set a schema changes nothing that a unit of work could commit. -/
def db2Schema : DbDb2 String :=
  { db2Stage with cli := { db2Stage.cli with
      execDirect := fun _ sql =>
        if sql = inSchema.beforeSql ∨ sql = inSchema.afterSql then {} else { effects := [sql] } } }

theorem db2Schema_invalid : (db2 String).Invalid
    (fun sql db => db.getSqlMetadata sql) schemaDocuments db2Schema inSchema db2Schema :=
  ⟨rfl, .here _ _ _, by decide, by decide, .invalidSql, rfl⟩

/-- psql leaves nothing of the staging table behind, and db2 nothing of the schema. -/
theorem leavesNothing_iff_staged :
    ((psql String noDescription).loadFileMetaData documents 4096
      psqlStage).2.2.session.committed = [] ∧
    ((db2 String).loadFileMetaData schemaDocuments 4096 db2Schema).2.2.committed = [] :=
  have hpsql := (leavesNothing_iff (E := String) documents 4096 staged).1
  have hdb2 := (leavesNothing_iff (E := String) schemaDocuments 4096 inSchema).2
  ⟨(hpsql noDescription psqlStage psqlStage psqlStage_invalid).2 (fun _ => by decide) (by decide)
    (by decide), (hdb2 db2Schema db2Schema db2Schema_invalid).2 ⟨by decide, fun _ => by decide⟩⟩

/-- db2 keeps it. -/
theorem not_leavesNothing :
    ¬∀ (s : DataStatements) (n : ℕ) (stmt : DataStatement) (db db' : DbDb2 String),
      (db2 String).Invalid (fun sql db => db.getSqlMetadata sql) s db stmt db' →
      ((db2 String).loadFileMetaData s n db).2.2.committed = db'.committed := by
  intro h
  have hleft := h documents 4096 staged db2Stage db2Stage db2Stage_invalid
  have hcommitted : ((db2 String).loadFileMetaData documents 4096 db2Stage).2.2.committed =
      [staged.beforeSql] := rfl
  cases hcommitted.symm.trans hleft

end Dbgen4.Gen
