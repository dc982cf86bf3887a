import Dbgen4.Psql.Block
import Dbgen4.Psql.Describe

/-!
# Describing on a connection

`db_psql::get_sql_metadata` (`rtl/psql/psql_rtl.cpp`): the statement is parsed by the
server and not run, and then described. This has no effect on the database, but in a
transaction block it fails the block whenever it fails and the connection stays.

* `DbPsql.publishes`: what a text that is run commits;
* `DbPsql.committed_getSqlMetadata`: describing commits nothing;
* `DbPsql.failed_getSqlMetadata`: what is left of the block of a statement that cannot be
  described.
-/

namespace Dbgen4.Psql

open Rtl Transaction

variable {E : Type}

namespace DbPsql

variable (db : DbPsql E)

/-- `PQdescribePrepared`, for a statement that was prepared from `sql`. -/
def pqDescribePrepared (sql : String) : Option PGresult × DbPsql E :=
  db.contact (fun s v => s.parse (db.server.command sql) v) true

/-- `PQexec` of `DEALLOCATE ALL`, which has no effect on the database. -/
def deallocateAll : DbPsql E := (db.contact (fun s v => s.parse .plain v) true).2

/-- `get_sql_metadata`; `desc` is what the answer to a message describes. -/
def getSqlMetadata (desc : ℕ → PGdescription) (sql : String) :
    Except DbSts QryMetadata × DbPsql E :=
  if ¬db.isConnected then (.error .connectionError, db)
  else
    let db := db.deallocateAll
    let (prep, db) := db.pqPrepare sql
    if resultStatus prep ≠ .commandOk then (.error .invalidSql, db)
    else
      let (res, db') := db.pqDescribePrepared sql
      if resultStatus res ≠ .commandOk then (.error .invalidSql, db')
      else (.ok (desc db.next).metadata, db'.deallocateAll)

/-- What a statement commits. -/
def publishes (sql : String) : List E :=
  if db.isConnected then db.session.publishes (db.server.command sql) db.answer.verdict else []

variable {db} {run : Session E → Verdict E → Bool × Session E} {control : Bool} {sql : String}
  {desc : ℕ → PGdescription}

/-! ## What is committed -/

theorem committed_contact (h : ∀ s v, (run s v).2.committed = s.committed) :
    (db.contact run control).2.session.committed = db.session.committed := by
  unfold contact
  split
  · rfl
  · dsimp only
    split <;> exact h _ _

theorem committed_execCommand :
    (db.execCommand sql).2.session.committed = db.session.committed ++ db.publishes sql := by
  rw [execCommand_snd, pqExec, pqRun, publishes]
  cases hconn : db.isConnected with
  | false => rw [contact_of_not_connected hconn, if_neg Bool.false_ne_true, List.append_nil]
  | true =>
    rw [if_pos rfl, ← Session.committed_run]
    cases hl : db.answer.lost with
    | false => rw [contact_of_answered hconn hl]
    | true =>
      rw [contact_of_lost hconn hl]
      rfl

/-- A statement in a block that is not a COMMIT publishes nothing. -/
theorem publishes_eq_nil (hin : db.InBlock) (h : db.server.command sql ≠ .commit) :
    db.publishes sql = [] := by
  unfold publishes
  split
  · rename_i hconn
    exact Session.publishes_eq_nil (hin hconn) h
  · rfl

theorem committed_beginTransaction :
    db.beginTransaction.2.session.committed = db.session.committed := by
  rw [beginTransaction, execCommand_snd, pqExec, db.server.begin_eq]
  exact committed_contact Session.committed_run_begin

/-- A ROLLBACK publishes nothing, wherever the session is. -/
theorem committed_rollback : db.rollback.2.session.committed = db.session.committed := by
  have hrollback : (db.execCommand "ROLLBACK").2.session.committed = db.session.committed := by
    rw [committed_execCommand, publishes, db.server.rollback_eq]
    split
    · cases hb : db.session.block <;> simp [Session.publishes, hb]
    · exact List.append_nil _
  unfold rollback
  dsimp only
  split
  · exact hrollback
  · exact committed_beginTransaction.trans hrollback

theorem committed_deallocateAll : db.deallocateAll.session.committed = db.session.committed :=
  committed_contact fun _ _ => Session.committed_parse

theorem committed_getSqlMetadata :
    (db.getSqlMetadata desc sql).2.session.committed = db.session.committed := by
  have hprep : (db.deallocateAll.pqPrepare sql).2.session.committed = db.session.committed :=
    (committed_contact fun _ _ => Session.committed_parse).trans committed_deallocateAll
  have hdesc : ((db.deallocateAll.pqPrepare sql).2.pqDescribePrepared sql).2.session.committed =
      db.session.committed :=
    (committed_contact fun _ _ => Session.committed_parse).trans hprep
  unfold getSqlMetadata
  split
  · rfl
  · dsimp only
    split
    · exact hprep
    · split
      · exact hdesc
      · exact committed_deallocateAll.trans hdesc

/-! ## What is left of the block -/

/-- A message that is parsed and not run does not leave the block. -/
theorem inBlock_parse (hin : db.InBlock) (c : Command) :
    (db.contact (fun s v => s.parse c v) true).2.InBlock := by
  rw [inBlock_contact]
  intro hconn _
  rw [Ne, Session.parse_block_eq_idle]
  exact hin hconn

/-- If it is not answered well, it has failed the block or lost the connection. -/
theorem failed_of_parse (hin : db.InBlock) {c : Command}
    (h : resultStatus (db.contact (fun s v => s.parse c v) true).1 ≠ .commandOk) :
    (db.contact (fun s v => s.parse c v) true).2.isConnected = true →
      (db.contact (fun s v => s.parse c v) true).2.session.Failed := by
  rw [isConnected_contact, Bool.and_eq_true, Bool.not_eq_true']
  rintro ⟨hconn, hl⟩
  rw [contact_of_answered hconn hl]
  refine Session.failed_parse (hin hconn) (Bool.eq_false_of_not_eq_true fun hok => h ?_)
  exact resultStatus_contact.2 ⟨hconn, hl, hok, .inl rfl⟩

/-- In a block, a statement that cannot be described fails the block, unless the connection is
    gone. -/
theorem failed_getSqlMetadata (hin : db.InBlock) {e : DbSts}
    (h : (db.getSqlMetadata desc sql).1 = .error e)
    (hconn : (db.getSqlMetadata desc sql).2.isConnected = true) :
    (db.getSqlMetadata desc sql).2.session.Failed := by
  have hin₁ : db.deallocateAll.InBlock := inBlock_parse hin .plain
  have hin₂ : (db.deallocateAll.pqPrepare sql).2.InBlock := inBlock_parse hin₁ _
  revert h hconn
  unfold getSqlMetadata
  split
  · rename_i hnot
    exact fun _ hconn => absurd hconn hnot
  · dsimp only
    split
    · rename_i hprep
      exact fun _ hconn => failed_of_parse hin₁ hprep hconn
    · split
      · rename_i hdesc
        exact fun _ hconn => failed_of_parse hin₂ hdesc hconn
      · exact fun h => by cases h

/-- Nothing is published after that. -/
theorem publishes_getSqlMetadata (hin : db.InBlock) {e : DbSts}
    (h : (db.getSqlMetadata desc sql).1 = .error e) (sql' : String) :
    (db.getSqlMetadata desc sql).2.publishes sql' = [] := by
  unfold publishes
  split
  · rename_i hconn
    exact Session.publishes_eq_nil_of_failed (failed_getSqlMetadata hin h hconn)
  · rfl

end DbPsql

end Dbgen4.Psql
