import Dbgen4.Psql.Connection

/-!
# Always in a transaction block

`db_psql` means its connection to be in a transaction block whenever none of
its functions is running, so that nothing a client does is committed by itself.
Each function that ends the block opens the next one. `commit`,
`refresh_statistics` and `on_change` return early when the server refuses their
COMMIT, which ends the block all the same: then they leave the connection
outside. So does a statement of the client which is itself a COMMIT or a
ROLLBACK.

`DbPsql.InBlock` is the property, `Orderly` the condition under which a call
keeps it, and `inBlock_of_orderly` the result for whole runs.
-/

namespace Dbgen4.Psql

open Rtl Transaction

variable {E : Type} {F : FloatText}

/-- The server refuses its message of a number, and keeps the connection. -/
def Server.Refuses (server : Server E) (n : ℕ) : Prop :=
  (server.answers n).lost = false ∧ (server.answers n).verdict = .refused

/-- The server takes its message of a number, a statement without rows. -/
def Server.Takes (server : Server E) (n : ℕ) : Prop :=
  (server.answers n).lost = false ∧ (server.answers n).verdict ≠ .refused ∧
    (server.answers n).result.status = .commandOk

namespace DbPsql

variable {db : DbPsql E} {run : Session E → Verdict E → Bool × Session E} {control : Bool}
  {cmd : Command} {sql table : String}

/-! ## Messages -/

theorem contact_of_not_connected (h : db.isConnected = false) :
    db.contact run control = (none, db) := by
  simp [contact, h]

theorem contact_of_lost (h : db.isConnected = true) (hl : db.answer.lost = true) :
    db.contact run control = (none, { db with
      next := db.next + 1
      alive := false
      session := (run db.session db.answer.verdict).2.close }) := by
  simp [contact, h, hl]

theorem contact_of_answered (h : db.isConnected = true) (hl : db.answer.lost = false) :
    db.contact run control =
      (some (db.answer.resultOf (run db.session db.answer.verdict).1 control), { db with
        next := db.next + 1
        session := (run db.session db.answer.verdict).2 }) := by
  simp [contact, h, hl]

@[simp] theorem server_contact : (db.contact run control).2.server = db.server := by
  unfold contact
  split
  · rfl
  · dsimp only
    split <;> rfl

@[simp] theorem isConnected_contact :
    (db.contact run control).2.isConnected = (db.isConnected && !db.answer.lost) := by
  cases h : db.isConnected with
  | false => rw [contact_of_not_connected h, h, Bool.false_and]
  | true =>
    cases hl : db.answer.lost with
    | false => simpa [contact_of_answered h hl, isConnected] using h
    | true => simp [contact_of_lost h hl, isConnected]

/-- The result of a message which the server accepts. -/
theorem resultStatus_contact : resultStatus (db.contact run control).1 = .commandOk ↔
    db.isConnected = true ∧ db.answer.lost = false ∧
      (run db.session db.answer.verdict).1 = true ∧
      (control = true ∨ db.answer.result.status = .commandOk) := by
  cases h : db.isConnected with
  | false => simp [contact_of_not_connected h, resultStatus]
  | true =>
    cases hl : db.answer.lost with
    | true => simp [contact_of_lost h hl, resultStatus]
    | false =>
      rw [contact_of_answered h hl]
      cases ha : (run db.session db.answer.verdict).1 <;> cases control <;>
        simp [resultStatus, Answer.resultOf]

/-- A message that is refused has the status of a failure. -/
theorem resultStatus_contact_fatal : resultStatus (db.contact run control).1 = .fatalError ↔
    (db.isConnected = true → db.answer.lost = false →
      (run db.session db.answer.verdict).1 = false) := by
  cases h : db.isConnected with
  | false => simp [contact_of_not_connected h, resultStatus]
  | true =>
    cases hl : db.answer.lost with
    | true => simp [contact_of_lost h hl, resultStatus]
    | false =>
      have hne := db.answer.status_ne
      rw [contact_of_answered h hl]
      cases ha : (run db.session db.answer.verdict).1 <;> cases control <;>
        simp [resultStatus, Answer.resultOf, hne]

theorem execCommand_snd : (db.execCommand sql).2 = (db.pqExec sql).2 := by
  cases h : db.isConnected with
  | false => simp [execCommand, pqExec, pqRun, contact_of_not_connected h, h]
  | true =>
    simp only [execCommand, h, not_true_eq_false, if_false]
    split <;> rfl

theorem execCommand_success : (db.execCommand sql).1 = .success ↔
    resultStatus (db.pqExec sql).1 = .commandOk := by
  cases h : db.isConnected with
  | false => simp [execCommand, pqExec, pqRun, contact_of_not_connected h, h, resultStatus]
  | true =>
    simp only [execCommand, h, not_true_eq_false, if_false]
    split <;> simp_all

/-! ## The invariant -/

/-- A connection that is alive is in a transaction block. -/
def InBlock (db : DbPsql E) : Prop := db.isConnected = true → db.session.block ≠ .idle

/-- The next message leaves the block: it is a COMMIT, or a ROLLBACK that is not refused. -/
def Leaves (db : DbPsql E) (cmd : Command) : Prop :=
  db.isConnected = true ∧ db.answer.lost = false ∧
    (cmd = .commit ∨ cmd = .rollback ∧ db.answer.verdict ≠ .refused)

theorem inBlock_contact : (db.contact run control).2.InBlock ↔
    (db.isConnected = true → db.answer.lost = false →
      (run db.session db.answer.verdict).2.block ≠ .idle) := by
  rw [InBlock, isConnected_contact, Bool.and_eq_true, Bool.not_eq_true', and_imp]
  refine forall₂_congr fun h hl => ?_
  rw [contact_of_answered h hl]

theorem inBlock_pqRun (hin : db.InBlock) : (db.pqRun cmd).2.InBlock ↔ ¬db.Leaves cmd := by
  rw [pqRun, inBlock_contact, Leaves, not_and, not_and]
  refine forall₂_congr fun h _ => ?_
  rw [Ne, Session.run_block_eq_idle (hin h)]

theorem inBlock_execCommand (hin : db.InBlock) :
    (db.execCommand sql).2.InBlock ↔ ¬db.Leaves (db.server.command sql) := by
  rw [execCommand_snd, pqExec, inBlock_pqRun hin]

theorem inBlock_of_not_connected (h : db.isConnected = false) : db.InBlock := by
  rw [InBlock, h]
  exact fun hf => absurd hf Bool.false_ne_true

/-- A new block is opened, wherever the session is. -/
theorem inBlock_begin : (db.execCommand "BEGIN").2.InBlock := by
  rw [execCommand_snd, pqExec, db.server.begin_eq, pqRun, inBlock_contact]
  exact fun _ _ => Session.run_begin_block_ne_idle

theorem inBlock_connect (hin : db.InBlock) (outcome : PQconnectdb) :
    (db.connect outcome).2.InBlock := by
  unfold connect
  split
  · exact hin
  · cases outcome with
    | ok => exact inBlock_begin
    | _ => exact hin

theorem inBlock_disconnect (hin : db.InBlock) : db.disconnect.2.InBlock := by
  unfold disconnect
  split
  · exact hin
  · exact inBlock_of_not_connected rfl

/-- A ROLLBACK that fails leaves the block where it is. -/
theorem inBlock_rollback (hin : db.InBlock) : db.rollback.2.InBlock := by
  unfold rollback
  by_cases hs : (db.execCommand "ROLLBACK").1 = .success
  · simp only [hs, ne_eq, not_true_eq_false, if_false]
    exact inBlock_begin
  · simp only [ne_eq, hs, not_false_eq_true, if_true]
    rw [inBlock_execCommand hin, db.server.rollback_eq]
    rintro ⟨hconn, hl, hcmd⟩
    have hv : db.answer.verdict ≠ .refused := hcmd.elim nofun And.right
    refine hs (execCommand_success.2 (resultStatus_contact.2 ⟨hconn, hl, ?_, .inl ?_⟩))
    · rw [db.server.rollback_eq, ← Bool.not_eq_false, Session.run_rollback_eq_false (hin hconn)]
      exact hv
    · rw [db.server.rollback_eq]
      rfl

/-! ### Commits -/

/-- The server refuses the COMMIT that comes after `n` statements which succeed. -/
def CommitRefused (db : DbPsql E) (n : ℕ) : Prop :=
  db.isConnected = true ∧ db.session.Opened ∧ (∀ k < n, db.server.Takes (db.next + k)) ∧
    db.server.Refuses (db.next + n)

theorem commit_failed_iff : (db.execCommand "COMMIT").1 ≠ .success ↔
    (db.isConnected = true → db.answer.lost = false →
      db.session.Opened ∧ db.answer.verdict = .refused) := by
  rw [Ne, execCommand_success, pqExec, pqRun, resultStatus_contact, db.server.commit_eq,
    ← Session.run_commit_eq_false]
  simp [Command.isControl]

/-- What follows a COMMIT is in a block, unless the COMMIT is refused and nothing follows it. -/
theorem inBlock_after_commit (hin : db.InBlock) {db' : DbPsql E} (hok : db'.InBlock) :
    (if (db.execCommand "COMMIT").1 ≠ .success then (db.execCommand "COMMIT").2 else db').InBlock ↔
      ¬db.CommitRefused 0 := by
  by_cases hs : (db.execCommand "COMMIT").1 = .success
  · rw [if_neg (not_not_intro hs)]
    refine iff_of_true hok fun ⟨hconn, ho, _, hl, hv⟩ => ?_
    exact commit_failed_iff.2 (fun _ _ => ⟨ho, hv⟩) hs
  · have hfail := commit_failed_iff.1 hs
    rw [if_pos hs, inBlock_execCommand hin, db.server.commit_eq]
    refine not_congr ⟨fun ⟨hconn, hl, _⟩ => ?_, fun ⟨hconn, _, _, hl, _⟩ => ⟨hconn, hl, .inl rfl⟩⟩
    exact ⟨hconn, (hfail hconn hl).1, fun k hk => absurd hk (Nat.not_lt_zero k), hl,
      (hfail hconn hl).2⟩

theorem inBlock_commit (hin : db.InBlock) : db.commit.2.InBlock ↔ ¬db.CommitRefused 0 := by
  have hok : ((db.execCommand "COMMIT").2.execCommand "BEGIN").2.InBlock := inBlock_begin
  rw [← inBlock_after_commit hin hok, commit]
  dsimp only
  split <;> rfl

theorem inBlock_refreshStatistics (hin : db.InBlock) (table : String) :
    (db.refreshStatistics table).2.InBlock ↔ ¬db.CommitRefused 0 := by
  have hok : (((db.execCommand "COMMIT").2.execCommand
      ("VACUUM ANALYZE " ++ table)).2.execCommand "BEGIN").2.InBlock := inBlock_begin
  rw [← inBlock_after_commit hin hok, refreshStatistics]
  dsimp only
  split
  · rfl
  · split <;> rfl

/-! ### The change trigger -/

theorem server_execCommand : (db.execCommand sql).2.server = db.server := by
  rw [execCommand_snd, pqExec, pqRun, server_contact]

/-- A statement in a block which is no transaction control succeeds if the server takes it. -/
theorem execCommand_plain (hin : db.InBlock) (hsql : db.server.command sql = .plain) :
    (db.execCommand sql).1 = .success ↔
      db.isConnected = true ∧ db.session.Opened ∧ db.server.Takes db.next := by
  rw [execCommand_success, pqExec, pqRun, resultStatus_contact, hsql]
  refine and_congr_right fun hconn => ?_
  rw [Session.run_plain_eq_true (hin hconn)]
  simp only [Command.isControl, Server.Takes, answer]
  tauto

theorem inBlock_plain (hin : db.InBlock) (hsql : db.server.command sql = .plain) :
    (db.execCommand sql).2.InBlock := by
  rw [inBlock_execCommand hin, hsql, Leaves]
  simp

/-- After it, it no longer counts among the statements before the COMMIT. -/
theorem commitRefused_succ (hin : db.InBlock) (hsql : db.server.command sql = .plain) (n : ℕ) :
    db.CommitRefused (n + 1) ↔
      (db.execCommand sql).1 = .success ∧ (db.execCommand sql).2.CommitRefused n := by
  rw [execCommand_plain hin hsql]
  refine ⟨fun ⟨hconn, ho, ht, hr⟩ => ?_, fun ⟨⟨hconn, ho, ht⟩, _, _, ht', hr⟩ => ?_⟩
  -- Either way the server takes the statement, and the statements after it are counted from there.
  all_goals
    have ht₀ : db.server.Takes db.next := by first | exact ht | exact ht 0 n.succ_pos
    have hrun := (Session.run_plain_eq_true (hin hconn)).2 ⟨ho, ht₀.2.1⟩
    have heq : (db.execCommand sql).2 = { db with
        next := db.next + 1
        session := (db.session.run .plain db.answer.verdict).2 } := by
      rw [execCommand_snd, pqExec, hsql, pqRun, contact_of_answered hconn ht₀.1]
  · refine ⟨⟨hconn, ho, ht₀⟩, ?_⟩
    rw [heq]
    refine ⟨hconn, Session.run_plain_opened hrun ho, fun k hk => ?_, ?_⟩
    · have := ht (k + 1) (Nat.succ_lt_succ hk)
      rwa [← Nat.add_assoc, Nat.add_right_comm] at this
    · rwa [← Nat.add_assoc, Nat.add_right_comm] at hr
  · rw [heq] at ht' hr
    refine ⟨hconn, ho, fun k hk => ?_, ?_⟩
    · cases k with
      | zero => exact ht₀
      | succ k =>
        have := ht' k (Nat.lt_of_succ_lt_succ hk)
        rwa [Nat.add_right_comm, Nat.add_assoc] at this
    · rwa [Nat.add_right_comm, Nat.add_assoc] at hr

/-- One of the statements of `create_change_trigger`: if it fails, the block is rolled back. -/
theorem inBlock_after_plain (hin : db.InBlock) (hsql : db.server.command sql = .plain) {n : ℕ}
    {db' : DbPsql E} (hok : db'.InBlock ↔ ¬(db.execCommand sql).2.CommitRefused n) :
    (if (db.execCommand sql).1 ≠ .success then (db.execCommand sql).2.rollback.2 else db').InBlock ↔
      ¬db.CommitRefused (n + 1) := by
  rw [commitRefused_succ hin hsql]
  by_cases hs : (db.execCommand sql).1 = .success
  · rw [if_neg (not_not_intro hs), hok]
    simp [hs]
  · rw [if_pos hs]
    exact iff_of_true (inBlock_rollback (inBlock_plain hin hsql)) fun hf => hs hf.1

theorem inBlock_createChangeTrigger (hin : db.InBlock) (ht : db.server.tableName table) :
    (db.createChangeTrigger table).2.InBlock ↔ ¬db.CommitRefused 3 := by
  have hsql := db.server.change_eq table ht
  have h₁ : db.server.command (functionSql table) = .plain := hsql _ (by simp)
  have hin₁ := inBlock_plain hin h₁
  have h₂ : (db.execCommand (functionSql table)).2.server.command (dropSql table) = .plain := by
    rw [server_execCommand]
    exact hsql _ (by simp)
  have hin₂ := inBlock_plain hin₁ h₂
  have h₃ : ((db.execCommand (functionSql table)).2.execCommand (dropSql table)).2.server.command
      (createSql table) = .plain := by
    rw [server_execCommand, server_execCommand]
    exact hsql _ (by simp)
  have hin₃ := inBlock_plain hin₂ h₃
  rw [← inBlock_after_plain hin h₁ (inBlock_after_plain hin₁ h₂
    (inBlock_after_plain hin₂ h₃ (inBlock_commit hin₃))), createChangeTrigger]
  dsimp only
  split
  · rfl
  · split
    · rfl
    · split <;> rfl

theorem inBlock_onChange (hin : db.InBlock) (ht : db.server.tableName table) (listen : DbSts) :
    (db.onChange table listen).2.InBlock ↔ ¬db.CommitRefused 3 := by
  rw [← inBlock_createChangeTrigger hin ht, onChange]
  dsimp only
  split <;> rfl

/-! ### Queries -/

theorem inBlock_prepare (hin : db.InBlock) (q : Query) : (db.prepare q).2.2.InBlock := by
  show (db.pqPrepare q.sql).2.InBlock
  rw [pqPrepare, inBlock_contact]
  intro hconn _
  rw [Ne, Session.parse_block_eq_idle]
  exact hin hconn

theorem inBlock_deallocate (hin : db.InBlock) (q : Query) : (db.deallocate q).InBlock := by
  unfold deallocate
  split
  · rw [inBlock_contact]
    intro hconn _
    rw [Ne, Session.run_block_eq_idle (hin hconn)]
    simp
  · exact hin

/-- The rows of a pipeline do not leave the block if the first one does not. -/
theorem inBlock_pipelineRows (n : ℕ) (hin : db.InBlock) (hl : ¬db.Leaves cmd) :
    (pipelineRows cmd n db).2.InBlock := by
  induction n generalizing db with
  | zero => exact hin
  | succ n ih =>
    have hin' := (inBlock_pqRun hin).2 hl
    unfold pipelineRows
    dsimp only
    split
    · exact hin'
    · rename_i hfatal
      refine ih hin' fun hl' => ?_
      -- Only a ROLLBACK could leave the block now, and then the first one has succeeded.
      rw [pqRun, resultStatus_contact_fatal] at hfatal
      push Not at hfatal
      obtain ⟨hconn, hlost, hok⟩ := hfatal
      refine hl ⟨hconn, hlost, hl'.2.2.imp id fun h => ⟨h.1, fun hv => hok ?_⟩⟩
      rw [h.1, Session.run_rollback_eq_false (hin hconn)]
      exact hv

theorem inBlock_pipeline (n : ℕ) (hin : db.InBlock) (hl : ¬db.Leaves cmd) :
    (db.pipeline cmd n).2.InBlock := by
  unfold pipeline
  rw [if_neg fun h => hin h.1 (Block.isIdle_iff.1 h.2.1)]
  exact inBlock_pipelineRows n hin hl

theorem inBlock_execute (hin : db.InBlock) (q : Query) (hl : ¬db.Leaves (db.server.command q.sql)) :
    (db.execute F q).2.2.InBlock := by
  show (db.answerExecute q.sql (q.request (db.server.libpq db.next))).2.InBlock
  cases q.request (db.server.libpq db.next) with
  | nothing => exact hin
  | single => exact (inBlock_pqRun hin).2 hl
  | batch n => exact inBlock_pipeline n hin hl

end DbPsql

/-! ## Runs -/

/-- The condition under which a call keeps the connection in a block: no COMMIT that the
    function sends by itself is refused, and no statement of the client's is a COMMIT or a
    ROLLBACK. -/
def Orderly (c : Client E) : Op → Prop
  | .commit | .refreshStatistics _ => ¬c.db.CommitRefused 0
  | .onChange _ _ => ¬c.db.CommitRefused 3
  | .exec sql => ¬c.db.Leaves (c.db.server.command sql)
  | .execute i => ∀ q ∈ c.find i, ¬c.db.Leaves (c.db.server.command q.sql)
  | _ => True

variable {c : Client E} {op : Op}

/-- One call of `db_psql`: the condition is exact. -/
theorem inBlock_call_iff (hin : c.db.InBlock) (ha : c.Allows op) (hop : ∀ i, op ≠ .execute i) :
    (c.call F op).2.db.InBlock ↔ Orderly c op := by
  cases op with
  | connect outcome => exact iff_of_true (DbPsql.inBlock_connect hin outcome) trivial
  | disconnect => exact iff_of_true (DbPsql.inBlock_disconnect hin) trivial
  | exec sql => exact DbPsql.inBlock_execCommand hin
  | commit => exact DbPsql.inBlock_commit hin
  | rollback => exact iff_of_true (DbPsql.inBlock_rollback hin) trivial
  | refreshStatistics table => exact DbPsql.inBlock_refreshStatistics hin table
  | onChange table listen => exact DbPsql.inBlock_onChange hin ha listen
  | execute i => exact absurd rfl (hop i)
  | prepare i =>
    refine iff_of_true ?_ trivial
    cases h : c.find i with
    | none => simpa [Client.call, h] using hin
    | some q => simpa [Client.call, Client.onQuery, h] using DbPsql.inBlock_prepare hin q
  | fetch i =>
    refine iff_of_true ?_ trivial
    cases h : c.find i with
    | none => simpa [Client.call, h] using hin
    | some q => simpa [Client.call, Client.onQuery, h] using hin
  | destroy i =>
    refine iff_of_true ?_ trivial
    cases h : c.find i with
    | none => simpa [Client.call, h] using hin
    | some q => simpa [Client.call, h] using DbPsql.inBlock_deallocate hin q
  | _ => exact iff_of_true hin trivial

/-- One call. -/
theorem inBlock_call (hin : c.db.InBlock) (ha : c.Allows op) (ho : Orderly c op) :
    (c.call F op).2.db.InBlock := by
  by_cases hop : ∃ i, op = .execute i
  · obtain ⟨i, rfl⟩ := hop
    cases h : c.find i with
    | none => simpa [Client.call, h] using hin
    | some q => simpa [Client.call, Client.onQuery, h] using
      DbPsql.inBlock_execute hin q (ho q h)
  · exact (inBlock_call_iff hin ha fun i hi => hop ⟨i, hi⟩).2 ho

/-- **A connection is always in a transaction block**: in every run whose calls all meet the
    condition, a connection that is alive is in a block whenever a call has returned. -/
theorem inBlock_of_orderly {tr : List (Op × Bool)}
    (h : ((connection E F).restrict fun c l => Orderly c l.1).Run tr c) : c.db.InBlock := by
  induction h with
  | init hc =>
    obtain ⟨server, cs, rfl⟩ := hc
    exact DbPsql.inBlock_of_not_connected rfl
  | step _ hst ih =>
    obtain ⟨⟨ha, hcall⟩, ho⟩ := hst
    have hin := inBlock_call (F := F) ih ha ho
    rwa [hcall] at hin

/-! ### A client that inserts and commits -/

/-- A server with one table, and what it makes of the messages it gets. -/
def ledger (verdicts : List (Verdict String)) : Server String where
  command sql :=
    if sql = "BEGIN" then .begin
    else if sql = "COMMIT" then .commit
    else if sql = "ROLLBACK" then .rollback
    else if sql = "VACUUM ANALYZE account" then .outside
    else .plain
  answers n :=
    { verdict := verdicts.getD n (.ok [])
      result := { status := .commandOk, tuples := [] }
      status_ne := by decide }
  libpq _ := {}
  tableName table := table = "account"
  begin_eq := by decide
  commit_eq := by decide
  rollback_eq := by decide
  vacuum_eq := by
    rintro _ rfl
    decide
  change_eq := by
    rintro _ rfl
    decide

/-- A client of that server, before its first call. -/
def customer (verdicts : List (Verdict String)) : Client String :=
  { db := { server := ledger verdicts, session := ⟨.idle, []⟩ } }

/-- A statement that inserts a row. -/
def insertAccount : String := "insert into account (amount) values (10)"

/-- The client has connected, inserted a row and called `commit`. -/
def inserted (verdicts : List (Verdict String)) : Client String :=
  ((((customer verdicts).call noFloats (.connect .ok)).2.call noFloats
    (.exec insertAccount)).2.call noFloats .commit).2

/-- With a server that accepts the COMMIT, the client is in a new block after it, and after
    `refresh_statistics` again. -/
theorem inBlock_ledger :
    let c := ((inserted [.ok [], .ok ["10"]]).call noFloats (.refreshStatistics "account")).2
    c.db.isConnected = true ∧ c.db.InBlock := by
  refine ⟨by decide, inBlock_of_orderly (F := noFloats) (.step (.step (.step (.step
    (.init ⟨ledger [.ok [], .ok ["10"]], [], rfl⟩)
    ⟨connection_step (.connect .ok) trivial, trivial⟩)
    ⟨connection_step (.exec insertAccount) trivial, ?_⟩)
    ⟨connection_step .commit trivial, ?_⟩)
    ⟨connection_step (.refreshStatistics "account") rfl, ?_⟩)⟩
  · exact fun h => absurd h.2.2 (by decide)
  · exact fun h => absurd h.2.2.2.2 (by decide)
  · exact fun h => absurd h.2.2.2.2 (by decide)

/-- With a server that refuses the COMMIT, it is left outside. -/
theorem not_inBlock :
    ¬∀ (F : FloatText) (tr : List (Op × Bool)) (c : Client String),
      (connection String F).Run tr c → c.db.InBlock := by
  intro h
  have hrun : (connection String noFloats).Run _ (inserted [.ok [], .ok ["10"], .refused]) :=
    .step (.step (.step (.init ⟨ledger [.ok [], .ok ["10"], .refused], [], rfl⟩)
      (connection_step (.connect .ok) trivial))
      (connection_step (.exec insertAccount) trivial))
      (connection_step .commit trivial)
  exact h noFloats _ _ hrun (by decide) rfl

end Dbgen4.Psql
