import Dbgen4.Async.Schedule
import Dbgen4.Psql.Backend
import Dbgen4.Psql.Block

/-!
# Durability

`commit` takes the server at its word: the COMMIT it sends is accepted, and so
`commit` reports success. A COMMIT is accepted also in a block that has failed,
where it rolls back; then what the statements before the failure have done is
lost, and `commit` reports success all the same. The failure that fails the
block may be one that nobody keeps, such as a failed `prepare`.

`DbPsql.Follows` is what a call, or a job of the facade, can do to the session
between two transaction boundaries; `commit_durable_iff` says, of the calls of a
connection and of the jobs of `async_db` alike, exactly when a statement is
durable after a `commit` that reports success.
-/

namespace Dbgen4.Psql

open Rtl Transaction

variable {E : Type} {F : FloatText} {L : Layout}

namespace DbPsql

variable {db db' db'' : DbPsql E} {run : Session E → Verdict E → Bool × Session E}
  {control : Bool} {cmd : Command}

/-- What can happen between two transaction boundaries to a connection that stays alive. -/
def Follows (db db' : DbPsql E) : Prop :=
  db'.isConnected = true → db.isConnected = true ∧ db.session.Advances db'.session

theorem Follows.refl (db : DbPsql E) : db.Follows db := fun h => ⟨h, .refl _⟩

theorem Follows.trans (h : db.Follows db') (h' : db'.Follows db'') : db.Follows db'' := by
  intro hconn
  obtain ⟨hconn', hadv'⟩ := h' hconn
  obtain ⟨hconn₀, hadv⟩ := h hconn'
  exact ⟨hconn₀, hadv.trans hadv'⟩

theorem follows_contact (hrun : ∀ v, db.session.Advances (run db.session v).2) :
    db.Follows (db.contact run control).2 := by
  intro hconn
  rw [isConnected_contact, Bool.and_eq_true, Bool.not_eq_true'] at hconn
  refine ⟨hconn.1, ?_⟩
  rw [contact_of_answered hconn.1 hconn.2]
  exact hrun _

theorem follows_pqRun (hcmd : cmd.isControl = false) : db.Follows (db.pqRun cmd).2 :=
  follows_contact fun v => Session.run_advances hcmd v

theorem follows_execCommand {sql : String} (hcmd : (db.server.command sql).isControl = false) :
    db.Follows (db.execCommand sql).2 := by
  rw [execCommand_snd]
  exact follows_pqRun hcmd

theorem follows_prepare (db : DbPsql E) (q : Query) : db.Follows (db.prepare q).2.2 := by
  show db.Follows (db.pqPrepare q.sql).2
  exact follows_contact fun v => Session.parse_advances _ v

theorem follows_deallocate (db : DbPsql E) (q : Query) : db.Follows (db.deallocate q) := by
  unfold deallocate
  split
  · exact follows_contact fun v => Session.run_advances rfl v
  · exact .refl db

theorem follows_pipelineRows (n : ℕ) (hcmd : cmd.isControl = false) :
    db.Follows (pipelineRows cmd n db).2 := by
  induction n generalizing db with
  | zero => exact .refl db
  | succ n ih =>
    unfold pipelineRows
    dsimp only
    split
    · exact follows_pqRun hcmd
    · exact (follows_pqRun hcmd).trans ih

/-- Outside a block, the rows of a pipeline are one statement. -/
theorem follows_pipeline (n : ℕ) (hcmd : cmd.isControl = false) :
    db.Follows (db.pipeline cmd n).2 := by
  unfold pipeline
  split
  · rename_i himp
    intro hconn
    refine ⟨himp.1, ?_⟩
    simp only [pqRun] at hconn ⊢
    rw [isConnected_contact, Bool.and_eq_true, Bool.not_eq_true'] at hconn
    rw [contact_of_answered hconn.1 hconn.2]
    exact Session.implicit_advances (Block.isIdle_iff.1 himp.2.1)
      (follows_pipelineRows n hcmd hconn.1).2 _
  · exact follows_pipelineRows n hcmd

theorem follows_execute (q : Query) (hcmd : (db.server.command q.sql).isControl = false) :
    db.Follows (db.execute F q).2.2 := by
  show db.Follows (db.answerExecute q.sql (q.request (db.server.libpq db.next))).2
  cases q.request (db.server.libpq db.next) with
  | nothing => exact .refl db
  | single => exact follows_pqRun hcmd
  | batch n => exact follows_pipeline n hcmd

theorem execCommand_sts (db : DbPsql E) (sql : String) : (db.execCommand sql).1 = .success ∨
    (db.execCommand sql).1 = .transactionError ∨ (db.execCommand sql).1 = .connectionError := by
  unfold execCommand
  split
  · simp
  · dsimp only
    split <;> simp

/-- `commit` knows only one kind of success. -/
theorem commit_isSuccess : db.commit.1.isSuccess ↔ db.commit.1 = .success := by
  have hsts : db.commit.1 = .success ∨ db.commit.1 = .transactionError ∨
      db.commit.1 = .connectionError := by
    unfold commit
    dsimp only
    split
    · exact execCommand_sts db "COMMIT"
    · exact execCommand_sts _ "BEGIN"
  rcases hsts with h | h | h <;> rw [h] <;> decide

/-- A `commit` that reports success has sent a COMMIT, which was accepted, and has kept what it
    committed. -/
theorem commit_success (h : db.commit.1 = .success) : db.isConnected = true ∧ ∃ t,
    db.session.run .commit db.answer.verdict = (true, t) ∧
      db.commit.2.session.committed = t.committed := by
  have hs : (db.execCommand "COMMIT").1 = .success := by
    by_contra hs
    simp [commit, hs] at h
  obtain ⟨hconn, hl, hok, -⟩ := resultStatus_contact.1 (execCommand_success.1 hs)
  rw [db.server.commit_eq] at hok
  refine ⟨hconn, _, Prod.ext hok rfl, ?_⟩
  have heq : (db.execCommand "COMMIT").2 = { db with
      next := db.next + 1
      session := (db.session.run .commit db.answer.verdict).2 } := by
    rw [execCommand_snd, pqExec, db.server.commit_eq, pqRun, contact_of_answered hconn hl]
  have hcommit : db.commit = (db.execCommand "COMMIT").2.beginTransaction := by
    simp [commit, hs]
  rw [hcommit, heq]
  rw [hcommit, heq] at h
  obtain ⟨hconn', hl', -⟩ := resultStatus_contact.1 (execCommand_success.1 h)
  rw [beginTransaction, execCommand_snd, pqExec, Server.begin_eq, pqRun,
    contact_of_answered hconn' hl']
  exact Session.committed_run_begin _ _

/-- The step from `db` to `db'` is durable after a `commit` of `db''` that reports success, if
    and only if the block has not failed until then, or there was nothing to commit. -/
theorem durable_commit_iff (h : db.Follows db') (h' : db'.Follows db'')
    (hs : db''.commit.1 = .success) :
    Session.Durable db.session db'.session db''.commit.2.session ↔
      ¬(db''.session.Failed ∧ Session.effects db.session db'.session ≠ []) := by
  obtain ⟨hconn, t, hrun, ht⟩ := commit_success hs
  obtain ⟨hconn', hadv'⟩ := h' hconn
  rw [← Session.durable_iff (h hconn').2 hadv' hrun, Session.Durable, Session.Durable, ht]

end DbPsql

/-! ## Calls of the connection -/

/-- The calls that prepare or run a statement. -/
def Op.isStatement : Op → Bool
  | .exec _ | .prepare _ | .execute _ => true
  | _ => false

/-- The calls that end a transaction, or can: also a statement which is transaction control. -/
def Op.isBoundary (c : Client E) : Op → Bool
  | .connect _ | .disconnect | .commit | .rollback | .refreshStatistics _ | .onChange _ _ => true
  | .exec sql => (c.db.server.command sql).isControl
  | .execute i => (c.find i).any fun q => (c.db.server.command q.sql).isControl
  | _ => false

theorem follows_call {c : Client E} {op : Op} (h : op.isBoundary c = false) :
    c.db.Follows (c.call F op).2.db := by
  cases op with
  | exec sql => exact DbPsql.follows_execCommand h
  | query sql par res => exact .refl c.db
  | prepare i =>
    cases hq : c.find i with
    | none => simpa [Client.call, hq] using DbPsql.Follows.refl c.db
    | some q => simpa [Client.call, Client.onQuery, hq] using DbPsql.follows_prepare c.db q
  | execute i =>
    cases hq : c.find i with
    | none => simpa [Client.call, hq] using DbPsql.Follows.refl c.db
    | some q =>
      have hcmd : (c.db.server.command q.sql).isControl = false := by
        simpa [Op.isBoundary, hq] using h
      simpa [Client.call, Client.onQuery, hq] using DbPsql.follows_execute q hcmd
  | fetch i =>
    cases hq : c.find i with
    | none => simpa [Client.call, hq] using DbPsql.Follows.refl c.db
    | some q => simpa [Client.call, Client.onQuery, hq] using DbPsql.Follows.refl c.db
  | destroy i =>
    cases hq : c.find i with
    | none => simpa [Client.call, hq] using DbPsql.Follows.refl c.db
    | some q => simpa [Client.call, hq] using DbPsql.follows_deallocate c.db q
  | reset i | resize i rows | write i par => exact .refl c.db
  | _ => cases h

/-- Between two boundaries. -/
theorem follows_path {c c' : Client E} {tr : List (Op × Bool)}
    (h : ((connection E F).restrict fun c l => l.1.isBoundary c = false).Path c tr c') :
    c.db.Follows c'.db := by
  induction h with
  | refl => exact .refl _
  | step _ hst ih =>
    obtain ⟨⟨_, hcall⟩, hb⟩ := hst
    have hf := follows_call (F := F) hb
    rw [hcall] at hf
    exact ih.trans hf

/-! ## Jobs of the facade -/

/-- The steps that are a statement which reports success. -/
def succeeds : Async.Event → Bool
  | .execute _ _ none | .prepare none => true
  | _ => false

/-- The steps that end a transaction, or can. -/
def endsTransaction (s : Async.State (psqlBackend E L F)) : Async.Event → Bool
  | .commit _ | .rollback _ => true
  | .execute qj _ _ => (qj.fn.statement.bind fun x => s.task x.1).any fun t =>
    (s.db.server.command t.query.sql).isControl
  | _ => false

theorem follows_backend_prepare (db : DbPsql E) (stmt : Async.StmtType) (sql : String)
    (par : ParamBuffer) (n : ℕ) :
    db.Follows ((psqlBackend E L F).prepare db stmt sql par n).2 := by
  show db.Follows (DbPsql.prepare { db with nextStmtId := db.nextStmtId + 1 } _).2.2
  exact DbPsql.follows_prepare { db with nextStmtId := db.nextStmtId + 1 } _

theorem follows_backend_execute (db : DbPsql E) (q : Query) (par : ParamBuffer)
    (h : (db.server.command q.sql).isControl = false) :
    db.Follows ((psqlBackend E L F).execute db q par).2.1 :=
  DbPsql.follows_execute (F := F) (q.load L par) h

theorem follows_step {s s' : Async.State (psqlBackend E L F)} {e : Async.Event}
    (h : (Async.asyncDb (psqlBackend E L F)).step s e s') (hb : endsTransaction s e = false) :
    s.db.Follows s'.db := by
  rcases h with h | h
  · -- The client never calls the database.
    cases h <;> exact .refl _
  · cases h with
    | @execute qj i snap t db query hw hst ht hexec =>
      have hf := follows_backend_execute (L := L) (F := F) s.db t.query t.par
        (by simpa [endsTransaction, hst, ht] using hb)
      rw [hexec] at hf
      exact hf
    | @executeError qj i snap t e db query hw hst ht hexec =>
      have hf := follows_backend_execute (L := L) (F := F) s.db t.query t.par
        (by simpa [endsTransaction, hst, ht] using hb)
      rw [hexec] at hf
      exact hf
    | @prepare qj stmt sql n m query db hw hfn hprep =>
      have hf := follows_backend_prepare (L := L) (F := F) s.db stmt sql (stmt.makeParams n) m
      rw [hprep] at hf
      exact hf
    | @prepareError qj stmt sql n m e db hw hfn hprep =>
      have hf := follows_backend_prepare (L := L) (F := F) s.db stmt sql (stmt.makeParams n) m
      rw [hprep] at hf
      exact hf
    | @fetch qj i t b db query hw hid ht hfetch =>
      obtain ⟨rfl, -⟩ := Prod.mk.inj (Prod.mk.inj hfetch).2
      exact .refl _
    | @fetchError qj i t e db query hw hid ht hfetch =>
      obtain ⟨rfl, -⟩ := Prod.mk.inj (Prod.mk.inj hfetch).2
      exact .refl _
    | commit | rollback | rollbackIgnored => cases hb
    -- The other steps do not call the backend.
    | _ => exact .refl _

/-- Between two boundaries. -/
theorem follows_jobs {s s' : Async.State (psqlBackend E L F)} {tr : List Async.Event}
    (h : ((Async.asyncDb (psqlBackend E L F)).restrict
      fun s e => endsTransaction s e = false).Path s tr s') : s.db.Follows s'.db := by
  induction h with
  | refl => exact .refl _
  | step _ hst ih => exact ih.trans (follows_step hst.1 hst.2)

/-- **What a successful commit means**: what a statement that reports success has done is
    durable after a `commit` that reports success, called by the client or by the worker of
    `async_db`, if and only if the block has not failed before that `commit`, or the statement
    had nothing to commit. -/
theorem commit_durable_iff (E : Type) (L : Layout) (F : FloatText) :
    (∀ (c c₁ c₂ c₃ : Client E) (op : Op) (tr : List (Op × Bool)),
      op.isStatement → op.isBoundary c = false → (connection E F).step c (op, true) c₁ →
      ((connection E F).restrict fun c l => l.1.isBoundary c = false).Path c₁ tr c₂ →
      (connection E F).step c₂ (.commit, true) c₃ →
      (Session.Durable c.db.session c₁.db.session c₃.db.session ↔
        ¬(c₂.db.session.Failed ∧ Session.effects c.db.session c₁.db.session ≠ []))) ∧
    ∀ (s s₁ s₂ s₃ : Async.State (psqlBackend E L F)) (e : Async.Event) (tr : List Async.Event)
      (sts : DbSts), succeeds e → endsTransaction s e = false →
      (Async.asyncDb (psqlBackend E L F)).step s e s₁ →
      ((Async.asyncDb (psqlBackend E L F)).restrict
        fun s e => endsTransaction s e = false).Path s₁ tr s₂ →
      (Async.asyncDb (psqlBackend E L F)).step s₂ (.commit sts) s₃ → sts.isSuccess →
      (Session.Durable s.db.session s₁.db.session s₃.db.session ↔
        ¬(s₂.db.session.Failed ∧ Session.effects s.db.session s₁.db.session ≠ [])) := by
  refine ⟨?_, ?_⟩
  · rintro c c₁ c₂ c₃ op tr - hb ⟨-, hcall⟩ hpath ⟨-, hcommit⟩
    have hf := follows_call (F := F) hb
    rw [hcall] at hf
    obtain ⟨hs, rfl⟩ := Prod.mk.inj hcommit
    exact DbPsql.durable_commit_iff hf (follows_path hpath) (by simpa [Client.onDb] using hs)
  · rintro s s₁ s₂ s₃ e tr sts - hb hstep hpath (hcommit | hcommit) hs
    · cases hcommit
    · cases hcommit with
      | @commit qj _ db hw hfn hdb =>
        obtain ⟨rfl, rfl⟩ : s₂.db.commit.1 = sts ∧ s₂.db.commit.2 = db := Prod.mk.inj hdb
        exact DbPsql.durable_commit_iff (follows_step hstep hb) (follows_jobs hpath)
          (DbPsql.commit_isSuccess.1 hs)

/-! ### A client that inserts and commits, by itself and through the facade -/

/-- A client that is connected. -/
def joined (verdicts : List (Verdict String)) : Client String :=
  ((customer verdicts).call noFloats (.connect .ok)).2

/-- It executes the insert once, -/
def insertedOnce (verdicts : List (Verdict String)) : Client String :=
  ((joined verdicts).call noFloats (.exec insertAccount)).2

/-- and once more. -/
def insertedTwice (verdicts : List (Verdict String)) : Client String :=
  ((insertedOnce verdicts).call noFloats (.exec insertAccount)).2

/-- A statement that has neither parameters nor results. -/
def noColumns : Layout where
  params _ := []
  results _ := []
  columns _ _ := []

/-- The facade on the connection of a client. -/
abbrev Facade := Async.State (psqlBackend String noColumns noFloats)

/-- The insert is prepared and handed to the worker, which is about to execute it. -/
def aboutToInsert : List Async.Event × Facade :=
  (Async.run (fun _ _ => True) [.call (.prepare ⟨[], 1, false⟩ insertAccount 1 1), .client,
    .client, .worker, .worker, .worker, .worker, .worker, .client, .client, .client,
    .call (.exec ⟨some 0⟩), .client, .client, .client, .client, .worker, .worker, .worker]
    ([], { db := (joined [.ok [], .ok [], .ok ["10"]]).db })).get (by decide)

/-- The worker executes it. -/
def insertStep : Async.Event × Facade := (aboutToInsert.2.next .worker).get (by decide)

theorem step_insert : (Async.asyncDb (psqlBackend String noColumns noFloats)).step
    aboutToInsert.2 insertStep.1 insertStep.2 :=
  aboutToInsert.2.next_get_sound .worker (by decide)

/-- The worker is done with it, and about to commit. -/
def aboutToCommit : List Async.Event × Facade :=
  (Async.run (fun s e => endsTransaction s e = false) [.worker, .worker, .call .commit, .client,
    .client, .client, .client, .worker, .worker] ([], insertStep.2)).get (by decide)

/-- The worker commits. -/
def commitStep : Async.Event × Facade := (aboutToCommit.2.next .worker).get (by decide)

theorem step_commit : (Async.asyncDb (psqlBackend String noColumns noFloats)).step
    aboutToCommit.2 commitStep.1 commitStep.2 :=
  aboutToCommit.2.next_get_sound .worker (by decide)

/-- With a server that accepts everything, the insert is durable. -/
theorem commit_durable_insert :
    Session.Durable (joined [.ok [], .ok ["10"]]).db.session
      (insertedOnce [.ok [], .ok ["10"]]).db.session
      ((insertedTwice [.ok [], .ok ["10"]]).call noFloats .commit).2.db.session ∧
    Session.Durable aboutToInsert.2.db.session insertStep.2.db.session
      commitStep.2.db.session := by
  refine ⟨?_, ?_⟩
  · refine ((commit_durable_iff String noColumns noFloats).1 (joined [.ok [], .ok ["10"]])
      (insertedOnce [.ok [], .ok ["10"]]) (insertedTwice [.ok [], .ok ["10"]]) _
      (.exec insertAccount) [(.exec insertAccount, true)] (by decide) (by decide)
      (connection_step (.exec insertAccount) trivial)
      (.step (.refl _) ⟨connection_step (.exec insertAccount) trivial, by decide⟩)
      (connection_step .commit trivial)).2 ?_
    exact fun hf => absurd hf.1 (@Session.not_failed _ _ ["10"] [] rfl)
  · refine ((commit_durable_iff String noColumns noFloats).2 aboutToInsert.2 insertStep.2
      aboutToCommit.2 commitStep.2 insertStep.1 aboutToCommit.1 .success (by decide) (by decide)
      step_insert (Async.run_path (Option.some_get _).symm) step_commit rfl).2 ?_
    exact fun hf => absurd hf.1 (@Session.not_failed _ _ ["10"] [] rfl)

/-- With a server that refuses the second insert, the first one is lost, and `commit` reports
    success. -/
theorem not_commit_durable :
    ¬∀ (F : FloatText) (c c₁ c₂ c₃ : Client String) (op : Op) (tr₀ tr : List (Op × Bool)),
      (connection String F).Run tr₀ c → op.isStatement → op.isBoundary c = false →
      (connection String F).step c (op, true) c₁ →
      ((connection String F).restrict fun c l => l.1.isBoundary c = false).Path c₁ tr c₂ →
      (connection String F).step c₂ (.commit, true) c₃ →
      Session.Durable c.db.session c₁.db.session c₃.db.session := by
  intro h
  have hd := h noFloats (joined [.ok [], .ok ["10"], .refused])
    (insertedOnce [.ok [], .ok ["10"], .refused]) (insertedTwice [.ok [], .ok ["10"], .refused])
    ((insertedTwice [.ok [], .ok ["10"], .refused]).call noFloats .commit).2 (.exec insertAccount)
    [(.connect .ok, true)] [(.exec insertAccount, false)]
    (.step (.init ⟨ledger [.ok [], .ok ["10"], .refused], [], rfl⟩)
      (connection_step (.connect .ok) trivial))
    (by decide) (by decide) (connection_step (.exec insertAccount) trivial)
    (.step (.refl _) ⟨connection_step (.exec insertAccount) trivial, by decide⟩)
    (connection_step .commit trivial)
  exact Session.not_durable rfl (by decide) hd

end Dbgen4.Psql
