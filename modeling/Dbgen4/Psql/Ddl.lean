import Dbgen4.Psql.Describer
import Dbgen4.Psql.Notify

/-!
# What `create_change_trigger` commits

The three statements of `create_change_trigger` run in the transaction block that the
connection keeps, and the COMMIT after them commits all of them or none. A connection that a
failed COMMIT has left outside a block commits each as it comes (`Commits`).

* `DbPsql.createChangeTrigger_success`: when it reports success;
* `DbPsql.committed_createChangeTrigger`: what it commits, whatever it reports.
-/

namespace Dbgen4.Psql

open Rtl Transaction

namespace DbPsql

section Statements

variable {E : Type} {db : DbPsql E} {sql table : String} {sqls : List String}

/-- The server takes the next `n` messages, each a statement without rows. -/
def TakesAll (db : DbPsql E) (n : ℕ) : Prop := ∀ k < n, db.server.Takes (db.next + k)

/-- The next `n` messages taken are the next one and `n - 1` after it. -/
theorem takesAll_succ {db' : DbPsql E} (hserver : db'.server = db.server)
    (hnext : db'.next = db.next + 1) (n : ℕ) :
    db.TakesAll (n + 1) ↔ db.server.Takes db.next ∧ db'.TakesAll n := by
  rw [TakesAll, Nat.forall_lt_succ_left, TakesAll, hserver, hnext]
  simp only [Nat.add_zero, Nat.add_assoc, Nat.add_comm 1]

/-- The server commits the `i`-th statement of `create_change_trigger`: in a block with all of
    them, outside a block by itself. -/
def Commits (db : DbPsql E) (i : ℕ) : Prop :=
  db.isConnected = true ∧
    (db.session.Opened ∧ db.TakesAll 3 ∧ (db.server.answers (db.next + 3)).verdict ≠ .refused ∨
      db.session.block = .idle ∧ db.TakesAll i ∧
        (db.server.answers (db.next + i)).verdict ≠ .refused)

theorem run_plain_iff {s : Session E} {v : Verdict E} :
    (s.run .plain v).1 = true ↔ ¬ s.Failed ∧ v ≠ .refused := by
  obtain ⟨b, cs⟩ := s
  cases b <;> cases v <;> simp [Session.run, Session.runIdle, Session.runOpened,
    Session.runAborted, Session.Failed]

/-- A statement that reports success. -/
theorem execCommand_of_success (h : (db.execCommand sql).1 = .success) :
    (db.execCommand sql).2 = { db with
      next := db.next + 1
      session := (db.session.run (db.server.command sql) db.answer.verdict).2 } := by
  obtain ⟨hconn, hl, -⟩ := resultStatus_contact.1 (execCommand_success.1 h)
  rw [execCommand_snd, pqExec, pqRun, contact_of_answered hconn hl]

theorem execCommand_success_plain (hsql : db.server.command sql = .plain) :
    (db.execCommand sql).1 = .success ↔
      db.isConnected = true ∧ ¬ db.session.Failed ∧ db.server.Takes db.next := by
  rw [execCommand_success, pqExec, pqRun, resultStatus_contact, hsql, run_plain_iff]
  simp only [Command.isControl, Server.Takes, answer]
  tauto

/-- A statement that reports success does not fail the block. -/
theorem not_failed_run {s : Session E} {v : Verdict E} (h : ¬ s.Failed) (hv : v ≠ .refused) :
    ¬ (s.run .plain v).2.Failed := by
  obtain ⟨b, cs⟩ := s
  cases v with
  | refused => exact absurd rfl hv
  | ok es =>
    cases b with
    | idle => rintro ⟨_, ⟨⟩⟩
    | opened => rintro ⟨_, ⟨⟩⟩
    | aborted sps => exact absurd ⟨sps, rfl⟩ h

theorem createChangeTrigger_eq : db.createChangeTrigger table =
    if (db.execAll ((ddl table).map Prod.fst)).1 ≠ .success then
      ((db.execAll ((ddl table).map Prod.fst)).1,
        (db.execAll ((ddl table).map Prod.fst)).2.rollback.2)
    else (db.execAll ((ddl table).map Prod.fst)).2.commit := by
  simp only [ddl, List.map_cons, List.map_nil, execAll]
  rw [createChangeTrigger]
  dsimp only
  by_cases h₁ : (db.execCommand (functionSql table)).1 = .success
  · rw [if_neg (not_not_intro h₁), if_neg (not_not_intro h₁)]
    by_cases h₂ : ((db.execCommand (functionSql table)).2.execCommand (dropSql table)).1 = .success
    · rw [if_neg (not_not_intro h₂), if_neg (not_not_intro h₂)]
      by_cases h₃ : (((db.execCommand (functionSql table)).2.execCommand
          (dropSql table)).2.execCommand (createSql table)).1 = .success
      · rw [if_neg (not_not_intro h₃), if_neg (not_not_intro h₃), if_neg (not_not_intro rfl)]
      · rw [if_pos h₃, if_pos h₃, if_pos h₃]
    · rw [if_pos h₂, if_pos h₂, if_pos h₂]
  · rw [if_pos h₁, if_pos h₁, if_pos h₁]

/-- After a statement that reports success the next one is where it was. -/
theorem after_success (hsql : db.server.command sql = .plain)
    (h : (db.execCommand sql).1 = .success) :
    (db.execCommand sql).2.isConnected = true ∧ ¬ (db.execCommand sql).2.session.Failed := by
  obtain ⟨hconn, hfailed, -, hv, -⟩ := (execCommand_success_plain hsql).1 h
  rw [execCommand_of_success h, hsql]
  exact ⟨hconn, not_failed_run hfailed hv⟩

theorem execAll_cons (sql : String) (sqls : List String) (db : DbPsql E) :
    db.execAll (sql :: sqls) = if (db.execCommand sql).1 ≠ .success then db.execCommand sql
      else (db.execCommand sql).2.execAll sqls :=
  rfl

theorem next_of_success (h : (db.execCommand sql).1 = .success) :
    (db.execCommand sql).2.next = db.next + 1 := by
  rw [execCommand_of_success h]

theorem execAll_success (hsql : ∀ sql ∈ sqls, db.server.command sql = .plain)
    (hconn : db.isConnected = true) (hfailed : ¬ db.session.Failed) :
    (db.execAll sqls).1 = .success ↔ db.TakesAll sqls.length := by
  induction sqls generalizing db with
  | nil => exact iff_of_true rfl fun k hk => absurd hk (Nat.not_lt_zero k)
  | cons sql sqls ih =>
    obtain ⟨hplain, hplains⟩ := List.forall_mem_cons.1 hsql
    have hone := execCommand_success_plain hplain
    rw [and_iff_right hconn, and_iff_right hfailed] at hone
    rw [execAll_cons, List.length_cons]
    by_cases h : (db.execCommand sql).1 = .success
    · obtain ⟨hconn', hfailed'⟩ := after_success hplain h
      rw [if_neg (not_not_intro h), takesAll_succ server_execCommand (next_of_success h),
        and_iff_right (hone.1 h)]
      exact ih (by rwa [server_execCommand]) hconn' hfailed'
    · rw [if_pos h]
      exact iff_of_false h fun htakes => h (hone.2 (htakes 0 (Nat.succ_pos _)))

/-- Where there is no connection, or the block has failed, nothing succeeds. -/
theorem execAll_cons_ne_success (hsql : db.server.command sql = .plain)
    (h : ¬ (db.isConnected = true ∧ ¬ db.session.Failed)) :
    (db.execAll (sql :: sqls)).1 ≠ .success := by
  have hone : (db.execCommand sql).1 ≠ .success := fun hs =>
    h ⟨((execCommand_success_plain hsql).1 hs).1, ((execCommand_success_plain hsql).1 hs).2.1⟩
  rw [execAll_cons, if_pos hone]
  exact hone

/-- In a block the statements commit nothing. -/
theorem committed_execAll (hsql : ∀ sql ∈ sqls, db.server.command sql = .plain)
    (hin : db.InBlock) : (db.execAll sqls).2.session.committed = db.session.committed := by
  induction sqls generalizing db with
  | nil => rfl
  | cons sql sqls ih =>
    obtain ⟨hplain, hplains⟩ := List.forall_mem_cons.1 hsql
    have hone : (db.execCommand sql).2.session.committed = db.session.committed := by
      rw [committed_execCommand, publishes_eq_nil hin (by rw [hplain]; decide), List.append_nil]
    rw [execAll_cons]
    split
    · exact hone
    · exact (ih (by rwa [server_execCommand]) (inBlock_plain hin hplain)).trans hone

end Statements

/-! ## What the statements do -/

section Ddl

variable {db : DbPsql Change} {steps : List (String × Change)} {table : String}

/-- The statements, when all of them report success. -/
theorem execAll_of_success (hsql : ∀ sql ∈ steps.map Prod.fst, db.server.command sql = .plain)
    (hdoes : db.DoesAll steps) (h : (db.execAll (steps.map Prod.fst)).1 = .success) :
    (db.execAll (steps.map Prod.fst)).2 = { db with
      next := db.next + steps.length
      session := (steps.map Prod.snd).foldl (fun s e => (s.run .plain (.ok [e])).2) db.session } ∧
    (db.execAll (steps.map Prod.fst)).2.DoesAll [] := by
  induction steps generalizing db with
  | nil => exact ⟨rfl, hdoes⟩
  | cons step steps ih =>
    obtain ⟨sql, e⟩ := step
    obtain ⟨hplain, hplains⟩ := List.forall_mem_cons.1 hsql
    obtain ⟨hdo, hdoes⟩ := hdoes
    rw [List.map_cons, execAll_cons] at h ⊢
    by_cases hone : (db.execCommand sql).1 = .success
    · rw [if_neg (not_not_intro hone)] at h ⊢
      obtain ⟨heq, hend⟩ := ih (by rwa [server_execCommand]) (hdoes hone) h
      refine ⟨heq.trans ?_, hend⟩
      obtain ⟨-, -, -, hv, -⟩ := (execCommand_success_plain hplain).1 hone
      have hverdict : db.answer.verdict = .ok [e] := by
        cases hv' : db.answer.verdict with
        | ok es => rw [hdo es hv']
        | refused => exact absurd hv' hv
      rw [execCommand_of_success hone, hplain, hverdict]
      simp only [List.length_cons, List.map_cons, List.foldl_cons, Nat.add_assoc, Nat.add_comm 1]
    · rw [if_pos hone] at h
      exact absurd h hone

theorem foldl_run_opened (es pending : List Change) (sps : List (String × List Change))
    (cs : List Change) :
    es.foldl (fun s e => (Session.run s .plain (.ok [e])).2) ⟨.opened pending sps, cs⟩ =
      ⟨.opened (pending ++ es) sps, cs⟩ := by
  induction es generalizing pending with
  | nil => rw [List.append_nil, List.foldl_nil]
  | cons e es ih =>
    have h := ih (pending ++ [e])
    rwa [List.append_assoc, List.singleton_append] at h

theorem foldl_run_idle (es cs : List Change) :
    es.foldl (fun s e => (Session.run s .plain (.ok [e])).2) ⟨.idle, cs⟩ = ⟨.idle, cs ++ es⟩ := by
  induction es generalizing cs with
  | nil => rw [List.append_nil, List.foldl_nil]
  | cons e es ih =>
    have h := ih (cs ++ [e])
    rwa [List.append_assoc, List.singleton_append] at h

/-- A statement outside a block. -/
theorem publishes_idle {sql : String} {e : Change} (hplain : db.server.command sql = .plain)
    (hdo : ∀ es, db.answer.verdict = .ok es → es = [e]) (hconn : db.isConnected = true)
    (hidle : db.session.block = .idle) :
    db.publishes sql = if db.answer.verdict = .refused then [] else [e] := by
  rw [publishes, if_pos hconn, hplain]
  cases hv : db.answer.verdict with
  | ok es =>
    rw [hdo es hv, if_neg (by intro h; cases h)]
    simp only [Session.publishes, hidle]
  | refused =>
    rw [if_pos rfl]
    simp only [Session.publishes, hidle]

theorem idle_of_success {sql : String} (hplain : db.server.command sql = .plain)
    (hidle : db.session.block = .idle) (h : (db.execCommand sql).1 = .success) :
    (db.execCommand sql).2.session.block = .idle := by
  rw [execCommand_of_success h, hplain]
  dsimp only
  rw [Session.run, hidle]
  cases db.answer.verdict with
  | ok es => exact hidle
  | refused => exact hidle

/-- Outside a block each statement that the server accepts is committed, up to the first that
    does not report success. -/
theorem committed_execAll_idle (hsql : ∀ sql ∈ steps.map Prod.fst, db.server.command sql = .plain)
    (hdoes : db.DoesAll steps) (hconn : db.isConnected = true) (hidle : db.session.block = .idle) :
    ∃ k ≤ steps.length,
      (db.execAll (steps.map Prod.fst)).2.session.committed =
        db.session.committed ++ (steps.map Prod.snd).take k ∧
      ∀ i < steps.length, (i < k ↔
        db.TakesAll i ∧ (db.server.answers (db.next + i)).verdict ≠ .refused) := by
  induction steps generalizing db with
  | nil => exact ⟨0, Nat.le_refl 0, (List.append_nil _).symm, fun i hi => absurd hi i.not_lt_zero⟩
  | cons step steps ih =>
    obtain ⟨sql, e⟩ := step
    obtain ⟨hplain, hplains⟩ := List.forall_mem_cons.1 hsql
    obtain ⟨hdo, hdoes⟩ := hdoes
    have hfailed : ¬ db.session.Failed := by
      rintro ⟨sps, hsps⟩
      cases hidle.symm.trans hsps
    have hone := execCommand_success_plain hplain
    rw [and_iff_right hconn, and_iff_right hfailed] at hone
    have hcommitted : (db.execCommand sql).2.session.committed =
        db.session.committed ++ db.publishes sql := committed_execCommand
    rw [publishes_idle hplain hdo hconn hidle] at hcommitted
    rw [List.map_cons, List.map_cons, execAll_cons]
    by_cases h : (db.execCommand sql).1 = .success
    · have hv : db.answer.verdict ≠ .refused := (hone.1 h).2.1
      obtain ⟨k, hk, heq, hiff⟩ := ih (by rwa [server_execCommand]) (hdoes h)
        (after_success hplain h).1 (idle_of_success hplain hidle h)
      refine ⟨k + 1, Nat.succ_le_succ hk, ?_, fun i hi => ?_⟩
      · rw [if_neg (not_not_intro h), heq, hcommitted, if_neg hv, List.append_assoc]
        rfl
      · cases i with
        | zero =>
          exact iff_of_true (Nat.succ_pos k) ⟨fun j hj => absurd hj j.not_lt_zero, hv⟩
        | succ i =>
          rw [Nat.succ_lt_succ_iff, hiff i (Nat.lt_of_succ_lt_succ hi),
            takesAll_succ server_execCommand (next_of_success h), and_iff_right (hone.1 h),
            server_execCommand, next_of_success h, Nat.add_assoc, Nat.add_comm 1]
    · rw [if_pos h]
      -- The statement may have been accepted nevertheless: its answer is lost, or not understood.
      by_cases hv : db.answer.verdict = .refused
      · refine ⟨0, Nat.zero_le _, ?_, fun i _ => iff_of_false i.not_lt_zero fun hi => ?_⟩
        · rw [hcommitted, if_pos hv]
          rfl
        · cases i with
          | zero => exact hi.2 hv
          | succ i => exact h (hone.2 (hi.1 0 i.succ_pos))
      · refine ⟨1, Nat.succ_le_succ (Nat.zero_le _), ?_, fun i _ => ?_⟩
        · rw [hcommitted, if_neg hv]
          rfl
        · cases i with
          | zero => exact iff_of_true Nat.one_pos ⟨fun j hj => absurd hj j.not_lt_zero, hv⟩
          | succ i =>
            exact iff_of_false (by omega) fun hi => h (hone.2 (hi.1 0 i.succ_pos))

theorem committed_commit :
    db.commit.2.session.committed = db.session.committed ++ db.publishes "COMMIT" := by
  rw [← committed_execCommand, commit]
  dsimp only
  split
  · rfl
  · exact committed_beginTransaction

/-- The statements of `create_change_trigger` are neither control commands nor refused in a
    block. -/
theorem command_ddl (ht : db.server.tableName table) :
    ∀ sql ∈ (ddl table).map Prod.fst, db.server.command sql = .plain :=
  db.server.change_eq table ht

/-- What is left of the statements when one of them fails. -/
theorem committed_of_failed
    (h : (db.execAll ((ddl table).map Prod.fst)).1 ≠ .success) :
    (db.createChangeTrigger table).2.session.committed =
      (db.execAll ((ddl table).map Prod.fst)).2.session.committed := by
  rw [createChangeTrigger_eq, if_pos h]
  exact committed_rollback

/-- What the COMMIT after them does, when none of them fails. -/
theorem committed_of_success (ht : db.server.tableName table) (hdoes : db.DoesAll (ddl table))
    (h : (db.execAll ((ddl table).map Prod.fst)).1 = .success) {s : Session Change}
    (hs : ((ddl table).map Prod.snd).foldl (fun s e => (s.run .plain (.ok [e])).2) db.session = s)
    (hconn : db.isConnected = true) :
    (db.createChangeTrigger table).2.session.committed =
        s.committed ++ s.publishes .commit (db.server.answers (db.next + 3)).verdict ∧
      ∀ es, (db.server.answers (db.next + 3)).verdict = .ok es → ∀ e ∈ es, e.isData := by
  obtain ⟨heq, hend⟩ := execAll_of_success (command_ddl ht) hdoes h
  rw [hs] at heq
  rw [createChangeTrigger_eq, if_neg (not_not_intro h), committed_commit, heq]
  rw [heq] at hend
  refine ⟨?_, hend⟩
  have hconn' : DbPsql.isConnected { db with next := db.next + (ddl table).length, session := s } =
      true := hconn
  rw [publishes, if_pos hconn', Server.commit_eq]
  rfl

/-- What `create_change_trigger` commits: its first `k` statements, in a block with what was pending
    before them, and what the commit itself adds. -/
def CommitsFirst (db : DbPsql Change) (table : String) : Prop :=
  ∃ k ≤ 3, ∃ pre post, (db.createChangeTrigger table).2.session.committed =
      db.session.committed ++ (pre ++ ((ddl table).map Prod.snd).take k ++ post) ∧
    (∀ e ∈ post, e.isData) ∧ (pre = [] ∨ k = 3 ∧ pre = db.session.block.pending) ∧
    ∀ i < 3, (i < k ↔ db.Commits i)

theorem commitsFirst_nothing
    (heq : (db.createChangeTrigger table).2.session.committed = db.session.committed)
    (hcommits : ∀ i < 3, ¬ db.Commits i) : db.CommitsFirst table := by
  refine ⟨0, Nat.zero_le 3, [], [], ?_, ?_, .inl rfl, fun i hi => ?_⟩
  · rw [heq, List.take_zero, List.append_nil, List.append_nil, List.append_nil]
  · exact fun e he => absurd he List.not_mem_nil
  · exact iff_of_false i.not_lt_zero (hcommits i hi)

/-- Outside a block the statements are committed one by one. -/
theorem commitsFirst_idle (ht : db.server.tableName table) (hdoes : db.DoesAll (ddl table))
    (hconn : db.isConnected = true) (hb : db.session.block = .idle) : db.CommitsFirst table := by
  have hplain := command_ddl ht
  obtain ⟨k, hk, heq, hiff⟩ := committed_execAll_idle hplain hdoes hconn hb
  have hcommits : ∀ i < 3, (i < k ↔ db.Commits i) := by
    intro i hi
    rw [hiff i hi, Commits, hb]
    have hopened : ¬ db.session.Opened := by
      rintro ⟨pending, sps, h⟩
      cases hb.symm.trans h
    simp [hconn, hopened]
  refine ⟨k, hk, [], [], ?_, fun e he => absurd he List.not_mem_nil, .inl rfl, hcommits⟩
  rw [List.nil_append, List.append_nil, ← heq]
  by_cases h : (db.execAll ((ddl table).map Prod.fst)).1 = .success
  · have hs : ((ddl table).map Prod.snd).foldl (fun s e => (s.run .plain (.ok [e])).2)
        db.session = ⟨.idle, db.session.committed ++ (ddl table).map Prod.snd⟩ := by
      rw [← foldl_run_idle, ← hb]
    rw [(committed_of_success ht hdoes h hs hconn).1, (execAll_of_success hplain hdoes h).1, hs]
    exact List.append_nil _
  · exact committed_of_failed h

/-- In a block they are committed with it, or not at all. -/
theorem commitsFirst_opened (ht : db.server.tableName table) (hdoes : db.DoesAll (ddl table))
    (hconn : db.isConnected = true) {pending : List Change} {sps : List (String × List Change)}
    (hb : db.session.block = .opened pending sps) : db.CommitsFirst table := by
  have hplain := command_ddl ht
  have hin : db.InBlock := fun _ h => by cases hb.symm.trans h
  have hopened : db.session.Opened := ⟨pending, sps, hb⟩
  have hfailed : ¬ db.session.Failed := by
    rintro ⟨sps, h⟩
    cases hb.symm.trans h
  have htakes : (db.execAll ((ddl table).map Prod.fst)).1 = .success ↔ db.TakesAll 3 :=
    execAll_success hplain hconn hfailed
  have hcommits (i : ℕ) : db.Commits i ↔
      db.TakesAll 3 ∧ (db.server.answers (db.next + 3)).verdict ≠ .refused := by
    rw [Commits, hb]
    simp [hconn, hopened]
  by_cases h : (db.execAll ((ddl table).map Prod.fst)).1 = .success
  · have hs : ((ddl table).map Prod.snd).foldl (fun s e => (s.run .plain (.ok [e])).2)
        db.session =
          ⟨.opened (pending ++ (ddl table).map Prod.snd) sps, db.session.committed⟩ := by
      rw [← foldl_run_opened, ← hb]
    obtain ⟨heq, hpost⟩ := committed_of_success ht hdoes h hs hconn
    cases hv : (db.server.answers (db.next + 3)).verdict with
    | ok es =>
      rw [hv] at heq
      refine ⟨3, Nat.le_refl 3, pending, es, heq, hpost es hv, .inr ⟨rfl, by rw [hb]; rfl⟩,
        fun i hi => iff_of_true hi ((hcommits i).2 ⟨htakes.1 h, ?_⟩)⟩
      rw [hv]
      intro h
      cases h
    | refused =>
      rw [hv] at heq
      exact commitsFirst_nothing (heq.trans (List.append_nil _)) fun i _ hc =>
        ((hcommits i).1 hc).2 hv
  · refine commitsFirst_nothing ?_ fun i _ hc => h (htakes.2 ((hcommits i).1 hc).1)
    rw [committed_of_failed h, committed_execAll hplain hin]

/-- Without a connection, or in a failed block, nothing is committed. -/
theorem commitsFirst_dead (ht : db.server.tableName table)
    (hlive : ¬ (db.isConnected = true ∧ ¬ db.session.Failed)) : db.CommitsFirst table := by
  have hplain := command_ddl ht
  have hfails : (db.execAll ((ddl table).map Prod.fst)).1 ≠ .success :=
    execAll_cons_ne_success (hplain _ List.mem_cons_self) hlive
  have hin : db.InBlock := by
    intro hconn hidle
    refine hlive ⟨hconn, ?_⟩
    rintro ⟨sps, hsps⟩
    cases hidle.symm.trans hsps
  refine commitsFirst_nothing ?_ fun i _ hc => ?_
  · rw [committed_of_failed hfails, committed_execAll hplain hin]
  · obtain ⟨hconn, hblock⟩ := hc
    refine hlive ⟨hconn, ?_⟩
    rintro ⟨sps, hsps⟩
    rcases hblock with ⟨⟨pending, sps', hopened⟩, -⟩ | ⟨hidle, -⟩
    · cases hopened.symm.trans hsps
    · cases hidle.symm.trans hsps

/-- **What `create_change_trigger` commits**, whatever it reports: its first `k` statements, in a
    block all or none of them, with what was pending before them. -/
theorem committed_createChangeTrigger (ht : db.server.tableName table)
    (hdoes : db.DoesAll (ddl table)) :
    ∃ k ≤ 3, ∃ pre post, (db.createChangeTrigger table).2.session.committed =
        db.session.committed ++ (pre ++ ((ddl table).map Prod.snd).take k ++ post) ∧
      (∀ e ∈ post, e.isData) ∧ (pre = [] ∨ k = 3 ∧ pre = db.session.block.pending) ∧
      ∀ i < 3, (i < k ↔ db.Commits i) := by
  by_cases hlive : db.isConnected = true ∧ ¬ db.session.Failed
  · cases hb : db.session.block with
    | idle => exact hb ▸ commitsFirst_idle ht hdoes hlive.1 hb
    | opened pending sps => exact hb ▸ commitsFirst_opened ht hdoes hlive.1 hb
    | aborted sps => exact absurd ⟨sps, hb⟩ hlive.2
  · exact commitsFirst_dead ht hlive

theorem run_begin_of_idle {E : Type} {s : Session E} {v : Verdict E} (h : s.block = .idle) :
    (s.run .begin v).1 = true := by
  rw [Session.run, h]
  rfl

/-- A COMMIT and the BEGIN after it succeed if they are answered and the server does not refuse the
    block. -/
theorem commit_success_iff {E : Type} {db : DbPsql E} (hconn : db.isConnected = true) :
    db.commit.1 = .success ↔ db.answer.lost = false ∧
      (db.session.Opened → db.answer.verdict ≠ .refused) ∧
        (db.server.answers (db.next + 1)).lost = false := by
  have hcommit : (db.execCommand "COMMIT").1 = .success ↔ db.answer.lost = false ∧
      (db.session.Opened → db.answer.verdict ≠ .refused) := by
    rw [← not_iff_not, ← Ne, commit_failed_iff]
    simp only [hconn, forall_true_left]
    tauto
  have hidle : (db.session.run .commit db.answer.verdict).2.block = .idle := by
    by_cases hb : db.session.block = .idle
    · rw [Session.run, hb]
      exact hb
    · exact (Session.run_block_eq_idle hb).2 (.inl rfl)
  rw [commit]
  dsimp only
  by_cases h : (db.execCommand "COMMIT").1 = .success
  · have hbegin : (db.execCommand "COMMIT").2.beginTransaction.1 = .success ↔
        (db.server.answers (db.next + 1)).lost = false := by
      rw [beginTransaction, execCommand_success, pqExec, pqRun, resultStatus_contact,
        execCommand_of_success h, db.server.commit_eq, Server.begin_eq]
      exact ⟨fun hand => hand.2.1, fun hl => ⟨hconn, hl, run_begin_of_idle hidle, .inl rfl⟩⟩
    rw [if_neg (not_not_intro h), hbegin, ← and_assoc, ← hcommit, and_iff_right h]
  · rw [if_pos h, ← and_assoc, ← hcommit]
    exact iff_of_false h fun hand => h hand.1

theorem opened_foldl_run {s : Session Change} (h : ¬ s.Failed) {es : List Change} :
    (es.foldl (fun s e => (s.run .plain (.ok [e])).2) s).Opened ↔ s.Opened := by
  obtain ⟨b, cs⟩ := s
  cases b with
  | idle =>
    rw [foldl_run_idle]
    exact iff_of_false (fun ⟨_, _, h⟩ => by cases h) (fun ⟨_, _, h⟩ => by cases h)
  | opened pending sps =>
    rw [foldl_run_opened]
    exact iff_of_true ⟨_, _, rfl⟩ ⟨_, _, rfl⟩
  | aborted sps => exact absurd ⟨sps, rfl⟩ h

/-- When `create_change_trigger` reports success. -/
theorem createChangeTrigger_success (ht : db.server.tableName table)
    (hdoes : db.DoesAll (ddl table)) :
    (db.createChangeTrigger table).1 = .success ↔ (db.isConnected = true ∧ ¬ db.session.Failed) ∧
      db.TakesAll 3 ∧ (db.server.answers (db.next + 3)).lost = false ∧
      (db.session.Opened → (db.server.answers (db.next + 3)).verdict ≠ .refused) ∧
      (db.server.answers (db.next + 4)).lost = false := by
  have hplain := command_ddl ht
  rw [createChangeTrigger_eq]
  by_cases hlive : db.isConnected = true ∧ ¬ db.session.Failed
  · rw [and_iff_right hlive]
    have htakes : (db.execAll ((ddl table).map Prod.fst)).1 = .success ↔ db.TakesAll 3 :=
      execAll_success hplain hlive.1 hlive.2
    by_cases h : (db.execAll ((ddl table).map Prod.fst)).1 = .success
    · obtain ⟨heq, -⟩ := execAll_of_success hplain hdoes h
      have hopened : (((ddl table).map Prod.snd).foldl (fun s e => (s.run .plain (.ok [e])).2)
          db.session).Opened ↔ db.session.Opened := opened_foldl_run hlive.2
      have hconn : DbPsql.isConnected { db with
          next := db.next + (ddl table).length
          session := ((ddl table).map Prod.snd).foldl (fun s e => (s.run .plain (.ok [e])).2)
            db.session } = true := hlive.1
      rw [if_neg (not_not_intro h), and_iff_right (htakes.1 h), heq, commit_success_iff hconn,
        hopened]
      rfl
    · rw [if_pos h]
      exact iff_of_false h fun hand => h (htakes.2 hand.1)
  · have hfails : (db.execAll ((ddl table).map Prod.fst)).1 ≠ .success :=
      execAll_cons_ne_success (hplain _ List.mem_cons_self) hlive
    rw [if_pos hfails]
    exact iff_of_false hfails fun hand => hlive hand.1

end Ddl

end DbPsql

end Dbgen4.Psql
