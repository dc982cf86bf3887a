import Dbgen4.Async.Errors
import Dbgen4.Async.Serial

/-!
# The asynchronous facade: what it is for

`async_db` is to be used like the connection it wraps: a call of it does, later,
what the same call of a synchronous connection does at once. `reference` says so
as a system of its own. It has no queue and no threads: a call runs its job to
the end (`Store.call`), and what it returns is decided then. Once a statement
fails, nothing is promised but the error: it is recorded, the first one, in the
order of the calls, it is what every later report tells, and the transaction
ends by a rollback.

Where the reference is while `async_db` runs is where the facade will be once the
jobs queued and the call in progress are done (`State.abstract`). The worker's
steps do not move it (`WorkerStep.abstract`), and a call takes it at once to its
end (`conclude_begin`). The refinement is in `Dbgen4.Async.Refinement`.
-/

namespace Dbgen4.Async

open Rtl

variable {B : Backend} {tr : List Event} {s s' : State B} {e : Event}

/-! ## The reference -/

/-- Why a call does not come to its end as it should. -/
inductive Stop
  /-- A statement has failed. -/
  | failed (e : DbError)
  /-- A null task is dereferenced, or the parameters do not fit. -/
  | undefined

namespace Store

/-- How a job has ended, from the store it leaves. -/
def ended : Option (Store B) → Except Stop (Store B)
  | none => .error .undefined
  | some σ => match σ.error with
    | some e => .error (.failed e)
    | none => .ok σ

/-- A value there is, unless the behaviour is undefined. -/
def orUndefined {α : Type} : Option α → Except Stop α
  | none => .error .undefined
  | some a => .ok a

variable (σ : Store B)

/-- A job done at once. -/
def attempt (qj : QueuedJob) : Except Stop (Store B) := ended (σ.run qj)

/-- `tasks_.at(id)->snapshot_params(h.param())`; `none` if the task is null. -/
def snapshot (i : Nat) : Option ParamSnapshot := do
  let c ← σ.callers[i]?
  let t ← σ.task i
  return if t.stmt.hasParameters then snapshotParams c.par else []

/-- `execute_sync` takes a snapshot only of a statement with parameters. -/
def snapshotSync (i : Nat) : Option ParamSnapshot := do
  let c ← σ.callers[i]?
  if c.stmt.hasParameters then σ.snapshot i else return []

/-- What the caller's own buffer holds, for a call that names a statement. -/
def held (op : Op) : Option ParamBuffer := do
  let c ← σ.callers[← op.statement]?
  return c.par

/-- The end of `prepare`. -/
def assemble (stmt : StmtType) (n : Nat) : Except Stop (Store B × Result) :=
  match σ.frame.err with
  | some e => .ok (σ, .prepare (.error e))
  | none =>
    if σ.frame.task.isNone && stmt.hasResults then .error .undefined
    else .ok ({ σ with
      tasks := σ.tasks ++ [σ.frame.task], callers := σ.callers ++ [⟨stmt, stmt.makeParams n⟩] },
      .prepare (.ok σ.tasks.length))

/-- A call, done at once while no error is pending: the store it leaves, and what it returns. -/
def call : Op → Except Stop (Store B × Result)
  | .prepare stmt sql n m => do
    let σ ← σ.attempt ⟨.prepare stmt sql n m, none⟩
    σ.assemble stmt n
  | .submit h => match h.id with
    | none => .ok (σ, .submit)
    | some i => do
      let snap ← orUndefined (σ.snapshot i)
      let σ ← σ.attempt ⟨.submit i snap, some i⟩
      return (σ, .submit)
  | .exec h => match h.id with
    | none => .ok (σ, .exec (.error invalidHandle))
    | some i => do
      let snap ← orUndefined (σ.snapshot i)
      let σ ← σ.attempt ⟨.exec i snap, some i⟩
      return (σ, .exec (.ok .finished))
  | .executeSync h => match h.id with
    | none => .ok (σ, .executeSync (.error invalidHandle))
    | some i => do
      let snap ← orUndefined (σ.snapshotSync i)
      let σ ← σ.attempt ⟨.executeSync i snap, some i⟩
      return (σ, .executeSync (.ok σ.frame.fetched))
  | .fetchMore h => match h.id with
    | none => .ok (σ, .fetchMore (.error invalidHandle))
    | some i => do
      let σ ← σ.attempt ⟨.fetchMore i, some i⟩
      return (σ, .fetchMore (.ok σ.frame.fetched))
  | .drain => .ok (σ, .drain)
  | .commit => do
    let σ ← σ.attempt ⟨.commit, none⟩
    return (σ, .commit (boundaryResult "commit failed" σ.frame.sts))
  | .rollback => do
    let σ ← σ.attempt ⟨.rollback, none⟩
    return (σ, .rollback (boundaryResult "rollback failed" σ.frame.sts))
  | .destroy => .ok (σ, .destroyed)

end Store

/-- Where the reference is. -/
inductive Reference (B : Backend)
  /-- No statement has failed since the transaction began; the result of the call in
      progress, if there is one. -/
  | good (σ : Store B) (r : Option Result)
  /-- A statement has failed: this one first. `recorded` once the error is stored. -/
  | failed (e : DbError) (recorded : Bool)
  | undefined

/-- What becomes of the reference by a call that ends so. -/
def Reference.of : Except Stop (Store B × Option Result) → Reference B
  | .ok (σ, r) => .good σ r
  | .error (.failed e) => .failed e false
  | .error .undefined => .undefined

/-- What a call may return once a statement has failed with `e`. -/
def Result.Reports (e : DbError) : Result → Prop
  | .exec r => r = .ok .finished ∨ r = .error e ∨ r = .error invalidHandle
  | .executeSync r | .fetchMore r => r = .error e ∨ r = .error invalidHandle
  | .commit _ | .rollback _ => False
  | .prepare _ | .submit | .drain | .destroyed => True

/-- `σ` is left by a rollback, whose outcome is `r`. -/
def Store.RolledBack (σ : Store B) (e : DbError) (r : Result) : Prop :=
  σ.error = none ∧ ∃ db, σ.db = (B.rollback db).2 ∧
    (r = .commit (.error e) ∨
      r = .rollback (boundaryResult "rollback failed" (B.rollback db).1))

/-- The steps of the reference. -/
inductive ReferenceStep : Reference B → Event → Reference B → Prop
  | call {σ : Store B} {op : Op} : ReferenceStep (.good σ none) (.call op (σ.held op))
      (.of ((Store.call { σ with frame := {} } op).map fun p => (p.1, some p.2)))
  | ret {σ : Store B} {r : Result} : ReferenceStep (.good σ (some r)) (.ret r) (.good σ none)
  | write {σ : Store B} {i : Nat} {par : ParamBuffer} :
    ReferenceStep (.good σ none) (.write i par)
      (.good { σ with callers := σ.callers.modify i ({ · with par := par }) } none)
  | error {σ : Store B} {r : Option Result} : ReferenceStep (.good σ r) (.error none) (.good σ r)
  | isFinished {σ : Store B} {st : ExecStatus} :
    ReferenceStep (.good σ none) (.isFinished (.ok st)) (.good σ none)
  -- `rollback()` clears an error that there is not
  | clear {σ : Store B} {r : Except DbError Unit} :
    ReferenceStep (.good σ (some (.rollback r))) .clear (.good σ (some (.rollback r)))
  -- a statement has failed
  | failedCall {err : DbError} {b : Bool} {op : Op} {held : Option ParamBuffer} :
    ReferenceStep (.failed err b) (.call op held) (.failed err b)
  | failedRet {err : DbError} {b : Bool} {r : Result} : r.Reports err →
    ReferenceStep (.failed err b) (.ret r) (.failed err b)
  | failedWrite {err : DbError} {b : Bool} {i : Nat} {par : ParamBuffer} :
    ReferenceStep (.failed err b) (.write i par) (.failed err b)
  | record {err : DbError} : ReferenceStep (.failed err false) (.record err) (.failed err true)
  | failedError {err : DbError} {b : Bool} :
    ReferenceStep (.failed err b) (.error (if b then some err else none)) (.failed err b)
  | failedIsFinished {err : DbError} {b : Bool} {r : Except DbError ExecStatus} :
    r = .ok .stillPending ∨ b ∧ r = .error err ∨ ¬b ∧ r = .ok .finished →
    ReferenceStep (.failed err b) (.isFinished r) (.failed err b)
  | rolledBack {err : DbError} {σ : Store B} {r : Result} : σ.RolledBack err r →
    ReferenceStep (.failed err true) .clear (.good σ (some r))
  | undefined {l : Event} : ReferenceStep .undefined l .undefined

/-- The synchronous connection. -/
def reference (B : Backend) : Lts (Reference B) Event where
  init := {r | ∃ db, r = .good { db := db } none}
  step := ReferenceStep

/-- What a caller can see. -/
def Event.visible : Event → Option Event
  | .call op held => some (.call op held)
  | .write i par => some (.write i par)
  | .isFinished r => some (.isFinished r)
  | .error r => some (.error r)
  | .record e => some (.record e)
  | .clear => some .clear
  | .ret r => some (.ret r)
  | _ => none

/-! ## Where the facade will be -/

/-- What a call does once its job has run. -/
def RunCtx.conclude (σ : Store B) : RunCtx → Except Stop (Store B × Result)
  | .prepare stmt n => σ.assemble stmt n
  | .executeSync => .ok (σ, .executeSync (.ok σ.frame.fetched))
  | .fetchMore => .ok (σ, .fetchMore (.ok σ.frame.fetched))
  | .commitUndo e => .ok (σ, .commit (.error e))
  | .commitWork => .ok (σ, .commit (boundaryResult "commit failed" σ.frame.sts))
  | .rollbackWork => .ok (σ, .rollback (boundaryResult "rollback failed" σ.frame.sts))

/-- What a call does once its job is queued, if the queue then runs empty. -/
def PostCtx.conclude (σ : Store B) : PostCtx → Except Stop (Store B × Result)
  | .submit => .ok (σ, .submit)
  | .exec => .ok (σ, .exec (.ok .finished))
  | .run c => c.conclude σ

/-- What a call does once the queue is empty. -/
def DrainCtx.conclude (σ : Store B) : DrainCtx → Except Stop (Store B × Result)
  | .drain => .ok (σ, .drain)
  | .commit => do RunCtx.commitWork.conclude (← σ.attempt ⟨.commit, none⟩)
  | .rollback => do RunCtx.rollbackWork.conclude (← σ.attempt ⟨.rollback, none⟩)
  | .destroy => .ok (σ, .destroyed)
  | .run c => c.conclude σ

/-- What is left of the call, if no error is pending. -/
def ClientPc.conclude (σ : Store B) : ClientPc → Except Stop (Store B × Option Result)
  | .idle | .destroyed => .ok (σ, none)
  | .post c qj _ | .slotAsleep c qj | .slotAwake c qj => do
    let (σ, r) ← c.conclude (← σ.attempt qj)
    return (σ, some r)
  | .notify c => (c.conclude σ).map fun p => (p.1, some p.2)
  | .drain c | .drainAsleep c => (c.conclude σ).map fun p => (p.1, some p.2)
  | .readExec => .ok (σ, some (.exec (.ok .finished)))
  | .readSync => .ok (σ, some (.executeSync (.ok σ.frame.fetched)))
  | .readFetch => .ok (σ, some (.fetchMore (.ok σ.frame.fetched)))
  | .readCommit => (DrainCtx.commit.conclude σ).map fun p => (p.1, some p.2)
  | .assemble stmt n => (σ.assemble stmt n).map fun p => (p.1, some p.2)
  | .clearCommit e => .ok (σ, some (.commit (.error e)))
  | .clearRollback => .ok (σ, some (.rollback (boundaryResult "rollback failed" σ.frame.sts)))
  | .setStop | .notifyStop | .join => .ok (σ, some .destroyed)
  | .ret r => .ok (σ, some r)
  | .crashed => .error .undefined

/-- The jobs the worker has yet to do. -/
def State.outstanding (s : State B) : Except Stop (Store B) := do
  let σ ← Store.ended s.completed
  match s.pending with
  | none => return σ
  | some qj => σ.attempt qj

/-- Where the facade will be once the jobs and the call in progress are done. -/
def State.settled (s : State B) : Except Stop (Store B × Option Result) := do
  s.client.conclude (← s.outstanding)

/-- Where the reference is. -/
def State.abstract (s : State B) : Reference B :=
  match s.error with
  | some e => .failed e true
  | none => .of s.settled

theorem abstract_of_error {err : DbError} (h : s.error = some err) :
    s.abstract = .failed err true := by
  rw [State.abstract, h]

theorem abstract_of_none (h : s.error = none) : s.abstract = .of s.settled := by
  rw [State.abstract, h]

/-! ## The steps of the worker -/

theorem conclude_notified (pc : ClientPc) (σ : Store B) :
    pc.notified.conclude σ = pc.conclude σ := by
  cases pc <;> rfl

theorem ended_some {σ : Store B} (h : σ.error = none) : Store.ended (some σ) = .ok σ := by
  rw [Store.ended, h]

theorem outstanding_of_slot (h : s.slot = ⟨none, none⟩) (he : s.error = none) :
    s.outstanding = .ok s.store := by
  have hp : s.pending = none := congrArg Handoff.State.pending h
  have hh : s.worker.inHand = none := congrArg Handoff.State.inHand h
  rw [State.outstanding, completed_of_inHand hh, ended_some he, hp]
  rfl

/-- The worker only does what it has yet to do. -/
theorem WorkerStep.outstanding (h : WorkerStep s e s') (he : s.error = none) :
    s'.outstanding = s.outstanding := by
  cases hs : e.started with
  | some qj =>
    have hc := h.completed_start hs
    cases h with
    | @take qj' hw hp =>
      obtain rfl := Option.some.inj hs
      rw [completed_of_inHand (s := s) (by rw [hw]; rfl), Option.bind_some] at hc
      rw [State.outstanding, hc, State.outstanding, completed_of_inHand (s := s) (by rw [hw]; rfl),
        ended_some (σ := s.store) he, hp]
      change (Store.ended (s.store.run qj') >>= fun σ => pure σ) = _
      rw [bind_pure]
      rfl
    | _ => cases hs
  | none =>
    have hp : s'.pending = s.pending := by
      cases h with
      | take => cases hs
      | _ => rfl
    rw [State.outstanding, h.completed hs, hp, State.outstanding]

/-- The worker does not move the reference: it only records the failure there is. -/
theorem WorkerStep.abstract (h : WorkerStep s e s') :
    (∃ err, e = .record err ∧ s.abstract = .failed err false ∧ s'.abstract = .failed err true) ∨
      e.visible = none ∧ s'.abstract = s.abstract := by
  rcases h.error_eq with ⟨err, rfl, hn, he, he', -⟩ | ⟨hset, he, -⟩
  · refine .inl ⟨err, rfl, ?_, by rw [State.abstract, he']⟩
    cases h with
    | record hw _ =>
      rw [State.abstract, he, State.settled, State.outstanding, State.completed, hw]
      change Reference.of ((Store.ended (some (s.store.note err)) >>= _) >>= _) = _
      have hnote : (s.store.note err).error = some err := by
        rw [Store.note, State.store, he]
        rfl
      rw [Store.ended, hnote]
      rfl
  · refine .inr ⟨?_, ?_⟩
    · cases h <;> first
      | rfl
      | cases hset
    · rw [State.abstract, State.abstract, he]
      cases hs : s.error with
      | some err => rfl
      | none =>
        have hc (σ : Store B) : s'.client.conclude σ = s.client.conclude σ := by
          rcases h.client with h | h <;> rw [h]
          exact conclude_notified _ σ
        dsimp only
        rw [State.settled, State.settled, h.outstanding hs, funext hc]

/-! ## Calls -/

/-- The statements of the tasks, or that they are null. -/
def Store.table (σ : Store B) : List (Option StmtType) := σ.tasks.map (·.map Task.stmt)

/-- What a call takes from the store before it posts is the same. -/
def Store.Alike (σ σ' : Store B) : Prop := σ'.callers = σ.callers ∧ σ'.table = σ.table

theorem Store.Alike.trans {σ₁ σ₂ σ₃ : Store B} (h : σ₁.Alike σ₂) (h' : σ₂.Alike σ₃) :
    σ₁.Alike σ₃ :=
  ⟨h'.1.trans h.1, h'.2.trans h.2⟩

theorem map_stmt_set {tasks : List (Option (Task B))} {i : Nat} {t t' : Task B}
    (ht : tasks[i]?.join = some t) (h : t'.stmt = t.stmt) :
    (tasks.set i (some t')).map (·.map Task.stmt) = tasks.map (·.map Task.stmt) := by
  rw [List.map_set, Option.map_some, h]
  have hi : (tasks.map (·.map Task.stmt))[i]? = some (some t.stmt) := by
    rw [List.getElem?_map, Option.join_eq_some_iff.1 ht]
    rfl
  obtain ⟨hlt, hi⟩ := List.getElem?_eq_some_iff.1 hi
  rw [← hi, List.set_getElem_self]

theorem alike_ran {σ : Store B} {i : Nat} {t : Task B} (ht : σ.task i = some t) (db : B.Db)
    (query : B.Query) : σ.Alike (σ.ran i t db query) :=
  ⟨rfl, map_stmt_set ht rfl⟩

theorem alike_keep (σ : Store B) (qj : QueuedJob) (b : Bool) : σ.Alike (σ.keep qj b) := by
  rw [Store.keep]
  split <;> exact ⟨rfl, rfl⟩

theorem alike_note (σ : Store B) (err : DbError) : σ.Alike (σ.note err) := ⟨rfl, rfl⟩

theorem alike_fetch {σ σ' : Store B} {qj : QueuedJob} (h : σ.fetch qj = some σ') : σ.Alike σ' := by
  simp only [Store.fetch, Option.bind_eq_bind, Option.bind_eq_some_iff] at h
  obtain ⟨i, -, t, ht, h⟩ := h
  split at h
  · obtain rfl := Option.some.inj h
    exact (alike_ran ht _ _).trans (alike_keep _ _ _)
  · obtain rfl := Option.some.inj h
    exact ((alike_ran ht _ _).trans (alike_keep _ _ _)).trans (alike_note _ _)

theorem alike_execute {σ σ' : Store B} {qj : QueuedJob} (h : σ.execute qj = some σ') :
    σ.Alike σ' := by
  simp only [Store.execute, Option.bind_eq_bind, Option.bind_eq_some_iff] at h
  obtain ⟨⟨i, snap⟩, -, t, ht, h⟩ := h
  split at h
  · split at h
    · exact (alike_ran ht _ _).trans (alike_fetch h)
    · obtain rfl := Option.some.inj h
      exact alike_ran ht _ _
  · obtain rfl := Option.some.inj h
    exact (alike_ran ht _ _).trans (alike_note _ _)

theorem alike_restore {σ σ' : Store B} {qj : QueuedJob} (h : σ.restore qj = some σ') :
    σ.Alike σ' := by
  simp only [Store.restore, Option.bind_eq_bind, Option.bind_eq_some_iff] at h
  obtain ⟨⟨i, snap⟩, -, t, ht, par, -, h⟩ := h
  have hset : σ.Alike { σ with tasks := σ.tasks.set i (some { t with par := par }) } :=
    ⟨rfl, map_stmt_set ht rfl⟩
  exact hset.trans (alike_execute h)

theorem alike_direct {σ σ' : Store B} {qj : QueuedJob} (h : σ.direct qj = some σ') :
    σ.Alike σ' := by
  rw [Store.direct] at h
  split at h
  case h_1 => split at h <;> cases h <;> exact ⟨rfl, rfl⟩
  all_goals cases h
  all_goals exact ⟨rfl, rfl⟩

/-- The jobs leave alone what a call takes from the store. -/
theorem alike_rest {σ σ' : Store B} {qj : QueuedJob} {st : Stage} (h : σ.rest qj st = some σ') :
    σ.Alike σ' := by
  cases st with
  | check =>
    simp only [Store.rest, Store.check] at h
    split at h
    · cases h
      exact ⟨rfl, rfl⟩
    · split at h
      · exact alike_fetch h
      · exact alike_restore h
  | restore => exact alike_restore h
  | execute => exact alike_execute h
  | fetch => exact alike_fetch h
  | direct => exact alike_direct h
  | note | done =>
    cases h
    exact ⟨rfl, rfl⟩

theorem ended_ok {x : Option (Store B)} {σ : Store B} (h : Store.ended x = .ok σ) :
    x = some σ ∧ σ.error = none := by
  cases x with
  | none => cases h
  | some σ' =>
    rw [Store.ended] at h
    split at h
    · cases h
    · cases h
      exact ⟨rfl, ‹_›⟩

theorem alike_completed {σ : Store B} (h : s.completed = some σ) : s.store.Alike σ := by
  rw [State.completed] at h
  split at h
  · exact alike_rest h
  · exact alike_rest h
  · cases h
  · cases h
    exact ⟨rfl, rfl⟩

theorem alike_outstanding {σ : Store B} (h : s.outstanding = .ok σ) : s.store.Alike σ := by
  rw [State.outstanding] at h
  cases hc : Store.ended s.completed with
  | error => rw [hc] at h; cases h
  | ok σ₁ =>
    rw [hc] at h
    have h₁ := alike_completed (ended_ok hc).1
    cases hp : s.pending with
    | none =>
      rw [hp] at h
      cases h
      exact h₁
    | some qj =>
      rw [hp] at h
      exact h₁.trans (alike_rest (ended_ok h).1)

theorem snapshot_eq_table (σ : Store B) (i : Nat) : σ.snapshot i = (do
    let c ← σ.callers[i]?
    let st ← σ.table[i]?.join
    return if st.hasParameters then snapshotParams c.par else []) := by
  have htask : σ.table[i]?.join = (σ.task i).map Task.stmt := by
    rw [Store.table, List.getElem?_map, Store.task]
    rcases σ.tasks[i]? with _ | _ | _ <;> rfl
  rw [Store.snapshot, htask]
  cases σ.callers[i]? <;> cases σ.task i <;> rfl

theorem Store.Alike.snapshot {σ σ' : Store B} (h : σ.Alike σ') (i : Nat) :
    σ'.snapshot i = σ.snapshot i := by
  rw [snapshot_eq_table, snapshot_eq_table, h.1, h.2]

theorem Store.Alike.snapshotSync {σ σ' : Store B} (h : σ.Alike σ') (i : Nat) :
    σ'.snapshotSync i = σ.snapshotSync i := by
  rw [Store.snapshotSync, Store.snapshotSync, h.1, h.snapshot i]

theorem conclude_post (c : PostCtx) (qj : QueuedJob) (even : Bool) (σ : Store B) :
    (ClientPc.post c qj even).conclude σ =
      (σ.attempt qj >>= fun σ => c.conclude σ).map fun p => (p.1, some p.2) := by
  cases h : σ.attempt qj with
  | error => simp only [ClientPc.conclude, h]; rfl
  | ok σ' =>
    cases h' : c.conclude σ' with
    | error =>
      simp only [ClientPc.conclude, h]
      change (c.conclude σ' >>= _) = (c.conclude σ').map _
      rw [h']
      rfl
    | ok =>
      simp only [ClientPc.conclude, h]
      change (c.conclude σ' >>= _) = (c.conclude σ').map _
      rw [h']
      rfl

/-- A call does what the call of the reference does. -/
theorem conclude_begin {σ : Store B} (h : s.store.Alike σ) (op : Op) :
    (s.begin op).conclude σ = (σ.call op).map fun p => (p.1, some p.2) := by
  cases op with
  | prepare stmt sql n m => exact conclude_post ..
  | submit hd =>
    rcases hd with ⟨_ | i⟩
    · rfl
    · have hsnap : s.snapshot i = σ.snapshot i := (h.snapshot i).symm
      simp only [State.begin, Store.call, hsnap]
      cases σ.snapshot i with
      | none => rfl
      | some snap => exact conclude_post ..
  | exec hd =>
    rcases hd with ⟨_ | i⟩
    · rfl
    · have hsnap : s.snapshot i = σ.snapshot i := (h.snapshot i).symm
      simp only [State.begin, Store.call, hsnap]
      cases σ.snapshot i with
      | none => rfl
      | some snap => exact conclude_post ..
  | executeSync hd =>
    rcases hd with ⟨_ | i⟩
    · rfl
    · have hsnap : s.snapshotSync i = σ.snapshotSync i := (h.snapshotSync i).symm
      simp only [State.begin, Store.call, hsnap]
      cases σ.snapshotSync i with
      | none => rfl
      | some snap => exact conclude_post ..
  | fetchMore hd =>
    rcases hd with ⟨_ | i⟩
    · rfl
    · exact conclude_post ..
  | drain | commit | rollback | destroy => rfl

end Dbgen4.Async
