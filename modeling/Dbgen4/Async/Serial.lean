import Dbgen4.Async.Life
import Dbgen4.Async.Schedule

/-!
# The asynchronous facade: one job at a time

The worker runs a job in many steps, and the client goes on in between. What the
jobs read and write (`Store`) does not tell: brought to the end of the job in
hand, it is at any moment what the same jobs make of it one after the other,
each at once (`serializable`).

* `Store.run`: a job, from its start to its end;
* `Store.rest`: what is left of a job at one of its stages, and
  `WorkerStep.completed`: a step of the worker leaves the end of its job alone;
* `Store.rest_aside`: a job the client does not wait for neither reads nor
  writes what the client does meanwhile.
-/

namespace Dbgen4.Async

open Rtl

variable {B : Backend} {tr : List Event} {s s' : State B} {e : Event}

/-- What the jobs and the calls work on: the connection, the registered statements, the
    caller's buffers, `error_` and the locals of the call in progress. -/
structure Store (B : Backend) where
  db : B.Db
  tasks : List (Option (Task B)) := []
  callers : List Caller := []
  error : Option DbError := none
  frame : Frame B := {}

/-- The members of the state that are not about the queue and the threads. -/
def State.store (s : State B) : Store B := ⟨s.db, s.tasks, s.callers, s.error, s.frame⟩

namespace Store

variable (σ : Store B)

/-- `tasks_.at(id)`, dereferenced; `none` if it is null. -/
def task (i : Nat) : Option (Task B) := σ.tasks[i]?.join

/-- `note_error`: the first error is kept. -/
def note (e : DbError) : Store B := { σ with error := σ.error.or (some e) }

/-- The backend has run the query of a task. -/
def ran (i : Nat) (t : Task B) (db : B.Db) (query : B.Query) : Store B :=
  { σ with db := db, tasks := σ.tasks.set i (some { t with query := query }) }

/-- The client's local `fetched`, if the job has it. -/
def keep (qj : QueuedJob) (b : Bool) : Store B :=
  if qj.fn.keepsFetched then { σ with frame := { σ.frame with fetched := b } } else σ

/-! ## Jobs -/

/-- The fetch that ends a job; `none` where the behaviour is undefined. -/
def fetch (qj : QueuedJob) : Option (Store B) := do
  let i ← qj.taskId
  let t ← σ.task i
  match B.fetch σ.db t.query with
  | (.ok b, db, query) => some ((σ.ran i t db query).keep qj b)
  | (.error e, db, query) => some (((σ.ran i t db query).keep qj false).note e)

/-- The execution of the statement, and the fetch of its first rows. -/
def execute (qj : QueuedJob) : Option (Store B) := do
  let (i, _) ← qj.fn.statement
  let t ← σ.task i
  match B.execute σ.db t.query t.par with
  | (none, db, query) =>
    if qj.fn.afterExecute t.stmt = .fetch then (σ.ran i t db query).fetch qj
    else some (σ.ran i t db query)
  | (some e, db, query) => some ((σ.ran i t db query).note e)

/-- The parameters are restored first. -/
def restore (qj : QueuedJob) : Option (Store B) := do
  let (i, snap) ← qj.fn.statement
  let t ← σ.task i
  let par ← (if t.stmt.hasParameters then restoreParams t.par snap else some t.par)
  execute { σ with tasks := σ.tasks.set i (some { t with par := par }) } qj

/-- The jobs the client waits for return early if an error is pending. -/
def check (qj : QueuedJob) : Option (Store B) :=
  if σ.error.isSome then some σ
  else if qj.fn.afterCheck = .fetch then σ.fetch qj else σ.restore qj

/-- The jobs that are not about a statement. -/
def direct (qj : QueuedJob) : Option (Store B) :=
  match qj.fn with
  | .prepare stmt sql n m =>
    match B.prepare σ.db stmt sql (stmt.makeParams n) m with
    | (.error e, db) => some { σ with db := db, frame := { σ.frame with err := some e } }
    | (.ok query, db) => some { σ with
        db := db, frame := { σ.frame with task := some ⟨stmt, stmt.makeParams n, query⟩ } }
  | .commit => some { σ with
      db := (B.commit σ.db).2, frame := { σ.frame with sts := (B.commit σ.db).1 } }
  | .rollbackIgnored => some { σ with db := (B.rollback σ.db).2 }
  | .rollback => some { σ with
      db := (B.rollback σ.db).2, frame := { σ.frame with sts := (B.rollback σ.db).1 } }
  | _ => none

variable {σ} {qj : QueuedJob} {i : Nat} {snap : ParamSnapshot} {t : Task B}

theorem fetch_ok {b : Bool} {db : B.Db} {query : B.Query} (hi : qj.taskId = some i)
    (ht : σ.task i = some t) (hx : B.fetch σ.db t.query = (.ok b, db, query)) :
    σ.fetch qj = some ((σ.ran i t db query).keep qj b) := by
  simp only [fetch, hi, ht, hx, Option.bind_eq_bind, Option.bind_some]

theorem fetch_error {e : DbError} {db : B.Db} {query : B.Query} (hi : qj.taskId = some i)
    (ht : σ.task i = some t) (hx : B.fetch σ.db t.query = (.error e, db, query)) :
    σ.fetch qj = some (((σ.ran i t db query).keep qj false).note e) := by
  simp only [fetch, hi, ht, hx, Option.bind_eq_bind, Option.bind_some]

theorem fetch_null (hi : qj.taskId = some i) (ht : σ.task i = none) : σ.fetch qj = none := by
  simp only [fetch, hi, ht, Option.bind_eq_bind, Option.bind_some, Option.bind_none]

theorem execute_ok {db : B.Db} {query : B.Query} (hj : qj.fn.statement = some (i, snap))
    (ht : σ.task i = some t) (hx : B.execute σ.db t.query t.par = (none, db, query)) :
    σ.execute qj = if qj.fn.afterExecute t.stmt = .fetch then (σ.ran i t db query).fetch qj
      else some (σ.ran i t db query) := by
  simp only [execute, hj, ht, hx, Option.bind_eq_bind, Option.bind_some]

theorem execute_error {e : DbError} {db : B.Db} {query : B.Query}
    (hj : qj.fn.statement = some (i, snap)) (ht : σ.task i = some t)
    (hx : B.execute σ.db t.query t.par = (some e, db, query)) :
    σ.execute qj = some ((σ.ran i t db query).note e) := by
  simp only [execute, hj, ht, hx, Option.bind_eq_bind, Option.bind_some]

theorem execute_null (hj : qj.fn.statement = some (i, snap)) (ht : σ.task i = none) :
    σ.execute qj = none := by
  simp only [execute, hj, ht, Option.bind_eq_bind, Option.bind_some, Option.bind_none]

theorem restore_ok {par : ParamBuffer} (hj : qj.fn.statement = some (i, snap))
    (ht : σ.task i = some t)
    (hp : (if t.stmt.hasParameters then restoreParams t.par snap else some t.par) = some par) :
    σ.restore qj =
      execute { σ with tasks := σ.tasks.set i (some { t with par := par }) } qj := by
  simp only [restore, hj, ht, hp, Option.bind_eq_bind, Option.bind_some]

theorem restore_overflow (hj : qj.fn.statement = some (i, snap)) (ht : σ.task i = some t)
    (hp : (if t.stmt.hasParameters then restoreParams t.par snap else some t.par) = none) :
    σ.restore qj = none := by
  simp only [restore, hj, ht, hp, Option.bind_eq_bind, Option.bind_some, Option.bind_none]

theorem restore_null (hj : qj.fn.statement = some (i, snap)) (ht : σ.task i = none) :
    σ.restore qj = none := by
  simp only [restore, hj, ht, Option.bind_eq_bind, Option.bind_some, Option.bind_none]

variable (σ)

/-- What is left of a job at a stage of it. -/
def rest (qj : QueuedJob) : Stage → Option (Store B)
  | .check => σ.check qj
  | .restore => σ.restore qj
  | .execute => σ.execute qj
  | .fetch => σ.fetch qj
  | .note e => some (σ.note e)
  | .direct => σ.direct qj
  | .done => some σ

/-- The whole job. -/
def run (qj : QueuedJob) : Option (Store B) := σ.rest qj qj.fn.entry

end Store

/-- The store once the job in hand has come to its end; `none` if its behaviour is undefined. -/
def State.completed (s : State B) : Option (Store B) :=
  match s.worker with
  | .took qj => s.store.run qj
  | .run qj st => s.store.rest qj st
  | .crashed _ => none
  | _ => some s.store

theorem completed_of_inHand (h : s.worker.inHand = none) : s.completed = some s.store := by
  rw [State.completed]
  split <;> simp_all [WorkerPc.inHand]

theorem completed_notified (s' : State B) (h : s'.worker = s.worker.notified)
    (hs : s'.store = s.store) : s'.completed = s.completed := by
  rw [State.completed, State.completed, h, hs]
  cases s.worker <;> rfl

/-! ## The steps of the worker -/

theorem rest_afterExecute (σ : Store B) (qj : QueuedJob) (stmt : StmtType) :
    σ.rest qj (qj.fn.afterExecute stmt) =
      if qj.fn.afterExecute stmt = .fetch then σ.fetch qj else some σ := by
  rcases stmt with ⟨_, _, _ | _⟩ <;> rcases qj with ⟨_ | _ | _ | _ | _ | _ | _ | _, _⟩ <;> rfl

theorem rest_afterCheck (σ : Store B) (qj : QueuedJob) :
    σ.rest qj qj.fn.afterCheck =
      if qj.fn.afterCheck = .fetch then σ.fetch qj else σ.restore qj := by
  rcases qj with ⟨_ | _ | _ | _ | _ | _ | _ | _, _⟩ <;> rfl

/-- Within a job, the worker does what is left of it. -/
theorem WorkerStep.completed (h : WorkerStep s e s') (he : e.started = none) :
    s'.completed = s.completed := by
  cases h with
  | take => cases he
  | exit hw | sleep hw | spurious hw | notify hw | finish hw | slotFree hw =>
    rw [State.completed, State.completed, hw]
    rfl
  | skip hw herr =>
    rw [State.completed, State.completed, hw]
    exact (if_pos herr).symm
  | check hw herr =>
    rw [State.completed, State.completed, hw]
    have hn : ¬s.store.error.isSome := by
      rw [State.store, herr]
      exact Bool.false_ne_true
    exact (rest_afterCheck _ _).trans (if_neg hn).symm
  | restore hw hj ht hp =>
    rw [State.completed, State.completed, hw]
    exact (Store.restore_ok (σ := s.store) hj ht hp).symm
  | restoreOverflow hw hj ht hpar hp =>
    rw [State.completed, State.completed, hw]
    exact (Store.restore_overflow (σ := s.store) hj ht ((if_pos hpar).trans hp)).symm
  | restoreNull hw hj ht =>
    rw [State.completed, State.completed, hw]
    exact (Store.restore_null (σ := s.store) hj ht).symm
  | execute hw hj ht hx =>
    rw [State.completed, State.completed, hw]
    exact (rest_afterExecute _ _ _).trans (Store.execute_ok (σ := s.store) hj ht hx).symm
  | executeError hw hj ht hx =>
    rw [State.completed, State.completed, hw]
    exact (Store.execute_error (σ := s.store) hj ht hx).symm
  | fetch hw hj ht hx =>
    rw [State.completed, State.completed, hw]
    refine Eq.trans ?_ (Store.fetch_ok (σ := s.store) hj ht hx).symm
    simp only [Store.keep, apply_ite]
    split <;> rfl
  | fetchError hw hj ht hx =>
    rw [State.completed, State.completed, hw]
    refine Eq.trans ?_ (Store.fetch_error (σ := s.store) hj ht hx).symm
    simp only [Store.rest, Store.keep]
    split <;> rfl
  | fetchNull hw hj ht =>
    rw [State.completed, State.completed, hw]
    exact (Store.fetch_null (σ := s.store) hj ht).symm
  | record hw herr =>
    rw [State.completed, State.completed, hw]
    simp only [Store.rest, Store.note, State.store, herr, Option.none_or]
  | keep hw herr =>
    rw [State.completed, State.completed, hw]
    obtain ⟨err', herr⟩ := Option.isSome_iff_exists.1 herr
    simp only [Store.rest, Store.note, State.store, herr, Option.some_or]
  | prepareError hw hj hx | prepare hw hj hx | commit hw hj hx | rollbackIgnored hw hj hx
  | rollback hw hj hx =>
    rw [State.completed, State.completed, hw]
    simp only [Store.rest, Store.direct, State.store, hj, hx]

/-- The worker takes a job while none is in hand: it is all that is to do. -/
theorem WorkerStep.completed_start (h : WorkerStep s e s') {qj : QueuedJob}
    (he : e.started = some qj) : s'.completed = s.completed.bind (·.run qj) := by
  cases h with
  | take hw hp =>
    obtain rfl := Option.some.inj he
    rw [completed_of_inHand (s := s) (by rw [hw]; rfl), Option.bind_some]
    rfl
  | _ => cases he

/-! ## What the client does meanwhile -/

/-- What the client does by itself to the caller's buffers and its locals. -/
def Store.aside (f : List Caller → List Caller) (g : Frame B → Frame B) (σ : Store B) : Store B :=
  { σ with callers := f σ.callers, frame := g σ.frame }

section Aside

variable (f : List Caller → List Caller) (g : Frame B → Frame B) (σ : Store B) {qj : QueuedJob}

theorem fetch_aside (hj : qj.fn.keepsFetched = false) :
    (σ.aside f g).fetch qj = (σ.fetch qj).map (·.aside f g) := by
  have hkeep (σ : Store B) (b : Bool) : σ.keep qj b = σ := by
    rw [Store.keep, hj]
    rfl
  cases hi : qj.taskId with
  | none => simp only [Store.fetch, hi, Option.bind_eq_bind, Option.bind_none, Option.map_none]
  | some i =>
    have haside : (σ.aside f g).task i = σ.task i := rfl
    cases ht : σ.task i with
    | none => rw [Store.fetch_null hi ht, Store.fetch_null hi (haside.trans ht), Option.map_none]
    | some t =>
      rcases hx : B.fetch σ.db t.query with ⟨_ | _, db, query⟩
      · rw [Store.fetch_error hi ht hx, Store.fetch_error hi (haside.trans ht) hx, hkeep, hkeep]
        rfl
      · rw [Store.fetch_ok hi ht hx, Store.fetch_ok hi (haside.trans ht) hx, hkeep, hkeep]
        rfl

theorem execute_aside (hj : qj.fn.keepsFetched = false) :
    (σ.aside f g).execute qj = (σ.execute qj).map (·.aside f g) := by
  cases hs : qj.fn.statement with
  | none => simp only [Store.execute, hs, Option.bind_eq_bind, Option.bind_none, Option.map_none]
  | some p =>
    obtain ⟨i, snap⟩ := p
    have haside : (σ.aside f g).task i = σ.task i := rfl
    cases ht : σ.task i with
    | none =>
      rw [Store.execute_null hs ht, Store.execute_null hs (haside.trans ht), Option.map_none]
    | some t =>
      rcases hx : B.execute σ.db t.query t.par with ⟨_ | _, db, query⟩
      · rw [Store.execute_ok hs ht hx, Store.execute_ok hs (haside.trans ht) hx]
        split
        · exact fetch_aside f g (σ.ran i t db query) hj
        · rfl
      · rw [Store.execute_error hs ht hx, Store.execute_error hs (haside.trans ht) hx]
        rfl

theorem restore_aside (hj : qj.fn.keepsFetched = false) :
    (σ.aside f g).restore qj = (σ.restore qj).map (·.aside f g) := by
  cases hs : qj.fn.statement with
  | none => simp only [Store.restore, hs, Option.bind_eq_bind, Option.bind_none, Option.map_none]
  | some p =>
    obtain ⟨i, snap⟩ := p
    have haside : (σ.aside f g).task i = σ.task i := rfl
    cases ht : σ.task i with
    | none =>
      rw [Store.restore_null hs ht, Store.restore_null hs (haside.trans ht), Option.map_none]
    | some t =>
      cases hp : if t.stmt.hasParameters then restoreParams t.par snap else some t.par with
      | none =>
        rw [Store.restore_overflow hs ht hp, Store.restore_overflow hs (haside.trans ht) hp,
          Option.map_none]
      | some par =>
        rw [Store.restore_ok hs ht hp, Store.restore_ok hs (haside.trans ht) hp]
        exact execute_aside f g { σ with tasks := σ.tasks.set i (some { t with par := par }) } hj

/-- A job the client does not wait for neither reads nor writes these. -/
theorem rest_aside (hj : qj.fn.isUnattended) {st : Stage} (hst : qj.fn.hasStage st) :
    (σ.aside f g).rest qj st = (σ.rest qj st).map (·.aside f g) := by
  have hk : qj.fn.keepsFetched = false := by
    cases hfn : qj.fn <;> rw [hfn] at hj <;> first
    | rfl
    | cases hj
  cases st with
  | check => cases (Job.attended_of_check hst).symm.trans hj
  | direct =>
    cases hfn : qj.fn <;> rw [hfn] at hj hst <;> first
    | cases hj; done
    | cases hst
  | restore => exact restore_aside f g σ hk
  | execute => exact execute_aside f g σ hk
  | fetch => exact fetch_aside f g σ hk
  | note | done => rfl

theorem run_aside (hj : qj.fn.isUnattended) :
    (σ.aside f g).run qj = (σ.run qj).map (·.aside f g) :=
  rest_aside f g σ hj (hasStage_entry _)

end Aside

/-! ## One job at a time -/

/-- What is done to the store at once: a job, or what the client does in one step. -/
inductive Move
  | job (qj : QueuedJob)
  /-- A call begins, with its locals. -/
  | call
  | write (i : Nat) (par : ParamBuffer)
  /-- The end of `prepare`: the task is registered, and its handle has a buffer. -/
  | register (stmt : StmtType) (paramRows : Nat)
  | clear

/-- An act on the store; `none` if its behaviour is undefined. -/
def Store.act (σ : Store B) : Move → Option (Store B)
  | .job qj => σ.run qj
  | .call => some { σ with frame := {} }
  | .write i par => some { σ with callers := σ.callers.modify i ({ · with par := par }) }
  | .register stmt n => some { σ with
      tasks := σ.tasks ++ [σ.frame.task], callers := σ.callers ++ [⟨stmt, stmt.makeParams n⟩] }
  | .clear => some { σ with error := none }

/-- `prepare` registers its task, in the step between the two positions. -/
def ClientPc.registers : ClientPc → ClientPc → Option Move
  | .assemble stmt n, .ret (.prepare (.ok _)) => some (.register stmt n)
  | _, _ => none

/-- The act a step tells of. -/
def Event.told : Event → Option Move
  | .start qj => some (.job qj)
  | .call _ _ => some .call
  | .write i par => some (.write i par)
  | .clear => some .clear
  | _ => none

/-- All acts are told of but the registrations. -/
def Move.told : Move → Option Move
  | .register _ _ => none
  | a => some a

/-- The act a step is; most are none. -/
def State.moveOf (s : State B) (e : Event) (s' : State B) : Option Move :=
  e.told.or (s.client.registers s'.client)

theorem registers_notified {pc pc' : ClientPc} (h : pc' = pc ∨ pc' = pc.notified) :
    pc.registers pc' = none := by
  rcases h with h | h <;> rw [h] <;> cases pc <;> rfl

/-- A step of the worker is the job it takes, or none. -/
theorem WorkerStep.moveOf (h : WorkerStep s e s') : s.moveOf e s' = e.started.map Move.job := by
  rw [State.moveOf, registers_notified h.client, Option.or_none]
  cases h <;> rfl

theorem set_eq_modify {cs : List Caller} {i : Nat} {c : Caller} (hc : cs[i]? = some c)
    (par : ParamBuffer) : cs.set i { c with par := par } = cs.modify i ({ · with par := par }) := by
  refine List.ext_getElem? fun j => ?_
  rw [List.getElem?_set, List.getElem?_modify]
  by_cases hij : i = j
  · subst hij
    rw [hc, if_pos rfl, if_pos (List.getElem?_eq_some_iff.1 hc).1]
    exact (congrArg some (if_pos rfl)).symm
  · simp [hij]

/-- A client that waits for no job has none in the slot or in hand. -/
theorem unattended (hr : (asyncDb B).Run tr s) (ha : s.client.awaits = none) {qj : QueuedJob}
    (hj : s.slot.Has qj) : qj.fn.isUnattended := by
  rcases attends hr hj with hu | ⟨c, hc, -⟩
  · exact hu
  · cases ha.symm.trans hc

/-- What the client does by itself while it waits for no job. -/
theorem completed_map (hr : (asyncDb B).Run tr s) (ha : s.client.awaits = none)
    {f : List Caller → List Caller} {g : Frame B → Frame B} (hw : s'.worker = s.worker)
    (hs : s'.store = s.store.aside f g) : s'.completed = s.completed.map (·.aside f g) := by
  rw [State.completed, State.completed, hw, hs]
  cases hwk : s.worker with
  | took qj => exact run_aside _ _ _ (unattended hr ha (.inr (congrArg WorkerPc.inHand hwk)))
  | run qj st =>
    exact rest_aside _ _ _ (unattended hr ha (.inr (congrArg WorkerPc.inHand hwk)))
      (hasStage hr hwk)
  | _ => rfl

/-- An act of the client on its own while it waits for no job. -/
theorem completed_aside (hr : (asyncDb B).Run tr s) (ha : s.client.awaits = none) {a : Move}
    {f : List Caller → List Caller} {g : Frame B → Frame B}
    (hact : ∀ σ : Store B, σ.act a = some (σ.aside f g)) (hw : s'.worker = s.worker)
    (hs : s'.store = s.store.aside f g) : s'.completed = s.completed.bind (·.act a) := by
  rw [completed_map hr ha hw hs, funext hact, Option.map_eq_bind]
  rfl

/-- Each step of the client is an act of its own, or leaves the store and the job in hand alone. -/
theorem ClientStep.moveOf (hr : (asyncDb B).Run tr s) (h : ClientStep s e s') :
    (∃ a, s.moveOf e s' = some a ∧ s'.completed = s.completed.bind (·.act a)) ∨
      s.moveOf e s' = none ∧ s'.store = s.store ∧
        (s'.worker = s.worker ∨ s'.worker = s.worker.notified) := by
  have hrest (hc : s.client.atRest) : s.completed = some s.store :=
    completed_of_inHand (congrArg Handoff.State.inHand (slot_of_atRest hr hc))
  have hrest' (hc : s.client.atRest) (hw : s'.worker = s.worker) : s'.completed = some s'.store :=
    completed_of_inHand (hw ▸ congrArg Handoff.State.inHand (slot_of_atRest hr hc))
  cases h with
  | @write i c par hc hi hs =>
    refine .inl ⟨.write i par, rfl, ?_⟩
    refine completed_aside (f := (·.modify i ({ · with par := par }))) (g := id) hr
      (by rw [hc]; rfl) (fun _ => rfl) rfl ?_
    exact congrArg (fun cs => Store.mk s.db s.tasks cs s.error s.frame) (set_eq_modify hi par)
  | call hc _ =>
    refine .inl ⟨.call, rfl, ?_⟩
    exact completed_aside (f := id) (g := fun _ => {}) hr (by rw [hc]; rfl) (fun _ => rfl) rfl rfl
  | @assemble stmt n hc he ht =>
    have hc' : s.client.atRest := by rw [hc]; rfl
    refine .inl ⟨.register stmt n, ?_, ?_⟩
    · exact congrArg (ClientPc.registers · _) hc
    · rw [hrest hc', hrest' hc' rfl]
      rfl
  | clearCommit hc | clearRollback hc =>
    have hc' : s.client.atRest := by rw [hc]; rfl
    refine .inl ⟨.clear, rfl, ?_⟩
    rw [hrest hc', hrest' hc' rfl]
    rfl
  | notify hc | notifyStop hc => exact .inr ⟨congrArg (ClientPc.registers · _) hc, rfl, .inr rfl⟩
  | isFinished hc | error hc | discard hc | store hc | blocked hc | slotSpurious hc | slotStore hc
  | slotSleep hc | drained hc | drainSleep hc | drainSpurious hc | readExec hc | readSync hc
  | readFetch hc | readCommit hc | assembleError hc | assembleCrash hc | setStop hc | join hc
  | ret hc => exact .inr ⟨congrArg (ClientPc.registers · _) hc, rfl, .inl rfl⟩

end Dbgen4.Async
