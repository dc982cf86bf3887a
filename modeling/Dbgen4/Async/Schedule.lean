import Dbgen4.Async.Step

/-!
# The asynchronous facade: schedules

The two threads are deterministic, spurious wakeups apart: what interleaves them
is a schedule (`Choice`). `run` computes the trace and the state a schedule
leads to, and what it computes is a run (`run_sound`).
-/

namespace Dbgen4.Async

open Rtl

variable {B : Backend}

/-- What happens next. -/
inductive Choice
  | call (op : Op)
  | write (i : Nat) (par : ParamBuffer)
  | isFinished
  | error
  /-- The client goes on with its call. -/
  | client
  | worker

namespace State

variable (s : State B)

instance : Decidable s.Drained := inferInstanceAs (Decidable (s.pending = none ∧ s.busy = false))

/-- The next step of the client in its call. -/
def clientNext : Option (Event × State B) :=
  match s.client with
  | .post c qj even =>
    if s.error.isSome && !even then some (.discard qj, { s with client := c.next })
    else if s.pending.isSome then some (.blocked qj, { s with client := .slotAsleep c qj })
    else some (.enqueue qj, { s with pending := some qj, client := .notify c })
  | .slotAwake c qj =>
    if s.pending.isSome then some (.tau, { s with client := .slotAsleep c qj })
    else some (.enqueue qj, { s with pending := some qj, client := .notify c })
  | .notify c => some (.tau, { s with worker := s.worker.notified, client := c.next })
  | .drain c =>
    if s.Drained then some (.tau, { s with client := s.afterDrain c })
    else some (.tau, { s with client := .drainAsleep c })
  | .readExec => some (.error s.error, { s with client := .ret (.exec (s.orError .finished)) })
  | .readSync => some (.error s.error, { s with
      client := .ret (.executeSync (s.orError s.frame.fetched)) })
  | .readFetch => some (.error s.error, { s with
      client := .ret (.fetchMore (s.orError s.frame.fetched)) })
  | .readCommit => some (.error s.error, { s with client := s.afterReadCommit })
  | .assemble stmt n =>
    match s.frame.err with
    | some e => some (.tau, { s with client := .ret (.prepare (.error e)) })
    | none =>
      if s.frame.task.isNone && stmt.hasResults then some (.tau, { s with client := .crashed })
      else some (.tau, { s with
        tasks := s.tasks ++ [s.frame.task]
        callers := s.callers ++ [⟨stmt, stmt.makeParams n⟩]
        client := .ret (.prepare (.ok s.tasks.length)) })
  | .clearCommit e =>
    some (.clear, { s with error := none, client := .ret (.commit (.error e)) })
  | .clearRollback => some (.clear, { s with
      error := none
      client := .ret (.rollback (boundaryResult "rollback failed" s.frame.sts)) })
  | .setStop => some (.tau, { s with stop := true, client := .notifyStop })
  | .notifyStop => some (.tau, { s with worker := s.worker.notified, client := .join })
  | .join =>
    if s.worker = .exited then some (.tau, { s with client := .ret .destroyed }) else none
  | .ret r => some (.ret r, { s with client := r.next })
  | .idle | .slotAsleep _ _ | .drainAsleep _ | .destroyed | .crashed => none

theorem clientNext_sound {s' : State B} {e : Event} (h : s.clientNext = some (e, s')) :
    ClientStep s e s' := by
  rw [clientNext] at h
  split at h
  · rename_i c qj even hc
    split at h
    · rename_i hd
      rw [Bool.and_eq_true, Bool.not_eq_true'] at hd
      obtain ⟨he, rfl⟩ := hd
      cases h
      exact .discard hc he
    · rename_i hd
      have hd : s.error = none ∨ even = true := by
        cases hs : s.error <;> cases even <;> simp_all
      split at h
      · cases h
        exact .blocked hc hd ‹_›
      · cases h
        exact .store hc hd (Option.not_isSome_iff_eq_none.1 ‹_›)
  · rename_i c qj hc
    split at h
    · cases h
      exact .slotSleep hc ‹_›
    · cases h
      exact .slotStore hc (Option.not_isSome_iff_eq_none.1 ‹_›)
  · cases h
    exact .notify ‹_›
  · rename_i c hc
    split at h
    · cases h
      exact .drained hc ‹_›
    · cases h
      exact .drainSleep hc ‹_›
  · cases h
    exact .readExec ‹_›
  · cases h
    exact .readSync ‹_›
  · cases h
    exact .readFetch ‹_›
  · cases h
    exact .readCommit ‹_›
  · rename_i stmt n hc
    split at h
    · cases h
      exact .assembleError hc ‹_›
    · split at h
      · rename_i ht
        rw [Bool.and_eq_true] at ht
        cases h
        exact .assembleCrash hc ‹_› ht.1 ht.2
      · rename_i ht
        cases h
        refine .assemble hc ‹_› ?_
        cases hs : s.frame.task <;> simp_all
  · cases h
    exact .clearCommit ‹_›
  · cases h
    exact .clearRollback ‹_›
  · cases h
    exact .setStop ‹_›
  · cases h
    exact .notifyStop ‹_›
  · split at h
    · cases h
      exact .join ‹_› ‹_›
    · cases h
  · cases h
    exact .ret ‹_›
  all_goals cases h

/-- The next step of the worker in the job `qj`. -/
def jobNext (qj : QueuedJob) : Stage → Option (Event × State B)
  | .check =>
    if s.error.isSome then some (.skip qj, { s with worker := .run qj .done })
    else some (.tau, { s with worker := .run qj qj.fn.afterCheck })
  | .restore => do
    let (i, snap) ← qj.fn.statement
    match s.task i with
    | none => some (.tau, { s with worker := .crashed qj })
    | some t =>
      match if t.stmt.hasParameters then restoreParams t.par snap else some t.par with
      | none => some (.tau, { s with worker := .crashed qj })
      | some par => some (.tau, { s with
          tasks := s.tasks.set i (some { t with par := par }), worker := .run qj .execute })
  | .execute => do
    let (i, _) ← qj.fn.statement
    let t ← s.task i
    match B.execute s.db t.query t.par with
    | (none, db, query) => some (.execute qj t.par none, { s with
        db := db
        tasks := s.tasks.set i (some { t with query := query })
        worker := .run qj (qj.fn.afterExecute t.stmt) })
    | (some e, db, query) => some (.execute qj t.par (some e), { s with
        db := db
        tasks := s.tasks.set i (some { t with query := query })
        worker := .run qj (.note e) })
  | .fetch => do
    let i ← qj.taskId
    match s.task i with
    | none => some (.tau, { s with worker := .crashed qj })
    | some t => match B.fetch s.db t.query with
      | (.ok b, db, query) => some (.fetch qj (.ok b), { s with
          db := db
          tasks := s.tasks.set i (some { t with query := query })
          frame := if qj.fn.keepsFetched then { s.frame with fetched := b } else s.frame
          worker := .run qj .done })
      | (.error e, db, query) => some (.fetch qj (.error e), { s with
          db := db
          tasks := s.tasks.set i (some { t with query := query })
          frame := if qj.fn.keepsFetched then { s.frame with fetched := false } else s.frame
          worker := .run qj (.note e) })
  | .note e =>
    if s.error.isSome then some (.tau, { s with worker := .run qj .done })
    else some (.record e, { s with error := some e, worker := .run qj .done })
  | .direct =>
    match qj.fn with
    | .prepare stmt sql n m => match B.prepare s.db stmt sql (stmt.makeParams n) m with
      | (.error e, db) => some (.prepare (some e), { s with
          db := db, frame := { s.frame with err := some e }, worker := .run qj .done })
      | (.ok query, db) => some (.prepare none, { s with
          db := db
          frame := { s.frame with task := some ⟨stmt, stmt.makeParams n, query⟩ }
          worker := .run qj .done })
    | .commit => some (.commit (B.commit s.db).1, { s with
        db := (B.commit s.db).2
        frame := { s.frame with sts := (B.commit s.db).1 }
        worker := .run qj .done })
    | .rollbackIgnored => some (.rollback (B.rollback s.db).1, { s with
        db := (B.rollback s.db).2, worker := .run qj .done })
    | .rollback => some (.rollback (B.rollback s.db).1, { s with
        db := (B.rollback s.db).2
        frame := { s.frame with sts := (B.rollback s.db).1 }
        worker := .run qj .done })
    | _ => none
  | .done => some (.finish qj, { s with
      busy := false, runningTaskId := none, worker := .notify })

/-- The next step of the worker. -/
def workerNext : Option (Event × State B) :=
  match s.worker with
  | .top => match s.pending with
    | some qj => some (.start qj, { s with
        pending := none, busy := true, runningTaskId := qj.taskId, worker := .took qj })
    | none =>
      if s.stop then some (.tau, { s with worker := .exited })
      else some (.tau, { s with worker := .asleep })
  | .took qj => some (.tau, { s with client := s.client.notified, worker := .run qj qj.fn.entry })
  | .run qj st => s.jobNext qj st
  | .notify => some (.tau, { s with client := s.client.notified, worker := .top })
  | .asleep | .exited | .crashed _ => none

theorem jobNext_sound {qj : QueuedJob} {st : Stage} (hw : s.worker = .run qj st) {s' : State B}
    {e : Event} (h : s.jobNext qj st = some (e, s')) : WorkerStep s e s' := by
  cases st with
  | check =>
    simp only [jobNext] at h
    split at h
    · cases h
      exact .skip hw ‹_›
    · cases h
      exact .check hw (Option.not_isSome_iff_eq_none.1 ‹_›)
  | restore =>
    simp only [jobNext, Option.bind_eq_bind, Option.bind_eq_some_iff] at h
    obtain ⟨⟨i, snap⟩, hj, h⟩ := h
    dsimp only at h
    split at h
    · cases h
      exact .restoreNull hw hj ‹_›
    · rename_i t ht
      split at h
      · rename_i hp
        cases h
        split at hp
        · exact .restoreOverflow hw hj ht ‹_› hp
        · cases hp
      · cases h
        exact .restore hw hj ht ‹_›
  | execute =>
    simp only [jobNext, Option.bind_eq_bind, Option.bind_eq_some_iff] at h
    obtain ⟨⟨i, snap⟩, hj, t, ht, h⟩ := h
    split at h
    · cases h
      exact .execute hw hj ht ‹_›
    · cases h
      exact .executeError hw hj ht ‹_›
  | fetch =>
    simp only [jobNext, Option.bind_eq_bind, Option.bind_eq_some_iff] at h
    obtain ⟨i, hi, h⟩ := h
    split at h
    · cases h
      exact .fetchNull hw hi ‹_›
    · split at h
      · cases h
        exact .fetch hw hi ‹_› ‹_›
      · cases h
        exact .fetchError hw hi ‹_› ‹_›
  | note e =>
    simp only [jobNext] at h
    split at h
    · cases h
      exact .keep hw ‹_›
    · cases h
      exact .record hw (Option.not_isSome_iff_eq_none.1 ‹_›)
  | direct =>
    simp only [jobNext] at h
    split at h
    · split at h
      · cases h
        exact .prepareError hw ‹_› ‹_›
      · cases h
        exact .prepare hw ‹_› ‹_›
    · cases h
      exact .commit hw ‹_› rfl
    · cases h
      exact .rollbackIgnored hw ‹_› rfl
    · cases h
      exact .rollback hw ‹_› rfl
    · cases h
  | done =>
    cases h
    exact .finish hw

theorem workerNext_sound {s' : State B} {e : Event} (h : s.workerNext = some (e, s')) :
    WorkerStep s e s' := by
  rw [workerNext] at h
  split at h
  · split at h
    · cases h
      exact .take ‹_› ‹_›
    · split at h
      · cases h
        exact .exit ‹_› ‹_› ‹_›
      · cases h
        exact .sleep ‹_› ‹_› (Bool.eq_false_of_not_eq_true ‹_›)
  · cases h
    exact .slotFree ‹_›
  · exact s.jobNext_sound ‹_› h
  · cases h
    exact .notify ‹_›
  all_goals cases h

instance (op : Op) : Decidable (s.Allows op) :=
  match op with
  | .submit h =>
    inferInstanceAs (Decidable (∀ i ∈ h.id, ∃ c ∈ s.callers[i]?, c.stmt.hasResults = false))
  | .fetchMore h =>
    inferInstanceAs (Decidable (∀ i ∈ h.id, ∃ c ∈ s.callers[i]?, c.stmt.hasResults = true))
  | .exec h | .executeSync h => inferInstanceAs (Decidable (∀ i ∈ h.id, i < s.callers.length))
  | .prepare _ _ _ _ | .drain | .commit | .rollback | .destroy => inferInstanceAs (Decidable True)

/-- What the client does between two calls. -/
def whenIdle {α : Type} (x : Option α) : Option α :=
  match s.client with
  | .idle => x
  | _ => none

theorem of_whenIdle {α : Type} {x : Option α} {a : α} (h : s.whenIdle x = some a) :
    s.client = .idle ∧ x = some a := by
  rw [whenIdle] at h
  split at h
  · exact ⟨‹_›, h⟩
  · cases h

/-- The next step, as chosen. -/
def next : Choice → Option (Event × State B)
  | .client => s.clientNext
  | .worker => s.workerNext
  | .call op => s.whenIdle <|
    if s.Allows op then some (.call op (s.held op), { s with frame := {}, client := s.begin op })
    else none
  | .write i par => s.whenIdle do
    let c ← s.callers[i]?
    if par.strides = c.par.strides then
      some (.write i par, { s with callers := s.callers.set i { c with par := par } })
    else none
  | .isFinished => s.whenIdle (some (.isFinished s.isFinished, s))
  | .error => s.whenIdle (some (.error s.error, s))

theorem next_sound {c : Choice} {s' : State B} {e : Event} (h : s.next c = some (e, s')) :
    (asyncDb B).step s e s' := by
  cases c with
  | client => exact .inl (s.clientNext_sound h)
  | worker => exact .inr (s.workerNext_sound h)
  | call op =>
    obtain ⟨hc, h⟩ := s.of_whenIdle h
    split at h
    · cases h
      exact .inl (.call hc ‹_›)
    · cases h
  | write i par =>
    obtain ⟨hc, h⟩ := s.of_whenIdle h
    simp only [Option.bind_eq_bind, Option.bind_eq_some_iff] at h
    obtain ⟨c, hi, h⟩ := h
    split at h
    · cases h
      exact .inl (.write hc hi ‹_›)
    · cases h
  | isFinished =>
    obtain ⟨hc, h⟩ := s.of_whenIdle h
    cases h
    exact .inl (.isFinished hc)
  | error =>
    obtain ⟨hc, h⟩ := s.of_whenIdle h
    cases h
    exact .inl (.error hc)

theorem next_get_sound (c : Choice) (h : (s.next c).isSome) :
    (asyncDb B).step s ((s.next c).get h).1 ((s.next c).get h).2 :=
  s.next_sound (Option.some_get h).symm

end State

/-- The trace (latest first) and the state that a schedule leads to, from those given;
    none if a step cannot be taken, or does not meet the condition. -/
def run (P : State B → Event → Prop) [∀ s e, Decidable (P s e)] :
    List Choice → List Event × State B → Option (List Event × State B)
  | [], x => some x
  | c :: cs, x => do
    let (e, s) ← x.2.next c
    if P x.2 e then run P cs (e :: x.1, s) else none

/-- What a schedule leads to has whatever steps that meet the condition preserve. -/
theorem run_induction {P : State B → Event → Prop} [∀ s e, Decidable (P s e)]
    {I : List Event → State B → Prop}
    (hI : ∀ tr s e s', I tr s → ((asyncDb B).restrict P).step s e s' → I (e :: tr) s')
    {cs : List Choice} {x x' : List Event × State B} (hx : I x.1 x.2) (h : run P cs x = some x') :
    I x'.1 x'.2 := by
  induction cs generalizing x with
  | nil =>
    obtain rfl := Option.some.inj h
    exact hx
  | cons c cs ih =>
    simp only [run, Option.bind_eq_bind, Option.bind_eq_some_iff] at h
    obtain ⟨⟨e, s⟩, hs, h⟩ := h
    split at h
    · exact ih (x := (e :: x.1, s)) (hI _ _ _ _ hx ⟨State.next_sound _ hs, ‹_›⟩) h
    · cases h

/-- What a schedule leads to is a run. -/
theorem run_sound {P : State B → Event → Prop} [∀ s e, Decidable (P s e)] {cs : List Choice}
    {x x' : List Event × State B} (hx : ((asyncDb B).restrict P).Run x.1 x.2)
    (h : run P cs x = some x') : ((asyncDb B).restrict P).Run x'.1 x'.2 :=
  run_induction (fun _ _ _ _ hr hst => .step hr hst) hx h

/-- It is a path from any state on. -/
theorem run_path {P : State B → Event → Prop} [∀ s e, Decidable (P s e)] {cs : List Choice}
    {s : State B} {x : List Event × State B} (h : run P cs ([], s) = some x) :
    ((asyncDb B).restrict P).Path s x.1 x.2 :=
  run_induction (fun _ _ _ _ hp hst => .step hp hst) (.refl s) h

/-- The annotated trace and the state that a schedule leads to. -/
def annotatedRun {M : Type} (f : State B → Event → State B → M) :
    List Choice → List (Event × M) × State B → Option (List (Event × M) × State B)
  | [], x => some x
  | c :: cs, x => do
    let (e, s) ← x.2.next c
    annotatedRun f cs ((e, f x.2 e s) :: x.1, s)

theorem annotatedRun_sound {M : Type} {f : State B → Event → State B → M} {cs : List Choice}
    {x x' : List (Event × M) × State B} (hx : ((asyncDb B).annotate f).Run x.1 x.2)
    (h : annotatedRun f cs x = some x') : ((asyncDb B).annotate f).Run x'.1 x'.2 := by
  induction cs generalizing x with
  | nil =>
    obtain rfl := Option.some.inj h
    exact hx
  | cons c cs ih =>
    simp only [annotatedRun, Option.bind_eq_bind, Option.bind_eq_some_iff] at h
    obtain ⟨⟨e, s⟩, hs, h⟩ := h
    exact ih (x := ((e, f x.2 e s) :: x.1, s)) (.step hx ⟨State.next_sound _ hs, rfl⟩) h

/-! ## A scripted backend -/

/-- The failure of a scripted statement. -/
def scriptedError : DbError where
  sts := .constraintViolation
  message := "duplicate key"
  sqlState := "23505"

/-- A backend that reads off the script whether the next statement succeeds. -/
def scripted : Backend where
  Db := List Bool
  Query := Unit
  prepare db _ _ _ _ := (.ok (), db)
  execute db _ _ := (if db.headD true then none else some scriptedError, db.tail, ())
  fetch db _ := (.ok false, db, ())
  commit db := (.success, db)
  rollback db := (.success, db)

/-- The run of a schedule on a script. -/
def scriptedRun (P : State scripted → Event → Prop) [∀ s e, Decidable (P s e)]
    (script : List Bool) (cs : List Choice) : Option (List Event × State scripted) :=
  run P cs ([], { db := script })

theorem scriptedRun_sound {P : State scripted → Event → Prop} [∀ s e, Decidable (P s e)]
    {script : List Bool} {cs : List Choice} {x : List Event × State scripted}
    (h : scriptedRun P script cs = some x) : ((asyncDb scripted).restrict P).Run x.1 x.2 :=
  @run_sound scripted P _ cs ([], { db := script }) x (.init ⟨script, rfl⟩) h

/-- An insert of one four-byte value. -/
def insertType : StmtType := ⟨[4], 1, false⟩

/-- The buffer of the insert, holding `n`. -/
def insertParams (n : UInt8) : ParamBuffer :=
  ⟨1, [⟨4, [n, 0, 0, 0], [4]⟩], by simp [ParamColumn.Sized]⟩

/-- Prepare `n` rows of the insert; the job runs while the client waits. -/
def prepareRows (n : Nat) : List Choice :=
  [.call (.prepare insertType "insert" n 1), .client, .client, .worker, .worker, .worker, .worker,
    .worker, .client, .client, .client]

/-- Prepare one row. -/
def prepareInsert : List Choice := prepareRows 1

end Dbgen4.Async
