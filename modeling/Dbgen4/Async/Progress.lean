import Dbgen4.Async.Calls

/-!
# The asynchronous facade: progress

A job that came upon a null task is never done with, and neither is any job after
it (`finished_of_crashed`); a copy of parameters that runs out of bounds is not
what a worker crashes for (`null_of_crashed`). As long as no job is enqueued whose
task is null (`NamesTask`), no job is left behind (`progress`): while one is
pending or in hand, the worker is awake and can step, or the client is about to
wake it.
-/

namespace Dbgen4.Async

open Rtl

variable {B : Backend} {tr : List Event} {s s' : State B} {e : Event}

/-- The destructor has set `stop_`. -/
def ClientPc.stopped : ClientPc → Bool
  | .notifyStop | .join | .ret .destroyed | .destroyed => true
  | _ => false

/-- The worker sleeps through no job, and leaves none behind. -/
structure Awake (s : State B) : Prop where
  asleep : s.worker = .asleep → s.pending.isSome → ∃ c, s.client = .notify c
  exited : s.worker = .exited → s.stop
  stop : s.stop → s.client.stopped

theorem ClientPc.atRest_of_stopped {pc : ClientPc} (h : pc.stopped) : pc.atRest := by
  cases pc with
  | ret r =>
    cases r <;> first
    | rfl
    | cases h
  | notifyStop | join | destroyed => rfl
  | _ => cases h

theorem Awake.client (ha : Awake s) (h : ClientStep s e s') : Awake s' := by
  refine ⟨fun hw hp => ?_, fun hw => ?_, fun hs => ?_⟩
  · -- A job that is stored is about to be told of; no other step finds the worker asleep.
    cases h with
    | store _ _ _ | slotStore _ _ => exact ⟨_, rfl⟩
    | notify _ | notifyStop _ =>
      dsimp only at hw
      cases hs : s.worker <;> rw [hs] at hw <;> cases hw
    | _ =>
      obtain ⟨c, hc⟩ := ha.asleep hw hp
      simp_all
  · have hw : s.worker = .exited := by
      rcases h.worker with h | h <;> rw [h] at hw
      · exact hw
      · cases hs : s.worker <;> rw [hs] at hw <;> first
        | rfl
        | cases hw
    have hs := ha.exited hw
    cases h <;> first
    | exact hs
    | rfl
  · cases h with
    | setStop _ => rfl
    | notifyStop _ => rfl
    | join _ _ => rfl
    | @ret r hc =>
      have := ha.stop hs
      rw [hc] at this
      cases r <;> first
      | rfl
      | cases this
    | write hc _ _ | isFinished hc | error hc | call hc _ | discard hc _ | store hc _ _
    | blocked hc _ _ | slotSpurious hc | slotStore hc _ | slotSleep hc _ | notify hc | drained hc _
    | drainSleep hc _ | drainSpurious hc | readExec hc | readSync hc | readFetch hc
    | readCommit hc | assembleError hc _ | assembleCrash hc _ _ _ | assemble hc _ _
    | clearCommit hc | clearRollback hc =>
      have := ha.stop hs
      rw [hc] at this
      cases this

theorem Awake.worker (ha : Awake s) (h : WorkerStep s e s') : Awake s' := by
  have hstop : s'.stop = s.stop := by
    cases h <;> rfl
  refine ⟨fun hw hp => ?_, fun hw => ?_, fun hs => ?_⟩
  · cases h with
    | sleep _ hn _ =>
      rw [hn] at hp
      cases hp
    | _ => cases hw
  · cases h with
    | exit _ _ hs => exact hs
    | _ => cases hw
  · have hc := ha.stop (hstop ▸ hs)
    rcases h.client with h | h <;> rw [h]
    · exact hc
    · cases hp : s.client <;> rw [hp] at hc <;> exact hc

theorem awake (h : (asyncDb B).Run tr s) : Awake s := by
  refine h.invariant (I := fun _ s => Awake s) ?_ ?_
  · rintro _ ⟨db, rfl⟩
    exact ⟨fun hw => (by cases hw), fun hw => (by cases hw), fun hs => (by cases hs)⟩
  · rintro tr s e s' - ha (h | h)
    · exact ha.client h
    · exact ha.worker h

/-- When a job is about to execute its statement, its task is not null. -/
theorem task_of_execute (h : (asyncDb B).Run tr s) {qj : QueuedJob}
    (hw : s.worker = .run qj .execute) {i : Nat} {snap : ParamSnapshot}
    (hj : qj.fn.statement = some (i, snap)) : ∃ t, s.task i = some t := by
  refine h.invariant (I := fun _ s => ∀ qj i snap, s.worker = .run qj .execute →
    qj.fn.statement = some (i, snap) → ∃ t, s.task i = some t) ?_ ?_ qj i snap hw hj
  · rintro _ ⟨db, rfl⟩ qj i snap hw
    cases hw
  · rintro tr s e s' hr ih (h | h) qj i snap hw hj
    · have hw := h.run hw
      rw [State.task, h.tasks_eq hr (by rw [hw]; rfl)]
      exact ih qj i snap hw hj
    · cases h with
      | @restore qj' i' snap' t' par hw' hj' ht' hp =>
        cases hw
        obtain ⟨rfl, rfl⟩ := Prod.mk.inj (Option.some.inj (hj'.symm.trans hj))
        refine ⟨{ t' with par := par }, ?_⟩
        rw [State.task_eq] at ht' ⊢
        exact List.getElem?_set_self (List.getElem?_eq_some_iff.1 ht').1
      | slotFree _ => exact absurd (WorkerPc.run.inj hw).2 (Job.entry_ne_execute _)
      | check _ _ => exact absurd (WorkerPc.run.inj hw).2 (Job.afterCheck_ne_execute _)
      | execute _ _ _ _ => exact absurd (WorkerPc.run.inj hw).2 (Job.afterExecute_ne_execute _ _)
      | _ => cases hw

theorem Op.Posts.taskId {op : Op} {held : Option ParamBuffer} {qj : QueuedJob}
    (h : op.Posts held qj) (hj : qj.fn.isQuery) : ∃ i, qj.taskId = some i := by
  cases h <;> first
  | exact ⟨_, rfl⟩
  | cases hj

/-- A job can always go on, unless its task was null. -/
theorem run_steps (h : (asyncDb B).Run tr s) {qj : QueuedJob} {st : Stage}
    (hw : s.worker = .run qj st) : ∃ e s', WorkerStep s e s' := by
  have hst := hasStage h hw
  cases st with
  | check =>
    cases he : s.error with
    | none => exact ⟨_, _, .check hw he⟩
    | some e => exact ⟨_, _, .skip hw (by rw [he]; rfl)⟩
  | restore =>
    obtain ⟨⟨i, snap⟩, hj⟩ := Option.isSome_iff_exists.1 hst
    cases ht : s.task i with
    | none => exact ⟨_, _, .restoreNull hw hj ht⟩
    | some t =>
      cases hp : if t.stmt.hasParameters then restoreParams t.par snap else some t.par with
      | some par => exact ⟨_, _, .restore hw hj ht hp⟩
      | none =>
        split at hp
        · rename_i hpar
          exact ⟨_, _, .restoreOverflow hw hj ht hpar hp⟩
        · cases hp
  | execute =>
    -- The task was there when the parameters were restored, and stays.
    obtain ⟨⟨i, snap⟩, hj⟩ := Option.isSome_iff_exists.1 hst
    obtain ⟨t, ht⟩ := task_of_execute h hw hj
    rcases hx : B.execute s.db t.query t.par with ⟨_ | e, db, query⟩
    · exact ⟨_, _, .execute hw hj ht hx⟩
    · exact ⟨_, _, .executeError hw hj ht hx⟩
  | fetch =>
    obtain ⟨-, k, hk⟩ := accepted_inHand h (congrArg WorkerPc.inHand hw)
    obtain ⟨op, held, -, hp⟩ := called_accepted h (List.mem_of_getElem? hk)
    obtain ⟨i, hi⟩ := hp.taskId hst
    cases ht : s.task i with
    | none => exact ⟨_, _, .fetchNull hw hi ht⟩
    | some t =>
      rcases hx : B.fetch s.db t.query with ⟨e | b, db, query⟩
      · exact ⟨_, _, .fetchError hw hi ht hx⟩
      · exact ⟨_, _, .fetch hw hi ht hx⟩
  | note e =>
    cases he : s.error with
    | none => exact ⟨_, _, .record hw he⟩
    | some e' => exact ⟨_, _, .keep hw (by rw [he]; rfl)⟩
  | direct =>
    cases hj : qj.fn with
    | prepare stmt sql n m =>
      rcases hx : B.prepare s.db stmt sql (stmt.makeParams n) m with ⟨e | query, db⟩
      · exact ⟨_, _, .prepareError hw hj hx⟩
      · exact ⟨_, _, .prepare hw hj hx⟩
    | commit => exact ⟨_, _, .commit hw hj (Prod.eta _).symm⟩
    | rollbackIgnored => exact ⟨_, _, .rollbackIgnored hw hj (Prod.eta _).symm⟩
    | rollback => exact ⟨_, _, .rollback hw hj (Prod.eta _).symm⟩
    | _ => rw [hj] at hst; cases hst
  | done => exact ⟨_, _, .finish hw⟩

theorem Op.Posts.taskId_of_statement {op : Op} {held : Option ParamBuffer} {qj : QueuedJob}
    (h : op.Posts held qj) {i : Nat} {snap : ParamSnapshot}
    (hj : qj.fn.statement = some (i, snap)) : qj.taskId = some i := by
  cases h <;> first
  | (cases hj; rfl)
  | cases hj

/-- A job that has crashed came upon a null task: no copy of parameters runs out of
    bounds. -/
theorem null_of_crashed (h : (asyncDbKeeping B).Run tr s) {qj : QueuedJob}
    (hw : s.worker = .crashed qj) : ∃ i, qj.taskId = some i ∧ s.task i = none := by
  refine h.invariant (I := fun _ s => ∀ qj, s.worker = .crashed qj →
    ∃ i, qj.taskId = some i ∧ s.task i = none) ?_ ?_ qj hw
  · rintro _ ⟨db, rfl⟩ qj hw
    cases hw
  · rintro tr s e s' hr ih ⟨h | h, -⟩ qj hw
    · have hw : s.worker = .crashed qj := by
        rcases h.worker with h | h <;> rw [h] at hw
        · exact hw
        · cases hs : s.worker <;> rw [hs] at hw <;> first
          | exact hw
          | cases hw
      obtain ⟨i, hi, ht⟩ := ih qj hw
      refine ⟨i, hi, ?_⟩
      rw [State.task, h.tasks_eq hr.of_restrict (by rw [hw]; rfl)]
      exact ht
    · cases h with
      | restoreOverflow hw' hj ht hp hover =>
        -- The snapshot fits, so that this step is not taken.
        cases hw
        obtain ⟨k, par, -, -, rfl, hs, -⟩ := carried hr (by rw [hw']; rfl) hj ht
        rw [restoreParams_snapshotParams hs] at hover
        cases hover
      | restoreNull hw' hj ht =>
        cases hw
        obtain ⟨-, k, hk⟩ := accepted_inHand hr.of_restrict (congrArg WorkerPc.inHand hw')
        obtain ⟨op, held, -, hp, -⟩ := origin_accepted hr (List.mem_of_getElem? hk)
        exact ⟨_, hp.taskId_of_statement hj, ht⟩
      | fetchNull _ hi ht =>
        cases hw
        exact ⟨_, hi, ht⟩
      | _ => cases hw

/-- Once the worker has crashed, no job is ever done again. -/
theorem finished_of_crashed (h : (asyncDb B).Path s tr s') {qj : QueuedJob}
    (hw : s.worker = .crashed qj) : s'.worker = .crashed qj ∧ finished tr = [] := by
  refine h.invariant (I := fun tr s' => s'.worker = .crashed qj ∧ finished tr = []) ⟨hw, rfl⟩ ?_
  rintro tr s₁ e s₂ - ⟨hw, hf⟩ (h | h)
  · refine ⟨?_, ?_⟩
    · rcases h.worker with h | h <;> rw [h, hw]
      rfl
    · rw [finished_cons, hf]
      rcases h.slot with ⟨_, rfl, -⟩ | ⟨hn, -⟩
      · rfl
      · rw [(Event.of_act_none hn).2.2]
        rfl
  · cases h <;> cases hw.symm.trans ‹s₁.worker = _›

/-! ## Jobs whose task is not null -/

/-- A job that is enqueued names no task, or one that is not null: no handle is used that a
    `prepare` returned whose job was dropped. -/
def NamesTask (s : State B) : Event → Prop
  | .enqueue qj => ∀ i ∈ qj.taskId, (s.task i).isSome
  | _ => True

instance (s : State B) (e : Event) : Decidable (NamesTask s e) :=
  match e with
  | .enqueue qj => inferInstanceAs (Decidable (∀ i ∈ qj.taskId, (s.task i).isSome))
  | .call .. | .write .. | .isFinished _ | .error _ | .discard _ | .blocked _ | .clear | .ret _
  | .start _ | .skip _ | .execute .. | .fetch .. | .record _ | .prepare _ | .commit _
  | .rollback _ | .finish _ | .tau => isTrue trivial

/-- `async_db` under callers that keep the rows of their buffers, and whose jobs name tasks. -/
def asyncDbNaming (B : Backend) : Lts (State B) Event :=
  (asyncDb B).restrict fun s e => KeepsRows s e ∧ NamesTask s e

theorem keeping_of_naming (h : (asyncDbNaming B).Run tr s) : (asyncDbKeeping B).Run tr s :=
  h.restrict_mono fun _ _ hp => hp.1

/-- The task of a job that is pending or in hand is not null: it was not when the job was
    enqueued. -/
theorem live (h : (asyncDbNaming B).Run tr s) {qj : QueuedJob} (hj : s.slot.Has qj) {i : Nat}
    (hi : qj.taskId = some i) : (s.task i).isSome := by
  refine h.invariant (I := fun _ s => ∀ qj, s.slot.Has qj → ∀ i, qj.taskId = some i →
    (s.task i).isSome) ?_ ?_ qj hj i hi
  · rintro _ ⟨db, rfl⟩ qj (h | h) <;> cases h
  · rintro tr s e s' - ih ⟨hst, -, hn⟩ qj hj i hi
    refine isSome_task_step hst ?_
    rcases has_step hst hj with hj | rfl
    · exact ih qj hj i hi
    · exact hn i hi

/-- The worker does not crash. -/
theorem not_crashed (h : (asyncDbNaming B).Run tr s) (qj : QueuedJob) : s.worker ≠ .crashed qj := by
  intro hw
  obtain ⟨i, hi, ht⟩ := null_of_crashed (keeping_of_naming h) hw
  have hs := live h (.inr (congrArg WorkerPc.inHand hw)) hi
  rw [ht] at hs
  cases hs

/-- No job is left behind: while one is pending or in hand, the worker is awake and can step, or
    the client is about to wake it. -/
theorem progress (h : (asyncDbNaming B).Run tr s) (hn : s.slot ≠ ⟨none, none⟩) :
    (s.worker ≠ .asleep ∧ ∃ e s', WorkerStep s e s') ∨ ∃ c, s.client = .notify c := by
  have ha := awake h.of_restrict
  cases hw : s.worker with
  | top =>
    cases hp : s.pending with
    | none => exact absurd (by rw [State.slot, hp, hw]; rfl) hn
    | some qj => exact .inl ⟨fun hs => WorkerPc.noConfusion hs, _, _, .take hw hp⟩
  | asleep =>
    cases hp : s.pending with
    | none => exact absurd (by rw [State.slot, hp, hw]; rfl) hn
    | some qj => exact .inr (ha.asleep hw (by rw [hp]; rfl))
  | took qj => exact .inl ⟨fun hs => WorkerPc.noConfusion hs, _, _, .slotFree hw⟩
  | run qj st => exact .inl ⟨fun hs => WorkerPc.noConfusion hs, run_steps h.of_restrict hw⟩
  | notify => exact .inl ⟨fun hs => WorkerPc.noConfusion hs, _, _, .notify hw⟩
  | exited =>
    have hr := ClientPc.atRest_of_stopped (ha.stop (ha.exited hw))
    exact absurd (slot_of_atRest h.of_restrict hr) hn
  | crashed qj => exact absurd hw (not_crashed h qj)

end Dbgen4.Async
