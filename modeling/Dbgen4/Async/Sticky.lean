import Dbgen4.Async.Schedule
import Dbgen4.Async.Errors

/-!
# The asynchronous facade: statements after an error

A stored error is to keep every later statement from the database until it is
cleared (`StickyError`). `post_to_worker` and `execute_sync` look at `error_`,
but the jobs of `submit` and `exec` do not look again when they run, so that one
that is already past `post_to_worker`'s look runs after the error is stored
(`overtakenRun`). When there is none whenever an error is stored
(`RecordsAlone`), the error does keep them all (`sticky_of_recordsAlone`).
-/

namespace Dbgen4.Async

open Rtl

variable {B : Backend} {tr : List Event} {s s' : State B} {e : Event}

/-- No statement has been executed while an error was stored. -/
def StickyError (tr : List Event) : Prop :=
  ∀ tr' qj par out, .execute qj par out :: tr' <:+ tr → pendingError tr' = none

/-- The job that is past `post_to_worker`'s look at `error_`, and waits for the slot. -/
def ClientPc.waiting : ClientPc → Option QueuedJob
  | .slotAsleep _ qj | .slotAwake _ qj => some qj
  | _ => none

/-- An error is stored only while no job of `submit` or `exec` is in the slot or waits
    for it. -/
def RecordsAlone (s : State B) (e : Event) : Prop :=
  ∀ err, e = .record err → (∀ qj ∈ s.pending, qj.fn.isUnattended = false) ∧
    ∀ qj ∈ s.client.waiting, qj.fn.isUnattended = false

/-- The worker is on its way to execute the statement of a job without looking at the
    error any more. -/
def WorkerPc.committed : WorkerPc → Bool
  | .took qj => qj.fn.isUnattended
  | .run _ st => match st with
    | .restore | .execute => true
    | _ => false
  | _ => false

/-- No job is past the last look it takes at the error. -/
structure Quiet (s : State B) : Prop where
  pending : ∀ qj ∈ s.pending, qj.fn.isUnattended = false
  waiting : ∀ qj ∈ s.client.waiting, qj.fn.isUnattended = false
  worker : s.worker.committed = false

@[simp] theorem committed_notified (pc : WorkerPc) : pc.notified.committed = pc.committed := by
  cases pc <;> rfl

@[simp] theorem waiting_notified (pc : ClientPc) : pc.notified.waiting = pc.waiting := by
  cases pc <;> rfl

@[simp] theorem waiting_next (c : PostCtx) : c.next.waiting = none := by
  cases c <;> rfl

@[simp] theorem waiting_begin (s : State B) (op : Op) : (s.begin op).waiting = none := by
  rcases begin_cases s op with ⟨c, qj, h, -⟩ | ⟨d, h, -⟩ | ⟨r, h, -⟩ | h <;> rw [h] <;> rfl

/-- A job comes past the look at the error only while there is none, or in spite of it. -/
theorem ClientStep.passes (h : ClientStep s e s') {qj : QueuedJob}
    (hq : s'.pending = some qj ∨ s'.client.waiting = some qj) :
    (s.pending = some qj ∨ s.client.waiting = some qj) ∨
      s.error = none ∨ s.client.insists = some qj := by
  cases h with
  | @store c qj' even hc he hp =>
    rcases hq with hq | hq
    · cases hq
      rcases he with he | rfl
      · exact .inr (.inl he)
      · exact .inr (.inr (by rw [hc]; rfl))
    · cases hq
  | blocked hc he hp =>
    rcases hq with hq | hq
    · exact .inl (.inl hq)
    · cases hq
      rcases he with he | rfl
      · exact .inr (.inl he)
      · exact .inr (.inr (by rw [hc]; rfl))
  | slotStore hc hp =>
    -- It came past the look before it waited for the slot.
    rcases hq with hq | hq
    · cases hq
      exact .inl (.inr (by rw [hc]; rfl))
    · cases hq
  | slotSpurious hc | slotSleep hc _ =>
    rcases hq with hq | hq
    · exact .inl (.inl hq)
    · cases hq
      exact .inl (.inr (by rw [hc]; rfl))
  | call _ _ =>
    rcases hq with hq | hq
    · exact .inl (.inl hq)
    · cases (waiting_begin _ _).symm.trans hq
  | discard _ _ | notify _ =>
    rcases hq with hq | hq
    · exact .inl (.inl hq)
    · cases (waiting_next _).symm.trans hq
  | @drained d _ _ =>
    rcases hq with hq | hq
    · exact .inl (.inl hq)
    · rcases d with _ | _ | _ | _ | _ | _ | _ | _ | _ | _ <;> cases hq
  | readCommit _ =>
    rcases hq with hq | hq
    · exact .inl (.inl hq)
    · simp only [State.afterReadCommit] at hq
      split at hq <;> cases hq
  | @ret r _ =>
    rcases hq with hq | hq
    · exact .inl (.inl hq)
    · cases r <;> cases hq
  | write _ _ _ | isFinished _ | error _ => exact .inl hq
  | _ =>
    rcases hq with hq | hq
    · exact .inl (.inl hq)
    · cases hq

/-- While an error is stored, the client lets no job past that would run. -/
theorem Quiet.client (hr : (asyncDb B).Run tr s) (hq : Quiet s) (hs : s.error.isSome)
    (h : ClientStep s e s') : Quiet s' := by
  have hj : ∀ qj, s'.pending = some qj ∨ s'.client.waiting = some qj →
      qj.fn.isUnattended = false := by
    intro qj hqj
    rcases h.passes hqj with (hp | hw) | he | hi
    · exact hq.pending qj hp
    · exact hq.waiting qj hw
    · rw [he] at hs
      cases hs
    · exact attended_of_insists hr hi
  refine ⟨fun qj hp => hj qj (.inl hp), fun qj hw => hj qj (.inr hw), ?_⟩
  rcases h.worker with h | h <;> simpa [h] using hq.worker

theorem Job.entry_committed {qj : QueuedJob} (h : qj.fn.isUnattended = false) :
    (WorkerPc.run qj qj.fn.entry).committed = false := by
  rcases qj with ⟨_ | _ | _ | _ | _ | _ | _ | _, _⟩ <;> first
  | rfl
  | cases h

theorem committed_afterExecute (qj : QueuedJob) (stmt : StmtType) :
    (WorkerPc.run qj (qj.fn.afterExecute stmt)).committed = false := by
  rcases stmt with ⟨_, _, _ | _⟩ <;> rcases qj with ⟨_ | _ | _ | _ | _ | _ | _ | _, _⟩ <;> rfl

/-- While an error is stored, the worker comes to execute no statement. -/
theorem Quiet.worker_step (hq : Quiet s) (hs : s.error.isSome) (h : WorkerStep s e s') :
    Quiet s' := by
  have hc : s'.client.waiting = s.client.waiting := by
    rcases h.client with h | h <;> simp [h]
  have hp : ∀ qj, s'.pending = some qj → s.pending = some qj := by
    cases h with
    | take _ _ => exact nofun
    | _ => exact fun _ h => h
  refine ⟨fun qj h => hq.pending qj (hp qj h), fun qj h => hq.waiting qj (hc ▸ h), ?_⟩
  have hw := hq.worker
  cases h with
  | take _ hqj => exact hq.pending _ hqj
  | slotFree h =>
    rw [h] at hw
    exact Job.entry_committed hw
  | check _ he =>
    rw [he] at hs
    cases hs
  | restore h _ _ _ =>
    rw [h] at hw
    cases hw
  | execute _ _ _ _ => exact committed_afterExecute _ _
  | _ => rfl

/-- When no job is past its last look at the error whenever one is stored, none is while
    one is stored. -/
theorem quiet (h : ((asyncDb B).restrict RecordsAlone).Run tr s) (hs : s.error.isSome) :
    Quiet s := by
  refine h.invariant (I := fun _ s => s.error.isSome → Quiet s) ?_ ?_ hs
  · rintro _ ⟨db, rfl⟩ hs
    cases hs
  · rintro tr s e s' hr ih ⟨h | h, ha⟩ hs
    · rcases h.error_eq hr.of_restrict with ⟨-, he, -⟩ | ⟨-, -, he⟩
      · rw [he] at hs
        cases hs
      · rw [he] at hs
        exact (ih hs).client hr.of_restrict hs h
    · rcases h.error_eq with ⟨err, rfl, -⟩ | ⟨-, he, -⟩
      · -- The error is stored at this very step.
        obtain ⟨hp, hw⟩ := ha err rfl
        cases h
        exact ⟨hp, hw, rfl⟩
      · rw [he] at hs
        exact (ih hs).worker_step hs h

/-- When no job of `submit` or `exec` is in the slot or waits for it whenever an error is
    stored, no statement is executed until the error is cleared. -/
theorem sticky_of_recordsAlone (h : ((asyncDb B).restrict RecordsAlone).Run tr s) :
    StickyError tr := by
  rintro tr' qj par out ⟨tr'', rfl⟩
  obtain ⟨s₁, h₁, -⟩ := h.split
  cases h₁ with
  | @step _ s₀ _ _ hr hst =>
    rw [← error_eq hr.of_restrict, ← Option.not_isSome_iff_eq_none]
    intro hs
    have hw := (quiet hr hs).worker
    rcases hst with ⟨h | h, -⟩
    · cases h
    · cases h with
      | execute hx _ _ _ | executeError hx _ _ _ =>
        rw [hx] at hw
        cases hw

instance (s : State B) (e : Event) : Decidable (RecordsAlone s e) :=
  match e with
  | .record _ => decidable_of_iff ((∀ qj ∈ s.pending, qj.fn.isUnattended = false) ∧
      ∀ qj ∈ s.client.waiting, qj.fn.isUnattended = false)
      ⟨fun h _ _ => h, fun h => h _ rfl⟩
  | .call .. | .write .. | .isFinished _ | .error _ | .discard _ | .blocked _ | .enqueue _
  | .clear | .ret _ | .start _ | .skip _ | .execute .. | .fetch .. | .prepare _ | .commit _
  | .rollback _ | .finish _ | .tau => isTrue fun _ he => by cases he

/-- The run in which a submitted statement fails, and the next one is discarded. -/
def discardedRun : List Event × State scripted :=
  (scriptedRun RecordsAlone [false] (prepareInsert ++ [.call (.submit ⟨some 0⟩), .client, .client,
    .client, .worker, .worker, .worker, .worker, .worker, .call (.submit ⟨some 0⟩), .client,
    .client])).get (by decide)

theorem sticky_discarded : StickyError discardedRun.1 :=
  sticky_of_recordsAlone (scriptedRun_sound (Option.some_get _).symm)

/-- The run in which a second statement is submitted before the failure of the first is
    stored: it is executed all the same. -/
def overtakenRun : List Event × State scripted :=
  (scriptedRun (fun _ _ => True) [false, true] (prepareInsert ++ [.call (.submit ⟨some 0⟩),
    .client, .client, .client, .worker, .worker, .worker, .worker, .call (.submit ⟨some 0⟩),
    .client, .client, .client, .worker, .worker, .worker, .worker, .worker, .worker,
    .worker])).get (by decide)

/-- A statement is executed after an error is stored. -/
theorem not_stickyError :
    ¬∀ (B : Backend) (tr : List Event) (s : State B), (asyncDb B).Run tr s → StickyError tr := by
  intro h
  have hr := h _ _ _ (scriptedRun_sound (x := overtakenRun) (Option.some_get _).symm).of_restrict
  have hx : pendingError overtakenRun.1.tail = none := hr _ _ _ _ ⟨[], rfl⟩
  cases hx.symm.trans (by decide : pendingError overtakenRun.1.tail = some scriptedError)

end Dbgen4.Async
