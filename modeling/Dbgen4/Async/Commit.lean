import Dbgen4.Async.Accept
import Dbgen4.Async.Life

/-!
# The asynchronous facade: transaction boundaries

`commit` drains the queue, reads the error, and then has the worker commit, or
roll back where a statement has failed. Between the read and the end of that
job nothing else is queued or in hand (`alone`), so that what it read is what
holds when the database is called (`commit_sound`).
-/

namespace Dbgen4.Async

open Rtl

variable {B : Backend} {tr : List Event} {s s' : State B} {e : Event}

/-- The failures of statements since the transaction was last ended. -/
def boundaryFailures : List Event → List DbError
  | [] => []
  | .commit _ :: _ => []
  | .rollback _ :: _ => []
  | e :: tr => boundaryFailures tr ++ e.failed.toList

/-- The failures of statements since the error was last cleared before the last call. -/
def callFailures : List Event → List DbError
  | [] => []
  | .call _ _ :: tr => failures tr
  | e :: tr => callFailures tr ++ e.failed.toList

/-- The step commits. -/
def Event.isCommit : Event → Bool
  | .commit _ => true
  | _ => false

/-- The step rolls back. -/
def Event.isRollback : Event → Bool
  | .rollback _ => true
  | _ => false

/-- The call has committed. -/
def committed (tr : List Event) : Bool := since Event.isCommit tr

/-- The call has rolled back. -/
def rolledBack (tr : List Event) : Bool := since Event.isRollback tr

/-- The jobs that roll back. -/
def Job.isRollback : Job → Bool
  | .rollbackIgnored | .rollback => true
  | _ => false

/-- The calls that roll back. -/
def RunCtx.isRollback : RunCtx → Bool
  | .commitUndo _ | .rollbackWork => true
  | _ => false

/-! ## The job of a boundary -/

/-- While a call waits for the job that ends the transaction, this job is the only one. -/
structure Alone (c : RunCtx) (q : Handoff.State QueuedJob) : Prop where
  runs : ∀ qj, q.Has qj → c.Runs qj.fn
  one : q.pending = none ∨ q.inHand = none

theorem Alone.empty (c : RunCtx) : Alone c ⟨none, none⟩ :=
  ⟨fun _ h => (by rcases h with h | h <;> cases h), .inl rfl⟩

theorem atRest_of_posting {pc : ClientPc} {c : RunCtx} {qj : QueuedJob}
    (h : pc.posting = some (.run c, qj)) (hb : c.isBoundary) : pc.atRest := by
  cases pc <;> first
  | (cases h; exact hb)
  | cases h

/-- A call comes to wait only by posting. -/
theorem ClientStep.posting_of_awaits (h : ClientStep s e s') {c : RunCtx}
    (hn : s.client.awaits = none) (hc : s'.client.awaits = some c) :
    ∃ qj, s.client.posting = some (.run c, qj) := by
  cases h with
  | @discard p qj hcl _ =>
    rw [awaits_next] at hc
    cases p with
    | run c' =>
      obtain rfl := Option.some.inj hc
      exact ⟨qj, by rw [hcl]; rfl⟩
    | _ => cases hc
  | @store p qj _ hcl _ _ | @slotStore p qj hcl _ =>
    cases p with
    | run c' =>
      obtain rfl := Option.some.inj hc
      exact ⟨qj, by rw [hcl]; rfl⟩
    | _ => cases hc
  | notify hcl =>
    rw [hcl] at hn
    cases ((awaits_next _).trans hn).symm.trans hc
  | drainSleep hcl _ | drainSpurious hcl =>
    rw [hcl] at hn
    cases hn.symm.trans hc
  | call _ _ => cases (awaits_begin _ _).symm.trans hc
  | @drained d _ _ =>
    rcases d with _ | _ | _ | _ | _ | _ | _ | _ | _ | _ <;> cases hc
  | readCommit _ =>
    simp only [State.afterReadCommit] at hc
    split at hc <;> cases hc
  | @ret r _ => cases r <;> cases hc
  | write _ _ _ | isFinished _ | error _ => cases hn.symm.trans hc
  | _ => cases hc

/-- The job of a boundary is alone. -/
theorem alone (h : (asyncDb B).Run tr s) {c : RunCtx} (hc : s.client.awaits = some c)
    (hb : c.isBoundary) : Alone c s.slot := by
  refine h.invariant (I := fun _ s => ∀ c, s.client.awaits = some c → c.isBoundary →
    Alone c s.slot) ?_ ?_ c hc hb
  · rintro _ ⟨db, rfl⟩ c hc
    cases hc
  · rintro tr s e s' hr ih (h | h) c hc hb
    · rcases h.awaits with ⟨p, qj, hp, -, -, hs, ha⟩ | ⟨-, hs, ha⟩
      · -- The job is stored when nothing is pending or in hand.
        rw [ha] at hc
        cases p with
        | run c' =>
          obtain rfl := Option.some.inj hc
          have h0 := slot_of_atRest hr (atRest_of_posting hp hb)
          have hh : s.worker.inHand = none := congrArg Handoff.State.inHand h0
          rw [hs, hh]
          refine ⟨fun qj' hj => ?_, .inr rfl⟩
          rcases hj with hj | hj
          · cases hj
            exact posts hr hp
          · cases hj
        | _ => cases hc
      · rw [hs]
        rcases ha with ha | ha | ha
        · obtain ⟨qj, hp⟩ := h.posting_of_awaits ha hc
          rw [slot_of_atRest hr (atRest_of_posting hp hb)]
          exact .empty c
        · exact ih c (ha ▸ hc) hb
        · rw [slot_of_drained hr ha]
          exact .empty c
    · -- The worker takes the job, or is done with it.
      have hc' : s.client.awaits = some c := by
        rcases h.client with h | h <;> simpa [h] using hc
      have h0 := ih c hc' hb
      rcases h.slot with ⟨qj, -, hh, hp, hs, -⟩ | ⟨qj, -, hh, hs, -⟩ | ⟨-, hs, -⟩
      · rw [hs]
        refine ⟨fun qj' hj => h0.runs qj' ?_, .inl rfl⟩
        rcases hj with hj | hj
        · cases hj
        · exact .inl (hp.trans hj)
      · rw [hs]
        refine ⟨fun qj' hj => h0.runs qj' ?_, .inr rfl⟩
        rcases hj with hj | hj
        · exact .inl hj
        · cases hj
      · exact hs ▸ h0

/-- What the worker calls the backend for, by the job in hand. -/
theorem WorkerStep.job (hr : (asyncDb B).Run tr s) (h : WorkerStep s e s') :
    (e.failed.isSome → ∃ qj, s.worker.inHand = some qj ∧ qj.fn.isQuery) ∧
      (e.isCommit → ∃ qj, s.worker.inHand = some qj ∧ qj.fn = .commit) ∧
      (e.isRollback → ∃ qj, s.worker.inHand = some qj ∧ qj.fn.isRollback) := by
  have hno : ∀ {P : Prop}, false = true → P := fun h => absurd h Bool.false_ne_true
  cases h with
  | executeError hw _ _ _ =>
    exact ⟨fun _ => ⟨_, congrArg _ hw, Job.isQuery_of_statement (hasStage hr hw)⟩, hno, hno⟩
  | fetchError hw _ _ _ => exact ⟨fun _ => ⟨_, congrArg _ hw, hasStage hr hw⟩, hno, hno⟩
  | commit hw hj _ => exact ⟨hno, fun _ => ⟨_, congrArg _ hw, hj⟩, hno⟩
  | rollbackIgnored hw hj _ | rollback hw hj _ =>
    exact ⟨hno, hno, fun _ => ⟨_, congrArg _ hw, by rw [hj]; rfl⟩⟩
  | _ => exact ⟨hno, hno, hno⟩

theorem stage_of_isRollback {j : Job} {st : Stage} (hj : j.isRollback) (hst : j.hasStage st) :
    st = .direct ∨ st = .done := by
  cases j with
  | rollbackIgnored | rollback =>
    cases st with
    | direct => exact .inl rfl
    | done => exact .inr rfl
    | _ => cases hst
  | _ => cases hj

/-- The job that rolls back is on its way until it does. -/
theorem WorkerStep.undo (hr : (asyncDb B).Run tr s) (h : WorkerStep s e s')
    (hj : ∀ qj, s.slot.Has qj → qj.fn.isRollback) (hp : s.pending.isSome ∨ s.worker.early) :
    e.isRollback ∨ s'.pending.isSome ∨ s'.worker.early := by
  have hst : ∀ qj st, s.worker = .run qj st → qj.fn.isRollback ∧ (st = .direct ∨ st = .done) := by
    intro qj st hw
    have hf := hj qj (.inr (congrArg WorkerPc.inHand hw))
    exact ⟨hf, stage_of_isRollback hf (hasStage hr hw)⟩
  -- So none of the steps of a statement job can be taken now.
  cases h with
  | take _ _ => exact .inr (.inr rfl)
  | exit hw hn _ | sleep hw hn _ =>
    rw [hn, hw] at hp
    rcases hp with hp | hp <;> cases hp
  | spurious hw | finish hw | notify hw =>
    rw [hw] at hp
    rcases hp with hp | hp
    · exact .inr (.inl hp)
    · cases hp
  | slotFree _ => exact .inr (.inr (Job.entry_early _))
  | rollbackIgnored _ _ _ | rollback _ _ _ => exact .inl rfl
  | prepareError hw hf _ | prepare hw hf _ | commit hw hf _ =>
    have hf' := (hst _ _ hw).1
    rw [hf] at hf'
    cases hf'
  | skip hw _ | check hw _ | restore hw _ _ _ | restoreOverflow hw _ _ _ _ | restoreNull hw _ _
  | execute hw _ _ _ | executeError hw _ _ _ | fetch hw _ _ _ | fetchError hw _ _ _
  | fetchNull hw _ _ | record hw _ | keep hw _ =>
    rcases (hst _ _ hw).2 with h | h <;> cases h

/-- A call that rolls back has done so, with no failure since, or its job is on the way. -/
def Undoes (tr : List Event) (s : State B) : Prop :=
  rolledBack tr ∧ boundaryFailures tr = [] ∨ s.pending.isSome ∨ s.worker.early

/-- The client is about to clear the error. -/
def ClientPc.clears : ClientPc → Bool
  | .clearCommit _ | .clearRollback => true
  | _ => false

theorem boundaryFailures_eq_nil (h : boundaryFailures tr = []) (he : e.failed = none) :
    boundaryFailures (e :: tr) = [] := by
  cases e <;> simp_all [boundaryFailures]

/-- A step of the client that ends no call, or of the worker, keeps a rollback done. -/
theorem rolledBack_cons (h : rolledBack tr) (he : e.called = none) : rolledBack (e :: tr) := by
  cases e with
  | call => cases he
  | _ => simp_all [rolledBack, since]

theorem early_notified (pc : WorkerPc) : pc.notified.early = pc.early := by
  cases pc <;> rfl

theorem inHand_of_early {pc : WorkerPc} (h : pc.early) : ∃ qj, pc.inHand = some qj := by
  cases pc <;> first
  | exact ⟨_, rfl⟩
  | cases h

theorem RunCtx.Runs.isRollback {c : RunCtx} {j : Job} (h : c.Runs j) (hc : c.isRollback) :
    j.isRollback := by
  cases c <;> cases j <;> first
  | rfl
  | exact h.elim
  | cases hc

theorem RunCtx.isBoundary_of_isRollback {c : RunCtx} (h : c.isRollback) : c.isBoundary := by
  cases c <;> first
  | rfl
  | cases h

theorem Undoes.tau (h : Undoes tr s) : Undoes (.tau :: tr) s := by
  rcases h with ⟨hr, hb⟩ | h
  · exact .inl ⟨rolledBack_cons hr rfl, boundaryFailures_eq_nil hb rfl⟩
  · exact .inr h

/-- A call that has rolled back and drained the queue has its rollback done. -/
theorem Undoes.of_drained (hr : (asyncDb B).Run tr s) (h : Undoes tr s) (hd : s.Drained) :
    rolledBack tr ∧ boundaryFailures tr = [] := by
  rcases h with h | h | h
  · exact h
  · rw [hd.1] at h
    cases h
  · obtain ⟨qj, hj⟩ := inHand_of_early h
    cases (congrArg Handoff.State.inHand (slot_of_drained hr hd)).symm.trans hj

@[simp] theorem clears_begin (s : State B) (op : Op) : (s.begin op).clears = false := by
  rcases begin_cases s op with ⟨c, qj, h, -⟩ | ⟨d, h, -⟩ | ⟨r, h, -⟩ | h <;> rw [h] <;> rfl

@[simp] theorem clears_notified (pc : ClientPc) : pc.notified.clears = pc.clears := by
  cases pc <;> rfl

/-- A call that rolls back has its job on the way, or done: step of the client. -/
theorem ClientStep.undoes (hr : (asyncDb B).Run tr s) (h : ClientStep s e s')
    (ih : ∀ c, s.client.awaits = some c → c.isRollback → Undoes tr s) :
    (∀ c, s'.client.awaits = some c → c.isRollback → Undoes (e :: tr) s') ∧
      (s'.client.clears → rolledBack (e :: tr) ∧ boundaryFailures (e :: tr) = []) := by
  cases h with
  | store _ _ _ | slotStore _ _ => exact ⟨fun _ _ _ => .inr (.inl rfl), fun h => (by cases h)⟩
  | @discard p qj hc _ =>
    refine ⟨fun c ha hb => ?_, fun hcl => ?_⟩
    · rw [awaits_next] at ha
      cases p with
      | run c' =>
        obtain rfl := Option.some.inj ha
        cases even_of_boundary hr hc (RunCtx.isBoundary_of_isRollback hb)
      | _ => cases ha
    · cases p <;> cases hcl
  | @notify p hc =>
    refine ⟨fun c ha hb => ?_, fun hcl => ?_⟩
    · rw [awaits_next] at ha
      rcases (ih c (by rw [hc]; exact ha) hb).tau with h | h | h
      · exact .inl h
      · exact .inr (.inl h)
      · exact .inr (.inr ((early_notified _).trans h))
    · cases p <;> cases hcl
  | @drained d hc hd =>
    refine ⟨fun c ha _ => ?_, fun hcl => ?_⟩
    · rcases d with _ | _ | _ | _ | _ | _ | _ | _ | _ | _ <;> cases ha
    · have hu : Undoes tr s := by
        rcases d with _ | _ | _ | _ | ⟨_ | _ | _ | _ | _ | _⟩ <;> first
        | exact ih _ (by rw [hc]; rfl) rfl
        | cases hcl
      obtain ⟨h1, h2⟩ := hu.of_drained hr hd
      exact ⟨rolledBack_cons h1 rfl, boundaryFailures_eq_nil h2 rfl⟩
  | drainSleep hc _ | drainSpurious hc =>
    exact ⟨fun c ha hb => (ih c (by rw [hc]; exact ha) hb).tau, fun h => (by cases h)⟩
  | call _ _ =>
    refine ⟨fun c ha _ => ?_, fun hcl => ?_⟩
    · cases (awaits_begin _ _).symm.trans ha
    · cases (clears_begin _ _).symm.trans hcl
  | readCommit _ =>
    simp only [State.afterReadCommit]
    split <;> refine ⟨fun c h => ?_, fun h => ?_⟩ <;> cases h
  | @ret r _ => cases r <;> refine ⟨fun c h => ?_, fun h => ?_⟩ <;> cases h
  | write hc _ _ | isFinished hc | error hc =>
    exact ⟨fun c ha _ => (by cases (congrArg ClientPc.awaits hc).symm.trans ha),
      fun hcl => (by cases (congrArg ClientPc.clears hc).symm.trans hcl)⟩
  | _ => refine ⟨fun c h => ?_, fun h => ?_⟩ <;> cases h

/-- A call that rolls back has its job on the way, or done: step of the worker. -/
theorem WorkerStep.undoes (hr : (asyncDb B).Run tr s) (h : WorkerStep s e s')
    (ih : ∀ c, s.client.awaits = some c → c.isRollback → Undoes tr s)
    (ih' : s.client.clears → rolledBack tr ∧ boundaryFailures tr = []) :
    (∀ c, s'.client.awaits = some c → c.isRollback → Undoes (e :: tr) s') ∧
      (s'.client.clears → rolledBack (e :: tr) ∧ boundaryFailures (e :: tr) = []) := by
  have he : e.called = none := by
    cases h <;> rfl
  obtain ⟨hfail, -, -⟩ := h.job hr
  refine ⟨fun c ha hb => ?_, fun hcl => ?_⟩
  · have hc : s.client.awaits = some c := by
      rcases h.client with h | h <;> simpa [h] using ha
    have hjobs : ∀ qj, s.slot.Has qj → qj.fn.isRollback := fun qj hq =>
      ((alone hr hc (RunCtx.isBoundary_of_isRollback hb)).runs qj hq).isRollback hb
    rcases ih c hc hb with ⟨h1, h2⟩ | hp
    · -- It has rolled back already, and a job that rolls back never fails.
      have hf : e.failed = none := by
        rw [← Option.not_isSome_iff_eq_none]
        intro hs
        obtain ⟨qj, hw, hq⟩ := hfail hs
        have hj := hjobs qj (.inr hw)
        cases hfn : qj.fn <;> rw [hfn] at hj hq <;> first
        | cases hj; done
        | cases hq
      exact .inl ⟨rolledBack_cons h1 he, boundaryFailures_eq_nil h2 hf⟩
    · rcases h.undo hr hjobs hp with hx | hp
      · cases e <;> first
        | exact .inl ⟨rfl, rfl⟩
        | cases hx
      · exact .inr hp
  · have hc : s.client.clears := by
      rcases h.client with h | h <;> simpa [h] using hcl
    have hh : s.worker.inHand = none := by
      refine congrArg Handoff.State.inHand (slot_of_atRest hr ?_)
      cases hs : s.client <;> rw [hs] at hc <;> first
      | rfl
      | cases hc
    obtain ⟨h1, h2⟩ := ih' hc
    refine ⟨rolledBack_cons h1 he, boundaryFailures_eq_nil h2 ?_⟩
    rw [← Option.not_isSome_iff_eq_none]
    intro hs
    obtain ⟨qj, hw, -⟩ := hfail hs
    cases hh.symm.trans hw

/-- A call that rolls back clears the error only after it has rolled back. -/
theorem undoes (h : (asyncDb B).Run tr s) :
    (∀ c, s.client.awaits = some c → c.isRollback → Undoes tr s) ∧
      (s.client.clears → rolledBack tr ∧ boundaryFailures tr = []) := by
  refine h.invariant (I := fun tr s =>
    (∀ c, s.client.awaits = some c → c.isRollback → Undoes tr s) ∧
      (s.client.clears → rolledBack tr ∧ boundaryFailures tr = [])) ?_ ?_
  · rintro _ ⟨db, rfl⟩
    refine ⟨fun c h => ?_, fun h => ?_⟩ <;> cases h
  · rintro tr s e s' hr ⟨ih, ih'⟩ (h | h)
    · exact h.undoes hr ih
    · exact h.undoes hr ih ih'

/-! ## The call of `commit` -/

/-- Where the client is in a call of `commit`. -/
inductive CommitAt
  | elsewhere
  | draining
  | undoing (e : DbError)
  | working
  | clearing (e : DbError)
  | returning (r : Except DbError Unit)

/-- The calls of `run_on_worker` that `commit` makes. -/
def RunCtx.commitAt : RunCtx → CommitAt
  | .commitUndo e => .undoing e
  | .commitWork => .working
  | _ => .elsewhere

/-- The jobs that `commit` posts. -/
def PostCtx.commitAt : PostCtx → CommitAt
  | .run c => c.commitAt
  | _ => .elsewhere

/-- The drains of `commit`. -/
def DrainCtx.commitAt : DrainCtx → CommitAt
  | .commit => .draining
  | .run c => c.commitAt
  | _ => .elsewhere

/-- The results of `commit`. -/
def Result.commitAt : Result → CommitAt
  | .commit r => .returning r
  | _ => .elsewhere

/-- Where the client is in a call of `commit`. -/
def ClientPc.commitAt : ClientPc → CommitAt
  | .drain d | .drainAsleep d => d.commitAt
  | .readCommit => .draining
  | .post c _ _ | .slotAsleep c _ | .slotAwake c _ | .notify c => c.commitAt
  | .clearCommit e => .clearing e
  | .ret r => r.commitAt
  | _ => .elsewhere

@[simp] theorem commitAt_notified (pc : ClientPc) : pc.notified.commitAt = pc.commitAt := by
  cases pc <;> rfl

@[simp] theorem commitAt_next (c : PostCtx) : c.next.commitAt = c.commitAt := by
  cases c <;> rfl

@[simp] theorem commitAt_result_next (r : Result) : r.next.commitAt = .elsewhere := by
  cases r <;> rfl

/-- What the trace tells of a call of `commit` that is at a point of it. -/
def CommitProgress (tr : List Event) : CommitAt → Prop
  | .elsewhere => True
  | .draining => committed tr = false ∧ rolledBack tr = false ∧ callFailures tr = failures tr
  | .undoing e | .clearing e => committed tr = false ∧ (callFailures tr).head? = some e
  | .working => callFailures tr = [] ∧ failures tr = []
  | .returning r => callFailures tr ≠ [] → committed tr = false ∧ rolledBack tr ∧
      ∃ e, (callFailures tr).head? = some e ∧ r = .error e

/-- A step that is neither a call nor a failure, and neither ends the transaction nor
    clears the error. -/
def Event.isQuiet : Event → Bool
  | .call _ _ | .commit _ | .rollback _ | .clear => false
  | e => e.failed.isNone

theorem readings_of_quiet (tr : List Event) (h : e.isQuiet) : committed (e :: tr) = committed tr ∧
    rolledBack (e :: tr) = rolledBack tr ∧ callFailures (e :: tr) = callFailures tr ∧
      failures (e :: tr) = failures tr := by
  cases e with
  | execute qj par out =>
    cases out with
    | none => exact ⟨rfl, rfl, List.append_nil _, List.append_nil _⟩
    | some err => cases h
  | fetch qj out =>
    cases out with
    | ok b => exact ⟨rfl, rfl, List.append_nil _, List.append_nil _⟩
    | error err => cases h
  | call | commit | rollback | clear => cases h
  | _ => exact ⟨rfl, rfl, List.append_nil _, List.append_nil _⟩

theorem CommitProgress.quiet {at' : CommitAt} (hp : CommitProgress tr at') (h : e.isQuiet) :
    CommitProgress (e :: tr) at' := by
  obtain ⟨h1, h2, h3, h4⟩ := readings_of_quiet tr h
  cases at' <;> simp only [CommitProgress, h1, h2, h3, h4] at hp ⊢ <;> exact hp

theorem commitProgress_begin (s : State B) (op : Op) (held : Option ParamBuffer) :
    CommitProgress (.call op held :: tr) (s.begin op).commitAt := by
  cases op with
  | commit => exact ⟨rfl, rfl, (List.append_nil _).symm⟩
  | prepare | drain | rollback | destroy => trivial
  | submit h | exec h =>
    rcases h with ⟨_ | i⟩
    · trivial
    · simp only [State.begin]
      cases s.snapshot i <;> trivial
  | executeSync h =>
    rcases h with ⟨_ | i⟩
    · trivial
    · simp only [State.begin]
      cases s.snapshotSync i <;> trivial
  | fetchMore h => rcases h with ⟨_ | i⟩ <;> trivial

theorem CommitProgress.client (hr : (asyncDb B).Run tr s)
    (hp : CommitProgress tr s.client.commitAt) (h : ClientStep s e s') :
    CommitProgress (e :: tr) s'.client.commitAt := by
  cases h with
  | call _ _ => exact commitProgress_begin ..
  | @discard c _ hc _ | @notify c hc =>
    dsimp only
    rw [commitAt_next]
    rw [hc] at hp
    exact hp.quiet rfl
  | store hc _ _ | blocked hc _ _ | slotSpurious hc | slotStore hc _ | slotSleep hc _
  | drainSleep hc _ | drainSpurious hc =>
    rw [hc] at hp
    exact hp.quiet rfl
  | write _ _ _ | isFinished _ | error _ => exact hp.quiet rfl
  | @drained d hc _ =>
    rw [hc] at hp
    rcases d with _ | _ | _ | _ | ⟨_ | _ | _ | _ | _ | _⟩
    case run.commitWork => exact fun hn => absurd (List.append_eq_nil_iff.2 ⟨hp.1, rfl⟩) hn
    all_goals first
    | trivial
    | exact hp.quiet rfl
  | readCommit hc =>
    -- The worker is at rest, so that the error read is the first failure since it was cleared.
    have herr := error_of_inHand hr
      (congrArg Handoff.State.inHand (slot_of_atRest hr (by rw [hc]; rfl)))
    rw [hc] at hp
    have hp' : CommitProgress (.error s.error :: tr) .draining := hp.quiet rfl
    obtain ⟨h1, -, h3⟩ := hp'
    have h4 : failures (.error s.error :: tr) = failures tr := List.append_nil _
    simp only [State.afterReadCommit]
    cases he : s.error with
    | some err =>
      rw [he] at h1 h3 h4 herr
      exact ⟨h1, by rw [h3, h4, ← herr]⟩
    | none =>
      rw [he] at h3 h4 herr
      have hf := h4.trans (List.head?_eq_none_iff.1 herr.symm)
      exact ⟨h3.trans hf, hf⟩
  | @clearCommit err hc =>
    have hu := (undoes hr).2 (by rw [hc]; rfl)
    rw [hc] at hp
    obtain ⟨h1, h2⟩ := hp
    have h3 : callFailures (.clear :: tr) = callFailures tr := List.append_nil _
    exact fun _ => ⟨h1, rolledBack_cons hu.1 rfl, err, by rw [h3, h2], rfl⟩
  | clearRollback _ => trivial
  | ret _ =>
    dsimp only
    rw [commitAt_result_next]
    trivial
  | _ => trivial

theorem RunCtx.commitAt_inj {c c' : RunCtx} (h : c'.commitAt = c.commitAt)
    (hn : c.commitAt ≠ .elsewhere) : c' = c := by
  cases c <;> first
  | exact absurd rfl hn
  | (cases c' <;> cases h; rfl)

theorem PostCtx.waits_of_commitAt {p : PostCtx} {c : RunCtx} (h : p.commitAt = c.commitAt)
    (hn : c.commitAt ≠ .elsewhere) : p = .run c := by
  cases p with
  | run c' => exact congrArg _ (RunCtx.commitAt_inj h hn)
  | _ => exact absurd h.symm hn

theorem DrainCtx.waits_of_commitAt {d : DrainCtx} {c : RunCtx} (h : d.commitAt = c.commitAt)
    (hn : c.commitAt ≠ .elsewhere) : d = .run c := by
  cases d with
  | run c' => exact congrArg _ (RunCtx.commitAt_inj h hn)
  | commit => cases c <;> cases h
  | _ => exact absurd h.symm hn

theorem RunCtx.commitAt_ne {c : RunCtx} : (∀ e, c.commitAt ≠ .clearing e) ∧
    ∀ r, c.commitAt ≠ .returning r := by
  cases c <;> refine ⟨fun e h => ?_, fun r h => ?_⟩ <;> cases h

theorem PostCtx.commitAt_ne {p : PostCtx} : (∀ e, p.commitAt ≠ .clearing e) ∧
    (∀ r, p.commitAt ≠ .returning r) := by
  cases p with
  | run c => exact c.commitAt_ne
  | _ => refine ⟨fun e h => ?_, fun r h => ?_⟩ <;> cases h

theorem DrainCtx.commitAt_ne {d : DrainCtx} : (∀ e, d.commitAt ≠ .clearing e) ∧
    (∀ r, d.commitAt ≠ .returning r) := by
  cases d with
  | run c => exact c.commitAt_ne
  | _ => refine ⟨fun e h => ?_, fun r h => ?_⟩ <;> cases h

theorem atRest_of_clearing {pc : ClientPc} {e : DbError} (h : pc.commitAt = .clearing e) :
    pc.atRest := by
  cases pc with
  | post p | slotAsleep p | slotAwake p | notify p => exact absurd h (p.commitAt_ne.1 e)
  | drain d | drainAsleep d => exact absurd h (d.commitAt_ne.1 e)
  | clearCommit => rfl
  | ret r => cases r <;> cases h
  | _ => cases h

theorem atRest_of_returning {pc : ClientPc} {r : Except DbError Unit}
    (h : pc.commitAt = .returning r) : pc.atRest := by
  cases pc with
  | post p | slotAsleep p | slotAwake p | notify p => exact absurd h (p.commitAt_ne.2 r)
  | drain d | drainAsleep d => exact absurd h (d.commitAt_ne.2 r)
  | ret r' =>
    cases r' with
    | commit => rfl
    | _ => cases h
  | _ => cases h

/-- A call of `commit` past its read of the error posts its job, at rest, or waits for it. -/
theorem awaits_or_atRest {pc : ClientPc} {c : RunCtx} (hc : c.isBoundary)
    (h : pc.commitAt = c.commitAt) (hn : c.commitAt ≠ .elsewhere) :
    pc.awaits = some c ∨ pc.atRest := by
  cases pc with
  | post p | slotAsleep p | slotAwake p =>
    rw [PostCtx.waits_of_commitAt h hn]
    exact .inr hc
  | notify p =>
    rw [PostCtx.waits_of_commitAt h hn]
    exact .inl rfl
  | drain d | drainAsleep d =>
    rw [DrainCtx.waits_of_commitAt h hn]
    exact .inl rfl
  | readCommit | clearCommit => exact .inr rfl
  | ret r =>
    cases r with
    | commit => exact .inr rfl
    | _ => exact absurd h.symm hn
  | _ => exact absurd h.symm hn

/-- The job in hand while `commit` is past its read of the error is the one it posted. -/
theorem runs_of_commitAt (hr : (asyncDb B).Run tr s) {c : RunCtx} (hc : c.isBoundary)
    (hn : c.commitAt ≠ .elsewhere) (h : s.client.commitAt = c.commitAt) {qj : QueuedJob}
    (hw : s.worker.inHand = some qj) : c.Runs qj.fn := by
  rcases awaits_or_atRest hc h hn with ha | ha
  · exact (alone hr ha hc).runs qj (.inr hw)
  · cases (congrArg Handoff.State.inHand (slot_of_atRest hr ha)).symm.trans hw

/-- While no query is in hand, the worker calls the backend only to end the transaction. -/
theorem WorkerStep.isQuiet (hr : (asyncDb B).Run tr s) (h : WorkerStep s e s')
    (hq : ∀ qj, s.worker.inHand = some qj → qj.fn.isQuery = false) :
    e.isQuiet ∨ e.isCommit ∨ e.isRollback := by
  have hf : e.failed = none := by
    rw [← Option.not_isSome_iff_eq_none]
    intro hs
    obtain ⟨qj, hw, hj⟩ := (h.job hr).1 hs
    cases (hq qj hw).symm.trans hj
  cases h <;> first
  | exact .inl rfl
  | exact .inr (.inl rfl)
  | exact .inr (.inr rfl)
  | cases hf

theorem readings_of_boundary (tr : List Event) (h : e.isCommit ∨ e.isRollback) :
    callFailures (e :: tr) = callFailures tr ∧ failures (e :: tr) = failures tr := by
  cases e with
  | commit | rollback => exact ⟨List.append_nil _, List.append_nil _⟩
  | _ => rcases h with h | h <;> cases h

theorem committed_of_rollback (h : e.isRollback) : committed (e :: tr) = committed tr := by
  cases e with
  | rollback => rfl
  | _ => cases h

theorem WorkerStep.isQuiet_of_atRest (hr : (asyncDb B).Run tr s) (h : WorkerStep s e s')
    (hc : s.client.atRest) : e.isQuiet := by
  have hh : s.worker.inHand = none := congrArg Handoff.State.inHand (slot_of_atRest hr hc)
  obtain ⟨-, hcommit, hroll⟩ := h.job hr
  rcases h.isQuiet hr fun qj hw => (by cases hh.symm.trans hw) with hq | hb | hb
  · exact hq
  · obtain ⟨qj, hw, -⟩ := hcommit hb
    cases hh.symm.trans hw
  · obtain ⟨qj, hw, -⟩ := hroll hb
    cases hh.symm.trans hw

theorem awaits_of_draining {pc : ClientPc} (h : pc.commitAt = .draining) : pc.awaits = none := by
  cases pc with
  | notify p =>
    rcases p with _ | _ | c
    · cases h
    · cases h
    · cases c <;> cases h
  | drain d | drainAsleep d =>
    rcases d with _ | _ | _ | _ | c
    case run => cases c <;> cases h
    all_goals rfl
  | _ => rfl

/-- The worker neither calls nor clears. -/
theorem WorkerStep.failed_cons (h : WorkerStep s e s') (tr : List Event) :
    callFailures (e :: tr) = callFailures tr ++ e.failed.toList ∧
      failures (e :: tr) = failures tr ++ e.failed.toList := by
  cases h <;> exact ⟨rfl, rfl⟩

theorem WorkerStep.since_cons (h : WorkerStep s e s') (p : Event → Bool) :
    Async.since p (e :: tr) = (p e || Async.since p tr) := by
  cases h <;> rfl

theorem CommitProgress.worker (hr : (asyncDb B).Run tr s)
    (hp : CommitProgress tr s.client.commitAt) (h : WorkerStep s e s') :
    CommitProgress (e :: tr) s'.client.commitAt := by
  have hc : s'.client.commitAt = s.client.commitAt := by
    rcases h.client with h | h <;> simp [h]
  obtain ⟨-, hcommit, hroll⟩ := h.job hr
  rw [hc]
  cases hx : s.client.commitAt with
  | elsewhere => trivial
  | draining =>
    -- Only jobs that the client does not wait for are left.
    rw [hx] at hp
    have hj : ∀ qj, s.worker.inHand = some qj → qj.fn.isUnattended := by
      intro qj hw
      rcases attends hr (.inr hw) with hu | ⟨c, ha, -⟩
      · exact hu
      · cases (awaits_of_draining hx).symm.trans ha
    obtain ⟨h1, h2, h3⟩ := hp
    have h4 := h.failed_cons tr
    refine ⟨?_, ?_, by rw [h4.1, h4.2, h3]⟩
    · rw [committed, h.since_cons, ← committed, h1, Bool.or_false, ← Bool.not_eq_true]
      intro hb
      obtain ⟨qj, hw, hf⟩ := hcommit hb
      have hu := hj qj hw
      rw [hf] at hu
      cases hu
    · rw [rolledBack, h.since_cons, ← rolledBack, h2, Bool.or_false, ← Bool.not_eq_true]
      intro hb
      obtain ⟨qj, hw, hf⟩ := hroll hb
      have hu := hj qj hw
      cases hfn : qj.fn <;> rw [hfn] at hu hf <;> first
      | cases hu; done
      | cases hf
  | undoing err =>
    rw [hx] at hp
    have hj : ∀ qj, s.worker.inHand = some qj → qj.fn = .rollbackIgnored := by
      intro qj hw
      have hrun := runs_of_commitAt hr (c := .commitUndo err) rfl (fun h => by cases h) hx hw
      cases hfn : qj.fn <;> rw [hfn] at hrun <;> first
      | rfl
      | exact hrun.elim
    rcases h.isQuiet hr fun qj hw => by rw [hj qj hw]; rfl with hq | hb | hb
    · exact hp.quiet hq
    · obtain ⟨qj, hw, hf⟩ := hcommit hb
      cases (hj qj hw).symm.trans hf
    · obtain ⟨h1, -⟩ := readings_of_boundary tr (.inr hb)
      exact ⟨(committed_of_rollback hb).trans hp.1, by rw [h1]; exact hp.2⟩
  | working =>
    rw [hx] at hp
    have hj : ∀ qj, s.worker.inHand = some qj → qj.fn = .commit := by
      intro qj hw
      have hrun := runs_of_commitAt hr (c := .commitWork) rfl (fun h => by cases h) hx hw
      cases hfn : qj.fn <;> rw [hfn] at hrun <;> first
      | rfl
      | exact hrun.elim
    rcases h.isQuiet hr fun qj hw => by rw [hj qj hw]; rfl with hq | hb
    · exact hp.quiet hq
    · obtain ⟨h1, h2⟩ := readings_of_boundary tr hb
      exact ⟨h1.trans hp.1, h2.trans hp.2⟩
  | clearing err =>
    have hq := h.isQuiet_of_atRest hr (atRest_of_clearing hx)
    rw [hx] at hp
    exact hp.quiet hq
  | returning r =>
    have hq := h.isQuiet_of_atRest hr (atRest_of_returning hx)
    rw [hx] at hp
    exact hp.quiet hq

theorem commitProgress (h : (asyncDb B).Run tr s) : CommitProgress tr s.client.commitAt := by
  refine h.invariant (I := fun tr s => CommitProgress tr s.client.commitAt) ?_ ?_
  · rintro _ ⟨db, rfl⟩
    trivial
  · rintro tr s e s' hr hp (h | h)
    · exact hp.client hr h
    · exact hp.worker hr h

/-! ## Soundness -/

/-- The failures since the transaction was last ended are among the last of those since the
    error was last cleared. -/
theorem boundaryFailures_suffix (h : (asyncDb B).Run tr s) :
    boundaryFailures tr <:+ failures tr := by
  refine h.invariant (I := fun tr _ => boundaryFailures tr <:+ failures tr) ?_ ?_
  · rintro _ ⟨db, rfl⟩
    exact List.nil_suffix
  · rintro tr s e s' hr ⟨t, ht⟩ (h | h)
    · cases h with
      | clearCommit hc | clearRollback hc =>
        have hu := (undoes hr).2 (by rw [hc]; rfl)
        rw [boundaryFailures_eq_nil hu.2 rfl]
        exact List.nil_suffix
      | _ => exact ⟨t, (List.append_assoc ..).symm.trans (congrArg (· ++ []) ht)⟩
    · cases h with
      | commit | rollback | rollbackIgnored => exact List.nil_suffix
      | _ => exact ⟨t, (List.append_assoc ..).symm.trans (congrArg (· ++ _) ht)⟩

/-- The worker commits the job of a `commit` that waits for it. -/
theorem awaits_of_commit (hr : (asyncDb B).Run tr s) {sts : DbSts}
    (h : (asyncDb B).step s (.commit sts) s') : ∃ qj, s.worker = .run qj .direct ∧
      qj.fn = .commit ∧ s.client.awaits = some .commitWork ∧ s'.slot = s.slot := by
  rcases h with h | h
  · cases h
  · cases h with
    | @commit qj _ _ hw hj _ =>
      refine ⟨qj, hw, hj, ?_, ?_⟩
      · rcases attends hr (.inr (congrArg WorkerPc.inHand hw)) with hu | ⟨c, ha, hc⟩
        · rw [hj] at hu
          cases hu
        · rw [hj] at hc
          cases c <;> first
          | exact ha
          | exact hc.elim
      · rw [State.slot, State.slot, hw]
        rfl

theorem commitAt_of_awaits {pc : ClientPc} {c : RunCtx} (h : pc.awaits = some c) :
    pc.commitAt = c.commitAt := by
  cases pc with
  | notify p =>
    cases p with
    | run c' => rw [← Option.some.inj h]; rfl
    | _ => cases h
  | drain d | drainAsleep d =>
    cases d with
    | run c' => rw [← Option.some.inj h]; rfl
    | _ => cases h
  | _ => cases h

/-- When the database is told to commit, every other job is done, none has failed since the
    transaction was last ended, nor since the error was last cleared; and a `commit` that
    comes upon a failure rolls back, and returns the first one. -/
theorem commit_sound (h : (asyncDb B).Run tr s) :
    (∀ sts tr', tr = .commit sts :: tr' →
      s.pending = none ∧ (∃ qj, qj.fn = .commit ∧ enqueued tr = finished tr ++ [qj]) ∧
        boundaryFailures tr' = [] ∧ callFailures tr' = []) ∧
      ∀ r tr', tr = .ret (.commit r) :: tr' → callFailures tr' ≠ [] →
        committed tr' = false ∧ rolledBack tr' ∧
          ∃ e, (callFailures tr').head? = some e ∧ r = .error e := by
  refine ⟨?_, ?_⟩
  · rintro sts tr' rfl
    cases h with
    | @step _ s₀ _ _ hr hst =>
      -- The client waits for the job of the commit, and that job is alone.
      obtain ⟨qj, hw, hj, ha, hs⟩ := awaits_of_commit hr hst
      have hh : s₀.worker.inHand = some qj := congrArg WorkerPc.inHand hw
      have hp : s₀.pending = none := by
        rcases (alone hr ha rfl).one with h | h
        · exact h
        · cases h.symm.trans hh
      have hprog := commitProgress hr
      rw [commitAt_of_awaits ha] at hprog
      refine ⟨?_, ⟨qj, hj, ?_⟩, ?_, hprog.1⟩
      · exact (congrArg Handoff.State.pending hs).trans hp
      · have he := enqueued_eq hr
        rw [started_eq hr, hp, hh, Option.toList_none, List.append_nil] at he
        exact he
      · have hb := boundaryFailures_suffix hr
        rw [hprog.2] at hb
        exact List.suffix_nil.1 hb
  · rintro r tr' rfl hne
    cases h with
    | step hr hst =>
      rcases hst with hst | hst
      · cases hst with
        | ret hc =>
          have hprog := commitProgress hr
          rw [hc] at hprog
          exact hprog hne
      · cases hst

/-- The run in which a row fails, and `commit` is called. -/
def failedRun : List Event × State scripted :=
  (scriptedRun (fun _ _ => True) [false] (prepareInsert ++ [.call (.submit ⟨some 0⟩), .client,
    .client, .client, .call .commit, .worker, .worker, .worker, .worker, .worker, .worker,
    .worker, .client, .client, .client, .client, .worker, .worker, .worker, .worker, .worker,
    .client, .client, .client])).get (by decide)

/-- The call rolls back, and returns the failure of the row. -/
theorem commit_sound_failed : committed failedRun.1.tail = false ∧ rolledBack failedRun.1.tail ∧
    callFailures failedRun.1.tail = [scriptedError] := by
  have hs := (commit_sound (B := scripted)
    (scriptedRun_sound (x := failedRun) (Option.some_get _).symm).of_restrict).2
    (.error scriptedError) failedRun.1.tail rfl (by decide)
  exact ⟨hs.1, hs.2.1, by decide⟩

end Dbgen4.Async
