import Dbgen4.Async.Accept
import Dbgen4.Async.Life

/-!
# The asynchronous facade: what `prepare` hands out

`prepare` is to return a handle that names a live task, or an error and no task
(`PrepareCall.Sound`). It infers which from two locals that its job writes, and
takes neither being written for success: a job that `post_to_worker` dropped,
because an error was pending, leaves it with a handle to a null task
(`droppedRun`). Otherwise what it hands out is sound (`prepare_sound_iff`), and
stays so, as the table of tasks only grows (`table_path`).
-/

namespace Dbgen4.Async

open Rtl

variable {B : Backend} {tr : List Event} {s s' : State B} {e : Event}

/-! ## A call of `prepare` -/

/-- The job of `prepare` has told nothing. -/
def Untold (s : State B) : Prop := s.frame.task = none ∧ s.frame.err = none

/-- The arguments of a call of `prepare`. -/
structure PrepareCall where
  stmt : StmtType
  sql : String
  paramRows : Nat
  resultRows : Nat

theorem Untold.of_eq (hu : Untold s) (h : s'.frame.task = s.frame.task ∧
    s'.frame.err = s.frame.err) : Untold s' :=
  ⟨h.1.trans hu.1, h.2.trans hu.2⟩

namespace PrepareCall

variable (p : PrepareCall)

/-- The call. -/
def op : Op := .prepare p.stmt p.sql p.paramRows p.resultRows

/-- Its job. -/
def job : QueuedJob := ⟨.prepare p.stmt p.sql p.paramRows p.resultRows, none⟩

/-- What it waits for. -/
def ctx : RunCtx := .prepare p.stmt p.paramRows

/-- The task holds a query that the backend has prepared for the call. -/
def Made (t : Task B) : Prop :=
  t.stmt = p.stmt ∧ t.par = p.stmt.makeParams p.paramRows ∧
    ∃ db db', B.prepare db p.stmt p.sql (p.stmt.makeParams p.paramRows) p.resultRows =
      (.ok t.query, db')

/-- The call, begun in `s₀`, ends in `s` with a handle that names a live task, whose
    statement the worker has prepared since, now and ever after; or with an error, and with
    the tasks there were. -/
def Sound (s₀ : State B) (tr : List Event) (s : State B) : Prop :=
  (∃ t, s.client = .ret (.prepare (.ok s₀.tasks.length)) ∧
      s.table = s₀.table ++ [some p.stmt] ∧ s.task s₀.tasks.length = some t ∧ p.Made t ∧
      .prepare none ∈ tr ∧
      ∀ tr' s', (asyncDb B).Path s tr' s' → (s'.task s₀.tasks.length).isSome) ∨
    ∃ err, s.client = .ret (.prepare (.error err)) ∧ s.table = s₀.table

/-- The job has run, and told what came of it. -/
def Ended (tr : List Event) (s : State B) : Prop :=
  s.frame.err.isSome ∨
    s.frame.err = none ∧ ∃ t, s.frame.task = some t ∧ p.Made t ∧ .prepare none ∈ tr

/-- Where the job is while the client waits: nowhere, as it was dropped; in the slot, with
    at most a statement in hand; in hand; or it has run. -/
inductive JobAt (tr : List Event) (s : State B) : Prop
  | dropped : discarded tr = true → Untold s → (∀ qj, s.slot.Has qj → qj.fn.isUnattended) →
    JobAt tr s
  | pending : discarded tr = false → Untold s → s.pending = some p.job →
    (∀ qj, s.worker.inHand = some qj → qj.fn.isUnattended) → JobAt tr s
  | inHand : discarded tr = false → Untold s → s.pending = none →
    s.worker.inHand = some p.job → s.worker.early → JobAt tr s
  | ended : discarded tr = false → s.pending = none → s.worker.early = false → p.Ended tr s →
    JobAt tr s

/-- Where the client is in the call, until it returns. -/
inductive At (tr : List Event) (s : State B) : Prop
  | posting : s.client.posting = some (.run p.ctx, p.job) → discarded tr = false → Untold s →
    At tr s
  | waiting : s.client.awaits = some p.ctx → p.JobAt tr s → At tr s
  | assembling : s.client = .assemble p.stmt p.paramRows →
    (discarded tr = true ∧ Untold s ∨ discarded tr = false ∧ p.Ended tr s) → At tr s
  | gone : s.client.preparing = none → At tr s

end PrepareCall

/-! ## The job of the call -/

theorem Job.stage_of_prepare {stmt : StmtType} {sql : String} {n m : Nat} {st : Stage}
    (h : (Job.prepare stmt sql n m).hasStage st) : st = .direct ∨ st = .done := by
  cases st with
  | direct => exact .inl rfl
  | done => exact .inr rfl
  | _ => cases h

/-- A step of the worker takes the job that is pending, or prepares a statement, or leaves
    the locals of `prepare` alone. In the last case a job that is to prepare goes on. -/
theorem WorkerStep.prepares (hr : (asyncDb B).Run tr s) (h : WorkerStep s e s') :
    (∃ qj, s.pending = some qj ∧ s.worker.inHand = none ∧ s'.pending = none ∧
        s'.worker = .took qj ∧ s'.frame = s.frame) ∨
      (∃ qj stmt sql n m, s.worker = .run qj .direct ∧ qj.fn = .prepare stmt sql n m ∧
        s'.pending = s.pending ∧ s'.worker = .run qj .done ∧
        (s'.frame.err.isSome ∨ ∃ query db, e = .prepare none ∧ s'.frame.err = s.frame.err ∧
          B.prepare s.db stmt sql (stmt.makeParams n) m = (.ok query, db) ∧
          s'.frame.task = some ⟨stmt, stmt.makeParams n, query⟩)) ∨
      (s'.pending = s.pending ∧ s'.frame.task = s.frame.task ∧ s'.frame.err = s.frame.err ∧
        (∀ qj, s'.worker.inHand = some qj → s.worker.inHand = some qj) ∧
        (s'.worker.early → s.worker.early) ∧
        ∀ qj stmt sql n m, s.worker.inHand = some qj → qj.fn = .prepare stmt sql n m →
          s.worker.early → s'.worker.inHand = some qj ∧ s'.worker.early) := by
  have hst : ∀ qj st stmt sql n m, s.worker = .run qj st → qj.fn = .prepare stmt sql n m →
      st = .direct ∨ st = .done := by
    intro qj st stmt sql n m hw hj
    exact Job.stage_of_prepare (hj ▸ hasStage hr hw)
  -- So a job that prepares takes none of the steps of a statement job.
  cases h with
  | take hw hp => exact .inl ⟨_, hp, by rw [hw]; rfl, rfl, rfl, rfl⟩
  | prepareError hw hj _ =>
    exact .inr (.inl ⟨_, _, _, _, _, hw, hj, rfl, rfl, .inl rfl⟩)
  | prepare hw hj hb =>
    exact .inr (.inl ⟨_, _, _, _, _, hw, hj, rfl, rfl, .inr ⟨_, _, rfl, rfl, hb, rfl⟩⟩)
  | exit hw _ _ | sleep hw _ _ | spurious hw | notify hw =>
    refine .inr (.inr ⟨rfl, rfl, rfl, fun qj hq => (by cases hq), fun he => (by cases he), ?_⟩)
    intro qj stmt sql n m hq
    rw [hw] at hq
    cases hq
  | finish hw =>
    refine .inr (.inr ⟨rfl, rfl, rfl, fun qj hq => (by cases hq), fun he => (by cases he), ?_⟩)
    intro qj stmt sql n m _ _ he
    rw [hw] at he
    cases he
  | slotFree hw =>
    refine .inr (.inr ⟨rfl, rfl, rfl, fun qj hq => hw ▸ hq, fun _ => by rw [hw]; rfl, ?_⟩)
    intro qj stmt sql n m hq _ _
    rw [hw] at hq
    exact ⟨hq, Job.entry_early _⟩
  | commit hw hf _ | rollbackIgnored hw hf _ | rollback hw hf _ =>
    refine .inr (.inr ⟨rfl, rfl, rfl, fun qj hq => hw ▸ hq, fun he => (by cases he), ?_⟩)
    intro qj stmt sql n m hq hj
    rw [hw] at hq
    obtain rfl := Option.some.inj hq
    cases hf.symm.trans hj
  | skip hw _ | check hw _ | restore hw _ _ _ | restoreOverflow hw _ _ _ _ | restoreNull hw _ _
  | execute hw _ _ _ | executeError hw _ _ _ | fetchNull hw _ _ | record hw _ | keep hw _ =>
    refine .inr (.inr ⟨rfl, rfl, rfl, fun qj hq => hw ▸ hq, fun he => ?_, ?_⟩)
    · rw [hw]
      first
      | rfl
      | cases he
    · intro qj stmt sql n m hq hj
      rw [hw] at hq
      obtain rfl := Option.some.inj hq
      rcases hst _ _ _ _ _ _ hw hj with h | h <;> cases h
  | fetch hw _ _ _ | fetchError hw _ _ _ =>
    refine .inr (.inr ⟨rfl, ?_, ?_, fun qj hq => hw ▸ hq, fun he => (by cases he), ?_⟩)
    · dsimp only
      split <;> rfl
    · dsimp only
      split <;> rfl
    · intro qj stmt sql n m hq hj
      rw [hw] at hq
      obtain rfl := Option.some.inj hq
      rcases hst _ _ _ _ _ _ hw hj with h | h <;> cases h

namespace PrepareCall

variable {p : PrepareCall}

theorem JobAt.worker {tr₀ : List Event} (hr : (asyncDb B).Run tr₀ s) (hj : p.JobAt tr s)
    (h : WorkerStep s e s') :
    p.JobAt (e :: tr) s' := by
  have hd := (h.since tr).1
  -- The worker takes a job, prepares, or goes on with the job in hand.
  rcases h.prepares hr with ⟨qj, hp, hh, hp', hw', hf⟩ |
    ⟨qj, stmt, sql, n, m, hw, hfn, hp, hw', hf⟩ | ⟨hp, ht, he, hh, hear, hgo⟩
  · cases hj with
    | dropped hdr hu hun =>
      refine .dropped (hd.trans hdr) (by rwa [Untold, hf]) ?_
      rintro qj' (hq | hq)
      · cases hp'.symm.trans hq
      · refine hun qj' (.inl (hp.trans ?_))
        rw [State.slot, hw'] at hq
        exact hq
    | pending hdr hu hpe hun =>
      obtain rfl := Option.some.inj (hp.symm.trans hpe)
      exact .inHand (hd.trans hdr) (by rwa [Untold, hf]) hp' (by rw [hw']; rfl) (by rw [hw']; rfl)
    | inHand _ _ hpe _ _ => cases hpe.symm.trans hp
    | ended _ hpe _ _ => cases hpe.symm.trans hp
  · cases hj with
    | dropped _ _ hun =>
      have hu := hun qj (.inr (congrArg WorkerPc.inHand hw))
      rw [hfn] at hu
      cases hu
    | pending _ _ _ hun =>
      have hu := hun qj (congrArg WorkerPc.inHand hw)
      rw [hfn] at hu
      cases hu
    | inHand hdr hu hpe hih _ =>
      refine .ended (hd.trans hdr) (hp.trans hpe) (by rw [hw']; rfl) ?_
      rcases hf with hf | ⟨query, db, rfl, hf, hb, ht⟩
      · exact .inl hf
      · -- The job in hand is the one of this call.
        rw [hw] at hih
        obtain rfl := Option.some.inj hih
        cases hfn
        exact .inr ⟨hf.trans hu.2, _, ht, ⟨rfl, rfl, _, _, hb⟩, List.mem_cons_self⟩
    | ended _ _ hear _ =>
      rw [hw] at hear
      cases hear
  · have hu' : Untold s → Untold s' := fun hu => ⟨ht.trans hu.1, he.trans hu.2⟩
    cases hj with
    | dropped hdr hu hun =>
      refine .dropped (hd.trans hdr) (hu' hu) ?_
      rintro qj (hq | hq)
      · exact hun qj (.inl (hp.symm.trans hq))
      · exact hun qj (.inr (hh qj hq))
    | pending hdr hu hpe hun =>
      exact .pending (hd.trans hdr) (hu' hu) (hp.trans hpe) fun qj hq => hun qj (hh qj hq)
    | inHand hdr hu hpe hih hea =>
      obtain ⟨hih', hea'⟩ := hgo _ _ _ _ _ hih rfl hea
      exact .inHand (hd.trans hdr) (hu' hu) (hp.trans hpe) hih' hea'
    | ended hdr hpe hea hen =>
      refine .ended (hd.trans hdr) (hp.trans hpe) (Bool.eq_false_iff.2 fun h => ?_) ?_
      · cases hea.symm.trans (hear h)
      · rcases hen with hen | ⟨hen, t, htk, hm, hmem⟩
        · exact .inl (by rwa [he])
        · exact .inr ⟨he.trans hen, t, ht.trans htk, hm, List.mem_cons_of_mem _ hmem⟩

end PrepareCall

/-! ## The client in the call -/

/-- Of the steps of the client, only the end of a `prepare` changes the table. -/
theorem ClientStep.table (h : ClientStep s e s') :
    (∃ stmt n, s.client = .assemble stmt n) ∨ s'.table = s.table := by
  rcases h.callers with ⟨_, _, _, -, -, -, -, hs⟩ | ⟨stmt, n, hc, -, -⟩ | ⟨-, hs⟩
  · exact .inr (by rw [State.table, hs, State.table])
  · exact .inl ⟨stmt, n, hc⟩
  · exact .inr (by rw [State.table, hs, State.table])

/-- A step of a client that is posting the job of a call it waits for. -/
theorem ClientStep.of_posting (h : ClientStep s e s') {c : RunCtx} {qj : QueuedJob}
    (hc : s.client.posting = some (.run c, qj)) :
    s'.frame = s.frame ∧ s'.worker = s.worker ∧
      (e = .discard qj ∧ s'.client = .drain (.run c) ∧ s'.pending = s.pending ∨
        e = .enqueue qj ∧ s'.client = .notify (.run c) ∧ s'.pending = some qj ∨
        (e = .blocked qj ∨ e = .tau) ∧ s'.client.posting = some (.run c, qj)) := by
  cases h with
  | discard h _ =>
    rw [h] at hc
    cases hc
    exact ⟨rfl, rfl, .inl ⟨rfl, rfl, rfl⟩⟩
  | store h _ _ | slotStore h _ =>
    rw [h] at hc
    cases hc
    exact ⟨rfl, rfl, .inr (.inl ⟨rfl, rfl, rfl⟩)⟩
  | blocked h _ _ =>
    rw [h] at hc
    exact ⟨rfl, rfl, .inr (.inr ⟨.inl (by cases hc; rfl), hc⟩)⟩
  | slotSpurious h | slotSleep h _ =>
    rw [h] at hc
    exact ⟨rfl, rfl, .inr (.inr ⟨.inr rfl, hc⟩)⟩
  | write h _ _ | isFinished h | error h | call h _ | notify h | drained h _ | drainSleep h _
  | drainSpurious h | readExec h | readSync h | readFetch h | readCommit h | assembleError h _
  | assembleCrash h _ _ _ | assemble h _ _ | clearCommit h | clearRollback h | setStop h
  | notifyStop h | join h _ | ret h =>
    rw [h] at hc
    cases hc

/-- A step of a client that waits for the job of its call. -/
theorem ClientStep.of_awaits (h : ClientStep s e s') {c : RunCtx}
    (hc : s.client.awaits = some c) :
    e = .tau ∧ s'.frame = s.frame ∧ s'.slot = s.slot ∧ s'.worker.early = s.worker.early ∧
      (s'.client.awaits = some c ∨ s.Drained ∧ s'.client = s.afterDrain (.run c)) := by
  cases h with
  | notify h =>
    rw [h] at hc
    refine ⟨rfl, rfl, by simp [State.slot], ?_, .inl ((awaits_next _).trans hc)⟩
    cases s.worker <;> rfl
  | @drained d h hd =>
    rw [h] at hc
    cases d with
    | run c' =>
      obtain rfl := Option.some.inj hc
      exact ⟨rfl, rfl, rfl, rfl, .inr ⟨hd, rfl⟩⟩
    | _ => cases hc
  | drainSleep h _ | drainSpurious h =>
    rw [h] at hc
    exact ⟨rfl, rfl, rfl, rfl, .inl hc⟩
  | write h _ _ | isFinished h | error h | call h _ | discard h _ | store h _ _ | blocked h _ _
  | slotSpurious h | slotStore h _ | slotSleep h _ | readExec h | readSync h | readFetch h
  | readCommit h | assembleError h _ | assembleCrash h _ _ _ | assemble h _ _ | clearCommit h
  | clearRollback h | setStop h | notifyStop h | join h _ | ret h =>
    rw [h] at hc
    cases hc

/-- The end of a call of `prepare`. -/
theorem ClientStep.of_assemble (h : ClientStep s e s') {stmt : StmtType} {n : Nat}
    (hc : s.client = .assemble stmt n) :
    (∃ err, s.frame.err = some err ∧
        s' = { s with client := .ret (.prepare (.error err)) }) ∨
      (s.frame.err = none ∧ s.frame.task = none ∧ s' = { s with client := .crashed }) ∨
      (s.frame.err = none ∧ (s.frame.task.isSome ∨ ¬stmt.hasResults) ∧ s' = { s with
        tasks := s.tasks ++ [s.frame.task]
        callers := s.callers ++ [⟨stmt, stmt.makeParams n⟩]
        client := .ret (.prepare (.ok s.tasks.length)) }) := by
  cases h with
  | assembleError _ he => exact .inl ⟨_, he, rfl⟩
  | assembleCrash _ he ht _ => exact .inr (.inl ⟨he, Option.isNone_iff_eq_none.1 ht, rfl⟩)
  | assemble hc' he ht =>
    cases hc.symm.trans hc'
    exact .inr (.inr ⟨he, ht, rfl⟩)
  | write h _ _ | isFinished h | error h | call h _ | discard h _ | store h _ _
  | blocked h _ _ | slotSpurious h | slotStore h _ | slotSleep h _ | notify h | drained h _
  | drainSleep h _ | drainSpurious h | readExec h | readSync h | readFetch h | readCommit h
  | clearCommit h | clearRollback h | setStop h | notifyStop h | join h _ | ret h =>
    cases hc.symm.trans h

/-- The client starts preparing only with a call. -/
theorem ClientStep.not_preparing (h : ClientStep s e s') (he : e.called = none)
    (hp : s.client.preparing = none) : s'.client.preparing = none := by
  cases h with
  | call _ _ => cases he
  | discard h _ | notify h =>
    rw [h] at hp
    exact (preparing_next _).trans hp
  | @drained d h _ =>
    rw [h] at hp
    rcases d with _ | _ | _ | _ | ⟨_ | _ | _ | _ | _ | _⟩
    all_goals first
    | rfl
    | cases hp
  | readCommit h =>
    rw [State.afterReadCommit]
    split <;> rfl
  | @ret r _ => cases r <;> rfl
  | store h _ _ | blocked h _ _ | slotSpurious h | slotStore h _ | slotSleep h _ | drainSleep h _
  | drainSpurious h =>
    rw [h] at hp
    exact hp
  | write _ _ _ | isFinished _ | error _ => exact hp
  | _ => rfl

namespace PrepareCall

variable {p : PrepareCall}

theorem at_begin (p : PrepareCall) (held : Option ParamBuffer)
    (h : (asyncDb B).step s (.call p.op held) s') : p.At [] s' := by
  rcases h with h | h
  · cases h
    exact .posting rfl rfl ⟨rfl, rfl⟩
  · cases h

/-- While the client posts a job, or has drained the queue, no statement is being prepared. -/
theorem not_preparing_inHand (hr : (asyncDb B).Run tr s) (hn : s.client.awaits = none)
    {qj : QueuedJob} {stmt : StmtType} {sql : String} {n m : Nat} (hw : s.worker.inHand = some qj)
    (hj : qj.fn = .prepare stmt sql n m) : False := by
  rcases attends hr (.inr hw) with hu | ⟨c, hc, -⟩
  · rw [hj] at hu
    cases hu
  · cases hn.symm.trans hc

/-- Unless the client waits, the worker leaves the locals of `prepare` alone. -/
theorem frame_of_worker (hr : (asyncDb B).Run tr s) (hn : s.client.awaits = none)
    (h : WorkerStep s e s') : s'.frame.task = s.frame.task ∧ s'.frame.err = s.frame.err := by
  rcases h.prepares hr with ⟨_, -, -, -, -, hf⟩ | ⟨_, _, _, _, _, hw, hj, -⟩ | ⟨-, ht, he, -⟩
  · rw [hf]
    exact ⟨rfl, rfl⟩
  · exact (not_preparing_inHand hr hn (congrArg WorkerPc.inHand hw) hj).elim
  · exact ⟨ht, he⟩

theorem Ended.of_eq (he : p.Ended tr s) (h : s'.frame.task = s.frame.task ∧
    s'.frame.err = s.frame.err) : p.Ended (e :: tr) s' := by
  rcases he with he | ⟨he, t, ht, hm, hmem⟩
  · exact .inl (h.2 ▸ he)
  · exact .inr ⟨h.2.trans he, t, h.1.trans ht, hm, List.mem_cons_of_mem _ hmem⟩

theorem At.worker {tr₀ : List Event} (hr : (asyncDb B).Run tr₀ s) (ha : p.At tr s)
    (h : WorkerStep s e s') : p.At (e :: tr) s' := by
  have hd := (h.since tr).1
  cases ha with
  | posting hc hdr hu =>
    have hframe := frame_of_worker hr (ClientPc.awaits_of_posting hc) h
    refine .posting ?_ (hd.trans hdr) (hu.of_eq hframe)
    rcases h.client with h | h <;> simpa [h] using hc
  | waiting hc hj =>
    refine .waiting ?_ (hj.worker hr h)
    rcases h.client with h | h <;> simpa [h] using hc
  | assembling hc hen =>
    have hf := frame_of_worker hr (by rw [hc]; rfl) h
    refine .assembling ?_ ?_
    · rcases h.client with h | h <;> rw [h, hc]
      rfl
    · rcases hen with ⟨hdr, hu⟩ | ⟨hdr, hen⟩
      · exact .inl ⟨hd.trans hdr, hu.of_eq hf⟩
      · exact .inr ⟨hd.trans hdr, hen.of_eq hf⟩
  | gone hc =>
    refine .gone ?_
    rcases h.client with h | h <;> simpa [h] using hc

/-- The job that the client waits for is where it was after a step of the client that leaves
    the queue alone. -/
theorem JobAt.of_eq (hj : p.JobAt tr s) (hf : s'.frame = s.frame) (hs : s'.slot = s.slot)
    (hear : s'.worker.early = s.worker.early) : p.JobAt (.tau :: tr) s' := by
  have hp : s'.pending = s.pending := congrArg Handoff.State.pending hs
  have hh : s'.worker.inHand = s.worker.inHand := congrArg Handoff.State.inHand hs
  have hf' : s'.frame.task = s.frame.task ∧ s'.frame.err = s.frame.err := by
    rw [hf]
    exact ⟨rfl, rfl⟩
  cases hj with
  | dropped hdr hu hun => exact .dropped hdr (hu.of_eq hf') (by rwa [hs])
  | pending hdr hu hpe hun => exact .pending hdr (hu.of_eq hf') (hp.trans hpe) (by rwa [hh])
  | inHand hdr hu hpe hih hea =>
    exact .inHand hdr (hu.of_eq hf') (hp.trans hpe) (hh.trans hih) (hear.trans hea)
  | ended hdr hpe hea hen =>
    exact .ended hdr (hp.trans hpe) (hear.trans hea) (hen.of_eq hf')

/-- Once the queue is drained, the job was dropped or has run. -/
theorem JobAt.drained (hj : p.JobAt tr s) (hs : s.slot = ⟨none, none⟩) :
    discarded tr = true ∧ Untold s ∨ discarded tr = false ∧ p.Ended tr s := by
  obtain ⟨hp, hh⟩ := Handoff.State.ext_iff.1 hs
  cases hj with
  | dropped hdr hu _ => exact .inl ⟨hdr, hu⟩
  | pending _ _ hpe _ => cases hp.symm.trans hpe
  | inHand _ _ _ hih _ => cases hh.symm.trans hih
  | ended hdr _ _ hen => exact .inr ⟨hdr, hen⟩

theorem At.client {tr₀ : List Event} (hr : (asyncDb B).Run tr₀ s) (ha : p.At tr s)
    (h : ClientStep s e s') (he : e.called = none) : p.At (e :: tr) s' := by
  cases ha with
  | posting hc hdr hu =>
    -- Nothing but statements is in hand while the client posts.
    have hun : ∀ qj, s.slot.Has qj → qj.fn.isUnattended := by
      intro qj hq
      rcases attends hr hq with hun | ⟨c, hc', -⟩
      · exact hun
      · cases (ClientPc.awaits_of_posting hc).symm.trans hc'
    obtain ⟨hf, hw, ⟨rfl, hc', hp⟩ | ⟨rfl, hc', hp⟩ | ⟨he', hc'⟩⟩ := h.of_posting hc
    · refine .waiting (by rw [hc']; rfl) (.dropped rfl (by rwa [Untold, hf]) ?_)
      rwa [State.slot, hp, hw]
    · refine .waiting (by rw [hc']; rfl) (.pending hdr (by rwa [Untold, hf]) hp fun qj hq => ?_)
      exact hun qj (.inr ((congrArg WorkerPc.inHand hw).symm.trans hq))
    · refine .posting hc' ?_ (by rwa [Untold, hf])
      rcases he' with rfl | rfl <;> exact hdr
  | waiting hc hj =>
    obtain ⟨rfl, hf, hs, hear, hc' | ⟨hd, hc'⟩⟩ := h.of_awaits hc
    · exact .waiting hc' (hj.of_eq hf hs hear)
    · refine .assembling hc' ((hj.of_eq hf hs hear).drained ?_)
      rw [hs]
      exact slot_of_drained hr hd
  | assembling hc _ =>
    rcases h.of_assemble hc with ⟨err, -, hs⟩ | ⟨-, -, hs⟩ | ⟨-, -, hs⟩
    all_goals exact .gone (by rw [hs]; rfl)
  | gone hc => exact .gone (h.not_preparing he hc)

/-! ## The whole call -/

theorem calls_eq_nil (h : calls (e :: tr) = []) : e.called = none ∧ calls tr = [] := by
  rw [calls_cons, List.append_eq_nil_iff, Option.toList_eq_nil_iff] at h
  exact ⟨h.2, h.1⟩

/-- Where the call is, and that it has not touched the table. -/
theorem at_path {tr₀ : List Event} {s₀ s₁ : State B} {held : Option ParamBuffer}
    (hr : (asyncDb B).Run tr₀ s₀) (hcall : (asyncDb B).step s₀ (.call p.op held) s₁)
    (hp : (asyncDb B).Path s₁ tr s) (hq : calls tr = []) :
    p.At tr s ∧ (s.client.preparing.isSome → s.table = s₀.table) := by
  refine hp.invariant (I := fun tr s => calls tr = [] →
    p.At tr s ∧ (s.client.preparing.isSome → s.table = s₀.table)) ?_ ?_ hq
  · refine fun _ => ⟨at_begin p held hcall, fun _ => ?_⟩
    rcases hcall with h | h
    · cases h
      rfl
    · cases h
  · intro tr s e s' hp ih hst hq
    obtain ⟨he, hq⟩ := calls_eq_nil hq
    obtain ⟨ha, ht⟩ := ih hq
    have hr' := (Lts.Run.step hr hcall).append hp
    rcases hst with h | h
    · refine ⟨ha.client hr' h he, fun hpr => ?_⟩
      -- The table changes only when the call ends.
      rcases h.table with ⟨stmt, n, hc⟩ | htab
      · rcases h.of_assemble hc with ⟨err, -, rfl⟩ | ⟨-, -, rfl⟩ | ⟨-, -, rfl⟩ <;> cases hpr
      · rw [htab]
        refine ht (Option.isSome_iff_ne_none.2 fun hn => ?_)
        rw [h.not_preparing he hn] at hpr
        cases hpr
    · refine ⟨ha.worker hr' h, fun hpr => ?_⟩
      rw [h.table]
      refine ht ?_
      rcases h.client with h | h <;> simpa [h] using hpr

end PrepareCall

/-- **What `prepare` hands out**: a call ends soundly exactly when its job was not dropped. -/
theorem prepare_sound_iff (p : PrepareCall) {tr₀ : List Event} {s₀ s₁ : State B}
    {held : Option ParamBuffer} {stmt : StmtType} {n : Nat} (hr : (asyncDb B).Run tr₀ s₀)
    (hcall : (asyncDb B).step s₀ (.call p.op held) s₁) (hp : (asyncDb B).Path s₁ tr s)
    (hq : calls tr = []) (hc : s.client = .assemble stmt n) (h : ClientStep s e s') :
    p.Sound s₀ tr s' ↔ discarded tr = false := by
  obtain ⟨ha, ht⟩ := PrepareCall.at_path hr hcall hp hq
  have htab : s.table = s₀.table := ht (by rw [hc]; rfl)
  have hlen : s.tasks.length = s₀.tasks.length := by
    simpa [State.table] using congrArg List.length htab
  have hen : stmt = p.stmt ∧ n = p.paramRows ∧
      (discarded tr = true ∧ Untold s ∨ discarded tr = false ∧ p.Ended tr s) := by
    cases ha with
    | posting h _ _ | waiting h _ | gone h =>
      rw [hc] at h
      cases h
    | assembling h hen =>
      cases hc.symm.trans h
      exact ⟨rfl, rfl, hen⟩
  obtain ⟨rfl, rfl, ⟨hd, hu⟩ | ⟨hd, hen⟩⟩ := hen
  · -- The job was dropped: no error is told, and there is no task.
    rw [hd]
    refine ⟨fun hs => ?_, fun h => (by cases h)⟩
    rcases h.of_assemble hc with ⟨err, herr, -⟩ | ⟨-, -, rfl⟩ | ⟨-, -, rfl⟩
    · cases hu.2.symm.trans herr
    · rcases hs with ⟨t, hcl, -⟩ | ⟨err, hcl, -⟩ <;> cases hcl
    · rcases hs with ⟨t, -, -, hi, -⟩ | ⟨err, hcl, -⟩
      · rw [State.task_eq, ← hlen] at hi
        simp [hu.1] at hi
      · cases hcl
  · -- The job has run: it left an error, or else a task.
    refine ⟨fun _ => hd, fun _ => ?_⟩
    rcases h.of_assemble hc with ⟨err, herr, rfl⟩ | ⟨hno, hnt, -⟩ | ⟨hno, -, rfl⟩
    · exact .inr ⟨err, rfl, htab⟩
    · rcases hen with hen | ⟨-, t, htk, -⟩
      · rw [hno] at hen
        cases hen
      · cases hnt.symm.trans htk
    · rcases hen with hen | ⟨-, t, htk, hm, hmem⟩
      · rw [hno] at hen
        cases hen
      · have htab' : State.table { s with
            tasks := s.tasks ++ [s.frame.task]
            callers := s.callers ++ [⟨p.stmt, p.stmt.makeParams p.paramRows⟩]
            client := .ret (.prepare (.ok s.tasks.length)) } = s₀.table ++ [some p.stmt] := by
          rw [State.table, List.map_append, ← htab, htk, ← hm.1]
          rfl
        refine .inl ⟨t, by rw [hlen], htab', ?_, hm, hmem, fun tr' s'' hp' => ?_⟩
        · rw [State.task_eq, ← hlen]
          simp [htk]
        · -- The table only grows.
          obtain ⟨tab, hx⟩ := table_path hp'
          rw [htab'] at hx
          have hi : s''.table[s₀.tasks.length]? = some (some p.stmt) := by
            rw [← hx]
            simp [State.table]
          obtain ⟨t', ht', -⟩ := task_of_table hi
          rw [ht']
          rfl

/-- The call that prepares the insert. -/
def insertCall : PrepareCall := ⟨insertType, "insert", 1, 1⟩

/-- The run in which a submitted row has failed. -/
def failedSubmit : List Event × State scripted :=
  (scriptedRun (fun _ _ => True) [false] (prepareInsert ++ [.call (.submit ⟨some 0⟩), .client,
    .client, .client, .worker, .worker, .worker, .worker, .worker, .worker, .worker])).get
    (by decide)

/-- The client calls `prepare`, from a state in which it is idle. -/
def prepareBegun (s : State scripted) (h : (s.next (.call insertCall.op)).isSome) :
    State scripted := ((s.next (.call insertCall.op)).get h).2

/-- The state in which a call of `prepare` has returned. -/
def prepareEnded (s : State scripted) (h : s.clientNext.isSome) : State scripted :=
  (s.clientNext.get h).2

theorem prepareEnded_step (s : State scripted) (h : s.clientNext.isSome) :
    ClientStep s (s.clientNext.get h).1 (prepareEnded s h) :=
  s.clientNext_sound (Option.some_get h).symm

/-- The object on which nothing has been done. -/
def fresh : State scripted := { db := [] }

/-- On a fresh object the job runs. -/
def preparedRun : List Event × State scripted :=
  (run (fun _ _ => True) [.client, .client, .worker, .worker, .worker, .worker, .worker, .client]
    ([], prepareBegun fresh (by decide))).get (by decide)

theorem prepare_sound_insert :
    insertCall.Sound fresh preparedRun.1 (prepareEnded preparedRun.2 (by decide)) :=
  (prepare_sound_iff (B := scripted) insertCall (.init ⟨[], rfl⟩)
    (State.next_get_sound fresh (.call insertCall.op) (by decide))
    (run_path (P := fun _ _ => True) (Option.some_get _).symm).of_restrict (by decide) rfl
    (prepareEnded_step preparedRun.2 (by decide))).2 (by decide)

/-- After the failure the job is dropped. -/
def droppedRun : List Event × State scripted :=
  (run (fun _ _ => True) [.client, .client] ([], prepareBegun failedSubmit.2 (by decide))).get
    (by decide)

/-- `prepare` returns a handle whose task is null. -/
theorem not_prepare_sound :
    ¬∀ (B : Backend) (p : PrepareCall) (tr₀ tr : List Event) (s₀ s₁ s s' : State B)
      (held : Option ParamBuffer) (stmt : StmtType) (n : Nat) (e : Event),
      (asyncDb B).Run tr₀ s₀ → (asyncDb B).step s₀ (.call p.op held) s₁ →
      (asyncDb B).Path s₁ tr s → calls tr = [] → s.client = .assemble stmt n →
      ClientStep s e s' → p.Sound s₀ tr s' := by
  intro h
  have hs := h scripted insertCall failedSubmit.1 droppedRun.1 failedSubmit.2
    (prepareBegun failedSubmit.2 (by decide)) droppedRun.2
    (prepareEnded droppedRun.2 (by decide)) _ insertType 1 _
    (scriptedRun_sound (x := failedSubmit) (Option.some_get _).symm).of_restrict
    (State.next_get_sound failedSubmit.2 (.call insertCall.op) (by decide))
    (run_path (P := fun _ _ => True) (Option.some_get _).symm).of_restrict (by decide) rfl
    (prepareEnded_step droppedRun.2 (by decide))
  rcases hs with ⟨t, -, -, hi, -⟩ | ⟨err, hc, -⟩
  · cases hi
  · cases hc

end Dbgen4.Async
