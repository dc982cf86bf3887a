import Dbgen4.Handoff
import Dbgen4.Async.Step

/-!
# The asynchronous facade: the queue

`pending_` and the job the worker has in hand are a one-place queue
(`Dbgen4.Handoff`): every step of `async_db` is a step of that queue, or leaves
it alone (`simulates`). So the jobs taken and run to completion are known from
the two (`enqueued_eq`, `started_eq`), whatever the interleaving.

The rest of the file says where the client can be: the job it is posting or
waits for, and the positions at which it has drained the queue and posted
nothing since, so that nothing is pending or in hand (`slot_of_atRest`).
-/

namespace Dbgen4.Async

open Rtl

variable {B : Backend}

@[simp] theorem WorkerPc.inHand_notified (pc : WorkerPc) : pc.notified.inHand = pc.inHand := by
  cases pc <;> rfl

/-- The slot and the worker's hand, as the one-place queue sees them. -/
def State.slot (s : State B) : Handoff.State QueuedJob := ⟨s.pending, s.worker.inHand⟩

/-- What a step is to the one-place queue. -/
def Event.act : Event → Option (Handoff.Act QueuedJob)
  | .enqueue qj => some (.put qj)
  | .start qj => some (.take qj)
  | .finish qj => some (.done qj)
  | _ => none

/-- A step of the client leaves the slot alone, unless it fills it. -/
theorem ClientStep.slot {s s' : State B} {e : Event} (h : ClientStep s e s') :
    (∃ qj, e = .enqueue qj ∧ s.pending = none ∧ s'.slot = ⟨some qj, s.worker.inHand⟩) ∨
      (e.act = none ∧ s'.slot = s.slot) := by
  cases h with
  | store _ _ hp => exact .inl ⟨_, rfl, hp, rfl⟩
  | slotStore _ hp => exact .inl ⟨_, rfl, hp, rfl⟩
  | notify _ => exact .inr ⟨rfl, by simp [State.slot]⟩
  | notifyStop _ => exact .inr ⟨rfl, by simp [State.slot]⟩
  | _ => exact .inr ⟨rfl, rfl⟩

/-- A step of the worker takes the job out of the slot, ends the job in hand, or
    leaves both alone. -/
theorem WorkerStep.slot {s s' : State B} {e : Event} (h : WorkerStep s e s') :
    (∃ qj, e = .start qj ∧ s.worker.inHand = none ∧ s.pending = some qj ∧
        s'.slot = ⟨none, some qj⟩ ∧ s'.busy = true) ∨
      (∃ qj, e = .finish qj ∧ s.worker.inHand = some qj ∧ s'.slot = ⟨s.pending, none⟩ ∧
        s'.busy = false) ∨
      (e.act = none ∧ s'.slot = s.slot ∧ s'.busy = s.busy) := by
  cases h with
  | take hw hp => exact .inl ⟨_, rfl, by rw [hw]; rfl, hp, rfl, rfl⟩
  | finish hw => exact .inr (.inl ⟨_, rfl, by rw [hw]; rfl, rfl, rfl⟩)
  | exit hw | sleep hw | spurious hw | slotFree hw | skip hw | check hw | restore hw
  | restoreOverflow hw | restoreNull hw | execute hw | executeError hw | fetch hw
  | fetchError hw | fetchNull hw | record hw | keep hw | prepareError hw | prepare hw
  | commit hw | rollbackIgnored hw | rollback hw | notify hw =>
    exact .inr (.inr ⟨rfl, by simp [State.slot, hw, WorkerPc.inHand], rfl⟩)

/-- The facade is simulated by the one-place queue. -/
theorem simulates : (asyncDb B).Simulates (Handoff.queue QueuedJob) State.slot Event.act where
  init := by rintro _ ⟨db, rfl⟩; rfl
  step := by
    rintro s e s' m (h | h) he
    · rcases h.slot with ⟨qj, rfl, hp, hs⟩ | ⟨hn, -⟩
      · cases he
        rw [hs, State.slot, hp]
        exact .put _ _
      · rw [hn] at he; cases he
    · rcases h.slot with ⟨qj, rfl, hh, hp, hs, -⟩ | ⟨qj, rfl, hh, hs, -⟩ | ⟨hn, -⟩
      · cases he
        rw [hs, State.slot, hp, hh]
        exact .take _
      · cases he
        rw [hs, State.slot, hh]
        exact .done _ _
      · rw [hn] at he; cases he
  stutter := by
    rintro s e s' (h | h) he
    · rcases h.slot with ⟨qj, rfl, -⟩ | ⟨-, hs⟩
      · cases he
      · exact hs
    · rcases h.slot with ⟨qj, rfl, -⟩ | ⟨qj, rfl, -⟩ | ⟨-, hs, -⟩
      · cases he
      · cases he
      · exact hs

/-- A job that is pending or in hand was so before, or is enqueued. -/
theorem has_step {s s' : State B} {e : Event} (h : (asyncDb B).step s e s') {qj : QueuedJob}
    (hj : s'.slot.Has qj) : s.slot.Has qj ∨ e = .enqueue qj := by
  cases ha : e.act with
  | none =>
    rw [simulates.stutter _ _ _ h ha] at hj
    exact .inl hj
  | some a =>
    rcases (simulates.step _ _ _ _ h ha).has hj with hj | rfl
    · exact .inl hj
    · cases e <;> cases ha
      exact .inr rfl

theorem chron_act {f : Handoff.Act QueuedJob → Option QueuedJob} {g : Event → Option QueuedJob}
    (h : ∀ e, e.act.bind f = g e) (tr : List Event) :
    chron f (tr.filterMap Event.act) = chron g tr := by
  rw [chron_filterMap, funext h]

variable {tr : List Event} {s s' : State B} {e : Event}

/-- The jobs taken are those that have run to completion and the one in hand. -/
theorem started_eq (h : (asyncDb B).Run tr s) :
    started tr = finished tr ++ s.worker.inHand.toList := by
  have hq := (Handoff.puts_takes (simulates.run h)).2
  rwa [chron_act (g := Event.started) (by rintro (_ | _) <;> rfl),
    chron_act (g := Event.finished) (by rintro (_ | _) <;> rfl)] at hq

/-- The jobs enqueued are those taken and the one pending. -/
theorem enqueued_eq (h : (asyncDb B).Run tr s) : enqueued tr = started tr ++ s.pending.toList := by
  have hq := (Handoff.puts_takes (simulates.run h)).1
  rwa [chron_act (g := Event.enqueued) (by rintro (_ | _) <;> rfl),
    chron_act (g := Event.started) (by rintro (_ | _) <;> rfl)] at hq

/-- The jobs enqueued are finished when nothing is pending or in hand. -/
theorem finished_of_slot (h : (asyncDb B).Run tr s) (hs : s.slot = ⟨none, none⟩) :
    finished tr = enqueued tr := by
  have hq := Handoff.puts_eq (simulates.run h)
  rw [hs, chron_act (g := Event.enqueued) (by rintro (_ | _) <;> rfl),
    chron_act (g := Event.finished) (by rintro (_ | _) <;> rfl)] at hq
  simpa [enqueued, finished] using hq.symm

theorem started_cons (e : Event) (tr : List Event) :
    started (e :: tr) = started tr ++ e.started.toList := chron_cons ..

theorem finished_cons (e : Event) (tr : List Event) :
    finished (e :: tr) = finished tr ++ e.finished.toList := chron_cons ..

theorem Event.of_act_none {e : Event} (h : e.act = none) :
    e.enqueued = none ∧ e.started = none ∧ e.finished = none := by
  cases e <;> first
  | exact ⟨rfl, rfl, rfl⟩
  | cases h

theorem WorkerStep.inHand_eq (h : WorkerStep s e s') (he : e.act = none) :
    s'.worker.inHand = s.worker.inHand := by
  rcases h.slot with ⟨qj, rfl, -⟩ | ⟨qj, rfl, -⟩ | ⟨-, hs, -⟩
  · cases he
  · cases he
  · exact congrArg Handoff.State.inHand hs

/-! ## The positions of the client -/

/-- The calls that end a transaction. -/
def RunCtx.isBoundary : RunCtx → Bool
  | .commitUndo _ | .commitWork | .rollbackWork => true
  | _ => false

/-- The job a call waits for. -/
def RunCtx.Runs : RunCtx → Job → Prop
  | .prepare stmt n, .prepare stmt' _ n' _ => stmt = stmt' ∧ n = n'
  | .executeSync, .executeSync _ _ => True
  | .fetchMore, .fetchMore _ => True
  | .commitUndo _, .rollbackIgnored => True
  | .commitWork, .commit => True
  | .rollbackWork, .rollback => True
  | _, _ => False

/-- The job a call posts. -/
def PostCtx.Posts : PostCtx → Job → Prop
  | .submit, .submit _ _ => True
  | .exec, .exec _ _ => True
  | .run c, j => c.Runs j
  | _, _ => False

/-- The call of `run_on_worker` that posts. -/
def PostCtx.waits : PostCtx → Option RunCtx
  | .run c => some c
  | _ => none

/-- The call of `run_on_worker` that drains. -/
def DrainCtx.waits : DrainCtx → Option RunCtx
  | .run c => some c
  | _ => none

/-- The job the client is posting. -/
def ClientPc.posting : ClientPc → Option (PostCtx × QueuedJob)
  | .post c qj _ | .slotAsleep c qj | .slotAwake c qj => some (c, qj)
  | _ => none

/-- The call that has posted its job and waits for the worker. -/
def ClientPc.awaits : ClientPc → Option RunCtx
  | .notify c => c.waits
  | .drain c | .drainAsleep c => c.waits
  | _ => none

/-- The calls that drain the queue before they post. -/
def PostCtx.isBoundary : PostCtx → Bool
  | .run c => c.isBoundary
  | _ => false

/-- The results of the calls that end by draining the queue. -/
def Result.isDrained : Result → Bool
  | .drain | .commit _ | .rollback _ | .destroyed => true
  | _ => false

/-- The client has drained the queue and has not posted a job since. -/
def ClientPc.atRest : ClientPc → Bool
  | .readSync | .readFetch | .readCommit | .assemble _ _ | .clearCommit _ | .clearRollback => true
  | .setStop | .notifyStop | .join | .destroyed => true
  | .post c _ _ | .slotAsleep c _ | .slotAwake c _ => c.isBoundary
  | .ret r => r.isDrained
  | _ => false

@[simp] theorem ClientPc.posting_notified (pc : ClientPc) : pc.notified.posting = pc.posting := by
  cases pc <;> rfl

@[simp] theorem ClientPc.awaits_notified (pc : ClientPc) : pc.notified.awaits = pc.awaits := by
  cases pc <;> rfl

@[simp] theorem ClientPc.atRest_notified (pc : ClientPc) : pc.notified.atRest = pc.atRest := by
  cases pc <;> rfl

/-- The client moves the worker only by waking it. -/
theorem ClientStep.worker (h : ClientStep s e s') :
    s'.worker = s.worker ∨ s'.worker = s.worker.notified := by
  cases h with
  | notify | notifyStop => exact .inr rfl
  | _ => exact .inl rfl

theorem run_of_notified {pc : WorkerPc} {qj : QueuedJob} {st : Stage}
    (h : pc.notified = .run qj st) : pc = .run qj st := by
  cases pc <;> first
  | exact h
  | cases h

theorem ClientStep.run (h : ClientStep s e s') {qj : QueuedJob} {st : Stage}
    (hw : s'.worker = .run qj st) : s.worker = .run qj st := by
  rcases h.worker with h | h
  · exact h ▸ hw
  · exact run_of_notified (h ▸ hw)

/-- The worker moves the client only by waking it. -/
theorem WorkerStep.client (h : WorkerStep s e s') :
    s'.client = s.client ∨ s'.client = s.client.notified := by
  cases h with
  | slotFree | notify => exact .inr rfl
  | _ => exact .inl rfl

theorem busy_eq (h : (asyncDb B).Run tr s) : s.busy = s.worker.inHand.isSome := by
  refine h.invariant (I := fun _ s => s.busy = s.worker.inHand.isSome) ?_ ?_
  · rintro _ ⟨db, rfl⟩
    rfl
  · rintro tr s e s' - ih (h | h)
    · have hb : s'.busy = s.busy ∧ s'.worker.inHand = s.worker.inHand := by
        cases h <;> simp
      rw [hb.1, hb.2, ih]
    · rcases h.slot with ⟨qj, -, -, -, hs, hb⟩ | ⟨qj, -, -, hs, hb⟩ | ⟨-, hs, hb⟩
      all_goals
        have hh := congrArg Handoff.State.inHand hs
        simp only [State.slot] at hh
      · rw [hb, hh]
        rfl
      · rw [hb, hh]
        rfl
      · rw [hb, hh, ih]

/-- When the queue is drained, nothing is pending or in hand. -/
theorem slot_of_drained (h : (asyncDb B).Run tr s) (hd : s.Drained) : s.slot = ⟨none, none⟩ := by
  have hb := busy_eq h
  rw [hd.2] at hb
  have hh : s.worker.inHand = none := by simpa using hb.symm
  rw [State.slot, hd.1, hh]

/-- Where a call begins: it posts a job, unless an error is pending, or drains the queue,
    or returns, or crashes. -/
theorem begin_cases (s : State B) (op : Op) :
    (∃ c qj, s.begin op = .post c qj false ∧ c.isBoundary = false) ∨
      (∃ d, s.begin op = .drain d ∧ d.waits = none) ∨
      (∃ r, s.begin op = .ret r ∧ r.isDrained = false) ∨ s.begin op = .crashed := by
  cases op with
  | prepare stmt sql n m => exact .inl ⟨_, _, rfl, rfl⟩
  | submit h | exec h | executeSync h =>
    simp only [State.begin]
    split
    · exact .inr (.inr (.inl ⟨_, rfl, rfl⟩))
    · split
      · exact .inr (.inr (.inr rfl))
      · exact .inl ⟨_, _, rfl, rfl⟩
  | fetchMore h =>
    simp only [State.begin]
    split
    · exact .inr (.inr (.inl ⟨_, rfl, rfl⟩))
    · exact .inl ⟨_, _, rfl, rfl⟩
  | drain | commit | rollback | destroy => exact .inr (.inl ⟨_, rfl, rfl⟩)

@[simp] theorem atRest_begin (s : State B) (op : Op) : (s.begin op).atRest = false := by
  rcases begin_cases s op with ⟨c, qj, h, hb⟩ | ⟨d, h, -⟩ | ⟨r, h, hr⟩ | h <;> rw [h]
  · exact hb
  · rfl
  · exact hr
  · rfl

@[simp] theorem atRest_next (c : PostCtx) : c.next.atRest = false := by
  cases c <;> rfl

/-- The client comes to rest only by draining the queue, and rests without touching it. -/
theorem ClientStep.atRest (h : ClientStep s e s') (hc : s'.client.atRest) :
    s'.slot = s.slot ∧ (s.client.atRest ∨ s.Drained) := by
  cases h with
  | drained _ hd => exact ⟨rfl, .inr hd⟩
  | call _ _ => cases (atRest_begin _ _).symm.trans hc
  | discard _ _ | notify _ => cases (atRest_next _).symm.trans hc
  | blocked h _ _ | slotSpurious h | slotSleep h _ => exact ⟨rfl, .inl (by rw [h]; exact hc)⟩
  | readSync h | readFetch h | readCommit h | assembleError h _ | assembleCrash h _ _ _
  | assemble h _ _ | clearCommit h | clearRollback h | setStop h | join h _ =>
    exact ⟨rfl, .inl (by rw [h]; rfl)⟩
  | notifyStop h => exact ⟨by simp [State.slot], .inl (by rw [h]; rfl)⟩
  | @ret r h =>
    cases r with
    | destroyed => exact ⟨rfl, .inl (by rw [h]; rfl)⟩
    | _ => cases hc
  | write h _ _ | isFinished h | error h => rw [h] at hc; cases hc
  | _ => cases hc

/-- While the client is at rest, nothing is pending or in hand. -/
theorem slot_of_atRest (h : (asyncDb B).Run tr s) (hc : s.client.atRest) :
    s.slot = ⟨none, none⟩ := by
  refine h.invariant (I := fun _ s => s.client.atRest → s.slot = ⟨none, none⟩) ?_ ?_ hc
  · rintro _ ⟨db, rfl⟩ -
    rfl
  · rintro tr s e s' hr ih (h | h) hc
    · obtain ⟨hs, hd | hd⟩ := h.atRest hc
      · rw [hs, ih hd]
      · rw [hs, slot_of_drained hr hd]
    · have hc : s.client.atRest := by
        rcases h.client with h | h <;> simpa [h] using hc
      have h0 := ih hc
      rcases h.slot with ⟨qj, -, -, hp, -⟩ | ⟨qj, -, hh, -⟩ | ⟨-, hs, -⟩
      · simp [State.slot, hp] at h0
      · simp [State.slot, hh] at h0
      · rw [hs, h0]

/-! ## The job of a call -/

@[simp] theorem awaits_begin (s : State B) (op : Op) : (s.begin op).awaits = none := by
  rcases begin_cases s op with ⟨c, qj, h, -⟩ | ⟨d, h, hd⟩ | ⟨r, h, -⟩ | h <;> rw [h]
  · rfl
  · exact hd
  · rfl
  · rfl

@[simp] theorem awaits_next (c : PostCtx) : c.next.awaits = c.waits := by
  cases c <;> rfl

@[simp] theorem posting_next (c : PostCtx) : c.next.posting = none := by
  cases c <;> rfl

theorem posts_begin {op : Op} {c : PostCtx} {qj : QueuedJob}
    (h : (s.begin op).posting = some (c, qj)) : c.Posts qj.fn := by
  cases op with
  | prepare stmt sql n m =>
    cases h
    exact ⟨rfl, rfl⟩
  | submit hd | exec hd | executeSync hd | fetchMore hd =>
    simp only [State.begin] at h
    split at h
    · cases h
    · first
      | cases h; trivial
      | (split at h <;> cases h; trivial)
  | _ => cases h

theorem posts_afterDrain {d : DrainCtx} {c : PostCtx} {qj : QueuedJob}
    (h : (s.afterDrain d).posting = some (c, qj)) : c.Posts qj.fn := by
  cases d with
  | rollback =>
    cases h
    trivial
  | run d => cases d <;> cases h
  | _ => cases h

theorem posts_afterReadCommit {c : PostCtx} {qj : QueuedJob}
    (h : s.afterReadCommit.posting = some (c, qj)) : c.Posts qj.fn := by
  rw [State.afterReadCommit] at h
  split at h <;> cases h <;> trivial

/-- The client posts the job of its call. -/
theorem posts (h : (asyncDb B).Run tr s) {c : PostCtx} {qj : QueuedJob}
    (hc : s.client.posting = some (c, qj)) : c.Posts qj.fn := by
  refine h.invariant (I := fun _ s => ∀ c qj, s.client.posting = some (c, qj) → c.Posts qj.fn)
    ?_ ?_ c qj hc
  · rintro _ ⟨db, rfl⟩ c qj hc
    cases hc
  · rintro tr s e s' - ih (h | h) c qj hc
    · cases h with
      | call _ _ => exact posts_begin hc
      | drained _ _ => exact posts_afterDrain hc
      | readCommit _ => exact posts_afterReadCommit hc
      | blocked h _ _ | slotSpurious h | slotSleep h _ =>
        refine ih c qj ?_
        rw [h]
        exact hc
      | write _ _ _ | isFinished _ | error _ => exact ih c qj hc
      | discard _ _ | notify _ => cases (posting_next _).symm.trans hc
      | @ret r _ => cases r <;> cases hc
      | _ => cases hc
    · refine ih c qj ?_
      rcases h.client with h | h <;> simpa [h] using hc

/-- The job that is posted in spite of an error. -/
def ClientPc.insists : ClientPc → Option QueuedJob
  | .post _ qj true => some qj
  | _ => none

@[simp] theorem insists_notified (pc : ClientPc) : pc.notified.insists = pc.insists := by
  cases pc <;> rfl

@[simp] theorem insists_next (c : PostCtx) : c.next.insists = none := by
  cases c <;> rfl

@[simp] theorem insists_begin (s : State B) (op : Op) : (s.begin op).insists = none := by
  rcases begin_cases s op with ⟨c, qj, h, -⟩ | ⟨d, h, -⟩ | ⟨r, h, -⟩ | h <;> rw [h] <;> rfl

/-- The calls that end a transaction post their job in spite of an error. -/
theorem even_of_boundary (h : (asyncDb B).Run tr s) {c : PostCtx} {qj : QueuedJob} {even : Bool}
    (hc : s.client = .post c qj even) (hb : c.isBoundary) : even = true := by
  refine h.invariant (I := fun _ s => ∀ c qj even, s.client = .post c qj even → c.isBoundary →
    even = true) ?_ ?_ c qj even hc hb
  · rintro _ ⟨db, rfl⟩ c qj even hc
    cases hc
  · rintro tr s e s' - ih (h | h) c qj even hc hb
    · -- Such a call posts only after it has drained, and then in spite of an error.
      have hp : s'.client.atRest := by
        rw [hc]
        exact hb
      cases h with
      | call _ _ => cases (atRest_begin _ _).symm.trans hp
      | discard _ _ | notify _ => cases (atRest_next _).symm.trans hp
      | @drained d _ _ =>
        rcases d with _ | _ | _ | _ | _ | _ | _ | _ | _ | _ <;> cases hc
        rfl
      | readCommit _ =>
        simp only [State.afterReadCommit] at hc
        split at hc <;> cases hc <;> rfl
      | @ret r _ => cases r <;> cases hc
      | write _ _ _ | isFinished _ | error _ => exact ih c qj even hc hb
      | _ => cases hc
    · refine ih c qj even ?_ hb
      rcases h.client with h | h <;> rw [h] at hc
      · exact hc
      · cases hs : s.client <;> rw [hs] at hc <;> first
        | exact hc
        | cases hc

/-- What is posted in spite of an error is not a statement. -/
theorem attended_of_insists (h : (asyncDb B).Run tr s) {qj : QueuedJob}
    (hc : s.client.insists = some qj) : qj.fn.isUnattended = false := by
  refine h.invariant (I := fun _ s => ∀ qj, s.client.insists = some qj →
    qj.fn.isUnattended = false) ?_ ?_ qj hc
  · rintro _ ⟨db, rfl⟩ qj hc
    cases hc
  · rintro tr s e s' - ih (h | h) qj hc
    · cases h with
      | call _ _ => cases (insists_begin _ _).symm.trans hc
      | discard _ _ | notify _ => cases (insists_next _).symm.trans hc
      | @drained d _ _ =>
        rcases d with _ | _ | _ | _ | _ | _ | _ | _ | _ | _ <;> cases hc
        rfl
      | readCommit _ =>
        simp only [State.afterReadCommit] at hc
        split at hc <;> cases hc <;> rfl
      | @ret r _ => cases r <;> cases hc
      | write _ _ _ | isFinished _ | error _ => exact ih qj hc
      | _ => cases hc
    · refine ih qj ?_
      rcases h.client with h | h <;> simpa [h] using hc

/-- A step of the client stores the job it is posting, or leaves the queue alone and
    keeps waiting for the job it waits for, unless it has drained the queue. -/
theorem ClientStep.awaits (h : ClientStep s e s') :
    (∃ c qj, s.client.posting = some (c, qj) ∧ e = .enqueue qj ∧ s.pending = none ∧
        s'.slot = ⟨some qj, s.worker.inHand⟩ ∧ s'.client.awaits = c.waits) ∨
      (e.act = none ∧ s'.slot = s.slot ∧
        (s.client.awaits = none ∨ s'.client.awaits = s.client.awaits ∨ s.Drained)) := by
  cases h with
  | store h _ hp | slotStore h hp => exact .inl ⟨_, _, by rw [h]; rfl, rfl, hp, rfl, rfl⟩
  | drained _ hd => exact .inr ⟨rfl, rfl, .inr (.inr hd)⟩
  | notify h =>
    refine .inr ⟨rfl, by simp [State.slot], .inr (.inl ?_)⟩
    rw [h]
    exact awaits_next _
  | drainSleep h _ | drainSpurious h => exact .inr ⟨rfl, rfl, .inr (.inl (by rw [h]; rfl))⟩
  | notifyStop h => exact .inr ⟨rfl, by simp [State.slot], .inl (by rw [h]; rfl)⟩
  | write h _ _ | isFinished h | error h | call h _ | discard h _ | blocked h _ _
  | slotSpurious h | slotSleep h _ | readExec h | readSync h | readFetch h | readCommit h
  | assembleError h _ | assembleCrash h _ _ _ | assemble h _ _ | clearCommit h | clearRollback h
  | setStop h | join h _ | ret h =>
    exact .inr ⟨rfl, rfl, .inl (by rw [h]; rfl)⟩

/-- The job is the one the client waits for, or one that no client waits for. -/
def ClientPc.Attends (pc : ClientPc) (j : Job) : Prop :=
  j.isUnattended ∨ ∃ c, pc.awaits = some c ∧ c.Runs j

theorem PostCtx.Posts.attended {c : PostCtx} {j : Job} (h : c.Posts j) :
    j.isUnattended ∨ ∃ c', c.waits = some c' ∧ c'.Runs j := by
  cases c with
  | submit | exec =>
    cases j <;> first
    | exact .inl rfl
    | cases h
  | run c => exact .inr ⟨c, rfl, h⟩

theorem ClientPc.awaits_of_posting {pc : ClientPc} {p : PostCtx × QueuedJob}
    (h : pc.posting = some p) : pc.awaits = none := by
  cases pc <;> first
  | rfl
  | cases h

/-- A job in the slot or in hand is attended by the client. -/
theorem attends (h : (asyncDb B).Run tr s) {qj : QueuedJob} (hj : s.slot.Has qj) :
    s.client.Attends qj.fn := by
  refine h.invariant (I := fun _ s => ∀ qj, s.slot.Has qj → s.client.Attends qj.fn) ?_ ?_ qj hj
  · rintro _ ⟨db, rfl⟩ qj (h | h) <;> cases h
  · rintro tr s e s' hr ih (h | h) qj hj
    · rcases h.awaits with ⟨c, qj', hc, -, hp, hs, ha⟩ | ⟨-, hs, ha⟩
      · rw [hs] at hj
        rcases hj with hj | hj
        · cases hj
          rw [ClientPc.Attends, ha]
          exact (posts hr hc).attended
        · -- The client was not waiting when it posted.
          rcases ih qj (.inr hj) with hu | ⟨c', hc', -⟩
          · exact .inl hu
          · cases (ClientPc.awaits_of_posting hc).symm.trans hc'
      · rw [hs] at hj
        rcases ih qj hj with hu | ⟨c, hc, hrun⟩
        · exact .inl hu
        · rcases ha with ha | ha | ha
          · cases ha.symm.trans hc
          · exact .inr ⟨c, ha.trans hc, hrun⟩
          · -- It stops waiting only when the slot is empty and nothing is in hand.
            rw [slot_of_drained hr ha] at hj
            rcases hj with hj | hj <;> cases hj
    · have hc : s'.client.awaits = s.client.awaits := by
        rcases h.client with h | h <;> simp [h]
      rw [ClientPc.Attends, hc]
      rcases has_step (.inr h) hj with hj | rfl
      · exact ih qj hj
      · cases h

/-! ## The stages of a job -/

/-- The jobs that run a query. -/
def Job.isQuery : Job → Bool
  | .submit _ _ | .exec _ _ | .executeSync _ _ | .fetchMore _ => true
  | _ => false

/-- The stages a job can be in. -/
def Job.hasStage (j : Job) : Stage → Bool
  | .check => j.keepsFetched
  | .restore | .execute => j.statement.isSome
  | .fetch | .note _ => j.isQuery
  | .direct => !j.isQuery
  | .done => true

theorem Job.isQuery_of_statement {j : Job} (h : j.statement.isSome) : j.isQuery := by
  cases j <;> first
  | rfl
  | cases h

theorem hasStage_entry (j : Job) : j.hasStage j.entry := by
  cases j <;> rfl

theorem hasStage_afterCheck {j : Job} (h : j.keepsFetched) : j.hasStage j.afterCheck := by
  cases j <;> first
  | rfl
  | cases h

theorem hasStage_afterExecute {j : Job} {stmt : StmtType} (h : j.statement.isSome) :
    j.hasStage (j.afterExecute stmt) := by
  rcases stmt with ⟨_, _, _ | _⟩ <;> cases j <;> first
  | rfl
  | cases h

/-- The worker goes through the stages of the job it has in hand. -/
theorem hasStage (h : (asyncDb B).Run tr s) {qj : QueuedJob} {st : Stage}
    (hw : s.worker = .run qj st) : qj.fn.hasStage st := by
  refine h.invariant (I := fun _ s => ∀ qj st, s.worker = .run qj st → qj.fn.hasStage st)
    ?_ ?_ qj st hw
  · rintro _ ⟨db, rfl⟩ qj st hw
    cases hw
  · rintro tr s e s' - ih (h | h) qj st hw
    · refine ih qj st ?_
      cases h with
      | notify | notifyStop => cases hs : s.worker <;> simp_all [WorkerPc.notified]
      | _ => exact hw
    · cases h with
      | slotFree _ => cases hw; exact hasStage_entry _
      | check h _ => cases hw; exact hasStage_afterCheck (ih _ _ h)
      | restore h _ _ _ => cases hw; exact ih _ .restore h
      | execute h _ _ _ => cases hw; exact hasStage_afterExecute (ih _ _ h)
      | executeError h _ _ _ => cases hw; exact Job.isQuery_of_statement (ih _ _ h)
      | fetchError h _ _ _ => cases hw; exact ih _ .fetch h
      | skip | fetch | record | keep | prepareError | prepare | commit | rollbackIgnored
      | rollback => cases hw; rfl
      | _ => cases hw

end Dbgen4.Async
