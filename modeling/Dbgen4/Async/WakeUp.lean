import Dbgen4.CondVar
import Dbgen4.Async.Progress
import Dbgen4.Async.Schedule

/-!
# The asynchronous facade: waking up

`to_worker_` and `from_worker_` as condition variables without spurious wake-ups
(`asyncDbWoken`): who is asleep on one of them does nothing until it is notified. The wait sets are
read off the positions of the two threads, and change as those of condition variables do
(`asyncMonitor_waits`).

The predicates are changed under the mutex and the notifications sent outside of it, in the next
step of the same thread. So no wake-up is lost (`noLostWakeup`), and none of `post_to_worker`,
`drain` and the destructor's join can hang, unless the job in hand does not come to its end
(`leaves`).
-/

namespace Dbgen4.Async

open Rtl CondVar

variable {B : Backend} {tr : List Event} {s s' : State B} {e : Event}

/-! ## Threads and condition variables -/

inductive Thread
  | client
  | worker
  deriving DecidableEq, Repr

/-- `to_worker_` and `from_worker_`. -/
inductive Cv
  | toWorker
  | fromWorker
  deriving DecidableEq, Repr

/-- The client is asleep on `from_worker_`. -/
def ClientPc.asleep : ClientPc → Bool
  | .slotAsleep _ _ | .drainAsleep _ => true
  | _ => false

/-- The destructor joins the worker, or is about to, with `stop_` set. -/
def ClientPc.stopping : ClientPc → Bool
  | .notifyStop | .join => true
  | _ => false

/-- The client is about to notify `to_worker_`. -/
def ClientPc.notifying : ClientPc → Bool
  | .notify _ | .notifyStop => true
  | _ => false

/-- The worker is about to notify `from_worker_`. -/
def WorkerPc.notifying : WorkerPc → Bool
  | .took _ | .notify => true
  | _ => false

namespace State

variable (s : State B)

/-- The wait sets: the threads asleep. -/
def waiting : Cv → Set Thread
  | .toWorker => {t | t = .worker ∧ s.worker = .asleep}
  | .fromWorker => {t | t = .client ∧ s.client.asleep}

/-- The predicates of the waits: that of `worker_loop`, and, on the other side, that of `drain` or
    that of `post_to_worker`. -/
def awaited : Cv → Prop
  | .toWorker => s.pending.isSome ∨ s.stop
  | .fromWorker => match s.client with
    | .drainAsleep _ => s.Drained
    | _ => s.pending = none

/-- A thread has a notification of a condition variable to send. -/
def owes : Thread → Cv → Prop
  | .client, .toWorker => s.client.notifying
  | .worker, .fromWorker => s.worker.notifying
  | _, _ => False

/-- What a step to `s'` does with the condition variables. -/
def act (s' : State B) : Thread → Act Thread Cv
  | .client => match s.client with
    | .notify _ => .notifyOne .toWorker
    | .notifyStop => .notifyAll .toWorker
    | _ => if s'.client.asleep then .wait .client .fromWorker else .none
  | .worker => match s.worker with
    | .took _ | .notify => .notifyAll .fromWorker
    | _ => match s'.worker with
      | .asleep => .wait .worker .toWorker
      | _ => .none

end State

/-- The steps of a thread. -/
def ThreadStep : Thread → State B → Event → State B → Prop
  | .client => ClientStep
  | .worker => WorkerStep

/-- `async_db` without spurious wake-ups: who is asleep does not step. -/
def asyncDbWoken (B : Backend) : Lts (State B) Event where
  init := (asyncDb B).init
  step s e s' := ∃ t, (∀ v, t ∉ s.waiting v) ∧ ThreadStep t s e s'

/-- The two threads, and what they do with the condition variables. -/
def asyncMonitor (B : Backend) : Monitor (State B) Thread Cv where
  step t s a s' := (∀ v, t ∉ s.waiting v) ∧ (∃ e, ThreadStep t s e s') ∧ a = s.act s' t
  waiting := State.waiting
  pred s v _ := s.awaited v
  owes := State.owes

/-- Without spurious wake-ups there are fewer runs. -/
theorem run_of_woken (h : (asyncDbWoken B).Run tr s) : (asyncDb B).Run tr s := by
  induction h with
  | init hs => exact .init hs
  | step _ hst ih =>
    obtain ⟨t, -, hst⟩ := hst
    cases t with
    | client => exact .step ih (.inl hst)
    | worker => exact .step ih (.inr hst)

/-! ## What a step does with the condition variables -/

/-- No call begins asleep, or stopping. -/
@[simp] theorem asleep_stopping_begin (s : State B) (op : Op) :
    (s.begin op).asleep = false ∧ (s.begin op).stopping = false := by
  rcases begin_cases s op with ⟨c, qj, h, -⟩ | ⟨d, h, -⟩ | ⟨r, h, -⟩ | h <;> rw [h] <;>
    exact ⟨rfl, rfl⟩

@[simp] theorem asleep_stopping_next (c : PostCtx) :
    c.next.asleep = false ∧ c.next.stopping = false := by
  cases c <;> exact ⟨rfl, rfl⟩

@[simp] theorem asleep_stopping_result (r : Result) :
    r.next.asleep = false ∧ r.next.stopping = false := by
  cases r <;> exact ⟨rfl, rfl⟩

@[simp] theorem asleep_stopping_afterDrain (c : DrainCtx) :
    (s.afterDrain c).asleep = false ∧ (s.afterDrain c).stopping = false := by
  cases c with
  | run c => cases c <;> exact ⟨rfl, rfl⟩
  | _ => exact ⟨rfl, rfl⟩

@[simp] theorem asleep_stopping_afterReadCommit :
    s.afterReadCommit.asleep = false ∧ s.afterReadCommit.stopping = false := by
  rw [State.afterReadCommit]
  split <;> exact ⟨rfl, rfl⟩

/-- A step of the client goes to sleep on a predicate that is false, or notifies, or does neither;
    then it changes what the worker waits for only if it notifies next. -/
theorem ClientStep.condVar (h : ClientStep s e s') (ha : s.client.asleep = false) :
    (s.client.notifying = false ∧ s'.client.asleep ∧ ¬ s'.awaited .fromWorker ∧
        s'.worker = s.worker ∧ (s'.awaited .toWorker ↔ s.awaited .toWorker)) ∨
      (s.client.notifying ∧ s'.client.asleep = false ∧ s'.worker = s.worker.notified ∧
        (s'.awaited .toWorker ↔ s.awaited .toWorker)) ∨
      (s.client.notifying = false ∧ s'.client.asleep = false ∧ s'.worker = s.worker ∧
        ((s'.awaited .toWorker ↔ s.awaited .toWorker) ∨ s'.client.notifying)) := by
  cases h with
  | blocked hc _ hp | slotSleep hc hp =>
    refine .inl ⟨by rw [hc]; rfl, rfl, fun hn => ?_, rfl, .rfl⟩
    simp only [State.awaited] at hn
    rw [hn] at hp
    cases hp
  | drainSleep hc hn => exact .inl ⟨by rw [hc]; rfl, rfl, hn, rfl, .rfl⟩
  | notify hc => exact .inr (.inl ⟨by rw [hc]; rfl, (asleep_stopping_next _).1, rfl, .rfl⟩)
  | notifyStop hc => exact .inr (.inl ⟨by rw [hc]; rfl, rfl, rfl, .rfl⟩)
  | slotSpurious hc | drainSpurious hc =>
    rw [hc] at ha
    cases ha
  | store hc _ _ | slotStore hc _ | setStop hc =>
    exact .inr (.inr ⟨by rw [hc]; rfl, rfl, rfl, .inr rfl⟩)
  | write hc _ _ | isFinished hc | error hc =>
    exact .inr (.inr ⟨by rw [hc]; rfl, ha, rfl, .inl .rfl⟩)
  | call hc _ | discard hc _ | drained hc _ | readCommit hc | ret hc =>
    exact .inr (.inr ⟨by rw [hc]; rfl, by simp, rfl, .inl .rfl⟩)
  | readExec hc | readSync hc | readFetch hc | assembleError hc _ | assembleCrash hc _ _ _
  | assemble hc _ _ | clearCommit hc | clearRollback hc | join hc _ =>
    exact .inr (.inr ⟨by rw [hc]; rfl, rfl, rfl, .inl .rfl⟩)

/-- What the client waits for is read off the slot, `busy_` and its position. -/
theorem awaited_fromWorker (hc : s'.client = s.client) (hp : s'.pending = s.pending)
    (hb : s'.busy = s.busy) : s'.awaited .fromWorker ↔ s.awaited .fromWorker := by
  simp only [State.awaited, State.Drained, hc, hp, hb]

/-- A step of the worker goes to sleep on a predicate that is false, or notifies, or does neither;
    then it changes what the client waits for only if it notifies next. -/
theorem WorkerStep.condVar (h : WorkerStep s e s') (ha : s.worker ≠ .asleep) :
    (s.worker.notifying = false ∧ s'.worker = .asleep ∧ ¬ s'.awaited .toWorker ∧
        s'.client = s.client ∧ (s'.awaited .fromWorker ↔ s.awaited .fromWorker)) ∨
      (s.worker.notifying ∧ s'.worker ≠ .asleep ∧ s'.client = s.client.notified) ∨
      (s.worker.notifying = false ∧ s'.worker ≠ .asleep ∧ s'.client = s.client ∧
        ((s'.awaited .fromWorker ↔ s.awaited .fromWorker) ∨ s'.worker.notifying)) := by
  cases h with
  | sleep hw hp hs =>
    refine .inl ⟨by rw [hw]; rfl, rfl, fun hn => ?_, rfl, awaited_fromWorker rfl rfl rfl⟩
    simp [State.awaited, hp, hs] at hn
  | slotFree hw | notify hw => exact .inr (.inl ⟨by rw [hw]; rfl, by simp, rfl⟩)
  | spurious hw => exact absurd hw ha
  | take hw _ | finish hw => exact .inr (.inr ⟨by rw [hw]; rfl, by simp, rfl, .inr rfl⟩)
  | exit hw _ _ | skip hw _ | check hw _ | restore hw _ _ _ | restoreOverflow hw _ _ _ _
  | restoreNull hw _ _ | execute hw _ _ _ | executeError hw _ _ _ | fetch hw _ _ _
  | fetchError hw _ _ _ | fetchNull hw _ _ | record hw _ | keep hw _ | prepareError hw _ _
  | prepare hw _ _ | commit hw _ _ | rollbackIgnored hw _ _ | rollback hw _ _ =>
    exact .inr (.inr ⟨by rw [hw]; rfl, by simp, rfl, .inl (awaited_fromWorker rfl rfl rfl)⟩)

/-! ## The wait sets -/

theorem act_client (h : s.client.notifying = false) :
    s.act s' .client = if s'.client.asleep then .wait .client .fromWorker else .none := by
  simp only [State.act]
  split <;> first
  | rfl
  | simp_all [ClientPc.notifying]

/-- A client that notifies tells one thread or all of them. -/
theorem act_client_notifying (h : s.client.notifying) :
    s.act s' .client = .notifyOne .toWorker ∨ s.act s' .client = .notifyAll .toWorker := by
  simp only [State.act]
  split <;> first
  | exact .inl rfl
  | exact .inr rfl
  | simp_all [ClientPc.notifying]

theorem act_worker_notifying (h : s.worker.notifying) :
    s.act s' .worker = .notifyAll .fromWorker := by
  simp only [State.act]
  split <;> first
  | rfl
  | simp_all [WorkerPc.notifying]

theorem act_worker (h : s.worker.notifying = false) (ha : s'.worker ≠ .asleep) :
    s.act s' .worker = .none := by
  simp only [State.act]
  split <;> simp_all [WorkerPc.notifying]

theorem act_worker_asleep (h : s.worker.notifying = false) (ha : s'.worker = .asleep) :
    s.act s' .worker = .wait .worker .toWorker := by
  simp only [State.act, ha]
  split <;> simp_all [WorkerPc.notifying]

/-- A thread that waits is in the wait set of its own condition variable. -/
theorem eq_of_mem_waiting {t : Thread} {v : Cv} (h : t ∈ s.waiting v) :
    t = .worker ∧ v = .toWorker ∧ s.worker = .asleep ∨
      t = .client ∧ v = .fromWorker ∧ s.client.asleep := by
  cases v with
  | toWorker => exact .inl ⟨h.1, rfl, h.2⟩
  | fromWorker => exact .inr ⟨h.1, rfl, h.2⟩

/-- Nobody but the worker waits on `to_worker_`. -/
theorem waiting_toWorker_subsingleton (s : State B) : (s.waiting .toWorker).Subsingleton :=
  fun _ ht _ hu => ht.1.trans hu.1.symm

theorem waiting_toWorker_of_ne (h : s.worker ≠ .asleep) : s.waiting .toWorker = ∅ :=
  Set.eq_empty_iff_forall_notMem.2 fun _ ht => h ht.2

theorem waiting_fromWorker_of_false (h : s.client.asleep = false) : s.waiting .fromWorker = ∅ :=
  Set.eq_empty_iff_forall_notMem.2 fun _ ht => by
    cases h.symm.trans ht.2

theorem waiting_toWorker_congr (h : s'.worker = s.worker) :
    s'.waiting .toWorker = s.waiting .toWorker := by
  simp only [State.waiting, h]

theorem waiting_fromWorker_congr (h : s'.client = s.client) :
    s'.waiting .fromWorker = s.waiting .fromWorker := by
  simp only [State.waiting, h]

/-- A wait set changes, and the other one does not. -/
theorem waiting_eq_update {v w : Cv} {W : Set Thread} (hne : w ≠ v) (hv : s'.waiting v = W)
    (hw : s'.waiting w = s.waiting w) : s'.waiting = Function.update s.waiting v W := by
  funext u
  by_cases hu : u = v
  · rw [hu, Function.update_self, hv]
  · rw [Function.update_of_ne hu]
    obtain rfl : u = w := by
      cases u <;> cases v <;> cases w <;> simp_all
    exact hw

/-- The wait sets do not change. -/
theorem waiting_eq (ht : s'.waiting .toWorker = s.waiting .toWorker)
    (hf : s'.waiting .fromWorker = s.waiting .fromWorker) : s'.waiting = s.waiting := by
  funext v
  cases v with
  | toWorker => exact ht
  | fromWorker => exact hf

theorem notified_ne_asleep (pc : WorkerPc) : pc.notified ≠ .asleep := by
  cases pc <;> simp [WorkerPc.notified]

@[simp] theorem asleep_notified (pc : ClientPc) : pc.notified.asleep = false := by
  cases pc <;> rfl

/-- The steps of the client change the wait sets as they should. -/
theorem waits_client (h : ClientStep s e s') (ha : s.client.asleep = false) :
    Waits s.waiting (s.act s' .client) s'.waiting := by
  rcases h.condVar ha with ⟨hn, ha', -, hw, -⟩ | ⟨hn, ha', hw, -⟩ | ⟨hn, ha', hw, -⟩
  · have hto := waiting_toWorker_congr hw
    have hfrom : s'.waiting .fromWorker = insert .client (s.waiting .fromWorker) := by
      rw [waiting_fromWorker_of_false ha, insert_empty_eq]
      exact Set.ext fun t => and_iff_left ha'
    rw [act_client hn, if_pos ha', waiting_eq_update (by decide) hfrom hto]
    exact .wait _ _ _
  · have hto : s'.waiting .toWorker = ∅ :=
      waiting_toWorker_of_ne (hw ▸ notified_ne_asleep s.worker)
    have hfrom : s'.waiting .fromWorker = s.waiting .fromWorker := by
      rw [waiting_fromWorker_of_false ha, waiting_fromWorker_of_false ha']
    rw [waiting_eq_update (by decide) hto hfrom]
    rcases act_client_notifying hn with hact | hact <;> rw [hact]
    · exact .one_of_subsingleton (waiting_toWorker_subsingleton s)
    · exact .notifyAll _ _
  · rw [act_client hn, if_neg (by rw [ha']; exact Bool.false_ne_true),
      waiting_eq (waiting_toWorker_congr hw) (by
        rw [waiting_fromWorker_of_false ha, waiting_fromWorker_of_false ha'])]
    exact .none _

/-- The steps of the worker change the wait sets as they should. -/
theorem waits_worker (h : WorkerStep s e s') (ha : s.worker ≠ .asleep) :
    Waits s.waiting (s.act s' .worker) s'.waiting := by
  have hto := waiting_toWorker_of_ne ha
  rcases h.condVar ha with ⟨hn, ha', -, hc, -⟩ | ⟨hn, ha', hc⟩ | ⟨hn, ha', hc, -⟩
  · have hfrom := waiting_fromWorker_congr hc
    have hto' : s'.waiting .toWorker = insert .worker (s.waiting .toWorker) := by
      rw [hto, insert_empty_eq]
      exact Set.ext fun t => and_iff_left ha'
    rw [act_worker_asleep hn ha', waiting_eq_update (by decide) hto' hfrom]
    exact .wait _ _ _
  · have hfrom : s'.waiting .fromWorker = ∅ :=
      waiting_fromWorker_of_false (by rw [hc, asleep_notified])
    have hto' : s'.waiting .toWorker = s.waiting .toWorker := by
      rw [hto, waiting_toWorker_of_ne ha']
    rw [act_worker_notifying hn, waiting_eq_update (by decide) hfrom hto']
    exact .notifyAll _ _
  · have hto' : s'.waiting .toWorker = s.waiting .toWorker := by
      rw [hto, waiting_toWorker_of_ne ha']
    rw [act_worker hn ha', waiting_eq hto' (waiting_fromWorker_congr hc)]
    exact .none _

/-- The client is awake if it is in no wait set. -/
theorem client_awake : (∀ v, Thread.client ∉ s.waiting v) ↔ s.client.asleep = false := by
  refine ⟨fun h => Bool.eq_false_iff.2 fun ha => h .fromWorker ⟨rfl, ha⟩, fun h v hv => ?_⟩
  rcases eq_of_mem_waiting hv with ⟨ht, -⟩ | ⟨-, -, ha⟩
  · cases ht
  · cases h.symm.trans ha

theorem worker_awake : (∀ v, Thread.worker ∉ s.waiting v) ↔ s.worker ≠ .asleep := by
  refine ⟨fun h ha => h .toWorker ⟨rfl, ha⟩, fun h v hv => ?_⟩
  rcases eq_of_mem_waiting hv with ⟨-, -, ha⟩ | ⟨ht, -⟩
  · exact h ha
  · cases ht

/-- The wait sets change as those of condition variables do. -/
theorem asyncMonitor_waits {t : Thread} {a : Act Thread Cv} (h : (asyncMonitor B).step t s a s') :
    Waits s.waiting a s'.waiting := by
  obtain ⟨hawake, ⟨e, hst⟩, rfl⟩ := h
  cases t with
  | client => exact waits_client hst (client_awake.1 hawake)
  | worker => exact waits_worker hst (worker_awake.1 hawake)

/-! ## No wake-up is lost -/

theorem notifying_notified (pc : ClientPc) : pc.notified.notifying = pc.notifying := by
  cases pc <;> rfl

theorem notifying_notified_worker (pc : WorkerPc) : pc.notified.notifying = pc.notifying := by
  cases pc <;> rfl

theorem eq_of_owes {t : Thread} {v : Cv} (h : s.owes t v) :
    t = .worker ∧ v = .fromWorker ∧ s.worker.notifying ∨
      t = .client ∧ v = .toWorker ∧ s.client.notifying := by
  cases t <;> cases v
  · exact .inr ⟨rfl, rfl, h⟩
  · exact h.elim
  · exact h.elim
  · exact .inl ⟨rfl, rfl, h⟩

/-- A thread goes to sleep only on a predicate that it found false. -/
theorem not_awaited_of_wait {t u : Thread} {v : Cv}
    (h : (asyncMonitor B).step t s (.wait u v) s') : ¬ s'.awaited v := by
  obtain ⟨hawake, ⟨e, hst⟩, hact⟩ := h
  cases t with
  | client =>
    rcases hst.condVar (client_awake.1 hawake) with ⟨hn, ha, hfalse, -⟩ | ⟨hn, -⟩ | ⟨hn, ha, -⟩
    · rw [act_client hn, if_pos ha] at hact
      cases hact
      exact hfalse
    · rcases act_client_notifying hn with h | h <;> cases hact.trans h
    · rw [act_client hn, ha] at hact
      cases hact
  | worker =>
    rcases hst.condVar (worker_awake.1 hawake) with ⟨hn, ha, hfalse, -⟩ | ⟨hn, -⟩ | ⟨hn, ha, -⟩
    · cases hact.trans (act_worker_asleep hn ha)
      exact hfalse
    · cases hact.trans (act_worker_notifying hn)
    · cases hact.trans (act_worker hn ha)

/-- A step of the client that gives the worker something to do is followed by the notification. -/
theorem ClientStep.owes (h : ClientStep s e s') (ha : s.client.asleep = false)
    (hp : ¬ s.awaited .toWorker) (hp' : s'.awaited .toWorker) : s'.client.notifying := by
  rcases h.condVar ha with ⟨-, -, -, -, h⟩ | ⟨-, -, -, h⟩ | ⟨-, -, -, h | h⟩
  · exact absurd (h.1 hp') hp
  · exact absurd (h.1 hp') hp
  · exact absurd (h.1 hp') hp
  · exact h

/-- A step of the worker that makes true what the client waits for wakes it, or is followed by the
    notification. -/
theorem WorkerStep.owes (h : WorkerStep s e s') (ha : s.worker ≠ .asleep)
    (hasleep : s'.client.asleep) (hp : ¬ s.awaited .fromWorker) (hp' : s'.awaited .fromWorker) :
    s'.worker.notifying := by
  rcases h.condVar ha with ⟨-, -, -, -, h⟩ | ⟨-, -, h⟩ | ⟨-, -, -, h | h⟩
  · exact absurd (h.1 hp') hp
  · -- It has been woken.
    rw [h, asleep_notified] at hasleep
    cases hasleep
  · exact absurd (h.1 hp') hp
  · exact h

/-- A step of one thread leaves the notifications of the other one alone. -/
theorem owes_of_ne {t u : Thread} {a : Act Thread Cv} {v : Cv}
    (h : (asyncMonitor B).step t s a s') (hne : u ≠ t) (howes : s.owes u v) : s'.owes u v := by
  obtain ⟨-, ⟨e, hst⟩, -⟩ := h
  cases t with
  | client =>
    obtain ⟨rfl, rfl, hn⟩ | ⟨rfl, -⟩ := eq_of_owes howes
    · rcases ClientStep.worker hst with h | h
      · exact (congrArg WorkerPc.notifying h).trans hn
      · exact (congrArg WorkerPc.notifying h).trans ((notifying_notified_worker _).trans hn)
    · exact absurd rfl hne
  | worker =>
    obtain ⟨rfl, -⟩ | ⟨rfl, rfl, hn⟩ := eq_of_owes howes
    · exact absurd rfl hne
    · rcases WorkerStep.client hst with h | h
      · exact (congrArg ClientPc.notifying h).trans hn
      · exact (congrArg ClientPc.notifying h).trans ((notifying_notified _).trans hn)

/-- The client and the worker keep to the discipline of condition variables. -/
theorem asyncMonitor_discipline (B : Backend) : (asyncMonitor B).Discipline where
  waits _ _ _ _ h := asyncMonitor_waits h
  awake _ _ _ _ v h := h.1 v
  sleep _ _ _ _ _ h := not_awaited_of_wait h
  change t s a s' v u h hu hp hu' hp' := by
    obtain ⟨hawake, ⟨e, hst⟩, -⟩ := h
    cases t with
    | client =>
      rcases eq_of_mem_waiting hu with ⟨rfl, rfl, -⟩ | ⟨rfl, rfl, -⟩
      · exact ClientStep.owes hst (client_awake.1 hawake) hp hp'
      · exact absurd hu (hawake .fromWorker)
    | worker =>
      rcases eq_of_mem_waiting hu with ⟨rfl, rfl, -⟩ | ⟨rfl, rfl, -⟩
      · exact absurd hu (hawake .toWorker)
      · exact WorkerStep.owes hst (worker_awake.1 hawake) hu'.2 hp hp'
  keep _ _ _ _ _ _ h := owes_of_ne h
  pay t s a s' v h howes := by
    obtain ⟨-, -, rfl⟩ := h
    obtain ⟨rfl, rfl, hn⟩ | ⟨rfl, rfl, hn⟩ := eq_of_owes howes
    · exact .inr (.inl (act_worker_notifying hn))
    · rcases act_client_notifying hn with h | h
      · exact .inr (.inr ⟨h, waiting_toWorker_subsingleton s⟩)
      · exact .inr (.inl h)

/-- A thread that has a notification to send does nothing else next. -/
theorem notifiesNext_of_owes {t : Thread} {v : Cv} (h : s.owes t v) :
    (asyncMonitor B).NotifiesNext s t v := by
  rcases eq_of_owes h with ⟨rfl, rfl, hn⟩ | ⟨rfl, rfl, hn⟩
  · refine ⟨?_, ?_⟩
    · cases hw : s.worker with
      | took qj => exact ⟨_, _, worker_awake.2 (by simp [hw]), ⟨_, .slotFree hw⟩, rfl⟩
      | notify => exact ⟨_, _, worker_awake.2 (by simp [hw]), ⟨_, .notify hw⟩, rfl⟩
      | _ =>
        rw [hw] at hn
        cases hn
    · rintro a s' ⟨-, -, rfl⟩
      exact .inr (act_worker_notifying hn)
  · refine ⟨?_, ?_⟩
    · cases hc : s.client with
      | notify c => exact ⟨_, _, client_awake.2 (by rw [hc]; rfl), ⟨_, .notify hc⟩, rfl⟩
      | notifyStop => exact ⟨_, _, client_awake.2 (by rw [hc]; rfl), ⟨_, .notifyStop hc⟩, rfl⟩
      | _ =>
        rw [hc] at hn
        cases hn
    · rintro a s' ⟨-, -, rfl⟩
      exact act_client_notifying hn

/-- In every state without spurious wake-ups, who sleeps although its predicate holds has a
    notification to come, from the other thread. -/
theorem noLostWakeup (h : (asyncDbWoken B).Run tr s) : (asyncMonitor B).NoLostWakeup s := by
  induction h with
  | init hs =>
    obtain ⟨db, rfl⟩ := hs
    intro v t ht
    rcases eq_of_mem_waiting ht with ⟨-, -, h⟩ | ⟨-, -, h⟩ <;> cases h
  | step _ hst ih =>
    obtain ⟨t, hawake, hst⟩ := hst
    exact ih.step (asyncMonitor_discipline B) ⟨hawake, ⟨_, hst⟩, rfl⟩

/-! ## Nobody hangs -/

/-- The operations in which the client may wait for the worker. -/
inductive Wait
  | postToWorker
  | drain
  | join
  deriving DecidableEq, Repr

/-- The operation that the client is in. -/
def ClientPc.wait : ClientPc → Option Wait
  | .post _ _ _ | .slotAsleep _ _ | .slotAwake _ _ | .notify _ => some .postToWorker
  | .drain _ | .drainAsleep _ => some .drain
  | .join => some .join
  | _ => none

/-- How far a job is from its end. -/
def Stage.rank : Stage → ℕ
  | .check => 6
  | .restore => 5
  | .execute => 4
  | .fetch => 3
  | .note _ | .direct => 2
  | .done => 1

/-- How many steps the worker may take before it sleeps, but for the job that is pending. -/
def WorkerPc.rank : WorkerPc → ℕ
  | .took _ => 9
  | .run _ st => st.rank + 2
  | .notify => 2
  | .top => 1
  | .asleep | .exited | .crashed _ => 0

/-- What the client still has to do. Posting leaves a job to the worker. -/
def ClientPc.rank : ClientPc → ℕ
  | .post _ _ _ | .slotAwake _ _ => 22
  | .slotAsleep _ _ => 21
  | .drain _ => 1
  | _ => 0

/-- A step of the worker counts for two, as it may wake the client, which then goes to sleep
    again. -/
def State.rank (s : State B) : ℕ :=
  2 * (s.worker.rank + if s.pending.isSome then 10 else 0) + s.client.rank

theorem Job.rank_entry (j : Job) : j.entry.rank ≤ 6 := by
  cases j <;> simp [Job.entry, Stage.rank]

theorem Job.rank_afterCheck (j : Job) : j.afterCheck.rank < Stage.check.rank := by
  cases j <;> simp [Job.afterCheck, Stage.rank]

theorem Job.rank_afterExecute (j : Job) (stmt : StmtType) :
    (j.afterExecute stmt).rank < Stage.execute.rank := by
  rcases stmt with ⟨_, _, _ | _⟩ <;> cases j <;> simp [Job.afterExecute, Stage.rank]

theorem rank_notified (pc : ClientPc) : pc.notified.rank ≤ pc.rank + 1 := by
  cases pc <;> simp [ClientPc.notified, ClientPc.rank]

/-- Every step of the worker brings it closer to its sleep. -/
theorem WorkerStep.rank_lt (h : WorkerStep s e s') (ha : s.worker ≠ .asleep) :
    s'.rank < s.rank := by
  cases h with
  | spurious hw => exact absurd hw ha
  | @slotFree qj hw =>
    have hclient := rank_notified s.client
    have hentry := qj.fn.rank_entry
    simp only [State.rank, WorkerPc.rank, hw]
    omega
  | notify hw =>
    have hclient := rank_notified s.client
    simp only [State.rank, WorkerPc.rank, hw]
    omega
  | @check qj hw _ =>
    have hcheck := qj.fn.rank_afterCheck
    simp only [State.rank, WorkerPc.rank, hw]
    omega
  | @execute qj i snap t db query hw _ _ _ =>
    have hexecute := qj.fn.rank_afterExecute t.stmt
    simp only [State.rank, WorkerPc.rank, hw]
    omega
  | take hw hp =>
    simp only [State.rank, WorkerPc.rank, hw, hp, Option.isSome_none, Option.isSome_some, if_true,
      Bool.false_eq_true, if_false]
    omega
  | exit hw _ _ | sleep hw _ _ | skip hw _ | restore hw _ _ _ | restoreOverflow hw _ _ _ _
  | restoreNull hw _ _ | executeError hw _ _ _ | fetch hw _ _ _
  | fetchError hw _ _ _ | fetchNull hw _ _ | record hw _ | keep hw _ | prepareError hw _ _
  | prepare hw _ _ | commit hw _ _ | rollbackIgnored hw _ _ | rollback hw _ _ | finish hw =>
    simp only [State.rank, WorkerPc.rank, hw, Stage.rank]
    omega

theorem wait_next (c : PostCtx) : c.next.wait ≠ some .postToWorker := by
  cases c <;> simp [PostCtx.next, ClientPc.wait]

theorem wait_afterDrain (c : DrainCtx) : (s.afterDrain c).wait ≠ some .drain := by
  cases c with
  | run c => cases c <;> simp [State.afterDrain, ClientPc.wait]
  | _ => simp [State.afterDrain, ClientPc.wait]

/-- A step of the client lowers the rank as well, unless it leaves the operation. -/
theorem ClientStep.rank_lt (h : ClientStep s e s') (ha : s.client.asleep = false) {w : Wait}
    (hw : s.client.wait = some w) (hw' : s'.client.wait = some w) : s'.rank < s.rank := by
  cases h with
  | slotSpurious hc | drainSpurious hc =>
    rw [hc] at ha
    cases ha
  | store hc _ hp | slotStore hc hp =>
    simp only [State.rank, ClientPc.rank, hc, hp, Option.isSome_none, Option.isSome_some, if_true,
      Bool.false_eq_true, if_false]
    omega
  | blocked hc _ _ | slotSleep hc _ | drainSleep hc _ =>
    simp only [State.rank, ClientPc.rank, hc]
    omega
  | discard hc _ | notify hc =>
    rw [hc] at hw
    cases hw
    exact absurd hw' (wait_next _)
  | drained hc _ =>
    rw [hc] at hw
    cases hw
    exact absurd hw' (wait_afterDrain _)
  | join hc _ =>
    cases hw'
  | write hc _ _ | isFinished hc | error hc | call hc _ | readExec hc | readSync hc | readFetch hc
  | readCommit hc | assembleError hc _ | assembleCrash hc _ _ _ | assemble hc _ _ | clearCommit hc
  | clearRollback hc | setStop hc | notifyStop hc | ret hc =>
    rw [hc] at hw
    cases hw

/-! ## Somebody can go on -/

@[simp] theorem stopping_notified (pc : ClientPc) : pc.notified.stopping = pc.stopping := by
  cases pc <;> rfl

theorem stop_of_stopping (h : (asyncDb B).Run tr s) (hc : s.client.stopping) : s.stop = true := by
  refine h.invariant (I := fun _ s => s.client.stopping → s.stop = true) ?_ ?_ hc
  · rintro _ ⟨db, rfl⟩ hc
    cases hc
  · rintro tr s e s' - ih (h | h) hc
    · cases h with
      | setStop _ => rfl
      | notifyStop h => exact ih (by rw [h]; rfl)
      | write h _ _ | isFinished h | error h => rw [h] at hc; cases hc
      | call _ _ | discard _ _ | drained _ _ | readCommit _ | ret _ | notify _ => simp at hc
      | _ => cases hc
    · have hstop : s'.stop = s.stop := by
        cases h <;> rfl
      rw [hstop]
      refine ih ?_
      rcases h.client with h | h <;> rw [h] at hc
      · exact hc
      · rwa [stopping_notified] at hc

/-- The worker can go on, unless it sleeps, or is done, or has crashed. -/
theorem worker_steps (h : (asyncDb B).Run tr s) (ha : s.worker ≠ .asleep) (hx : s.worker ≠ .exited)
    (hc : ∀ qj, s.worker ≠ .crashed qj) : ∃ e s', WorkerStep s e s' := by
  cases hw : s.worker with
  | top =>
    cases hp : s.pending with
    | some qj => exact ⟨_, _, .take hw hp⟩
    | none =>
      cases hs : s.stop with
      | true => exact ⟨_, _, .exit hw hp hs⟩
      | false => exact ⟨_, _, .sleep hw hp hs⟩
  | asleep => exact absurd hw ha
  | took qj => exact ⟨_, _, .slotFree hw⟩
  | run qj st => exact run_steps h hw
  | notify => exact ⟨_, _, .notify hw⟩
  | exited => exact absurd hw hx
  | crashed qj => exact absurd hw (hc qj)

/-- In `post_to_worker` and in `drain`, the client can go on unless it sleeps. -/
theorem client_steps (ha : s.client.asleep = false) (hw : s.client.wait.isSome)
    (hj : s.client ≠ .join) : ∃ e s', ClientStep s e s' := by
  cases hc : s.client with
  | post c qj even =>
    by_cases hd : s.error.isSome ∧ even = false
    · obtain ⟨he, rfl⟩ := hd
      exact ⟨_, _, .discard hc he⟩
    · have hgo : s.error = none ∨ even = true := by
        cases he : s.error <;> cases even <;> simp_all
      cases hp : s.pending with
      | none => exact ⟨_, _, .store hc hgo hp⟩
      | some qj' => exact ⟨_, _, .blocked hc hgo (by rw [hp]; rfl)⟩
  | slotAwake c qj =>
    cases hp : s.pending with
    | none => exact ⟨_, _, .slotStore hc hp⟩
    | some qj' => exact ⟨_, _, .slotSleep hc (by rw [hp]; rfl)⟩
  | notify c => exact ⟨_, _, .notify hc⟩
  | drain c =>
    by_cases hd : s.Drained
    · exact ⟨_, _, .drained hc hd⟩
    · exact ⟨_, _, .drainSleep hc hd⟩
  | slotAsleep c qj | drainAsleep c =>
    rw [hc] at ha
    cases ha
  | join => exact absurd hc hj
  | _ =>
    rw [hc] at hw
    cases hw

theorem notifying_of_asleep {pc : ClientPc} (h : pc.asleep) : pc.notifying = false := by
  cases pc with
  | slotAsleep _ _ | drainAsleep _ => rfl
  | _ => cases h

theorem stopped_of_asleep {pc : ClientPc} (h : pc.asleep) : pc.stopped = false := by
  cases pc with
  | slotAsleep _ _ | drainAsleep _ => rfl
  | _ => cases h

/-- A worker that sleeps although it has something to do is about to be told by the client. -/
theorem notifying_of_worker_asleep (h : (asyncDbWoken B).Run tr s) (hw : s.worker = .asleep)
    (ha : s.awaited .toWorker) : s.client.notifying := by
  obtain ⟨u, hne, howes⟩ := noLostWakeup h .toWorker .worker ⟨rfl, hw⟩ ha
  rcases eq_of_owes howes with ⟨rfl, -⟩ | ⟨-, -, hn⟩
  · exact absurd rfl hne
  · exact hn

theorem notifying_of_client_asleep (h : (asyncDbWoken B).Run tr s) (hc : s.client.asleep)
    (ha : s.awaited .fromWorker) : s.worker.notifying := by
  obtain ⟨u, hne, howes⟩ := noLostWakeup h .fromWorker .client ⟨rfl, hc⟩ ha
  rcases eq_of_owes howes with ⟨-, -, hn⟩ | ⟨rfl, -⟩
  · exact hn
  · exact absurd rfl hne

/-- The client and the worker are not both asleep: one of them would have been told to wake up. -/
theorem not_both_asleep (h : (asyncDbWoken B).Run tr s) (hc : s.client.asleep) :
    s.worker ≠ .asleep := by
  intro hw
  have hbusy : s.busy = false := by
    rw [busy_eq (run_of_woken h), hw]
    rfl
  -- The worker would have been told of a job.
  have hpending : s.pending = none := by
    cases hp : s.pending with
    | none => rfl
    | some qj =>
      have hn := notifying_of_worker_asleep h hw (.inl (by rw [hp]; rfl))
      rw [notifying_of_asleep hc] at hn
      cases hn
  -- And so the client would have been told that there is none.
  have hawaited : s.awaited .fromWorker := by
    simp only [State.awaited]
    split
    · exact ⟨hpending, hbusy⟩
    · exact hpending
  have hn := notifying_of_client_asleep h hc hawaited
  rw [hw] at hn
  cases hn

/-- In the destructor's join the worker does not sleep: it would have been told to stop. -/
theorem not_asleep_of_join (h : (asyncDbWoken B).Run tr s) (hc : s.client = .join) :
    s.worker ≠ .asleep := by
  intro hw
  have hstop : s.stop = true := stop_of_stopping (run_of_woken h) (by rw [hc]; rfl)
  have hn := notifying_of_worker_asleep h hw (.inr hstop)
  rw [hc] at hn
  cases hn

/-- While the client is in one of the operations, one of the threads can go on, unless the worker
    has crashed. -/
theorem woken_steps (h : (asyncDbWoken B).Run tr s) (hw : s.client.wait.isSome)
    (hcrash : ∀ qj, s.worker ≠ .crashed qj) : ∃ e s', (asyncDbWoken B).step s e s' := by
  have hrun := run_of_woken h
  have hworker (ha : s.worker ≠ .asleep) (hx : s.worker ≠ .exited) :
      ∃ e s', (asyncDbWoken B).step s e s' := by
    obtain ⟨e, s', hst⟩ := worker_steps hrun ha hx hcrash
    exact ⟨e, s', .worker, worker_awake.2 ha, hst⟩
  have hclient (ha : s.client.asleep = false) (hst : ∃ e s', ClientStep s e s') :
      ∃ e s', (asyncDbWoken B).step s e s' := by
    obtain ⟨e, s', hst⟩ := hst
    exact ⟨e, s', .client, client_awake.2 ha, hst⟩
  by_cases hj : s.client = .join
  · by_cases hx : s.worker = .exited
    · exact hclient (by rw [hj]; rfl) ⟨_, _, .join hj hx⟩
    · exact hworker (not_asleep_of_join h hj) hx
  · cases ha : s.client.asleep with
    | false => exact hclient ha (client_steps ha hw hj)
    | true =>
      refine hworker (not_both_asleep h ha) fun hx => ?_
      -- The worker returns only when the destructor has told it to.
      have hstopped := (awake hrun).stop ((awake hrun).exited hx)
      rw [stopped_of_asleep ha] at hstopped
      cases hstopped

/-- An operation comes to its end, or a job crashes. -/
theorem leaves (h : (asyncDbWoken B).Run tr s) (w : Wait) :
    (asyncDbWoken B).Eventually
      (fun s' => s'.client.wait ≠ some w ∨ ∃ qj, s'.worker = .crashed qj) s := by
  refine Lts.Eventually.of_rank (I := (asyncDbWoken B).Reachable) wellFounded_lt State.rank ?_ ?_
    ⟨tr, h⟩
  · rintro s ⟨tr, h⟩ hgoal
    obtain ⟨hw, hcrash⟩ := not_or.1 hgoal
    rw [not_not] at hw
    exact woken_steps h (by rw [hw]; rfl) fun qj hqj => hcrash ⟨qj, hqj⟩
  · rintro s e s' ⟨tr, h⟩ hgoal hst
    refine ⟨⟨e :: tr, .step h hst⟩, fun hgoal' => ?_⟩
    have hw := not_not.1 (not_or.1 hgoal).1
    have hw' := not_not.1 (not_or.1 hgoal').1
    obtain ⟨t, hawake, hst⟩ := hst
    cases t with
    | client => exact ClientStep.rank_lt hst (client_awake.1 hawake) hw hw'
    | worker => exact WorkerStep.rank_lt hst (worker_awake.1 hawake)

/-- **Waking up.** The wait sets change as those of condition variables do. Who sleeps although its
    predicate holds is about to be notified by the other thread; and each operation in which the
    client waits comes to its end, or a job crashes. -/
theorem wakeUp (h : (asyncDbWoken B).Run tr s) :
    (∀ t a s', (asyncMonitor B).step t s a s' → Waits s.waiting a s'.waiting) ∧
    (∀ v, ∀ t ∈ s.waiting v, s.awaited v → ∃ u, u ≠ t ∧ (asyncMonitor B).NotifiesNext s u v) ∧
    ∀ w, (asyncDbWoken B).Eventually
      (fun s' => s'.client.wait ≠ some w ∨ ∃ qj, s'.worker = .crashed qj) s := by
  refine ⟨fun _ _ _ => asyncMonitor_waits, fun v t ht ha => ?_, leaves h⟩
  obtain ⟨u, hne, howes⟩ := noLostWakeup h v t ht ha
  exact ⟨u, hne, notifiesNext_of_owes howes⟩

/-- The worker has gone to sleep before the client leaves it a job, and is about to be told. -/
theorem wakeUp_prepare : ∃ tr s, (asyncDbWoken scripted).Run tr s ∧ s.worker = .asleep ∧
    s.pending.isSome ∧ ∃ u, u ≠ .worker ∧ (asyncMonitor scripted).NotifiesNext s u .toWorker := by
  have hinit : (asyncDbWoken scripted).Run [] { db := [] } := .init ⟨[], rfl⟩
  have hsleep := hinit.step ⟨.worker, worker_awake.2 (by simp), .sleep rfl rfl rfl⟩
  have hcall := hsleep.step ⟨.client, client_awake.2 rfl,
    @ClientStep.call scripted _ (.prepare insertType "insert" 1 1) rfl trivial⟩
  have hstore := hcall.step ⟨.client, client_awake.2 rfl, .store rfl (.inl rfl) rfl⟩
  exact ⟨_, _, hstore, rfl, rfl, (wakeUp hstore).2.1 .toWorker .worker ⟨rfl, rfl⟩ (.inl rfl)⟩

end Dbgen4.Async
