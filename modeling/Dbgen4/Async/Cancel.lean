import Dbgen4.Async.Schedule
import Dbgen4.Async.Queue

/-!
# The asynchronous facade: `cancel`

A third thread may call `cancel` at any time: it reads `running_task_id_` under
the lock, and asks the backend outside of it to cancel the statement of that
task. The request is to reach the connection while the job that was looked up
is in hand (`Hits`), whatever the backend then aborts: PostgreSQL whatever the
connection is running, DB2 whatever the statement handle is running.

`running_task_id_` is the task of the job in hand (`runningTaskId_eq`), but only
until the worker ends the job: the request hits exactly when no job ends between
the look and the arrival (`cancel_hits_iff`). Otherwise it may hit a `COMMIT`
(`lateRun`).
-/

namespace Dbgen4.Async

open Rtl

variable {B : Backend} {tr : List Event} {s s' : State B} {e : Event}

/-! ## The third thread -/

/-- Where the thread that calls `cancel` is. -/
inductive CancelPc
  /-- Not in `cancel`. -/
  | idle
  /-- The lock is released: `running_task_id_` was `id`. -/
  | looked (id : Option Nat)
  /-- About to return. -/
  | ret (r : Bool)
  /-- A null task was dereferenced. -/
  | crashed
  deriving DecidableEq

/-- What a step of `cancel` tells. -/
inductive CancelEvent
  /-- `running_task_id_` is read. -/
  | look (id : Option Nat)
  /-- The request of the task reaches the connection, and the backend says so. -/
  | arrive (id : Nat)
  /-- The backend could not send the request. -/
  | refuse (id : Nat)
  | crash
  | ret (r : Bool)
  deriving DecidableEq

/-- The steps of `cancel`. -/
inductive CancelStep (s : State B) : CancelPc → CancelEvent → CancelPc → Prop
  | look : CancelStep s .idle (.look s.runningTaskId) (.looked s.runningTaskId)
  | nothing : CancelStep s (.looked none) (.ret false) .idle
  | arrive {i : Nat} : (s.task i).isSome → CancelStep s (.looked (some i)) (.arrive i) (.ret true)
  | refuse {i : Nat} : (s.task i).isSome → CancelStep s (.looked (some i)) (.refuse i) (.ret false)
  | crash {i : Nat} : s.task i = none → CancelStep s (.looked (some i)) .crash .crashed
  | ret {r : Bool} : CancelStep s (.ret r) (.ret r) .idle

/-- `async_db` with a thread that calls `cancel`. -/
def asyncDbCancel (B : Backend) : Lts (State B × CancelPc) (Event ⊕ CancelEvent) where
  init := {x | x.1 ∈ (asyncDb B).init ∧ x.2 = .idle}
  step
    | (s, c), .inl e, (s', c') => (asyncDb B).step s e s' ∧ c' = c
    | (s, c), .inr e, (s', c') => CancelStep s c e c' ∧ s' = s

/-- The steps of the client and of the worker. -/
def base (tr : List (Event ⊕ CancelEvent)) : List Event := tr.filterMap Sum.getLeft?

/-- `cancel` leaves `async_db` alone. -/
theorem asyncDbCancel_simulates :
    (asyncDbCancel B).Simulates (asyncDb B) Prod.fst (Sum.getLeft? : Event ⊕ CancelEvent → _) where
  init := fun _ h => h.1
  step := by
    rintro ⟨s, c⟩ (e | e) ⟨s', c'⟩ m hst hm
    · obtain rfl := Option.some.inj hm
      exact hst.1
    · cases hm
  stutter := by
    rintro ⟨s, c⟩ (e | e) ⟨s', c'⟩ hst hm
    · cases hm
    · exact hst.2

theorem base_run {tr : List (Event ⊕ CancelEvent)} {x : State B × CancelPc}
    (h : (asyncDbCancel B).Run tr x) : (asyncDb B).Run (base tr) x.1 :=
  asyncDbCancel_simulates.run h

/-! ## The job in hand -/

/-- The job in hand, as the trace tells it, with its position among the jobs taken. -/
def running (tr : List Event) : Option (Nat × QueuedJob) :=
  (started tr)[(finished tr).length]?.map ((finished tr).length, ·)

theorem running_eq (h : (asyncDb B).Run tr s) :
    running tr = s.worker.inHand.map ((finished tr).length, ·) := by
  rw [running, started_eq h]
  cases s.worker.inHand <;> simp

/-- `running_task_id_` is the task of the job in hand. -/
theorem runningTaskId_eq (h : (asyncDb B).Run tr s) :
    s.runningTaskId = s.worker.inHand.bind QueuedJob.taskId := by
  refine h.invariant (I := fun _ s => s.runningTaskId = s.worker.inHand.bind QueuedJob.taskId)
    ?_ ?_
  · rintro _ ⟨db, rfl⟩
    rfl
  · rintro tr s e s' - ih (h | h)
    · have hs : s'.runningTaskId = s.runningTaskId ∧ s'.worker.inHand = s.worker.inHand := by
        cases h <;> simp
      rw [hs.1, hs.2, ih]
    · cases h with
      | take | finish => rfl
      | exit hw | sleep hw | spurious hw | slotFree hw | skip hw | check hw | restore hw
      | restoreOverflow hw | restoreNull hw | execute hw | executeError hw | fetch hw
      | fetchError hw | fetchNull hw | record hw | keep hw | prepareError hw | prepare hw
      | commit hw | rollbackIgnored hw | rollback hw | notify hw =>
        rw [hw] at ih
        exact ih

/-! ## What `cancel` hits -/

/-- The last look: what it read, and the trace up to it. -/
def lastLook : List (Event ⊕ CancelEvent) → Option (Option Nat × List (Event ⊕ CancelEvent))
  | [] => none
  | .inr (.look id) :: tr => some (id, tr)
  | _ :: tr => lastLook tr

/-- The trace up to the last arrival of a request. -/
def lastArrival : List (Event ⊕ CancelEvent) → Option (List (Event ⊕ CancelEvent))
  | [] => none
  | .inr (.arrive _) :: tr => some tr
  | _ :: tr => lastArrival tr

/-- The request of the last call arrived while the job whose task the call had read was in
    hand, at the look and still at the arrival. -/
def Hits (tr : List (Event ⊕ CancelEvent)) : Prop :=
  ∃ i tl ta k qj, lastLook tr = some (some i, tl) ∧ lastArrival tr = some ta ∧
    qj.taskId = some i ∧ running (base tl) = some (k, qj) ∧ running (base ta) = some (k, qj)

/-- A job has ended since the last look. -/
def endedSinceLook : List (Event ⊕ CancelEvent) → Bool
  | [] => false
  | .inr (.look _) :: _ => false
  | .inl (.finish _) :: _ => true
  | _ :: tr => endedSinceLook tr

/-- A job ended between the last look and the last arrival. -/
def endedBetween : List (Event ⊕ CancelEvent) → Bool
  | [] => false
  | .inr (.arrive _) :: tr => endedSinceLook tr
  | _ :: tr => endedBetween tr

/-- What the trace tells of a call of `cancel` that is at a point of it. -/
def CancelProgress (tr : List (Event ⊕ CancelEvent)) : CancelPc → Prop
  | .looked (some i) => ∃ tl k qj, lastLook tr = some (some i, tl) ∧ qj.taskId = some i ∧
      running (base tl) = some (k, qj) ∧
      if endedSinceLook tr then k < (finished (base tr)).length
      else running (base tr) = some (k, qj)
  | .ret true => Hits tr ↔ endedBetween tr = false
  | _ => True

theorem running_pos {x : Nat × QueuedJob} (h : running tr = some x) :
    x.1 = (finished tr).length := by
  obtain ⟨qj, -, rfl⟩ := Option.map_eq_some_iff.1 h
  rfl

theorem running_of_act (he : e.started = none) (hf : e.finished = none) :
    running (e :: tr) = running tr := by
  rw [running, started_cons, finished_cons, he, hf, Option.toList_none, List.append_nil,
    List.append_nil, running]

/-- The job in hand stays there until it ends. -/
theorem running_step (hr : (asyncDb B).Run tr s) (h : (asyncDb B).step s e s') :
    running tr = none ∨ e.finished.isSome ∨ running (e :: tr) = running tr := by
  rcases h with h | h
  · rcases h.slot with ⟨qj, rfl, -⟩ | ⟨hn, -⟩
    · exact .inr (.inr (running_of_act rfl rfl))
    · obtain ⟨-, hst, hf⟩ := Event.of_act_none hn
      exact .inr (.inr (running_of_act hst hf))
  · rcases h.slot with ⟨qj, rfl, hh, -⟩ | ⟨qj, rfl, -⟩ | ⟨hn, -⟩
    · refine .inl ?_
      rw [running_eq hr, hh]
      rfl
    · exact .inr (.inl rfl)
    · obtain ⟨-, hst, hf⟩ := Event.of_act_none hn
      exact .inr (.inr (running_of_act hst hf))

theorem endedSinceLook_cons (e : Event) (tr : List (Event ⊕ CancelEvent)) :
    endedSinceLook (.inl e :: tr) = (e.finished.isSome || endedSinceLook tr) := by
  cases e <;> rfl

/-- The client and the worker go on while `cancel` is at a point of it. -/
theorem CancelProgress.base {tr : List (Event ⊕ CancelEvent)} {c : CancelPc}
    (hr : (asyncDb B).Run (base tr) s) (hp : CancelProgress tr c)
    (h : (asyncDb B).step s e s') : CancelProgress (.inl e :: tr) c := by
  cases c with
  | idle | crashed => trivial
  | ret r =>
    cases r with
    | false => trivial
    | true => exact hp
  | looked id =>
    cases id with
    | none => trivial
    | some i =>
      obtain ⟨tl, k, qj, hl, hid, hrun, hnow⟩ := hp
      refine ⟨tl, k, qj, hl, hid, hrun, ?_⟩
      show if endedSinceLook (.inl e :: tr) then k < (finished (e :: Async.base tr)).length
        else running (e :: Async.base tr) = some (k, qj)
      rw [endedSinceLook_cons, finished_cons, List.length_append]
      by_cases hend : endedSinceLook tr = true
      · rw [if_pos hend] at hnow
        rw [hend, Bool.or_true, if_pos rfl]
        omega
      · rw [if_neg hend] at hnow
        rw [Bool.not_eq_true] at hend
        rw [hend, Bool.or_false]
        rcases running_step hr h with hn | hf | hsame
        · cases hn.symm.trans hnow
        · -- The job that was looked up ends.
          have hk : k = (finished (Async.base tr)).length := running_pos hnow
          obtain ⟨qj', hqj'⟩ := Option.isSome_iff_exists.1 hf
          rw [if_pos hf, hqj', hk]
          exact Nat.lt_succ_self _
        · split
          · rename_i hf
            have hk : k = (finished (Async.base tr)).length := running_pos hnow
            obtain ⟨qj', hqj'⟩ := Option.isSome_iff_exists.1 hf
            rw [hqj', hk]
            exact Nat.lt_succ_self _
          · exact hsame.trans hnow

theorem CancelProgress.cancel {tr : List (Event ⊕ CancelEvent)} {c c' : CancelPc}
    {ev : CancelEvent} (hr : (asyncDb B).Run (Async.base tr) s) (hp : CancelProgress tr c)
    (h : CancelStep s c ev c') : CancelProgress (.inr ev :: tr) c' := by
  cases h with
  | look =>
    cases hid : s.runningTaskId with
    | none => trivial
    | some i =>
      -- What is read is the task of the job in hand.
      obtain ⟨qj, hh, hq⟩ := Option.bind_eq_some_iff.1 ((runningTaskId_eq hr).symm.trans hid)
      have hrun : running (Async.base tr) = some ((finished (Async.base tr)).length, qj) := by
        rw [running_eq hr, hh]
        rfl
      exact ⟨tr, _, qj, rfl, hq, hrun, hrun⟩
  | @arrive i _ =>
    obtain ⟨tl, k, qj, hl, hid, hrun, hnow⟩ := hp
    refine ⟨fun ⟨i', tl', ta, k', qj', hl', ha, hid', hrun', harr⟩ => ?_, fun hb => ?_⟩
    · obtain rfl := Option.some.inj ha
      obtain ⟨-, rfl⟩ := Prod.mk.inj (Option.some.inj (hl.symm.trans hl'))
      obtain ⟨rfl, rfl⟩ := Prod.mk.inj (Option.some.inj (hrun.symm.trans hrun'))
      refine Bool.eq_false_iff.2 fun hend => ?_
      have hend : endedSinceLook tr = true := hend
      rw [if_pos hend] at hnow
      have hk : k = (finished (Async.base tr)).length := running_pos harr
      omega
    · have hend : endedSinceLook tr = false := hb
      rw [hend, if_neg Bool.false_ne_true] at hnow
      exact ⟨i, tl, tr, k, qj, hl, rfl, hid, hrun, hnow⟩
  | _ => trivial

theorem cancelProgress {tr : List (Event ⊕ CancelEvent)} {x : State B × CancelPc}
    (h : (asyncDbCancel B).Run tr x) : CancelProgress tr x.2 := by
  refine h.invariant (I := fun tr x => CancelProgress tr x.2) ?_ ?_
  · rintro ⟨s, c⟩ ⟨-, hc⟩
    obtain rfl : c = .idle := hc
    trivial
  · rintro tr ⟨s, c⟩ (e | ev) ⟨s', c'⟩ hr hp ⟨hst, hc⟩
    · obtain rfl : c' = c := hc
      exact hp.base (base_run hr) hst
    · exact hp.cancel (base_run hr) hst

/-- **What `cancel` hits**: when it returns true, its request has reached the connection while
    the job it looked up was in hand exactly when no job ended between the look and the
    arrival. -/
theorem cancel_hits_iff {tr : List (Event ⊕ CancelEvent)} {x : State B × CancelPc}
    (h : (asyncDbCancel B).Run (.inr (.ret true) :: tr) x) :
    Hits tr ↔ endedBetween tr = false := by
  obtain ⟨s', c'⟩ := x
  cases h with
  | @step _ x₀ _ _ hr hst =>
    have hp := cancelProgress hr
    obtain ⟨s, c⟩ := x₀
    obtain ⟨hst, -⟩ := hst
    cases hst with
    | ret => exact hp

/-! ## Runs with `cancel` -/

/-- While the third thread stays where it is, the others go on. -/
theorem path_lift (c : CancelPc) (h : (asyncDb B).Path s tr s') :
    (asyncDbCancel B).Path (s, c) (tr.map .inl) (s', c) := by
  induction h with
  | refl => exact .refl _
  | step _ hst ih => exact .step ih ⟨hst, rfl⟩

theorem run_lift (h : (asyncDb B).Run tr s) :
    (asyncDbCancel B).Run (tr.map .inl) (s, .idle) := by
  induction h with
  | init hs => exact .init ⟨hs, rfl⟩
  | step _ hst ih => exact .step ih ⟨hst, rfl⟩

/-- `cancel` reads the task `i` after `tr₁`, and its request arrives `tr₂` later. -/
def cancelTrace (tr₁ tr₂ : List Event) (i : Nat) : List (Event ⊕ CancelEvent) :=
  .inr (.arrive i) :: (tr₂.map .inl ++ .inr (.look (some i)) :: tr₁.map .inl)

theorem cancelTrace_run {tr₁ tr₂ : List Event} {s₁ s₂ : State B} {i : Nat}
    (hr : (asyncDb B).Run tr₁ s₁) (hi : s₁.runningTaskId = some i)
    (hp : (asyncDb B).Path s₁ tr₂ s₂) (ht : (s₂.task i).isSome) :
    (asyncDbCancel B).Run (.inr (.ret true) :: cancelTrace tr₁ tr₂ i) (s₂, .idle) := by
  have hlook : CancelStep s₁ .idle (.look (some i)) (.looked (some i)) := by
    rw [← hi]
    exact .look
  have hrun : (asyncDbCancel B).Run (.inr (.look (some i)) :: tr₁.map .inl)
      (s₁, .looked (some i)) := .step (run_lift hr) ⟨hlook, rfl⟩
  have harr : (asyncDbCancel B).step (s₂, .looked (some i)) (.inr (.arrive i)) (s₂, .ret true) :=
    ⟨.arrive ht, rfl⟩
  exact .step (.step (hrun.append (path_lift (.looked (some i)) hp)) harr) ⟨.ret, rfl⟩

/-- The worker takes the job of a submitted row. -/
def takenRun : List Event × State scripted :=
  (scriptedRun (fun _ _ => True) [] (prepareInsert ++ [.call (.submit ⟨some 0⟩), .client, .client,
    .client, .worker])).get (by decide)

theorem takenRun_sound : (asyncDb scripted).Run takenRun.1 takenRun.2 :=
  (scriptedRun_sound (x := takenRun) (Option.some_get _).symm).of_restrict

/-- A request that arrives at once hits the job. -/
theorem cancel_hits_taken : Hits (cancelTrace takenRun.1 [] 0) :=
  (cancel_hits_iff (cancelTrace_run takenRun_sound rfl (.refl takenRun.2) (by decide))).2
    (by decide)

/-- The worker ends the job, and takes the one of `commit`. -/
def lateRun : List Event × State scripted :=
  (run (fun _ _ => True) [.worker, .worker, .worker, .worker, .worker, .call .commit, .client,
    .client, .client, .client, .worker, .worker] ([], takenRun.2)).get (by decide)

/-- The job in hand is the `COMMIT`. -/
example : (running (lateRun.1 ++ takenRun.1)).map (·.2.fn) = some .commit := by decide

/-- A request that arrives then hits the `COMMIT`, and `cancel` returns true. -/
theorem not_cancel_hits :
    ¬∀ (B : Backend) (tr : List (Event ⊕ CancelEvent)) (x : State B × CancelPc),
      (asyncDbCancel B).Run (.inr (.ret true) :: tr) x → Hits tr := by
  intro h
  obtain ⟨i, tl, ta, k, qj, hl, ha, -, hrun, harr⟩ := h scripted _ _
    (cancelTrace_run (i := 0) takenRun_sound rfl
      (run_path (P := fun _ _ => True) (x := lateRun) (Option.some_get _).symm).of_restrict
      (by decide))
  cases hl
  cases ha
  have hne : running (base (takenRun.1.map .inl)) ≠ running (base (lateRun.1.map .inl ++
      .inr (.look (some 0)) :: takenRun.1.map .inl)) := by decide
  exact hne (hrun.trans harr.symm)

end Dbgen4.Async
