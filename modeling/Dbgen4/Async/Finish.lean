import Dbgen4.Async.Accept
import Dbgen4.Async.Calls

/-!
# The asynchronous facade: when jobs are done

What a call may tell of the jobs queued before it. `is_finished` and `drain`
never report completion early (`completion`). `exec` is to return only when the
job queued before its own is done (`PreviousDone`): but the slot is free as soon
as the worker takes the job out of it, so that `exec` returns while that job
runs (`hastyRun`), unless the worker is idle by then or has come to the job of
this call (`previousDone_iff`).
-/

namespace Dbgen4.Async

open Rtl

variable {B : Backend} {tr : List Event} {s s' : State B} {e : Event}

/-! ## The previous job -/

/-- The jobs enqueued before the last call. -/
def earlier : List Event → List QueuedJob
  | [] => []
  | .call _ _ :: tr => enqueued tr
  | _ :: tr => earlier tr

/-- If the job of the call was enqueued, the jobs enqueued before it have run to
    completion. -/
def PreviousDone (tr : List Event) : Prop := queued tr → earlier tr <+: finished tr

/-- A call enqueues at most one job. -/
structure OneJob (tr : List Event) (s : State B) : Prop where
  unposted : s.client.unposted → queued tr = false
  none : queued tr = false → enqueued tr = earlier tr
  one : queued tr → ∃ qj, enqueued tr = earlier tr ++ [qj]

theorem enqueued_cons (e : Event) (tr : List Event) :
    enqueued (e :: tr) = enqueued tr ++ e.enqueued.toList := chron_cons ..

theorem OneJob.step (ho : OneJob tr s) (h : (asyncDb B).step s e s') : OneJob (e :: tr) s' := by
  cases hq : e.enqueued with
  | some qj =>
    -- A job is posted, and a call that has posted its job has nothing left to post.
    obtain ⟨c, hc, hc'⟩ := posting_of_enqueued h hq
    have hn := ho.unposted (by rw [ClientPc.unposted, hc]; rfl)
    have he : e = .enqueue qj := by
      cases e <;> first
      | exact congrArg _ (Option.some.inj hq)
      | cases hq
    subst he
    refine ⟨fun hu => ?_, fun hf => (by cases hf), fun _ => ⟨qj, ?_⟩⟩
    · rw [hc'] at hu
      cases hu
    · rw [enqueued_cons, ho.none hn]
      rfl
  | none =>
    have henq : enqueued (e :: tr) = enqueued tr := chron_cons_none hq tr
    cases hop : e.called with
    | some p =>
      have he : ∃ op held, e = .call op held := by
        cases e <;> first
        | exact ⟨_, _, rfl⟩
        | cases hop
      obtain ⟨op, held, rfl⟩ := he
      exact ⟨fun _ => rfl, fun _ => henq, fun hf => (by cases hf)⟩
    | none =>
      have hqe : queued (e :: tr) = queued tr ∧ earlier (e :: tr) = earlier tr := by
        cases e with
        | call _ _ => cases hop
        | enqueue _ => cases hq
        | _ => exact ⟨rfl, rfl⟩
      obtain ⟨hqu, hea⟩ := hqe
      refine ⟨fun hu => ?_, fun hf => ?_, fun ht => ?_⟩
      · rw [hqu]
        exact ho.unposted (unposted_of_step h hop hu)
      · rw [henq, hea]
        exact ho.none (hqu ▸ hf)
      · rw [henq, hea]
        exact ho.one (hqu ▸ ht)

theorem oneJob (h : (asyncDb B).Run tr s) : OneJob tr s := by
  refine h.invariant (I := OneJob) ?_ fun _ _ _ _ _ ho hst => ho.step hst
  rintro _ ⟨db, rfl⟩
  exact ⟨fun _ => rfl, fun _ => rfl, fun hf => (by cases hf)⟩

/-- When `exec` returns, the job queued before its own is done, unless its own is still in
    the slot and the worker is busy. -/
theorem previousDone_iff {r : Except DbError ExecStatus}
    (h : (asyncDb B).Run (.ret (.exec r) :: tr) s) :
    PreviousDone tr ↔ ¬(queued tr ∧ s.pending.isSome ∧ s.busy) := by
  cases h with
  | @step _ s₀ _ _ hr hst =>
    have hs : s.pending = s₀.pending ∧ s.busy = s₀.busy := by
      rcases hst with h | h
      · cases h
        exact ⟨rfl, rfl⟩
      · cases h
    rw [hs.1, hs.2, busy_eq hr, PreviousDone]
    cases hq : queued tr with
    | false => simp
    | true =>
      obtain ⟨qj, hone⟩ := (oneJob hr).one hq
      rw [enqueued_eq hr, started_eq hr] at hone
      cases hp : s₀.pending with
      | none =>
        -- The worker has come to the job of this call.
        rw [hp, Option.toList_none, List.append_nil] at hone
        refine iff_of_true (fun _ => ?_) (by simp)
        cases hh : s₀.worker.inHand with
        | none =>
          rw [hh, Option.toList_none, List.append_nil] at hone
          exact hone ▸ List.prefix_append _ _
        | some qj' =>
          rw [hh, Option.toList_some, List.append_singleton_inj] at hone
          exact hone.1 ▸ List.prefix_refl _
      | some qj' =>
        -- The job of this call is in the slot.
        rw [hp, Option.toList_some, List.append_singleton_inj] at hone
        rw [← hone.1]
        cases hh : s₀.worker.inHand with
        | none => simp
        | some qj'' =>
          refine iff_of_false (fun hpre => ?_) (by simp)
          have hlen := (hpre rfl).length_le
          rw [List.length_append, Option.toList_some, List.length_singleton] at hlen
          omega

/-- The run in which `exec` hands over a job while the worker is idle. -/
def patientRun : List Event × State scripted :=
  (scriptedRun (fun _ _ => True) [] (prepareInsert ++ [.call (.exec ⟨some 0⟩), .client, .client,
    .client, .client])).get (by decide)

theorem previousDone_patient : PreviousDone patientRun.1.tail :=
  (previousDone_iff (B := scripted) (s := patientRun.2) (r := .ok .finished)
    (scriptedRun_sound (x := patientRun) (Option.some_get _).symm).of_restrict).2 (by decide)

/-- The run in which `exec` returns while the worker runs the job before. -/
def hastyRun : List Event × State scripted :=
  (scriptedRun (fun _ _ => True) [] (prepareInsert ++ [.call (.exec ⟨some 0⟩), .client, .client,
    .client, .client, .worker, .worker, .call (.exec ⟨some 0⟩), .client, .client, .client,
    .client])).get (by decide)

/-- `exec` returns although the job queued before its own is not done. -/
theorem not_previousDone :
    ¬∀ (B : Backend) (tr : List Event) (s : State B) (r : Except DbError ExecStatus),
      (asyncDb B).Run (.ret (.exec r) :: tr) s → PreviousDone tr := by
  intro h
  have hd := h scripted hastyRun.1.tail hastyRun.2 (.ok .finished)
    (scriptedRun_sound (x := hastyRun) (Option.some_get _).symm).of_restrict
  exact absurd (hd (by decide)) (by decide)

/-! ## Completion -/

/-- The positions, among the jobs taken, of the jobs that called the query, and so may have
    written its result buffer. -/
def queryCalls : List Event → List Nat
  | [] => []
  | .execute _ _ _ :: tr | .fetch _ _ :: tr => queryCalls tr ++ [(started tr).length - 1]
  | _ :: tr => queryCalls tr

/-- What `is_finished` is to return when every job is done. -/
def finishedStatus : Option DbError → Except DbError ExecStatus
  | some e => .error e
  | none => .ok .finished

/-- Every job is done exactly when nothing is pending or in hand. -/
theorem finished_iff (h : (asyncDb B).Run tr s) :
    finished tr = enqueued tr ↔ s.pending = none ∧ s.worker.inHand = none := by
  refine ⟨fun hf => ?_, fun ⟨hp, hh⟩ => finished_of_slot h (by rw [State.slot, hp, hh])⟩
  rw [enqueued_eq h, started_eq h, List.append_assoc, List.self_eq_append_right,
    List.append_eq_nil_iff, Option.toList_eq_nil_iff, Option.toList_eq_nil_iff] at hf
  exact hf.symm

/-- `is_finished` reports what there is to report. -/
theorem isFinished_eq (h : (asyncDb B).Run tr s) : s.isFinished =
    if finished tr = enqueued tr then finishedStatus (failures tr).head?
    else .ok .stillPending := by
  have hf := finished_iff h
  rw [State.isFinished, busy_eq h]
  by_cases hd : s.pending = none ∧ s.worker.inHand = none
  · rw [if_pos (hf.2 hd), hd.1, hd.2, ← error_of_inHand h hd.2]
    cases s.error <;> rfl
  · rw [if_neg fun he => hd (hf.1 he), if_pos]
    rw [Bool.or_eq_true, Option.isSome_iff_ne_none, Option.isSome_iff_ne_none]
    by_contra hn
    push Not at hn
    exact hd hn

/-- After all jobs are done, a query is called for a later job only. -/
theorem queryCalls_later (h : (asyncDb B).Run tr s) (hf : finished tr = enqueued tr)
    {tr' : List Event} (hp : (asyncDb B).Path s tr' s') :
    ∃ w, queryCalls (tr' ++ tr) = queryCalls tr ++ w ∧ ∀ n ∈ w, (enqueued tr).length ≤ n := by
  refine hp.invariant (I := fun tr' _ => ∃ w, queryCalls (tr' ++ tr) = queryCalls tr ++ w ∧
    ∀ n ∈ w, (enqueued tr).length ≤ n) ?_ ?_
  · exact ⟨[], (List.append_nil _).symm, nofun⟩
  · rintro tr' s e s' hp ⟨w, hw, hle⟩ (hst | hst)
    · refine ⟨w, ?_, hle⟩
      cases hst <;> exact hw
    · cases hst with
      | execute hc _ _ _ | executeError hc _ _ _ | fetch hc _ _ _ | fetchError hc _ _ _ =>
        -- The job in hand comes after those that had run to completion.
        have hlen : (enqueued tr).length ≤ (started (tr' ++ tr)).length - 1 := by
          have hs := congrArg List.length (started_eq (h.append hp))
          rw [hc, finished, chron_append, ← finished, List.length_append, List.length_append,
            hf] at hs
          simp only [WorkerPc.inHand, Option.toList_some, List.length_singleton] at hs
          omega
        refine ⟨w ++ [(started (tr' ++ tr)).length - 1], ?_, fun n hn => ?_⟩
        · rw [← List.append_assoc, ← hw]
          rfl
        · rcases List.mem_append.1 hn with hn | hn
          · exact hle n hn
          · exact List.mem_singleton.1 hn ▸ hlen
      | _ => exact ⟨w, hw, hle⟩

theorem ClientStep.isFinished_eq {r : Except DbError ExecStatus}
    (h : ClientStep s (.isFinished r) s') : r = s.isFinished ∧ s' = s := by
  cases h
  exact ⟨rfl, rfl⟩

/-- `is_finished` and `drain` never report completion early, and what completion there is
    they report with the first failure; and completion is final. -/
theorem completion (h : (asyncDb B).Run tr s) :
    (∀ r tr', tr = .isFinished r :: tr' →
      r = if finished tr = enqueued tr then finishedStatus (failures tr).head?
        else .ok .stillPending) ∧
      (∀ tr', tr = .ret .drain :: tr' → finished tr = enqueued tr) ∧
      (finished tr = enqueued tr → s.error = (failures tr).head? ∧
        ∀ tr' s', (asyncDb B).Path s tr' s' → ∃ w, queryCalls (tr' ++ tr) = queryCalls tr ++ w ∧
          ∀ n ∈ w, (enqueued tr).length ≤ n) := by
  refine ⟨?_, ?_, fun hf => ⟨?_, fun tr' s' hp => queryCalls_later h hf hp⟩⟩
  · rintro r tr' rfl
    cases h with
    | step hr hst =>
      rcases hst with hst | hst
      · obtain ⟨rfl, rfl⟩ := hst.isFinished_eq
        have hfail : failures (.isFinished s.isFinished :: tr') = failures tr' :=
          (failures_cons rfl).trans (List.append_nil _)
        rw [hfail]
        exact isFinished_eq hr
      · cases hst
  · rintro tr' rfl
    cases h with
    | step hr hst =>
      rcases hst with hst | hst
      · cases hst with
        | ret hc =>
          -- `drain` returns from a state at rest.
          have hf := finished_of_slot hr (slot_of_atRest hr (by rw [hc]; rfl))
          exact hf
      · cases hst
  · exact error_of_inHand h ((finished_iff h).1 hf).2

/-- The run in which the failure of a row is found by `is_finished`. -/
def pollingRun : List Event × State scripted :=
  (scriptedRun (fun _ _ => True) [false] (prepareInsert ++ [.call (.exec ⟨some 0⟩), .client,
    .client, .client, .client, .worker, .worker, .worker, .worker, .worker, .worker,
    .isFinished])).get (by decide)

/-- `is_finished` reports the failure. -/
theorem completion_polling : finished pollingRun.1 = enqueued pollingRun.1 ∧
    pollingRun.2.error = some scriptedError :=
  have hc := completion (B := scripted)
    (scriptedRun_sound (x := pollingRun) (Option.some_get _).symm).of_restrict
  have hf : finished pollingRun.1 = enqueued pollingRun.1 := by decide
  ⟨hf, (hc.2.2 hf).1.trans (by decide)⟩

end Dbgen4.Async
