import Dbgen4.Async.Calls

/-!
# The asynchronous facade: the life of a job

A job is taken, comes to execute its statement, or to return before, and ends.
`WorkerStep.life` says what each step of the worker is in the life of the job in
hand; from it, every job executes its statement or returns before exactly once
(`once`). The trace gives each execution its job by the position of the job
among the jobs taken (`outcomes`).
-/

namespace Dbgen4.Async

open Rtl

variable {B : Backend} {tr : List Event} {s s' : State B} {e : Event}

/-- What a step tells of the statement of the job in hand: the parameters it executes
    with, or that the job returns before. -/
@[simp] def Event.outcome : Event → Option (Option ParamBuffer)
  | .execute _ par _ => some (some par)
  | .skip _ => some none
  | _ => none

/-- What became of the statements, each with the position of its job among the jobs
    taken: the parameters of its execution, or that the job returned before. -/
def outcomes : List Event → List (Nat × Option ParamBuffer)
  | [] => []
  | e :: tr => outcomes tr ++ (e.outcome.map fun o => ((started tr).length - 1, o)).toList

/-- The stages before the statement of the job is executed. -/
def Stage.early : Stage → Bool
  | .check | .restore | .execute | .direct => true
  | _ => false

/-- A job is in hand, and has not come to execute its statement. -/
def WorkerPc.early : WorkerPc → Bool
  | .took _ => true
  | .run _ st => st.early
  | _ => false

/-- A job is in hand, and is past the execution of its statement. -/
def WorkerPc.late : WorkerPc → Bool
  | .run _ st => !st.early
  | _ => false

theorem Job.entry_early (j : Job) : j.entry.early := by
  cases j <;> rfl

theorem Job.afterExecute_late (j : Job) (stmt : StmtType) :
    (j.afterExecute stmt).early = false := by
  rcases stmt with ⟨_, _, _ | _⟩ <;> cases j <;> rfl

theorem Job.statement_of_afterCheck {j : Job} (h : j.afterCheck.early = false) :
    j.statement = none := by
  cases j <;> first
  | rfl
  | cases h

theorem Job.statement_of_direct {j : Job} (h : j.hasStage .direct) : j.statement = none := by
  cases j <;> first
  | rfl
  | cases h

theorem Job.attended_of_check {j : Job} (h : j.hasStage .check) : j.isUnattended = false := by
  cases j <;> first
  | rfl
  | cases h

/-- What a step of the worker is in the life of a job. -/
theorem WorkerStep.life (hr : (asyncDb B).Run tr s) (h : WorkerStep s e s') :
    (∃ qj, e = .start qj ∧ s.worker.inHand = none ∧ s'.worker.early) ∨
      (∃ qj o, e.outcome = some o ∧ s.worker.early ∧ s.worker.inHand = some qj ∧
        s'.worker.late ∧ (qj.fn.isUnattended → o.isSome)) ∨
      (∃ qj, e = .finish qj ∧ s.worker.late ∧ s.worker.inHand = some qj ∧ s'.worker = .notify) ∨
      (e.outcome = none ∧ e.act = none ∧ (s'.worker.early → s.worker.early) ∧
        (s'.worker.late → s.worker.late ∨
          ∃ qj, s.worker.inHand = some qj ∧ qj.fn.statement = none)) := by
  cases h with
  | take hw _ => exact .inl ⟨_, rfl, by rw [hw]; rfl, rfl⟩
  | execute hw _ _ _ =>
    refine .inr (.inl ⟨_, _, rfl, by rw [hw]; rfl, by rw [hw]; rfl, ?_, fun _ => rfl⟩)
    rw [WorkerPc.late, Job.afterExecute_late]
    rfl
  | executeError hw _ _ _ =>
    exact .inr (.inl ⟨_, _, rfl, by rw [hw]; rfl, by rw [hw]; rfl, rfl, fun _ => rfl⟩)
  | skip hw _ =>
    refine .inr (.inl ⟨_, _, rfl, by rw [hw]; rfl, by rw [hw]; rfl, rfl, fun hu => ?_⟩)
    cases (Job.attended_of_check (hasStage hr hw)).symm.trans hu
  | finish hw => exact .inr (.inr (.inl ⟨_, rfl, by rw [hw]; rfl, by rw [hw]; rfl, rfl⟩))
  | slotFree hw =>
    refine .inr (.inr (.inr ⟨rfl, rfl, fun _ => by rw [hw]; rfl, fun hl => ?_⟩))
    rw [WorkerPc.late, Job.entry_early] at hl
    cases hl
  | @check qj hw _ =>
    refine .inr (.inr (.inr ⟨rfl, rfl, fun _ => by rw [hw]; rfl, fun hl => .inr ⟨qj, ?_⟩⟩))
    rw [WorkerPc.late, Bool.not_eq_true'] at hl
    exact ⟨by rw [hw]; rfl, Job.statement_of_afterCheck hl⟩
  | restore hw _ _ _ =>
    exact .inr (.inr (.inr ⟨rfl, rfl, fun _ => by rw [hw]; rfl, fun hl => (by cases hl)⟩))
  | fetch hw _ _ _ | fetchError hw _ _ _ | record hw _ | keep hw _ =>
    exact .inr (.inr (.inr ⟨rfl, rfl, fun he => (by cases he), fun _ => .inl (by rw [hw]; rfl)⟩))
  | prepareError hw _ _ | prepare hw _ _ | commit hw _ _ | rollbackIgnored hw _ _
  | rollback hw _ _ =>
    exact .inr (.inr (.inr ⟨rfl, rfl, fun he => (by cases he), fun _ =>
      .inr ⟨_, congrArg WorkerPc.inHand hw, Job.statement_of_direct (hasStage hr hw)⟩⟩))
  | _ => exact .inr (.inr (.inr ⟨rfl, rfl, fun he => (by cases he), fun hl => (by cases hl)⟩))

/-- The statement of the job at position `n` has been executed, or the job has returned
    before; the latter only where the client waits for the job. -/
def Ended (tr : List Event) (n : Nat) (qj : QueuedJob) : Prop :=
  qj.fn.statement.isSome → ∃ o, (n, o) ∈ outcomes tr ∧ (qj.fn.isUnattended → o.isSome)

theorem Ended.cons {n : Nat} {qj : QueuedJob} (h : Ended tr n qj) (e : Event) :
    Ended (e :: tr) n qj := by
  intro hs
  obtain ⟨o, ho, hu⟩ := h hs
  exact ⟨o, List.mem_append_left _ ho, hu⟩

/-- Each job executes its statement, or returns before, exactly once. -/
structure Once (tr : List Event) (s : State B) : Prop where
  sorted : ((outcomes tr).map Prod.fst).Pairwise (· < ·)
  lt : ∀ x ∈ outcomes tr, x.1 < (started tr).length
  early : s.worker.early → ∀ x ∈ outcomes tr, x.1 < (finished tr).length
  ended : ∀ n qj, (finished tr)[n]? = some qj → Ended tr n qj
  late : s.worker.late → ∀ qj, s.worker.inHand = some qj → Ended tr (finished tr).length qj

theorem WorkerPc.not_late {pc : WorkerPc} (h : pc.early) : ¬pc.late := by
  cases pc <;> simp_all [WorkerPc.early, WorkerPc.late]

theorem Event.act_of_outcome {e : Event} {o : Option ParamBuffer} (h : e.outcome = some o) :
    e.act = none := by
  cases e <;> first
  | rfl
  | cases h

theorem outcomes_of_none (h : e.outcome = none) : outcomes (e :: tr) = outcomes tr := by
  rw [outcomes, h]
  exact List.append_nil _

/-- A step of which nothing is counted. What comes late then did so before, or has no statement. -/
theorem Once.quiet (ho : Once tr s) (hsn : e.started = none) (hfn : e.finished = none)
    (heo : e.outcome = none) (hearly : s'.worker.early → s.worker.early)
    (hlate : s'.worker.late → ∀ qj, s'.worker.inHand = some qj →
      s.worker.late ∧ s.worker.inHand = some qj ∨ qj.fn.statement = none) : Once (e :: tr) s' := by
  have hsta : started (e :: tr) = started tr := chron_cons_none hsn tr
  have hfin : finished (e :: tr) = finished tr := chron_cons_none hfn tr
  have hout : outcomes (e :: tr) = outcomes tr := outcomes_of_none heo
  refine ⟨hout ▸ ho.sorted, fun x hx => hsta ▸ ho.lt x (hout ▸ hx),
    fun he x hx => hfin ▸ ho.early (hearly he) x (hout ▸ hx),
    fun n qj hq => (ho.ended n qj (hfin ▸ hq)).cons e, fun hl qj hw => ?_⟩
  rw [hfin]
  rcases hlate hl qj hw with ⟨hl, hw⟩ | hj
  · exact (ho.late hl qj hw).cons e
  · intro hs
    rw [hj] at hs
    cases hs

/-- A job is taken: the outcomes are those of the jobs before it. -/
theorem Once.start (hr : (asyncDb B).Run tr s) (ho : Once tr s) {qj : QueuedJob}
    (hw : s.worker.inHand = none) (he : s'.worker.early) : Once (.start qj :: tr) s' := by
  have hout : outcomes (.start qj :: tr) = outcomes tr := outcomes_of_none rfl
  have hfin : finished (.start qj :: tr) = finished tr := chron_cons_none rfl tr
  have hsta : started tr = finished tr := by
    rw [started_eq hr, hw]
    exact List.append_nil _
  refine ⟨hout ▸ ho.sorted, fun x hx => ?_, fun _ x hx => ?_, fun n qj' hq => ?_, fun hl => ?_⟩
  · rw [started_cons, List.length_append]
    exact Nat.lt_add_right _ (ho.lt x (hout ▸ hx))
  · rw [hfin, ← hsta]
    exact ho.lt x (hout ▸ hx)
  · exact (ho.ended n qj' (hfin ▸ hq)).cons _
  · exact absurd hl (WorkerPc.not_late he)

/-- The job in hand executes its statement, or returns. -/
theorem Once.outcome (hr : (asyncDb B).Run tr s) (ho : Once tr s) (h : WorkerStep s e s')
    {qj : QueuedJob} {o : Option ParamBuffer} (heo : e.outcome = some o) (he : s.worker.early)
    (hw : s.worker.inHand = some qj) (hl : s'.worker.late) (hu : qj.fn.isUnattended → o.isSome) :
    Once (e :: tr) s' := by
  obtain ⟨-, hsn, hfn⟩ := Event.of_act_none (Event.act_of_outcome heo)
  have hsta : started (e :: tr) = started tr := chron_cons_none hsn tr
  have hfin : finished (e :: tr) = finished tr := chron_cons_none hfn tr
  have hlen := (accepted_inHand hr hw).1
  have hout : outcomes (e :: tr) = outcomes tr ++ [((finished tr).length, o)] := by
    rw [outcomes, heo, hlen]
    rfl
  refine ⟨?_, fun x hx => ?_, fun he' => absurd hl (WorkerPc.not_late he'),
    fun n qj' hq => (ho.ended n qj' (hfin ▸ hq)).cons e, fun _ qj' hw' _ => ?_⟩
  · rw [hout, List.map_append, List.pairwise_append]
    refine ⟨ho.sorted, List.pairwise_singleton _ _, fun a ha b hb => ?_⟩
    obtain ⟨x, hx, rfl⟩ := List.mem_map.1 ha
    obtain rfl := List.mem_singleton.1 hb
    exact ho.early he x hx
  · rw [hsta]
    rw [hout, List.mem_append, List.mem_singleton] at hx
    rcases hx with hx | rfl
    · exact ho.lt x hx
    · exact hlen ▸ Nat.lt_succ_self _
  · rw [hfin, hout]
    rw [h.inHand_eq (Event.act_of_outcome heo), hw] at hw'
    obtain rfl := Option.some.inj hw'
    exact ⟨o, List.mem_append_right _ (List.mem_singleton_self _), hu⟩

/-- The job in hand has returned. -/
theorem Once.finish (ho : Once tr s) {qj : QueuedJob} (hl : s.worker.late)
    (hw : s.worker.inHand = some qj) (hn : s'.worker = .notify) : Once (.finish qj :: tr) s' := by
  have hout : outcomes (.finish qj :: tr) = outcomes tr := outcomes_of_none rfl
  have hsta : started (.finish qj :: tr) = started tr := chron_cons_none rfl tr
  have hfin : finished (.finish qj :: tr) = finished tr ++ [qj] := finished_cons ..
  refine ⟨hout ▸ ho.sorted, fun x hx => hsta ▸ ho.lt x (hout ▸ hx), fun he => ?_,
    fun n qj' hq => ?_, fun hl' => ?_⟩
  · rw [hn] at he
    cases he
  · rw [hfin] at hq
    by_cases hlt : n < (finished tr).length
    · rw [List.getElem?_append_left hlt] at hq
      exact (ho.ended n qj' hq).cons _
    · rw [List.getElem?_append_right (by omega), List.getElem?_singleton] at hq
      split at hq
      · obtain rfl := Option.some.inj hq
        have hn : n = (finished tr).length := by omega
        exact hn ▸ (ho.late hl qj hw).cons _
      · cases hq
  · rw [hn] at hl'
    cases hl'

theorem Once.worker (hr : (asyncDb B).Run tr s) (ho : Once tr s) (h : WorkerStep s e s') :
    Once (e :: tr) s' := by
  rcases h.life hr with ⟨qj, rfl, hw, he⟩ | ⟨qj, o, heo, he, hw, hl, hu⟩ | ⟨qj, rfl, hl, hw, hn⟩ |
    ⟨heo, hact, he, hl⟩
  · exact ho.start hr hw he
  · exact ho.outcome hr h heo he hw hl hu
  · exact ho.finish hl hw hn
  · -- A job without a statement may have come to its end.
    obtain ⟨-, hsn, hfn⟩ := Event.of_act_none hact
    refine ho.quiet hsn hfn heo he fun hl' qj hw => ?_
    rw [h.inHand_eq hact] at hw
    rcases hl hl' with hl | ⟨qj', hw', hj⟩
    · exact .inl ⟨hl, hw⟩
    · obtain rfl := Option.some.inj (hw'.symm.trans hw)
      exact .inr hj

theorem Once.client (ho : Once tr s) (h : ClientStep s e s') : Once (e :: tr) s' := by
  have hnone : e.started = none ∧ e.finished = none ∧ e.outcome = none := by
    cases h <;> exact ⟨rfl, rfl, rfl⟩
  have hw : s'.worker.early = s.worker.early ∧ s'.worker.late = s.worker.late ∧
      s'.worker.inHand = s.worker.inHand := by
    rcases h.worker with hw | hw <;> rw [hw]
    · exact ⟨rfl, rfl, rfl⟩
    · cases s.worker <;> exact ⟨rfl, rfl, rfl⟩
  obtain ⟨he, hl, hi⟩ := hw
  exact ho.quiet hnone.1 hnone.2.1 hnone.2.2 (fun he' => he ▸ he') fun hl' qj hw =>
    .inl ⟨hl ▸ hl', hi ▸ hw⟩

theorem once (h : (asyncDb B).Run tr s) : Once tr s := by
  refine h.invariant (I := Once) ?_ ?_
  · rintro _ ⟨db, rfl⟩
    exact ⟨.nil, fun x hx => absurd hx List.not_mem_nil, fun he => (by cases he),
      fun n qj hq => (by cases hq), fun hl => (by cases hl)⟩
  · rintro tr s e s' hr ho (h | h)
    · exact ho.client h
    · exact ho.worker hr h

end Dbgen4.Async
