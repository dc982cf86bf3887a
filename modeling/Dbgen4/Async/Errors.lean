import Dbgen4.Async.Queue

/-!
# The asynchronous facade: the sticky error

`error_` is the first failure of a statement since it was last cleared, once
`note_error` has stored it (`failures_head`, `error_eq`).
-/

namespace Dbgen4.Async

open Rtl

variable {B : Backend} {tr : List Event} {s s' : State B} {e : Event}

/-- What a step sets the error to. -/
def Event.setsError : Event → Option (Option DbError)
  | .record e => some (some e)
  | .clear => some none
  | _ => none

/-- The error stored since it was last cleared. -/
def pendingError : List Event → Option DbError
  | [] => none
  | e :: tr => e.setsError.getD (pendingError tr)

/-- The failure about to be noted. -/
def Stage.noting : Stage → Option DbError
  | .note e => some e
  | _ => none

/-- The failure the worker is about to note. -/
def WorkerPc.noting : WorkerPc → Option DbError
  | .run _ st => st.noting
  | _ => none

@[simp] theorem noting_notified (pc : WorkerPc) : pc.notified.noting = pc.noting := by
  cases pc <;> rfl

theorem noting_entry (j : Job) : j.entry.noting = none := by
  cases j <;> rfl

theorem noting_afterCheck (j : Job) : j.afterCheck.noting = none := by
  cases j <;> rfl

theorem noting_afterExecute (j : Job) (stmt : StmtType) : (j.afterExecute stmt).noting = none := by
  rcases stmt with ⟨_, _, _ | _⟩ <;> cases j <;> rfl

/-- The client changes the error only by clearing it, when nothing is in hand. -/
theorem ClientStep.error_eq (hr : (asyncDb B).Run tr s) (h : ClientStep s e s') :
    (e = .clear ∧ s'.error = none ∧ s.worker.inHand = none) ∨
      (e.setsError = none ∧ e.failed = none ∧ s'.error = s.error) := by
  cases h with
  | clearCommit hc | clearRollback hc =>
    have hs := slot_of_atRest hr (by rw [hc]; rfl)
    exact .inl ⟨rfl, rfl, congrArg Handoff.State.inHand hs⟩
  | _ => exact .inr ⟨rfl, rfl, rfl⟩

/-- The worker changes the error only by storing the failure it notes; it notes every
    failure, and stores it unless there is one already. -/
theorem WorkerStep.error_eq (h : WorkerStep s e s') :
    (∃ err, e = .record err ∧ s.worker.noting = some err ∧ s.error = none ∧
        s'.error = some err ∧ s'.worker.noting = none) ∨
      (e.setsError = none ∧ s'.error = s.error ∧
        (s.error.isSome ∧ s'.worker.noting = none ∧ e.failed = none ∨
          s.worker.noting = none ∧ s'.worker.noting = e.failed)) := by
  cases h with
  | record hw he => exact .inl ⟨_, rfl, by rw [hw]; rfl, he, rfl, rfl⟩
  | keep hw he => exact .inr ⟨rfl, rfl, .inl ⟨he, rfl, rfl⟩⟩
  | execute hw _ _ _ =>
    exact .inr ⟨rfl, rfl, .inr ⟨by rw [hw]; rfl, noting_afterExecute _ _⟩⟩
  | slotFree hw => exact .inr ⟨rfl, rfl, .inr ⟨by rw [hw]; rfl, noting_entry _⟩⟩
  | check hw _ => exact .inr ⟨rfl, rfl, .inr ⟨by rw [hw]; rfl, noting_afterCheck _⟩⟩
  | take hw _ | exit hw _ _ | sleep hw _ _ | spurious hw | skip hw _
  | restore hw _ _ _ | restoreOverflow hw _ _ _ _ | restoreNull hw _ _
  | executeError hw _ _ _ | fetch hw _ _ _ | fetchError hw _ _ _ | fetchNull hw _ _
  | prepareError hw _ _ | prepare hw _ _ | commit hw _ _ | rollbackIgnored hw _ _
  | rollback hw _ _ | finish hw | notify hw =>
    exact .inr ⟨rfl, rfl, .inr ⟨by rw [hw]; rfl, rfl⟩⟩

theorem noting_of_inHand {pc : WorkerPc} (h : pc.inHand = none) : pc.noting = none := by
  cases pc <;> first
  | rfl
  | cases h

theorem failures_cons (he : e.setsError = none) :
    failures (e :: tr) = failures tr ++ e.failed.toList := by
  cases e <;> first
  | rfl
  | cases he

/-- The error is the one stored since it was last cleared. -/
theorem error_eq (h : (asyncDb B).Run tr s) : s.error = pendingError tr := by
  refine h.invariant (I := fun tr s => s.error = pendingError tr) ?_ ?_
  · rintro _ ⟨db, rfl⟩
    rfl
  · rintro tr s e s' hr ih (h | h)
    · rcases h.error_eq hr with ⟨rfl, he, -⟩ | ⟨hc, -, he⟩
      · exact he
      · rw [he, ih, pendingError, hc, Option.getD_none]
    · rcases h.error_eq with ⟨err, rfl, -, -, he, -⟩ | ⟨hc, he, -⟩
      · exact he
      · rw [he, ih, pendingError, hc, Option.getD_none]

/-- The first failure since the error was last cleared is the error, or is about to be. -/
theorem failures_head (h : (asyncDb B).Run tr s) :
    (failures tr).head? = s.error.or s.worker.noting := by
  refine h.invariant (I := fun tr s => (failures tr).head? = s.error.or s.worker.noting) ?_ ?_
  · rintro _ ⟨db, rfl⟩
    rfl
  · rintro tr s e s' hr ih (h | h)
    · have hn : s'.worker.noting = s.worker.noting := by
        rcases h.worker with h | h <;> simp [h]
      rcases h.error_eq hr with ⟨rfl, he, hh⟩ | ⟨hc, hf, he⟩
      · rw [he, hn, noting_of_inHand hh]
        rfl
      · rw [failures_cons hc, hf, he, hn, ← ih]
        simp
    · rcases h.error_eq with ⟨err, rfl, hn, he, he', hn'⟩ | ⟨hc, he, hn⟩
      · have hf : failures (.record err :: tr) = failures tr := List.append_nil _
        rw [hf, ih, he', hn', he, hn]
        rfl
      · rw [failures_cons hc, List.head?_append, ih, he]
        rcases hn with ⟨hs, hn', hf⟩ | ⟨hn, hn'⟩
        · obtain ⟨err, herr⟩ := Option.isSome_iff_exists.1 hs
          simp [herr]
        · rw [hn, hn', Option.or_none]
          cases e.failed <;> rfl

/-- While nothing is in hand, the error is the first failure since it was last cleared. -/
theorem error_of_inHand (h : (asyncDb B).Run tr s) (hh : s.worker.inHand = none) :
    s.error = (failures tr).head? := by
  rw [failures_head h, noting_of_inHand hh, Option.or_none]

end Dbgen4.Async
