import Dbgen4.Async.Commit

/-!
# The asynchronous facade: forgetting an error

An error is to be forgotten only when the transaction in which the statement
failed is really gone, that is, when the database has committed or rolled back
with success (`unresolved`). But `commit` and `rollback` clear `error_` whatever
comes of the rollback: when it fails, the transaction is still there, the error
is not, and the next `commit` commits (`forgottenRun`). When no rollback fails
while an error is stored (`RollsBack`), the error is kept until the transaction
is gone, and nothing is committed with a failure in it (`kept_of_rollsBack`).
-/

namespace Dbgen4.Async

open Rtl

variable {B : Backend} {tr : List Event} {s s' : State B} {e : Event}

/-- The failures of statements since the database last committed or rolled back with
    success. -/
def unresolved : List Event → List DbError
  | [] => []
  | .commit sts :: tr => if sts.isSuccess then [] else unresolved tr
  | .rollback sts :: tr => if sts.isSuccess then [] else unresolved tr
  | e :: tr => unresolved tr ++ e.failed.toList

/-- The error is kept: after a failure, `has_error()` is true until the transaction is gone,
    once the job that failed has stored it. -/
def ErrorKept (tr : List Event) (s : State B) : Prop :=
  unresolved tr ≠ [] → s.error.isSome ∨ s.worker.noting.isSome

/-- No rollback of the database fails while an error is stored. -/
def RollsBack (s : State B) (e : Event) : Prop :=
  ∀ sts, e = .rollback sts → s.error.isSome → sts.isSuccess

theorem unresolved_cons (hc : e.isCommit = false) (hr : e.isRollback = false) :
    unresolved (e :: tr) = unresolved tr ++ e.failed.toList := by
  cases e with
  | commit => cases hc
  | rollback => cases hr
  | _ => rfl

theorem boundaryFailures_cons (hc : e.isCommit = false) (hr : e.isRollback = false) :
    boundaryFailures (e :: tr) = boundaryFailures tr ++ e.failed.toList := by
  cases e with
  | commit => cases hc
  | rollback => cases hr
  | _ => rfl

/-- Where nothing is noted, and no error stored, nothing has failed since the boundary. -/
theorem boundaryFailures_of_error (hr : (asyncDb B).Run tr s) (he : s.error = none)
    (hn : s.worker.noting = none) : boundaryFailures tr = [] := by
  have hf := failures_head hr
  rw [he, hn] at hf
  have hb := boundaryFailures_suffix hr
  rw [List.head?_eq_none_iff.1 hf] at hb
  exact List.suffix_nil.1 hb

/-- There are no failures when the database is told to commit. -/
theorem failures_of_commit (hr : (asyncDb B).Run tr s) {sts : DbSts}
    (h : (asyncDb B).step s (.commit sts) s') : failures tr = [] := by
  obtain ⟨qj, -, -, ha, -⟩ := awaits_of_commit hr h
  have hprog := commitProgress hr
  rw [commitAt_of_awaits ha] at hprog
  exact hprog.2

/-- When no rollback fails while an error is stored, every boundary resolves what has failed
    before it. -/
theorem unresolved_eq (h : ((asyncDb B).restrict RollsBack).Run tr s) :
    unresolved tr = boundaryFailures tr := by
  refine h.invariant (I := fun tr _ => unresolved tr = boundaryFailures tr) (fun _ _ => rfl) ?_
  rintro tr s e s' hr ih ⟨hst, hroll⟩
  cases e with
  | commit sts =>
    have hb := boundaryFailures_suffix hr.of_restrict
    rw [failures_of_commit hr.of_restrict hst] at hb
    show (if sts.isSuccess then [] else unresolved tr) = []
    rw [ih, List.suffix_nil.1 hb, ite_self]
  | rollback sts =>
    show (if sts.isSuccess then [] else unresolved tr) = []
    cases he : s.error with
    | some err => rw [if_pos (hroll sts rfl (by rw [he]; rfl))]
    | none =>
      have hn : s.worker.noting = none := by
        rcases hst with hst | hst
        · cases hst
        · cases hst with
          | rollback hw _ _ | rollbackIgnored hw _ _ => rw [hw]; rfl
      rw [ih, boundaryFailures_of_error hr.of_restrict he hn, ite_self]
  | _ => rw [unresolved_cons rfl rfl, boundaryFailures_cons rfl rfl, ih]

/-- **An error is forgotten only when the transaction is gone**: in every run in which no
    rollback fails while an error is stored, the error is kept in every state, and whenever the
    database is told to commit, nothing has failed since the transaction was last ended. -/
theorem kept_of_rollsBack (h : ((asyncDb B).restrict RollsBack).Run tr s) :
    ErrorKept tr s ∧ ∀ sts tr', .commit sts :: tr' <:+ tr → unresolved tr' = [] := by
  refine ⟨fun hne => ?_, ?_⟩
  · by_contra hno
    rw [not_or, Option.not_isSome_iff_eq_none, Option.not_isSome_iff_eq_none] at hno
    rw [unresolved_eq h] at hne
    exact hne (boundaryFailures_of_error h.of_restrict hno.1 hno.2)
  · rintro sts tr' ⟨tr'', rfl⟩
    obtain ⟨s₁, h₁, -⟩ := h.split
    cases h₁ with
    | step hr hst =>
      have hb := boundaryFailures_suffix hr.of_restrict
      rw [failures_of_commit hr.of_restrict hst.1] at hb
      rw [unresolved_eq hr]
      exact List.suffix_nil.1 hb

instance (s : State B) (e : Event) : Decidable (RollsBack s e) :=
  match e with
  | .rollback sts => decidable_of_iff (s.error.isSome → sts.isSuccess)
      ⟨fun h _ he => by cases he; exact h, fun h => h _ rfl⟩
  | .call .. | .write .. | .isFinished _ | .error _ | .discard _ | .blocked _ | .enqueue _
  | .clear | .ret _ | .start _ | .skip _ | .execute .. | .fetch .. | .record _ | .prepare _
  | .commit _ | .finish _ | .tau => isTrue fun _ he => by cases he

/-- A row is submitted and fails, and `commit` rolls back. -/
def failedCommit : List Choice :=
  prepareInsert ++ [.call (.submit ⟨some 0⟩), .client, .client, .client, .call .commit, .worker,
    .worker, .worker, .worker, .worker, .worker, .worker, .client, .client, .client, .client,
    .worker, .worker, .worker, .worker, .worker, .client, .client, .client]

/-- The run of it on a database that rolls back. -/
def resolvedRun : List Event × State scripted :=
  (scriptedRun RollsBack [false] failedCommit).get (by decide)

/-- The failure is resolved, and the error forgotten. -/
theorem kept_resolved : ErrorKept resolvedRun.1 resolvedRun.2 ∧ unresolved resolvedRun.1 = [] :=
  ⟨(kept_of_rollsBack (scriptedRun_sound (Option.some_get _).symm)).1, by decide⟩

/-- The scripted backend, with a database that does not roll back. -/
def stubborn : Backend where
  Db := scripted.Db
  Query := scripted.Query
  prepare := scripted.prepare
  execute := scripted.execute
  fetch := scripted.fetch
  commit := scripted.commit
  rollback db := (.transactionError, db)

/-- The run on it. -/
def forgottenRun : List Event × State stubborn :=
  (run (B := stubborn) (fun _ _ => True) failedCommit ([], { db := [false] })).get (by decide)

/-- The error is forgotten while the transaction is still there. -/
theorem not_errorKept :
    ¬∀ (B : Backend) (tr : List Event) (s : State B), (asyncDb B).Run tr s → ErrorKept tr s := by
  intro h
  have hr : ((asyncDb stubborn).restrict fun _ _ => True).Run forgottenRun.1 forgottenRun.2 :=
    run_sound (x := ([], { db := [false] })) (.init ⟨[false], rfl⟩) (Option.some_get _).symm
  exact absurd (h _ _ _ hr.of_restrict (by decide)) (by decide)

end Dbgen4.Async
