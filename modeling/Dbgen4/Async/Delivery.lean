import Dbgen4.Async.Schedule
import Dbgen4.Async.Life
import Dbgen4.Async.Progress

/-!
# The asynchronous facade: delivery

The jobs the worker runs are the jobs enqueued, in the order of the calls, each
once, and each executes its statement with the parameters that the caller's
buffer held at the call, whatever the caller has written there since; and none is
left behind, as long as no job names a null task (`delivery`). A job that does is
what a handle leads to that `prepare` returned although its own job had been
dropped: it is enqueued, and neither it nor any later job is ever done
(`not_delivery`).
-/

namespace Dbgen4.Async

open Rtl

variable {B : Backend} {tr : List Event} {s s' : State B} {e : Event}

/-- A job that has gone through `async_db` once, in the order of the calls, with the
    parameters of its call. -/
structure Delivers (tr : List Event) : Prop where
  /-- The jobs taken are the jobs enqueued, in their order, ... -/
  started : Async.started tr <+: enqueued tr
  /-- ... and they are run one after the other. -/
  finished : Async.finished tr <+: Async.started tr
  /-- The jobs are enqueued in the order of the calls, at most one a call. -/
  order : (accepted tr).map Prod.snd = enqueued tr ∧ ((accepted tr).map Prod.fst).Pairwise (· < ·)
  /-- Each is the job of its call. -/
  call : ∀ x ∈ accepted tr, ∃ op held, (calls tr)[x.1]? = some (op, held) ∧ op.Posts held x.2
  /-- A job executes its statement at most once, ... -/
  once : ((outcomes tr).map Prod.fst).Pairwise (· < ·)
  /-- ... with what the caller's buffer held at the call, ... -/
  params : ∀ n par, (n, some par) ∈ outcomes tr → ∃ k qj op,
    (accepted tr)[n]? = some (k, qj) ∧ (calls tr)[k]? = some (op, some par)
  /-- ... and it does, unless the client waits for it and it returned at `has_error()`. -/
  ended : ∀ n qj, (Async.finished tr)[n]? = some qj → qj.fn.statement.isSome →
    ∃ o, (n, o) ∈ outcomes tr ∧ (qj.fn.isUnattended → o.isSome)
  /-- When the destructor has returned, every job enqueued has run. -/
  destroyed : .ret .destroyed ∈ tr → Async.finished tr = enqueued tr

/-- A statement executes with what the caller's buffer held at its call. -/
theorem outcome_params (h : (asyncDbKeeping B).Run tr s) {n : Nat} {par : ParamBuffer}
    (hn : (n, some par) ∈ outcomes tr) : ∃ k qj op,
      (accepted tr)[n]? = some (k, qj) ∧ (calls tr)[k]? = some (op, some par) := by
  refine h.invariant (I := fun tr _ => ∀ n par, (n, some par) ∈ outcomes tr → ∃ k qj op,
    (accepted tr)[n]? = some (k, qj) ∧ (calls tr)[k]? = some (op, some par)) ?_ ?_ n par hn
  · intro s _ n par hn
    cases hn
  · intro tr s e s' hr ih hst n par hn
    rw [outcomes, List.mem_append] at hn
    rcases hn with hn | hn
    · obtain ⟨k, qj, op, hk, hop⟩ := ih n par hn
      exact ⟨k, qj, op, accepted_mono hk e, calls_mono hop e⟩
    · rw [Option.mem_toList, Option.map_eq_some_iff] at hn
      obtain ⟨o, ho, hno⟩ := hn
      obtain ⟨rfl, rfl⟩ := Prod.mk.inj hno
      -- A new outcome: only the worker brings one about, and with parameters only by executing.
      rcases hst with ⟨h | h, -⟩
      · cases h <;> cases ho
      · cases h with
        | @execute qj _ _ _ _ _ hw hj ht _ | @executeError qj _ _ _ _ _ _ hw hj ht _ =>
          obtain ⟨k, hk, op, hop⟩ := execute_params hr hw hj ht
          have hlen := (accepted_inHand hr.of_restrict (congrArg WorkerPc.inHand hw)).1
          obtain rfl := Option.some.inj (Option.some.inj ho)
          rw [hlen, Nat.add_sub_cancel]
          exact ⟨k, qj, op, accepted_mono hk _, calls_mono hop _⟩
        | _ => cases ho

/-- Once the destructor has returned, the client is gone. -/
theorem client_of_destroyed (h : (asyncDb B).Run tr s) (hd : .ret .destroyed ∈ tr) :
    s.client = .destroyed := by
  refine h.invariant (I := fun tr s => .ret .destroyed ∈ tr → s.client = .destroyed) ?_ ?_ hd
  · intro s _ hd
    cases hd
  · rintro tr s e s' - ih (h | h) hd
    · rcases List.mem_cons.1 hd with rfl | hd
      · cases h
        rfl
      · have hc := ih hd
        cases h <;> simp_all
    · rcases List.mem_cons.1 hd with rfl | hd
      · cases h
      · rcases h.client with h | h <;> rw [h, ih hd]
        rfl

theorem slot_of_destroyed (h : (asyncDb B).Run tr s) (hd : .ret .destroyed ∈ tr) :
    s.slot = ⟨none, none⟩ :=
  slot_of_atRest h (by rw [client_of_destroyed h hd]; rfl)

/-- No job is left behind: while one is not done, the worker is awake and can step, or the client
    is about to wake it. -/
def LeavesNone (tr : List Event) (s : State B) : Prop :=
  finished tr ≠ enqueued tr →
    (s.worker ≠ .asleep ∧ ∃ e s', WorkerStep s e s') ∨ ∃ c, s.client = .notify c

/-- `async_db` delivers every job once, in order, with the parameters of its call, and
    leaves none behind, as long as no job is enqueued whose task is null. -/
theorem delivery (h : (asyncDbNaming B).Run tr s) : Delivers tr ∧ LeavesNone tr s := by
  have hk := keeping_of_naming h
  refine ⟨?_, fun hn => progress h fun hs => hn (finished_of_slot h.of_restrict hs)⟩
  exact {
    started := ⟨_, (enqueued_eq h.of_restrict).symm⟩
    finished := ⟨_, (started_eq h.of_restrict).symm⟩
    order := ⟨accepted_jobs tr, (ordered h.of_restrict).sorted⟩
    call := fun x hx =>
      have ⟨op, held, hk, hp, _⟩ := origin_accepted hk hx
      ⟨op, held, hk, hp⟩
    once := (once h.of_restrict).sorted
    params := fun n par hn => outcome_params hk hn
    ended := (once h.of_restrict).ended
    destroyed := fun hd => finished_of_slot h.of_restrict (slot_of_destroyed h.of_restrict hd) }

/-- The run in which a row is submitted and overwritten before the worker takes its job,
    and then the object is destroyed. -/
def overwriteRun : List Event × State scripted :=
  (scriptedRun (fun s e => KeepsRows s e ∧ NamesTask s e) [true] (prepareInsert ++
    [.write 0 (insertParams 1), .call (.submit ⟨some 0⟩), .client, .client, .client,
      .write 0 (insertParams 2), .call .destroy, .worker, .worker, .worker, .worker, .worker,
      .worker, .client, .client, .client, .worker, .client, .client])).get (by decide)

/-- The row submitted is the one inserted. -/
theorem delivery_overwrite : Delivers overwriteRun.1 ∧ LeavesNone overwriteRun.1 overwriteRun.2 ∧
    outcomes overwriteRun.1 = [(1, some (insertParams 1))] ∧
    .ret .destroyed ∈ overwriteRun.1 :=
  have h := delivery (scriptedRun_sound (Option.some_get _).symm)
  ⟨h.1, h.2, by decide, .head _⟩

/-- The run in which a submitted row fails, and `prepare` is called before the client has noticed:
    its job is dropped, but it returns a handle, as the statement has no results. The error is
    cleared by a rollback, and the statement, which has no parameters, is executed. -/
def nullRun : List Event × State scripted :=
  (scriptedRun KeepsRows [false] (prepareInsert ++ [.call (.submit ⟨some 0⟩), .client, .client,
    .client, .worker, .worker, .worker, .worker, .worker, .worker, .worker,
    .call (.prepare ⟨[], 1, false⟩ "delete from t" 1 1), .client, .client, .client, .client,
    .call .rollback, .client, .client, .client, .client, .worker, .worker, .worker, .worker,
    .worker, .client, .client, .client, .call (.executeSync ⟨some 1⟩), .client, .client, .worker,
    .worker, .worker, .worker])).get (by decide)

/-- The last job has come upon a null task: it is left behind, and is never done. -/
theorem not_delivery : (asyncDbKeeping scripted).Run nullRun.1 nullRun.2 ∧
    ¬LeavesNone nullRun.1 nullRun.2 ∧
    enqueued nullRun.1 = finished nullRun.1 ++ [⟨.executeSync 1 [], some 1⟩] ∧
    ∀ tr s, (asyncDb scripted).Path nullRun.2 tr s →
      finished (tr ++ nullRun.1) = finished nullRun.1 := by
  have hw : nullRun.2.worker = .crashed ⟨.executeSync 1 [], some 1⟩ := by decide
  have hlast : enqueued nullRun.1 = finished nullRun.1 ++ [⟨.executeSync 1 [], some 1⟩] := by
    decide
  refine ⟨scriptedRun_sound (Option.some_get _).symm, fun h => ?_, hlast, fun tr s hp => ?_⟩
  · rcases h (by rw [hlast]; simp) with ⟨-, e, s', hs⟩ | ⟨c, hc⟩
    · cases hs <;> cases hw.symm.trans ‹nullRun.2.worker = _›
    · cases hc
  · rw [finished, chron_append]
    exact (congrArg (finished nullRun.1 ++ ·) (finished_of_crashed hp hw).2).trans
      (List.append_nil _)

end Dbgen4.Async
