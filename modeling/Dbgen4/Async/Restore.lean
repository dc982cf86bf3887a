import Dbgen4.Async.Calls
import Dbgen4.Async.Life
import Dbgen4.Async.Schedule

/-!
# The asynchronous facade: restoring a snapshot

A caller may resize its own buffer after `prepare`, so that the snapshot that a
job carries (`Restoring`) and the buffer of its query have different numbers of
rows. The job is to execute what the caller's buffer held, or to be refused, and
to stay inside the buffer of the query (`RestoresExactly`). But `restore_params`
copies all the value bytes there are, and the query executes all the rows of its
own buffer: a longer snapshot is written past the end of the column arrays
(`overflowRun`), and after a shorter one the query executes rows of the job
before as well. So it does just where the two have the same rows, or the query
refuses to run at all and the bytes fit (`restoresExactly_iff`).
-/

namespace Dbgen4.Async

open Rtl

variable {B : Backend} {tr tr' : List Event} {s s' : State B} {e : Event}

/-- The query is refused, whatever its buffer holds: its execution fails, and leaves the
    connection as it was. -/
def Refuses (db : B.Db) (query : B.Query) : Prop :=
  ∀ par, ∃ e query', B.execute db query par = (some e, db, query')

/-- The job in hand is about to restore its parameters into the buffer of the task `t`; it is
    the job of the call `op`, the one at position `k`, at which the caller's buffer held `held`. -/
structure Restoring (tr : List Event) (s : State B) (qj : QueuedJob) (i : Nat) (t : Task B)
    (k : Nat) (op : Op) (held : ParamBuffer) : Prop where
  worker : s.worker = .run qj .restore
  task : s.task i = some t
  hasParameters : t.stmt.hasParameters
  accepted : (accepted tr)[(finished tr).length]? = some (k, qj)
  call : (calls tr)[k]? = some (op, some held)
  statement : op.statement = some i

/-- From `s` on, the job in hand writes nothing outside of the column arrays of the query, and
    executes its statement on `held`, or is refused. -/
structure RestoresExactly (s : State B) (qj : QueuedJob) (i : Nat) (held : ParamBuffer) :
    Prop where
  inside : ∀ tr s₁ e s₂, (asyncDb B).Path s tr s₁ → finished tr = [] →
    s₁.worker = .run qj .restore → (asyncDb B).step s₁ e s₂ → s₂.worker ≠ .crashed qj
  executes : ∀ tr s₁ par out s₂, (asyncDb B).Path s tr s₁ → finished tr = [] →
    (asyncDb B).step s₁ (.execute qj par out) s₂ →
    par = held ∨ ∃ t, s₁.task i = some t ∧ Refuses s₁.db t.query

/-- Every job that is about to restore parameters is so for a call. -/
theorem restoring (h : (asyncDb B).Run tr s) {qj : QueuedJob} (hw : s.worker = .run qj .restore)
    {i : Nat} {snap : ParamSnapshot} {t : Task B} (hj : qj.fn.statement = some (i, snap))
    (ht : s.task i = some t) (hp : t.stmt.hasParameters) :
    ∃ k op held, Restoring tr s qj i t k op held := by
  obtain ⟨k, op, held, hk, hop, hi, -, -⟩ := carries h (congrArg WorkerPc.inHand hw) hj ht
  exact ⟨k, op, held, hw, ht, hp, hk, hop, hi⟩

section

variable {qj : QueuedJob} {i k : Nat} {t : Task B} {op : Op} {held : ParamBuffer}

theorem Restoring.carries (h : Restoring tr s qj i t k op held) (hr : (asyncDb B).Run tr s) :
    qj.fn.statement = some (i, snapshotParams held) ∧ held.strides = t.par.strides := by
  obtain ⟨⟨j, snap⟩, hj⟩ := Option.isSome_iff_exists.1 (hasStage hr h.worker)
  obtain ⟨op', held', hop', hp⟩ := called_accepted hr (List.mem_of_getElem? h.accepted)
  obtain ⟨rfl, -⟩ := Prod.mk.inj (Option.some.inj (hop'.symm.trans h.call))
  obtain rfl := Option.some.inj ((hp.statement hj).1.symm.trans h.statement)
  obtain ⟨-, par, hpar, rfl, hs⟩ :=
    carries_of_call hr (List.mem_of_getElem? h.accepted) h.call hj h.task
  obtain rfl := Option.some.inj hpar
  exact ⟨hj, hs⟩

/-! ## Until the job is done -/

/-- Where the job is, from the point on at which it is about to restore `snap` into the buffer
    of the task `t`. -/
inductive RestoreAt (s₀ : State B) (qj : QueuedJob) (i : Nat) (t : Task B) (snap : ParamSnapshot)
    (s : State B) : Prop
  | restoring : s.worker = .run qj .restore → s.task i = some t → s.db = s₀.db →
    RestoreAt s₀ qj i t snap s
  | executing {par : ParamBuffer} : restoreParams t.par snap = some par →
    s.worker = .run qj .execute → s.task i = some { t with par := par } → s.db = s₀.db →
    RestoreAt s₀ qj i t snap s
  | past : s.worker.early = false → s.worker.inHand.isSome → RestoreAt s₀ qj i t snap s

theorem ClientStep.db (h : ClientStep s e s') : s'.db = s.db := by
  cases h <;> rfl

/-- The client leaves the job in hand alone. -/
theorem ClientStep.frame_inHand (hr : (asyncDb B).Run tr s) (h : ClientStep s e s')
    (hw : s.worker.inHand = some qj) :
    s'.worker = s.worker ∧ s'.task i = s.task i ∧ s'.db = s.db := by
  refine ⟨?_, by rw [State.task, h.tasks_eq hr hw, State.task], h.db⟩
  rcases h.worker with hs | hs
  · exact hs
  · rw [hs]
    cases hpc : s.worker with
    | asleep =>
      rw [hpc] at hw
      cases hw
    | _ => rfl

theorem RestoreAt.client {s₀ : State B} {snap : ParamSnapshot} (hr : (asyncDb B).Run tr s)
    (ha : RestoreAt s₀ qj i t snap s) (h : ClientStep s e s') : RestoreAt s₀ qj i t snap s' := by
  cases ha with
  | restoring hw ht hdb =>
    obtain ⟨hw', ht', hdb'⟩ := h.frame_inHand (i := i) hr (congrArg WorkerPc.inHand hw)
    exact .restoring (hw'.trans hw) (ht'.trans ht) (hdb'.trans hdb)
  | executing hpar hw ht hdb =>
    obtain ⟨hw', ht', hdb'⟩ := h.frame_inHand (i := i) hr (congrArg WorkerPc.inHand hw)
    exact .executing hpar (hw'.trans hw) (ht'.trans ht) (hdb'.trans hdb)
  | past he hh =>
    obtain ⟨qj', hq⟩ := Option.isSome_iff_exists.1 hh
    obtain ⟨hw', -, -⟩ := h.frame_inHand (i := i) hr hq
    exact .past (hw' ▸ he) (hw' ▸ hh)

/-- The next step of the worker restores the parameters, or runs out of bounds. -/
theorem WorkerStep.of_restore {snap : ParamSnapshot} (h : WorkerStep s e s')
    (hw : s.worker = .run qj .restore) (hj : qj.fn.statement = some (i, snap))
    (ht : s.task i = some t) (hp : t.stmt.hasParameters) :
    (∃ par, restoreParams t.par snap = some par ∧ s'.worker = .run qj .execute ∧
        s'.task i = some { t with par := par } ∧ s'.db = s.db) ∨
      restoreParams t.par snap = none ∧ s'.worker = .crashed qj := by
  have hnot : ∀ {w : WorkerPc}, s.worker = w → w ≠ .run qj .restore → False :=
    fun h hne => hne (h.symm.trans hw)
  cases h with
  | @restore qj' i' snap' t' par hw' hj' ht' hpar =>
    obtain ⟨rfl, -⟩ := WorkerPc.run.inj (hw'.symm.trans hw)
    obtain ⟨rfl, rfl⟩ := Prod.mk.inj (Option.some.inj (hj'.symm.trans hj))
    obtain rfl := Option.some.inj (ht'.symm.trans ht)
    rw [if_pos hp] at hpar
    refine .inl ⟨par, hpar, rfl, ?_, rfl⟩
    rw [State.task_eq] at ht' ⊢
    exact List.getElem?_set_self (List.getElem?_eq_some_iff.1 ht').1
  | @restoreOverflow qj' i' snap' t' hw' hj' ht' _ hpar =>
    obtain ⟨rfl, -⟩ := WorkerPc.run.inj (hw'.symm.trans hw)
    obtain ⟨rfl, rfl⟩ := Prod.mk.inj (Option.some.inj (hj'.symm.trans hj))
    obtain rfl := Option.some.inj (ht'.symm.trans ht)
    exact .inr ⟨hpar, rfl⟩
  | @restoreNull qj' i' snap' hw' hj' ht' =>
    obtain ⟨rfl, -⟩ := WorkerPc.run.inj (hw'.symm.trans hw)
    obtain ⟨rfl, -⟩ := Prod.mk.inj (Option.some.inj (hj'.symm.trans hj))
    cases ht'.symm.trans ht
  | _ => exact (hnot ‹s.worker = _› (by simp)).elim

theorem WorkerStep.of_execute {par : ParamBuffer} {out : Option DbError}
    (h : WorkerStep s (.execute qj par out) s') : s.worker = .run qj .execute ∧
      ∃ i snap t, qj.fn.statement = some (i, snap) ∧ s.task i = some t ∧ t.par = par := by
  cases h with
  | execute hw hj ht _ | executeError hw hj ht _ => exact ⟨hw, _, _, _, hj, ht, rfl⟩

theorem RestoreAt.worker {s₀ : State B} {snap : ParamSnapshot} (hr : (asyncDb B).Run tr s)
    (hj : qj.fn.statement = some (i, snap)) (hp : t.stmt.hasParameters)
    (ha : RestoreAt s₀ qj i t snap s) (h : WorkerStep s e s') (hf : e.finished = none) :
    RestoreAt s₀ qj i t snap s' := by
  cases ha with
  | restoring hw ht hdb =>
    rcases h.of_restore hw hj ht hp with ⟨par, hpar, hw', ht', hdb'⟩ | ⟨-, hw'⟩
    · exact .executing hpar hw' ht' (hdb'.trans hdb)
    · exact .past (by rw [hw']; rfl) (by rw [hw']; rfl)
  | executing hpar hw ht hdb =>
    have hnot : ∀ {w : WorkerPc}, s.worker = w → w ≠ .run qj .execute → False :=
      fun h hne => hne (h.symm.trans hw)
    cases h with
    | execute => exact .past (Job.afterExecute_late _ _) rfl
    | executeError => exact .past rfl rfl
    | _ => exact (hnot ‹s.worker = _› (by simp)).elim
  | past he hh =>
    rcases h.life hr with ⟨_, -, hn, -⟩ | ⟨_, _, -, hearly, -⟩ | ⟨_, rfl, -⟩ | ⟨-, hact, hearly, -⟩
    · rw [hn] at hh
      cases hh
    · cases he.symm.trans hearly
    · cases hf
    · exact .past (Bool.eq_false_iff.2 fun h' => by cases he.symm.trans (hearly h'))
        (h.inHand_eq hact ▸ hh)

/-- Until the job is done, it is somewhere. -/
theorem Restoring.at_path (h : Restoring tr s qj i t k op held) (hr : (asyncDb B).Run tr s)
    (hp : (asyncDb B).Path s tr' s') (hf : finished tr' = []) :
    RestoreAt s qj i t (snapshotParams held) s' := by
  refine hp.invariant (I := fun tr' s' => finished tr' = [] →
    RestoreAt s qj i t (snapshotParams held) s') (fun _ => .restoring h.worker h.task rfl) ?_ hf
  intro tr' s₁ e s₂ hp ih hst hf
  rw [finished_cons, List.append_eq_nil_iff, Option.toList_eq_nil_iff] at hf
  have hr₁ := hr.append hp
  rcases hst with hst | hst
  · exact (ih hf.1).client hr₁ hst
  · exact (ih hf.1).worker hr₁ (h.carries hr).1 h.hasParameters hst hf.2

/-! ## What the job executes -/

/-- It restores its parameters and executes, unless the copy runs out of bounds. -/
theorem Restoring.steps (h : Restoring tr s qj i t k op held) (hr : (asyncDb B).Run tr s) :
    (restoreParams t.par (snapshotParams held) = none ∧
      ∃ s₁, (asyncDb B).step s .tau s₁ ∧ s₁.worker = .crashed qj) ∨
    ∃ par s₁ out s₂, restoreParams t.par (snapshotParams held) = some par ∧
      (asyncDb B).step s .tau s₁ ∧ s₁.task i = some { t with par := par } ∧ s₁.db = s.db ∧
      (asyncDb B).step s₁ (.execute qj par out) s₂ := by
  obtain ⟨hj, -⟩ := h.carries hr
  cases hpar : restoreParams t.par (snapshotParams held) with
  | none =>
    exact .inl ⟨rfl, _, .inr (.restoreOverflow h.worker hj h.task h.hasParameters hpar), rfl⟩
  | some par =>
    let s₁ : State B := { s with
      tasks := s.tasks.set i (some { t with par := par }), worker := .run qj .execute }
    have hst : WorkerStep s .tau s₁ :=
      .restore h.worker hj h.task (by rw [if_pos h.hasParameters, hpar])
    have ht : s₁.task i = some { t with par := par } := by
      have hi := State.task_eq.1 h.task
      exact State.task_eq.2 (List.getElem?_set_self (List.getElem?_eq_some_iff.1 hi).1)
    rcases hexec : B.execute s₁.db t.query par with ⟨_ | e, db, query⟩
    · exact .inr ⟨par, s₁, _, _, rfl, .inr hst, ht, rfl, .inr (.execute rfl hj ht hexec)⟩
    · exact .inr ⟨par, s₁, _, _, rfl, .inr hst, ht, rfl, .inr (.executeError rfl hj ht hexec)⟩

/-- **What a job executes**: what the caller's buffer held, and nothing else, exactly when the
    two buffers have the same rows, or the query refuses to run and the bytes fit. -/
theorem restoresExactly_iff (hr : (asyncDb B).Run tr s) (h : Restoring tr s qj i t k op held) :
    RestoresExactly s qj i held ↔ held.rows = t.par.rows ∨
      Refuses s.db t.query ∧ ∀ n ∈ held.strides, n * held.rows ≤ n * t.par.rows := by
  obtain ⟨hj, hs⟩ := h.carries hr
  have hfits := restoreParams_isSome_iff hs
  constructor
  · intro hx
    rcases h.steps hr with ⟨-, s₁, hst, hw⟩ | ⟨par, s₁, out, s₂, hpar, hst, ht, hdb, hexec⟩
    · exact (hx.inside [] s _ s₁ (.refl s) rfl h.worker hst hw).elim
    · rcases hx.executes _ s₁ par out s₂ (.step (.refl s) hst) rfl hexec with rfl | ⟨t', ht', href⟩
      · exact .inl (restoreParams_sameShape hpar).2
      · obtain rfl := Option.some.inj (ht'.symm.trans ht)
        exact .inr ⟨hdb ▸ href, hfits.1 (by rw [hpar]; rfl)⟩
  · intro hx
    -- In both cases the copy stays inside the buffer.
    have hsome : ∃ par, restoreParams t.par (snapshotParams held) = some par ∧
        (par = held ∨ Refuses s.db t.query) := by
      rcases hx with hrows | ⟨href, hle⟩
      · exact ⟨held, restoreParams_snapshotParams ⟨hs.symm, hrows.symm⟩, .inl rfl⟩
      · obtain ⟨par, hpar⟩ := Option.isSome_iff_exists.1 (hfits.2 hle)
        exact ⟨par, hpar, .inr href⟩
    obtain ⟨par, hpar, hex⟩ := hsome
    constructor
    · intro tr₁ s₁ e s₂ hp hf hw hst
      cases h.at_path hr hp hf with
      | executing _ hw' _ _ => cases hw.symm.trans hw'
      | past he _ =>
        rw [hw] at he
        cases he
      | restoring _ ht _ =>
        rcases hst with hst | hst
        · rw [(hst.frame_inHand (i := i) (hr.append hp) (congrArg WorkerPc.inHand hw)).1, hw]
          exact fun h => by cases h
        · rcases hst.of_restore hw hj ht h.hasParameters with ⟨_, -, hw', -, -⟩ | ⟨hnone, -⟩
          · rw [hw']
            exact fun h => by cases h
          · cases hnone.symm.trans hpar
    · intro tr₁ s₁ par₁ out s₂ hp hf hst
      rcases hst with hst | hst
      · cases hst
      obtain ⟨hw, i', snap, t', hj', ht', rfl⟩ := hst.of_execute
      obtain ⟨rfl, -⟩ := Prod.mk.inj (Option.some.inj (hj'.symm.trans hj))
      cases h.at_path hr hp hf with
      | restoring hw' _ _ => cases hw.symm.trans hw'
      | past he _ =>
        rw [hw] at he
        cases he
      | executing hpar' _ ht hdb =>
        -- What it executes is what was restored.
        obtain rfl := Option.some.inj (hpar'.symm.trans hpar)
        obtain rfl := Option.some.inj (ht'.symm.trans ht)
        rcases hex with rfl | href
        · exact .inl rfl
        · exact .inr ⟨_, ht, hdb.symm ▸ href⟩

end

/-- The job that submits what the caller's buffer of the insert holds. -/
def submitJob (par : ParamBuffer) : QueuedJob := ⟨.submit 0 (snapshotParams par), some 0⟩

/-- The run in which the caller, which has prepared `n` rows, fills its buffer and submits, up to
    where the worker is about to restore what it held. -/
def restoringRun (n : Nat) (par : ParamBuffer) : Option (List Event × State scripted) :=
  scriptedRun (fun _ _ => True) [] (prepareRows n ++ [.write 0 par, .call (.submit ⟨some 0⟩),
    .client, .client, .client, .worker, .worker])

/-- The task of the insert. -/
def insertTask (n : Nat) : Task scripted := ⟨insertType, insertType.makeParams n, ()⟩

/-- Two rows of the insert. -/
def twoRows : ParamBuffer :=
  ⟨2, [⟨4, [1, 0, 0, 0, 2, 0, 0, 0], [4, 4]⟩], by simp [ParamColumn.Sized]⟩

/-- Two rows, as many as were prepared, are executed as they are. -/
theorem restoresExactly_rows :
    RestoresExactly ((restoringRun 2 twoRows).get (by decide)).2 (submitJob twoRows) 0 twoRows :=
  (@restoresExactly_iff scripted _ _ (submitJob twoRows) 0 1 (insertTask 2) (.submit ⟨some 0⟩)
    twoRows
    (scriptedRun_sound (x := (restoringRun 2 twoRows).get (by decide))
      (Option.some_get _).symm).of_restrict
    ⟨rfl, rfl, rfl, by decide, by decide, rfl⟩).2 (.inl rfl)

/-- The run in which the snapshot of two rows is about to be restored into a buffer of one. -/
def overflowRun : List Event × State scripted := (restoringRun 1 twoRows).get (by decide)

/-- The values of the two rows are written past the end of the column array. -/
theorem not_restoresExactly :
    ¬∀ (B : Backend) (tr : List Event) (s : State B) (qj : QueuedJob) (i : Nat) (t : Task B)
      (k : Nat) (op : Op) (held : ParamBuffer), (asyncDb B).Run tr s →
      Restoring tr s qj i t k op held → RestoresExactly s qj i held := by
  intro h
  have hx := h scripted overflowRun.1 overflowRun.2 (submitJob twoRows) 0 (insertTask 1) 1
    (.submit ⟨some 0⟩) twoRows
    (scriptedRun_sound (x := overflowRun) (Option.some_get _).symm).of_restrict
    ⟨rfl, rfl, rfl, by decide, by decide, rfl⟩
  exact hx.inside [] _ _ _ (.refl _) rfl rfl
    (State.next_get_sound overflowRun.2 .worker (by decide)) rfl

end Dbgen4.Async
