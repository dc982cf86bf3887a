import Dbgen4.Async.Queue

/-!
# The asynchronous facade: buffers

Every statement has two parameter buffers, the caller's and the query's, of the
same class (`typed`). While the caller keeps the number of rows its buffer had at
`prepare` (`KeepsRows`), the two have the same rows (`rows_eq`), so that the
snapshot of the one fits the other. The table of tasks only grows (`table_path`).
-/

namespace Dbgen4.Async

open Rtl

variable {B : Backend} {tr : List Event} {s s' : State B} {e : Event}

/-- The caller keeps the number of rows its buffers have. -/
def KeepsRows (s : State B) (e : Event) : Prop :=
  ∀ i par, e = .write i par → ∀ c ∈ s.callers[i]?, par.rows = c.par.rows

instance (s : State B) (e : Event) : Decidable (KeepsRows s e) :=
  match e with
  | .write i par => decidable_of_iff (∀ c ∈ s.callers[i]?, par.rows = c.par.rows)
      ⟨fun h _ _ he => by cases he; exact h, fun h => h i par rfl⟩
  | .call .. | .isFinished _ | .error _ | .discard _ | .blocked _ | .enqueue _ | .clear | .ret _
  | .start _ | .skip _ | .execute .. | .fetch .. | .record _ | .prepare _ | .commit _
  | .rollback _ | .finish _ | .tau => isTrue fun _ _ he => by cases he

/-- `async_db` under callers that keep the rows of their buffers. -/
def asyncDbKeeping (B : Backend) : Lts (State B) Event := (asyncDb B).restrict KeepsRows

/-! ## The caller's buffers -/

/-- A parameter buffer fits the one the caller has for the statement. -/
def State.Fits (s : State B) (i : Nat) (par : ParamBuffer) : Prop :=
  ∃ c, s.callers[i]? = some c ∧ par.SameShape c.par

theorem WorkerStep.callers (h : WorkerStep s e s') : s'.callers = s.callers := by
  cases h <;> rfl

/-- Of the steps of the client, a write and the end of a `prepare` change the buffers. -/
theorem ClientStep.callers (h : ClientStep s e s') :
    (∃ i c par, e = .write i par ∧ s.callers[i]? = some c ∧ par.strides = c.par.strides ∧
        s'.callers = s.callers.set i { c with par := par } ∧ s'.tasks = s.tasks) ∨
      (∃ stmt n, s.client = .assemble stmt n ∧
        s'.callers = s.callers ++ [⟨stmt, stmt.makeParams n⟩] ∧
        s'.tasks = s.tasks ++ [s.frame.task]) ∨
      (s'.callers = s.callers ∧ s'.tasks = s.tasks) := by
  cases h with
  | write _ hc hp => exact .inl ⟨_, _, _, rfl, hc, hp, rfl, rfl⟩
  | assemble hc _ _ => exact .inr (.inl ⟨_, _, hc, rfl, rfl⟩)
  | _ => exact .inr (.inr ⟨rfl, rfl⟩)

/-- What fits goes on fitting, whatever the caller writes. -/
theorem State.Fits.step {i : Nat} {par : ParamBuffer} (hf : s.Fits i par)
    (h : (asyncDbKeeping B).step s e s') : s'.Fits i par := by
  obtain ⟨c, hc, hpar⟩ := hf
  rcases h with ⟨h | h, hk⟩
  · rcases h.callers with ⟨j, c', par', rfl, hc', hs, hj, -⟩ | ⟨_, _, -, hc', -⟩ | ⟨hc', -⟩
    · by_cases hij : j = i
      · subst hij
        obtain rfl : c' = c := Option.some.inj (hc'.symm.trans hc)
        refine ⟨{ c' with par := par' }, ?_, ?_⟩
        · rw [hj, List.getElem?_set_self (List.getElem?_eq_some_iff.1 hc).1]
        · exact hpar.trans ⟨hs.symm, (hk _ _ rfl c' hc).symm⟩
      · refine ⟨c, ?_, hpar⟩
        rw [hj, List.getElem?_set_ne hij, hc]
    · refine ⟨c, ?_, hpar⟩
      rw [hc', List.getElem?_append_left (List.getElem?_eq_some_iff.1 hc).1, hc]
    · exact ⟨c, hc'.symm ▸ hc, hpar⟩
  · exact ⟨c, h.callers.symm ▸ hc, hpar⟩

/-! ## The query's buffers -/

/-- The statement that `prepare` is preparing. -/
def RunCtx.preparing : RunCtx → Option (StmtType × Nat)
  | .prepare stmt n => some (stmt, n)
  | _ => none

/-- The statement that the client is preparing. -/
def ClientPc.preparing : ClientPc → Option (StmtType × Nat)
  | .post c _ _ | .slotAsleep c _ | .slotAwake c _ | .notify c => c.waits.bind RunCtx.preparing
  | .drain c | .drainAsleep c => c.waits.bind RunCtx.preparing
  | .assemble stmt n => some (stmt, n)
  | _ => none

@[simp] theorem preparing_notified (pc : ClientPc) : pc.notified.preparing = pc.preparing := by
  cases pc <;> rfl

@[simp] theorem preparing_next (c : PostCtx) :
    c.next.preparing = c.waits.bind RunCtx.preparing := by
  cases c <;> rfl

theorem preparing_of_awaits {pc : ClientPc} {c : RunCtx} (h : pc.awaits = some c) :
    pc.preparing = c.preparing := by
  cases pc <;> first
  | exact congrArg (Option.bind · RunCtx.preparing) h
  | cases h

theorem RunCtx.Runs.preparing {c : RunCtx} {stmt : StmtType} {sql : String} {n m : Nat}
    (h : c.Runs (.prepare stmt sql n m)) : c.preparing = some (stmt, n) := by
  cases c with
  | prepare stmt' n' =>
    obtain ⟨rfl, rfl⟩ := h
    rfl
  | _ => exact h.elim

theorem State.task_eq {i : Nat} {t : Task B} : s.task i = some t ↔ s.tasks[i]? = some (some t) := by
  rw [State.task, Option.join_eq_some_iff]

/-- The worker changes a task only in its query, and in the values of its parameters. -/
theorem WorkerStep.tasks (h : WorkerStep s e s') :
    (∃ i t t', s.task i = some t ∧ s'.tasks = s.tasks.set i (some t') ∧ t'.stmt = t.stmt ∧
        t'.par.SameShape t.par) ∨ s'.tasks = s.tasks := by
  cases h with
  | @restore _ i snap t par _ _ ht hp =>
    refine .inl ⟨i, t, { t with par := par }, ht, rfl, rfl, ?_⟩
    dsimp only
    split at hp
    · exact restoreParams_sameShape hp
    · rw [Option.some.inj hp]
      exact .refl par
  | execute _ _ ht _ | executeError _ _ ht _ | fetch _ _ ht _ | fetchError _ _ ht _ =>
    exact .inl ⟨_, _, _, ht, rfl, rfl, .refl _⟩
  | _ => exact .inr rfl

/-- The task that `prepare` is making is set by its job. -/
theorem WorkerStep.made (h : WorkerStep s e s') :
    (∃ qj stmt sql n m query, s.worker.inHand = some qj ∧ qj.fn = .prepare stmt sql n m ∧
        s'.frame.task = some ⟨stmt, stmt.makeParams n, query⟩) ∨
      s'.frame.task = s.frame.task := by
  cases h with
  | prepare hw hj _ => exact .inl ⟨_, _, _, _, _, _, by rw [hw]; rfl, hj, rfl⟩
  | fetch _ _ _ _ | fetchError _ _ _ _ =>
    refine .inr ?_
    dsimp only
    split <;> rfl
  | _ => exact .inr rfl

theorem StmtType.strides_makeParams (stmt : StmtType) (n : Nat) :
    (stmt.makeParams n).strides = stmt.params := by
  rw [StmtType.makeParams]
  split <;> exact ParamBuffer.strides_setBufferSize _ _

/-- The statements of the queries and of the callers agree, whatever rows the buffers have. -/
structure Typed (s : State B) : Prop where
  length : s.tasks.length = s.callers.length
  strides : ∀ c ∈ s.callers, c.par.strides = c.stmt.params
  task : ∀ i t, s.task i = some t → t.par.strides = t.stmt.params ∧
    ∃ c, s.callers[i]? = some c ∧ t.stmt = c.stmt
  /-- The task that `prepare` has made. -/
  made : ∀ t ∈ s.frame.task, ∀ p ∈ s.client.preparing, t.stmt = p.1 ∧
    t.par = p.1.makeParams p.2

/-- The task that `prepare` is making is for the statement that the client prepares. -/
theorem WorkerStep.made_preparing (hr : (asyncDb B).Run tr s) (h : WorkerStep s e s')
    (hm : ∀ t ∈ s.frame.task, ∀ p ∈ s.client.preparing, t.stmt = p.1 ∧
      t.par = p.1.makeParams p.2) :
    ∀ t ∈ s'.frame.task, ∀ p ∈ s'.client.preparing, t.stmt = p.1 ∧
      t.par = p.1.makeParams p.2 := by
  intro t ht p hp
  have hpc : s'.client.preparing = s.client.preparing := by
    rcases h.client with h | h <;> simp [h]
  rw [hpc] at hp
  rcases h.made with ⟨qj, stmt, sql, n, m, query, hw, hj, hmade⟩ | hmade
  · -- The client waits for this very job.
    rw [hmade] at ht
    obtain rfl := Option.some.inj ht
    rcases attends hr (.inr hw) with hu | ⟨c, ha, hc⟩
    · rw [hj] at hu
      cases hu
    · rw [hj] at hc
      rw [preparing_of_awaits ha, hc.preparing] at hp
      obtain rfl := Option.some.inj hp
      exact ⟨rfl, rfl⟩
  · exact hm t (hmade ▸ ht) p hp

/-- A task after a step of the worker is one before it, but for its query and the values of its
    parameters. -/
theorem WorkerStep.task_of (h : WorkerStep s e s') {i : Nat} {t' : Task B}
    (ht' : s'.task i = some t') :
    ∃ t, s.task i = some t ∧ t'.stmt = t.stmt ∧ t'.par.SameShape t.par := by
  rcases h.tasks with ⟨j, t, t'', ht, htasks, hstmt, hpar⟩ | htasks
  · by_cases hij : j = i
    · subst hij
      refine ⟨t, ht, ?_⟩
      rw [State.task_eq, htasks] at ht'
      rw [State.task_eq] at ht
      rw [List.getElem?_set_self (List.getElem?_eq_some_iff.1 ht).1] at ht'
      obtain rfl := Option.some.inj (Option.some.inj ht')
      exact ⟨hstmt, hpar⟩
    · refine ⟨t', ?_, rfl, .refl _⟩
      rwa [State.task, htasks, List.getElem?_set_ne hij] at ht'
  · exact ⟨t', by rwa [State.task, htasks] at ht', rfl, .refl _⟩

theorem Typed.worker (hr : (asyncDb B).Run tr s) (hs : Typed s) (h : WorkerStep s e s') :
    Typed s' := by
  have hc := h.callers
  refine ⟨?_, hc.symm ▸ hs.strides, fun i t' ht' => ?_, h.made_preparing hr hs.made⟩
  · rw [hc, ← hs.length]
    rcases h.tasks with ⟨i, t, t', -, ht, -⟩ | ht
    · rw [ht, List.length_set]
    · rw [ht]
  · obtain ⟨t, ht, hstmt, hpar⟩ := h.task_of ht'
    obtain ⟨hst, c, hci, htc⟩ := hs.task i t ht
    refine ⟨?_, c, hc.symm ▸ hci, hstmt.trans htc⟩
    rw [hpar.1, hst, hstmt]

/-- A step of the client starts preparing only with an empty frame. -/
theorem ClientStep.preparing (h : ClientStep s e s') (hp : s'.client.preparing.isSome) :
    s'.frame.task = none ∨ s'.frame = s.frame ∧ s'.client.preparing = s.client.preparing := by
  cases h with
  | call _ _ => exact .inl rfl
  | discard h _ | notify h => exact .inr ⟨rfl, (preparing_next _).trans (by rw [h]; rfl)⟩
  | @drained c h _ =>
    cases c with
    | run c =>
      cases c with
      | prepare => exact .inr ⟨rfl, by rw [h]; rfl⟩
      | _ => cases hp
    | _ => cases hp
  | store h _ _ | blocked h _ _ | slotSpurious h | slotStore h _ | slotSleep h _ | drainSleep h _
  | drainSpurious h => exact .inr ⟨rfl, by rw [h]; rfl⟩
  | write _ _ _ | isFinished _ | error _ => exact .inr ⟨rfl, rfl⟩
  | readCommit h =>
    simp only [State.afterReadCommit] at hp
    split at hp <;> cases hp
  | @ret r _ => cases r <;> cases hp
  | _ => cases hp

/-- A task after the end of a `prepare` is an old one, or the one that was made. -/
theorem task_append {i : Nat} {t : Task B} {t₀ : Option (Task B)} (hts : s'.tasks = s.tasks ++ [t₀])
    (ht : s'.task i = some t) : s.task i = some t ∨ i = s.tasks.length ∧ t₀ = some t := by
  rw [State.task_eq, hts] at ht
  by_cases hi : i < s.tasks.length
  · rw [List.getElem?_append_left hi, ← State.task_eq] at ht
    exact .inl ht
  · rw [List.getElem?_append_right (by omega), List.getElem?_singleton] at ht
    split at ht
    · exact .inr ⟨by omega, Option.some.inj ht⟩
    · cases ht

theorem Typed.client (hs : Typed s) (h : ClientStep s e s') : Typed s' := by
  have hmade : ∀ t ∈ s'.frame.task, ∀ p ∈ s'.client.preparing, t.stmt = p.1 ∧
      t.par = p.1.makeParams p.2 := by
    intro t ht p hp
    rcases h.preparing (Option.isSome_of_mem hp) with hn | ⟨hf, hc⟩
    · cases hn.symm.trans ht
    · exact hs.made t (hf ▸ ht) p (hc ▸ hp)
  rcases h.callers with ⟨i, c, par, rfl, hc, hpar, hcs, hts⟩ | ⟨stmt, n, hcl, hcs, hts⟩ | ⟨hcs, hts⟩
  · -- A caller writes to its buffer.
    refine ⟨by rw [hcs, hts, List.length_set, hs.length], fun c' hc' => ?_, fun j t ht => ?_, hmade⟩
    · rw [hcs] at hc'
      rcases List.mem_or_eq_of_mem_set hc' with hc' | rfl
      · exact hs.strides c' hc'
      · exact hpar.trans (hs.strides c (List.mem_of_getElem? hc))
    · obtain ⟨hst, c', hc', htc⟩ := hs.task j t (by rwa [State.task, hts] at ht)
      refine ⟨hst, ?_⟩
      rw [hcs]
      by_cases hij : i = j
      · subst hij
        obtain rfl := Option.some.inj (hc.symm.trans hc')
        exact ⟨_, List.getElem?_set_self (List.getElem?_eq_some_iff.1 hc).1, htc⟩
      · exact ⟨c', by rw [List.getElem?_set_ne hij, hc'], htc⟩
  · -- A `prepare` ends: both lists grow by one.
    refine ⟨by rw [hcs, hts, List.length_append, List.length_append, hs.length]; rfl,
      fun c' hc' => ?_, fun j t ht => ?_, hmade⟩
    · rw [hcs, List.mem_append, List.mem_singleton] at hc'
      rcases hc' with hc' | rfl
      · exact hs.strides c' hc'
      · exact stmt.strides_makeParams n
    · rw [hcs]
      rcases task_append hts ht with ht | ⟨rfl, hmk⟩
      · obtain ⟨hst, c, hc, htc⟩ := hs.task j t ht
        refine ⟨hst, c, ?_, htc⟩
        rw [List.getElem?_append_left (List.getElem?_eq_some_iff.1 hc).1, hc]
      · -- The task that `prepare` has made, and the buffer it makes for the caller.
        obtain ⟨h1, h2⟩ := hs.made t hmk (stmt, n) (by rw [hcl]; rfl)
        refine ⟨?_, ⟨stmt, stmt.makeParams n⟩, by rw [hs.length]; simp, h1⟩
        rw [h2, h1]
        exact stmt.strides_makeParams n
  · exact ⟨by rw [hcs, hts, hs.length], hcs.symm ▸ hs.strides,
      fun j t ht => hcs.symm ▸ hs.task j t (by rwa [State.task, hts] at ht), hmade⟩

/-- Whatever the callers do, the queries' buffers are of the same classes as theirs. -/
theorem typed (h : (asyncDb B).Run tr s) : Typed s := by
  refine h.invariant (I := fun _ s => Typed s) ?_ ?_
  · rintro _ ⟨db, rfl⟩
    exact ⟨rfl, fun _ h => absurd h List.not_mem_nil, fun i t h => by simp [State.task] at h,
      fun t h => by cases h⟩
  · rintro tr s e s' hr hs (h | h)
    · exact hs.client h
    · exact hs.worker hr h

/-- While the callers keep the rows of their buffers, the queries' have the same. -/
theorem rows_eq (h : (asyncDbKeeping B).Run tr s) {i : Nat} {t : Task B} {c : Caller}
    (ht : s.task i = some t) (hc : s.callers[i]? = some c) : t.par.rows = c.par.rows := by
  refine h.invariant (I := fun _ s => ∀ i t c, s.task i = some t → s.callers[i]? = some c →
    t.par.rows = c.par.rows) ?_ ?_ i t c ht hc
  · rintro _ ⟨db, rfl⟩ i t c ht
    simp [State.task] at ht
  · rintro tr s e s' hr ih ⟨h | h, hk⟩ i t c ht hc
    · rcases h.callers with ⟨j, c', par, rfl, hc', -, hcs, hts⟩ | ⟨stmt, n, hcl, hcs, hts⟩ |
        ⟨hcs, hts⟩
      · rw [State.task, hts] at ht
        rw [hcs] at hc
        by_cases hij : j = i
        · subst hij
          rw [List.getElem?_set_self (List.getElem?_eq_some_iff.1 hc').1] at hc
          obtain rfl := Option.some.inj hc
          exact (ih j t c' ht hc').trans (hk j par rfl c' hc').symm
        · rw [List.getElem?_set_ne hij] at hc
          exact ih i t c ht hc
      · have hs := typed hr.of_restrict
        rw [hcs] at hc
        rcases task_append hts ht with ht | ⟨rfl, hmk⟩
        · obtain ⟨-, c', hc', -⟩ := hs.task i t ht
          rw [List.getElem?_append_left (List.getElem?_eq_some_iff.1 hc').1] at hc
          exact ih i t c ht hc
        · rw [hs.length, List.getElem?_concat_length] at hc
          obtain rfl := Option.some.inj hc
          rw [(hs.made t hmk (stmt, n) (by rw [hcl]; rfl)).2]
      · exact ih i t c (by rwa [State.task, hts] at ht) (hcs ▸ hc)
    · obtain ⟨t', ht', -, hpar⟩ := h.task_of ht
      exact hpar.2.trans (ih i t' c ht' (h.callers ▸ hc))

/-! ## The table of tasks -/

/-- `tasks_`, as the handles see it: the statement of every task, or that it is null. -/
def State.table (s : State B) : List (Option StmtType) := s.tasks.map (·.map Task.stmt)

theorem task_of_table {i : Nat} {stmt : StmtType} (h : s.table[i]? = some (some stmt)) :
    ∃ t, s.task i = some t ∧ t.stmt = stmt := by
  rw [State.table, List.getElem?_map, Option.map_eq_some_iff] at h
  obtain ⟨x, hx, h⟩ := h
  obtain ⟨t, rfl, ht⟩ := Option.map_eq_some_iff.1 h
  exact ⟨t, State.task_eq.2 hx, ht⟩

theorem WorkerStep.table (h : WorkerStep s e s') : s'.table = s.table := by
  rcases h.tasks with ⟨i, t, t', ht, hs, hstmt, -⟩ | hs
  · rw [State.task_eq] at ht
    have hi : (s.tasks.map (·.map Task.stmt))[i]? = some (some t.stmt) := by
      rw [List.getElem?_map, ht]
      rfl
    rw [State.table, hs, List.map_set, State.table]
    obtain ⟨hlt, hi⟩ := List.getElem?_eq_some_iff.1 hi
    rw [Option.map_some, hstmt, ← hi, List.set_getElem_self]
  · rw [State.table, hs, State.table]

/-- No step takes a task out of the table, or makes it null. -/
theorem table_step (h : (asyncDb B).step s e s') : s.table <+: s'.table := by
  rcases h with h | h
  · rw [State.table, State.table]
    rcases h.callers with ⟨_, _, _, -, -, -, -, hs⟩ | ⟨_, _, -, -, hs⟩ | ⟨-, hs⟩
    · exact hs ▸ List.prefix_refl _
    · rw [hs, List.map_append]
      exact List.prefix_append _ _
    · exact hs ▸ List.prefix_refl _
  · exact h.table ▸ List.prefix_refl _

/-- The table only grows. -/
theorem table_path (h : (asyncDb B).Path s tr s') : s.table <+: s'.table := by
  refine h.invariant (I := fun _ s' => s.table <+: s'.table) (List.prefix_refl _) ?_
  intro tr s₁ e s₂ _ ih hst
  exact ih.trans (table_step hst)

/-- A task that is not null stays so. -/
theorem isSome_task_step (h : (asyncDb B).step s e s') {i : Nat} (hi : (s.task i).isSome) :
    (s'.task i).isSome := by
  obtain ⟨t, ht⟩ := Option.isSome_iff_exists.1 hi
  obtain ⟨tab, hx⟩ := table_step h
  have hs : s.table[i]? = some (some t.stmt) := by
    rw [State.table, List.getElem?_map, State.task_eq.1 ht]
    rfl
  have hs' : s'.table[i]? = some (some t.stmt) := by
    rw [← hx, List.getElem?_append_left (List.getElem?_eq_some_iff.1 hs).1, hs]
  obtain ⟨t', ht', -⟩ := task_of_table hs'
  rw [ht']
  rfl

end Dbgen4.Async
