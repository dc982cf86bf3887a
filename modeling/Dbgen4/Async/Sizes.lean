import Dbgen4.Async.Prepare
import Dbgen4.Async.Restore

/-!
# The asynchronous facade: the rows that `prepare` asks for

`prepare` is to size both buffers of its statement for `param_rows` rows
(`SizedFor`): the caller's, and the query's, which is what every job of the
handle sends, whatever the caller does to its own buffer later. A query's buffer
keeps its rows for ever (`task_of_path`). But both buffers are resized only for
more than one row, and have the default of the generated class otherwise: with a
default of two rows and one asked for, every job sends a blank row
(`rowsRun`). Otherwise `prepare` sizes them as asked (`sizedFor_iff`).
-/

namespace Dbgen4.Async

open Rtl

variable {B : Backend} {tr : List Event} {s s' : State B} {e : Event}

/-! ## The buffers of a query -/

theorem rows_setBufferSize (strides : List Nat) {rows : Nat} (h : 1 ≤ rows) :
    (ParamBuffer.setBufferSize strides rows).rows = rows := by
  rw [ParamBuffer.setBufferSize, ParamBuffer.resizeStorage, if_neg (by omega)]

/-- The buffers that `prepare` makes have the rows asked for, or those of the class. -/
theorem StmtType.rows_makeParams (stmt : StmtType) {n : Nat} (hp : stmt.hasParameters)
    (hd : 1 ≤ stmt.defaultRows) :
    (stmt.makeParams n).rows = if 1 < n then n else stmt.defaultRows := by
  rw [StmtType.makeParams, hp, Bool.true_and]
  by_cases hn : 1 < n
  · rw [if_pos (decide_eq_true hn), if_pos hn, rows_setBufferSize _ (by omega)]
  · rw [if_neg (by simpa using hn), if_neg hn, rows_setBufferSize _ hd]

theorem StmtType.rows_makeParams_eq_iff (stmt : StmtType) {n : Nat} (hp : stmt.hasParameters)
    (hd : 1 ≤ stmt.defaultRows) (hn : 1 ≤ n) :
    (stmt.makeParams n).rows = n ↔ 1 < n ∨ stmt.defaultRows = 1 := by
  rw [stmt.rows_makeParams hp hd]
  split <;> omega

/-- A task of the table goes back to the one at its place before, with a buffer of the same
    shape. -/
theorem task_of_step (h : (asyncDb B).step s e s') {i : Nat} (hi : i < s.tasks.length)
    {t' : Task B} (ht' : s'.task i = some t') :
    ∃ t, s.task i = some t ∧ t'.stmt = t.stmt ∧ t'.par.SameShape t.par := by
  rcases h with h | h
  · rcases h.callers with ⟨_, _, _, -, -, -, -, hts⟩ | ⟨_, _, -, -, hts⟩ | ⟨-, hts⟩
    · exact ⟨t', by rwa [State.task, hts] at ht', rfl, .refl _⟩
    · rcases task_append hts ht' with ht | ⟨rfl, -⟩
      · exact ⟨t', ht, rfl, .refl _⟩
      · exact (Nat.lt_irrefl _ hi).elim
    · exact ⟨t', by rwa [State.task, hts] at ht', rfl, .refl _⟩
  · exact h.task_of ht'

theorem length_tasks_path (h : (asyncDb B).Path s tr s') : s.tasks.length ≤ s'.tasks.length := by
  simpa [State.table] using (table_path h).length_le

/-- The buffer of a query keeps its shape. -/
theorem task_of_path (h : (asyncDb B).Path s tr s') {i : Nat} (hi : i < s.tasks.length)
    {t' : Task B} (ht' : s'.task i = some t') :
    ∃ t, s.task i = some t ∧ t'.stmt = t.stmt ∧ t'.par.SameShape t.par := by
  refine h.invariant (I := fun _ s' => ∀ t', s'.task i = some t' →
    ∃ t, s.task i = some t ∧ t'.stmt = t.stmt ∧ t'.par.SameShape t.par) ?_ ?_ t' ht'
  · exact fun t ht => ⟨t, ht, rfl, .refl _⟩
  · intro tr s₁ e s₂ hp ih hst t₂ ht₂
    obtain ⟨t₁, ht₁, hstmt, hpar⟩ :=
      task_of_step hst (Nat.lt_of_lt_of_le hi (length_tasks_path hp)) ht₂
    obtain ⟨t, ht, hstmt', hpar'⟩ := ih t₁ ht₁
    exact ⟨t, ht, hstmt.trans hstmt', hpar.trans hpar'⟩

/-! ## What `prepare` sizes -/

/-- The caller's buffer of a statement has `n` rows, and so has what every job executes the
    statement with from now on. -/
structure SizedFor (s : State B) (i n : Nat) : Prop where
  caller : ∃ c, s.callers[i]? = some c ∧ c.par.rows = n
  jobs : ∀ tr s₁ qj snap par out s₂, (asyncDb B).Path s tr s₁ →
    (asyncDb B).step s₁ (.execute qj par out) s₂ → qj.fn.statement = some (i, snap) →
    par.rows = n

/-- The end of a call that returns a handle: the buffers are those that `prepare` makes. -/
theorem ClientStep.assembled (hr : (asyncDb B).Run tr s) (h : ClientStep s e s') {stmt : StmtType}
    {n i : Nat} (hc : s.client = .assemble stmt n) (hret : s'.client = .ret (.prepare (.ok i))) :
    i < s'.tasks.length ∧ s'.callers[i]? = some ⟨stmt, stmt.makeParams n⟩ ∧
      ∀ t, s'.task i = some t → t.par = stmt.makeParams n := by
  rcases h.of_assemble hc with ⟨err, -, rfl⟩ | ⟨-, -, rfl⟩ | ⟨-, -, rfl⟩
  · cases hret
  · cases hret
  · cases hret
    have hs := typed hr
    refine ⟨by simp, by simp [hs.length], fun t ht => ?_⟩
    rcases task_append (s := s) rfl ht with ht | ⟨-, hmk⟩
    · rw [State.task_eq, List.getElem?_eq_none (Nat.le_refl _)] at ht
      cases ht
    · exact (hs.made t hmk (stmt, n) (by rw [hc]; rfl)).2

/-- A call that has ended with a handle was assembling its own statement. -/
theorem PrepareCall.assembling (p : PrepareCall) {tr₀ : List Event} {s₀ s₁ : State B}
    {held : Option ParamBuffer} (hr : (asyncDb B).Run tr₀ s₀)
    (hcall : (asyncDb B).step s₀ (.call p.op held) s₁) (hp : (asyncDb B).Path s₁ tr s)
    (hq : calls tr = []) {stmt : StmtType} {n : Nat} (hc : s.client = .assemble stmt n) :
    stmt = p.stmt ∧ n = p.paramRows := by
  cases (at_path hr hcall hp hq).1 with
  | posting h _ _ | waiting h _ | gone h =>
    rw [hc] at h
    cases h
  | assembling h _ =>
    cases hc.symm.trans h
    exact ⟨rfl, rfl⟩

/-- **What `prepare` sizes**: for a call that returns a handle, the buffers have the rows asked
    for, for ever, exactly when more than one is asked for or one is the default. -/
theorem sizedFor_iff (p : PrepareCall) {tr₀ : List Event} {s₀ s₁ : State B}
    {held : Option ParamBuffer} {stmt : StmtType} {n i : Nat} (hr : (asyncDb B).Run tr₀ s₀)
    (hcall : (asyncDb B).step s₀ (.call p.op held) s₁) (hp : (asyncDb B).Path s₁ tr s)
    (hq : calls tr = []) (hc : s.client = .assemble stmt n) (h : ClientStep s e s')
    (hret : s'.client = .ret (.prepare (.ok i))) (hpar : p.stmt.hasParameters)
    (hd : 1 ≤ p.stmt.defaultRows) (hn : 1 ≤ p.paramRows) :
    SizedFor s' i p.paramRows ↔ 1 < p.paramRows ∨ p.stmt.defaultRows = 1 := by
  obtain ⟨rfl, rfl⟩ := p.assembling hr hcall hp hq hc
  obtain ⟨hi, hcaller, htask⟩ := h.assembled ((Lts.Run.step hr hcall).append hp) hc hret
  rw [← p.stmt.rows_makeParams_eq_iff hpar hd hn]
  constructor
  · rintro ⟨⟨c, hc', hrows⟩, -⟩
    obtain rfl := Option.some.inj (hc'.symm.trans hcaller)
    exact hrows
  · intro hrows
    refine ⟨⟨_, hcaller, hrows⟩, fun tr₁ s₁ qj snap par out s₂ hp₁ hst hj => ?_⟩
    rcases hst with hst | hst
    · cases hst
    -- The job executes with the rows of its query's buffer, which are those of the beginning.
    obtain ⟨-, i', snap', t', hj', ht', rfl⟩ := hst.of_execute
    obtain ⟨rfl, -⟩ := Prod.mk.inj (Option.some.inj (hj'.symm.trans hj))
    obtain ⟨t, ht, -, hs⟩ := task_of_path hp₁ hi ht'
    rw [hs.2, htask t ht, hrows]

/-- The call that prepares `n` rows of an insert whose class has two by default. -/
def rowsCall (n : Nat) : PrepareCall := ⟨⟨[4], 2, false⟩, "insert", n, 1⟩

/-- The state in which the client has begun that call. -/
def rowsBegun (n : Nat) : State scripted := ((fresh.next (.call (rowsCall n).op)).get rfl).2

/-- The run of the call, until it is about to return. -/
def rowsRun (n : Nat) : List Event × State scripted :=
  (run (fun _ _ => True) [.client, .client, .worker, .worker, .worker, .worker, .worker, .client]
    ([], rowsBegun n)).get rfl

/-- Three rows are asked for, where two are the default. -/
theorem sizedFor_rows : SizedFor (prepareEnded (rowsRun 3).2 (by decide)) 0 3 :=
  (sizedFor_iff (B := scripted) (rowsCall 3) (.init ⟨[], rfl⟩)
    (State.next_get_sound fresh (.call (rowsCall 3).op) (by decide))
    (run_path (P := fun _ _ => True) (Option.some_get _).symm).of_restrict (by decide) rfl
    (prepareEnded_step (rowsRun 3).2 (by decide)) rfl (by decide) (by decide) (by decide)).2
    (.inl (by decide))

/-- The buffers have two rows, where one was asked for. -/
theorem not_sizedFor :
    ¬∀ (B : Backend) (p : PrepareCall) (tr₀ tr : List Event) (s₀ s₁ s s' : State B)
      (held : Option ParamBuffer) (stmt : StmtType) (n i : Nat) (e : Event),
      (asyncDb B).Run tr₀ s₀ → (asyncDb B).step s₀ (.call p.op held) s₁ →
      (asyncDb B).Path s₁ tr s → calls tr = [] → s.client = .assemble stmt n →
      ClientStep s e s' → s'.client = .ret (.prepare (.ok i)) → p.stmt.hasParameters →
      1 ≤ p.stmt.defaultRows → 1 ≤ p.paramRows → SizedFor s' i p.paramRows := by
  intro h
  obtain ⟨⟨c, hc, hrows⟩, -⟩ := h scripted (rowsCall 1) [] (rowsRun 1).1 fresh (rowsBegun 1)
    (rowsRun 1).2 (prepareEnded (rowsRun 1).2 (by decide)) _ (rowsCall 1).stmt 1 0 _
    (.init ⟨[], rfl⟩) (State.next_get_sound fresh (.call (rowsCall 1).op) (by decide))
    (run_path (P := fun _ _ => True) (Option.some_get _).symm).of_restrict (by decide) rfl
    (prepareEnded_step (rowsRun 1).2 (by decide)) rfl (by decide) (by decide) (by decide)
  obtain rfl := Option.some.inj hc
  exact absurd hrows (by decide)

end Dbgen4.Async
