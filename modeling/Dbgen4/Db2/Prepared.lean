import Dbgen4.Db2.Handle
import Dbgen4.Db2.Layout

/-!
# What is prepared

A query of db2 is to be prepared just when its latest `prepare` has succeeded and
it was not reset since, and to run only then, a statement to which that `prepare`
has bound every parameter and column (`RunsPrepared`). But `is_prepared` looks at
the handle, which `prepare` sets before it has done half of its work, and does
not clear when it has freed it. `lifecycle` is the system of a query of which the
member functions are called in any order: its query is prepared too often after a
`prepare` that failed with a new handle, or on a query that had one, and only
then (`runsPrepared_iff`).
-/

namespace Dbgen4.Db2

open Rtl

variable {ps rs : List BufferDscr}

/-! ## When `prepare` succeeds -/

/-- The driver accepts all that `prepare` asks of it. -/
structure Driver.Accepts (ps rs : List BufferDscr) (d : Driver) : Prop where
  alloc : succeeded d.alloc
  prepare : succeeded d.prepare
  params : ∀ i < ps.length, succeeded (d.bindParameter i)
  columns : ∀ i < rs.length, succeeded (d.bindCol i)

namespace Query

variable (q : Query ps rs) (d : Driver)

theorem bindLoop_none_iff (bind : ℕ → BufferDscr → BufferDscrInit → Call) {ret : ℕ → SqlReturn}
    {i : ℕ} {l : List (BufferDscr × BufferDscrInit)} :
    (bindLoop bind ret i l).2 = none ↔ ∀ k < l.length, succeeded (ret (i + k)) := by
  induction l generalizing i with
  | nil => simp [bindLoop]
  | cons x rest ih =>
    rw [bindLoop]
    split
    · rename_i hret
      refine ih.trans ⟨fun h k hk => ?_, fun h k hk => ?_⟩
      · cases k with
        | zero => exact hret
        | succ k =>
          have := h k (Nat.lt_of_succ_lt_succ hk)
          rwa [Nat.add_assoc, Nat.add_comm 1] at this
      · have := h (k + 1) (Nat.succ_lt_succ hk)
        rwa [Nat.add_comm k, ← Nat.add_assoc] at this
    · rename_i hret
      exact iff_of_false (fun h => by cases h) fun h => hret (h 0 (Nat.succ_pos _))

/-- The loop that binds the columns of a buffer. -/
theorem bindLoop_description_none_iff {ds : List BufferDscr} {isParam : Bool}
    (b : GeneratedBuffer ds isParam) (bind : ℕ → BufferDscr → BufferDscrInit → Call)
    {ret : ℕ → SqlReturn} :
    (bindLoop bind ret 0 (ds.zip b.bufferDescriptionInit.1)).2 = none ↔
      ∀ i < ds.length, succeeded (ret i) := by
  have hlen : b.bufferDescriptionInit.1.length = ds.length := List.length_ofFn
  rw [bindLoop_none_iff, List.length_zip, hlen, Nat.min_self]
  simp only [Nat.zero_add]

theorem bindParams_ok_iff (h : Handle) : (q.bindParams d h).result = .ok () ↔
    ∀ i < ps.length, succeeded (d.bindParameter i) := by
  rw [bindParams]
  cases hp : q.hasP with
  | false =>
    have hnil : ps = [] := by simpa [hasP] using hp
    exact iff_of_true rfl fun i hi => by simp [hnil] at hi
  | true =>
    rw [if_neg (by simp), ← bindLoop_description_none_iff q.par (.bindParameter h)]
    dsimp only
    split
    · rename_i hs
      exact iff_of_false (fun h => by cases h) fun h => by cases hs.symm.trans h
    · rename_i hn
      exact iff_of_true rfl hn

theorem bindResults_ok_iff (h : Handle) : (q.bindResults d h).result = .ok () ↔
    ∀ i < rs.length, succeeded (d.bindCol i) := by
  rw [bindResults]
  cases hr : q.hasR with
  | false =>
    have hnil : rs = [] := by simpa [hasR] using hr
    exact iff_of_true rfl fun i hi => by simp [hnil] at hi
  | true =>
    rw [if_neg (by simp), ← bindLoop_description_none_iff q.res (.bindCol h)]
    dsimp only
    split
    · rename_i hs
      exact iff_of_false (fun h => by cases h) fun h => by cases hs.symm.trans h
    · rename_i hn
      exact iff_of_true rfl hn

/-- `prepare` succeeds just when all that it asks for is accepted. -/
theorem prepare_ok_iff : (q.prepare d).result = .ok () ↔ d.Accepts ps rs := by
  have hpar := bindParams_ok_iff { q with stmt := some d.handle } d d.handle
  have hres := bindResults_ok_iff (bindParams { q with stmt := some d.handle } d d.handle).query d
    d.handle
  rw [prepare]
  split
  · rename_i halloc
    exact iff_of_false (fun h => by cases h) fun h => halloc h.alloc
  · rename_i halloc
    dsimp only
    split
    · rename_i hprep
      exact iff_of_false (fun h => by cases h) fun h => hprep h.prepare
    · rename_i hprep
      split
      · rename_i e he
        exact iff_of_false (fun h => by cases h) fun h => by cases he.symm.trans (hpar.2 h.params)
      · rename_i hok
        split
        · rename_i e he
          exact iff_of_false (fun h => by cases h) fun h => by
            cases he.symm.trans (hres.2 h.columns)
        · rename_i hok'
          rw [Decidable.not_not] at halloc hprep
          exact iff_of_true rfl ⟨halloc, hprep, hpar.1 hok, hres.1 hok'⟩

end Query

/-! ## The life of a query -/

/-- What a caller does with a query. -/
inductive Operation
  | prepare (d : Driver)
  | execute (d : Driver)
  | fetch (d : Driver)
  | reset
  /-- `set_buffer_size` of a buffer. -/
  | resizePar (rows : ℕ)
  | resizeRes (rows : ℕ)

/-- A query, and what its latest `prepare` has bound, if it succeeded and the query was not reset
    since. -/
structure Tracked (ps rs : List BufferDscr) where
  query : Query ps rs
  /-- The number of the next operation. -/
  epoch : ℕ
  bound : Option (Bound ps rs) := none

/-- What an operation does. -/
def Tracked.apply (G : Growth) (s : Tracked ps rs) : Operation → Tracked ps rs
  | .prepare d => ⟨(s.query.prepare d).query, s.epoch + 1, s.query.bound d⟩
  | .execute d => ⟨(s.query.execute d).query, s.epoch + 1, s.bound⟩
  | .fetch d => ⟨(s.query.fetch d).query, s.epoch + 1, s.bound⟩
  | .reset => ⟨s.query.reset.1, s.epoch + 1, none⟩
  | .resizePar rows =>
    ⟨{ s.query with par := s.query.par.setBufferSize G s.epoch rows }, s.epoch + 1, s.bound⟩
  | .resizeRes rows =>
    ⟨{ s.query with res := s.query.res.setBufferSize G s.epoch rows }, s.epoch + 1, s.bound⟩

/-- A query that is made, and then used in any order. -/
def lifecycle (G : Growth) (ps rs : List BufferDscr) : Lts (Tracked ps rs) Operation where
  init := {s | ∃ t sql parRows resRows, s = ⟨.make G t ps rs sql parRows resRows, t + 1, none⟩}
  step s o s' := s' = s.apply G o

/-- The statement that a call runs. -/
def Call.runs : Call → Option Handle
  | .execute h | .fetchScroll h => some h
  | _ => none

/-- The calls have prepared the statement `h` and bound every parameter and column of it. -/
structure BindsAll (ps rs : List BufferDscr) (h : Handle) (calls : List Call) : Prop where
  statement : ∃ sql, .prepare h sql ∈ calls
  params : ∀ c : Fin ps.length, ∃ d r, .bindParameter h c d r ∈ calls
  columns : ∀ c : Fin rs.length, ∃ d r, .bindCol h c d r ∈ calls

/-- The query is prepared just when its latest `prepare` has succeeded and it was not reset since,
    runs only a statement of which that `prepare` has bound everything, and otherwise refuses. -/
structure RunsPrepared (s : Tracked ps rs) : Prop where
  isPrepared : s.query.isPrepared ↔ s.bound.isSome
  runs : ∀ d h, ∀ c ∈ (s.query.execute d).calls ++ (s.query.fetch d).calls, c.runs = some h →
    ∃ bound, s.bound = some bound ∧ BindsAll ps rs h bound.calls
  refuses : s.bound = none → ∀ d, (∃ e, (s.query.execute d).result = .error e) ∧
    ∃ e, (s.query.fetch d).result = .error e

/-- A `prepare` is accepted, or no handle could be allocated for it and the query had none. -/
def PreparesCleanly (s : Tracked ps rs) : Operation → Prop
  | .prepare d => d.Accepts ps rs ∨ ¬succeeded d.alloc ∧ ¬s.query.isPrepared
  | _ => True

/-! ## What keeps a query so -/

namespace Query

variable (q : Query ps rs) (d : Driver) {h : Handle} {c : Call}

/-- A statement that is run is the one of the query. -/
theorem stmt_of_runs (hc : c ∈ (q.execute d).calls ++ (q.fetch d).calls)
    (hruns : c.runs = some h) : q.stmt = some h := by
  have huse : c.use = some (.use h) := by
    cases c <;> cases hruns <;> rfl
  have hmem : ∀ calls, OnlyUses q.stmt calls → c ∈ calls → q.stmt = some h := by
    intro calls honly hc
    obtain ⟨h', hstmt, hu⟩ := honly _ (List.mem_filterMap.2 ⟨c, hc, huse⟩)
    cases hu
    exact hstmt
  rcases List.mem_append.1 hc with hc | hc
  · exact hmem _ (q.onlyUses_execute d) hc
  · exact hmem _ (q.onlyUses_fetch d) hc

theorem refuses_of_stmt (hq : q.stmt = none) : (∃ e, (q.execute d).result = .error e) ∧
    ∃ e, (q.fetch d).result = .error e := by
  rw [execute, fetch, hq]
  exact ⟨⟨_, rfl⟩, _, rfl⟩

theorem bindsAll_prepare (hok : (q.prepare d).result = .ok ()) :
    BindsAll ps rs d.handle (q.prepare d).calls := by
  rw [(q.prepare_ok d hok).2]
  refine ⟨⟨q.sql, ?_⟩, fun c => ?_, fun c => ?_⟩
  · simp
  · obtain ⟨c', r, hc⟩ := mem_paramCalls (q := q) d.handle c
    exact ⟨c', r, List.mem_append_left _ (List.mem_append_right _ hc)⟩
  · obtain ⟨c', r, hc⟩ := mem_colCalls (q := q) d.handle c
    exact ⟨c', r, List.mem_append_right _ hc⟩

theorem bound_isSome_iff : (q.bound d).isSome ↔ d.Accepts ps rs := by
  rw [bound, ← q.prepare_ok_iff d]
  split
  · rename_i hok
    exact iff_of_true rfl hok
  · rename_i e he
    exact iff_of_false (fun h => by cases h) fun h => by cases he.symm.trans h

end Query

namespace Tracked

variable {G : Growth} {s : Tracked ps rs} {o : Operation}

/-- The statement of the query is one of which everything in question was bound. -/
def Binds (s : Tracked ps rs) : Prop :=
  ∀ bound, s.bound = some bound → ∃ h, s.query.stmt = some h ∧ BindsAll ps rs h bound.calls

theorem Binds.step (hb : s.Binds) (o : Operation) : (s.apply G o).Binds := by
  cases o with
  | prepare d =>
    intro bound hbound
    have hok := (s.query.bound_isSome_iff d).1 (Option.isSome_of_mem hbound)
    have hres := (s.query.prepare_ok_iff d).2 hok
    refine ⟨d.handle, ?_, ?_⟩
    · exact (s.query.stmt_prepare d).trans (if_pos hok.alloc)
    · rw [apply, Query.bound, hres] at hbound
      obtain rfl := Option.some.inj hbound
      exact s.query.bindsAll_prepare d hres
  | execute d =>
    intro bound hbound
    rw [apply, s.query.stmt_execute d]
    exact hb bound hbound
  | fetch d =>
    intro bound hbound
    rw [apply, s.query.stmt_fetch d]
    exact hb bound hbound
  | reset => exact fun bound hbound => by cases hbound
  | resizePar rows | resizeRes rows => exact hb

theorem binds {tr : List Operation} (h : (lifecycle G ps rs).Run tr s) : s.Binds := by
  refine h.invariant (I := fun _ s => s.Binds) ?_ ?_
  · rintro _ ⟨t, sql, parRows, resRows, rfl⟩ bound hbound
    cases hbound
  · rintro tr s o _ - hb rfl
    exact hb.step o

/-- It is all about a query that has a handle of which nothing is known. -/
theorem Binds.runsPrepared_iff_bound (hb : s.Binds) :
    RunsPrepared s ↔ (s.query.isPrepared → s.bound.isSome) := by
  refine ⟨fun h => h.isPrepared.1, fun h => ⟨⟨h, fun hs => ?_⟩, fun d h' c hc hruns => ?_,
    fun hn d => ?_⟩⟩
  · obtain ⟨bound, hbound⟩ := Option.isSome_iff_exists.1 hs
    obtain ⟨h', hstmt, -⟩ := hb bound hbound
    rw [Query.isPrepared, hstmt]
    rfl
  · have hstmt := s.query.stmt_of_runs d hc hruns
    obtain ⟨bound, hbound⟩ := Option.isSome_iff_exists.1 (h (by rw [Query.isPrepared, hstmt]; rfl))
    obtain ⟨h'', hstmt', hall⟩ := hb bound hbound
    obtain rfl := Option.some.inj (hstmt.symm.trans hstmt')
    exact ⟨bound, hbound, hall⟩
  · refine s.query.refuses_of_stmt d ?_
    cases hq : s.query.stmt with
    | none => rfl
    | some h' =>
      have := h (by rw [Query.isPrepared, hq]; rfl)
      rw [hn] at this
      cases this

/-- An operation keeps a query so just when, if it is a `prepare`, it is a clean one. -/
theorem Binds.step_iff (hb : s.Binds) (hs : RunsPrepared s) (o : Operation) :
    RunsPrepared (s.apply G o) ↔ PreparesCleanly s o := by
  refine (hb.step (G := G) o).runsPrepared_iff_bound.trans ?_
  have hs' := hb.runsPrepared_iff_bound.1 hs
  cases o with
  | prepare d =>
    have hstmt := s.query.stmt_prepare d
    have hbound := s.query.bound_isSome_iff d
    rw [apply, PreparesCleanly, hbound, Query.isPrepared, Query.isPrepared, hstmt]
    by_cases halloc : succeeded d.alloc
    · simp [halloc]
    · rw [if_neg halloc]
      refine ⟨fun h => ?_, ?_⟩
      · by_cases hp : s.query.stmt.isSome
        · exact .inl (h hp)
        · exact .inr ⟨halloc, hp⟩
      · rintro (h | h) hp
        · exact h
        · exact (h.2 hp).elim
  | execute d =>
    rw [apply, Query.isPrepared, s.query.stmt_execute d]
    exact iff_of_true hs' trivial
  | fetch d =>
    rw [apply, Query.isPrepared, s.query.stmt_fetch d]
    exact iff_of_true hs' trivial
  | reset => exact iff_of_true (fun h => by cases h) trivial
  | resizePar rows | resizeRes rows => exact iff_of_true hs' trivial

end Tracked

/-- **What runs is what was prepared**, in every state of a run, exactly when every `prepare` of
    the run was accepted, or got no handle for a query that had none. -/
theorem runsPrepared_iff {G : Growth} {tr : List Operation} {s : Tracked ps rs} :
    ((lifecycle G ps rs).restrict PreparesCleanly).Run tr s ↔
      ((lifecycle G ps rs).within RunsPrepared).Run tr s ∧ RunsPrepared s := by
  have hinit : ∀ s ∈ (lifecycle G ps rs).init, RunsPrepared s := by
    intro s hs
    refine (Tracked.binds (.init hs)).runsPrepared_iff_bound.2 fun h => ?_
    obtain ⟨t, sql, parRows, resRows, rfl⟩ := hs
    cases h
  have hstep (tr : List Operation) (s : Tracked ps rs) (o : Operation) (s' : Tracked ps rs)
      (hr : ((lifecycle G ps rs).restrict PreparesCleanly).Run tr s) (hs : RunsPrepared s)
      (hst : (lifecycle G ps rs).step s o s') : PreparesCleanly s o ↔ RunsPrepared s' := by
    rw [hst]
    exact ((Tracked.binds hr.of_restrict).step_iff hs o).symm
  have hiff : ((lifecycle G ps rs).restrict PreparesCleanly).Run tr s ↔
      ((lifecycle G ps rs).within RunsPrepared).Run tr s := Lts.run_restrict_iff_within hinit hstep
  refine ⟨fun h => ⟨hiff.1 h, ?_⟩, fun h => hiff.2 h.1⟩
  cases hiff.1 h with
  | init hs => exact hinit s hs
  | step _ hst => exact hst.2

/-- A `prepare` that the driver refuses leaves the query prepared. -/
theorem not_runsPrepared : ¬∀ (G : Growth) (ps rs : List BufferDscr) (tr : List Operation)
    (s : Tracked ps rs), (lifecycle G ps rs).Run tr s → RunsPrepared s := by
  intro h
  have hr := Lts.Run.step (A := lifecycle .exact [] []) (l := .prepare { prepare := sqlError })
    (.init ⟨0, "selekt", 1, 1, rfl⟩) rfl
  cases (h .exact [] [] _ _ hr).isPrepared.1 rfl

end Dbgen4.Db2
