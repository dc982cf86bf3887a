import Dbgen4.Rtl.ParamBuffer

/-!
# Snapshots of parameters

`submit`, `exec` and `execute_sync` copy the caller's parameter values before
they queue a job (`snapshot_params`), and the job copies them into the buffer of
the query just before it executes it (`restore_params`).

The value bytes are copied whole, the indicators as far as both buffers have
rows. A `memcpy` of more bytes than the column array holds is out of bounds:
`restoreParams` is then `none`. Between buffers of the same shape this does not
happen, and the query ends with exactly the values and indicators of the
snapshot (`restoreParams_snapshotParams`).
-/

namespace Dbgen4.Async

open Rtl

/-- `detail::param_snapshot::column`. -/
structure SnapColumn where
  values : List UInt8
  indicators : List Int32
  deriving DecidableEq, Repr

/-- `detail::param_snapshot`. -/
abbrev ParamSnapshot := List SnapColumn

/-- `detail::task::snapshot_params`: of every column, the bytes of its rows and
    its indicators. -/
def snapshotParams (buf : ParamBuffer) : ParamSnapshot :=
  buf.columns.map fun c => ⟨c.values.take (c.stride * buf.rows), c.indicators.take buf.rows⟩

/-- The copies `restore_params` makes into one column; `none` if the `memcpy`
    runs past the end of the value array. -/
def restoreColumn (rows : Nat) (c : ParamColumn) (col : SnapColumn) : Option ParamColumn :=
  if col.values.length ≤ c.values.length then
    let n := min rows col.indicators.length
    some { c with
      values := col.values ++ c.values.drop col.values.length
      indicators := col.indicators.take n ++ c.indicators.drop n }
  else none

/-- The loop of `restore_params`, up to the shorter of the two lists of columns. -/
def restoreColumns (rows : Nat) : List ParamColumn → ParamSnapshot → Option (List ParamColumn)
  | c :: cs, col :: cols => do
    let c' ← restoreColumn rows c col
    let cs' ← restoreColumns rows cs cols
    return c' :: cs'
  | cs, _ => some cs

theorem restoreColumn_sized {rows : Nat} {c c' : ParamColumn} {col : SnapColumn}
    (h : restoreColumn rows c col = some c') (hc : c.Sized rows) : c'.Sized rows := by
  rw [restoreColumn] at h
  split at h
  · rename_i hle
    obtain ⟨hv, hi⟩ := hc
    simp only [Option.some.injEq] at h
    subst h
    constructor
    · simp only [List.length_append, List.length_drop]
      omega
    · simp only [List.length_append, List.length_take, List.length_drop]
      omega
  · cases h

theorem restoreColumns_sized {rows : Nat} {cs cs' : List ParamColumn} {snap : ParamSnapshot}
    (h : restoreColumns rows cs snap = some cs') (hcs : ∀ c ∈ cs, c.Sized rows) :
    ∀ c ∈ cs', c.Sized rows := by
  induction cs, snap using restoreColumns.induct generalizing cs' with
  | case1 c cs col cols ih =>
    simp only [restoreColumns, Option.bind_eq_bind, Option.bind_eq_some_iff, Option.pure_def,
      Option.some.injEq] at h
    obtain ⟨c₁, h₁, cs₁, h₂, rfl⟩ := h
    rw [List.forall_mem_cons] at hcs ⊢
    exact ⟨restoreColumn_sized h₁ hcs.1, ih h₂ hcs.2⟩
  | case2 cs snap hne =>
    rw [restoreColumns, Option.some.injEq] at h
    · exact h ▸ hcs
    · exact hne

/-- `detail::task::restore_params`, into the query's own buffer; `none` if it
    writes out of bounds. -/
def restoreParams (buf : ParamBuffer) (snap : ParamSnapshot) : Option ParamBuffer :=
  match h : restoreColumns buf.rows buf.columns snap with
  | some cs => some ⟨buf.rows, cs, restoreColumns_sized h buf.sized⟩
  | none => none

theorem restoreColumns_strides {rows : Nat} {cs cs' : List ParamColumn} {snap : ParamSnapshot}
    (h : restoreColumns rows cs snap = some cs') : cs'.map (·.stride) = cs.map (·.stride) := by
  induction cs, snap using restoreColumns.induct generalizing cs' with
  | case1 c cs col cols ih =>
    simp only [restoreColumns, Option.bind_eq_bind, Option.bind_eq_some_iff, Option.pure_def,
      Option.some.injEq] at h
    obtain ⟨c₁, h₁, cs₁, h₂, rfl⟩ := h
    have hc : c₁.stride = c.stride := by
      rw [restoreColumn] at h₁
      split at h₁
      · rw [← Option.some.inj h₁]
      · cases h₁
    rw [List.map_cons, List.map_cons, hc, ih h₂]
  | case2 cs snap hne =>
    rw [restoreColumns, Option.some.injEq] at h
    · rw [h]
    · exact hne

/-- Restoring a snapshot keeps the shape of the buffer. -/
theorem restoreParams_sameShape {buf par : ParamBuffer} {snap : ParamSnapshot}
    (h : restoreParams buf snap = some par) : par.SameShape buf := by
  rw [restoreParams] at h
  split at h
  · rename_i cs hcs
    obtain rfl := Option.some.inj h
    exact ⟨restoreColumns_strides hcs, rfl⟩
  · cases h

/-- A snapshot takes the whole of both arrays of every column. -/
theorem snapshotParams_eq (buf : ParamBuffer) :
    snapshotParams buf = buf.columns.map fun c => ⟨c.values, c.indicators⟩ := by
  refine List.map_congr_left fun c hc => ?_
  obtain ⟨hv, hi⟩ := buf.sized c hc
  rw [← hv, List.take_length, ← hi, List.take_length]

/-- A column of the same size is overwritten whole: nothing of the old one is left. -/
theorem restoreColumn_of_sized {rows : Nat} {c c' : ParamColumn} (h : c.Sized rows)
    (h' : c'.Sized rows) (hs : c.stride = c'.stride) :
    restoreColumn rows c ⟨c'.values, c'.indicators⟩ = some c' := by
  obtain ⟨hv, hi⟩ := h
  obtain ⟨hv', hi'⟩ := h'
  have hval : c'.values.length = c.values.length := by rw [hv, hv', hs]
  have hv0 : c.values.drop c'.values.length = [] := List.drop_eq_nil_of_le (Nat.le_of_eq hval.symm)
  have hi0 : c.indicators.drop (min rows c'.indicators.length) = [] :=
    List.drop_eq_nil_of_le (by omega)
  have hi1 : c'.indicators.take (min rows c'.indicators.length) = c'.indicators :=
    List.take_of_length_le (by omega)
  simp only [restoreColumn]
  rw [if_pos (Nat.le_of_eq hval), hv0, hi0, hi1, List.append_nil, List.append_nil, hs]

theorem restoreColumns_of_sized {rows : Nat} {cs cs' : List ParamColumn}
    (hcs : ∀ c ∈ cs, c.Sized rows) (hcs' : ∀ c ∈ cs', c.Sized rows)
    (hstride : cs.map (·.stride) = cs'.map (·.stride)) :
    restoreColumns rows cs (cs'.map fun c => ⟨c.values, c.indicators⟩) = some cs' := by
  induction cs generalizing cs' with
  | nil => rw [List.map_eq_nil_iff.1 hstride.symm]; rfl
  | cons c cs ih =>
    cases cs' with
    | nil => simp at hstride
    | cons c' cs' =>
      rw [List.map_cons, List.map_cons, List.cons.injEq] at hstride
      rw [List.forall_mem_cons] at hcs hcs'
      simp only [List.map_cons, restoreColumns, restoreColumn_of_sized hcs.1 hcs'.1 hstride.1,
        ih hcs.2 hcs'.2 hstride.2]
      rfl

/-- Restoring a snapshot of a buffer of the same shape gives that buffer. -/
theorem restoreParams_snapshotParams {buf held : ParamBuffer} (h : buf.SameShape held) :
    restoreParams buf (snapshotParams held) = some held := by
  have hcols : restoreColumns buf.rows buf.columns (snapshotParams held) = some held.columns := by
    rw [snapshotParams_eq]
    exact restoreColumns_of_sized buf.sized (h.2 ▸ held.sized) h.1
  rw [restoreParams]
  split
  · rename_i cs hcs
    rw [hcols, Option.some.injEq] at hcs
    exact congrArg some (ParamBuffer.ext h.2 hcs.symm)
  · rename_i hcs
    rw [hcols] at hcs
    cases hcs

theorem restoreColumns_isSome_iff {rows rows' : Nat} {cs cs' : List ParamColumn}
    (hcs : ∀ c ∈ cs, c.Sized rows) (hcs' : ∀ c ∈ cs', c.Sized rows')
    (hstride : cs.map (·.stride) = cs'.map (·.stride)) :
    (restoreColumns rows cs (cs'.map fun c => ⟨c.values, c.indicators⟩)).isSome ↔
      ∀ k ∈ cs.map (·.stride), k * rows' ≤ k * rows := by
  induction cs generalizing cs' with
  | nil => simp [restoreColumns]
  | cons c cs ih =>
    cases cs' with
    | nil => simp at hstride
    | cons c' cs' =>
      rw [List.map_cons, List.map_cons, List.cons.injEq] at hstride
      rw [List.forall_mem_cons] at hcs hcs'
      have ih := ih hcs.2 hcs'.2 hstride.2
      have hfirst : (restoreColumn rows c ⟨c'.values, c'.indicators⟩).isSome ↔
          c.stride * rows' ≤ c.stride * rows := by
        rw [restoreColumn, hcs'.1.1, hcs.1.1, ← hstride.1]
        split <;> simp_all
      rw [List.map_cons, List.map_cons, List.forall_mem_cons, ← hfirst, ← ih, restoreColumns]
      cases restoreColumn rows c ⟨c'.values, c'.indicators⟩ with
      | none => simp
      | some c₁ => cases restoreColumns rows cs _ <;> simp

/-- Restoring a snapshot stays inside the buffer exactly when its value arrays are no longer. -/
theorem restoreParams_isSome_iff {buf held : ParamBuffer} (h : held.strides = buf.strides) :
    (restoreParams buf (snapshotParams held)).isSome ↔
      ∀ k ∈ held.strides, k * held.rows ≤ k * buf.rows := by
  rw [h]
  refine Iff.trans ?_ (restoreColumns_isSome_iff buf.sized held.sized h.symm)
  rw [snapshotParams_eq, restoreParams]
  split <;> simp_all

/-- Buffers of the same shape with the same snapshot are equal. -/
theorem snapshotParams_inj {b b' : ParamBuffer} (hs : b.SameShape b')
    (h : snapshotParams b = snapshotParams b') : b = b' := by
  have hb := restoreParams_snapshotParams (ParamBuffer.SameShape.refl b)
  rw [h, restoreParams_snapshotParams hs] at hb
  exact (Option.some.inj hb).symm

/-- Without columns, the snapshot is empty. -/
theorem snapshotParams_nil {buf : ParamBuffer} (h : buf.strides = []) :
    snapshotParams buf = [] := by
  rw [snapshotParams, List.map_eq_nil_iff.1 h, List.map_nil]

end Dbgen4.Async
