import Dbgen4.Db2.Query
import Dbgen4.Lts

/-!
# The layout check

`prepare` hands the driver pointers into the arrays of the buffers, and records
how often each buffer had been resized; `execute` and `fetch` refuse to run when
that number has changed (`check_layout` of `rtl/db2/query.hpp`).

`sessions` is the system of a query whose member functions are called, and whose
buffers are written to, resized and assigned, in any order; after a setter that
stores past the arrays of its column there may be anything. The number tells a
resize, but it is copied along by an assignment, so that the storage can change
under a number that stays: what keeps the check sound is told step by step
(`KeepsLayout`), and in bounds it is exactly that (`checkLayout_sound`).
-/

namespace Dbgen4.Db2

open Rtl

/-! ## What `prepare` hands to the driver -/

variable {ps rs : List BufferDscr}

section Places

variable {ds : List BufferDscr} {isParam : Bool}

/-- The arrays that the driver is given a pointer to: the row status in a batch only. -/
def HandedOut (b : GeneratedBuffer ds isParam) : ArrayOf ds isParam → Prop
  | .rowStatus _ => b.isBatch
  | .values _ | .lens _ => True

/-- The arrays handed out are where they were, and have as many entries. -/
def StillAt (bound b : GeneratedBuffer ds isParam) : Prop :=
  ∀ a, HandedOut bound a → b.place a = bound.place a

end Places

/-- The arrays of the buffers are where a call tells the driver, and have as many rows. -/
def Call.LiesIn (q : Query ps rs) : Call → Prop
  | .bindParameter _ i _ r => ∃ c : Fin ps.length, i = c ∧
    r = ⟨(q.par.place (.values c)).1, (q.par.place (.lens c)).1, (ps.get c).slotSize⟩
  | .bindCol _ i _ r => ∃ c : Fin rs.length, i = c ∧
    r = ⟨(q.res.place (.values c)).1, (q.res.place (.lens c)).1, (rs.get c).slotSize⟩
  | .setStmtAttr _ (.paramsetSize rows) => ∀ a, HandedOut q.par a → (q.par.place a).2 = rows
  | .setStmtAttr _ (.rowArraySize rows) => ∀ a, HandedOut q.res a → (q.res.place a).2 = rows
  | .setStmtAttr _ (.paramStatusPtr status) =>
    HandedOut q.par (.rowStatus rfl) ∧ (q.par.place (.rowStatus rfl)).1 = status
  | _ => True

/-- These calls hand all arrays of the buffers to the driver. -/
structure Handed (q : Query ps rs) (calls : List Call) : Prop where
  liesIn : ∀ c ∈ calls, c.LiesIn q
  params : ∀ c : Fin ps.length, ∃ h d r, .bindParameter h c d r ∈ calls
  cols : ∀ c : Fin rs.length, ∃ h d r, .bindCol h c d r ∈ calls
  paramRows : q.hasP → ∃ h rows, .setStmtAttr h (.paramsetSize rows) ∈ calls
  colRows : q.hasR → ∃ h rows, .setStmtAttr h (.rowArraySize rows) ∈ calls

section

variable {q q' : Query ps rs}

/-- Buffers that stay where they are hand out the same arrays. -/
theorem StillAt.handedOut {ds : List BufferDscr} {isParam : Bool}
    {b b' : GeneratedBuffer ds isParam} (h : StillAt b b') (a : ArrayOf ds isParam) :
    HandedOut b' a ↔ HandedOut b a := by
  have hsize : b'.bufferSize = b.bufferSize := by
    by_cases hds : 0 < ds.length
    · rw [GeneratedBuffer.bufferSize_eq hds, GeneratedBuffer.bufferSize_eq hds]
      exact congrArg Prod.snd (h (.values ⟨0, hds⟩) trivial)
    · rw [GeneratedBuffer.bufferSize, GeneratedBuffer.bufferSize, dif_neg hds, dif_neg hds]
  cases a with
  | values c => exact Iff.rfl
  | lens c => exact Iff.rfl
  | rowStatus h =>
    rw [HandedOut, HandedOut, GeneratedBuffer.isBatch, GeneratedBuffer.isBatch, hsize]

/-- What a call tells the driver stays true while the arrays handed out stay where they are. -/
theorem liesIn_of_stillAt (hpar : StillAt q.par q'.par) (hres : StillAt q.res q'.res)
    {c : Call} (hc : c.LiesIn q) : c.LiesIn q' := by
  rcases c with _ | _ | _ | _ | _ | ⟨_, _ | _ | _ | _ | _ | _⟩ | _ | _ | _ | _ | _ | _
  case bindParameter =>
    obtain ⟨c, rfl, rfl⟩ := hc
    refine ⟨c, rfl, ?_⟩
    rw [hpar (.values c) trivial, hpar (.lens c) trivial]
  case bindCol =>
    obtain ⟨c, rfl, rfl⟩ := hc
    refine ⟨c, rfl, ?_⟩
    rw [hres (.values c) trivial, hres (.lens c) trivial]
  case setStmtAttr.paramsetSize rows =>
    intro a ha
    have ha := (hpar.handedOut a).1 ha
    rw [hpar a ha]
    exact hc a ha
  case setStmtAttr.rowArraySize rows =>
    intro a ha
    have ha := (hres.handedOut a).1 ha
    rw [hres a ha]
    exact hc a ha
  case setStmtAttr.paramStatusPtr status =>
    refine ⟨(hpar.handedOut _).2 hc.1, ?_⟩
    rw [hpar _ hc.1]
    exact hc.2
  all_goals trivial

theorem Handed.of_stillAt {calls : List Call} (h : Handed q calls)
    (hpar : StillAt q.par q'.par) (hres : StillAt q.res q'.res) : Handed q' calls :=
  ⟨fun c hc => liesIn_of_stillAt hpar hres (h.liesIn c hc), h.params, h.cols, h.paramRows,
    h.colRows⟩

end

namespace Query

variable (q : Query ps rs) (d : Driver) (h : Handle)

/-- The calls of a loop that binds all columns. -/
theorem bindLoop_ok {bind : ℕ → BufferDscr → BufferDscrInit → Call} {ret : ℕ → SqlReturn} {i : ℕ}
    {l : List (BufferDscr × BufferDscrInit)} (hok : (bindLoop bind ret i l).2 = none) :
    (bindLoop bind ret i l).1 = l.mapIdx fun k x => bind (i + k) x.1 x.2 := by
  induction l generalizing i with
  | nil => rfl
  | cons x rest ih =>
    rw [bindLoop] at hok ⊢
    split at hok
    · rename_i hret
      rw [if_pos hret, List.mapIdx_cons]
      dsimp only
      rw [ih hok]
      simp only [Nat.add_zero, Nat.add_assoc, Nat.add_comm 1]
    · cases hok

/-- The columns of a class, with the pointers to their arrays. -/
theorem mapIdx_zip_description {ds : List BufferDscr} {isParam : Bool}
    (b : GeneratedBuffer ds isParam) {α : Type} (f : ℕ → BufferDscr → BufferDscrInit → α) :
    (ds.zip b.description).mapIdx (fun k x => f (0 + k) x.1 x.2) =
      List.ofFn fun c => f c.val (ds.get c) ⟨(b.place (.values c)).1, (b.place (.lens c)).1,
        (ds.get c).slotSize⟩ := by
  have hlen : b.description.length = ds.length := List.length_ofFn
  refine List.ext_getElem (by simp [hlen]) fun k h₁ h₂ => ?_
  rw [List.getElem_mapIdx, List.getElem_ofFn, List.getElem_zip, Nat.zero_add]
  simp only [GeneratedBuffer.description, List.getElem_ofFn]
  rfl

/-- The calls that bind all parameters. -/
def paramCalls : List Call :=
  if q.hasP then
    (List.ofFn fun c : Fin ps.length => .bindParameter h c.val (ps.get c)
      ⟨(q.par.place (.values c)).1, (q.par.place (.lens c)).1, (ps.get c).slotSize⟩) ++
    [.setStmtAttr h (.paramsetSize q.par.bufferSize), .setStmtAttr h .paramsProcessedPtr] ++
    if q.par.isBatch then
      [.setStmtAttr h (.paramStatusPtr (q.par.rowStatus rfl).block),
        .setStmtAttr h .paramoptAtomic]
    else []
  else []

/-- The calls that bind all result columns. -/
def colCalls : List Call :=
  if q.hasR then
    (List.ofFn fun c : Fin rs.length => .bindCol h c.val (rs.get c)
      ⟨(q.res.place (.values c)).1, (q.res.place (.lens c)).1, (rs.get c).slotSize⟩) ++
    [.setStmtAttr h (.rowArraySize q.res.bufferSize), .setStmtAttr h .rowsFetchedPtr]
  else []

theorem calls_bindParams (hok : (q.bindParams d h).result = .ok ()) :
    (q.bindParams d h).calls = q.paramCalls h := by
  rw [bindParams] at hok ⊢
  rw [paramCalls]
  cases hp : q.hasP with
  | false => rfl
  | true =>
    rw [hp, if_neg (by simp)] at hok
    rw [if_neg (by simp), if_pos rfl]
    dsimp only at hok ⊢
    split at hok
    · cases hok
    · rename_i hnone
      rw [bindLoop_ok hnone]
      exact congrArg (fun l => l ++ _ ++ _) (mapIdx_zip_description q.par (Call.bindParameter h))

theorem calls_bindResults (hok : (q.bindResults d h).result = .ok ()) :
    (q.bindResults d h).calls = q.colCalls h := by
  rw [bindResults] at hok ⊢
  rw [colCalls]
  cases hr : q.hasR with
  | false => rfl
  | true =>
    rw [hr, if_neg (by simp)] at hok
    rw [if_neg (by simp), if_pos rfl]
    dsimp only at hok ⊢
    split at hok
    · cases hok
    · rename_i hnone
      rw [bindLoop_ok hnone]
      exact congrArg (· ++ _) (mapIdx_zip_description q.res (Call.bindCol h))

/-- The query that has bound its columns, and has not recorded it yet. -/
def binding : Query ps rs :=
  (bindResults (bindParams { q with stmt := some d.handle } d d.handle).query d d.handle).query

/-- What a `prepare` that succeeds does. -/
theorem prepare_ok (hok : (q.prepare d).result = .ok ()) :
    (q.prepare d).query = { q.binding d with
      boundParLayout := if q.hasP then (q.binding d).par.layoutGeneration
        else (q.binding d).boundParLayout
      boundResLayout := if q.hasR then (q.binding d).res.layoutGeneration
        else (q.binding d).boundResLayout } ∧
    (q.prepare d).calls = q.stmt.toList.map .freeHandle ++
      [.allocHandle (some d.handle), .prepare d.handle q.sql] ++ q.paramCalls d.handle ++
      q.colCalls d.handle := by
  rw [prepare] at hok ⊢
  split at hok
  · cases hok
  · rename_i halloc
    rw [if_neg halloc]
    dsimp only at hok ⊢
    split at hok
    · cases hok
    · rename_i hprep
      rw [if_neg hprep]
      split at hok
      · cases hok
      · rename_i hpar
        split at hok
        · cases hok
        · rename_i hres
          refine ⟨rfl, ?_⟩
          dsimp only
          rw [calls_bindParams _ _ _ hpar, calls_bindResults _ _ _ hres, query_bindParams]
          have hcols : (if hasP { q with stmt := some d.handle } = true then
              { q with stmt := some d.handle, par := q.par.bufferDescriptionInit.2 }
              else { q with stmt := some d.handle }).colCalls d.handle = q.colCalls d.handle := by
            split <;> rfl
          exact congrArg (_ ++ ·) hcols

theorem binding_eq : q.binding d = { q with
    stmt := some d.handle
    par := if q.hasP then q.par.bufferDescriptionInit.2 else q.par
    res := if q.hasR then q.res.bufferDescriptionInit.2 else q.res } := by
  rw [binding, query_bindResults, query_bindParams]
  cases hp : q.hasP <;> cases hr : q.hasR <;> simp_all [hasP, hasR]

/-- Both buffers are where they were, as of the resizes recorded. -/
structure SameLayout (q q' : Query ps rs) : Prop where
  par : q.par.SamePlaces q'.par
  res : q.res.SamePlaces q'.res
  boundParLayout : q'.boundParLayout = q.boundParLayout
  boundResLayout : q'.boundResLayout = q.boundResLayout

variable {q} {q' : Query ps rs}

theorem liesIn_of_mem_paramCalls (hsized : q.hasP → q.par.Sized) {c : Call}
    (hc : c ∈ q.paramCalls h) : c.LiesIn q := by
  rw [paramCalls] at hc
  split at hc
  · rename_i hp
    rcases List.mem_append.1 hc with hc | hc
    · rcases List.mem_append.1 hc with hc | hc
      · obtain ⟨i, rfl⟩ := List.mem_ofFn.1 hc
        exact ⟨i, rfl, rfl⟩
      · simp only [List.mem_cons, List.not_mem_nil, or_false] at hc
        rcases hc with rfl | rfl
        · exact fun a _ => (hsized hp).arrays a
        · trivial
    · split at hc
      · rename_i hbatch
        simp only [List.mem_cons, List.not_mem_nil, or_false] at hc
        rcases hc with rfl | rfl
        · exact ⟨hbatch, rfl⟩
        · trivial
      · cases hc
  · cases hc

theorem liesIn_of_mem_colCalls (hsized : q.hasR → q.res.Sized) {c : Call}
    (hc : c ∈ q.colCalls h) : c.LiesIn q := by
  rw [colCalls] at hc
  split at hc
  · rename_i hr
    rcases List.mem_append.1 hc with hc | hc
    · obtain ⟨i, rfl⟩ := List.mem_ofFn.1 hc
      exact ⟨i, rfl, rfl⟩
    · simp only [List.mem_cons, List.not_mem_nil, or_false] at hc
      rcases hc with rfl | rfl
      · exact fun a _ => (hsized hr).arrays a
      · trivial
  · cases hc

theorem hasP_of_fin (c : Fin ps.length) : q.hasP := by
  cases ps with
  | nil => exact c.elim0
  | cons => rfl

theorem hasR_of_fin (c : Fin rs.length) : q.hasR := by
  cases rs with
  | nil => exact c.elim0
  | cons => rfl

theorem length_pos_of_hasP (hp : q.hasP) : 0 < ps.length := by
  cases ps with
  | nil => cases hp
  | cons => exact Nat.succ_pos _

theorem length_pos_of_hasR (hr : q.hasR) : 0 < rs.length := by
  cases rs with
  | nil => cases hr
  | cons => exact Nat.succ_pos _

theorem mem_paramCalls (c : Fin ps.length) : ∃ d r, .bindParameter h c d r ∈ q.paramCalls h := by
  rw [paramCalls, if_pos (hasP_of_fin c)]
  exact ⟨_, _, List.mem_append_left _ (List.mem_append_left _ (List.mem_ofFn.2 ⟨c, rfl⟩))⟩

theorem mem_colCalls (c : Fin rs.length) : ∃ d r, .bindCol h c d r ∈ q.colCalls h := by
  rw [colCalls, if_pos (hasR_of_fin c)]
  exact ⟨_, _, List.mem_append_left _ (List.mem_ofFn.2 ⟨c, rfl⟩)⟩

theorem rows_mem_paramCalls (hp : q.hasP) :
    ∃ rows, .setStmtAttr h (.paramsetSize rows) ∈ q.paramCalls h := by
  rw [paramCalls, if_pos hp]
  exact ⟨_, List.mem_append_left _ (List.mem_append_right _ List.mem_cons_self)⟩

theorem rows_mem_colCalls (hr : q.hasR) :
    ∃ rows, .setStmtAttr h (.rowArraySize rows) ∈ q.colCalls h := by
  rw [colCalls, if_pos hr]
  exact ⟨_, List.mem_append_right _ List.mem_cons_self⟩

/-- A `prepare` that succeeds hands all arrays to the driver. -/
theorem handed_prepare (hpar : q.hasP → q.par.Sized) (hres : q.hasR → q.res.Sized)
    (hok : (q.prepare d).result = .ok ()) : Handed q (q.prepare d).calls := by
  rw [(q.prepare_ok d hok).2]
  -- The calls before those that bind tell the driver nothing about the arrays.
  refine ⟨fun c hc => ?_, fun c => ?_, fun c => ?_, fun hp => ?_, fun hr => ?_⟩
  · rcases List.mem_append.1 hc with hc | hc
    · rcases List.mem_append.1 hc with hc | hc
      · rcases List.mem_append.1 hc with hc | hc
        · obtain ⟨r, -, rfl⟩ := List.mem_map.1 hc
          trivial
        · simp only [List.mem_cons, List.not_mem_nil, or_false] at hc
          rcases hc with rfl | rfl <;> trivial
      · exact liesIn_of_mem_paramCalls _ hpar hc
    · exact liesIn_of_mem_colCalls _ hres hc
  · obtain ⟨c', r, hc⟩ := mem_paramCalls d.handle c
    exact ⟨_, c', r, List.mem_append_left _ (List.mem_append_right _ hc)⟩
  · obtain ⟨c', r, hc⟩ := mem_colCalls d.handle c
    exact ⟨_, c', r, List.mem_append_right _ hc⟩
  · obtain ⟨rows, hc⟩ := rows_mem_paramCalls d.handle hp
    exact ⟨_, rows, List.mem_append_left _ (List.mem_append_right _ hc)⟩
  · obtain ⟨rows, hc⟩ := rows_mem_colCalls d.handle hr
    exact ⟨_, rows, List.mem_append_right _ hc⟩

/-- `prepare` leaves the arrays where they are. -/
theorem samePlaces_binding : q.par.SamePlaces (q.binding d).par ∧
    q.res.SamePlaces (q.binding d).res := by
  have hinit : ∀ {ds : List BufferDscr} {isParam : Bool} (b : GeneratedBuffer ds isParam)
      (c : Bool),
      b.SamePlaces (if c then b.bufferDescriptionInit.2 else b) := by
    intro ds isParam b c
    cases c <;> exact ⟨fun _ => rfl, rfl, rfl⟩
  rw [binding_eq]
  exact ⟨hinit _ _, hinit _ _⟩

/-- The numbers of resizes that a `prepare` that succeeds records. -/
theorem bound_prepare (hok : (q.prepare d).result = .ok ()) :
    (q.prepare d).query.boundParLayout =
      (if q.hasP then q.par.layoutGeneration else q.boundParLayout) ∧
    (q.prepare d).query.boundResLayout =
      if q.hasR then q.res.layoutGeneration else q.boundResLayout := by
  obtain ⟨hpar, hres⟩ := q.samePlaces_binding d
  rw [(q.prepare_ok d hok).1, ← hpar.layoutGeneration, ← hres.layoutGeneration, q.binding_eq]
  exact ⟨rfl, rfl⟩

/-- Whatever becomes of it, `prepare` leaves the arrays where they are. -/
theorem samePlaces_prepare : q.par.SamePlaces (q.prepare d).query.par ∧
    q.res.SamePlaces (q.prepare d).query.res := by
  have hrefl : q.par.SamePlaces q.par ∧ q.res.SamePlaces q.res :=
    ⟨⟨fun _ => rfl, rfl, rfl⟩, ⟨fun _ => rfl, rfl, rfl⟩⟩
  have hparams : ∀ {q' : Query ps rs}, q'.par = q.par → q'.res = q.res →
      q.par.SamePlaces (q'.bindParams d d.handle).query.par ∧
      q.res.SamePlaces (q'.bindParams d d.handle).query.res := by
    intro q' hpar hres
    rw [query_bindParams, ← hpar, ← hres]
    split <;> exact ⟨⟨fun _ => rfl, rfl, rfl⟩, ⟨fun _ => rfl, rfl, rfl⟩⟩
  rw [prepare]
  split
  · exact hrefl
  · dsimp only
    split
    · exact hrefl
    · split
      · exact hparams rfl rfl
      · have h := q.samePlaces_binding d
        rw [binding] at h
        split
        · exact h
        · exact h

theorem sameLayout_execute : q.SameLayout (q.execute d).query := by
  have hrefl : q.SameLayout q := ⟨⟨fun _ => rfl, rfl, rfl⟩, ⟨fun _ => rfl, rfl, rfl⟩, rfl, rfl⟩
  have hstatus : q.par.SamePlaces (q.par.clearRowStatus.driverStatus d.rowStatus) :=
    .trans (.driverStatus _) (.driverStatus _)
  rw [execute]
  split
  · exact hrefl
  · split
    · exact hrefl
    · cases q.hasP with
      | true =>
        dsimp only
        split <;> exact ⟨hstatus, hrefl.res, rfl, rfl⟩
      | false =>
        dsimp only
        split <;> exact ⟨hrefl.par, hrefl.res, rfl, rfl⟩

theorem sameLayout_fetch : q.SameLayout (q.fetch d).query := by
  have hrefl : q.SameLayout q := ⟨⟨fun _ => rfl, rfl, rfl⟩, ⟨fun _ => rfl, rfl, rfl⟩, rfl, rfl⟩
  have hwrite : ∀ n, q.res.SamePlaces
      { q.res.driverWrite fun c r => d.cells c r (rs.get c) with occupied := n } :=
    fun n => .trans (.modify _ _) ⟨fun _ => rfl, rfl, rfl⟩
  rw [fetch]
  split
  · exact hrefl
  · split
    · exact hrefl
    · split
      · exact hrefl
      · dsimp only
        split
        · exact ⟨hrefl.par, hwrite _, rfl, rfl⟩
        · split
          · exact ⟨hrefl.par, .modify _ _, rfl, rfl⟩
          · split
            · exact ⟨hrefl.par, .modify _ _, rfl, rfl⟩
            · exact ⟨hrefl.par, hwrite _, rfl, rfl⟩

theorem sameLayout_reset : q.SameLayout q.reset.1 := by
  refine ⟨?_, ?_, rfl, rfl⟩
  · rw [reset]
    dsimp only
    split
    · exact .resetAllNull
    · exact ⟨fun _ => rfl, rfl, rfl⟩
  · rw [reset]
    dsimp only
    split <;> exact ⟨fun _ => rfl, rfl, rfl⟩

theorem checkLayout_ok_iff : q.checkLayout = .ok () ↔
    (q.hasP → q.par.layoutGeneration = q.boundParLayout) ∧
    (q.hasR → q.res.layoutGeneration = q.boundResLayout) :=
  layoutCheck_ok_iff

end Query

/-! ## The use of a query and its buffers -/

/-- The query as a `prepare` found it, and what it called. -/
structure Bound (ps rs : List BufferDscr) where
  query : Query ps rs
  calls : List Call

/-- A query that is used. -/
structure Session (ps rs : List BufferDscr) where
  query : Query ps rs
  /-- The number of the next operation. -/
  epoch : ℕ
  /-- What the last `prepare` bound, if it succeeded. -/
  bound : Option (Bound ps rs) := none

/-- What a caller does with a query and its buffers. -/
inductive SessionEvent (ps rs : List BufferDscr)
  | prepare (d : Driver)
  | execute (d : Driver)
  | fetch (d : Driver)
  | reset
  /-- A setter or another change in place of a buffer. -/
  | writePar
  | writeRes
  /-- A setter of the parameter buffer stores past the arrays of its column. -/
  | overrunPar
  /-- `set_buffer_size` of a buffer. -/
  | resizePar (rows : ℕ)
  | resizeRes (rows : ℕ)
  /-- A buffer is assigned another one. -/
  | assignPar (src : GeneratedBuffer ps true)
  | assignRes (src : GeneratedBuffer rs false)
  /-- Another object is made as a copy of a buffer. -/
  | copy

/-- What is bound after a `prepare`. -/
def Query.bound (q : Query ps rs) (d : Driver) : Option (Bound ps rs) :=
  match (q.prepare d).result with
  | .ok () => some ⟨q, (q.prepare d).calls⟩
  | .error _ => none

/-- The steps of a caller. What a buffer is assigned is another buffer of its class, of any
    size. -/
inductive Session.Step (G : Growth) : Session ps rs → SessionEvent ps rs → Session ps rs → Prop
  | prepare (s : Session ps rs) (d : Driver) : Step G s (.prepare d)
    ⟨(s.query.prepare d).query, s.epoch + 1, s.query.bound d⟩
  | execute (s : Session ps rs) (d : Driver) : Step G s (.execute d)
    ⟨(s.query.execute d).query, s.epoch + 1, s.bound⟩
  | fetch (s : Session ps rs) (d : Driver) : Step G s (.fetch d)
    ⟨(s.query.fetch d).query, s.epoch + 1, s.bound⟩
  | reset (s : Session ps rs) : Step G s .reset ⟨s.query.reset.1, s.epoch + 1, s.bound⟩
  | writePar {s : Session ps rs} {b : GeneratedBuffer ps true} : s.query.par.Write b →
    Step G s .writePar ⟨{ s.query with par := b }, s.epoch + 1, s.bound⟩
  | writeRes {s : Session ps rs} {b : GeneratedBuffer rs false} : s.query.res.Write b →
    Step G s .writeRes ⟨{ s.query with res := b }, s.epoch + 1, s.bound⟩
  -- Nothing is known of the next state.
  | overrunPar {s : Session ps rs} {w : ParamWrite ps} (s' : Session ps rs) :
    s.query.par.Overruns w → Step G s .overrunPar s'
  | resizePar (s : Session ps rs) (rows : ℕ) : Step G s (.resizePar rows)
    ⟨{ s.query with par := s.query.par.setBufferSize G s.epoch rows }, s.epoch + 1, s.bound⟩
  | resizeRes (s : Session ps rs) (rows : ℕ) : Step G s (.resizeRes rows)
    ⟨{ s.query with res := s.query.res.setBufferSize G s.epoch rows }, s.epoch + 1, s.bound⟩
  | assignPar (s : Session ps rs) (src : GeneratedBuffer ps true) : src.Sized →
    Step G s (.assignPar src)
    ⟨{ s.query with par := s.query.par.copyAssign G s.epoch src }, s.epoch + 1, s.bound⟩
  | assignRes (s : Session ps rs) (src : GeneratedBuffer rs false) : src.Sized →
    Step G s (.assignRes src)
    ⟨{ s.query with res := s.query.res.copyAssign G s.epoch src }, s.epoch + 1, s.bound⟩
  | copy (s : Session ps rs) : Step G s .copy ⟨s.query, s.epoch + 1, s.bound⟩

/-- A query that is made, and used in any way. -/
def sessions (G : Growth) (ps rs : List BufferDscr) : Lts (Session ps rs) (SessionEvent ps rs) where
  init := {s | ∃ t sql parRows resRows, s = ⟨.make G t ps rs sql parRows resRows, t + 1, none⟩}
  step := Session.Step G

/-- No setter stores past the arrays of its column. -/
def SessionEvent.InBounds : SessionEvent ps rs → Prop
  | .overrunPar => False
  | _ => True

/-- Everything handed out is in the block that `bound` had, there is room in it for as many
    entries as `rows` says, and these are as many as it had. -/
def StaysAt {ds : List BufferDscr} {isParam : Bool} (bound b : GeneratedBuffer ds isParam)
    (rows : ArrayOf ds isParam → ℕ) : Prop :=
  ∀ a, HandedOut bound a →
    rows a ≤ b.capacity a ∧ (b.place a).1 = (bound.place a).1 ∧ rows a = (bound.place a).2

/-- A resize does not bring the counter round to the number that was recorded, and a buffer that
    is assigned was not resized as often as that; or else the arrays handed out stay as they
    are. -/
def KeepsPlaces (s : Session ps rs) (e : SessionEvent ps rs) : Prop :=
  ∀ bound, s.bound = some bound →
    match e with
    | .resizePar rows => s.query.par.layoutGeneration + 1 = s.query.boundParLayout →
      StaysAt bound.query.par s.query.par fun _ => GeneratedBuffer.atLeastOne rows
    | .resizeRes rows => s.query.res.layoutGeneration + 1 = s.query.boundResLayout →
      StaysAt bound.query.res s.query.res fun _ => GeneratedBuffer.atLeastOne rows
    | .assignPar src => src.layoutGeneration = s.query.boundParLayout →
      StaysAt bound.query.par s.query.par fun a => (src.place a).2
    | .assignRes src => src.layoutGeneration = s.query.boundResLayout →
      StaysAt bound.query.res s.query.res fun a => (src.place a).2
    | _ => True

/-- A step that keeps the places of the arrays, and stores to the arrays only. -/
def KeepsLayout (s : Session ps rs) (e : SessionEvent ps rs) : Prop :=
  e.InBounds ∧ KeepsPlaces s e

/-! ## What stays -/

section Places

variable {ds : List BufferDscr} {isParam : Bool} {G : Growth} {t : ℕ}
  {bound b b' src : GeneratedBuffer ds isParam}

/-- All blocks of a buffer were allocated before the operation `t`. -/
def OlderThan (t : ℕ) (b : GeneratedBuffer ds isParam) : Prop := ∀ a, (b.place a).1.epoch < t

theorem OlderThan.mono {t' : ℕ} (h : OlderThan t b) (hle : t ≤ t') : OlderThan t' b :=
  fun a => (h a).trans_le hle

theorem OlderThan.of_storedAt (h : OlderThan t b) (hs : b.StoredAt t b') :
    OlderThan (t + 1) b' := by
  intro a
  rcases hs a with heq | heq <;> rw [heq]
  · exact (h a).trans (Nat.lt_succ_self t)
  · exact Nat.lt_succ_self t

/-- While the number of resizes is the one recorded, the arrays handed out stay. -/
def LayoutSound (recorded : UInt64) (bound b : GeneratedBuffer ds isParam) : Prop :=
  b.layoutGeneration = recorded → StillAt bound b

theorem stillAt_of_samePlaces (h : b.SamePlaces b') : StillAt b b' := fun a _ => h.arrays a

theorem LayoutSound.of_samePlaces {recorded : UInt64} (h : LayoutSound recorded bound b)
    (hs : b.SamePlaces b') : LayoutSound recorded bound b' := by
  intro hgen a ha
  rw [hs.arrays]
  exact h (hs.layoutGeneration.symm.trans hgen) a ha

/-- Without columns nothing is handed out. -/
theorem stillAt_of_not_columns (h : ¬0 < ds.length) : StillAt bound b := by
  intro a ha
  cases a with
  | values c => exact absurd c.pos h
  | lens c => exact absurd c.pos h
  | rowStatus _ =>
    rw [HandedOut, GeneratedBuffer.isBatch, GeneratedBuffer.bufferSize, dif_neg h] at ha
    cases ha

theorem stillAt_setBufferSize_iff (hold : OlderThan t bound) {rows : ℕ} :
    StillAt bound (b.setBufferSize G t rows) ↔
      StaysAt bound b fun _ => GeneratedBuffer.atLeastOne rows :=
  forall₂_congr fun a _ => GeneratedBuffer.place_setBufferSize_eq_iff (hold a)

theorem stillAt_copyAssign_iff (hold : OlderThan t bound) :
    StillAt bound (b.copyAssign G t src) ↔ StaysAt bound b fun a => (src.place a).2 :=
  forall₂_congr fun a _ => GeneratedBuffer.place_copyAssign_eq_iff (hold a)

end Places

namespace Session

/-- Both halves of the layout check tell whether the arrays handed out have stayed. -/
def Sound (s : Session ps rs) : Prop := ∀ bound, s.bound = some bound →
  LayoutSound s.query.boundParLayout bound.query.par s.query.par ∧
  LayoutSound s.query.boundResLayout bound.query.res s.query.res

/-- What holds of a session however its buffers are used. -/
structure Inv (s : Session ps rs) : Prop where
  par : OlderThan s.epoch s.query.par
  res : OlderThan s.epoch s.query.res
  parSized : s.query.hasP → s.query.par.Sized
  resSized : s.query.hasR → s.query.res.Sized
  bound : ∀ {bound}, s.bound = some bound → OlderThan s.epoch bound.query.par ∧
    OlderThan s.epoch bound.query.res ∧ Handed bound.query bound.calls

end Session

variable {G : Growth} {s s' : Session ps rs} {e : SessionEvent ps rs}
  {tr : List (SessionEvent ps rs)} {q : Query ps rs}

namespace Session

/-- A step that leaves what is bound, and whose buffers have their size and are in old blocks, or
    in new ones. -/
theorem Inv.step_of_storedAt (h : s.Inv) (hpar : s.query.par.StoredAt s.epoch q.par)
    (hres : s.query.res.StoredAt s.epoch q.res) (hparSized : q.hasP → q.par.Sized)
    (hresSized : q.hasR → q.res.Sized) : Inv ⟨q, s.epoch + 1, s.bound⟩ where
  par := h.par.of_storedAt hpar
  res := h.res.of_storedAt hres
  parSized := hparSized
  resSized := hresSized
  bound hb := by
    obtain ⟨hp, hr, hh⟩ := h.bound hb
    exact ⟨hp.mono (Nat.le_succ _), hr.mono (Nat.le_succ _), hh⟩

theorem Inv.step_of_samePlaces (h : s.Inv) (hpar : s.query.par.SamePlaces q.par)
    (hres : s.query.res.SamePlaces q.res) : Inv ⟨q, s.epoch + 1, s.bound⟩ :=
  h.step_of_storedAt (hpar.storedAt _) (hres.storedAt _) (fun hp => hpar.sized (h.parSized hp))
    fun hr => hres.sized (h.resSized hr)

theorem inv_init (hs : s ∈ (sessions G ps rs).init) : s.Inv := by
  obtain ⟨t, sql, parRows, resRows, rfl⟩ := hs
  refine ⟨fun a => ?_, fun a => ?_, fun hp => ?_, fun hr => ?_, nofun⟩
  · exact (congrArg Block.epoch (GeneratedBuffer.block_make ..)).trans_lt (Nat.lt_succ_self t)
  · exact (congrArg Block.epoch (GeneratedBuffer.block_make ..)).trans_lt (Nat.lt_succ_self t)
  · exact GeneratedBuffer.sized_setBufferSize (Query.length_pos_of_hasP hp) parRows
  · exact GeneratedBuffer.sized_setBufferSize (Query.length_pos_of_hasR hr) resRows

theorem Inv.step (h : s.Inv) (hst : (sessions G ps rs).step s e s') (hin : e.InBounds) :
    s'.Inv := by
  have hrefl : s.query.par.SamePlaces s.query.par ∧ s.query.res.SamePlaces s.query.res :=
    ⟨⟨fun _ => rfl, rfl, rfl⟩, ⟨fun _ => rfl, rfl, rfl⟩⟩
  have hsame : ∀ {q'}, s.query.SameLayout q' → Inv ⟨q', s.epoch + 1, s.bound⟩ :=
    fun hq => h.step_of_samePlaces hq.par hq.res
  cases hst with
  | prepare d =>
    -- Whether it succeeds or not; what it has bound is where it was before.
    obtain ⟨hpar, hres⟩ := s.query.samePlaces_prepare d
    have hq := h.step_of_samePlaces hpar hres
    refine ⟨hq.par, hq.res, hq.parSized, hq.resSized, fun hb => ?_⟩
    rw [Query.bound] at hb
    split at hb
    · rename_i hok
      obtain rfl := Option.some.inj hb
      exact ⟨h.par.mono (Nat.le_succ _), h.res.mono (Nat.le_succ _),
        s.query.handed_prepare d h.parSized h.resSized hok⟩
    · cases hb
  | execute d => exact hsame (s.query.sameLayout_execute d)
  | fetch d => exact hsame (s.query.sameLayout_fetch d)
  | reset => exact hsame s.query.sameLayout_reset
  | overrunPar => exact hin.elim
  | writePar hw => exact h.step_of_samePlaces hw.samePlaces hrefl.2
  | writeRes hw => exact h.step_of_samePlaces hrefl.1 hw.samePlaces
  | resizePar rows =>
    exact h.step_of_storedAt (GeneratedBuffer.storedAt_setBufferSize rows) (hrefl.2.storedAt _)
      (fun hp => GeneratedBuffer.sized_setBufferSize (Query.length_pos_of_hasP hp) rows) h.resSized
  | resizeRes rows =>
    exact h.step_of_storedAt (hrefl.1.storedAt _) (GeneratedBuffer.storedAt_setBufferSize rows)
      h.parSized fun hr => GeneratedBuffer.sized_setBufferSize (Query.length_pos_of_hasR hr) rows
  | assignPar src hsrc =>
    exact h.step_of_storedAt GeneratedBuffer.storedAt_copyAssign (hrefl.2.storedAt _)
      (fun _ => GeneratedBuffer.sized_copyAssign hsrc) h.resSized
  | assignRes src hsrc =>
    exact h.step_of_storedAt (hrefl.1.storedAt _) GeneratedBuffer.storedAt_copyAssign
      h.parSized fun _ => GeneratedBuffer.sized_copyAssign hsrc
  | copy => exact h.step_of_samePlaces hrefl.1 hrefl.2

theorem inv (h : ((sessions G ps rs).restrict KeepsLayout).Run tr s) : s.Inv := by
  induction h with
  | init hs => exact inv_init hs
  | step _ hst ih => exact ih.step hst.1 hst.2.1

/-- A step keeps the check sound, just if it keeps the places of the arrays. -/
theorem Sound.step_iff (h : s.Sound) (hi : s.Inv) (hst : (sessions G ps rs).step s e s')
    (hin : e.InBounds) : s'.Sound ↔ KeepsPlaces s e := by
  -- A step that leaves both buffers where they are, and what is bound, keeps it.
  have hsame : ∀ {q'}, s.query.SameLayout q' → Sound ⟨q', s.epoch + 1, s.bound⟩ := by
    intro q' hq bound hb
    rw [hq.boundParLayout, hq.boundResLayout]
    exact ⟨(h bound hb).1.of_samePlaces hq.par, (h bound hb).2.of_samePlaces hq.res⟩
  have hrefl : s.query.SameLayout s.query :=
    ⟨⟨fun _ => rfl, rfl, rfl⟩, ⟨fun _ => rfl, rfl, rfl⟩, rfl, rfl⟩
  cases hst with
  | prepare d =>
    refine iff_of_true (fun bound hb => ?_) fun _ _ => trivial
    rw [Query.bound] at hb
    split at hb
    · obtain rfl := Option.some.inj hb
      obtain ⟨hpar, hres⟩ := s.query.samePlaces_prepare d
      exact ⟨fun _ => stillAt_of_samePlaces hpar, fun _ => stillAt_of_samePlaces hres⟩
    · cases hb
  | execute d => exact iff_of_true (hsame (s.query.sameLayout_execute d)) fun _ _ => trivial
  | fetch d => exact iff_of_true (hsame (s.query.sameLayout_fetch d)) fun _ _ => trivial
  | reset => exact iff_of_true (hsame s.query.sameLayout_reset) fun _ _ => trivial
  | overrunPar => exact hin.elim
  | writePar hw =>
    exact iff_of_true (hsame ⟨hw.samePlaces, hrefl.res, rfl, rfl⟩) fun _ _ => trivial
  | writeRes hw =>
    exact iff_of_true (hsame ⟨hrefl.par, hw.samePlaces, rfl, rfl⟩) fun _ _ => trivial
  | resizePar rows =>
    -- The other buffer stays, so that it is all about this one, whose new blocks are not the old.
    refine forall₂_congr fun bound hb => (and_iff_left (h bound hb).2).trans ?_
    exact imp_congr_right fun _ => stillAt_setBufferSize_iff (hi.bound hb).1
  | resizeRes rows =>
    refine forall₂_congr fun bound hb => (and_iff_right (h bound hb).1).trans ?_
    exact imp_congr_right fun _ => stillAt_setBufferSize_iff (hi.bound hb).2.1
  | assignPar src hsrc =>
    refine forall₂_congr fun bound hb => (and_iff_left (h bound hb).2).trans ?_
    exact imp_congr_right fun _ => stillAt_copyAssign_iff (hi.bound hb).1
  | assignRes src hsrc =>
    refine forall₂_congr fun bound hb => (and_iff_right (h bound hb).1).trans ?_
    exact imp_congr_right fun _ => stillAt_copyAssign_iff (hi.bound hb).2.1
  | copy => exact iff_of_true (hsame hrefl) fun _ _ => trivial

theorem sound_of_run (h : ((sessions G ps rs).restrict KeepsLayout).Run tr s) : s.Sound := by
  induction h with
  | init hs =>
    obtain ⟨t, sql, parRows, resRows, rfl⟩ := hs
    exact nofun
  | step hr hst ih => exact (ih.step_iff (inv hr) hst.1 hst.2.1).2 hst.2.2

/-- What the layout check says of a session of which it is sound. -/
theorem sound_iff_stillAt {bound : Bound ps rs} (hb : s.bound = some bound)
    (hok : s.query.checkLayout = .ok ()) : s.Sound ↔
      StillAt bound.query.par s.query.par ∧ StillAt bound.query.res s.query.res := by
  obtain ⟨hpar, hres⟩ := s.query.checkLayout_ok_iff.1 hok
  refine ⟨fun h => ?_, fun h bound' hb' => ?_⟩
  · obtain ⟨hp, hr⟩ := h bound hb
    refine ⟨?_, ?_⟩
    · by_cases hhas : s.query.hasP
      · exact hp (hpar hhas)
      · exact stillAt_of_not_columns fun hlen => hhas (Query.hasP_of_fin ⟨0, hlen⟩)
    · by_cases hhas : s.query.hasR
      · exact hr (hres hhas)
      · exact stillAt_of_not_columns fun hlen => hhas (Query.hasR_of_fin ⟨0, hlen⟩)
  · obtain rfl := Option.some.inj (hb.symm.trans hb')
    exact ⟨fun _ => h.1, fun _ => h.2⟩

end Session

/-- **The layout check is sound** in every run whose steps keep the layout: when it passes, the
    arrays are where `prepare` handed them to the driver, and have as many rows. A further step
    that stores to the arrays only, and after which the check passes, leaves them there just if it
    keeps the layout. -/
theorem checkLayout_sound (h : ((sessions G ps rs).restrict KeepsLayout).Run tr s) :
    (∀ bound, s.bound = some bound → s.query.checkLayout = .ok () →
      StillAt bound.query.par s.query.par ∧ StillAt bound.query.res s.query.res ∧
      Handed s.query bound.calls) ∧
    ∀ e s' bound, (sessions G ps rs).step s e s' → e.InBounds → s'.bound = some bound →
      s'.query.checkLayout = .ok () →
      (StillAt bound.query.par s'.query.par ∧ StillAt bound.query.res s'.query.res ↔
        KeepsLayout s e) := by
  have hi := Session.inv h
  have hs := Session.sound_of_run h
  refine ⟨fun bound hb hok => ?_, fun e s' bound hst hin hb hok => ?_⟩
  · obtain ⟨hpar, hres⟩ := (Session.sound_iff_stillAt hb hok).1 hs
    exact ⟨hpar, hres, (hi.bound hb).2.2.of_stillAt hpar hres⟩
  · rw [KeepsLayout, and_iff_right hin]
    exact (Session.sound_iff_stillAt hb hok).symm.trans (hs.step_iff hi hst hin)

/-- The parameter `id`. -/
def idParam : BufferDscr := ⟨"id", .atomic, .integer, 4, rfl⟩

/-- A prepared query whose parameters are set, and assigned others of the same size: the check
    passes, and the driver reads the parameters. -/
theorem checkLayout_sound_assigned : ∃ tr s bound,
    ((sessions .exact [idParam] []).restrict KeepsLayout).Run tr s ∧
    s.bound = some bound ∧ s.query.checkLayout = .ok () ∧ Handed s.query bound.calls ∧
    bound.calls = [.allocHandle (some 7), .prepare 7 "delete from t where id = ?",
      .bindParameter 7 0 idParam ⟨⟨0, .values 0⟩, ⟨0, .lens 0⟩, 4⟩,
      .setStmtAttr 7 (.paramsetSize 3), .setStmtAttr 7 .paramsProcessedPtr,
      .setStmtAttr 7 (.paramStatusPtr ⟨0, .rowStatus⟩), .setStmtAttr 7 .paramoptAtomic] := by
  have h := Lts.Run.step (A := (sessions .exact [idParam] []).restrict KeepsLayout)
    (.init ⟨0, "delete from t where id = ?", 3, 0, rfl⟩)
    ⟨.prepare _ { handle := 7 }, trivial, fun _ _ => trivial⟩
  have h := h.step ⟨.writePar (.call _ (.set 0 42#32 2) rfl id), trivial, fun _ _ => trivial⟩
  have h := h.step ⟨.assignPar _ (.make .exact 3 [idParam] true 3)
    (GeneratedBuffer.sized_setBufferSize (by decide) 3), trivial, fun bound hb _ a _ => ?_⟩
  · exact ⟨_, _, _, h, rfl, rfl, ((checkLayout_sound h).1 _ rfl rfl).2.2, rfl⟩
  · obtain rfl := Option.some.inj hb
    cases a <;> exact ⟨Nat.le_refl 3, rfl, rfl⟩

/-- A prepared query whose parameters are assigned more than there was room for: both buffers were
    resized once, so that the check passes, and the driver reads memory that was freed. -/
theorem not_checkLayout_sound : ∃ s bound,
    (sessions .exact [idParam] []).Run
      [.assignPar (.make .exact 3 [idParam] true 100), .prepare { handle := 7 }] s ∧
    s.bound = some bound ∧ s.query.checkLayout = .ok () ∧
    (bound.query.par.place (.values 0)) = (⟨0, .values 0⟩, 3) ∧
    (s.query.par.place (.values 0)) = (⟨2, .values 0⟩, 100) ∧ ¬Handed s.query bound.calls := by
  have h := Lts.Run.step (A := sessions .exact [idParam] [])
    (.init ⟨0, "delete from t where id = ?", 3, 0, rfl⟩) (.prepare _ { handle := 7 })
  have h := h.step (.assignPar _ (.make .exact 3 [idParam] true 100)
    (GeneratedBuffer.sized_setBufferSize (by decide) 100))
  refine ⟨_, _, h, rfl, rfl, rfl, rfl, fun hh => ?_⟩
  have hrows := hh.liesIn (.setStmtAttr 7 (.paramsetSize 3)) (List.mem_of_getElem? (i := 3) rfl)
    (.values 0) trivial
  exact absurd hrows (by decide)

end Dbgen4.Db2
