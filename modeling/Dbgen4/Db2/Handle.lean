import Mathlib.Data.List.Nodup
import Dbgen4.Db2.Query
import Dbgen4.Objects
import Dbgen4.Ownership

/-!
# Statement handles

A query allocates a statement handle when it is prepared, and frees it when it is
prepared again, reset or destroyed; a move hands it over (`rtl/db2/query.hpp`).

`queries` is the system of the query objects of a program, whose members are
called in any order while the driver answers as it likes. The handles are
resources that the objects own, and the calls of a member function are proper
uses of the one the object has (`run_execute` and the like), with one exception:
`prepare` frees the handle first, and keeps it if then `SQLAllocHandle` fails
(`run_prepare`, `stmt_prepare`). Where that does not happen, every handle is freed
once, and not passed to the driver after that (`freed_once`).
-/

namespace Dbgen4.Db2

open Rtl Ownership

/-- What a call is to the handles. -/
def Call.use : Call → Option (Use Handle)
  | .allocHandle h => h.map .acquire
  | .freeHandle h => some (.release h)
  | c => c.handle.map .use

/-- What calls are to the handles, in order. -/
def uses (calls : List Call) : List (Use Handle) := calls.filterMap Call.use

@[simp] theorem uses_append (calls calls' : List Call) :
    uses (calls ++ calls') = uses calls ++ uses calls' := List.filterMap_append ..

/-! ## What the member functions do -/

namespace Query

variable {ps rs : List BufferDscr} (q : Query ps rs) (d : Driver) {h : Handle}

theorem use_of_mem_bindLoop {bind : ℕ → BufferDscr → BufferDscrInit → Call} {ret : ℕ → SqlReturn}
    (hbind : ∀ i c r, (bind i c r).use = some (.use h)) {i : ℕ}
    {l : List (BufferDscr × BufferDscrInit)} {c : Call} (hc : c ∈ (bindLoop bind ret i l).1) :
    c.use = some (.use h) := by
  induction l generalizing i with
  | nil => cases hc
  | cons x rest ih =>
    rw [bindLoop] at hc
    split at hc
    · rcases List.mem_cons.1 hc with rfl | hc
      · exact hbind ..
      · exact ih hc
    · rw [List.mem_singleton.1 hc]
      exact hbind ..

theorem use_of_mem_bindParams {c : Call} (hc : c ∈ (q.bindParams d h).calls) :
    c.use = some (.use h) := by
  rw [bindParams] at hc
  split at hc
  · cases hc
  · dsimp only at hc
    split at hc
    · rcases List.mem_append.1 hc with hc | hc
      · exact use_of_mem_bindLoop (fun _ _ _ => rfl) hc
      · rw [List.mem_singleton.1 hc]
        rfl
    · rcases List.mem_append.1 hc with hc | hc
      · rcases List.mem_append.1 hc with hc | hc
        · exact use_of_mem_bindLoop (fun _ _ _ => rfl) hc
        · simp only [List.mem_cons, List.not_mem_nil, or_false] at hc
          rcases hc with rfl | rfl <;> rfl
      · split at hc
        · simp only [List.mem_cons, List.not_mem_nil, or_false] at hc
          rcases hc with rfl | rfl <;> rfl
        · cases hc

theorem use_of_mem_bindResults {c : Call} (hc : c ∈ (q.bindResults d h).calls) :
    c.use = some (.use h) := by
  rw [bindResults] at hc
  split at hc
  · cases hc
  · dsimp only at hc
    split at hc
    · rcases List.mem_append.1 hc with hc | hc
      · exact use_of_mem_bindLoop (fun _ _ _ => rfl) hc
      · rw [List.mem_singleton.1 hc]
        rfl
    · rcases List.mem_append.1 hc with hc | hc
      · exact use_of_mem_bindLoop (fun _ _ _ => rfl) hc
      · simp only [List.mem_cons, List.not_mem_nil, or_false] at hc
        rcases hc with rfl | rfl <;> rfl

theorem stmt_bindParams : (q.bindParams d h).query.stmt = q.stmt := by
  rw [query_bindParams]
  split <;> rfl

theorem stmt_bindResults : (q.bindResults d h).query.stmt = q.stmt := by
  rw [query_bindResults]
  split <;> rfl

/-- What `prepare` leaves as the statement; the old one, if no new one could be allocated. -/
theorem stmt_prepare :
    (q.prepare d).query.stmt = if succeeded d.alloc then some d.handle else q.stmt := by
  rw [prepare]
  cases hs : succeeded d.alloc with
  | false => rfl
  | true =>
    rw [if_neg (by simp), if_pos rfl]
    dsimp only
    split
    · rfl
    · split
      · exact stmt_bindParams ..
      · split
        · exact (stmt_bindResults ..).trans (stmt_bindParams ..)
        · exact (stmt_bindResults ..).trans (stmt_bindParams ..)

/-- The calls of `prepare`: whatever happens after the allocation, only the new handle is used. -/
theorem calls_prepare : ∃ rest, (∀ c ∈ rest, c.use = some (.use d.handle)) ∧
    (q.prepare d).calls = q.stmt.toList.map .freeHandle ++
      if succeeded d.alloc then .allocHandle (some d.handle) :: rest
      else [.allocHandle none, .getDiagRecConn] := by
  rw [prepare]
  cases hs : succeeded d.alloc with
  | false => exact ⟨[], fun _ hc => (by cases hc), rfl⟩
  | true =>
    rw [if_neg (by simp)]
    dsimp only
    -- It may end after `SQLPrepare`, after the parameters, or after the results.
    split
    · refine ⟨[.prepare d.handle q.sql, .getDiagRec (some d.handle)], fun c hc => ?_, ?_⟩
      · simp only [List.mem_cons, List.not_mem_nil, or_false] at hc
        rcases hc with rfl | rfl <;> rfl
      · rw [List.append_assoc]
        rfl
    · split
      · refine ⟨.prepare d.handle q.sql ::
          (bindParams { q with stmt := some d.handle } d d.handle).calls, fun c hc => ?_, ?_⟩
        · rcases List.mem_cons.1 hc with rfl | hc
          · rfl
          · exact use_of_mem_bindParams _ _ hc
        · rw [List.append_assoc]
          rfl
      · have hrest : ∀ c ∈ .prepare d.handle q.sql ::
            ((bindParams { q with stmt := some d.handle } d d.handle).calls ++
              (bindResults (bindParams { q with stmt := some d.handle } d d.handle).query d
                d.handle).calls), c.use = some (.use d.handle) := by
          intro c hc
          rcases List.mem_cons.1 hc with rfl | hc
          · rfl
          · rcases List.mem_append.1 hc with hc | hc
            · exact use_of_mem_bindParams _ _ hc
            · exact use_of_mem_bindResults _ _ hc
        split
        · refine ⟨_, hrest, ?_⟩
          rw [List.append_assoc, List.append_assoc]
          rfl
        · refine ⟨_, hrest, ?_⟩
          rw [List.append_assoc, List.append_assoc]
          rfl

end Query

/-- Calls that use the handle, if there is one, and do nothing else. -/
def OnlyUses (stmt : Option Handle) (calls : List Call) : Prop :=
  ∀ u ∈ uses calls, ∃ h, stmt = some h ∧ u = .use h

theorem onlyUses_of_forall {stmt : Option Handle} {h : Handle} {calls : List Call}
    (hstmt : stmt = some h) (hc : ∀ c ∈ calls, c.use = some (.use h) ∨ c.use = none) :
    OnlyUses stmt calls := by
  intro u hu
  obtain ⟨c, hmem, hu⟩ := List.mem_filterMap.1 hu
  rcases hc c hmem with hc | hc
  · exact ⟨h, hstmt, Option.some.inj (hu.symm.trans hc)⟩
  · cases hu.symm.trans hc

theorem OnlyUses.run {stmt : Option Handle} {calls : List Call} (h : OnlyUses stmt calls) :
    Use.run stmt (uses calls) = some stmt := by
  cases stmt with
  | none =>
    have hnil : uses calls = [] := List.eq_nil_iff_forall_not_mem.2 fun u hu => by
      obtain ⟨_, hstmt, -⟩ := h u hu
      cases hstmt
    rw [hnil]
    rfl
  | some r =>
    refine Use.run_uses fun u hu => ?_
    obtain ⟨r', hr, rfl⟩ := h u hu
    rw [Option.some.inj hr]

/-- Freeing the handle, if there is one. -/
theorem run_free (stmt : Option Handle) :
    Use.run stmt (uses (stmt.toList.map .freeHandle)) = some none := by
  cases stmt with
  | none => rfl
  | some h =>
    change (Use.step (some h) (.release h)).bind _ = _
    rw [Use.step, if_pos rfl]
    rfl

namespace Query

variable {ps rs : List BufferDscr} (q : Query ps rs) (d : Driver)

/-- `prepare` frees the handle, and then allocates one or has none. -/
theorem run_prepare : Use.run q.stmt (uses (q.prepare d).calls) =
    some (if succeeded d.alloc then some d.handle else none) := by
  obtain ⟨rest, hrest, hcalls⟩ := q.calls_prepare d
  rw [hcalls, uses_append, Use.run_append, run_free, Option.bind_some]
  split
  · exact (onlyUses_of_forall rfl fun c hc => .inl (hrest c hc)).run
  · rfl

theorem stmt_execute : (q.execute d).query.stmt = q.stmt := by
  rw [execute]
  split
  · rfl
  · split
    · rfl
    · dsimp only
      split <;> split <;> rfl

theorem onlyUses_execute : OnlyUses q.stmt (q.execute d).calls := by
  cases hq : q.stmt with
  | none =>
    rw [execute, hq]
    intro u hu
    cases hu
  | some h =>
    refine onlyUses_of_forall rfl fun c hc => .inl ?_
    simp only [execute, hq] at hc
    split at hc
    · cases hc
    · split at hc
      · simp only [List.mem_cons, List.not_mem_nil, or_false] at hc
        rcases hc with rfl | rfl <;> rfl
      · simp only [List.mem_cons, List.not_mem_nil, or_false] at hc
        rcases hc with rfl | rfl <;> rfl

theorem stmt_fetch : (q.fetch d).query.stmt = q.stmt := by
  rw [fetch]
  split
  · rfl
  · split
    · rfl
    · split
      · rfl
      · dsimp only
        split
        · rfl
        · split
          · rfl
          · split <;> rfl

theorem onlyUses_fetch : OnlyUses q.stmt (q.fetch d).calls := by
  cases hq : q.stmt with
  | none =>
    rw [fetch, hq]
    intro u hu
    cases hu
  | some h =>
    refine onlyUses_of_forall rfl fun c hc => ?_
    have hc : c = .fetchScroll h ∨ c = .getDiagRec (some h) ∨ c = .getDiagRec none := by
      simp only [fetch, hq] at hc
      split at hc
      · cases hc
      · split at hc
        · cases hc
        · split at hc
          · exact .inl (List.mem_singleton.1 hc)
          · split at hc
            · simp only [List.mem_cons, List.not_mem_nil, or_false] at hc
              exact hc.imp_right .inl
            · split at hc
              · simp only [List.mem_cons, List.not_mem_nil, or_false] at hc
                exact hc.imp_right .inr
              · exact .inl (List.mem_singleton.1 hc)
    rcases hc with rfl | rfl | rfl
    · exact .inl rfl
    · exact .inl rfl
    · exact .inr rfl

theorem onlyUses_cancel : OnlyUses q.stmt (q.cancel d).2 := by
  rw [cancel]
  cases hq : q.stmt with
  | none =>
    intro u hu
    cases hu
  | some h => exact onlyUses_of_forall rfl fun c hc => .inl (by rw [List.mem_singleton.1 hc]; rfl)

theorem onlyUses_moveCalls : OnlyUses q.stmt q.moveCalls := by
  rw [moveCalls]
  cases hq : q.stmt with
  | none =>
    intro u hu
    cases hu
  | some h =>
    refine onlyUses_of_forall rfl fun c hc => .inl ?_
    rcases List.mem_append.1 hc with hc | hc
    · split at hc
      · rw [List.mem_singleton.1 hc]
        rfl
      · cases hc
    · split at hc
      · rw [List.mem_singleton.1 hc]
        rfl
      · cases hc

end Query

/-! ## The objects of a program -/

/-- A query of any parameter and result types. -/
structure AnyQuery where
  {ps rs : List BufferDscr}
  query : Query ps rs

/-- The handle that it has. -/
def AnyQuery.stmt (o : AnyQuery) : Option Handle := o.query.stmt

/-- A program. -/
structure Program where
  /-- The number of the next handle. -/
  next : Handle := 0
  objects : Objects AnyQuery := []

/-- What happens to an object, and the driver calls that are made. -/
inductive QueryEvent
  | construct
  /-- A member function, or the destructor. -/
  | call (i : ℕ) (calls : List Call)
  /-- `prepare`, and what the driver answers during it. -/
  | prepare (i : ℕ) (d : Driver) (calls : List Call)
  /-- The object `i` is moved into the new object `j`. -/
  | move (i j : ℕ) (calls : List Call)

/-- The driver calls, in order. -/
def QueryEvent.calls : QueryEvent → List Call
  | .construct => []
  | .call _ calls | .prepare _ _ calls | .move _ _ calls => calls

/-- The steps of a program. A moved-from object has neither a database nor buffers, so that it
    can be neither prepared nor reset. -/
inductive Program.Step : Program → QueryEvent → Program → Prop
  | construct (p : Program) (G : Growth) (t : ℕ) (ps rs : List BufferDscr) (sql : String)
      (parRows resRows : ℕ) :
    Step p .construct
      { p with objects := p.objects.construct ⟨.make G t ps rs sql parRows resRows⟩ }
  | prepare {p : Program} {i : ℕ} {o : AnyQuery} (d : Driver) : p.objects.find i = some o →
    o.query.db → d.handle = p.next →
    Step p (.prepare i d (o.query.prepare d).calls)
      ⟨p.next + 1, p.objects.put i ⟨(o.query.prepare d).query⟩⟩
  | execute {p : Program} {i : ℕ} {o : AnyQuery} (d : Driver) : p.objects.find i = some o →
    Step p (.call i (o.query.execute d).calls)
      { p with objects := p.objects.put i ⟨(o.query.execute d).query⟩ }
  | fetch {p : Program} {i : ℕ} {o : AnyQuery} (d : Driver) : p.objects.find i = some o →
    Step p (.call i (o.query.fetch d).calls)
      { p with objects := p.objects.put i ⟨(o.query.fetch d).query⟩ }
  | reset {p : Program} {i : ℕ} {o : AnyQuery} : p.objects.find i = some o → o.query.db →
    Step p (.call i o.query.reset.2) { p with objects := p.objects.put i ⟨o.query.reset.1⟩ }
  | cancel {p : Program} {i : ℕ} {o : AnyQuery} (d : Driver) : p.objects.find i = some o →
    Step p (.call i (o.query.cancel d).2) { p with objects := p.objects.put i o }
  /-- The caller writes to the buffers, or resizes them. -/
  | write {p : Program} {i : ℕ} {o : AnyQuery} (par : GeneratedBuffer o.ps true)
      (res : GeneratedBuffer o.rs false) : p.objects.find i = some o →
    Step p (.call i [])
      { p with objects := p.objects.put i ⟨{ o.query with par := par, res := res }⟩ }
  | move {p : Program} {i : ℕ} {o : AnyQuery} : p.objects.find i = some o →
    Step p (.move i p.objects.length o.query.moveCalls)
      { p with objects := (p.objects.put i ⟨o.query.movedFrom⟩).construct o }
  | destroy {p : Program} {i : ℕ} {o : AnyQuery} : p.objects.find i = some o →
    Step p (.call i o.query.destroyCalls) { p with objects := p.objects.destroy i }

/-- The query objects of a program on one connection. -/
def queries : Lts Program QueryEvent where
  init := {{}}
  step := Program.Step

/-- A query that is prepared again gets a new handle. -/
def AllocSucceeds (p : Program) : QueryEvent → Prop
  | .prepare i d _ => (∃ o, p.objects.find i = some o ∧ o.query.isPrepared) → succeeded d.alloc
  | _ => True

/-- The driver calls of a run, latest first. -/
def driverCalls (tr : List QueryEvent) : List Call := tr.flatMap fun e => e.calls.reverse

/-- The handles that `SQLAllocHandle` returned. -/
def allocated (tr : List QueryEvent) : List Handle :=
  chron (fun | .allocHandle h => h | _ => none) (driverCalls tr)

/-- The handles passed to `SQLFreeHandle`. -/
def freed (tr : List QueryEvent) : List Handle :=
  chron (fun | .freeHandle h => some h | _ => none) (driverCalls tr)

/-! ## Handles are owned -/

/-- The handle that an object owns. -/
def Program.own (p : Program) : ℕ → Option Handle := fun i => (p.objects.find i).bind AnyQuery.stmt

/-- What an event is to the handles, latest first. -/
def QueryEvent.acts : QueryEvent → List (Act ℕ Handle)
  | .construct => []
  | .call i calls | .prepare i _ calls => ((uses calls).map (Use.act i)).reverse
  | .move i j calls => ((uses calls).map (Use.act j)).reverse ++ [.handOver i j]

variable {p p' : Program} {e : QueryEvent} {tr : List QueryEvent} {i : ℕ} {o o' : AnyQuery}

theorem own_length (p : Program) : p.own p.objects.length = none := by
  rw [Program.own, Objects.find_length]
  rfl

theorem own_of_find (hf : p.objects.find i = some o) : p.own i = o.stmt := by
  rw [Program.own, hf]
  rfl

theorem own_construct (p : Program) (o : AnyQuery) (n : Handle) :
    Program.own ⟨n, p.objects.construct o⟩ = Function.update p.own p.objects.length o.stmt :=
  Objects.bind_construct AnyQuery.stmt p.objects o

theorem own_put (hf : p.objects.find i = some o) (o' : AnyQuery) (n : Handle) :
    Program.own ⟨n, p.objects.put i o'⟩ = Function.update p.own i o'.stmt :=
  Objects.bind_put AnyQuery.stmt hf o'

theorem own_destroy (hf : p.objects.find i = some o) (n : Handle) :
    Program.own ⟨n, p.objects.destroy i⟩ = Function.update p.own i none :=
  Objects.bind_destroy AnyQuery.stmt hf

/-- A member function makes proper use of the handle. -/
theorem path_of_member (hf : p.objects.find i = some o) {calls : List Call} (n : Handle)
    (hrun : Use.run o.stmt (uses calls) = some o'.stmt) :
    (objects ℕ Handle).Path p.own ((uses calls).map (Use.act i)).reverse
      (Program.own ⟨n, p.objects.put i o'⟩) := by
  rw [own_put hf]
  refine path_of_run ?_
  rw [own_of_find hf, hrun]

/-- Where a query that is prepared again gets a new handle, the objects are simulated by the
    owners of their handles. -/
theorem queries_simulates : (queries.restrict AllocSucceeds).PathSimulates (objects ℕ Handle)
    Program.own QueryEvent.acts where
  init := by
    rintro _ rfl
    rfl
  step := by
    rintro p e p' ⟨hst, halloc⟩
    cases hst with
    | construct G t ps rs sql parRows resRows =>
      rw [own_construct, Function.update_eq_self_iff.2 (own_length p).symm]
      exact .refl _
    | @prepare i o d hf hdb hd =>
      refine path_of_member hf _ ?_
      rw [AnyQuery.stmt, AnyQuery.stmt, o.query.run_prepare, o.query.stmt_prepare]
      cases hs : succeeded d.alloc with
      | true => rfl
      | false =>
        -- It was not prepared, so it has no handle to keep.
        cases hq : o.query.stmt with
        | none => rfl
        | some h =>
          have hprep : o.query.isPrepared := by rw [Query.isPrepared, hq]; rfl
          cases hs.symm.trans (halloc ⟨o, hf, hprep⟩)
    | @execute i o d hf =>
      refine path_of_member hf _ ?_
      rw [AnyQuery.stmt, AnyQuery.stmt, o.query.stmt_execute, (o.query.onlyUses_execute d).run]
    | @fetch i o d hf =>
      refine path_of_member hf _ ?_
      rw [AnyQuery.stmt, AnyQuery.stmt, o.query.stmt_fetch, (o.query.onlyUses_fetch d).run]
    | @reset i o hf => exact path_of_member hf _ (run_free _)
    | @cancel i o d hf => exact path_of_member hf _ (o.query.onlyUses_cancel d).run
    | @write i o par res hf => exact path_of_member hf _ rfl
    | @move i o hf =>
      have hne := Nat.ne_of_lt (Objects.lt_of_find hf)
      have hown : Program.own
          { p with objects := (p.objects.put i ⟨o.query.movedFrom⟩).construct o } =
          Function.update (Function.update p.own p.objects.length (p.own i)) i none := by
        have hput := own_put hf ⟨o.query.movedFrom⟩ p.next
        have hnew := own_construct ⟨p.next, p.objects.put i ⟨o.query.movedFrom⟩⟩ o p.next
        rw [hput, Objects.length_put, Function.update_comm hne, ← own_of_find hf] at hnew
        exact hnew
      rw [hown]
      refine .trans (.step (.refl _) (.handOver hne (own_length p))) ?_
      · -- What the new object then calls leaves it the handle.
        have hj : Function.update (Function.update p.own p.objects.length (p.own i)) i none
            p.objects.length = o.query.stmt := by
          rw [Function.update_of_ne hne.symm, Function.update_self, own_of_find hf]
          rfl
        have hrun : Use.run (Function.update (Function.update p.own p.objects.length (p.own i)) i
            none p.objects.length) (uses o.query.moveCalls) = some o.query.stmt := by
          rw [hj, o.query.onlyUses_moveCalls.run]
        have hpath := path_of_run hrun
        rwa [← hj, Function.update_eq_self] at hpath
    | @destroy i o hf =>
      rw [own_destroy hf]
      refine path_of_run ?_
      rw [own_of_find hf]
      exact run_free _

/-! ## Handles are freed once -/

theorem used_map_act (i : ℕ) (us : List (Use Handle)) :
    (us.map (Use.act i)).filterMap Act.used = us := by
  rw [List.filterMap_map]
  exact (List.filterMap_congr fun u _ => used_act i u).trans List.filterMap_some

/-- What is done to the handles is what the calls do. -/
theorem used_acts (tr : List QueryEvent) :
    (tr.flatMap QueryEvent.acts).filterMap Act.used = (driverCalls tr).filterMap Call.use := by
  induction tr with
  | nil => rfl
  | cons e tr ih =>
    rw [driverCalls, List.flatMap_cons, List.flatMap_cons, List.filterMap_append,
      List.filterMap_append, ih]
    congr 1
    rw [List.filterMap_reverse]
    cases e with
    | construct => rfl
    | call i calls =>
      rw [QueryEvent.acts, List.filterMap_reverse, used_map_act]
      rfl
    | prepare i d calls =>
      rw [QueryEvent.acts, List.filterMap_reverse, used_map_act]
      rfl
    | move i j calls =>
      rw [QueryEvent.acts, List.filterMap_append, List.filterMap_reverse, used_map_act]
      exact List.append_nil _

theorem acquired_acts (tr : List QueryEvent) :
    acquired (tr.flatMap QueryEvent.acts) = allocated tr := by
  rw [acquired_eq, used_acts, chron_filterMap, allocated]
  congr 1
  funext c
  rcases c with (_ | _) | _ | _ | _ | _ | _ | _ | _ | _ | _ | (_ | _) | _ <;> rfl

theorem released_acts (tr : List QueryEvent) :
    released (tr.flatMap QueryEvent.acts) = freed tr := by
  rw [released_eq, used_acts, chron_filterMap, freed]
  congr 1
  funext c
  rcases c with (_ | _) | _ | _ | _ | _ | _ | _ | _ | _ | _ | (_ | _) | _ <;> rfl

/-- What a call is to the handle it passes to the driver. -/
theorem use_of_handle {c : Call} {h : Handle} (hc : c.handle = some h) :
    ∃ u, c.use = some u ∧ u.received = some h := by
  cases c with
  | allocHandle | getDiagRecConn => cases hc
  | getDiagRec r =>
    obtain rfl : r = some h := hc
    exact ⟨_, rfl, rfl⟩
  | _ => exact ⟨_, rfl, hc⟩

/-- The handles that calls return. -/
def allocations (calls : List Call) : List Handle :=
  calls.filterMap fun | .allocHandle h => h | _ => none

theorem allocated_cons (e : QueryEvent) (tr : List QueryEvent) :
    allocated (e :: tr) = allocated tr ++ allocations e.calls := by
  rw [allocated, driverCalls, List.flatMap_cons, chron_append]
  congr 1
  rw [chron, List.filterMap_reverse, List.reverse_reverse]
  rfl

/-- Calls that only use a handle return none. -/
theorem OnlyUses.allocations {stmt : Option Handle} {calls : List Call} (h : OnlyUses stmt calls) :
    Db2.allocations calls = [] := by
  refine List.filterMap_eq_nil_iff.2 fun c hc => ?_
  rcases c with (_ | r) | _ | _ | _ | _ | _ | _ | _ | _ | _ | _ | _
  case allocHandle.some =>
    obtain ⟨_, -, hu⟩ := h (.acquire r) (List.mem_filterMap.2 ⟨_, hc, rfl⟩)
    cases hu
  all_goals rfl

theorem allocations_free (stmt : Option Handle) :
    allocations (stmt.toList.map .freeHandle) = [] := by
  cases stmt <;> rfl

/-- `prepare` returns the new handle, if it could be allocated. -/
theorem allocations_prepare {ps rs : List BufferDscr} (q : Query ps rs) (d : Driver) :
    allocations (q.prepare d).calls = if succeeded d.alloc then [d.handle] else [] := by
  obtain ⟨rest, hrest, hcalls⟩ := q.calls_prepare d
  have honly : OnlyUses (some d.handle) rest :=
    onlyUses_of_forall rfl fun c hc => .inl (hrest c hc)
  have hnil : allocations rest = [] := honly.allocations
  rw [hcalls, allocations, List.filterMap_append, ← allocations, allocations_free,
    List.nil_append]
  split
  · exact congrArg (d.handle :: ·) hnil
  · rfl

/-- No handle is returned twice. -/
theorem nodup_allocated (h : queries.Run tr p) :
    (∀ r ∈ allocated tr, r < p.next) ∧ (allocated tr).Nodup := by
  induction h with
  | init hp =>
    obtain rfl := hp
    exact ⟨fun _ hr => (by cases hr), .nil⟩
  | @step tr p p' e _ hst ih =>
    rw [allocated_cons]
    cases hst with
    | @prepare i o d hf hdb hd =>
      rw [QueryEvent.calls, allocations_prepare]
      cases succeeded d.alloc with
      | false =>
        rw [if_neg (by simp), List.append_nil]
        exact ⟨fun r hr => (ih.1 r hr).trans (Nat.lt_succ_self _), ih.2⟩
      | true =>
        rw [if_pos rfl, hd]
        refine ⟨fun r hr => ?_, List.nodup_append.2 ⟨ih.2, List.pairwise_singleton _ _, ?_⟩⟩
        · rcases List.mem_append.1 hr with hr | hr
          · exact (ih.1 r hr).trans (Nat.lt_succ_self _)
          · rw [List.mem_singleton.1 hr]
            exact Nat.lt_succ_self _
        · intro r hr r' hr'
          rw [List.mem_singleton.1 hr']
          exact Nat.ne_of_lt (ih.1 r hr)
    | construct =>
      rw [QueryEvent.calls, allocations, List.filterMap_nil, List.append_nil]
      exact ih
    | @execute i o d hf =>
      rw [QueryEvent.calls, (o.query.onlyUses_execute d).allocations, List.append_nil]
      exact ih
    | @fetch i o d hf =>
      rw [QueryEvent.calls, (o.query.onlyUses_fetch d).allocations, List.append_nil]
      exact ih
    | @reset i o hf =>
      rw [QueryEvent.calls, Query.reset, allocations_free, List.append_nil]
      exact ih
    | @cancel i o d hf =>
      rw [QueryEvent.calls, (o.query.onlyUses_cancel d).allocations, List.append_nil]
      exact ih
    | write =>
      rw [QueryEvent.calls, allocations, List.filterMap_nil, List.append_nil]
      exact ih
    | @move i o hf =>
      rw [QueryEvent.calls, o.query.onlyUses_moveCalls.allocations, List.append_nil]
      exact ih
    | @destroy i o hf =>
      rw [QueryEvent.calls, Query.destroyCalls, allocations_free, List.append_nil]
      exact ih

/-- **Every handle is freed once**: where a query that is prepared again gets a new handle, no call
    passes a handle to the driver that was freed before; a handle that was returned was freed once,
    and no object has it, or it was not, and one object has it; and no other handle was freed. -/
theorem freed_once (h : (queries.restrict AllocSucceeds).Run tr p) :
    (∀ post c pre r, driverCalls tr = post ++ c :: pre → c.handle = some r →
      .freeHandle r ∉ pre) ∧
    (∀ r ∈ allocated tr, (freed tr).count r = 1 ∧ (∀ i, p.own i ≠ some r) ∨
      (freed tr).count r = 0 ∧ ∃! i, p.own i = some r) ∧
    ∀ r ∈ freed tr, r ∈ allocated tr := by
  have hrun := queries_simulates.run h
  -- A handle is one allocation, so that the general facts about owned resources apply.
  have hnew : (acquired (tr.flatMap QueryEvent.acts)).Nodup := by
    rw [acquired_acts]
    exact (nodup_allocated h.of_restrict).2
  have hb := balanced hrun hnew
  refine ⟨fun post c pre r hsplit hc hfree => ?_, fun r hr => ?_, fun r hr => ?_⟩
  · obtain ⟨u, hu, hrec⟩ := use_of_handle hc
    have hsplit' := used_acts tr
    rw [hsplit, List.filterMap_append, List.filterMap_cons_some hu] at hsplit'
    exact not_released_before hrun hnew hsplit' hrec (List.mem_filterMap.2 ⟨_, hfree, rfl⟩)
  · rw [← acquired_acts] at hr
    rw [← released_acts]
    by_cases hrel : r ∈ released (tr.flatMap QueryEvent.acts)
    · exact .inl ⟨List.count_eq_one_of_mem hb.once hrel, fun i hi => (hb.held i r hi).2 hrel⟩
    · obtain hrel' | ⟨i, hi⟩ := hb.settled r hr
      · exact absurd hrel' hrel
      · exact .inr ⟨List.count_eq_zero_of_not_mem hrel, i, hi, fun j hj => hb.unique j i r hj hi⟩
  · rw [← released_acts] at hr
    rw [← acquired_acts]
    exact hb.acquired_of_released r hr

/-- A query that is executed, prepared again, moved and destroyed, while driver calls fail. -/
theorem restless_run : ∃ tr p, (queries.restrict AllocSucceeds).Run tr p ∧
    allocated tr = [0, 1] ∧ freed tr = [0, 1] := by
  have h := Lts.Run.step (A := queries.restrict AllocSucceeds) (.init rfl)
    ⟨.construct _ .exact 1 [] [] "commit" 1 1, trivial⟩
  have h := h.step ⟨.prepare (i := 0) {} rfl rfl rfl, fun _ => rfl⟩
  have h := h.step ⟨.execute (i := 0) { execute := sqlError } rfl, trivial⟩
  have h := h.step
    ⟨.prepare (i := 0) { handle := 1, prepare := sqlError } rfl rfl rfl, fun _ => rfl⟩
  have h := h.step ⟨.move (i := 0) rfl, trivial⟩
  have h := h.step ⟨.destroy (i := 0) rfl, trivial⟩
  have h := h.step ⟨.destroy (i := 1) rfl, trivial⟩
  exact ⟨_, _, h, rfl, rfl⟩

/-- Each of its handles is freed once. -/
theorem freed_once_restless : ∃ tr p, (queries.restrict AllocSucceeds).Run tr p ∧
    (∀ r ∈ freed tr, r ∈ allocated tr) ∧
    ∀ r ∈ [0, 1], (freed tr).count r = 1 ∧ ∀ i, p.own i ≠ some r := by
  obtain ⟨tr, p, hrun, halloc, hfreed⟩ := restless_run
  obtain ⟨-, honce, hmem⟩ := freed_once hrun
  refine ⟨tr, p, hrun, hmem, fun r hr => ?_⟩
  obtain h | ⟨h, -⟩ := honce r (halloc ▸ hr)
  · exact h
  · rw [hfreed, List.count_eq_zero] at h
    exact absurd hr h

/-- A query that is prepared again and gets no new handle keeps the one it has freed. -/
theorem freed_kept (hst : queries.step p e p') (hfail : ¬AllocSucceeds p e) :
    ∃ i o r, p'.objects.find i = some o ∧ o.stmt = some r ∧ .freeHandle r ∈ e.calls := by
  cases hst with
  | @prepare i o d hf hdb hd =>
    rw [AllocSucceeds, Classical.not_imp] at hfail
    obtain ⟨⟨o', hf', hprep⟩, hs⟩ := hfail
    obtain rfl := Option.some.inj (hf.symm.trans hf')
    obtain ⟨r, hr⟩ := Option.isSome_iff_exists.1 hprep
    refine ⟨i, ⟨(o.query.prepare d).query⟩, r, ?_, ?_, ?_⟩
    · rw [Objects.find_put hf, if_pos rfl]
    · rw [AnyQuery.stmt, o.query.stmt_prepare, if_neg hs, hr]
    · obtain ⟨rest, -, hcalls⟩ := o.query.calls_prepare d
      rw [QueryEvent.calls, hcalls, hr]
      exact List.mem_append_left _ List.mem_cons_self
  | _ => exact absurd trivial hfail

/-- It is then freed a second time by the destructor. -/
theorem freed_twice : ∃ tr p, queries.Run tr p ∧ (∀ i, p.objects.find i = none) ∧
    (freed tr).count 0 = 2 := by
  have h := Lts.Run.step (A := queries) (.init rfl) (.construct _ .exact 1 [] [] "commit" 1 1)
  have h := h.step (.prepare (i := 0) {} rfl rfl rfl)
  have h := h.step (.prepare (i := 0) { alloc := sqlError, handle := 1 } rfl rfl rfl)
  have h := h.step (.destroy (i := 0) rfl)
  refine ⟨_, _, h, fun i => ?_, rfl⟩
  rcases i with _ | i <;> rfl

end Dbgen4.Db2
