import Dbgen4.Async.Refinement

/-!
# The asynchronous facade: the sequential program

A program that waits for each of its calls has one outcome (`sequential`). The
program that does not wait has it too (`agrees`): if no statement of the
sequential program fails, every schedule leaves the store of the sequential
program and returns its results, and if one fails, it is the error of that
statement that is recorded, whichever statements have been queued behind it.

The reference is deterministic as long as nothing fails (`follows`), and the
facade refines it.
-/

namespace Dbgen4.Async

open Rtl

variable {B : Backend}

/-- What the caller does. -/
inductive Input
  | call (op : Op)
  | write (i : Nat) (par : ParamBuffer)

/-- What the caller does in a step. -/
def Event.input : Event → Option Input
  | .call op _ => some (.call op)
  | .write i par => some (.write i par)
  | _ => none

/-- What a call returns in a step. -/
def Event.returned : Event → Option Result
  | .ret r => some r
  | _ => none

/-- The error recorded in a step. -/
def Event.recorded : Event → Option DbError
  | .record e => some e
  | _ => none

/-- An input to the synchronous connection: the store it leaves, and the result added to those
    there are. -/
def Store.input : Store B × List Result → Input → Except Stop (Store B × List Result)
  | (σ, rs), .call op =>
    (Store.call { σ with frame := {} } op).map fun p => (p.1, rs ++ [p.2])
  | (σ, rs), .write i par =>
    .ok ({ σ with callers := σ.callers.modify i ({ · with par := par }) }, rs)

/-- The inputs one after the other, until a statement fails. -/
def sequential (db : B.Db) (inputs : List Input) : Except Stop (Store B × List Result) :=
  inputs.foldlM Store.input ({ db := db }, [])

theorem sequential_append (db : B.Db) (inputs : List Input) (i : Input) :
    sequential db (inputs ++ [i]) = sequential db inputs >>= fun p => Store.input p i := by
  rw [sequential, List.foldlM_append]
  congr 1
  funext p
  exact bind_pure _

/-- Where the reference is by what the sequential program makes of its inputs. -/
inductive Follows (db : B.Db) (tr : List Event) : Reference B → Prop
  | idle {σ : Store B} {rs : List Result} : sequential db (chron Event.input tr) = .ok (σ, rs) →
    chron Event.recorded tr = [] → chron Event.returned tr = rs → Follows db tr (.good σ none)
  | returning {σ : Store B} {rs : List Result} {r : Result} :
    sequential db (chron Event.input tr) = .ok (σ, rs ++ [r]) →
    chron Event.recorded tr = [] → chron Event.returned tr = rs → Follows db tr (.good σ (some r))
  | failed {err : DbError} : sequential db (chron Event.input tr) = .error (.failed err) →
    chron Event.recorded tr = [] → Follows db tr (.failed err false)
  | recorded {err : DbError} {R : Reference B} :
    sequential db (chron Event.input tr) = .error (.failed err) →
    (chron Event.recorded tr).head? = some err → Follows db tr R
  | undefined {R : Reference B} : sequential db (chron Event.input tr) = .error .undefined →
    Follows db tr R

variable {db : B.Db} {tr : List Event} {R R' : Reference B} {l : Event}

/-- The sequential program does not go on after a failure. -/
theorem sequential_cons_error {stop : Stop}
    (h : sequential db (chron Event.input tr) = .error stop) (l : Event) :
    sequential db (chron Event.input (l :: tr)) = .error stop := by
  rw [chron_cons]
  cases l.input with
  | none => rwa [Option.toList_none, List.append_nil]
  | some i =>
    rw [Option.toList_some, sequential_append, h]
    rfl

theorem head_recorded_cons {err : DbError} (h : (chron Event.recorded tr).head? = some err)
    (l : Event) : (chron Event.recorded (l :: tr)).head? = some err := by
  rw [chron_cons, List.head?_append, h]
  rfl

/-- What counts of a trace are the inputs, the errors recorded and the results. -/
theorem Follows.congr {tr' : List Event} (h : Follows db tr R)
    (hin : chron Event.input tr' = chron Event.input tr)
    (hrec : chron Event.recorded tr' = chron Event.recorded tr)
    (hret : chron Event.returned tr' = chron Event.returned tr) : Follows db tr' R := by
  cases h with
  | idle hs hrc hrs => exact .idle (hin ▸ hs) (hrec ▸ hrc) (hret ▸ hrs)
  | returning hs hrc hrs => exact .returning (hin ▸ hs) (hrec ▸ hrc) (hret ▸ hrs)
  | failed hs hrc => exact .failed (hin ▸ hs) (hrec ▸ hrc)
  | recorded hs hrc => exact .recorded (hin ▸ hs) (hrec ▸ hrc)
  | undefined hs => exact .undefined (hin ▸ hs)

/-- A step of which the sequential program knows nothing. -/
theorem Follows.quiet (h : Follows db tr R) (hi : l.input = none) (hr : l.recorded = none)
    (hret : l.returned = none) : Follows db (l :: tr) R :=
  h.congr (chron_cons_none hi tr) (chron_cons_none hr tr) (chron_cons_none hret tr)

/-- After a failure that is not recorded yet, nothing but the record counts. -/
theorem Follows.fail {err : DbError} {b : Bool} (h : Follows db tr (.failed err b))
    (hr : l.recorded = none) : Follows db (l :: tr) (.failed err b) := by
  have hrec : chron Event.recorded (l :: tr) = chron Event.recorded tr := chron_cons_none hr tr
  cases h with
  | failed hs hrc => exact .failed (sequential_cons_error hs l) (hrec ▸ hrc)
  | recorded hs hrc => exact .recorded (sequential_cons_error hs l) (head_recorded_cons hrc l)
  | undefined hs => exact .undefined (sequential_cons_error hs l)

/-- The program goes on the same way whatever comes after its failure. -/
theorem Follows.late (h : Follows db tr R) (hgood : ∀ σ r, R ≠ .good σ r)
    (hfailed : ∀ err, R ≠ .failed err false) (l : Event) (R' : Reference B) :
    Follows db (l :: tr) R' := by
  cases h with
  | idle => exact absurd rfl (hgood _ _)
  | returning => exact absurd rfl (hgood _ _)
  | failed => exact absurd rfl (hfailed _)
  | recorded hs hrc => exact .recorded (sequential_cons_error hs l) (head_recorded_cons hrc l)
  | undefined hs => exact .undefined (sequential_cons_error hs l)

/-- An input, while nothing has failed. -/
theorem Follows.input {σ : Store B} {i : Input} (h : Follows db tr (.good σ none))
    (hi : l.input = some i) (hr : l.recorded = none) (hret : l.returned = none)
    (hR : ∀ rs, match Store.input (σ, rs) i with
      | .ok (σ', rs') =>
        rs' = rs ∧ R' = .good σ' none ∨ ∃ r, rs' = rs ++ [r] ∧ R' = .good σ' (some r)
      | .error (.failed err) => R' = .failed err false
      | .error .undefined => True) : Follows db (l :: tr) R' := by
  have hrec : chron Event.recorded (l :: tr) = chron Event.recorded tr := chron_cons_none hr tr
  have hres : chron Event.returned (l :: tr) = chron Event.returned tr := chron_cons_none hret tr
  cases h with
  | @idle _ rs hs hrc hrs =>
    have hs' : sequential db (chron Event.input (l :: tr)) = Store.input (σ, rs) i := by
      rw [chron_cons, hi, Option.toList_some, sequential_append, hs]
      rfl
    specialize hR rs
    split at hR
    · rename_i σ' rs' heq
      rw [heq] at hs'
      rcases hR with ⟨rfl, rfl⟩ | ⟨r, rfl, rfl⟩
      · exact .idle hs' (hrec ▸ hrc) (hres ▸ hrs)
      · exact .returning hs' (hrec ▸ hrc) (hres ▸ hrs)
    · rename_i err heq
      rw [heq] at hs'
      exact hR ▸ .failed hs' (hrec ▸ hrc)
    · rename_i heq
      rw [heq] at hs'
      exact .undefined hs'
  | recorded hs hrc => exact .recorded (sequential_cons_error hs l) (head_recorded_cons hrc l)
  | undefined hs => exact .undefined (sequential_cons_error hs l)

theorem Follows.step (h : Follows db tr R) (hst : ReferenceStep R l R') :
    Follows db (l :: tr) R' := by
  cases hst with
  | @call σ op =>
    refine h.input rfl rfl rfl fun rs => ?_
    rw [Store.input]
    rcases Store.call { σ with frame := {} } op with (err | _) | ⟨σ', r⟩
    · exact rfl
    · trivial
    · exact .inr ⟨r, rfl, rfl⟩
  | write => exact h.input rfl rfl rfl fun rs => .inl ⟨rfl, rfl⟩
  | @ret σ r =>
    cases h with
    | @returning _ rs _ hs hrc hrs =>
      have hin : chron Event.input (.ret r :: tr) = chron Event.input tr := chron_cons_none rfl tr
      have hrec : chron Event.recorded (.ret r :: tr) = chron Event.recorded tr :=
        chron_cons_none rfl tr
      refine .idle (hin ▸ hs) (hrec ▸ hrc) ?_
      rw [chron_cons, hrs]
      rfl
    | recorded hs hrc => exact .recorded (sequential_cons_error hs _) (head_recorded_cons hrc _)
    | undefined hs => exact .undefined (sequential_cons_error hs _)
  | error | isFinished | clear => exact h.quiet rfl rfl rfl
  | failedCall | failedRet | failedWrite | failedError | failedIsFinished => exact h.fail rfl
  | @record err =>
    cases h with
    | failed hs hrc =>
      refine .recorded (sequential_cons_error hs _) ?_
      rw [chron_cons, hrc]
      rfl
    | recorded hs hrc => exact .recorded (sequential_cons_error hs _) (head_recorded_cons hrc _)
    | undefined hs => exact .undefined (sequential_cons_error hs _)
  | rolledBack _ => exact h.late (fun _ _ h => by cases h) (fun _ h => by cases h) _ _
  | undefined => exact h.late (fun _ _ h => by cases h) (fun _ h => by cases h) _ _

/-- The reference follows the sequential program. -/
theorem follows (h : (reference B).Path (.good { db := db } none) tr R) : Follows db tr R := by
  refine h.invariant (I := Follows db) (.idle rfl rfl rfl) ?_
  intro tr R l R' _ hf hst
  exact hf.step hst

/-! ## Every schedule -/

theorem chron_visible {α : Type} {f : Event → Option α} (hf : ∀ e, e.visible.bind f = f e)
    (tr : List Event) : chron f (tr.filterMap Event.visible) = chron f tr := by
  rw [chron_filterMap, funext hf]

/-- A run agrees with the sequential program on what the caller has done so far. -/
structure Agrees (db : B.Db) (tr : List Event) (s : State B) : Prop where
  /-- If no statement of it fails, none is recorded and its results are returned, ... -/
  results : ∀ σ rs, sequential db (chron Event.input tr) = .ok (σ, rs) →
    chron Event.recorded tr = [] ∧ chron Event.returned tr <+: rs
  /-- ... all of them, and its store is left, once the caller has drained the queue. -/
  store : ∀ σ rs, sequential db (chron Event.input tr) = .ok (σ, rs) → s.client = .idle →
    s.Drained → s.store = σ ∧ chron Event.returned tr = rs
  /-- If a statement of it fails, no other error is recorded first, ... -/
  error : ∀ err, sequential db (chron Event.input tr) = .error (.failed err) →
    ∀ err' ∈ (chron Event.recorded tr).head?, err' = err
  /-- ... and this one is, once the caller has drained the queue. -/
  recorded : ∀ err, sequential db (chron Event.input tr) = .error (.failed err) →
    s.client = .idle → s.Drained → (chron Event.recorded tr).head? = some err

/-- Every schedule agrees with the sequential program. -/
theorem agrees {s : State B} (h : (asyncDb B).Path { db := db } tr s) : Agrees db tr s := by
  have hinit : (asyncDb B).Run [] { db := db } := .init ⟨db, rfl⟩
  have hrun : (asyncDb B).Run (tr ++ []) s := hinit.append h
  have hf : Follows db tr s.abstract :=
    (follows (simulates_reference.path (h.reached ⟨[], hinit⟩))).congr
      (chron_visible (fun e => by cases e <;> rfl) tr).symm
      (chron_visible (fun e => by cases e <;> rfl) tr).symm
      (chron_visible (fun e => by cases e <;> rfl) tr).symm
  -- Once the queue is drained, the reference is where the facade is.
  have hidle (hc : s.client = .idle) (hd : s.Drained) :
      s.abstract = .good s.store none ∨ ∃ err, s.abstract = .failed err true := by
    cases he : s.error with
    | some err => exact .inr ⟨err, abstract_of_error he⟩
    | none =>
      rw [abstract_of_none he, settled_of_slot (slot_of_drained hrun hd) he, hc]
      exact .inl rfl
  generalize s.abstract = R at hf hidle
  refine ⟨fun σ rs hs => ?_, fun σ rs hs hc hd => ?_, fun err hs err' herr => ?_,
    fun err hs hc hd => ?_⟩
  · cases hf with
    | idle hs' hrc hrs =>
      cases hs'.symm.trans hs
      exact ⟨hrc, hrs ▸ List.prefix_refl _⟩
    | returning hs' hrc hrs =>
      cases hs'.symm.trans hs
      exact ⟨hrc, hrs ▸ List.prefix_append _ _⟩
    | failed hs' | recorded hs' | undefined hs' => cases hs'.symm.trans hs
  · rcases hidle hc hd with rfl | ⟨err, rfl⟩
    · cases hf with
      | idle hs' hrc hrs =>
        cases hs'.symm.trans hs
        exact ⟨rfl, hrs⟩
      | recorded hs' | undefined hs' => cases hs'.symm.trans hs
    · cases hf with
      | recorded hs' | undefined hs' => cases hs'.symm.trans hs
  · cases hf with
    | failed hs' hrc =>
      rw [hrc] at herr
      cases herr
    | recorded hs' hrc =>
      cases hs'.symm.trans hs
      rw [hrc] at herr
      exact (Option.some.inj herr).symm
    | idle hs' | returning hs' | undefined hs' => cases hs'.symm.trans hs
  · rcases hidle hc hd with rfl | ⟨err', rfl⟩
    · cases hf with
      | recorded hs' hrc =>
        cases hs'.symm.trans hs
        exact hrc
      | idle hs' | undefined hs' => cases hs'.symm.trans hs
    · cases hf with
      | recorded hs' hrc =>
        cases hs'.symm.trans hs
        exact hrc
      | undefined hs' => cases hs'.symm.trans hs

/-- The run in which a second row is queued before the failure of the first is stored. -/
def queuedRun : List Event × State scripted :=
  (run (fun _ _ => True) (prepareInsert ++ [.call (.submit ⟨some 0⟩), .client, .client, .client,
    .worker, .worker, .worker, .worker, .call (.submit ⟨some 0⟩), .client, .client, .client,
    .worker, .worker, .worker, .worker, .worker, .worker, .worker, .worker, .worker, .worker])
    ([], { db := [false, true] })).get (by decide)

/-- The sequential program fails with the first row, and this is the error recorded. -/
theorem agrees_queued : Agrees (B := scripted) [false, true] queuedRun.1 queuedRun.2 ∧
    (∃ err, sequential (B := scripted) [false, true] (chron Event.input queuedRun.1) =
      .error (.failed err) ∧ (chron Event.recorded queuedRun.1).head? = some err) :=
  ⟨agrees (run_path (x := queuedRun) (Option.some_get _).symm).of_restrict, scriptedError, rfl, rfl⟩

end Dbgen4.Async
