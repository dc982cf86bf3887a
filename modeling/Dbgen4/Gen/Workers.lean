import Mathlib.Algebra.BigOperators.Group.Finset.Basic
import Dbgen4.Gen.Schedule

/-!
# Every file is processed once

The workers of the generator share the files as the workers of a `WorkQueue` share its
tasks (`appl_simulates`). From this, and from what each worker has gone through when it
is at a certain place (`Pc.Been`) and has done with the file that it has in hand (`Pc.Stage`),
it follows that a run that has finished with at least one worker connected has taken, loaded
and reported every file exactly once and reports the first error that was recorded, if any
(`everyFileOnce`).
-/

namespace Dbgen4.Gen

open Rtl

variable {σ : Type} {p : Params σ} {s s' : State σ} {tr : List (ℕ × Act)} {w v : ℕ} {a : Act}

/-! ## What a step leaves alone -/

namespace State

@[simp] theorem nextFileIdx_set (wk : Worker σ) : (s.set w wk).nextFileIdx = s.nextFileIdx := rfl

@[simp] theorem firstError_set (wk : Worker σ) : (s.set w wk).firstError = s.firstError := rfl

@[simp] theorem folder_set (wk : Worker σ) : (s.set w wk).folder = s.folder := rfl

@[simp] theorem workers_set_self (wk : Worker σ) : (s.set w wk).workers w = wk :=
  Function.update_self ..

@[simp] theorem workers_set_of_ne (wk : Worker σ) (h : v ≠ w) :
    (s.set w wk).workers v = s.workers v :=
  Function.update_of_ne h ..

/-- Recording an error changes nothing else. -/
theorem record_eq (e : ExitStatus) :
    s.record e = { s with firstError := (s.record e).firstError } := by
  unfold record
  split <;> rfl

theorem report_eq (res : Except ExitStatus Unit) :
    s.report res = { s with firstError := (s.report res).firstError } := by
  cases res with
  | error e => exact record_eq e
  | ok u => rfl

/-- Neither do opening and writing a file, but for the folder. -/
theorem openFile_eq (fn : List Char) (good : Bool) :
    s.openFile fn good = { s with folder := (s.openFile fn good).folder } := by
  unfold openFile
  split <;> rfl

theorem writeFile_eq (fn : List Char) (good : Bool) (text : List Char) :
    s.writeFile fn good text = { s with folder := (s.writeFile fn good text).folder } := by
  unfold writeFile
  split <;> rfl

end State

/-- A step is one of one worker. -/
theorem Step.workers_of_ne (h : Step p s w a s') (hv : v ≠ w) : s'.workers v = s.workers v := by
  cases h with
  | refuse => rw [State.workers_set_of_ne _ hv, State.record_eq]
  | report => rw [State.workers_set_of_ne _ hv, State.report_eq]
  | openFile => rw [State.workers_set_of_ne _ hv, State.openFile_eq]
  | write => rw [State.workers_set_of_ne _ hv, State.writeFile_eq]
  | noFolder | renderThrows => rfl
  | _ => exact State.workers_set_of_ne _ hv

theorem Step.nextFileIdx_le (h : Step p s w a s') : s.nextFileIdx ≤ s'.nextFileIdx := by
  cases h with
  | fetch => exact Nat.le_succ _
  | refuse => rw [State.nextFileIdx_set, State.record_eq]
  | report => rw [State.nextFileIdx_set, State.report_eq]
  | openFile => rw [State.nextFileIdx_set, State.openFile_eq]
  | write => rw [State.nextFileIdx_set, State.writeFile_eq]
  | _ => exact Nat.le_refl _

/-! ## The queue -/

/-- The file that a worker has in hand. -/
def Pc.hand : Pc → Option ℕ
  | .parsing idx | .loading idx _ | .generating idx _ | .rendering idx _ _ _
  | .opened idx _ _ _ _ _ | .returned idx _ => some idx
  | _ => none

/-- The files as the tasks of a queue. -/
def State.queue (s : State σ) : WorkQueue.State ℕ :=
  ⟨s.nextFileIdx, fun w => (s.workers w).pc.hand⟩

/-- A step, as one of the queue. -/
def queueAct (m : ℕ) : ℕ × Act → Option (WorkQueue.Act ℕ)
  | (w, .fetch idx) => some (if idx < m then .take w idx else .leave w)
  | (w, .report idx _) => some (.finish w idx)
  | _ => none

theorem State.queue_set (wk : Worker σ) :
    (s.set w wk).queue = ⟨s.nextFileIdx, Function.update s.queue.hand w wk.pc.hand⟩ := by
  refine congrArg (WorkQueue.State.mk _) (funext fun v => ?_)
  by_cases hv : v = w
  · subst hv
    rw [Function.update_self, workers_set_self]
  · rw [Function.update_of_ne hv, workers_set_of_ne _ hv]
    rfl

/-- A step that leaves the worker's hand alone is none of the queue. -/
theorem State.queue_set_eq {wk : Worker σ} (h : wk.pc.hand = (s.workers w).pc.hand) :
    (s.set w wk).queue = s.queue := by
  rw [queue_set, h]
  exact congrArg (WorkQueue.State.mk _) (Function.update_eq_self _ _)

theorem hand_parsed (idx : ℕ) : (p.parsed idx).hand = some idx := by
  unfold Params.parsed
  split <;> rfl

theorem hand_loaded (idx : ℕ) (res : Except ExitStatus DataStatements) :
    (loaded idx res).hand = some idx := by
  cases res <;> rfl

theorem hand_written (idx : ℕ) (stmts : DataStatements) (stamp : String) (tpl : Tpl) :
    (written idx stmts stamp tpl).hand = some idx := by
  cases tpl <;> rfl

/-- The workers share the files as those of a queue share its tasks. -/
theorem appl_simulates (p : Params σ) : (appl p).Simulates (WorkQueue.queue ℕ p.files.length)
    State.queue (queueAct p.files.length) where
  init s h := by
    obtain ⟨hidx, -, -, hpc⟩ := h
    show s.queue = ⟨0, fun _ => none⟩
    rw [State.queue, hidx]
    exact congrArg (WorkQueue.State.mk 0) (funext fun w => by rw [(hpc w).1]; rfl)
  step s l s' m hst hact := by
    obtain ⟨w, a⟩ := l
    obtain ⟨-, hst⟩ := hst
    cases hst with
    | fetch hpc =>
      cases Option.some.inj hact
      have hfree : s.queue.hand w = none := congrArg Pc.hand hpc
      split
      · rename_i hlt
        rw [State.queue_set]
        exact .take w hfree hlt
      · rename_i hge
        rw [State.queue_set]
        have hsame : Function.update s.queue.hand w none = s.queue.hand := by
          rw [← hfree, Function.update_eq_self]
        show WorkQueue.Step _ s.queue _ ⟨_, Function.update s.queue.hand w none⟩
        rw [hsame]
        exact .leave w (Nat.le_of_not_lt hge)
    | @report idx res hpc =>
      cases Option.some.inj hact
      have hhand : s.queue.hand w = some idx := congrArg Pc.hand hpc
      rw [State.queue_set, State.report_eq]
      exact .finish w idx hhand
    | _ => cases hact
  stutter s l s' hst hact := by
    obtain ⟨w, a⟩ := l
    obtain ⟨-, hst⟩ := hst
    cases hst with
    | connect hw hpc sts db =>
      refine State.queue_set_eq ?_
      rw [hpc]
      split <;> rfl
    | refuse hpc =>
      rw [State.record_eq]
      exact State.queue_set_eq (congrArg Pc.hand hpc).symm
    | parse hpc => exact State.queue_set_eq ((hand_parsed _).trans (congrArg Pc.hand hpc).symm)
    | load hpc hload =>
      exact State.queue_set_eq ((hand_loaded _ _).trans (congrArg Pc.hand hpc).symm)
    | openFile hpc hrender good =>
      rw [State.openFile_eq]
      exact State.queue_set_eq (congrArg Pc.hand hpc).symm
    | write hpc n =>
      rw [State.writeFile_eq]
      exact State.queue_set_eq ((hand_written _ _ _ _).trans (congrArg Pc.hand hpc).symm)
    | generate hpc | renderError hpc | count hpc | finish hpc =>
      exact State.queue_set_eq (congrArg Pc.hand hpc).symm
    | noFolder | renderThrows => rfl
    | fetch | report => cases hact

/-! ## The stages of a file -/

/-- The file that a worker takes, loads or reports. -/
def Act.file : Act → Option ℕ
  | .fetch idx | .load idx _ | .report idx _ => some idx
  | _ => none

/-- What has been done with a file, and by whom, in chronological order. -/
def history (tr : List (ℕ × Act)) (idx : ℕ) : List (ℕ × Act) :=
  (tr.filter fun l => l.2.file = some idx).reverse

/-- What a worker does with a file: it takes it, loads what the parser makes of it, unless the
    parser rejects it, and reports what has come of it, each once. -/
inductive Processed (p : Params σ) (w idx : ℕ) : List (ℕ × Act) → Prop
  | rejected {e : ExitStatus} (hparse : parseYamlFile p.loader (p.file idx) p.dbType = .error e) :
    Processed p w idx [(w, .fetch idx), (w, .report idx (.error e))]
  | notLoaded {stmts : DataStatements} {db : σ} {e : ExitStatus}
    (hparse : parseYamlFile p.loader (p.file idx) p.dbType = .ok stmts)
    (hload : (p.db.loadFileMetaData stmts p.maxFieldLen db).1 = .error e) :
    Processed p w idx
      [(w, .fetch idx), (w, .load idx (.error e)), (w, .report idx (.error e))]
  | loaded {stmts stmts' : DataStatements} {db : σ}
    (hparse : parseYamlFile p.loader (p.file idx) p.dbType = .ok stmts)
    (hload : (p.db.loadFileMetaData stmts p.maxFieldLen db).1 = .ok stmts')
    (res : Except ExitStatus Unit) :
    Processed p w idx [(w, .fetch idx), (w, .load idx (.ok stmts')), (w, .report idx res)]

/-- One worker does all of it. -/
theorem Processed.unique {idx : ℕ} {hist : List (ℕ × Act)} (h : Processed p w idx hist)
    (h' : Processed p v idx hist) : v = w := by
  cases h <;> cases h' <;> rfl

/-- What has been done with the file that a worker has in hand. -/
def Pc.Stage (p : Params σ) (w : ℕ) (hist : ℕ → List (ℕ × Act)) : Pc → Prop
  | .parsing idx => hist idx = [(w, .fetch idx)]
  | .loading idx stmts =>
    hist idx = [(w, .fetch idx)] ∧ parseYamlFile p.loader (p.file idx) p.dbType = .ok stmts
  | .generating idx _ | .rendering idx _ _ _ | .opened idx _ _ _ _ _ =>
    ∀ res, Processed p w idx (hist idx ++ [(w, .report idx res)])
  | .returned idx res => Processed p w idx (hist idx ++ [(w, .report idx res)])
  | _ => True

theorem Pc.Stage.congr {hist hist' : ℕ → List (ℕ × Act)} {pc : Pc} (h : pc.Stage p w hist)
    (heq : ∀ idx, pc.hand = some idx → hist' idx = hist idx) : pc.Stage p w hist' := by
  cases pc with
  | parsing idx => exact (heq idx rfl).trans h
  | loading idx stmts => exact ⟨(heq idx rfl).trans h.1, h.2⟩
  | generating idx | rendering idx | opened idx =>
    intro res
    rw [heq idx rfl]
    exact h res
  | returned idx res =>
    rw [Stage, heq idx rfl]
    exact h
  | _ => trivial

theorem history_cons_self {idx : ℕ} (h : a.file = some idx) :
    history ((w, a) :: tr) idx = history tr idx ++ [(w, a)] := by
  simp [history, h]

theorem history_cons_of_ne {idx : ℕ} (h : a.file ≠ some idx) :
    history ((w, a) :: tr) idx = history tr idx := by
  simp [history, h]

theorem history_cons_of_none (h : a.file = none) : history ((w, a) :: tr) = history tr :=
  funext fun idx => history_cons_of_ne (h ▸ (Option.some_ne_none idx).symm)

/-- A worker does something with the file that it takes, or with the one that it has in hand. -/
theorem Step.file_eq (h : Step p s w a s') {idx : ℕ} (hfile : a.file = some idx) :
    idx = s.nextFileIdx ∧ s'.nextFileIdx = s.nextFileIdx + 1 ∨ s.queue.hand w = some idx := by
  cases h with
  | fetch => exact .inl ⟨(Option.some.inj hfile).symm, rfl⟩
  | load hpc => exact .inr ((congrArg Pc.hand hpc).trans hfile)
  | report hpc => exact .inr ((congrArg Pc.hand hpc).trans hfile)
  | _ => cases hfile

theorem stage_parsed {hist : ℕ → List (ℕ × Act)} {idx : ℕ} (h : hist idx = [(w, .fetch idx)]) :
    (p.parsed idx).Stage p w hist := by
  unfold Params.parsed
  split
  · rename_i e he
    rw [Pc.Stage, h]
    exact .rejected he
  · exact ⟨h, ‹_›⟩

/-- The step of the worker itself; the next file has not been taken before. -/
theorem Step.stage (h : Step p s w a s') (hnext : history tr s.nextFileIdx = [])
    (hb : (s.workers w).pc.Stage p w (history tr)) :
    (s'.workers w).pc.Stage p w (history ((w, a) :: tr)) := by
  cases h with
  | connect =>
    rw [State.workers_set_self]
    dsimp only
    split <;> trivial
  | fetch hpc =>
    rw [State.workers_set_self]
    dsimp only
    split
    · rw [Pc.Stage, history_cons_self rfl, hnext, List.nil_append]
    · trivial
  | parse hpc =>
    rw [hpc] at hb
    rw [State.workers_set_self]
    rw [history_cons_of_none rfl]
    exact stage_parsed hb
  | @load idx stmts res calls db hpc hload =>
    rw [hpc] at hb
    rw [State.workers_set_self]
    obtain ⟨hfetch, hparse⟩ := hb
    have hload := congrArg Prod.fst hload
    have hhist : history ((w, .load idx res) :: tr) idx =
        [(w, .fetch idx), (w, .load idx res)] := by
      rw [history_cons_self rfl, hfetch, List.singleton_append]
    cases res with
    | error e =>
      rw [loaded, Pc.Stage, hhist]
      exact .notLoaded hparse hload
    | ok stmts' =>
      intro res
      rw [hhist]
      exact .loaded hparse hload res
  | generate hpc | openFile hpc =>
    rw [hpc] at hb
    rw [State.workers_set_self, history_cons_of_none rfl]
    exact hb
  | renderError hpc =>
    rw [hpc] at hb
    rw [State.workers_set_self, history_cons_of_none rfl]
    exact hb _
  | noFolder | renderThrows =>
    rw [history_cons_of_none rfl]
    exact hb
  | @write idx stmts stamp tpl text good hpc n =>
    rw [hpc] at hb
    rw [State.workers_set_self, history_cons_of_none rfl]
    cases tpl with
    | hpp => exact hb
    | cpp => exact hb _
  | refuse | report | count | finish =>
    rw [State.workers_set_self]
    trivial

/-! ## What a worker has gone through -/

/-- What came of the connection of a worker. -/
def connectOf (w : ℕ) : ℕ × Act → Option DbSts
  | (v, .connect sts) => if v = w then some sts else none
  | _ => none

/-- The worker has tried to connect, once. -/
def Tried (tr : List (ℕ × Act)) (w : ℕ) (ok : Bool) : Prop :=
  ∃ sts : DbSts, chron (connectOf w) tr = [sts] ∧ sts.isSuccess = ok

/-- It is connected. -/
structure Connected (tr : List (ℕ × Act)) (w : ℕ) : Prop where
  tried : Tried tr w true
  notMem : (w, Act.refuse) ∉ tr

/-- What a worker at a place has gone through, with the cursor where it is and `m` files. -/
def Pc.Been (m : ℕ) (tr : List (ℕ × Act)) (cursor w : ℕ) : Pc → Prop
  | .starting => chron (connectOf w) tr = [] ∧ (w, Act.refuse) ∉ tr
  | .refused => Tried tr w false ∧ (w, Act.refuse) ∉ tr
  | .returned _ (.error e) => Connected tr w ∧ e ≠ .ok
  | .finishing => Connected tr w ∧ m ≤ cursor
  | .finished => Connected tr w ∧ m ≤ cursor ∨ Tried tr w false ∧ (w, Act.refuse) ∈ tr
  | _ => Connected tr w

theorem chron_connectOf_cons (h : connectOf w (v, a) = none) :
    chron (connectOf w) ((v, a) :: tr) = chron (connectOf w) tr := chron_cons_none h tr

theorem connectOf_of_ne (hv : v ≠ w) : connectOf v (w, a) = none := by
  cases a <;> simp [connectOf, Ne.symm hv]

theorem mem_refuse_cons (h : v ≠ w ∨ a ≠ .refuse) :
    (v, Act.refuse) ∈ (w, a) :: tr ↔ (v, Act.refuse) ∈ tr := by
  rw [List.mem_cons, Prod.mk.injEq]
  refine or_iff_right fun ⟨hv, ha⟩ => ?_
  exact h.elim (fun h => h hv) fun h => h ha.symm

theorem Connected.cons (h : Connected tr w) (hc : connectOf w (w, a) = none) (hr : a ≠ .refuse) :
    Connected ((w, a) :: tr) w := by
  obtain ⟨⟨sts, hsts, hok⟩, hnot⟩ := h
  refine ⟨⟨sts, ?_, hok⟩, ?_⟩
  · rw [chron_connectOf_cons hc, hsts]
  · rwa [mem_refuse_cons (.inr hr)]

/-- What another worker does is not its concern. -/
theorem Pc.Been.cons_of_ne {m cursor cursor' : ℕ} {pc : Pc} (h : pc.Been m tr cursor v)
    (hv : v ≠ w) (hle : cursor ≤ cursor') : pc.Been m ((w, a) :: tr) cursor' v := by
  have hc : chron (connectOf v) ((w, a) :: tr) = chron (connectOf v) tr :=
    chron_connectOf_cons (connectOf_of_ne hv)
  have hr : (v, Act.refuse) ∈ (w, a) :: tr ↔ (v, Act.refuse) ∈ tr := mem_refuse_cons (.inl hv)
  have htried : ∀ ok, Tried ((w, a) :: tr) v ok ↔ Tried tr v ok := fun ok => by
    rw [Tried, Tried, hc]
  have hconn : Connected tr v → Connected ((w, a) :: tr) v := fun h =>
    ⟨(htried true).2 h.tried, hr.not.2 h.notMem⟩
  cases pc with
  | starting => exact ⟨hc.trans h.1, hr.not.2 h.2⟩
  | refused => exact ⟨(htried false).2 h.1, hr.not.2 h.2⟩
  | returned idx res =>
    cases res with
    | error e => exact ⟨hconn h.1, h.2⟩
    | ok u => exact hconn h
  | finishing => exact ⟨hconn h.1, h.2.trans hle⟩
  | finished =>
    exact h.imp (fun h => ⟨hconn h.1, h.2.trans hle⟩) fun h => ⟨(htried false).2 h.1, hr.2 h.2⟩
  | _ => exact hconn h

theorem been_parsed (idx cursor : ℕ) (h : Connected tr w) :
    (p.parsed idx).Been p.files.length tr cursor w := by
  unfold Params.parsed
  split
  · rename_i e he
    exact ⟨h, parseYamlFile_ne_ok he⟩
  · exact h

theorem InjaError.status_ne_ok (e : InjaError) : e.status ≠ .ok := by
  cases e <;> decide

/-- The step of the worker itself. -/
theorem Step.been (h : Step p s w a s')
    (hb : (s.workers w).pc.Been p.files.length tr s.nextFileIdx w) :
    (s'.workers w).pc.Been p.files.length ((w, a) :: tr) s'.nextFileIdx w := by
  cases h with
  | connect hw hpc sts db =>
    rw [hpc] at hb
    rw [State.workers_set_self]
    have htried : Tried ((w, .connect sts) :: tr) w sts.isSuccess :=
      ⟨sts, by rw [chron_cons, hb.1]; simp [connectOf], rfl⟩
    have hnot : (w, Act.refuse) ∉ (w, Act.connect sts) :: tr := by
      rw [mem_refuse_cons (.inr fun h => by cases h)]
      exact hb.2
    dsimp only
    split
    · rename_i hok
      exact ⟨hok ▸ htried, hnot⟩
    · rename_i hfail
      exact ⟨Bool.eq_false_of_not_eq_true hfail ▸ htried, hnot⟩
  | refuse hpc =>
    rw [hpc] at hb
    rw [State.workers_set_self]
    obtain ⟨sts, hsts, hfail⟩ := hb.1
    refine .inr ⟨⟨sts, ?_, hfail⟩, List.mem_cons_self⟩
    rw [chron_connectOf_cons rfl, hsts]
  | fetch hpc =>
    rw [hpc] at hb
    rw [State.workers_set_self]
    have hconn := Connected.cons (a := .fetch s.nextFileIdx) hb rfl fun h => by cases h
    dsimp only
    split
    · exact hconn
    · rename_i hge
      exact ⟨hconn, Nat.le_succ_of_le (Nat.le_of_not_lt hge)⟩
  | parse hpc =>
    rw [hpc] at hb
    rw [State.workers_set_self]
    exact been_parsed _ _ (Connected.cons hb rfl fun h => by cases h)
  | @load idx stmts res calls db hpc hload =>
    rw [hpc] at hb
    rw [State.workers_set_self]
    have hconn := Connected.cons (a := .load idx res) hb rfl fun h => by cases h
    cases res with
    | error e => exact ⟨hconn, p.db.loadFileMetaData_ne_ok (congrArg Prod.fst hload)⟩
    | ok stmts => exact hconn
  | generate hpc stamp =>
    rw [hpc] at hb
    rw [State.workers_set_self]
    exact Connected.cons hb rfl fun h => by cases h
  | noFolder hpc | renderThrows hpc =>
    show (s.workers w).pc.Been _ _ _ _
    rw [hpc] at hb ⊢
    exact Connected.cons hb rfl fun h => by cases h
  | @renderError idx stmts stamp tpl e hpc hrender =>
    rw [hpc] at hb
    rw [State.workers_set_self]
    exact ⟨Connected.cons hb rfl (fun h => by cases h), e.status_ne_ok⟩
  | openFile hpc hrender good =>
    rw [hpc] at hb
    rw [State.workers_set_self]
    exact Connected.cons hb rfl fun h => by cases h
  | @write idx stmts stamp tpl text good hpc n =>
    rw [hpc] at hb
    rw [State.workers_set_self]
    have hconn := Connected.cons (a := .write text n) hb rfl fun h => by cases h
    cases tpl <;> exact hconn
  | @report idx res hpc =>
    rw [hpc] at hb
    rw [State.workers_set_self]
    have hconn : Connected tr w := by
      cases res with
      | error e => exact hb.1
      | ok u => exact hb
    exact Connected.cons hconn rfl fun h => by cases h
  | count hpc =>
    rw [hpc] at hb
    rw [State.workers_set_self]
    exact Connected.cons hb rfl fun h => by cases h
  | finish hpc =>
    rw [hpc] at hb
    rw [State.workers_set_self]
    exact .inl ⟨Connected.cons hb.1 rfl (fun h => by cases h), hb.2⟩

theorem been (h : (appl p).Run tr s) (w : ℕ) :
    (s.workers w).pc.Been p.files.length tr s.nextFileIdx w := by
  refine h.invariant (I := fun tr s => ∀ w,
    (s.workers w).pc.Been p.files.length tr s.nextFileIdx w) ?_ ?_ w
  · rintro s ⟨-, -, -, hpc⟩ w
    rw [(hpc w).1]
    exact ⟨rfl, List.not_mem_nil⟩
  · rintro tr s ⟨w, a⟩ s' _ ih ⟨-, hst⟩ v
    by_cases hv : v = w
    · subst hv
      exact hst.been (ih v)
    · rw [hst.workers_of_ne hv]
      exact (ih v).cons_of_ne hv hst.nextFileIdx_le

theorem Step.lt_workerCount (h : Step p s w a s')
    (hs : (s.workers w).pc ≠ .starting → w < p.workerCount) : w < p.workerCount := by
  cases h with
  | connect hw => exact hw
  | refuse hpc | fetch hpc | parse hpc | load hpc | generate hpc | noFolder hpc | renderError hpc
  | renderThrows hpc | openFile hpc | write hpc | report hpc | count hpc | finish hpc =>
    exact hs fun h => by cases h.symm.trans hpc

/-- Only so many workers are ever started. -/
theorem lt_workerCount (h : (appl p).Run tr s) :
    (∀ w, (s.workers w).pc ≠ .starting → w < p.workerCount) ∧ ∀ l ∈ tr, l.1 < p.workerCount := by
  refine h.invariant (I := fun tr s => (∀ w, (s.workers w).pc ≠ .starting → w < p.workerCount) ∧
    ∀ l ∈ tr, l.1 < p.workerCount) ?_ ?_
  · rintro s ⟨-, -, -, hpc⟩
    exact ⟨fun w hw => absurd (hpc w).1 hw, fun l hl => absurd hl List.not_mem_nil⟩
  · rintro tr s ⟨w, a⟩ s' _ ⟨ih, ihtr⟩ ⟨-, hst⟩
    have hw := hst.lt_workerCount (ih w)
    refine ⟨fun v hv => ?_, fun l hl => ?_⟩
    · by_cases hvw : v = w
      · exact hvw ▸ hw
      · rw [hst.workers_of_ne hvw] at hv
        exact ih v hv
    · rcases List.mem_cons.1 hl with rfl | hl
      · exact hw
      · exact ihtr l hl

/-! ## The first error -/

/-- The error that a step records. -/
def recorded : ℕ × Act → Option ExitStatus
  | (_, .refuse) => some .connectionError
  | (_, .report _ (.error e)) => some e
  | _ => none

theorem Step.firstError (h : Step p s w a s') :
    s'.firstError = match recorded (w, a) with
      | some e => (s.record e).firstError
      | none => s.firstError := by
  cases h with
  | @report idx res => cases res <;> rfl
  | openFile => rw [State.firstError_set, State.openFile_eq]; rfl
  | write => rw [State.firstError_set, State.writeFile_eq]; rfl
  | _ => rfl

theorem Step.recorded_ne_ok (h : Step p s w a s')
    (hb : (s.workers w).pc.Been p.files.length tr s.nextFileIdx w) {e : ExitStatus}
    (he : recorded (w, a) = some e) : e ≠ .ok := by
  cases h with
  | refuse => exact Option.some.inj he ▸ by decide
  | @report idx res hpc =>
    rw [hpc] at hb
    cases res with
    | error e' => exact Option.some.inj he ▸ hb.2
    | ok u => cases he
  | _ => cases he

/-- `first_error` is the first error that was recorded. -/
theorem firstError_eq (h : (appl p).Run tr s) :
    s.firstError = (chron recorded tr).head?.getD .ok ∧ .ok ∉ chron recorded tr := by
  refine h.invariant (I := fun tr s =>
    s.firstError = (chron recorded tr).head?.getD .ok ∧ .ok ∉ chron recorded tr) ?_ ?_
  · rintro s ⟨-, hok, -⟩
    exact ⟨hok, List.not_mem_nil⟩
  · rintro tr s ⟨w, a⟩ s' hr ⟨ih, ihok⟩ ⟨-, hst⟩
    rw [hst.firstError, chron_cons]
    cases he : recorded (w, a) with
    | none => simpa using ⟨ih, ihok⟩
    | some e =>
      have hne := hst.recorded_ne_ok (been hr w) he
      refine ⟨?_, by simpa using ⟨ihok, hne.symm⟩⟩
      dsimp only
      rw [State.record, ih]
      cases hrec : chron recorded tr with
      | nil => rfl
      | cons e₀ es =>
        have hne₀ : e₀ ≠ .ok := fun h => ihok (by rw [hrec, h]; exact List.mem_cons_self)
        rw [List.head?_cons, Option.getD_some, if_neg hne₀, ih, hrec]
        rfl

theorem recorded_eq_nil_iff_ok (h : (appl p).Run tr s) :
    chron recorded tr = [] ↔ s.firstError = .ok := by
  obtain ⟨heq, hnot⟩ := firstError_eq h
  rw [heq]
  cases hrec : chron recorded tr with
  | nil => exact iff_of_true rfl rfl
  | cons e es =>
    refine iff_of_false (List.cons_ne_nil e es) fun he => hnot ?_
    rw [hrec, ← he]
    exact List.mem_cons_self

/-! ## The files processed -/

/-- The file whose result is looked at, and by whom. -/
def reported : ℕ × Act → Option (ℕ × ℕ)
  | (w, .report idx _) => some (w, idx)
  | _ => none

theorem chron_finished_queueAct (m : ℕ) (tr : List (ℕ × Act)) :
    chron WorkQueue.Act.finished (tr.filterMap (queueAct m)) = chron reported tr := by
  rw [chron_filterMap]
  refine congrArg (fun f => chron f tr) (funext fun ⟨w, a⟩ => ?_)
  cases a with
  | fetch idx =>
    rw [queueAct, Option.bind_some]
    split <;> rfl
  | _ => rfl

/-- What is done with a file is done by the worker that has it in hand, and once it is reported
    nothing is done with it any more. -/
theorem stages (h : (appl p).Run tr s) : (∀ idx, s.nextFileIdx ≤ idx → history tr idx = []) ∧
    (∀ w, (s.workers w).pc.Stage p w (history tr)) ∧
    ∀ w idx, (w, idx) ∈ chron reported tr → Processed p w idx (history tr idx) := by
  refine h.invariant (I := fun tr s => (∀ idx, s.nextFileIdx ≤ idx → history tr idx = []) ∧
    (∀ w, (s.workers w).pc.Stage p w (history tr)) ∧
    ∀ w idx, (w, idx) ∈ chron reported tr → Processed p w idx (history tr idx)) ?_ ?_
  · rintro s ⟨-, -, -, hpc⟩
    refine ⟨fun _ _ => rfl, fun w => ?_, fun w idx hmem => absurd hmem List.not_mem_nil⟩
    rw [(hpc w).1]
    trivial
  · rintro tr s ⟨w, a⟩ s' hr ⟨ihnext, ih, ihrep⟩ ⟨-, hst⟩
    have hqueue := (appl_simulates p).run hr
    -- A file that is taken, and in no other worker's hand, is left alone.
    have hother (idx : ℕ) (hlt : idx < s.nextFileIdx) (hne : s.queue.hand w ≠ some idx) :
        history ((w, a) :: tr) idx = history tr idx := by
      refine history_cons_of_ne fun hfile => ?_
      rcases hst.file_eq hfile with ⟨rfl, -⟩ | hhand
      · exact Nat.lt_irrefl _ hlt
      · exact hne hhand
    refine ⟨fun idx hidx => ?_, fun v => ?_, fun v idx hmem => ?_⟩
    · rw [history_cons_of_ne, ihnext idx (Nat.le_trans hst.nextFileIdx_le hidx)]
      intro hfile
      rcases hst.file_eq hfile with ⟨rfl, hnext⟩ | hhand
      · omega
      · have hlt := (WorkQueue.hand_lt hqueue hhand).1
        have hle := hst.nextFileIdx_le
        exact absurd (Nat.lt_of_lt_of_le hlt (Nat.le_trans hle hidx)) (Nat.lt_irrefl idx)
    · by_cases hv : v = w
      · subst hv
        exact hst.stage (ihnext _ (Nat.le_refl _)) (ih v)
      · rw [hst.workers_of_ne hv]
        refine (ih v).congr fun idx hhand => ?_
        refine hother idx (WorkQueue.hand_lt hqueue hhand).1 fun hhand' => hv ?_
        exact WorkQueue.hand_inj hqueue hhand hhand'
    · rw [chron_cons, List.mem_append] at hmem
      rcases hmem with hmem | hmem
      · have hfin := hmem
        rw [← chron_finished_queueAct p.files.length] at hfin
        rw [hother idx (WorkQueue.lt_of_finished hqueue hfin).1 fun hhand =>
          WorkQueue.hand_notMem hqueue hhand v hfin]
        exact ihrep v idx hmem
      · -- It is reported now.
        cases hst with
        | report hpc =>
          obtain ⟨rfl, rfl⟩ := Prod.mk.inj (List.mem_singleton.1 hmem)
          have hb := ih v
          rw [hpc] at hb
          rw [history_cons_self rfl]
          exact hb
        | _ => cases hmem

/-- A file whose result was looked at is about to be counted. -/
def Pc.uncounted : Pc → ℕ
  | .counting => 1
  | _ => 0

theorem uncounted_parsed (idx : ℕ) : (p.parsed idx).uncounted = 0 := by
  unfold Params.parsed
  split <;> rfl

theorem Step.filesProcessed (h : Step p s w a s') :
    (s'.workers w).filesProcessed + (s'.workers w).pc.uncounted =
      (s.workers w).filesProcessed + (s.workers w).pc.uncounted +
        (reported (w, a)).toList.length := by
  cases h with
  | connect hw hpc =>
    rw [State.workers_set_self, hpc]
    dsimp only
    split <;> rfl
  | fetch hpc =>
    rw [State.workers_set_self, hpc]
    dsimp only
    split <;> rfl
  | parse hpc =>
    rw [State.workers_set_self, hpc]
    dsimp only
    rw [uncounted_parsed]
    rfl
  | @load idx stmts res calls db hpc =>
    rw [State.workers_set_self, hpc]
    cases res <;> rfl
  | @write idx stmts stamp tpl text good hpc n =>
    rw [State.workers_set_self, hpc]
    cases tpl <;> rfl
  | noFolder | renderThrows => rfl
  | refuse hpc | generate hpc | renderError hpc | openFile hpc | report hpc | count hpc
  | finish hpc =>
    rw [State.workers_set_self, hpc]
    rfl

/-- `files_processed` counts the files of a worker. -/
theorem count_reported (h : (appl p).Run tr s) (w : ℕ) :
    ((chron reported tr).map Prod.fst).count w =
      (s.workers w).filesProcessed + (s.workers w).pc.uncounted := by
  refine h.invariant (I := fun tr s => ∀ w, ((chron reported tr).map Prod.fst).count w =
      (s.workers w).filesProcessed + (s.workers w).pc.uncounted) ?_ ?_ w
  · rintro s ⟨-, -, -, hpc⟩ w
    rw [(hpc w).1, (hpc w).2]
    rfl
  · rintro tr s ⟨w, a⟩ s' _ ih ⟨-, hst⟩ v
    rw [chron_cons, List.map_append, List.count_append, ih v]
    by_cases hv : v = w
    · subst hv
      rw [hst.filesProcessed]
      cases a <;> simp [reported]
    · rw [hst.workers_of_ne hv]
      cases a <;> simp [reported, Ne.symm hv]

/-- Numbers below `n`, counted one after the other. -/
theorem sum_count_eq_length {n : ℕ} {l : List ℕ} (hl : ∀ x ∈ l, x < n) :
    ∑ x ∈ Finset.range n, l.count x = l.length := by
  rw [← List.sum_toFinset_count_eq_length]
  refine (Finset.sum_subset (fun x hx => ?_) fun x _ hx => ?_).symm
  · exact Finset.mem_range.2 (hl x (List.mem_toFinset.1 hx))
  · exact List.count_eq_zero.2 fun h => hx (List.mem_toFinset.2 h)

/-! ## Progress -/

/-- The templates still to be rendered and written. -/
def Tpl.rank : Tpl → ℕ
  | .hpp => 2
  | .cpp => 0

/-- How many steps a worker takes at most until it comes back for the next file, or is done. -/
def Pc.rank : Pc → ℕ
  | .parsing _ => 11
  | .loading _ _ => 10
  | .generating _ _ => 9
  | .rendering _ _ _ tpl => tpl.rank + 6
  | .opened _ _ _ tpl _ _ => tpl.rank + 5
  | .returned _ _ => 4
  | .counting | .starting => 3
  | .fetching => 2
  | .refused | .finishing => 1
  | .finished => 0

/-- The steps that are left, at most. -/
def State.rank (p : Params σ) (s : State σ) : ℕ :=
  10 * (p.files.length - s.nextFileIdx) +
    (∑ w ∈ Finset.range p.workerCount, (s.workers w).pc.rank + if s.terminated then 0 else 1)

theorem rank_parsed_lt (idx : ℕ) : (p.parsed idx).rank < 11 := by
  unfold Params.parsed
  split
  · exact show 4 < 11 by decide
  · exact show 10 < 11 by decide

/-- Only for a worker that takes a file is more left to do. -/
theorem Step.rank_lt (h : Step p s w a s') (hs : s.terminated = false) :
    s'.terminated = true ∧ s'.nextFileIdx = s.nextFileIdx ∧ s'.workers = s.workers ∨
    s'.terminated = false ∧
      10 * (p.files.length - s'.nextFileIdx) + (s'.workers w).pc.rank <
        10 * (p.files.length - s.nextFileIdx) + (s.workers w).pc.rank := by
  cases h with
  | noFolder | renderThrows => exact .inl ⟨rfl, rfl, rfl⟩
  | connect hw hpc =>
    refine .inr ⟨hs, Nat.add_lt_add_left ?_ _⟩
    rw [State.workers_set_self, hpc]
    dsimp only
    split <;> decide
  | refuse hpc =>
    refine .inr ⟨by rw [State.record_eq]; exact hs, ?_⟩
    rw [State.workers_set_self, hpc, State.nextFileIdx_set, State.record_eq]
    exact Nat.lt_add_one _
  | fetch hpc =>
    refine .inr ⟨hs, ?_⟩
    rw [State.workers_set_self, hpc]
    dsimp only [State.nextFileIdx_set]
    split
    · have h₁ : (Pc.parsing s.nextFileIdx).rank = 11 := rfl
      have h₂ : Pc.fetching.rank = 2 := rfl
      omega
    · have h₁ : Pc.finishing.rank = 1 := rfl
      have h₂ : Pc.fetching.rank = 2 := rfl
      omega
  | parse hpc =>
    refine .inr ⟨hs, Nat.add_lt_add_left ?_ _⟩
    rw [State.workers_set_self, hpc]
    exact rank_parsed_lt _
  | @load idx stmts res calls db hpc =>
    refine .inr ⟨hs, Nat.add_lt_add_left ?_ _⟩
    rw [State.workers_set_self, hpc]
    cases res with
    | error e => exact show 4 < 10 by decide
    | ok stmts => exact show 9 < 10 by decide
  | renderError hpc =>
    refine .inr ⟨hs, Nat.add_lt_add_left ?_ _⟩
    rw [State.workers_set_self, hpc]
    exact Nat.lt_of_lt_of_le (show 4 < 6 by decide) (Nat.le_add_left 6 _)
  | openFile hpc =>
    refine .inr ⟨by rw [State.openFile_eq]; exact hs, ?_⟩
    rw [State.workers_set_self, hpc, State.nextFileIdx_set, State.openFile_eq]
    exact Nat.lt_add_one _
  | @write idx stmts stamp tpl text good hpc n =>
    refine .inr ⟨by rw [State.writeFile_eq]; exact hs, ?_⟩
    rw [State.workers_set_self, hpc, State.nextFileIdx_set, State.writeFile_eq]
    cases tpl <;> exact Nat.lt_add_one _
  | report hpc =>
    refine .inr ⟨by rw [State.report_eq]; exact hs, ?_⟩
    rw [State.workers_set_self, hpc, State.nextFileIdx_set, State.report_eq]
    exact Nat.lt_add_one _
  | generate hpc | count hpc | finish hpc =>
    refine .inr ⟨hs, ?_⟩
    rw [State.workers_set_self, hpc]
    exact Nat.lt_add_one _

/-- Every step leaves less to do. -/
theorem rank_step (hw : w < p.workerCount) (h : (appl p).step s (w, a) s') :
    s'.rank p < s.rank p := by
  obtain ⟨hs, hst : Step p s w a s'⟩ := h
  have hmem := Finset.mem_range.2 hw
  have hothers : ∑ v ∈ (Finset.range p.workerCount).erase w, (s'.workers v).pc.rank =
      ∑ v ∈ (Finset.range p.workerCount).erase w, (s.workers v).pc.rank :=
    Finset.sum_congr rfl fun v hv => by rw [hst.workers_of_ne (Finset.ne_of_mem_erase hv)]
  unfold State.rank
  rw [hs]
  rcases hst.rank_lt hs with ⟨ht, hidx, hworkers⟩ | ⟨ht, hlt⟩
  · rw [ht, hidx, hworkers]
    simp
  · rw [ht, ← Finset.add_sum_erase _ (fun v => (s'.workers v).pc.rank) hmem,
      ← Finset.add_sum_erase _ (fun v => (s.workers v).pc.rank) hmem, hothers]
    omega

/-- There is an end to every run. -/
theorem length_le (h : (appl p).Run tr s) :
    tr.length + s.rank p ≤ 10 * p.files.length + (3 * p.workerCount + 1) := by
  refine h.invariant (I := fun tr s =>
    tr.length + s.rank p ≤ 10 * p.files.length + (3 * p.workerCount + 1)) ?_ ?_
  · rintro s ⟨hidx, -, ht, hpc⟩
    have hsum : ∑ w ∈ Finset.range p.workerCount, (s.workers w).pc.rank = p.workerCount * 3 := by
      rw [Finset.sum_congr rfl fun w _ => by rw [(hpc w).1]]
      simp [Pc.rank]
    rw [State.rank, hidx, ht, hsum]
    simp
    omega
  · rintro tr s ⟨w, a⟩ s' hr ih hst
    have hlt := rank_step (hst.2.lt_workerCount ((lt_workerCount hr).1 w)) hst
    rw [List.length_cons]
    omega

/-- A run goes on until it has completed, or an exception has left a worker. -/
theorem completed_or_step (s : State σ) :
    s.terminated = true ∨ s.Completed p ∨ ∃ l s', (appl p).step s l s' := by
  cases ht : s.terminated with
  | true => exact .inl rfl
  | false =>
    by_cases hall : ∀ w < p.workerCount, (s.workers w).pc = .finished
    · exact .inr (.inl ⟨ht, hall⟩)
    · push Not at hall
      obtain ⟨w, hw, hpc⟩ := hall
      obtain ⟨⟨a, s'⟩, hst⟩ := Option.isSome_iff_exists.1 (p.isSome_next true hw hpc)
      exact .inr (.inr ⟨(w, a), s', ht, p.next_sound hst⟩)

/-! ## Completed runs -/

/-- A worker has connected. -/
def HasConnected (tr : List (ℕ × Act)) (w : ℕ) : Prop :=
  ∃ sts : DbSts, (w, Act.connect sts) ∈ tr ∧ sts.isSuccess = true

theorem mem_chron_connectOf {sts : DbSts} :
    sts ∈ chron (connectOf w) tr ↔ (w, Act.connect sts) ∈ tr := by
  rw [mem_chron]
  constructor
  · rintro ⟨⟨v, a⟩, hmem, ha⟩
    cases a with
    | connect sts' =>
      rw [connectOf] at ha
      split at ha
      · rename_i hv
        cases Option.some.inj ha
        exact hv ▸ hmem
      · cases ha
    | _ => cases ha
  · exact fun hmem => ⟨_, hmem, if_pos rfl⟩

theorem Tried.hasConnected_iff {ok : Bool} (h : Tried tr w ok) : HasConnected tr w ↔ ok = true := by
  obtain ⟨sts, hsts, rfl⟩ := h
  simp [HasConnected, ← mem_chron_connectOf, hsts]

section

variable (h : (appl p).Run tr s) (hdone : s.Completed p)

include h hdone

/-- What a worker that has finished has gone through. -/
theorem been_finished (hw : w < p.workerCount) :
    HasConnected tr w ∧ (w, Act.refuse) ∉ tr ∧ p.files.length ≤ s.nextFileIdx ∨
      ¬HasConnected tr w ∧ (w, Act.refuse) ∈ tr := by
  have hb := been h w
  rw [hdone.2 w hw] at hb
  rcases hb with ⟨hconn, hle⟩ | ⟨htried, hmem⟩
  · exact .inl ⟨hconn.tried.hasConnected_iff.2 rfl, hconn.notMem, hle⟩
  · exact .inr ⟨fun hc => Bool.false_ne_true (htried.hasConnected_iff.1 hc), hmem⟩

theorem hand_eq_none (w : ℕ) : s.queue.hand w = none := by
  by_cases hw : w < p.workerCount
  · exact congrArg Pc.hand (hdone.2 w hw)
  · exact congrArg Pc.hand (not_not.1 fun hpc => hw ((lt_workerCount h).1 w hpc))

/-- No error is recorded just if all workers have connected and no file has failed. -/
theorem recorded_eq_nil_iff : chron recorded tr = [] ↔ (∀ w < p.workerCount, HasConnected tr w) ∧
    ∀ w idx e, (w, Act.report idx (.error e)) ∉ tr := by
  have hnil : chron recorded tr = [] ↔ ∀ l ∈ tr, recorded l = none := by
    rw [chron, List.reverse_eq_nil_iff, List.filterMap_eq_nil_iff]
  rw [hnil]
  constructor
  · refine fun hall => ⟨fun w hw => ?_, fun w idx e hmem => by cases hall _ hmem⟩
    rcases been_finished h hdone hw with ⟨hconn, -⟩ | ⟨-, hmem⟩
    · exact hconn
    · cases hall _ hmem
  · rintro ⟨hconn, hreport⟩ ⟨w, a⟩ hmem
    cases a with
    | refuse =>
      have hw := (lt_workerCount h).2 _ hmem
      rcases been_finished h hdone hw with ⟨-, hnot, -⟩ | ⟨hnot, -⟩
      · exact absurd hmem hnot
      · exact absurd (hconn w hw) hnot
    | report idx res =>
      cases res with
      | error e => exact absurd hmem (hreport w idx e)
      | ok u => rfl
    | _ => rfl

/-- What a run that has finished with at least one worker connected comes to. -/
theorem everyFileOnce_of_completed (hconn : ∃ w, HasConnected tr w) :
    (∀ idx < p.files.length, ∃! w, (w, idx) ∈ chron reported tr) ∧
    (∀ idx < p.files.length, ∃! w, Processed p w idx (history tr idx)) ∧
    ((chron reported tr).map Prod.snd).Perm (List.range p.files.length) ∧
    ∑ w ∈ Finset.range p.workerCount, (s.workers w).filesProcessed = p.files.length ∧
    (s.firstError = .ok ↔ (∀ w < p.workerCount, HasConnected tr w) ∧
      ∀ w idx e, (w, Act.report idx (.error e)) ∉ tr) ∧
    s.firstError = (chron recorded tr).head?.getD .ok := by
  have hqueue := (appl_simulates p).run h
  have hhand := hand_eq_none h hdone
  -- The worker that has connected has found that there are no more files.
  have hcursor : p.files.length ≤ s.nextFileIdx := by
    obtain ⟨w, hw⟩ := hconn
    obtain ⟨sts, hmem, -⟩ := id hw
    rcases been_finished h hdone ((lt_workerCount h).2 _ hmem) with ⟨-, -, hle⟩ | ⟨hnot, -⟩
    · exact hle
    · exact absurd hw hnot
  have hperm := WorkQueue.finished_perm_range hqueue hhand hcursor
  rw [chron_finished_queueAct] at hperm
  have honce (idx : ℕ) (hidx : idx < p.files.length) : ∃! w, (w, idx) ∈ chron reported tr := by
    rw [← chron_finished_queueAct p.files.length]
    exact WorkQueue.existsUnique_finished hqueue hhand hcursor hidx
  refine ⟨honce, fun idx hidx => ?_, hperm, ?_, ?_, (firstError_eq h).1⟩
  · obtain ⟨w, hmem, -⟩ := honce idx hidx
    have hprocessed := (stages h).2.2 w idx hmem
    exact ⟨w, hprocessed, fun v hv => hprocessed.unique hv⟩
  · have hcount : ∀ w ∈ Finset.range p.workerCount, (s.workers w).filesProcessed =
        ((chron reported tr).map Prod.fst).count w := fun w hw => by
      rw [count_reported h, hdone.2 w (Finset.mem_range.1 hw)]
      rfl
    rw [Finset.sum_congr rfl hcount, sum_count_eq_length]
    · simpa using hperm.length_eq
    · intro _ hmap
      obtain ⟨⟨w, idx⟩, hmem, rfl⟩ := List.mem_map.1 hmap
      obtain ⟨⟨v, a⟩, hl, ha⟩ := mem_chron.1 hmem
      have hv : v = w := by
        cases a <;> cases ha
        rfl
      exact hv ▸ (lt_workerCount h).2 _ hl
  · rw [← recorded_eq_nil_iff h hdone, recorded_eq_nil_iff_ok h]

end

/-- **Every file is processed once**: there is an end to every run, and in every run that has
    finished with at least one worker connected, every file is processed by exactly one worker,
    which takes it, loads it and reports it once each; as many files are counted as there are; and
    `first_error` is the first error recorded, `ok` just if all workers have connected and no file
    has failed. -/
theorem everyFileOnce (p : Params σ) :
    (∀ (tr : List (ℕ × Act)) (s : State σ), (appl p).Run tr s →
      tr.length ≤ 10 * p.files.length + (3 * p.workerCount + 1) ∧
      (s.terminated = true ∨ s.Completed p ∨ ∃ l s', (appl p).step s l s')) ∧
    ∀ (tr : List (ℕ × Act)) (s : State σ), (appl p).Run tr s → s.Completed p →
      (∃ w, HasConnected tr w) →
      (∀ idx < p.files.length, ∃! w, (w, idx) ∈ chron reported tr) ∧
      (∀ idx < p.files.length, ∃! w, Processed p w idx (history tr idx)) ∧
      ((chron reported tr).map Prod.snd).Perm (List.range p.files.length) ∧
      ∑ w ∈ Finset.range p.workerCount, (s.workers w).filesProcessed = p.files.length ∧
      (s.firstError = .ok ↔ (∀ w < p.workerCount, HasConnected tr w) ∧
        ∀ w idx e, (w, Act.report idx (.error e)) ∉ tr) ∧
      s.firstError = (chron recorded tr).head?.getD .ok :=
  ⟨fun _ s h => ⟨Nat.le_of_add_right_le (length_le h), completed_or_step s⟩,
    fun _ _ h hdone hconn => everyFileOnce_of_completed h hdone hconn⟩

/-! ### A file that the database rejects -/

/-- The second worker comes to its end while the first one is still at its file. -/
theorem exists_rejected : ∃ tr s, (appl oneKnown).Run tr s ∧
    s.Completed oneKnown ∧ (0, .connect .success) ∈ tr ∧
    (1, .report 1 (.error .sqlSyntaxErr)) ∈ tr := by
  have h := run_beforeWorkers (show oneKnown.run true
    (inTurn 8 ++ List.replicate 5 0) ([], beforeWorkers) = some _ from rfl)
  exact ⟨_, _, h.of_restrict, completed_of_two rfl rfl rfl, List.mem_of_getElem? (i := 20) rfl,
    List.mem_of_getElem? (i := 11) rfl⟩

/-- Both files are processed once, and the error of the second one is what stays. -/
theorem everyFileOnce_twoFiles : ∃ tr s, (appl oneKnown).Run tr s ∧
    s.Completed oneKnown ∧ (1, .report 1 (.error .sqlSyntaxErr)) ∈ tr ∧
    (∀ idx < 2, ∃! w, Processed oneKnown w idx (history tr idx)) ∧
    ∑ w ∈ Finset.range 2, (s.workers w).filesProcessed = 2 ∧ s.firstError ≠ .ok := by
  obtain ⟨tr, s, hrun, hdone, hconn, hmem⟩ := exists_rejected
  obtain ⟨-, hprocessed, -, hsum, hok, -⟩ := (everyFileOnce _).2 tr s hrun hdone ⟨0, _, hconn, rfl⟩
  exact ⟨tr, s, hrun, hdone, hmem, hprocessed, hsum, fun h => (hok.1 h).2 _ _ _ hmem⟩

end Dbgen4.Gen
