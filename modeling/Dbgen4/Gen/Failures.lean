import Dbgen4.Gen.Workers

/-!
# Files that fail

The processing of a file fails in two ways: `process_one_file` returns an error, which the worker
records before it goes on, or an exception leaves it. Nothing catches that one: it leaves the
thread of the worker, and the process ends with it. `generate` throws when the output folder does
not exist and cannot be created, and when rendering throws what is no error of inja.

So a file that fails leaves the others alone, and `exec` reports it, in just those runs in which
no exception has left a worker (`contained_iff`).
-/

namespace Dbgen4.Gen

open Rtl

variable {σ : Type} {p : Params σ} {s s' : State σ} {tr : List (ℕ × Act)} {w : ℕ} {a : Act}

/-- No worker can go on: all have finished, or the process has ended. -/
def State.Over (p : Params σ) (s : State σ) : Prop := ∀ l s', ¬(appl p).step s l s'

/-- What `exec` returns after the workers: nothing, when the process has ended. -/
def State.exec (s : State σ) : Option ExitStatus :=
  let sts := .ok
  if s.terminated then none
  else if s.firstError ≠ .ok then some s.firstError
  else some sts

/-- The processing of a file has failed. -/
def Failed (tr : List (ℕ × Act)) (s : State σ) (idx : ℕ) : Prop :=
  (∃ w e, (w, Act.report idx (.error e)) ∈ tr) ∨
    ∃ w, (w, Act.throws) ∈ tr ∧ (s.workers w).pc.hand = some idx

/-- A file that fails does not take the others down: they are all processed, and `exec` says that
    the run was not all right. -/
def Contained (p : Params σ) (tr : List (ℕ × Act)) (s : State σ) : Prop :=
  ∀ idx, Failed tr s idx →
    (∀ other < p.files.length, other ≠ idx → ∃ w, (w, other) ∈ chron reported tr) ∧
    ∃ e, s.exec = some e ∧ e ≠ .ok

/-! ## Exceptions -/

namespace State

theorem terminated_record (e : ExitStatus) : (s.record e).terminated = s.terminated := by
  rw [record_eq]

theorem terminated_report (res : Except ExitStatus Unit) :
    (s.report res).terminated = s.terminated := by
  rw [report_eq]

theorem terminated_openFile (fn : List Char) (good : Bool) :
    (s.openFile fn good).terminated = s.terminated := by
  rw [openFile_eq]

theorem terminated_writeFile (fn : List Char) (good : Bool) (text : List Char) :
    (s.writeFile fn good text).terminated = s.terminated := by
  rw [writeFile_eq]

end State

theorem Step.terminated (h : Step p s w a s') (hs : s.terminated = false) :
    s'.terminated = true ↔ a = .throws := by
  have hs := ne_true_of_eq_false hs
  cases h with
  | noFolder | renderThrows => exact iff_of_true rfl rfl
  | refuse => exact iff_of_false (ne_of_eq_of_ne (State.terminated_record _) hs) nofun
  | report => exact iff_of_false (ne_of_eq_of_ne (State.terminated_report _) hs) nofun
  | openFile => exact iff_of_false (ne_of_eq_of_ne (State.terminated_openFile _ _) hs) nofun
  | write => exact iff_of_false (ne_of_eq_of_ne (State.terminated_writeFile _ _ _) hs) nofun
  | _ => exact iff_of_false hs nofun

/-- An exception leaves a worker while it has a file in hand. -/
theorem Step.hand_of_throws (h : Step p s w .throws s') :
    ∃ idx, (s'.workers w).pc.hand = some idx := by
  cases h with
  | noFolder hpc | renderThrows hpc => exact ⟨_, congrArg Pc.hand hpc⟩

/-- The process has ended just if an exception has left a worker. -/
theorem terminated_iff (h : (appl p).Run tr s) :
    s.terminated = true ↔ ∃ w, (w, Act.throws) ∈ tr := by
  refine h.invariant (I := fun tr s => s.terminated = true ↔ ∃ w, (w, Act.throws) ∈ tr) ?_ ?_
  · rintro s ⟨-, -, ht, -⟩
    exact iff_of_false (ne_true_of_eq_false ht) fun ⟨w, hmem⟩ => List.not_mem_nil hmem
  · rintro tr s ⟨w, a⟩ s' - ih ⟨hs, hst⟩
    rw [Step.terminated hst hs]
    constructor
    · rintro rfl
      exact ⟨w, List.mem_cons_self⟩
    · rintro ⟨v, hmem⟩
      rcases List.mem_cons.1 hmem with heq | hmem
      · exact (congrArg Prod.snd heq).symm
      · exact absurd (ih.2 ⟨v, hmem⟩) (ne_true_of_eq_false hs)

/-- The file that a worker had in hand has failed. -/
theorem failed_of_throws (h : (appl p).Run tr s) (hthrows : (w, Act.throws) ∈ tr) :
    ∃ idx, Failed tr s idx := by
  suffices hhand : ∃ idx, (s.workers w).pc.hand = some idx by
    obtain ⟨idx, hhand⟩ := hhand
    exact ⟨idx, .inr ⟨w, hthrows, hhand⟩⟩
  revert hthrows
  refine h.invariant (I := fun tr s =>
    (w, Act.throws) ∈ tr → ∃ idx, (s.workers w).pc.hand = some idx) ?_ ?_
  · exact fun s _ hmem => absurd hmem List.not_mem_nil
  · rintro tr s ⟨v, a⟩ s' hr - ⟨hs, hst⟩ hmem
    rcases List.mem_cons.1 hmem with heq | hmem
    · cases heq
      exact hst.hand_of_throws
    · -- After an exception there is no step.
      exact absurd ((terminated_iff hr).2 ⟨w, hmem⟩) (ne_true_of_eq_false hs)

/-! ## Errors -/

/-- A worker whose result was looked at has connected. -/
theorem hasConnected_of_report (h : (appl p).Run tr s) {idx : ℕ} {res : Except ExitStatus Unit}
    (hreport : (w, Act.report idx res) ∈ tr) : HasConnected tr w := by
  revert hreport
  refine h.invariant (I := fun tr _ => (w, Act.report idx res) ∈ tr → HasConnected tr w) ?_ ?_
  · exact fun s _ hmem => absurd hmem List.not_mem_nil
  · rintro tr s ⟨v, a⟩ s' hr ih ⟨-, hst⟩ hmem
    have hbefore : HasConnected tr w := by
      rcases List.mem_cons.1 hmem with heq | hmem
      · cases heq
        cases hst with
        | report hpc =>
          have hb := been hr w
          rw [hpc] at hb
          cases res with
          | error e => exact hb.1.tried.hasConnected_iff.2 rfl
          | ok u => exact hb.tried.hasConnected_iff.2 rfl
      · exact ih hmem
    obtain ⟨sts, hmem, hok⟩ := hbefore
    exact ⟨sts, List.mem_cons_of_mem _ hmem, hok⟩

/-- A run that is over without an exception has completed. -/
theorem completed_of_over (h : (appl p).Run tr s) (hover : s.Over p)
    (hthrows : ∀ w, (w, Act.throws) ∉ tr) : s.Completed p := by
  rcases completed_or_step (p := p) s with ht | hdone | ⟨l, s', hst⟩
  · obtain ⟨w, hmem⟩ := (terminated_iff h).1 ht
    exact absurd hmem (hthrows w)
  · exact hdone
  · exact absurd hst (hover l s')

/-- A file that an error was returned for is reported, and the others are processed. -/
theorem contained_of_completed (h : (appl p).Run tr s) (hdone : s.Completed p)
    (hthrows : ∀ w, (w, Act.throws) ∉ tr) : Contained p tr s := by
  rintro idx (⟨w, e, hmem⟩ | ⟨w, hmem, -⟩)
  · have hconn := hasConnected_of_report h hmem
    obtain ⟨honce, -, -, -, hok, -⟩ := everyFileOnce_of_completed h hdone ⟨w, hconn⟩
    have hne : s.firstError ≠ .ok := fun heq => (hok.1 heq).2 w idx e hmem
    refine ⟨fun other hother _ => (honce other hother).exists, s.firstError, ?_, hne⟩
    rw [State.exec, hdone.1, if_neg Bool.false_ne_true, if_pos hne]
  · exact absurd hmem (hthrows w)

/-- **Files that fail.** Of a run that is over, whatever files have failed: all others were
    processed and `exec` returns an error, just if no exception has left a worker. -/
theorem contained_iff (h : (appl p).Run tr s) (hover : s.Over p) :
    Contained p tr s ↔ ∀ w, (w, Act.throws) ∉ tr := by
  constructor
  · intro hcont w hmem
    obtain ⟨idx, hfailed⟩ := failed_of_throws h hmem
    obtain ⟨-, e, hexec, -⟩ := hcont idx hfailed
    rw [State.exec, (terminated_iff h).2 ⟨w, hmem⟩, if_pos rfl] at hexec
    cases hexec
  · exact fun hthrows => contained_of_completed h (completed_of_over h hover hthrows) hthrows

/-! ## A folder that cannot be created -/

/-- The first worker comes to `generate` with its file, and throws. -/
theorem exists_thrown : ∃ tr s, (appl bothKnown).Run tr s ∧
    s.Over bothKnown ∧ Failed tr s 0 ∧ ∀ w, (w, 1) ∉ chron reported tr := by
  have h₀ := (run_beforeWorkers (show bothKnown.run true [0, 0, 0, 0]
    ([], beforeWorkers) = some _ from rfl)).of_restrict
  have h₁ := h₀.step (l := (0, _)) ⟨rfl, .noFolder rfl⟩
  exact ⟨_, _, h₁, fun l s' hst => Bool.noConfusion hst.1,
    .inr ⟨0, List.mem_cons_self, rfl⟩, fun w => List.not_mem_nil⟩

/-- The other file is never processed. -/
theorem not_contained_twoFiles : ¬∀ (tr : List (ℕ × Act)) (s : State Unit),
    (appl bothKnown).Run tr s → s.Over bothKnown →
    Contained bothKnown tr s := by
  intro hall
  obtain ⟨tr, s, h, hover, hfailed, hother⟩ := exists_thrown
  obtain ⟨w, hmem⟩ := (hall tr s h hover 0 hfailed).1 1 (by decide) (by decide)
  exact hother w hmem

/-- A run that has completed is over. -/
theorem over_of_completed (h : (appl p).Run tr s) (hdone : s.Completed p) : s.Over p := by
  rintro ⟨w, a⟩ s' ⟨-, hst : Step p s w a s'⟩
  have hfinished := hdone.2 w (hst.lt_workerCount ((lt_workerCount h).1 w))
  cases hst with
  | connect _ hpc | refuse hpc | fetch hpc | parse hpc | load hpc | generate hpc | noFolder hpc
  | renderError hpc | renderThrows hpc | openFile hpc | write hpc | report hpc | count hpc
  | finish hpc => cases hpc.symm.trans hfinished

/-- The file that the database rejects leaves the other one alone. -/
theorem contained_twoFiles : ∃ tr s, (appl oneKnown).Run tr s ∧
    s.Over oneKnown ∧ Failed tr s 1 ∧
    Contained oneKnown tr s := by
  obtain ⟨tr, s, h, hdone, -, hmem⟩ := exists_rejected
  have hover := over_of_completed h hdone
  refine ⟨tr, s, h, hover, .inl ⟨1, _, hmem⟩, (contained_iff h hover).2 fun w hthrows => ?_⟩
  exact Bool.false_ne_true (hdone.1.symm.trans ((terminated_iff h).2 ⟨w, hthrows⟩))

end Dbgen4.Gen
