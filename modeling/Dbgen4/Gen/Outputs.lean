import Dbgen4.Gen.Workers

/-!
# What the generator has written when it reports success

An output file that cannot be opened or is not written whole is no error (`write_file`
looks for none), and two input files with the same stem have the same output files. In
every run in which neither happens, success means that the output files of every input
file hold what its statements are rendered to (`outputs_of_exec_ok`).
-/

namespace Dbgen4.Gen

open Rtl

variable {σ : Type} {p : Params σ} {s s' : State σ} {tr tr' : List (ℕ × Act)} {w v idx : ℕ}
  {a : Act} {folder folder' : List Char → Option (List Char)}

/-! ## The program -/

/-- `appl::exec`, with the workers running as in `A`: what it returns, and the folder it leaves. -/
inductive Exec (p : Params σ) (A : Lts (State σ) (ℕ × Act)) :
    List (ℕ × Act) → ExitStatus → (List Char → Option (List Char)) → Prop
  /-- The command line asks for help, or cannot be parsed. -/
  | parameters {sts : ExitStatus} (folder : List Char → Option (List Char)) (h : sts ≠ .ok) :
    Exec p A [] sts folder
  /-- The connection that is tried before the workers are started fails. -/
  | noConnection (folder : List Char → Option (List Char)) :
    Exec p A [] .connectionError folder
  /-- The templates cannot be prepared. -/
  | templates {e : ExitStatus} (folder : List Char → Option (List Char))
    (h : e ∈ [.errorReadingFile, .injaRenderError, .injaParserError, .injaGeneralError]) :
    Exec p A [] e folder
  /-- An exception is thrown before the workers are started. -/
  | exception (folder : List Char → Option (List Char)) :
    Exec p A [] .unhandledException folder
  /-- The workers have run. -/
  | ran {tr : List (ℕ × Act)} {s : State σ} (h : A.Run tr s) (hdone : s.Completed p) :
    Exec p A tr s.firstError s.folder

/-- An output file holds what the statements are rendered to. -/
def Holds (p : Params σ) (folder : List Char → Option (List Char)) (idx : ℕ)
    (stmts : DataStatements) (stamp : String) (tpl : Tpl) : Prop :=
  ∃ text, p.render tpl (p.barename idx) stamp stmts = .text text ∧
    folder (p.filename tpl idx) = some text

/-- Both output files of an input file hold what its statements, as they were loaded, are rendered
    to. -/
def Output (p : Params σ) (tr : List (ℕ × Act)) (folder : List Char → Option (List Char))
    (idx : ℕ) : Prop :=
  ∃ w stmts stamp, (w, .load idx (.ok stmts)) ∈ tr ∧ ∀ tpl, Holds p folder idx stmts stamp tpl

/-! ## Names -/

theorem filename_inj {tpl tpl' : Tpl} {idx idx' : ℕ}
    (h : p.filename tpl idx = p.filename tpl' idx') :
    p.barename idx = p.barename idx' ∧ tpl = tpl' := by
  have h := (List.cons.inj (List.append_cancel_left h)).2
  cases tpl <;> cases tpl'
  · exact ⟨(List.append_inj' h rfl).1, rfl⟩
  · cases (List.append_inj' h rfl).2
  · cases (List.append_inj' h rfl).2
  · exact ⟨(List.append_inj' h rfl).1, rfl⟩

theorem barename_inj (hnames : (p.files.map fun f => stem f.toList).Nodup) {idx idx' : ℕ}
    (hidx : idx < p.files.length) (hidx' : idx' < p.files.length)
    (h : p.barename idx = p.barename idx') : idx = idx' := by
  have hget : ∀ i < p.files.length,
      (p.files.map fun f => stem f.toList)[i]? = some (p.barename i) := by
    intro i hi
    rw [List.getElem?_map, Params.barename, Params.file, List.getD_eq_getElem?_getD,
      List.getElem?_eq_getElem hi]
    rfl
  refine (List.getElem?_inj ((List.length_map _).symm ▸ hidx) hnames).1 ?_
  rw [hget idx hidx, hget idx' hidx', h]

/-! ## What is written stays -/

/-- The two folders agree on the output files of an input file. -/
def Agree (p : Params σ) (folder folder' : List Char → Option (List Char)) (idx : ℕ) : Prop :=
  ∀ tpl, folder' (p.filename tpl idx) = folder (p.filename tpl idx)

theorem Holds.of_agree {stmts : DataStatements} {stamp : String} {tpl : Tpl}
    (h : Holds p folder idx stmts stamp tpl) (hagree : Agree p folder folder' idx) :
    Holds p folder' idx stmts stamp tpl := by
  obtain ⟨text, hrender, htext⟩ := h
  exact ⟨text, hrender, (hagree tpl).trans htext⟩

theorem Output.mono (h : Output p tr folder idx) (hagree : Agree p folder folder' idx)
    (htr : tr ⊆ tr') : Output p tr' folder' idx := by
  obtain ⟨w, stmts, stamp, hmem, hholds⟩ := h
  exact ⟨w, stmts, stamp, htr hmem, fun tpl => (hholds tpl).of_agree hagree⟩

/-- A step changes at most an output file of the input file that the worker has in hand. -/
theorem Step.folder_eq (h : Step p s w a s') : s'.folder = s.folder ∨ ∃ idx tpl contents,
    s.queue.hand w = some idx ∧
      s'.folder = Function.update s.folder (p.filename tpl idx) contents := by
  cases h with
  | @openFile idx stmts stamp tpl text hpc hrender good =>
    cases good with
    | false => exact .inl rfl
    | true => exact .inr ⟨idx, tpl, some [], congrArg Pc.hand hpc, rfl⟩
  | @write idx stmts stamp tpl text good hpc n =>
    cases good with
    | false => exact .inl rfl
    | true => exact .inr ⟨idx, tpl, _, congrArg Pc.hand hpc, rfl⟩
  | refuse =>
    left
    rw [State.folder_set, State.record_eq]
  | report =>
    left
    rw [State.folder_set, State.report_eq]
  | _ => exact .inl rfl

/-- So the output files of another input file stay. -/
theorem Step.agree (hnames : (p.files.map fun f => stem f.toList).Nodup)
    (hr : (appl p).Run tr s) (h : Step p s w a s') (hidx : idx < p.files.length)
    (hne : s.queue.hand w ≠ some idx) : Agree p s.folder s'.folder idx := by
  intro tpl
  rcases h.folder_eq with heq | ⟨idx', tpl', contents, hhand, heq⟩
  · rw [heq]
  · rw [heq, Function.update_of_ne]
    intro hfn
    have hidx' := (WorkQueue.hand_lt ((appl_simulates p).run hr) hhand).2
    exact hne (barename_inj hnames hidx hidx' (filename_inj hfn).1 ▸ hhand)

/-! ## The stages of a file -/

/-- What a worker has written when it is at a place. -/
def Pc.Written (p : Params σ) (tr : List (ℕ × Act)) (folder : List Char → Option (List Char))
    (w : ℕ) : Pc → Prop
  | .generating idx stmts => (w, .load idx (.ok stmts)) ∈ tr
  | .rendering idx stmts stamp tpl =>
    (w, .load idx (.ok stmts)) ∈ tr ∧ (tpl = .cpp → Holds p folder idx stmts stamp .hpp)
  | .opened idx stmts stamp tpl text good =>
    (w, .load idx (.ok stmts)) ∈ tr ∧ (tpl = .cpp → Holds p folder idx stmts stamp .hpp) ∧
      good = true ∧ p.render tpl (p.barename idx) stamp stmts = .text text ∧
      folder (p.filename tpl idx) = some []
  | .returned idx (.ok ()) => Output p tr folder idx
  | _ => True

/-- It stays written, as long as its output files are left alone. -/
theorem Pc.Written.mono {pc : Pc} (h : pc.Written p tr folder w)
    (hagree : ∀ idx, pc.hand = some idx → Agree p folder folder' idx) (htr : tr ⊆ tr') :
    pc.Written p tr' folder' w := by
  cases pc with
  | generating idx stmts => exact htr h
  | rendering idx stmts stamp tpl =>
    exact ⟨htr h.1, fun htpl => (h.2 htpl).of_agree (hagree idx rfl)⟩
  | opened idx stmts stamp tpl text good =>
    obtain ⟨hload, hhpp, hgood, hrender, hempty⟩ := h
    exact ⟨htr hload, fun htpl => (hhpp htpl).of_agree (hagree idx rfl), hgood, hrender,
      (hagree idx rfl tpl).trans hempty⟩
  | returned idx res =>
    cases res with
    | error e => trivial
    | ok u => exact Output.mono h (hagree idx rfl) htr
  | _ => trivial

theorem written_parsed (idx : ℕ) : (p.parsed idx).Written p tr folder w := by
  unfold Params.parsed
  split <;> trivial

/-- The step of the worker itself. -/
theorem Step.written (h : Step p s w a s') (hwhole : a.Whole)
    (hb : (s.workers w).pc.Written p tr s.folder w) :
    (s'.workers w).pc.Written p ((w, a) :: tr) s'.folder w := by
  have hcons : tr ⊆ (w, a) :: tr := List.subset_cons_self _ _
  cases h with
  | connect hw hpc sts db =>
    rw [State.workers_set_self]
    dsimp only
    split <;> trivial
  | fetch hpc =>
    rw [State.workers_set_self]
    dsimp only
    split <;> trivial
  | parse hpc =>
    rw [State.workers_set_self]
    exact written_parsed _
  | @load idx stmts res calls db hpc hload =>
    rw [State.workers_set_self]
    cases res with
    | error e => trivial
    | ok stmts => exact List.mem_cons_self
  | generate hpc stamp =>
    rw [hpc] at hb
    rw [State.workers_set_self]
    exact ⟨hcons hb, fun h => by cases h⟩
  | noFolder | renderThrows => exact hb.mono (fun _ _ _ => rfl) hcons
  | @openFile idx stmts stamp tpl text hpc hrender good =>
    rw [hpc] at hb
    rw [State.workers_set_self, State.folder_set]
    obtain rfl : good = true := hwhole
    refine ⟨hcons hb.1, fun htpl => ?_, rfl, hrender, Function.update_self ..⟩
    obtain ⟨text', hrender', htext⟩ := hb.2 htpl
    refine ⟨text', hrender', Eq.trans (Function.update_of_ne (fun hfn => ?_) ..) htext⟩
    cases (filename_inj hfn).2.trans htpl
  | @write idx stmts stamp tpl text good hpc n =>
    rw [hpc] at hb
    obtain ⟨hload, hhpp, rfl, hrender, hempty⟩ := hb
    rw [State.workers_set_self, State.folder_set]
    have hwritten : (s.writeFile (p.filename tpl idx) true (text.take n)).folder =
        Function.update s.folder (p.filename tpl idx) (some text) := by
      have htake : text.take n = text := List.take_of_length_le hwhole
      rw [State.writeFile, htake]
      simp [hempty]
    have hholds : Holds p (s.writeFile (p.filename tpl idx) true (text.take n)).folder idx stmts
        stamp tpl := ⟨text, hrender, by rw [hwritten, Function.update_self]⟩
    cases tpl with
    | hpp => exact ⟨hcons hload, fun _ => hholds⟩
    | cpp =>
      refine ⟨w, stmts, stamp, hcons hload, fun tpl => ?_⟩
      cases tpl with
      | cpp => exact hholds
      | hpp =>
        obtain ⟨text', hrender', htext⟩ := hhpp rfl
        refine ⟨text', hrender', ?_⟩
        rw [hwritten, Function.update_of_ne (fun hfn => by cases (filename_inj hfn).2), htext]
  | refuse | renderError | report | count | finish =>
    rw [State.workers_set_self]
    trivial

/-- What is written in a run whose files are all written whole. -/
theorem written_of_run (hnames : (p.files.map fun f => stem f.toList).Nodup)
    (h : ((appl p).restrict fun _ l => l.2.Whole).Run tr s) :
    (∀ w, (s.workers w).pc.Written p tr s.folder w) ∧
      ∀ w idx, (w, .report idx (.ok ())) ∈ tr → Output p tr s.folder idx := by
  refine h.invariant (I := fun tr s => (∀ w, (s.workers w).pc.Written p tr s.folder w) ∧
      ∀ w idx, (w, .report idx (.ok ())) ∈ tr → Output p tr s.folder idx) ?_ ?_
  · rintro s ⟨-, -, -, hpc⟩
    refine ⟨fun w => ?_, fun w idx hmem => absurd hmem List.not_mem_nil⟩
    rw [(hpc w).1]
    trivial
  · rintro tr s ⟨w, a⟩ s' hr ⟨ih, ihrep⟩ ⟨⟨hs, hst⟩, hwhole⟩
    have hrun := hr.of_restrict
    have hqueue := (appl_simulates p).run hrun
    have hcons : tr ⊆ (w, a) :: tr := List.subset_cons_self _ _
    refine ⟨fun v => ?_, fun v idx hmem => ?_⟩
    · by_cases hv : v = w
      · subst hv
        exact hst.written hwhole (ih v)
      · rw [hst.workers_of_ne hv]
        refine (ih v).mono (fun idx hhand => ?_) hcons
        refine hst.agree hnames hrun (WorkQueue.hand_lt hqueue hhand).2 fun hhand' => hv ?_
        exact WorkQueue.hand_inj hqueue hhand hhand'
    · rcases List.mem_cons.1 hmem with heq | hmem
      · -- The result that is looked at now is that of a file just written.
        obtain ⟨rfl, rfl⟩ := Prod.mk.inj heq
        cases hst with
        | report hpc =>
          have hb := ih v
          rw [hpc] at hb
          exact Output.mono hb (fun _ => rfl) hcons
      · have hfin : (v, idx) ∈ chron reported tr := mem_chron.2 ⟨_, hmem, rfl⟩
        rw [← chron_finished_queueAct p.files.length] at hfin
        refine (ihrep v idx hmem).mono (hst.agree hnames hrun ?_ fun hhand => ?_) hcons
        · exact (WorkQueue.lt_of_finished hqueue hfin).2
        · exact WorkQueue.hand_notMem hqueue hhand v hfin

/-- Two input files with the same stem can only both have their output if they are rendered to the
    same text. -/
theorem render_eq_of_barename_eq {idx' : ℕ} {stmts stmts' : DataStatements} {stamp stamp' : String}
    {tpl : Tpl} (hname : p.barename idx = p.barename idx') (h : Holds p folder idx stmts stamp tpl)
    (h' : Holds p folder idx' stmts' stamp' tpl) :
    p.render tpl (p.barename idx) stamp stmts = p.render tpl (p.barename idx') stamp' stmts' := by
  obtain ⟨text, hrender, htext⟩ := h
  obtain ⟨text', hrender', htext'⟩ := h'
  have hfn : p.filename tpl idx = p.filename tpl idx' := by
    unfold Params.filename
    rw [hname]
  rw [hfn] at htext
  rw [hrender, hrender', Option.some.inj (htext.symm.trans htext')]

theorem workerCount_pos (p : Params σ) : 0 < p.workerCount :=
  lt_min p.parallel_pos (lt_max_of_lt_right Nat.one_pos)

/-- The output files of a run of the workers that has come to `ok`. -/
theorem outputs_of_run (hnames : (p.files.map fun f => stem f.toList).Nodup)
    (h : ((appl p).restrict fun _ l => l.2.Whole).Run tr s) (hdone : s.Completed p)
    (hok : s.firstError = .ok) (hidx : idx < p.files.length) : Output p tr s.folder idx := by
  have hrun := h.of_restrict
  obtain ⟨hconn, hreport⟩ :=
    (recorded_eq_nil_iff hrun hdone).1 ((recorded_eq_nil_iff_ok hrun).2 hok)
  have honce := (everyFileOnce_of_completed hrun hdone ⟨0, hconn 0 (workerCount_pos p)⟩).1
  obtain ⟨w, hw, -⟩ := honce idx hidx
  obtain ⟨⟨v, a⟩, hmem, ha⟩ := mem_chron.1 hw
  cases a with
  | report idx' res =>
    obtain ⟨rfl, rfl⟩ := Prod.mk.inj (Option.some.inj ha)
    cases res with
    | error e => exact absurd hmem (hreport _ _ e)
    | ok u => exact (written_of_run hnames h).2 _ _ hmem
  | _ => cases ha

/-- **Success means that every output exists**: in every run of the generator in which the output
    files are all opened and written whole, with input files whose stems are distinct, `ok` means
    that the output files of every input file hold what its statements are rendered to. -/
theorem outputs_of_exec_ok (p : Params σ) (hnames : (p.files.map fun f => stem f.toList).Nodup)
    (tr : List (ℕ × Act)) (folder : List Char → Option (List Char))
    (h : Exec p ((appl p).restrict fun _ l => l.2.Whole) tr .ok folder) :
    ∀ idx < p.files.length, Output p tr folder idx := by
  generalize hsts : ExitStatus.ok = sts at h
  cases h with
  | parameters _ hne => exact absurd hsts.symm hne
  | noConnection => cases hsts
  | templates _ hmem =>
    rw [← hsts] at hmem
    exact absurd hmem (by decide)
  | exception => cases hsts
  | ran hrun hdone => exact fun idx hidx => outputs_of_run hnames hrun hdone hsts.symm hidx

/-- Two files whose outputs are written by two workers in turn, -/
theorem outputs_of_exec_ok_twoFiles : ∃ tr folder,
    Exec bothKnown ((appl bothKnown).restrict fun _ l => l.2.Whole) tr .ok folder ∧
      Output bothKnown tr folder 0 ∧ Output bothKnown tr folder 1 := by
  obtain ⟨tr, folder, hexec⟩ : ∃ tr folder,
      Exec bothKnown ((appl bothKnown).restrict fun _ l => l.2.Whole) tr .ok folder := by
    have h := run_beforeWorkers (show bothKnown.run true (inTurn 13) ([], beforeWorkers) =
      some _ from rfl)
    refine ⟨_, _, .ran (h.restrict_mono fun _ _ hwhole => hwhole rfl) ?_⟩
    exact completed_of_two rfl rfl rfl
  have houtputs := outputs_of_exec_ok bothKnown (by decide) tr folder hexec
  exact ⟨tr, folder, hexec, houtputs 0 (by decide), houtputs 1 (by decide)⟩

/-- and two whose outputs cannot be opened. -/
theorem not_outputs : ¬∀ (p : Params Unit) (tr : List (ℕ × Act))
    (folder : List Char → Option (List Char)), p.files.Nodup → Exec p (appl p) tr .ok folder →
    ∀ idx < p.files.length, Output p tr folder idx := by
  intro hall
  have h := run_beforeWorkers (show bothKnown.run false (inTurn 13) ([], beforeWorkers) =
    some _ from rfl)
  obtain ⟨w, stmts, stamp, -, hholds⟩ := hall bothKnown _ _ (by decide)
    (.ran h.of_restrict (completed_of_two rfl rfl rfl)) 0 (by decide)
  obtain ⟨text, -, htext⟩ := hholds .hpp
  cases htext

end Dbgen4.Gen
