import Mathlib.Tactic.FinCases
import Dbgen4.Gen.Failures
import Dbgen4.Gen.Types

/-!
# The templates always render

Whatever the yaml file says and the database describes, the two files are rendered: no template
reads what is not there, or does with it what cannot be done (`generated_isText`). So the templates
are no reason for a file to fail: in no run of the generator does a worker report an error that is
not the one of the parser or of the database, and an exception leaves it only before the first
template (`failed_only`).
-/

namespace Dbgen4.Gen

open Template

/-! ## Rendering -/

/-- Nothing is said of a text. -/
def anyText : Domain Unit where
  Holds _ _ := True
  lit _ := ()
  append _ _ := ()
  join _ _ := ()
  star _ := ()
  int := ()
  holds_lit _ := trivial
  holds_append _ _ := trivial
  holds_join_left _ := trivial
  holds_join_right _ := trivial
  holds_star _ := trivial
  holds_int _ := trivial

/-- Nothing is said of any text. -/
def anyTexts : Texts Unit := ⟨fun _ => (), fun _ => (), fun _ => ()⟩

theorem hasTexts_of_get? {keys : List String} {j : Json}
    (h : ∀ k ∈ keys, ∃ s, j.get? k = some (.str s)) :
    HasTexts anyText keys (fun _ => ()) j := fun k hk =>
  (h k hk).imp fun _ hs => ⟨hs, trivial⟩

theorem hold_anyTexts (outFolder barename : List Char) (timestamp : String) (s : DataStatements) :
    anyTexts.Hold anyText outFolder barename timestamp s where
  column _ _ el _ := hasTexts_of_get? fun k hk => by
    fin_cases hk <;> exact ⟨_, rfl⟩
  statement stmt _ := hasTexts_of_get? fun k hk => by
    fin_cases hk <;> exact ⟨_, rfl⟩
  file := hasTexts_of_get? fun k hk => by
    fin_cases hk <;> exact ⟨_, rfl⟩

theorem checkAll_isSome (tpl : Tpl) :
    (Node.checkAll anyText (mainSig anyText id Jinja.bufHpp Jinja.bufCpp) tpl.nodes
      (.start anyTexts.fileFields)).isSome := by
  cases tpl <;> decide +kernel

theorem generated_isText (outFolder : String) (tpl : Tpl) (barename : List Char)
    (timestamp : String) (s : DataStatements) :
    ∃ contents, generated outFolder tpl barename timestamp s = .text contents := by
  obtain ⟨⟨a, Γ⟩, hcheck⟩ := Option.isSome_iff_exists.1 (checkAll_isSome tpl)
  obtain ⟨contents, hr, -⟩ := render_of_checkAll (mainSig_sound fun _ _ _ => trivial) hcheck
    (hold_anyTexts outFolder.toList barename timestamp s).fileFields
  exact ⟨contents, by rw [generated, generateFileThroughTemplate, hr]⟩

/-! ## Runs -/

/-- The generator with its templates. -/
def Params.withTemplates {σ : Type} (p : Params σ) : Params σ :=
  { p with render := generated p.outFolder }

variable {σ : Type} {p : Params σ} {s s' : State σ} {tr : List (ℕ × Act)} {w : ℕ} {a : Act}

/-- The parser has rejected the file, or its statements could not be loaded. -/
def Rejected (p : Params σ) (tr : List (ℕ × Act)) (w idx : ℕ) (e : ExitStatus) : Prop :=
  parseYamlFile p.loader (p.file idx) p.dbType = .error e ∨ (w, .load idx (.error e)) ∈ tr

/-- An error that a worker is about to report comes from the parser or the database. -/
def Pc.Explained (p : Params σ) (tr : List (ℕ × Act)) (w : ℕ) : Pc → Prop
  | .returned idx (.error e) => Rejected p tr w idx e
  | _ => True

theorem Rejected.cons {v idx : ℕ} {e : ExitStatus} (h : Rejected p tr v idx e) (l : ℕ × Act) :
    Rejected p (l :: tr) v idx e :=
  h.imp_right (List.mem_cons_of_mem l)

theorem Pc.Explained.cons {pc : Pc} (h : pc.Explained p tr w) (l : ℕ × Act) :
    pc.Explained p (l :: tr) w := by
  cases pc with
  | returned idx res =>
    cases res with
    | error e => exact Rejected.cons h l
    | ok u => trivial
  | _ => trivial

/-- The step of the worker itself. -/
theorem Step.explained (h : Step p.withTemplates s w a s')
    (hb : (s.workers w).pc.Explained p tr w) :
    (s'.workers w).pc.Explained p ((w, a) :: tr) w := by
  cases h with
  | connect =>
    rw [State.workers_set_self]
    dsimp only
    split <;> trivial
  | fetch =>
    rw [State.workers_set_self]
    dsimp only
    split <;> trivial
  | parse =>
    rw [State.workers_set_self, Params.parsed]
    dsimp only
    split
    · rename_i e he
      exact .inl he
    · trivial
  | @load idx stmts res =>
    rw [State.workers_set_self]
    cases res with
    | error e => exact .inr List.mem_cons_self
    | ok stmts => trivial
  | noFolder | renderThrows => exact hb.cons _
  | @renderError idx stmts stamp tpl e _ hrender =>
    obtain ⟨contents, htext⟩ := generated_isText p.outFolder tpl (p.barename idx) stamp stmts
    cases hrender.symm.trans htext
  | @write idx stmts stamp tpl =>
    rw [State.workers_set_self]
    cases tpl <;> trivial
  | refuse | generate | openFile | report | count | finish =>
    rw [State.workers_set_self]
    trivial

/-- An exception leaves a worker before the first template. -/
theorem Step.generating_of_throws (h : Step p.withTemplates s w .throws s') :
    ∃ idx stmts, (s'.workers w).pc = .generating idx stmts := by
  cases h with
  | noFolder hpc => exact ⟨_, _, hpc⟩
  | @renderThrows idx stmts stamp tpl _ hrender =>
    obtain ⟨contents, htext⟩ := generated_isText p.outFolder tpl (p.barename idx) stamp stmts
    cases hrender.symm.trans htext

/-- **What files fail of.** In every run of the generator, an error that is reported of a file is
    the one its parser has returned or the one that loading its statements has, and an exception
    leaves a worker only before it renders the first template, where it looks for the output
    folder: the templates are never the reason. -/
theorem failed_only (h : (appl p.withTemplates).Run tr s) :
    (∀ w idx e, (w, .report idx (.error e)) ∈ tr → Rejected p tr w idx e) ∧
      ∀ w, (w, .throws) ∈ tr → ∃ idx stmts, (s.workers w).pc = .generating idx stmts := by
  suffices hinv : (∀ w, (s.workers w).pc.Explained p tr w) ∧
      (∀ w idx e, (w, .report idx (.error e)) ∈ tr → Rejected p tr w idx e) ∧
      ∀ w, (w, .throws) ∈ tr → ∃ idx stmts, (s.workers w).pc = .generating idx stmts from hinv.2
  refine h.invariant (I := fun tr s => (∀ w, (s.workers w).pc.Explained p tr w) ∧
      (∀ w idx e, (w, .report idx (.error e)) ∈ tr → Rejected p tr w idx e) ∧
      ∀ w, (w, .throws) ∈ tr → ∃ idx stmts, (s.workers w).pc = .generating idx stmts) ?_ ?_
  · rintro s ⟨-, -, -, hpc⟩
    refine ⟨fun w => ?_, fun w idx e hmem => absurd hmem List.not_mem_nil,
      fun w hmem => absurd hmem List.not_mem_nil⟩
    rw [(hpc w).1]
    trivial
  · rintro tr s ⟨w, a⟩ s' hr ⟨ih, ihrep, -⟩ ⟨hs, hst⟩
    refine ⟨fun v => ?_, fun v idx e hmem => ?_, fun v hmem => ?_⟩
    · by_cases hv : v = w
      · rw [hv]
        exact hst.explained (ih w)
      · rw [hst.workers_of_ne hv]
        exact (ih v).cons _
    · rcases List.mem_cons.1 hmem with heq | hmem
      · cases heq
        cases hst with
        | report hpc =>
          have hb := ih w
          rw [hpc] at hb
          exact Rejected.cons hb _
      · exact (ihrep v idx e hmem).cons _
    · rcases List.mem_cons.1 hmem with heq | hmem
      · cases heq
        exact hst.generating_of_throws
      · -- After an exception there is no step.
        exact absurd ((terminated_iff hr).2 ⟨v, hmem⟩) (ne_true_of_eq_false hs)

/-- A worker that is to render a file can open it, with some text. -/
theorem exists_opened {idx : ℕ} {stmts : DataStatements} {stamp : String} {tpl : Tpl}
    (h : ((appl p.withTemplates).restrict fun _ l => true = true → l.2.Whole).Run tr s)
    (hs : s.terminated = false) (hpc : (s.workers w).pc = .rendering idx stmts stamp tpl) :
    ∃ text, ((appl p.withTemplates).restrict fun _ l => true = true → l.2.Whole).Run
      ((w, .openFile true) :: tr) ((s.openFile (p.filename tpl idx) true).set w
        { s.workers w with pc := .opened idx stmts stamp tpl text true }) := by
  obtain ⟨text, htext⟩ := generated_isText p.outFolder tpl (p.barename idx) stamp stmts
  exact ⟨text, h.step ⟨⟨hs, .openFile hpc htext true⟩, fun _ => rfl⟩⟩

/-- A worker renders the first file, and reports that the second one could not be loaded. -/
theorem failed_only_twoFiles : ∃ tr s, (appl oneKnown.withTemplates).Run tr s ∧
    (0, .report 0 (.ok ())) ∈ tr ∧ (0, .report 1 (.error .sqlSyntaxErr)) ∈ tr ∧
    Rejected oneKnown tr 0 1 .sqlSyntaxErr := by
  have h₁ := run_beforeWorkers (show oneKnown.withTemplates.run true [0, 0, 0, 0, 0]
    ([], beforeWorkers) = some _ from rfl)
  obtain ⟨hpp, h₂⟩ := exists_opened (w := 0) h₁ rfl rfl
  have h₃ := h₂.step (l := (0, _)) ⟨⟨rfl, .write rfl hpp.length⟩, fun _ => Nat.le_refl _⟩
  obtain ⟨cpp, h₄⟩ := exists_opened (w := 0) h₃ rfl rfl
  have h₅ := oneKnown.withTemplates.run_sound (x := (_, _)) h₄
    (show oneKnown.withTemplates.run true (List.replicate 7 0) (_, _) = some _ from rfl)
  obtain ⟨tr, s, h, hok, herror⟩ : ∃ tr s, (appl oneKnown.withTemplates).Run tr s ∧
      (0, .report 0 (.ok ())) ∈ tr ∧ (0, .report 1 (.error .sqlSyntaxErr)) ∈ tr :=
    ⟨_, _, h₅.of_restrict, List.mem_of_getElem? (i := 5) rfl, List.mem_cons_self⟩
  exact ⟨tr, s, h, hok, herror, (failed_only h).1 0 1 _ herror⟩

end Dbgen4.Gen
