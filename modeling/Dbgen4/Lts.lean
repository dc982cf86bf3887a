import Mathlib.Data.Set.Basic
import Mathlib.Data.List.Basic

/-!
# Labelled transition systems

A system is a set of initial states and a labelled step relation. Its runs
record the labels of their steps, *latest first*, so that a run grows by a
`List.cons` and what is defined on traces by structural recursion follows the
induction on runs.

* `Lts.Run`: the runs from an initial state, `Lts.Path`: those from a given one;
* `Lts.Run.invariant`: what holds initially and is preserved by every step, of
  the trace and the state together, holds of every run;
* `Lts.restrict`: the system whose steps meet a further condition, which is how
  an assumption on the environment, or the exact condition of a property, is
  stated;
* `Lts.within`: the system whose steps only reach states of a kind, and
  `Lts.run_restrict_iff_within`: the condition that keeps the runs within them;
* `Lts.reached`: the system whose steps are those from the states it reaches;
* `Lts.Inevitable`: what must come as long as one party goes on, and `Lts.Inevitable.of_rank`;
* `Lts.Eventually`: a state that must come as long as anybody goes on, and `Lts.Eventually.of_rank`;
* `Lts.annotate`: the system that moreover tells what is read off the states, where a
  property is about what the labels do not carry;
* `Lts.Simulates`: a system simulated, step by step, by another one, `Lts.PathSimulates`: one
  whose steps are paths of the other;
* `Lts.lockstep`: two systems that are given the same calls;
* `chron`: the observations made along a trace, in chronological order.
-/

/-- A labelled transition system on the states `S`, with the labels `L`. -/
structure Lts (S L : Type*) where
  /-- The initial states. -/
  init : Set S
  /-- The steps. -/
  step : S → L → S → Prop

namespace Lts

variable {S L : Type*} (A : Lts S L)

/-- The runs: the labels of the steps (latest first) and the state reached. -/
inductive Run : List L → S → Prop
  | init {s : S} : s ∈ A.init → Run [] s
  | step {tr : List L} {s s' : S} {l : L} : Run tr s → A.step s l s' → Run (l :: tr) s'

/-- The paths: the state left, the labels of the steps (latest first) and the
    state reached. -/
inductive Path : S → List L → S → Prop
  | refl (s : S) : Path s [] s
  | step {tr : List L} {s₀ s s' : S} {l : L} : Path s₀ tr s → A.step s l s' → Path s₀ (l :: tr) s'

/-- The states reached by some run. -/
def Reachable (s : S) : Prop := ∃ tr, A.Run tr s

variable {A}

/-- The induction rule: an invariant of the trace and the state together. -/
theorem Run.invariant {I : List L → S → Prop} (hinit : ∀ s ∈ A.init, I [] s)
    (hstep : ∀ tr s l s', A.Run tr s → I tr s → A.step s l s' → I (l :: tr) s')
    {tr : List L} {s : S} (h : A.Run tr s) : I tr s := by
  induction h with
  | init hs => exact hinit _ hs
  | step hr hst ih => exact hstep _ _ _ _ hr ih hst

/-- The induction rule on paths. -/
theorem Path.invariant {I : List L → S → Prop} {s₀ : S} (hinit : I [] s₀)
    (hstep : ∀ tr s l s', A.Path s₀ tr s → I tr s → A.step s l s' → I (l :: tr) s')
    {tr : List L} {s : S} (h : A.Path s₀ tr s) : I tr s := by
  induction h with
  | refl => exact hinit
  | step hp hst ih => exact hstep _ _ _ _ hp (ih hinit hstep) hst

theorem Path.trans {tr tr' : List L} {s₀ s s' : S} (h : A.Path s₀ tr s) (h' : A.Path s tr' s') :
    A.Path s₀ (tr' ++ tr) s' := by
  induction h' with
  | refl => exact h
  | step _ hst ih => exact .step (ih h) hst

theorem Run.append {tr tr' : List L} {s s' : S} (h : A.Run tr s) (h' : A.Path s tr' s') :
    A.Run (tr' ++ tr) s' := by
  induction h' with
  | refl => exact h
  | step _ hst ih => exact .step (ih h) hst

/-- A run splits at any point of its trace. -/
theorem Run.split {tr tr' : List L} {s' : S} (h : A.Run (tr' ++ tr) s') :
    ∃ s, A.Run tr s ∧ A.Path s tr' s' := by
  induction tr' generalizing s' with
  | nil => exact ⟨s', h, .refl s'⟩
  | cons l tr' ih =>
    rw [List.cons_append] at h
    cases h with
    | step hr hst =>
      obtain ⟨s, hs, hp⟩ := ih hr
      exact ⟨s, hs, .step hp hst⟩

/-! ## Restrictions -/

/-- The system whose steps moreover meet the condition `P`. -/
def restrict (A : Lts S L) (P : S → L → Prop) : Lts S L where
  init := A.init
  step s l s' := A.step s l s' ∧ P s l

theorem Run.of_restrict {P : S → L → Prop} {tr : List L} {s : S} (h : (A.restrict P).Run tr s) :
    A.Run tr s := by
  induction h with
  | init hs => exact .init hs
  | step _ hst ih => exact .step ih hst.1

/-- A weaker condition. -/
theorem Run.restrict_mono {P Q : S → L → Prop} (hPQ : ∀ s l, P s l → Q s l) {tr : List L} {s : S}
    (h : (A.restrict P).Run tr s) : (A.restrict Q).Run tr s := by
  induction h with
  | init hs => exact .init hs
  | step _ hst ih => exact .step ih ⟨hst.1, hPQ _ _ hst.2⟩

theorem Path.of_restrict {P : S → L → Prop} {tr : List L} {s₀ s : S}
    (h : (A.restrict P).Path s₀ tr s) : A.Path s₀ tr s := by
  induction h with
  | refl => exact .refl _
  | step _ hst ih => exact .step ih hst.1

/-- The system whose steps moreover only reach states with `Q`. -/
def within (A : Lts S L) (Q : S → Prop) : Lts S L where
  init := A.init
  step s l s' := A.step s l s' ∧ Q s'

theorem Path.of_within {Q : S → Prop} {tr : List L} {s₀ s : S} (h : (A.within Q).Path s₀ tr s) :
    A.Path s₀ tr s := by
  induction h with
  | refl => exact .refl _
  | step _ hst ih => exact .step ih hst.1

theorem Path.within {Q : S → Prop} {tr : List L} {s₀ s : S} (h : (A.within Q).Path s₀ tr s)
    (hs : Q s₀) : Q s := by
  cases h with
  | refl => exact hs
  | step _ hst => exact hst.2

/-- If `P` is what it takes for a step to stay within `Q`, the runs whose steps meet `P` are the
    runs within `Q`. -/
theorem run_restrict_iff_within {P : S → L → Prop} {Q : S → Prop} (hinit : ∀ s ∈ A.init, Q s)
    (hstep : ∀ tr s l s', (A.restrict P).Run tr s → Q s → A.step s l s' → (P s l ↔ Q s'))
    {tr : List L} {s : S} : (A.restrict P).Run tr s ↔ (A.within Q).Run tr s := by
  have hwithin (h : (A.restrict P).Run tr s) : (A.within Q).Run tr s ∧ Q s := by
    induction h with
    | init hs => exact ⟨.init hs, hinit _ hs⟩
    | step hr hst ih =>
      have hq := (hstep _ _ _ _ hr ih.2 hst.1).1 hst.2
      exact ⟨.step ih.1 ⟨hst.1, hq⟩, hq⟩
  have hrestrict (h : (A.within Q).Run tr s) : (A.restrict P).Run tr s ∧ Q s := by
    clear hwithin
    induction h with
    | init hs => exact ⟨.init hs, hinit _ hs⟩
    | step _ hst ih => exact ⟨.step ih.1 ⟨hst.1, (hstep _ _ _ _ ih.1 ih.2 hst.1).2 hst.2⟩, hst.2⟩
  exact ⟨fun h => (hwithin h).1, fun h => (hrestrict h).1⟩

/-- The system whose steps are those from the states it reaches: where a step is to be shown to
    keep something, an invariant of the runs is at hand. -/
def reached (A : Lts S L) : Lts S L := A.restrict fun s _ => A.Reachable s

theorem Run.reached {tr : List L} {s : S} (h : A.Run tr s) : A.reached.Run tr s := by
  induction h with
  | init hs => exact .init hs
  | step hr hst ih => exact .step ih ⟨hst, _, hr⟩

theorem Path.reached {tr : List L} {s₀ s : S} (h : A.Path s₀ tr s) (hs : A.Reachable s₀) :
    A.reached.Path s₀ tr s := by
  obtain ⟨tr₀, hr⟩ := hs
  induction h with
  | refl => exact .refl _
  | step hp hst ih => exact .step (ih hr) ⟨hst, _, hr.append hp⟩

/-! ## Progress -/

/-- As long as a party goes on, whose steps have the labels `P`, it takes a step with `goal` in the
    end, whatever the others do in between; and until then it can go on. -/
inductive Inevitable (A : Lts S L) (P goal : L → Prop) : S → Prop
  | intro {s : S}
    (hcan : ∀ tr s₁, A.Path s tr s₁ → (∀ l ∈ tr, ¬ P l) → ∃ l s', P l ∧ A.step s₁ l s')
    (hnext : ∀ tr s₁, A.Path s tr s₁ → (∀ l ∈ tr, ¬ P l) →
      ∀ l s', A.step s₁ l s' → P l → ¬ goal l → Inevitable A P goal s') :
    Inevitable A P goal s

/-- The rule for it: a rank that the steps of the party lower and the others leave alone. -/
theorem Inevitable.of_rank {α : Type*} {r : α → α → Prop} (hr : WellFounded r) (rank : S → α)
    {P goal : L → Prop} {I : S → Prop}
    (hcan : ∀ s, I s → ∃ l s', P l ∧ A.step s l s')
    (hothers : ∀ s l s', I s → A.step s l s' → ¬ P l → I s' ∧ rank s' = rank s)
    (hown : ∀ s l s', I s → A.step s l s' → P l → ¬ goal l → I s' ∧ r (rank s') (rank s))
    {s : S} (hs : I s) : A.Inevitable P goal s := by
  induction hrank : rank s using hr.induction generalizing s with
  | _ a ih =>
    -- What the others do leaves the rank alone.
    have hpath (tr : List L) (s₁ : S) (h : A.Path s tr s₁) (hnot : ∀ l ∈ tr, ¬ P l) :
        I s₁ ∧ rank s₁ = rank s := by
      induction h with
      | refl => exact ⟨hs, rfl⟩
      | step _ hst ihp =>
        obtain ⟨hi, heq⟩ := ihp hs hrank fun l hl => hnot l (List.mem_cons_of_mem _ hl)
        obtain ⟨hi', heq'⟩ := hothers _ _ _ hi hst (hnot _ List.mem_cons_self)
        exact ⟨hi', heq'.trans heq⟩
    refine .intro (fun tr s₁ h hnot => hcan s₁ (hpath tr s₁ h hnot).1) ?_
    intro tr s₁ h hnot l s' hst hl hgoal
    obtain ⟨hs₁, heq⟩ := hpath tr s₁ h hnot
    obtain ⟨hs', hlt⟩ := hown s₁ l s' hs₁ hst hl hgoal
    exact ih _ (hrank ▸ heq ▸ hlt) hs' rfl

/-- However it goes on, the system comes to a state with `goal`, and until then it can go on. -/
inductive Eventually (A : Lts S L) (goal : S → Prop) : S → Prop
  | now {s : S} (hs : goal s) : Eventually A goal s
  | next {s : S} (hcan : ∃ l s', A.step s l s')
    (hnext : ∀ l s', A.step s l s' → Eventually A goal s') : Eventually A goal s

/-- The rule for it: a rank that every step lowers until the goal is met. -/
theorem Eventually.of_rank {α : Type*} {r : α → α → Prop} (hr : WellFounded r) (rank : S → α)
    {goal I : S → Prop} (hcan : ∀ s, I s → ¬ goal s → ∃ l s', A.step s l s')
    (hstep : ∀ s l s', I s → ¬ goal s → A.step s l s' → I s' ∧ (¬ goal s' → r (rank s') (rank s)))
    {s : S} (hs : I s) : A.Eventually goal s := by
  induction hrank : rank s using hr.induction generalizing s with
  | _ a ih =>
    by_cases hgoal : goal s
    · exact .now hgoal
    · refine .next (hcan s hs hgoal) fun l s' hst => ?_
      obtain ⟨hs', hlt⟩ := hstep s l s' hs hgoal hst
      by_cases hgoal' : goal s'
      · exact .now hgoal'
      · exact ih _ (hrank ▸ hlt hgoal') hs' rfl

/-! ## Annotations -/

/-- The system whose labels moreover carry what `f` reads off each step. -/
def annotate {M : Type*} (A : Lts S L) (f : S → L → S → M) : Lts S (L × M) where
  init := A.init
  step s l s' := A.step s l.1 s' ∧ l.2 = f s l.1 s'

theorem Run.of_annotate {M : Type*} {f : S → L → S → M} {tr : List (L × M)} {s : S}
    (h : (A.annotate f).Run tr s) : A.Run (tr.map Prod.fst) s := by
  induction h with
  | init hs => exact .init hs
  | step _ hst ih => exact .step ih hst.1

/-- `f` and `g` simulate `A` by `A'`: a step of `A` is, through `f`, the step of
    `A'` with the label `g` gives it, or, where `g` gives none, no step at all. -/
structure Simulates {T M : Type*} (A : Lts S L) (A' : Lts T M) (f : S → T) (g : L → Option M) :
    Prop where
  init : ∀ s ∈ A.init, f s ∈ A'.init
  step : ∀ s l s' m, A.step s l s' → g l = some m → A'.step (f s) m (f s')
  stutter : ∀ s l s', A.step s l s' → g l = none → f s' = f s

/-- A run is simulated by the run of the labels it is given. -/
theorem Simulates.run {T M : Type*} {A' : Lts T M} {f : S → T} {g : L → Option M}
    (h : A.Simulates A' f g) {tr : List L} {s : S} (hr : A.Run tr s) :
    A'.Run (tr.filterMap g) (f s) := by
  induction hr with
  | init hs => exact .init (h.init _ hs)
  | @step tr s s' l _ hst ih =>
    cases hg : g l with
    | none =>
      rw [List.filterMap_cons_none hg, h.stutter _ _ _ hst hg]
      exact ih
    | some m =>
      rw [List.filterMap_cons_some hg]
      exact .step ih (h.step _ _ _ _ hst hg)

/-- A path is simulated by the path of the labels it is given. -/
theorem Simulates.path {T M : Type*} {A' : Lts T M} {f : S → T} {g : L → Option M}
    (h : A.Simulates A' f g) {tr : List L} {s₀ s : S} (hp : A.Path s₀ tr s) :
    A'.Path (f s₀) (tr.filterMap g) (f s) := by
  induction hp with
  | refl => exact .refl _
  | @step tr s₀ s s' l _ hst ih =>
    cases hg : g l with
    | none =>
      rw [List.filterMap_cons_none hg, h.stutter _ _ _ hst hg]
      exact ih
    | some m =>
      rw [List.filterMap_cons_some hg]
      exact .step ih (h.step _ _ _ _ hst hg)

/-- `f` and `g` simulate `A` by the paths of `A'`: a step of `A` is, through `f`, the path of `A'`
    with the labels `g` gives it, latest first. -/
structure PathSimulates {T M : Type*} (A : Lts S L) (A' : Lts T M) (f : S → T) (g : L → List M) :
    Prop where
  init : ∀ s ∈ A.init, f s ∈ A'.init
  step : ∀ s l s', A.step s l s' → A'.Path (f s) (g l) (f s')

/-- A run is simulated by the run of the labels it is given. -/
theorem PathSimulates.run {T M : Type*} {A' : Lts T M} {f : S → T} {g : L → List M}
    (h : A.PathSimulates A' f g) {tr : List L} {s : S} (hr : A.Run tr s) :
    A'.Run (tr.flatMap g) (f s) := by
  induction hr with
  | init hs => exact .init (h.init _ hs)
  | step _ hst ih =>
    rw [List.flatMap_cons]
    exact ih.append (h.step _ _ _ hst)

/-! ## Two systems side by side -/

/-- Two systems that are given the same calls `C`, and what each of them answers; `init` relates
    their initial states. -/
def lockstep {T C O P : Type*} (A : Lts S (C × O)) (B : Lts T (C × P)) (init : S → T → Prop) :
    Lts (S × T) (C × O × P) where
  init := {s | s.1 ∈ A.init ∧ s.2 ∈ B.init ∧ init s.1 s.2}
  step s l s' := A.step s.1 (l.1, l.2.1) s'.1 ∧ B.step s.2 (l.1, l.2.2) s'.2

/-- The first of the two does what it does alone. -/
theorem Run.fst {T C O P : Type*} {A : Lts S (C × O)} {B : Lts T (C × P)} {init : S → T → Prop}
    {tr : List (C × O × P)} {s : S × T} (h : (A.lockstep B init).Run tr s) :
    A.Run (tr.map fun l => (l.1, l.2.1)) s.1 := by
  induction h with
  | init hs => exact .init hs.1
  | step _ hst ih => exact .step ih hst.1

end Lts

/-! ## Observations -/

/-- The observations `f` makes along a trace (latest first), in chronological order. -/
def chron {L α : Type*} (f : L → Option α) (tr : List L) : List α := (tr.filterMap f).reverse

@[simp] theorem chron_nil {L α : Type*} (f : L → Option α) : chron f [] = [] := rfl

@[simp] theorem chron_cons {L α : Type*} (f : L → Option α) (l : L) (tr : List L) :
    chron f (l :: tr) = chron f tr ++ (f l).toList := by
  cases h : f l <;> simp [chron, h]

/-- A label of which nothing is observed. -/
theorem chron_cons_none {L α : Type*} {f : L → Option α} {l : L} (h : f l = none) (tr : List L) :
    chron f (l :: tr) = chron f tr := by
  rw [chron_cons, h, Option.toList_none, List.append_nil]

theorem chron_append {L α : Type*} (f : L → Option α) (tr tr' : List L) :
    chron f (tr' ++ tr) = chron f tr ++ chron f tr' := by
  rw [chron, List.filterMap_append, List.reverse_append, chron, chron]

theorem mem_chron {L α : Type*} {f : L → Option α} {tr : List L} {a : α} :
    a ∈ chron f tr ↔ ∃ l ∈ tr, f l = some a := by
  simp [chron]

/-- Observations of the labels that a simulation gives. -/
theorem chron_filterMap {L M α : Type*} (g : L → Option M) (f : M → Option α) (tr : List L) :
    chron f (tr.filterMap g) = chron (fun l => (g l).bind f) tr := by
  rw [chron, List.filterMap_filterMap, chron]
