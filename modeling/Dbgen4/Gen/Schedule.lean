import Dbgen4.Gen.Appl

/-!
# The workers of the generator: schedules

A worker is deterministic but for what it meets outside: its connection, the output folder, the
clock and the files that it opens. `next` is its step when it connects, finds the folder and writes
whole what it opens; it is a step of `appl` (`next_sound`), and there is one as long as it has not
finished (`isSome_next`). `run` computes the trace and the state that the steps of a list of workers
lead to, and what it computes is a run (`run_sound`).
-/

namespace Dbgen4.Gen

variable {σ : Type} {p : Params σ} {s s' : State σ} {w : ℕ} {a : Act} {good : Bool}

namespace Params

/-- The next step of a worker; the output files can be opened, or not. -/
def next (p : Params σ) (good : Bool) (s : State σ) (w : ℕ) : Option (Act × State σ) :=
  let wk := s.workers w
  match wk.pc with
  | .starting =>
    if w < p.workerCount then some (.connect .success, s.set w { wk with pc := .fetching })
    else none
  | .refused => some (.refuse, (s.record .connectionError).set w { wk with pc := .finished })
  | .fetching => some (.fetch s.nextFileIdx,
      State.set { s with nextFileIdx := s.nextFileIdx + 1 } w { wk with
        pc := if s.nextFileIdx < p.files.length then .parsing s.nextFileIdx else .finishing })
  | .parsing idx => some (.work, s.set w { wk with pc := p.parsed idx })
  | .loading idx stmts =>
    let (res, _, db) := p.db.loadFileMetaData stmts p.maxFieldLen wk.db
    some (.load idx res, s.set w { wk with pc := loaded idx res, db := db })
  | .generating idx stmts => some (.work, s.set w { wk with pc := .rendering idx stmts "" .hpp })
  | .rendering idx stmts stamp tpl =>
    match p.render tpl (p.barename idx) stamp stmts with
    | .text text => some (.openFile good, (s.openFile (p.filename tpl idx) good).set w
        { wk with pc := .opened idx stmts stamp tpl text good })
    | .error e => some (.work, s.set w { wk with pc := .returned idx (.error e.status) })
    | .throws => some (.throws, { s with terminated := true })
  | .opened idx stmts stamp tpl text good =>
    some (.write text text.length,
      (s.writeFile (p.filename tpl idx) good (text.take text.length)).set w
        { wk with pc := written idx stmts stamp tpl })
  | .returned idx res => some (.report idx res, (s.report res).set w { wk with pc := .counting })
  | .counting => some (.count,
      s.set w { wk with pc := .fetching, filesProcessed := wk.filesProcessed + 1 })
  | .finishing => some (.finish,
      s.set w { wk with pc := .finished, db := (p.db.rollback wk.db).2 })
  | .finished => none

theorem next_sound (h : p.next good s w = some (a, s')) : Step p s w a s' := by
  rw [next] at h
  split at h
  · rename_i hpc
    split at h
    · rename_i hw
      cases h
      exact .connect hw hpc .success (s.workers w).db
    · cases h
  · cases h
    exact .refuse ‹_›
  · cases h
    exact .fetch ‹_›
  · cases h
    exact .parse ‹_›
  · cases h
    exact .load ‹_› rfl
  · cases h
    exact .generate ‹_› ""
  · rename_i hpc
    split at h
    · cases h
      exact .openFile hpc ‹_› good
    · cases h
      exact .renderError hpc ‹_›
    · cases h
      exact .renderThrows hpc ‹_›
  · rename_i text _ hpc
    cases h
    exact .write hpc text.length
  · cases h
    exact .report ‹_›
  · cases h
    exact .count ‹_›
  · cases h
    exact .finish ‹_›
  · cases h

/-- What is opened then is written whole. -/
theorem whole_of_next (h : p.next true s w = some (a, s')) : a.Whole := by
  rw [next] at h
  split at h
  case h_1 =>
    split at h
    · cases h
      trivial
    · cases h
  case h_7 =>
    split at h
    · cases h
      rfl
    · cases h
      trivial
    · cases h
      trivial
  case h_8 =>
    cases h
    exact Nat.le_refl _
  case h_12 => cases h
  all_goals
    cases h
    trivial

/-- A worker that has not finished can go on. -/
theorem isSome_next (good : Bool) (hw : w < p.workerCount) (hpc : (s.workers w).pc ≠ .finished) :
    (p.next good s w).isSome := by
  rw [next]
  split
  case h_1 => rw [if_pos hw, Option.isSome_some]
  case h_7 => split <;> rfl
  case h_12 hp => exact absurd hp hpc
  all_goals rfl

/-- The trace, latest first, and the state that the steps of the workers lead to, from those given;
    none if a worker cannot go on. -/
def run (p : Params σ) (good : Bool) :
    List ℕ → List (ℕ × Act) × State σ → Option (List (ℕ × Act) × State σ)
  | [], x => some x
  | w :: ws, x => do
    let (a, s) ← p.next good x.2 w
    if x.2.terminated then none else p.run good ws ((w, a) :: x.1, s)

/-- What a schedule leads to is a run, in which every file that can be opened is written whole. -/
theorem run_sound {ws : List ℕ} {x x' : List (ℕ × Act) × State σ}
    (hx : ((appl p).restrict fun _ l => good = true → l.2.Whole).Run x.1 x.2)
    (h : p.run good ws x = some x') :
    ((appl p).restrict fun _ l => good = true → l.2.Whole).Run x'.1 x'.2 := by
  induction ws generalizing x with
  | nil =>
    obtain rfl := Option.some.inj h
    exact hx
  | cons w ws ih =>
    simp only [run, Option.bind_eq_bind, Option.bind_eq_some_iff] at h
    obtain ⟨⟨a, s⟩, hs, h⟩ := h
    split at h
    · cases h
    · rename_i hterminated
      refine ih (x := ((w, a) :: x.1, s)) (hx.step ⟨⟨?_, next_sound hs⟩, ?_⟩) h
      · exact Bool.eq_false_of_not_eq_true hterminated
      · rintro rfl
        exact whole_of_next hs

end Params

/-! ## Two files -/

/-- A yaml file with a query. -/
def oneQuery (id sql : String) : Yaml :=
  .map [("statements", .seq [.map [("id", .scalar id), ("sql", .scalar sql)]])]

/-- A database that describes some queries only, as without columns. -/
def knowing (queries : List String) : Database Unit :=
  { describing ⟨[], []⟩ with
    describer := some fun sql db =>
      (if sql ∈ queries then .ok ⟨[], []⟩ else .error .invalidSql, db) }

/-- Two files with a query each and two workers; what is rendered is the name of the file and its
    query. -/
def twoFiles (queries : List String) : Params Unit where
  files := ["orders.yaml", "items.yaml"]
  parallel := 2
  parallel_pos := Nat.two_pos
  outFolder := "out"
  dbType := .psql
  maxFieldLen := 4096
  loader := ⟨fun file => some (if file = "orders.yaml" then oneQuery "orders" "table orders"
    else oneQuery "items" "table items"), fun _ => none⟩
  db := knowing queries
  render _ name _ s := .text (name ++ s.statements.flatMap fun stmt => stmt.sql.toList)

/-- The database knows both queries. -/
def bothKnown : Params Unit := twoFiles ["table orders", "table items"]

/-- It knows the first one only. -/
def oneKnown : Params Unit := twoFiles ["table orders"]

/-- Before the workers start. -/
def beforeWorkers : State Unit where
  workers _ := { db := () }
  folder _ := none

/-- What a schedule of the workers leads to. -/
theorem run_beforeWorkers {p : Params Unit} {good : Bool} {ws : List ℕ}
    {x : List (ℕ × Act) × State Unit} (h : p.run good ws ([], beforeWorkers) = some x) :
    ((appl p).restrict fun _ l => good = true → l.2.Whole).Run x.1 x.2 :=
  p.run_sound (x := ([], beforeWorkers)) (.init ⟨rfl, rfl, rfl, fun _ => ⟨rfl, rfl⟩⟩) h

/-- The two workers take a step in turn, `n` each. -/
def inTurn (n : ℕ) : List ℕ := (List.replicate n [0, 1]).flatten

theorem completed_of_two {queries : List String} {s : State Unit} (hs : s.terminated = false)
    (h₀ : (s.workers 0).pc = .finished) (h₁ : (s.workers 1).pc = .finished) :
    s.Completed (twoFiles queries) := by
  refine ⟨hs, fun w hw => ?_⟩
  match w, hw with
  | 0, _ => exact h₀
  | 1, _ => exact h₁

end Dbgen4.Gen
