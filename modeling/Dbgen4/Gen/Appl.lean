import Dbgen4.Gen.Parser
import Dbgen4.Gen.Yaml
import Dbgen4.WorkQueue

/-!
# The generator and its workers

`appl::exec` (`programs/appl.cpp`): any number of worker threads share the yaml files
through a cursor, each with a database connection, a parser and a generator of its own.
What they share besides is the first error, under a mutex, and the output folder
(`generator::generate`, `write_file`).

`appl` is the system of the workers. Its steps are those at which a worker touches what is
shared, and the stages of a file in between; an exception that leaves a worker ends the
process. What the yaml library, the database and the templates make of their input is given
(`Params`); which connections and which files fail to open, and how much of a file is
written, is decided by the steps.
-/

namespace Dbgen4.Gen

open Rtl

/-! ## Files -/

/-- `fs::path::filename`. -/
def fileName (path : List Char) : List Char := path.rtakeWhile (· ≠ '/')

/-- `fs::path::stem`. -/
def stem (path : List Char) : List Char :=
  let name := fileName path
  let ext := name.rtakeWhile (· ≠ '.')
  -- A name without a dot, or whose last dot is its first character, is a stem as it is.
  if '.' ∉ name ∨ name.length = ext.length + 1 ∨ name = ['.', '.'] then name
  else name.take (name.length - (ext.length + 1))

/-- The top level templates. -/
inductive Tpl
  | hpp | cpp
  deriving DecidableEq, Repr

/-- The exceptions that `generate_file_through_template` returns as a status. -/
inductive InjaError
  | render | parser | file | data

/-- The status. -/
def InjaError.status : InjaError → ExitStatus
  | render => .injaRenderError
  | parser => .injaParserError
  | file => .injaFileError
  | data => .injaDataError

/-- What `generate_file_through_template` comes to: an exception that it does not return leaves
    it. -/
inductive Rendered
  | text (contents : List Char)
  | error (e : InjaError)
  | throws

/-- The command line, and what the generator is linked with. -/
structure Params (σ : Type) where
  files : List String
  parallel : ℕ
  parallel_pos : 0 < parallel
  outFolder : String
  dbType : DbType
  maxFieldLen : ℕ
  loader : Loader
  db : Database σ
  /-- A template, rendered for a name and a time. -/
  render : Tpl → List Char → String → DataStatements → Rendered

variable {σ : Type}

namespace Params

variable (p : Params σ)

/-- `all_files.at(idx)`. -/
def file (idx : ℕ) : String := p.files.getD idx ""

/-- `worker_count`. -/
def workerCount : ℕ := min p.parallel (max p.files.length 1)

/-- `barename_`, for a file. -/
def barename (idx : ℕ) : List Char := stem (p.file idx).toList

/-- `filename`, for a file. -/
def filename (tpl : Tpl) (idx : ℕ) : List Char :=
  p.outFolder.toList ++ '/' :: (p.barename idx ++ '.' :: match tpl with
    | .hpp => ['h', 'p', 'p']
    | .cpp => ['c', 'p', 'p'])

end Params

/-! ## Workers -/

/-- Where a worker is. -/
inductive Pc
  /-- Before `connect`. -/
  | starting
  /-- It could not connect, and is about to say so. -/
  | refused
  /-- Before it takes the next file. -/
  | fetching
  /-- In `process_one_file`. -/
  | parsing (idx : ℕ)
  | loading (idx : ℕ) (s : DataStatements)
  /-- In `generate`. -/
  | generating (idx : ℕ) (s : DataStatements)
  | rendering (idx : ℕ) (s : DataStatements) (stamp : String) (tpl : Tpl)
  /-- In `write_file`, with the stream opened, or not. -/
  | opened (idx : ℕ) (s : DataStatements) (stamp : String) (tpl : Tpl) (text : List Char)
    (good : Bool)
  /-- `process_one_file` has returned. -/
  | returned (idx : ℕ) (res : Except ExitStatus Unit)
  /-- Before `++stats.files_processed`. -/
  | counting
  | finishing
  | finished

/-- A worker thread. -/
structure Worker (σ : Type) where
  pc : Pc := .starting
  /-- Its connection. -/
  db : σ
  filesProcessed : ℕ := 0

/-- The workers and what they share. -/
structure State (σ : Type) where
  nextFileIdx : ℕ := 0
  firstError : ExitStatus := .ok
  workers : ℕ → Worker σ
  /-- The contents of the files. -/
  folder : List Char → Option (List Char)
  /-- An exception has left a worker. -/
  terminated : Bool := false

namespace State

variable (s : State σ)

/-- A worker moves on. -/
def set (w : ℕ) (wk : Worker σ) : State σ := { s with workers := Function.update s.workers w wk }

/-- `if (first_error == ok) first_error = e`. -/
def record (e : ExitStatus) : State σ :=
  if s.firstError = .ok then { s with firstError := e } else s

/-- The constructor of `std::ofstream` empties a file that it can open. -/
def openFile (fn : List Char) (good : Bool) : State σ :=
  if good then { s with folder := Function.update s.folder fn (some []) } else s

/-- `file.write`, from the start of the file, as far as it gets; on a stream that is not open it
    does nothing. -/
def writeFile (fn : List Char) (good : Bool) (text : List Char) : State σ :=
  if good then
    let old := (s.folder fn).getD []
    { s with folder := Function.update s.folder fn (some (text ++ old.drop text.length)) }
  else s

end State

/-- What a worker does. -/
inductive Act
  | connect (sts : DbSts)
  /-- It records that it could not connect. -/
  | refuse
  | fetch (idx : ℕ)
  /-- A step of its own. -/
  | work
  /-- `load_file_meta_data` returns. -/
  | load (idx : ℕ) (res : Except ExitStatus DataStatements)
  | openFile (good : Bool)
  /-- So many of the characters of a text are written. -/
  | write (text : List Char) (written : ℕ)
  /-- The result of a file is looked at; an error is recorded. -/
  | report (idx : ℕ) (res : Except ExitStatus Unit)
  | count
  | finish
  /-- An exception leaves it. -/
  | throws

/-- An output file is opened, and written whole. -/
def Act.Whole : Act → Prop
  | .openFile good => good = true
  | .write text n => text.length ≤ n
  | _ => True

/-- Where a worker is after parsing. -/
def Params.parsed (p : Params σ) (idx : ℕ) : Pc :=
  match parseYamlFile p.loader (p.file idx) p.dbType with
  | .error e => .returned idx (.error e)
  | .ok s => .loading idx s

/-- Where it is after loading. -/
def loaded (idx : ℕ) : Except ExitStatus DataStatements → Pc
  | .error e => .returned idx (.error e)
  | .ok s => .generating idx s

/-- Where it is after writing a file. `generate` looks for an error of `write_file`, which returns
    none. -/
def written (idx : ℕ) (s : DataStatements) (stamp : String) : Tpl → Pc
  | .hpp => .rendering idx s stamp .cpp
  | .cpp => .returned idx (.ok ())

/-- Where it is after a result was looked at. -/
def State.report (s : State σ) : Except ExitStatus Unit → State σ
  | .error e => s.record e
  | .ok () => s

/-- The steps. -/
inductive Step (p : Params σ) (s : State σ) (w : ℕ) : Act → State σ → Prop
  | connect (hw : w < p.workerCount) (hpc : (s.workers w).pc = .starting) (sts : DbSts) (db : σ) :
    Step p s w (.connect sts) (s.set w
      { s.workers w with pc := if sts.isSuccess then .fetching else .refused, db := db })
  | refuse (hpc : (s.workers w).pc = .refused) :
    Step p s w .refuse ((s.record .connectionError).set w { s.workers w with pc := .finished })
  | fetch (hpc : (s.workers w).pc = .fetching) :
    Step p s w (.fetch s.nextFileIdx) (State.set { s with nextFileIdx := s.nextFileIdx + 1 } w
      { s.workers w with
        pc := if s.nextFileIdx < p.files.length then .parsing s.nextFileIdx else .finishing })
  | parse {idx : ℕ} (hpc : (s.workers w).pc = .parsing idx) :
    Step p s w .work (s.set w { s.workers w with pc := p.parsed idx })
  | load {idx : ℕ} {stmts : DataStatements} {res : Except ExitStatus DataStatements}
    {calls : List DbCall} {db : σ} (hpc : (s.workers w).pc = .loading idx stmts)
    (hload : p.db.loadFileMetaData stmts p.maxFieldLen (s.workers w).db = (res, calls, db)) :
    Step p s w (.load idx res) (s.set w { s.workers w with pc := loaded idx res, db := db })
  | generate {idx : ℕ} {stmts : DataStatements} (hpc : (s.workers w).pc = .generating idx stmts)
    (stamp : String) :
    Step p s w .work (s.set w { s.workers w with pc := .rendering idx stmts stamp .hpp })
  -- The output folder does not exist and cannot be created.
  | noFolder {idx : ℕ} {stmts : DataStatements} (hpc : (s.workers w).pc = .generating idx stmts) :
    Step p s w .throws { s with terminated := true }
  | renderError {idx : ℕ} {stmts : DataStatements} {stamp : String} {tpl : Tpl} {e : InjaError}
    (hpc : (s.workers w).pc = .rendering idx stmts stamp tpl)
    (hrender : p.render tpl (p.barename idx) stamp stmts = .error e) :
    Step p s w .work (s.set w { s.workers w with pc := .returned idx (.error e.status) })
  | renderThrows {idx : ℕ} {stmts : DataStatements} {stamp : String} {tpl : Tpl}
    (hpc : (s.workers w).pc = .rendering idx stmts stamp tpl)
    (hrender : p.render tpl (p.barename idx) stamp stmts = .throws) :
    Step p s w .throws { s with terminated := true }
  | openFile {idx : ℕ} {stmts : DataStatements} {stamp : String} {tpl : Tpl} {text : List Char}
    (hpc : (s.workers w).pc = .rendering idx stmts stamp tpl)
    (hrender : p.render tpl (p.barename idx) stamp stmts = .text text) (good : Bool) :
    Step p s w (.openFile good) ((s.openFile (p.filename tpl idx) good).set w
      { s.workers w with pc := .opened idx stmts stamp tpl text good })
  | write {idx : ℕ} {stmts : DataStatements} {stamp : String} {tpl : Tpl} {text : List Char}
    {good : Bool} (hpc : (s.workers w).pc = .opened idx stmts stamp tpl text good) (n : ℕ) :
    Step p s w (.write text n) ((s.writeFile (p.filename tpl idx) good (text.take n)).set w
      { s.workers w with pc := written idx stmts stamp tpl })
  | report {idx : ℕ} {res : Except ExitStatus Unit}
    (hpc : (s.workers w).pc = .returned idx res) :
    Step p s w (.report idx res) ((s.report res).set w { s.workers w with pc := .counting })
  | count (hpc : (s.workers w).pc = .counting) :
    Step p s w .count (s.set w
      { s.workers w with pc := .fetching, filesProcessed := (s.workers w).filesProcessed + 1 })
  | finish (hpc : (s.workers w).pc = .finishing) :
    Step p s w .finish (s.set w
      { s.workers w with pc := .finished, db := (p.db.rollback (s.workers w).db).2 })

/-- The system of the workers, which have not started at first. -/
def appl (p : Params σ) : Lts (State σ) (ℕ × Act) where
  init := {s | s.nextFileIdx = 0 ∧ s.firstError = .ok ∧ s.terminated = false ∧
    ∀ w, (s.workers w).pc = .starting ∧ (s.workers w).filesProcessed = 0}
  step s l s' := s.terminated = false ∧ Step p s l.1 l.2 s'

/-- All workers have finished. -/
def State.Completed (p : Params σ) (s : State σ) : Prop :=
  s.terminated = false ∧ ∀ w < p.workerCount, (s.workers w).pc = .finished

end Dbgen4.Gen
