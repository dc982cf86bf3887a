import Mathlib.Data.List.Infix

/-!
# Sessions with transaction blocks

A database session as the rules of SQL transaction blocks make it, whatever the
statements are: what a statement does to the database is a list of effects of
any type, and whether it is accepted is an input (`Verdict`). The state of a
session carries what there is to carry and no more: a session outside a block
has no pending effects, and one whose block has failed has only its savepoints.

* `Session.run`: a command, by the state of the block;
* `Session.parse`: a command that is parsed and not run;
* `Session.publishes`: what a command commits;
* `Session.Advances`: what can happen to a session which is given no command
  that starts or ends a transaction;
* `Session.durable_iff`: what a statement has done is made durable by a commit
  that is accepted if and only if the block has not failed in between.
-/

namespace Transaction

variable {E : Type*}

/-- Where a session is; a savepoint has a name and the effects pending when it was set. -/
inductive Block (E : Type*)
  /-- Every statement is a transaction of its own. -/
  | idle
  /-- In a block, with its effects so far. -/
  | opened (pending : List E) (savepoints : List (String × List E))
  /-- In a block in which a statement has failed. -/
  | aborted (savepoints : List (String × List E))
  deriving DecidableEq, Repr

/-- What a statement is to the block it runs in. -/
inductive Command
  | begin
  | commit
  | rollback
  | savepoint (name : String)
  | release (name : String)
  | rollbackTo (name : String)
  /-- A statement which must not run in a block. -/
  | outside
  /-- Any other statement. -/
  | plain
  deriving DecidableEq, Repr

/-- The commands that start a transaction, end it or undo a part of it. -/
def Command.isControl : Command → Bool
  | .begin | .commit | .rollback | .rollbackTo _ => true
  | _ => false

/-- The commands that a failed block still takes. -/
def Command.isExit : Command → Bool
  | .commit | .rollback | .rollbackTo _ => true
  | _ => false

/-- What a statement comes to where the block allows it: its effects, or a failure. -/
inductive Verdict (E : Type*)
  | ok (effects : List E)
  | refused
  deriving DecidableEq, Repr

/-- A session, and what is committed of the database. -/
@[ext] structure Session (E : Type*) where
  block : Block E
  committed : List E
  deriving DecidableEq, Repr

/-- The savepoints from the last one of a name on. -/
def since (name : String) (savepoints : List (String × List E)) : List (String × List E) :=
  savepoints.dropWhile fun sp => sp.1 ≠ name

/-- The session is not in a block. -/
def Block.isIdle : Block E → Bool
  | .idle => true
  | _ => false

theorem Block.isIdle_iff {b : Block E} : b.isIdle ↔ b = .idle := by
  cases b <;> simp [isIdle]

/-- The effects of a block that are not committed yet. -/
def Block.pending : Block E → List E
  | .opened pending _ => pending
  | _ => []

namespace Session

variable {s s' s'' t : Session E} {c : Command} {v : Verdict E}

/-- A command outside a block. -/
def runIdle (s : Session E) : Command → Verdict E → Bool × Session E
  | .begin, _ => (true, { s with block := .opened [] [] })
  -- There is nothing to end, which is only a warning.
  | .commit, _ | .rollback, _ => (true, s)
  | .plain, .ok es | .outside, .ok es => (true, { s with committed := s.committed ++ es })
  | _, _ => (false, s)

/-- A command in a block. -/
def runOpened (s : Session E) (pending : List E) (savepoints : List (String × List E)) :
    Command → Verdict E → Bool × Session E
  | .begin, _ => (true, s)
  | .commit, .ok es => (true, ⟨.idle, s.committed ++ pending ++ es⟩)
  -- A commit which fails ends the transaction all the same.
  | .commit, .refused => (false, { s with block := .idle })
  | .rollback, .ok _ => (true, { s with block := .idle })
  | .plain, .ok es => (true, { s with block := .opened (pending ++ es) savepoints })
  | .savepoint name, .ok _ =>
    (true, { s with block := .opened pending ((name, pending) :: savepoints) })
  | .release name, .ok _ => match since name savepoints with
    | _ :: rest => (true, { s with block := .opened pending rest })
    | [] => (false, { s with block := .aborted savepoints })
  | .rollbackTo name, .ok _ => match since name savepoints with
    | sp :: rest => (true, { s with block := .opened sp.2 (sp :: rest) })
    | [] => (false, { s with block := .aborted savepoints })
  | _, _ => (false, { s with block := .aborted savepoints })

/-- A command in a block that has failed. -/
def runAborted (s : Session E) (savepoints : List (String × List E)) :
    Command → Verdict E → Bool × Session E
  -- A commit is accepted, and rolls back.
  | .commit, _ | .rollback, .ok _ => (true, { s with block := .idle })
  | .rollbackTo name, .ok _ => match since name savepoints with
    | sp :: rest => (true, { s with block := .opened sp.2 (sp :: rest) })
    | [] => (false, s)
  | _, _ => (false, s)

/-- Run a command: whether it is accepted, and the session after it. -/
def run (s : Session E) (c : Command) (v : Verdict E) : Bool × Session E :=
  match s.block with
  | .idle => s.runIdle c v
  | .opened pending savepoints => s.runOpened pending savepoints c v
  | .aborted savepoints => s.runAborted savepoints c v

/-- Parse a command, to run it later: this has no effect, but it can fail, and then fails the
    block. -/
def parse (s : Session E) (c : Command) (v : Verdict E) : Bool × Session E :=
  match s.block, v with
  | .idle, .ok _ => (true, s)
  | .idle, .refused => (false, s)
  | .opened _ _, .ok _ => (true, s)
  | .opened _ savepoints, .refused => (false, { s with block := .aborted savepoints })
  | .aborted _, .ok _ => (c.isExit, s)
  | .aborted _, .refused => (false, s)

/-- The end of a session: what is not committed is gone. -/
def close (s : Session E) : Session E := { s with block := .idle }

/-- The database as the session sees it. -/
def work (s : Session E) : List E := s.committed ++ s.block.pending

/-- What has been done between two states of a session. -/
def effects (s s' : Session E) : List E := s'.work.drop s.work.length

/-- The session is in a block that has not failed. -/
def Opened (s : Session E) : Prop := ∃ pending savepoints, s.block = .opened pending savepoints

/-- The block has failed. -/
def Failed (s : Session E) : Prop := ∃ savepoints, s.block = .aborted savepoints

theorem not_failed {pending : List E} {savepoints : List (String × List E)}
    (h : s.block = .opened pending savepoints) : ¬s.Failed := by
  rintro ⟨sps, hs⟩
  cases h.symm.trans hs

/-! ## Leaving a block -/

/-- A session leaves its block by a commit, whatever comes of it, or a rollback. -/
theorem run_block_eq_idle (hs : s.block ≠ .idle) :
    (s.run c v).2.block = .idle ↔ c = .commit ∨ c = .rollback ∧ v ≠ .refused := by
  obtain ⟨b, cs⟩ := s
  cases b with
  | idle => exact absurd rfl hs
  | opened pending savepoints =>
    cases c <;> cases v <;> simp [run, runOpened]
    all_goals split <;> simp
  | aborted savepoints =>
    cases c <;> cases v <;> simp [run, runAborted]
    split <;> simp

/-- A commit is not accepted only where it fails, and then it ends the block all the same. -/
theorem run_commit_eq_false : (s.run .commit v).1 = false ↔ s.Opened ∧ v = .refused := by
  obtain ⟨b, cs⟩ := s
  cases b <;> cases v <;> simp [run, runIdle, runOpened, runAborted, Opened]

theorem run_rollback_eq_false (hs : s.block ≠ .idle) :
    (s.run .rollback v).1 = false ↔ v = .refused := by
  obtain ⟨b, cs⟩ := s
  cases b with
  | idle => exact absurd rfl hs
  | _ => cases v <;> simp [run, runOpened, runAborted]

/-- In a block, a statement is accepted if neither it nor one before it has failed. -/
theorem run_plain_eq_true (hs : s.block ≠ .idle) :
    (s.run .plain v).1 = true ↔ s.Opened ∧ v ≠ .refused := by
  obtain ⟨b, cs⟩ := s
  cases b with
  | idle => exact absurd rfl hs
  | _ => cases v <;> simp [run, runOpened, runAborted, Opened]

theorem run_plain_opened (h : (s.run .plain v).1 = true) (ho : s.Opened) :
    (s.run .plain v).2.Opened := by
  obtain ⟨b, cs⟩ := s
  obtain ⟨pending, sps, rfl⟩ : ∃ pending sps, b = .opened pending sps := ho
  cases v with
  | ok es => exact ⟨pending ++ es, sps, rfl⟩
  | refused => cases h

theorem run_begin_block_ne_idle : (s.run .begin v).2.block ≠ .idle := by
  obtain ⟨b, cs⟩ := s
  cases b <;> simp [run, runIdle, runOpened, runAborted]

/-- Parsing a command does not leave a block. -/
theorem parse_block_eq_idle : (s.parse c v).2.block = .idle ↔ s.block = .idle := by
  obtain ⟨b, cs⟩ := s
  cases b <;> cases v <;> simp [parse]

/-! ## What is committed -/

/-- What a command commits: outside a block a statement commits what it does, and a commit what
    the block has pending. -/
def publishes (s : Session E) (c : Command) (v : Verdict E) : List E :=
  match s.block, c, v with
  | .idle, .plain, .ok es | .idle, .outside, .ok es => es
  | .opened pending _, .commit, .ok es => pending ++ es
  | _, _, _ => []

theorem committed_run (s : Session E) (c : Command) (v : Verdict E) :
    (s.run c v).2.committed = s.committed ++ s.publishes c v := by
  obtain ⟨b, cs⟩ := s
  cases b with
  | idle => cases c <;> cases v <;> simp [run, runIdle, publishes]
  | opened pending savepoints =>
    cases c <;> cases v <;> simp [run, runOpened, publishes]
    all_goals split <;> rfl
  | aborted savepoints =>
    cases c <;> cases v <;> simp [run, runAborted, publishes]
    split <;> rfl

theorem committed_run_begin (s : Session E) (v : Verdict E) :
    (s.run .begin v).2.committed = s.committed := by
  have hnil : s.publishes .begin v = [] := by
    obtain ⟨b, cs⟩ := s
    cases b <;> rfl
  rw [committed_run, hnil, List.append_nil]

@[simp] theorem committed_parse : (s.parse c v).2.committed = s.committed := by
  obtain ⟨b, cs⟩ := s
  cases b <;> cases v <;> rfl

/-- In a block, only a commit publishes anything. -/
theorem publishes_eq_nil (hs : s.block ≠ .idle) (hc : c ≠ .commit) : s.publishes c v = [] := by
  obtain ⟨b, cs⟩ := s
  cases b with
  | idle => exact absurd rfl hs
  | opened pending savepoints => cases c <;> first | rfl | exact absurd rfl hc
  | aborted savepoints => rfl

theorem publishes_eq_nil_of_failed (hs : s.Failed) : s.publishes c v = [] := by
  obtain ⟨b, cs⟩ := s
  obtain ⟨savepoints, rfl⟩ : ∃ savepoints, b = .aborted savepoints := hs
  rfl

/-- In a block, a command that cannot be parsed fails the block. -/
theorem failed_parse (hs : s.block ≠ .idle) (h : (s.parse c v).1 = false) :
    (s.parse c v).2.Failed := by
  obtain ⟨b, cs⟩ := s
  cases b with
  | idle => exact absurd rfl hs
  | opened pending savepoints =>
    cases v with
    | ok es => cases h
    | refused => exact ⟨savepoints, rfl⟩
  | aborted savepoints => cases v <;> exact ⟨savepoints, rfl⟩

/-! ## Between two boundaries -/

/-- What can happen to a session between two transaction boundaries. -/
inductive Advances : Session E → Session E → Prop
  | idle (cs es : List E) : Advances ⟨.idle, cs⟩ ⟨.idle, cs ++ es⟩
  | opened (cs pending es : List E) (sps sps' : List (String × List E)) :
    Advances ⟨.opened pending sps, cs⟩ ⟨.opened (pending ++ es) sps', cs⟩
  | fails (cs pending : List E) (sps sps' : List (String × List E)) :
    Advances ⟨.opened pending sps, cs⟩ ⟨.aborted sps', cs⟩
  | aborted (cs : List E) (sps sps' : List (String × List E)) :
    Advances ⟨.aborted sps, cs⟩ ⟨.aborted sps', cs⟩

namespace Advances

theorem idle' (cs : List E) : Advances ⟨.idle, cs⟩ ⟨.idle, cs⟩ := by
  have := idle cs []
  rwa [List.append_nil] at this

theorem opened' (cs pending : List E) (sps sps' : List (String × List E)) :
    Advances ⟨.opened pending sps, cs⟩ ⟨.opened pending sps', cs⟩ := by
  have := opened cs pending [] sps sps'
  rwa [List.append_nil] at this

theorem refl (s : Session E) : s.Advances s := by
  obtain ⟨b, cs⟩ := s
  cases b with
  | idle => exact idle' cs
  | opened pending sps => exact opened' cs pending sps sps
  | aborted sps => exact aborted cs sps sps

theorem trans (h : s.Advances s') (h' : s'.Advances s'') : s.Advances s'' := by
  cases h with
  | idle cs es =>
    cases h'
    rw [List.append_assoc]
    exact idle cs _
  | opened cs pending es sps sps' =>
    cases h' with
    | opened _ _ es' _ sps'' =>
      rw [List.append_assoc]
      exact opened cs pending _ sps sps''
    | fails _ _ _ sps'' => exact fails cs pending sps sps''
  | fails cs pending sps sps' =>
    cases h'
    exact fails cs pending sps _
  | aborted cs sps sps' =>
    cases h'
    exact aborted cs sps _

/-- What is committed stays so. -/
theorem committed_prefix (h : s.Advances s') : s.committed <+: s'.committed := by
  cases h with
  | idle cs es => exact List.prefix_append cs es
  | _ => exact List.prefix_rfl

end Advances

theorem run_advances (hc : c.isControl = false) (v : Verdict E) : s.Advances (s.run c v).2 := by
  obtain ⟨b, cs⟩ := s
  cases b with
  | idle =>
    cases c <;> cases v <;> first | contradiction | exact .idle' cs | exact .idle cs _
  | opened pending sps =>
    -- Control commands aside, only what is refused or cannot be done here fails the block.
    cases c with
    | plain =>
      cases v with
      | ok es => exact .opened cs pending es sps sps
      | refused => exact .fails cs pending sps sps
    | savepoint name =>
      cases v with
      | ok es => exact .opened' cs pending sps _
      | refused => exact .fails cs pending sps sps
    | release name =>
      cases v with
      | ok es =>
        simp only [run, runOpened]
        split
        · exact .opened' cs pending sps _
        · exact .fails cs pending sps sps
      | refused => exact .fails cs pending sps sps
    | outside => cases v <;> exact .fails cs pending sps sps
    | _ => contradiction
  | aborted sps =>
    cases c <;> cases v <;> first | contradiction | exact .aborted cs sps sps

theorem parse_advances (c : Command) (v : Verdict E) : s.Advances (s.parse c v).2 := by
  obtain ⟨b, cs⟩ := s
  cases b with
  | opened pending sps =>
    cases v with
    | ok es => exact .refl _
    | refused => exact .fails cs pending sps sps
  | _ => cases v <;> exact .refl _

/-- Outside a block, statements can share a transaction that is begun and committed for them:
    together they are one statement. -/
theorem implicit_advances (hs : s.block = .idle) (h : (s.run .begin v).2.Advances s')
    (v' : Verdict E) : s.Advances (s'.run .commit v').2 := by
  obtain ⟨b, cs⟩ := s
  obtain rfl : b = .idle := hs
  cases h with
  | opened _ _ pending _ sps =>
    cases v' with
    | ok es =>
      show Advances _ ⟨.idle, cs ++ ([] ++ pending) ++ es⟩
      rw [List.append_assoc]
      exact .idle cs _
    | refused => exact .idle' cs
  | fails => exact .idle' cs

/-! ## Durability -/

/-- What has been done from `s` to `s'` is committed in `t`, after all that was committed in
    `s`. -/
def Durable (s s' t : Session E) : Prop :=
  ∃ before after, t.committed = before ++ effects s s' ++ after ∧ s.committed <+: before

/-- Effects that come after what is committed in the end are not durable. -/
theorem not_durable (h : t.committed = s.committed) (he : effects s s' ≠ []) :
    ¬Durable s s' t := by
  rintro ⟨before, after, heq, hle⟩
  have hlen := congrArg List.length (h.symm.trans heq)
  have := hle.length_le
  have := List.length_pos_iff.2 he
  simp only [List.length_append] at hlen
  omega

/-- There is nothing to be done for a statement without effects. -/
theorem durable_of_effects_eq_nil (h : s.committed <+: t.committed) (he : effects s s' = []) :
    Durable s s' t := by
  obtain ⟨after, hafter⟩ := h
  exact ⟨s.committed, after, by rw [he, List.append_nil, hafter], List.prefix_rfl⟩

/-- What a statement has done is durable after a commit that is accepted if and only if the
    block has not failed in between, or there was nothing to commit. -/
theorem durable_iff (h : s.Advances s') (h' : s'.Advances s'')
    (hc : s''.run .commit v = (true, t)) :
    Durable s s' t ↔ ¬(s''.Failed ∧ effects s s' ≠ []) := by
  have ht : s.committed <+: t.committed := by
    have hrun := committed_run s'' .commit v
    rw [hc] at hrun
    have hlog := Advances.committed_prefix (h.trans h')
    exact hlog.trans ⟨_, hrun.symm⟩
  by_cases he : effects s s' = []
  · exact iff_of_true (durable_of_effects_eq_nil ht he) fun hf => hf.2 he
  -- It had effects, and so its block, if any, had not failed then.
  cases h with
  | idle cs es =>
    cases h' with
    | idle _ es' =>
      obtain ⟨-, rfl⟩ := Prod.mk.inj hc
      refine iff_of_true ⟨cs, es', ?_, List.prefix_rfl⟩ fun hf => by cases hf.1.choose_spec
      simp [effects, work, Block.pending]
  | opened cs pending es sps sps' =>
    cases h' with
    | opened _ _ es' _ sps'' =>
      cases v with
      | refused => cases (Prod.mk.inj hc).1
      | ok es'' =>
        obtain ⟨-, rfl⟩ := Prod.mk.inj hc
        refine iff_of_true ⟨cs ++ pending, es' ++ es'', ?_, List.prefix_append cs pending⟩
          fun hf => by cases hf.1.choose_spec
        simp [effects, work, Block.pending]
    | fails _ _ _ sps'' =>
      obtain ⟨-, rfl⟩ := Prod.mk.inj hc
      exact iff_of_false (not_durable rfl he) (not_not_intro ⟨⟨sps'', rfl⟩, he⟩)
  | _ => exact absurd (by simp [effects, work, Block.pending]) he

end Session

end Transaction
