import Dbgen4.Psql.Connection

/-!
# Change triggers and notifications

What the server makes of the statements of `on_change` (`rtl/psql/psql_rtl.cpp`): the trigger
functions and the triggers that there are (`Catalog`), as the committed changes leave them
(`Change`), and the notifications that a transaction sends when it commits. An identifier that
is not quoted is folded to lower case and cut to 63 bytes (`ident`), the channel that is given
to `pg_notify` is not.

* `Catalog.notifications`: what the triggers notify of;
* `Delivered`: equal notifications of one transaction may be delivered as one;
* `DbPsql.DoesAll`: statements that do what they say.
-/

namespace Dbgen4.Psql

open Rtl Transaction

/-! ## Names -/

/-- As many characters as fit into `n` bytes. -/
def clip : ℕ → List Char → List Char
  | _, [] => []
  | n, c :: cs => if c.utf8Size ≤ n then c :: clip (n - c.utf8Size) cs else []

/-- How the server reads an identifier that is not quoted. -/
def ident (name : String) : String := String.ofList (clip 63 (name.toList.map Char.toLower))

/-- The trigger function of a table. -/
def functionName (table : String) : String := ident (channelName table ++ "_fn")

/-! ## Changes -/

/-- `rtl::change_op`. -/
inductive ChangeOp
  | insert | update | remove
  deriving DecidableEq, Repr

/-- `TG_OP`. -/
def ChangeOp.tgOp : ChangeOp → String
  | insert => "INSERT"
  | update => "UPDATE"
  | remove => "DELETE"

/-- A notification. -/
structure Notify where
  channel : String
  payload : String
  deriving DecidableEq, Repr

/-- A change to the database; a table is what it is called in the statement. -/
inductive Change
  /-- The trigger function of a table is created, or replaced. -/
  | function (table : String)
  /-- The trigger of a table is dropped, if there is one. -/
  | dropTrigger (table : String)
  /-- The trigger of a table is created. -/
  | trigger (table : String)
  /-- A row of the table with the given name is changed. -/
  | row (name : String) (op : ChangeOp)
  /-- A notification of a session's own. -/
  | notify (n : Notify)
  /-- Anything else. -/
  | other
  deriving DecidableEq, Repr

/-- The change leaves the triggers and their functions alone. -/
def Change.isData : Change → Bool
  | row .. | notify _ | other => true
  | function _ | dropTrigger _ | trigger _ => false

/-- The statements of `create_change_trigger`, with what they do. -/
def ddl (table : String) : List (String × Change) :=
  [(functionSql table, .function table), (dropSql table, .dropTrigger table),
    (createSql table, .trigger table)]

/-! ## The catalog -/

/-- The trigger functions, by their names, with the channels they notify, and the triggers, by the
    names of the tables, with the functions they call. -/
@[ext] structure Catalog where
  functions : String → Option String := fun _ => none
  triggers : String → Option String := fun _ => none

namespace Catalog

variable (c : Catalog)

/-- A change. -/
def apply : Change → Catalog
  | .function table =>
    { c with functions := Function.update c.functions (functionName table) (channelName table) }
  | .dropTrigger table => { c with triggers := Function.update c.triggers (ident table) none }
  | .trigger table =>
    { c with triggers := Function.update c.triggers (ident table) (functionName table) }
  | _ => c

/-- What a change notifies of. -/
def fire : Change → List Notify
  | .row name op => (((c.triggers name).bind c.functions).map (⟨·, op.tgOp⟩)).toList
  | .notify n => [n]
  | _ => []

/-- What the changes of a transaction notify of. -/
def notifications : Catalog → List Change → List Notify
  | _, [] => []
  | c, e :: es => c.fire e ++ notifications (c.apply e) es

/-- The catalog after the changes. -/
def applies (es : List Change) : Catalog := es.foldl apply c

end Catalog

/-- The catalog that the committed changes have left. -/
def catalog (log : List Change) : Catalog := Catalog.applies {} log

/-- What is delivered of the notifications of a transaction: of equal ones at least one. -/
def Delivered (ns sent : List Notify) : Prop := sent.Sublist ns ∧ ∀ n ∈ ns, n ∈ sent

namespace Catalog

variable {c : Catalog} {log es : List Change} {table : String}

@[simp] theorem functions_function : (c.apply (.function table)).functions =
    Function.update c.functions (functionName table) (channelName table) := by
  rw [apply]

@[simp] theorem triggers_function : (c.apply (.function table)).triggers = c.triggers := by
  rw [apply]

@[simp] theorem functions_dropTrigger :
    (c.apply (.dropTrigger table)).functions = c.functions := by
  rw [apply]

@[simp] theorem triggers_dropTrigger : (c.apply (.dropTrigger table)).triggers =
    Function.update c.triggers (ident table) none := by
  rw [apply]

@[simp] theorem functions_trigger : (c.apply (.trigger table)).functions = c.functions := by
  rw [apply]

@[simp] theorem triggers_trigger : (c.apply (.trigger table)).triggers =
    Function.update c.triggers (ident table) (functionName table) := by
  rw [apply]

theorem applies_append (c : Catalog) (es es' : List Change) :
    c.applies (es ++ es') = (c.applies es).applies es' :=
  List.foldl_append

theorem apply_of_isData {e : Change} (h : e.isData) : c.apply e = c := by
  cases e with
  | function | dropTrigger | trigger => cases h
  | _ => rfl

theorem applies_of_isData (h : ∀ e ∈ es, e.isData) : c.applies es = c := by
  induction es generalizing c with
  | nil => rfl
  | cons e es ih =>
    rw [applies, List.foldl_cons, apply_of_isData (h e List.mem_cons_self)]
    exact ih fun e' he' => h e' (List.mem_cons_of_mem e he')

theorem applies_ddl (c : Catalog) (table : String) : c.applies ((ddl table).map Prod.snd) =
    ((c.apply (.function table)).apply (.dropTrigger table)).apply (.trigger table) :=
  rfl

/-- Once its trigger is created, a table notifies its channel. -/
theorem functions_ddl (c : Catalog) (table : String) :
    (c.applies ((ddl table).map Prod.snd)).functions (functionName table) =
      some (channelName table) := by
  simp [applies_ddl]

theorem triggers_ddl (c : Catalog) (table : String) :
    (c.applies ((ddl table).map Prod.snd)).triggers (ident table) = some (functionName table) := by
  simp [applies_ddl]

end Catalog

theorem catalog_append (log es : List Change) : catalog (log ++ es) = (catalog log).applies es :=
  Catalog.applies_append _ _ _

/-! ## Statements one after the other -/

namespace DbPsql

/-- Statements up to the first that fails. -/
def execAll {E : Type} : List String → DbPsql E → DbSts × DbPsql E
  | [], db => (.success, db)
  | sql :: sqls, db =>
    let (ret, db) := db.execCommand sql
    if ret ≠ .success then (ret, db) else execAll sqls db

/-- The statements do what they say as far as they are reached, and the COMMIT after them leaves
    the triggers alone. -/
def DoesAll : List (String × Change) → DbPsql Change → Prop
  | [], db => ∀ es, db.answer.verdict = .ok es → ∀ e ∈ es, e.isData
  | (sql, e) :: rest, db =>
    (∀ es, db.answer.verdict = .ok es → es = [e]) ∧
      ((db.execCommand sql).1 = .success → DoesAll rest (db.execCommand sql).2)

end DbPsql

end Dbgen4.Psql
