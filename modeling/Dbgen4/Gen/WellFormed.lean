import Mathlib.Data.List.Forall2
import Mathlib.Data.List.Nodup
import Dbgen4.Gen.Yaml

/-!
# Lists of statements

What `parse_yaml_file_json` accepts: under `statements`, a sequence of maps, each with an id that
is no other's and with a text (`accepts_iff`). It makes one statement of each, by the entry alone
(`onePerEntry`). A text is to have something in it; but the parser looks whether it is empty
before it is trimmed, and so takes one that is blank for a statement (`acceptsWellFormed_iff`).
-/

namespace Dbgen4.Gen

variable {l : Loader} {filename : String} {dbType : DbType} {n s : Yaml} {items : List Yaml}

/-! ## What an entry says -/

/-- There is nothing but white space. -/
def Blank (text : String) : Prop := ∀ c ∈ text.toList, isSpace c = true

/-- The text for a dialect: under its own key, or else the generic one. What is there and is no
    text counts as missing. -/
def Yaml.resolved (n : Yaml) (dbType : DbType) : Option String :=
  (n.getString dbType.name).or (n.getString "sql")

/-- The text for a dialect in a map of its own, which may be missing. -/
def Yaml.resolvedIn (n : Yaml) (key : String) (dbType : DbType) : String :=
  ((n.getMap key).bind (·.resolved dbType)).getD ""

/-- Under `statements`, there are maps, with ids that are all different and texts that are `ok`. -/
structure Listed (ok : String → Prop) (dbType : DbType) (n : Yaml) (items : List Yaml) : Prop where
  seq : n.value "statements" = some (.seq items)
  maps : ∀ s ∈ items, ∃ entries, s = .map entries
  ids : ∀ s ∈ items, ∃ id, s.getString "id" = some id
  texts : ∀ s ∈ items, ∃ sql, s.resolved dbType = some sql ∧ ok sql
  nodup : (items.map (·.getString "id")).Nodup

/-- A statement is what an entry says. -/
structure Describes (dbType : DbType) (s : Yaml) (stmt : DataStatement) : Prop where
  id : s.getString "id" = some stmt.id
  sql : ∃ sql, s.resolved dbType = some sql ∧ stmt.sql = trimWhitespace sql
  beforeSql : stmt.beforeSql = trimWhitespace (s.resolvedIn "before" dbType)
  afterSql : stmt.afterSql = trimWhitespace (s.resolvedIn "after" dbType)
  resBufSize : s.value "res-buf-size" = none → stmt.resBufSize = 1
  parBufSize : s.value "par-buf-size" = none → stmt.parBufSize = 1

/-! ## One entry -/

theorem resolveDialectSql_eq (n : Yaml) (dbType : DbType) :
    resolveDialectSql n dbType = (n.resolved dbType).getD "" := by
  rw [resolveDialectSql, Yaml.resolved, Yaml.getStringOr, Yaml.getStringOr]
  cases n.getString dbType.name <;> rfl

theorem optionalSql_eq (n : Yaml) (key : String) (dbType : DbType) :
    optionalSql n key dbType = n.resolvedIn key dbType := by
  rw [optionalSql, Yaml.resolvedIn]
  cases n.getMap key with
  | none => rfl
  | some m => exact resolveDialectSql_eq m dbType

theorem getSizeOr_of_absent {key : String} {default : ℕ} (h : n.value key = none) :
    n.getSizeOr key l default = default := by
  rw [Yaml.getSizeOr, Yaml.getString, h]
  rfl

/-- An entry that is parsed has an id, and a text that is not empty. -/
theorem parseStatement_isOk_iff : (∃ stmt, parseStatement l dbType s = .ok stmt) ↔
    (∃ id, s.getString "id" = some id) ∧ ∃ sql, s.resolved dbType = some sql ∧ sql ≠ "" := by
  rw [parseStatement, resolveDialectSql_eq]
  cases s.getString "id" with
  | none => exact iff_of_false (fun ⟨_, h⟩ => by cases h) fun ⟨⟨_, h⟩, _⟩ => by cases h
  | some id =>
    rw [and_iff_right ⟨id, rfl⟩]
    dsimp only
    split
    · rename_i hempty
      refine iff_of_false (fun ⟨_, h⟩ => by cases h) fun ⟨sql, hsql, hne⟩ => hne ?_
      rwa [hsql, Option.getD_some, String.isEmpty_iff] at hempty
    · rename_i hempty
      refine iff_of_true ⟨_, rfl⟩ ?_
      cases hsql : s.resolved dbType with
      | none => exact absurd (hsql ▸ rfl) hempty
      | some sql =>
        rw [hsql, Option.getD_some, String.isEmpty_iff] at hempty
        exact ⟨sql, rfl, hempty⟩

/-- What it is parsed to is what it says. -/
theorem describes_of_parseStatement {stmt : DataStatement}
    (h : parseStatement l dbType s = .ok stmt) : Describes dbType s stmt := by
  obtain ⟨⟨id, hid⟩, sql, hsql, -⟩ := parseStatement_isOk_iff.1 ⟨stmt, h⟩
  rw [parseStatement, resolveDialectSql_eq, hid, hsql] at h
  dsimp only at h
  split at h
  · cases h
  · obtain rfl := Except.ok.inj h
    exact {
      id := hid
      sql := ⟨sql, hsql, rfl⟩
      beforeSql := congrArg trimWhitespace (optionalSql_eq s "before" dbType)
      afterSql := congrArg trimWhitespace (optionalSql_eq s "after" dbType)
      resBufSize := getSizeOr_of_absent
      parBufSize := getSizeOr_of_absent }

/-! ## All of them -/

/-- A statement is added just if its id is new. -/
theorem addStatement_eq {stmts : DataStatements} {stmt : DataStatement} :
    stmts.addStatement stmt = if ∀ x ∈ stmts.statements, x.id ≠ stmt.id
      then some (stmts.addStatementWithReplace stmt) else none := by
  rw [DataStatements.addStatement, ← ite_not]
  simp

/-- What the entries are parsed to is put in order; the ids are then all different. -/
theorem perm_of_parseStatements {stmts res : DataStatements}
    (h : parseStatements l dbType items stmts = .ok res) :
    ∃ parsed, List.Forall₂ (fun s stmt => parseStatement l dbType s = .ok stmt) items parsed ∧
      res.statements.Perm (parsed ++ stmts.statements) := by
  induction items generalizing stmts with
  | nil =>
    obtain rfl := Except.ok.inj h
    exact ⟨[], .nil, .refl _⟩
  | cons s items ih =>
    rw [parseStatements] at h
    split at h
    · cases h
    · rename_i stmt hstmt
      rw [addStatement_eq] at h
      split at h
      · cases h
      · rename_i stmts' hadd
        split at hadd
        · rename_i hnew
          obtain ⟨parsed, hparsed, hperm⟩ := ih h
          refine ⟨stmt :: parsed, .cons hstmt hparsed, ?_⟩
          rw [← Option.some.inj hadd] at hperm
          exact hperm.trans (((KeyedList.put_perm hnew).append_left parsed).trans List.perm_middle)
        · cases hadd

/-- If all entries can be parsed, with ids that are different, the parser comes to the end. -/
theorem parseStatements_isOk {stmts : DataStatements} {parsed : List DataStatement}
    (hparsed : List.Forall₂ (fun s stmt => parseStatement l dbType s = .ok stmt) items parsed)
    (hnodup : ((parsed ++ stmts.statements).map DataStatement.id).Nodup) :
    ∃ res, parseStatements l dbType items stmts = .ok res := by
  induction hparsed generalizing stmts with
  | nil => exact ⟨stmts, rfl⟩
  | @cons s stmt items parsed hstmt _ ih =>
    rw [List.cons_append, List.map_cons, List.nodup_cons] at hnodup
    have hnew : ∀ x ∈ stmts.statements, x.id ≠ stmt.id := fun x hx heq =>
      hnodup.1 (List.mem_map.2 ⟨x, List.mem_append_right _ hx, heq⟩)
    rw [parseStatements, hstmt]
    dsimp only
    rw [addStatement_eq, if_pos hnew]
    refine ih ?_
    have hperm := ((KeyedList.put_perm hnew).append_left parsed).trans List.perm_middle
    exact (hperm.map DataStatement.id).nodup_iff.2 (List.nodup_cons.2 hnodup)

theorem mapM_asMap_eq_some_iff {ss : List Yaml} :
    items.mapM Yaml.asMap = some ss ↔ ss = items ∧ ∀ s ∈ items, ∃ entries, s = .map entries := by
  induction items generalizing ss with
  | nil => simp [eq_comm]
  | cons s items ih =>
    rw [List.mapM_cons, List.forall_mem_cons]
    cases s with
    | map entries =>
      simp only [Yaml.asMap, Option.pure_def, Option.bind_eq_bind, Option.bind_some,
        Option.bind_eq_some_iff, ih]
      constructor
      · rintro ⟨_, ⟨rfl, hmaps⟩, hss⟩
        exact ⟨(Option.some.inj hss).symm, ⟨entries, rfl⟩, hmaps⟩
      · rintro ⟨rfl, -, hmaps⟩
        exact ⟨items, ⟨rfl, hmaps⟩, rfl⟩
    | _ => exact iff_of_false (fun h => by cases h) fun ⟨_, ⟨_, h⟩, _⟩ => by cases h

theorem getSeqOfMaps_eq_some_iff {key : String} {ss : List Yaml} : n.getSeqOfMaps key = some ss ↔
    n.value key = some (.seq ss) ∧ ∀ s ∈ ss, ∃ entries, s = .map entries := by
  rw [Yaml.getSeqOfMaps]
  split
  · rename_i items hitems
    rw [mapM_asMap_eq_some_iff, hitems]
    constructor
    · rintro ⟨rfl, hmaps⟩
      exact ⟨rfl, hmaps⟩
    · rintro ⟨heq, hmaps⟩
      cases heq
      exact ⟨rfl, hmaps⟩
  · rename_i hne
    exact iff_of_false (fun h => by cases h) fun h => hne ss h.1

/-- The ids of what entries are parsed to are theirs. -/
theorem map_id_of_parsed {parsed : List DataStatement}
    (h : List.Forall₂ (fun s stmt => parseStatement l dbType s = .ok stmt) items parsed) :
    items.map (·.getString "id") = (parsed.map DataStatement.id).map some := by
  induction h with
  | nil => rfl
  | cons hstmt _ ih =>
    rw [List.map_cons, List.map_cons, List.map_cons, ih, (describes_of_parseStatement hstmt).id]

theorem exists_parsed (h : ∀ s ∈ items, ∃ stmt, parseStatement l dbType s = .ok stmt) :
    ∃ parsed, List.Forall₂ (fun s stmt => parseStatement l dbType s = .ok stmt) items parsed := by
  induction items with
  | nil => exact ⟨[], .nil⟩
  | cons s items ih =>
    obtain ⟨⟨stmt, hstmt⟩, hrest⟩ := List.forall_mem_cons.1 h
    obtain ⟨parsed, hparsed⟩ := ih hrest
    exact ⟨stmt :: parsed, .cons hstmt hparsed⟩

/-! ## The document -/

/-- One statement is made of each entry. -/
theorem onePerEntry {res : DataStatements}
    (h : parseYamlFileJson l filename n dbType = .ok res)
    (hitems : n.value "statements" = some (.seq items)) :
    ∃ parsed, res.statements.Perm parsed ∧ List.Forall₂ (Describes dbType) items parsed := by
  rw [parseYamlFileJson] at h
  split at h
  · cases h
  · rename_i ss hss
    obtain ⟨hseq, -⟩ := getSeqOfMaps_eq_some_iff.1 hss
    cases hitems.symm.trans hseq
    obtain ⟨parsed, hparsed, hperm⟩ := perm_of_parseStatements h
    rw [List.append_nil] at hperm
    exact ⟨parsed, hperm, List.Forall₂.imp (fun _ _ => describes_of_parseStatement) hparsed⟩

/-- A document is accepted just if it lists statements whose texts are not empty. -/
theorem accepts_iff : (∃ res, parseYamlFileJson l filename n dbType = .ok res) ↔
    ∃ items, Listed (· ≠ "") dbType n items := by
  rw [parseYamlFileJson]
  constructor
  · rintro ⟨res, h⟩
    split at h
    · cases h
    · rename_i items hitems
      obtain ⟨hseq, hmaps⟩ := getSeqOfMaps_eq_some_iff.1 hitems
      obtain ⟨parsed, hparsed, hperm⟩ := perm_of_parseStatements h
      rw [List.append_nil] at hperm
      have hentry : ∀ s ∈ items, ∃ stmt, parseStatement l dbType s = .ok stmt := fun s hs => by
        obtain ⟨i, hi, rfl⟩ := List.getElem_of_mem hs
        exact ⟨_, List.Forall₂.get hparsed hi (hparsed.length_eq ▸ hi)⟩
      refine ⟨items, hseq, hmaps, fun s hs => (parseStatement_isOk_iff.1 (hentry s hs)).1,
        fun s hs => (parseStatement_isOk_iff.1 (hentry s hs)).2, ?_⟩
      rw [map_id_of_parsed hparsed]
      refine List.Nodup.map (fun _ _ => Option.some.inj) ?_
      exact (hperm.map DataStatement.id).nodup_iff.1 res.sorted.nodup
  · rintro ⟨items, hitems⟩
    rw [getSeqOfMaps_eq_some_iff.2 ⟨hitems.seq, hitems.maps⟩]
    obtain ⟨parsed, hparsed⟩ := exists_parsed fun s hs =>
      (parseStatement_isOk_iff (l := l)).2 ⟨hitems.ids s hs, hitems.texts s hs⟩
    refine parseStatements_isOk hparsed ?_
    have hnodup := hitems.nodup
    rw [map_id_of_parsed hparsed] at hnodup
    rw [List.append_nil]
    exact hnodup.of_map some

/-- Those documents are accepted that list statements with something in their texts, and what
    comes of one is a statement for each entry. -/
structure AcceptsWellFormed (l : Loader) (filename : String) (n : Yaml) (dbType : DbType) :
    Prop where
  accepts : (∃ res, parseYamlFileJson l filename n dbType = .ok res) ↔
    ∃ items, Listed (fun sql => ¬Blank sql) dbType n items
  describes : ∀ res items, parseYamlFileJson l filename n dbType = .ok res →
    n.value "statements" = some (.seq items) →
    ∃ parsed, res.statements.Perm parsed ∧ List.Forall₂ (Describes dbType) items parsed

theorem blank_empty : Blank "" := fun _ hc => absurd hc List.not_mem_nil

/-- **Blank texts.** The parser accepts just the documents that are well formed, unless one in
    which no text is empty, and which lacks nothing else, has one that is blank. -/
theorem acceptsWellFormed_iff : AcceptsWellFormed l filename n dbType ↔
    ∀ items, Listed (· ≠ "") dbType n items →
      ∀ s ∈ items, ∀ sql, s.resolved dbType = some sql → ¬Blank sql := by
  constructor
  · intro h items hitems s hs sql hsql
    obtain ⟨items', hitems'⟩ := h.accepts.1 (accepts_iff.2 ⟨items, hitems⟩)
    cases hitems.seq.symm.trans hitems'.seq
    obtain ⟨sql', hsql', hblank⟩ := hitems'.texts s hs
    rwa [Option.some.inj (hsql.symm.trans hsql')]
  · intro h
    refine ⟨accepts_iff.trans ⟨?_, ?_⟩, fun res items => onePerEntry⟩
    · rintro ⟨items, hitems⟩
      refine ⟨items, { hitems with texts := fun s hs => ?_ }⟩
      obtain ⟨sql, hsql, -⟩ := hitems.texts s hs
      exact ⟨sql, hsql, h items hitems s hs sql hsql⟩
    · rintro ⟨items, hitems⟩
      refine ⟨items, { hitems with texts := fun s hs => ?_ }⟩
      obtain ⟨sql, hsql, hblank⟩ := hitems.texts s hs
      exact ⟨sql, hsql, fun hempty => hblank (hempty ▸ blank_empty)⟩

/-- One statement, whose text is a blank. -/
def blankStatement : Yaml :=
  .map [("statements", .seq [.map [("id", .scalar "orders"), ("sql", .scalar " ")]])]

/-- No files, and no sizes. -/
def noSizes : Loader := ⟨fun _ => none, fun _ => none⟩

/-- It is accepted, with an empty statement. -/
theorem not_acceptsWellFormed_blank :
    ¬AcceptsWellFormed noSizes "orders.yaml" blankStatement .psql := by
  intro h
  obtain ⟨items, hitems⟩ := h.accepts.1 ⟨_, rfl⟩
  cases hitems.seq
  obtain ⟨sql, hsql, hblank⟩ := hitems.texts _ List.mem_cons_self
  cases hsql
  exact hblank fun c hc => List.mem_singleton.1 hc ▸ rfl

end Dbgen4.Gen
