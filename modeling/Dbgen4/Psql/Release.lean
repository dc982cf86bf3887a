import Mathlib.Data.List.Nodup
import Dbgen4.Objects
import Dbgen4.Ownership
import Dbgen4.Psql.Query

/-!
# The names of the prepared statements

Every `query` draws a name for its statement from one counter
(`detail::next_stmt_id`); whoever has prepared it releases it on the server, with
a `DEALLOCATE`, when it is destroyed. A move hands the statement over, and leaves
a source that owns nothing (`rtl/psql/query.hpp`).

`queries` is the system of the query objects of a program, which constructs,
prepares, moves and destroys them in any order; a vector that reallocates does
nothing else. The names are resources that the objects own (`Ownership`,
`queries_simulates`), so that every name that was prepared is released exactly
once (`released_once`), as long as the counter does not wrap around.
-/

namespace Dbgen4.Psql

open Rtl Ownership

/-! ## The objects -/

/-- The name of a statement. -/
def stmtName (id : UInt64) : String := "dbgen4_" ++ toString id.toNat

/-- A query object. -/
structure Object where
  /-- `db_` is not null. -/
  db : Bool
  query : Query

namespace Object

/-- The constructor. -/
def make (id : UInt64) (sql : String) (par res : Buffer) : Object :=
  ⟨true, .make sql (stmtName id) par res⟩

/-- What the move constructor leaves of its source; the strings and the result have moved. -/
def movedFrom (o : Object) : Object :=
  ⟨false, { o.query with sql := "", stmtName := "", prepared := false, rows := none }⟩

/-- The statement that the destructor deallocates. -/
def deallocates (o : Object) : Option String :=
  if o.query.prepared && o.db then some o.query.stmtName else none

end Object

/-- A program. -/
structure Program where
  /-- The counter of `detail::next_stmt_id`. -/
  counter : UInt64 := 0
  objects : Objects Object := []

/-- What happens to an object. -/
inductive ObjectEvent
  | construct (name : String)
  /-- `prepare`: whether the server created the statement, and whether the object had already
      prepared it. -/
  | prepare (i : ℕ) (name : String) (created again : Bool)
  /-- The object `i` is moved into the new object `j`. -/
  | move (i j : ℕ)
  /-- The destructor, and the statement it deallocates. -/
  | destroy (i : ℕ) (name : Option String)

/-- The steps of a program. A moved-from object has no database to prepare on. -/
inductive Program.Step : Program → ObjectEvent → Program → Prop
  | construct (p : Program) (sql : String) (par res : Buffer) :
    Step p (.construct (stmtName p.counter))
      ⟨p.counter + 1, p.objects.construct (.make p.counter sql par res)⟩
  | prepare {p : Program} {i : ℕ} {o : Object} (pq : Libpq) : p.objects.find i = some o → o.db →
    Step p (.prepare i o.query.stmtName (o.query.prepare pq).1.isOk o.query.prepared)
      { p with objects := p.objects.put i { o with query := (o.query.prepare pq).2 } }
  | move {p : Program} {i : ℕ} {o : Object} : p.objects.find i = some o →
    Step p (.move i p.objects.length)
      { p with objects := (p.objects.put i o.movedFrom).construct o }
  | destroy {p : Program} {i : ℕ} {o : Object} : p.objects.find i = some o →
    Step p (.destroy i o.deallocates) { p with objects := p.objects.destroy i }

/-- The query objects of a program on one connection. -/
def queries : Lts Program ObjectEvent where
  init := {{}}
  step := Program.Step

/-! ## Names are owned -/

/-- The statement that an object owns. -/
def Program.own (p : Program) : ℕ → Option String :=
  fun i => (p.objects.find i).bind Object.deallocates

/-- What a step is to the names. -/
def ObjectEvent.act : ObjectEvent → Option (Act ℕ String)
  | .prepare i name true false => some (.acquire i name)
  | .move i j => some (.handOver i j)
  | .destroy i (some name) => some (.release i name)
  | _ => none

variable {p p' : Program} {e : ObjectEvent} {tr : List ObjectEvent} {i j : ℕ} {o : Object}

theorem own_eq (p : Program) :
    p.own = fun i => (p.objects.find i).bind Object.deallocates := rfl

theorem prepare_stmtName (q : Query) (pq : Libpq) : (q.prepare pq).2.stmtName = q.stmtName := by
  rw [Query.prepare]
  split <;> rfl

theorem prepare_prepared (q : Query) (pq : Libpq) :
    (q.prepare pq).2.prepared = (q.prepared || (q.prepare pq).1.isOk) := by
  rw [Query.prepare]
  split
  · exact (Bool.or_false _).symm
  · exact (Bool.or_true _).symm

/-- What an object owns that has a database. -/
theorem deallocates_prepare (hdb : o.db) (pq : Libpq) :
    Object.deallocates { o with query := (o.query.prepare pq).2 } =
      if o.query.prepared || (o.query.prepare pq).1.isOk then some o.query.stmtName else none := by
  rw [Object.deallocates, prepare_stmtName, prepare_prepared, hdb, Bool.and_true]

theorem own_of_find (hf : p.objects.find i = some o) : p.own i = o.deallocates := by
  rw [Program.own, hf, Option.bind_some]

/-- A new object owns nothing. -/
theorem own_construct {q : Object} (hq : q.deallocates = none) (c : UInt64) :
    Program.own ⟨c, p.objects.construct q⟩ = p.own := by
  rw [own_eq, own_eq, Objects.bind_construct, hq, Function.update_eq_self_iff, Objects.find_length]
  rfl

/-- What is prepared is owned from then on. -/
theorem own_prepare (hf : p.objects.find i = some o) (hdb : o.db) (pq : Libpq) (c : UInt64) :
    Program.own ⟨c, p.objects.put i { o with query := (o.query.prepare pq).2 }⟩ =
      Function.update p.own i
        (if o.query.prepared || (o.query.prepare pq).1.isOk then some o.query.stmtName
          else none) := by
  rw [own_eq, own_eq, Objects.bind_put _ hf, deallocates_prepare hdb]

/-- The new object owns what the other one did. -/
theorem own_move (hf : p.objects.find i = some o) (c : UInt64) :
    Program.own ⟨c, (p.objects.put i o.movedFrom).construct o⟩ =
      Function.update (Function.update p.own p.objects.length (p.own i)) i none := by
  rw [own_of_find hf, own_eq, own_eq, Objects.bind_construct, Objects.bind_put _ hf,
    Objects.length_put, Function.update_comm (Objects.lt_of_find hf).ne]
  rfl

theorem own_destroy (hf : p.objects.find i = some o) (c : UInt64) :
    Program.own ⟨c, p.objects.destroy i⟩ = Function.update p.own i none := by
  rw [own_eq, own_eq, Objects.bind_destroy _ hf]

/-- The objects are simulated by the owners of their names. -/
theorem queries_simulates : queries.Simulates (objects ℕ String) Program.own ObjectEvent.act where
  init := by
    rintro _ rfl
    rfl
  step := by
    intro p e p' m hst hm
    cases hst with
    | construct => cases hm
    | @prepare i o pq hf hdb =>
      rw [own_prepare hf hdb]
      cases hok : (o.query.prepare pq).1.isOk with
      | false =>
        rw [hok] at hm
        cases hm
      | true =>
        cases hprep : o.query.prepared with
        | true =>
          rw [hok, hprep] at hm
          cases hm
        | false =>
          rw [hok, hprep] at hm
          obtain rfl := Option.some.inj hm
          refine .acquire _ ?_
          rw [own_of_find hf, Object.deallocates, hprep]
          rfl
    | @move i o hf =>
      obtain rfl := Option.some.inj hm
      rw [own_move hf]
      refine .handOver (Objects.lt_of_find hf).ne ?_
      rw [Program.own, Objects.find_length]
      rfl
    | @destroy i o hf =>
      rw [own_destroy hf]
      cases hd : o.deallocates with
      | none =>
        rw [hd] at hm
        cases hm
      | some n =>
        rw [hd] at hm
        obtain rfl := Option.some.inj hm
        exact .release ((own_of_find hf).trans hd)
  stutter := by
    intro p e p' hst hm
    cases hst with
    | construct => exact own_construct rfl _
    | @prepare i o pq hf hdb =>
      rw [own_prepare hf hdb]
      -- Nothing was created that had not been prepared before.
      have hsame : (o.query.prepared || (o.query.prepare pq).1.isOk) = o.query.prepared := by
        cases hprep : o.query.prepared with
        | true => rfl
        | false =>
          cases hok : (o.query.prepare pq).1.isOk with
          | false => rfl
          | true =>
            rw [hok, hprep] at hm
            cases hm
      rw [hsame, Function.update_eq_self_iff, own_of_find hf, Object.deallocates, hdb,
        Bool.and_true]
    | move => cases hm
    | @destroy i o hf =>
      cases hd : o.deallocates with
      | some n =>
        rw [hd] at hm
        cases hm
      | none => rw [own_destroy hf, Function.update_eq_self_iff, own_of_find hf, hd]

/-! ## Names are drawn once -/

/-- The names drawn. -/
def drawn (tr : List ObjectEvent) : List String :=
  chron (fun | .construct name => some name | _ => none) tr

/-- The names of the statements that the server created. -/
def created (tr : List ObjectEvent) : List String :=
  chron (fun | .prepare _ name true _ => some name | _ => none) tr

/-- The names that a `DEALLOCATE` was sent for. -/
def deallocated (tr : List ObjectEvent) : List String :=
  chron (fun | .destroy _ name => name | _ => none) tr

/-- The names acquired, where the objects are simulated by their owners. -/
def acquiredNames (tr : List ObjectEvent) : List String := acquired (tr.filterMap ObjectEvent.act)

theorem acquiredNames_cons (e : ObjectEvent) (tr : List ObjectEvent) :
    acquiredNames (e :: tr) = acquiredNames tr ++ (e.act.bind Act.acquiredOne).toList := by
  rw [acquiredNames, acquired, chron_filterMap, chron_cons, ← chron_filterMap]
  rfl

/-- What is deallocated is released. -/
theorem released_filterMap (tr : List ObjectEvent) :
    released (tr.filterMap ObjectEvent.act) = deallocated tr := by
  rw [released, chron_filterMap, deallocated]
  congr 1
  funext e
  rcases e with _ | ⟨_, _, _ | _, _ | _⟩ | _ | ⟨_, _ | _⟩ <;> rfl

theorem stmtName_inj {a b : UInt64} (h : stmtName a = stmtName b) : a = b := by
  have h := (String.append_right_inj _).1 h
  have h := congrArg (fun s => Nat.ofDigitChars 10 s.toList 0) h
  have h : a.toNat = b.toNat := by simpa [Nat.toString_eq_repr] using h
  exact UInt64.toNat_inj.1 h

/-- The names are those of the numbers from zero on, modulo `2 ^ 64`. -/
theorem drawn_eq (h : queries.Run tr p) :
    p.counter = .ofNat (drawn tr).length ∧
    drawn tr = (List.range (drawn tr).length).map fun k => stmtName (.ofNat k) := by
  induction h with
  | init hp =>
    obtain rfl := hp
    exact ⟨rfl, rfl⟩
  | @step tr p p' e _ hst ih =>
    obtain ⟨hc, hd⟩ := ih
    cases hst with
    | construct =>
      have hcons : drawn (.construct (stmtName p.counter) :: tr) =
          drawn tr ++ [stmtName p.counter] := chron_cons ..
      rw [hcons, List.length_append, List.length_singleton, List.range_succ, List.map_append,
        ← hd, hc]
      exact ⟨(UInt64.ofNat_add _ 1).symm, rfl⟩
    | prepare | move | destroy =>
      rw [drawn, chron_cons_none rfl]
      exact ⟨hc, hd⟩

/-- No name is drawn twice before the counter wraps around. -/
theorem nodup_drawn (h : queries.Run tr p) (hlen : (drawn tr).length ≤ 2 ^ 64) :
    (drawn tr).Nodup := by
  rw [(drawn_eq h).2]
  refine (List.nodup_range).map_on fun a ha b hb hab => ?_
  have ha := List.mem_range.1 ha
  have hb := List.mem_range.1 hb
  have hab := congrArg UInt64.toNat (stmtName_inj hab)
  rwa [UInt64.toNat_ofNat', UInt64.toNat_ofNat', Nat.mod_eq_of_lt (by omega),
    Nat.mod_eq_of_lt (by omega)] at hab

theorem drawn_prepare (i : ℕ) (name : String) (ok again : Bool) (tr : List ObjectEvent) :
    drawn (.prepare i name ok again :: tr) = drawn tr := chron_cons_none rfl tr

theorem drawn_move (i j : ℕ) (tr : List ObjectEvent) : drawn (.move i j :: tr) = drawn tr :=
  chron_cons_none rfl tr

theorem drawn_destroy (i : ℕ) (name : Option String) (tr : List ObjectEvent) :
    drawn (.destroy i name :: tr) = drawn tr := chron_cons_none rfl tr

/-- The names of the objects that have a database, which are those not moved from. -/
structure Names (tr : List ObjectEvent) (p : Program) : Prop where
  db_of_prepared : ∀ {i o}, p.objects.find i = some o → o.query.prepared → o.db
  mem_drawn : ∀ {i o}, p.objects.find i = some o → o.db → o.query.stmtName ∈ drawn tr
  unique : ∀ {i j o o'}, p.objects.find i = some o → p.objects.find j = some o' → o.db → o'.db →
    o.query.stmtName = o'.query.stmtName → i = j
  prepared_iff : ∀ {i o}, p.objects.find i = some o → o.db →
    (o.query.prepared ↔ o.query.stmtName ∈ acquiredNames tr)
  acquired_drawn : ∀ {n}, n ∈ acquiredNames tr → n ∈ drawn tr
  nodup : (acquiredNames tr).Nodup
  mem_created : ∀ {n}, n ∈ created tr ↔ n ∈ acquiredNames tr

namespace Names

variable {tr' : List ObjectEvent}

/-- Objects that keep the names and the statements of earlier ones. -/
theorem of_found (hN : Names tr p) (f : ℕ → ℕ) (hd : drawn tr' = drawn tr)
    (ha : acquiredNames tr' = acquiredNames tr) (hc : ∀ n, n ∈ created tr' ↔ n ∈ created tr)
    (hprep : ∀ {k o'}, p'.objects.find k = some o' → o'.query.prepared → o'.db)
    (hold : ∀ {k o'}, p'.objects.find k = some o' → o'.db →
      ∃ o, p.objects.find (f k) = some o ∧ o.db ∧
        o.query.stmtName = o'.query.stmtName ∧ o.query.prepared = o'.query.prepared)
    (hinj : ∀ {k l o o'}, p'.objects.find k = some o → p'.objects.find l = some o' → o.db → o'.db →
      f k = f l → k = l) : Names tr' p' where
  db_of_prepared := hprep
  mem_drawn h hdb := by
    obtain ⟨o, ho, hodb, hname, -⟩ := hold h hdb
    rw [hd, ← hname]
    exact hN.mem_drawn ho hodb
  unique h h' hdb hdb' heq := by
    obtain ⟨o, ho, hodb, hname, -⟩ := hold h hdb
    obtain ⟨o', ho', hodb', hname', -⟩ := hold h' hdb'
    exact hinj h h' hdb hdb' (hN.unique ho ho' hodb hodb' (by rw [hname, hname', heq]))
  prepared_iff h hdb := by
    obtain ⟨o, ho, hodb, hname, hp⟩ := hold h hdb
    rw [ha, ← hname, ← hp]
    exact hN.prepared_iff ho hodb
  acquired_drawn h := hd ▸ hN.acquired_drawn (ha ▸ h)
  nodup := ha ▸ hN.nodup
  mem_created := by
    intro n
    rw [hc, ha]
    exact hN.mem_created

/-- A new object, whose name was not drawn before. -/
theorem construct (hN : Names tr p) (sql : String) (par res : Buffer)
    (hnew : stmtName p.counter ∉ drawn tr) :
    Names (.construct (stmtName p.counter) :: tr)
      ⟨p.counter + 1, p.objects.construct (.make p.counter sql par res)⟩ := by
  have hd : drawn (.construct (stmtName p.counter) :: tr) = drawn tr ++ [stmtName p.counter] :=
    chron_cons ..
  have ha : acquiredNames (.construct (stmtName p.counter) :: tr) = acquiredNames tr := by
    rw [acquiredNames_cons]
    exact List.append_nil _
  have hc : created (.construct (stmtName p.counter) :: tr) = created tr := chron_cons_none rfl tr
  -- The new object has a name of its own.
  have hne : ∀ {k o}, p.objects.find k = some o → o.db → o.query.stmtName ≠ stmtName p.counter := by
    intro k o h hdb heq
    exact hnew (heq ▸ hN.mem_drawn h hdb)
  refine ⟨fun h hprep => ?_, fun h hdb => ?_, fun h h' hdb hdb' heq => ?_, fun h hdb => ?_,
    fun h => ?_, ha ▸ hN.nodup, ?_⟩
  · obtain ⟨-, rfl⟩ | ⟨-, h⟩ := Objects.of_find_construct h
    · rfl
    · exact hN.db_of_prepared h hprep
  · rw [hd, List.mem_append]
    obtain ⟨-, rfl⟩ | ⟨-, h⟩ := Objects.of_find_construct h
    · exact .inr (List.mem_singleton_self _)
    · exact .inl (hN.mem_drawn h hdb)
  · obtain ⟨hk, rfl⟩ | ⟨-, h⟩ := Objects.of_find_construct h
    · obtain ⟨hk', rfl⟩ | ⟨-, h'⟩ := Objects.of_find_construct h'
      · exact hk.trans hk'.symm
      · exact absurd heq.symm (hne h' hdb')
    · obtain ⟨-, rfl⟩ | ⟨-, h'⟩ := Objects.of_find_construct h'
      · exact absurd heq (hne h hdb)
      · exact hN.unique h h' hdb hdb' heq
  · rw [ha]
    obtain ⟨-, rfl⟩ | ⟨-, h⟩ := Objects.of_find_construct h
    · refine iff_of_false (by exact Bool.false_ne_true) fun hmem => ?_
      exact hnew (hN.acquired_drawn hmem)
    · exact hN.prepared_iff h hdb
  · rw [hd, List.mem_append]
    exact .inl (hN.acquired_drawn (ha ▸ h))
  · intro n
    rw [ha, hc]
    exact hN.mem_created

/-- A statement that the server creates. -/
theorem acquire (hN : Names tr p) (hf : p.objects.find i = some o) (hdb : o.db) {q : Query}
    (hname : q.stmtName = o.query.stmtName) (hprep : q.prepared) (hnew : ¬o.query.prepared)
    (c : UInt64) :
    Names (.prepare i o.query.stmtName true false :: tr)
      ⟨c, p.objects.put i { o with query := q }⟩ := by
  have hd : drawn (.prepare i o.query.stmtName true false :: tr) = drawn tr := drawn_prepare ..
  have ha : acquiredNames (.prepare i o.query.stmtName true false :: tr) =
      acquiredNames tr ++ [o.query.stmtName] := acquiredNames_cons ..
  have hc : created (.prepare i o.query.stmtName true false :: tr) =
      created tr ++ [o.query.stmtName] := chron_cons ..
  refine ⟨fun h hp => ?_, fun h hdb' => ?_, fun h h' hdb' hdb'' heq => ?_, fun h hdb' => ?_,
    fun h => ?_, ?_, ?_⟩
  · obtain ⟨-, rfl⟩ | ⟨-, h⟩ := Objects.of_find_put hf h
    · exact hdb
    · exact hN.db_of_prepared h hp
  · rw [hd]
    obtain ⟨-, rfl⟩ | ⟨-, h⟩ := Objects.of_find_put hf h
    · rw [hname]
      exact hN.mem_drawn hf hdb
    · exact hN.mem_drawn h hdb'
  · obtain ⟨hk, rfl⟩ | ⟨hk, h⟩ := Objects.of_find_put hf h
    · obtain ⟨hk', rfl⟩ | ⟨hk', h'⟩ := Objects.of_find_put hf h'
      · exact hk.trans hk'.symm
      · exact absurd (hN.unique h' hf hdb'' hdb (by rw [← heq, hname])) hk'
    · obtain ⟨-, rfl⟩ | ⟨-, h'⟩ := Objects.of_find_put hf h'
      · exact absurd (hN.unique h hf hdb' hdb (by rw [heq, hname])) hk
      · exact hN.unique h h' hdb' hdb'' heq
  · rw [ha, List.mem_append, List.mem_singleton]
    obtain ⟨-, rfl⟩ | ⟨hk, h⟩ := Objects.of_find_put hf h
    · exact iff_of_true hprep (.inr hname)
    · rw [hN.prepared_iff h hdb', or_iff_left]
      exact fun heq => hk (hN.unique h hf hdb' hdb heq)
  · rw [ha, List.mem_append, List.mem_singleton] at h
    rw [hd]
    rcases h with h | rfl
    · exact hN.acquired_drawn h
    · exact hN.mem_drawn hf hdb
  · -- Had the name been acquired before, this object would have prepared it.
    rw [ha, List.nodup_append]
    refine ⟨hN.nodup, List.pairwise_singleton _ _, fun a hmem b hb heq => ?_⟩
    rw [List.mem_singleton.1 hb] at heq
    exact hnew ((hN.prepared_iff hf hdb).2 (heq ▸ hmem))
  · intro n
    rw [ha, hc, List.mem_append, List.mem_append, hN.mem_created]

/-- The new object stands for the one moved from. -/
theorem move (hN : Names tr p) (hf : p.objects.find i = some o) (c : UInt64) :
    Names (.move i p.objects.length :: tr)
      ⟨c, (p.objects.put i o.movedFrom).construct o⟩ := by
  have hi := Objects.lt_of_find hf
  have hfind : ∀ {k o'}, ((p.objects.put i o.movedFrom).construct o).find k = some o' →
      k = p.objects.length ∧ o' = o ∨
      k ≠ p.objects.length ∧
        (k = i ∧ o' = o.movedFrom ∨ k ≠ i ∧ p.objects.find k = some o') := by
    intro k o' h
    obtain hnew | ⟨hk, h⟩ := Objects.of_find_construct h
    · rw [Objects.length_put] at hnew
      exact .inl hnew
    · rw [Objects.length_put] at hk
      exact .inr ⟨hk, Objects.of_find_put hf h⟩
  refine hN.of_found (fun k => if k = p.objects.length then i else k) (drawn_move ..) ?_ ?_ ?_ ?_ ?_
  · rw [acquiredNames_cons]
    exact List.append_nil _
  · intro n
    rw [created, chron_cons_none rfl, created]
  · intro k o' h hp
    obtain ⟨-, rfl⟩ | ⟨-, ⟨-, rfl⟩ | ⟨-, h⟩⟩ := hfind h
    · exact hN.db_of_prepared hf hp
    · cases hp
    · exact hN.db_of_prepared h hp
  · intro k o' h hdb
    obtain ⟨hk, rfl⟩ | ⟨hk, ⟨-, rfl⟩ | ⟨-, h⟩⟩ := hfind h
    · rw [if_pos hk]
      exact ⟨o', hf, hdb, rfl, rfl⟩
    · cases hdb
    · rw [if_neg hk]
      exact ⟨o', h, hdb, rfl, rfl⟩
  · intro k l o₁ o₂ h h' hdb hdb' heq
    have hne : ∀ {k o'}, ((p.objects.put i o.movedFrom).construct o).find k = some o' →
        o'.db → k ≠ i := by
      rintro k o' h hdb rfl
      obtain ⟨hk, -⟩ | ⟨-, ⟨-, rfl⟩ | ⟨hk, -⟩⟩ := hfind h
      · omega
      · cases hdb
      · exact hk rfl
    have hk := hne h hdb
    have hl := hne h' hdb'
    split at heq <;> split at heq <;> omega

theorem destroy (hN : Names tr p) (hf : p.objects.find i = some o) (c : UInt64) :
    Names (.destroy i o.deallocates :: tr) ⟨c, p.objects.destroy i⟩ := by
  refine hN.of_found id (drawn_destroy ..) ?_ ?_ ?_ ?_ fun _ _ _ _ h => h
  · rw [acquiredNames_cons]
    cases o.deallocates <;> exact List.append_nil _
  · intro n
    rw [created, chron_cons_none rfl, created]
  · exact fun h hp => hN.db_of_prepared (Objects.of_find_destroy hf h) hp
  · exact fun h hdb => ⟨_, Objects.of_find_destroy hf h, hdb, rfl, rfl⟩

end Names

/-- A call of `prepare` that creates nothing new: the server refuses, or the object had prepared
    the statement. -/
theorem Names.reprepare (hN : Names tr p) (hf : p.objects.find i = some o) (hdb : o.db) {q : Query}
    (hname : q.stmtName = o.query.stmtName) (hprep : q.prepared = o.query.prepared)
    {ok again : Bool} (hok : ok → again ∧ o.query.prepared) (c : UInt64) :
    Names (.prepare i o.query.stmtName ok again :: tr)
      ⟨c, p.objects.put i { o with query := q }⟩ := by
  refine hN.of_found id (drawn_prepare ..) ?_ ?_ ?_ ?_ fun _ _ _ _ h => h
  · rw [acquiredNames_cons]
    cases ok with
    | false => exact List.append_nil _
    | true =>
      rw [(hok rfl).1]
      exact List.append_nil _
  · intro n
    rw [created, chron_cons, List.mem_append]
    cases ok with
    | false => exact or_iff_left (by simp)
    | true =>
      refine or_iff_left_of_imp fun hn => ?_
      rw [List.mem_singleton.1 hn]
      exact hN.mem_created.2 ((hN.prepared_iff hf hdb).1 (hok rfl).2)
  · intro k o' h hp
    obtain ⟨-, rfl⟩ | ⟨-, h⟩ := Objects.of_find_put hf h
    · exact hdb
    · exact hN.db_of_prepared h hp
  · intro k o' h hdb'
    obtain ⟨rfl, rfl⟩ | ⟨-, h⟩ := Objects.of_find_put hf h
    · exact ⟨o, hf, hdb, hname.symm, hprep.symm⟩
    · exact ⟨o', h, hdb', rfl, rfl⟩

/-- The names of a run that draws none twice. -/
theorem names (h : queries.Run tr p) (hnew : (drawn tr).Nodup) : Names tr p := by
  induction h with
  | init hp =>
    obtain rfl := hp
    exact ⟨fun h => (by cases h), fun h => (by cases h), fun h => (by cases h),
      fun h => (by cases h), fun h => (by cases h), .nil, Iff.rfl⟩
  | @step tr p p' e hr hst ih =>
    cases hst with
    | construct sql par res =>
      have hcons : drawn (.construct (stmtName p.counter) :: tr) =
          drawn tr ++ [stmtName p.counter] := chron_cons ..
      rw [hcons, List.nodup_append] at hnew
      refine (ih hnew.1).construct sql par res fun h => ?_
      exact hnew.2.2 _ h _ (List.mem_singleton_self _) rfl
    | @prepare i o pq hf hdb =>
      have ih := ih (by rwa [drawn_prepare] at hnew)
      have hprep := prepare_prepared o.query pq
      by_cases hok : (o.query.prepare pq).1.isOk ∧ ¬o.query.prepared
      · rw [hok.1, Bool.or_true] at hprep
        rw [hok.1, Bool.eq_false_iff.2 hok.2]
        exact ih.acquire hf hdb (prepare_stmtName ..) hprep hok.2 _
      · rw [not_and_not_right] at hok
        have hsame : (o.query.prepare pq).2.prepared = o.query.prepared := by
          rw [hprep, Bool.or_eq_left_iff_imp]
          exact hok
        exact ih.reprepare hf hdb (prepare_stmtName ..) hsame
          (fun h => ⟨hok h, hok h⟩) _
    | @move i o hf => exact (ih (by rwa [drawn_move] at hnew)).move hf _
    | @destroy i o hf => exact (ih (by rwa [drawn_destroy] at hnew)).destroy hf _

/-- **Every statement is released once**: as long as the counter has not wrapped around, no name
    was drawn twice and no two objects that were not moved from have the same; a statement that
    the server created was deallocated once, and nobody owns it, or it was not, and one object
    does; no other statement was deallocated. -/
theorem released_once (h : queries.Run tr p) (hlen : (drawn tr).length ≤ 2 ^ 64) :
    (drawn tr).Nodup ∧
    (∀ i j o o', p.objects.find i = some o → p.objects.find j = some o' → o.db → o'.db →
      o.query.stmtName = o'.query.stmtName → i = j) ∧
    (∀ n ∈ created tr,
      (deallocated tr).count n = 1 ∧ (∀ i, p.own i ≠ some n) ∨
      (deallocated tr).count n = 0 ∧ ∃! i, p.own i = some n) ∧
    ∀ n ∉ created tr, n ∉ deallocated tr := by
  have hnew := nodup_drawn h hlen
  have hN := names h hnew
  have hb := balanced (queries_simulates.run h) hN.nodup
  rw [← released_filterMap]
  refine ⟨hnew, fun i j o o' hf hf' hdb hdb' => hN.unique hf hf' hdb hdb', fun n hn => ?_,
    fun n hn hr => hn (hN.mem_created.2 (hb.acquired_of_released n hr))⟩
  by_cases hr : n ∈ released (tr.filterMap ObjectEvent.act)
  · exact .inl ⟨List.count_eq_one_of_mem hb.once hr, fun i hi => (hb.held i n hi).2 hr⟩
  · obtain hr' | ⟨i, hi⟩ := hb.settled n (hN.mem_created.1 hn)
    · exact absurd hr' hr
    · exact .inr ⟨List.count_eq_zero_of_not_mem hr, i, hi, fun j hj => hb.unique j i n hj hi⟩

/-- A server that creates any statement. -/
def creating : Libpq := { prepare := fun _ _ _ => some ⟨.commandOk, [], [], "", none⟩ }

/-- Two objects; the one that has prepared its statement is moved, then both ends are destroyed. -/
def movedOnce : List ObjectEvent :=
  [.destroy 2 (some (stmtName 0)), .destroy 0 none, .move 0 2, .prepare 0 (stmtName 0) true false,
    .construct (stmtName 1), .construct (stmtName 0)]

theorem movedOnce_run : ∃ p, queries.Run movedOnce p ∧ ∀ i, p.own i = none := by
  have h := Lts.Run.step (A := queries) (.init rfl) (.construct _ "" (.make [] 1) (.make [] 1))
  have h := h.step (.construct _ "" (.make [] 1) (.make [] 1))
  have h := h.step (.prepare (i := 0) creating rfl rfl)
  have h := h.step (.move (i := 0) rfl)
  have h := h.step (.destroy (i := 0) rfl)
  have h := h.step (.destroy (i := 2) rfl)
  refine ⟨_, h, fun i => ?_⟩
  rcases i with _ | _ | _ | i <;> rfl

/-- What was prepared before a move is deallocated by the new object alone. -/
theorem released_once_moved : (drawn movedOnce).Nodup ∧
    (deallocated movedOnce).count (stmtName 0) = 1 ∧ stmtName 1 ∉ deallocated movedOnce := by
  obtain ⟨p, hp, hown⟩ := movedOnce_run
  obtain ⟨hnew, -, honce, hnone⟩ := released_once hp (by decide)
  refine ⟨hnew, ?_, hnone _ fun h => ?_⟩
  · obtain ⟨h, -⟩ | ⟨-, i, hi, -⟩ := honce (stmtName 0) (List.mem_singleton_self _)
    · exact h
    · cases (hown i).symm.trans hi
  · exact absurd (stmtName_inj (List.mem_singleton.1 h)) (by decide)

/-- Any number of objects can be constructed. -/
theorem construct_many (n : ℕ) : ∃ tr p, queries.Run tr p ∧ p.counter = .ofNat n ∧
    p.objects =
      (List.range n).map fun k => some (.make (.ofNat k) "" (.make [] 1) (.make [] 1)) := by
  induction n with
  | zero => exact ⟨[], {}, .init rfl, rfl, rfl⟩
  | succ n ih =>
    obtain ⟨tr, p, hr, hc, ho⟩ := ih
    refine ⟨_, _, hr.step (.construct p "" (.make [] 1) (.make [] 1)), ?_, ?_⟩
    · rw [hc]
      exact (UInt64.ofNat_add n 1).symm
    · rw [List.range_succ, List.map_append, ← ho, hc]
      rfl

/-- The names of all objects are not distinct: those moved from have none, and the counter wraps
    around. -/
theorem names_collide :
    (∃ tr p i j o o', queries.Run tr p ∧
      p.objects.find i = some o ∧ p.objects.find j = some o' ∧ i ≠ j ∧
      o.query.stmtName = o'.query.stmtName) ∧
    ∃ tr p i j o o', queries.Run tr p ∧
      p.objects.find i = some o ∧ p.objects.find j = some o' ∧ i ≠ j ∧
      o.db ∧ o'.db ∧ o.query.stmtName = o'.query.stmtName := by
  constructor
  · have h := Lts.Run.step (A := queries) (.init rfl) (.construct _ "" (.make [] 1) (.make [] 1))
    have h := h.step (.construct _ "" (.make [] 1) (.make [] 1))
    have h := h.step (.move (i := 0) rfl)
    have h := h.step (.move (i := 1) rfl)
    exact ⟨_, _, 0, 1, _, _, h, rfl, rfl, by decide, rfl⟩
  · obtain ⟨tr, p, hr, -, ho⟩ := construct_many (2 ^ 64 + 1)
    have hfind : ∀ k, k < 2 ^ 64 + 1 →
        p.objects.find k = some (.make (.ofNat k) "" (.make [] 1) (.make [] 1)) := by
      intro k hk
      rw [ho, Objects.find, List.getElem?_map, List.getElem?_range hk]
      rfl
    refine ⟨tr, p, 0, 2 ^ 64, _, _, hr, hfind 0 (by omega), hfind (2 ^ 64) (by omega), by omega,
      rfl, rfl, ?_⟩
    exact congrArg stmtName (UInt64.toNat_inj.1 (by simp))

end Dbgen4.Psql
