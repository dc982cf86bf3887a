import Dbgen4.Psql.Ddl
import Mathlib.Data.List.Nodup
import Mathlib.Data.List.Perm.Subperm

/-!
# What the triggers notify of

Once `create_change_trigger` has run for a table, the trigger of the table notifies the channel of
the table, and no other trigger does (`Catalog.Wires`). What a transaction notifies of on this
channel is then the rows of the table that it changes (`Catalog.notifications_eq`).
-/

namespace Dbgen4.Psql

open Rtl Transaction

/-! ## Names -/

theorem clip_prefix (n : ℕ) (cs : List Char) : clip n cs <+: cs := by
  induction cs generalizing n with
  | nil => exact List.prefix_rfl
  | cons c cs ih =>
    rw [clip]
    split
    · exact (List.prefix_cons_inj c).2 (ih _)
    · exact List.nil_prefix

/-- What fits is not cut. -/
theorem clip_eq_self {n : ℕ} {cs : List Char} :
    clip n cs = cs ↔ (cs.map Char.utf8Size).sum ≤ n := by
  induction cs generalizing n with
  | nil => exact iff_of_true rfl n.zero_le
  | cons c cs ih =>
    rw [clip, List.map_cons, List.sum_cons]
    split
    · rw [List.cons_inj_right, ih]
      omega
    · exact iff_of_false (by simp) (by omega)

theorem channelName_toList (table : String) :
    (channelName table).toList = "dbgen4_on_change_".toList ++ table.toList :=
  String.toList_append

theorem channelName_injective {table table' : String} (h : channelName table = channelName table') :
    table = table' := by
  have h := congrArg String.toList h
  rw [channelName_toList, channelName_toList] at h
  exact String.toList_inj.1 (List.append_cancel_left h)

/-- A table whose channel is spelled as the server reads it is so itself. -/
theorem ident_of_channelName {table : String} (h : ident (channelName table) = channelName table) :
    ident table = table := by
  have h := congrArg String.toList h
  rw [ident, String.toList_ofList, channelName_toList] at h
  -- The server has cut nothing, and has not changed the case of a letter.
  have hlower : ("dbgen4_on_change_".toList ++ table.toList).map Char.toLower =
      "dbgen4_on_change_".toList ++ table.toList := by
    have hclip := clip_prefix 63 (("dbgen4_on_change_".toList ++ table.toList).map Char.toLower)
    rw [h] at hclip
    exact (hclip.eq_of_length (List.length_map _).symm).symm
  rw [hlower, clip_eq_self, List.map_append, List.sum_append] at h
  rw [List.map_append] at hlower
  have htable := List.append_inj_right hlower (List.length_map _)
  rw [ident, htable, clip_eq_self.2 (by omega), String.ofList_toList]

/-- Where no two of the notifications are equal, all of them are delivered. -/
theorem Delivered.filter_eq {ns sent : List Notify} (h : Delivered ns sent) {p : Notify → Bool}
    (hnodup : (ns.filter p).Nodup) : sent.filter p = ns.filter p := by
  refine (h.1.filter p).eq_of_length_le (hnodup.subperm fun n hn => ?_).length_le
  obtain ⟨hmem, hp⟩ := List.mem_filter.1 hn
  exact List.mem_filter.2 ⟨h.2 n hmem, hp⟩

/-! ## Rows -/

/-- The operation on a row of the table. -/
def Change.rowOf (table : String) : Change → Option ChangeOp
  | .row name op => if name = table then some op else none
  | _ => none

/-- What is done to the rows of the table. -/
def rowsOf (table : String) (es : List Change) : List ChangeOp := es.filterMap (Change.rowOf table)

theorem rowsOf_append (table : String) (es es' : List Change) :
    rowsOf table (es ++ es') = rowsOf table es ++ rowsOf table es' :=
  List.filterMap_append

theorem rowsOf_cons (table : String) (e : Change) (es : List Change) :
    rowsOf table (e :: es) = (e.rowOf table).toList ++ rowsOf table es := by
  rw [rowsOf, List.filterMap_cons]
  cases e.rowOf table <;> rfl

/-- The notification of an operation on a row of the table. -/
def rowNotify (table : String) (op : ChangeOp) : Notify := ⟨channelName table, op.tgOp⟩

theorem tgOp_injective : Function.Injective ChangeOp.tgOp := by
  intro op op' h
  cases op <;> cases op' <;> first | rfl | exact absurd h (by decide)

theorem rowNotify_injective (table : String) : Function.Injective (rowNotify table) :=
  fun _ _ h => tgOp_injective (congrArg Notify.payload h)

namespace Catalog

variable {c : Catalog} {e : Change} {es pre post : List Change} {table table' : String} {k : ℕ}

/-- Every function is one that `create_change_trigger` creates. -/
def Named (c : Catalog) : Prop :=
  ∀ f channel, c.functions f = some channel →
    ∃ table, f = functionName table ∧ channel = channelName table

theorem Named.apply (h : c.Named) (e : Change) : (c.apply e).Named := by
  cases e with
  | function table =>
    intro f channel hf
    by_cases hfn : f = functionName table
    · rw [functions_function, hfn, Function.update_self] at hf
      exact ⟨table, hfn, (Option.some.inj hf).symm⟩
    · rw [functions_function, Function.update_of_ne hfn] at hf
      exact h f channel hf
  | _ => exact h

theorem Named.applies (h : c.Named) (es : List Change) : (c.applies es).Named := by
  induction es generalizing c with
  | nil => exact h
  | cons e es ih => exact ih (h.apply e)

theorem named_catalog (log : List Change) : (catalog log).Named :=
  Named.applies (fun _ _ h => by cases h) log

/-- The trigger of the table notifies the channel of the table, and it is the only one. -/
structure Wires (c : Catalog) (table : String) : Prop where
  function : c.functions (functionName table) = some (channelName table)
  trigger : c.triggers table = some (functionName table)
  alone : ∀ name, c.triggers name = some (functionName table) → name = table

/-! ## What is notified of -/

theorem fire_eq (hn : c.Named) (hw : c.Wires table)
    (he : ∀ n, e = .notify n → n.channel ≠ channelName table) :
    (c.fire e).filter (·.channel = channelName table) =
      (e.rowOf table).toList.map (rowNotify table) := by
  cases e with
  | row name op =>
    by_cases hname : name = table
    · subst hname
      simp [fire, Change.rowOf, rowNotify, hw.trigger, hw.function]
    · rw [Change.rowOf, if_neg hname]
      refine List.filter_eq_nil_iff.2 fun n hmem hchannel => hname ?_
      obtain ⟨channel, hchannel', rfl⟩ := Option.map_eq_some_iff.1 (Option.mem_toList.1 hmem)
      obtain ⟨f, hf, hf'⟩ := Option.bind_eq_some_iff.1 hchannel'
      obtain ⟨table', rfl, rfl⟩ := hn f channel hf'
      obtain rfl := channelName_injective (of_decide_eq_true hchannel)
      exact hw.alone name hf
  | notify n => exact List.filter_eq_nil_iff.2 (by simpa [fire] using he n rfl)
  | _ => rfl

theorem notifications_append (c : Catalog) (es es' : List Change) :
    c.notifications (es ++ es') = c.notifications es ++ (c.applies es).notifications es' := by
  induction es generalizing c with
  | nil => rfl
  | cons e es ih =>
    rw [List.cons_append, notifications, notifications, ih, List.append_assoc]
    rfl

/-- Data changes notify of the rows of the table. -/
theorem notifications_of_isData (hn : c.Named) (hw : c.Wires table) (hdata : ∀ e ∈ es, e.isData)
    (hes : ∀ n, .notify n ∈ es → n.channel ≠ channelName table) :
    (c.notifications es).filter (·.channel = channelName table) =
      (rowsOf table es).map (rowNotify table) := by
  induction es with
  | nil => rfl
  | cons e es ih =>
    obtain ⟨he, hdata⟩ := List.forall_mem_cons.1 hdata
    rw [notifications, List.filter_append, apply_of_isData he, rowsOf_cons, List.map_append,
      fire_eq hn hw fun n h => hes n (h ▸ List.mem_cons_self),
      ih hdata fun n h => hes n (List.mem_cons_of_mem _ h)]

/-! ## What `create_change_trigger` changes -/

theorem functions_applies_ddl : (c.applies ((ddl table).map Prod.snd)).functions =
    Function.update c.functions (functionName table) (channelName table) := by
  rw [applies_ddl, functions_trigger, functions_dropTrigger, functions_function]

theorem triggers_applies_ddl : (c.applies ((ddl table).map Prod.snd)).triggers =
    Function.update c.triggers (ident table) (functionName table) := by
  rw [applies_ddl, triggers_trigger, triggers_dropTrigger, Function.update_idem, triggers_function]

/-- A table is wired once its trigger has been created, unless its function is another's. -/
theorem wires_ddl (hident : ident table = table)
    (halone : ∀ name, c.triggers name = some (functionName table) → name = table) :
    (c.applies ((ddl table).map Prod.snd)).Wires table := by
  have htrigger : (c.applies ((ddl table).map Prod.snd)).triggers (ident table) =
      some (functionName table) := triggers_ddl c table
  rw [hident] at htrigger
  refine ⟨functions_ddl c table, htrigger, fun name h => ?_⟩
  by_contra hname
  rw [triggers_applies_ddl, hident, Function.update_of_ne hname] at h
  exact hname (halone name h)

/-- The function of a table that is wired may be created again. -/
theorem Wires.function_self (hw : c.Wires table) : (c.apply (.function table)).Wires table := by
  refine ⟨?_, hw.trigger, hw.alone⟩
  rw [functions_function, Function.update_self]

/-- The trigger of another table. -/
theorem Wires.ddl_of_ne (hw : c.Wires table) (hident : ident table' = table')
    (halone : ∀ name, c.triggers name = some (functionName table') → name = table')
    (hne : table ≠ table') :
    (c.apply (.function table')).Wires table ∧
      (c.applies ((ddl table').map Prod.snd)).Wires table := by
  have hfn : functionName table ≠ functionName table' := fun h =>
    hne (halone table (h ▸ hw.trigger))
  refine ⟨⟨?_, hw.trigger, hw.alone⟩, ⟨?_, ?_, fun name h => ?_⟩⟩
  · rw [functions_function, Function.update_of_ne hfn, hw.function]
  · rw [functions_applies_ddl, Function.update_of_ne hfn, hw.function]
  · rw [triggers_applies_ddl, hident, Function.update_of_ne hne, hw.trigger]
  · rw [triggers_applies_ddl, hident] at h
    by_cases hname : name = table'
    · rw [hname, Function.update_self] at h
      exact absurd (Option.some.inj h).symm hfn
    · rw [Function.update_of_ne hname] at h
      exact hw.alone name h

/-- `create_change_trigger` leaves the tables wired that are, unless it stops between the DROP and
    the CREATE. -/
theorem Wires.ddl (hw : c.Wires table) (hident : ident table' = table')
    (halone : ∀ name, c.triggers name = some (functionName table') → name = table') (hk : k ≤ 3)
    (hk' : k ≠ 2) : (c.applies (((ddl table').map Prod.snd).take k)).Wires table := by
  have hone : (c.apply (.function table')).Wires table := by
    by_cases hne : table = table'
    · exact hne ▸ hw.function_self
    · exact (hw.ddl_of_ne hident halone hne).1
  have hall : (c.applies ((Psql.ddl table').map Prod.snd)).Wires table := by
    by_cases hne : table = table'
    · subst hne
      exact wires_ddl hident halone
    · exact (hw.ddl_of_ne hident halone hne).2
  obtain rfl | rfl | rfl : k = 0 ∨ k = 1 ∨ k = 3 := by omega
  · exact hw
  · exact hone
  · exact hall

/-- The statements themselves notify of nothing. -/
theorem notifications_ddl (c : Catalog) (table : String) (hk : k ≤ 3) :
    c.notifications (((Psql.ddl table).map Prod.snd).take k) = [] ∧
      ∀ table', rowsOf table' (((Psql.ddl table).map Prod.snd).take k) = [] := by
  obtain rfl | rfl | rfl | rfl : k = 0 ∨ k = 1 ∨ k = 2 ∨ k = 3 := by omega
  all_goals exact ⟨rfl, fun _ => rfl⟩

/-- A transaction in which `create_change_trigger` runs notifies of the rows of a table that is
    wired, too. -/
theorem notifications_of_ddl (hn : c.Named) (hw : c.Wires table) (hident : ident table' = table')
    (halone : ∀ name, c.triggers name = some (functionName table') → name = table') (hk : k ≤ 3)
    (hk' : k ≠ 2) (hpre : ∀ e ∈ pre, e.isData) (hpost : ∀ e ∈ post, e.isData)
    (hes : ∀ n, .notify n ∈ pre ++ ((Psql.ddl table').map Prod.snd).take k ++ post →
      n.channel ≠ channelName table) :
    (c.notifications (pre ++ ((Psql.ddl table').map Prod.snd).take k ++ post)).filter
        (·.channel = channelName table) =
      (rowsOf table (pre ++ ((Psql.ddl table').map Prod.snd).take k ++ post)).map
        (rowNotify table) := by
  obtain ⟨hnone, hnone'⟩ := notifications_ddl c table' hk
  rw [notifications_append, notifications_append, applies_append, applies_of_isData hpre, hnone,
    List.append_nil, List.filter_append, rowsOf_append, rowsOf_append, hnone', List.append_nil,
    List.map_append, notifications_of_isData hn hw hpre fun n h => hes n (by simp [h]),
    notifications_of_isData (hn.applies _) (hw.ddl hident halone hk hk') hpost
      fun n h => hes n (by simp [h])]

end Catalog

end Dbgen4.Psql
