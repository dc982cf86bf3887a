import Dbgen4.Gen.Callbacks
import Dbgen4.Template.Check

/-!
# The types of the data

The types of what the templates are rendered with, and of the functions that they call. What is
said of the texts is left open: the types are over any abstraction of texts. The statements have
four types, since a buffer without columns is not generated.
-/

namespace Dbgen4.Gen

open Template

variable {α : Type}

/-! ## Data -/

/-- The texts of a column. -/
def columnTexts : List String :=
  ["name", "base-type", "type", "category", "as-param", "as-result", "storage", "storage-raw",
    "getter-code", "setter-code", "dump-value"]

/-- The texts of a statement. -/
def statementTexts : List String := ["id", "sql", "summary", "dscr", "sql-literal"]

/-- The texts of a file. -/
def fileTexts : List String :=
  ["hpp-include-file", "summary", "description", "version", "schema", "timestamp"]

/-- What is said of the texts. -/
structure Texts (α : Type) where
  column : String → α
  statement : String → α
  file : String → α

/-- Fields that are texts. -/
def textFields (keys : List String) (a : String → α) : List (String × Ty α) :=
  keys.map fun k => (k, .str (a k))

namespace Texts

variable (a : Texts α)

/-- A column. -/
def columnTy : Ty α := .obj (("size", .int) :: ("digits", .int) :: textFields columnTexts a.column)

/-- The columns of a buffer. There may be none. -/
def bufferTys : List (Ty α) := [.arr false [], .arr true [a.columnTy]]

/-- A statement with such results and parameters. -/
def statementTy (result param : Ty α) : Ty α :=
  .obj (("result", result) :: ("param", param) :: ("res-set-size", .int) ::
    ("par-set-size", .int) :: textFields statementTexts a.statement)

/-- A statement. -/
def statementTys : List (Ty α) :=
  a.bufferTys.flatMap fun result => a.bufferTys.map fun param => a.statementTy result param

/-- The fields of the data. -/
def fileFields : List (String × Ty α) :=
  ("statements", .arr false a.statementTys) :: ("needs-rtl-fmt", .bool) :: ("needs-utf8", .bool) ::
    ("needs-hex", .bool) :: textFields fileTexts a.file

end Texts

/-! ## Functions -/

/-- An optional argument, which must be a literal. -/
def optionalTy (args : List (Ty α)) (i : ℕ) (fallback : Text) : Option Text :=
  match args[i]? with
  | some (.exact (.str s)) => some s
  | some _ => none
  | none => some fallback

/-- What `padding` returns. -/
def paddingTy (D : Domain α) (padChar : Char) : List (Ty α) → Option (α × α)
  | arg :: len :: args => do
    let str ← arg.print D
    let _ ← len.sign
    let leading ← optionalTy args 0 []
    let trailing ← optionalTy args 1 leading
    let fillChar ← optionalTy args 2 [' ']
    return (D.append (D.append (D.lit leading) str) (D.lit trailing),
      D.star (D.lit [fillChar.headD padChar]))
  | _ => none

/-- The types of `pad` and `lpad`. -/
def padSig (D : Domain α) : Sig α := fun name ts =>
  if name = "pad" then (paddingTy D ' ' ts).map fun (str, pad) => .str (D.append str pad)
  else if name = "lpad" then (paddingTy D '-' ts).map fun (str, pad) => .str (D.append pad str)
  else none

/-- The fields of the data of a buffer template. -/
def bufferFields (col : Ty α) (className : Text) : List (String × Ty α) :=
  ("buf", .arr true [col]) ::
    ((bufferData .null className).drop 1).map fun (k, v) => (k, .exact v)

/-- The type of a template of a buffer: its text, trimmed. -/
def bufferTy (D : Domain α) (trim : α → α) (nodes : List Node) (fields : List (String × Ty α)) :
    Option (Ty α) :=
  (Node.checkAll D (padSig D) nodes (.start fields)).map fun (a, _) => .str (trim a)

/-- The types of all functions, with the templates of a buffer. -/
def mainSig (D : Domain α) (trim : α → α) (bufHpp bufCpp : List Node) : Sig α := fun name ts =>
  match ts with
  | [.arr true [col], .exact (.str className), bufSize] =>
    if name = "buffer-definition" ∧ bufSize.sign.isSome then
      bufferTy D trim bufHpp (("buf-size", .int) :: bufferFields col className)
    else padSig D name ts
  | [.arr true [col], .exact (.str className)] =>
    if name = "buffer-implementation" then
      bufferTy D trim bufCpp (bufferFields col className)
    else padSig D name ts
  | _ => padSig D name ts

/-! ## The data has its types -/

variable {D : Domain α}

/-- What is said of the texts of a value holds. -/
def HasTexts (D : Domain α) (keys : List String) (a : String → α) (j : Json) : Prop :=
  ∀ k ∈ keys, ∃ s, j.get? k = some (.str s) ∧ D.Holds (a k) s

theorem holds_textFields {keys : List String} {a : String → α} {j : Json}
    (h : HasTexts D keys a j) : Ty.HoldsFields D (textFields keys a) j := by
  induction keys with
  | nil => trivial
  | cons k keys ih =>
    obtain ⟨s, hs, ha⟩ := h k List.mem_cons_self
    exact ⟨⟨_, hs, s, rfl, ha⟩, ih fun k' hk' => h k' (List.mem_cons_of_mem k hk')⟩

/-- What is said of the texts of a file of statements holds. -/
structure Texts.Hold (a : Texts α) (D : Domain α) (outFolder barename : List Char)
    (timestamp : String) (s : DataStatements) : Prop where
  column : ∀ stmt ∈ s.statements, ∀ el ∈ stmt.results ++ stmt.params,
    HasTexts D columnTexts a.column (attrMappings el)
  statement : ∀ stmt ∈ s.statements, HasTexts D statementTexts a.statement stmt.toJson
  file : HasTexts D fileTexts a.file (internalModelToJson outFolder barename timestamp s)

variable {a : Texts α}

theorem holds_columnTy {el : Rtl.MetaDscr} (h : HasTexts D columnTexts a.column (attrMappings el)) :
    a.columnTy.Holds D (attrMappings el) :=
  ⟨⟨_, rfl, _, rfl⟩, ⟨_, rfl, _, rfl⟩, holds_textFields h⟩

/-- The columns of a buffer, by whether there are any. -/
theorem exists_bufferTy (els : List Rtl.MetaDscr)
    (h : ∀ el ∈ els, HasTexts D columnTexts a.column (attrMappings el)) :
    ∃ t ∈ a.bufferTys, t.Holds D (.arr (els.map attrMappings)) := by
  -- Without columns the templates of a buffer are not rendered, so the two have different types.
  cases els with
  | nil => exact ⟨_, List.mem_cons_self, _, rfl, nofun, nofun⟩
  | cons el els =>
    refine ⟨_, List.mem_cons_of_mem _ List.mem_cons_self, _, rfl, fun _ => List.cons_ne_nil _ _,
      fun v hv => ?_⟩
    obtain ⟨el', hel', rfl⟩ := List.mem_map.1 hv
    exact .inl (holds_columnTy (h el' hel'))

theorem exists_statementTy {stmt : DataStatement}
    (hcol : ∀ el ∈ stmt.results ++ stmt.params, HasTexts D columnTexts a.column (attrMappings el))
    (hstmt : HasTexts D statementTexts a.statement stmt.toJson) :
    ∃ t ∈ a.statementTys, t.Holds D stmt.toJson := by
  obtain ⟨r, hr, hresult⟩ := exists_bufferTy (a := a) stmt.results fun el hel =>
    hcol el (List.mem_append_left _ hel)
  obtain ⟨p, hp, hparam⟩ := exists_bufferTy (a := a) stmt.params fun el hel =>
    hcol el (List.mem_append_right _ hel)
  refine ⟨a.statementTy r p, List.mem_flatMap.2 ⟨r, hr, List.mem_map_of_mem hp⟩, ?_⟩
  exact ⟨⟨_, rfl, hresult⟩, ⟨_, rfl, hparam⟩, ⟨_, rfl, _, rfl⟩, ⟨_, rfl, _, rfl⟩,
    holds_textFields hstmt⟩

theorem Texts.Hold.fileFields {outFolder barename : List Char} {timestamp : String}
    {s : DataStatements} (h : a.Hold D outFolder barename timestamp s) :
    Ty.HoldsFields D a.fileFields (internalModelToJson outFolder barename timestamp s) := by
  refine ⟨⟨_, rfl, _, rfl, nofun, fun v hv => ?_⟩, ⟨_, rfl, _, rfl⟩, ⟨_, rfl, _, rfl⟩,
    ⟨_, rfl, _, rfl⟩, holds_textFields h.file⟩
  obtain ⟨stmt, hstmt, rfl⟩ := List.mem_map.1 hv
  exact Ty.holdsAny_iff.2 (exists_statementTy (h.column stmt hstmt) (h.statement stmt hstmt))

/-! ## The functions have their types -/

theorem toStr_eq_print (j : Json) : toStr j = j.print := by
  cases j <;> rfl

theorem getSize_of_sign {t : Ty α} {j : Json} (h : t.Holds D j) {s : Sign} (hs : t.sign = some s) :
    ∃ n, getSize j = .ok n := by
  obtain ⟨n, rfl, -⟩ := h.sign hs
  exact ⟨_, rfl⟩

theorem getInt_of_sign {t : Ty α} {j : Json} (h : t.Holds D j) {s : Sign} (hs : t.sign = some s) :
    ∃ n, getInt j = .ok n := by
  obtain ⟨n, rfl, -⟩ := h.sign hs
  exact ⟨_, rfl⟩

theorem optional_of_optionalTy {ts : List (Ty α)} {args : List Json}
    (h : List.Forall₂ (Ty.Holds D) ts args) {i : ℕ} {fallback s : Text}
    (hs : optionalTy ts i fallback = some s) : optional args i fallback = .ok s := by
  have hrel := List.forall₂_iff_get.1 h
  unfold optionalTy at hs
  split at hs
  · rename_i s' hi
    cases hs
    obtain ⟨hlt, hti⟩ := List.getElem?_eq_some_iff.1 hi
    have hholds := hrel.2 i hlt (hrel.1 ▸ hlt)
    rw [List.get_eq_getElem, hti] at hholds
    rw [optional, List.getElem?_eq_getElem (hrel.1 ▸ hlt)]
    exact congrArg getString hholds
  · cases hs
  · rename_i hi
    cases hs
    rw [optional, List.getElem?_eq_none (hrel.1 ▸ List.getElem?_eq_none_iff.1 hi)]

theorem padding_of_paddingTy {padChar : Char} {ts : List (Ty α)} {args : List Json} {a b : α}
    (h : List.Forall₂ (Ty.Holds D) ts args) (ht : paddingTy D padChar ts = some (a, b)) :
    ∃ str pad, padding padChar args = .ok (str, pad) ∧ D.Holds a str ∧ D.Holds b pad := by
  unfold paddingTy at ht
  split at ht
  · obtain _ | ⟨harg, _ | ⟨hlen, hargs⟩⟩ := h
    simp only [Option.bind_eq_bind, Option.bind_eq_some_iff] at ht
    obtain ⟨c, hc, sg, hsg, leading, hl, trailing, htr, fill, hf, hab⟩ := ht
    obtain ⟨str, hstr, hholds⟩ := harg.print hc
    obtain ⟨n, hn⟩ := getSize_of_sign hlen hsg
    cases hab
    have hflat (k : ℕ) : D.Holds (D.star (D.lit [fill.headD padChar]))
        (List.replicate k (fill.headD padChar)) := by
      have hrep : (List.replicate k [fill.headD padChar]).flatten =
          List.replicate k (fill.headD padChar) := by simp
      rw [← hrep]
      exact D.holds_star fun s hs => List.eq_of_mem_replicate hs ▸ D.holds_lit _
    refine ⟨leading ++ str ++ trailing,
      List.replicate (n - Text.size (leading ++ str ++ trailing)) (fill.headD padChar), ?_,
      D.holds_append (D.holds_append (D.holds_lit _) hholds) (D.holds_lit _), hflat _⟩
    rw [padding, toStr_eq_print, hstr, ok_bind, hn, ok_bind, optional_of_optionalTy hargs hl,
      ok_bind, optional_of_optionalTy hargs htr, ok_bind, optional_of_optionalTy hargs hf]
    rfl
  · cases ht

theorem padSig_sound : (padSig D).Sound D padCallbacks := by
  intro f ts t vs ht h
  unfold padSig at ht
  split_ifs at ht with hpad hlpad
  · obtain ⟨⟨c, d⟩, hcd, rfl⟩ := Option.map_eq_some_iff.1 ht
    obtain ⟨str, pad, hpadding, hc, hd⟩ := padding_of_paddingTy h hcd
    refine ⟨padImpl, .str (str ++ pad), if_pos hpad, ?_, _, rfl, D.holds_append hc hd⟩
    rw [padImpl, hpadding]
    rfl
  · obtain ⟨⟨c, d⟩, hcd, rfl⟩ := Option.map_eq_some_iff.1 ht
    obtain ⟨str, pad, hpadding, hc, hd⟩ := padding_of_paddingTy h hcd
    refine ⟨lpadImpl, .str (pad ++ str), ?_, ?_, _, rfl, D.holds_append hd hc⟩
    · rw [padCallbacks, if_neg hpad, if_pos hlpad]
    · rw [lpadImpl, hpadding]
      rfl

theorem holds_definitionFields {col : Ty α} {buf : Json} {className : Text}
    (h : (Ty.arr true [col]).Holds D buf) (n : ℤ) :
    Ty.HoldsFields D (("buf-size", .int) :: bufferFields col className)
      (.obj (("buf-size", .int n) :: bufferData buf className)) :=
  ⟨⟨_, rfl, n, rfl⟩, ⟨buf, rfl, h⟩, ⟨_, rfl, rfl⟩, ⟨_, rfl, rfl⟩, ⟨_, rfl, rfl⟩, trivial⟩

theorem holds_bufferFields {col : Ty α} {buf : Json} {className : Text}
    (h : (Ty.arr true [col]).Holds D buf) :
    Ty.HoldsFields D (bufferFields col className) (.obj (bufferData buf className)) :=
  ⟨⟨buf, rfl, h⟩, ⟨_, rfl, rfl⟩, ⟨_, rfl, rfl⟩, ⟨_, rfl, rfl⟩, trivial⟩

/-- A template of a buffer renders, if it is checked for the class. -/
theorem exists_buffer {trim : α → α}
    (htrim : ∀ a s, D.Holds a s → D.Holds (trim a) (trimTrailingWhitespaceView s))
    {nodes : List Node} {fields : List (String × Ty α)} {t : Ty α}
    (ht : bufferTy D trim nodes fields = some t) {data : Json}
    (hdata : Ty.HoldsFields D fields data) :
    ∃ out, render padCallbacks nodes data = .ok out ∧
      t.Holds D (.str (trimTrailingWhitespaceView out)) := by
  obtain ⟨⟨a, Γ⟩, hcheck, rfl⟩ := Option.map_eq_some_iff.1 ht
  obtain ⟨out, hout, ha⟩ := render_of_checkAll padSig_sound hcheck hdata
  exact ⟨out, hout, _, rfl, htrim a out ha⟩

theorem callbacks_pad {name : String} {n : ℕ} {function : List Json → Except RenderError Json}
    (h : padCallbacks name n = some function) : callbacks name n = some function := by
  unfold callbacks
  split_ifs with hdef himpl
  · rw [hdef.1] at h
    cases h
  · rw [himpl.1] at h
    cases h
  · exact h

theorem mainSig_sound {trim : α → α}
    (htrim : ∀ a s, D.Holds a s → D.Holds (trim a) (trimTrailingWhitespaceView s)) :
    (mainSig D trim Jinja.bufHpp Jinja.bufCpp).Sound D callbacks := by
  have hpad : ∀ f ts t vs, padSig D f ts = some t → List.Forall₂ (Ty.Holds D) ts vs →
      ∃ function v, callbacks f vs.length = some function ∧ function vs = .ok v ∧ t.Holds D v := by
    intro f ts t vs ht h
    obtain ⟨function, v, hf, hv, hvt⟩ := padSig_sound f ts t vs ht h
    exact ⟨function, v, callbacks_pad hf, hv, hvt⟩
  intro f ts t vs ht h
  unfold mainSig at ht
  split at ht
  · rename_i col className bufSize
    split_ifs at ht with hf
    · obtain ⟨sg, hsg⟩ := Option.isSome_iff_exists.1 hf.2
      obtain _ | ⟨hbuf, _ | ⟨hname, _ | ⟨hsize, _ | _⟩⟩⟩ := h
      obtain ⟨n, hn⟩ := getInt_of_sign hsize hsg
      obtain ⟨out, hout, hh⟩ := exists_buffer htrim ht (holds_definitionFields hbuf n)
      refine ⟨bufferDefinition, _, if_pos ⟨hf.1, rfl⟩, ?_, hh⟩
      rw [show _ = Json.str className from hname, bufferDefinition, getString, ok_bind, hn, ok_bind,
        hout]
      rfl
    · exact hpad _ _ _ _ ht h
  · rename_i col className
    split_ifs at ht with hf
    · obtain _ | ⟨hbuf, _ | ⟨hname, _ | _⟩⟩ := h
      obtain ⟨out, hout, hh⟩ := exists_buffer htrim ht (holds_bufferFields hbuf)
      refine ⟨bufferImplementation, _, ?_, ?_, hh⟩
      · rw [callbacks, if_neg (by rintro ⟨-, h⟩; cases h), if_pos ⟨hf, rfl⟩]
      · rw [show _ = Json.str className from hname, bufferImplementation, getString, ok_bind, hout]
        rfl
    · exact hpad _ _ _ _ ht h
  · exact hpad _ _ _ _ ht h

end Dbgen4.Gen
