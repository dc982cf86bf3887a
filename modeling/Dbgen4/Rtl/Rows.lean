import Dbgen4.Lts
import Dbgen4.Objects
import Dbgen4.Rtl.Storage

/-!
# The rows of a generated buffer

`row(r)` of a generated buffer refers to the slots of its arrays, through
references that `rebuild_row_wise()` made (`config/buf_cpp.jinja`).

`buffers` is the system of the buffer objects of one generated class, which a
program constructs, resizes, writes to, copies and destroys in any order; the
driver writes through the pointers that they publish. After a string setter that
stores past the arrays of its column there may be anything; `inBounds` is the
system of the programs that make no such call. The rows are rebuilt whenever a
buffer is resized, but copied along by the defaulted copy operations. So in bounds
the rows of an object are its own as long as nothing was copied into it since it
was last resized, and are the rows of the source after that
(`selfConsistent_iff_not_copied`). No two objects ever share an array (`placed`).
-/

namespace Dbgen4.Rtl

variable {ds : List BufferDscr} {isParam : Bool}

/-! ## The objects of a program -/

/-- A program with the buffers of one class. -/
structure Buffers (ds : List BufferDscr) (isParam : Bool) where
  /-- The number of the next operation. -/
  epoch : ℕ := 1
  objects : Objects (GeneratedBuffer ds isParam) := []

namespace Buffers

variable (p : Buffers ds isParam)

/-- What a reference to a value reads; nothing, if it dangles. -/
def readValue (c : Fin ds.length) (ref : Block × ℕ) : Option (ds.get c).Slot :=
  p.objects.search fun b =>
    if (b.columns c).values.block = ref.1 then (b.columns c).values.data[ref.2]? else none

/-- What a reference to an indicator reads. -/
def readNull (c : Fin ds.length) (ref : Block × ℕ) : Option Int32 :=
  p.objects.search fun b =>
    if (b.columns c).lens.block = ref.1 then (b.columns c).lens.data[ref.2]? else none

/-- All arrays of a buffer have its size, and its rows refer to its own slots, so that they read
    what the getters of the columns do. -/
structure SelfConsistent (b : GeneratedBuffer ds isParam) : Prop where
  sized : b.Sized
  rows : ∀ r < b.bufferSize, ∃ row, b.row r = some row ∧ ∀ c, row c = b.slots r c ∧
    p.readValue c (row c).value = b.value c r ∧ p.readNull c (row c).isNull = b.len c r

end Buffers

/-- What happens to a buffer. -/
inductive BufferEvent
  /-- The new object `i`. -/
  | construct (i : ℕ)
  | resize (i : ℕ)
  | write (i : ℕ)
  /-- A setter of the object `i` stores past the arrays of its column. -/
  | overrun (i : ℕ)
  /-- The new object `j` is a copy of the object `i`. -/
  | copy (i j : ℕ)
  /-- The object `i` is assigned the object `j`. -/
  | assign (i j : ℕ)
  | destroy (i : ℕ)

/-- The steps of a program. -/
inductive Buffers.Step (G : Growth) :
    Buffers ds isParam → BufferEvent → Buffers ds isParam → Prop
  | construct (p : Buffers ds isParam) (rows : ℕ) :
    Step G p (.construct p.objects.length)
      ⟨p.epoch + 1, p.objects.construct (.make G p.epoch ds isParam rows)⟩
  | resize {p : Buffers ds isParam} {i : ℕ} {b : GeneratedBuffer ds isParam} (rows : ℕ) :
    p.objects.find i = some b →
    Step G p (.resize i)
      ⟨p.epoch + 1, p.objects.put i (b.setBufferSize G p.epoch rows)⟩
  | write {p : Buffers ds isParam} {i : ℕ} {b b' : GeneratedBuffer ds isParam} :
    p.objects.find i = some b → b.Write b' →
    Step G p (.write i) ⟨p.epoch + 1, p.objects.put i b'⟩
  -- The memory stored to may be that of any object: nothing is known of the next state.
  | overrun {p : Buffers ds isParam} {i : ℕ} {b : GeneratedBuffer ds isParam} {w : ParamWrite ds}
      (p' : Buffers ds isParam) :
    p.objects.find i = some b → isParam → b.Overruns w →
    Step G p (.overrun i) p'
  | copy {p : Buffers ds isParam} {i : ℕ} {b : GeneratedBuffer ds isParam} :
    p.objects.find i = some b →
    Step G p (.copy i p.objects.length) ⟨p.epoch + 1, p.objects.construct (b.copy p.epoch)⟩
  | assign {p : Buffers ds isParam} {i j : ℕ} {b src : GeneratedBuffer ds isParam} :
    p.objects.find i = some b → p.objects.find j = some src →
    Step G p (.assign i j)
      ⟨p.epoch + 1, p.objects.put i (b.copyAssign G p.epoch src)⟩
  | destroy {p : Buffers ds isParam} {i : ℕ} {b : GeneratedBuffer ds isParam} :
    p.objects.find i = some b →
    Step G p (.destroy i) ⟨p.epoch + 1, p.objects.destroy i⟩

/-- The buffers of a program. -/
def buffers (G : Growth) (ds : List BufferDscr) (isParam : Bool) :
    Lts (Buffers ds isParam) BufferEvent where
  init := {{}}
  step := Buffers.Step G

/-- No setter stores past the arrays of its column. -/
def BufferEvent.InBounds : BufferEvent → Prop
  | .overrun _ => False
  | _ => True

/-- The buffers of a program whose setters store to the arrays of their columns only. -/
def inBounds (G : Growth) (ds : List BufferDscr) (isParam : Bool) :
    Lts (Buffers ds isParam) BufferEvent :=
  (buffers G ds isParam).restrict fun _ e => e.InBounds

/-- The objects that an event copies from and to; a self-assignment copies nothing. -/
def BufferEvent.copies : BufferEvent → Option (ℕ × ℕ)
  | .copy i j => some (i, j)
  | .assign i j => if i = j then none else some (j, i)
  | _ => none

/-- Something was copied into an object since it was last resized; the constructor resizes it. -/
def copied : List BufferEvent → ℕ → Bool
  | [], _ => false
  | e :: tr, i =>
    match e with
    | .construct j | .resize j => j ≠ i && copied tr i
    | .copy _ j => j = i || copied tr i
    | .assign k j => k = i && k ≠ j || copied tr i
    | .write _ | .overrun _ | .destroy _ => copied tr i

/-! ## Where the arrays are -/

/-- No block belongs to two objects, or was allocated by an operation to come. -/
structure Buffers.Placed (p : Buffers ds isParam) : Prop where
  lt : ∀ {i b} a, p.objects.find i = some b → (b.place a).1.epoch < p.epoch
  inj : ∀ {i j b b'} a, p.objects.find i = some b → p.objects.find j = some b' →
    (b.place a).1 = (b'.place a).1 → i = j

variable {G : Growth} {p p' : Buffers ds isParam} {e : BufferEvent}
  {tr : List BufferEvent} {i j : ℕ} {b b' src : GeneratedBuffer ds isParam}

namespace Buffers.Placed

/-- An object whose arrays stay where they are, or move to new blocks. -/
theorem put (hp : p.Placed) (hf : p.objects.find i = some b) (hs : b.StoredAt p.epoch b') :
    Placed ⟨p.epoch + 1, p.objects.put i b'⟩ := by
  have hlt : ∀ a, (b'.place a).1.epoch < p.epoch + 1 := by
    intro a
    rcases hs a with h | h <;> rw [h]
    · exact (hp.lt a hf).trans (Nat.lt_succ_self _)
    · exact Nat.lt_succ_self _
  -- The arrays of the other objects are elsewhere.
  have hne : ∀ {j x} a, j ≠ i → p.objects.find j = some x → (b'.place a).1 ≠ (x.place a).1 := by
    intro j x a hji hj heq
    rcases hs a with h | h
    · exact hji (hp.inj a hj hf (heq.symm.trans h))
    · exact (hp.lt a hj).ne (congrArg Block.epoch (heq.symm.trans h))
  refine ⟨fun a h => ?_, fun a h h' heq => ?_⟩
  · obtain ⟨-, rfl⟩ | ⟨-, h₁⟩ := Objects.of_find_put hf h
    · exact hlt a
    · exact (hp.lt a h₁).trans (Nat.lt_succ_self _)
  · obtain ⟨hk, rfl⟩ | ⟨hk, h₁⟩ := Objects.of_find_put hf h
    · obtain ⟨hl, -⟩ | ⟨hl, h₂⟩ := Objects.of_find_put hf h'
      · exact hk.trans hl.symm
      · exact absurd heq (hne a hl h₂)
    · obtain ⟨-, rfl⟩ | ⟨-, h₂⟩ := Objects.of_find_put hf h'
      · exact absurd heq.symm (hne a hk h₁)
      · exact hp.inj a h₁ h₂ heq

/-- A new object, all of whose arrays are in new blocks. -/
theorem construct (hp : p.Placed) (hb : ∀ a, (b.place a).1 = ⟨p.epoch, a.id⟩) :
    Placed ⟨p.epoch + 1, p.objects.construct b⟩ := by
  -- A block of this operation belongs to no older object.
  have hne : ∀ {j x} a, p.objects.find j = some x → (b.place a).1 ≠ (x.place a).1 := by
    intro j x a hj heq
    exact (hp.lt a hj).ne (congrArg Block.epoch (heq.symm.trans (hb a)))
  refine ⟨fun a h => ?_, fun a h h' heq => ?_⟩
  · obtain ⟨-, rfl⟩ | ⟨-, h₁⟩ := Objects.of_find_construct h
    · rw [hb]
      exact Nat.lt_succ_self _
    · exact (hp.lt a h₁).trans (Nat.lt_succ_self _)
  · obtain ⟨hk, rfl⟩ | ⟨-, h₁⟩ := Objects.of_find_construct h
    · obtain ⟨hl, -⟩ | ⟨-, h₂⟩ := Objects.of_find_construct h'
      · exact hk.trans hl.symm
      · exact absurd heq (hne a h₂)
    · obtain ⟨-, rfl⟩ | ⟨-, h₂⟩ := Objects.of_find_construct h'
      · exact absurd heq.symm (hne a h₁)
      · exact hp.inj a h₁ h₂ heq

theorem destroy (hp : p.Placed) (hf : p.objects.find i = some b) :
    Placed ⟨p.epoch + 1, p.objects.destroy i⟩ := by
  have hfind : ∀ {j x}, (p.objects.destroy i).find j = some x → p.objects.find j = some x :=
    fun h => Objects.of_find_destroy hf h
  exact ⟨fun a h => (hp.lt a (hfind h)).trans (Nat.lt_succ_self _),
    fun a h h' heq => hp.inj a (hfind h) (hfind h') heq⟩

end Buffers.Placed

/-- No two objects ever share an array. -/
theorem placed (h : (inBounds G ds isParam).Run tr p) : p.Placed := by
  induction h with
  | init hp =>
    obtain rfl := hp
    exact ⟨fun _ h => (by cases h), fun _ h => (by cases h)⟩
  | step _ hst ih =>
    obtain ⟨hst, hin⟩ := hst
    cases hst with
    | overrun => exact hin.elim
    | construct rows => exact ih.construct (GeneratedBuffer.block_make ds isParam rows)
    | resize rows hf => exact ih.put hf (GeneratedBuffer.storedAt_setBufferSize rows)
    | write hf hw => exact ih.put hf (hw.samePlaces.storedAt _)
    | copy hf => exact ih.construct GeneratedBuffer.block_copy
    | @assign i j b src hf hj => exact ih.put hf GeneratedBuffer.storedAt_copyAssign
    | destroy hf => exact ih.destroy hf

/-! ## What the rows refer to -/

/-- A slot of an object is read through a reference to it. -/
theorem readValue_slot (hp : p.Placed) (hf : p.objects.find i = some b) (c : Fin ds.length)
    (r : ℕ) : p.readValue c (b.slots r c).value = b.value c r := by
  refine (Objects.search_eq hf fun j x hj hji => if_neg fun heq => ?_).trans (if_pos rfl)
  exact hji (hp.inj (.values c) hj hf heq)

theorem readNull_slot (hp : p.Placed) (hf : p.objects.find i = some b) (c : Fin ds.length)
    (r : ℕ) : p.readNull c (b.slots r c).isNull = b.len c r := by
  refine (Objects.search_eq hf fun j x hj hji => if_neg fun heq => ?_).trans (if_pos rfl)
  exact hji (hp.inj (.lens c) hj hf heq)

/-- A buffer whose rows are its own is consistent. -/
theorem selfConsistent_of_ownRows (hp : p.Placed) (hf : p.objects.find i = some b) (hb : b.Sized)
    (hrows : b.OwnRows) : p.SelfConsistent b := by
  refine ⟨hb, fun r hr => ⟨b.slots r, ?_, fun c => ⟨rfl, ?_, ?_⟩⟩⟩
  · rw [GeneratedBuffer.row, hrows, List.getElem?_map, List.getElem?_range hr]
    rfl
  · exact readValue_slot hp hf c r
  · exact readNull_slot hp hf c r

/-- Every object has its size; one that nothing was copied into since it was last resized has
    rows of its own. -/
theorem sized_of_run (hds : 0 < ds.length) (h : (inBounds G ds isParam).Run tr p) :
    ∀ {i b}, p.objects.find i = some b → b.Sized ∧ (copied tr i = false → b.OwnRows) := by
  induction h with
  | init hp =>
    obtain rfl := hp
    intro i b hf
    cases hf
  | @step tr p p' e _ hst ih =>
    intro k x hk
    obtain ⟨hst, hin⟩ := hst
    cases hst with
    | overrun => exact hin.elim
    | construct rows =>
      obtain ⟨-, rfl⟩ | ⟨hne, hk⟩ := Objects.of_find_construct hk
      · exact ⟨GeneratedBuffer.sized_setBufferSize hds rows,
          fun _ => GeneratedBuffer.ownRows_setBufferSize rows⟩
      · refine ⟨(ih hk).1, fun hn => (ih hk).2 ?_⟩
        rwa [copied, decide_eq_true (Ne.symm hne), Bool.true_and] at hn
    | @resize i b rows hf =>
      obtain ⟨-, rfl⟩ | ⟨hne, hk⟩ := Objects.of_find_put hf hk
      · exact ⟨GeneratedBuffer.sized_setBufferSize hds rows,
          fun _ => GeneratedBuffer.ownRows_setBufferSize rows⟩
      · refine ⟨(ih hk).1, fun hn => (ih hk).2 ?_⟩
        rwa [copied, decide_eq_true (Ne.symm hne), Bool.true_and] at hn
    | @write i b b' hf hw =>
      obtain ⟨hki, rfl⟩ | ⟨-, hk⟩ := Objects.of_find_put hf hk
      · exact ⟨hw.samePlaces.sized (ih hf).1,
          fun hn => hw.samePlaces.ownRows ((ih hf).2 (hki ▸ hn))⟩
      · exact ih hk
    | @copy i b hf =>
      obtain ⟨hlen, rfl⟩ | ⟨-, hk⟩ := Objects.of_find_construct hk
      · refine ⟨GeneratedBuffer.sized_copy (ih hf).1, fun hn => ?_⟩
        rw [copied, hlen, decide_eq_true rfl, Bool.true_or] at hn
        cases hn
      · refine ⟨(ih hk).1, fun hn => (ih hk).2 ?_⟩
        rw [copied, Bool.or_eq_false_iff] at hn
        exact hn.2
    | @assign i j b src hf hj =>
      obtain ⟨hki, rfl⟩ | ⟨-, hk⟩ := Objects.of_find_put hf hk
      · refine ⟨GeneratedBuffer.sized_copyAssign (ih hj).1, fun hn => ?_⟩
        rw [copied, Bool.or_eq_false_iff, hki, decide_eq_true rfl, Bool.true_and,
          decide_eq_false_iff_not, not_not] at hn
        obtain ⟨rfl, hn⟩ := hn
        -- A buffer that is assigned itself does not change.
        obtain rfl := Option.some.inj (hf.symm.trans hj)
        rw [GeneratedBuffer.copyAssign_self]
        exact (ih hf).2 hn
      · refine ⟨(ih hk).1, fun hn => (ih hk).2 ?_⟩
        rw [copied, Bool.or_eq_false_iff] at hn
        exact hn.2
    | @destroy i b hf => exact ih (Objects.of_find_destroy hf hk)

/-- Rows that were copied from another object are not those of this one. -/
theorem not_selfConsistent (hds : 0 < ds.length) (hsrc : src.Sized) (hrows : src.OwnRows)
    (hcopied : b.rowWise = src.rowWise)
    (hne : ∀ a, (b.place a).1 ≠ (src.place a).1) : ¬p.SelfConsistent b := by
  intro hb
  obtain ⟨row, hrow, hown⟩ := hb.rows 0 hb.sized.pos
  rw [GeneratedBuffer.row, hcopied, hrows, List.getElem?_map, List.getElem?_range hsrc.pos] at hrow
  obtain rfl := Option.some.inj hrow
  -- Its first row refers to a slot of the source.
  have hslot := congrArg (fun ref => ref.value.1) (hown ⟨0, hds⟩).1
  exact hne (.values ⟨0, hds⟩) hslot.symm

/-- What a copy leaves in an object. -/
theorem not_selfConsistent_of_copies (hds : 0 < ds.length) (hp : p.Placed)
    (hst : (buffers G ds isParam).step p e p') (he : e.copies = some (i, j))
    (hi : ∀ src, p.objects.find i = some src → src.Sized ∧ src.OwnRows)
    (hj : p'.objects.find j = some b) : ¬p'.SelfConsistent b := by
  cases hst with
  | @copy k src hf =>
    cases he
    rw [Objects.find_construct, if_pos rfl] at hj
    obtain rfl := Option.some.inj hj
    refine not_selfConsistent hds (hi src hf).1 (hi src hf).2 rfl fun a heq => ?_
    rw [GeneratedBuffer.block_copy] at heq
    exact (hp.lt a hf).ne (congrArg Block.epoch heq.symm)
  | @assign k l x src hf hl =>
    rw [BufferEvent.copies] at he
    split at he
    · cases he
    · rename_i hkl
      cases he
      rw [Objects.find_put hf, if_pos rfl] at hj
      obtain rfl := Option.some.inj hj
      refine not_selfConsistent hds (hi src hl).1 (hi src hl).2 rfl fun a heq => ?_
      have hstored : x.StoredAt p.epoch (x.copyAssign G p.epoch src) :=
        GeneratedBuffer.storedAt_copyAssign
      rcases hstored a with h | h
      · exact hkl (hp.inj a hf hl (h.symm.trans heq))
      · exact (hp.lt a hl).ne (congrArg Block.epoch (heq.symm.trans h))
  | _ => cases he

/-- **The rows of a buffer are its own** as long as nothing was copied into it since it was last
    resized, and those of another object once a buffer of which this holds was copied into it; in
    every program whose setters store to the arrays of their columns only. -/
theorem selfConsistent_iff_not_copied (hds : 0 < ds.length)
    (h : (inBounds G ds isParam).Run tr p) :
    (∀ i b, p.objects.find i = some b → copied tr i = false → p.SelfConsistent b) ∧
    ∀ e p' i j b, (buffers G ds isParam).step p e p' → e.copies = some (i, j) →
      copied tr i = false → p'.objects.find j = some b → ¬p'.SelfConsistent b := by
  have hp := placed h
  refine ⟨fun i b hf hn => ?_, fun e p' i j b hst he hn hj => ?_⟩
  · obtain ⟨hsized, hrows⟩ := sized_of_run hds h hf
    exact selfConsistent_of_ownRows hp hf hsized (hrows hn)
  · refine not_selfConsistent_of_copies hds hp hst he (fun src hf => ?_) hj
    obtain ⟨hsized, hrows⟩ := sized_of_run hds h hf
    exact ⟨hsized, hrows hn⟩

/-- The parameter `id`. -/
def idColumn : BufferDscr := ⟨"id", .atomic, .integer, 4, rfl⟩

/-- The parameter `name`, of two bytes. -/
def nameColumn : BufferDscr := ⟨"name", .cString, .varChar, 2, rfl⟩

/-- A buffer that is resized and written to is consistent, and a copy of it is not. A text that is
    as wide as its column is stored in the last row. -/
theorem selfConsistent_resized : ∃ tr p p' b b',
    (inBounds .exact [idColumn, nameColumn] true).Run tr p ∧
    (buffers .exact [idColumn, nameColumn] true).step p (.copy 0 1) p' ∧
    p.objects.find 0 = some b ∧ b.bufferSize = 3 ∧ p.SelfConsistent b ∧
    p'.objects.find 1 = some b' ∧ ¬p'.SelfConsistent b' := by
  have h := Lts.Run.step (A := inBounds .exact [idColumn, nameColumn] true) (.init rfl)
    ⟨.construct _ 1, trivial⟩
  have h := h.step ⟨.resize (i := 0) 3 rfl, trivial⟩
  have h := h.step ⟨.write (i := 0) rfl (.call _ (.set 0 42#32 2) rfl id), trivial⟩
  let name : ParamWrite [idColumn, nameColumn] := .set 1 ([97, 98] : List UInt8) 2
  have hname : ¬SetterOverruns .char 2 [97, 98] 2 3 := by
    rw [setterOverruns_iff]
    decide
  have h := h.step ⟨.write (i := 0) rfl (.call _ name rfl hname), trivial⟩
  obtain ⟨hown, hcopy⟩ := selfConsistent_iff_not_copied (by decide) h
  exact ⟨_, _, _, _, _, h, .copy (i := 0) rfl, rfl, rfl, hown 0 _ rfl rfl, rfl,
    hcopy _ _ 0 1 _ (.copy (i := 0) rfl) rfl rfl rfl⟩

/-- The copy of a new buffer is not consistent. -/
theorem not_selfConsistent_copy : ∃ p b, (inBounds .exact [idColumn] true).Run
    [.copy 0 1, .construct 0] p ∧ p.objects.find 1 = some b ∧ ¬p.SelfConsistent b := by
  have h := Lts.Run.step (A := inBounds .exact [idColumn] true) (.init rfl)
    ⟨.construct _ 1, trivial⟩
  have hsized := sized_of_run (by decide) h (i := 0) rfl
  have h' := h.step ⟨.copy (i := 0) rfl, trivial⟩
  refine ⟨_, _, h', rfl, ?_⟩
  refine not_selfConsistent_of_copies (G := .exact) (by decide) (placed h) (.copy (i := 0) rfl)
    rfl (fun src hf => ?_) rfl
  obtain rfl := Option.some.inj hf
  exact ⟨hsized.1, hsized.2 rfl⟩

end Dbgen4.Rtl
