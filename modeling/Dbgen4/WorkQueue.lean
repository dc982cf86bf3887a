import Mathlib.Data.List.Nodup
import Mathlib.Logic.Function.Basic
import Mathlib.Order.MinMax
import Dbgen4.Lts

/-!
# Work shared through a cursor

Any number of workers share tasks that are numbered from zero. A worker takes a task
by reading and advancing a cursor in one step, does it, and comes back for the next one;
the cursor runs on past the last task, which is how a worker learns that there are no
more. Every task is taken once, and when no worker has a task in hand and one has been
told that there are no more, every task is done, by exactly one worker
(`finished_perm_range`, `existsUnique_finished`).
-/

namespace WorkQueue

variable {W : Type*} {m : ℕ}

/-- The cursor, and the task that each worker has in hand. -/
structure State (W : Type*) where
  cursor : ℕ
  hand : W → Option ℕ

/-- What a worker does. -/
inductive Act (W : Type*)
  | take (w : W) (i : ℕ)
  | finish (w : W) (i : ℕ)
  /-- It finds that there are no more tasks. -/
  | leave (w : W)

/-- The task taken, and by whom. -/
@[simp] def Act.taken : Act W → Option (W × ℕ)
  | .take w i => some (w, i)
  | _ => none

/-- The task finished, and by whom. -/
@[simp] def Act.finished : Act W → Option (W × ℕ)
  | .finish w i => some (w, i)
  | _ => none

section

variable [DecidableEq W]

/-- The steps, with `m` tasks. -/
inductive Step (m : ℕ) : State W → Act W → State W → Prop
  | take {s : State W} (w : W) (hfree : s.hand w = none) (hlt : s.cursor < m) :
    Step m s (.take w s.cursor) ⟨s.cursor + 1, Function.update s.hand w (some s.cursor)⟩
  | finish {s : State W} (w : W) (i : ℕ) (hhand : s.hand w = some i) :
    Step m s (.finish w i) ⟨s.cursor, Function.update s.hand w none⟩
  | leave {s : State W} (w : W) (hle : m ≤ s.cursor) : Step m s (.leave w) ⟨s.cursor + 1, s.hand⟩

/-- The queue: nobody has taken a task at first. -/
def queue (W : Type*) [DecidableEq W] (m : ℕ) : Lts (State W) (Act W) where
  init := {⟨0, fun _ => none⟩}
  step := Step m

variable {tr : List (Act W)} {s : State W}

/-- The tasks are taken in order, each once. -/
theorem taken_eq_range (h : (queue W m).Run tr s) :
    (chron Act.taken tr).map Prod.snd = List.range (min s.cursor m) := by
  refine h.invariant (I := fun tr s =>
    (chron Act.taken tr).map Prod.snd = List.range (min s.cursor m)) ?_ ?_
  · rintro s rfl
    simp
  · rintro tr s _ _ _ ih hst
    cases hst with
    | take w hfree hlt =>
      have hmin : min s.cursor m = s.cursor := min_eq_left hlt.le
      have hmin' : min (s.cursor + 1) m = s.cursor + 1 := min_eq_left hlt
      simp [ih, hmin, hmin', List.range_succ]
    | finish w i hhand => simpa using ih
    | leave w hle =>
      have hmin : min s.cursor m = m := min_eq_right hle
      have hmin' : min (s.cursor + 1) m = m := min_eq_right (Nat.le_succ_of_le hle)
      simp [ih, hmin, hmin']

theorem lt_of_taken (h : (queue W m).Run tr s) {p : W × ℕ} (hp : p ∈ chron Act.taken tr) :
    p.2 < s.cursor ∧ p.2 < m := by
  have hmem : p.2 ∈ (chron Act.taken tr).map Prod.snd := List.mem_map_of_mem hp
  rw [taken_eq_range h, List.mem_range] at hmem
  exact lt_min_iff.1 hmem

theorem nodup_map_taken (h : (queue W m).Run tr s) :
    ((chron Act.taken tr).map Prod.snd).Nodup := by
  rw [taken_eq_range h]
  exact List.nodup_range

/-- A task is taken by one worker. -/
theorem taken_inj (h : (queue W m).Run tr s) {w w' : W} {i : ℕ} (hw : (w, i) ∈ chron Act.taken tr)
    (hw' : (w', i) ∈ chron Act.taken tr) : w = w' :=
  congrArg Prod.fst (List.inj_on_of_nodup_map (nodup_map_taken h) hw hw' rfl)

/-- A worker's tasks are those it has finished and the one in its hand. -/
structure Accounted (tr : List (Act W)) (s : State W) : Prop where
  nodup : (chron Act.finished tr).Nodup
  mem_iff (w : W) (i : ℕ) :
    (w, i) ∈ chron Act.taken tr ↔ (w, i) ∈ chron Act.finished tr ∨ s.hand w = some i
  notMem (w : W) (i : ℕ) : s.hand w = some i → (w, i) ∉ chron Act.finished tr

theorem accounted (h : (queue W m).Run tr s) : Accounted tr s := by
  refine h.invariant (I := Accounted) ?_ ?_
  · rintro s rfl
    exact ⟨List.nodup_nil, by simp, by simp⟩
  · rintro tr s _ _ hr ih hst
    cases hst with
    | take w hfree hlt =>
      have hnew : ∀ w', (w', s.cursor) ∉ chron Act.finished tr := fun w' hmem =>
        Nat.lt_irrefl _ (lt_of_taken hr ((ih.mem_iff w' s.cursor).2 (.inl hmem))).1
      refine ⟨by simpa using ih.nodup, fun w' i => ?_, fun w' i => ?_⟩
      · by_cases hw : w' = w
        · subst hw
          simp [ih.mem_iff, hfree, eq_comm]
        · simp [ih.mem_iff, hw]
      · by_cases hw : w' = w
        · subst hw
          simp only [Function.update_self]
          rintro ⟨⟩
          simpa using hnew w'
        · simpa only [Function.update_of_ne hw, chron_cons, Act.finished, Option.toList_none,
            List.append_nil] using ih.notMem w' i
    | finish w i hhand =>
      have hnew := ih.notMem w i hhand
      refine ⟨?_, fun w' i' => ?_, fun w' i' => ?_⟩
      · rw [chron_cons]
        exact List.Nodup.append ih.nodup (List.nodup_singleton _) (by simpa using hnew)
      · by_cases hw : w' = w
        · subst hw
          simp [ih.mem_iff, hhand, eq_comm]
        · simp [ih.mem_iff, hw]
      · by_cases hw : w' = w
        · subst hw
          simp
        · simp only [Function.update_of_ne hw]
          intro hhand'
          simpa [hw] using ih.notMem w' i' hhand'
    | leave w hle =>
      exact ⟨by simpa using ih.nodup, by simpa using ih.mem_iff, by simpa using ih.notMem⟩

/-- A task in hand is in one hand only, -/
theorem hand_inj (h : (queue W m).Run tr s) {w w' : W} {i : ℕ} (hw : s.hand w = some i)
    (hw' : s.hand w' = some i) : w = w' := by
  have hmem := ((accounted h).mem_iff w i).2 (.inr hw)
  exact taken_inj h hmem (((accounted h).mem_iff w' i).2 (.inr hw'))

/-- and not finished by anyone. -/
theorem hand_notMem (h : (queue W m).Run tr s) {w : W} {i : ℕ} (hw : s.hand w = some i) (w' : W) :
    (w', i) ∉ chron Act.finished tr := by
  intro hfin
  have hacc := accounted h
  have heq : w = w' :=
    taken_inj h ((hacc.mem_iff w i).2 (.inr hw)) ((hacc.mem_iff w' i).2 (.inl hfin))
  exact hacc.notMem w i hw (heq ▸ hfin)

theorem hand_lt (h : (queue W m).Run tr s) {w : W} {i : ℕ} (hw : s.hand w = some i) :
    i < s.cursor ∧ i < m :=
  lt_of_taken h (((accounted h).mem_iff w i).2 (.inr hw))

theorem lt_of_finished (h : (queue W m).Run tr s) {w : W} {i : ℕ}
    (hfin : (w, i) ∈ chron Act.finished tr) : i < s.cursor ∧ i < m :=
  lt_of_taken h (((accounted h).mem_iff w i).2 (.inl hfin))

/-- When no task is in hand, those finished are those taken. -/
theorem finished_perm_taken (h : (queue W m).Run tr s) (hhand : ∀ w, s.hand w = none) :
    (chron Act.finished tr).Perm (chron Act.taken tr) := by
  have hacc := accounted h
  have hnodup : (chron Act.taken tr).Nodup := .of_map Prod.snd (nodup_map_taken h)
  refine (List.perm_ext_iff_of_nodup hacc.nodup hnodup).2 fun ⟨w, i⟩ => ?_
  rw [hacc.mem_iff, hhand]
  simp

/-- When moreover the cursor is past the last task, they are all tasks. -/
theorem finished_perm_range (h : (queue W m).Run tr s) (hhand : ∀ w, s.hand w = none)
    (hcursor : m ≤ s.cursor) : ((chron Act.finished tr).map Prod.snd).Perm (List.range m) := by
  have hperm := (finished_perm_taken h hhand).map Prod.snd
  rwa [taken_eq_range h, min_eq_right hcursor] at hperm

/-- Every task is finished by exactly one worker. -/
theorem existsUnique_finished (h : (queue W m).Run tr s) (hhand : ∀ w, s.hand w = none)
    (hcursor : m ≤ s.cursor) {i : ℕ} (hi : i < m) : ∃! w, (w, i) ∈ chron Act.finished tr := by
  have hperm := finished_perm_range h hhand hcursor
  obtain ⟨⟨w, _⟩, hmem, rfl⟩ := List.mem_map.1 (hperm.mem_iff.2 (List.mem_range.2 hi))
  refine ⟨w, hmem, fun w' hmem' => ?_⟩
  have hnodup : ((chron Act.finished tr).map Prod.snd).Nodup :=
    hperm.nodup_iff.2 List.nodup_range
  exact congrArg Prod.fst (List.inj_on_of_nodup_map hnodup hmem' hmem rfl)

end

end WorkQueue
