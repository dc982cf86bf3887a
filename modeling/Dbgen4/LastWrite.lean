import Mathlib.Data.List.Basic

/-!
# Tables of last writes

A store with cells that are named by keys, and writes, each of which hits some of
the cells (`hit`) with a value each. What was last written to a cell
(`lastWrite`) is read off the writes alone; that the store has it there follows
for a whole run from a single write (`holds_foldl`).
-/

namespace Dbgen4

variable {S W K : Type*} {V : K → Type*} (hit : W → (k : K) → Option (V k))

/-- What was last written to a cell, if anything was. -/
def lastWrite (ws : List W) (k : K) : Option (V k) := ws.reverse.findSome? fun w => hit w k

variable {hit}

@[simp] theorem lastWrite_nil (k : K) : lastWrite hit [] k = none := rfl

/-- A write is the last one if no later one hits the cell. -/
theorem lastWrite_cons (w : W) (ws : List W) (k : K) :
    lastWrite hit (w :: ws) k = (lastWrite hit ws k).or (hit w k) := by
  rw [lastWrite, List.reverse_cons, List.findSome?_append]
  cases h : hit w k <;> simp [lastWrite, h]

/-- What was last written was written. -/
theorem hit_of_lastWrite {ws : List W} {k : K} {v : V k} (h : lastWrite hit ws k = some v) :
    ∃ w ∈ ws, hit w k = some v := by
  obtain ⟨w, hw, hv⟩ := List.exists_of_findSome?_eq_some h
  exact ⟨w, List.mem_reverse.1 hw, hv⟩

/-- If a write leaves in each cell what it writes there, and else what was there, so does a run:
    the cells hold the last writes. -/
theorem holds_foldl {step : S → W → S} {Admissible : W → Prop}
    {Holds : S → (k : K) → Option (V k) → Prop}
    (hstep : ∀ s w k o, Admissible w → Holds s k o → Holds (step s w) k ((hit w k).or o))
    {ws : List W} (hws : ∀ w ∈ ws, Admissible w) {s : S} {k : K} {o : Option (V k)}
    (h : Holds s k o) : Holds (ws.foldl step s) k ((lastWrite hit ws k).or o) := by
  induction ws generalizing s o with
  | nil => exact h
  | cons w ws ih =>
    rw [List.foldl_cons, lastWrite_cons, Option.or_assoc]
    exact ih (fun w' hw' => hws w' (List.mem_cons_of_mem _ hw'))
      (hstep s w k o (hws w List.mem_cons_self) h)

end Dbgen4
