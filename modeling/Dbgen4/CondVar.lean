import Mathlib.Data.Set.Subsingleton
import Mathlib.Logic.Function.Basic
import Mathlib.Tactic.SplitIfs

/-!
# Condition variables

Threads that sleep on condition variables, each until a predicate of its own holds. A condition
variable is its *wait set*, the threads asleep on it: waiting adds a thread, a notification takes
one of them out, or all of them (`Waits`). Nothing else does: there are no spurious wake-ups.

Predicates are changed first and notifications sent later, by another step of the same thread. In
between, the thread *owes* the notification. Threads that keep to the `Discipline` never lose a
wake-up: as long as a thread sleeps although its predicate holds, another one owes it the
notification (`NoLostWakeup.step`).
-/

namespace CondVar

variable {S T V : Type*}

/-- What a step does with the condition variables. -/
inductive Act (T V : Type*)
  | none
  | wait (t : T) (v : V)
  | notifyOne (v : V)
  | notifyAll (v : V)

/-- How the wait sets change. -/
inductive Waits [DecidableEq V] : (V → Set T) → Act T V → (V → Set T) → Prop
  | none (W : V → Set T) : Waits W .none W
  | wait (W : V → Set T) (t : T) (v : V) :
    Waits W (.wait t v) (Function.update W v (insert t (W v)))
  | notifyOne {W : V → Set T} {t : T} {v : V} (h : t ∈ W v) :
    Waits W (.notifyOne v) (Function.update W v (W v \ {t}))
  | notifyNobody {W : V → Set T} {v : V} (h : W v = ∅) : Waits W (.notifyOne v) W
  | notifyAll (W : V → Set T) (v : V) : Waits W (.notifyAll v) (Function.update W v ∅)

/-- Where no more than one can wait, taking one out leaves nobody. -/
theorem diff_eq_empty {w : Set T} {t : T} (hone : w.Subsingleton) (ht : t ∈ w) : w \ {t} = ∅ :=
  Set.eq_empty_iff_forall_notMem.2 fun _ hu => hu.2 (hone hu.1 ht)

section

variable [DecidableEq V] {W W' : V → Set T} {a : Act T V}

/-- A thread gets into a wait set by waiting. -/
theorem Waits.mem (h : Waits W a W') {t : T} {v : V} (ht : t ∈ W' v) :
    t ∈ W v ∨ a = .wait t v := by
  cases h with
  | none | notifyNobody _ => exact .inl ht
  | wait u v' =>
    rw [Function.update_apply] at ht
    split_ifs at ht with hv
    · subst hv
      exact ht.elim (fun heq => .inr (heq ▸ rfl)) .inl
    · exact .inl ht
  | @notifyOne u v' _ =>
    rw [Function.update_apply] at ht
    split_ifs at ht with hv
    · exact .inl (hv ▸ ht.1)
    · exact .inl ht
  | notifyAll v' =>
    rw [Function.update_apply] at ht
    split_ifs at ht
    · exact absurd ht (Set.notMem_empty t)
    · exact .inl ht

/-- Notifying one is then the same as notifying all. -/
theorem Waits.one_of_subsingleton {v : V} (hone : (W v).Subsingleton) :
    Waits W (.notifyOne v) (Function.update W v ∅) := by
  rcases (W v).eq_empty_or_nonempty with hnone | ⟨t, ht⟩
  · have hsame : Function.update W v ∅ = W := by
      rw [← hnone, Function.update_eq_self]
    rw [hsame]
    exact .notifyNobody hnone
  · rw [← diff_eq_empty hone ht]
    exact .notifyOne ht

/-- Notifying all empties the wait set. -/
theorem Waits.eq_empty_of_all {v : V} (h : Waits W (.notifyAll v) W') : W' v = ∅ := by
  cases h with
  | notifyAll => exact Function.update_self ..

/-- Notifying one empties it, where no more than one can wait. -/
theorem Waits.eq_empty_of_one {v : V} (h : Waits W (.notifyOne v) W')
    (hone : (W v).Subsingleton) : W' v = ∅ := by
  cases h with
  | @notifyOne t _ ht => rw [Function.update_self, diff_eq_empty hone ht]
  | notifyNobody hnone => exact hnone

end

/-! ## Threads -/

/-- Threads `T` that share states `S` and the condition variables `V`. -/
structure Monitor (S T V : Type*) where
  /-- The steps of a thread, with what they do with the condition variables. -/
  step : T → S → Act T V → S → Prop
  /-- The wait sets. -/
  waiting : S → V → Set T
  /-- What a thread waits for. -/
  pred : S → V → T → Prop
  /-- A thread has a notification to send, before anything else. -/
  owes : S → T → V → Prop

namespace Monitor

variable (m : Monitor S T V)

/-- Whoever sleeps although its predicate holds has a notification to come, from another thread. -/
def NoLostWakeup (s : S) : Prop :=
  ∀ v, ∀ t ∈ m.waiting s v, m.pred s v t → ∃ u, u ≠ t ∧ m.owes s u v

/-- A thread can go on, and notifies a condition variable when it does. -/
def NotifiesNext (s : S) (t : T) (v : V) : Prop :=
  (∃ a s', m.step t s a s') ∧ ∀ a s', m.step t s a s' → a = .notifyOne v ∨ a = .notifyAll v

/-- How the threads use the condition variables. -/
structure Discipline [DecidableEq V] : Prop where
  waits : ∀ t s a s', m.step t s a s' → Waits (m.waiting s) a (m.waiting s')
  /-- There are no spurious wake-ups: who sleeps does not step. -/
  awake : ∀ t s a s' v, m.step t s a s' → t ∉ m.waiting s v
  /-- A thread only goes to sleep on a predicate that it found false. -/
  sleep : ∀ t s u v s', m.step t s (.wait u v) s' → ¬ m.pred s' v u
  /-- A thread that makes true what another one waits for owes a notification. -/
  change : ∀ t s a s' v u, m.step t s a s' → u ∈ m.waiting s v → ¬ m.pred s v u →
    u ∈ m.waiting s' v → m.pred s' v u → m.owes s' t v
  /-- What a thread owes is its own affair. -/
  keep : ∀ t s a s' u v, m.step t s a s' → u ≠ t → m.owes s u v → m.owes s' u v
  /-- It is paid by notifying all, or one where no more than one can wait. -/
  pay : ∀ t s a s' v, m.step t s a s' → m.owes s t v → m.owes s' t v ∨ a = .notifyAll v ∨
    a = .notifyOne v ∧ (m.waiting s v).Subsingleton

variable {m}

/-- **No wake-up is lost** by a step of threads that keep to the discipline. -/
theorem NoLostWakeup.step [DecidableEq V] (hd : m.Discipline) {t : T} {s s' : S} {a : Act T V}
    (hn : m.NoLostWakeup s) (h : m.step t s a s') : m.NoLostWakeup s' := by
  intro v u hu hp
  have hwaits := hd.waits t s a s' h
  rcases hwaits.mem hu with hold | rfl
  · -- It was asleep before, so that another thread takes the step.
    have hne : t ≠ u := fun heq => hd.awake t s a s' v h (heq ▸ hold)
    by_cases hpred : m.pred s v u
    · obtain ⟨w, hw, howes⟩ := hn v u hold hpred
      by_cases hwt : w = t
      · subst hwt
        -- The thread that owes steps: it still owes, or there is nobody left asleep.
        rcases hd.pay w s a s' v h howes with hstill | rfl | ⟨rfl, hone⟩
        · exact ⟨w, hw, hstill⟩
        · rw [hwaits.eq_empty_of_all] at hu
          exact absurd hu (Set.notMem_empty u)
        · rw [hwaits.eq_empty_of_one hone] at hu
          exact absurd hu (Set.notMem_empty u)
      · exact ⟨w, hw, hd.keep t s a s' w v h hwt howes⟩
    · exact ⟨t, hne, hd.change t s a s' v u h hold hpred hu hp⟩
  · exact absurd hp (hd.sleep t s u v s' h)

end Monitor

end CondVar
