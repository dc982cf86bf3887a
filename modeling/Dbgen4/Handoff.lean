import Dbgen4.Lts

/-!
# A one-place hand-off queue

A producer puts jobs into a slot that holds one, and a single worker takes them
out and does them, one at a time. This is what the queue is for, whatever
protects it: every job put in is taken once and done once, in the order they
were put in. At any time the jobs put in are those done, then the one in hand,
then the one in the slot (`puts_eq`), so that the producer knows how many of its
jobs are done from the slot and the worker's hand alone.
-/

namespace Handoff

variable {J : Type*}

/-- The slot and the worker's hand. -/
@[ext] structure State (J : Type*) where
  pending : Option J
  inHand : Option J

/-- The job is in the slot or in hand. -/
def State.Has (q : State J) (j : J) : Prop := q.pending = some j ∨ q.inHand = some j

/-- What happens to a job. -/
inductive Act (J : Type*)
  | put (j : J)
  | take (j : J)
  | done (j : J)

/-- The steps of the producer and of the worker. -/
inductive Step : State J → Act J → State J → Prop
  | put (j : J) (h : Option J) : Step ⟨none, h⟩ (.put j) ⟨some j, h⟩
  | take (j : J) : Step ⟨some j, none⟩ (.take j) ⟨none, some j⟩
  | done (j : J) (p : Option J) : Step ⟨p, some j⟩ (.done j) ⟨p, none⟩

/-- A job that is there was there before, or is put in. -/
theorem Step.has {q q' : State J} {a : Act J} {j : J} (h : Step q a q') (hj : q'.Has j) :
    q.Has j ∨ a = .put j := by
  cases h with
  | put j' h =>
    rcases hj with hj | hj
    · exact .inr (congrArg Act.put (Option.some.inj hj))
    · exact .inl (.inr hj)
  | take j' =>
    rcases hj with hj | hj
    · cases hj
    · exact .inl (.inl hj)
  | done j' p =>
    rcases hj with hj | hj
    · exact .inl (.inl hj)
    · cases hj

/-- The queue, empty at first. -/
def queue (J : Type*) : Lts (State J) (Act J) where
  init := {⟨none, none⟩}
  step := Step

/-- The job put in. -/
@[simp] def Act.putJob : Act J → Option J
  | .put j => some j
  | _ => none

/-- The job taken. -/
@[simp] def Act.takenJob : Act J → Option J
  | .take j => some j
  | _ => none

/-- The job done. -/
@[simp] def Act.doneJob : Act J → Option J
  | .done j => some j
  | _ => none

/-- The jobs put in are the jobs taken and the one in the slot; the jobs taken are
    the jobs done and the one in hand. -/
theorem puts_takes {tr : List (Act J)} {s : State J} (h : (queue J).Run tr s) :
    chron Act.putJob tr = chron Act.takenJob tr ++ s.pending.toList ∧
      chron Act.takenJob tr = chron Act.doneJob tr ++ s.inHand.toList := by
  refine h.invariant (I := fun tr s => chron Act.putJob tr = chron Act.takenJob tr ++
    s.pending.toList ∧ chron Act.takenJob tr = chron Act.doneJob tr ++ s.inHand.toList) ?_ ?_
  · rintro s rfl
    exact ⟨rfl, rfl⟩
  · rintro tr _ _ _ _ ⟨hp, ht⟩ (⟨j, h⟩ | ⟨j⟩ | ⟨j, p⟩)
    · refine ⟨?_, ?_⟩ <;> simp_all
    · refine ⟨?_, ?_⟩ <;> simp_all
    · refine ⟨?_, ?_⟩ <;> simp_all

/-- The jobs put in, in order: those done, the one in hand and the one in the slot. -/
theorem puts_eq {tr : List (Act J)} {s : State J} (h : (queue J).Run tr s) :
    chron Act.putJob tr = chron Act.doneJob tr ++ s.inHand.toList ++ s.pending.toList := by
  rw [(puts_takes h).1, (puts_takes h).2]

end Handoff
