import Dbgen4.Lts

/-!
# Resources and their owners

Objects acquire resources, use them, hand them over and release them; each holds
one at a time. This is the discipline of any handle that must be released once:
an object acquires only when it holds nothing, uses and releases only what it
holds, and what is handed over leaves the one for the other.

If no resource is acquired twice, then no two objects hold the same one, every
resource acquired is held by some object or has been released once (`Balanced`),
and nothing is used or released after that (`not_released_before`).

What one object does is a list of uses, and whether they are proper ones can be
computed (`Use.run`).
-/

namespace Ownership

variable {I R : Type*}

/-- What happens to a resource. -/
inductive Act (I R : Type*)
  | acquire (i : I) (r : R)
  | use (i : I) (r : R)
  | handOver (i j : I)
  | release (i : I) (r : R)

/-- The steps of the objects, which each hold a resource or none. -/
inductive Step [DecidableEq I] : (I → Option R) → Act I R → (I → Option R) → Prop
  | acquire {own : I → Option R} {i : I} (r : R) : own i = none →
    Step own (.acquire i r) (Function.update own i (some r))
  | use {own : I → Option R} {i : I} {r : R} : own i = some r → Step own (.use i r) own
  | handOver {own : I → Option R} {i j : I} : i ≠ j → own j = none →
    Step own (.handOver i j) (Function.update (Function.update own j (own i)) i none)
  | release {own : I → Option R} {i : I} {r : R} : own i = some r →
    Step own (.release i r) (Function.update own i none)

/-- At first no object holds anything. -/
def objects (I R : Type*) [DecidableEq I] : Lts (I → Option R) (Act I R) where
  init := {fun _ => none}
  step := Step

/-- The resource acquired. -/
@[simp] def Act.acquiredOne : Act I R → Option R
  | .acquire _ r => some r
  | _ => none

/-- The resource released. -/
@[simp] def Act.releasedOne : Act I R → Option R
  | .release _ r => some r
  | _ => none

/-- The resources acquired. -/
def acquired (tr : List (Act I R)) : List R := chron Act.acquiredOne tr

/-- The resources released. -/
def released (tr : List (Act I R)) : List R := chron Act.releasedOne tr

theorem acquired_cons (a : Act I R) (tr : List (Act I R)) :
    acquired (a :: tr) = acquired tr ++ a.acquiredOne.toList := chron_cons ..

theorem released_cons (a : Act I R) (tr : List (Act I R)) :
    released (a :: tr) = released tr ++ a.releasedOne.toList := chron_cons ..

/-- Every resource acquired is held by one object, or has been released once. -/
structure Balanced (tr : List (Act I R)) (own : I → Option R) : Prop where
  unique : ∀ i j r, own i = some r → own j = some r → i = j
  held : ∀ i r, own i = some r → r ∈ acquired tr ∧ r ∉ released tr
  settled : ∀ r ∈ acquired tr, r ∈ released tr ∨ ∃ i, own i = some r
  acquired_of_released : ∀ r ∈ released tr, r ∈ acquired tr
  once : (released tr).Nodup

variable [DecidableEq I] {tr : List (Act I R)} {own own' : I → Option R}

/-- What an object holds that acquires a resource of its own. -/
theorem Balanced.acquire (hb : Balanced tr own) {i : I} {r : R} (hi : own i = none)
    (hnew : r ∉ acquired tr) :
    Balanced (.acquire i r :: tr) (Function.update own i (some r)) := by
  have hrel : released (.acquire i r :: tr) = released tr := by simp [released_cons]
  have hacq : acquired (.acquire i r :: tr) = acquired tr ++ [r] := acquired_cons ..
  -- What is held already was acquired before.
  have hold : ∀ j r', own j = some r' → r' ≠ r := by
    rintro j r' hj rfl
    exact hnew (hb.held j r' hj).1
  refine ⟨fun j k r' hj hk => ?_, fun j r' hj => ?_, fun r' hr => ?_, fun r' hr => ?_,
    hrel ▸ hb.once⟩
  · rw [Function.update_apply] at hj hk
    split at hj
    · obtain rfl := Option.some.inj hj
      split at hk
      · simp_all
      · exact absurd rfl (hold k _ hk)
    · split at hk
      · obtain rfl := Option.some.inj hk
        exact absurd rfl (hold j _ hj)
      · exact hb.unique j k r' hj hk
  · rw [hacq, hrel, List.mem_append]
    rw [Function.update_apply] at hj
    split at hj
    · obtain rfl := Option.some.inj hj
      exact ⟨.inr (List.mem_singleton_self _), fun h => hnew (hb.acquired_of_released _ h)⟩
    · obtain ⟨ha, hr⟩ := hb.held j r' hj
      exact ⟨.inl ha, hr⟩
  · rw [hacq, List.mem_append, List.mem_singleton] at hr
    rw [hrel]
    rcases hr with hr | rfl
    · rcases hb.settled r' hr with h | ⟨j, hj⟩
      · exact .inl h
      · refine .inr ⟨j, ?_⟩
        rw [Function.update_apply, if_neg, hj]
        rintro rfl
        cases hi.symm.trans hj
    · exact .inr ⟨i, Function.update_self ..⟩
  · rw [hrel] at hr
    rw [hacq]
    exact List.mem_append_left _ (hb.acquired_of_released r' hr)

/-- What is handed over is held by the other object. -/
theorem Balanced.handOver (hb : Balanced tr own) {i j : I} (hj : own j = none) :
    Balanced (.handOver i j :: tr) (Function.update (Function.update own j (own i)) i none) := by
  have hrel : released (.handOver i j :: tr) = released tr := by simp [released_cons]
  have hacq : acquired (.handOver i j :: tr) = acquired tr := by simp [acquired_cons]
  -- Who holds a resource afterwards, and who held it.
  have hback : ∀ k r, Function.update (Function.update own j (own i)) i none k = some r →
      k ≠ i ∧ (k = j ∧ own i = some r ∨ k ≠ j ∧ own k = some r) := by
    intro k r hk
    rw [Function.update_apply] at hk
    split at hk
    · cases hk
    · rename_i hki
      rw [Function.update_apply] at hk
      split at hk
      · rename_i hkj
        exact ⟨hki, .inl ⟨hkj, hk⟩⟩
      · rename_i hkj
        exact ⟨hki, .inr ⟨hkj, hk⟩⟩
  refine ⟨fun k l r hk hl => ?_, fun k r hk => ?_, fun r hr => ?_, ?_, hrel ▸ hb.once⟩
  · obtain ⟨hki, ⟨hkj, hk'⟩ | ⟨hkj, hk'⟩⟩ := hback k r hk
    · obtain ⟨hli, ⟨hlj, -⟩ | ⟨hlj, hl'⟩⟩ := hback l r hl
      · exact hkj.trans hlj.symm
      · exact absurd (hb.unique l i r hl' hk') hli
    · obtain ⟨hli, ⟨hlj, hl'⟩ | ⟨hlj, hl'⟩⟩ := hback l r hl
      · exact absurd (hb.unique k i r hk' hl') hki
      · exact hb.unique k l r hk' hl'
  · rw [hacq, hrel]
    obtain ⟨-, ⟨-, hk⟩ | ⟨-, hk⟩⟩ := hback k r hk
    · exact hb.held i r hk
    · exact hb.held k r hk
  · rw [hacq] at hr
    rw [hrel]
    rcases hb.settled r hr with h | ⟨k, hk⟩
    · exact .inl h
    · refine .inr ?_
      by_cases hki : k = i
      · subst hki
        refine ⟨j, ?_⟩
        have hne : j ≠ k := by
          rintro rfl
          cases hj.symm.trans hk
        rw [Function.update_of_ne hne, Function.update_self, hk]
      · have hkj : k ≠ j := by
          rintro rfl
          cases hj.symm.trans hk
        exact ⟨k, by rw [Function.update_of_ne hki, Function.update_of_ne hkj, hk]⟩
  · intro r hr
    rw [hrel] at hr
    rw [hacq]
    exact hb.acquired_of_released r hr

/-- What is released is held by no object any more. -/
theorem Balanced.release (hb : Balanced tr own) {i : I} {r : R} (hi : own i = some r) :
    Balanced (.release i r :: tr) (Function.update own i none) := by
  have hrel : released (.release i r :: tr) = released tr ++ [r] := released_cons ..
  have hacq : acquired (.release i r :: tr) = acquired tr := by simp [acquired_cons]
  obtain ⟨hri, hri'⟩ := hb.held i r hi
  -- What is held afterwards is held by the others.
  have hback : ∀ k r', Function.update own i none k = some r' → k ≠ i ∧ own k = some r' := by
    intro k r' hk
    rw [Function.update_apply] at hk
    split at hk
    · cases hk
    · rename_i hki
      exact ⟨hki, hk⟩
  refine ⟨fun k l r' hk hl => ?_, fun k r' hk => ?_, fun r' hr => ?_, fun r' hr => ?_, ?_⟩
  · exact hb.unique k l r' (hback k r' hk).2 (hback l r' hl).2
  · obtain ⟨hki, hk⟩ := hback k r' hk
    obtain ⟨ha, hr⟩ := hb.held k r' hk
    rw [hacq, hrel, List.mem_append, List.mem_singleton]
    refine ⟨ha, fun h => ?_⟩
    rcases h with h | rfl
    · exact hr h
    · exact hki (hb.unique k i r' hk hi)
  · rw [hacq] at hr
    rw [hrel, List.mem_append, List.mem_singleton]
    rcases hb.settled r' hr with h | ⟨k, hk⟩
    · exact .inl (.inl h)
    · by_cases hki : k = i
      · subst hki
        exact .inl (.inr (Option.some.inj (hk.symm.trans hi)))
      · exact .inr ⟨k, by rw [Function.update_of_ne hki, hk]⟩
  · rw [hacq]
    rw [hrel, List.mem_append, List.mem_singleton] at hr
    rcases hr with hr | rfl
    · exact hb.acquired_of_released r' hr
    · exact hri
  · rw [hrel, List.nodup_append]
    refine ⟨hb.once, List.pairwise_singleton _ r, fun a ha b hr' => ?_⟩
    rw [List.mem_singleton.1 hr']
    rintro rfl
    exact hri' ha

/-- **Everything is released once**: if no resource is acquired twice, every one acquired is held
    by one object or has been released once. -/
theorem balanced (h : (objects I R).Run tr own) (hnew : (acquired tr).Nodup) :
    Balanced tr own := by
  induction h with
  | init hs =>
    obtain rfl := hs
    refine ⟨fun _ _ _ h => (by cases h), fun _ _ h => (by cases h), fun r hr => ?_, fun r hr => ?_,
      .nil⟩
    · cases hr
    · cases hr
  | @step tr own own' a _ hst ih =>
    rw [acquired_cons, List.nodup_append] at hnew
    have ih := ih hnew.1
    cases hst with
    | acquire r hi => exact ih.acquire hi fun hr => hnew.2.2 r hr r (by simp) rfl
    | use hi =>
      have hrel : ∀ i r, released (.use i r :: tr) = released tr := by simp [released_cons]
      have hacq : ∀ i r, acquired (.use i r :: tr) = acquired tr := by simp [acquired_cons]
      refine ⟨ih.unique, ?_, ?_, ?_, ?_⟩ <;> rw [hrel] <;> try rw [hacq]
      · exact ih.held
      · exact ih.settled
      · exact ih.acquired_of_released
      · exact ih.once
    | handOver _ hj => exact ih.handOver hj
    | release hi => exact ih.release hi

/-! ## What one object does -/

/-- What an object does with what it holds. -/
inductive Use (R : Type*)
  | acquire (r : R)
  | use (r : R)
  | release (r : R)

namespace Use

/-- The resource that is used, or released. -/
def received : Use R → Option R
  | .acquire _ => none
  | .use r | .release r => some r

/-- It is done by the object `i`. -/
def act (i : I) : Use R → Act I R
  | .acquire r => .acquire i r
  | .use r => .use i r
  | .release r => .release i r

/-- What the object holds afterwards; nothing, if that is no use of what it held. -/
def step [DecidableEq R] : Option R → Use R → Option (Option R)
  | none, .acquire r => some (some r)
  | some r, .use r' => if r = r' then some (some r) else none
  | some r, .release r' => if r = r' then some none else none
  | _, _ => none

/-- What the object holds after several uses, in order. -/
def run [DecidableEq R] (held : Option R) (us : List (Use R)) : Option (Option R) :=
  us.foldlM step held

theorem run_cons [DecidableEq R] (held : Option R) (u : Use R) (us : List (Use R)) :
    run held (u :: us) = (step held u).bind fun held' => run held' us := rfl

theorem run_append [DecidableEq R] (held : Option R) (us us' : List (Use R)) :
    run held (us ++ us') = (run held us).bind fun held' => run held' us' := by
  rw [run, List.foldlM_append]
  rfl

/-- Nothing but uses of what is held. -/
theorem run_uses [DecidableEq R] {r : R} {us : List (Use R)} (h : ∀ u ∈ us, u = .use r) :
    run (some r) us = some (some r) := by
  induction us with
  | nil => rfl
  | cons u us ih =>
    rw [h u List.mem_cons_self, run_cons, step, if_pos rfl, Option.bind_some]
    exact ih fun u hu => h u (List.mem_cons_of_mem _ hu)

end Use

/-- What is done, whoever does it. -/
def Act.used : Act I R → Option (Use R)
  | .acquire _ r => some (.acquire r)
  | .use _ r => some (.use r)
  | .handOver _ _ => none
  | .release _ r => some (.release r)

omit [DecidableEq I] in
@[simp] theorem used_act (i : I) (u : Use R) : (u.act i).used = some u := by
  cases u <;> rfl

/-- A proper use is a step. -/
theorem step_of_use [DecidableEq R] {i : I} {u : Use R} {held : Option R}
    (h : u.step (own i) = some held) : Step own (u.act i) (Function.update own i held) := by
  cases hown : own i with
  | none =>
    rw [hown] at h
    cases u with
    | acquire r =>
      obtain rfl := Option.some.inj h
      exact .acquire r hown
    | use r => cases h
    | release r => cases h
  | some r =>
    rw [hown] at h
    cases u with
    | acquire r => cases h
    | use r' =>
      rw [Use.step, Option.ite_none_right_eq_some] at h
      obtain ⟨rfl, h⟩ := h
      rw [← Option.some.inj h, ← hown, Function.update_eq_self]
      exact .use hown
    | release r' =>
      rw [Use.step, Option.ite_none_right_eq_some] at h
      obtain ⟨rfl, h⟩ := h
      rw [← Option.some.inj h]
      exact .release hown

/-- Proper uses are a path. -/
theorem path_of_run [DecidableEq R] {i : I} {us : List (Use R)} {held : Option R}
    (h : Use.run (own i) us = some held) :
    (objects I R).Path own (us.map (Use.act i)).reverse (Function.update own i held) := by
  induction us generalizing own with
  | nil =>
    obtain rfl := Option.some.inj h
    rw [Function.update_eq_self]
    exact .refl own
  | cons u us ih =>
    rw [Use.run_cons, Option.bind_eq_some_iff] at h
    obtain ⟨held', hu, hus⟩ := h
    have hupdated : Use.run (Function.update own i held' i) us = some held := by
      rwa [Function.update_self]
    have hrest := ih hupdated
    rw [Function.update_idem] at hrest
    rw [List.map_cons, List.reverse_cons]
    exact .trans (.step (.refl own) (step_of_use hu)) hrest

omit [DecidableEq I] in
theorem acquired_eq (tr : List (Act I R)) :
    acquired tr = chron (fun | .acquire r => some r | _ => none) (tr.filterMap Act.used) := by
  rw [chron_filterMap, acquired]
  congr 1
  funext a
  cases a <;> rfl

omit [DecidableEq I] in
theorem released_eq (tr : List (Act I R)) :
    released tr = chron (fun | .release r => some r | _ => none) (tr.filterMap Act.used) := by
  rw [chron_filterMap, released]
  congr 1
  funext a
  cases a <;> rfl

/-- **Nothing is used or released after it was released.** -/
theorem not_released_before (h : (objects I R).Run tr own) (hnew : (acquired tr).Nodup)
    {post pre : List (Use R)} {u : Use R} {r : R}
    (hsplit : tr.filterMap Act.used = post ++ u :: pre)
    (hu : u.received = some r) : .release r ∉ pre := by
  obtain ⟨tr₁, tr₂, rfl, -, htr₂⟩ := List.filterMap_eq_append_iff.1 hsplit
  obtain ⟨tr₃, a, tr₄, rfl, -, ha, rfl⟩ := List.filterMap_eq_cons_iff.1 htr₂
  intro hmem
  rw [← List.append_assoc] at h hnew
  obtain ⟨own', hrun, -⟩ := h.split
  have hnew : (acquired (a :: tr₄)).Nodup := by
    rw [acquired, chron_append] at hnew
    exact (List.nodup_append.1 hnew).1
  have hrel : r ∈ released tr₄ := by
    rw [released_eq, mem_chron]
    exact ⟨_, hmem, rfl⟩
  cases hrun with
  | step hr hst =>
    have hb := balanced hr (by rw [acquired_cons] at hnew; exact (List.nodup_append.1 hnew).1)
    cases hst with
    | acquire =>
      obtain rfl := Option.some.inj ha
      cases hu
    | @use i r' hi =>
      obtain rfl := Option.some.inj ha
      obtain rfl := Option.some.inj hu
      exact (hb.held i _ hi).2 hrel
    | handOver => cases ha
    | @release i r' hi =>
      obtain rfl := Option.some.inj ha
      obtain rfl := Option.some.inj hu
      exact (hb.held i _ hi).2 hrel

end Ownership
