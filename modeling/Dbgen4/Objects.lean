import Mathlib.Data.List.Basic
import Mathlib.Logic.Function.Basic

/-!
# Tables of objects

The objects of a program, by the order of their construction. An object keeps
its number; one that was destroyed leaves its place empty.
-/

/-- A table of objects; a destroyed one is `none`. -/
abbrev Objects (α : Type*) := List (Option α)

namespace Objects

variable {α : Type*}

/-- An object that has not been destroyed. -/
def find (os : Objects α) (i : ℕ) : Option α := os[i]?.join

/-- A new object; its number is the length of the table. -/
def construct (os : Objects α) (x : α) : Objects α := os ++ [some x]

/-- An object changes. -/
def put (os : Objects α) (i : ℕ) (x : α) : Objects α := os.set i (some x)

/-- An object is destroyed. -/
def destroy (os : Objects α) (i : ℕ) : Objects α := os.set i none

/-- What `f` finds in the objects, in the first one that has it. -/
def search {β : Type*} (os : Objects α) (f : α → Option β) : Option β :=
  os.findSome? fun o => o.bind f

variable {os : Objects α} {i : ℕ} {x y : α}

theorem lt_of_find (h : os.find i = some x) : i < os.length := by
  rw [find, Option.join_eq_some_iff] at h
  exact (List.getElem?_eq_some_iff.1 h).1

@[simp] theorem find_length (os : Objects α) : os.find os.length = none := by
  rw [find, List.getElem?_eq_none (Nat.le_refl _)]
  rfl

theorem find_construct (os : Objects α) (x : α) (k : ℕ) :
    (os.construct x).find k = if k = os.length then some x else os.find k := by
  rw [find, construct, find]
  rcases Nat.lt_trichotomy k os.length with h | rfl | h
  · rw [if_neg (Nat.ne_of_lt h), List.getElem?_append_left h]
  · simp
  · rw [if_neg (Nat.ne_of_gt h), List.getElem?_eq_none (by simp; omega),
      List.getElem?_eq_none (Nat.le_of_lt h)]

theorem find_set (h : i < os.length) (x : Option α) (k : ℕ) :
    find (os.set i x) k = if k = i then x else os.find k := by
  rw [find, find]
  by_cases hk : k = i
  · rw [hk, if_pos rfl, List.getElem?_set_self h]
    rfl
  · rw [if_neg hk, List.getElem?_set_ne (Ne.symm hk)]

theorem find_put (h : os.find i = some y) (x : α) (k : ℕ) :
    (os.put i x).find k = if k = i then some x else os.find k :=
  find_set (lt_of_find h) (some x) k

theorem find_destroy (h : os.find i = some y) (k : ℕ) :
    (os.destroy i).find k = if k = i then none else os.find k :=
  find_set (lt_of_find h) none k

/-- Who is found after one has changed. -/
theorem of_find_put (h : os.find i = some y) {k : ℕ} {z : α} (hk : (os.put i x).find k = some z) :
    k = i ∧ z = x ∨ k ≠ i ∧ os.find k = some z := by
  rw [find_put h] at hk
  split at hk
  · rename_i hki
    exact .inl ⟨hki, (Option.some.inj hk).symm⟩
  · rename_i hki
    exact .inr ⟨hki, hk⟩

/-- Who is found after one was constructed. -/
theorem of_find_construct {k : ℕ} {z : α} (hk : (os.construct x).find k = some z) :
    k = os.length ∧ z = x ∨ k ≠ os.length ∧ os.find k = some z := by
  rw [find_construct] at hk
  split at hk
  · rename_i hlen
    exact .inl ⟨hlen, (Option.some.inj hk).symm⟩
  · rename_i hlen
    exact .inr ⟨hlen, hk⟩

/-- Who is found after one was destroyed. -/
theorem of_find_destroy (h : os.find i = some y) {k : ℕ} {z : α}
    (hk : (os.destroy i).find k = some z) : os.find k = some z := by
  rw [find_destroy h] at hk
  split at hk
  · cases hk
  · exact hk

@[simp] theorem length_put (os : Objects α) (i : ℕ) (x : α) : (os.put i x).length = os.length :=
  List.length_set ..

/-- What the objects hold is told by `f`: once one of them changed. -/
theorem bind_put {β : Type*} (f : α → Option β) (h : os.find i = some y) (x : α) :
    (fun k => ((os.put i x).find k).bind f) =
      Function.update (fun k => (os.find k).bind f) i (f x) := by
  funext k
  rw [find_put h, Function.update_apply]
  split <;> rfl

/-- Once one of them was destroyed. -/
theorem bind_destroy {β : Type*} (f : α → Option β) (h : os.find i = some y) :
    (fun k => ((os.destroy i).find k).bind f) =
      Function.update (fun k => (os.find k).bind f) i none := by
  funext k
  rw [find_destroy h, Function.update_apply]
  split <;> rfl

/-- Once one was constructed. -/
theorem bind_construct {β : Type*} (f : α → Option β) (os : Objects α) (x : α) :
    (fun k => ((os.construct x).find k).bind f) =
      Function.update (fun k => (os.find k).bind f) os.length (f x) := by
  funext k
  rw [find_construct, Function.update_apply]
  split <;> rfl

/-- What no other object has is found in the one that has it. -/
theorem search_eq {β : Type*} {f : α → Option β} (h : os.find i = some x)
    (hf : ∀ j y, os.find j = some y → j ≠ i → f y = none) : os.search f = f x := by
  have hi : os[i]? = some (some x) := Option.join_eq_some_iff.1 h
  cases hx : f x with
  | none =>
    refine List.findSome?_eq_none_iff.2 fun o ho => ?_
    obtain ⟨j, hj⟩ := List.mem_iff_getElem?.1 ho
    cases o with
    | none => rfl
    | some y =>
      by_cases hji : j = i
      · subst hji
        obtain rfl : x = y := by
          rw [hi] at hj
          exact Option.some.inj (Option.some.inj hj)
        exact hx
      · exact hf j y (Option.join_eq_some_iff.2 hj) hji
  | some b =>
    -- The ones before it have nothing.
    have hlt := (List.getElem?_eq_some_iff.1 hi).1
    refine List.findSome?_eq_some_iff.2 ⟨os.take i, some x, os.drop (i + 1), ?_, hx, fun o ho => ?_⟩
    · rw [← (List.getElem?_eq_some_iff.1 hi).2, ← List.drop_eq_getElem_cons hlt,
        List.take_append_drop]
    · obtain ⟨j, hj⟩ := List.mem_iff_getElem?.1 ho
      have hji : j < i := by
        have := (List.getElem?_eq_some_iff.1 hj).1
        rw [List.length_take] at this
        omega
      rw [List.getElem?_take_of_lt hji] at hj
      cases o with
      | none => rfl
      | some y => exact hf j y (Option.join_eq_some_iff.2 hj) (Nat.ne_of_lt hji)

end Objects
