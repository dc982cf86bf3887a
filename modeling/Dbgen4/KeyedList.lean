import Mathlib.Data.List.Basic
import Mathlib.Order.Lattice

/-!
# Ordered maps of values that carry their key

The values of a map that is kept in the order of its keys, where the key of a
value is read off the value. `put` inserts a value, or overwrites the one that has
its key; what it overwrites it replaces in place (`put_append_cons`).
-/

namespace KeyedList

variable {α K : Type*} [LinearOrder K] (key : α → K)

/-- The values are in the order of their keys, and no key is there twice. -/
def Sorted (l : List α) : Prop := l.Pairwise fun x y => key x < key y

/-- Insert a value, or overwrite the one with its key. -/
def put (x : α) : List α → List α
  | [] => [x]
  | y :: l =>
    if key x < key y then x :: y :: l else if key y < key x then y :: put x l else x :: l

variable {key}

/-- What `put` leaves there: the value, and those with other keys. -/
theorem mem_put {x y : α} {l : List α} (h : y ∈ put key x l) : y = x ∨ y ∈ l := by
  induction l with
  | nil => exact .inl (List.mem_singleton.1 h)
  | cons z l ih =>
    rw [put] at h
    split at h
    · exact List.mem_cons.1 h
    · split at h
      · rcases List.mem_cons.1 h with rfl | h
        · exact .inr List.mem_cons_self
        · exact (ih h).imp_right (List.mem_cons_of_mem _)
      · exact (List.mem_cons.1 h).imp_right (List.mem_cons_of_mem _)

theorem Sorted.put {x : α} {l : List α} (h : Sorted key l) : Sorted key (put key x l) := by
  induction l with
  | nil => exact List.pairwise_singleton ..
  | cons z l ih =>
    obtain ⟨hz, hl⟩ := List.pairwise_cons.1 h
    rw [KeyedList.put]
    split
    · rename_i hlt
      refine List.pairwise_cons.2 ⟨fun y hy => ?_, h⟩
      rcases List.mem_cons.1 hy with rfl | hy
      · exact hlt
      · exact hlt.trans (hz y hy)
    · rename_i hge
      split
      · rename_i hgt
        refine List.pairwise_cons.2 ⟨fun y hy => ?_, ih hl⟩
        rcases mem_put hy with rfl | hy
        · exact hgt
        · exact hz y hy
      · rename_i hle
        have heq : key x = key z := le_antisymm (not_lt.1 hle) (not_lt.1 hge)
        exact List.pairwise_cons.2 ⟨fun y hy => heq ▸ hz y hy, hl⟩

/-- The value with the same key is replaced where it is. -/
theorem put_append_cons {x y : α} {l₁ l₂ : List α} (hl : ∀ z ∈ l₁, key z < key x)
    (hkey : key y = key x) : put key x (l₁ ++ y :: l₂) = l₁ ++ x :: l₂ := by
  induction l₁ with
  | nil => rw [List.nil_append, put, if_neg (not_lt.2 hkey.le), if_neg (not_lt.2 hkey.ge)]; rfl
  | cons z l₁ ih =>
    have hz := hl z List.mem_cons_self
    rw [List.cons_append, put, if_neg (not_lt.2 hz.le), if_pos hz,
      ih fun z hz => hl z (List.mem_cons_of_mem _ hz), List.cons_append]

/-- A value whose key is not there is inserted. -/
theorem put_perm {x : α} {l : List α} (h : ∀ y ∈ l, key y ≠ key x) :
    (put key x l).Perm (x :: l) := by
  induction l with
  | nil => exact .refl _
  | cons y l ih =>
    rw [put]
    split
    · exact .refl _
    · rename_i hge
      rw [if_pos (lt_of_le_of_ne (not_lt.1 hge) (h y List.mem_cons_self))]
      exact ((ih fun z hz => h z (List.mem_cons_of_mem _ hz)).cons y).trans (.swap x y l)

/-- No key is there twice. -/
theorem Sorted.nodup {l : List α} (h : Sorted key l) : (l.map key).Nodup :=
  List.pairwise_map.2 (h.imp ne_of_lt)

end KeyedList
