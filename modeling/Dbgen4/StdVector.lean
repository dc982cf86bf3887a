import Mathlib.Data.List.Basic

/-!
# Growable arrays and their storage

A `std::vector`: its elements, the block of memory they lie in, and how many
that block has room for. What is stored in it stays in its block if it fits, and
otherwise moves to a new one; a reallocation leaves more room than needed or not
(`Growth`), as the implementation likes. Where the elements are
(`StdVector.place`) is what a pointer handed out earlier is good for.

Blocks are named by any type `B`; who allocates one says what its name is.
-/

/-- The room of a vector that was reallocated, by its old capacity and what it must hold. -/
structure Growth where
  room : ℕ → ℕ → ℕ
  le_room (capacity n : ℕ) : n ≤ room capacity n

/-- No more room than needed. -/
def Growth.exact : Growth := ⟨fun _ n => n, fun _ n => Nat.le_refl n⟩

/-- A `std::vector`. -/
structure StdVector (B α : Type*) where
  block : B
  data : List α
  capacity : ℕ
  length_le : data.length ≤ capacity

namespace StdVector

variable {B α : Type*} (G : Growth) (v : StdVector B α)

/-- `size()`. -/
def size : ℕ := v.data.length

/-- Where the elements are, and how many. -/
def place : B × ℕ := (v.block, v.size)

/-- `assign()` and the copy assignment: other elements, in a `new` block if they do not fit. -/
def store (new : B) (xs : List α) : StdVector B α :=
  if h : xs.length ≤ v.capacity then ⟨v.block, xs, v.capacity, h⟩
  else ⟨new, xs, G.room v.capacity xs.length, G.le_room _ _⟩

/-- `reserve()`. -/
def reserve (new : B) (n : ℕ) : StdVector B α :=
  if h : n ≤ v.capacity then v
  else ⟨new, v.data, G.room v.capacity n,
    Nat.le_trans v.length_le (Nat.le_trans (Nat.le_of_not_le h) (G.le_room _ _))⟩

/-- `push_back()`. -/
def push (new : B) (x : α) : StdVector B α := v.store G new (v.data ++ [x])

/-- The copy constructor. -/
def copy (new : B) : StdVector B α := ⟨new, v.data, v.data.length, Nat.le_refl _⟩

/-- An empty vector. -/
def empty (none : B) : StdVector B α := ⟨none, [], 0, Nat.le_refl _⟩

/-- Change the elements in place. -/
def modify (f : ℕ → α → α) : StdVector B α :=
  ⟨v.block, v.data.mapIdx f, v.capacity, by rw [List.length_mapIdx]; exact v.length_le⟩

variable {G v} {new : B} {xs : List α}

@[simp] theorem data_store : (v.store G new xs).data = xs := by
  rw [store]
  split <;> rfl

@[simp] theorem data_reserve (n : ℕ) : (v.reserve G new n).data = v.data := by
  rw [reserve]
  split <;> rfl

@[simp] theorem data_push (x : α) : (v.push G new x).data = v.data ++ [x] := data_store

@[simp] theorem size_store : (v.store G new xs).size = xs.length := by
  rw [size, data_store]

@[simp] theorem size_copy : (v.copy new).size = v.size := rfl

@[simp] theorem size_modify (f : ℕ → α → α) : (v.modify f).size = v.size := List.length_mapIdx

@[simp] theorem place_modify (f : ℕ → α → α) : (v.modify f).place = v.place :=
  congrArg (Prod.mk v.block) (size_modify f)

theorem block_store :
    (v.store G new xs).block = if xs.length ≤ v.capacity then v.block else new := by
  rw [store]
  split <;> rfl

/-- What is stored lies where another array did, or is to lie, just if it fits and that was the
    place already. -/
theorem place_store_eq_iff {R : B × ℕ} (hR : new ≠ R.1) :
    (v.store G new xs).place = R ↔ xs.length ≤ v.capacity ∧ v.block = R.1 ∧ xs.length = R.2 := by
  rw [place, size_store, block_store, Prod.ext_iff]
  split
  · rename_i h
    exact (and_iff_right h).symm
  · rename_i h
    exact iff_of_false (fun h' => hR h'.1) fun h' => h h'.1

end StdVector
