import Mathlib.Data.List.Forall2
import Dbgen4.CppIdentifier
import Dbgen4.Gen.Appl

/-!
# The namespace of a schema

All that is generated from a yaml file is in a namespace of the name of the file, without its
extension and with underscores for hyphens (`schemaNamespace`, in `internal_model_to_json`). The
other characters that a file name may have and an identifier may not are left as they are, and two
names that differ in hyphens and underscores only have one namespace: so the files of a run get
namespaces that are identifiers, and differ, if their names are already like that
(`namespacesFit_iff`).
-/

namespace Dbgen4.Gen

open Cpp

/-- `schema_namespace`. -/
def schemaNamespace (barename : List Char) : List Char :=
  barename.map fun c => if c = '-' then '_' else c

/-- The namespace for a yaml file. -/
def yamlNamespace (file : String) : List Char := schemaNamespace (stem file.toList)

/-- The namespaces of files are identifiers, and differ if the names of the files do. -/
structure NamespacesFit (A : Alphabet) (files : List String) : Prop where
  valid : ∀ f ∈ files, IsIdentifier A (yamlNamespace f)
  distinct : ∀ f ∈ files, ∀ g ∈ files, stem f.toList ≠ stem g.toList →
    yamlNamespace f ≠ yamlNamespace g

/-! ## Names -/

/-- A hyphen is as good as an underscore. -/
def SameChar (c d : Char) : Prop := c = d ∨ c = '-' ∧ d = '_' ∨ c = '_' ∧ d = '-'

/-- An identifier, but for hyphens in the place of underscores. -/
def Spells (A : Alphabet) : List Char → Prop
  | [] => False
  | c :: cs => (c = '-' ∨ c = '_' ∨ A.start c = true) ∧
      (∀ d ∈ cs, d = '-' ∨ A.continues d = true) ∧
      ∀ k ∈ keywords, ¬List.Forall₂ SameChar (c :: cs) k.toList

/-- The names of files are such identifiers, and differ in more than that. -/
structure StemsFit (A : Alphabet) (files : List String) : Prop where
  valid : ∀ f ∈ files, Spells A (stem f.toList)
  distinct : ∀ f ∈ files, ∀ g ∈ files, stem f.toList ≠ stem g.toList →
    ¬List.Forall₂ SameChar (stem f.toList) (stem g.toList)

theorem sameChar_iff {c d : Char} :
    (if c = '-' then '_' else c) = (if d = '-' then '_' else d) ↔ SameChar c d := by
  unfold SameChar
  by_cases hc : c = '-'
  · by_cases hd : d = '-'
    · simp [hc, hd]
    · simp [hc, hd, Ne.symm hd, eq_comm]
  · by_cases hd : d = '-'
    · simp [hc, hd]
    · simp [hc, hd]

/-- Two names have the same namespace if they are the same but for hyphens and underscores. -/
theorem schemaNamespace_eq_iff {x y : List Char} :
    schemaNamespace x = schemaNamespace y ↔ List.Forall₂ SameChar x y := by
  rw [schemaNamespace, schemaNamespace, ← List.forall₂_eq_eq_eq, List.forall₂_map_left_iff,
    List.forall₂_map_right_iff]
  exact ⟨List.Forall₂.imp fun _ _ => sameChar_iff.1, List.Forall₂.imp fun _ _ => sameChar_iff.2⟩

theorem schemaNamespace_eq_self {x : List Char} (h : '-' ∉ x) : schemaNamespace x = x := by
  refine (List.map_congr_left fun c hc => ?_).trans (List.map_id x)
  have hne : c ≠ '-' := fun heq => h (heq ▸ hc)
  rw [if_neg hne, id]

/-- A namespace is an identifier if the name spells one. -/
theorem isIdentifier_schemaNamespace_iff {A : Alphabet} {x : List Char} :
    IsIdentifier A (schemaNamespace x) ↔ Spells A x := by
  cases x with
  | nil => exact Iff.rfl
  | cons c cs =>
    have hstart : ((if c = '-' then '_' else c) = '_' ∨
        A.start (if c = '-' then '_' else c) = true) ↔
        (c = '-' ∨ c = '_' ∨ A.start c = true) := by
      by_cases hc : c = '-'
      · rw [if_pos hc]
        exact iff_of_true (.inl rfl) (.inl hc)
      · rw [if_neg hc, or_iff_right hc]
    have hcontinues : (∀ d ∈ schemaNamespace cs, A.continues d = true) ↔
        ∀ d ∈ cs, d = '-' ∨ A.continues d = true := by
      rw [schemaNamespace, List.forall_mem_map]
      refine forall₂_congr fun d _ => ?_
      by_cases hd : d = '-'
      · rw [if_pos hd]
        exact iff_of_true A.continues_underscore (.inl hd)
      · rw [if_neg hd, or_iff_right hd]
    have hkeyword : (∀ k ∈ keywords, schemaNamespace (c :: cs) ≠ k.toList) ↔
        ∀ k ∈ keywords, ¬List.Forall₂ SameChar (c :: cs) k.toList := by
      refine forall₂_congr fun k hk => not_congr ?_
      rw [← schemaNamespace_eq_iff, schemaNamespace_eq_self (hyphen_notMem k hk)]
    exact and_congr hstart (and_congr hcontinues hkeyword)

/-- **Namespaces.** The namespaces for the files of a run are identifiers, and different for
    different names, just if the names are identifiers but for hyphens in the place of
    underscores, and differ in more than that. -/
theorem namespacesFit_iff (A : Alphabet) (files : List String) :
    NamespacesFit A files ↔ StemsFit A files := by
  have hvalid : (∀ f ∈ files, IsIdentifier A (yamlNamespace f)) ↔
      ∀ f ∈ files, Spells A (stem f.toList) :=
    forall₂_congr fun f _ => isIdentifier_schemaNamespace_iff
  have hdistinct : (∀ f ∈ files, ∀ g ∈ files, stem f.toList ≠ stem g.toList →
      yamlNamespace f ≠ yamlNamespace g) ↔ ∀ f ∈ files, ∀ g ∈ files,
      stem f.toList ≠ stem g.toList → ¬List.Forall₂ SameChar (stem f.toList) (stem g.toList) :=
    forall₂_congr fun f _ => forall₂_congr fun g _ => imp_congr_right fun _ =>
      not_congr schemaNamespace_eq_iff
  constructor
  · exact fun h => ⟨hvalid.1 h.valid, hdistinct.1 h.distinct⟩
  · exact fun h => ⟨hvalid.2 h.valid, hdistinct.2 h.distinct⟩

/-- A name that begins with a digit; and two names with one namespace. -/
theorem not_namespacesFit : ¬NamespacesFit .ascii ["2nd.yaml"] ∧
    ¬NamespacesFit .ascii ["ct-in.yaml", "ct_in.yaml"] := by
  constructor
  · intro h
    exact absurd (h.valid "2nd.yaml" (by decide)).1 (by decide)
  · intro h
    exact h.distinct "ct-in.yaml" (by decide) "ct_in.yaml" (by decide) (by decide) (by decide)

end Dbgen4.Gen
