import Mathlib.Algebra.BigOperators.Group.Finset.Basic
import Mathlib.Data.Finset.Lattice.Lemmas

/-!
# Registers

A `Register` is a finite set of entries with at most one entry for each key.  It is what a
table of rows with a unique key stands for once the order of the rows is forgotten:
`Register.ofList` is that map, and appending, removing and rewriting rows come to `add`,
`drop` and `replace`.
-/

namespace Keyed

variable {α κ : Type} {key : α → κ}

/-- A finite set of entries, one for each key. -/
@[ext] structure Register (key : α → κ) where
  entries : Finset α
  unique : Set.InjOn key entries

namespace Register

/-- Add an entry under a new key. -/
def add [DecidableEq α] (R : Register key) (a : α) (fresh : ∀ b ∈ R.entries, key b ≠ key a) :
    Register key where
  entries := insert a R.entries
  unique := by
    rw [Finset.coe_insert, Set.injOn_insert]
    · refine ⟨R.unique, ?_⟩
      rintro ⟨b, member, same⟩
      exact fresh b member same
    · intro member
      exact fresh a member rfl

/-- Drop the entry with a key. -/
def drop [DecidableEq κ] (R : Register key) (k : κ) : Register key where
  entries := R.entries.filter fun a => key a ≠ k
  unique := R.unique.mono (Finset.coe_subset.mpr (Finset.filter_subset _ _))

/-- Put an entry in the place of the one with its key. -/
def replace [DecidableEq α] [DecidableEq κ] (R : Register key) (a : α) : Register key :=
  (R.drop (key a)).add a fun _ member => (Finset.mem_filter.mp member).2

/-- The weights of the selected entries together. -/
def total {M : Type} [AddCommMonoid M] (R : Register key) (select : α → Bool)
    (weight : α → M) : M :=
  ∑ a ∈ R.entries.filter fun a => select a = true, weight a

section Lists

variable [DecidableEq α] {rows : List α}

/-- The register that the rows of a table stand for. -/
def ofList (rows : List α) (distinct : (rows.map key).Nodup) : Register key where
  entries := rows.toFinset
  unique := by
    intro a left b right same
    rw [List.coe_toFinset] at left right
    exact List.inj_on_of_nodup_map distinct left right same

@[simp] theorem mem_ofList {distinct : (rows.map key).Nodup} {a : α} :
    a ∈ (ofList rows distinct).entries ↔ a ∈ rows := List.mem_toFinset

/-- Appending a row. -/
theorem ofList_concat {a : α} (distinct : (rows.map key).Nodup)
    (distinct' : ((rows ++ [a]).map key).Nodup)
    (fresh : ∀ b ∈ (ofList rows distinct).entries, key b ≠ key a) :
    ofList (rows ++ [a]) distinct' = (ofList rows distinct).add a fresh := by
  ext b
  simp [add, ofList]

/-- Removing the rows with a key. -/
theorem ofList_filter [DecidableEq κ] {k : κ} (distinct : (rows.map key).Nodup)
    (distinct' : ((rows.filter fun a => key a ≠ k).map key).Nodup) :
    ofList (rows.filter fun a => key a ≠ k) distinct' = (ofList rows distinct).drop k := by
  ext b
  simp [drop, ofList]

/-- Rewriting the row with a key. -/
theorem ofList_rewrite [DecidableEq κ] {a : α} (distinct : (rows.map key).Nodup)
    (distinct' : ((rows.map fun b => if key b = key a then a else b).map key).Nodup)
    (known : ∃ b ∈ rows, key b = key a) :
    ofList (rows.map fun b => if key b = key a then a else b) distinct' =
      (ofList rows distinct).replace a := by
  ext b
  simp only [replace, add, drop, mem_ofList, Finset.mem_insert, Finset.mem_filter]
  rw [List.mem_map]
  constructor
  · rintro ⟨c, member, rfl⟩
    by_cases same : key c = key a
    · rw [if_pos same]
      exact .inl rfl
    · rw [if_neg same]
      exact .inr ⟨member, same⟩
  · rintro (rfl | ⟨member, other⟩)
    · obtain ⟨c, member, same⟩ := known
      exact ⟨c, member, if_pos same⟩
    · exact ⟨b, member, if_neg other⟩

theorem total_ofList {M : Type} [AddCommMonoid M] {distinct : (rows.map key).Nodup}
    (select : α → Bool) (weight : α → M) :
    (ofList rows distinct).total select weight = ((rows.filter select).map weight).sum := by
  have nodup : (rows.filter select).Nodup := (List.Nodup.of_map key distinct).filter _
  rw [← List.sum_toFinset weight nodup, List.toFinset_filter]
  rfl

end Lists

end Register

end Keyed
