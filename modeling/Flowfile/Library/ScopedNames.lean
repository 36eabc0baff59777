import Mathlib.Data.List.Basic
import Mathlib.Data.Option.Basic

/-!
# Names that are unique within scopes

Rows with ids have names, each within a scope or within none. Names are distinct if no two rows of
the same scope, rows without a scope among themselves included, have the same name. The unique
constraint of a database says this of rows with a scope only, since missing values count as
different from each other.

A row that takes the place of another one keeps names distinct exactly when its name is free, and
the constraint refuses it exactly when its name is taken and it has a scope.
-/

namespace Flowfile.Library.ScopedNames

open List

universe u v w

/-- What rows are found and named by. -/
structure Naming (α : Type u) (σ : Type v) (ν : Type w) where
  id : α → Nat
  scope : α → Option σ
  name : α → ν

variable {α : Type u} {σ : Type v} {ν : Type w}

def Naming.replace (naming : Naming α σ ν) (new : α) (rows : List α) : List α :=
  rows.map fun row => if naming.id row = naming.id new then new else row

def Naming.Free (naming : Naming α σ ν) (row : α) (rows : List α) : Prop :=
  ∀ other ∈ rows, naming.scope other = naming.scope row → naming.name other = naming.name row →
    naming.id other = naming.id row

/-- No two rows of a scope have the same name. -/
def Naming.Distinct (naming : Naming α σ ν) (rows : List α) : Prop :=
  ∀ row ∈ rows, naming.Free row rows

/-- The unique constraint of a database on scopes and names. -/
def Naming.Constraint (naming : Naming α σ ν) (rows : List α) : Prop :=
  ∀ row ∈ rows, (naming.scope row).isSome → naming.Free row rows

instance [DecidableEq σ] [DecidableEq ν] (naming : Naming α σ ν) (row : α) (rows : List α) :
    Decidable (naming.Free row rows) :=
  inferInstanceAs (Decidable (∀ other ∈ rows, _))

instance [DecidableEq σ] [DecidableEq ν] (naming : Naming α σ ν) (rows : List α) :
    Decidable (naming.Constraint rows) :=
  inferInstanceAs (Decidable (∀ row ∈ rows, _))

section

variable {naming : Naming α σ ν} {rows : List α} {new : α}

theorem map_id_replace (new : α) (rows : List α) :
    (naming.replace new rows).map naming.id = rows.map naming.id := by
  rw [Naming.replace, map_map]
  apply map_congr_left
  intro row _
  rw [Function.comp_apply]
  split
  case isTrue same => exact same.symm
  case isFalse => rfl

theorem mem_replace {row : α} : row ∈ naming.replace new rows ↔
    (row = new ∧ naming.id new ∈ rows.map naming.id) ∨
      row ∈ rows ∧ naming.id row ≠ naming.id new := by
  rw [Naming.replace, mem_map]
  constructor
  · rintro ⟨old, mem, rfl⟩
    split
    case isTrue same => exact .inl ⟨rfl, mem_map.mpr ⟨old, mem, same⟩⟩
    case isFalse other => exact .inr ⟨mem, other⟩
  · rintro (⟨rfl, listed⟩ | ⟨mem, other⟩)
    · obtain ⟨old, mem, same⟩ := mem_map.mp listed
      exact ⟨old, mem, if_pos same⟩
    · exact ⟨row, mem, if_neg other⟩

theorem free_replace_self : naming.Free new (naming.replace new rows) ↔ naming.Free new rows := by
  constructor
  · intro free other mem sameScope sameName
    by_contra apart
    exact apart (free other (mem_replace.mpr (.inr ⟨mem, apart⟩)) sameScope sameName)
  · intro free other mem sameScope sameName
    obtain ⟨rfl, _⟩ | ⟨isOld, _⟩ := mem_replace.mp mem
    · rfl
    · exact free other isOld sameScope sameName

theorem Naming.Free.replace {row : α} (free : naming.Free row rows) (newFree : naming.Free new rows)
    (mem : row ∈ rows) : naming.Free row (naming.replace new rows) := by
  intro other isOther sameScope sameName
  obtain ⟨rfl, _⟩ | ⟨isOld, _⟩ := mem_replace.mp isOther
  · exact (newFree row mem sameScope.symm sameName.symm).symm
  · exact free other isOld sameScope sameName

theorem distinct_replace_iff (distinct : naming.Distinct rows)
    (listed : naming.id new ∈ rows.map naming.id) :
    naming.Distinct (naming.replace new rows) ↔ naming.Free new rows := by
  constructor
  · intro after
    exact free_replace_self.mp (after new (mem_replace.mpr (.inl ⟨rfl, listed⟩)))
  · intro free row mem
    obtain ⟨rfl, _⟩ | ⟨isOld, _⟩ := mem_replace.mp mem
    · exact free_replace_self.mpr free
    · exact (distinct row isOld).replace free isOld

theorem constraint_replace_iff (distinct : naming.Distinct rows)
    (listed : naming.id new ∈ rows.map naming.id) :
    naming.Constraint (naming.replace new rows) ↔
      ((naming.scope new).isSome → naming.Free new rows) := by
  constructor
  · intro after inScope
    exact free_replace_self.mp (after new (mem_replace.mpr (.inl ⟨rfl, listed⟩)) inScope)
  · intro free row mem inScope
    obtain ⟨rfl, _⟩ | ⟨isOld, _⟩ := mem_replace.mp mem
    · exact free_replace_self.mpr (free inScope)
    intro other isOther sameScope sameName
    obtain ⟨rfl, _⟩ | ⟨isOldOther, _⟩ := mem_replace.mp isOther
    · rw [← sameScope] at inScope
      exact (free inScope row isOld sameScope.symm sameName.symm).symm
    · exact distinct row isOld other isOldOther sameScope sameName

theorem Naming.Distinct.add (distinct : naming.Distinct rows)
    (unused : ∀ row ∈ rows, naming.scope row = naming.scope new →
      naming.name row ≠ naming.name new) :
    naming.Distinct (rows ++ [new]) := by
  intro row mem other isOther sameScope sameName
  obtain isRow | isNew := mem_append.mp mem
  · obtain isOld | isNewOther := mem_append.mp isOther
    · exact distinct row isRow other isOld sameScope sameName
    · rw [mem_singleton] at isNewOther
      subst isNewOther
      exact absurd sameName.symm (unused row isRow sameScope.symm)
  · rw [mem_singleton] at isNew
    subst isNew
    obtain isOld | isNewOther := mem_append.mp isOther
    · exact absurd sameName (unused other isOld sameScope)
    · rw [mem_singleton.mp isNewOther]

end

end Flowfile.Library.ScopedNames
