import Mathlib.Data.List.Basic

/-!
# Rows that are not to be touched

A table is a list of rows, some of which are protected. Operations on tables append rows, change the
first row that is wanted, or drop rows. Protected rows stay where the wanted row is not protected
and no dropped row is.
-/

namespace Flowfile.Library.OwnedRows

open List

variable {ρ : Type}

def Keeps (isProtected : ρ → Prop) (before after : List ρ) : Prop :=
  ∀ row ∈ before, isProtected row → row ∈ after

def replaceFirst (wanted : ρ → Bool) (change : ρ → ρ) : List ρ → List ρ
  | [] => []
  | row :: rest => if wanted row then change row :: rest else row :: replaceFirst wanted change rest

def upsert (wanted : ρ → Bool) (change : ρ → ρ) (new : ρ) (rows : List ρ) : List ρ :=
  if rows.any wanted then replaceFirst wanted change rows else rows ++ [change new]

variable {rows : List ρ} {change : ρ → ρ} {wanted : ρ → Bool}

section

variable {isProtected : ρ → Prop} {before middle after : List ρ}

/-- Nothing happens. -/
theorem Keeps.refl : Keeps isProtected before before :=
  fun _ mem _ => mem

/-- One operation after another. -/
theorem Keeps.trans (first : Keeps isProtected before middle)
    (second : Keeps isProtected middle after) : Keeps isProtected before after :=
  fun row mem held => second row (first row mem held) held

theorem keeps_append (rows added : List ρ) : Keeps isProtected rows (rows ++ added) :=
  fun _ mem _ => mem_append_left _ mem

theorem keeps_filter_iff {stays : ρ → Bool} : Keeps isProtected rows (rows.filter stays) ↔
      ∀ row ∈ rows, isProtected row → stays row = true := by
  constructor
  · exact fun keeps row mem held => (mem_filter.mp (keeps row mem held)).2
  · exact fun stay row mem held => mem_filter.mpr ⟨mem, stay row mem held⟩

theorem keeps_map (same : ∀ row ∈ rows, isProtected row → change row = row) :
    Keeps isProtected rows (rows.map change) :=
  fun row mem held => mem_map.mpr ⟨row, mem, same row mem held⟩

theorem keeps_eraseP (free : ∀ row, wanted row = true → ¬isProtected row) :
    Keeps isProtected rows (rows.eraseP wanted) :=
  fun row mem held => (mem_eraseP_of_neg fun isWanted => free row isWanted held).mpr mem

theorem keeps_replaceFirst (free : ∀ row, rows.find? wanted = some row → ¬isProtected row) :
    Keeps isProtected rows (replaceFirst wanted change rows) := by
  induction rows with
  | nil => exact Keeps.refl
  | cons first rest inner =>
    rw [replaceFirst]
    split
    · next isWanted =>
      intro row mem held
      obtain rfl | later := mem_cons.mp mem
      · exact absurd held (free row (List.find?_cons_of_pos isWanted))
      · exact mem_cons_of_mem _ later
    · next unwanted =>
      rw [List.find?_cons_of_neg unwanted] at free
      intro row mem held
      obtain rfl | later := mem_cons.mp mem
      · exact mem_cons_self
      · exact mem_cons_of_mem _ (inner free row later held)

theorem keeps_upsert {new : ρ} (free : ∀ row, wanted row = true → ¬isProtected row) :
    Keeps isProtected rows (upsert wanted change new rows) := by
  rw [upsert]
  split
  · exact keeps_replaceFirst fun row found => free row (List.find?_some found)
  · exact keeps_append _ _

end

end Flowfile.Library.OwnedRows
