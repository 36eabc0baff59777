import Mathlib.Data.List.Nodup

/-!
# Consecutive numbers

Numbering a list gives its elements consecutive numbers from a start on. Elements are kept in
their order, the numbers are not below the start, and no number is given twice.
-/

namespace Flowfile.Library.Numbering

universe u
variable {κ : Type u}

/-- Give consecutive numbers. -/
def numbered : Int → List κ → List (κ × Int)
  | _, [] => []
  | start, key :: rest => (key, start) :: numbered (start + 1) rest

@[simp] theorem map_fst_numbered (start : Int) (keys : List κ) :
    (numbered start keys).map Prod.fst = keys := by
  induction keys generalizing start with
  | nil => rfl
  | cons key rest ih => rw [numbered, List.map_cons, ih]

variable {keys : List κ}

theorem start_le {start number : Int} {key : κ}
    (mem : (key, number) ∈ numbered start keys) : start ≤ number := by
  induction keys generalizing start with
  | nil => cases mem
  | cons first rest ih =>
    rcases List.mem_cons.mp mem with same | later
    · exact Int.le_of_eq (Prod.mk.inj same).2.symm
    · have above := ih later
      omega

/-- Numbers tell elements apart. -/
theorem eq_of_number {start number : Int} {first second : κ}
    (firstMember : (first, number) ∈ numbered start keys)
    (secondMember : (second, number) ∈ numbered start keys) : first = second := by
  induction keys generalizing start with
  | nil => cases firstMember
  | cons key rest ih =>
    rcases List.mem_cons.mp firstMember with firstHere | firstLater <;>
      rcases List.mem_cons.mp secondMember with secondHere | secondLater
    · exact (Prod.mk.inj firstHere).1.trans (Prod.mk.inj secondHere).1.symm
    · have above := start_le secondLater
      have here := (Prod.mk.inj firstHere).2
      omega
    · have above := start_le firstLater
      have here := (Prod.mk.inj secondHere).2
      omega
    · exact ih firstLater secondLater

/-- A maximum is not below the bound it starts from. -/
theorem le_foldl_max (numbers : List Int) (bound : Int) : bound ≤ numbers.foldl max bound := by
  induction numbers generalizing bound with
  | nil => exact Int.le_refl bound
  | cons number rest ih =>
    exact Int.le_trans (Int.le_max_left bound number) (ih (max bound number))

end Flowfile.Library.Numbering
