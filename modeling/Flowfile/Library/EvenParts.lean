import Mathlib.Data.List.Range
import Mathlib.Data.List.Count
import Mathlib.Tactic.Ring

/-!
# Even parts

A row of places is cut into parts of which the first ones are longer by one than the others. The
part of a place is a closed formula of whole divisions; it is read here through the places at which
the parts begin.
-/

namespace Flowfile.Library.EvenParts

open List

def begins (total parts part : Nat) : Nat :=
  part * (total / parts) + min part (total % parts)

/-- How many places a part has. -/
def size (total parts part : Nat) : Nat :=
  total / parts + if part < total % parts then 1 else 0

def partOf (total parts place : Nat) : Nat :=
  if place < total % parts * (total / parts + 1) then place / (total / parts + 1)
  else total % parts + (place - total % parts * (total / parts + 1)) / (total / parts)

variable {total parts : Nat}

theorem begins_succ (total parts part : Nat) :
    begins total parts (part + 1) = begins total parts part + size total parts part := by
  rw [begins, begins, size, Nat.add_one_mul]
  split <;> omega

theorem begins_mono (total parts : Nat) : Monotone (begins total parts) :=
  monotone_nat_of_le_succ fun part => by
    rw [begins_succ]
    exact Nat.le_add_right _ _

/-- The last part ends with the last place. -/
theorem begins_all (positive : 0 < parts) : begins total parts parts = total := by
  rw [begins, Nat.min_eq_right (Nat.mod_lt _ positive).le]
  exact Nat.div_add_mod _ _

variable {part : Nat}

theorem begins_longer (longer : part ≤ total % parts) :
    begins total parts part = part * (total / parts + 1) := by
  rw [begins, Nat.min_eq_left longer, Nat.mul_add_one]

/-- The other parts begin where the longer ones end, at multiples of their size. -/
theorem begins_shorter (partsBefore : Nat) : begins total parts (total % parts + partsBefore) =
      total % parts * (total / parts + 1) + partsBefore * (total / parts) := by
  rw [begins, Nat.min_eq_right (Nat.le_add_right _ _)]
  ring

variable {place : Nat}

theorem partOf_spec (positive : 0 < parts) (inside : place < total) :
    begins total parts (partOf total parts place) ≤ place ∧
      place < begins total parts (partOf total parts place + 1) := by
  rw [partOf]
  split
  case isTrue early =>
    have longer : place / (total / parts + 1) < total % parts :=
      (Nat.div_lt_iff_lt_mul (Nat.succ_pos _)).mpr early
    rw [begins_longer longer.le, begins_longer longer]
    exact ⟨Nat.div_mul_le_self _ _, Nat.lt_mul_of_div_lt (Nat.lt_succ_self _) (Nat.succ_pos _)⟩
  case isFalse late =>
    have whole : total % parts * (total / parts + 1) +
        (parts - total % parts) * (total / parts) = total := by
      rw [← begins_shorter, Nat.add_sub_cancel' (Nat.mod_lt _ positive).le, begins_all positive]
    have nonzero : 0 < total / parts := by
      refine Nat.pos_of_ne_zero fun zero => ?_
      rw [zero, Nat.mul_zero, Nat.add_zero, Nat.zero_add, Nat.mul_one] at whole
      rw [zero, Nat.zero_add, Nat.mul_one, whole] at late
      exact late inside
    rw [Nat.add_assoc, begins_shorter, begins_shorter]
    have below := Nat.div_mul_le_self (place - total % parts * (total / parts + 1)) (total / parts)
    have above : place - total % parts * (total / parts + 1) <
        ((place - total % parts * (total / parts + 1)) / (total / parts) + 1) * (total / parts) :=
      Nat.lt_mul_of_div_lt (Nat.lt_succ_self _) nonzero
    omega

/-- A part ends before later ones begin. -/
theorem begins_succ_le {first second : Nat} (before : first < second) :
    begins total parts (first + 1) ≤ begins total parts second :=
  begins_mono total parts before

theorem partOf_eq_iff (positive : 0 < parts) (inside : place < total) :
    partOf total parts place = part ↔
      begins total parts part ≤ place ∧ place < begins total parts (part + 1) := by
  obtain ⟨below, above⟩ := partOf_spec positive inside
  constructor
  · rintro rfl
    exact ⟨below, above⟩
  · rintro ⟨begun, within⟩
    rcases Nat.lt_trichotomy (partOf total parts place) part with before | same | later
    · have ended : begins total parts (partOf total parts place + 1) ≤ begins total parts part :=
        begins_succ_le before
      omega
    · exact same
    · have ended : begins total parts (part + 1) ≤ begins total parts (partOf total parts place) :=
        begins_succ_le later
      omega

theorem partOf_mono {first second : Nat} (positive : 0 < parts) (order : first ≤ second)
    (inside : second < total) : partOf total parts first ≤ partOf total parts second := by
  obtain ⟨begun, _⟩ := partOf_spec positive (Nat.lt_of_le_of_lt order inside)
  obtain ⟨_, within⟩ := partOf_spec positive inside
  by_contra further
  have ended : begins total parts (partOf total parts second + 1) ≤
      begins total parts (partOf total parts first) := begins_succ_le (Nat.lt_of_not_le further)
  omega

theorem partOf_lt (positive : 0 < parts) (inside : place < total) :
    partOf total parts place < min total parts := by
  obtain ⟨begun, _⟩ := partOf_spec positive inside
  refine Nat.lt_min.mpr ⟨?_, ?_⟩
  · rw [begins] at begun
    rcases Nat.eq_zero_or_pos (total / parts) with zero | nonzero
    · rw [zero, Nat.mul_zero, Nat.zero_add] at begun
      have := Nat.mod_add_div total parts
      rw [zero, Nat.mul_zero, Nat.add_zero] at this
      omega
    · have := Nat.le_mul_of_pos_right (partOf total parts place) nonzero
      omega
  · by_contra beyond
    have all := begins_mono total parts (Nat.le_of_not_lt beyond)
    rw [begins_all positive] at all
    omega

/-- The first parts, as many as there are places, are not empty. -/
theorem size_pos (early : part < min total parts) : 0 < size total parts part := by
  obtain ⟨withinTotal, withinParts⟩ := Nat.lt_min.mp early
  rw [size]
  rcases Nat.eq_zero_or_pos (total / parts) with zero | nonzero
  · have whole := Nat.mod_add_div total parts
    rw [zero, Nat.mul_zero, Nat.add_zero] at whole
    rw [zero, whole, if_pos withinTotal]
    exact Nat.one_pos
  · exact Nat.add_pos_left nonzero _

/-- Places between two others. -/
theorem countP_between {first last : Nat} (order : first ≤ last) (inside : last ≤ total) :
    (List.range total).countP (fun place => first ≤ place ∧ place < last) = last - first := by
  have cut : List.range total = List.range' 0 first ++
      (List.range' first (last - first) ++ List.range' last (total - last)) := by
    have later : List.range' first (last - first) ++ List.range' last (total - last) =
        List.range' first (total - first) := by
      have joined := @List.range'_append_1 first (last - first) (total - last)
      rw [Nat.add_sub_cancel' order] at joined
      rw [joined]
      congr 1
      omega
    have joined := @List.range'_append_1 0 first (total - first)
    rw [Nat.zero_add, Nat.add_sub_cancel' (order.trans inside)] at joined
    rw [later, joined, range_eq_range']
  have before : (List.range' 0 first).countP (fun place => first ≤ place ∧ place < last) = 0 :=
    countP_eq_zero.mpr fun place mem => by
      have := (mem_range'_1.mp mem).2
      simp only [decide_eq_true_eq]
      omega
  have within : (List.range' first (last - first)).countP
      (fun place => first ≤ place ∧ place < last) = last - first := by
    rw [countP_eq_length.mpr fun place mem => ?_, length_range']
    have := mem_range'_1.mp mem
    simp only [decide_eq_true_eq]
    omega
  have after : (List.range' last (total - last)).countP
      (fun place => first ≤ place ∧ place < last) = 0 :=
    countP_eq_zero.mpr fun place mem => by
      have := (mem_range'_1.mp mem).1
      simp only [decide_eq_true_eq]
      omega
  rw [cut, countP_append, countP_append, before, within, after, Nat.zero_add, Nat.add_zero]

theorem countP_partOf (positive : 0 < parts) (early : part < parts) :
    (List.range total).countP (fun place => partOf total parts place = part) =
      size total parts part := by
  have ends : begins total parts (part + 1) ≤ total :=
    (begins_mono total parts early).trans (begins_all positive).le
  have same : (List.range total).countP (fun place => partOf total parts place = part) =
      (List.range total).countP fun place =>
        begins total parts part ≤ place ∧ place < begins total parts (part + 1) :=
    countP_congr fun place mem => by
      rw [decide_eq_true_eq, decide_eq_true_eq]
      exact partOf_eq_iff positive (mem_range.mp mem)
  rw [same, countP_between (begins_mono total parts (Nat.le_succ part)) ends, begins_succ,
    Nat.add_sub_cancel_left]

end Flowfile.Library.EvenParts
