import Mathlib.Algebra.Order.Group.Defs
import Mathlib.Data.List.Count
import Mathlib.Tactic.Linarith

/-!
# Sliding windows

Calls listed newest first, each allowed while fewer than `limit` calls lie in the span before it.
No half-open window of that length then holds more than `limit` of them.
-/

namespace Flowfile.Library.SlidingWindows

variable {α : Type} [AddCommGroup α] [LinearOrder α] [IsOrderedAddMonoid α]
variable {span : α} {limit : Nat} {calls : List α}

/-- Each call found fewer than `limit` earlier ones less than `span` old. -/
def Sparse (span : α) (limit : Nat) : List α → Prop
  | [] => True
  | call :: earlier =>
    earlier.countP (call - span < ·) < limit ∧ Sparse span limit earlier

theorem Sparse.window (sparse : Sparse span limit calls) (start : α) :
    calls.countP (fun call => start ≤ call ∧ call < start + span) ≤ limit := by
  induction calls with
  | nil => simp
  | cons call earlier ih =>
    obtain ⟨few, rest⟩ := sparse
    by_cases inside : start ≤ call ∧ call < start + span
    · have later : call - span < start := sub_lt_iff_lt_add.mpr inside.2
      have fewer := List.countP_mono_left (l := earlier)
        (p := fun call => start ≤ call ∧ call < start + span) (q := (call - span < ·))
        fun other _ held => decide_eq_true (later.trans_le (of_decide_eq_true held).1)
      rw [List.countP_cons_of_pos (by simpa using inside)]
      omega
    · rw [List.countP_cons_of_neg (by simpa using inside)]
      exact ih rest

theorem Sparse.recent (sparse : Sparse span limit calls) {now : α}
    (past : ∀ call ∈ calls, call ≤ now) : calls.countP (now - span < ·) ≤ limit := by
  induction calls with
  | nil => simp
  | cons call earlier ih =>
    obtain ⟨few, rest⟩ := sparse
    by_cases young : now - span < call
    · have fewer := List.countP_mono_left (l := earlier) (p := (now - span < ·))
        (q := (call - span < ·)) fun other _ held => decide_eq_true
          ((sub_le_sub_right (past call List.mem_cons_self) span).trans_lt (of_decide_eq_true held))
      rw [List.countP_cons_of_pos (by simpa using young)]
      omega
    · rw [List.countP_cons_of_neg (by simpa using young)]
      exact ih rest fun other held => past other (List.mem_cons_of_mem call held)

theorem countP_lt_countP {β : Type} {p q : β → Bool} {items : List β} (weaker : ∀ x, p x → q x)
    {item : β} (mem : item ∈ items) (kept : q item) (lost : ¬p item) :
    items.countP p < items.countP q := by
  obtain ⟨before, after, rfl⟩ := List.append_of_mem mem
  have front := List.countP_mono_left (l := before) fun x _ => weaker x
  have back := List.countP_mono_left (l := after) fun x _ => weaker x
  rw [List.countP_append, List.countP_append, List.countP_cons_of_neg lost,
    List.countP_cons_of_pos kept]
  omega

end Flowfile.Library.SlidingWindows
