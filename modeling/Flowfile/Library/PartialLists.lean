import Mathlib.Data.List.Basic

/-!
# Lists under partial functions

A computation that may not return is a function into `Option`. Mapping or folding
it over a list returns exactly when every visited step returns. The rules here
take such a traversal apart into its steps: the results of a returned map are those of its
elements, and a returned fold preserves whatever every step preserves. Where
steps return from some bound on, one bound serves all elements of a list.
-/

namespace Flowfile.Library.PartialLists

open List

universe u v
variable {α : Type u} {β : Type v} (step : α → Option β) (values : List α) (results : List β)

theorem mapM_step (returned : values.mapM step = some results) (value : α) (mem : value ∈ values) :
    ∃ result ∈ results, step value = some result := by
  induction values generalizing results with
  | nil => simp at mem
  | cons head rest ih =>
    rw [mapM_cons] at returned
    obtain ⟨result, first, continued⟩ := Option.bind_eq_some_iff.mp returned
    obtain ⟨later, others, joined⟩ := Option.bind_eq_some_iff.mp continued
    cases joined
    rcases mem_cons.mp mem with rfl | inRest
    · exact ⟨result, by simp, first⟩
    · obtain ⟨other, found, stepped⟩ := ih later others inRest
      exact ⟨other, mem_cons_of_mem _ found, stepped⟩

theorem mapM_mono {step wider : α → Option β}
    (kept : ∀ value ∈ values, ∀ result, step value = some result → wider value = some result)
    (returned : values.mapM step = some results) : values.mapM wider = some results := by
  induction values generalizing results with
  | nil => exact returned
  | cons value rest ih =>
    rw [mapM_cons] at returned
    obtain ⟨result, first, continued⟩ := Option.bind_eq_some_iff.mp returned
    obtain ⟨others, later, joined⟩ := Option.bind_eq_some_iff.mp continued
    have restKept := ih others
      (fun other mem => kept other (mem_cons_of_mem _ mem)) later
    rw [mapM_cons, kept value (by simp) result first, restKept]
    exact joined

theorem mapM_congr {step other : α → Option β} {values : List α}
    (agree : ∀ value ∈ values, step value = other value) :
    values.mapM step = values.mapM other := by
  induction values with
  | nil => rfl
  | cons value rest ih =>
    rw [mapM_cons, mapM_cons, agree value mem_cons_self,
      ih fun later mem => agree later (mem_cons_of_mem _ mem)]

theorem mapM_returns (returns : ∀ value ∈ values, ∃ result, step value = some result) :
    ∃ results, values.mapM step = some results := by
  induction values with
  | nil => exact ⟨[], rfl⟩
  | cons value rest ih =>
    obtain ⟨result, first⟩ := returns value (by simp)
    obtain ⟨results, others⟩ := ih fun other mem =>
      returns other (mem_cons_of_mem _ mem)
    exact ⟨result :: results, by simp [mapM_cons, first, others]⟩

theorem mem_mapM (returned : values.mapM step = some results) (result : β) :
    result ∈ results ↔ ∃ value ∈ values, step value = some result := by
  induction values generalizing results with
  | nil =>
    have none : results = [] := by simpa using returned.symm
    simp [none]
  | cons value rest ih =>
    rw [mapM_cons] at returned
    obtain ⟨head, first, continued⟩ := Option.bind_eq_some_iff.mp returned
    obtain ⟨later, others, joined⟩ := Option.bind_eq_some_iff.mp continued
    have same : head :: later = results := Option.some.inj joined
    rw [← same, mem_cons, ih later others]
    simp only [mem_cons, exists_eq_or_imp, first, Option.some.injEq]
    exact or_congr eq_comm Iff.rfl

theorem foldlM_preserves (step : β → α → Option β) (holds : β → Prop) (values : List α)
    (start finish : β)
    (preserves : ∀ state value next, value ∈ values → holds state → step state value = some next →
      holds next)
    (initially : holds start) (returned : values.foldlM step start = some finish) :
    holds finish := by
  induction values generalizing start with
  | nil =>
    have same : start = finish := Option.some.inj returned
    exact same ▸ initially
  | cons value rest ih =>
    rw [foldlM_cons] at returned
    obtain ⟨next, first, continued⟩ := Option.bind_eq_some_iff.mp returned
    exact ih next
      (fun state other following mem =>
        preserves state other following (mem_cons_of_mem _ mem))
      (preserves start value next (by simp) initially first) continued

theorem foldlM_returns (step : β → α → Option β) (holds : β → Prop) (values : List α) (start : β)
    (returns : ∀ state value, value ∈ values → holds state →
      ∃ next, step state value = some next ∧ holds next)
    (initially : holds start) :
    ∃ finish, values.foldlM step start = some finish ∧ holds finish := by
  induction values generalizing start with
  | nil => exact ⟨start, rfl, initially⟩
  | cons value rest ih =>
    obtain ⟨next, first, preserved⟩ := returns start value (by simp) initially
    obtain ⟨finish, continued, final⟩ := ih next
      (fun state other mem => returns state other (mem_cons_of_mem _ mem)) preserved
    exact ⟨finish, by rw [foldlM_cons, first]; exact continued, final⟩

theorem common_bound (enough : α → Nat → Prop) (values : List α)
    (bounded : ∀ value ∈ values, ∃ bound, ∀ fuel, bound ≤ fuel → enough value fuel) :
    ∃ bound, ∀ value ∈ values, ∀ fuel, bound ≤ fuel → enough value fuel := by
  induction values with
  | nil => exact ⟨0, by simp⟩
  | cons value rest ih =>
    obtain ⟨first, firstEnough⟩ := bounded value (by simp)
    obtain ⟨others, othersEnough⟩ := ih fun other mem =>
      bounded other (mem_cons_of_mem _ mem)
    refine ⟨max first others, fun other mem fuel large => ?_⟩
    rcases mem_cons.mp mem with rfl | later
    · exact firstEnough fuel (Nat.le_trans (Nat.le_max_left _ _) large)
    · exact othersEnough other later fuel (Nat.le_trans (Nat.le_max_right _ _) large)

end Flowfile.Library.PartialLists
