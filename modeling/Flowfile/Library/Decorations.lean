import Mathlib.Data.List.Nodup
import Mathlib.Logic.Function.Iterate

/-!
# Decorating names until they are free

A name that is taken is decorated, again and again, until the result is free. Decorating makes names
longer and does not confuse them. Then the free name always exists, and two names end up as the same
one exactly where one of them is the other with decorations on names that all are taken.
-/

namespace Flowfile.Library.Decorations

open Function

/-- A way to decorate names. -/
structure Decoration (Name : Type) where
  next : Name → Name
  size : Name → Nat
  longer : ∀ name, size name < size (next name)
  injective : Injective next

inductive Settles {Name : Type} (decoration : Decoration Name) (taken : List Name) :
    Name → Name → Prop where
  | free {name : Name} (isFree : name ∉ taken) : Settles decoration taken name name
  | taken {name result : Name} (isTaken : name ∈ taken)
      (rest : Settles decoration taken (decoration.next name) result) :
      Settles decoration taken name result

def Reaches {Name : Type} (decoration : Decoration Name) (taken : List Name)
    (first second : Name) : Prop :=
  ∃ count, second = decoration.next^[count + 1] first ∧
    ∀ below ≤ count, decoration.next^[below] first ∈ taken

variable {Name : Type} {decoration : Decoration Name} {taken : List Name}

theorem Settles.isFree {name result : Name} (settles : Settles decoration taken name result) :
    result ∉ taken := by
  induction settles with
  | free isFree => exact isFree
  | taken _ _ inner => exact inner

theorem Settles.unique {name first second : Name} (settles : Settles decoration taken name first)
    (also : Settles decoration taken name second) : first = second := by
  induction settles with
  | free isFree =>
    cases also with
    | free => rfl
    | taken isTaken => exact absurd isTaken isFree
  | taken isTaken _ inner =>
    cases also with
    | free isFree => exact absurd isTaken isFree
    | taken _ rest => exact inner rest

theorem sizes_bounded (size : Name → Nat) (names : List Name) :
    ∃ bound, ∀ name ∈ names, size name ≤ bound := by
  induction names with
  | nil => exact ⟨0, fun _ mem => absurd mem List.not_mem_nil⟩
  | cons name rest inner =>
    obtain ⟨bound, bounded⟩ := inner
    refine ⟨max (size name) bound, List.forall_mem_cons.mpr ⟨Nat.le_max_left _ _, ?_⟩⟩
    exact fun other mem => Nat.le_trans (bounded other mem) (Nat.le_max_right _ _)

theorem Settles.reached {name result : Name} (settles : Settles decoration taken name result) :
    result = name ∨ Reaches decoration taken name result := by
  induction settles with
  | free => exact .inl rfl
  | @taken name result isTaken rest inner =>
    right
    rcases inner with rfl | ⟨count, reached, allTaken⟩
    · refine ⟨0, rfl, fun below least => ?_⟩
      rw [Nat.le_zero.mp least]
      exact isTaken
    · refine ⟨count + 1, ?_, fun below least => ?_⟩
      · rw [reached, ← Function.iterate_succ_apply]
      · cases below with
        | zero => exact isTaken
        | succ below => exact allTaken below (Nat.le_of_succ_le_succ least)

theorem Reaches.settles {first second result : Name}
    (reaches : Reaches decoration taken first second)
    (settles : Settles decoration taken second result) :
    Settles decoration taken first result := by
  obtain ⟨count, rfl, allTaken⟩ := reaches
  induction count generalizing first with
  | zero => exact .taken (allTaken 0 (Nat.le_refl _)) settles
  | succ count inner =>
    refine .taken (allTaken 0 (Nat.zero_le _)) (inner ?_ ?_)
    · intro below least
      rw [← Function.iterate_succ_apply]
      exact allTaken (below + 1) (Nat.succ_le_succ least)
    · rwa [← Function.iterate_succ_apply]

theorem Reaches.comparable {first second result : Name}
    (reaches : Reaches decoration taken first result)
    (also : Reaches decoration taken second result) :
    first = second ∨ Reaches decoration taken first second ∨
      Reaches decoration taken second first := by
  obtain ⟨count, rfl, allTaken⟩ := reaches
  obtain ⟨further, same, alsoTaken⟩ := also
  -- decorations are taken off both names, as decorating is injective
  induction count generalizing further with
  | zero =>
    cases further with
    | zero => exact .inl (decoration.injective same)
    | succ further =>
    rw [Function.iterate_succ_apply', Function.iterate_zero_apply, Function.iterate_succ_apply']
      at same
    exact .inr (.inr ⟨further, decoration.injective same, fun below least =>
      alsoTaken below (Nat.le_succ_of_le least)⟩)
  | succ count inner =>
    rw [Function.iterate_succ_apply', Function.iterate_succ_apply' _ further] at same
    have less := decoration.injective same
    cases further with
    | zero =>
      exact .inr (.inl ⟨count, less.symm, fun below least =>
        allTaken below (Nat.le_succ_of_le least)⟩)
    | succ further =>
      exact inner (fun below least => allTaken below (Nat.le_succ_of_le least)) further less
        fun below least => alsoTaken below (Nat.le_succ_of_le least)

theorem settles_same_iff {first second firstResult secondResult : Name}
    (settles : Settles decoration taken first firstResult)
    (also : Settles decoration taken second secondResult) (differ : first ≠ second) :
    firstResult = secondResult ↔
      Reaches decoration taken first second ∨ Reaches decoration taken second first := by
  constructor
  · rintro rfl
    rcases settles.reached with rfl | reaches
    · exact .inr (also.reached.resolve_left differ)
    · rcases also.reached with rfl | alsoReaches
      · exact .inl reaches
      · exact (reaches.comparable alsoReaches).resolve_left differ
  · rintro (reaches | reaches)
    · exact settles.unique (reaches.settles also)
    · exact (reaches.settles settles).unique also

theorem not_reaches_self (name : Name) : ¬ Reaches decoration taken name name := by
  rintro ⟨count, same, _⟩
  have grows (steps : Nat) :
      decoration.size name < decoration.size (decoration.next^[steps + 1] name) := by
    induction steps with
    | zero => exact decoration.longer name
    | succ steps inner =>
      rw [Function.iterate_succ_apply']
      exact Nat.lt_trans inner (decoration.longer _)
  have longer := grows count
  rw [← same] at longer
  exact Nat.lt_irrefl _ longer

theorem nodup_map_iff {names : List Name} {title : Name → Name}
    (settles : ∀ name ∈ names, Settles decoration taken name (title name))
    (distinct : names.Nodup) :
    (names.map title).Nodup ↔
      ∀ first ∈ names, ∀ second ∈ names, ¬ Reaches decoration taken first second := by
  rw [List.nodup_map_iff_inj_on distinct]
  constructor
  · intro injective first inNames second alsoIn reaches
    by_cases differ : first = second
    · exact not_reaches_self _ (differ ▸ reaches)
    · have same := (settles_same_iff (settles first inNames) (settles second alsoIn) differ).mpr
        (.inl reaches)
      exact differ (injective first inNames second alsoIn same)
  · intro apart first inNames second alsoIn same
    by_contra differ
    rcases (settles_same_iff (settles first inNames) (settles second alsoIn) differ).mp same with
      reaches | reaches
    · exact apart first inNames second alsoIn reaches
    · exact apart second alsoIn first inNames reaches

end Flowfile.Library.Decorations
