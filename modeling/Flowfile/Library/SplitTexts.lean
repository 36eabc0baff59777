import Mathlib.Data.List.Infix

/-!
# Cutting texts at a separator

A text is cut where the separator starts, from the left. The parts give the text back when they are
joined with the separator, and none of them has the separator in it.
-/

namespace Flowfile.Library.SplitTexts

open List

/-- Cut what is left of a text, given what was passed since the last cut. The fuel is for the
characters that are left. -/
def splitFrom (separator : List Char) : Nat → List Char → List Char → List (List Char)
  | 0, passed, rest => [passed ++ rest]
  | _ + 1, passed, [] => [passed]
  | fuel + 1, passed, c :: rest =>
    if separator <+: c :: rest then
      passed :: splitFrom separator fuel [] ((c :: rest).drop separator.length)
    else splitFrom separator fuel (passed ++ [c]) rest

/-- The parts of a text. An empty separator is between all characters. -/
def splitText (text separator : List Char) : List (List Char) :=
  if separator = [] then text.map fun c => [c] else splitFrom separator text.length [] text

theorem splitFrom_ne_nil (separator : List Char) (fuel : Nat) (passed rest : List Char) :
    splitFrom separator fuel passed rest ≠ [] := by
  induction fuel generalizing passed rest with
  | zero => exact cons_ne_nil _ _
  | succ fuel ih =>
    cases rest with
    | nil => exact cons_ne_nil _ _
    | cons c rest =>
    rw [splitFrom]
    split
    · exact cons_ne_nil _ _
    · exact ih _ _

variable {separator : List Char}

theorem splitFrom_joined (nonempty : separator ≠ []) {fuel : Nat} {passed rest : List Char}
    (enough : rest.length ≤ fuel) :
    separator.intercalate (splitFrom separator fuel passed rest) = passed ++ rest := by
  induction fuel generalizing passed rest with
  | zero => exact intercalate_singleton
  | succ fuel ih =>
    cases rest with
    | nil => rw [splitFrom, intercalate_singleton, append_nil]
    | cons c rest =>
    rw [splitFrom]
    split
    case isTrue starts =>
      have shorter : ((c :: rest).drop separator.length).length ≤ fuel := by
        have positive := length_pos_iff.mpr nonempty
        rw [length_drop]
        rw [length_cons] at enough ⊢
        omega
      rw [intercalate_cons_of_ne_nil (splitFrom_ne_nil _ _ _ _),
        ih shorter, nil_append, append_assoc]
      conv_rhs => rw [← prefix_iff_eq_append.mp starts]
    case isFalse =>
      rw [ih (Nat.le_of_succ_le_succ enough), append_assoc]
      rfl

def NotStarted (separator passed rest : List Char) : Prop :=
  ∀ behind, behind ≠ [] → behind <:+ passed → ¬ separator <+: behind ++ rest

theorem NotStarted.part (nonempty : separator ≠ []) {passed rest : List Char}
    (notStarted : NotStarted separator passed rest) : ¬ separator <:+: passed := by
  rintro ⟨front, back, rfl⟩
  refine notStarted (separator ++ back) (by simp [nonempty]) ⟨front, by simp⟩ ?_
  rw [append_assoc]
  exact prefix_append _ _

theorem NotStarted.nil (separator rest : List Char) : NotStarted separator [] rest :=
  fun _ some isSuffix => absurd (suffix_nil.mp isSuffix) some

theorem splitFrom_parted (nonempty : separator ≠ []) {fuel : Nat} {passed rest : List Char}
    (enough : rest.length ≤ fuel) (notStarted : NotStarted separator passed rest) :
    ∀ part ∈ splitFrom separator fuel passed rest, ¬ separator <:+: part := by
  induction fuel generalizing passed rest with
  | zero =>
    obtain rfl := eq_nil_of_length_eq_zero (Nat.eq_zero_of_le_zero enough)
    intro part mem
    rw [mem_singleton.mp mem, append_nil]
    exact notStarted.part nonempty
  | succ fuel ih =>
    cases rest with
    | nil =>
      intro part mem
      rw [mem_singleton.mp mem]
      exact notStarted.part nonempty
    | cons c rest =>
    have shorter := Nat.le_of_succ_le_succ enough
    rw [splitFrom]
    split
    case isTrue starts =>
      intro part mem
      rcases mem_cons.mp mem with rfl | later
      · exact notStarted.part nonempty
      · refine ih ?_ (NotStarted.nil _ _) part later
        have positive := length_pos_iff.mpr nonempty
        rw [length_drop, length_cons]
        omega
    case isFalse starts =>
      refine ih shorter fun behind some isSuffix => ?_
      rcases suffix_concat_iff.mp isSuffix with empty | ⟨before, isBehind, before_suffix⟩
      · exact absurd empty some
      rw [isBehind, append_assoc]
      by_cases nothing : before = []
      · rw [nothing]
        exact starts
      · exact notStarted before nothing before_suffix

variable (text : List Char)

theorem letters_joined : [].intercalate (text.map fun c => [c]) = text := by
  induction text with
  | nil => rfl
  | cons c rest ih =>
    cases rest with
    | nil => rfl
    | cons next rest =>
      rw [map_cons] at ih
      rw [map_cons, map_cons, intercalate_cons_cons, ih]
      rfl

theorem splitText_joined (separator : List Char) :
    separator.intercalate (splitText text separator) = text := by
  rw [splitText]
  split
  case isTrue empty =>
    rw [empty]
    exact letters_joined text
  case isFalse nonempty => exact splitFrom_joined nonempty (Nat.le_refl _)

theorem splitText_parted (nonempty : separator ≠ []) :
    ∀ part ∈ splitText text separator, ¬ separator <:+: part := by
  rw [splitText, if_neg nonempty]
  exact splitFrom_parted nonempty (Nat.le_refl _) (NotStarted.nil _ _)

end Flowfile.Library.SplitTexts
