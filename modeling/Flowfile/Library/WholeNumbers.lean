import Flowfile.Library.PythonText
import Flowfile.Library.WrittenNumbers

/-!
# Reading whole numbers

What `int` reads: digits of any script with spaces around them, a sign before them and single
underscores between them. A number that was written is read back, unless it has too many digits.
-/

namespace Library.PythonText

open Flowfile.Library.WrittenNumbers List

def parseInt (text : List Char) : Option Int :=
  match dropUnderscores '\x00' (stripWhere isCSpace (text.map asciiOf)) with
  | none => none
  | some number =>
    let magnitude := dropSign number
    if areDigits magnitude && magnitude.length ≤ maxIntegerDigits then
      some (if number.head? = some '-' then -digitsValue magnitude else digitsValue magnitude)
    else none

/-- A digit is one of ten characters. -/
theorem digit_range {c : Char} (digit : c.isDigit = true) : 48 ≤ c.toNat ∧ c.toNat ≤ 57 := by
  simpa [Char.isDigit, UInt32.le_iff_toNat_le, ← Char.toNat_val] using digit

/-- Characters of a kind that a text does not have are not removed. -/
theorem stripWhere_of_absent {drop : Char → Bool} {text : List Char}
    (absent : ∀ c ∈ text, drop c = false) : stripWhere drop text = text := by
  have kept (text : List Char) (absent : ∀ c ∈ text, drop c = false) :
      text.dropWhile drop = text := by
    cases text with
    | nil => rfl
    | cons head rest =>
      exact dropWhile_cons_of_neg (by simp [absent head mem_cons_self])
  rw [stripWhere, kept text absent, kept text.reverse (by simpa using absent), reverse_reverse]

theorem dropUnderscores_digits {digits : List Char} (all : ∀ c ∈ digits, c.isDigit = true)
    (previous : Char) (plain : previous ≠ '_') :
    dropUnderscores previous digits = some digits := by
  induction digits generalizing previous with
  | nil => exact if_neg plain
  | cons head rest inner =>
    have digit := all head mem_cons_self
    have apart : head ≠ '_' := by
      rintro rfl
      exact absurd digit (by decide)
    rw [dropUnderscores, if_neg apart, if_neg (by simp [plain]),
      inner (fun c mem => all c (mem_cons_of_mem _ mem)) head apart]
    rfl

theorem spell_cast (digits : List Char) (start : Nat) :
    digits.foldl (fun (value : Int) c => 10 * value + (c.toNat - 48 : Nat)) (start : Int) =
      (digits.foldl (fun value c => 10 * value + (c.toNat - 48)) start : Nat) := by
  induction digits generalizing start with
  | nil => rfl
  | cons head rest inner =>
    rw [foldl_cons, foldl_cons, ← inner]
    norm_cast

/-- A written number is read back. -/
theorem parseInt_toString {number : Nat}
    (short : (toString number).toList.length ≤ maxIntegerDigits) :
    parseInt (toString number).toList = some (number : Int) := by
  have digits : ∀ c ∈ (toString number).toList, c.isDigit = true :=
    fun c mem => isDigit_of_mem_toString mem
  have spelled : (toString number).toList = Nat.toDigits 10 number := by
    rw [Nat.toString_eq_repr, Nat.toList_repr]
  have value : digitsValue (toString number).toList = number := by
    have whole := @Nat.ofDigitChars_ten_toDigits number
    rw [← spelled, Nat.ofDigitChars] at whole
    exact (spell_cast _ 0).trans (congrArg Nat.cast whole)
  generalize (toString number).toList = text at digits value spelled short
  have full : text ≠ [] := by
    rw [spelled]
    exact Nat.toDigits_ne_nil
  have ascii : text.map asciiOf = text := by
    conv_rhs => rw [← map_id text]
    refine map_congr_left fun c mem => if_pos ?_
    have range := digit_range (digits c mem)
    omega
  have unspaced : stripWhere isCSpace text = text := by
    refine stripWhere_of_absent fun c mem => ?_
    have range := digit_range (digits c mem)
    simp only [isCSpace, Bool.or_eq_false_iff, Bool.and_eq_false_iff, decide_eq_false_iff_not]
    omega
  obtain ⟨head, rest, rfl⟩ := exists_cons_of_ne_nil full
  have digit := digits head mem_cons_self
  have unsigned : dropSign (head :: rest) = head :: rest := by
    rw [dropSign.eq_def]
    split
    case h_1 => exact absurd digit (by simp [(List.cons.inj ‹_›).1])
    case h_2 => exact absurd digit (by simp [(List.cons.inj ‹_›).1])
    case h_3 => rfl
  have positive : (head :: rest).head? ≠ some '-' := by
    intro same
    rw [Option.some.inj same] at digit
    exact absurd digit (by decide)
  have areAll : areDigits (head :: rest) = true := by
    rw [areDigits, Bool.and_eq_true, all_eq_true]
    exact ⟨rfl, digits⟩
  rw [parseInt, ascii, unspaced, dropUnderscores_digits digits _ (by decide)]
  dsimp only
  rw [unsigned, areAll, if_pos (by simpa using short), if_neg positive, value]

end Library.PythonText
