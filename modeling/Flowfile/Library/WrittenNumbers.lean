import Mathlib.Data.List.Basic

/-!
# Numbers in texts

A number is written with digits only. Where a text goes on after a number with another letter than
a digit, the number and the rest of the text can be read back.
-/

namespace Flowfile.Library.WrittenNumbers

/-- Numbers are written differently. -/
theorem toString_injective {first second : Nat} (same : toString first = toString second) :
    first = second := by
  have digits := congrArg String.toList same
  have values := congrArg (fun digits => Nat.ofDigitChars 10 digits 0) digits
  rwa [Nat.toString_eq_repr, Nat.toString_eq_repr, Nat.toList_repr, Nat.toList_repr,
    Nat.ofDigitChars_ten_toDigits, Nat.ofDigitChars_ten_toDigits] at values

variable {letter : Char}

theorem isDigit_of_mem_toString {number : Nat}
    (mem : letter ∈ (toString number).toList) : letter.isDigit = true := by
  rw [Nat.toString_eq_repr, Nat.toList_repr] at mem
  exact Nat.isDigit_of_mem_toDigits (by decide) (by decide) mem

theorem takeWhile_isDigit (number : Nat) {rest : List Char} (notDigit : letter.isDigit = false) :
    ((toString number).toList ++ letter :: rest).takeWhile Char.isDigit =
      (toString number).toList := by
  rw [List.takeWhile_append_of_pos fun _ mem => isDigit_of_mem_toString mem,
    List.takeWhile_cons_of_neg (by simp [notDigit]), List.append_nil]

/-- Equal texts that start with a number and another letter than a digit start with the same
number and go on alike. -/
theorem written_inj {first second : Nat} {firstRest secondRest : String}
    (notDigit : letter.isDigit = false)
    (same : toString first ++ String.singleton letter ++ firstRest =
      toString second ++ String.singleton letter ++ secondRest) :
    first = second ∧ firstRest = secondRest := by
  have letters := congrArg (fun text : String => text.toList.takeWhile Char.isDigit) same
  simp only [String.toList_append, String.toList_singleton, List.append_assoc,
    List.singleton_append, takeWhile_isDigit _ notDigit] at letters
  obtain rfl := toString_injective (String.toList_injective letters)
  exact ⟨rfl, (String.append_right_inj _).mp same⟩

end Flowfile.Library.WrittenNumbers
