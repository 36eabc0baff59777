import Flowfile.Library.Doubles
import Flowfile.Library.PythonText
import Flowfile.Library.WrittenNumbers

/-!
# Texts of floating-point numbers

What `float` reads and what `repr` writes. A number is written with the fewest digits that are read
back as it, and of these with the nearest; very large and very small ones get an exponent.
-/

namespace Library.PythonText

open Flowfile.Library.Doubles Flowfile.Library.WrittenNumbers List

/-- A floating-point number with its sign, which zero has as well. -/
structure SignedDouble where
  negative : Bool
  magnitude : Double

/-- The exponent behind its mark. -/
def exponentValue : List Char → Int
  | [] => 0
  | _ :: '-' :: digits => -digitsValue digits
  | _ :: digits => digitsValue (dropSign digits)

/-- The value of digits with at most one point among them, and perhaps an exponent. -/
def decimalValue (text : List Char) : Rat :=
  let whole := text.takeWhile Char.isDigit
  match text.dropWhile Char.isDigit with
  | '.' :: rest =>
    let fraction := rest.takeWhile Char.isDigit
    digitsValue (whole ++ fraction) *
      10 ^ (exponentValue (rest.dropWhile Char.isDigit) - fraction.length)
  | rest => digitsValue whole * 10 ^ exponentValue rest

/-- The nearest floating-point number, which is infinite from a certain size on. -/
def roundMagnitude (value : Rat) : Double :=
  if 2 ^ 1024 - 2 ^ 970 ≤ value then .infinite false else .finite (toDouble value)

def parseFloat (text : List Char) : Option SignedDouble :=
  match dropUnderscores '\x00' (stripWhere isCSpace (text.map asciiOf)) with
  | none => none
  | some number =>
    let magnitude := dropSign number
    let negative := number.head? = some '-'
    let word := magnitude.map Char.toLower
    if isDecimalFloat magnitude then some ⟨negative, roundMagnitude (decimalValue magnitude)⟩
    else if word = "inf".toList ∨ word = "infinity".toList then some ⟨negative, .infinite false⟩
    else if word = "nan".toList then some ⟨negative, .nan⟩
    else none

/-- The nearest number of so many digits that is read back as a number, and the power of ten that
it counts. -/
def digitsOfLength (value : Rat) (count : Nat) : Option (Nat × Int) :=
  let power : Int := Int.log 10 value + 1 - count
  let scaled := value / 10 ^ power
  let below := scaled.floor.toNat
  let reads (digits : Nat) : Bool := toDouble (digits * 10 ^ power) = value
  let nearBelow := scaled - below < 1 / 2 ∨ scaled - below = 1 / 2 ∧ below % 2 = 0
  if reads below ∧ (nearBelow ∨ ¬reads (below + 1)) then some (below, power)
  else if reads (below + 1) then some (below + 1, power)
  else none

/-- The fewest digits that are read back; seventeen always are. -/
def shortest (value : Rat) : Nat × Int :=
  ((List.range 17).findSome? fun count => digitsOfLength value (count + 1)).getD (0, 0)

/-- Digits without the zeros at the end. -/
def significant (digits : Nat) : List Char :=
  match ((toString digits).toList.reverse.dropWhile (· = '0')).reverse with
  | [] => ['0']
  | digits => digits

def exponentDigits (exponent : Nat) : List Char :=
  if exponent < 10 then '0' :: (toString exponent).toList else (toString exponent).toList

def writeDigits (digits : List Char) (point : Int) : List Char :=
  if -4 < point ∧ point ≤ 16 then
    if point ≤ 0 then '0' :: '.' :: (List.replicate (-point).toNat '0' ++ digits)
    else
      let count := point.toNat
      if digits.length ≤ count then
        digits ++ List.replicate (count - digits.length) '0' ++ ['.', '0']
      else digits.take count ++ '.' :: digits.drop count
  else
    let mantissa := match digits with
      | [] => []
      | [digit] => [digit]
      | digit :: rest => digit :: '.' :: rest
    let sign := if point - 1 < 0 then '-' else '+'
    mantissa ++ 'e' :: sign :: exponentDigits (point - 1).natAbs

/-- `repr` of a number that is not negative. -/
def reprMagnitude (value : Rat) : List Char :=
  if value = 0 then "0.0".toList
  else
    let (digits, power) := shortest value
    writeDigits (significant digits) (power + (toString digits).length)

def reprFloat (number : SignedDouble) : List Char :=
  match number.magnitude with
  | .nan => "nan".toList
  | .infinite _ => if number.negative then "-inf".toList else "inf".toList
  | .finite value =>
    if number.negative then '-' :: reprMagnitude value else reprMagnitude value

/-- A decimal number as a token: a whole one has no zero in front, another one has a point or an
exponent. -/
def isNumber (text : List Char) : Bool :=
  if areDigits text then text.head? != some '0' || text.all (· = '0') else isDecimalFloat text

/-- A number that may have a minus sign before it, which is a token of its own. -/
def isSignedNumber : List Char → Bool
  | '-' :: rest => isNumber rest
  | text => isNumber text

section

variable {digits rest : List Char} (all : ∀ c ∈ digits, c.isDigit = true)
include all

theorem takeWhile_digits {stop : Char} (isStop : stop.isDigit = false) :
    (digits ++ stop :: rest).takeWhile Char.isDigit = digits ∧
      (digits ++ stop :: rest).dropWhile Char.isDigit = stop :: rest := by
  rw [takeWhile_append_of_pos all, dropWhile_append_of_pos all,
    takeWhile_cons_of_neg (by simp [isStop]), dropWhile_cons_of_neg (by simp [isStop]),
    append_nil]
  exact ⟨rfl, rfl⟩

theorem takeWhile_all : digits.takeWhile Char.isDigit = digits ∧
    digits.dropWhile Char.isDigit = [] := by
  have taken := @List.takeWhile_append_of_pos _ _ digits [] all
  have dropped := @List.dropWhile_append_of_pos _ _ digits [] all
  rw [append_nil] at taken dropped
  rw [taken, dropped]
  exact ⟨append_nil _, rfl⟩

end

theorem isNumber_of_float {digits rest : List Char} {stop : Char} (isStop : stop.isDigit = false)
    (float : isDecimalFloat (digits ++ stop :: rest) = true) :
    isNumber (digits ++ stop :: rest) = true := by
  have mixed : areDigits (digits ++ stop :: rest) = false := by
    rw [areDigits, all_append, all_cons, isStop, Bool.false_and, Bool.and_false, Bool.and_false]
  rw [isNumber, mixed, if_neg Bool.false_ne_true]
  exact float

theorem areDigits_of_all {digits : List Char} (all : ∀ c ∈ digits, c.isDigit = true)
    (some : digits ≠ []) : areDigits digits = true := by
  rw [areDigits, isEmpty_eq_false_iff.mpr some, all_eq_true.mpr all]
  rfl

theorem isNumber_point {whole fraction : List Char} (wholeDigits : ∀ c ∈ whole, c.isDigit = true)
    (fractionDigits : ∀ c ∈ fraction, c.isDigit = true) (some : whole ++ fraction ≠ []) :
    isNumber (whole ++ '.' :: fraction) = true := by
  refine isNumber_of_float rfl ?_
  obtain ⟨taken, dropped⟩ := @takeWhile_digits whole fraction wholeDigits '.' rfl
  obtain ⟨kept, left⟩ := takeWhile_all fractionDigits
  rw [isDecimalFloat, taken, dropped]
  change (!(whole ++ fraction.takeWhile Char.isDigit).isEmpty &&
    isExponent (fraction.dropWhile Char.isDigit)) = true
  rw [kept, left, isEmpty_eq_false_iff.mpr some]
  rfl

theorem isExponent_signed {sign : Char} (signs : sign = '-' ∨ sign = '+') {digits : List Char}
    (all : ∀ c ∈ digits, c.isDigit = true) (some : digits ≠ []) :
    isExponent ('e' :: sign :: digits) = true := by
  rw [isExponent]
  rcases signs with rfl | rfl <;>
    · rw [dropSign, areDigits_of_all all some]
      rfl

theorem isNumber_exponent {whole exponent : List Char} (wholeDigits : ∀ c ∈ whole, c.isDigit = true)
    (some : whole ≠ []) (isExp : isExponent ('e' :: exponent) = true) :
    isNumber (whole ++ 'e' :: exponent) = true := by
  refine isNumber_of_float rfl ?_
  obtain ⟨taken, dropped⟩ := @takeWhile_digits whole exponent wholeDigits 'e' rfl
  rw [isDecimalFloat, taken, dropped]
  change (!whole.isEmpty && isExponent ('e' :: exponent)) = true
  rw [isEmpty_eq_false_iff.mpr some, isExp]
  rfl

theorem isNumber_point_exponent {whole fraction exponent : List Char}
    (wholeDigits : ∀ c ∈ whole, c.isDigit = true)
    (fractionDigits : ∀ c ∈ fraction, c.isDigit = true) (some : whole ++ fraction ≠ [])
    (isExp : isExponent ('e' :: exponent) = true) :
    isNumber (whole ++ '.' :: (fraction ++ 'e' :: exponent)) = true := by
  refine isNumber_of_float rfl ?_
  obtain ⟨taken, dropped⟩ :=
    @takeWhile_digits whole (fraction ++ 'e' :: exponent) wholeDigits '.' rfl
  obtain ⟨kept, left⟩ := @takeWhile_digits fraction exponent fractionDigits 'e' rfl
  rw [isDecimalFloat, taken, dropped]
  change (!(whole ++ (fraction ++ 'e' :: exponent).takeWhile Char.isDigit).isEmpty &&
    isExponent ((fraction ++ 'e' :: exponent).dropWhile Char.isDigit)) = true
  rw [kept, left, isEmpty_eq_false_iff.mpr some, isExp]
  rfl

theorem significant_digits (number : Nat) :
    (∀ c ∈ significant number, c.isDigit = true) ∧ significant number ≠ [] := by
  rw [significant]
  split
  · exact ⟨fun c mem => mem_singleton.mp mem ▸ rfl, cons_ne_nil _ _⟩
  case h_2 digits other =>
    refine ⟨fun c mem => ?_, other⟩
    have kept := (dropWhile_suffix _).subset (mem_reverse.mp mem)
    exact isDigit_of_mem_toString (mem_reverse.mp kept)

theorem exponentDigits_digits (exponent : Nat) :
    (∀ c ∈ exponentDigits exponent, c.isDigit = true) ∧ exponentDigits exponent ≠ [] := by
  have written : (toString exponent).toList ≠ [] := by
    rw [Nat.toString_eq_repr, Nat.toList_repr]
    exact Nat.toDigits_ne_nil
  rw [exponentDigits]
  split
  · refine ⟨fun c mem => ?_, cons_ne_nil _ _⟩
    rcases mem_cons.mp mem with rfl | mem
    · rfl
    · exact isDigit_of_mem_toString mem
  · exact ⟨fun c mem => isDigit_of_mem_toString mem, written⟩

theorem replicate_digits (count : Nat) : ∀ c ∈ List.replicate count '0', c.isDigit = true :=
  fun _ mem => eq_of_mem_replicate mem ▸ rfl

theorem isNumber_writeDigits {digits : List Char} (all : ∀ c ∈ digits, c.isDigit = true)
    (some : digits ≠ []) (point : Int) : isNumber (writeDigits digits point) = true := by
  rw [writeDigits.eq_def]
  split
  · split
    · refine @isNumber_point ['0'] (List.replicate (-point).toNat '0' ++ digits)
        (fun c mem => mem_singleton.mp mem ▸ rfl) (fun c mem => ?_)
        (cons_ne_nil _ _)
      rcases mem_append.mp mem with zero | digit
      · exact replicate_digits _ c zero
      · exact all c digit
    · dsimp only
      split
      · refine @isNumber_point (digits ++ List.replicate (point.toNat - digits.length) '0') ['0']
          (fun c mem => ?_) (fun c mem => mem_singleton.mp mem ▸ rfl) (by simp)
        rcases mem_append.mp mem with digit | zero
        · exact all c digit
        · exact replicate_digits _ c zero
      · refine isNumber_point (fun c mem => all c (mem_of_mem_take mem))
          (fun c mem => all c (mem_of_mem_drop mem)) ?_
        rwa [take_append_drop]
  · obtain ⟨expDigits, expSome⟩ := exponentDigits_digits (point - 1).natAbs
    have signs : (if point - 1 < 0 then '-' else '+') = '-' ∨
        (if point - 1 < 0 then '-' else '+') = '+' := by
      split
      · exact .inl rfl
      · exact .inr rfl
    have isExp := isExponent_signed signs expDigits expSome
    cases digits with
    | nil => exact absurd rfl some
    | cons digit rest =>
    cases rest with
    | nil => exact isNumber_exponent all (cons_ne_nil _ _) isExp
    | cons next rest =>
      exact @isNumber_point_exponent [digit] (next :: rest) _
        (fun c mem => all c (mem_singleton.mp mem ▸ mem_cons_self))
        (fun c mem => all c (mem_cons_of_mem _ mem)) (cons_ne_nil _ _) isExp

theorem isNumber_reprMagnitude (value : Rat) : isNumber (reprMagnitude value) = true := by
  rw [reprMagnitude]
  split
  · decide
  · obtain ⟨all, some⟩ := significant_digits (shortest value).1
    exact isNumber_writeDigits all some _

theorem isSignedNumber_of_number {text : List Char} (number : isNumber text = true) :
    isSignedNumber text = true := by
  rw [isSignedNumber.eq_def]
  split
  case h_1 rest => cases number
  case h_2 => exact number

theorem reprFloat_finite (negative : Bool) (value : Rat) :
    isSignedNumber (reprFloat ⟨negative, .finite value⟩) = true := by
  have number := isNumber_reprMagnitude value
  cases negative with
  | true => exact number
  | false =>
    exact isSignedNumber_of_number number

/-- A number that is not zero has no zero in front. -/
theorem head_toDigits {number : Nat} (positive : 0 < number) :
    (Nat.toDigits 10 number).head? ≠ some '0' := by
  induction number using Nat.strongRecOn with
  | ind number ih =>
    by_cases small : number < 10
    · rw [Nat.toDigits_of_lt_base small, List.head?_cons]
      intro zero
      exact absurd (Nat.digitChar_eq_zero.mp (Option.some.inj zero)) (Nat.ne_of_gt positive)
    · have large := Nat.le_of_not_lt small
      rw [Nat.toDigits_of_base_le (by decide) large,
        List.head?_append_of_ne_nil _ Nat.toDigits_ne_nil]
      exact ih _ (Nat.div_lt_self positive (by decide))
        (Nat.div_pos large (by decide))

theorem isNumber_toString (number : Nat) : isNumber (toString number).toList = true := by
  have written : (toString number).toList = Nat.toDigits 10 number := by
    rw [Nat.toString_eq_repr, Nat.toList_repr]
  have digits : areDigits (Nat.toDigits 10 number) = true :=
    areDigits_of_all (fun c mem => isDigit_of_mem_toString (written ▸ mem))
      Nat.toDigits_ne_nil
  rw [written, isNumber, if_pos digits]
  cases number with
  | zero => rfl
  | succ number =>
    rw [bne_iff_ne.mpr (head_toDigits (Nat.succ_pos number)), Bool.true_or]

theorem isSignedNumber_int (number : Int) : isSignedNumber (toString number).toList = true := by
  cases number with
  | ofNat number => exact isSignedNumber_of_number (isNumber_toString number)
  | negSucc number =>
    have written : toString (Int.negSucc number) = "-" ++ toString (number + 1) := rfl
    rw [written, String.toList_append]
    exact isNumber_toString (number + 1)

end Library.PythonText
