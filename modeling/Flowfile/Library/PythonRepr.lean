import Flowfile.Library.PrefixCodes
import Flowfile.Library.PythonText
import Flowfile.Library.WrittenNumbers
import Mathlib.Algebra.Group.Nat.Defs

/-!
# Representations of Python

The representation of a string has quotes, which are single ones unless the string contains these
and no double ones. Backslashes, the quotes and what cannot be printed are escaped. Which characters
beyond ASCII can be printed is up to the Unicode version and left open: the string is read back for
any choice. Numbers, truth values and `None` have fixed texts.
-/

namespace Library.PythonText

open Flowfile.Library.PrefixCodes Flowfile.Library.WrittenNumbers List

def hexDigits : Nat → Nat → List Char
  | 0, _ => []
  | width + 1, value => hexDigits width (value / 16) ++ [hexDigit (value % 16)]

/-- The number that digits spell, from a number that was read before. -/
def readHex (start : Nat) (digits : List Char) : Nat :=
  digits.foldl (fun value digit => 16 * value + (hexValue digit).getD 0) start

/-- A character by its number. -/
def hexEscape (letter : Char) (width : Nat) (c : Char) : List Char :=
  '\\' :: letter :: hexDigits width c.toNat

def singleQuote : Char := Char.ofNat 39

/-- The quotes around a string. -/
def quoteOf (text : List Char) : Char :=
  if singleQuote ∈ text ∧ '"' ∉ text then '"' else singleQuote

section

variable (printable : Char → Bool)

/-- A character between the quotes. -/
def reprChar (quote c : Char) : List Char :=
  if c = quote ∨ c = '\\' then ['\\', c]
  else if c = '\t' then ['\\', 't']
  else if c = '\n' then ['\\', 'n']
  else if c = '\r' then ['\\', 'r']
  else if c.toNat < 32 ∨ c.toNat = 127 then hexEscape 'x' 2 c
  else if c.toNat < 127 ∨ printable c then [c]
  else if c.toNat < 256 then hexEscape 'x' 2 c
  else if c.toNat < 65536 then hexEscape 'u' 4 c
  else hexEscape 'U' 8 c

/-- The representation of characters. -/
def reprText (text : List Char) : List Char :=
  quoteOf text :: closed (quoteOf text) (reprChar printable (quoteOf text)) text

def reprString (text : String) : List Char :=
  reprText printable text.toList

/-- Two strings with a text between them. -/
def reprJoined (between : List Char) (pair : String × String) : List Char :=
  reprString printable pair.1 ++ (between ++ reprString printable pair.2)

/-- The representation of a pair of strings. -/
def reprPair : String × String → List Char :=
  framed ['('] [')'] (reprJoined printable [',', ' '])

/-- The representation of a dictionary of strings. -/
def reprDict (entries : List (String × String)) : List Char :=
  '{' :: separated [',', ' '] '}' (reprJoined printable [':', ' ']) entries

def reprList {α : Type} (code : α → List Char) (items : List α) : List Char :=
  '[' :: separated [',', ' '] ']' code items

end

def boolText (value : Bool) : String :=
  if value then "True" else "False"

def optionText (value : Option String) : String :=
  value.getD "None"

def optionNumber (value : Option Int) : String :=
  optionText (value.map toString)

/-- The digits after the letter of an escaped number. -/
def hexWidth (letter : Char) : Option Nat :=
  if letter = 'x' then some 2
  else if letter = 'u' then some 4
  else if letter = 'U' then some 8
  else none

/-- The character for which a letter after a backslash stands. -/
def letterChar (letter : Char) : Char :=
  if letter = 't' then '\t'
  else if letter = 'n' then '\n'
  else if letter = 'r' then '\r'
  else letter

/-- Read one character between quotes. -/
def readChar : List Char → Option (Char × List Char)
  | '\\' :: letter :: rest =>
    match hexWidth letter with
    | some width => some (Char.ofNat (readHex 0 (rest.take width)), rest.drop width)
    | none => some (letterChar letter, rest)
  | c :: rest => some (c, rest)
  | [] => none

theorem length_hexDigits (width value : Nat) : (hexDigits width value).length = width := by
  induction width generalizing value with
  | zero => rfl
  | succ width inner => rw [hexDigits, length_append, inner, length_singleton]

theorem readHex_hexDigits {width value : Nat} (fits : value < 16 ^ width) :
    readHex 0 (hexDigits width value) = value := by
  induction width generalizing value with
  | zero =>
    rw [Nat.pow_zero, Nat.lt_one_iff] at fits
    rw [fits]
    rfl
  | succ width inner =>
    have high : value / 16 < 16 ^ width := by
      rw [Nat.div_lt_iff_lt_mul (by decide), ← Nat.pow_succ]
      exact fits
    have low := hexValue_hexDigit (value % 16) (Nat.mod_lt _ (by decide))
    rw [hexDigits, readHex, foldl_append]
    change [hexDigit (value % 16)].foldl _ (readHex 0 (hexDigits width (value / 16))) = value
    rw [inner high, foldl_cons, foldl_nil, low, Option.getD_some]
    exact Nat.div_add_mod value 16

variable {letter c : Char}

theorem readChar_hexEscape {width : Nat} (known : hexWidth letter = some width)
    (fits : c.toNat < 16 ^ width) (rest : List Char) :
    readChar (hexEscape letter width c ++ rest) = some (c, rest) := by
  change readChar ('\\' :: letter :: (hexDigits width c.toNat ++ rest)) = _
  simp only [readChar, known, take_left' (length_hexDigits _ _),
    drop_left' (length_hexDigits _ _), readHex_hexDigits fits, Char.ofNat_toNat]

theorem readChar_plain (plain : c ≠ '\\') (rest : List Char) :
    readChar (c :: rest) = some (c, rest) := by
  rw [readChar.eq_2]
  rintro letter after same
  exact absurd same plain

/-- A represented character is read back. -/
theorem readChar_reprChar (printable : Char → Bool) {quote : Char}
    (isQuote : quote = '"' ∨ quote = singleQuote) (c : Char) (rest : List Char) :
    readChar (reprChar printable quote c ++ rest) = some (c, rest) := by
  rw [reprChar]
  split
  case isTrue isEscaped =>
    rcases isEscaped with rfl | rfl
    · rcases isQuote with rfl | rfl <;> rfl
    · rfl
  case isFalse unescaped =>
    have plain := readChar_plain (not_or.mp unescaped).2 rest
    split
    case isTrue tab => rw [tab]; rfl
    split
    case isTrue newline => rw [newline]; rfl
    split
    case isTrue ret => rw [ret]; rfl
    split
    case isTrue control => exact readChar_hexEscape rfl (by omega) rest
    split
    case isTrue => exact plain
    split
    case isTrue short => exact readChar_hexEscape rfl (by omega) rest
    split
    case isTrue short => exact readChar_hexEscape rfl (by omega) rest
    case isFalse => exact readChar_hexEscape rfl c.val.toBitVec.isLt rest

theorem startsApart_reprChar (printable : Char → Bool) {quote : Char}
    (isQuote : quote = '"' ∨ quote = singleQuote) :
    StartsApart quote (reprChar printable quote) := by
  have backslash : '\\' ≠ quote := by rcases isQuote with rfl | rfl <;> decide
  intro c
  rw [reprChar]
  split
  case isTrue => exact ⟨_, _, rfl, backslash⟩
  case isFalse unescaped =>
    repeat' split
    all_goals first
      | exact ⟨_, _, rfl, backslash⟩
      | exact ⟨_, _, rfl, (not_or.mp unescaped).1⟩

/-- One of both quotes is chosen. -/
theorem quoteOf_cases (text : List Char) : quoteOf text = '"' ∨ quoteOf text = singleQuote := by
  rw [quoteOf]
  split
  · exact .inl rfl
  · exact .inr rfl

/-- It is seen where the representation of characters ends. -/
theorem reprText_delimited (printable : Char → Bool) : Delimited (reprText printable) := by
  intro first second rest others same
  rw [reprText, reprText, cons_append, cons_append] at same
  obtain ⟨quotes, sameText⟩ := List.cons.inj same
  rw [quotes] at sameText
  have isQuote := quoteOf_cases second
  exact (Delimited.of_read (readChar_reprChar printable isQuote)).closed
    (startsApart_reprChar printable isQuote) _ _ _ _ sameText

/-- It is seen where the representation of a string ends. -/
theorem reprString_delimited (printable : Char → Bool) : Delimited (reprString printable) :=
  (reprText_delimited printable).comp fun _ _ same => String.toList_injective same

variable {printable : Char → Bool}

/-- It is seen where two strings with a text between them end. -/
theorem reprJoined_delimited (between : List Char) : Delimited (reprJoined printable between) := by
  intro first second rest others same
  simp only [reprJoined, append_assoc] at same
  obtain ⟨firsts, behind⟩ := reprString_delimited _ _ _ _ _ same
  obtain ⟨seconds, rests⟩ := reprString_delimited _ _ _ _ _ (append_cancel_left behind)
  exact ⟨Prod.ext firsts seconds, rests⟩

theorem reprJoined_starts (between : List Char) :
    StartsApart '}' (reprJoined printable between) := by
  intro pair
  refine ⟨quoteOf pair.1.toList, _, rfl, ?_⟩
  rcases quoteOf_cases pair.1.toList with quote | quote <;> rw [quote] <;> decide

/-- It is seen where a pair ends. -/
theorem reprPair_delimited : Delimited (reprPair printable) :=
  (reprJoined_delimited _).framed _ _

/-- It is seen where a dictionary ends. -/
theorem reprDict_delimited : Delimited (reprDict printable) := by
  have entries := (@reprJoined_delimited printable [':', ' ']).separated (reprJoined_starts _)
    (by decide : ',' ≠ '}') [' ']
  exact fun first second rest others same => entries _ _ _ _ (List.cons.inj same).2

theorem reprList_injective {α : Type} {code : α → List Char} (delimited : Delimited code)
    (apart : StartsApart ']' code) : Function.Injective (reprList code) := by
  intro first second same
  exact (delimited.separated apart (by decide : ',' ≠ ']') [' ']).injective (List.cons.inj same).2

/-- Truth values have different texts. -/
theorem boolText_injective : Function.Injective boolText := by
  intro first second
  cases first <;> cases second <;> decide

theorem letter_not_mem_toString (number : Int) (notDigit : letter.isDigit = false)
    (notSign : letter ≠ '-') : letter ∉ (toString number).toList := by
  have digits (count : Nat) : letter ∉ (toString count).toList := by
    intro member
    rw [isDigit_of_mem_toString member] at notDigit
    cases notDigit
  cases number with
  | ofNat count => exact digits count
  | negSucc count =>
    have written : toString (Int.negSucc count) = "-" ++ toString (count + 1) := rfl
    rw [written, String.toList_append, mem_append, not_or]
    exact ⟨by simpa using notSign, digits (count + 1)⟩

/-- Numbers have different texts. -/
theorem intText_injective : Function.Injective (toString : Int → String) := by
  have signed (first second : Nat) : toString first ≠ "-" ++ toString (second + 1) := by
    intro same
    have sign : '-' ∈ (toString first).toList := by
      rw [same, String.toList_append]
      exact mem_append_left _ (by decide)
    have digit := isDigit_of_mem_toString sign
    exact absurd digit (by decide)
  intro first second same
  cases first with
  | ofNat first =>
    cases second with
    | ofNat second => rw [toString_injective same]
    | negSucc second => exact absurd same (signed first second)
  | negSucc first =>
  cases second with
  | ofNat second => exact absurd same.symm (signed second first)
  | negSucc second =>
    have counts : toString (first + 1) = toString (second + 1) :=
      (String.append_right_inj "-").mp same
    rw [Nat.succ.inj (toString_injective counts)]

/-- Numbers and `None` have different texts. -/
theorem optionNumber_injective : Function.Injective optionNumber := by
  have named (number : Int) : toString number ≠ "None" := by
    intro same
    apply letter_not_mem_toString number (by decide : Char.isDigit 'N' = false) (by decide)
    rw [same]
    decide
  intro first second same
  cases first with
  | none =>
    cases second with
    | none => rfl
    | some second => exact absurd same.symm (named second)
  | some first =>
    cases second with
    | none => exact absurd same (named first)
    | some second => rw [intText_injective same]

end Library.PythonText
