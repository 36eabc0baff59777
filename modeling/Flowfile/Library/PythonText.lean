import Mathlib.Data.List.Basic
import Mathlib.Data.Rat.Defs

/-!
# Texts and literals of Python

The functions of Python's strings that look at the characters of a text, the syntax `float` accepts,
and the string literals `json.dumps` writes. A literal is read back by the grammar of Python's
string and number literals, so that a text written by `json.dumps` always denotes itself.

The tables of characters are those of Unicode 14, which Python 3.11 has.
-/

namespace Library.PythonText

open List

/-- The first of the ten digits of each script that has decimal digits. -/
def decimalZeros : List Nat :=
  [0x30, 0x660, 0x6f0, 0x7c0, 0x966, 0x9e6, 0xa66, 0xae6, 0xb66, 0xbe6, 0xc66, 0xce6, 0xd66, 0xde6,
  0xe50, 0xed0, 0xf20, 0x1040, 0x1090, 0x17e0, 0x1810, 0x1946, 0x19d0, 0x1a80, 0x1a90, 0x1b50,
  0x1bb0, 0x1c40, 0x1c50, 0xa620, 0xa8d0, 0xa900, 0xa9d0, 0xa9f0, 0xaa50, 0xabf0, 0xff10, 0x104a0,
  0x10d30, 0x11066, 0x110f0, 0x11136, 0x111d0, 0x112f0, 0x11450, 0x114d0, 0x11650, 0x116c0, 0x11730,
  0x118e0, 0x11950, 0x11c50, 0x11d50, 0x11da0, 0x16a60, 0x16ac0, 0x16b50, 0x1d7ce, 0x1d7d8, 0x1d7e2,
  0x1d7ec, 0x1d7f6, 0x1e140, 0x1e2f0, 0x1e950, 0x1fbf0]

/-- The ranges of the numeric characters that are no decimal digits. -/
def otherNumerics : List (Nat × Nat) :=
  [(0xb2, 0xb3), (0xb9, 0xb9), (0xbc, 0xbe), (0x9f4, 0x9f9), (0xb72, 0xb77), (0xbf0, 0xbf2),
  (0xc78, 0xc7e), (0xd58, 0xd5e), (0xd70, 0xd78), (0xf2a, 0xf33), (0x1369, 0x137c),
  (0x16ee, 0x16f0), (0x17f0, 0x17f9), (0x19da, 0x19da), (0x2070, 0x2070), (0x2074, 0x2079),
  (0x2080, 0x2089), (0x2150, 0x2182), (0x2185, 0x2189), (0x2460, 0x249b), (0x24ea, 0x24ff),
  (0x2776, 0x2793), (0x2cfd, 0x2cfd), (0x3007, 0x3007), (0x3021, 0x3029), (0x3038, 0x303a),
  (0x3192, 0x3195), (0x3220, 0x3229), (0x3248, 0x324f), (0x3251, 0x325f), (0x3280, 0x3289),
  (0x32b1, 0x32bf), (0x3405, 0x3405), (0x3483, 0x3483), (0x382a, 0x382a), (0x3b4d, 0x3b4d),
  (0x4e00, 0x4e00), (0x4e03, 0x4e03), (0x4e07, 0x4e07), (0x4e09, 0x4e09), (0x4e5d, 0x4e5d),
  (0x4e8c, 0x4e8c), (0x4e94, 0x4e94), (0x4e96, 0x4e96), (0x4ebf, 0x4ec0), (0x4edf, 0x4edf),
  (0x4ee8, 0x4ee8), (0x4f0d, 0x4f0d), (0x4f70, 0x4f70), (0x5104, 0x5104), (0x5146, 0x5146),
  (0x5169, 0x5169), (0x516b, 0x516b), (0x516d, 0x516d), (0x5341, 0x5341), (0x5343, 0x5345),
  (0x534c, 0x534c), (0x53c1, 0x53c4), (0x56db, 0x56db), (0x58f1, 0x58f1), (0x58f9, 0x58f9),
  (0x5e7a, 0x5e7a), (0x5efe, 0x5eff), (0x5f0c, 0x5f0e), (0x5f10, 0x5f10), (0x62fe, 0x62fe),
  (0x634c, 0x634c), (0x67d2, 0x67d2), (0x6f06, 0x6f06), (0x7396, 0x7396), (0x767e, 0x767e),
  (0x8086, 0x8086), (0x842c, 0x842c), (0x8cae, 0x8cae), (0x8cb3, 0x8cb3), (0x8d30, 0x8d30),
  (0x9621, 0x9621), (0x9646, 0x9646), (0x964c, 0x964c), (0x9678, 0x9678), (0x96f6, 0x96f6),
  (0xa6e6, 0xa6ef), (0xa830, 0xa835), (0xf96b, 0xf96b), (0xf973, 0xf973), (0xf978, 0xf978),
  (0xf9b2, 0xf9b2), (0xf9d1, 0xf9d1), (0xf9d3, 0xf9d3), (0xf9fd, 0xf9fd), (0x10107, 0x10133),
  (0x10140, 0x10178), (0x1018a, 0x1018b), (0x102e1, 0x102fb), (0x10320, 0x10323),
  (0x10341, 0x10341), (0x1034a, 0x1034a), (0x103d1, 0x103d5), (0x10858, 0x1085f),
  (0x10879, 0x1087f), (0x108a7, 0x108af), (0x108fb, 0x108ff), (0x10916, 0x1091b),
  (0x109bc, 0x109bd), (0x109c0, 0x109cf), (0x109d2, 0x109ff), (0x10a40, 0x10a48),
  (0x10a7d, 0x10a7e), (0x10a9d, 0x10a9f), (0x10aeb, 0x10aef), (0x10b58, 0x10b5f),
  (0x10b78, 0x10b7f), (0x10ba9, 0x10baf), (0x10cfa, 0x10cff), (0x10e60, 0x10e7e),
  (0x10f1d, 0x10f26), (0x10f51, 0x10f54), (0x10fc5, 0x10fcb), (0x11052, 0x11065),
  (0x111e1, 0x111f4), (0x1173a, 0x1173b), (0x118ea, 0x118f2), (0x11c5a, 0x11c6c),
  (0x11fc0, 0x11fd4), (0x12400, 0x1246e), (0x16b5b, 0x16b61), (0x16e80, 0x16e96),
  (0x1d2e0, 0x1d2f3), (0x1d360, 0x1d378), (0x1e8c7, 0x1e8cf), (0x1ec71, 0x1ecab),
  (0x1ecad, 0x1ecaf), (0x1ecb1, 0x1ecb4), (0x1ed01, 0x1ed2d), (0x1ed2f, 0x1ed3d),
  (0x1f100, 0x1f10c), (0x20001, 0x20001), (0x20064, 0x20064), (0x200e2, 0x200e2),
  (0x20121, 0x20121), (0x2092a, 0x2092a), (0x20983, 0x20983), (0x2098c, 0x2098c),
  (0x2099c, 0x2099c), (0x20aea, 0x20aea), (0x20afd, 0x20afd), (0x20b19, 0x20b19),
  (0x22390, 0x22390), (0x22998, 0x22998), (0x23b1b, 0x23b1b), (0x2626d, 0x2626d),
  (0x2f890, 0x2f890)]

variable (c : Char)

/-- The value of a decimal digit of any script. -/
def decimal : Option Nat :=
  (decimalZeros.find? fun start => start ≤ c.toNat && c.toNat < start + 10).map (c.toNat - ·)

/-- A character of `str.isnumeric`. -/
def isNumericChar : Bool :=
  (decimal c).isSome || otherNumerics.any fun range => range.1 ≤ c.toNat && c.toNat ≤ range.2

/-- `str.isnumeric`: there are characters, and all of them are numeric. -/
def isNumeric (text : List Char) : Bool :=
  !text.isEmpty && text.all isNumericChar

/-- A character of `str.isspace`. -/
def isSpace : Bool :=
  (9 ≤ c.toNat && c.toNat ≤ 13) || (28 ≤ c.toNat && c.toNat ≤ 32) || c.toNat = 0x85 ||
    c.toNat = 0xa0 || c.toNat = 0x1680 || (0x2000 ≤ c.toNat && c.toNat ≤ 0x200a) ||
    c.toNat = 0x2028 || c.toNat = 0x2029 || c.toNat = 0x202f || c.toNat = 0x205f ||
    c.toNat = 0x3000

/-- Remove the characters of a kind at both ends of a text. -/
def stripWhere (drop : Char → Bool) (text : List Char) : List Char :=
  ((text.dropWhile drop).reverse.dropWhile drop).reverse

variable (text : String)

def strip : String :=
  .ofList (stripWhere isSpace text.toList)

def splitCommas : List String :=
  (text.toList.splitOn ',').map .ofList

/-- `float` turns other spaces and digits into those of ASCII before it reads a text. -/
def asciiOf : Char :=
  if c.toNat < 127 then c
  else if isSpace c then ' '
  else match decimal c with
    | some digit => Char.ofNat (48 + digit)
    | none => '?'

/-- The spaces of C, which may stand around the number. -/
def isCSpace : Bool :=
  (9 ≤ c.toNat && c.toNat ≤ 13) || c.toNat = 32

/-- Drop the underscores of a number; each must stand between two digits. -/
def dropUnderscores (previous : Char) : List Char → Option (List Char)
  | [] => if previous = '_' then none else some []
  | c :: rest =>
    if c = '_' then
      if previous.isDigit then dropUnderscores c rest else none
    else if previous = '_' && !c.isDigit then none
    else (dropUnderscores c rest).map (c :: ·)

def dropSign : List Char → List Char
  | '+' :: rest => rest
  | '-' :: rest => rest
  | text => text

def areDigits (text : List Char) : Bool :=
  !text.isEmpty && text.all Char.isDigit

def isExponent : List Char → Bool
  | [] => true
  | mark :: rest => (mark = 'e' || mark = 'E') && areDigits (dropSign rest)

/-- Digits with at most one point among them, and perhaps an exponent. -/
def isDecimalFloat (text : List Char) : Bool :=
  let whole := text.takeWhile Char.isDigit
  match text.dropWhile Char.isDigit with
  | '.' :: rest =>
    !(whole ++ rest.takeWhile Char.isDigit).isEmpty && isExponent (rest.dropWhile Char.isDigit)
  | rest => !whole.isEmpty && isExponent rest

def parsesAsFloat : Bool :=
  match dropUnderscores '\x00' (stripWhere isCSpace (text.toList.map asciiOf)) with
  | none => false
  | some number =>
    let magnitude := dropSign number
    isDecimalFloat magnitude ||
      ["inf".toList, "infinity".toList, "nan".toList].contains (magnitude.map Char.toLower)

/-- The value of a literal. Whole numbers and numbers with a point are of different types. -/
inductive Literal where
  | text (value : String)
  | integer (value : Int)
  | float (value : ℚ)
  | boolean (value : Bool)
  deriving DecidableEq

/-- The digit of a number below sixteen. -/
def hexDigit (value : Nat) : Char :=
  if value < 10 then Char.ofNat (48 + value) else Char.ofNat (87 + value)

def hexValue : Option Nat :=
  if c.isDigit then some (c.toNat - 48)
  else if 97 ≤ c.toNat && c.toNat ≤ 102 then some (c.toNat - 87)
  else if 65 ≤ c.toNat && c.toNat ≤ 70 then some (c.toNat - 55)
  else none

/-- The letters after a backslash, and the characters they stand for. -/
def escapes : List (Char × Char) :=
  [('"', '"'), ('\\', '\\'), ('n', '\n'), ('r', '\r'), ('t', '\t'), ('f', Char.ofNat 12),
    ('b', Char.ofNat 8)]

/-- The letter that stands for a character after a backslash. -/
def escapeLetter : Option Char :=
  (escapes.find? fun entry => entry.2 = c).map Prod.fst

/-- A character between the quotes of a text that `json.dumps` writes. -/
def escapeChar : List Char :=
  match escapeLetter c with
  | some letter => ['\\', letter]
  | none =>
    if c.toNat < 32 then
      ['\\', 'u', '0', '0', hexDigit (c.toNat / 16), hexDigit (c.toNat % 16)]
    else [c]

/-- `json.dumps` of a string, with characters beyond ASCII left as they are. -/
def jsonDumps : String :=
  .ofList ('"' :: (text.toList.flatMap escapeChar ++ ['"']))

/-- The characters of a string literal, from behind its opening quote. -/
def readQuoted : List Char → Option (List Char)
  | [] => none
  | '"' :: rest => if rest.isEmpty then some [] else none
  | '\\' :: 'u' :: first :: second :: third :: fourth :: rest => do
    let high := 4096 * (← hexValue first) + 256 * (← hexValue second)
    let low := 16 * (← hexValue third) + (← hexValue fourth)
    return Char.ofNat (high + low) :: (← readQuoted rest)
  | '\\' :: letter :: rest => do
    let entry ← escapes.find? fun entry => entry.1 = letter
    return entry.2 :: (← readQuoted rest)
  | c :: rest => if c = '\\' || c = '\n' || c = '\r' then none else (readQuoted rest).map (c :: ·)

/-- The number a string of digits spells. -/
def digitsValue (digits : List Char) : Int :=
  digits.foldl (fun value c => 10 * value + (c.toNat - 48 : Nat)) 0

/-- The digits Python converts to a whole number, at most. -/
def maxIntegerDigits : Nat := 4300

/-- A number literal without a sign: digits without a leading zero, or digits around a point. -/
def readUnsigned (text : List Char) : Option Literal :=
  match text.splitOn '.' with
  | [whole] =>
    if areDigits whole && whole.length ≤ maxIntegerDigits &&
        (whole.head? != some '0' || whole.all (· = '0')) then
      some (.integer (digitsValue whole))
    else none
  | [whole, fraction] =>
    if areDigits (whole ++ fraction) then
      some (.float (digitsValue (whole ++ fraction) / 10 ^ fraction.length))
    else none
  | _ => none

def Literal.negate : Literal → Literal
  | .integer value => .integer (-value)
  | .float value => .float (-value)
  | literal => literal

def readNumber : List Char → Option Literal
  | '-' :: rest => (readUnsigned rest).map Literal.negate
  | text => readUnsigned text

def readLiteral : Option Literal :=
  if text = "True" then some (.boolean true)
  else if text = "False" then some (.boolean false)
  else match text.toList with
    | '"' :: rest => (readQuoted rest).map fun value => .text (.ofList value)
    | characters => readNumber characters

theorem escapeLetter_eq_some {c letter : Char} (found : escapeLetter c = some letter) :
    (letter, c) ∈ escapes := by
  obtain ⟨entry, search, rfl⟩ := Option.map_eq_some_iff.mp found
  have named : entry.2 = c := by simpa using List.find?_some search
  exact named ▸ mem_of_find?_eq_some search

theorem escapeLetter_eq_none {c : Char} (missing : escapeLetter c = none) :
    c ∉ escapes.map Prod.snd := by
  intro mem
  obtain ⟨entry, among, rfl⟩ := mem_map.mp mem
  simp only [escapeLetter, Option.map_eq_none_iff, List.find?_eq_none] at missing
  simpa using missing entry among

theorem hexValue_hexDigit : ∀ value < 16, hexValue (hexDigit value) = some value := by
  decide +kernel

theorem readQuoted_escapeChar (rest : List Char) :
    readQuoted (escapeChar c ++ rest) = (readQuoted rest).map (c :: ·) := by
  unfold escapeChar
  cases found : escapeLetter c with
  | some letter =>
    have mem := escapeLetter_eq_some found
    simp only [escapes, mem_cons, not_mem_nil, or_false, Prod.mk.injEq] at mem
    rcases mem with ⟨rfl, rfl⟩ | ⟨rfl, rfl⟩ | ⟨rfl, rfl⟩ | ⟨rfl, rfl⟩ | ⟨rfl, rfl⟩ | ⟨rfl, rfl⟩ |
      ⟨rfl, rfl⟩ <;> simp [readQuoted, escapes, Option.map_eq_bind, Function.comp_def]
  | none =>
  have unescaped := escapeLetter_eq_none found
  by_cases control : c.toNat < 32
  · have high := hexValue_hexDigit (c.toNat / 16) (by omega)
    have low := hexValue_hexDigit (c.toNat % 16) (by omega)
    have whole : 16 * (c.toNat / 16) + c.toNat % 16 = c.toNat := Nat.div_add_mod _ _
    have self : Char.ofNat c.toNat = c := Char.ofNat_toNat c
    have zero : hexValue '0' = some 0 := rfl
    simp [control, readQuoted, high, low, whole, zero, Option.map_eq_bind, Function.comp_def]
  · simp only [escapes, map_cons, map_nil, mem_cons, not_mem_nil, or_false, not_or] at unescaped
    obtain ⟨quote, backslash, newline, ret, -⟩ := unescaped
    simp [control, readQuoted, backslash, newline, ret]

theorem readQuoted_escaped (text : List Char) :
    readQuoted (text.flatMap escapeChar ++ ['"']) = some text := by
  induction text with
  | nil => rfl
  | cons c rest ih => simp [readQuoted_escapeChar, ih]

theorem readLiteral_jsonDumps : readLiteral (jsonDumps text) = some (.text text) := by
  have opening : (jsonDumps text).toList = '"' :: (text.toList.flatMap escapeChar ++ ['"']) :=
    String.toList_ofList
  have notTrue : jsonDumps text ≠ "True" := fun same => by
    rw [same] at opening
    exact absurd (List.cons.inj opening).1 (by decide)
  have notFalse : jsonDumps text ≠ "False" := fun same => by
    rw [same] at opening
    exact absurd (List.cons.inj opening).1 (by decide)
  simp [readLiteral, notTrue, notFalse, opening, readQuoted_escaped]

theorem readNumber_ne_text (characters : List Char) (value : String) :
    readNumber characters ≠ some (.text value) := by
  have unsigned : ∀ characters literal, readUnsigned characters = some literal →
      (∃ value, literal = .integer value) ∨ ∃ value, literal = .float value := by
    intro characters literal
    unfold readUnsigned
    split
    · split
      · rintro ⟨⟩
        exact .inl ⟨_, rfl⟩
      · rintro ⟨⟩
    · split
      · rintro ⟨⟩
        exact .inr ⟨_, rfl⟩
      · rintro ⟨⟩
    · rintro ⟨⟩
  unfold readNumber
  split
  · intro read
    obtain ⟨literal, plain, negated⟩ := Option.map_eq_some_iff.mp read
    obtain ⟨number, rfl⟩ | ⟨number, rfl⟩ := unsigned _ _ plain <;> cases negated
  · intro read
    obtain ⟨number, same⟩ | ⟨number, same⟩ := unsigned _ _ read <;> cases same

theorem readLiteral_of_characters {text : String} (unquoted : '"' ∉ text.toList)
    (notTrue : 'T' ∉ text.toList) (notFalse : 'F' ∉ text.toList) :
    readLiteral text = readNumber text.toList := by
  have true_ne : text ≠ "True" := fun same => notTrue (same ▸ by decide)
  have false_ne : text ≠ "False" := fun same => notFalse (same ▸ by decide)
  simp only [readLiteral, if_neg true_ne, if_neg false_ne]
  split
  · rename_i rest characters
    exact absurd (characters ▸ mem_cons_self) unquoted
  · rfl

end Library.PythonText
