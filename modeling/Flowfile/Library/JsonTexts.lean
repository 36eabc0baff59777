import Flowfile.Library.PythonText

/-!
# Reading JSON

What `json.loads` reads. Values other than texts, lists and objects are told apart only as far as
they end somewhere: nothing here looks at a number. A text that `json.dumps` writes is read back,
and a part of such a text is never an object with members, as all of its quotes are escaped.
-/

namespace Flowfile.Library.JsonTexts

open Library.PythonText List

inductive Json where
  | null
  | boolean (value : Bool)
  | number
  | text (value : List Char)
  | array (items : List Json)
  | object (members : List (List Char × Json))

/-- A space between values. -/
def isJsonSpace (c : Char) : Bool :=
  c = ' ' || c = '\t' || c = '\n' || c = '\r'

/-- Pass over spaces. -/
def skipSpace (text : List Char) : List Char :=
  text.dropWhile isJsonSpace

/-- The letters after a backslash, and the characters they stand for. A slash may be escaped. -/
def readEscapes : List (Char × Char) :=
  ('/', '/') :: escapes

/-- Put a character before what was read. -/
def readBefore (c : Char) (read : List Char × List Char) : List Char × List Char :=
  (c :: read.1, read.2)

/-- Read the characters behind an opening quote, up to the closing one. Control characters must be
escaped. Half of a surrogate pair is no character here. -/
def readText : List Char → Option (List Char × List Char)
  | [] => none
  | '"' :: rest => some ([], rest)
  | '\\' :: 'u' :: first :: second :: third :: fourth :: rest => do
    let high := 4096 * (← hexValue first) + 256 * (← hexValue second)
    let low := 16 * (← hexValue third) + (← hexValue fourth)
    if (high + low).isValidChar then (readText rest).map (readBefore (Char.ofNat (high + low)))
    else none
  | '\\' :: letter :: rest => do
    let entry ← readEscapes.find? fun entry => entry.1 = letter
    (readText rest).map (readBefore entry.2)
  | c :: rest =>
    if c = '\\' ∨ c.toNat < 32 then none else (readText rest).map (readBefore c)

/-- Pass over the fraction of a number, if there is one. -/
def skipFraction (text : List Char) : List Char :=
  match text with
  | '.' :: digit :: rest => if digit.isDigit then rest.dropWhile Char.isDigit else text
  | _ => text

/-- Pass over the exponent of a number, if there is one. -/
def skipExponent (text : List Char) : List Char :=
  match text with
  | mark :: rest =>
    if mark = 'e' ∨ mark = 'E' then
      match dropSign rest with
      | digit :: rest => if digit.isDigit then rest.dropWhile Char.isDigit else text
      | [] => text
    else text
  | [] => text

/-- Pass over a number. Only zero starts with a zero. -/
def skipNumber (text : List Char) : Option (List Char) :=
  match (if text.head? = some '-' then text.tail else text) with
  | digit :: rest =>
    if digit = '0' then some (skipExponent (skipFraction rest))
    else if digit.isDigit then some (skipExponent (skipFraction (rest.dropWhile Char.isDigit)))
    else none
  | [] => none

def words : List (List Char × Json) :=
  [(['n', 'u', 'l', 'l'], .null), (['t', 'r', 'u', 'e'], .boolean true),
    (['f', 'a', 'l', 's', 'e'], .boolean false), (['N', 'a', 'N'], .number),
    (['I', 'n', 'f', 'i', 'n', 'i', 't', 'y'], .number),
    (['-', 'I', 'n', 'f', 'i', 'n', 'i', 't', 'y'], .number)]

def readScalar (text : List Char) : Option (Json × List Char) :=
  match words.find? fun word => word.1.isPrefixOf text with
  | some word => some (word.2, text.drop word.1.length)
  | none => (skipNumber text).map (Json.number, ·)

mutual

def readValue : Nat → List Char → Option (Json × List Char)
  | 0, _ => none
  | fuel + 1, text =>
    match text with
    | '"' :: rest => (readText rest).map fun read => (.text read.1, read.2)
    | '{' :: rest =>
      match skipSpace rest with
      | '}' :: rest => some (.object [], rest)
      | '"' :: rest => (readMembers fuel rest).map fun read => (.object read.1, read.2)
      | _ => none
    | '[' :: rest =>
      match skipSpace rest with
      | ']' :: rest => some (.array [], rest)
      | rest => (readItems fuel rest).map fun read => (.array read.1, read.2)
    | _ => readScalar text

/-- Read the members of an object, from behind the quote of the first key. -/
def readMembers : Nat → List Char → Option (List (List Char × Json) × List Char)
  | 0, _ => none
  | fuel + 1, text => do
    let (key, rest) ← readText text
    match skipSpace rest with
    | ':' :: rest =>
      let (value, rest) ← readValue fuel (skipSpace rest)
      match skipSpace rest with
      | '}' :: rest => some ([(key, value)], rest)
      | ',' :: rest =>
        match skipSpace rest with
        | '"' :: rest =>
          (readMembers fuel rest).map fun read => ((key, value) :: read.1, read.2)
        | _ => none
      | _ => none
    | _ => none

def readItems : Nat → List Char → Option (List Json × List Char)
  | 0, _ => none
  | fuel + 1, text => do
    let (value, rest) ← readValue fuel text
    match skipSpace rest with
    | ']' :: rest => some ([value], rest)
    | ',' :: rest => (readItems fuel (skipSpace rest)).map fun read => (value :: read.1, read.2)
    | _ => none

end

def loads (text : List Char) : Option Json :=
  match readValue (text.length + 1) (skipSpace text) with
  | some (value, rest) => if (skipSpace rest).isEmpty then some value else none
  | none => none

def Json.textOf (key : List Char) : Json → Option (List Char)
  | .object members =>
    match members.reverse.find? (·.1 = key) with
    | some (_, .text value) => some value
    | _ => none
  | _ => none

/-- The characters of a text as `json.dumps` writes them between quotes. -/
def escaped (text : List Char) : List Char :=
  text.flatMap escapeChar

/-- A key and its text, from behind the quote of the key. -/
def writeMember (key value rest : List Char) : List Char :=
  escaped key ++ '"' :: ':' :: ' ' :: '"' :: (escaped value ++ '"' :: rest)

/-- Keys and their texts, from behind the quote of the first key. -/
def writeMembers (key value : List Char) : List (List Char × List Char) → List Char
  | [] => writeMember key value ['}']
  | (next, nextValue) :: others =>
    writeMember key value (',' :: ' ' :: '"' :: writeMembers next nextValue others)

/-- `json.dumps` of a dictionary of texts that is not empty. -/
def dumpsTexts (key value : List Char) (others : List (List Char × List Char)) : List Char :=
  '{' :: '"' :: writeMembers key value others

variable (c : Char) (text : List Char)

theorem escaped_cons : escaped (c :: text) = escapeChar c ++ escaped text :=
  flatMap_cons

/-- Parts of a text are escaped on their own. -/
theorem escaped_append (first second : List Char) :
    escaped (first ++ second) = escaped first ++ escaped second :=
  flatMap_append

theorem escapeChar_cases : (∃ rest, escapeChar c = '\\' :: rest) ∨
      escapeChar c = [c] ∧ 32 ≤ c.toNat ∧ c ≠ '"' ∧ c ≠ '\\' := by
  unfold escapeChar
  cases found : escapeLetter c with
  | some letter => exact .inl ⟨_, rfl⟩
  | none =>
  by_cases control : c.toNat < 32
  · exact .inl ⟨_, if_pos control⟩
  · have plain := escapeLetter_eq_none found
    simp only [escapes, map_cons, map_nil, mem_cons, not_or] at plain
    exact .inr ⟨if_neg control, Nat.le_of_not_lt control, plain.1, plain.2.1⟩

/-- A character is written as itself, or with printed characters of ASCII. -/
theorem mem_escapeChar {c letter : Char} (mem : letter ∈ escapeChar c) :
    letter = c ∧ 32 ≤ c.toNat ∨ 33 ≤ letter.toNat ∧ letter.toNat ≤ 126 := by
  rw [escapeChar] at mem
  split at mem
  case h_1 found =>
    right
    have among : escapes.all (fun entry => 33 ≤ entry.1.toNat && entry.1.toNat ≤ 126) = true := by
      decide
    simp only [all_eq_true, Bool.and_eq_true, decide_eq_true_eq] at among
    rcases mem_cons.mp mem with rfl | last
    · decide
    · rw [mem_singleton.mp last]
      exact among _ (escapeLetter_eq_some found)
  case h_2 =>
    split at mem
    case isTrue control =>
      right
      have printed : ∀ value < 16, 33 ≤ (hexDigit value).toNat ∧ (hexDigit value).toNat ≤ 126 := by
        decide +kernel
      simp only [mem_cons, not_mem_nil, or_false] at mem
      rcases mem with rfl | rfl | rfl | rfl | rfl | rfl
      · decide
      · decide
      · decide
      · decide
      · exact printed _ (by omega)
      · exact printed _ (by omega)
    case isFalse printed =>
      rw [mem_singleton] at mem
      exact .inl ⟨mem, Nat.le_of_not_lt printed⟩

/-- A character beyond ASCII is written as it is. -/
theorem escapeChar_of_large {c : Char} (large : 127 ≤ c.toNat) : escapeChar c = [c] := by
  have small : escapes.all (fun entry => entry.2.toNat < 127) = true := by decide
  simp only [all_eq_true, decide_eq_true_eq] at small
  rw [escapeChar]
  split
  case h_1 found =>
    have bound := small _ (escapeLetter_eq_some found)
    dsimp only at bound
    omega
  case h_2 => exact if_neg (by omega)

theorem readText_escapeChar (rest : List Char) :
    readText (escapeChar c ++ rest) = (readText rest).map (readBefore c) := by
  unfold escapeChar
  cases found : escapeLetter c with
  | some letter =>
    have mem := escapeLetter_eq_some found
    simp only [escapes, mem_cons, not_mem_nil, or_false, Prod.mk.injEq] at mem
    rcases mem with ⟨rfl, rfl⟩ | ⟨rfl, rfl⟩ | ⟨rfl, rfl⟩ | ⟨rfl, rfl⟩ | ⟨rfl, rfl⟩ | ⟨rfl, rfl⟩ |
      ⟨rfl, rfl⟩ <;> simp [readText, readEscapes, escapes]
  | none =>
  have unescaped := escapeLetter_eq_none found
  by_cases control : c.toNat < 32
  · have high := hexValue_hexDigit (c.toNat / 16) (by omega)
    have low := hexValue_hexDigit (c.toNat % 16) (by omega)
    have whole : 16 * (c.toNat / 16) + c.toNat % 16 = c.toNat := Nat.div_add_mod _ _
    have self : Char.ofNat c.toNat = c := Char.ofNat_toNat c
    have zero : hexValue '0' = some 0 := rfl
    have valid : c.toNat.isValidChar := .inl (by omega)
    simp [control, readText, high, low, whole, zero, valid]
  · simp only [escapes, map_cons, map_nil, mem_cons, not_mem_nil, or_false, not_or] at unescaped
    obtain ⟨quote, backslash, -⟩ := unescaped
    simp [control, readText, backslash]

theorem readText_escaped (rest : List Char) :
    readText (escaped text ++ '"' :: rest) = some (text, rest) := by
  induction text with
  | nil => rfl
  | cons c others inner =>
    rw [escaped_cons, append_assoc, readText_escapeChar, inner]
    rfl

theorem readText_unclosed : readText (escaped text) = none := by
  induction text with
  | nil => rfl
  | cons c others inner =>
    rw [escaped_cons, readText_escapeChar, inner]
    rfl

variable (fuel : Nat)

theorem readValue_text (rest : List Char) :
    readValue (fuel + 1) ('"' :: rest) = (readText rest).map fun read => (.text read.1, read.2) :=
  rfl

theorem readValue_object (fuel : Nat) (rest : List Char) :
    readValue (fuel + 1) ('{' :: '"' :: rest) =
      (readMembers fuel rest).map fun read => (.object read.1, read.2) :=
  rfl

theorem readMembers_text {fuel : Nat} {text key after : List Char}
    (read : readText text = some (key, ':' :: ' ' :: '"' :: after)) :
    readMembers (fuel + 2) text = (readText after).bind fun value =>
      match skipSpace value.2 with
      | '}' :: rest => some ([(key, .text value.1)], rest)
      | ',' :: rest =>
        match skipSpace rest with
        | '"' :: rest =>
          (readMembers (fuel + 1) rest).map fun read => ((key, .text value.1) :: read.1, read.2)
        | _ => none
      | _ => none := by
  have opening : skipSpace (':' :: ' ' :: '"' :: after) = ':' :: ' ' :: '"' :: after := rfl
  have quoted : skipSpace (' ' :: '"' :: after) = '"' :: after := rfl
  rw [readMembers.eq_def]
  simp only [bind, read, Option.bind_some, opening, quoted, readValue_text]
  cases readText after <;> rfl

theorem readMembers_last (key value : List Char) :
    readMembers (fuel + 2) (writeMember key value ['}']) = some ([(key, .text value)], []) := by
  rw [writeMember, readMembers_text (readText_escaped key _), readText_escaped]
  rfl

theorem readMembers_next (key value rest : List Char) :
    readMembers (fuel + 2) (writeMember key value (',' :: ' ' :: '"' :: rest)) =
      (readMembers (fuel + 1) rest).map fun read => ((key, .text value) :: read.1, read.2) := by
  rw [writeMember, readMembers_text (readText_escaped key _), readText_escaped]
  rfl

theorem readMembers_members (key value : List Char) (others : List (List Char × List Char)) :
    readMembers (fuel + others.length + 2) (writeMembers key value others) =
      some (((key, value) :: others).map fun mem => (mem.1, .text mem.2), []) := by
  induction others generalizing key value with
  | nil => exact readMembers_last fuel key value
  | cons next others inner =>
    rw [writeMembers, readMembers_next]
    exact congrArg (Option.map _) (inner next.1 next.2)

theorem length_writeMembers (key value : List Char) (others : List (List Char × List Char)) :
    others.length < (writeMembers key value others).length := by
  induction others generalizing key value with
  | nil =>
    simp only [writeMembers, writeMember, length_append, length_cons, length_nil]
    omega
  | cons next others inner =>
    have longer := inner next.1 next.2
    simp only [writeMembers, writeMember, length_append, length_cons]
    omega

/-- A written dictionary of texts is read back. -/
theorem loads_dumpsTexts (key value : List Char) (others : List (List Char × List Char)) :
    loads (dumpsTexts key value others) =
      some (.object (((key, value) :: others).map fun mem => (mem.1, .text mem.2))) := by
  have unspaced (text : List Char) : skipSpace ('{' :: text) = '{' :: text := rfl
  have enough := length_writeMembers key value others
  obtain ⟨fuel, long⟩ := Nat.exists_eq_add_of_le (Nat.succ_le_of_lt enough)
  have length : (dumpsTexts key value others).length = (fuel + 1 + others.length) + 2 := by
    simp only [dumpsTexts, length_cons, long]
    omega
  rw [loads, length, dumpsTexts, unspaced, readValue_object, readMembers_members]
  rfl

/-- A dictionary of texts that breaks off in its first text is not read. -/
theorem loads_unclosed (key value : List Char) :
    loads ('{' :: '"' :: (escaped key ++ '"' :: ':' :: ' ' :: '"' :: escaped value)) = none := by
  have unspaced (text : List Char) : skipSpace ('{' :: text) = '{' :: text := rfl
  rw [loads, unspaced, readValue_object, length_cons, length_cons,
    readMembers_text (readText_escaped key _), readText_unclosed]
  rfl

/-- The rest of a text that comes behind an escaped part: it starts neither with a quote or a brace
nor with a space. -/
def Follows (rest : List Char) : Prop :=
  ∀ c, rest.head? = some c → isJsonSpace c = false ∧ c ≠ '"' ∧ c ≠ '{'

/-- Nothing may come behind a part. -/
theorem follows_nil : Follows [] :=
  fun _ absent => nomatch absent

variable {rest : List Char}

/-- What is left of an escaped part behind its spaces. It does not start with a quote. -/
theorem skipSpace_escaped (follows : Follows rest) :
    ∃ others, skipSpace (escaped text ++ rest) = escaped others ++ rest ∧
      ∀ after, escaped others ++ rest ≠ '"' :: after := by
  induction text with
  | nil =>
    refine ⟨[], ?_, ?_⟩
    · cases rest with
      | nil => rfl
      | cons head tail => exact dropWhile_cons_of_neg (by simp [(follows head rfl).1])
    · rintro after same
      change rest = _ at same
      exact (follows '"' (by rw [same]; rfl)).2.1 rfl
  | cons c others inner =>
    rcases escapeChar_cases c with ⟨letters, starts⟩ | ⟨plain, printed, quote, _⟩
    · refine ⟨c :: others, ?_, ?_⟩
      · rw [escaped_cons, starts]
        exact dropWhile_cons_of_neg (by decide)
      · rw [escaped_cons, starts]
        intro after same
        exact absurd (List.cons.inj same).1 (by decide)
    · by_cases space : isJsonSpace c = true
      · obtain ⟨left, skipped, unquoted⟩ := inner
        refine ⟨left, ?_, unquoted⟩
        rw [escaped_cons, plain]
        exact (dropWhile_cons_of_pos space).trans skipped
      · refine ⟨c :: others, ?_, ?_⟩
        · rw [escaped_cons, plain]
          exact dropWhile_cons_of_neg space
        · rw [escaped_cons, plain]
          intro after same
          exact quote (List.cons.inj same).1

theorem readValue_members {fuel : Nat} {text rest : List Char} {members : List (List Char × Json)}
    (read : readValue fuel text = some (.object members, rest)) :
    members = [] ∨ ∃ inner after, text = '{' :: inner ∧ skipSpace inner = '"' :: after := by
  cases fuel with
  | zero =>
    rw [readValue] at read
    cases read
  | succ fuel =>
  rw [readValue.eq_def] at read
  dsimp only at read
  split at read
  case h_1 inner =>
    obtain ⟨_, _, same⟩ := Option.map_eq_some_iff.mp read
    cases (Prod.mk.inj same).1
  case h_2 inner =>
    split at read
    case h_1 =>
      left
      exact (Json.object.inj (Prod.mk.inj (Option.some.inj read)).1).symm
    case h_2 after starts => exact .inr ⟨inner, after, rfl, starts⟩
    case h_3 => cases read
  case h_3 inner =>
    split at read
    case h_1 => cases (Prod.mk.inj (Option.some.inj read)).1
    case h_2 =>
      obtain ⟨_, _, same⟩ := Option.map_eq_some_iff.mp read
      cases (Prod.mk.inj same).1
  case h_4 =>
    exfalso
    rw [readScalar] at read
    split at read
    case h_1 word found =>
      have among := mem_of_find?_eq_some found
      simp only [words, mem_cons, not_mem_nil, or_false] at among
      rcases among with rfl | rfl | rfl | rfl | rfl | rfl <;>
        cases (Prod.mk.inj (Option.some.inj read)).1
    case h_2 =>
      obtain ⟨_, _, same⟩ := Option.map_eq_some_iff.mp read
      cases (Prod.mk.inj same).1

theorem loads_part (follows : Follows rest)
    (key : List Char) {value : Json} (read : loads (escaped text ++ rest) = some value) :
    value.textOf key = none := by
  rw [loads] at read
  split at read
  case h_1 found after parsed =>
    split at read
    case isTrue =>
      cases read
      cases value with
      | object members =>
        obtain rfl | ⟨inner, behind, starts, quoted⟩ := readValue_members parsed
        · rfl
        exfalso
        obtain ⟨others, skipped, _⟩ := skipSpace_escaped text follows
        rw [skipped] at starts
        cases others with
        | nil => exact (follows '{' (by rw [show rest = _ from starts]; rfl)).2.2 rfl
        | cons c later =>
        rw [escaped_cons] at starts
        rcases escapeChar_cases c with ⟨letters, escapes⟩ | ⟨plain, _⟩
        · rw [escapes] at starts
          exact absurd (List.cons.inj starts).1 (by decide)
        rw [plain] at starts
        obtain ⟨left, again, unquoted⟩ := skipSpace_escaped later follows
        have behindBrace : escaped later ++ rest = inner := (List.cons.inj starts).2
        rw [← behindBrace, again] at quoted
        exact unquoted _ quoted
      | _ => rfl
    case isFalse => cases read
  case h_2 => cases read

end Flowfile.Library.JsonTexts
