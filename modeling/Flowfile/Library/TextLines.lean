import Mathlib.Data.List.Basic

/-!
# Lines of a text

A text is split at line breaks, where a return and a newline together are one. Which characters
break a line depends: the lines of a file end with newlines and returns, those of `str.splitlines`
with more characters. What is written behind a newline does not change the lines before it.
-/

namespace Flowfile.Library.TextLines

open List

/-- A character of which `str.splitlines` breaks lines. -/
def isLineBreak (c : Char) : Bool :=
  (10 ≤ c.toNat && c.toNat ≤ 13) || (28 ≤ c.toNat && c.toNat ≤ 30) || c.toNat = 0x85 ||
    c.toNat = 0x2028 || c.toNat = 0x2029

/-- A character that ends a line of a file. -/
def isNewline (c : Char) : Bool :=
  c = '\n' || c = '\r'

def addToFirst (c : Char) : List (List Char) → List (List Char)
  | [] => [[c]]
  | line :: lines => (c :: line) :: lines

variable (breaks : Char → Bool)

/-- The lines of a text, without the breaks. A break at the end does not start a line. -/
def linesOf : List Char → List (List Char)
  | [] => []
  | '\r' :: '\n' :: rest => [] :: linesOf rest
  | c :: rest => if breaks c then [] :: linesOf rest else addToFirst c (linesOf rest)

/-- `str.splitlines`. -/
def splitLines (text : List Char) : List (List Char) :=
  linesOf isLineBreak text

/-- The number of lines of a file. -/
def lineCount (text : List Char) : Nat :=
  (linesOf isNewline text).length

/-- Every line that was begun is ended. -/
def Ended (text : List Char) : Prop :=
  text = [] ∨ ∃ lines, text = lines ++ ['\n']

variable {breaks} {c : Char} {rest : List Char}

/-- A character that breaks a line, and is not a return before a newline. -/
theorem linesOf_break (isBreak : breaks c = true) (alone : c = '\r' → rest.head? ≠ some '\n') :
    linesOf breaks (c :: rest) = [] :: linesOf breaks rest := by
  rw [linesOf.eq_def]
  split
  case h_1 same => cases same
  case h_2 later same =>
    obtain ⟨rfl, rfl⟩ := List.cons.inj same
    exact absurd rfl (alone rfl)
  case h_3 same =>
    obtain ⟨rfl, rfl⟩ := List.cons.inj same
    exact if_pos isBreak

/-- A character that does not break a line. -/
theorem linesOf_plain (plain : breaks c = false) (returns : breaks '\r' = true)
    (rest : List Char) : linesOf breaks (c :: rest) = addToFirst c (linesOf breaks rest) := by
  rw [linesOf.eq_def]
  split
  case h_1 same => cases same
  case h_2 later same =>
    obtain ⟨rfl, rfl⟩ := List.cons.inj same
    rw [returns] at plain
    cases plain
  case h_3 same =>
    obtain ⟨rfl, rfl⟩ := List.cons.inj same
    exact if_neg (by simp [plain])

theorem linesOf_line (returns : breaks '\r' = true) {line : List Char}
    (unbroken : ∀ c ∈ line, breaks c = false) (isBreak : breaks c = true)
    (alone : c = '\r' → rest.head? ≠ some '\n') :
    linesOf breaks (line ++ c :: rest) = line :: linesOf breaks rest := by
  induction line with
  | nil => exact linesOf_break isBreak alone
  | cons head others inner =>
    rw [cons_append, linesOf_plain (unbroken head mem_cons_self) returns,
      inner fun c mem => unbroken c (mem_cons_of_mem _ mem)]
    rfl

theorem linesOf_append (newlines : breaks '\n' = true) (returns : breaks '\r' = true)
    (first second : List Char) :
    linesOf breaks (first ++ '\n' :: second) =
      linesOf breaks (first ++ ['\n']) ++ linesOf breaks second := by
  have behind (text : List Char) : linesOf breaks ('\n' :: text) = [] :: linesOf breaks text :=
    linesOf_break newlines fun same => absurd same (by decide)
  fun_induction linesOf breaks first with
  | case1 => rw [nil_append, nil_append, behind, behind]; rfl
  | case2 rest inner =>
    simp only [cons_append, linesOf]
    rw [inner]
  | case3 c rest apart isBreak inner =>
    by_cases last : c = '\r' ∧ rest = []
    · obtain ⟨rfl, rfl⟩ := last
      simp only [cons_append, nil_append, linesOf]
    have alone (text : List Char) : c = '\r' → (rest ++ '\n' :: text).head? ≠ some '\n' := by
      rintro rfl
      cases rest with
      | nil => exact absurd ⟨rfl, rfl⟩ last
      | cons head others =>
        intro same
        cases same
        exact apart others rfl rfl
    rw [cons_append, cons_append, linesOf_break isBreak (alone second),
      linesOf_break isBreak (alone []), inner]
    rfl
  | case4 c rest apart plain inner =>
    have plain : breaks c = false := by simpa using plain
    rw [cons_append, cons_append, linesOf_plain plain returns, linesOf_plain plain returns, inner]
    cases started : linesOf breaks (rest ++ ['\n']) with
    | nil =>
      cases rest with
      | nil => rw [nil_append, behind] at started; cases started
      | cons head others =>
      have nonempty (text : List Char) (full : text ≠ []) : linesOf breaks text ≠ [] := by
        cases text with
        | nil => exact absurd rfl full
        | cons c rest =>
        rw [linesOf.eq_def]
        split
        case h_1 same => cases same
        case h_2 => exact cons_ne_nil _ _
        case h_3 =>
          split
          · exact cons_ne_nil _ _
          · cases linesOf breaks _ <;> exact cons_ne_nil _ _
      exact absurd started (nonempty _ (cons_ne_nil _ _))
    | cons line lines => rfl

/-- Lines that come behind ended ones. -/
theorem Ended.linesOf_append {text : List Char} (ended : Ended text)
    (newlines : breaks '\n' = true) (returns : breaks '\r' = true) (more : List Char) :
    linesOf breaks (text ++ more) = linesOf breaks text ++ linesOf breaks more := by
  obtain rfl | ⟨lines, rfl⟩ := ended
  · rfl
  · rw [append_assoc]
    exact TextLines.linesOf_append newlines returns lines more

theorem Ended.lineCount_line {text line : List Char} (ended : Ended text)
    (unbroken : ∀ c ∈ line, isNewline c = false) :
    lineCount (text ++ (line ++ ['\n'])) = lineCount text + 1 := by
  rw [lineCount, ended.linesOf_append rfl rfl, linesOf_line rfl unbroken rfl fun _ => by simp,
    length_append]
  rfl

end Flowfile.Library.TextLines
