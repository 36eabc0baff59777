import Flowfile.Library.Dictionaries
import Mathlib.Data.List.Infix

/-!
# References to parameters

A text refers to a parameter by its name in braces behind a dollar sign. A name is of letters,
digits and underscores and starts with no digit. Texts are read from the left: where a reference
starts it is taken whole, everything else is taken as it is.
-/

namespace Flowfile.Parameters

open Library.Dictionaries List

abbrev Params := Dictionary String String

def isNameStart (c : Char) : Bool :=
  c.isAlpha || c = '_'

def isNamePart (c : Char) : Bool :=
  c.isAlphanum || c = '_'

/-- A character that stands for itself, or a reference. -/
inductive Piece where
  | text (c : Char)
  | reference (name : List Char)
deriving DecidableEq

def Piece.source : Piece → List Char
  | .text c => [c]
  | .reference name => '$' :: '\x7b' :: (name ++ ['\x7d'])

def readReference : List Char → Option (List Char × List Char)
  | '$' :: '\x7b' :: first :: rest =>
    if isNameStart first then
      match rest.dropWhile isNamePart with
      | '\x7d' :: behind => some (first :: rest.takeWhile isNamePart, behind)
      | _ => none
    else none
  | _ => none

def pieces : Nat → List Char → List Piece
  | 0, _ => []
  | _ + 1, [] => []
  | fuel + 1, c :: rest =>
    match readReference (c :: rest) with
    | some (name, behind) => .reference name :: pieces fuel behind
    | none => .text c :: pieces fuel rest

variable (text : String)

def piecesOf : List Piece :=
  pieces text.toList.length text.toList

def Piece.refersTo : Piece → Option String
  | .text _ => none
  | .reference name => some (String.ofList name)

def referencesOf : List String :=
  (piecesOf text).filterMap Piece.refersTo

def Piece.resolve (params : Params) : Piece → List Char
  | .text c => [c]
  | .reference name =>
    match params.get (String.ofList name) with
    | some value => value.toList
    | none => (Piece.reference name).source

def containsOpening : Bool :=
  decide (['$', '\x7b'] <:+: text.toList)

/-- Put in the values of the parameters. References to others are left. -/
def resolveParameters (params : Params) : String :=
  if params.entries.isEmpty || !containsOpening text then text
  else String.ofList ((piecesOf text).flatMap (Piece.resolve params))

variable {chars name behind : List Char}

theorem readReference_some (read : readReference chars = some (name, behind)) :
    chars = (Piece.reference name).source ++ behind := by
  unfold readReference at read
  split at read
  case h_1 first rest =>
    split at read
    · split at read
      case h_1 after found =>
        obtain ⟨rfl, rfl⟩ := Prod.mk.inj (Option.some.inj read)
        have parts := takeWhile_append_dropWhile (p := isNamePart) (l := rest)
        rw [found] at parts
        simp [Piece.source, parts]
      · cases read
    · cases read
  · cases read

theorem pieces_source {fuel : Nat} (enough : chars.length ≤ fuel) :
    (pieces fuel chars).flatMap Piece.source = chars := by
  induction fuel generalizing chars with
  | zero =>
    rw [eq_nil_of_length_eq_zero (Nat.eq_zero_of_le_zero enough)]
    rfl
  | succ fuel ih =>
    cases chars with
    | nil => rfl
    | cons c rest =>
    rw [pieces]
    cases read : readReference (c :: rest) with
    | none =>
      rw [flatMap_cons, ih (Nat.le_of_succ_le_succ enough)]
      rfl
    | some found =>
    obtain ⟨name, behind⟩ := found
    have source := readReference_some read
    have shorter := congrArg List.length source
    simp only [Piece.source, length_append, length_cons] at shorter enough
    rw [flatMap_cons, ih (by omega)]
    exact source.symm

theorem piecesOf_source : (piecesOf text).flatMap Piece.source = text.toList :=
  pieces_source (Nat.le_refl _)

theorem resolveParameters_of_none {text : String} (none : referencesOf text = [])
    (params : Params) : resolveParameters text params = text := by
  rw [resolveParameters]
  split
  · rfl
  · have same : (piecesOf text).flatMap (Piece.resolve params) =
        (piecesOf text).flatMap Piece.source := by
      refine flatMap_congr fun piece mem => ?_
      cases piece with
      | text c => rfl
      | reference name => cases filterMap_eq_nil_iff.mp none _ mem
    rw [same, piecesOf_source, String.ofList_toList]

theorem readReference_name
    (read : readReference chars = some (name, behind)) : ∀ c ∈ name, isNamePart c = true := by
  unfold readReference at read
  split at read
  case h_1 first rest =>
    split at read
    case isTrue starts =>
      split at read
      case h_1 after found =>
        obtain ⟨rfl, -⟩ := Prod.mk.inj (Option.some.inj read)
        intro c mem
        rcases mem_cons.mp mem with rfl | mem
        · rw [isNamePart, Char.isAlphanum, Bool.or_right_comm, Bool.or_eq_true]
          exact .inl starts
        · exact all_eq_true.mp all_takeWhile c mem
      · cases read
    · cases read
  · cases read

theorem name_of_reference {fuel : Nat}
    (mem : Piece.reference name ∈ pieces fuel chars) : ∀ c ∈ name, isNamePart c = true := by
  induction fuel generalizing chars with
  | zero => cases mem
  | succ fuel ih =>
    cases chars with
    | nil => cases mem
    | cons c rest =>
    rw [pieces] at mem
    split at mem
    case h_1 read =>
      rcases mem_cons.mp mem with here | later
      · exact Piece.reference.inj here ▸ readReference_name read
      · exact ih later
    case h_2 =>
      rcases mem_cons.mp mem with here | later
      · cases here
      · exact ih later

theorem containsOpening_of_mem {text : String}
    (mem : Piece.reference name ∈ piecesOf text) : containsOpening text = true := by
  obtain ⟨front, back, split⟩ := append_of_mem mem
  have source := piecesOf_source text
  rw [split, flatMap_append, flatMap_cons] at source
  refine decide_eq_true
    ⟨front.flatMap Piece.source, name ++ ['\x7d'] ++ back.flatMap Piece.source, ?_⟩
  rw [← source, Piece.source]
  simp only [append_assoc, cons_append, nil_append]

theorem toList_resolveParameters (params : Params) :
    (resolveParameters text params).toList = (piecesOf text).flatMap (Piece.resolve params) := by
  have unchanged (same : ∀ piece ∈ piecesOf text, piece.resolve params = piece.source) :
      text.toList = (piecesOf text).flatMap (Piece.resolve params) := by
    rw [flatMap_congr same, piecesOf_source]
  rw [resolveParameters]
  split
  case isTrue early =>
    refine unchanged fun piece mem => ?_
    cases piece with
    | text c => rfl
    | reference name =>
    rw [containsOpening_of_mem mem, Bool.not_true, Bool.or_false, List.isEmpty_iff] at early
    have missing : params.get (String.ofList name) = none := by
      rw [Dictionary.get, early]
      rfl
    rw [Piece.resolve, missing]
  case isFalse => exact String.toList_ofList

end Flowfile.Parameters
