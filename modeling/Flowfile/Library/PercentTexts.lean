import Mathlib.Data.List.DropRight
import Flowfile.Library.PythonText

/-!
# Percent-encoded texts

Letters stand for their UTF-8 bytes, and a percent sign with two hexadecimal digits for one byte.
Decoding never makes a text longer than its bytes, and gives exactly these when no sign starts an
escape. A text that was cut off cannot be decoded to the bytes of the whole.
-/

namespace Flowfile.Library.PercentTexts

open Library.PythonText List

def bytes (text : List Char) : List UInt8 := text.flatMap String.utf8EncodeChar

def escape (first high low : Char) : Option UInt8 :=
  if first = '%' then do
    let upper ← hexValue high
    let lower ← hexValue low
    some (UInt8.ofNat (16 * upper + lower))
  else none

def percentDecode : List Char → List UInt8
  | first :: high :: low :: rest =>
    match escape first high low with
    | some byte => byte :: percentDecode rest
    | none => String.utf8EncodeChar first ++ percentDecode (high :: low :: rest)
  | first :: rest => String.utf8EncodeChar first ++ percentDecode rest
  | [] => []

def hasEscape : List Char → Bool
  | first :: high :: low :: rest =>
    (escape first high low).isSome || hasEscape (high :: low :: rest)
  | _ => false

def isUnreserved (byte : Nat) : Bool :=
  (48 ≤ byte && byte ≤ 57) || (65 ≤ byte && byte ≤ 90) || (97 ≤ byte && byte ≤ 122) ||
    byte = 45 || byte = 46 || byte = 95 || byte = 126

def upperHexDigit (value : Nat) : Char := Char.ofNat (if value < 10 then 48 + value else 55 + value)

/-- One byte, as `quote_plus` writes it. -/
def quoteByte (byte : UInt8) : List Char :=
  if isUnreserved byte.toNat then [Char.ofNat byte.toNat]
  else if byte = 32 then ['+']
  else ['%', upperHexDigit (byte.toNat / 16), upperHexDigit (byte.toNat % 16)]

def quotePlus (text : List Char) : List Char := (bytes text).flatMap quoteByte

variable {text part whole : List Char}

@[simp] theorem bytes_cons (c : Char) (rest : List Char) :
    bytes (c :: rest) = String.utf8EncodeChar c ++ bytes rest := flatMap_cons

theorem length_pos (c : Char) : 0 < (String.utf8EncodeChar c).length :=
  length_pos_iff.mpr String.utf8EncodeChar_ne_nil

theorem percentDecode_spec (text : List Char) : (percentDecode text).length ≤ (bytes text).length ∧
      (hasEscape text = true → (percentDecode text).length < (bytes text).length) ∧
      (hasEscape text = false → percentDecode text = bytes text) := by
  fun_induction percentDecode text with
  | case1 first high low rest byte found ih =>
    have firstPos := length_pos first
    have highPos := length_pos high
    have lowPos := length_pos low
    simp only [bytes_cons, length_cons, length_append, hasEscape, found,
      Option.isSome_some, Bool.true_or, Bool.true_eq_false, false_implies, and_true]
    omega
  | case2 first high low rest missing ih =>
    simp only [hasEscape, missing, Option.isSome_none, Bool.false_or]
    rw [bytes_cons first, length_append, length_append]
    refine ⟨by omega, fun later => ?_, fun none => by rw [ih.2.2 none]⟩
    have shorter := ih.2.1 later
    omega
  | case3 first rest short ih =>
    have none : hasEscape (first :: rest) = false := by
      match rest, short with
      | [], _ => rfl
      | [_], _ => rfl
      | high :: low :: more, short => exact absurd rfl (short high low more)
    have restNone : hasEscape rest = false := by
      match rest, short with
      | [], _ => rfl
      | [_], _ => rfl
      | high :: low :: more, short => exact absurd rfl (short high low more)
    rw [none, bytes_cons, ih.2.2 restNone]
    simp
  | case4 => simp [bytes, hasEscape]

theorem percentDecode_eq_iff : percentDecode text = bytes text ↔ hasEscape text = false := by
  obtain ⟨_, shorter, same⟩ := percentDecode_spec text
  refine ⟨fun equal => ?_, same⟩
  by_contra escaped
  have less := shorter (by simpa using escaped)
  rw [equal] at less
  exact Nat.lt_irrefl _ less

theorem bytes_sublist (inside : part.Sublist whole) :
    (bytes part).length ≤ (bytes whole).length := by
  induction inside with
  | slnil => exact Nat.le_refl _
  | cons c _ ih =>
    rw [bytes_cons, length_append]
    omega
  | cons_cons c _ ih =>
    rw [bytes_cons, bytes_cons, length_append, length_append]
    omega

theorem eq_of_sublist (inside : part.Sublist whole)
    (long : (bytes whole).length ≤ (bytes part).length) : part = whole := by
  induction inside with
  | slnil => rfl
  | cons c inside ih =>
    have less := bytes_sublist inside
    have pos := length_pos c
    rw [bytes_cons, length_append] at long
    omega
  | cons_cons c inside ih =>
    rw [bytes_cons, bytes_cons, length_append, length_append] at long
    rw [ih (by omega)]

theorem prefix_of_decoded {read : List Char} (isText : text <+: whole) (isRead : read <+: whole)
    (same : percentDecode read = bytes text) : text <+: read := by
  obtain inside | inside := prefix_or_prefix_of_prefix isText isRead
  · exact inside
  · have long := (percentDecode_spec read).1
    rw [same] at long
    exact eq_of_sublist inside.sublist long ▸ prefix_refl _

theorem percentDecode_cons {c : Char} (plain : c ≠ '%') (rest : List Char) :
    percentDecode (c :: rest) = String.utf8EncodeChar c ++ percentDecode rest := by
  match rest with
  | [] => rfl
  | [_] => rfl
  | high :: low :: more => rw [percentDecode, escape, if_neg plain]

theorem quoteByte_decoded (byte : UInt8) (rest : List Char) :
    percentDecode (quoteByte byte ++ rest) =
      (if byte = 32 then 43 else byte) :: percentDecode rest := by
  have small := byte.toNat_lt
  have self : UInt8.ofNat byte.toNat = byte := UInt8.ofNat_toNat
  unfold quoteByte
  split
  case isTrue safe =>
    have facts : ∀ n < 256, isUnreserved n = true → Char.ofNat n ≠ '%' ∧ n ≠ 32 ∧
        String.utf8EncodeChar (Char.ofNat n) = [UInt8.ofNat n] := by decide +kernel
    obtain ⟨plain, noSpace, encoded⟩ := facts byte.toNat small safe
    rw [singleton_append, percentDecode_cons plain, encoded, self,
      if_neg fun space => noSpace (by rw [space]; rfl)]
    rfl
  case isFalse =>
    split
    case isTrue space =>
      rw [singleton_append, percentDecode_cons (by decide)]
      rfl
    case isFalse =>
      have digits : ∀ n < 16, hexValue (upperHexDigit n) = some n := by decide +kernel
      have high := digits (byte.toNat / 16) (by omega)
      have low := digits (byte.toNat % 16) (by omega)
      have whole : 16 * (byte.toNat / 16) + byte.toNat % 16 = byte.toNat := Nat.div_add_mod _ _
      have read : escape '%' (upperHexDigit (byte.toNat / 16)) (upperHexDigit (byte.toNat % 16)) =
          some byte := by
        rw [escape, if_pos rfl, high, low]
        exact congrArg some (by rw [whole, self])
      rw [cons_append, cons_append, cons_append, nil_append, percentDecode, read]

theorem space_mem_bytes : 32 ∈ bytes text ↔ ' ' ∈ text := by
  have each : ∀ c : Char, 32 ∈ String.utf8EncodeChar c ↔ ' ' = c := by
    intro c
    have self : ' ' = c ↔ c.val.toNat = 32 :=
      ⟨fun space => space ▸ rfl, fun value =>
        Char.toNat_inj.mp (show ' '.toNat = c.toNat from value.symm)⟩
    rw [self]
    fun_cases String.utf8EncodeChar c <;>
      simp only [mem_cons, not_mem_nil, or_false, ← UInt8.toNat_inj,
        UInt8.toNat_ofNat'] <;> simp only [UInt8.toNat_ofNat] <;> omega
  simp [bytes, mem_flatMap, each]

theorem quotePlus_decoded_iff : percentDecode (quotePlus text) = bytes text ↔ ' ' ∉ text := by
  have decoded : ∀ list : List UInt8, percentDecode (list.flatMap quoteByte) =
      list.map fun byte => if byte = 32 then 43 else byte := by
    intro list
    induction list with
    | nil => rfl
    | cons byte rest ih => rw [flatMap_cons, quoteByte_decoded, ih, map_cons]
  rw [quotePlus, decoded, ← space_mem_bytes]
  generalize bytes text = list
  induction list with
  | nil => simp
  | cons byte rest ih =>
    by_cases space : byte = 32
    · simp [space]
    · simp [space, ih, Ne.symm space]

theorem quotePlus_letters {c : Char} (mem : c ∈ quotePlus text) :
    c ≠ '/' ∧ c ≠ '?' ∧ c ≠ '#' ∧ c ≠ '@' ∧ c ≠ ':' := by
  obtain ⟨byte, _, inByte⟩ := mem_flatMap.mp mem
  have facts : ∀ n < 256, (quoteByte (UInt8.ofNat n)).all fun c =>
      c ≠ '/' ∧ c ≠ '?' ∧ c ≠ '#' ∧ c ≠ '@' ∧ c ≠ ':' := by decide +kernel
  rw [← UInt8.ofNat_toNat (x := byte)] at inByte
  exact of_decide_eq_true (all_eq_true.mp (facts byte.toNat byte.toNat_lt) c inByte)

end Flowfile.Library.PercentTexts
