/-!
# Base64

Three bytes are written as four letters of six bits each. One or two bytes at the end are filled up
with zero bits, and the missing letters are written as equals signs. What is written is read back.
-/

namespace Flowfile.Library.Base64

open List

def letter (bits : Nat) : Char :=
  if bits < 26 then Char.ofNat (65 + bits)
  else if bits < 52 then Char.ofNat (71 + bits)
  else if bits < 62 then Char.ofNat (bits - 4)
  else if bits = 62 then '+'
  else '/'

def bitsOf (c : Char) : Option Nat :=
  if c.isUpper then some (c.toNat - 65)
  else if c.isLower then some (c.toNat - 71)
  else if c.isDigit then some (c.toNat + 4)
  else if c = '+' then some 62
  else if c = '/' then some 63
  else none

def bitsOfAll (letters : List Char) : Option Nat :=
  letters.foldlM (fun bits c => (bitsOf c).map (64 * bits + ·)) 0

/-- Write bytes. -/
def encode : List UInt8 → List Char
  | first :: second :: third :: rest =>
    let bits := 65536 * first.toNat + 256 * second.toNat + third.toNat
    letter (bits / 262144) :: letter (bits / 4096 % 64) :: letter (bits / 64 % 64) ::
      letter (bits % 64) :: encode rest
  | [first, second] =>
    let bits := 4 * (256 * first.toNat + second.toNat)
    [letter (bits / 4096), letter (bits / 64 % 64), letter (bits % 64), '=']
  | [first] =>
    let bits := 16 * first.toNat
    [letter (bits / 64), letter (bits % 64), '=', '=']
  | [] => []

/-- Read bytes. Only the last group may have equals signs. -/
def decode : List Char → Option (List UInt8)
  | first :: second :: third :: fourth :: rest =>
    if fourth = '=' then
      if !rest.isEmpty then none
      else if third = '=' then do
        let bits ← bitsOfAll [first, second]
        return [UInt8.ofNat (bits / 16)]
      else do
        let bits ← bitsOfAll [first, second, third]
        return [UInt8.ofNat (bits / 1024), UInt8.ofNat (bits / 4)]
    else do
      let bits ← bitsOfAll [first, second, third, fourth]
      let bytes ← decode rest
      return UInt8.ofNat (bits / 65536) :: UInt8.ofNat (bits / 256) :: UInt8.ofNat bits :: bytes
  | [] => some []
  | _ => none

/-- Six bits are read back. -/
theorem bitsOf_letter : ∀ bits < 64, bitsOf (letter bits) = some bits := by
  decide +kernel

/-- No letter is an equals sign. -/
theorem letter_ne_fill : ∀ bits < 64, letter bits ≠ '=' := by
  decide +kernel

/-- The letters of a number are read back. -/
theorem bitsOfAll_letters {letters : List Nat} (fits : ∀ bits ∈ letters, bits < 64) :
    bitsOfAll (letters.map letter) =
      some (letters.foldl (fun bits next => 64 * bits + next) 0) := by
  rw [bitsOfAll]
  generalize 0 = start
  induction letters generalizing start with
  | nil => rfl
  | cons head rest inner =>
    rw [map_cons, foldlM_cons, bitsOf_letter head (fits head mem_cons_self)]
    exact inner (fun bits mem => fits bits (mem_cons_of_mem _ mem)) _

theorem byte_of_bits (bits : Nat) (byte : UInt8) (same : bits % 256 = byte.toNat) :
    UInt8.ofNat bits = byte := by
  apply UInt8.toNat_inj.mp
  rw [UInt8.toNat_ofNat']
  exact same

/-- Written bytes are read back. -/
theorem decode_encode (bytes : List UInt8) : decode (encode bytes) = some bytes := by
  fun_induction encode bytes with
  | case1 first second third rest bits inner =>
    have firstFits := first.toNat_lt
    have secondFits := second.toNat_lt
    have thirdFits := third.toNat_lt
    have read := @bitsOfAll_letters [bits / 262144, bits / 4096 % 64, bits / 64 % 64, bits % 64] (by
      simp only [mem_cons, not_mem_nil, or_false, forall_eq_or_imp, forall_eq]
      omega)
    have whole : 64 * (64 * (64 * (bits / 262144) + bits / 4096 % 64) + bits / 64 % 64) +
        bits % 64 = bits := by omega
    simp only [map_cons, map_nil, foldl_cons, foldl_nil, Nat.mul_zero, Nat.zero_add, whole] at read
    rw [decode, if_neg (letter_ne_fill _ (by omega)), read, inner]
    simp only [bind, Option.bind_some, pure]
    rw [byte_of_bits _ first (by omega), byte_of_bits _ second (by omega),
      byte_of_bits _ third (by omega)]
  | case2 first second bits =>
    have firstFits := first.toNat_lt
    have secondFits := second.toNat_lt
    have read := @bitsOfAll_letters [bits / 4096, bits / 64 % 64, bits % 64] (by
      simp only [mem_cons, not_mem_nil, or_false, forall_eq_or_imp, forall_eq]
      omega)
    have whole : 64 * (64 * (bits / 4096) + bits / 64 % 64) + bits % 64 = bits := by omega
    simp only [map_cons, map_nil, foldl_cons, foldl_nil, Nat.mul_zero, Nat.zero_add, whole] at read
    rw [decode, if_pos rfl, if_neg (by simp), if_neg (letter_ne_fill _ (by omega)), read]
    simp only [bind, Option.bind_some, pure]
    rw [byte_of_bits _ first (by omega), byte_of_bits _ second (by omega)]
  | case3 first bits =>
    have firstFits := first.toNat_lt
    have read := @bitsOfAll_letters [bits / 64, bits % 64] (by
      simp only [mem_cons, not_mem_nil, or_false, forall_eq_or_imp, forall_eq]
      omega)
    have whole : 64 * (bits / 64) + bits % 64 = bits := by omega
    simp only [map_cons, map_nil, foldl_cons, foldl_nil, Nat.mul_zero, Nat.zero_add, whole] at read
    rw [decode, if_pos rfl, if_neg (by simp), if_pos rfl, read]
    simp only [bind, Option.bind_some, pure]
    rw [byte_of_bits _ first (by omega)]
  | case4 => rfl

theorem mem_encode {bytes : List UInt8} {c : Char} (mem : c ∈ encode bytes) :
    c = '=' ∨ ∃ bits < 64, c = letter bits := by
  fun_induction encode bytes with
  | case1 first second third rest bits inner =>
    have firstFits := first.toNat_lt
    have secondFits := second.toNat_lt
    have thirdFits := third.toNat_lt
    simp only [mem_cons] at mem
    rcases mem with rfl | rfl | rfl | rfl | later
    · exact .inr ⟨_, by omega, rfl⟩
    · exact .inr ⟨_, by omega, rfl⟩
    · exact .inr ⟨_, by omega, rfl⟩
    · exact .inr ⟨_, by omega, rfl⟩
    · exact inner later
  | case2 first second bits =>
    have firstFits := first.toNat_lt
    have secondFits := second.toNat_lt
    simp only [mem_cons, not_mem_nil, or_false] at mem
    rcases mem with rfl | rfl | rfl | rfl
    · exact .inr ⟨_, by omega, rfl⟩
    · exact .inr ⟨_, by omega, rfl⟩
    · exact .inr ⟨_, by omega, rfl⟩
    · exact .inl rfl
  | case3 first bits =>
    have firstFits := first.toNat_lt
    simp only [mem_cons, not_mem_nil, or_false] at mem
    rcases mem with rfl | rfl | rfl | rfl
    · exact .inr ⟨_, by omega, rfl⟩
    · exact .inr ⟨_, by omega, rfl⟩
    · exact .inl rfl
    · exact .inl rfl
  | case4 => exact absurd mem not_mem_nil

end Flowfile.Library.Base64
