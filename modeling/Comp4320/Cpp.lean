import Comp4320.Lib.Memory
import Mathlib.Data.Int.Notation
import Mathlib.Tactic.Common

/-!
# What the C++ programs use of C and of the standard library

Plain `char` is signed on the target, and the functions of `ctype.h` are those of the C locale,
where the ASCII letters are the only letters. A `char` is modelled by its byte, and a `string` by
the list of its bytes.
-/

namespace Comp4320

/-- The value of a `char`: `int(c)`. -/
def signedChar (c : UInt8) : ℤ := c.toInt8.toInt

/-- `isupper` in the C locale. -/
def isUpper (c : UInt8) : Bool := 65 ≤ c && c ≤ 90

/-- `islower` in the C locale. -/
def isLower (c : UInt8) : Bool := 97 ≤ c && c ≤ 122

/-- `isalpha` in the C locale. -/
def isAlpha (c : UInt8) : Bool := isUpper c || isLower c

/-- `toupper` in the C locale. -/
def toUpper (c : UInt8) : UInt8 := if isLower c then c - 32 else c

/-- `tolower` in the C locale. -/
def toLower (c : UInt8) : UInt8 := if isUpper c then c + 32 else c

/-- How a C++ function may fail. -/
inductive CppError
  /-- `std::length_error`: a `string` is to be longer than a `string` may be. -/
  | lengthError
  /-- An access outside its object. No exception is raised, and nothing is promised. -/
  | outOfBounds
  deriving DecidableEq, Repr

/-- `string(&m[first], &m[last])`. A range that ends before it begins is too long. -/
def stringOfRange (m : Memory) (first : ℕ) (last : ℤ) : Except CppError (List UInt8) :=
  if last < first then .error .lengthError else .ok (m.load first (last - first).toNat)

theorem stringOfRange_of_lt {m : Memory} {first : ℕ} {last : ℤ} (h : last < first) :
    stringOfRange m first last = .error .lengthError := if_pos h

theorem stringOfRange_of_le {m : Memory} {first : ℕ} {last : ℤ} (h : first ≤ last) :
    stringOfRange m first last = .ok (m.load first (last - first).toNat) :=
  if_neg (Int.not_lt.mpr h)

/-- `literal + offset` made a `string`. The zero behind the literal is the last byte that may be
read. -/
def stringOfLiteral (literal : List UInt8) (offset : ℤ) : Except CppError (List UInt8) :=
  if 0 ≤ offset ∧ offset ≤ literal.length then .ok (literal.drop offset.toNat)
  else .error .outOfBounds

/-- `to_string` of a number that is not negative. -/
def Cpp.toString (n : ℕ) : List UInt8 := (Nat.toDigits 10 n).map fun d => UInt8.ofNat d.toNat

theorem Cpp.length_toString_le {n : ℕ} (h : n < 1000) : (Cpp.toString n).length ≤ 3 := by
  rw [Cpp.toString, List.length_map]
  exact (Nat.length_toDigits_le_iff (by decide) (by decide)).mpr h

/-- The number that a string of decimal digits stands for. -/
def Cpp.ofDigits (s : List UInt8) : ℕ :=
  Nat.ofDigitChars 10 (s.map fun c => Char.ofNat c.toNat) 0

/-- The digits of a number stand for it. -/
theorem Cpp.ofDigits_toString (n : ℕ) : Cpp.ofDigits (Cpp.toString n) = n := by
  have hback : ∀ d ∈ Nat.toDigits 10 n, Char.ofNat (UInt8.ofNat d.toNat).toNat = d := by
    intro d hd
    have hdigit : 48 ≤ d.toNat ∧ d.toNat ≤ 57 :=
      Char.isDigit_iff_toNat.mp (Nat.isDigit_of_mem_toDigits (by decide) (by decide) hd)
    rw [UInt8.toNat_ofNat_of_lt' (show d.toNat < 256 by omega), Char.ofNat_toNat]
  have hdigits : ((Nat.toDigits 10 n).map fun d => UInt8.ofNat d.toNat).map
      (fun c => Char.ofNat c.toNat) = Nat.toDigits 10 n := by
    rw [List.map_map]
    exact (List.map_congr_left hback).trans (List.map_id' _)
  rw [Cpp.ofDigits, Cpp.toString, hdigits]
  exact Nat.ofDigitChars_ten_toDigits

theorem signedChar_of_lt {c : UInt8} (h : c.toNat < 128) : signedChar c = c.toNat := by
  rw [signedChar, Int8.toInt, BitVec.toInt_eq_toNat_of_lt]
  · rfl
  · show 2 * c.toNat < 2 ^ 8
    omega

theorem signedChar_of_le {c : UInt8} (h : 128 ≤ c.toNat) : signedChar c = c.toNat - 256 := by
  rw [signedChar, Int8.toInt, BitVec.toInt_eq_toNat_cond, if_neg]
  · rfl
  · show ¬ 2 * c.toNat < 2 ^ 8
    omega

/-- A `char` is its byte modulo 256. -/
theorem signedChar_emod (c : UInt8) : signedChar c % 256 = c.toNat := by
  have hlt : c.toNat < 256 := c.toNat_lt
  rcases Nat.lt_or_ge c.toNat 128 with h | h
  · rw [signedChar_of_lt h]
    omega
  · rw [signedChar_of_le h]
    omega

/-- What holds of 256 numbers holds of every byte. -/
theorem forall_byte {P : UInt8 → Prop} (h : ∀ n < 256, P (UInt8.ofNat n)) (c : UInt8) : P c := by
  have hc := h c.toNat c.toNat_lt
  rwa [UInt8.ofNat_toNat] at hc

end Comp4320
