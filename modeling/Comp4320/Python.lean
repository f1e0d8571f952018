import Comp4320.Lib.ByteOrder

/-!
# What the Python programs use of Python

The exceptions the clients and the chat server can raise, attributes that may be unset,
`struct.pack` of one unsigned field in network order, and the length of an encoded string. The
programs are Python 2 programs: a `str` is a byte string.
-/

namespace Comp4320

open ByteOrder

/-- The exceptions the modelled code can raise. -/
inductive PyError
  /-- `struct.error`. -/
  | structError
  /-- `IndexError`. -/
  | indexError
  /-- `AttributeError`: an attribute read before it was set. -/
  | attributeError
  /-- `ValueError` and its subclass `UnicodeDecodeError`. -/
  | valueError
  deriving DecidableEq, Repr

@[simp] theorem ok_bind {α β : Type} (a : α) (f : α → Except PyError β) :
    (Except.ok a >>= f) = f a := rfl

/-- Reading an attribute, which is `none` until it is set. -/
def getattr {α : Type} (x : Option α) : Except PyError α :=
  match x with
  | some v => .ok v
  | none => .error .attributeError

@[simp] theorem getattr_some {α : Type} (v : α) : getattr (some v) = .ok v := rfl

/-- `struct.pack` of one unsigned field of `w` bytes under the prefix `!`. -/
def pack (w : ℕ) (v : ℤ) : Except PyError (List UInt8) :=
  if 0 ≤ v ∧ v < 256 ^ w then .ok (toBE w v.toNat) else .error .structError

/-- A value inside the range of its field packs. -/
theorem pack_of_lt {w v : ℕ} (h : v < 256 ^ w) : pack w v = .ok (toBE w v) := by
  have hlt : (v : ℤ) < 256 ^ w := by exact_mod_cast h
  rw [pack, if_pos ⟨Int.natCast_nonneg v, hlt⟩, Int.toNat_natCast]

theorem pack_byte (b : UInt8) : pack 1 b.toNat = .ok [b] := by
  rw [pack_of_lt (by simpa using b.toNat_lt)]
  simp [toBE, toLE]

theorem pack_byte_of_le {n : ℕ} (h : n ≤ 255) : pack 1 (n : ℤ) = .ok [UInt8.ofNat n] := by
  rw [pack_of_lt (by omega)]
  rfl

theorem pack_byte_of_lt {n : ℕ} (h : 255 < n) : pack 1 (n : ℤ) = .error .structError :=
  if_neg (by rw [pow_one]; omega)

/-- `len(s.encode('utf-8'))`: a byte string is decoded as ASCII first. -/
def utf8Length (s : List UInt8) : Except PyError ℕ :=
  if s.all (· < 128) then .ok s.length else .error .valueError

theorem utf8Length_eq {s : List UInt8} (h : ∀ c ∈ s, c < 128) : utf8Length s = .ok s.length :=
  if_pos (List.all_eq_true.mpr fun c hc => decide_eq_true (h c hc))

theorem utf8Length_eq_error {s : List UInt8} (h : ¬ ∀ c ∈ s, c < 128) :
    utf8Length s = .error .valueError :=
  if_neg fun hall => h fun c hc => of_decide_eq_true (List.all_eq_true.mp hall c hc)

end Comp4320
