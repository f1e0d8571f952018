import Mathlib.Algebra.BigOperators.Group.List.Basic
import Mathlib.Algebra.Order.BigOperators.Group.List
import Mathlib.Data.List.Perm.Basic
import Mathlib.Data.Nat.ModEq
import Mathlib.Tactic.Ring

/-!
# The ones' complement checksum

Adding with end-around carry, over an arbitrary largest digit `m`, and the checksum of a byte
string that rests on it. A running sum that never exceeds `m` is the true sum reduced modulo `m`,
except that a multiple of `m` other than zero is represented by `m` itself. `residue` is that
representative, and `foldl_addCarry` says that the accumulator of the usual loop is the residue
of the plain sum. Everything a protocol uses follows: the order of the bytes is irrelevant, a
string verifies exactly when its sum is a positive multiple of `m`, and overwriting one zero byte
by the checksum makes any string verify.

## Main definitions

* `OnesComplement.addCarry` — one addition with end-around carry
* `OnesComplement.residue` — the representative of a sum in `0, …, m`
* `OnesComplement.checksum` — the complement of the carry sum of a byte string

## Main results

* `OnesComplement.foldl_addCarry` — the accumulator is the residue of the sum
* `OnesComplement.checksum_eq_zero_iff` — when a string verifies
* `OnesComplement.checksum_perm` — the order of the bytes is irrelevant
* `OnesComplement.checksum_insert_eq_zero_iff` — which bytes make a string verify
* `OnesComplement.checksum_fill` — filling a zero byte with the checksum makes a string verify
* `OnesComplement.checksum_replace_eq_zero_iff` — which single wrong byte goes unnoticed
-/

namespace OnesComplement

/-! ### Carry sums -/

/-- Add `b` to `a`, wrapping a carry past `m` around to the units. -/
def addCarry (m a b : ℕ) : ℕ := if m < a + b then a + b - m else a + b

/-- The representative of `n` modulo `m` among `0, …, m`: zero only for zero. -/
def residue (m n : ℕ) : ℕ := if n = 0 then 0 else (n - 1) % m + 1

variable {m : ℕ}

@[simp] theorem residue_zero (m : ℕ) : residue m 0 = 0 := by simp [residue]

theorem residue_of_le {n : ℕ} (h : n ≤ m) : residue m n = n := by
  rcases Nat.eq_zero_or_pos n with rfl | hn
  · simp
  · rw [residue, if_neg (by omega), Nat.mod_eq_of_lt (by omega)]
    omega

theorem residue_le (hm : 0 < m) (n : ℕ) : residue m n ≤ m := by
  rw [residue]
  split
  · exact Nat.zero_le _
  · have := Nat.mod_lt (n - 1) hm
    omega

/-- One addition with carry is one addition below the residue. -/
theorem addCarry_residue (hm : 0 < m) {b : ℕ} (hb : b ≤ m) (n : ℕ) :
    addCarry m (residue m n) b = residue m (n + b) := by
  rcases Nat.eq_zero_or_pos n with rfl | hn
  · rw [residue_zero, addCarry, if_neg (by omega), Nat.zero_add, residue_of_le hb]
  -- `n` is `q * m` above its residue, so adding `b` to either wraps in the same place
  have hr : residue m n = (n - 1) % m + 1 := by rw [residue, if_neg (by omega)]
  have hlt := Nat.mod_lt (n - 1) hm
  have hres : residue m (n + b) = ((n - 1) % m + b) % m + 1 := by
    rw [residue, if_neg (by omega), show n + b - 1 = n - 1 + b by omega, Nat.mod_add_mod]
  rw [hr, hres, addCarry]
  generalize (n - 1) % m = r at hlt
  split
  · rw [Nat.mod_eq_sub_mod (by omega), Nat.mod_eq_of_lt (by omega)]
    omega
  · rw [Nat.mod_eq_of_lt (by omega)]
    omega

/-- **The accumulator is the residue of the sum.** -/
theorem foldl_addCarry (hm : 0 < m) {l : List ℕ} (hl : ∀ b ∈ l, b ≤ m) (n : ℕ) :
    l.foldl (addCarry m) (residue m n) = residue m (n + l.sum) := by
  induction l generalizing n with
  | nil => simp
  | cons b l ih =>
    rw [List.foldl_cons, addCarry_residue hm (hl b List.mem_cons_self),
      ih (fun c hc => hl c (List.mem_cons_of_mem _ hc)), List.sum_cons, Nat.add_assoc]

/-- The residue is the largest digit exactly for the positive multiples of it. -/
theorem residue_eq_self_iff (hm : 0 < m) (n : ℕ) : residue m n = m ↔ 0 < n ∧ m ∣ n := by
  rcases Nat.eq_zero_or_pos n with rfl | hn
  · simp [hm.ne]
  rw [residue, if_neg (by omega)]
  have hlt := Nat.mod_lt (n - 1) hm
  have hdiv := Nat.div_add_mod (n - 1) m
  constructor
  · intro h
    refine ⟨hn, (n - 1) / m + 1, ?_⟩
    rw [Nat.mul_add]
    omega
  · rintro ⟨-, k, rfl⟩
    obtain ⟨j, rfl⟩ : ∃ j, k = j + 1 := Nat.exists_eq_succ_of_ne_zero (by rintro rfl; omega)
    rw [show m * (j + 1) - 1 = m - 1 + m * j by rw [Nat.mul_add]; omega,
      Nat.add_mul_mod_self_left, Nat.mod_eq_of_lt (by omega)]
    omega

/-! ### The checksum of a byte string -/

/-- The plain sum of the bytes. -/
def byteSum (bs : List UInt8) : ℕ := (bs.map UInt8.toNat).sum

@[simp] theorem byteSum_nil : byteSum [] = 0 := rfl

@[simp] theorem byteSum_cons (b : UInt8) (bs : List UInt8) :
    byteSum (b :: bs) = b.toNat + byteSum bs := by simp [byteSum]

@[simp] theorem byteSum_append (bs cs : List UInt8) :
    byteSum (bs ++ cs) = byteSum bs + byteSum cs := by simp [byteSum]

theorem byteSum_perm {bs cs : List UInt8} (h : bs.Perm cs) : byteSum bs = byteSum cs :=
  (h.map _).sum_eq

/-- The running sum of the bytes with end-around carry. -/
def carrySum (bs : List UInt8) : ℕ := (bs.map UInt8.toNat).foldl (addCarry 255) 0

/-- The ones' complement of the carry sum. -/
def checksum (bs : List UInt8) : UInt8 := ~~~ UInt8.ofNat (carrySum bs)

/-- The running sum grows one byte at a time. -/
theorem carrySum_concat (bs : List UInt8) (b : UInt8) :
    carrySum (bs ++ [b]) = addCarry 255 (carrySum bs) b.toNat := by
  simp [carrySum, List.foldl_append]

theorem carrySum_eq (bs : List UInt8) : carrySum bs = residue 255 (byteSum bs) := by
  have hle : ∀ b ∈ bs.map UInt8.toNat, b ≤ 255 := by
    intro b hb
    obtain ⟨c, _, rfl⟩ := List.mem_map.mp hb
    have := c.toNat_lt
    omega
  simpa [carrySum, byteSum] using foldl_addCarry (m := 255) (by norm_num) hle 0

theorem toNat_checksum (bs : List UInt8) :
    (checksum bs).toNat = 255 - residue 255 (byteSum bs) := by
  have hle := residue_le (m := 255) (by norm_num) (byteSum bs)
  rw [checksum, carrySum_eq, UInt8.toNat_not, UInt8.toNat_ofNat', Nat.mod_eq_of_lt (by omega)]
  rfl

/-- **When a string verifies.** -/
theorem checksum_eq_zero_iff (bs : List UInt8) :
    checksum bs = 0 ↔ 0 < byteSum bs ∧ 255 ∣ byteSum bs := by
  have hle := residue_le (m := 255) (by norm_num) (byteSum bs)
  rw [← residue_eq_self_iff (by norm_num), ← UInt8.toNat_inj, toNat_checksum]
  simp only [UInt8.toNat_zero]
  omega

/-- **What a string that verifies may become unnoticed**: any string with the same sum modulo 255,
except one of zeros. -/
theorem checksum_eq_zero_iff_modEq {bs cs : List UInt8} (h : checksum bs = 0)
    (hpos : 0 < byteSum cs) : checksum cs = 0 ↔ byteSum cs ≡ byteSum bs [MOD 255] := by
  rw [checksum_eq_zero_iff] at h ⊢
  rw [Nat.ModEq]
  omega

/-- **The order of the bytes is irrelevant.** -/
theorem checksum_perm {bs cs : List UInt8} (h : bs.Perm cs) : checksum bs = checksum cs := by
  rw [← UInt8.toNat_inj, toNat_checksum, toNat_checksum, byteSum_perm h]

/-- The sum around one byte. -/
theorem byteSum_insert (pre post : List UInt8) (c : UInt8) :
    byteSum (pre ++ c :: post) = byteSum pre + byteSum post + c.toNat := by
  rw [byteSum_append, byteSum_cons]
  omega

/-- **Which bytes make a string verify**: the checksum of the string with a zero in their place,
and, where that is zero, also the other representation of zero. -/
theorem checksum_insert_eq_zero_iff (pre post : List UInt8) (c : UInt8) :
    checksum (pre ++ c :: post) = 0 ↔ c = checksum (pre ++ 0 :: post) ∨
      checksum (pre ++ 0 :: post) = 0 ∧ c = 255 := by
  have hk := toNat_checksum (pre ++ 0 :: post)
  have hle := residue_le (m := 255) (by norm_num) (byteSum pre + byteSum post)
  have hself := residue_eq_self_iff (m := 255) (by norm_num) (byteSum pre + byteSum post)
  rw [byteSum_insert, UInt8.toNat_zero, Nat.add_zero] at hk
  rw [checksum_eq_zero_iff, byteSum_insert, ← residue_eq_self_iff (by norm_num),
    ← addCarry_residue (by norm_num) (Nat.le_of_lt_succ c.toNat_lt), addCarry,
    ← UInt8.toNat_inj, ← UInt8.toNat_inj, ← UInt8.toNat_inj, hk, UInt8.toNat_zero,
    show (255 : UInt8).toNat = 255 from rfl]
  have hc := c.toNat_lt
  split <;> omega

/-- **Filling a zero byte with the checksum makes a string verify.** -/
theorem checksum_fill (pre post : List UInt8) :
    checksum (pre ++ checksum (pre ++ 0 :: post) :: post) = 0 :=
  (checksum_insert_eq_zero_iff pre post _).mpr (Or.inl rfl)

/-- **Which single wrong byte goes unnoticed**: one representation of zero in place of the other,
as long as the string has another byte that is not zero. -/
theorem checksum_replace_eq_zero_iff {pre post : List UInt8} {b c : UInt8}
    (h : checksum (pre ++ b :: post) = 0) (hne : b ≠ c) (hpos : 0 < byteSum pre + byteSum post) :
    checksum (pre ++ c :: post) = 0 ↔ b = 0 ∧ c = 255 ∨ b = 255 ∧ c = 0 := by
  rw [checksum_eq_zero_iff, byteSum_insert] at h ⊢
  simp only [← UInt8.toNat_inj, ne_eq, UInt8.toNat_zero, show (255 : UInt8).toNat = 255 from rfl]
    at hne ⊢
  have hb := b.toNat_lt
  have hc := c.toNat_lt
  omega

end OnesComplement
