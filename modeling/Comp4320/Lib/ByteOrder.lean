import Mathlib.Data.Nat.Digits.Lemmas
import Mathlib.Tactic.Ring

/-!
# Byte order

Fixed-width integers as byte strings, in both orders, and the swaps between them.

A C program on a little-endian host keeps a `uint32_t` least significant byte first, a Python
program packs it with `!` most significant byte first, and `htonl`, `ntohl`, `htons`, `ntohs`
are the conversions between the two. All four are the same reversal of the bytes in memory, and
that is the only fact about them a proof needs: `image32_swap32` and `image16_swap16`.

## Main definitions

* `ByteOrder.toLE`, `ofLE` — `w` bytes of a number, least significant first, and back
* `ByteOrder.toBE`, `ofBE` — the same most significant first
* `ByteOrder.image16`, `image32`, `image64` — the bytes of a machine integer in little-endian memory
* `ByteOrder.swap16`, `swap32` — the host/network conversions
* `ByteOrder.wordsOf` — the array of machine integers that some bytes hold

## Main results

* `ByteOrder.toLE_ofLE_take` — the bytes of a number that was read from more or fewer bytes
* `ByteOrder.ofLE_toLE`, `toLE_ofLE`, `ofBE_toBE`, `toBE_ofBE` — the inverse pairs
* `ByteOrder.image32_swap32`, `image16_swap16` — a swap reverses the bytes in memory
-/

namespace ByteOrder

/-! ### Least significant byte first -/

/-- The low `w` bytes of `n`, least significant first. -/
def toLE : ℕ → ℕ → List UInt8
  | 0, _ => []
  | w + 1, n => UInt8.ofNat n :: toLE w (n / 256)

/-- The number whose bytes are `bs`, least significant first. -/
def ofLE (bs : List UInt8) : ℕ := Nat.ofDigits 256 (bs.map UInt8.toNat)

@[simp] theorem length_toLE (w n : ℕ) : (toLE w n).length = w := by
  induction w generalizing n with
  | zero => rfl
  | succ w ih => simp [toLE, ih]

@[simp] theorem ofLE_nil : ofLE [] = 0 := rfl

theorem ofLE_cons (b : UInt8) (bs : List UInt8) : ofLE (b :: bs) = b.toNat + 256 * ofLE bs := by
  simp [ofLE, Nat.ofDigits_cons]

theorem ofLE_toLE (w n : ℕ) : ofLE (toLE w n) = n % 256 ^ w := by
  induction w generalizing n with
  | zero => simp [toLE, Nat.mod_one]
  | succ w ih =>
    rw [toLE, ofLE_cons, ih, UInt8.toNat_ofNat', pow_succ' 256, Nat.mod_mul]

theorem ofLE_toLE_of_lt {w n : ℕ} (h : n < 256 ^ w) : ofLE (toLE w n) = n := by
  rw [ofLE_toLE, Nat.mod_eq_of_lt h]

theorem toLE_zero (w : ℕ) : toLE w 0 = List.replicate w 0 := by
  induction w with
  | zero => rfl
  | succ w ih => rw [toLE, Nat.zero_div, ih, List.replicate_succ]; rfl

/-- The low bytes of a number are those of the number cut to them. -/
theorem toLE_mod (w n : ℕ) : toLE w (n % 256 ^ w) = toLE w n := by
  induction w generalizing n with
  | zero => rfl
  | succ w ih =>
    have hlow : UInt8.ofNat (n % 256 ^ (w + 1)) = UInt8.ofNat n := by
      rw [← UInt8.toNat_inj, UInt8.toNat_ofNat', UInt8.toNat_ofNat', pow_succ' 256]
      exact Nat.mod_mul_right_mod ..
    rw [toLE, toLE, hlow, pow_succ' 256, Nat.mod_mul_right_div_self, ih]

/-- **Bytes read into an integer come back**, those that fit, with zeros behind them if there are
fewer. -/
theorem toLE_ofLE_take (w : ℕ) (bs : List UInt8) :
    toLE w (ofLE bs) = bs.take w ++ List.replicate (w - bs.length) 0 := by
  induction bs generalizing w with
  | nil => rw [List.take_nil, List.nil_append]; exact toLE_zero w
  | cons b bs ih =>
    cases w with
    | zero => simp [toLE]
    | succ w =>
      have hb : b.toNat < 256 := b.toNat_lt
      have hlow : UInt8.ofNat (b.toNat + 256 * ofLE bs) = b := by
        rw [← UInt8.toNat_inj, UInt8.toNat_ofNat']
        omega
      rw [toLE, ofLE_cons, hlow, show (b.toNat + 256 * ofLE bs) / 256 = ofLE bs by omega, ih,
        List.length_cons, Nat.add_sub_add_right, List.take_succ_cons, List.cons_append]

/-- Bytes read into a wider integer come back with zeros behind them. -/
theorem toLE_ofLE_of_le {bs : List UInt8} {w : ℕ} (h : bs.length ≤ w) :
    toLE w (ofLE bs) = bs ++ List.replicate (w - bs.length) 0 := by
  rw [toLE_ofLE_take, List.take_of_length_le h]

theorem toLE_ofLE (bs : List UInt8) : toLE bs.length (ofLE bs) = bs := by
  rw [toLE_ofLE_of_le le_rfl, Nat.sub_self, List.replicate_zero, List.append_nil]

theorem ofLE_lt (bs : List UInt8) : ofLE bs < 256 ^ bs.length := by
  have hdig : ∀ d ∈ bs.map UInt8.toNat, d < 256 := by
    intro d hd
    obtain ⟨b, _, rfl⟩ := List.mem_map.mp hd
    exact b.toNat_lt
  simpa [ofLE] using Nat.ofDigits_lt_base_pow_length (by norm_num) hdig

/-! ### Most significant byte first -/

/-- The low `w` bytes of `n`, most significant first: network order. -/
def toBE (w n : ℕ) : List UInt8 := (toLE w n).reverse

/-- The number whose bytes are `bs`, most significant first. -/
def ofBE (bs : List UInt8) : ℕ := ofLE bs.reverse

@[simp] theorem length_toBE (w n : ℕ) : (toBE w n).length = w := by simp [toBE]

theorem ofBE_toBE (w n : ℕ) : ofBE (toBE w n) = n % 256 ^ w := by
  rw [ofBE, toBE, List.reverse_reverse, ofLE_toLE]

theorem ofBE_toBE_of_lt {w n : ℕ} (h : n < 256 ^ w) : ofBE (toBE w n) = n := by
  rw [ofBE_toBE, Nat.mod_eq_of_lt h]

/-- One more digit. -/
theorem ofBE_concat (bs : List UInt8) (b : UInt8) : ofBE (bs ++ [b]) = b.toNat + 256 * ofBE bs := by
  rw [ofBE, List.reverse_append, List.reverse_singleton, List.singleton_append, ofLE_cons, ofBE]

theorem toBE_ofBE (bs : List UInt8) : toBE bs.length (ofBE bs) = bs := by
  have h := toLE_ofLE bs.reverse
  rw [List.length_reverse] at h
  rw [toBE, ofBE, h, List.reverse_reverse]

theorem ofBE_lt (bs : List UInt8) : ofBE bs < 256 ^ bs.length := by
  simpa [ofBE] using ofLE_lt bs.reverse

/-- Two numbers of the same width agree as soon as their network-order bytes do. -/
theorem ofBE_injective {bs cs : List UInt8} (hlen : bs.length = cs.length)
    (h : ofBE bs = ofBE cs) : bs = cs := by
  rw [← toBE_ofBE bs, ← toBE_ofBE cs, hlen, h]

/-! ### Machine integers in little-endian memory -/

/-- The two bytes of a `uint16_t` in memory. -/
def image16 (x : UInt16) : List UInt8 := toLE 2 x.toNat

/-- The four bytes of a `uint32_t` in memory. -/
def image32 (x : UInt32) : List UInt8 := toLE 4 x.toNat

/-- The eight bytes of a `uint64_t` in memory. -/
def image64 (x : UInt64) : List UInt8 := toLE 8 x.toNat

/-- The `uint16_t` whose bytes in memory are `bs`. -/
def read16 (bs : List UInt8) : UInt16 := UInt16.ofNat (ofLE bs)

/-- The `uint32_t` whose bytes in memory are `bs`. -/
def read32 (bs : List UInt8) : UInt32 := UInt32.ofNat (ofLE bs)

/-- Host to network order and back for a `uint16_t`. -/
def swap16 (x : UInt16) : UInt16 := read16 (toBE 2 x.toNat)

/-- Host to network order and back for a `uint32_t`. -/
def swap32 (x : UInt32) : UInt32 := read32 (toBE 4 x.toNat)

/-- `htonl` and `ntohl` on a little-endian host. -/
abbrev htonl := swap32

/-- `htons` and `ntohs` on a little-endian host. -/
abbrev htons := swap16

@[simp] theorem length_image16 (x : UInt16) : (image16 x).length = 2 := length_toLE ..

@[simp] theorem length_image32 (x : UInt32) : (image32 x).length = 4 := length_toLE ..

theorem length_flatMap_image32 (as : List UInt32) :
    (as.flatMap image32).length = 4 * as.length := by
  rw [List.length_flatMap, List.map_congr_left fun a _ => length_image32 a]
  simp [Nat.mul_comm]

@[simp] theorem length_image64 (x : UInt64) : (image64 x).length = 8 := length_toLE ..

/-- A number stored in a `uint8_t` is cut to eight bits. -/
theorem toNat_ofInt8 (x : ℤ) : (UInt8.ofInt x).toNat = (x % 256).toNat :=
  UInt8.toNat_ofNat_of_lt' (show (x % 256).toNat < 256 by omega)

/-- A number stored in a `uint16_t` is cut to sixteen bits. -/
theorem toNat_ofInt16 (x : ℤ) : (UInt16.ofInt x).toNat = (x % 65536).toNat :=
  UInt16.toNat_ofNat_of_lt' (show (x % 65536).toNat < 65536 by omega)

/-- An integer is determined by its bytes in memory. -/
theorem image64_injective {x y : UInt64} (h : image64 x = image64 y) : x = y := by
  have hread : ∀ z : UInt64, ofLE (image64 z) = z.toNat := by
    intro z
    rw [image64, ofLE_toLE_of_lt (by simpa using z.toNat_lt)]
  rw [← UInt64.toNat_inj, ← hread, ← hread, h]

theorem image16_read16 {bs : List UInt8} (h : bs.length = 2) : image16 (read16 bs) = bs := by
  have hlt := ofLE_lt bs
  rw [h] at hlt
  rw [image16, read16, UInt16.toNat_ofNat', Nat.mod_eq_of_lt (by simpa using hlt)]
  simpa [h] using toLE_ofLE bs

theorem image32_read32 {bs : List UInt8} (h : bs.length = 4) : image32 (read32 bs) = bs := by
  have hlt := ofLE_lt bs
  rw [h] at hlt
  rw [image32, read32, UInt32.toNat_ofNat', Nat.mod_eq_of_lt (by simpa using hlt)]
  simpa [h] using toLE_ofLE bs

theorem read16_image16 (x : UInt16) : read16 (image16 x) = x := by
  rw [read16, image16, ofLE_toLE_of_lt (by simpa using x.toNat_lt), UInt16.ofNat_toNat]

theorem read32_image32 (x : UInt32) : read32 (image32 x) = x := by
  rw [read32, image32, ofLE_toLE_of_lt (by simpa using x.toNat_lt), UInt32.ofNat_toNat]

/-- **A swap reverses the bytes in memory.** -/
theorem image16_swap16 (x : UInt16) : image16 (swap16 x) = toBE 2 x.toNat :=
  image16_read16 (length_toBE ..)

/-- **A swap reverses the bytes in memory.** -/
theorem image32_swap32 (x : UInt32) : image32 (swap32 x) = toBE 4 x.toNat :=
  image32_read32 (length_toBE ..)

theorem image16_swap16_read16 {bs : List UInt8} (h : bs.length = 2) :
    image16 (swap16 (read16 bs)) = bs.reverse := by
  rw [image16_swap16, toBE, ← image16, image16_read16 h]

theorem image32_swap32_read32 {bs : List UInt8} (h : bs.length = 4) :
    image32 (swap32 (read32 bs)) = bs.reverse := by
  rw [image32_swap32, toBE, ← image32, image32_read32 h]

/-- Swapping what was read from memory reads it in network order. -/
theorem toNat_swap16_read16 {bs : List UInt8} (h : bs.length = 2) :
    (swap16 (read16 bs)).toNat = ofBE bs := by
  have hlt := ofBE_lt bs
  have himg : toLE 2 (read16 bs).toNat = bs := image16_read16 h
  rw [h] at hlt
  rw [swap16, toBE, himg, read16, UInt16.toNat_ofNat', ← ofBE,
    Nat.mod_eq_of_lt (by simpa using hlt)]

/-- Swapping what was read from memory reads it in network order. -/
theorem toNat_swap32_read32 {bs : List UInt8} (h : bs.length = 4) :
    (swap32 (read32 bs)).toNat = ofBE bs := by
  have hlt := ofBE_lt bs
  have himg : toLE 4 (read32 bs).toNat = bs := image32_read32 h
  rw [h] at hlt
  rw [swap32, toBE, himg, read32, UInt32.toNat_ofNat', ← ofBE,
    Nat.mod_eq_of_lt (by simpa using hlt)]

theorem swap32_swap32 (x : UInt32) : swap32 (swap32 x) = x := by
  have h := toNat_swap32_read32 (length_image32 (swap32 x))
  rw [read32_image32, image32_swap32, ofBE_toBE_of_lt (by simpa using x.toNat_lt)] at h
  exact UInt32.toNat_inj.mp h

/-! ### An array in memory -/

/-- The array of `uint32_t` that some bytes hold. What is left over at the end is no element. -/
def wordsOf : List UInt8 → List UInt32
  | b₀ :: b₁ :: b₂ :: b₃ :: bs => read32 [b₀, b₁, b₂, b₃] :: wordsOf bs
  | _ => []

theorem exists_eq_flatMap_wordsOf (bs : List UInt8) :
    ∃ rest, rest.length < 4 ∧ bs = (wordsOf bs).flatMap image32 ++ rest := by
  induction bs using wordsOf.induct with
  | case1 b₀ b₁ b₂ b₃ bs ih =>
    obtain ⟨rest, hrest, hbs⟩ := ih
    refine ⟨rest, hrest, ?_⟩
    rw [wordsOf, List.flatMap_cons, image32_read32 rfl, List.append_assoc, ← hbs]
    rfl
  | case2 bs hshort =>
    refine ⟨bs, ?_, ?_⟩
    · match bs, hshort with
      | [], _ | [_], _ | [_, _], _ | [_, _, _], _ => simp
      | b₀ :: b₁ :: b₂ :: b₃ :: bs, hshort => exact absurd rfl (hshort b₀ b₁ b₂ b₃ bs)
    · rw [wordsOf.eq_2 bs hshort, List.flatMap_nil, List.nil_append]

theorem length_wordsOf (bs : List UInt8) : (wordsOf bs).length = bs.length / 4 := by
  obtain ⟨rest, hrest, hbs⟩ := exists_eq_flatMap_wordsOf bs
  have hlen := congrArg List.length hbs
  rw [List.length_append, length_flatMap_image32] at hlen
  omega

end ByteOrder
