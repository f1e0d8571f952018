import Mathlib.Data.List.GetD

/-!
# Byte memory

Memory as a total function from offsets to bytes, with block reads and writes. Nothing bounds an
access: a read past the end of an object yields whatever lies there, which is what an unchecked
`memcpy` does. Whether an access stays inside its object is a separate question, asked of the
offsets and not of the memory.

## Main definitions

* `Memory.load`, `Memory.store` — block reads and writes
* `Memory.ofList` — an object of known contents, with zeros behind it

## Main results

* `Memory.load_store_self`, `load_store_of_disjoint` — read after write
* `Memory.load_congr` — a read depends on the bytes it covers only
-/

/-- Memory from a base address on: the byte at every offset. -/
abbrev Memory := ℕ → UInt8

namespace Memory

/-- The `n` bytes from offset `off` on. -/
def load (m : Memory) (off n : ℕ) : List UInt8 := (List.range n).map fun i => m (off + i)

/-- Overwrite the bytes from offset `off` on by `bs`. -/
def store (m : Memory) (off : ℕ) (bs : List UInt8) : Memory := fun i =>
  if off ≤ i ∧ i < off + bs.length then bs.getD (i - off) 0 else m i

/-- An object holding `bs`, followed by zeros. -/
def ofList (bs : List UInt8) : Memory := fun i => bs.getD i 0

@[simp] theorem length_load (m : Memory) (off n : ℕ) : (m.load off n).length = n := by
  simp [load]

@[simp] theorem getElem_load (m : Memory) (off n i : ℕ) (h : i < (m.load off n).length) :
    (m.load off n)[i] = m (off + i) := by
  simp [load]

theorem load_add (m : Memory) (off k n : ℕ) :
    m.load off (k + n) = m.load off k ++ m.load (off + k) n := by
  simp [load, List.range_add, Function.comp_def, Nat.add_assoc]

theorem load_succ (m : Memory) (off n : ℕ) : m.load off (n + 1) = m off :: m.load (off + 1) n := by
  rw [Nat.add_comm n 1, load_add]
  simp [load]

/-- A shorter read is a prefix of a longer one. -/
theorem take_load (m : Memory) (off : ℕ) {k n : ℕ} (h : k ≤ n) :
    (m.load off n).take k = m.load off k := by
  obtain ⟨j, rfl⟩ := Nat.exists_eq_add_of_le h
  rw [load_add, List.take_left' (length_load ..)]

/-- A read depends on the bytes it covers only. -/
theorem load_congr {m m' : Memory} {off n : ℕ} (h : ∀ i, off ≤ i → i < off + n → m i = m' i) :
    m.load off n = m'.load off n := by
  refine List.map_congr_left fun i hi => h _ (Nat.le_add_right _ _) ?_
  have := List.mem_range.mp hi
  omega

/-- Two equal reads agree byte by byte. -/
theorem eq_of_load_eq {m m' : Memory} {off n : ℕ} (h : m.load off n = m'.load off n) {i : ℕ}
    (h₁ : off ≤ i) (h₂ : i < off + n) : m i = m' i := by
  have hget := List.getElem_of_eq h (i := i - off) (by rw [length_load]; omega)
  rw [getElem_load, getElem_load, show off + (i - off) = i by omega] at hget
  exact hget

/-- A read shifted by `k` is a read of the shifted memory. -/
theorem load_shift (m : Memory) (k off n : ℕ) :
    load (fun i => m (k + i)) off n = m.load (k + off) n := by
  simp [load, Nat.add_assoc]

theorem store_apply_of_mem {m : Memory} {off i : ℕ} {bs : List UInt8} (h₁ : off ≤ i)
    (h₂ : i < off + bs.length) : m.store off bs i = bs.getD (i - off) 0 := if_pos ⟨h₁, h₂⟩

theorem store_apply_of_lt {m : Memory} {off i : ℕ} {bs : List UInt8} (h : i < off) :
    m.store off bs i = m i := if_neg (by omega)

theorem store_apply_of_le {m : Memory} {off i : ℕ} {bs : List UInt8} (h : off + bs.length ≤ i) :
    m.store off bs i = m i := if_neg (by omega)

/-- **Read after write.** -/
theorem load_store_self (m : Memory) (off : ℕ) (bs : List UInt8) :
    (m.store off bs).load off bs.length = bs := by
  refine List.ext_getElem (by simp) fun i h₁ h₂ => ?_
  rw [getElem_load, store_apply_of_mem (by omega) (by omega), Nat.add_sub_cancel_left,
    List.getD_eq_getElem _ _ h₂]

/-- A read inside what was written. -/
theorem load_store_drop (m : Memory) {bs : List UInt8} {off n : ℕ} (h : off + n ≤ bs.length) :
    (m.store 0 bs).load off n = (bs.drop off).take n := by
  refine List.ext_getElem (by simp; omega) fun i h₁ h₂ => ?_
  have hi : i < n := by rwa [length_load] at h₁
  rw [getElem_load, store_apply_of_mem (Nat.zero_le _) (by omega), Nat.sub_zero,
    List.getD_eq_getElem _ _ (by omega), List.getElem_take, List.getElem_drop]

/-- **Read elsewhere.** -/
theorem load_store_of_disjoint {m : Memory} {off off' n : ℕ} {bs : List UInt8}
    (h : off' + n ≤ off ∨ off + bs.length ≤ off') :
    (m.store off bs).load off' n = m.load off' n := by
  refine load_congr fun i h₁ h₂ => ?_
  rcases h with h | h
  · exact store_apply_of_lt (by omega)
  · exact store_apply_of_le (by omega)

/-- A later write to the same bytes wins. -/
theorem store_store {m : Memory} {off : ℕ} {bs cs : List UInt8} (h : bs.length = cs.length) :
    (m.store off bs).store off cs = m.store off cs := by
  funext i
  by_cases hi : off ≤ i ∧ i < off + cs.length
  · rw [store_apply_of_mem hi.1 hi.2, store_apply_of_mem hi.1 hi.2]
  · rw [store, if_neg hi, store, if_neg (by omega), store, if_neg hi]

theorem store_nil (m : Memory) (off : ℕ) : m.store off [] = m := by
  funext i
  exact if_neg (by rw [List.length_nil]; omega)

/-- Writing one byte and then the rest behind it writes all of them. -/
theorem store_singleton_store (m : Memory) (off : ℕ) (b : UInt8) (bs : List UInt8) :
    (m.store off [b]).store (off + 1) bs = m.store off (b :: bs) := by
  funext i
  rcases Nat.lt_trichotomy i off with hi | rfl | hi
  · rw [store_apply_of_lt (by omega), store_apply_of_lt hi, store_apply_of_lt hi]
  · rw [store_apply_of_lt (by omega), store_apply_of_mem (Nat.le_refl _) (by simp),
      store_apply_of_mem (Nat.le_refl _) (by simp), Nat.sub_self]
    rfl
  · by_cases hlt : i < off + 1 + bs.length
    · have hle : off ≤ i := Nat.le_of_lt hi
      rw [store_apply_of_mem hi hlt, store_apply_of_mem hle (by rw [List.length_cons]; omega),
        show i - off = i - (off + 1) + 1 by omega, List.getD_cons_succ]
    · rw [store_apply_of_le (by omega), store_apply_of_le (by rw [List.length_singleton]; omega),
        store_apply_of_le (by rw [List.length_cons]; omega)]

/-- Reading an object back gives its contents. -/
@[simp] theorem load_ofList (bs : List UInt8) : (ofList bs).load 0 bs.length = bs := by
  refine List.ext_getElem (by simp) fun i h₁ h₂ => ?_
  rw [getElem_load, Nat.zero_add, ofList, List.getD_eq_getElem _ _ h₂]

theorem load_ofList_take (bs : List UInt8) {n : ℕ} (h : n ≤ bs.length) :
    (ofList bs).load 0 n = bs.take n := by
  refine List.ext_getElem (by simp [h]) fun i h₁ h₂ => ?_
  have hi : i < bs.length := by rw [length_load] at h₁; omega
  rw [getElem_load, Nat.zero_add, ofList, List.getD_eq_getElem _ _ hi, List.getElem_take]

end Memory
