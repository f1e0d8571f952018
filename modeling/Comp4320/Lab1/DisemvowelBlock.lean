import Comp4320.Lab1.ServerTCP
import Mathlib.Data.List.TakeWhile

/-!
# The block `disemvowel` fills

`disemvowel` allocates one byte more than it copies. The copying loop stays inside the block, but
the zero behind the string is written two bytes behind the last one allocated, and between the last
character copied and that zero there are two bytes which nothing has written. So the function never
does what its offsets are for: there is no request for which every write is inside the block. What
is read to build the string was written only if a copied character is zero, and the string is the
text without its vowels if the heap happens to hold a zero there.

## Main definitions

* `ServerTCP.Access`, `ServerTCP.accesses` — the accesses to the block, in order
* `ServerTCP.FillsExactly` — what the offsets are for

## Main results

* `ServerTCP.copyAccesses_eq` — what the copying loop writes
* `ServerTCP.foldl_apply_accesses`, `load_block` — the accesses are those of the model
* `ServerTCP.not_fillsExactly` — no request fills its block exactly
* `ServerTCP.reads_written_iff`, `builtString_eq_iff` — what is left of it
-/

namespace Comp4320

namespace Lab1

namespace ServerTCP

/-- One access of `disemvowel` to the block `result`. -/
inductive Access
  /-- `result[i] = c`. -/
  | write (i : ℕ) (c : UInt8)
  /-- `result[i]` is read. -/
  | read (i : ℕ)
  deriving DecidableEq, Repr

/-- The writes of the copying loop, from `location` on. -/
def copyAccesses (location : ℕ) : List UInt8 → List Access
  | [] => []
  | c :: s =>
    if isAlpha c then
      if vowelCase c then copyAccesses location s
      else .write location c :: copyAccesses (location + 1) s
    else .write location c :: copyAccesses (location + 1) s

/-- The accesses to the block, in order: the copying loop, the zero, and the characters that are
read to build `str`, of which the last is the zero behind it. -/
def accesses (heap : Memory) (rec : Received) : List Access :=
  copyAccesses 0 rec.scanned ++ [.write (rec.tml - numvowels rec - 1).toNat 0]
    ++ (List.range ((builtString heap rec).length + 1)).map .read

/-- The number of elements of the block: `length - 1`. -/
def allocated (rec : Received) : ℤ := rec.tml - numvowels rec - 1 - 1

/-- Every write is inside the block, what is read to build the string was written before, and the
string is the text without its vowels if the text has no zeros. -/
structure FillsExactly (heap : Memory) (rec : Received) : Prop where
  writes : ∀ (i : ℕ) c, .write i c ∈ accesses heap rec → (i : ℤ) < allocated rec
  reads : ∀ j i, (accesses heap rec)[j]? = some (.read i) →
    ∃ c, .write i c ∈ (accesses heap rec).take j
  str : 0 ∉ rec.scanned → builtString heap rec = disemvoweled rec.scanned

variable {heap : Memory} {rec : Received} {i : ℕ} {c : UInt8}

/-! ### The accesses and the model -/

/-- **The copying loop writes what is not a vowel**, at consecutive locations. -/
theorem copyAccesses_eq (location : ℕ) (s : List UInt8) :
    copyAccesses location s
      = ((disemvoweled s).zipIdx location).map fun p => .write p.2 p.1 := by
  induction s generalizing location with
  | nil => rfl
  | cons c s ih =>
    rw [copyAccesses, vowelCase_eq, disemvoweled, List.filter_cons]
    cases h : isVowel c with
    | true =>
      rw [isAlpha_of_isVowel h]
      exact ih location
    | false =>
      have hwrite : (if isAlpha c = true then .write location c :: copyAccesses (location + 1) s
          else .write location c :: copyAccesses (location + 1) s)
          = Access.write location c :: copyAccesses (location + 1) s := ite_self _
      rw [if_neg Bool.false_ne_true, hwrite, ih]
      rfl

/-- What an access does to the memory. -/
def Access.apply (m : Memory) : Access → Memory
  | .write i c => m.store i [c]
  | .read _ => m

theorem foldl_apply_copyAccesses (m : Memory) (location : ℕ) (s : List UInt8) :
    (copyAccesses location s).foldl Access.apply m = (s.foldl copyStep (m, location)).1 := by
  induction s generalizing m location with
  | nil => rfl
  | cons c s ih =>
    rw [List.foldl_cons, copyAccesses, copyStep]
    split_ifs
    · exact ih m location
    · exact ih ..
    · exact ih ..

/-- **The accesses leave the block that the string is read from.** -/
theorem foldl_apply_accesses (heap : Memory) (rec : Received) :
    (accesses heap rec).foldl Access.apply heap = (rec.scanned.foldl copyStep (heap, 0)).1.store
      (rec.tml - numvowels rec - 1).toNat [0] := by
  have hreads : ∀ (m : Memory) (is : List ℕ), (is.map Access.read).foldl Access.apply m = m := by
    intro m is
    induction is with
    | nil => rfl
    | cons i is ih => exact ih
  rw [accesses, List.foldl_append, List.foldl_append, hreads, foldl_apply_copyAccesses]
  rfl

theorem take_takeWhile_ne_zero (l : List UInt8) :
    (l ++ [0]).take ((l.takeWhile (· ≠ 0)).length + 1) = l.takeWhile (· ≠ 0) ++ [0] := by
  induction l with
  | nil => rfl
  | cons c l ih =>
    by_cases hc : c = 0
    · subst hc
      rfl
    · rw [List.takeWhile_cons_of_pos (p := fun c => decide (c ≠ 0)) (decide_eq_true hc),
        List.length_cons, List.cons_append, List.take_succ_cons, ih, List.cons_append]

/-- **The elements read are the string and the zero behind it.** -/
theorem load_block (heap : Memory) (rec : Received) :
    ((accesses heap rec).foldl Access.apply heap).load 0 ((builtString heap rec).length + 1)
      = builtString heap rec ++ [0] := by
  rw [foldl_apply_accesses, builtString]
  generalize (rec.tml - numvowels rec - 1).toNat = n
  generalize (rec.scanned.foldl copyStep (heap, 0)).1 = m
  have hzero : (m.store n [0]).load 0 (n + 1) = (m.store n [0]).load 0 n ++ [0] := by
    rw [Memory.load_add, Nat.zero_add]
    exact congrArg _ (Memory.load_store_self m n [0])
  have hle : (cString (m.store n [0]) n).length ≤ n :=
    (List.takeWhile_sublist _).length_le.trans_eq (Memory.length_load ..)
  rw [← Memory.take_load _ 0 (Nat.succ_le_succ hle), hzero]
  exact take_takeWhile_ne_zero _

/-! ### Inside and outside of the block -/

/-- The writes of the loop. -/
theorem mem_copyAccesses (s : List UInt8) :
    .write i c ∈ copyAccesses 0 s ↔ (disemvoweled s)[i]? = some c := by
  rw [copyAccesses_eq, List.mem_map]
  constructor
  · rintro ⟨⟨c', i'⟩, hmem, heq⟩
    obtain ⟨rfl, rfl⟩ := Access.write.inj heq
    exact List.mk_mem_zipIdx_iff_getElem?.mp hmem
  · intro hget
    exact ⟨(c, i), List.mk_mem_zipIdx_iff_getElem?.mpr hget, rfl⟩

/-- The writes: the characters that are not vowels, and a zero. -/
theorem mem_accesses_write : .write i c ∈ accesses heap rec ↔
    (disemvoweled rec.scanned)[i]? = some c ∨
      i = (rec.tml - numvowels rec - 1).toNat ∧ c = 0 := by
  have hread : .write i c ∉ (List.range ((builtString heap rec).length + 1)).map Access.read := by
    intro hmem
    obtain ⟨j, -, hj⟩ := List.mem_map.mp hmem
    cases hj
  rw [accesses, List.mem_append, List.mem_append, List.mem_singleton, Access.write.injEq,
    mem_copyAccesses]
  exact or_iff_left hread

/-- A message that is as long as its request says. -/
theorem tml_eq_of_le (h : 3 ≤ rec.tml) (hlen : rec.tml - 3 ≤ rec.message.length) :
    rec.tml = rec.scanned.length + 3 := by
  rw [Received.scanned, List.length_take]
  omega

/-- The copying loop stays inside the block. -/
theorem lt_allocated_of_mem_copyAccesses (h : 3 ≤ rec.tml)
    (hlen : rec.tml - 3 ≤ rec.message.length)
    (hmem : .write i c ∈ copyAccesses 0 rec.scanned) : (i : ℤ) < allocated rec := by
  have hlength := length_eq (tml_eq_of_le h hlen)
  obtain ⟨hi, -⟩ := List.getElem?_eq_some_iff.mp ((mem_copyAccesses _).mp hmem)
  rw [allocated]
  omega

/-- **The zero behind the string is written outside of the block**, two elements behind its end. -/
theorem write_zero (heap : Memory) (h : 3 ≤ rec.tml) :
    ∃ i : ℕ, .write i 0 ∈ accesses heap rec ∧ (i : ℤ) = allocated rec + 1 := by
  have hvowels : (numvowels rec : ℤ) ≤ rec.tml - 3 := by
    have hle := (List.countP_le_length (p := isVowel) (l := rec.scanned)).trans
      (List.length_take_le ..)
    rw [← numvowels_eq] at hle
    omega
  refine ⟨_, mem_accesses_write.mpr (Or.inr ⟨rfl, rfl⟩), ?_⟩
  rw [allocated]
  omega

/-- **No request fills its block exactly.** -/
theorem not_fillsExactly (heap : Memory) (rec : Received) (h : 3 ≤ rec.tml) :
    ¬ FillsExactly heap rec := by
  intro hfills
  obtain ⟨i, hmem, hi⟩ := write_zero heap h
  have hlt := hfills.writes i 0 hmem
  omega

/-- A request for the two letters `hi`. -/
theorem not_fillsExactly_hi : ¬ FillsExactly (fun _ => 0) ⟨5, 1, 80, [104, 105]⟩ :=
  not_fillsExactly _ _ (by decide)

/-- The two letters `no`, for which two elements are allocated and the element with index three is
written. -/
theorem not_fillsExactly_no :
    (3 ≤ (⟨5, 1, 80, [110, 111]⟩ : Received).tml ∧ (⟨5, 1, 80, [110, 111]⟩ : Received).tml ≤ 127 ∧
      (⟨5, 1, 80, [110, 111]⟩ : Received).tml - 3
        ≤ (⟨5, 1, 80, [110, 111]⟩ : Received).message.length) ∧
      ¬ FillsExactly (fun _ => 0) ⟨5, 1, 80, [110, 111]⟩ := by
  refine ⟨by decide, fun hfills => ?_⟩
  have hlt := hfills.writes 3 0 (mem_accesses_write.mpr (Or.inr (by decide)))
  exact absurd hlt (by decide)

/-! ### What is left of it -/

theorem builtString_of_zero_mem (heap : Memory) (h : rec.tml = rec.scanned.length + 3)
    (hzero : 0 ∈ disemvoweled rec.scanned) :
    (builtString heap rec).length < (disemvoweled rec.scanned).length := by
  obtain ⟨l, rest, hkept, hl⟩ := List.eq_append_cons_of_mem hzero
  rw [builtString_eq heap h, hkept, List.append_assoc, List.cons_append, takeWhile_zero hl,
    List.length_append, List.length_cons]
  omega

theorem builtString_of_zero_not_mem (heap : Memory) (h : rec.tml = rec.scanned.length + 3)
    (hzero : 0 ∉ disemvoweled rec.scanned) :
    builtString heap rec = disemvoweled rec.scanned
      ++ (heap.load (disemvoweled rec.scanned).length 2).takeWhile (· ≠ 0) := by
  rw [builtString_eq heap h, List.takeWhile_append_of_pos]
  intro c hc
  exact decide_eq_true fun h0 => hzero (h0 ▸ hc)

/-- The accesses are writes, and reads behind them. -/
theorem read_of_getElem? {j : ℕ} (h : (accesses heap rec)[j]? = some (.read i)) :
    (copyAccesses 0 rec.scanned).length + 1 ≤ j ∧ i ≤ (builtString heap rec).length := by
  have hwrites : ∀ a ∈ copyAccesses 0 rec.scanned ++ [.write (rec.tml - numvowels rec - 1).toNat 0],
      a ≠ Access.read i := by
    intro a ha
    rw [copyAccesses_eq] at ha
    rcases List.mem_append.mp ha with ha | ha
    · obtain ⟨p, -, rfl⟩ := List.mem_map.mp ha
      exact Access.noConfusion
    · rw [List.mem_singleton.mp ha]
      exact Access.noConfusion
  have hlen : (copyAccesses 0 rec.scanned
      ++ [Access.write (rec.tml - numvowels rec - 1).toNat 0]).length
      = (copyAccesses 0 rec.scanned).length + 1 := List.length_append ..
  rcases Nat.lt_or_ge j ((copyAccesses 0 rec.scanned).length + 1) with hj | hj
  · rw [accesses, List.getElem?_append_left (by omega)] at h
    exact absurd rfl (hwrites _ (List.mem_of_getElem? h))
  · rw [accesses, List.getElem?_append_right (by omega)] at h
    obtain ⟨k, hk, heq⟩ := List.mem_map.mp (List.mem_of_getElem? h)
    obtain rfl := Access.read.inj heq
    exact ⟨hj, Nat.le_of_lt_succ (List.mem_range.mp hk)⟩

/-- **What is read was written only if a zero was copied.** -/
theorem reads_written_iff (heap : Memory) (h : 3 ≤ rec.tml)
    (hlen : rec.tml - 3 ≤ rec.message.length) :
    (∀ j i, (accesses heap rec)[j]? = some (.read i) →
      ∃ c, .write i c ∈ (accesses heap rec).take j) ↔ 0 ∈ disemvoweled rec.scanned := by
  have html := tml_eq_of_le h hlen
  constructor
  · intro hreads
    by_contra hzero
    -- the element behind the last character copied is read, and nothing writes it
    have hlong := congrArg List.length (builtString_of_zero_not_mem heap html hzero)
    rw [List.length_append] at hlong
    have hmem : .read (disemvoweled rec.scanned).length ∈ accesses heap rec := by
      refine List.mem_append_right _ (List.mem_map.mpr ⟨_, List.mem_range.mpr ?_, rfl⟩)
      omega
    obtain ⟨j, hj⟩ := List.getElem?_of_mem hmem
    obtain ⟨c, hc⟩ := hreads j _ hj
    have hlength := length_eq html
    rcases mem_accesses_write.mp (List.mem_of_mem_take hc) with hget | ⟨hi, -⟩
    · exact absurd (List.getElem?_eq_some_iff.mp hget).1 (Nat.lt_irrefl _)
    · omega
  · intro hzero j i hj
    have hshort := builtString_of_zero_mem heap html hzero
    obtain ⟨hbehind, hi⟩ := read_of_getElem? hj
    have hlt : i < (disemvoweled rec.scanned).length := by omega
    refine ⟨(disemvoweled rec.scanned)[i], ?_⟩
    have hmem : .write i (disemvoweled rec.scanned)[i] ∈ copyAccesses 0 rec.scanned :=
      (mem_copyAccesses _).mpr (List.getElem?_eq_getElem hlt)
    rw [accesses, List.append_assoc, List.take_append, List.take_of_length_le (by omega)]
    exact List.mem_append_left _ hmem

/-- **The string is right if the heap holds a zero behind it.** -/
theorem builtString_eq_iff (heap : Memory) (h : 3 ≤ rec.tml)
    (hlen : rec.tml - 3 ≤ rec.message.length) (hzero : 0 ∉ rec.scanned) :
    builtString heap rec = disemvoweled rec.scanned ↔
      heap (disemvoweled rec.scanned).length = 0 := by
  have hkept : 0 ∉ disemvoweled rec.scanned := fun hmem => hzero (List.mem_of_mem_filter hmem)
  rw [builtString_of_zero_not_mem heap (tml_eq_of_le h hlen) hkept, List.append_right_eq_self,
    Memory.load_succ]
  constructor
  · intro hnil
    by_contra hne
    rw [List.takeWhile_cons_of_pos (p := fun c => decide (c ≠ 0)) (decide_eq_true hne)] at hnil
    exact List.cons_ne_nil _ _ hnil
  · intro h0
    rw [h0]
    rfl

end ServerTCP

end Lab1

end Comp4320
