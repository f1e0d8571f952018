import Comp4320.Cpp

/-!
# The three text operations

What the services of the first lab are there for: to count the consonants of a string, to remove its
vowels, and to change it to upper case. The letters are the ASCII letters, and `y` is a vowel.

This is what the operations mean. How a server computes them is proved where it is modelled.

## Main definitions

* `isVowel` — the vowels
* `consonants`, `disemvoweled`, `uppercased` — the three operations

## Main results

* `disemvoweled_disemvoweled`, `consonants_disemvoweled`, `disemvoweled_uppercased` — how they
  combine
-/

namespace Comp4320

namespace Lab1

/-- The vowels: `A`, `E`, `I`, `O`, `U`, `Y`, and `a`, `e`, `i`, `o`, `u`, `y`. -/
def vowels : List UInt8 := [65, 69, 73, 79, 85, 89, 97, 101, 105, 111, 117, 121]

def isVowel (c : UInt8) : Bool := c ∈ vowels

/-- The number of consonants. -/
def consonants (s : List UInt8) : ℕ := s.countP fun c => isAlpha c && !isVowel c

/-- The string without its vowels. -/
def disemvoweled (s : List UInt8) : List UInt8 := s.filter fun c => !isVowel c

/-- The string in upper case. -/
def uppercased (s : List UInt8) : List UInt8 := s.map toUpper

theorem isAlpha_of_isVowel {c : UInt8} (h : isVowel c = true) : isAlpha c = true := by
  have hall : vowels.all isAlpha = true := rfl
  exact List.all_eq_true.mp hall c (of_decide_eq_true h)

theorem consonants_le_length (s : List UInt8) : consonants s ≤ s.length := List.countP_le_length

/-- Every byte is a vowel or stays. -/
theorem countP_isVowel_add_length (s : List UInt8) :
    s.countP isVowel + (disemvoweled s).length = s.length := by
  rw [disemvoweled, ← List.countP_eq_length_filter, List.length_eq_countP_add_countP isVowel]
  simp

/-! ### Laws -/

/-- A letter is the same letter in upper case. -/
theorem isVowel_toUpper (c : UInt8) : isVowel (toUpper c) = isVowel c :=
  forall_byte (P := fun c => isVowel (toUpper c) = isVowel c) (by decide +kernel) c

theorem isAlpha_toUpper (c : UInt8) : isAlpha (toUpper c) = isAlpha c :=
  forall_byte (P := fun c => isAlpha (toUpper c) = isAlpha c) (by decide +kernel) c

/-- **There are no vowels left.** -/
theorem disemvoweled_disemvoweled (s : List UInt8) :
    disemvoweled (disemvoweled s) = disemvoweled s := by
  rw [disemvoweled, disemvoweled, List.filter_filter]
  simp only [Bool.and_self]

/-- **The consonants are still there.** -/
theorem consonants_disemvoweled (s : List UInt8) :
    consonants (disemvoweled s) = consonants s := by
  rw [consonants, disemvoweled, List.countP_filter, consonants]
  simp only [Bool.and_assoc, Bool.and_self]

theorem consonants_uppercased (s : List UInt8) : consonants (uppercased s) = consonants s := by
  rw [consonants, uppercased, List.countP_map, consonants]
  simp only [Function.comp_def, isAlpha_toUpper, isVowel_toUpper]

/-- **It does not matter whether the vowels go first.** -/
theorem disemvoweled_uppercased (s : List UInt8) :
    disemvoweled (uppercased s) = uppercased (disemvoweled s) := by
  rw [disemvoweled, uppercased, List.filter_map, uppercased, disemvoweled]
  simp only [Function.comp_def, isVowel_toUpper]

end Lab1

end Comp4320
