import Comp4320.Lab2.ClientUDP
import Comp4320.Lab2.ServerUDP

/-!
# One checksum, twice

The client and the server each have a checksum loop of their own, one over a `bytearray` that
raises past its end and one over memory that does not. Both compute `OnesComplement.checksum`, so
what is known of it holds of them: the order of the bytes is irrelevant, which is why the server may
verify a request after it has swapped the header in place, and exactly one byte in the checksum
field makes a packet verify, or two where that byte is zero.

## Main results

* `checksums_agree` — generation against verification, across both implementations
-/

namespace Comp4320

namespace Lab2

/-- Both loops give `k` over the whole of `m`, wherever the server holds it. -/
def BothGive (m : List UInt8) (k : UInt8) : Prop :=
  ClientUDP.getChecksum m m.length = .ok k ∧
    ∀ msg : Memory, msg.load 0 m.length = m → ServerUDP.getChecksum msg m.length = k

theorem bothGive_checksum (m : List UInt8) : BothGive m (OnesComplement.checksum m) := by
  constructor
  · rw [ClientUDP.getChecksum_eq le_rfl, List.take_length]
  · intro msg hmsg
    rw [ServerUDP.getChecksum_eq, hmsg]

/-- **Generation against verification.** Let `k` be the checksum of a message whose byte `p` is
zero. Both implementations compute it, and both compute one value for the message with `c` in that
place, which no permutation of the bytes changes, and which is zero exactly if `c` is `k`, or `k` is
zero and `c` the other representation of zero. -/
theorem checksums_agree (m : List UInt8) {p : ℕ} (hp : p < m.length) (c : UInt8) :
    ∃ k v, BothGive (m.set p 0) k ∧ BothGive ((m.set p 0).set p c) v ∧
      (∀ m', m'.Perm ((m.set p 0).set p c) → BothGive m' v) ∧
      (v = 0 ↔ c = k ∨ k = 0 ∧ c = 0xff) := by
  have hset : ∀ b, m.set p b = m.take p ++ b :: m.drop (p + 1) := fun b =>
    List.set_eq_take_append_cons_drop.trans (if_pos hp)
  refine ⟨_, _, bothGive_checksum _, bothGive_checksum _, ?_, ?_⟩
  · intro m' hperm
    rw [← OnesComplement.checksum_perm hperm]
    exact bothGive_checksum m'
  · rw [List.set_set, hset, hset]
    exact OnesComplement.checksum_insert_eq_zero_iff _ _ c

/-- The header of a request, and its checksum field. -/
theorem checksums_agree_header : 7 < [0x4a, 0x6f, 0x79, 0x21, 0, 9, 7, 0, (5 : UInt8)].length ∧
    ∃ k v, BothGive ([0x4a, 0x6f, 0x79, 0x21, 0, 9, 7, 0, 5].set 7 0) k ∧
      BothGive (([0x4a, 0x6f, 0x79, 0x21, 0, 9, 7, 0, 5].set 7 0).set 7 0x96) v ∧
      (∀ m', m'.Perm (([0x4a, 0x6f, 0x79, 0x21, 0, 9, 7, 0, 5].set 7 0).set 7 0x96) →
        BothGive m' v) ∧
      (v = 0 ↔ (0x96 : UInt8) = k ∨ k = 0 ∧ (0x96 : UInt8) = 0xff) :=
  ⟨by decide, checksums_agree _ (by decide) _⟩

end Lab2

end Comp4320
