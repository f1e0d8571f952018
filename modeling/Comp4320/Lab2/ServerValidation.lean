import Comp4320.Lab2.Packet
import Comp4320.Lab2.ServerUDP
import Mathlib.Tactic.IntervalCases

/-!
# What the server accepts

`processRaw` checks the header after swapping it in place and while it is writing its verdict into
the same struct. Neither matters for a datagram of at least six bytes that ends before the error
field: the swap only permutes the bytes the checksum is taken over, and the verdict is not among
them. For the last three lengths `recvfrom` can return, the error field itself was received; it
holds zero when the checksum of a request with a good magic number is taken, so what is checked is
the datagram with that byte cleared.

Below six bytes part of the header is what the previous datagram left. Such a request is never
accepted, whatever that was: the magic number and the length would have to match by themselves,
and then the checksum does not.

## Main results

* `ServerUDP.load_recvfrom`, `recvfrom_apply_of_le` — the buffer after a receive
* `ServerUDP.verdict_eq_zero_iff` — acceptance as three independent checks
* `ServerUDP.verdict_eq_zero_iff_wellFormed` — and as well-formedness of the bytes received
* `ServerUDP.verdict_ne_zero_of_le` — nothing of at most six bytes is accepted
-/

namespace Comp4320

namespace Lab2

open ByteOrder

namespace ServerUDP

/-! ### The buffer after a receive -/

/-- The bytes of a datagram `recvfrom` delivers. -/
def received (datagram : List UInt8) : List UInt8 := datagram.take sizeofClientRequest

theorem recvfrom_eq (buf : ClientRequest) (d : List UInt8) :
    recvfrom buf d = (buf.store 0 (received d), (received d).length) := rfl

/-- The first bytes of the buffer are those received. -/
theorem load_recvfrom (buf : ClientRequest) (d : List UInt8) :
    (buf.store 0 (received d)).load 0 (received d).length = received d :=
  Memory.load_store_self ..

/-- The rest of the buffer is what it was. -/
theorem recvfrom_apply_of_le (buf : ClientRequest) (d : List UInt8) {i : ℕ}
    (h : (received d).length ≤ i) : buf.store 0 (received d) i = buf i :=
  Memory.store_apply_of_le (by omega)

/-! ### The three checks -/

variable {n : ℕ} {r : ClientRequest}

theorem toNat_htonl_magicNumber (r : ClientRequest) :
    (htonl r.magicNumber).toNat = ofBE (r.load 0 4) := toNat_swap32_read32 (by simp)

theorem toNat_htons_tml (r : ClientRequest) : (htons r.tml).toNat = ofBE (r.load 4 2) :=
  toNat_swap16_read16 (by simp)

theorem magicBit_eq_zero_iff : magicBit r = 0 ↔ r.load 0 4 = Packet.magic := by
  have hmagic : (0x4a6f7921 : UInt32).toNat = ofBE Packet.magic := by decide
  rw [magicBit]
  split_ifs with h
  · refine iff_of_false (by decide) fun heq => h ?_
    rw [← UInt32.toNat_inj, toNat_htonl_magicNumber, heq, hmagic]
  · refine iff_of_true rfl (ofBE_injective (by simp) ?_)
    rw [← toNat_htonl_magicNumber, not_not.mp h, hmagic]

theorem tmlBit_eq_zero_iff : tmlBit n r = 0 ↔ ofBE (r.load 4 2) = n := by
  rw [tmlBit, toNat_htons_tml]
  split_ifs with h
  · exact iff_of_false (by decide) h
  · exact iff_of_true rfl (not_not.mp h)

theorem checksumBit_eq_zero_iff : checksumBit n r = 0 ↔
    OnesComplement.checksum (((swapHeader r).setError (magicBit r)).load 0 n) = 0 := by
  rw [checksumBit, getChecksum_eq]
  split_ifs with h
  · exact iff_of_false (by decide) h
  · exact iff_of_true rfl (not_not.mp h)

/-- Past the header, the checksum is taken over a permutation of the bytes received. -/
theorem checksumBit_eq_zero_iff_of_le (hn : 6 ≤ n) : checksumBit n r = 0 ↔
    OnesComplement.checksum ((r.setError (magicBit r)).load 0 n) = 0 := by
  rw [checksumBit_eq_zero_iff, OnesComplement.checksum_perm (load_swapHeader_perm r hn _)]

/-- **Acceptance is three independent checks.** -/
theorem verdict_eq_zero_iff :
    verdict n r = 0 ↔ magicBit r = 0 ∧ checksumBit n r = 0 ∧ tmlBit n r = 0 := by
  rw [verdict, magicBit, checksumBit, tmlBit]
  split_ifs <;> decide

/-! Each check has a bit of its own in the verdict, and there is no fourth. -/

theorem verdict_and_one (n : ℕ) (r : ClientRequest) : verdict n r &&& 0b0001 = tmlBit n r := by
  rw [verdict, magicBit, checksumBit, tmlBit]
  split_ifs <;> decide

theorem verdict_and_two (n : ℕ) (r : ClientRequest) :
    verdict n r &&& 0b0010 = checksumBit n r := by
  rw [verdict, magicBit, checksumBit, tmlBit]
  split_ifs <;> decide

theorem verdict_and_four (n : ℕ) (r : ClientRequest) : verdict n r &&& 0b0100 = magicBit r := by
  rw [verdict, magicBit, checksumBit, tmlBit]
  split_ifs <;> decide

theorem verdict_and_seven (n : ℕ) (r : ClientRequest) : verdict n r &&& 0b0111 = verdict n r := by
  rw [verdict, magicBit, checksumBit, tmlBit]
  split_ifs <;> decide

theorem toNat_verdict_lt (n : ℕ) (r : ClientRequest) : (verdict n r).toNat < 8 := by
  rw [verdict, magicBit, checksumBit, tmlBit]
  split_ifs <;> decide

/-- Writing the error field overwrites byte 4105 of what was received, if it was received. -/
theorem load_setError (r : ClientRequest) (v : UInt8) (n : ℕ) :
    (r.setError v).load 0 n = (r.load 0 n).set 4105 v := by
  refine List.ext_getElem (by simp) fun i h₁ h₂ => ?_
  rw [List.getElem_set, Memory.getElem_load, Nat.zero_add]
  split_ifs with hi
  · subst hi
    exact ClientRequest.error_setError r v
  · rw [ClientRequest.setError_apply_of_ne _ _ (Ne.symm hi), Memory.getElem_load, Nat.zero_add]

/-- **Acceptance is well-formedness of the bytes received**, with the error field cleared. -/
theorem verdict_eq_zero_iff_wellFormed (hn : 6 ≤ n) :
    verdict n r = 0 ↔ Packet.WellFormed ((r.load 0 n).set 4105 0) := by
  have hmagic : ((r.load 0 n).set 4105 0).take 4 = r.load 0 4 := by
    rw [List.take_set_of_le (by omega), Memory.take_load _ _ (by omega)]
  have html : (((r.load 0 n).set 4105 0).drop 4).take 2 = r.load 4 2 := by
    obtain ⟨k, rfl⟩ : ∃ k, n = 4 + (2 + k) := ⟨n - 6, by omega⟩
    rw [List.drop_set, if_neg (by omega), List.take_set_of_le (by omega), Memory.load_add,
      List.drop_left' (Memory.length_load ..), Nat.zero_add, Memory.take_load _ _ (by omega)]
  rw [verdict_eq_zero_iff, magicBit_eq_zero_iff, checksumBit_eq_zero_iff_of_le hn,
    tmlBit_eq_zero_iff]
  constructor
  · rintro ⟨h₁, h₂, h₃⟩
    refine ⟨by rw [hmagic, h₁], by rw [html, h₃]; simp, ?_⟩
    rwa [magicBit_eq_zero_iff.mpr h₁, load_setError] at h₂
  · rintro ⟨h₁, h₂, h₃⟩
    rw [hmagic] at h₁
    refine ⟨h₁, ?_, by rw [html] at h₂; simpa using h₂⟩
    rwa [magicBit_eq_zero_iff.mpr h₁, load_setError]

/-- The error field is not among the bytes of a shorter request. -/
theorem verdict_eq_zero_iff_wellFormed_of_le (hn : 6 ≤ n) (hn' : n ≤ 4105) :
    verdict n r = 0 ↔ Packet.WellFormed (r.load 0 n) := by
  rw [verdict_eq_zero_iff_wellFormed hn, List.set_eq_of_length_le (by simpa using hn')]

/-- **Nothing of at most six bytes is accepted**, whatever the buffer held before. -/
theorem verdict_ne_zero_of_le (hn : n ≤ 6) : verdict n r ≠ 0 := by
  intro h
  obtain ⟨hm, hk, ht⟩ := verdict_eq_zero_iff.mp h
  -- the six header bytes are forced, and with them the bytes the checksum is taken over
  have hmagic : ((swapHeader r).setError 0).load 0 4 = Packet.magic.reverse := by
    rw [ClientRequest.setError, Memory.load_store_of_disjoint (by simp),
      load_magicNumber_swapHeader, magicBit_eq_zero_iff.mp hm]
  have html : ((swapHeader r).setError 0).load 4 2 = (toBE 2 n).reverse := by
    rw [ClientRequest.setError, Memory.load_store_of_disjoint (by simp), load_tml_swapHeader,
      ← tmlBit_eq_zero_iff.mp ht]
    have hback := toBE_ofBE (r.load 4 2)
    rw [Memory.length_load] at hback
    rw [hback]
  rw [checksumBit_eq_zero_iff, hm, ← Memory.take_load _ _ hn,
    show (6 : ℕ) = 4 + 2 from rfl, Memory.load_add, hmagic, Nat.zero_add, html] at hk
  revert hk
  interval_cases n <;> decide

end ServerUDP

end Lab2

end Comp4320
