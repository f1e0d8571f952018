import Comp4320.Lab1.ClientUDP
import Comp4320.Lab1.ServerTCP
import Comp4320.Lab1.ServerUDP

/-!
# A result string in an integer

Both servers send the text of a result as an integer of 64 bits, which they compute from the
reversed string, byte after byte. The UDP server folds all of it and lets the overflow drop what
does not fit: what is folded in first is dropped, and that is the end of the string. The TCP server
stops after eight bytes, and these are the end of the string. On a little-endian machine the bytes
of the integer are the bytes kept, in their original order, so the UDP client reads the first eight
characters of a result and would read the last eight from the TCP server.

## Main results

* `ServerUDP.image64_toBinary` — the first eight characters
* `ServerUDP.getResponse_packResult` — what the client reads of a packed result
* `ServerUDP.toBinary_agree_iff` — when the two servers encode a string alike
-/

namespace Comp4320

namespace Lab1

open ByteOrder

namespace ServerUDP

variable {s : List UInt8}

/-- The loop reads the string with its first byte least significant, as far as it fits. -/
theorem toNat_toBinary (s : List UInt8) : (toBinary s).toNat = ofLE s % 2 ^ 64 := by
  show (s.reverse.foldl ServerTCP.shiftIn 0).toNat = _
  rw [ServerTCP.toNat_foldl_shiftIn, ofBE, List.reverse_reverse]

/-- **The bytes of the integer are the first eight of the string**, in their order, with zeros
behind them if there are fewer. -/
theorem image64_toBinary (s : List UInt8) :
    image64 (toBinary s) = s.take 8 ++ List.replicate (8 - s.length) 0 := by
  rw [image64, toNat_toBinary, show (2 : ℕ) ^ 64 = 256 ^ 8 by norm_num, toLE_mod, toLE_ofLE_take]

/-! ### What the client reads -/

/-- Cutting the string back out of the bytes of the integer. -/
theorem take_image64_toBinary (s : List UInt8) :
    (image64 (toBinary s)).take s.length = s.take (min 8 s.length) := by
  rw [image64_toBinary]
  rcases Nat.le_total s.length 8 with h | h
  · rw [List.take_append_of_le_length (by rw [List.length_take]; omega), List.take_take,
      Nat.min_comm]
  · rw [Nat.sub_eq_zero_of_le h, List.replicate_zero, List.append_nil, List.take_take,
      Nat.min_eq_right h, Nat.min_eq_left h]

theorem take_min_eq_iff (s : List UInt8) : s.take (min 8 s.length) = s ↔ s.length ≤ 8 := by
  rw [List.take_eq_self_iff]
  omega

/-- The image of a packed result. -/
theorem image_packResult (requestID : ℤ) (s : List UInt8) :
    (packResult requestID s).image
      = .ofNat (s.length + 2) :: .ofInt requestID :: image64 (toBinary s) := rfl

/-- What the client reads of a packed result. -/
theorem getResponse_image (requestID : ℤ) (hs : s.length ≤ 253) :
    ClientUDP.getResponse (packResult requestID s).image
      = .ok (s.length + 2, (requestID % 256).toNat, s.take (min 8 s.length)) := by
  have html : (UInt8.ofNat (s.length + 2)).toNat = s.length + 2 :=
    UInt8.toNat_ofNat_of_lt' (show s.length + 2 < 256 by omega)
  have hresponse : ((UInt8.ofNat (s.length + 2) :: UInt8.ofInt requestID
      :: image64 (toBinary s)).take (s.length + 2)).drop 2 = s.take (min 8 s.length) := by
    rw [List.take_succ_cons, List.take_succ_cons, take_image64_toBinary]
    rfl
  rw [image_packResult, ClientUDP.getResponse_cons _ _ (by rw [length_image64]; omega), html,
    hresponse, toNat_ofInt8]

/-- **The client reads the low byte of the id and the first eight bytes of the result**, so the
result comes back if it has no more. -/
theorem getResponse_packResult (requestID : ℤ) (hs : s.length ≤ 253) :
    ∃ tml rid response,
      ClientUDP.getResponse (packResult requestID s).image = .ok (tml, rid, response) ∧
        (rid : ℤ) = requestID % 256 ∧ response = s.take (min 8 s.length) ∧
          (response = s ↔ s.length ≤ 8) := by
  refine ⟨_, _, _, getResponse_image requestID hs, ?_, rfl, take_min_eq_iff s⟩
  exact Int.toNat_of_nonneg (by omega)

/-- A result of ten bytes, and a negative id. -/
theorem getResponse_packResult_hello :
    ∃ tml rid response,
      ClientUDP.getResponse (packResult (-1) [72, 69, 76, 76, 79, 32, 76, 73, 83, 65]).image
          = .ok (tml, rid, response) ∧
        (rid : ℤ) = -1 % 256 ∧
          response = [72, 69, 76, 76, 79, 32, 76, 73, 83, 65].take
            (min 8 ([72, 69, 76, 76, 79, 32, 76, 73, 83, 65] : List UInt8).length) ∧
          (response = [72, 69, 76, 76, 79, 32, 76, 73, 83, 65] ↔
            ([72, 69, 76, 76, 79, 32, 76, 73, 83, 65] : List UInt8).length ≤ 8) :=
  getResponse_packResult (-1) (by decide)

/-! ### The bounded and the unbounded loop -/

/-- **The two servers encode a string alike if its first eight bytes are its last eight**, in
particular if it has no more than eight, and differently otherwise. -/
theorem toBinary_agree_iff (s : List UInt8) :
    (ServerTCP.toBinary s = toBinary s ↔ s.take 8 = s.drop (s.length - 8)) ∧
      (s.length ≤ 8 → ServerTCP.toBinary s = toBinary s) := by
  have hlen : (s.drop (s.length - 8)).length = (s.take 8).length := by
    rw [List.length_drop, List.length_take]
    omega
  have hiff : ServerTCP.toBinary s = toBinary s ↔ s.take 8 = s.drop (s.length - 8) := by
    constructor
    · intro h
      have himage := congrArg image64 h
      rw [ServerTCP.image64_toBinary, image64_toBinary] at himage
      exact (List.append_inj_left himage hlen).symm
    · intro h
      refine image64_injective ?_
      rw [ServerTCP.image64_toBinary, image64_toBinary, h]
  refine ⟨hiff, fun hshort => hiff.mpr ?_⟩
  rw [List.take_of_length_le hshort, Nat.sub_eq_zero_of_le hshort, List.drop_zero]

/-- `ABCDEFGHI`. -/
theorem toBinary_ne : ServerTCP.toBinary [65, 66, 67, 68, 69, 70, 71, 72, 73]
    ≠ toBinary [65, 66, 67, 68, 69, 70, 71, 72, 73] := by
  decide +kernel

end ServerUDP

end Lab1

end Comp4320
