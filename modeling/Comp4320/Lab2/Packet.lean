import Comp4320.Lib.ByteOrder
import Comp4320.Lib.Corruption

/-!
# The packet format of the DNS proxy

Requests, answers and error responses have one layout: the magic number, the length of the whole
packet, the group id, a checksum, one byte that is a request id or an error code, and a payload.
`stamped` is the packet a sender builds (take the checksum over the packet with a zero in the
checksum field, then fill it in), `WellFormed` is what a receiver checks, and `stamped_wellFormed`
is the contract between the two.

This is the format itself. That the server and the client build and check packets of it is proved
where they are modelled.
-/

namespace Comp4320

namespace Lab2

open ByteOrder OnesComplement

namespace Packet

/-- The first four bytes of every packet. -/
def magic : List UInt8 := [0x4a, 0x6f, 0x79, 0x21]

/-- The nine bytes before the payload. -/
def header (tml : ℕ) (checksum id : UInt8) : List UInt8 :=
  magic ++ toBE 2 tml ++ [7, checksum, id]

/-- The packet with id `id` and the given payload, its checksum filled in. -/
def stamped (id : UInt8) (payload : List UInt8) : List UInt8 :=
  let tml := payload.length + 9
  header tml (checksum (header tml 0 id ++ payload)) id ++ payload

/-- What a receiver asks of a packet. -/
structure WellFormed (p : List UInt8) : Prop where
  /-- It starts with the magic number. -/
  magic : p.take 4 = magic
  /-- Its length field holds its length. -/
  tml : ofBE ((p.drop 4).take 2) = p.length
  /-- Its checksum verifies. -/
  verifies : checksum p = 0

@[simp] theorem length_magic : magic.length = 4 := rfl

@[simp] theorem length_header (tml : ℕ) (k id : UInt8) : (header tml k id).length = 9 := by
  simp [header]

@[simp] theorem length_stamped (id : UInt8) (payload : List UInt8) :
    (stamped id payload).length = payload.length + 9 := by
  simp [stamped, Nat.add_comm]

theorem take_four_header (tml : ℕ) (k id : UInt8) (payload : List UInt8) :
    (header tml k id ++ payload).take 4 = magic := by
  rw [header, List.append_assoc, List.append_assoc, List.take_left' length_magic]

theorem drop_four_take_two_header (tml : ℕ) (k id : UInt8) (payload : List UInt8) :
    ((header tml k id ++ payload).drop 4).take 2 = toBE 2 tml := by
  rw [header, List.append_assoc, List.append_assoc, List.drop_left' length_magic,
    List.take_left' (length_toBE ..)]

theorem drop_nine_header (tml : ℕ) (k id : UInt8) (payload : List UInt8) :
    (header tml k id ++ payload).drop 9 = payload :=
  List.drop_left' (length_header ..)

/-- The byte behind the checksum is the request id, or the error code. -/
theorem getElem?_eight_header (tml : ℕ) (k id : UInt8) (payload : List UInt8) :
    (header tml k id ++ payload)[8]? = some id := by
  rw [List.getElem?_append_left (by simp), header, List.getElem?_append_right (by simp)]
  simp

theorem getElem?_eight_stamped (id : UInt8) (payload : List UInt8) :
    (stamped id payload)[8]? = some id := getElem?_eight_header ..

/-- The byte before the checksum is the group id. -/
theorem getElem?_six_stamped (id : UInt8) (payload : List UInt8) :
    (stamped id payload)[6]? = some 7 := by
  rw [stamped, List.getElem?_append_left (by simp), header, List.getElem?_append_right (by simp)]
  simp

theorem drop_nine_stamped (id : UInt8) (payload : List UInt8) :
    (stamped id payload).drop 9 = payload := drop_nine_header ..

/-- **What a sender stamps, a receiver finds well formed**, as long as the length fits its
field. -/
theorem stamped_wellFormed (id : UInt8) {payload : List UInt8} (h : payload.length + 9 < 65536) :
    WellFormed (stamped id payload) where
  magic := take_four_header ..
  tml := by
    rw [length_stamped, stamped, drop_four_take_two_header, ofBE_toBE_of_lt (by simpa using h)]
  verifies := by
    have hsplit : ∀ k : UInt8, header (payload.length + 9) k id ++ payload
        = (magic ++ toBE 2 (payload.length + 9) ++ [7]) ++ k :: (id :: payload) := by
      intro k
      simp [header]
    rw [stamped, hsplit, hsplit]
    exact checksum_fill _ _

/-! ### One wrong byte -/

/-- The first six bytes of a well-formed packet say that it is one, and how long it is. -/
theorem WellFormed.take_six {d : List UInt8} (h : WellFormed d) (hlen : 6 ≤ d.length) :
    d.take 6 = Packet.magic ++ toBE 2 d.length := by
  have hback := toBE_ofBE ((d.drop 4).take 2)
  rw [h.tml, List.length_take_of_le (by rw [List.length_drop]; omega)] at hback
  rw [hback, ← h.magic, show (6 : ℕ) = 4 + 2 from rfl, List.take_add]

/-- The magic number alone adds up to more than one byte can hold. -/
theorem lt_byteSum {l : List UInt8} (h : l.take 4 = magic) : 255 < byteSum l := by
  rw [← List.take_append_drop 4 l, h, byteSum_append]
  exact Nat.lt_of_lt_of_le (by decide) (Nat.le_add_right (byteSum magic) _)

variable {d d' : List UInt8} {p : ℕ} {b c : UInt8}

/-- **Which single wrong byte the checksum does not notice**: one representation of zero in place
of the other. -/
theorem WellFormed.verifies_differsAt_iff (h : WellFormed d) (hd : DiffersAt d d' p b c) :
    checksum d' = 0 ↔ b = 0 ∧ c = 255 ∨ b = 255 ∧ c = 0 := by
  have hsum := lt_byteSum h.magic
  have hb := b.toNat_lt
  obtain ⟨pre, post, -, rfl, rfl⟩ := hd.exists_split
  rw [byteSum_insert] at hsum
  exact checksum_replace_eq_zero_iff h.verifies hd.ne (by omega)

/-- **Which single wrong byte a receiver does not notice**: none of the first six, and elsewhere
none that the checksum notices. -/
theorem WellFormed.differsAt_iff (h : WellFormed d) (hlen : 6 ≤ d.length)
    (hd : DiffersAt d d' p b c) :
    WellFormed d' ↔ 6 ≤ p ∧ (b = 0 ∧ c = 255 ∨ b = 255 ∧ c = 0) := by
  constructor
  · intro h'
    refine ⟨?_, (h.verifies_differsAt_iff hd).mp h'.verifies⟩
    by_contra hp
    have htake : d'.take 6 = d.take 6 := by
      rw [h'.take_six (by rw [hd.length_eq]; exact hlen), h.take_six hlen, hd.length_eq]
    have hget := congrArg (·[p]?) htake
    simp only [List.getElem?_take_of_lt (Nat.not_le.mp hp), hd.before, hd.after] at hget
    exact hd.ne (Option.some.inj hget).symm
  · rintro ⟨hp, hzeros⟩
    have html : (d'.drop 4).take 2 = (d.drop 4).take 2 := by
      rw [List.take_drop, List.take_drop, hd.take_eq hp]
    refine ⟨?_, ?_, (h.verifies_differsAt_iff hd).mpr hzeros⟩
    · rw [hd.take_eq (by omega), h.magic]
    · rw [html, h.tml, hd.length_eq]

end Packet

end Lab2

end Comp4320
