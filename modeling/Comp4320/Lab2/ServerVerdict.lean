import Comp4320.Lab2.ServerReply

/-!
# How exact the error code is

The three bits of the error code say which of the three checks a request has failed. The checks on
the magic number and on the length are exact. The checksum is taken over the struct the request was
received into, and the last field of that struct is the error code being computed, so for a request
that reaches so far it is not the checksum of the request: byte 4105 is replaced by the bit of the
first check. A request of at most 4105 bytes does not reach so far, and of those a single wrong byte
is noticed, unless one representation of zero has taken the place of the other.

## Main definitions

* `ServerUDP.ExactVerdict` — every bit says what it is there to say
* `ServerUDP.ErrorFieldHarmless` — the requests whose checksum the error field does not spoil

## Main results

* `ServerUDP.exactVerdict_iff` — these are exactly the requests whose verdict is exact
* `ServerUDP.accepted_differsAt_iff` — which single wrong byte goes unnoticed
-/

namespace Comp4320

namespace Lab2

open ByteOrder

namespace ServerUDP

/-- Every bit of the error code says what it is there to say of the datagram as received. -/
structure ExactVerdict (buf : ClientRequest) (d : List UInt8) : Prop where
  /-- The first four bytes are not the magic number. -/
  magic : (processed buf d).error &&& 0b0100 ≠ 0 ↔ d.take 4 ≠ Packet.magic
  /-- The checksum does not verify. -/
  checksum : (processed buf d).error &&& 0b0010 ≠ 0 ↔ OnesComplement.checksum d ≠ 0
  /-- The length field does not hold the length. -/
  tml : (processed buf d).error &&& 0b0001 ≠ 0 ↔ ofBE ((d.drop 4).take 2) ≠ d.length
  /-- There is no other bit. -/
  bits : (processed buf d).error &&& 0b0111 = (processed buf d).error

/-- What the error field holds when the checksum is taken. -/
def errorField (d : List UInt8) : UInt8 := if d.take 4 = Packet.magic then 0 else 0b0100

/-- The error field does not spoil the checksum: the datagram ends before it, or was received with
the byte the field holds when the checksum is taken, or with the other representation of it, or
does not verify either way. -/
def ErrorFieldHarmless (d : List UInt8) : Prop :=
  d.length ≤ 4105 ∨ d.getD 4105 0 = errorField d ∨
    errorField d = 0 ∧ d.getD 4105 0 = 0xff ∨
    OnesComplement.checksum d ≠ 0 ∧ OnesComplement.checksum (d.set 4105 (errorField d)) ≠ 0

variable {buf buf' : ClientRequest} {d d' : List UInt8} {p : ℕ} {b c : UInt8}

/-! ### The three bits -/

theorem received_eq (h : d.length ≤ 4108) : received d = d := List.take_of_length_le h

/-- The buffer after a receive begins with the datagram. -/
theorem load_store_received (hmax : d.length ≤ 4108) {off n : ℕ} (h : off + n ≤ d.length) :
    (buf.store 0 (received d)).load off n = (d.drop off).take n := by
  rw [received_eq hmax, Memory.load_store_drop _ h]

theorem magicBit_received (hmin : 9 ≤ d.length) (hmax : d.length ≤ 4108) :
    magicBit (buf.store 0 (received d)) = errorField d := by
  have hload : (buf.store 0 (received d)).load 0 4 = d.take 4 :=
    load_store_received hmax (by omega)
  have hiff := magicBit_eq_zero_iff (r := buf.store 0 (received d))
  rw [hload] at hiff
  rw [errorField]
  split_ifs with h
  · exact hiff.mpr h
  · have hne := mt hiff.mp h
    rw [magicBit] at hne ⊢
    split_ifs at hne ⊢ with hm
    · rfl
    · exact absurd rfl hne

/-- **The verdict, bit by bit**: the checksum is that of the datagram with the error field in it. -/
theorem exactVerdict_iff_checksum (hmin : 9 ≤ d.length) (hmax : d.length ≤ 4108) :
    ExactVerdict buf d ↔ (OnesComplement.checksum (d.set 4105 (errorField d)) = 0 ↔
      OnesComplement.checksum d = 0) := by
  have hmagic : (processed buf d).error &&& 0b0100 = 0 ↔ d.take 4 = Packet.magic := by
    rw [error_processed, verdict_and_four, magicBit_received hmin hmax, errorField]
    split_ifs with h
    · exact iff_of_true rfl h
    · exact iff_of_false (by decide) h
  have hsum : (processed buf d).error &&& 0b0010 = 0 ↔
      OnesComplement.checksum (d.set 4105 (errorField d)) = 0 := by
    rw [error_processed, verdict_and_two,
      checksumBit_eq_zero_iff_of_le (by rw [received_eq hmax]; omega), load_setError,
      load_recvfrom, magicBit_received hmin hmax, received_eq hmax]
  have html : (processed buf d).error &&& 0b0001 = 0 ↔ ofBE ((d.drop 4).take 2) = d.length := by
    rw [error_processed, verdict_and_one, tmlBit_eq_zero_iff, load_store_received hmax (by omega),
      received_eq hmax]
  constructor
  · intro h
    rw [← hsum]
    exact not_iff_not.mp h.checksum
  · intro h
    exact ⟨not_iff_not.mpr hmagic, not_iff_not.mpr (hsum.trans h), not_iff_not.mpr html,
      by rw [error_processed, verdict_and_seven]⟩

/-! ### The error field -/

/-- **When the error field does not spoil the checksum.** -/
theorem checksum_iff_errorFieldHarmless (d : List UInt8) :
    (OnesComplement.checksum (d.set 4105 (errorField d)) = 0 ↔ OnesComplement.checksum d = 0) ↔
      ErrorFieldHarmless d := by
  rcases Nat.lt_or_ge 4105 d.length with hlen | hlen
  · obtain ⟨pre, x, post, hpre, rfl⟩ : ∃ pre x post, pre.length = 4105 ∧ d = pre ++ x :: post :=
      ⟨d.take 4105, d[4105], d.drop 4106, List.length_take_of_le hlen.le,
        by rw [List.getElem_cons_drop, List.take_append_drop]⟩
    have hget : (pre ++ x :: post).getD 4105 0 = x := by
      rw [List.getD_eq_getElem?_getD, List.getElem?_append_right hpre.le, hpre, Nat.sub_self]
      rfl
    have hset : ∀ v, (pre ++ x :: post).set 4105 v = pre ++ v :: post := by
      intro v
      rw [List.set_append_right _ _ hpre.le, hpre, Nat.sub_self, List.set_cons_zero]
    -- with the right magic number, the rest of the sum is not zero
    have hpos : errorField (pre ++ x :: post) = 0 →
        255 < OnesComplement.byteSum (pre ++ x :: post) := by
      intro h
      refine Packet.lt_byteSum ?_
      by_contra hne
      rw [errorField, if_neg hne] at h
      exact absurd h (by decide)
    have hfield : errorField (pre ++ x :: post) = 0 ∨ errorField (pre ++ x :: post) = 4 := by
      rw [errorField]
      split_ifs
      · exact Or.inl rfl
      · exact Or.inr rfl
    rw [ErrorFieldHarmless, hget, hset, ne_eq, ne_eq, OnesComplement.checksum_eq_zero_iff,
      OnesComplement.checksum_eq_zero_iff, OnesComplement.byteSum_insert,
      OnesComplement.byteSum_insert]
    rw [OnesComplement.byteSum_insert] at hpos
    generalize errorField (pre ++ x :: post) = m at hpos hfield
    simp only [← UInt8.toNat_inj, UInt8.toNat_zero, show (4 : UInt8).toNat = 4 from rfl,
      show (255 : UInt8).toNat = 255 from rfl] at hpos hfield ⊢
    have hx := x.toNat_lt
    omega
  · rw [List.set_eq_of_length_le hlen]
    exact iff_of_true Iff.rfl (Or.inl hlen)

/-- **The verdict is exact for exactly these requests**, whatever the buffer held before. -/
theorem exactVerdict_iff (hmin : 9 ≤ d.length) (hmax : d.length ≤ 4108) :
    ExactVerdict buf d ↔ ErrorFieldHarmless d :=
  (exactVerdict_iff_checksum hmin hmax).trans (checksum_iff_errorFieldHarmless d)

/-- A request without hosts. -/
theorem exactVerdict_iff_nine_bytes :
    ExactVerdict (fun _ => 0) [0x4a, 0x6f, 0x79, 0x21, 0, 9, 7, 0x96, 5] ↔
      ErrorFieldHarmless [0x4a, 0x6f, 0x79, 0x21, 0, 9, 7, 0x96, 5] :=
  exactVerdict_iff (by decide) (by decide)

/-- A request of 4106 bytes whose checksum verifies does not verify with the error field cleared,
unless its last byte represents zero. -/
theorem not_exactVerdict_stamped {id x : UInt8} {payload : List UInt8}
    (hlen : payload.length = 4096) (h0 : x ≠ 0) (h255 : x ≠ 0xff) (buf : ClientRequest) :
    ¬ ExactVerdict buf (Packet.stamped id (payload ++ [x])) := by
  have hwf : Packet.WellFormed (Packet.stamped id (payload ++ [x])) :=
    Packet.stamped_wellFormed id (by rw [List.length_append, hlen, List.length_singleton]; decide)
  have hfield : errorField (Packet.stamped id (payload ++ [x])) = 0 := if_pos hwf.magic
  have htotal : (Packet.stamped id (payload ++ [x])).length = 4106 := by
    rw [Packet.length_stamped, List.length_append, hlen]
    rfl
  have hlast : (Packet.stamped id (payload ++ [x]))[4105]? = some x := by
    rw [Packet.stamped, List.getElem?_append_right (by rw [Packet.length_header]; decide),
      Packet.length_header, List.getElem?_append_right (by rw [hlen]), hlen]
    rfl
  have hdiff : DiffersAt (Packet.stamped id (payload ++ [x]))
      ((Packet.stamped id (payload ++ [x])).set 4105 0) 4105 x 0 := .of_set hlast h0
  rw [exactVerdict_iff_checksum (by omega) (by omega), hfield]
  intro hexact
  have hbytes := (hwf.verifies_differsAt_iff hdiff).mp (hexact.mpr hwf.verifies)
  exact absurd hbytes (by simp [h0, h255])

/-- A request of 4106 bytes, the last of which is received into the error field and holds 1. -/
theorem not_exactVerdict : ∃ d : List UInt8,
    d = Packet.stamped 5 (List.replicate 4096 0 ++ [1]) ∧ 9 ≤ d.length ∧ d.length ≤ 4108 ∧
      ∀ buf, ¬ ExactVerdict buf d := by
  have hlen : (List.replicate 4096 (0 : UInt8)).length = 4096 := List.length_replicate ..
  refine ⟨_, rfl, ?_, ?_, not_exactVerdict_stamped hlen (by decide) (by decide)⟩
  · rw [Packet.length_stamped]
    omega
  · rw [Packet.length_stamped, List.length_append, hlen]
    decide

/-! ### One wrong byte -/

/-- A datagram that ends before the error field is accepted if it is well formed. -/
theorem error_eq_zero_iff_wellFormed (hmin : 6 ≤ d.length) (hmax : d.length ≤ 4105) :
    (processed buf d).error = 0 ↔ Packet.WellFormed d := by
  have hrec : received d = d := received_eq (by omega)
  rw [error_processed, hrec, verdict_eq_zero_iff_wellFormed_of_le hmin hmax, ← hrec,
    load_recvfrom, hrec]

/-- **Which single wrong byte goes unnoticed**: none of the magic number and the length field, and
elsewhere only one representation of zero in place of the other; so a single wrong bit never
does. -/
theorem accepted_differsAt_iff (hmin : 9 ≤ d.length) (hmax : d.length ≤ 4105)
    (hacc : (processed buf d).error = 0) (hd : DiffersAt d d' p b c) (buf' : ClientRequest) :
    ((processed buf' d').error = 0 ↔ 6 ≤ p ∧ (b = 0 ∧ c = 0xff ∨ b = 0xff ∧ c = 0)) ∧
      ∀ k < 8, c = b ^^^ (1 <<< UInt8.ofNat k) → (processed buf' d').error ≠ 0 := by
  rw [error_eq_zero_iff_wellFormed (by omega) hmax] at hacc
  have hiff : (processed buf' d').error = 0 ↔ 6 ≤ p ∧ (b = 0 ∧ c = 0xff ∨ b = 0xff ∧ c = 0) := by
    rw [error_eq_zero_iff_wellFormed (by rw [hd.length_eq]; omega) (by rw [hd.length_eq]; omega)]
    exact hacc.differsAt_iff (by omega) hd
  refine ⟨hiff, fun k hk hflip herr => ?_⟩
  rcases (hiff.mp herr).2 with ⟨rfl, rfl⟩ | ⟨rfl, rfl⟩
  · revert hflip
    interval_cases k <;> decide
  · revert hflip
    interval_cases k <;> decide

/-- A request without hosts, and a wrong bit in its id. -/
theorem accepted_differsAt_iff_wrong_id :
    (processed (fun _ => 0) [0x4a, 0x6f, 0x79, 0x21, 0, 9, 7, 0x96, 5]).error = 0 ∧
    DiffersAt [0x4a, 0x6f, 0x79, 0x21, 0, 9, 7, 0x96, 5]
      [0x4a, 0x6f, 0x79, 0x21, 0, 9, 7, 0x96, 4] 8 (5 : UInt8) 4 ∧
    ((processed (fun _ => 0) [0x4a, 0x6f, 0x79, 0x21, 0, 9, 7, 0x96, 4]).error = 0 ↔
      6 ≤ 8 ∧ ((5 : UInt8) = 0 ∧ (4 : UInt8) = 0xff ∨ (5 : UInt8) = 0xff ∧ (4 : UInt8) = 0)) ∧
    ∀ k < 8, (4 : UInt8) = (5 : UInt8) ^^^ (1 <<< UInt8.ofNat k) →
      (processed (fun _ => 0) [0x4a, 0x6f, 0x79, 0x21, 0, 9, 7, 0x96, 4]).error ≠ 0 := by
  have hacc : (processed (fun _ => 0) [0x4a, 0x6f, 0x79, 0x21, 0, 9, 7, 0x96, 5]).error = 0 := by
    decide +kernel
  have hd : DiffersAt [0x4a, 0x6f, 0x79, 0x21, 0, 9, 7, 0x96, 5]
      [0x4a, 0x6f, 0x79, 0x21, 0, 9, 7, 0x96, 4] 8 (5 : UInt8) 4 := by
    have hid : [0x4a, 0x6f, 0x79, 0x21, 0, 9, 7, 0x96, (5 : UInt8)][8]? = some 5 := rfl
    exact DiffersAt.of_set hid (by decide)
  exact ⟨hacc, hd, accepted_differsAt_iff (by decide) (by decide) hacc hd (fun _ => 0)⟩

end ServerUDP

end Lab2

end Comp4320
