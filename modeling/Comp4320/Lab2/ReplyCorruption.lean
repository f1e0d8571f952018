import Comp4320.Lab2.RetryLoop
import Comp4320.Lab2.ServerReply

/-!
# One wrong byte in an answer

The checksum notices every single wrong byte except one representation of zero in place of the
other, as long as it is taken over the whole datagram. The client takes it over as many bytes as the
length field says, and does not compare that with how many it received. A wrong high byte of the
field is too much for the datagram and raises; a wrong low byte cuts the sum off early, and what is
lost by that is what the field is too low by, and the addresses cut off. If the two cancel, the
truncated answer is taken for a whole one.

## Main definitions

* `ClientUDP.Answer` — an answer of the server
* `ClientUDP.NeverReturned` — no call takes its result from this datagram
* `ClientUDP.CutsOffMultiple` — the wrong length field whose loss cancels

## Main results

* `ClientUDP.answer_acceptedReply` — the server sends such answers
* `ClientUDP.neverReturned_iff` — which single wrong byte goes unnoticed
-/

namespace Comp4320

namespace Lab2

open ByteOrder OnesComplement

namespace ClientUDP

/-- An answer with one to fifty addresses. -/
structure Answer (r : List UInt8) : Prop where
  wellFormed : Packet.WellFormed r
  GID : r[6]? = some 7
  addresses : ∃ n, 1 ≤ n ∧ n ≤ 50 ∧ r.length = 9 + 4 * n

/-- No call of `get_response` takes its result from this datagram, whatever else it receives. -/
def NeverReturned (d : List UInt8) : Prop :=
  ∀ datagrams response k, getResponse datagrams = .answer response k →
    datagrams[k - 1]? ≠ some d

/-- Byte `p` is the low byte of the length field, and with `c` in it the field counts at least the
header and not the whole answer; what is missing from it and the bytes it does not count add up to
a multiple of 255. -/
def CutsOffMultiple (r : List UInt8) (p : ℕ) (c : UInt8) : Prop :=
  p = 5 ∧ 9 ≤ c.toNat ∧ c.toNat < r.length ∧
    255 ∣ (r.length - c.toNat) + byteSum (r.drop c.toNat)

instance (r : List UInt8) (p : ℕ) (c : UInt8) : Decidable (CutsOffMultiple r p c) :=
  inferInstanceAs (Decidable (_ ∧ _ ∧ _ ∧ _))

variable {d r r' : List UInt8} {p : ℕ} {b c : UInt8}

/-- A packet whose payload is one to fifty addresses. -/
theorem answer_stamped (id : UInt8) {payload : List UInt8} {n : ℕ} (hpos : 1 ≤ n) (hle : n ≤ 50)
    (hlen : payload.length = 4 * n) : Answer (Packet.stamped id payload) where
  wellFormed := Packet.stamped_wellFormed id (by omega)
  GID := Packet.getElem?_six_stamped ..
  addresses := ⟨n, hpos, hle, by rw [Packet.length_stamped, hlen, Nat.add_comm]⟩

/-- **The server sends such answers**: every reply to an accepted request with one to fifty
addresses. -/
theorem answer_acceptedReply (g : ServerUDP.Resolver) (buf : ServerUDP.ClientRequest)
    (d : List UInt8) (hpos : 0 < (ServerUDP.answers g (ServerUDP.hostLookups buf d)).length)
    (hle : (ServerUDP.answers g (ServerUDP.hostLookups buf d)).length ≤ 50) :
    Answer (ServerUDP.acceptedReply g buf d).packet :=
  answer_stamped _ hpos hle (length_flatMap_image32 _)

/-- **What can be returned is what is acceptable.** -/
theorem neverReturned_iff_not_acceptable (hmax : d.length ≤ 4096) :
    NeverReturned d ↔ ¬ Acceptable d := by
  constructor
  · intro h hacc
    exact h [d] (unpacked d) 1 (getResponse_eq_answer_iff.mpr ⟨0, d, rfl, by omega,
      Retry.retried_zero, rfl, attempt_of_acceptable hmax hacc⟩) rfl
  · intro h datagrams response k hanswer hd
    obtain ⟨i, d', rfl, -, -, hd', hsome⟩ := getResponse_eq_answer_iff.mp hanswer
    obtain rfl : d' = d := Option.some.inj (hd'.symm.trans hd)
    exact h ((attempt_eq_some_iff hmax).mp hsome).1

/-! ### The length field -/

/-- The two bytes of the length field. -/
theorem tmlField_eq {high low : UInt8} (hhigh : d[4]? = some high) (hlow : d[5]? = some low) :
    tmlField d = 256 * high.toNat + low.toNat := by
  have hbytes : (d.drop 4).take 2 = [high, low] := by
    obtain ⟨h4, rfl⟩ := List.getElem?_eq_some_iff.mp hhigh
    obtain ⟨h5, rfl⟩ := List.getElem?_eq_some_iff.mp hlow
    rw [List.drop_eq_getElem_cons h4, List.drop_eq_getElem_cons h5]
    rfl
  rw [tmlField, hbytes, ofBE, List.reverse_cons, List.reverse_cons, List.reverse_nil,
    List.nil_append, List.singleton_append, ofLE_cons, ofLE_cons, ofLE_nil]
  omega

/-- An answer is shorter than 256 bytes, so the high byte of its length field is zero. -/
theorem Answer.tml_bytes (hr : Answer r) :
    r[4]? = some 0 ∧ ∃ low : UInt8, r[5]? = some low ∧ low.toNat = r.length := by
  obtain ⟨n, -, hn, hlen⟩ := hr.addresses
  have h4 : r[4]? = some r[4] := List.getElem?_eq_getElem (by omega)
  have h5 : r[5]? = some r[5] := List.getElem?_eq_getElem (by omega)
  have html : tmlField r = r.length := hr.wellFormed.tml
  rw [tmlField_eq h4 h5] at html
  have hhigh : r[4] = 0 := by
    rw [← UInt8.toNat_inj, UInt8.toNat_zero]
    omega
  rw [hhigh, UInt8.toNat_zero] at html
  exact ⟨by rw [h4, hhigh], _, h5, by omega⟩

/-- A byte elsewhere leaves the length field as it is, and the checksum is over the whole
datagram. -/
theorem not_acceptable_of_tml_eq (hr : Answer r) (hd : DiffersAt r r' p b c)
    (hzeros : ¬ (b = 0 ∧ c = 255 ∨ b = 255 ∧ c = 0)) (h4 : p ≠ 4) (h5 : p ≠ 5) :
    ¬ Acceptable r' := by
  obtain ⟨hhigh, low, hlow, hlen⟩ := hr.tml_bytes
  have html : tmlField r' = r'.length := by
    rw [tmlField_eq ((hd.same 4 h4.symm).trans hhigh) ((hd.same 5 h5.symm).trans hlow), hlen,
      hd.length_eq, UInt8.toNat_zero, Nat.mul_zero, Nat.zero_add]
  rintro ⟨-, -, -, hsum⟩
  rw [html, List.take_length] at hsum
  exact hzeros ((hr.wellFormed.verifies_differsAt_iff hd).mp hsum)

/-- A wrong high byte says more than 255. -/
theorem not_acceptable_of_high (hr : Answer r) (hd : DiffersAt r r' 4 b c) : ¬ Acceptable r' := by
  obtain ⟨hhigh, low, hlow, hlen⟩ := hr.tml_bytes
  have hlt := low.toNat_lt
  have hb : b = 0 := Option.some.inj (hd.before.symm.trans hhigh)
  have hc : 0 < c.toNat := by
    refine Nat.pos_of_ne_zero fun hc => hd.ne ?_
    rw [hb, ← UInt8.toNat_inj, hc, UInt8.toNat_zero]
  have html := tmlField_eq hd.after ((hd.same 5 (by omega)).trans hlow)
  rintro ⟨-, -, hle, -⟩
  rw [hd.length_eq] at hle
  omega

/-- What a low byte below the length leaves of the sum. -/
theorem byteSum_take (hd : DiffersAt r r' 5 b c) (hmin : 9 ≤ c.toNat) :
    byteSum (r'.take c.toNat) + byteSum (r.drop c.toNat) + b.toNat = byteSum r + c.toNat := by
  have hsplit : byteSum (r'.take c.toNat) + byteSum (r'.drop c.toNat) = byteSum r' := by
    rw [← byteSum_append, List.take_append_drop]
  have hwhole : byteSum r' + b.toNat = byteSum r + c.toNat := by
    obtain ⟨pre, post, -, rfl, rfl⟩ := hd.exists_split
    rw [byteSum_insert, byteSum_insert]
    omega
  rw [hd.drop_eq (by omega)] at hsplit
  omega

/-- **A wrong low byte goes unnoticed if what it cuts off cancels.** -/
theorem acceptable_iff_of_low (hr : Answer r) (hd : DiffersAt r r' 5 b c) :
    Acceptable r' ↔ CutsOffMultiple r 5 c := by
  obtain ⟨n, hn, hn', hlength⟩ := hr.addresses
  obtain ⟨hhigh, low, hlow, hlen⟩ := hr.tml_bytes
  obtain rfl : b = low := Option.some.inj (hd.before.symm.trans hlow)
  have html : tmlField r' = c.toNat := by
    rw [tmlField_eq ((hd.same 4 (by omega)).trans hhigh) hd.after, UInt8.toNat_zero, Nat.mul_zero,
      Nat.zero_add]
  have hne : c.toNat ≠ r.length := fun h => hd.ne (UInt8.toNat_inj.mp (hlen.trans h.symm))
  rw [Acceptable, CutsOffMultiple, html, hd.length_eq]
  constructor
  · rintro ⟨-, hmin, hle, hsum⟩
    have htake := byteSum_take hd hmin
    have hdvd := ((checksum_eq_zero_iff _).mp hr.wellFormed.verifies).2
    rw [checksum_eq_zero_iff] at hsum
    exact ⟨rfl, hmin, by omega, by omega⟩
  · rintro ⟨-, hmin, hlt, hsum⟩
    have htake := byteSum_take hd hmin
    have hdvd := ((checksum_eq_zero_iff _).mp hr.wellFormed.verifies).2
    have hmagic : (r'.take c.toNat).take 4 = Packet.magic := by
      rw [List.take_take, Nat.min_eq_left (by omega), hd.take_eq (by omega), hr.wellFormed.magic]
    have hpos := Packet.lt_byteSum hmagic
    refine ⟨by omega, hmin, hlt.le, ?_⟩
    rw [checksum_eq_zero_iff]
    exact ⟨by omega, by omega⟩

/-! ### One wrong byte -/

/-- **Which single wrong byte in an answer goes unnoticed**: a low byte of the length field that
cuts off a multiple of 255. -/
theorem neverReturned_iff (hr : Answer r) (hd : DiffersAt r r' p b c)
    (hzeros : ¬ (b = 0 ∧ c = 255 ∨ b = 255 ∧ c = 0)) :
    NeverReturned r' ↔ ¬ CutsOffMultiple r p c := by
  obtain ⟨n, -, hn, hlen⟩ := hr.addresses
  rw [neverReturned_iff_not_acceptable (by rw [hd.length_eq]; omega), not_iff_not]
  by_cases h5 : p = 5
  · subst h5
    exact acceptable_iff_of_low hr hd
  · refine iff_of_false ?_ fun h => h5 h.1
    by_cases h4 : p = 4
    · subst h4
      exact not_acceptable_of_high hr hd
    · exact not_acceptable_of_tml_eq hr hd hzeros h4 h5

/-- An answer with two addresses that says it has one. -/
theorem neverReturned_iff_two_addresses :
    Answer (Packet.stamped 5 [1, 2, 3, 4, 0xfb, 0, 0, 0]) ∧
    DiffersAt (Packet.stamped 5 [1, 2, 3, 4, 0xfb, 0, 0, 0])
      ((Packet.stamped 5 [1, 2, 3, 4, 0xfb, 0, 0, 0]).set 5 13) 5 17 13 ∧
    ¬ ((17 : UInt8) = 0 ∧ (13 : UInt8) = 255 ∨ (17 : UInt8) = 255 ∧ (13 : UInt8) = 0) ∧
    (NeverReturned ((Packet.stamped 5 [1, 2, 3, 4, 0xfb, 0, 0, 0]).set 5 13) ↔
      ¬ CutsOffMultiple (Packet.stamped 5 [1, 2, 3, 4, 0xfb, 0, 0, 0]) 5 13) := by
  have hr : Answer (Packet.stamped 5 [1, 2, 3, 4, 0xfb, 0, 0, 0]) :=
    answer_stamped 5 (n := 2) (by decide) (by decide) rfl
  have hd : DiffersAt (Packet.stamped 5 [1, 2, 3, 4, 0xfb, 0, 0, 0])
      ((Packet.stamped 5 [1, 2, 3, 4, 0xfb, 0, 0, 0]).set 5 13) 5 17 13 :=
    .of_set (by decide) (by decide)
  have hzeros : ¬ ((17 : UInt8) = 0 ∧ (13 : UInt8) = 255 ∨
      (17 : UInt8) = 255 ∧ (13 : UInt8) = 0) := by
    decide
  exact ⟨hr, hd, hzeros, neverReturned_iff hr hd hzeros⟩

/-- The server answers a request for two hosts by `1.2.3.4` and `251.0.0.0`. With four less in the
length field, the first is returned, and nothing is noticed. -/
theorem not_neverReturned :
    (ServerUDP.runStep
        (fun l => .address (if l.hostname = [97] then 0x04030201 else 0xfb)) (fun _ => 0)
        [0x4a, 0x6f, 0x79, 0x21, 0, 13, 7, 0xcc, 5, 1, 97, 1, 98]).map (·.2.packet)
      = some (Packet.stamped 5 [1, 2, 3, 4, 0xfb, 0, 0, 0]) ∧
    Answer (Packet.stamped 5 [1, 2, 3, 4, 0xfb, 0, 0, 0]) ∧
    DiffersAt (Packet.stamped 5 [1, 2, 3, 4, 0xfb, 0, 0, 0])
      ((Packet.stamped 5 [1, 2, 3, 4, 0xfb, 0, 0, 0]).set 5 13) 5 17 13 ∧
    ¬ NeverReturned ((Packet.stamped 5 [1, 2, 3, 4, 0xfb, 0, 0, 0]).set 5 13) := by
  refine ⟨by decide +kernel, answer_stamped 5 (n := 2) (by decide) (by decide) rfl,
    .of_set (by decide) (by decide), ?_⟩
  intro h
  have hanswer : getResponse [(Packet.stamped 5 [1, 2, 3, 4, 0xfb, 0, 0, 0]).set 5 13]
      = .answer ⟨0x4a6f7921, 13, 7, 0x88, 5, [1, 2, 3, 4]⟩ 1 := by
    decide
  exact h _ _ _ hanswer rfl

end ClientUDP

end Lab2

end Comp4320
