import Comp4320.Lab2.ClientUDP
import Comp4320.Lib.LengthPrefix

/-!
# What the client sends, and what it makes of a packet

A request is the packet format of `Packet.stamped` around the length-prefixed host names. Packing it
raises an exception for a name that is not ASCII, for a name of more than 255 bytes, and for a
request whose length does not fit its field.

A well-formed packet longer than nine bytes passes the checks of `get_response` at once and comes
back with its tenth byte and everything behind it as addresses. Printing then reads four bytes
per host.

## Main definitions

* `ClientUDP.requestError` — what packing a request raises

## Main results

* `ClientUDP.getPackedMessage_eq` — the request, in terms of the format
* `ClientUDP.getPackedMessage_eq_error` — packing a request raises that, and nothing else
* `ClientUDP.trial_of_length_le`, `trial_eq_error`, `trial_eq_ok` — one pass of the retry loop
* `ClientUDP.trial_of_wellFormed`, `getResponse_of_wellFormed` — acceptance
* `ClientUDP.printAddresses_append` — what is printed for a payload of addresses
-/

namespace Comp4320

namespace Lab2

open ByteOrder LengthPrefix

namespace ClientUDP

/-! ### The request -/

theorem packHost_eq (acc : List UInt8 × ℕ) {host : List UInt8} (hascii : ∀ b ∈ host, b < 128)
    (hlen : host.length ≤ 255) :
    packHost acc host
      = .ok (acc.1 ++ (UInt8.ofNat host.length :: host), acc.2 + host.length + 1) := by
  simp only [packHost, utf8Length_eq hascii, pack_byte_of_le hlen, ok_bind]
  rfl

/-- The loop over the hosts appends their frames and counts their bytes. -/
theorem foldlM_packHost (acc : List UInt8 × ℕ) {hosts : List (List UInt8)}
    (hascii : ∀ host ∈ hosts, ∀ b ∈ host, b < 128) (hlen : ∀ host ∈ hosts, host.length ≤ 255) :
    hosts.foldlM packHost acc = .ok (acc.1 ++ encode hosts, acc.2 + (encode hosts).length) := by
  induction hosts generalizing acc with
  | nil => simp only [List.foldlM_nil, encode_nil, List.append_nil, List.length_nil]; rfl
  | cons host hosts ih =>
    rw [List.foldlM_cons, packHost_eq acc (hascii host List.mem_cons_self)
      (hlen host List.mem_cons_self), ok_bind, ih _
      (fun h hh => hascii h (List.mem_cons_of_mem _ hh))
      (fun h hh => hlen h (List.mem_cons_of_mem _ hh)), encode_cons]
    simp
    omega

theorem packHeader_eq {tml : ℕ} (h : tml < 65536) (checksum req_id : UInt8) :
    packHeader tml checksum.toNat req_id.toNat = .ok (Packet.header tml checksum req_id) := by
  have hmagic : pack 4 0x4a6f7921 = .ok Packet.magic := by decide
  have hgid : pack 1 7 = .ok [7] := by decide
  rw [packHeader, hmagic, pack_of_lt (by simpa using h), hgid, pack_byte, pack_byte]
  rfl

/-- **A request is a packet around the length-prefixed names.** -/
theorem getPackedMessage_eq (req_id : UInt8) {hosts : List (List UInt8)}
    (hascii : ∀ host ∈ hosts, ∀ b ∈ host, b < 128) (hlen : ∀ host ∈ hosts, host.length ≤ 255)
    (htotal : (encode hosts).length + 9 < 65536) :
    getPackedMessage req_id.toNat hosts = .ok (Packet.stamped req_id (encode hosts)) := by
  have hheader : ∀ k : UInt8, packHeader ((encode hosts).length + 9 : ℕ) k.toNat req_id.toNat
      = .ok (Packet.header ((encode hosts).length + 9) k req_id) :=
    fun k => packHeader_eq htotal k req_id
  have hsize : (Packet.header ((encode hosts).length + 9) 0 req_id ++ encode hosts).length
      = (encode hosts).length + 9 := by
    rw [List.length_append, Packet.length_header, Nat.add_comm]
  have hsum : getChecksum (Packet.header ((encode hosts).length + 9) 0 req_id ++ encode hosts)
      ((encode hosts).length + 9) = .ok (OnesComplement.checksum
        (Packet.header ((encode hosts).length + 9) 0 req_id ++ encode hosts)) := by
    rw [getChecksum_eq (Nat.le_of_eq hsize.symm), List.take_of_length_le (Nat.le_of_eq hsize)]
  have hzero := hheader 0
  rw [UInt8.toNat_zero, Nat.cast_zero] at hzero
  rw [getPackedMessage, foldlM_packHost _ hascii hlen, ok_bind]
  simp only [List.nil_append, Nat.zero_add]
  rw [hzero, ok_bind, hsum, ok_bind, hheader, ok_bind]
  rfl

/-! ### What packing raises -/

section

variable {r : ℤ} {host : List UInt8} {hosts : List (List UInt8)} {e : PyError}

/-- What packing a name raises. -/
def hostError (host : List UInt8) : Option PyError :=
  if ∃ b ∈ host, 128 ≤ b then some .valueError
  else if 255 < host.length then some .structError
  else none

/-- What packing a request raises. -/
def requestError (hosts : List (List UInt8)) : Option PyError :=
  (hosts.findSome? hostError).or
    (if 65536 ≤ (encode hosts).length + 9 then some .structError else none)

theorem hostError_eq_none_iff :
    hostError host = none ↔ (∀ b ∈ host, b < 128) ∧ host.length ≤ 255 := by
  rw [hostError]
  split_ifs with hascii hlen
  · obtain ⟨b, hb, hle⟩ := hascii
    exact iff_of_false (by simp) fun h => absurd (h.1 b hb) (UInt8.not_lt.mpr hle)
  · exact iff_of_false (by simp) fun h => absurd h.2 (by omega)
  · refine iff_of_true rfl ⟨fun b hb => UInt8.not_le.mp fun hle => hascii ⟨b, hb, hle⟩, by omega⟩

theorem packHost_eq_error (acc : List UInt8 × ℕ) (h : hostError host = some e) :
    packHost acc host = .error e := by
  rw [hostError] at h
  split_ifs at h with hascii hlen
  · obtain rfl := Option.some.inj h
    obtain ⟨b, hb, hle⟩ := hascii
    have hnot : ¬ ∀ b ∈ host, b < 128 := fun hall => UInt8.not_lt.mpr hle (hall b hb)
    rw [packHost, utf8Length_eq_error hnot]
    rfl
  · obtain rfl := Option.some.inj h
    have hall : ∀ b ∈ host, b < 128 := fun b hb => UInt8.not_le.mp fun hle => hascii ⟨b, hb, hle⟩
    simp only [packHost, utf8Length_eq hall, pack_byte_of_lt hlen, ok_bind]
    rfl

/-- The loop over the names ends at the first one that raises. -/
theorem foldlM_packHost_eq_error (acc : List UInt8 × ℕ)
    (h : hosts.findSome? hostError = some e) : hosts.foldlM packHost acc = .error e := by
  induction hosts generalizing acc with
  | nil => exact absurd h (by simp)
  | cons host hosts ih =>
    rw [List.foldlM_cons]
    cases hhost : hostError host with
    | some e' =>
      rw [List.findSome?_cons_of_isSome (by rw [hhost]; rfl), hhost] at h
      obtain rfl := Option.some.inj h
      rw [packHost_eq_error acc hhost]
      rfl
    | none =>
      rw [List.findSome?_cons_of_isNone (by rw [hhost]; rfl)] at h
      obtain ⟨hascii, hlen⟩ := hostError_eq_none_iff.mp hhost
      rw [packHost_eq acc hascii hlen, ok_bind]
      exact ih _ h

/-- **What packing raises.** -/
theorem getPackedMessage_eq_error (h : requestError hosts = some e) :
    getPackedMessage r hosts = .error e := by
  rw [requestError] at h
  cases hfind : hosts.findSome? hostError with
  | some e' =>
    rw [hfind, Option.some_or] at h
    obtain rfl := Option.some.inj h
    rw [getPackedMessage, foldlM_packHost_eq_error _ hfind]
    rfl
  | none =>
    rw [hfind, Option.none_or] at h
    obtain ⟨hlong, rfl⟩ : 65536 ≤ (encode hosts).length + 9 ∧ e = .structError := by
      split_ifs at h with hlong
      exact ⟨hlong, (Option.some.inj h).symm⟩
    have hok := fun host hhost => hostError_eq_none_iff.mp
      (List.findSome?_eq_none_iff.mp hfind host hhost)
    have hfold := foldlM_packHost ([], 0) (fun host hhost => (hok host hhost).1)
      (fun host hhost => (hok host hhost).2)
    have hmagic : pack 4 0x4a6f7921 = .ok Packet.magic := by decide
    have hheader : packHeader (0 + (encode hosts).length + 9 : ℕ) 0 r = .error .structError := by
      rw [packHeader, hmagic, ok_bind, pack, if_neg (by omega)]
      rfl
    rw [getPackedMessage, hfold, ok_bind]
    dsimp only
    rw [hheader]
    rfl

/-- **What packing does not raise for.** -/
theorem requestError_eq_none_iff : requestError hosts = none ↔
    (∀ host ∈ hosts, (∀ b ∈ host, b < 128) ∧ host.length ≤ 255) ∧
      (encode hosts).length + 9 < 65536 := by
  rw [requestError, Option.or_eq_none_iff, List.findSome?_eq_none_iff]
  simp only [hostError_eq_none_iff, ite_eq_right_iff, reduceCtorEq, imp_false, Nat.not_le]

/-- Otherwise there is a request. -/
theorem exists_getPackedMessage (hr : 0 ≤ r) (hr' : r < 128) (h : requestError hosts = none) :
    ∃ datagram, getPackedMessage r hosts = .ok datagram := by
  obtain ⟨hok, htotal⟩ := requestError_eq_none_iff.mp h
  obtain ⟨n, rfl⟩ := Int.eq_ofNat_of_zero_le hr
  have hid : (UInt8.ofNat n).toNat = n := UInt8.toNat_ofNat_of_lt' (show n < 256 by omega)
  have hpack := getPackedMessage_eq (.ofNat n) (fun host hhost => (hok host hhost).1)
    (fun host hhost => (hok host hhost).2) htotal
  rw [hid] at hpack
  exact ⟨_, hpack⟩

end

/-! ### Accepting a reply -/

/-- The length field of a datagram. -/
def tmlField (d : List UInt8) : ℕ := ofBE ((d.drop 4).take 2)

/-- The response unpacked from a datagram that is as long as its length field says, or longer. -/
def unpacked (d : List UInt8) : Response :=
  ⟨ofBE (d.take 4), tmlField d, d.getD 6 0, d.getD 7 0, d.getD 8 0,
    (d.drop 9).take (tmlField d - 9)⟩

variable {d : List UInt8}

/-- A length field that the datagram cannot bear out is an error. -/
theorem unpackResponse_eq_error (hlen : 9 < d.length)
    (h : tmlField d < 9 ∨ d.length < tmlField d) :
    unpackResponse d = .error .structError := by
  rw [unpackResponse, if_pos hlen, unpackHeader, if_neg (by omega), ok_bind]
  dsimp only
  rw [← tmlField, if_pos (by omega)]
  rfl

theorem unpackResponse_eq_ok (hlen : 9 < d.length) (hmin : 9 ≤ tmlField d)
    (hmax : tmlField d ≤ d.length) : unpackResponse d = .ok (unpacked d) := by
  rw [unpackResponse, if_pos hlen, unpackHeader, if_neg (by omega), ok_bind]
  dsimp only
  rw [← tmlField, if_neg (by omega), show ((tmlField d : ℤ) - 9).toNat = tmlField d - 9 by omega]
  rfl

/-! The loop body of `get_response`, by the length of the datagram. -/

theorem trial_of_length_le (hlen : d.length ≤ 9) : trial d = .ok none := by
  rw [trial]
  by_cases h : d.length = 9
  · rw [if_pos h, unpackInvalidResponse, unpackHeader, if_neg (by omega)]
    rfl
  · rw [if_neg h, if_pos (by omega)]
    rfl

theorem trial_eq_error (hlen : 9 < d.length) (h : tmlField d < 9 ∨ d.length < tmlField d) :
    trial d = .error .structError := by
  rw [trial, if_neg (by omega), if_neg (by omega), if_pos hlen, unpackResponse_eq_error hlen h]
  rfl

/-- The checksum alone decides about the rest, and it is taken over as many bytes as the length
field says. -/
theorem trial_eq_ok (hlen : 9 < d.length) (hmin : 9 ≤ tmlField d) (hmax : tmlField d ≤ d.length) :
    trial d = .ok (if OnesComplement.checksum (d.take (tmlField d)) = 0 then some (unpacked d)
      else none) := by
  have hsum : getChecksum d (unpacked d).tml
      = .ok (OnesComplement.checksum (d.take (tmlField d))) := getChecksum_eq hmax
  rw [trial, if_neg (by omega), if_neg (by omega), if_pos hlen, unpackResponse_eq_ok hlen hmin hmax,
    ok_bind, hsum, ok_bind]
  split_ifs <;> rfl

/-- The response read off a packet. -/
def responseOf (p : List UInt8) : Response :=
  ⟨ofBE (p.take 4), p.length, p.getD 6 0, p.getD 7 0, p.getD 8 0, p.drop 9⟩

theorem unpacked_of_wellFormed {p : List UInt8} (h : Packet.WellFormed p) :
    unpacked p = responseOf p := by
  have hdrop : (p.drop 9).take (p.length - 9) = p.drop 9 :=
    List.take_of_length_le (List.length_drop ..).le
  rw [unpacked, tmlField, h.tml, hdrop]
  rfl

/-- **A well-formed packet longer than the header passes every check.** -/
theorem trial_of_wellFormed {p : List UInt8} (h : Packet.WellFormed p) (hlen : 9 < p.length) :
    trial p = .ok (some (responseOf p)) := by
  have html : tmlField p = p.length := h.tml
  rw [trial_eq_ok hlen (by omega) (by omega), html, List.take_length, if_pos h.verifies,
    unpacked_of_wellFormed h]

/-- It is accepted as soon as it arrives. -/
theorem getResponse_of_wellFormed {p : List UInt8} (h : Packet.WellFormed p) (hlen : 9 < p.length)
    (hmax : p.length ≤ 4096) (rest : List (List UInt8)) :
    getResponse (p :: rest) = .answer (responseOf p) 1 := by
  rw [getResponse, responseLoop, if_pos (by omega), List.take_of_length_le hmax,
    trial_of_wellFormed h hlen]

/-! ### Printing the addresses -/

/-- `inet_ntoa` of an address in network order. -/
def inetNtoa (s_addr : UInt32) : String :=
  dotted ((image32 s_addr).getD 0 0) ((image32 s_addr).getD 1 0) ((image32 s_addr).getD 2 0)
    ((image32 s_addr).getD 3 0)

/-- The bytes of address `x` in a list of addresses. -/
theorem getElem?_flatMap_image32 (as : List UInt32) {x i : ℕ} (hx : x < as.length) (hi : i < 4) :
    (as.flatMap image32)[x * 4 + i]? = some ((image32 as[x]).getD i 0) := by
  induction as generalizing x with
  | nil => simp at hx
  | cons a as ih =>
    have hlen : (image32 a).length = 4 := length_image32 a
    rw [List.flatMap_cons]
    cases x with
    | zero =>
      rw [List.getElem?_append_left (by omega), List.getElem_cons_zero, List.getD_eq_getElem?_getD,
        Nat.zero_mul, Nat.zero_add, List.getElem?_eq_getElem (by omega)]
      rfl
    | succ x =>
      rw [List.getElem?_append_right (by omega), hlen,
        show (x + 1) * 4 + i - 4 = x * 4 + i by omega,
        ih (by simpa using hx), List.getElem_cons_succ]

/-- The hosts are printed with the addresses in their order, until there is no address left. Fewer
than four bytes are no address. -/
theorem printAddresses_append (as : List UInt32) {rest : List UInt8} (hrest : rest.length < 4)
    {x : ℕ} {hosts : List (List UInt8)} (hx : x ≤ as.length) :
    printAddresses (as.flatMap image32 ++ rest) x hosts
      = (List.zipWith (fun host a => Line.address host (inetNtoa a)) hosts (as.drop x),
          if x + hosts.length ≤ as.length then none else some .indexError) := by
  have hbytes := length_flatMap_image32 as
  induction hosts generalizing x with
  | nil => simp [printAddresses, hx]
  | cons host hosts ih =>
    have hstart : (if x = 0 then 0 else x * 4) = x * 4 + 0 := by split <;> omega
    rcases Nat.lt_or_eq_of_le hx with hlt | rfl
    · have hbyte : ∀ i < 4, (as.flatMap image32 ++ rest)[x * 4 + i]?
          = some ((image32 as[x]).getD i 0) := by
        intro i hi
        rw [List.getElem?_append_left (by omega), getElem?_flatMap_image32 as hlt hi]
      rw [printAddresses, hstart, hbyte 0 (by omega), Nat.add_zero, hbyte 1 (by omega),
        hbyte 2 (by omega), hbyte 3 (by omega), ih hlt, List.drop_eq_getElem_cons hlt,
        List.zipWith_cons_cons, List.length_cons, Nat.add_right_comm x 1]
      rfl
    · have hend : (as.flatMap image32 ++ rest)[as.length * 4 + 0 + 3]? = none :=
        List.getElem?_eq_none (by rw [List.length_append]; omega)
      rw [printAddresses, hstart, hend, List.drop_length, List.zipWith_nil_right, if_neg (by simp)]
      split
      · contradiction
      · rfl

theorem printAddresses_zipWith (as : List UInt32) {x : ℕ} {hosts : List (List UInt8)}
    (hx : x ≤ as.length) : printAddresses (as.flatMap image32) x hosts
      = (List.zipWith (fun host a => Line.address host (inetNtoa a)) hosts (as.drop x),
          if x + hosts.length ≤ as.length then none else some .indexError) := by
  rw [← List.append_nil (as.flatMap image32), printAddresses_append as (by decide) hx]

/-- **With one address per host, every host is printed with its address and nothing fails.** -/
theorem printAddresses_eq (as : List UInt32) {x : ℕ} {hosts : List (List UInt8)}
    (h : x + hosts.length = as.length) :
    printAddresses (as.flatMap image32) x hosts
      = (List.zipWith (fun host a => Line.address host (inetNtoa a)) hosts (as.drop x), none) := by
  rw [printAddresses_zipWith as (by omega), if_pos h.le]

end ClientUDP

end Lab2

end Comp4320
