import Comp4320.Lab2.Execute
import Comp4320.Lab2.ReplyCorruption
import Comp4320.Lab2.ServerVerdict
import Mathlib.Data.List.Find

/-!
# Any number of wrong bytes

A single wrong byte is noticed, unless it is a zero that has become 255 or the other way round. Of
several the checksum knows the sum, modulo 255. So bytes that trade places are never noticed: the
server looks up other names, and the client prints the addresses next to the wrong ones.

What is lost from the end of a request, or added to it, is noticed as long as the length field
arrives as it was sent.

## Main results

* `Packet.WellFormed.iff_of_keeps` — what a packet may become without a receiver noticing
* `ServerUDP.accepted_iff_of_keeps` — which wrong requests the server accepts
* `ClientUDP.execute_of_overwritten` — what a call prints of wrong answers
-/

namespace Comp4320

namespace Lab2

open ByteOrder OnesComplement

variable {d d' : List UInt8}

/-- **What a packet may become without a receiver noticing**, if its length or its first six bytes
stay the same: another packet of that length and with these bytes, and with the same sum. -/
theorem Packet.WellFormed.iff_of_keeps (h : WellFormed d) (hlen : 6 ≤ d.length)
    (hlen' : 6 ≤ d'.length) (hkeeps : d'.length = d.length ∨ d'.take 6 = d.take 6) :
    WellFormed d' ↔ d'.length = d.length ∧ d'.take 6 = d.take 6 ∧
      byteSum d' ≡ byteSum d [MOD 255] := by
  have hmagic : d'.take 6 = d.take 6 → d'.take 4 = Packet.magic := by
    intro htake
    have hfour := congrArg (List.take 4) htake
    rwa [List.take_take, List.take_take, show min 4 6 = 4 from rfl, h.magic] at hfour
  have html : d'.take 6 = d.take 6 → ofBE ((d'.drop 4).take 2) = d.length := by
    intro htake
    have htwo := congrArg (List.drop 4) htake
    rw [List.drop_take, List.drop_take] at htwo
    rw [htwo, h.tml]
  constructor
  · intro h'
    have htake : d'.length = d.length → d'.take 6 = d.take 6 := by
      intro heq
      rw [h'.take_six hlen', h.take_six hlen, heq]
    have heq : d'.length = d.length :=
      hkeeps.elim id fun htake => h'.tml.symm.trans (html htake)
    have hsum := lt_byteSum h'.magic
    exact ⟨heq, htake heq, (checksum_eq_zero_iff_modEq h.verifies (by omega)).mp h'.verifies⟩
  · rintro ⟨heq, htake, hsum⟩
    have hpos := lt_byteSum (hmagic htake)
    exact ⟨hmagic htake, (html htake).trans heq.symm,
      (checksum_eq_zero_iff_modEq h.verifies (by omega)).mpr hsum⟩

namespace ServerUDP

variable {buf : ClientRequest}

/-- **Which wrong requests the server accepts**, among those that keep the length or the first six
bytes of one that it accepts: no others than those that keep both, and the sum. So it never notices
that bytes behind the length field have traded places. -/
theorem accepted_iff_of_keeps (hmin : 6 ≤ d.length) (hmax : d.length ≤ 4105)
    (hacc : (processed buf d).error = 0) (hmin' : 6 ≤ d'.length) (hmax' : d'.length ≤ 4105)
    (hkeeps : d'.length = d.length ∨ d'.take 6 = d.take 6) (buf' : ClientRequest) :
    ((processed buf' d').error = 0 ↔
      d'.length = d.length ∧ d'.take 6 = d.take 6 ∧ byteSum d' ≡ byteSum d [MOD 255]) ∧
    (d'.take 6 = d.take 6 → (d'.drop 6).Perm (d.drop 6) → (processed buf' d').error = 0) := by
  rw [error_eq_zero_iff_wellFormed hmin hmax] at hacc
  rw [error_eq_zero_iff_wellFormed hmin' hmax', hacc.iff_of_keeps hmin hmin' hkeeps]
  refine ⟨Iff.rfl, fun htake hperm => ?_⟩
  have hall : d'.Perm d := by
    rw [← List.take_append_drop 6 d', ← List.take_append_drop 6 d, htake]
    exact hperm.append_left _
  exact ⟨hall.length_eq, htake, by rw [byteSum_perm hall]⟩

/-- A request for two names, and what it becomes when their second letters trade places. -/
def twoNamesRequest : List UInt8 := Packet.stamped 5 [2, 97, 98, 2, 99, 100]

def swappedRequest : List UInt8 := twoNamesRequest.take 9 ++ [2, 97, 100, 2, 99, 98]

theorem accepted_iff_of_keeps_two_names :
    (processed (fun _ => 0) twoNamesRequest).error = 0 ∧
    ((processed (fun _ => 0) swappedRequest).error = 0 ↔
      swappedRequest.length = twoNamesRequest.length ∧
        swappedRequest.take 6 = twoNamesRequest.take 6 ∧
        byteSum swappedRequest ≡ byteSum twoNamesRequest [MOD 255]) ∧
    (swappedRequest.take 6 = twoNamesRequest.take 6 →
      (swappedRequest.drop 6).Perm (twoNamesRequest.drop 6) →
        (processed (fun _ => 0) swappedRequest).error = 0) := by
  have hacc : (processed (fun _ => 0) twoNamesRequest).error = 0 := by decide +kernel
  exact ⟨hacc, accepted_iff_of_keeps (by decide) (by decide) hacc (by decide) (by decide)
    (Or.inl (by decide)) _⟩

end ServerUDP

namespace ClientUDP

variable {r : List UInt8} {hosts rs : List (List UInt8)} {id : ℤ}

/-- An answer that keeps its length and its length field is accepted as long as it keeps its sum. -/
theorem Answer.acceptable_iff (hr : Answer r) (hlen : d.length = r.length)
    (html : tmlField d = tmlField r) : Acceptable d ↔ byteSum d % 255 = byteSum r % 255 := by
  obtain ⟨n, hn, -, hlength⟩ := hr.addresses
  have hfield : tmlField d = d.length := by
    rw [html, hlen]
    exact hr.wellFormed.tml
  obtain ⟨-, low, hlow, hlowlen⟩ := hr.tml_bytes
  have hbytes : (d.drop 4).take 2 = (r.drop 4).take 2 :=
    ofBE_injective (by rw [List.length_take, List.length_take, List.length_drop, List.length_drop,
      hlen]) html
  have hlow' : low ∈ d := by
    have hmem : low ∈ (r.drop 4).take 2 := by
      refine List.mem_of_getElem? (i := 1) ?_
      rw [List.getElem?_take_of_lt (by omega), List.getElem?_drop, hlow]
    rw [← hbytes] at hmem
    exact List.mem_of_mem_drop (List.mem_of_mem_take hmem)
  have hpos : 0 < byteSum d := by
    have hle : low.toNat ≤ byteSum d := List.single_le_sum (fun _ _ => Nat.zero_le _) _
      (List.mem_map_of_mem hlow')
    omega
  rw [Acceptable, hfield, List.take_length, checksum_eq_zero_iff_modEq hr.wellFormed.verifies hpos]
  exact ⟨fun h => h.2.2.2, fun h => ⟨by omega, by omega, le_rfl, h⟩⟩

/-- **What a call prints of wrong answers**, if they keep the length and the length field of one
that is right: the first of seven with the same sum modulo 255 is taken for it. -/
theorem execute_of_overwritten (hr : Answer r) (hid : id > -1 ∧ id < 128)
    (hpack : requestError hosts = none)
    (hrs : ∀ d ∈ rs, d.length = r.length ∧ tmlField d = tmlField r) :
    execute (some id) hosts rs =
      match (rs.take 7).find? fun d => byteSum d % 255 = byteSum r % 255 with
      | none => ([], none)
      | some d => listing hosts (d.drop 9) := by
  obtain ⟨n, hn, hn', hlength⟩ := hr.addresses
  have hfield : ∀ d ∈ rs, tmlField d = d.length := by
    intro d hd
    rw [(hrs d hd).2, (hrs d hd).1]
    exact hr.wellFormed.tml
  have hmal : ∀ d ∈ rs, ¬ Malformed d := by
    rintro d hd ⟨-, hlow | hhigh⟩
    · rw [hfield d hd, (hrs d hd).1] at hlow
      omega
    · exact absurd hhigh (by rw [hfield d hd]; omega)
  have hcut : (rs.take 7).map (List.take 4096) = rs.take 7 := by
    refine (List.map_congr_left fun d hd => ?_).trans (List.map_id _)
    have hle := (hrs d (List.mem_of_mem_take hd)).1
    exact List.take_of_length_le (by omega)
  have hdecisive : decisive rs
      = (rs.take 7).find? fun d => byteSum d % 255 = byteSum r % 255 := by
    rw [decisive, hcut]
    refine List.find?_congr fun d hd => decide_eq_decide.mpr ?_
    have hd := List.mem_of_mem_take hd
    rw [or_iff_right (hmal d hd), hr.acceptable_iff (hrs d hd).1 (hrs d hd).2]
  rw [execute_of_packed hid hpack, hdecisive]
  cases hfind : (rs.take 7).find? fun d => byteSum d % 255 = byteSum r % 255 with
  | none => rfl
  | some d =>
    have hd := List.mem_of_mem_take (List.mem_of_find?_eq_some hfind)
    dsimp only
    rw [if_neg (hmal d hd), unpacked, hfield d hd]
    dsimp only
    rw [List.take_of_length_le (List.length_drop ..).le]

/-- An answer with two addresses. -/
def twoAddresses : List UInt8 := Packet.stamped 5 [1, 2, 3, 4, 5, 6, 7, 8]

/-- First one of its bytes arrives wrong, and then the addresses trade places. -/
def wrongAnswers : List (List UInt8) :=
  [twoAddresses.set 9 7, twoAddresses.take 9 ++ [5, 6, 7, 8, 1, 2, 3, 4]]

/-- Either name is printed with the address of the other. -/
theorem execute_of_overwritten_two_addresses :
    listing [[97], [98]] [5, 6, 7, 8, 1, 2, 3, 4]
        = ([.address [97] "5.6.7.8", .address [98] "1.2.3.4"], none) ∧
      ((wrongAnswers.take 7).find? fun d => byteSum d % 255 = byteSum twoAddresses % 255)
        = some (twoAddresses.take 9 ++ [5, 6, 7, 8, 1, 2, 3, 4]) ∧
      execute (some 5) [[97], [98]] wrongAnswers =
        match (wrongAnswers.take 7).find? fun d => byteSum d % 255 = byteSum twoAddresses % 255 with
        | none => ([], none)
        | some d => listing [[97], [98]] (d.drop 9) := by
  have hr : Answer twoAddresses := answer_stamped 5 (n := 2) (by decide) (by decide) rfl
  have hrs : ∀ d ∈ wrongAnswers,
      d.length = twoAddresses.length ∧ tmlField d = tmlField twoAddresses := by
    decide +kernel
  exact ⟨by decide +kernel, by decide +kernel,
    execute_of_overwritten hr (by decide) (by decide +kernel) hrs⟩

end ClientUDP

end Lab2

end Comp4320
