import Comp4320.Lab1.DisemvowelBlock
import Comp4320.Lab1.RequestDecoding

/-!
# The two servers of the first lab

The TCP server and the UDP server implement the same three operations, one with a table of twelve
vowels and the other with a loop over six, a flag and `tolower`. Both compute what the operations
mean, so they agree, and what holds of the operations holds of both.

Their parsers do not agree. The length of a request counts its header. The UDP server takes the text
up to that length; the TCP server takes as many bytes as the length says, and with them three bytes
from behind the request. Its counting and copying loops stop three bytes short and never see these,
but `uppercase` encodes the whole message.

## Main definitions

* `ParsersAgree` — the two servers read one request from a buffer

## Main results

* `operations_agree` — the operations, and the laws they obey
* `parsers_share` — what the two requests have in common, and what they do not
* `not_parsersAgree` — there is no buffer from which both read the same request
-/

namespace Comp4320

namespace Lab1

variable {rec : Received} {s : List UInt8} {buffer : Memory}

/-! ### The operations -/

/-- The characters the loops of the TCP server look at. -/
theorem scanned_of_prefix (html : rec.tml = s.length + 3) (hmessage : s <+: rec.message) :
    rec.scanned = s := by
  rw [Received.scanned, show (rec.tml - 3).toNat = s.length by omega]
  exact (List.prefix_iff_eq_take.mp hmessage).symm

theorem upperCasing_eq (msg : List UInt8) : ServerUDP.upperCasing msg = uppercased msg := rfl

/-- **The two implementations of the operations agree, and obey their laws.** `copyAccesses` is what
the copying loop of the TCP server writes, in any block. -/
theorem operations_agree (html : rec.tml = s.length + 3) (hmessage : s <+: rec.message) :
    Cpp.ofDigits (ServerUDP.getCLength s) = ServerTCP.cLength rec ∧
    (∀ result, rec.scanned.foldl ServerTCP.copyStep (result, 0)
      = ((ServerTCP.copyAccesses 0 rec.scanned).foldl ServerTCP.Access.apply result,
          (ServerTCP.copyAccesses 0 rec.scanned).length)) ∧
    ServerTCP.copyAccesses 0 rec.scanned
      = ((ServerUDP.disemvoweling s).zipIdx 0).map (fun p => .write p.2 p.1) ∧
    (ServerTCP.copyAccesses 0 rec.scanned).length + ServerTCP.numvowels rec = s.length ∧
    ServerUDP.disemvoweling (ServerUDP.disemvoweling s) = ServerUDP.disemvoweling s ∧
    ServerUDP.getCLength (ServerUDP.disemvoweling s) = ServerUDP.getCLength s ∧
    ServerUDP.disemvoweling (ServerUDP.upperCasing s)
      = ServerUDP.upperCasing (ServerUDP.disemvoweling s) ∧
    ServerUDP.getCLength (ServerUDP.upperCasing s) = ServerUDP.getCLength s := by
  have hscanned := scanned_of_prefix html hmessage
  have hsum := countP_isVowel_add_length s
  simp only [ServerUDP.disemvoweling_eq, ServerUDP.getCLength_eq, upperCasing_eq]
  refine ⟨?_, fun result => ?_, ?_, ?_, disemvoweled_disemvoweled s, ?_,
    disemvoweled_uppercased s, ?_⟩
  · rw [Cpp.ofDigits_toString, ServerTCP.cLength_eq, hscanned]
  · refine Prod.ext (ServerTCP.foldl_apply_copyAccesses result 0 rec.scanned).symm ?_
    rw [ServerTCP.foldl_copyStep, ServerTCP.copyAccesses_eq, List.length_map, List.length_zipIdx,
      Nat.zero_add]
  · rw [ServerTCP.copyAccesses_eq, hscanned]
  · rw [ServerTCP.copyAccesses_eq, List.length_map, List.length_zipIdx, ServerTCP.numvowels_eq,
      hscanned]
    omega
  · rw [consonants_disemvoweled]
  · rw [consonants_uppercased]

/-- The text `Hey`, with more behind it. -/
def hey : Received := ⟨6, 1, 5, [72, 101, 121, 9, 9, 9]⟩

theorem operations_agree_hey :
    Cpp.ofDigits (ServerUDP.getCLength [72, 101, 121]) = ServerTCP.cLength hey ∧
    (∀ result, hey.scanned.foldl ServerTCP.copyStep (result, 0)
      = ((ServerTCP.copyAccesses 0 hey.scanned).foldl ServerTCP.Access.apply result,
          (ServerTCP.copyAccesses 0 hey.scanned).length)) ∧
    ServerTCP.copyAccesses 0 hey.scanned
      = ((ServerUDP.disemvoweling [72, 101, 121]).zipIdx 0).map (fun p => .write p.2 p.1) ∧
    (ServerTCP.copyAccesses 0 hey.scanned).length + ServerTCP.numvowels hey
      = ([72, 101, 121] : List UInt8).length ∧
    ServerUDP.disemvoweling (ServerUDP.disemvoweling [72, 101, 121])
      = ServerUDP.disemvoweling [72, 101, 121] ∧
    ServerUDP.getCLength (ServerUDP.disemvoweling [72, 101, 121])
      = ServerUDP.getCLength [72, 101, 121] ∧
    ServerUDP.disemvoweling (ServerUDP.upperCasing [72, 101, 121])
      = ServerUDP.upperCasing (ServerUDP.disemvoweling [72, 101, 121]) ∧
    ServerUDP.getCLength (ServerUDP.upperCasing [72, 101, 121])
      = ServerUDP.getCLength [72, 101, 121] :=
  operations_agree rfl ⟨[9, 9, 9], rfl⟩

/-! ### The parsers -/

/-- Both servers read a request from the buffer, with the same length, id, operation and message;
the text of either is the stated number of bytes behind the header; and the text that `uppercase`
encodes is that text in upper case. -/
def ParsersAgree (buffer : Memory) : Prop :=
  ∃ rec req, ServerTCP.processRaw buffer = some rec ∧ ServerUDP.parse buffer = .ok req ∧
    rec.tml = req.msgLength ∧ rec.requestID = req.requestID ∧ rec.operation = req.operation ∧
    rec.message = req.message ∧ req.message = buffer.load 3 ((buffer 0).toNat - 3) ∧
    ServerTCP.uppercaseLoop rec = uppercased (buffer.load 3 ((buffer 0).toNat - 3))

/-- The loop of `uppercase` changes every letter it looks at. -/
theorem uppercaseLoop_eq (rec : Received) : ServerTCP.uppercaseLoop rec
    = uppercased rec.scanned ++ rec.message.drop (rec.tml - 3).toNat := by
  have hletter : (fun c => if isLower c then toUpper c else c) = toUpper := by
    funext c
    rw [toUpper]
    cases isLower c <;> rfl
  rw [ServerTCP.uppercaseLoop, hletter, uppercased]

/-- **What the two parsers share**: the header, and the text that the loops of the TCP server look
at. Its message, and what `uppercase` encodes, run on for three bytes. -/
theorem parsers_share (hlow : 3 ≤ (buffer 0).toNat) (hhigh : (buffer 0).toNat ≤ 127) :
    ∃ rec req, ServerTCP.processRaw buffer = some rec ∧ ServerUDP.parse buffer = .ok req ∧
      rec.tml = req.msgLength ∧ rec.requestID = req.requestID ∧ rec.operation = req.operation ∧
      req.message = buffer.load 3 ((buffer 0).toNat - 3) ∧ rec.scanned = req.message ∧
      rec.message = req.message ++ buffer.load (buffer 0).toNat 3 ∧
      ServerTCP.uppercaseLoop rec = uppercased req.message ++ buffer.load (buffer 0).toNat 3 := by
  have html : signedChar (buffer 0) = (buffer 0).toNat := signedChar_of_lt (by omega)
  obtain ⟨n, hn⟩ : ∃ n, (buffer 0).toNat = n + 3 := ⟨(buffer 0).toNat - 3, by omega⟩
  rw [hn] at html
  have hsplit : buffer.load 3 (n + 3) = buffer.load 3 n ++ buffer.load (n + 3) 3 := by
    rw [Memory.load_add, Nat.add_comm 3]
  have hraw : ServerTCP.processRaw buffer = some ⟨(n + 3 : ℕ), signedChar (buffer 1),
      signedChar (buffer 2), buffer.load 3 (n + 3)⟩ := by
    rw [ServerTCP.processRaw, html, if_neg (by omega)]
    rfl
  have hparse : ServerUDP.parse buffer = .ok ⟨(n + 3 : ℕ), signedChar (buffer 1),
      signedChar (buffer 2), buffer.load 3 n, 0⟩ := by
    rw [ServerUDP.parse_eq_ok (by rw [html]; omega), html,
      show ((n + 3 : ℕ) - 3 : ℤ).toNat = n by omega]
  have htext : ((n + 3 : ℕ) - 3 : ℤ).toNat = (buffer.load 3 n).length := by
    rw [Memory.length_load]
    omega
  have hscanned : Received.scanned ⟨(n + 3 : ℕ), signedChar (buffer 1), signedChar (buffer 2),
      buffer.load 3 (n + 3)⟩ = buffer.load 3 n := by
    rw [Received.scanned, htext, hsplit, List.take_left]
  refine ⟨_, _, hraw, hparse, rfl, rfl, rfl, ?_, hscanned, ?_, ?_⟩
  · rw [hn, Nat.add_sub_cancel]
  · rw [hn, hsplit]
  · rw [uppercaseLoop_eq, hscanned, hn, htext, hsplit, List.drop_left]

/-- **The parsers agree on no buffer**: the message of the TCP server is three bytes longer. -/
theorem not_parsersAgree (hlow : 3 ≤ (buffer 0).toNat) (hhigh : (buffer 0).toNat ≤ 127) :
    ¬ ParsersAgree buffer := by
  rintro ⟨rec, req, hraw, hparse, -, -, -, hmessage, -⟩
  obtain ⟨rec', req', hraw', hparse', -, -, -, -, -, hlonger, -⟩ := parsers_share hlow hhigh
  obtain rfl := Option.some.inj (hraw.symm.trans hraw')
  obtain rfl := Except.ok.inj (hparse.symm.trans hparse')
  have hlen := congrArg List.length (hmessage.symm.trans hlonger)
  rw [List.length_append, Memory.length_load] at hlen
  omega

/-- A request to count the consonants of `hi`. -/
theorem not_parsersAgree_hi : ¬ ParsersAgree (.ofList [5, 1, 5, 104, 105, 33, 33, 33]) :=
  not_parsersAgree (by decide) (by decide)

/-- A request to change `no` to upper case, with zeros behind it. -/
theorem not_parsersAgree_no :
    (Memory.ofList [5, 1, 10, 110, 111] 0).toNat = 5 ∧
      ¬ ParsersAgree (.ofList [5, 1, 10, 110, 111]) := by
  refine ⟨rfl, ?_⟩
  rintro ⟨rec, req, hraw, -, -, -, -, hmessage, htext, -⟩
  obtain rfl := Option.some.inj hraw
  have hlen := congrArg List.length (hmessage.trans htext)
  rw [Memory.length_load, Memory.length_load] at hlen
  exact absurd hlen (by decide)

end Lab1

end Comp4320
