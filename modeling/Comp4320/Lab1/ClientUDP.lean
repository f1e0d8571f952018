import Comp4320.Python

/-!
# The UDP client

`LAB_1/udp-client-server/ClientUDP.py`. Each message typed in is packed behind a header of three
bytes and sent, and the datagram that comes back is taken apart: its length, a request id, and what
lies between these two bytes and the stated length. The request ids are counted from zero and packed
into one byte each.

## What is left out

What the client prints, the time it measures, and the socket: `recvfrom` returns the datagram that
`getResponse` is given.

## Main definitions

* `ClientUDP.getPackedMessage` — the datagram for a message, and the next request id
* `ClientUDP.getResponse` — what is read of the answer
-/

namespace Comp4320

namespace Lab1

open ByteOrder

namespace ClientUDP

/-- The code of an operation. Whatever is neither `1` nor `2` is taken for an upcasing. -/
def opsCode (ops : ℤ) : UInt8 := if ops = 1 then 0x05 else if ops = 2 then 0x50 else 0x0a

/-- `get_packed_message`: the message for the server, and `request_id` afterwards. -/
def getPackedMessage (request_id : ℕ) (msg : List UInt8) (ops : ℤ) :
    Except PyError (List UInt8 × ℕ) := do
  let msg_size_byte ← utf8Length msg
  let tml ← pack 1 (msg_size_byte + 3 : ℕ)
  let rid ← pack 1 request_id
  let ops_code ← pack 1 (opsCode ops).toNat
  return (tml ++ rid ++ ops_code ++ msg, request_id + 1)

/-- `struct.unpack("B", s)[0]`. -/
def unpackByte : List UInt8 → Except PyError ℕ
  | [b] => .ok b.toNat
  | _ => .error .structError

/-- `get_response`, once the datagram is there. -/
def getResponse (datagram : List UInt8) : Except PyError (ℕ × ℕ × List UInt8) := do
  let data := datagram.take 4096
  let tml ← unpackByte (data.take 1)
  let rid ← unpackByte ((data.take 2).drop 1)
  let response := (data.take tml).drop 2
  return (tml, rid, response)

variable {request_id : ℕ} {msg : List UInt8}

/-- **The datagram for a message**, as far as its length and the request id fit a byte. -/
theorem getPackedMessage_eq (ops : ℤ) (hascii : ∀ c ∈ msg, c < 128) (hlen : msg.length + 3 ≤ 255)
    (hid : request_id ≤ 255) :
    getPackedMessage request_id msg ops = .ok
      (.ofNat (msg.length + 3) :: .ofNat request_id :: opsCode ops :: msg, request_id + 1) := by
  rw [getPackedMessage, utf8Length_eq hascii, ok_bind, pack_byte_of_le hlen, pack_byte_of_le hid,
    pack_byte]
  rfl

/-- **A request id that does not fit is an error.** -/
theorem getPackedMessage_eq_error (ops : ℤ) (hascii : ∀ c ∈ msg, c < 128)
    (hlen : msg.length + 3 ≤ 255) (hid : 255 < request_id) :
    getPackedMessage request_id msg ops = .error .structError := by
  rw [getPackedMessage, utf8Length_eq hascii, ok_bind, pack_byte_of_le hlen, ok_bind,
    pack_byte_of_lt hid]
  rfl

/-- What is read of a datagram that is not cut. -/
theorem getResponse_cons (tml rid : UInt8) {bs : List UInt8} (h : bs.length + 2 ≤ 4096) :
    getResponse (tml :: rid :: bs)
      = .ok (tml.toNat, rid.toNat, ((tml :: rid :: bs).take tml.toNat).drop 2) := by
  have hdata : (tml :: rid :: bs).take 4096 = tml :: rid :: bs := List.take_of_length_le h
  rw [getResponse, hdata]
  rfl

end ClientUDP

end Lab1

end Comp4320
