import Comp4320.Python

/-!
# The TCP client

`LAB_1/TCP_Server/ClientTCP.py`. A call sends one message and takes what comes back apart: three
bytes for the number of consonants, and for the two other operations two bytes and whatever is
behind them. The request ids are counted by the class, and a message is packed into bytes, so an id
or a length above 255 is an error.

## What is left out

The prompts and what the client prints, and the socket: a connection is what `recv` returns for a
message sent on it.

## Main definitions

* `ClientTCP.sendMessage` — the message of a call
* `ClientTCP.cLength`, `Disemvowel`, `Uppercasing` — the three calls
-/

namespace Comp4320

namespace Lab1

namespace ClientTCP

/-- What `recv` returns for what `sendall` was given, and nothing if the server closes the
connection without an answer. -/
abbrev Connection := List UInt8 → List UInt8

/-- `sendMessage`: the next request id and the message. The id is counted whether it packs or
not. -/
def sendMessage (requestID : ℕ) (operation : ℤ) (s : List UInt8) :
    ℕ × Except PyError (List UInt8) :=
  (requestID + 1, do
    let tml ← pack 1 (3 + s.length : ℕ)
    let rid ← pack 1 requestID
    let operation ← pack 1 operation
    return tml ++ rid ++ operation ++ s)

/-- `struct.unpack('!B B B', resp[:3])`. -/
def unpackCount (resp : List UInt8) : Except PyError (UInt8 × UInt8 × UInt8) :=
  match resp.take 3 with
  | [resTML, resRid, resAns] => .ok (resTML, resRid, resAns)
  | _ => .error .structError

/-- `struct.unpack('!B B', resp[:2])`, and `resp[2:]`. -/
def unpackText (resp : List UInt8) : Except PyError (UInt8 × UInt8 × List UInt8) :=
  match resp.take 2 with
  | [resTML, resRid] => .ok (resTML, resRid, resp.drop 2)
  | _ => .error .structError

/-- A call: the next request id, and what it returns. -/
def call {α : Type} (operation : ℤ) (unpack : List UInt8 → Except PyError α)
    (connection : Connection) (requestID : ℕ) (s : List UInt8) : ℕ × Except PyError α :=
  let (requestID, sent) := sendMessage requestID operation s
  (requestID, do
    let message ← sent
    let resp := (connection message).take 4096
    unpack resp)

/-- `cLength`. -/
def cLength := call 5 unpackCount

/-- `Disemvowel`. -/
def Disemvowel := call 80 unpackText

/-- `Uppercasing`. -/
def Uppercasing := call 10 unpackText

variable {requestID : ℕ} {s : List UInt8}

/-- The message, as far as its length and its id fit a byte. -/
theorem sendMessage_eq (operation : UInt8) (hlen : 3 + s.length ≤ 255) (hid : requestID ≤ 255) :
    (sendMessage requestID operation.toNat s).2
      = .ok (.ofNat (3 + s.length) :: .ofNat requestID :: operation :: s) := by
  rw [sendMessage, pack_byte_of_le hlen, pack_byte_of_le hid, pack_byte]
  rfl

/-- A length or an id that does not fit is an error. -/
theorem sendMessage_eq_error (operation : ℤ) (h : 255 < 3 + s.length ∨ 255 < requestID) :
    (sendMessage requestID operation s).2 = .error .structError := by
  rw [sendMessage]
  rcases Nat.lt_or_ge 255 (3 + s.length) with hlen | hlen
  · rw [pack_byte_of_lt hlen]
    rfl
  · rw [pack_byte_of_le hlen, pack_byte_of_lt (show 255 < requestID by omega)]
    rfl

section

variable {α : Type} {unpack : List UInt8 → Except PyError α} {connection : ClientTCP.Connection}

theorem call_eq (operation : UInt8) (hlen : 3 + s.length ≤ 255) (hid : requestID ≤ 255) :
    (call operation.toNat unpack connection requestID s).2 = unpack ((connection
      (.ofNat (3 + s.length) :: .ofNat requestID :: operation :: s)).take 4096) := by
  show (sendMessage requestID operation.toNat s).2 >>= _ = _
  rw [sendMessage_eq operation hlen hid, ok_bind]

theorem call_eq_error (operation : ℤ) (h : 255 < 3 + s.length ∨ 255 < requestID) :
    (call operation unpack connection requestID s).2 = .error .structError := by
  show (sendMessage requestID operation s).2 >>= _ = _
  rw [sendMessage_eq_error operation h]
  rfl

end

end ClientTCP

end Lab1

end Comp4320
