import Comp4320.Lab2.Packet
import Comp4320.Python

/-!
# The DNS proxy client

`LAB_2/ClientUDP.py`. A request is packed twice, the second time with the checksum of the first
filled in, and sent; `get_response` then takes datagrams until one passes its checks, sending the
request again after each one that does not, at most seven times. Every exception a check can
raise is kept: nothing in `get_response` catches one, and `execute` catches `ValueError` only.

The replies are a list, one datagram for each time the client calls `recvfrom`; the call blocks
when the list is exhausted.

## What is left out

What `get_response`, `get_checksum` and the packing functions print, the hexadecimal dump
`execute` prints before the addresses, and the `socket` calls failing.

## Main definitions

* `ClientUDP.getPackedMessage` — the request for a list of hosts
* `ClientUDP.getChecksum` — the checksum loop, which fails past the end of the message
* `ClientUDP.unpackResponse`, `unpackInvalidResponse` — the two reply formats
* `ClientUDP.trial`, `getResponse` — one pass of the retry loop, and the loop
* `ClientUDP.execute` — a whole call, with everything it prints
-/

namespace Comp4320

namespace Lab2

open ByteOrder

namespace ClientUDP

/-! ### The checksum -/

/-- `currentsum += array[x]` with the carry handled. -/
def addByte (currentsum : ℕ) (b : UInt8) : ℕ :=
  let currentsum := currentsum + b.toNat
  if currentsum > 255 then currentsum - 256 + 1 else currentsum

/-- The loop body of `get_checksum`: `array[x]` raises past the end of the message. -/
def checksumStep (array : List UInt8) (currentsum x : ℕ) : Except PyError ℕ :=
  match array[x]? with
  | some b => .ok (addByte currentsum b)
  | none => .error .indexError

/-- `get_checksum`. -/
def getChecksum (msg : List UInt8) (tml : ℕ) : Except PyError UInt8 := do
  let currentsum ← (List.range tml).foldlM (checksumStep msg) 0
  return ~~~ UInt8.ofNat currentsum

theorem addByte_eq (s : ℕ) (b : UInt8) : addByte s b = OnesComplement.addCarry 255 s b.toNat := by
  simp only [addByte, OnesComplement.addCarry, gt_iff_lt]
  split <;> omega

theorem foldlM_checksumStep {array : List UInt8} {tml : ℕ} (h : tml ≤ array.length) :
    (List.range tml).foldlM (checksumStep array) 0
      = .ok (OnesComplement.carrySum (array.take tml)) := by
  induction tml with
  | zero => rfl
  | succ tml ih =>
    have hget : array[tml]? = some array[tml] := List.getElem?_eq_getElem h
    have hstep : ∀ s, checksumStep array s tml = .ok (addByte s array[tml]) := by
      intro s
      rw [checksumStep, hget]
    rw [List.range_succ, List.foldlM_append, ih (Nat.le_of_succ_le h), List.take_add_one, hget,
      Option.toList_some, OnesComplement.carrySum_concat, ← addByte_eq]
    show List.foldlM (checksumStep array) _ [tml] = _
    rw [List.foldlM_cons, hstep]
    rfl

/-- **The loop computes the ones' complement checksum** of the first `tml` bytes, if there are so
many. -/
theorem getChecksum_eq {msg : List UInt8} {tml : ℕ} (h : tml ≤ msg.length) :
    getChecksum msg tml = .ok (OnesComplement.checksum (msg.take tml)) := by
  rw [getChecksum, foldlM_checksumStep h]
  rfl

/-! ### Packing a request -/

/-- The loop body of `get_packed_message`: append the frame of one host. -/
def packHost (acc : List UInt8 × ℕ) (host : List UInt8) : Except PyError (List UInt8 × ℕ) := do
  let (hosts_packed, host_info_size) := acc
  let host_length ← utf8Length host
  let length_byte ← pack 1 host_length
  return (hosts_packed ++ (length_byte ++ host), host_info_size + host_length + 1)

/-- `struct.pack("!IHBBB", magic, tml, GID, checksum, req_id)`. -/
def packHeader (tml checksum req_id : ℤ) : Except PyError (List UInt8) := do
  let magic ← pack 4 0x4a6f7921
  let tml ← pack 2 tml
  let GID ← pack 1 7
  let checksum ← pack 1 checksum
  let req_id ← pack 1 req_id
  return magic ++ tml ++ (GID ++ checksum ++ req_id)

/-- `get_packed_message`. -/
def getPackedMessage (req_id : ℤ) (hosts : List (List UInt8)) : Except PyError (List UInt8) := do
  let (hosts_packed, host_info_size) ← hosts.foldlM packHost ([], 0)
  let tml := host_info_size + 9
  let header ← packHeader tml 0 req_id
  let checksum ← getChecksum (header ++ hosts_packed) tml
  let header ← packHeader tml checksum.toNat req_id
  return header ++ hosts_packed

/-! ### Unpacking a reply -/

/-- The fields of a reply. -/
structure Response where
  magic : ℕ
  tml : ℕ
  GID : UInt8
  checksum : UInt8
  /-- The request id of an answer, the error code of an error response. -/
  rid : UInt8
  ips : List UInt8
  deriving DecidableEq, Repr

/-- `struct.unpack_from("!LHBBB", data)`. -/
def unpackHeader (data : List UInt8) : Except PyError Response :=
  if data.length < 9 then .error .structError
  else .ok ⟨ofBE (data.take 4), ofBE ((data.drop 4).take 2), data.getD 6 0, data.getD 7 0,
    data.getD 8 0, []⟩

/-- `unpack_response`: the format asks for `tml - 9` bytes behind the header. A negative count is
no format, and more bytes than there are is an error too. -/
def unpackResponse (data : List UInt8) : Except PyError Response := do
  if data.length > 9 then
    let header ← unpackHeader data
    let response_size : ℤ := header.tml - 9
    if response_size < 0 ∨ (data.length : ℤ) < 9 + response_size then throw .structError
    return { header with ips := (data.drop 9).take response_size.toNat }
  else
    return ⟨0, 0, 0, 0, 0, []⟩

/-- `unpack_invalid_response`. -/
def unpackInvalidResponse (data : List UInt8) : Except PyError Response := unpackHeader data

/-! ### The retry loop -/

/-- One pass of the loop of `get_response` over a received datagram: the response returned, or
`none` for another transmission. A wrong magic number is reported and otherwise ignored. -/
def trial (data : List UInt8) : Except PyError (Option Response) := do
  if data.length = 9 then
    let _ ← unpackInvalidResponse data
    return none
  else if data.length < 9 then
    return none
  else if data.length > 9 then
    let response ← unpackResponse data
    if (← getChecksum data response.tml) = 0 then
      return some response
    else
      let _ ← getChecksum data response.tml
      return none
  else
    return none

/-- How a call of `get_response` ends, and after how many transmissions. -/
inductive Outcome
  /-- It returns the addresses of this response. -/
  | answer (response : Response) (trials : ℕ)
  /-- It returns `-1`. -/
  | noAnswer (trials : ℕ)
  /-- An exception leaves it. -/
  | raised (e : PyError) (trials : ℕ)
  /-- It blocks in `recvfrom`. -/
  | blocked (trials : ℕ)
  deriving DecidableEq, Repr

/-- The loop of `get_response` after `trials` transmissions. `recvfrom(4096)` cuts a longer
datagram. -/
def responseLoop (trials : ℕ) : List (List UInt8) → Outcome
  | [] => if trials < 7 then .blocked (trials + 1) else .noAnswer trials
  | datagram :: datagrams =>
    if trials < 7 then
      match trial (datagram.take 4096) with
      | .error e => .raised e (trials + 1)
      | .ok (some response) => .answer response (trials + 1)
      | .ok none => responseLoop (trials + 1) datagrams
    else .noAnswer trials

/-- `get_response`, receiving these datagrams. -/
def getResponse (datagrams : List (List UInt8)) : Outcome := responseLoop 0 datagrams

/-! ### A call -/

/-- What `execute` prints. -/
inductive Line
  /-- A host and its address. -/
  | address (host : List UInt8) (ip_address : String)
  /-- `Request ID must be between [0-255]`. -/
  | requestIdRange
  /-- `Request ID must be a number`, printed for every `ValueError`. -/
  | requestIdNumber
  deriving DecidableEq, Repr

/-- `str(byte1) + "." + str(byte2) + "." + str(byte3) + "." + str(byte4)`. -/
def dotted (byte1 byte2 byte3 byte4 : UInt8) : String :=
  toString byte1.toNat ++ "." ++ toString byte2.toNat ++ "." ++ toString byte3.toNat ++ "."
    ++ toString byte4.toNat

/-- The loop of `execute` over the hosts from index `x` on: what it prints, and the exception
that ends it early, if any. -/
def printAddresses (ip_bytes : List UInt8) (x : ℕ) :
    List (List UInt8) → List Line × Option PyError
  | [] => ([], none)
  | host :: hosts =>
    let start := if x = 0 then 0 else x * 4
    match ip_bytes[start]?, ip_bytes[start + 1]?, ip_bytes[start + 2]?, ip_bytes[start + 3]? with
    | some byte1, some byte2, some byte3, some byte4 =>
      let (lines, e) := printAddresses ip_bytes (x + 1) hosts
      (.address host (dotted byte1 byte2 byte3 byte4) :: lines, e)
    | _, _, _, _ => ([], some .indexError)

/-- What becomes of an exception inside `execute`: only `ValueError` is caught. -/
def handle : PyError → List Line × Option PyError
  | .valueError => ([.requestIdNumber], none)
  | e => ([], some e)

/-- `execute`: the lines printed and the exception that leaves it. `req_id` is the outcome of
`int(req_id)`, `none` where that raises `ValueError`, and `datagrams` is what the socket
receives. -/
def execute (req_id : Option ℤ) (hosts : List (List UInt8)) (datagrams : List (List UInt8)) :
    List Line × Option PyError :=
  match req_id with
  | none => handle .valueError
  | some req_id =>
    if req_id > -1 ∧ req_id < 128 then
      match getPackedMessage req_id hosts with
      | .error e => handle e
      | .ok _ =>
        match getResponse datagrams with
        | .answer response _ => printAddresses response.ips 0 hosts
        | .noAnswer _ => ([], none)
        | .raised e _ => handle e
        | .blocked _ => ([], none)
    else ([.requestIdRange], none)

end ClientUDP

end Lab2

end Comp4320
