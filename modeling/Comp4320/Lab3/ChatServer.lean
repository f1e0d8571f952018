import Comp4320.Lib.Pairing
import Comp4320.Python

/-!
# The chat server

`LAB_3/ChatServer.py`. A client asks for a chat partner by a datagram of seven bytes: the magic
number, the port it can be reached at and its group. The first client is registered; the next one
is sent the address and the port of the first, and the server starts over. Whatever else arrives is
answered by an error.

`waiting_ip` and `waiting_port` are set by the first registration and not before, so here they are
`none` until then, and reading one that is `none` raises what Python raises.

## What is left out

What the server prints, and the `socket` calls failing.

## Main definitions

* `ChatServer`, `ChatServer.start` — the attributes of the server
* `ChatServer.unpackRequest` — the request format and its error bits
* `ChatServer.getRegisteredResponse`, `getConnectResponse`, `getInvalidResponse` — the replies
* `ChatServer.handle`, `run` — one pass of the loop, and the loop

## Main results

* `ChatServer.handle_refines` — one pass of the loop is one arrival in a waiting room for one
-/

namespace Comp4320

namespace Lab3

open ByteOrder

/-- A datagram as `recvfrom` returns it: what was sent, and the source address as it stands in
memory, in network order. -/
structure Datagram where
  /-- What the sender passed to `sendto`. -/
  sent : List UInt8
  /-- The source address, the `s_addr` of the sender. -/
  client : UInt32
  deriving DecidableEq, Repr

/-- The attributes of the server that change. -/
structure ChatServer where
  client_waiting : Bool
  /-- `none` until the attribute is set. -/
  waiting_ip : Option ℕ
  /-- `none` until the attribute is set. -/
  waiting_port : Option ℕ
  deriving DecidableEq, Repr

/-- Which of its three responses the server answers with. -/
inductive Branch
  | registered
  | connect
  | invalid
  deriving DecidableEq, Repr

/-- What one pass of the loop sends back. -/
structure Reply where
  branch : Branch
  response : List UInt8
  deriving DecidableEq, Repr

namespace ChatServer

/-! ### The program -/

/-- The server after `__init__`. -/
def start : ChatServer := ⟨false, none, none⟩

/-- `portOutOfRange`. -/
def portOutOfRange (portnum GIDclient : ℕ) : Bool :=
  let min_range := 10010 + 5 * GIDclient
  let max_range := min_range + 4
  portnum > max_range || portnum < min_range

/-- `unpack_request`: the error bits, the port and the group. -/
def unpackRequest (data : List UInt8) : ℕ × ℕ × ℕ :=
  let error := 0x00
  if data.length = 7 then
    let magic := ofBE (data.take 4)
    let port := ofBE ((data.drop 4).take 2)
    let GID := ofBE (data.drop 6)
    let error := if magic ≠ 0x4a6f7921 then error ||| 1 else error
    let error := if portOutOfRange port GID then error ||| 4 else error
    (error, port, GID)
  else
    (error ||| 2, 0, 0)

/-- `ip2int`. -/
def ip2int (addr : UInt32) : ℕ := ofBE (image32 addr)

/-- `get_registered_response`: `struct.pack("!IBH", magic, GID, client_port)`. -/
def getRegisteredResponse (client_port : ℕ) : Except PyError (List UInt8) := do
  let magic ← pack 4 0x4a6f7921
  let GID ← pack 1 7
  let client_port ← pack 2 client_port
  return magic ++ GID ++ client_port

/-- `get_connect_response`: `struct.pack("!IIHB", magic, self.waiting_ip, self.waiting_port,
GID)`. -/
def getConnectResponse (s : ChatServer) : Except PyError (List UInt8) := do
  let waiting_ip ← getattr s.waiting_ip
  let waiting_port ← getattr s.waiting_port
  let magic ← pack 4 0x4a6f7921
  let waiting_ip ← pack 4 waiting_ip
  let waiting_port ← pack 2 waiting_port
  let GID ← pack 1 7
  return magic ++ waiting_ip ++ waiting_port ++ GID

/-- `get_invalid_response`: `struct.pack("!IBBB", magic, GID, 0, error_code)`. -/
def getInvalidResponse (error_code : ℕ) : Except PyError (List UInt8) := do
  let magic ← pack 4 0x4a6f7921
  let GID ← pack 1 7
  let zero ← pack 1 0
  let error_code ← pack 1 error_code
  return magic ++ GID ++ zero ++ error_code

/-- One pass of the loop of `run`. -/
def handle (s : ChatServer) (d : Datagram) : Except PyError (ChatServer × Reply) := do
  let data := d.sent.take 4096
  let client_ip := ip2int d.client
  let (error, client_port, _) := unpackRequest data
  if error = 0 then
    if s.client_waiting then
      let response ← s.getConnectResponse
      return ({ s with waiting_ip := some 0, waiting_port := some 0, client_waiting := false },
        ⟨.connect, response⟩)
    else
      let s := { s with
        waiting_ip := some client_ip, waiting_port := some client_port, client_waiting := true }
      let response ← getRegisteredResponse client_port
      return (s, ⟨.registered, response⟩)
  else
    let response ← getInvalidResponse error
    return (s, ⟨.invalid, response⟩)

/-- `run` over the datagrams that arrive, with the replies it sends. -/
def run (s : ChatServer) : List Datagram → Except PyError (ChatServer × List Reply)
  | [] => .ok (s, [])
  | d :: ds => do
    let (s, reply) ← s.handle d
    let (s, replies) ← run s ds
    return (s, reply :: replies)

end ChatServer

/-! ### Requests and responses -/

namespace Datagram

/-- The error bits of a datagram. -/
def error (d : Datagram) : ℕ := (ChatServer.unpackRequest (d.sent.take 4096)).1

/-- The port it asks for. -/
def port (d : Datagram) : ℕ := (ChatServer.unpackRequest (d.sent.take 4096)).2.1

/-- The source address as a number. -/
def ip (d : Datagram) : ℕ := ChatServer.ip2int d.client

/-- The server accepts the request. -/
def Valid (d : Datagram) : Prop := d.error = 0

instance (d : Datagram) : Decidable d.Valid := inferInstanceAs (Decidable (d.error = 0))

/-- The port is a 16-bit value, whatever the datagram. -/
theorem port_lt (d : Datagram) : d.port < 256 ^ 2 := by
  rw [port, ChatServer.unpackRequest]
  split_ifs with h
  · refine lt_of_lt_of_eq (ofBE_lt _) ?_
    rw [List.length_take, List.length_drop, h]
    rfl
  · show (0 : ℕ) < 256 ^ 2
    decide

theorem ip_lt (d : Datagram) : d.ip < 256 ^ 4 := by
  rw [ip, ChatServer.ip2int]
  exact lt_of_lt_of_eq (ofBE_lt _) (by rw [length_image32])

/-- A request that is accepted has seven bytes. -/
theorem Valid.length_eq {d : Datagram} (h : d.Valid) : d.sent.length = 7 := by
  rw [Valid, error, ChatServer.unpackRequest] at h
  split_ifs at h with hlen
  · rw [List.length_take] at hlen
    omega

/-- Its port is the one in its bytes 4 and 5. -/
theorem Valid.toBE_port {d : Datagram} (h : d.Valid) :
    toBE 2 d.port = (d.sent.drop 4).take 2 := by
  have htake : d.sent.take 4096 = d.sent := List.take_of_length_le (by rw [h.length_eq]; decide)
  have hport : d.port = ofBE ((d.sent.drop 4).take 2) := by
    rw [port, ChatServer.unpackRequest, htake, if_pos h.length_eq]
  have hlen : ((d.sent.drop 4).take 2).length = 2 := by
    rw [List.length_take, List.length_drop, h.length_eq]
    rfl
  have hbytes := toBE_ofBE ((d.sent.drop 4).take 2)
  rwa [hlen, ← hport] at hbytes

/-- The source address is sent as it stands in memory. -/
theorem toBE_ip (d : Datagram) : toBE 4 d.ip = image32 d.client := by
  have hbytes := toBE_ofBE (image32 d.client)
  rwa [length_image32] at hbytes

/-- The error bits fit the byte they are sent in. -/
theorem error_lt (d : Datagram) : d.error < 256 ^ 1 := by
  rw [error, ChatServer.unpackRequest]
  split_ifs with h
  · dsimp only
    split_ifs <;> decide
  · show 0 ||| 2 < 256 ^ 1
    decide

end Datagram

/-- The seven bytes of a registration: the port comes last. -/
def registeredResponse (port : ℕ) : List UInt8 := toBE 4 0x4a6f7921 ++ [7] ++ toBE 2 port

/-- The eleven bytes that name the waiting client: the port comes before the group. -/
def connectResponse (ip port : ℕ) : List UInt8 :=
  toBE 4 0x4a6f7921 ++ toBE 4 ip ++ toBE 2 port ++ [7]

/-- The seven bytes of an error. -/
def invalidResponse (error : ℕ) : List UInt8 := toBE 4 0x4a6f7921 ++ [7] ++ [0] ++ toBE 1 error

/-- A registration, by the bytes of the request. -/
theorem Datagram.Valid.registeredResponse_eq {d : Datagram} (h : d.Valid) :
    registeredResponse d.port = toBE 4 0x4a6f7921 ++ [7] ++ (d.sent.drop 4).take 2 := by
  rw [registeredResponse, h.toBE_port]

/-- A connect response, by the bytes of the request that waited and those of its source. -/
theorem Datagram.Valid.connectResponse_eq {d : Datagram} (h : d.Valid) :
    connectResponse d.ip d.port
      = toBE 4 0x4a6f7921 ++ image32 d.client ++ (d.sent.drop 4).take 2 ++ [7] := by
  rw [connectResponse, h.toBE_port, d.toBE_ip]

@[simp] theorem length_registeredResponse (port : ℕ) : (registeredResponse port).length = 7 := by
  simp [registeredResponse]

@[simp] theorem length_connectResponse (ip port : ℕ) : (connectResponse ip port).length = 11 := by
  simp [connectResponse]

@[simp] theorem length_invalidResponse (error : ℕ) : (invalidResponse error).length = 7 := by
  simp [invalidResponse]

/-- The address in a connect response. -/
theorem ip_connectResponse (ip port : ℕ) :
    ((connectResponse ip port).drop 4).take 4 = toBE 4 ip := by
  rw [connectResponse, List.append_assoc, List.append_assoc, List.drop_left' (length_toBE ..),
    List.take_left' (length_toBE ..)]

/-- The port in a connect response. -/
theorem port_connectResponse (ip port : ℕ) :
    ((connectResponse ip port).drop 8).take 2 = toBE 2 port := by
  rw [connectResponse, List.append_assoc, List.drop_left' (by simp),
    List.take_left' (length_toBE ..)]

namespace ChatServer

/-- The magic number and the group pack. -/
theorem pack_magic : pack 4 0x4a6f7921 = .ok (toBE 4 0x4a6f7921) := rfl

theorem pack_GID : pack 1 7 = .ok [7] := rfl

theorem getRegisteredResponse_eq {port : ℕ} (h : port < 256 ^ 2) :
    getRegisteredResponse port = .ok (registeredResponse port) := by
  rw [getRegisteredResponse, pack_magic, pack_GID, pack_of_lt h]
  rfl

theorem getConnectResponse_eq {s : ChatServer} {ip port : ℕ} (hip : s.waiting_ip = some ip)
    (hport : s.waiting_port = some port) (hip' : ip < 256 ^ 4) (hport' : port < 256 ^ 2) :
    s.getConnectResponse = .ok (connectResponse ip port) := by
  rw [getConnectResponse, hip, hport, getattr_some, getattr_some, ok_bind, ok_bind, pack_magic,
    pack_GID, pack_of_lt hip', pack_of_lt hport']
  rfl

theorem getInvalidResponse_eq {error : ℕ} (h : error < 256 ^ 1) :
    getInvalidResponse error = .ok (invalidResponse error) := by
  rw [getInvalidResponse, pack_magic, pack_GID, pack_of_lt h]
  rfl

/-! ### One pass of the loop -/

/-- The response to a valid request, by the one that waits. -/
def answer (d : Datagram) (w : Option Datagram) : Reply :=
  match w with
  | none => ⟨.registered, registeredResponse d.port⟩
  | some b => ⟨.connect, connectResponse b.ip b.port⟩

/-- The server holds the request that waits: its attributes are set, to the source and the port of
that request. -/
structure Holds (s : ChatServer) (w : Option Datagram) : Prop where
  client_waiting : s.client_waiting = w.isSome
  waiting_ip : ∀ d ∈ w, s.waiting_ip = some d.ip
  waiting_port : ∀ d ∈ w, s.waiting_port = some d.port

theorem holds_start : start.Holds none := ⟨rfl, by simp, by simp⟩

/-- **An invalid request is answered by its error bits and leaves every attribute alone.** -/
theorem handle_invalid (s : ChatServer) {d : Datagram} (h : ¬ d.Valid) :
    s.handle d = .ok (s, ⟨.invalid, invalidResponse d.error⟩) := by
  rw [handle]
  dsimp only
  rw [if_neg (show ¬ (unpackRequest (d.sent.take 4096)).1 = 0 from h)]
  show (getInvalidResponse d.error >>= _) = _
  rw [getInvalidResponse_eq d.error_lt]
  rfl

/-- **A valid request is one arrival in the waiting room**: it raises nothing, is answered by
whoever waits, and afterwards the server holds whoever waits then. -/
theorem handle_refines {s : ChatServer} {w : Option Datagram} (hs : s.Holds w) {d : Datagram}
    (h : d.Valid) :
    ∃ s', s.handle d = .ok (s', answer d w) ∧ s'.Holds (Pairing.next w d) := by
  rw [handle]
  dsimp only
  rw [if_pos (show (unpackRequest (d.sent.take 4096)).1 = 0 from h), hs.client_waiting]
  cases w with
  | none =>
    refine ⟨⟨true, some d.ip, some d.port⟩, ?_, ⟨rfl, ?_, ?_⟩⟩
    · show (getRegisteredResponse d.port >>= _) = _
      rw [getRegisteredResponse_eq d.port_lt]
      rfl
    · rintro b ⟨⟩
      rfl
    · rintro b ⟨⟩
      rfl
  | some b =>
    refine ⟨⟨false, some 0, some 0⟩, ?_, ⟨rfl, by simp, by simp⟩⟩
    rw [Option.isSome_some, if_pos rfl,
      getConnectResponse_eq (hs.waiting_ip b rfl) (hs.waiting_port b rfl) b.ip_lt b.port_lt]
    rfl

end ChatServer

end Lab3

end Comp4320
