import Comp4320.Lib.Memory
import Comp4320.Lab3.ChatServer

/-!
# The chat client

`LAB_3/ChatClient.c`, up to the point where two clients are to be connected. The client sends one
request, receives one reply, and decides by the size of the reply what to do: after seven bytes it
waits to be called, after any other number it takes the reply for the address of a partner and
calls. The port of a client is an `int`, of which `htons` keeps sixteen bits.

The two reply formats are packed structs that lie over the buffer the reply was received into, so
what a field holds is what the buffer holds at its offset, whether the reply reached that far or
not.

## What is left out

What the client prints, the addresses and sockets of the server, and the `socket` calls failing.
What happens once two clients are connected is `ChatSession`.

## Main definitions

* `ChatClient`, `SockAddrIn` — a client and a socket address
* `ChatClient.getChatRequest` — the request
* `ChatClient.run` — what the client does with a reply
* `ChatClient.configureMySocket`, `configurePartnerSocket` — the address it binds, and the one it
  connects to

## Main results

* `ChatClient.run_connectResponse` — a connect response is decoded field by field
* `ChatClient.valid_request_iff` — which ports the server accepts
-/

namespace Comp4320

namespace Lab3

open ByteOrder

/-! ### The program -/

/-- `struct ChatRequest`, in network order as it is sent. -/
structure ChatRequest where
  magicNumber : UInt32
  port : UInt16
  GID : UInt8
  deriving DecidableEq, Repr

/-- The packed struct in memory. -/
def ChatRequest.image (req : ChatRequest) : List UInt8 :=
  image32 req.magicNumber ++ image16 req.port ++ [req.GID]

/-- `struct ServerResponse`: the reply that names a partner. -/
structure ServerResponse where
  magicNumber : UInt32
  waitingClientIP : UInt32
  waitingClientPort : UInt16
  GID : UInt8
  deriving DecidableEq, Repr

/-- `struct ServerResponseNoWait`: the reply that registers. -/
structure ServerResponseNoWait where
  magicNumber : UInt32
  GID : UInt8
  myPort : UInt16
  deriving DecidableEq, Repr

/-- `sizeof(struct ServerResponse)`. -/
def sizeofServerResponse : ℕ := 11

/-- `struct sockaddr_in`, its fields as they stand in memory. -/
structure SockAddrIn where
  sin_family : ℕ
  sin_port : UInt16
  s_addr : UInt32
  deriving DecidableEq, Repr

/-- `AF_INET`. -/
def AF_INET : ℕ := 2

/-- The client: what `configure` is given and `atoi` returned. -/
structure ChatClient where
  myPort : ℤ
  deriving DecidableEq, Repr

/-- What `run` goes on to do, with the reply it has decoded. -/
inductive Action
  | waitToChat (noWaitResponse : ServerResponseNoWait)
  | initiateChat (response : ServerResponse)
  deriving DecidableEq, Repr

namespace ChatClient

/-- `getChatRequest`. -/
def getChatRequest (c : ChatClient) : ChatRequest where
  magicNumber := htonl 0x4a6f7921
  GID := 7
  port := htons (.ofInt c.myPort)

/-- `processRegisteredResponse`: read the struct and convert it. -/
def processRegisteredResponse (data : Memory) : ServerResponseNoWait where
  magicNumber := htonl (read32 (data.load 0 4))
  GID := data 4
  myPort := htons (read16 (data.load 5 2))

/-- `processWaitClientResponse`: read the struct and convert it. -/
def processWaitClientResponse (data : Memory) : ServerResponse where
  magicNumber := htonl (read32 (data.load 0 4))
  waitingClientIP := htonl (read32 (data.load 4 4))
  waitingClientPort := htons (read16 (data.load 8 2))
  GID := data 10

/-- The `recvfrom` of `sendChatRequest`, for a buffer and a reply: the buffer afterwards and the
number of bytes received. -/
def recvfrom (buff : Memory) (reply : List UInt8) : Memory × ℕ :=
  let received := reply.take sizeofServerResponse
  (buff.store 0 received, received.length)

/-- `run`, from the reply on. -/
def run (buff : Memory) (reply : List UInt8) : Action :=
  let (buff, res_size) := recvfrom buff reply
  if res_size = 7 then .waitToChat (processRegisteredResponse buff)
  else .initiateChat (processWaitClientResponse buff)

/-- `configureMySocket`: the address `waitToChat` binds. -/
def configureMySocket (c : ChatClient) : SockAddrIn where
  sin_port := htons (.ofInt c.myPort)
  s_addr := 0
  sin_family := AF_INET

/-- `configurePartnerSocket`: the address `initiateChat` connects to. -/
def configurePartnerSocket (partner_ip : UInt32) (partner_port : ℤ) : SockAddrIn where
  sin_port := htons (.ofInt partner_port)
  s_addr := htonl partner_ip
  sin_family := AF_INET

/-- The address `run` has `initiateChat` connect to. -/
def initiateChat (response : ServerResponse) : SockAddrIn :=
  configurePartnerSocket response.waitingClientIP response.waitingClientPort.toNat

/-- The request of a client as it arrives at the server. -/
def request (c : ChatClient) (s_addr : UInt32) : Datagram := ⟨c.getChatRequest.image, s_addr⟩

/-! ### The request -/

theorem image_getChatRequest (c : ChatClient) :
    c.getChatRequest.image = toBE 4 0x4a6f7921 ++ toBE 2 (c.myPort % 65536).toNat ++ [7] := by
  rw [ChatRequest.image, getChatRequest, image32_swap32, image16_swap16, toNat_ofInt16]
  rfl

/-- What the server reads in the request of a client. -/
theorem unpackRequest_request (c : ChatClient) (s_addr : UInt32) :
    ChatServer.unpackRequest ((c.request s_addr).sent.take 4096)
      = (if ChatServer.portOutOfRange (c.myPort % 65536).toNat 7 then 4 else 0,
          (c.myPort % 65536).toNat, 7) := by
  have hlen : c.getChatRequest.image.length = 7 := by simp [image_getChatRequest]
  have hmagic : c.getChatRequest.image.take 4 = toBE 4 0x4a6f7921 := by
    rw [image_getChatRequest, List.append_assoc, List.take_left' (length_toBE ..)]
  have hport : (c.getChatRequest.image.drop 4).take 2 = toBE 2 (c.myPort % 65536).toNat := by
    rw [image_getChatRequest, List.append_assoc, List.drop_left' (length_toBE ..),
      List.take_left' (length_toBE ..)]
  have hGID : c.getChatRequest.image.drop 6 = [7] := by
    rw [image_getChatRequest, List.drop_left' (by simp)]
  have hlt : (c.myPort % 65536).toNat < 256 ^ 2 := by omega
  rw [request, List.take_of_length_le (hlen.le.trans (by decide)), ChatServer.unpackRequest,
    if_pos hlen, hmagic, hport, hGID, ofBE_toBE_of_lt (by decide), ofBE_toBE_of_lt hlt]
  rfl

theorem port_request (c : ChatClient) (s_addr : UInt32) :
    (c.request s_addr).port = (c.myPort % 65536).toNat := by
  rw [Datagram.port, unpackRequest_request]

/-- **The ports the server accepts** are the five of group 7, taken modulo 2 ^ 16. -/
theorem valid_request_iff (c : ChatClient) (s_addr : UInt32) :
    (c.request s_addr).Valid ↔ 10045 ≤ c.myPort % 65536 ∧ c.myPort % 65536 ≤ 10049 := by
  rw [Datagram.Valid, Datagram.error, unpackRequest_request, ChatServer.portOutOfRange]
  dsimp only
  rw [ite_eq_right_iff, Bool.or_eq_true, decide_eq_true_iff, decide_eq_true_iff]
  omega

/-! ### The reply -/

/-- Every reply of seven bytes makes the client wait. -/
theorem run_of_length_eq_seven (buff : Memory) {reply : List UInt8} (h : reply.length = 7) :
    ∃ noWaitResponse, run buff reply = .waitToChat noWaitResponse := by
  refine ⟨_, if_pos ?_⟩
  rw [List.length_take, h]
  rfl

/-- **A connect response is decoded field by field**, whatever the buffer held. -/
theorem run_connectResponse (buff : Memory) {ip port : ℕ} (hip : ip < 256 ^ 4)
    (hport : port < 256 ^ 2) :
    ∃ response, run buff (connectResponse ip port) = .initiateChat response ∧
      response.waitingClientIP.toNat = ip ∧ response.waitingClientPort.toNat = port := by
  have hlen : (connectResponse ip port).length = 11 := length_connectResponse ip port
  have htake : (connectResponse ip port).take sizeofServerResponse = connectResponse ip port :=
    List.take_of_length_le hlen.le
  refine ⟨processWaitClientResponse (buff.store 0 (connectResponse ip port)), ?_, ?_, ?_⟩
  · rw [run, recvfrom]
    dsimp only
    rw [htake, hlen, if_neg (by decide)]
  · show (htonl (read32 (Memory.load _ 4 4))).toNat = ip
    rw [Memory.load_store_drop _ (by omega), ip_connectResponse,
      toNat_swap32_read32 (length_toBE ..), ofBE_toBE_of_lt hip]
  · show (htons (read16 (Memory.load _ 8 2))).toNat = port
    rw [Memory.load_store_drop _ (by omega), port_connectResponse,
      toNat_swap16_read16 (length_toBE ..), ofBE_toBE_of_lt hport]

/-- **The address called is the address bound.** A client that is sent the source address and the
port of another one calls the port the other one binds, at the address its datagrams come from. -/
theorem initiateChat_eq {response : ServerResponse} (c : ChatClient) (s_addr : UInt32)
    (hip : response.waitingClientIP.toNat = (c.request s_addr).ip)
    (hport : response.waitingClientPort.toNat = (c.request s_addr).port) :
    initiateChat response = { c.configureMySocket with s_addr := s_addr } := by
  have haddr : response.waitingClientIP = htonl s_addr := by
    have hswap := toNat_swap32_read32 (length_image32 s_addr)
    rw [read32_image32] at hswap
    exact UInt32.toNat_inj.mp (hip.trans hswap.symm)
  have hbound : UInt16.ofInt response.waitingClientPort.toNat = .ofInt c.myPort := by
    rw [port_request] at hport
    rw [← UInt16.toNat_inj, toNat_ofInt16, toNat_ofInt16, hport]
    omega
  have hback : htonl (htonl s_addr) = s_addr := swap32_swap32 s_addr
  rw [initiateChat, configurePartnerSocket, configureMySocket, haddr, hback, hbound]

end ChatClient

end Lab3

end Comp4320
