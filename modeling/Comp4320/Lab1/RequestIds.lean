import Comp4320.Lab1.RequestDecoding
import Comp4320.Lab1.ResultPacking

/-!
# The request ids of a UDP session

The client counts its requests and packs the count into one byte. The server reads the byte as a
`char` and sends back its low byte, which is the byte again, so an answer carries the id of the
request it answers whatever the sign. The count itself is not reduced: the request with number 256
does not pack, and the exception ends the client.

## Main definitions

* `Session`, `Session.exchange`, `Session.play` — the client and the server, one request and many
* `KeepsIds` — every request of a session is packed with its number and answered under it

## Main results

* `exchange_eq`, `exchange_eq_error` — one request
* `play_eq`, `play_eq_error` — a session, up to request 255 and beyond it
* `keepsIds_iff` — sessions of at most 256 requests keep their ids
-/

namespace Comp4320

namespace Lab1

open ServerUDP

/-- What a user types in: a message and an operation. -/
structure Request where
  msg : List UInt8
  ops : ℤ
  deriving DecidableEq, Repr

/-- A request that is asked for: a short ASCII message, and one of the three operations. -/
structure Request.Supported (r : Request) : Prop where
  length : r.msg.length ≤ 124
  ascii : ∀ c ∈ r.msg, c < 128
  ops : r.ops = 1 ∨ r.ops = 2 ∨ r.ops = 3

/-- The client's counter and the server's buffer. -/
structure Session where
  request_id : ℕ
  buffer : Memory

/-- The datagram sent, and what the client reads of the answer. -/
structure Exchange where
  server_msg : List UInt8
  tml : ℕ
  rid : ℕ
  response : List UInt8
  deriving DecidableEq, Repr

/-- How an exchange may fail. -/
inductive Failure
  /-- An exception ends the client. -/
  | client (e : PyError)
  /-- The iteration of the server fails. -/
  | server (e : CppError)
  /-- The server sends nothing. -/
  | unanswered
  deriving DecidableEq, Repr

/-- One pass of the loop of `ClientUDP.run`, with the server's iteration between the request and the
answer. -/
def Session.exchange (s : Session) (r : Request) : Except Failure (Session × Exchange) :=
  match ClientUDP.getPackedMessage s.request_id r.msg r.ops with
  | .error e => .error (.client e)
  | .ok (server_msg, request_id) =>
    match runStep s.buffer server_msg with
    | (_, .error e) => .error (.server e)
    | (_, .ok none) => .error .unanswered
    | (buffer, .ok (some resp)) =>
      match ClientUDP.getResponse resp.image with
      | .error e => .error (.client e)
      | .ok (tml, rid, response) => .ok (⟨request_id, buffer⟩, ⟨server_msg, tml, rid, response⟩)

/-- The exchanges of a session, in order. -/
def Session.play (s : Session) : List Request → Except Failure (List Exchange)
  | [] => .ok []
  | r :: rs =>
    match s.exchange r with
    | .error e => .error e
    | .ok (s', e) => (s'.play rs).map (e :: ·)

/-- Every request of a session that starts now is packed, the byte of its id is the number of
earlier requests modulo 256, and the client reads that byte from the answer. -/
def KeepsIds (buffer : Memory) (requests : List Request) : Prop :=
  ∃ log, Session.play ⟨0, buffer⟩ requests = .ok log ∧ log.length = requests.length ∧
    ∀ i e, log[i]? = some e → ∃ id : UInt8, e.server_msg[1]? = some id ∧ id.toNat = i % 256 ∧
      e.rid = id.toNat

variable {buffer : Memory} {request_id : ℕ} {r : Request}

/-! ### One request -/

/-- A supported request is answered, under its own id. -/
theorem runStep_packed (buffer : Memory) (rid : UInt8) (h : r.Supported) :
    ∃ b response, response.length ≤ 253 ∧
      runStep buffer (.ofNat (r.msg.length + 3) :: rid :: ClientUDP.opsCode r.ops :: r.msg)
        = (b, .ok (some (packResult (signedChar rid) response))) := by
  have hcode : (ClientUDP.opsCode r.ops).toNat ≤ 21 ∨ (ClientUDP.opsCode r.ops).toNat = 0x50 := by
    rw [ClientUDP.opsCode]
    split_ifs <;> decide
  have hparse := parse_packed buffer rid (ClientUDP.opsCode r.ops) h.length
  obtain ⟨response, hresponse⟩ := respond_isOk ⟨r.msg.length + 3, signedChar rid,
    signedChar (ClientUDP.opsCode r.ops), r.msg, 0⟩ rfl hcode
  refine ⟨_, response, length_respond_le hresponse ?_, Prod.ext rfl ?_⟩
  · have hlen := h.length
    show r.msg.length ≤ 253
    omega
  · show answer _ = _
    rw [answer_of_parse hparse rfl, hresponse]
    rfl

/-- **An exchange carries the counter there and back**, while it fits a byte. -/
theorem exchange_eq (buffer : Memory) (h : r.Supported) (hid : request_id ≤ 255) :
    ∃ b e, Session.exchange ⟨request_id, buffer⟩ r = .ok (⟨request_id + 1, b⟩, e) ∧
      e.server_msg[1]? = some (.ofNat request_id) ∧ e.rid = request_id := by
  have hlen := h.length
  have hpacked := ClientUDP.getPackedMessage_eq r.ops h.ascii (by omega) hid
  obtain ⟨b, response, hresponse, hstep⟩ := runStep_packed buffer (.ofNat request_id) h
  have hback : (signedChar (UInt8.ofNat request_id) % 256).toNat = request_id := by
    rw [signedChar_emod, UInt8.toNat_ofNat']
    omega
  refine ⟨b, ⟨.ofNat (r.msg.length + 3) :: .ofNat request_id :: ClientUDP.opsCode r.ops :: r.msg,
    response.length + 2, request_id, response.take (min 8 response.length)⟩, ?_, rfl, rfl⟩
  rw [Session.exchange]
  dsimp only
  rw [hpacked]
  dsimp only
  rw [hstep]
  dsimp only
  rw [getResponse_image _ hresponse, hback]

/-- **A counter that does not fit ends the session.** -/
theorem exchange_eq_error (h : r.Supported) (hid : 255 < request_id) :
    Session.exchange ⟨request_id, buffer⟩ r = .error (.client .structError) := by
  have hlen := h.length
  rw [Session.exchange, ClientUDP.getPackedMessage_eq_error r.ops h.ascii (by omega) hid]

/-! ### Many requests -/

variable {rs : List Request}

/-- **A session whose ids fit carries all of them there and back.** -/
theorem play_eq (buffer : Memory) (hrs : ∀ r ∈ rs, r.Supported)
    (h : request_id + rs.length ≤ 256) :
    ∃ log, Session.play ⟨request_id, buffer⟩ rs = .ok log ∧ log.length = rs.length ∧
      ∀ i e, log[i]? = some e →
        e.server_msg[1]? = some (.ofNat (request_id + i)) ∧ e.rid = request_id + i := by
  induction rs generalizing request_id buffer with
  | nil => exact ⟨[], rfl, rfl, fun i e he => by simp at he⟩
  | cons r rs ih =>
    rw [List.length_cons] at h
    obtain ⟨b, e, hexchange, hsent, hread⟩ :=
      exchange_eq buffer (hrs r List.mem_cons_self) (show request_id ≤ 255 by omega)
    obtain ⟨log, hplay, hlength, hlog⟩ := ih b (fun r' hr' => hrs r' (List.mem_cons_of_mem _ hr'))
      (show request_id + 1 + rs.length ≤ 256 by omega)
    refine ⟨e :: log, ?_, by rw [List.length_cons, hlength, List.length_cons], ?_⟩
    · rw [Session.play, hexchange]
      dsimp only
      rw [hplay]
      rfl
    · intro i e' he'
      cases i with
      | zero =>
        obtain rfl : e = e' := Option.some.inj he'
        exact ⟨hsent, hread⟩
      | succ i =>
        have hnext := hlog i e' he'
        rwa [show request_id + 1 + i = request_id + (i + 1) by omega] at hnext

/-- **A longer session ends with an exception.** -/
theorem play_eq_error (buffer : Memory) (hrs : ∀ r ∈ rs, r.Supported) (hid : request_id ≤ 256)
    (h : 256 < request_id + rs.length) :
    Session.play ⟨request_id, buffer⟩ rs = .error (.client .structError) := by
  induction rs generalizing request_id buffer with
  | nil => exact absurd h (by rw [List.length_nil]; omega)
  | cons r rs ih =>
    rw [List.length_cons] at h
    have hr := hrs r List.mem_cons_self
    rcases Nat.lt_or_ge 255 request_id with hlast | hearly
    · rw [Session.play, exchange_eq_error hr hlast]
    · obtain ⟨b, e, hexchange, -⟩ := exchange_eq buffer hr hearly
      rw [Session.play, hexchange]
      dsimp only
      rw [ih b (fun r' hr' => hrs r' (List.mem_cons_of_mem _ hr')) (by omega) (by omega)]
      rfl

/-- **A session keeps its ids exactly if it has at most 256 requests**, whatever the server's buffer
held before. -/
theorem keepsIds_iff {requests : List Request} (buffer : Memory)
    (hrequests : ∀ r ∈ requests, r.Supported) :
    KeepsIds buffer requests ↔ requests.length ≤ 256 := by
  constructor
  · rintro ⟨log, hplay, -⟩
    by_contra hlong
    rw [play_eq_error buffer hrequests (by omega) (by omega)] at hplay
    cases hplay
  · intro hshort
    obtain ⟨log, hplay, hlength, hlog⟩ :=
      play_eq buffer hrequests (show 0 + requests.length ≤ 256 by omega)
    refine ⟨log, hplay, hlength, fun i e he => ⟨.ofNat i, ?_, UInt8.toNat_ofNat', ?_⟩⟩
    · rw [(hlog i e he).1, Nat.zero_add]
    · have hi : i < log.length := (List.getElem?_eq_some_iff.mp he).1
      rw [(hlog i e he).2, UInt8.toNat_ofNat']
      omega

/-- A request of two letters. -/
theorem supported_hi : Request.Supported ⟨[104, 105], 2⟩ :=
  ⟨by decide, by decide +kernel, by decide⟩

/-- Three requests. -/
theorem keepsIds_iff_three :
    KeepsIds (fun _ => 9) (List.replicate 3 ⟨[104, 105], 2⟩) ↔
      (List.replicate 3 (⟨[104, 105], 2⟩ : Request)).length ≤ 256 := by
  refine keepsIds_iff _ fun r hr => ?_
  rw [List.eq_of_mem_replicate hr]
  exact supported_hi

/-- The request after the 256th. -/
theorem not_keepsIds : ¬ KeepsIds (fun _ => 0) (List.replicate 257 ⟨[104, 105], 2⟩) := by
  have hrequests : ∀ r ∈ List.replicate 257 (⟨[104, 105], 2⟩ : Request), r.Supported := by
    intro r hr
    rw [List.eq_of_mem_replicate hr]
    exact supported_hi
  have hlength : (List.replicate 257 (⟨[104, 105], 2⟩ : Request)).length = 257 :=
    List.length_replicate
  rintro ⟨log, hplay, -⟩
  rw [play_eq_error _ hrequests (by omega) (by omega)] at hplay
  cases hplay

end Lab1

end Comp4320
