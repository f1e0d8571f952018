import Comp4320.Lab2.ClientReply
import Comp4320.Lab2.ServerReply

/-!
# From the client to the server and back

A request the client packs is well formed, so the server accepts it whatever its buffer held, finds
the names in it, and answers with one address per name; that answer is well formed too, so the
client accepts it on the first trial and prints each name with its own address.

## Main results

* `answer_request` — what the server does with a request of the client
* `roundTrip` — and what the client prints in the end
-/

namespace Comp4320

namespace Lab2

open ByteOrder LengthPrefix ServerUDP

/-! ### A resolver that looks at the name -/

/-- `gethostbyname` as a function of the name: a failure or a first address. -/
def ofName (resolve : List UInt8 → Option UInt32) : Resolver := fun l =>
  (resolve l.hostname).elim .null .address

/-- The address the server records for a name. -/
def addressOf (resolve : List UInt8 → Option UInt32) (host : List UInt8) : UInt32 :=
  (resolve host).getD 0xffffffff

/-- The address a user expects to see next to a name. -/
def shown (resolve : List UInt8 → Option UInt32) (host : List UInt8) : String :=
  (resolve host).elim "255.255.255.255" ClientUDP.inetNtoa

theorem inetNtoa_addressOf (resolve : List UInt8 → Option UInt32) (host : List UInt8) :
    ClientUDP.inetNtoa (addressOf resolve host) = shown resolve host := by
  rw [addressOf, shown]
  cases resolve host with
  | none => decide
  | some s_addr => rfl

/-- Every name gets an address. -/
theorem answers_ofName (resolve : List UInt8 → Option UInt32) (ls : List Lookup) :
    answers (ofName resolve) ls = (ls.map Lookup.hostname).map (addressOf resolve) := by
  have hrec : ∀ l, recorded (ofName resolve l) = some (addressOf resolve l.hostname) := by
    intro l
    rw [ofName, addressOf]
    cases resolve l.hostname <;> rfl
  rw [answers, List.map_map, ← List.filterMap_eq_map]
  exact congrArg (List.filterMap · ls) (funext hrec)

/-! ### The server's half -/

variable (id : UInt8) {hosts : List (List UInt8)}

/-- The request for some hosts, as the client packs it. -/
def request (id : UInt8) (hosts : List (List UInt8)) : List UInt8 :=
  Packet.stamped id (encode hosts)

/-- The packet that answers it. -/
def answer (resolve : List UInt8 → Option UInt32) (id : UInt8) (hosts : List (List UInt8)) :
    List UInt8 :=
  Packet.stamped id ((hosts.map (addressOf resolve)).flatMap image32)

theorem received_request (htotal : (encode hosts).length ≤ 4096) :
    received (request id hosts) = request id hosts :=
  List.take_of_length_le (by rw [request, Packet.length_stamped, sizeofClientRequest]; omega)

theorem error_request (buf : ClientRequest) (htotal : (encode hosts).length ≤ 4096) :
    (processed buf (request id hosts)).error = 0 := by
  have hlen : (request id hosts).length = (encode hosts).length + 9 := Packet.length_stamped ..
  have hload := load_recvfrom buf (request id hosts)
  rw [received_request id htotal] at hload
  rw [error_processed, received_request id htotal,
    verdict_eq_zero_iff_wellFormed_of_le (by omega) (by omega), hload]
  exact Packet.stamped_wellFormed id (by omega)

/-- The host list the loop walks is the one the client packed. -/
theorem load_hostList_request (buf : ClientRequest) (htotal : (encode hosts).length ≤ 4096) :
    (processed buf (request id hosts)).hostList.load 0 (encode hosts).length = encode hosts := by
  have hlen : (request id hosts).length = (encode hosts).length + 9 := Packet.length_stamped ..
  have hload := load_recvfrom buf (request id hosts)
  rw [received_request id htotal, hlen, Nat.add_comm, Memory.load_add, Nat.zero_add] at hload
  have hpayload := congrArg (List.drop 9) hload
  rw [List.drop_left' (Memory.length_load ..), request, Packet.drop_nine_stamped] at hpayload
  calc (processed buf (request id hosts)).hostList.load 0 (encode hosts).length
      = Memory.load (fun i => buf.store 0 (request id hosts) (9 + i)) 0 (encode hosts).length := by
        refine Memory.load_congr fun i _ hi => ?_
        rw [ClientRequest.hostList, processed_apply (by omega) (by omega),
          received_request id htotal]
    _ = Memory.load (buf.store 0 (request id hosts)) 9 (encode hosts).length :=
        Memory.load_shift ..
    _ = encode hosts := hpayload

theorem requestID_request (buf : ClientRequest) (htotal : (encode hosts).length ≤ 4096) :
    (processed buf (request id hosts)).requestID = id := by
  have hlen : (request id hosts).length = (encode hosts).length + 9 := Packet.length_stamped ..
  have hget := Packet.getElem?_eight_stamped id (encode hosts)
  rw [ClientRequest.requestID, processed_apply (by omega) (by omega), received_request id htotal,
    Memory.store_apply_of_mem (by omega) (by omega), Nat.sub_zero, List.getD_eq_getElem?_getD,
    request, hget, Option.getD_some]

/-- The lookups are made for the names packed, in order. -/
theorem hostname_hostLookups_request (buf : ClientRequest)
    (hlen : ∀ host ∈ hosts, host.length ≤ 255) (htotal : (encode hosts).length ≤ 4096) :
    (hostLookups buf (request id hosts)).map Lookup.hostname = hosts := by
  have html := tml_of_accepted (error_request id buf htotal)
  rw [received_request id htotal, request, Packet.length_stamped] at html
  rw [hostLookups_eq, hostFrames, request, html, List.map_map,
    show (((encode hosts).length + 9 : ℕ) - 9 : ℤ).toNat = 0 + (encode hosts).length by omega]
  exact bodies_encode hlen (load_hostList_request id buf htotal)

/-- **What the server does with a request of the client**, whatever its buffer held. -/
theorem answer_request (resolve : List UInt8 → Option UInt32) (buf : ClientRequest)
    (h50 : hosts.length ≤ 50) (hlen : ∀ host ∈ hosts, host.length ≤ 255)
    (htotal : (encode hosts).length ≤ 4096) :
    ∃ lookups, runStep (ofName resolve) buf (request id hosts)
        = some (processed buf (request id hosts), ⟨answer resolve id hosts, lookups⟩) ∧
      lookups.map Lookup.hostname = hosts := by
  have hnames := hostname_hostLookups_request id buf hlen htotal
  have hans : answers (ofName resolve) (hostLookups buf (request id hosts))
      = hosts.map (addressOf resolve) := by
    rw [answers_ofName, hnames]
  refine ⟨_, ?_, hnames⟩
  rw [runStep_accepted (error_request id buf htotal) (by rw [hans, List.length_map]; exact h50),
    acceptedReply, hans, requestID_request id buf htotal]
  rfl

/-! ### The client's half -/

theorem length_answer (resolve : List UInt8 → Option UInt32) (id : UInt8)
    (hosts : List (List UInt8)) : (answer resolve id hosts).length = 4 * hosts.length + 9 := by
  rw [answer, Packet.length_stamped, length_flatMap_image32, List.length_map]

theorem answer_wellFormed (resolve : List UInt8 → Option UInt32) (h50 : hosts.length ≤ 50) :
    Packet.WellFormed (answer resolve id hosts) :=
  Packet.stamped_wellFormed id (by rw [length_flatMap_image32, List.length_map]; omega)

theorem responseOf_answer (resolve : List UInt8 → Option UInt32) (id : UInt8)
    (hosts : List (List UInt8)) :
    (ClientUDP.responseOf (answer resolve id hosts)).rid = id ∧
      (ClientUDP.responseOf (answer resolve id hosts)).ips
        = (hosts.map (addressOf resolve)).flatMap image32 := by
  refine ⟨?_, by rw [ClientUDP.responseOf, answer, Packet.drop_nine_stamped]⟩
  have hget : (answer resolve id hosts)[8]? = some id := Packet.getElem?_eight_stamped ..
  show (answer resolve id hosts).getD 8 0 = id
  rw [List.getD_eq_getElem?_getD, hget, Option.getD_some]

/-- The answer to a request, printed next to its hosts. -/
theorem printAddresses_answer (resolve : List UInt8 → Option UInt32) (id : UInt8)
    (hosts : List (List UInt8)) :
    ClientUDP.printAddresses (ClientUDP.responseOf (answer resolve id hosts)).ips 0 hosts
      = (hosts.map fun host => .address host (shown resolve host), none) := by
  rw [(responseOf_answer resolve id hosts).2, ClientUDP.printAddresses_eq _ (by simp),
    List.drop_zero, List.zipWith_map_right, List.zipWith_self]
  simp only [inetNtoa_addressOf]

/-- **From the client to the server and back.** For every request id `execute` lets through and
every list of names that fits the arrays of the server, the request is accepted, exactly the names
are looked up, the answer is accepted at the first trial with the id of the request, and every
name is printed with the address the resolver gave for it. -/
theorem roundTrip (resolve : List UInt8 → Option UInt32) (buf : ClientRequest) {r : ℕ}
    (hr : r ≤ 127) (hne : 1 ≤ hosts.length) (h50 : hosts.length ≤ 50)
    (hascii : ∀ host ∈ hosts, ∀ b ∈ host, b < 128) (hlen : ∀ host ∈ hosts, host.length ≤ 255)
    (htotal : (hosts.map fun host => host.length + 1).sum ≤ 4096) :
    ∃ datagram reply response,
      ClientUDP.getPackedMessage r hosts = .ok datagram ∧
      runStep (ofName resolve) buf datagram = some (processed buf datagram, reply) ∧
      (processed buf datagram).error = 0 ∧
      reply.lookups.map Lookup.hostname = hosts ∧
      ClientUDP.getResponse [reply.packet] = .answer response 1 ∧
      response.rid.toNat = r ∧
      ClientUDP.execute (some r) hosts [reply.packet]
        = (hosts.map fun host => .address host (shown resolve host), none) := by
  rw [← length_encode] at htotal
  have hid : (UInt8.ofNat r).toNat = r := UInt8.toNat_ofNat_of_lt' (show r < 256 by omega)
  have hpack := ClientUDP.getPackedMessage_eq (UInt8.ofNat r) hascii hlen (by omega)
  rw [hid] at hpack
  obtain ⟨lookups, hstep, hnames⟩ :=
    answer_request (UInt8.ofNat r) resolve buf h50 hlen htotal
  have hlen' := length_answer resolve (UInt8.ofNat r) hosts
  have hresp := ClientUDP.getResponse_of_wellFormed
    (answer_wellFormed (UInt8.ofNat r) resolve h50) (by omega) (by omega) []
  refine ⟨_, _, _, hpack, hstep, error_request _ buf htotal, hnames, hresp, ?_, ?_⟩
  · rw [(responseOf_answer ..).1, hid]
  · rw [ClientUDP.execute]
    simp only [hpack, hresp]
    rw [if_pos (by omega), printAddresses_answer]

/-- Two names, of which only the first resolves. -/
theorem roundTrip_two_hosts :
    ∃ datagram reply response,
      ClientUDP.getPackedMessage (5 : ℕ) [[97], [98, 99]] = .ok datagram ∧
      runStep (ofName fun host => if host = [97] then some 0x04030201 else none) (fun _ => 0xaa)
        datagram = some (processed (fun _ => 0xaa) datagram, reply) ∧
      (processed (fun _ => 0xaa) datagram).error = 0 ∧
      reply.lookups.map Lookup.hostname = [[97], [98, 99]] ∧
      ClientUDP.getResponse [reply.packet] = .answer response 1 ∧
      response.rid.toNat = 5 ∧
      ClientUDP.execute (some (5 : ℕ)) [[97], [98, 99]] [reply.packet]
        = ([.address [97] "1.2.3.4", .address [98, 99] "255.255.255.255"], none) :=
  roundTrip (fun host => if host = [97] then some 0x04030201 else none) (fun _ => 0xaa)
    (by decide) (by decide) (by decide) (by simp) (by decide) (by decide)

end Lab2

end Comp4320
