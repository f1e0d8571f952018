import Comp4320.Lab2.RoundTrip

/-!
# Sessions over a network that duplicates

One client makes a sequence of calls on one socket, and the network may deliver every datagram any
number of times, as late and in whatever order it likes. A call therefore takes whatever reply
comes next, and a reply to an earlier call is as good as its own: it is well formed, and the
request id, which would tell them apart, is unpacked and never looked at.

`Matched` is the check that is missing, put on the network instead: no call receives a reply that
carries another request id. Under it every line printed is right, since the ids of a program are
distinct and a reply with the id of a call answers that very call.

## Main definitions

* `Call`, `Program` — a call within the limits of the server, and calls with distinct ids
* `Returned` — a call that has returned
* `Session`, `sessions` — client, server and network, and the runs they make

## Main results

* `printed_of_matched` — in every run whose deliveries are matched, what is printed is right, and
  has been answered to the call that prints it
* `printed_unmatched` — a run that prints the address of another host
-/

namespace Comp4320

namespace Lab2

open LengthPrefix ServerUDP

/-! ### The system -/

/-- A call of `execute` within the limits of the server. -/
structure Call where
  /-- The request id. -/
  id : ℕ
  /-- The names asked for. -/
  hosts : List (List UInt8)
  /-- `execute` lets the id through. -/
  id_le : id ≤ 127
  /-- There is something to ask. -/
  hosts_ne : 1 ≤ hosts.length
  /-- The addresses fit the array of the server. -/
  hosts_le : hosts.length ≤ 50
  /-- The names are ASCII. -/
  ascii : ∀ host ∈ hosts, ∀ b ∈ host, b < 128
  /-- Each length fits its byte. -/
  host_le : ∀ host ∈ hosts, host.length ≤ 255
  /-- The frames fit the buffer of the server. -/
  total_le : (encode hosts).length ≤ 4096

/-- The calls of one client, their ids pairwise distinct. -/
structure Program where
  /-- The calls, in order. -/
  calls : List Call
  /-- No id is used twice. -/
  distinct : (calls.map Call.id).Nodup

/-- A call that has returned. -/
structure Returned where
  call : Call
  /-- What `recvfrom` has returned to it. -/
  inbox : List (List UInt8)
  /-- What it has printed. -/
  lines : List ClientUDP.Line

/-- Client, server and network. -/
structure Session where
  /-- The calls not yet made. -/
  pending : List Call
  /-- The call that is in `get_response`, if any. -/
  current : Option Call
  /-- What `recvfrom` has returned to it. -/
  inbox : List (List UInt8)
  /-- The datagrams the client has sent. Any of them may be delivered again. -/
  requests : List (List UInt8)
  /-- The datagrams the server has sent. Any of them may be delivered again. -/
  replies : List (List UInt8)
  /-- The buffer of the server. -/
  buffer : ClientRequest
  /-- The calls that have returned. -/
  printed : List Returned
  /-- An exception has ended the client. -/
  crashed : Bool

/-- What happens next. -/
inductive Event
  /-- The client makes its next call and sends the request. -/
  | begin
  /-- The network delivers a request to the server, which replies. -/
  | serve (i : ℕ)
  /-- The network delivers a reply to the client. -/
  | deliver (i : ℕ)
  deriving DecidableEq, Repr

/-- A call returns, having received these datagrams. -/
def Session.finish (s : Session) (c : Call) (inbox : List (List UInt8)) : Session :=
  let r := ClientUDP.execute (some c.id) c.hosts inbox
  { s with current := none, printed := s.printed ++ [⟨c, inbox, r.1⟩], crashed := r.2.isSome }

/-- The client makes its next call. A retransmission sends the same datagram again, which the
network may do as well, so `requests` holds one copy. -/
def Session.begin (s : Session) : Option Session :=
  if s.crashed ∨ s.current.isSome then none
  else
    match s.pending with
    | [] => none
    | c :: rest =>
      match ClientUDP.getPackedMessage c.id c.hosts with
      | .ok datagram => some { s with
          pending := rest, current := some c, inbox := [], requests := s.requests ++ [datagram] }
      | .error _ => some ({ s with pending := rest }.finish c [])

/-- The server receives a request and replies. -/
def Session.serve (resolve : List UInt8 → Option UInt32) (s : Session) (i : ℕ) : Option Session :=
  match s.requests[i]? with
  | none => none
  | some datagram => (runStep (ofName resolve) s.buffer datagram).map fun (buffer, reply) =>
      { s with buffer := buffer, replies := s.replies ++ [reply.packet] }

/-- The call in progress receives a reply: it goes on waiting, or it returns. -/
def Session.deliver (s : Session) (i : ℕ) : Option Session :=
  match s.current, s.replies[i]? with
  | some c, some reply =>
    match ClientUDP.getResponse (s.inbox ++ [reply]) with
    | .blocked _ => some { s with inbox := s.inbox ++ [reply] }
    | _ => some (s.finish c (s.inbox ++ [reply]))
  | _, _ => none

/-- The runs of a program. -/
def sessions (resolve : List UInt8 → Option UInt32) (program : Program) :
    System Session Event where
  init := fun s => s.pending = program.calls ∧ s.current = none ∧ s.requests = [] ∧
    s.replies = [] ∧ s.printed = [] ∧ s.crashed = false
  step := fun s e =>
    match e with
    | .begin => s.begin
    | .serve i => s.serve resolve i
    | .deliver i => s.deliver i

/-- No call receives a reply that carries another request id. -/
def Matched (s : Session) : Event → Prop
  | .deliver i => ∀ c ∈ s.current, ∀ reply ∈ s.replies[i]?, (reply.getD 8 0).toNat = c.id
  | _ => True

instance (s : Session) : ∀ e, Decidable (Matched s e)
  | .begin => .isTrue trivial
  | .serve _ => .isTrue trivial
  | .deliver i => inferInstanceAs (Decidable (∀ c ∈ s.current, ∀ reply ∈ s.replies[i]?, _))

/-- Every address printed is the resolver's answer for the host it is printed next to. -/
def PrintedRight (resolve : List UInt8 → Option UInt32) (s : Session) : Prop :=
  ∀ r ∈ s.printed, ∀ (x : ℕ) host ip_address, r.lines[x]? = some (.address host ip_address) →
    r.call.hosts[x]? = some host ∧ ip_address = shown resolve host

/-- The call has received one datagram, and that is what the server answers to its request. -/
def Returned.Answered (resolve : List UInt8 → Option UInt32) (r : Returned) : Prop :=
  ∃ datagram packet, ClientUDP.getPackedMessage r.call.id r.call.hosts = .ok datagram ∧
    r.inbox = [packet] ∧ ∀ buf, ∃ b lookups,
      runStep (ofName resolve) buf datagram = some (b, ⟨packet, lookups⟩)

/-! ### One call -/

/-- The request of a call. -/
def Call.request (c : Call) : List UInt8 := Lab2.request (.ofNat c.id) c.hosts

/-- The answer to a call. -/
def Call.answer (resolve : List UInt8 → Option UInt32) (c : Call) : List UInt8 :=
  Lab2.answer resolve (.ofNat c.id) c.hosts

theorem Call.toNat_id (c : Call) : (UInt8.ofNat c.id).toNat = c.id := by
  have hid := c.id_le
  exact UInt8.toNat_ofNat_of_lt' (show c.id < 256 by omega)

theorem Call.getPackedMessage_eq (c : Call) :
    ClientUDP.getPackedMessage c.id c.hosts = .ok c.request := by
  have htotal := c.total_le
  have hpack := ClientUDP.getPackedMessage_eq (UInt8.ofNat c.id) c.ascii c.host_le (by omega)
  rwa [c.toNat_id] at hpack

theorem Call.runStep_request (resolve : List UInt8 → Option UInt32) (c : Call)
    (buf : ClientRequest) : ∃ b lookups,
      runStep (ofName resolve) buf c.request = some (b, ⟨c.answer resolve, lookups⟩) := by
  obtain ⟨lookups, hstep, -⟩ :=
    answer_request (.ofNat c.id) resolve buf c.hosts_le c.host_le c.total_le
  exact ⟨_, lookups, hstep⟩

/-- The id an answer carries is the id of the call it answers. -/
theorem Call.id_answer (resolve : List UInt8 → Option UInt32) (c : Call) :
    ((c.answer resolve).getD 8 0).toNat = c.id := by
  have hget : (c.answer resolve)[8]? = some (.ofNat c.id) := Packet.getElem?_eight_stamped ..
  rw [List.getD_eq_getElem?_getD, hget, Option.getD_some, c.toNat_id]

/-- A call that receives its own answer prints every host with its address. -/
theorem Call.execute_answer (resolve : List UInt8 → Option UInt32) (c : Call) :
    ClientUDP.getResponse [c.answer resolve]
        = .answer (ClientUDP.responseOf (c.answer resolve)) 1 ∧
      ClientUDP.execute (some c.id) c.hosts [c.answer resolve]
        = (c.hosts.map fun host => .address host (shown resolve host), none) := by
  have hlen := length_answer resolve (.ofNat c.id) c.hosts
  have hne := c.hosts_ne
  have hle := c.hosts_le
  have hresp : ClientUDP.getResponse [c.answer resolve]
      = .answer (ClientUDP.responseOf (c.answer resolve)) 1 :=
    ClientUDP.getResponse_of_wellFormed (answer_wellFormed (.ofNat c.id) resolve c.hosts_le)
      (by omega) (by omega) []
  refine ⟨hresp, ?_⟩
  rw [ClientUDP.execute]
  simp only [c.getPackedMessage_eq, hresp]
  rw [if_pos (by have := c.id_le; omega)]
  exact printAddresses_answer resolve (.ofNat c.id) c.hosts

/-! ### What every matched run preserves -/

/-- The invariant: every datagram in the network belongs to a call of the program, a call in
progress has received nothing yet, and what has been printed is right. -/
structure Session.Inv (resolve : List UInt8 → Option UInt32) (program : Program) (s : Session) :
    Prop where
  pending : ∀ c ∈ s.pending, c ∈ program.calls
  current : ∀ c, s.current = some c → c ∈ program.calls ∧ s.inbox = []
  requests : ∀ d ∈ s.requests, ∃ c ∈ program.calls, d = c.request
  replies : ∀ d ∈ s.replies, ∃ c ∈ program.calls, d = c.answer resolve
  printed : ∀ r ∈ s.printed, r.inbox = [r.call.answer resolve] ∧
    r.lines = r.call.hosts.map fun host => .address host (shown resolve host)

variable {resolve : List UInt8 → Option UInt32} {program : Program} {s s' : Session}

theorem Session.Inv.begin (hs : s.Inv resolve program) (h : s.begin = some s') :
    s'.Inv resolve program := by
  rw [Session.begin] at h
  split_ifs at h
  cases hp : s.pending with
  | nil => rw [hp] at h; exact absurd h (by simp)
  | cons c rest =>
    rw [hp] at h
    simp only [c.getPackedMessage_eq, Option.some.injEq] at h
    subst h
    have hc : c ∈ program.calls := hs.pending c (by rw [hp]; exact List.mem_cons_self)
    refine ⟨fun b hb => hs.pending b (by rw [hp]; exact List.mem_cons_of_mem _ hb), ?_, ?_,
      hs.replies, hs.printed⟩
    · rintro b ⟨⟩
      exact ⟨hc, rfl⟩
    · intro d hd
      rcases List.mem_append.mp hd with hd | hd
      · exact hs.requests d hd
      · exact ⟨c, hc, List.mem_singleton.mp hd⟩

theorem Session.Inv.serve (hs : s.Inv resolve program) {i : ℕ}
    (h : s.serve resolve i = some s') : s'.Inv resolve program := by
  rw [Session.serve] at h
  cases hd : s.requests[i]? with
  | none => rw [hd] at h; exact absurd h (by simp)
  | some datagram =>
    obtain ⟨c, hc, rfl⟩ := hs.requests datagram (List.mem_of_getElem? hd)
    obtain ⟨b, lookups, hstep⟩ := c.runStep_request resolve s.buffer
    rw [hd] at h
    simp only [hstep, Option.map_some, Option.some.injEq] at h
    subst h
    refine ⟨hs.pending, hs.current, hs.requests, fun d hd => ?_, hs.printed⟩
    rcases List.mem_append.mp hd with hd | hd
    · exact hs.replies d hd
    · exact ⟨c, hc, List.mem_singleton.mp hd⟩

/-- A call that receives its own answer first returns with every host and its address. -/
theorem Session.deliver_answer {c : Call} {i : ℕ} (hcur : s.current = some c)
    (hinbox : s.inbox = []) (hr : s.replies[i]? = some (c.answer resolve)) :
    s.deliver i = some { s with
      current := none
      printed := s.printed ++ [⟨c, [c.answer resolve],
        c.hosts.map fun host => .address host (shown resolve host)⟩]
      crashed := false } := by
  obtain ⟨hresp, hexec⟩ := c.execute_answer resolve
  have hin : [c.answer resolve] = s.inbox ++ [c.answer resolve] := by rw [hinbox, List.nil_append]
  rw [hin] at hresp hexec
  rw [Session.deliver, hcur, hr]
  dsimp only
  rw [hresp]
  dsimp only
  rw [Session.finish, hexec, hinbox]
  rfl

/-- A matched delivery is the answer to the call in progress, so the call returns. -/
theorem Session.Inv.deliver (hs : s.Inv resolve program) {i : ℕ} (hm : Matched s (.deliver i))
    (h : s.deliver i = some s') : s'.Inv resolve program := by
  cases hcur : s.current with
  | none => rw [Session.deliver, hcur] at h; exact absurd h (by simp)
  | some c =>
    cases hr : s.replies[i]? with
    | none => rw [Session.deliver, hcur, hr] at h; exact absurd h (by simp)
    | some reply =>
      obtain ⟨hc, hinbox⟩ := hs.current c hcur
      obtain ⟨b, hb, rfl⟩ := hs.replies reply (List.mem_of_getElem? hr)
      have hid : b.id = c.id := by rw [← hm c hcur _ hr, b.id_answer]
      obtain rfl : b = c := List.inj_on_of_nodup_map program.distinct hb hc hid
      rw [Session.deliver_answer hcur hinbox hr, Option.some.injEq] at h
      subst h
      refine ⟨hs.pending, fun _ hnone => absurd hnone (by simp), hs.requests, hs.replies, ?_⟩
      intro r hr
      rcases List.mem_append.mp hr with hr | hr
      · exact hs.printed r hr
      · obtain rfl := List.mem_singleton.mp hr
        exact ⟨rfl, rfl⟩

theorem Session.inv_of_matched (h : (sessions resolve program).ReachableUnder Matched s) :
    s.Inv resolve program := by
  refine h.invariant (fun s hs => ?_) fun s e s' hs hm hstep => ?_
  · obtain ⟨hp, hc, hreq, hrep, hpr, -⟩ := hs
    exact ⟨by rw [hp]; exact fun c hc => hc, by rw [hc]; simp, by rw [hreq]; simp,
      by rw [hrep]; simp, by rw [hpr]; simp⟩
  · cases e with
    | begin => exact hs.begin hstep
    | serve i => exact hs.serve hstep
    | deliver i => exact hs.deliver hm hstep

/-- **In every run whose deliveries are matched, every address printed is right**: it is the
resolver's answer for that host of that call, which has received the answer to its own request. -/
theorem printed_of_matched (h : (sessions resolve program).ReachableUnder Matched s) :
    PrintedRight resolve s ∧ ∀ r ∈ s.printed, r.Answered resolve := by
  have hinv := Session.inv_of_matched h
  constructor
  · intro r hmem x host ip hline
    rw [(hinv.printed r hmem).2, List.getElem?_map] at hline
    obtain ⟨host', hget, heq⟩ := Option.map_eq_some_iff.mp hline
    obtain ⟨rfl, rfl⟩ := ClientUDP.Line.address.inj heq
    exact ⟨hget, rfl⟩
  · intro r hmem
    exact ⟨_, _, r.call.getPackedMessage_eq, (hinv.printed r hmem).1,
      r.call.runStep_request resolve⟩

/-! ### A run that prints the wrong address -/

/-- Request `1` for `a`, then request `2` for `b`. -/
def twoCalls : Program where
  calls := [⟨1, [[97]], by decide, by decide, by decide, by simp, by decide, by decide⟩,
    ⟨2, [[98]], by decide, by decide, by decide, by simp, by decide, by decide⟩]
  distinct := by decide

/-- `a` is 1.1.1.1 and `b` is 2.2.2.2. -/
def twoNames (host : List UInt8) : Option UInt32 :=
  if host = [97] then some 0x01010101 else some 0x02020202

/-- The state before the first call, with a cleared server buffer. -/
def twoCallsStart : Session := ⟨twoCalls.calls, none, [], [], [], fun _ => 0, [], false⟩

theorem twoCallsStart_reachable {C : Session → Event → Prop} :
    (sessions twoNames twoCalls).ReachableUnder C twoCallsStart :=
  .init ⟨rfl, rfl, rfl, rfl, rfl, rfl⟩

/-- With the first reply delivered to the first call and the second to the second, each host gets
its own address. -/
theorem printed_of_matched_two_calls : ∃ s, s.printed.length = 2 ∧
    (sessions twoNames twoCalls).ReachableUnder Matched s ∧ PrintedRight twoNames s ∧
    ∀ r ∈ s.printed, r.Answered twoNames := by
  have hrun : (((sessions twoNames twoCalls).restrict Matched).run twoCallsStart
      [.begin, .serve 0, .deliver 0, .begin, .serve 1, .deliver 1]).map (·.printed.length)
      = some 2 := by
    decide +kernel
  obtain ⟨s, hs, hlen⟩ := Option.map_eq_some_iff.mp hrun
  have hreach := System.reachableUnder_of_run twoCallsStart_reachable hs
  exact ⟨s, hlen, hreach, printed_of_matched hreach⟩

/-- With the first reply delivered twice, `b` is printed with the address of `a`. -/
theorem printed_unmatched : ∃ s, (sessions twoNames twoCalls).Reachable s ∧
    ¬ PrintedRight twoNames s := by
  have hrun : ((sessions twoNames twoCalls).run twoCallsStart
      [.begin, .serve 0, .deliver 0, .begin, .deliver 0]).map (fun s => s.printed.map
        fun r => (r.call.hosts, r.lines))
      = some [([[97]], [.address [97] "1.1.1.1"]), ([[98]], [.address [98] "1.1.1.1"])] := by
    decide +kernel
  obtain ⟨s, hs, hprinted⟩ := Option.map_eq_some_iff.mp hrun
  refine ⟨s, System.reachable_of_run twoCallsStart_reachable hs, fun hright => ?_⟩
  obtain ⟨r, hr, heq⟩ := List.mem_map.mp (show ([[98]], [.address [98] "1.1.1.1"])
    ∈ s.printed.map fun r => (r.call.hosts, r.lines) by rw [hprinted]; simp)
  obtain ⟨hhosts, hlines⟩ := Prod.mk.inj heq
  have hwrong := (hright r hr 0 [98] "1.1.1.1" (by rw [hlines]; rfl)).2
  exact absurd hwrong (by decide)

end Lab2

end Comp4320
