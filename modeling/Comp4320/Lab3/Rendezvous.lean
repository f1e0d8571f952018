import Comp4320.Lib.System
import Comp4320.Lab3.ChatClient
import Mathlib.Logic.Function.Basic

/-!
# Clients, server and network

Any number of clients ask one server for a partner, each once. Their requests and the replies are
in flight in between, where they may be delayed, overtake one another, or be lost; nothing is
delivered twice. A client that is registered binds its port and listens on it, and a client that is
sent a partner connects to it.

What the server does is a function of the order in which it handles the requests, and `served`
records that order. The valid requests in it are the arrivals of a waiting room, so who is paired
with whom is `Pairing.pair`, and what is left for the invariant to say is that the replies in
flight, and the clients that have received one, carry what `Pairing.pair` says.

## Main definitions

* `Clients` — the clients, their ports and source addresses
* `Rendezvous`, `rendezvous` — the state of everything, and the runs
* `Rendezvous.callee` — the address a client passes to `connect`

## Main results

* `Rendezvous.inv_of_reachable` — the invariant
* `Rendezvous.partners_of_reachable` — every client that calls is calling a partner of its own
-/

namespace Comp4320

namespace Lab3

open ByteOrder

/-! ### The system -/

/-- The clients. -/
structure Clients (ι : Type) where
  /-- The client, with its port. -/
  client : ι → ChatClient
  /-- The source address of its datagrams. -/
  s_addr : ι → UInt32
  /-- What the buffer of `run` holds before the reply is received. -/
  buff : ι → Memory

/-- Where a client is. -/
inductive Phase
  /-- Before `sendto`. -/
  | start
  /-- In the `recvfrom` of `sendChatRequest`. -/
  | requested
  /-- In `waitToChat`, before `bind`. -/
  | waitToChat
  /-- In `waitToChat`, after `bind` and before `listen`. -/
  | bound (myAddr : SockAddrIn)
  /-- In `waitToChat`, after `listen`. -/
  | listening (myAddr : SockAddrIn)
  /-- In `initiateChat`, before `connect`. -/
  | initiateChat (response : ServerResponse)
  /-- In `initiateChat`, after `connect`, whatever it returned. -/
  | called (response : ServerResponse)
  /-- `waitToChat` has returned without listening. -/
  | returned
  deriving DecidableEq, Repr

/-- A client and its messages in flight. -/
structure Peer where
  phase : Phase
  /-- Its request, on the way to the server. -/
  toServer : Option (List UInt8)
  /-- The reply, on the way back. -/
  toClient : Option (List UInt8)
  deriving DecidableEq, Repr

/-- The state of all clients, of the server and of the network. -/
structure Rendezvous (ι : Type) where
  peer : ι → Peer
  server : ChatServer
  /-- The clients whose requests the server has answered, in order, and how. -/
  served : List (ι × Branch)

/-- What happens next. -/
inductive Step (ι : Type)
  /-- `sendto` of the request. -/
  | send (i : ι)
  | loseRequest (i : ι)
  /-- The server receives a request and sends the reply. -/
  | serve (i : ι)
  | loseReply (i : ι)
  /-- `recvfrom` returns the reply, and `run` acts on it. -/
  | receive (i : ι)
  /-- `bind` in `configureMySocket`. -/
  | bind (i : ι)
  /-- `configureMySocket` or `listen` fails, and `waitToChat` returns. -/
  | waitFails (i : ι)
  | listen (i : ι)
  /-- `connect` in `configurePartnerSocket`. -/
  | connect (i : ι)
  deriving DecidableEq, Repr

section

variable {ι : Type} (net : Clients ι)

/-- The request of a client as the server receives it. -/
def Clients.datagram (i : ι) : Datagram := (net.client i).request (net.s_addr i)

/-- The address a client can be reached at: its source address, and the port it binds. -/
def Clients.address (i : ι) : SockAddrIn :=
  { (net.client i).configureMySocket with s_addr := net.s_addr i }

/-- What a client does with a reply. -/
def Clients.receive (i : ι) (reply : List UInt8) : Phase :=
  match ChatClient.run (net.buff i) reply with
  | .waitToChat _ => .waitToChat
  | .initiateChat response => .initiateChat response

namespace Rendezvous

/-- The client after a step of its own, or after its request or reply is lost. -/
def peerStep (p : Peer) : Step ι → Option Peer
  | .send i =>
    if p.phase = .start then
      some { p with phase := .requested, toServer := some (net.client i).getChatRequest.image }
    else none
  | .loseRequest _ => if p.toServer.isSome then some { p with toServer := none } else none
  | .loseReply _ => if p.toClient.isSome then some { p with toClient := none } else none
  | .receive i =>
    match p.phase, p.toClient with
    | .requested, some reply => some { p with phase := net.receive i reply, toClient := none }
    | _, _ => none
  | .bind i =>
    if p.phase = .waitToChat then
      some { p with phase := .bound (net.client i).configureMySocket }
    else none
  | .waitFails _ =>
    match p.phase with
    | .waitToChat => some { p with phase := .returned }
    | .bound _ => some { p with phase := .returned }
    | _ => none
  | .listen _ =>
    match p.phase with
    | .bound myAddr => some { p with phase := .listening myAddr }
    | _ => none
  | .connect _ =>
    match p.phase with
    | .initiateChat response => some { p with phase := .called response }
    | _ => none
  | .serve _ => none

/-- Whose step it is. -/
def actor : Step ι → ι
  | .send i | .loseRequest i | .serve i | .loseReply i | .receive i | .bind i | .waitFails i
  | .listen i | .connect i => i

/-- The address a client passes, or has passed, to `connect`. -/
def callee (s : Rendezvous ι) (i : ι) : Option SockAddrIn :=
  match (s.peer i).phase with
  | .initiateChat response => some (ChatClient.initiateChat response)
  | .called response => some (ChatClient.initiateChat response)
  | _ => none

/-- The clients whose requests the server has accepted, in order. -/
def accepted (served : List (ι × Branch)) : List ι :=
  (served.filter fun x => x.2 ≠ .invalid).map Prod.fst

variable [DecidableEq ι]

/-- Replace one client and its messages. -/
def setPeer (s : Rendezvous ι) (i : ι) (p : Peer) : Rendezvous ι :=
  { s with peer := Function.update s.peer i p }

/-- The server handles the request of a client that is in flight. An exception would end it. -/
def serve (s : Rendezvous ι) (i : ι) : Option (Rendezvous ι) :=
  match (s.peer i).toServer with
  | none => none
  | some data =>
    match s.server.handle ⟨data, net.s_addr i⟩ with
    | .error _ => none
    | .ok (server, reply) =>
      let p := { s.peer i with toServer := none, toClient := some reply.response }
      some { s.setPeer i p with server := server, served := s.served ++ [(i, reply.branch)] }

/-- One step of the system. -/
def step (s : Rendezvous ι) (e : Step ι) : Option (Rendezvous ι) :=
  match e with
  | .serve i => s.serve net i
  | e => (peerStep net (s.peer (actor e)) e).map (s.setPeer (actor e))

end Rendezvous

/-- The runs: nobody has sent anything, and the server is fresh. -/
def rendezvous [DecidableEq ι] : System (Rendezvous ι) (Step ι) where
  init := fun s => (∀ i, s.peer i = ⟨.start, none, none⟩) ∧ s.server = .start ∧ s.served = []
  step := Rendezvous.step net

end

/-! ### One client -/

namespace Rendezvous

variable {ι : Type} {net : Clients ι} {served : List (ι × Branch)} {i j : ι} {p p' : Peer}
  {e : Step ι} {reply : List UInt8}

/-- The reply of a client is an error or a registration, or it carries the address of the client it
is paired with. -/
def Answered (net : Clients ι) (served : List (ι × Branch)) (i : ι) (reply : List UInt8) : Prop :=
  reply.length = 7 ∨ ∃ a, (i, some a) ∈ Pairing.pair (accepted served) ∧
    reply = connectResponse (net.datagram a).ip (net.datagram a).port

/-- What holds of a client and its messages at all times. -/
structure PeerOk (net : Clients ι) (served : List (ι × Branch)) (i : ι) (p : Peer) : Prop where
  start : p.phase = .start → p.toServer = none ∧ i ∉ served.map Prod.fst
  request : ∀ data ∈ p.toServer, data = (net.client i).getChatRequest.image ∧
    i ∉ served.map Prod.fst
  reply : ∀ reply ∈ p.toClient, Answered net served i reply
  callee : ∀ response, p.phase = .initiateChat response ∨ p.phase = .called response →
    ∃ a, (i, some a) ∈ Pairing.pair (accepted served) ∧
      ChatClient.initiateChat response = net.address a

theorem peerOk_start (h : i ∉ served.map Prod.fst) : PeerOk net served i ⟨.start, none, none⟩ :=
  ⟨fun _ => ⟨rfl, h⟩, by simp, by simp, by simp⟩

/-- A client that is sent a partner calls the address of that partner. -/
theorem receive_of_answered (h : Answered net served i reply) :
    net.receive i reply = .waitToChat ∨ ∃ response, net.receive i reply = .initiateChat response ∧
      ∃ a, (i, some a) ∈ Pairing.pair (accepted served) ∧
        ChatClient.initiateChat response = net.address a := by
  rw [Clients.receive]
  rcases h with h | ⟨a, ha, rfl⟩
  · obtain ⟨r, hr⟩ := ChatClient.run_of_length_eq_seven (net.buff i) h
    exact Or.inl (by rw [hr])
  · obtain ⟨response, hrun, hip, hport⟩ := ChatClient.run_connectResponse (net.buff i)
      (net.datagram a).ip_lt (net.datagram a).port_lt
    refine Or.inr ⟨response, by rw [hrun], a, ha, ?_⟩
    exact ChatClient.initiateChat_eq (net.client a) (net.s_addr a) hip hport

theorem PeerOk.step (h : PeerOk net served (actor e) p) (hstep : peerStep net p e = some p') :
    PeerOk net served (actor e) p' := by
  cases e with
  | serve i => exact absurd hstep (by simp [peerStep])
  | send i =>
    obtain ⟨hphase, heq⟩ := Option.ite_none_right_eq_some.mp hstep
    obtain rfl := Option.some.inj heq
    refine ⟨by simp, ?_, h.reply, by simp⟩
    rintro data ⟨⟩
    exact ⟨rfl, (h.start hphase).2⟩
  | loseRequest i =>
    obtain ⟨-, heq⟩ := Option.ite_none_right_eq_some.mp hstep
    obtain rfl := Option.some.inj heq
    exact ⟨fun hphase => ⟨rfl, (h.start hphase).2⟩, by simp, h.reply, h.callee⟩
  | loseReply i =>
    obtain ⟨-, heq⟩ := Option.ite_none_right_eq_some.mp hstep
    obtain rfl := Option.some.inj heq
    exact ⟨h.start, h.request, by simp, h.callee⟩
  | receive i =>
    rw [peerStep] at hstep
    split at hstep
    · obtain rfl := Option.some.inj hstep
      rename_i reply hphase hreply
      have hans : Answered net served i reply := h.reply reply hreply
      rcases receive_of_answered hans with hwait | ⟨response, hcall, ha⟩
      · exact ⟨by simp [hwait], h.request, by simp, by simp [hwait]⟩
      · refine ⟨by simp [hcall], h.request, by simp, ?_⟩
        rintro response' (heq | heq)
        · obtain rfl := Phase.initiateChat.inj (hcall.symm.trans heq)
          exact ha
        · exact absurd (hcall.symm.trans heq) (by simp)
    · exact absurd hstep (by simp)
  | bind i =>
    obtain ⟨-, heq⟩ := Option.ite_none_right_eq_some.mp hstep
    obtain rfl := Option.some.inj heq
    exact ⟨by simp, h.request, h.reply, by simp⟩
  | waitFails i =>
    rw [peerStep] at hstep
    split at hstep
    · obtain rfl := Option.some.inj hstep
      exact ⟨by simp, h.request, h.reply, by simp⟩
    · obtain rfl := Option.some.inj hstep
      exact ⟨by simp, h.request, h.reply, by simp⟩
    · exact absurd hstep (by simp)
  | listen i =>
    rw [peerStep] at hstep
    split at hstep
    · obtain rfl := Option.some.inj hstep
      exact ⟨by simp, h.request, h.reply, by simp⟩
    · exact absurd hstep (by simp)
  | connect i =>
    rw [peerStep] at hstep
    split at hstep
    · rename_i response hphase
      obtain rfl := Option.some.inj hstep
      refine ⟨by simp, h.request, h.reply, ?_⟩
      rintro response' (heq | heq)
      · exact absurd heq (by simp)
      · obtain rfl := Phase.called.inj heq
        exact h.callee response (Or.inl hphase)
    · exact absurd hstep (by simp)

/-! ### The order of service -/

theorem accepted_concat (served : List (ι × Branch)) (i : ι) (b : Branch) :
    accepted (served ++ [(i, b)])
      = if b = .invalid then accepted served else accepted served ++ [i] := by
  rw [accepted, List.filter_append, List.map_append, ← accepted]
  split_ifs with hb <;> simp [hb]

/-- Pairs are never undone. -/
theorem mem_pair_concat {served : List (ι × Branch)} {i : ι} {b : Branch} {q : ι × Option ι}
    (h : q ∈ Pairing.pair (accepted served)) :
    q ∈ Pairing.pair (accepted (served ++ [(i, b)])) := by
  rw [accepted_concat]
  split_ifs
  · exact h
  · rw [Pairing.pair_concat]
    exact List.mem_append_left _ h

theorem nodup_accepted (h : (served.map Prod.fst).Nodup) : (accepted served).Nodup :=
  (List.filter_sublist.map Prod.fst).nodup h

theorem Answered.concat {b : Branch} (h : Answered net served i reply) :
    Answered net (served ++ [(j, b)]) i reply := by
  rcases h with h | ⟨a, ha, heq⟩
  · exact Or.inl h
  · exact Or.inr ⟨a, mem_pair_concat ha, heq⟩

/-- The service of another client changes nothing for this one. -/
theorem PeerOk.concat {b : Branch} (h : PeerOk net served i p) (hij : i ≠ j) :
    PeerOk net (served ++ [(j, b)]) i p := by
  have hnot : i ∉ served.map Prod.fst → i ∉ (served ++ [(j, b)]).map Prod.fst := by
    intro hi
    rw [List.map_append, List.mem_append]
    rintro (hmem | hmem)
    · exact hi hmem
    · exact hij (List.mem_singleton.mp hmem)
  refine ⟨?_, ?_, fun r hr => (h.reply r hr).concat, ?_⟩
  · intro hphase
    exact ⟨(h.start hphase).1, hnot (h.start hphase).2⟩
  · intro data hdata
    exact ⟨(h.request data hdata).1, hnot (h.request data hdata).2⟩
  · intro response hresponse
    obtain ⟨a, ha, heq⟩ := h.callee response hresponse
    exact ⟨a, mem_pair_concat ha, heq⟩

/-- A client whose request is answered. -/
theorem PeerOk.answered {data : List UInt8} {b : Branch} (h : PeerOk net served i p)
    (hreq : p.toServer = some data) (hans : Answered net (served ++ [(i, b)]) i reply) :
    PeerOk net (served ++ [(i, b)]) i { p with toServer := none, toClient := some reply } := by
  refine ⟨?_, by simp, ?_, ?_⟩
  · intro hphase
    exact absurd ((h.start hphase).1.symm.trans hreq) (by simp)
  · rintro r ⟨⟩
    exact hans
  · intro response hresponse
    obtain ⟨a, ha, heq⟩ := h.callee response hresponse
    exact ⟨a, mem_pair_concat ha, heq⟩

/-! ### The invariant -/

/-- How the server answers a client that it pairs with `w`. -/
def label (q : ι × Option ι) : ι × Branch :=
  (q.1, match q.2 with
    | none => .registered
    | some _ => .connect)

/-- The invariant: nobody is served twice, the server answers as the waiting room does and holds
whoever waits in it, and all clients are as they should be. -/
structure Inv (net : Clients ι) (s : Rendezvous ι) : Prop where
  nodup : (s.served.map Prod.fst).Nodup
  answered : (s.served.filter fun x => x.2 ≠ .invalid)
    = (Pairing.pair (accepted s.served)).map label
  holds : s.server.Holds ((Pairing.waiting none (accepted s.served)).map net.datagram)
  peer : ∀ i, PeerOk net s.served i (s.peer i)

variable {s s' : Rendezvous ι}

/-- **What the server does with a request in flight**: it raises nothing, and answers as the waiting
room does. -/
theorem serve_spec (hs : Inv net s) {data : List UInt8} (hreq : (s.peer i).toServer = some data) :
    ∃ server reply, s.server.handle ⟨data, net.s_addr i⟩ = .ok (server, reply) ∧
      ((reply.branch = .invalid ∧ server = s.server ∧ reply.response.length = 7) ∨
        ∃ w, w = Pairing.waiting none (accepted s.served) ∧
          (i, reply.branch) = label (i, w) ∧
          server.Holds ((Pairing.next w i).map net.datagram) ∧
          (reply.response.length = 7 ∨ ∃ a, w = some a ∧
            reply.response = connectResponse (net.datagram a).ip (net.datagram a).port)) := by
  obtain ⟨rfl, -⟩ := (hs.peer i).request data hreq
  by_cases hvalid : (net.datagram i).Valid
  · obtain ⟨server, hstep, hholds⟩ := ChatServer.handle_refines hs.holds hvalid
    rw [Pairing.next_map] at hholds
    refine ⟨server, _, hstep, Or.inr ⟨_, rfl, ?_, hholds, ?_⟩⟩
    · cases Pairing.waiting none (accepted s.served) <;> rfl
    · cases Pairing.waiting none (accepted s.served) with
      | none => exact Or.inl (length_registeredResponse _)
      | some a => exact Or.inr ⟨a, rfl, rfl⟩
  · exact ⟨s.server, _, ChatServer.handle_invalid s.server hvalid,
      Or.inl ⟨rfl, rfl, length_invalidResponse _⟩⟩

/-- A client that calls is calling the one it is paired with. -/
theorem Inv.callee (hs : Inv net s) {addr : SockAddrIn} (h : s.callee i = some addr) :
    ∃ a, (i, some a) ∈ Pairing.pair (accepted s.served) ∧ addr = net.address a := by
  rw [Rendezvous.callee] at h
  split at h
  · rename_i response hphase
    obtain ⟨a, ha, heq⟩ := (hs.peer i).callee response (Or.inl hphase)
    exact ⟨a, ha, (Option.some.inj h).symm.trans heq⟩
  · rename_i response hphase
    obtain ⟨a, ha, heq⟩ := (hs.peer i).callee response (Or.inr hphase)
    exact ⟨a, ha, (Option.some.inj h).symm.trans heq⟩
  · exact absurd h (by simp)

/-- The server has registered the partner of a client before it answered the client. -/
theorem Inv.registered_before (hs : Inv net s) {a : ι}
    (h : (i, some a) ∈ Pairing.pair (accepted s.served)) :
    [(a, .registered), (i, .connect)].Sublist s.served := by
  have hsub := (Pairing.waited_before_partner h).map label
  rw [← hs.answered] at hsub
  exact hsub.trans List.filter_sublist

/-! ### Steps -/

variable [DecidableEq ι]

@[simp] theorem peer_setPeer_self : (s.setPeer i p).peer i = p := Function.update_self ..

theorem peer_setPeer_of_ne (h : j ≠ i) : (s.setPeer i p).peer j = s.peer j :=
  Function.update_of_ne h ..

theorem Inv.setPeer (hs : Inv net s) (hp : PeerOk net s.served i p) : Inv net (s.setPeer i p) := by
  refine ⟨hs.nodup, hs.answered, hs.holds, fun j => ?_⟩
  by_cases hj : j = i
  · subst hj
    rw [peer_setPeer_self]
    exact hp
  · rw [peer_setPeer_of_ne hj]
    exact hs.peer j

/-- A step is a step of the server, or it changes one client and its messages. -/
theorem step_cases (h : s.step net e = some s') :
    (∃ i, e = .serve i ∧ s.serve net i = some s') ∨
      ∃ p, peerStep net (s.peer (actor e)) e = some p ∧ s' = s.setPeer (actor e) p := by
  cases e with
  | serve i => exact Or.inl ⟨i, rfl, h⟩
  | _ =>
    obtain ⟨p, hp, heq⟩ := Option.map_eq_some_iff.mp h
    exact Or.inr ⟨p, hp, heq.symm⟩

/-- A step of the server takes a request, sends the reply and appends to the order of service. -/
theorem serve_cases (h : s.serve net i = some s') :
    ∃ data server reply, (s.peer i).toServer = some data ∧
      s.server.handle ⟨data, net.s_addr i⟩ = .ok (server, reply) ∧
      s' = { s.setPeer i { s.peer i with toServer := none, toClient := some reply.response } with
        server := server, served := s.served ++ [(i, reply.branch)] } := by
  rw [Rendezvous.serve] at h
  split at h
  · exact absurd h (by simp)
  · rename_i data hreq
    split at h
    · exact absurd h (by simp)
    · rename_i server reply hhandle
      exact ⟨data, server, reply, hreq, hhandle, (Option.some.inj h).symm⟩

theorem Inv.serve (hs : Inv net s) (h : s.serve net i = some s') : Inv net s' := by
  obtain ⟨data, server, reply, hreq, hhandle, rfl⟩ := serve_cases h
  obtain ⟨server', reply', hhandle', hspec⟩ := serve_spec hs hreq
  obtain ⟨rfl, rfl⟩ := Prod.mk.inj (Except.ok.inj (hhandle.symm.trans hhandle'))
  have hnew : i ∉ s.served.map Prod.fst := ((hs.peer i).request data hreq).2
  have hnodup : ((s.served ++ [(i, reply.branch)]).map Prod.fst).Nodup := by
    rw [List.map_append, List.nodup_append]
    refine ⟨hs.nodup, by simp, ?_⟩
    rintro a ha b hb rfl
    obtain rfl : a = i := List.mem_singleton.mp hb
    exact hnew ha
  have hpeer : Answered net (s.served ++ [(i, reply.branch)]) i reply.response → ∀ j,
      PeerOk net (s.served ++ [(i, reply.branch)]) j ((s.setPeer i
        { s.peer i with toServer := none, toClient := some reply.response }).peer j) := by
    intro hans j
    by_cases hj : j = i
    · subst hj
      rw [peer_setPeer_self]
      exact (hs.peer j).answered hreq hans
    · rw [peer_setPeer_of_ne hj]
      exact (hs.peer j).concat hj
  rcases hspec with ⟨hinv, rfl, hlen⟩ | ⟨w, rfl, hlabel, hholds, hans⟩
  · have hacc : accepted (s.served ++ [(i, reply.branch)]) = accepted s.served := by
      rw [accepted_concat, if_pos hinv]
    refine ⟨hnodup, ?_, ?_, hpeer (Or.inl hlen)⟩
    · rw [hacc, List.filter_append, hs.answered]
      simp [hinv]
    · rw [hacc]
      exact hs.holds
  · have hvalid : reply.branch ≠ .invalid := by
      have hbranch := (Prod.mk.inj hlabel).2
      rw [hbranch]
      cases Pairing.waiting none (accepted s.served) <;> simp
    have hacc : accepted (s.served ++ [(i, reply.branch)]) = accepted s.served ++ [i] := by
      rw [accepted_concat, if_neg hvalid]
    refine ⟨hnodup, ?_, ?_, hpeer ?_⟩
    · rw [hacc, List.filter_append, hs.answered, Pairing.pair_concat, List.map_append,
        List.map_singleton, ← hlabel]
      simp [hvalid]
    · rw [hacc, Pairing.waiting_concat]
      exact hholds
    · rcases hans with hlen | ⟨a, ha, heq⟩
      · exact Or.inl hlen
      · refine Or.inr ⟨a, ?_, heq⟩
        rw [hacc, Pairing.pair_concat, ha]
        exact List.mem_append_right _ (List.mem_singleton_self _)

theorem Inv.step (hs : Inv net s) (h : s.step net e = some s') : Inv net s' := by
  rcases step_cases h with ⟨i, -, hserve⟩ | ⟨p, hp, rfl⟩
  · exact hs.serve hserve
  · exact hs.setPeer ((hs.peer (actor e)).step hp)

/-- **The invariant holds in every reachable state.** -/
theorem inv_of_reachable (h : (rendezvous net).Reachable s) : Inv net s := by
  refine h.invariant (fun s hs => ?_) fun s e s' hs _ hstep => hs.step hstep
  obtain ⟨hpeer, hserver, hserved⟩ := hs
  refine ⟨by simp [hserved], by rw [hserved]; rfl, ?_, fun i => ?_⟩
  · rw [hserver, hserved]
    exact ChatServer.holds_start
  · rw [hpeer i, hserved]
    exact peerOk_start (by simp)

/-! ### Who calls whom -/

/-- **Every client that calls is calling a partner of its own.** In every reachable state there is
an assignment of partners under which every client that has reached `initiateChat` passes to
`connect` the address of its partner: another client, registered by the server, at the address its
requests come from and the port it binds. No two clients share a partner, and no partner calls. -/
theorem partners_of_reachable (h : (rendezvous net).Reachable s) :
    ∃ partner : ι → Option ι,
      (∀ b addr, s.callee b = some addr → ∃ a, partner b = some a ∧ a ≠ b ∧
        addr = net.address a ∧ [(a, .registered), (b, .connect)].Sublist s.served) ∧
      (∀ b b' a, partner b = some a → partner b' = some a → b = b') ∧
      ∀ b a, partner b = some a → s.callee a = none := by
  have hs := inv_of_reachable h
  have hnodup := nodup_accepted hs.nodup
  obtain ⟨partner, hpartner⟩ := Pairing.exists_partner hnodup
  refine ⟨partner, ?_, ?_, ?_⟩
  · intro b addr hcall
    obtain ⟨a, ha, heq⟩ := hs.callee hcall
    exact ⟨a, (hpartner b a).mpr ha, Pairing.partner_ne hnodup ha, heq, hs.registered_before ha⟩
  · intro b b' a hb hb'
    exact Pairing.partner_injective hnodup ((hpartner b a).mp hb) ((hpartner b' a).mp hb')
  · intro b a hb
    cases hcall : s.callee a with
    | none => rfl
    | some addr =>
      obtain ⟨c, hc, -⟩ := hs.callee hcall
      exact absurd hc (Pairing.partner_not_paired hnodup ((hpartner b a).mp hb))

/-- Two clients on one host, with two of the ports the server accepts. -/
def twoClients : Clients Bool where
  client := fun i => if i then ⟨10046⟩ else ⟨10045⟩
  s_addr := fun _ => 0x0100007f
  buff := fun _ _ => 0

/-- Before either has sent anything. -/
def twoClientsStart : Rendezvous Bool := ⟨fun _ => ⟨.start, none, none⟩, .start, []⟩

theorem twoClientsStart_reachable {C : Rendezvous Bool → Step Bool → Prop} :
    (rendezvous twoClients).ReachableUnder C twoClientsStart :=
  .init ⟨fun _ => rfl, rfl, rfl⟩

/-- The second client of two reaches `initiateChat`. -/
theorem partners_of_two_clients : ∃ s, (rendezvous twoClients).Reachable s ∧
    s.callee true = some (twoClients.address false) ∧
    ∃ partner : Bool → Option Bool,
      (∀ b addr, s.callee b = some addr → ∃ a, partner b = some a ∧ a ≠ b ∧
        addr = twoClients.address a ∧ [(a, .registered), (b, .connect)].Sublist s.served) ∧
      (∀ b b' a, partner b = some a → partner b' = some a → b = b') ∧
      ∀ b a, partner b = some a → s.callee a = none := by
  have hrun : ((rendezvous twoClients).run twoClientsStart
      [.send false, .send true, .serve false, .serve true, .receive true]).map (·.callee true)
      = some (some (twoClients.address false)) := by
    decide +kernel
  obtain ⟨s, hs, hcall⟩ := Option.map_eq_some_iff.mp hrun
  have hreach := System.reachable_of_run twoClientsStart_reachable hs
  exact ⟨s, hreach, hcall, partners_of_reachable hreach⟩

end Rendezvous

end Lab3

end Comp4320
