import Comp4320.Lab3.RendezvousOrder
import Mathlib.Algebra.Order.BigOperators.Group.Finset
import Mathlib.Data.Fintype.BigOperators

/-!
# What a rendezvous comes to

A client sends one request, receives at most one reply, and binds, listens or connects once, so it
takes five steps at most, counting those of the network and of the server on its behalf. A run of
`n` clients has no more than `5 * n` steps, whatever is lost and whatever fails.

If nothing is lost and nothing fails, and all clients ask for ports the server accepts, there is
only one way for a run to end. Every request has been answered, so the waiting room has seen all
clients, and it pairs every other one: half of them (rounded down) have called, each a client of its
own that listens, and if their number is odd one more listens whom nobody calls.

## Main definitions

* `Peer.steps`, `Rendezvous.steps` — how many steps are left
* `Rendezvous.Course`, `Decided` — where a client is, and where it is in the end
* `Rendezvous.Settled` — everybody listens or has called somebody who listens

## Main results

* `Rendezvous.length_le` — a run of `n` clients has at most `5 * n` steps
* `Rendezvous.settled_of_quiet` — where runs without losses end
-/

namespace Comp4320

namespace Lab3

/-! ### Every run ends -/

/-- How many steps a client may still take from here, if it has no messages in flight. -/
def Phase.steps : Phase → ℕ
  | .start => 5
  | .requested => 2
  | .waitToChat => 2
  | .bound _ => 1
  | .listening _ => 0
  | .initiateChat _ => 1
  | .called _ => 0
  | .returned => 0

/-- How many steps a client may still take, with those on its messages. -/
def Peer.steps (p : Peer) : ℕ :=
  p.phase.steps + p.toServer.elim 0 (fun _ => 2) + p.toClient.elim 0 fun _ => 1

/-- A message of the client has been lost, or `waitToChat` has failed: the client does nothing any
more. -/
def Peer.Lost (p : Peer) : Prop := p = ⟨.requested, none, none⟩ ∨ p.phase = .returned

namespace Rendezvous

variable {ι : Type} {net : Clients ι} {s s' : Rendezvous ι} {p p' : Peer} {e : Step ι} {i j : ι}
  {served : List (ι × Branch)}

/-- What a client does with a reply takes two more steps at most. -/
theorem steps_receive_le (net : Clients ι) (i : ι) (reply : List UInt8) :
    (net.receive i reply).steps ≤ 2 := by
  rw [Clients.receive]
  cases ChatClient.run (net.buff i) reply with
  | waitToChat _ => exact le_rfl
  | initiateChat _ => exact Nat.le_succ 1

/-- **Each step of a client is one of those it had left.** -/
theorem steps_peerStep_lt (h : peerStep net p e = some p') : p'.steps < p.steps := by
  cases e with
  | send i =>
    obtain ⟨hphase, heq⟩ := Option.ite_none_right_eq_some.mp h
    obtain rfl := Option.some.inj heq
    rw [Peer.steps, Peer.steps, hphase]
    simp only [Phase.steps, Option.elim_some]
    omega
  | loseRequest i =>
    obtain ⟨hsome, heq⟩ := Option.ite_none_right_eq_some.mp h
    obtain rfl := Option.some.inj heq
    obtain ⟨data, hdata⟩ := Option.isSome_iff_exists.mp hsome
    rw [Peer.steps, Peer.steps, hdata]
    simp only [Option.elim_some, Option.elim_none]
    omega
  | loseReply i =>
    obtain ⟨hsome, heq⟩ := Option.ite_none_right_eq_some.mp h
    obtain rfl := Option.some.inj heq
    obtain ⟨reply, hreply⟩ := Option.isSome_iff_exists.mp hsome
    rw [Peer.steps, Peer.steps, hreply]
    simp only [Option.elim_some, Option.elim_none]
    omega
  | receive i =>
    rw [peerStep] at h
    split at h
    · obtain rfl := Option.some.inj h
      rename_i reply hphase hreply
      have hle := steps_receive_le net i reply
      have hrequested : Phase.requested.steps = 2 := rfl
      rw [Peer.steps, Peer.steps, hphase, hreply, hrequested]
      simp only [Option.elim_some, Option.elim_none]
      omega
    · exact absurd h (by simp)
  | bind i =>
    obtain ⟨hphase, heq⟩ := Option.ite_none_right_eq_some.mp h
    obtain rfl := Option.some.inj heq
    rw [Peer.steps, Peer.steps, hphase]
    simp only [Phase.steps]
    omega
  | waitFails i =>
    rw [peerStep] at h
    split at h
    · rename_i hphase
      obtain rfl := Option.some.inj h
      rw [Peer.steps, Peer.steps, hphase]
      simp only [Phase.steps]
      omega
    · rename_i myAddr hphase
      obtain rfl := Option.some.inj h
      rw [Peer.steps, Peer.steps, hphase]
      simp only [Phase.steps]
      omega
    · exact absurd h (by simp)
  | listen i =>
    rw [peerStep] at h
    split at h
    · rename_i myAddr hphase
      obtain rfl := Option.some.inj h
      rw [Peer.steps, Peer.steps, hphase]
      simp only [Phase.steps]
      omega
    · exact absurd h (by simp)
  | connect i =>
    rw [peerStep] at h
    split at h
    · rename_i response hphase
      obtain rfl := Option.some.inj h
      rw [Peer.steps, Peer.steps, hphase]
      simp only [Phase.steps]
      omega
    · exact absurd h (by simp)
  | serve i => exact absurd h (by simp [peerStep])

section

variable [DecidableEq ι]

/-- A step takes a step from one client and none from the others. -/
theorem steps_step (h : s.step net e = some s') :
    ∃ i, (s'.peer i).steps < (s.peer i).steps ∧ ∀ j, j ≠ i → s'.peer j = s.peer j := by
  rcases step_cases h with ⟨i, rfl, hserve⟩ | ⟨p, hp, rfl⟩
  · obtain ⟨data, server, reply, hreq, -, rfl⟩ := serve_cases hserve
    refine ⟨i, ?_, fun j hj => peer_setPeer_of_ne hj⟩
    show ((s.setPeer i _).peer i).steps < _
    rw [peer_setPeer_self, Peer.steps, Peer.steps, hreq]
    simp only [Option.elim_some, Option.elim_none]
    omega
  · refine ⟨actor e, ?_, fun j hj => peer_setPeer_of_ne hj⟩
    rw [peer_setPeer_self]
    exact steps_peerStep_lt hp

variable [Fintype ι]

/-- How many steps all clients may still take. -/
def steps (s : Rendezvous ι) : ℕ := ∑ i, (s.peer i).steps

theorem steps_lt (h : s.step net e = some s') : s'.steps < s.steps := by
  obtain ⟨i, hlt, hothers⟩ := steps_step h
  refine Finset.sum_lt_sum (fun j _ => ?_) ⟨i, Finset.mem_univ i, hlt⟩
  by_cases hj : j = i
  · subst hj
    exact hlt.le
  · rw [hothers j hj]

/-- **A run of `n` clients has at most `5 * n` steps**, whatever is lost and whatever fails. -/
theorem length_le (hinit : (rendezvous net).init s) {es : List (Step ι)}
    (hrun : (rendezvous net).run s es = some s') : es.length ≤ 5 * Fintype.card ι := by
  have hlen := System.length_add_le (fun _ _ _ h => steps_lt h) hrun
  have hfive : ∀ i ∈ Finset.univ, (s.peer i).steps = 5 := by
    intro i _
    rw [hinit.1 i]
    rfl
  have hstart : s.steps = 5 * Fintype.card ι := by
    rw [steps, Finset.sum_const_nat hfive, Finset.card_univ, Nat.mul_comm]
  omega

/-- The second of two clients is answered before the first has received its reply. -/
theorem length_le_two_clients : ∃ s, (rendezvous twoClients).run twoClientsStart
      [.send false, .send true, .serve false, .serve true, .receive true, .connect true] = some s ∧
    6 ≤ 5 * Fintype.card Bool := by
  have hrun : ((rendezvous twoClients).run twoClientsStart [.send false, .send true, .serve false,
      .serve true, .receive true, .connect true]).isSome = true := by
    decide +kernel
  obtain ⟨s, hs⟩ := Option.isSome_iff_exists.mp hrun
  exact ⟨s, hs, length_le ⟨fun _ => rfl, rfl, rfl⟩ hs⟩

end

/-! ### What becomes of a client -/

/-- Where a client is if its port is valid: what it has in flight, what the waiting room has done
with it, and what may be lost. -/
inductive Course (net : Clients ι) (served : List (ι × Branch)) (i : ι) : Peer → Prop
  | start (fresh : i ∉ served.map Prod.fst) : Course net served i ⟨.start, none, none⟩
  | asking {request : Option (List UInt8)} (fresh : i ∉ served.map Prod.fst)
      (request_eq : ∀ data ∈ request, data = (net.client i).getChatRequest.image) :
      Course net served i ⟨.requested, request, none⟩
  | registered {reply : Option (List UInt8)} (waits : (i, none) ∈ Pairing.pair (accepted served))
      (length_eq : ∀ r ∈ reply, r.length = 7) : Course net served i ⟨.requested, none, reply⟩
  | connected {reply : Option (List UInt8)} {a : ι}
      (paired : (i, some a) ∈ Pairing.pair (accepted served))
      (reply_eq : ∀ r ∈ reply, r = connectResponse (net.datagram a).ip (net.datagram a).port) :
      Course net served i ⟨.requested, none, reply⟩
  | waitToChat (waits : (i, none) ∈ Pairing.pair (accepted served)) :
      Course net served i ⟨.waitToChat, none, none⟩
  | bound (waits : (i, none) ∈ Pairing.pair (accepted served)) :
      Course net served i ⟨.bound (net.client i).configureMySocket, none, none⟩
  | listening (waits : (i, none) ∈ Pairing.pair (accepted served)) :
      Course net served i ⟨.listening (net.client i).configureMySocket, none, none⟩
  | returned (waits : (i, none) ∈ Pairing.pair (accepted served)) :
      Course net served i ⟨.returned, none, none⟩
  | initiateChat {a : ι} {response : ServerResponse}
      (paired : (i, some a) ∈ Pairing.pair (accepted served))
      (calls : ChatClient.initiateChat response = net.address a) :
      Course net served i ⟨.initiateChat response, none, none⟩
  | called {a : ι} {response : ServerResponse}
      (paired : (i, some a) ∈ Pairing.pair (accepted served))
      (calls : ChatClient.initiateChat response = net.address a) :
      Course net served i ⟨.called response, none, none⟩

/-- A registered client waits. -/
theorem receive_of_length_eq_seven {reply : List UInt8} (h : reply.length = 7) :
    net.receive i reply = .waitToChat := by
  obtain ⟨r, hr⟩ := ChatClient.run_of_length_eq_seven (net.buff i) h
  rw [Clients.receive, hr]

/-- A connected client calls the address it was sent. -/
theorem receive_connectResponse (net : Clients ι) (i a : ι) : ∃ response,
    net.receive i (connectResponse (net.datagram a).ip (net.datagram a).port)
      = .initiateChat response ∧ ChatClient.initiateChat response = net.address a := by
  obtain ⟨response, hrun, hip, hport⟩ := ChatClient.run_connectResponse (net.buff i)
    (net.datagram a).ip_lt (net.datagram a).port_lt
  refine ⟨response, by rw [Clients.receive, hrun], ?_⟩
  exact ChatClient.initiateChat_eq (net.client a) (net.s_addr a) hip hport

/-- Where a client is once it has received its reply. -/
theorem Course.receive {reply : List UInt8} (h : Course net served i p)
    (hphase : p.phase = .requested) (hreply : p.toClient = some reply) :
    Course net served i { p with phase := net.receive i reply, toClient := none } := by
  cases h with
  | registered waits length_eq =>
    rw [receive_of_length_eq_seven (length_eq reply hreply)]
    exact .waitToChat waits
  | @connected _ a paired reply_eq =>
    obtain ⟨response, hreceive, calls⟩ := receive_connectResponse net i a
    rw [reply_eq reply hreply, hreceive]
    exact .initiateChat paired calls
  | asking => exact absurd hreply (by simp)
  | _ => exact absurd hphase (by simp)

/-- A client moves along its course. -/
theorem Course.step (h : Course net served (actor e) p) (hstep : peerStep net p e = some p') :
    Course net served (actor e) p' := by
  cases e with
  | serve i => exact absurd hstep (by simp [peerStep])
  | send i =>
    obtain ⟨hphase, heq⟩ := Option.ite_none_right_eq_some.mp hstep
    obtain rfl := Option.some.inj heq
    cases h with
    | start fresh => exact .asking fresh (by simp [actor])
    | _ => exact absurd hphase (by simp)
  | loseRequest i =>
    obtain ⟨hsome, heq⟩ := Option.ite_none_right_eq_some.mp hstep
    obtain rfl := Option.some.inj heq
    cases h with
    | asking fresh request_eq => exact .asking fresh (by simp)
    | _ => exact absurd hsome (by simp)
  | loseReply i =>
    obtain ⟨hsome, heq⟩ := Option.ite_none_right_eq_some.mp hstep
    obtain rfl := Option.some.inj heq
    cases h with
    | registered waits => exact .registered waits (by simp)
    | connected paired => exact .connected paired (by simp)
    | _ => exact absurd hsome (by simp)
  | receive i =>
    rw [peerStep] at hstep
    split at hstep
    · rename_i reply hphase hreply
      obtain rfl := Option.some.inj hstep
      exact h.receive hphase hreply
    · exact absurd hstep (by simp)
  | bind i =>
    obtain ⟨hphase, heq⟩ := Option.ite_none_right_eq_some.mp hstep
    obtain rfl := Option.some.inj heq
    cases h with
    | waitToChat waits => exact .bound waits
    | _ => exact absurd hphase (by simp)
  | waitFails i =>
    cases h with
    | waitToChat waits | bound waits =>
      obtain rfl := Option.some.inj hstep
      exact .returned waits
    | _ => exact absurd hstep (by simp [peerStep])
  | listen i =>
    cases h with
    | bound waits =>
      obtain rfl := Option.some.inj hstep
      exact .listening waits
    | _ => exact absurd hstep (by simp [peerStep])
  | connect i =>
    cases h with
    | initiateChat paired calls =>
      obtain rfl := Option.some.inj hstep
      exact .called paired calls
    | _ => exact absurd hstep (by simp [peerStep])

/-- The service of another client moves nobody. -/
theorem Course.concat {b : Branch} (h : Course net served i p) (hij : i ≠ j) :
    Course net (served ++ [(j, b)]) i p := by
  have hfresh : i ∉ served.map Prod.fst → i ∉ (served ++ [(j, b)]).map Prod.fst := by
    intro hi
    rw [List.map_append, List.mem_append]
    rintro (hmem | hmem)
    · exact hi hmem
    · exact hij (List.mem_singleton.mp hmem)
  cases h with
  | start fresh => exact .start (hfresh fresh)
  | asking fresh request_eq => exact .asking (hfresh fresh) request_eq
  | registered waits length_eq => exact .registered (mem_pair_concat waits) length_eq
  | connected paired reply_eq => exact .connected (mem_pair_concat paired) reply_eq
  | waitToChat waits => exact .waitToChat (mem_pair_concat waits)
  | bound waits => exact .bound (mem_pair_concat waits)
  | listening waits => exact .listening (mem_pair_concat waits)
  | returned waits => exact .returned (mem_pair_concat waits)
  | initiateChat paired calls => exact .initiateChat (mem_pair_concat paired) calls
  | called paired calls => exact .called (mem_pair_concat paired) calls

/-- Only a client that has asked has a request in flight. -/
theorem Course.eq_asking {data : List UInt8} (h : Course net served i p)
    (hreq : p.toServer = some data) :
    data = (net.client i).getChatRequest.image ∧ p = ⟨.requested, some data, none⟩ := by
  cases h with
  | asking fresh request_eq =>
    obtain rfl := hreq
    exact ⟨request_eq data rfl, rfl⟩
  | _ => exact absurd hreq (by simp)

/-- The answer to a valid request puts the client where the waiting room says. -/
theorem course_of_answer (net : Clients ι) (served : List (ι × Branch)) (i : ι) :
    Course net (served ++ [(i, (ChatServer.answer (net.datagram i)
      ((Pairing.waiting none (accepted served)).map net.datagram)).branch)]) i
      ⟨.requested, none, some (ChatServer.answer (net.datagram i)
        ((Pairing.waiting none (accepted served)).map net.datagram)).response⟩ := by
  have hpair : ∀ b : Branch, b ≠ .invalid → (i, Pairing.waiting none (accepted served))
      ∈ Pairing.pair (accepted (served ++ [(i, b)])) := by
    intro b hb
    rw [accepted_concat, if_neg hb, Pairing.pair_concat]
    exact List.mem_append_right _ (List.mem_singleton_self _)
  cases hw : Pairing.waiting none (accepted served) with
  | none =>
    rw [hw] at hpair
    refine .registered (hpair .registered (by decide)) ?_
    rintro r ⟨⟩
    exact length_registeredResponse _
  | some a =>
    rw [hw] at hpair
    refine .connected (hpair .connect (by decide)) ?_
    rintro r ⟨⟩
    rfl

/-- Every valid request is answered as the waiting room says. -/
theorem handle_of_valid (hs : Inv net s) (hvalid : (net.datagram i).Valid) : ∃ server,
    s.server.handle ⟨(net.client i).getChatRequest.image, net.s_addr i⟩ = .ok (server,
      ChatServer.answer (net.datagram i)
        ((Pairing.waiting none (accepted s.served)).map net.datagram)) := by
  obtain ⟨server, hstep, -⟩ := ChatServer.handle_refines hs.holds hvalid
  exact ⟨server, hstep⟩

/-- A client is not lost by a step of its own. -/
theorem not_lost_of_peerStep (he : NoLoss s e)
    (hstep : peerStep net p e = some p') : ¬ Peer.Lost p' := by
  cases e with
  | loseRequest i => exact he.elim
  | loseReply i => exact he.elim
  | waitFails i => exact he.elim
  | serve i => exact absurd hstep (by simp [peerStep])
  | send i | bind i =>
    obtain ⟨-, heq⟩ := Option.ite_none_right_eq_some.mp hstep
    obtain rfl := Option.some.inj heq
    simp [Peer.Lost]
  | receive i =>
    rw [peerStep] at hstep
    split at hstep
    · obtain rfl := Option.some.inj hstep
      rename_i reply hphase hreply
      rw [Peer.Lost, Clients.receive]
      cases ChatClient.run (net.buff i) reply <;> simp
    · exact absurd hstep (by simp)
  | listen i | connect i =>
    rw [peerStep] at hstep
    split at hstep
    · obtain rfl := Option.some.inj hstep
      simp [Peer.Lost]
    · exact absurd hstep (by simp)

section

variable [DecidableEq ι]

theorem course_serve (hvalid : ∀ i, (net.datagram i).Valid) (hs : Inv net s)
    (hcourse : ∀ i, Course net s.served i (s.peer i)) (h : s.serve net i = some s') (j : ι) :
    Course net s'.served j (s'.peer j) := by
  obtain ⟨data, server, reply, hreq, hhandle, rfl⟩ := serve_cases h
  obtain ⟨rfl, hpeer⟩ := (hcourse i).eq_asking hreq
  obtain ⟨server', hhandle'⟩ := handle_of_valid hs (hvalid i)
  obtain ⟨rfl, rfl⟩ := Prod.mk.inj (Except.ok.inj (hhandle.symm.trans hhandle'))
  show Course net (s.served ++ [_]) j ((s.setPeer i _).peer j)
  by_cases hj : j = i
  · subst hj
    rw [peer_setPeer_self, hpeer]
    exact course_of_answer net s.served j
  · rw [peer_setPeer_of_ne hj]
    exact (hcourse j).concat hj

/-- **Every client is on its course**, whatever is lost and whatever fails. -/
theorem course_of_reachable (hvalid : ∀ i, (net.datagram i).Valid)
    (h : (rendezvous net).Reachable s) (i : ι) : Course net s.served i (s.peer i) := by
  have hall : Inv net s ∧ ∀ i, Course net s.served i (s.peer i) := by
    refine h.invariant (I := fun s => Inv net s ∧ ∀ i, Course net s.served i (s.peer i))
      (fun s hs => ⟨inv_of_reachable (.init hs), fun i => ?_⟩) fun s e s' hs _ hstep =>
        ⟨hs.1.step hstep, fun i => ?_⟩
    · rw [hs.1 i, hs.2.2]
      exact .start (by simp)
    · rcases step_cases hstep with ⟨j, rfl, hserve⟩ | ⟨p, hp, rfl⟩
      · exact course_serve hvalid hs.1 hs.2 hserve i
      · show Course net s.served i ((s.setPeer (actor e) p).peer i)
        by_cases hi : i = actor e
        · subst hi
          rw [peer_setPeer_self]
          exact (hs.2 (actor e)).step hp
        · rw [peer_setPeer_of_ne hi]
          exact hs.2 i
  exact hall.2 i

/-- If nothing is lost, nobody is. -/
theorem not_lost_of_noLoss (h : (rendezvous net).ReachableUnder NoLoss s) (i : ι) :
    ¬ (s.peer i).Lost := by
  have hall : ∀ i, ¬ (s.peer i).Lost := by
    refine h.invariant (I := fun s => ∀ i, ¬ (s.peer i).Lost) (fun s hs i => ?_)
      fun s e s' hs he hstep i => ?_
    · rw [hs.1 i]
      simp [Peer.Lost]
    · rcases step_cases hstep with ⟨j, rfl, hserve⟩ | ⟨p, hp, rfl⟩
      · obtain ⟨data, server, reply, -, -, rfl⟩ := serve_cases hserve
        by_cases hi : i = j
        · subst hi
          show ¬ ((s.setPeer i _).peer i).Lost
          rw [peer_setPeer_self]
          exact fun hlost => hs i (hlost.imp (fun hp => by simp at hp) id)
        · show ¬ ((s.setPeer j _).peer i).Lost
          rw [peer_setPeer_of_ne hi]
          exact hs i
      · by_cases hi : i = actor e
        · subst hi
          rw [peer_setPeer_self]
          exact not_lost_of_peerStep he hp
        · rw [peer_setPeer_of_ne hi]
          exact hs i
  exact hall i

end

/-! ### Where they end -/

/-- A client has called the address of another one. -/
def Called (net : Clients ι) (s : Rendezvous ι) (b a : ι) : Prop :=
  ∃ response, (s.peer b).phase = .called response ∧
    ChatClient.initiateChat response = net.address a

/-- Every client listens, or has called a client of its own that listens; every other one has. -/
def Settled [Fintype ι] (net : Clients ι) (s : Rendezvous ι) : Prop :=
  ∃ partner : ι → Option ι,
    (∀ b, partner b = none → s.Listening net b) ∧
    (∀ b a, partner b = some a → s.Called net b a ∧ s.Listening net a ∧ a ≠ b) ∧
    (∀ b b' a, partner b = some a → partner b' = some a → b = b') ∧
    (Finset.univ.filter fun b => (partner b).isSome).card = Fintype.card ι / 2

/-- Where a client is when only calls are left to do. -/
inductive Decided (net : Clients ι) (s : Rendezvous ι) (i : ι) : Prop
  | waits (waits : (i, none) ∈ Pairing.pair (accepted s.served)) (listening : s.Listening net i)
  | paired {a : ι} {response : ServerResponse}
      (paired : (i, some a) ∈ Pairing.pair (accepted s.served))
      (calls : ChatClient.initiateChat response = net.address a)
      (phase : (s.peer i).phase = .initiateChat response ∨ (s.peer i).phase = .called response)

/-- Whoever is decided has come. -/
theorem Decided.mem_accepted (h : Decided net s i) : i ∈ accepted s.served := by
  rw [← Pairing.map_fst_pair (accepted s.served)]
  cases h with
  | waits waits => exact List.mem_map_of_mem (f := Prod.fst) waits
  | paired paired => exact List.mem_map_of_mem (f := Prod.fst) paired

/-- Whoever is given away listens. -/
theorem Decided.listening_of_paired {a b : ι} (h : Decided net s a)
    (hnodup : (accepted s.served).Nodup) (hpair : (b, some a) ∈ Pairing.pair (accepted s.served)) :
    s.Listening net a := by
  cases h with
  | waits _ listening => exact listening
  | paired paired => exact absurd paired (Pairing.partner_not_paired hnodup hpair)

section

variable [DecidableEq ι]

/-- A step of a client that is enabled. -/
theorem step_ne_none (h : peerStep net (s.peer (actor e)) e = some p) : s.step net e ≠ none := by
  cases e with
  | serve i => exact absurd h (by simp [peerStep])
  | _ =>
    show (peerStep net (s.peer _) _).map _ ≠ none
    rw [h]
    exact Option.some_ne_none _

/-- **When only calls are left, a client is lost, or it listens or is about to call or has called**,
as the waiting room has decided. -/
theorem Course.of_quiet (hvalid : ∀ i, (net.datagram i).Valid) (hs : Inv net s)
    (hquiet : ∀ e, NoLoss s e → (∀ j, e ≠ .connect j) → (rendezvous net).step s e = none)
    (h : Course net s.served i (s.peer i)) : (s.peer i).Lost ∨ Decided net s i := by
  have hstuck : ∀ e, actor e = i → NoLoss s e → (∀ j, e ≠ .connect j) →
      peerStep net (s.peer i) e = none := by
    rintro e rfl he hcall
    by_contra hne
    obtain ⟨p, hp⟩ := Option.ne_none_iff_exists'.mp hne
    exact step_ne_none hp (hquiet e he hcall)
  generalize hp : s.peer i = p at h hstuck ⊢
  cases h with
  | start fresh => exact absurd (hstuck (.send i) rfl trivial (by simp)) (by simp [peerStep])
  | @asking request fresh request_eq =>
    cases request with
    | none => exact Or.inl (Or.inl rfl)
    | some data =>
      obtain ⟨server, hhandle⟩ := handle_of_valid hs (hvalid i)
      have hserve : s.serve net i = none := hquiet (.serve i) trivial (by simp)
      rw [Rendezvous.serve, hp, request_eq data rfl] at hserve
      dsimp only at hserve
      rw [hhandle] at hserve
      exact absurd hserve (by simp)
  | @registered reply waits =>
    cases reply with
    | none => exact Or.inl (Or.inl rfl)
    | some r => exact absurd (hstuck (.receive i) rfl trivial (by simp)) (by simp [peerStep])
  | @connected reply a paired =>
    cases reply with
    | none => exact Or.inl (Or.inl rfl)
    | some r => exact absurd (hstuck (.receive i) rfl trivial (by simp)) (by simp [peerStep])
  | waitToChat waits =>
    exact absurd (hstuck (.bind i) rfl trivial (by simp)) (by simp [peerStep])
  | bound waits => exact absurd (hstuck (.listen i) rfl trivial (by simp)) (by simp [peerStep])
  | listening waits => exact Or.inr (.waits waits (by rw [Listening, hp]))
  | returned waits => exact Or.inl (Or.inr rfl)
  | initiateChat paired calls => exact Or.inr (.paired paired calls (Or.inl (by rw [hp])))
  | called paired calls => exact Or.inr (.paired paired calls (Or.inr (by rw [hp])))

/-- A client that is about to call can. -/
theorem step_connect_ne_none {response : ServerResponse}
    (h : (s.peer i).phase = .initiateChat response) : s.step net (.connect i) ≠ none := by
  refine step_ne_none (p := { s.peer i with phase := .called response }) ?_
  rw [actor, peerStep, h]

variable [Fintype ι]

/-- The clients that are given a partner, if all of them have come: every other one. -/
theorem card_partner {l : List ι} (hl : l.Nodup) (hall : ∀ i, i ∈ l) {partner : ι → Option ι}
    (hpartner : ∀ b a, partner b = some a ↔ (b, some a) ∈ Pairing.pair l) :
    (Finset.univ.filter fun b => (partner b).isSome).card = Fintype.card ι / 2 := by
  have hcard : l.length = Fintype.card ι := by
    rw [← List.toFinset_card_of_nodup hl, Finset.eq_univ_of_forall fun i =>
      List.mem_toFinset.mpr (hall i), Finset.card_univ]
  have hnodup : (((Pairing.pair l).filter fun p => p.2.isSome).map Prod.fst).Nodup := by
    refine List.Nodup.sublist (List.filter_sublist.map Prod.fst) ?_
    rwa [Pairing.map_fst_pair]
  have hset : (Finset.univ.filter fun b => (partner b).isSome)
      = (((Pairing.pair l).filter fun p => p.2.isSome).map Prod.fst).toFinset := by
    ext b
    rw [Finset.mem_filter_univ, List.mem_toFinset, List.mem_map]
    constructor
    · intro hb
      obtain ⟨a, ha⟩ := Option.isSome_iff_exists.mp hb
      exact ⟨(b, some a), List.mem_filter.mpr ⟨(hpartner b a).mp ha, rfl⟩, rfl⟩
    · rintro ⟨⟨b', w⟩, hmem, rfl⟩
      obtain ⟨hpair, hsome⟩ := List.mem_filter.mp hmem
      obtain ⟨a, rfl⟩ := Option.isSome_iff_exists.mp hsome
      rw [(hpartner b' a).mpr hpair]
      rfl
  rw [hset, List.toFinset_card_of_nodup hnodup, List.length_map,
    Pairing.length_filter_isSome_pair, hcard]

/-- **Where runs without losses end.** If all clients ask for ports the server accepts, such a run
can always be continued until nothing can happen, and then everybody listens or has called: half of
the clients, each a client of its own that listens. -/
theorem settled_of_quiet (hvalid : ∀ i, (net.datagram i).Valid)
    (h : (rendezvous net).ReachableUnder NoLoss s) :
    (∃ s', (rendezvous net).Leads NoLoss s s' ∧ (rendezvous net).Quiet NoLoss s') ∧
      ((rendezvous net).Quiet NoLoss s → s.Settled net) := by
  refine ⟨System.exists_leads_quiet (fun _ _ _ _ h => steps_lt h) s, fun hquiet => ?_⟩
  have hs := inv_of_reachable h.reachable
  have hnodup := nodup_accepted hs.nodup
  have hend := fun i => ((course_of_reachable hvalid h.reachable i).of_quiet hvalid hs
    fun e he _ => hquiet e he).resolve_left (not_lost_of_noLoss h i)
  obtain ⟨partner, hpartner⟩ := Pairing.exists_partner hnodup
  refine ⟨partner, fun b hb => ?_, fun b a hb => ?_, fun b b' a hb hb' => ?_,
    card_partner hnodup (fun i => (hend i).mem_accepted) hpartner⟩
  · cases hend b with
    | waits _ listening => exact listening
    | @paired a response paired =>
      rw [(hpartner b a).mpr paired] at hb
      exact absurd hb (by simp)
  · have hpair := (hpartner b a).mp hb
    refine ⟨?_, (hend a).listening_of_paired hnodup hpair, Pairing.partner_ne hnodup hpair⟩
    cases hend b with
    | waits waits => exact absurd (Pairing.pair_unique hnodup waits hpair) (by simp)
    | @paired c response paired calls phase =>
      obtain rfl := Pairing.partner_unique hnodup hpair paired
      rcases phase with hphase | hphase
      · exact absurd (hquiet (.connect b) trivial) (step_connect_ne_none hphase)
      · exact ⟨response, hphase, calls⟩
  · exact Pairing.partner_injective hnodup ((hpartner b a).mp hb) ((hpartner b' a).mp hb')

/-- Two clients come to rest. -/
theorem settled_two_clients : ∃ s, (rendezvous twoClients).ReachableUnder NoLoss s ∧
    (rendezvous twoClients).Quiet NoLoss s ∧ s.Settled twoClients := by
  have hvalid : ∀ i, (twoClients.datagram i).Valid := by decide +kernel
  have hstart : (rendezvous twoClients).ReachableUnder NoLoss twoClientsStart :=
    twoClientsStart_reachable
  obtain ⟨⟨s, hleads, hquiet⟩, -⟩ := settled_of_quiet hvalid hstart
  have hs := hstart.leads hleads
  exact ⟨s, hs, hquiet, (settled_of_quiet hvalid hs).2 hquiet⟩

end

end Rendezvous

end Lab3

end Comp4320
