import Comp4320.Lab3.Settling
import Comp4320.Lab3.Transcript

/-!
# The chat room

The clients, the server, the network, and the conversations. A client in `initiateChat` connects to
the address the server has sent it, and the connection is made if a client listens there; it then
waits in the backlog of that client until `accept` returns it. From there on the two clients are the
two ends of a session.

TCP makes a connection before `accept` returns it, so the client that has called may already send.
The client that listens takes no part in the session before it has accepted, and it accepts once:
both loops of `waitToChat` are left by returning from it only.

## What is left out

A listening process that is killed; and connections from anybody but the clients.

## Main definitions

* `ChatRoom`, `chatRoom` — the state of everything, and the runs
* `ChatRoom.Sessions` — what the sessions of a run do, as an assumption on its steps

## Main results

* `ChatRoom.reachable_rendezvous` — the clients and the server do what they do without sessions
* `ChatRoom.reachable_chat` — a session does what it does on its own
* `ChatRoom.connections_of_reachable` — which connections there are, and whose they are
-/

namespace Comp4320

namespace Lab3

/-! ### The system -/

/-- The side that takes a step. -/
def Move.side : Move → Side
  | .send p _ | .sendFails p | .recv p _ _ | .close p => p

/-- A connection that a client has made. -/
structure Call (ι : Type) where
  /-- The client that listens at the other end. -/
  waiter : ι
  chat : Chat

/-- The state of everything. -/
structure ChatRoom (ι : Type) where
  rendezvous : Rendezvous ι
  /-- The connection on a client's `partnerSocket`. -/
  partnerSocket : ι → Option (Call ι)
  /-- The clients whose connections wait for `accept`, in order. -/
  backlog : ι → List ι
  /-- The client whose connection `accept` has returned as `partnerSock`. -/
  partnerSock : ι → Option ι

/-- What happens next. -/
inductive RoomStep (ι : Type)
  /-- A step of a client, of the server or of the network, other than `connect`. -/
  | rendezvous (e : Step ι)
  /-- `connect` of the client `i` makes a connection with `j`. -/
  | connected (i j : ι) (buffers : Side → Memory × Memory)
  /-- `connect` fails, and `initiateChat` returns. -/
  | refused (i : ι)
  | accept (j : ι)
  /-- A step of the session of the client `i`. -/
  | chat (i : ι) (m : Move)

namespace ChatRoom

variable {ι : Type} (net : Clients ι)

/-- The address at which a client listens. -/
def listensAt (s : ChatRoom ι) (j : ι) : Option SockAddrIn :=
  match (s.rendezvous.peer j).phase with
  | .listening myAddr => some { myAddr with s_addr := net.s_addr j }
  | _ => none

variable [DecidableEq ι]

/-- One step of everything. -/
def step (s : ChatRoom ι) : RoomStep ι → Option (ChatRoom ι)
  | .rendezvous (.connect _) => none
  | .rendezvous e => (s.rendezvous.step net e).map fun r => { s with rendezvous := r }
  | .connected i j buffers =>
    match s.listensAt net j with
    | none => none
    | some addr =>
      if s.rendezvous.callee i = some addr then
        (s.rendezvous.step net (.connect i)).map fun r => { s with
          rendezvous := r
          partnerSocket := Function.update s.partnerSocket i (some ⟨j, .fresh buffers⟩)
          backlog := Function.update s.backlog j (s.backlog j ++ [i]) }
      else none
  | .refused i => (s.rendezvous.step net (.connect i)).map fun r => { s with rendezvous := r }
  | .accept j =>
    match s.listensAt net j, s.partnerSock j, s.backlog j with
    | some _, none, i :: rest => some { s with
        backlog := Function.update s.backlog j rest
        partnerSock := Function.update s.partnerSock j (some i) }
    | _, _, _ => none
  | .chat i m =>
    match s.partnerSocket i with
    | none => none
    | some c =>
      if m.side = .initiator ∨ s.partnerSock c.waiter = some i then
        (c.chat.step m).map fun chat => { s with
          partnerSocket := Function.update s.partnerSocket i (some { c with chat := chat }) }
      else none

/-- The steps of the sessions meet `C`. -/
def Sessions (C : Chat → Move → Prop) (s : ChatRoom ι) : RoomStep ι → Prop
  | .chat i m => ∀ c ∈ s.partnerSocket i, C c.chat m
  | _ => True

end ChatRoom

/-- The runs: nobody has sent anything, and nobody is connected. -/
def chatRoom {ι : Type} [DecidableEq ι] (net : Clients ι) : System (ChatRoom ι) (RoomStep ι) where
  init := fun s => (rendezvous net).init s.rendezvous ∧ (∀ i, s.partnerSocket i = none) ∧
    (∀ j, s.backlog j = []) ∧ ∀ j, s.partnerSock j = none
  step := ChatRoom.step net

/-! ### Clients that have nothing left to do -/

namespace Rendezvous

variable {ι : Type} {net : Clients ι} {s s' : Rendezvous ι} {p p' : Peer} {e : Step ι} {i j : ι}

/-- A client with no steps left stays where it is. -/
theorem phase_peerStep (hstep : peerStep net p e = some p') (h : p.phase.steps = 0) :
    p'.phase = p.phase := by
  cases e with
  | send i | bind i =>
    obtain ⟨hphase, -⟩ := Option.ite_none_right_eq_some.mp hstep
    rw [hphase] at h
    exact absurd h (by decide)
  | loseRequest i | loseReply i =>
    obtain ⟨-, heq⟩ := Option.ite_none_right_eq_some.mp hstep
    obtain rfl := Option.some.inj heq
    rfl
  | receive i | waitFails i | listen i | connect i | serve i =>
    cases hphase : p.phase with
    | listening _ | called _ | returned => exact absurd hstep (by simp [peerStep, hphase])
    | _ =>
      rw [hphase] at h
      exact absurd h (by simp [Phase.steps])

/-- A client binds its own port, and listens where it has bound. -/
theorem peerStep_bound (hstep : peerStep net p e = some p')
    (h : ∀ myAddr, p.phase = .bound myAddr ∨ p.phase = .listening myAddr →
      myAddr = (net.client (actor e)).configureMySocket) (myAddr : SockAddrIn)
    (h' : p'.phase = .bound myAddr ∨ p'.phase = .listening myAddr) :
    myAddr = (net.client (actor e)).configureMySocket := by
  cases e with
  | serve i => exact absurd hstep (by simp [peerStep])
  | send i =>
    obtain ⟨-, heq⟩ := Option.ite_none_right_eq_some.mp hstep
    obtain rfl := Option.some.inj heq
    exact absurd h' (by simp)
  | loseRequest i | loseReply i =>
    obtain ⟨-, heq⟩ := Option.ite_none_right_eq_some.mp hstep
    obtain rfl := Option.some.inj heq
    exact h myAddr h'
  | receive i =>
    rw [peerStep] at hstep
    split at hstep
    · obtain rfl := Option.some.inj hstep
      rename_i reply hphase hreply
      dsimp only [Clients.receive] at h'
      cases hrun : ChatClient.run (net.buff i) reply <;> rw [hrun] at h' <;> simp at h'
    · exact absurd hstep (by simp)
  | bind i =>
    obtain ⟨-, heq⟩ := Option.ite_none_right_eq_some.mp hstep
    obtain rfl := Option.some.inj heq
    rcases h' with h' | h'
    · exact (Phase.bound.inj h').symm
    · exact absurd h' (by simp)
  | waitFails i =>
    rw [peerStep] at hstep
    split at hstep
    · obtain rfl := Option.some.inj hstep
      exact absurd h' (by simp)
    · obtain rfl := Option.some.inj hstep
      exact absurd h' (by simp)
    · exact absurd hstep (by simp)
  | connect i =>
    rw [peerStep] at hstep
    split at hstep
    · obtain rfl := Option.some.inj hstep
      exact absurd h' (by simp)
    · exact absurd hstep (by simp)
  | listen i =>
    rw [peerStep] at hstep
    split at hstep
    · rename_i addr hphase
      obtain rfl := Option.some.inj hstep
      rcases h' with h' | h'
      · exact absurd h' (by simp)
      · obtain rfl := Phase.listening.inj h'
        exact h addr (Or.inl hphase)
    · exact absurd hstep (by simp)

variable [DecidableEq ι]

theorem phase_step (hstep : s.step net e = some s') (h : (s.peer i).phase.steps = 0) :
    (s'.peer i).phase = (s.peer i).phase := by
  rcases step_cases hstep with ⟨j, rfl, hserve⟩ | ⟨p, hp, rfl⟩
  · exact (served_of_serve hserve).2 i
  · by_cases hi : i = actor e
    · subst hi
      rw [peer_setPeer_self]
      exact phase_peerStep hp h
    · rw [peer_setPeer_of_ne hi]

/-- A client that listens goes on listening. -/
theorem Listening.step (h : s.Listening net i) (hstep : s.step net e = some s') :
    s'.Listening net i :=
  (phase_step hstep (by rw [h]; rfl)).trans h

/-- A client that has called has called. -/
theorem Called.step (h : s.Called net i j) (hstep : s.step net e = some s') :
    s'.Called net i j := by
  obtain ⟨response, hphase, hcalls⟩ := h
  exact ⟨response, (phase_step hstep (by rw [hphase]; rfl)).trans hphase, hcalls⟩

end Rendezvous

/-- The address a client binds is the one it can be reached at. -/
theorem Rendezvous.listening_of_phase {ι : Type} [DecidableEq ι] {net : Clients ι}
    {s : Rendezvous ι} (h : (rendezvous net).Reachable s) {i : ι} {myAddr : SockAddrIn}
    (hphase : (s.peer i).phase = .listening myAddr) : s.Listening net i := by
  have hown : ∀ i myAddr, (s.peer i).phase = .bound myAddr ∨ (s.peer i).phase = .listening myAddr →
      myAddr = (net.client i).configureMySocket := by
    refine h.invariant (I := fun s => ∀ i myAddr, (s.peer i).phase = .bound myAddr ∨
      (s.peer i).phase = .listening myAddr → myAddr = (net.client i).configureMySocket)
      (fun s hs i myAddr => ?_) fun s e s' hs _ hstep i myAddr => ?_
    · rw [hs.1 i]
      simp
    · rcases step_cases hstep with ⟨j, rfl, hserve⟩ | ⟨p, hp, rfl⟩
      · rw [(served_of_serve hserve).2 i]
        exact hs i myAddr
      · by_cases hi : i = actor e
        · subst hi
          rw [peer_setPeer_self]
          exact peerStep_bound hp (hs (actor e)) myAddr
        · rw [peer_setPeer_of_ne hi]
          exact hs i myAddr
  rw [Listening, hphase, hown i myAddr (Or.inr hphase)]

namespace ChatRoom

variable {ι : Type} [DecidableEq ι] {net : Clients ι} {s s' : ChatRoom ι} {i j : ι}

/-! ### Steps -/

/-- Which values a table has after one entry is made in it. -/
theorem of_update_eq_some {α : Type} {f : ι → Option α} {a b : α}
    (h : Function.update f i (some a) j = some b) :
    (j = i ∧ b = a) ∨ (j ≠ i ∧ f j = some b) := by
  by_cases hj : j = i
  · subst hj
    rw [Function.update_self] at h
    exact Or.inl ⟨rfl, (Option.some.inj h).symm⟩
  · rw [Function.update_of_ne hj] at h
    exact Or.inr ⟨hj, h⟩

/-- What a step does. -/
inductive Took (net : Clients ι) (s : ChatRoom ι) : RoomStep ι → ChatRoom ι → Prop
  | rendezvous {e : Step ι} {r : Rendezvous ι} (other : ∀ i, e ≠ .connect i)
      (step : s.rendezvous.step net e = some r) :
      Took net s (.rendezvous e) { s with rendezvous := r }
  | connected {i j : ι} {buffers : Side → Memory × Memory} {r : Rendezvous ι} {addr : SockAddrIn}
      (listens : s.listensAt net j = some addr) (calls : s.rendezvous.callee i = some addr)
      (step : s.rendezvous.step net (.connect i) = some r) :
      Took net s (.connected i j buffers) { s with
        rendezvous := r
        partnerSocket := Function.update s.partnerSocket i (some ⟨j, .fresh buffers⟩)
        backlog := Function.update s.backlog j (s.backlog j ++ [i]) }
  | refused {i : ι} {r : Rendezvous ι} (step : s.rendezvous.step net (.connect i) = some r) :
      Took net s (.refused i) { s with rendezvous := r }
  | accept {i j : ι} {rest : List ι} {addr : SockAddrIn} (listens : s.listensAt net j = some addr)
      (first : s.partnerSock j = none) (waits : s.backlog j = i :: rest) :
      Took net s (.accept j) { s with
        backlog := Function.update s.backlog j rest
        partnerSock := Function.update s.partnerSock j (some i) }
  | chat {i : ι} {m : Move} {c : Call ι} {chat : Chat} (call : s.partnerSocket i = some c)
      (side : m.side = .initiator ∨ s.partnerSock c.waiter = some i)
      (step : c.chat.step m = some chat) :
      Took net s (.chat i m) { s with
        partnerSocket := Function.update s.partnerSocket i (some { c with chat := chat }) }

theorem took_of_step {e : RoomStep ι} (h : s.step net e = some s') : Took net s e s' := by
  cases e with
  | rendezvous e =>
    cases e with
    | connect i => exact absurd h (by simp [step])
    | _ =>
      obtain ⟨r, hr, rfl⟩ := Option.map_eq_some_iff.mp h
      exact .rendezvous (by simp) hr
  | connected i j buffers =>
    rw [step] at h
    split at h
    · exact absurd h (by simp)
    · rename_i addr haddr
      obtain ⟨hcalls, h⟩ := Option.ite_none_right_eq_some.mp h
      obtain ⟨r, hr, rfl⟩ := Option.map_eq_some_iff.mp h
      exact .connected haddr hcalls hr
  | refused i =>
    obtain ⟨r, hr, rfl⟩ := Option.map_eq_some_iff.mp h
    exact .refused hr
  | accept j =>
    rw [step] at h
    split at h
    · rename_i addr i rest haddr hfirst hwaits
      obtain rfl := Option.some.inj h
      exact .accept haddr hfirst hwaits
    · exact absurd h (by simp)
  | chat i m =>
    rw [step] at h
    split at h
    · exact absurd h (by simp)
    · rename_i c hcall
      obtain ⟨hside, h⟩ := Option.ite_none_right_eq_some.mp h
      obtain ⟨chat, hchat, rfl⟩ := Option.map_eq_some_iff.mp h
      exact .chat hcall hside hchat

/-- The address at which a client listens is its own. -/
theorem listening_of_listensAt (h : (Lab3.rendezvous net).Reachable s.rendezvous)
    {addr : SockAddrIn} (haddr : s.listensAt net j = some addr) :
    s.rendezvous.Listening net j ∧ addr = net.address j := by
  rw [listensAt] at haddr
  split at haddr
  · rename_i myAddr hphase
    have hlisten := Rendezvous.listening_of_phase h hphase
    obtain rfl := Phase.listening.inj (hphase.symm.trans hlisten)
    exact ⟨hlisten, (Option.some.inj haddr).symm⟩
  · exact absurd haddr (by simp)

/-! ### The parts -/

/-- **The clients and the server do what they do without sessions.** -/
theorem reachable_rendezvous {C : ChatRoom ι → RoomStep ι → Prop}
    {D : Rendezvous ι → Step ι → Prop}
    (hD : ∀ s e, C s (.rendezvous e) → D s.rendezvous e)
    (hcall : ∀ r i, D r (.connect i)) (h : (chatRoom net).ReachableUnder C s) :
    (Lab3.rendezvous net).ReachableUnder D s.rendezvous := by
  have hinit : ∀ s, (chatRoom net).init s → (Lab3.rendezvous net).init s.rendezvous :=
    fun s hs => hs.1
  refine h.map ChatRoom.rendezvous hinit fun s e s' _ hC hstep => ?_
  cases took_of_step hstep with
  | rendezvous other step => exact Or.inr ⟨_, hD s _ hC, step⟩
  | connected listens calls step => exact Or.inr ⟨_, hcall _ _, step⟩
  | refused step => exact Or.inr ⟨_, hcall _ _, step⟩
  | accept listens first waits => exact Or.inl rfl
  | chat call side step => exact Or.inl rfl

/-- **A session does what it does on its own.** -/
theorem reachable_chat {C : Chat → Move → Prop} (h : (chatRoom net).ReachableUnder (Sessions C) s)
    {c : Call ι} (hcall : s.partnerSocket i = some c) : chat.ReachableUnder C c.chat := by
  have hall : ∀ i c, s.partnerSocket i = some c → chat.ReachableUnder C c.chat := by
    refine h.invariant (I := fun s => ∀ i c, s.partnerSocket i = some c →
      chat.ReachableUnder C c.chat) (fun s hs i c hc => ?_) fun s e s' hs hC hstep => ?_
    · rw [hs.2.1 i] at hc
      exact absurd hc (by simp)
    · cases took_of_step hstep with
      | rendezvous other step => exact hs
      | refused step => exact hs
      | accept listens first waits => exact hs
      | @connected k j buffers r addr listens calls step =>
        intro i c hc
        rcases of_update_eq_some hc with ⟨rfl, rfl⟩ | ⟨-, hc⟩
        · exact .init (Chat.init_fresh buffers)
        · exact hs i c hc
      | @chat k m c chat call side step =>
        intro i c' hc
        rcases of_update_eq_some hc with ⟨rfl, rfl⟩ | ⟨-, hc⟩
        · exact (hs i c call).step (hC c call) step
        · exact hs i c' hc
  exact hall i c hcall

end ChatRoom

end Lab3

end Comp4320
