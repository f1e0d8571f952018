import Comp4320.Lab3.ChatRoom

/-!
# Who talks to whom

The server gives every other client the address of the one before. If no two clients can be reached
at one address, that is enough for the conversations to be what the server has arranged: each joins
two clients it has paired, nobody takes part in two, and what a client shows is what its partner has
said. No socket checks any of this. `accept` takes whoever comes, and comes to the right one because
nobody else has been given the address.

The same argument has another side. The address of a client is given away once, so if the one client
that has it is refused (which happens, since nothing keeps it from calling before the other
listens), nobody will ever call: the other client waits for good.

If nothing is lost and nobody is refused, half of the clients end up in a conversation with another
client each, and the conversations have been accepted.

## Main definitions

* `ChatRoom.Connections` — which sockets belong together
* `ChatRoom.Joined` — whom a connection joins
* `ChatRoom.Conversation` — what holds of a conversation
* `ChatRoom.Smooth`, `Arranging` — nothing is lost; the steps before the conversations

## Main results

* `ChatRoom.conversation_of_reachable` — every conversation is one the server has arranged
* `ChatRoom.stranded_of_refused` — the partner of a client that is refused waits for good
* `ChatRoom.settled_of_quiet` — where runs without losses end
-/

namespace Comp4320

namespace Lab3

/-- The client that connects. -/
theorem Rendezvous.phase_of_connect {ι : Type} [DecidableEq ι] {net : Clients ι}
    {s s' : Rendezvous ι} {i : ι} (h : s.step net (.connect i) = some s') :
    ∃ response, (s.peer i).phase = .initiateChat response ∧
      (s'.peer i).phase = .called response ∧ ∀ j, j ≠ i → s'.peer j = s.peer j := by
  obtain ⟨p, hp, rfl⟩ := Option.map_eq_some_iff.mp h
  rw [peerStep] at hp
  split at hp
  · rename_i response hphase
    obtain rfl := Option.some.inj hp
    refine ⟨response, hphase, ?_, fun j hj => peer_setPeer_of_ne hj⟩
    rw [actor, peer_setPeer_self]
  · exact absurd hp (by simp)

/-- Only `connect` connects. -/
theorem Rendezvous.called_of_peerStep {ι : Type} {net : Clients ι} {p p' : Peer} {e : Step ι}
    (hother : ∀ i, e ≠ .connect i) (h : peerStep net p e = some p') {response : ServerResponse}
    (hphase : p'.phase = .called response) : p.phase = .called response := by
  cases e with
  | connect i => exact absurd rfl (hother i)
  | serve i => exact absurd h (by simp [peerStep])
  | send i | bind i =>
    obtain ⟨-, heq⟩ := Option.ite_none_right_eq_some.mp h
    obtain rfl := Option.some.inj heq
    exact absurd hphase (by simp)
  | loseRequest i | loseReply i =>
    obtain ⟨-, heq⟩ := Option.ite_none_right_eq_some.mp h
    obtain rfl := Option.some.inj heq
    exact hphase
  | receive i =>
    rw [peerStep] at h
    split at h
    · rename_i reply hrequested hreply
      obtain rfl := Option.some.inj h
      dsimp only [Clients.receive] at hphase
      cases hrun : ChatClient.run (net.buff i) reply <;> rw [hrun] at hphase <;> simp at hphase
    · exact absurd h (by simp)
  | waitFails i =>
    rw [peerStep] at h
    split at h
    · obtain rfl := Option.some.inj h
      exact absurd hphase (by simp)
    · obtain rfl := Option.some.inj h
      exact absurd hphase (by simp)
    · exact absurd h (by simp)
  | listen i =>
    rw [peerStep] at h
    split at h
    · obtain rfl := Option.some.inj h
      exact absurd hphase (by simp)
    · exact absurd h (by simp)

theorem Rendezvous.called_of_step {ι : Type} [DecidableEq ι] {net : Clients ι}
    {s s' : Rendezvous ι} {e : Step ι} (hother : ∀ i, e ≠ .connect i)
    (h : s.step net e = some s') {i : ι} {response : ServerResponse}
    (hphase : (s'.peer i).phase = .called response) : (s.peer i).phase = .called response := by
  rcases step_cases h with ⟨j, rfl, hserve⟩ | ⟨p, hp, rfl⟩
  · rw [← (served_of_serve hserve).2 i]
    exact hphase
  · by_cases hi : i = actor e
    · subst hi
      rw [peer_setPeer_self] at hphase
      exact called_of_peerStep hother hp hphase
    · rwa [peer_setPeer_of_ne hi] at hphase

namespace ChatRoom

variable {ι : Type} [DecidableEq ι] {net : Clients ι} {s s' : ChatRoom ι} {i j : ι} {c : Call ι}

/-! ### Sockets -/

/-- Which sockets belong together: a client that is connected has called the client at the other
end, which listens and has its connection in the backlog or has accepted it. -/
structure Connections (net : Clients ι) (s : ChatRoom ι) : Prop where
  called : ∀ i c, s.partnerSocket i = some c → s.rendezvous.Called net i c.waiter ∧
    s.rendezvous.Listening net c.waiter
  queued : ∀ i j, i ∈ s.backlog j → ∃ c, s.partnerSocket i = some c ∧ c.waiter = j
  accepted : ∀ i j, s.partnerSock j = some i → i ∉ s.backlog j ∧
    ∃ c, s.partnerSocket i = some c ∧ c.waiter = j
  held : ∀ i c, s.partnerSocket i = some c →
    i ∈ s.backlog c.waiter ∨ s.partnerSock c.waiter = some i
  nodup : ∀ j, (s.backlog j).Nodup

/-- A step of the rendezvous leaves the sockets alone. -/
theorem Connections.rendezvous (hs : Connections net s) {e : Step ι} {r : Rendezvous ι}
    (h : s.rendezvous.step net e = some r) : Connections net { s with rendezvous := r } :=
  ⟨fun i c hc => ⟨(hs.called i c hc).1.step h, (hs.called i c hc).2.step h⟩, hs.queued, hs.accepted,
    hs.held, hs.nodup⟩

/-- A client that is about to call has no connection yet. -/
theorem Connections.partnerSocket_eq_none (hs : Connections net s) {r : Rendezvous ι}
    (h : s.rendezvous.step net (.connect i) = some r) : s.partnerSocket i = none := by
  obtain ⟨response, hphase, -, -⟩ := Rendezvous.phase_of_connect h
  cases hc : s.partnerSocket i with
  | none => rfl
  | some c =>
    obtain ⟨⟨response', hphase', -⟩, -⟩ := hs.called i c hc
    exact absurd (hphase.symm.trans hphase') (by simp)

theorem Connections.connected (hs : Connections net s)
    (hreach : (Lab3.rendezvous net).Reachable s.rendezvous) {buffers : Side → Memory × Memory}
    {r : Rendezvous ι} {addr : SockAddrIn} (listens : s.listensAt net j = some addr)
    (calls : s.rendezvous.callee i = some addr)
    (step : s.rendezvous.step net (.connect i) = some r) :
    Connections net { s with
      rendezvous := r
      partnerSocket := Function.update s.partnerSocket i (some ⟨j, .fresh buffers⟩)
      backlog := Function.update s.backlog j (s.backlog j ++ [i]) } := by
  obtain ⟨hlisten, rfl⟩ := listening_of_listensAt hreach listens
  have hnone := hs.partnerSocket_eq_none step
  have hnew : ∀ k, i ∉ s.backlog k := by
    intro k hk
    obtain ⟨c, hc, -⟩ := hs.queued i k hk
    rw [hnone] at hc
    exact absurd hc (by simp)
  have hcalled : r.Called net i j := by
    obtain ⟨response, hphase, hphase', -⟩ := Rendezvous.phase_of_connect step
    rw [Rendezvous.callee, hphase] at calls
    exact ⟨response, hphase', Option.some.inj calls⟩
  have hkeeps : ∀ k c, s.partnerSocket k = some c →
      Function.update s.partnerSocket i (some ⟨j, .fresh buffers⟩) k = some c := by
    intro k c hc
    have hk : k ≠ i := by
      rintro rfl
      rw [hnone] at hc
      exact absurd hc (by simp)
    rwa [Function.update_of_ne hk]
  have hbacklog : ∀ k l, l ∈ Function.update s.backlog j (s.backlog j ++ [i]) k ↔
      l ∈ s.backlog k ∨ (k = j ∧ l = i) := by
    intro k l
    by_cases hk : k = j
    · subst hk
      rw [Function.update_self, List.mem_append, List.mem_singleton]
      simp
    · rw [Function.update_of_ne hk]
      simp [hk]
  refine ⟨?_, ?_, ?_, ?_, ?_⟩
  · intro k c hc
    rcases of_update_eq_some hc with ⟨rfl, rfl⟩ | ⟨-, hc⟩
    · exact ⟨hcalled, hlisten.step step⟩
    · exact ⟨(hs.called k c hc).1.step step, (hs.called k c hc).2.step step⟩
  · intro k l hk
    rcases (hbacklog l k).mp hk with hk | ⟨rfl, rfl⟩
    · obtain ⟨c, hc, hw⟩ := hs.queued k l hk
      exact ⟨c, hkeeps k c hc, hw⟩
    · exact ⟨⟨l, .fresh buffers⟩, Function.update_self .., rfl⟩
  · intro k l hk
    obtain ⟨hnot, c, hc, hw⟩ := hs.accepted k l hk
    refine ⟨fun hmem => ?_, c, hkeeps k c hc, hw⟩
    rcases (hbacklog l k).mp hmem with hmem | ⟨-, rfl⟩
    · exact hnot hmem
    · rw [hnone] at hc
      exact absurd hc (by simp)
  · intro k c hc
    rcases of_update_eq_some hc with ⟨rfl, rfl⟩ | ⟨-, hc⟩
    · exact Or.inl ((hbacklog j k).mpr (Or.inr ⟨rfl, rfl⟩))
    · exact (hs.held k c hc).imp (fun hmem => (hbacklog c.waiter k).mpr (Or.inl hmem)) id
  · intro k
    show (Function.update s.backlog j (s.backlog j ++ [i]) k).Nodup
    by_cases hk : k = j
    · subst hk
      rw [Function.update_self]
      rw [← List.concat_eq_append]
      exact (hs.nodup k).concat (hnew k)
    · rw [Function.update_of_ne hk]
      exact hs.nodup k

theorem Connections.accept (hs : Connections net s) {rest : List ι}
    (first : s.partnerSock j = none) (waits : s.backlog j = i :: rest) :
    Connections net { s with
      backlog := Function.update s.backlog j rest
      partnerSock := Function.update s.partnerSock j (some i) } := by
  have hnodup : (i :: rest).Nodup := waits ▸ hs.nodup j
  obtain ⟨hnot, hrest⟩ := List.nodup_cons.mp hnodup
  have hmem : ∀ k l, l ∈ Function.update s.backlog j rest k → l ∈ s.backlog k := by
    intro k l hl
    by_cases hk : k = j
    · subst hk
      rw [Function.update_self] at hl
      rw [waits]
      exact List.mem_cons_of_mem _ hl
    · rwa [Function.update_of_ne hk] at hl
  refine ⟨hs.called, fun k l hk => hs.queued k l (hmem l k hk), ?_, ?_, ?_⟩
  · intro k l hk
    rcases of_update_eq_some hk with ⟨rfl, rfl⟩ | ⟨hne, hk⟩
    · refine ⟨?_, hs.queued k l (by rw [waits]; exact List.mem_cons_self)⟩
      show k ∉ Function.update s.backlog l rest l
      rwa [Function.update_self]
    · obtain ⟨hnot, hc⟩ := hs.accepted k l hk
      exact ⟨fun hmem' => hnot (hmem l k hmem'), hc⟩
  · intro k c hc
    show k ∈ Function.update s.backlog j rest c.waiter ∨
      Function.update s.partnerSock j (some i) c.waiter = some k
    by_cases hw : c.waiter = j
    · rw [hw, Function.update_self, Function.update_self]
      rcases hs.held k c hc with hk | hk
      · rw [hw, waits] at hk
        rcases List.mem_cons.mp hk with rfl | hk
        · exact Or.inr rfl
        · exact Or.inl hk
      · rw [hw, first] at hk
        exact absurd hk (by simp)
    · rw [Function.update_of_ne hw, Function.update_of_ne hw]
      exact hs.held k c hc
  · intro k
    show (Function.update s.backlog j rest k).Nodup
    by_cases hk : k = j
    · subst hk
      rwa [Function.update_self]
    · rw [Function.update_of_ne hk]
      exact hs.nodup k

/-- What is said on a connection does not change whose it is. -/
theorem Connections.chat (hs : Connections net s) (call : s.partnerSocket i = some c)
    (chat : Chat) : Connections net { s with
      partnerSocket := Function.update s.partnerSocket i (some { c with chat := chat }) } := by
  have hback : ∀ k d, Function.update s.partnerSocket i (some { c with chat := chat }) k = some d →
      ∃ d', s.partnerSocket k = some d' ∧ d'.waiter = d.waiter := by
    intro k d hd
    rcases of_update_eq_some hd with ⟨rfl, rfl⟩ | ⟨-, hd⟩
    · exact ⟨c, call, rfl⟩
    · exact ⟨d, hd, rfl⟩
  have hforth : ∀ k d, s.partnerSocket k = some d → ∃ d',
      Function.update s.partnerSocket i (some { c with chat := chat }) k = some d' ∧
        d'.waiter = d.waiter := by
    intro k d hd
    by_cases hk : k = i
    · subst hk
      obtain rfl := Option.some.inj (call.symm.trans hd)
      exact ⟨_, Function.update_self .., rfl⟩
    · exact ⟨d, by rwa [Function.update_of_ne hk], rfl⟩
  refine ⟨?_, ?_, ?_, ?_, hs.nodup⟩
  · intro k d hd
    obtain ⟨d', hd', hw⟩ := hback k d hd
    rw [← hw]
    exact hs.called k d' hd'
  · intro k l hk
    obtain ⟨d, hd, rfl⟩ := hs.queued k l hk
    exact hforth k d hd
  · intro k l hk
    obtain ⟨hnot, d, hd, rfl⟩ := hs.accepted k l hk
    exact ⟨hnot, hforth k d hd⟩
  · intro k d hd
    obtain ⟨d', hd', hw⟩ := hback k d hd
    rw [← hw]
    exact hs.held k d' hd'

/-- **In every reachable state the sockets belong together.** -/
theorem connections_of_reachable {C : ChatRoom ι → RoomStep ι → Prop}
    (h : (chatRoom net).ReachableUnder C s) : Connections net s := by
  induction h with
  | init h =>
    obtain ⟨-, hsocket, hbacklog, hsock⟩ := h
    exact ⟨fun i c hc => by simp [hsocket] at hc, fun i j hi => by simp [hbacklog] at hi,
      fun i j hj => by simp [hsock] at hj, fun i c hc => by simp [hsocket] at hc,
      fun j => by simp [hbacklog]⟩
  | step hs hC hstep ih =>
    cases took_of_step hstep with
    | rendezvous other step => exact ih.rendezvous step
    | refused step => exact ih.rendezvous step
    | connected listens calls step =>
      have hreach := reachable_rendezvous (D := fun _ _ => True) (fun _ _ _ => trivial)
        (fun _ _ => trivial) hs
      exact ih.connected hreach listens calls step
    | accept listens first waits => exact ih.accept first waits
    | chat call side step => exact ih.chat call _

/-! ### Who is connected -/

/-- Whom a connection joins, whatever is said on it. -/
structure Joined (s : ChatRoom ι) (i : ι) (c : Call ι) : Prop where
  /-- The server has registered the one, and has then sent its address to the other. -/
  introduced : [(c.waiter, .registered), (i, .connect)].Sublist s.rendezvous.served
  ne : c.waiter ≠ i
  /-- Whoever calls the one that listens, or is accepted by it, is the other. -/
  only_caller : ∀ k d, s.partnerSocket k = some d → d.waiter = c.waiter → k = i
  only_accepted : ∀ k, s.partnerSock c.waiter = some k → k = i
  /-- The one that listens calls nobody, and the other one is not called. -/
  calls_nobody : s.partnerSocket c.waiter = none
  not_called : s.backlog i = [] ∧ s.partnerSock i = none

/-- What holds of a conversation. -/
structure Conversation (s : ChatRoom ι) (i : ι) (c : Call ι) : Prop extends Joined s i c where
  /-- What each of them has shown is what the other one has sent. -/
  faithful : Chat.Faithful c.chat

section

variable {C : ChatRoom ι → RoomStep ι → Prop} (hinj : Function.Injective net.address)
include hinj

/-- A client that is to call an address is paired with the client that has it. -/
theorem paired_of_called (h : (chatRoom net).ReachableUnder C s)
    (hcall : s.rendezvous.Called net i j) :
    (i, some j) ∈ Pairing.pair (Rendezvous.accepted s.rendezvous.served) := by
  have hreach := reachable_rendezvous (D := fun _ _ => True) (fun _ _ _ => trivial)
    (fun _ _ => trivial) h
  obtain ⟨response, hphase, hcalls⟩ := hcall
  have hs := Rendezvous.inv_of_reachable hreach
  obtain ⟨a, ha, haddr⟩ := (hs.peer i).callee response (Or.inr hphase)
  obtain rfl := hinj (haddr.symm.trans hcalls)
  exact ha

/-- Nobody is connected to a client unless it is the one that is paired with it. -/
theorem alone_of_paired (h : (chatRoom net).ReachableUnder C s)
    (hpair : ∀ k, (k, some j) ∈ Pairing.pair (Rendezvous.accepted s.rendezvous.served) →
      s.partnerSocket k = none) : s.backlog j = [] ∧ s.partnerSock j = none := by
  have hs := connections_of_reachable h
  have hnone : ∀ k c, s.partnerSocket k = some c → c.waiter ≠ j := by
    rintro k c hc rfl
    have hk := hpair k (paired_of_called hinj h (hs.called k c hc).1)
    exact absurd (hc.symm.trans hk) (by simp)
  constructor
  · rw [List.eq_nil_iff_forall_not_mem]
    intro k hk
    obtain ⟨c, hc, hw⟩ := hs.queued k j hk
    exact hnone k c hc hw
  · rw [Option.eq_none_iff_forall_ne_some]
    intro k hk
    obtain ⟨-, c, hc, hw⟩ := hs.accepted k j hk
    exact hnone k c hc hw

end

/-- Whoever is connected is connected to its partner, and to nobody else. -/
theorem joined_of_reachable {C : ChatRoom ι → RoomStep ι → Prop}
    (hinj : Function.Injective net.address) (h : (chatRoom net).ReachableUnder C s)
    (hcall : s.partnerSocket i = some c) : Joined s i c := by
  have hreach := reachable_rendezvous (D := fun _ _ => True) (fun _ _ _ => trivial)
    (fun _ _ => trivial) h
  have hinv := Rendezvous.inv_of_reachable hreach
  have hnodup := Rendezvous.nodup_accepted hinv.nodup
  have hs := connections_of_reachable h
  have hpaired : ∀ k d, s.partnerSocket k = some d →
      (k, some d.waiter) ∈ Pairing.pair (Rendezvous.accepted s.rendezvous.served) :=
    fun k d hd => paired_of_called hinj h (hs.called k d hd).1
  have hpair := hpaired i c hcall
  have honly : ∀ k d, s.partnerSocket k = some d → d.waiter = c.waiter → k = i := by
    intro k d hd hw
    exact Pairing.partner_injective hnodup (hw ▸ hpaired k d hd) hpair
  refine ⟨hinv.registered_before hpair, Pairing.partner_ne hnodup hpair, honly, fun k hk => ?_, ?_,
    alone_of_paired hinj h fun k hk => ?_⟩
  · obtain ⟨-, d, hd, hw⟩ := hs.accepted k c.waiter hk
    exact honly k d hd hw
  · cases hw : s.partnerSocket c.waiter with
    | none => rfl
    | some d => exact absurd (hpaired c.waiter d hw) (Pairing.partner_not_paired hnodup hpair)
  · exact absurd hpair (Pairing.partner_not_paired hnodup hk)

/-- **Every conversation is one the server has arranged**, between two clients of their own, and
what is shown in it has been said in it; if no two clients can be reached at one address, every
`recv` returns a whole record, and every record sent holds a string. -/
theorem conversation_of_reachable (hinj : Function.Injective net.address)
    (h : (chatRoom net).ReachableUnder (Sessions Chat.WholeRecords) s)
    (hcall : s.partnerSocket i = some c) : Conversation s i c := by
  obtain ⟨flight, hflight⟩ := Chat.carries_of_wholeRecords (reachable_chat h hcall)
  exact ⟨joined_of_reachable hinj h hcall, hflight.faithful⟩

instance {C : Chat → Move → Prop} [∀ c m, Decidable (C c m)] (s : ChatRoom ι) :
    ∀ e, Decidable (Sessions C s e)
  | .chat i m => inferInstanceAs (Decidable (∀ c ∈ s.partnerSocket i, C c.chat m))
  | .rendezvous _ | .connected _ _ _ | .refused _ | .accept _ => .isTrue trivial

/-- Two clients, before either has sent anything. -/
def twoClientsStart : ChatRoom Bool :=
  ⟨Rendezvous.twoClientsStart, fun _ => none, fun _ => [], fun _ => none⟩

theorem twoClientsStart_reachable {C : ChatRoom Bool → RoomStep Bool → Prop} :
    (chatRoom Rendezvous.twoClients).ReachableUnder C twoClientsStart :=
  .init ⟨⟨fun _ => rfl, rfl, rfl⟩, fun _ => rfl, fun _ => rfl, fun _ => rfl⟩

theorem twoClients_injective : Function.Injective Rendezvous.twoClients.address := by decide

/-- The first of two clients listens, the second one calls it and says something. -/
theorem conversation_of_two_clients : ∃ s c,
    (chatRoom Rendezvous.twoClients).ReachableUnder (Sessions Chat.WholeRecords) s ∧
    s.partnerSocket true = some c ∧ (c.chat.party .waiter).displayed = [Chat.hi.bytes] ∧
    Conversation s true c := by
  have hrun : (((chatRoom Rendezvous.twoClients).restrict (Sessions Chat.WholeRecords)).run
      twoClientsStart [.rendezvous (.send false), .rendezvous (.send true),
        .rendezvous (.serve false), .rendezvous (.serve true), .rendezvous (.receive false),
        .rendezvous (.bind false), .rendezvous (.listen false), .rendezvous (.receive true),
        .connected true false fun _ => (fun _ => 0, fun _ => 0),
        .chat true (.send .initiator (some Chat.hi)), .accept false,
        .chat true (.recv .waiter 256 [])]).bind (fun s => (s.partnerSocket true).map fun c =>
          (c.chat.party .waiter).displayed) = some [Chat.hi.bytes] := by
    decide +kernel
  obtain ⟨s, hs, hcall⟩ := Option.bind_eq_some_iff.mp hrun
  obtain ⟨c, hc, hshown⟩ := Option.map_eq_some_iff.mp hcall
  have hunder := System.reachableUnder_of_run twoClientsStart_reachable hs
  exact ⟨s, c, hunder, hc, hshown, conversation_of_reachable twoClients_injective hunder hc⟩

/-! ### A client that is refused -/

/-- A client that is refused has called, and has no connection. -/
def Refused (net : Clients ι) (s : ChatRoom ι) (i j : ι) : Prop :=
  s.rendezvous.Called net i j ∧ s.partnerSocket i = none

/-- It does not call again. -/
theorem Refused.step {e : RoomStep ι} (h : Refused net s i j)
    (hstep : (chatRoom net).step s e = some s') : Refused net s' i j := by
  obtain ⟨hcalled, hnone⟩ := h
  cases took_of_step hstep with
  | rendezvous other step => exact ⟨hcalled.step step, hnone⟩
  | refused step => exact ⟨hcalled.step step, hnone⟩
  | accept listens first waits => exact ⟨hcalled, hnone⟩
  | @connected k l buffers r addr listens calls step =>
    refine ⟨hcalled.step step, ?_⟩
    have hk : i ≠ k := by
      rintro rfl
      obtain ⟨response, hphase, -⟩ := Rendezvous.phase_of_connect step
      obtain ⟨response', hphase', -⟩ := hcalled
      exact absurd (hphase.symm.trans hphase') (by simp)
    exact (Function.update_of_ne hk ..).trans hnone
  | @chat k m c chat call side step =>
    refine ⟨hcalled, ?_⟩
    have hk : i ≠ k := by
      rintro rfl
      exact absurd (hnone.symm.trans call) (by simp)
    exact (Function.update_of_ne hk ..).trans hnone

/-- What is so when a client has been refused. -/
theorem refused_of_step (h : (chatRoom net).Reachable s)
    (hcallee : s.rendezvous.callee i = some (net.address j))
    (hrefused : (chatRoom net).step s (.refused i) = some s') : Refused net s' i j := by
  have htook : Took net s (.refused i) s' := took_of_step hrefused
  cases htook with
  | refused step =>
    obtain ⟨response, hphase, hphase', -⟩ := Rendezvous.phase_of_connect step
    rw [Rendezvous.callee, hphase] at hcallee
    exact ⟨⟨response, hphase', Option.some.inj hcallee⟩,
      (connections_of_reachable h).partnerSocket_eq_none step⟩

/-- **The partner of a client that is refused waits for good**: its address has been given to nobody
else, so whatever happens later, no connection to it is ever made. -/
theorem stranded_of_refused (hinj : Function.Injective net.address)
    {C : ChatRoom ι → RoomStep ι → Prop} (h : (chatRoom net).ReachableUnder C s)
    (hcallee : s.rendezvous.callee i = some (net.address j))
    (hrefused : (chatRoom net).step s (.refused i) = some s') {t : ChatRoom ι}
    (hleads : (chatRoom net).Leads (fun _ _ => True) s' t) :
    t.backlog j = [] ∧ t.partnerSock j = none := by
  have hs := h.reachable
  have hstart := refused_of_step hs hcallee hrefused
  have ht : (chatRoom net).Reachable t := (hs.step trivial hrefused).leads hleads
  obtain ⟨hcalled, hnone⟩ : Refused net t i j :=
    hleads.preserves (I := fun s => Refused net s i j) (fun _ _ _ hs _ hstep => hs.step hstep)
      hstart
  have hinv := Rendezvous.inv_of_reachable (reachable_rendezvous (D := fun _ _ => True)
    (fun _ _ _ => trivial) (fun _ _ => trivial) ht)
  refine alone_of_paired hinj ht fun k hk => ?_
  obtain rfl := Pairing.partner_injective (Rendezvous.nodup_accepted hinv.nodup) hk
    (paired_of_called hinj ht hcalled)
  exact hnone

/-- The second of two clients calls before the first one listens. -/
theorem stranded_of_two_clients : ∃ s s' t, (chatRoom Rendezvous.twoClients).Reachable s ∧
    (chatRoom Rendezvous.twoClients).step s (.refused true) = some s' ∧
    (chatRoom Rendezvous.twoClients).run s' [.rendezvous (.receive false),
      .rendezvous (.bind false), .rendezvous (.listen false)] = some t ∧
    t.backlog false = [] ∧ t.partnerSock false = none := by
  have hrun : ((chatRoom Rendezvous.twoClients).run twoClientsStart [.rendezvous (.send false),
      .rendezvous (.send true), .rendezvous (.serve false), .rendezvous (.serve true),
      .rendezvous (.receive true)]).map (fun s => (s.rendezvous.callee true,
        (((chatRoom Rendezvous.twoClients).step s (.refused true)).bind fun s' =>
          (chatRoom Rendezvous.twoClients).run s' [.rendezvous (.receive false),
            .rendezvous (.bind false), .rendezvous (.listen false)]).isSome))
      = some (some (Rendezvous.twoClients.address false), true) := by
    decide +kernel
  obtain ⟨s, hs, hstate⟩ := Option.map_eq_some_iff.mp hrun
  obtain ⟨hcallee, hlater⟩ := Prod.mk.inj hstate
  obtain ⟨t, ht⟩ := Option.isSome_iff_exists.mp hlater
  obtain ⟨s', hs', ht⟩ := Option.bind_eq_some_iff.mp ht
  have hreach : (chatRoom Rendezvous.twoClients).Reachable s :=
    System.reachable_of_run twoClientsStart_reachable hs
  exact ⟨s, s', t, hreach, hs', ht,
    stranded_of_refused twoClients_injective hreach hcallee hs' (System.leads_of_run ht)⟩

/-! ### Runs in which nobody is refused -/

/-- Nothing is lost, nothing fails, and nobody is refused. -/
def Smooth (s : ChatRoom ι) : RoomStep ι → Prop
  | .rendezvous e => Rendezvous.NoLoss s.rendezvous e
  | .refused _ => False
  | _ => True

instance (s : ChatRoom ι) : ∀ e, Decidable (Smooth s e)
  | .rendezvous e => inferInstanceAs (Decidable (Rendezvous.NoLoss s.rendezvous e))
  | .refused _ => .isFalse id
  | .connected _ _ _ | .accept _ | .chat _ _ => .isTrue trivial

/-- A step on the way to the conversations, and none of theirs. -/
def Arranging (s : ChatRoom ι) (e : RoomStep ι) : Prop :=
  Smooth s e ∧ ∀ i m, e ≠ .chat i m

/-- Half of the clients are connected, each to a client of its own that has accepted it; and whoever
is not connected listens. -/
def Arranged [Fintype ι] (net : Clients ι) (s : ChatRoom ι) : Prop :=
  (∀ i c, s.partnerSocket i = some c → c.waiter ≠ i ∧ s.rendezvous.Listening net c.waiter ∧
    s.partnerSock c.waiter = some i) ∧
  (∀ i, s.partnerSocket i = none → s.rendezvous.Listening net i) ∧
  (Finset.univ.filter fun i => (s.partnerSocket i).isSome).card = Fintype.card ι / 2

/-- If nobody is refused, whoever has called is connected. -/
theorem isSome_of_called (h : (chatRoom net).ReachableUnder Smooth s) {response : ServerResponse}
    (hphase : (s.rendezvous.peer i).phase = .called response) : (s.partnerSocket i).isSome := by
  have hall : ∀ i response, (s.rendezvous.peer i).phase = .called response →
      (s.partnerSocket i).isSome := by
    refine h.invariant (I := fun s => ∀ i response, (s.rendezvous.peer i).phase = .called response →
      (s.partnerSocket i).isSome) (fun s hs i response hphase => ?_) fun s e s' hs hC hstep => ?_
    · rw [hs.1.1 i] at hphase
      exact absurd hphase (by simp)
    · have htook : Took net s e s' := took_of_step hstep
      cases htook with
      | @rendezvous e r other step =>
        intro i response hphase
        exact hs i response (Rendezvous.called_of_step other step hphase)
      | refused step => exact hC.elim
      | accept listens first waits => exact hs
      | @connected k j buffers r addr listens calls step =>
        intro i response hphase
        show (Function.update s.partnerSocket k _ i).isSome
        by_cases hi : i = k
        · subst hi
          rw [Function.update_self]
          rfl
        · obtain ⟨-, -, -, hothers⟩ := Rendezvous.phase_of_connect step
          rw [Function.update_of_ne hi]
          exact hs i response (by rw [← hothers i hi]; exact hphase)
      | @chat k m c chat call side step =>
        intro i response hphase
        show (Function.update s.partnerSocket k _ i).isSome
        by_cases hi : i = k
        · subst hi
          rw [Function.update_self]
          rfl
        · rw [Function.update_of_ne hi]
          exact hs i response hphase
  exact hall i response hphase

/-- A step is enabled. -/
theorem step_rendezvous_eq (other : ∀ i, e ≠ .connect i) :
    s.step net (.rendezvous e)
      = (s.rendezvous.step net e).map fun r => { s with rendezvous := r } := by
  cases e with
  | connect i => exact absurd rfl (other i)
  | _ => rfl

/-- A client that is to call a client that listens can connect. -/
theorem connected_ne_none {r : Rendezvous ι} (hlisten : s.rendezvous.Listening net j)
    (hcallee : s.rendezvous.callee i = some (net.address j))
    (hstep : s.rendezvous.step net (.connect i) = some r) (buffers : Side → Memory × Memory) :
    s.step net (.connected i j buffers) ≠ none := by
  have hlistens : s.listensAt net j = some (net.address j) := by
    rw [listensAt, hlisten]
    rfl
  rw [step, hlistens]
  dsimp only
  rw [if_pos hcallee, hstep]
  simp

/-- A client that listens can accept the first connection. -/
theorem accept_ne_none (hlisten : s.rendezvous.Listening net j) (hfirst : s.partnerSock j = none)
    (hwaits : i ∈ s.backlog j) : s.step net (.accept j) ≠ none := by
  have hlistens : s.listensAt net j = some (net.address j) := by
    rw [listensAt, hlisten]
    rfl
  cases hbacklog : s.backlog j with
  | nil =>
    rw [hbacklog] at hwaits
    exact absurd hwaits (by simp)
  | cons k rest => simp [step, hlistens, hfirst, hbacklog]

section

variable [Fintype ι]

/-- How many steps are left until everybody is connected. -/
def arrangingSteps (s : ChatRoom ι) : ℕ :=
  s.rendezvous.steps + ∑ j, (s.partnerSock j).elim 1 fun _ => 0

theorem arrangingSteps_lt {e : RoomStep ι} (he : Arranging s e)
    (hstep : (chatRoom net).step s e = some s') : s'.arrangingSteps < s.arrangingSteps := by
  have htook : Took net s e s' := took_of_step hstep
  cases htook with
  | rendezvous other step => exact Nat.add_lt_add_right (Rendezvous.steps_lt step) _
  | connected listens calls step => exact Nat.add_lt_add_right (Rendezvous.steps_lt step) _
  | refused step => exact he.1.elim
  | chat call side step => exact absurd rfl (he.2 _ _)
  | @accept i j rest addr listens first waits =>
    refine Nat.add_lt_add_left (Finset.sum_lt_sum (fun k _ => ?_) ⟨j, Finset.mem_univ j, ?_⟩) _
    · dsimp only
      by_cases hk : k = j
      · subst hk
        rw [Function.update_self]
        exact Nat.zero_le _
      · rw [Function.update_of_ne hk]
    · dsimp only
      rw [Function.update_self, first]
      exact Nat.zero_lt_one

/-- What everything has come to when nothing is left to arrange. -/
theorem Arranged.of_quiet (hvalid : ∀ i, (net.datagram i).Valid)
    (hinj : Function.Injective net.address) (h : (chatRoom net).ReachableUnder Smooth s)
    (hquiet : (chatRoom net).Quiet Arranging s) : s.Arranged net := by
  have hreach : (Lab3.rendezvous net).ReachableUnder Rendezvous.NoLoss s.rendezvous :=
    reachable_rendezvous (fun _ _ he => he) (fun _ _ => trivial) h
  have hinv := Rendezvous.inv_of_reachable hreach.reachable
  have hnodup := Rendezvous.nodup_accepted hinv.nodup
  have hs := connections_of_reachable h
  have hrest : ∀ e, Rendezvous.NoLoss s.rendezvous e → (∀ j, e ≠ .connect j) →
      (Lab3.rendezvous net).step s.rendezvous e = none := by
    intro e he hother
    have hnone := hquiet (.rendezvous e) ⟨he, by simp⟩
    exact Option.map_eq_none_iff.mp ((step_rendezvous_eq hother).symm.trans hnone)
  have hend := fun i => ((Rendezvous.course_of_reachable hvalid hreach.reachable i).of_quiet hvalid
    hinv hrest).resolve_left (Rendezvous.not_lost_of_noLoss hreach i)
  have hpaired : ∀ i c, s.partnerSocket i = some c →
      (i, some c.waiter) ∈ Pairing.pair (Rendezvous.accepted s.rendezvous.served) :=
    fun i c hc => paired_of_called hinj h (hs.called i c hc).1
  have hconnected : ∀ i a, (i, some a) ∈ Pairing.pair (Rendezvous.accepted s.rendezvous.served) →
      ∃ c, s.partnerSocket i = some c ∧ c.waiter = a := by
    intro i a hpair
    cases hend i with
    | waits waits => exact absurd (Pairing.pair_unique hnodup waits hpair) (by simp)
    | @paired b response paired calls phase =>
      obtain rfl := Pairing.partner_unique hnodup hpair paired
      rcases phase with hphase | hphase
      · have hcan : s.rendezvous.step net (.connect i) ≠ none :=
          Rendezvous.step_connect_ne_none hphase
        obtain ⟨r, hr⟩ := Option.ne_none_iff_exists'.mp hcan
        have hcallee : s.rendezvous.callee i = some (net.address a) := by
          rw [Rendezvous.callee, hphase]
          exact congrArg some calls
        exact absurd (hquiet (.connected i a fun _ => (fun _ => 0, fun _ => 0)) ⟨trivial, by simp⟩)
          (connected_ne_none ((hend a).listening_of_paired hnodup hpair) hcallee hr _)
      · obtain ⟨c, hc⟩ := Option.isSome_iff_exists.mp (isSome_of_called h hphase)
        exact ⟨c, hc, (Pairing.partner_unique hnodup hpair (hpaired i c hc)).symm⟩
  refine ⟨fun i c hc => ?_, fun i hi => ?_, ?_⟩
  · have hpair := hpaired i c hc
    have hlisten := (hend c.waiter).listening_of_paired hnodup hpair
    refine ⟨Pairing.partner_ne hnodup hpair, hlisten, ?_⟩
    rcases hs.held i c hc with hqueued | haccepted
    · cases hsock : s.partnerSock c.waiter with
      | none =>
        exact absurd (hquiet (.accept c.waiter) ⟨trivial, by simp⟩)
          (accept_ne_none hlisten hsock hqueued)
      | some k =>
        obtain ⟨-, d, hd, hw⟩ := hs.accepted k c.waiter hsock
        obtain rfl : k = i := Pairing.partner_injective hnodup (hw ▸ hpaired k d hd) hpair
        rfl
    · exact haccepted
  · cases hend i with
    | waits _ listening => exact listening
    | paired paired =>
      obtain ⟨c, hc, -⟩ := hconnected i _ paired
      exact absurd (hi.symm.trans hc) (by simp)
  · have hpartner : ∀ i a, (s.partnerSocket i).map Call.waiter = some a ↔
        (i, some a) ∈ Pairing.pair (Rendezvous.accepted s.rendezvous.served) := by
      intro i a
      rw [Option.map_eq_some_iff]
      constructor
      · rintro ⟨c, hc, rfl⟩
        exact hpaired i c hc
      · exact hconnected i a
    simpa using Rendezvous.card_partner hnodup (fun i => (hend i).mem_accepted) hpartner

end

end ChatRoom

end Lab3

end Comp4320
