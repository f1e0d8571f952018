import Comp4320.Lab3.Rendezvous

/-!
# Whether the partner is listening

The server hands out the address of a client as soon as it has registered it, before it can know
whether the reply has arrived, let alone whether the client listens. There is no message by which a
client could say so. A client may therefore call one that does not listen yet, and is refused.

What does hold is that the one it calls has been registered before, and will bind the very port that
is called; and that it listens already if it did when the server gave its address away.

## Main results

* `Rendezvous.partner_of_connect` — whom a client calls, and when the other one listens
* `Rendezvous.connect_before_listen` — a run, with nothing lost, in which nobody listens
-/

namespace Comp4320

namespace Lab3

namespace Rendezvous

variable {ι : Type} {net : Clients ι} {s s' : Rendezvous ι} {p p' : Peer} {e : Step ι} {b i : ι}

/-- A client has executed `bind` on its port and `listen`. -/
def Listening (net : Clients ι) (s : Rendezvous ι) (a : ι) : Prop :=
  (s.peer a).phase = .listening (net.client a).configureMySocket

/-- The server handles the request of `b` only when the client it holds is listening. -/
def AnsweredWhenListening (net : Clients ι) (b : ι) (s : Rendezvous ι) : Step ι → Prop
  | .serve i => i = b → ∀ a ∈ Pairing.waiting none (accepted s.served), s.Listening net a
  | _ => True

/-- Nothing is lost, and `bind` and `listen` succeed. -/
def NoLoss (_ : Rendezvous ι) : Step ι → Prop
  | .loseRequest _ | .loseReply _ | .waitFails _ => False
  | _ => True

instance (s : Rendezvous ι) : ∀ e, Decidable (NoLoss s e)
  | .loseRequest _ | .loseReply _ | .waitFails _ => .isFalse id
  | .send _ | .serve _ | .receive _ | .bind _ | .listen _ | .connect _ => .isTrue trivial

/-! ### Listening lasts -/

theorem peerStep_listening {myAddr : SockAddrIn} (hstep : peerStep net p e = some p')
    (h : p.phase = .listening myAddr) : p'.phase = .listening myAddr := by
  cases e with
  | send i | bind i =>
    obtain ⟨hphase, -⟩ := Option.ite_none_right_eq_some.mp hstep
    exact absurd (h.symm.trans hphase) (by simp)
  | loseRequest i | loseReply i =>
    obtain ⟨-, heq⟩ := Option.ite_none_right_eq_some.mp hstep
    obtain rfl := Option.some.inj heq
    exact h
  | receive i | waitFails i | listen i | connect i | serve i =>
    exact absurd hstep (by simp [peerStep, h])

variable [DecidableEq ι]

instance (s : Rendezvous ι) : ∀ e, Decidable (AnsweredWhenListening net b s e)
  | .serve i => inferInstanceAs (Decidable (i = b → ∀ a ∈ Pairing.waiting none (accepted s.served),
      (s.peer a).phase = .listening (net.client a).configureMySocket))
  | .send _ | .loseRequest _ | .loseReply _ | .receive _ | .bind _ | .waitFails _ | .listen _
  | .connect _ => .isTrue trivial

/-- Serving a client appends to the order of service and leaves every client where it is. -/
theorem served_of_serve (h : s.serve net i = some s') :
    (∃ br, s'.served = s.served ++ [(i, br)]) ∧ ∀ j, (s'.peer j).phase = (s.peer j).phase := by
  obtain ⟨data, server, reply, -, -, rfl⟩ := serve_cases h
  refine ⟨⟨reply.branch, rfl⟩, fun j => ?_⟩
  show ((s.setPeer i _).peer j).phase = _
  by_cases hj : j = i
  · subst hj
    rw [peer_setPeer_self]
  · rw [peer_setPeer_of_ne hj]

/-- Nobody stops listening when a client takes a step. -/
theorem listening_setPeer {a : ι} (hp : peerStep net (s.peer (actor e)) e = some p)
    (ha : s.Listening net a) : (s.setPeer (actor e) p).Listening net a := by
  by_cases hj : a = actor e
  · subst hj
    rw [Listening, peer_setPeer_self]
    exact peerStep_listening hp ha
  · rw [Listening, peer_setPeer_of_ne hj]
    exact ha

/-! ### Who listens -/

/-- One step keeps the partner of `b` listening, once it does. -/
theorem listening_step (hs : ∀ a, (b, some a) ∈ Pairing.pair (accepted s.served) →
      s.Listening net a)
    (hC : AnsweredWhenListening net b s e) (h : s.step net e = some s') :
    ∀ a, (b, some a) ∈ Pairing.pair (accepted s'.served) → s'.Listening net a := by
  rcases step_cases h with ⟨i, rfl, hserve⟩ | ⟨p, hp, rfl⟩
  · obtain ⟨⟨br, hserved⟩, hphase⟩ := served_of_serve hserve
    intro a ha
    rw [Listening, hphase]
    rw [hserved, accepted_concat] at ha
    split_ifs at ha
    · exact hs a ha
    · rw [Pairing.pair_concat, List.mem_append, List.mem_singleton, Prod.mk.injEq] at ha
      rcases ha with ha | ⟨hb, hw⟩
      · exact hs a ha
      · exact hC hb.symm a hw.symm
  · intro a ha
    exact listening_setPeer hp (hs a ha)

theorem listening_of_paired (h : (rendezvous net).ReachableUnder (AnsweredWhenListening net b) s) :
    ∀ a, (b, some a) ∈ Pairing.pair (accepted s.served) → s.Listening net a := by
  refine h.invariant (fun s hs a ha => ?_) fun s e s' hs hC hstep => listening_step hs hC hstep
  obtain ⟨-, -, hserved⟩ := hs
  rw [hserved] at ha
  exact absurd ha (by simp [accepted, Pairing.pair, Pairing.pairFrom])

theorem callee_isSome_of_connect (h : (s.step net (.connect b)).isSome) :
    ∃ addr, s.callee b = some addr := by
  have hpeer : ((peerStep net (s.peer b) (.connect b)).map (s.setPeer b)).isSome := h
  rw [Option.isSome_map, peerStep] at hpeer
  split at hpeer
  · rename_i response hphase
    exact ⟨ChatClient.initiateChat response, by rw [callee, hphase]⟩
  · exact absurd hpeer (by simp)

/-- **Whom a client calls.** Whenever a client executes `connect`, the address is that of another
client, which the server registered before it answered this one and which binds the port called; and
that client is already listening, if it was when the server answered. -/
theorem partner_of_connect (h : (rendezvous net).Reachable s)
    (hconnect : ((rendezvous net).step s (.connect b)).isSome) :
    ∃ a, a ≠ b ∧ s.callee b = some (net.address a) ∧
      [(a, .registered), (b, .connect)].Sublist s.served ∧
      ((rendezvous net).ReachableUnder (AnsweredWhenListening net b) s → s.Listening net a) := by
  have hs := inv_of_reachable h
  obtain ⟨addr, hcall⟩ := callee_isSome_of_connect hconnect
  obtain ⟨a, ha, rfl⟩ := hs.callee hcall
  exact ⟨a, Pairing.partner_ne (nodup_accepted hs.nodup) ha, hcall, hs.registered_before ha,
    fun hunder => listening_of_paired hunder a ha⟩

/-- The first of two clients listens before the second one asks. -/
theorem partner_of_connect_two_clients : ∃ s, (rendezvous twoClients).Reachable s ∧
    ((rendezvous twoClients).step s (.connect true)).isSome ∧
    ∃ a, a ≠ true ∧ s.callee true = some (twoClients.address a) ∧
      [(a, .registered), (true, .connect)].Sublist s.served ∧ s.Listening twoClients a := by
  have hrun : (((rendezvous twoClients).restrict (AnsweredWhenListening twoClients true)).run
      twoClientsStart [.send false, .serve false, .receive false, .bind false, .listen false,
        .send true, .serve true, .receive true]).map
        (fun s => ((rendezvous twoClients).step s (.connect true)).isSome) = some true := by
    decide +kernel
  obtain ⟨s, hs, hconnect⟩ := Option.map_eq_some_iff.mp hrun
  have hunder := System.reachableUnder_of_run twoClientsStart_reachable hs
  obtain ⟨a, hne, hcall, hbefore, hlisten⟩ := partner_of_connect hunder.reachable hconnect
  exact ⟨s, hunder.reachable, hconnect, a, hne, hcall, hbefore, hlisten hunder⟩

/-- Both clients ask, with ports the server accepts, both requests are answered, and the second
client connects. Nothing is lost, and the first client has not even received its reply. -/
theorem connect_before_listen : (∀ i, (twoClients.datagram i).Valid) ∧
    ∃ s, (rendezvous twoClients).ReachableUnder NoLoss s ∧
      ((rendezvous twoClients).step s (.connect true)).isSome ∧
      s.callee true = some (twoClients.address false) ∧ ∀ a, ¬ s.Listening twoClients a := by
  refine ⟨by decide +kernel, ?_⟩
  have hrun : (((rendezvous twoClients).restrict NoLoss).run twoClientsStart
      [.send false, .send true, .serve false, .serve true, .receive true]).map
        (fun s => (((rendezvous twoClients).step s (.connect true)).isSome, s.callee true,
          decide (∀ a, (s.peer a).phase ≠
            .listening (twoClients.client a).configureMySocket)))
      = some (true, some (twoClients.address false), true) := by
    decide +kernel
  obtain ⟨s, hs, hstate⟩ := Option.map_eq_some_iff.mp hrun
  obtain ⟨hconnect, hrest⟩ := Prod.mk.inj hstate
  obtain ⟨hcall, hnot⟩ := Prod.mk.inj hrest
  have hnobody : ∀ a, (s.peer a).phase ≠ .listening (twoClients.client a).configureMySocket :=
    of_decide_eq_true hnot
  exact ⟨s, System.reachableUnder_of_run twoClientsStart_reachable hs, hconnect, hcall, hnobody⟩

end Rendezvous

end Lab3

end Comp4320
