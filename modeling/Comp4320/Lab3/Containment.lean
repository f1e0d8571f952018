import Comp4320.Lab3.Conversations
import Mathlib.Data.Set.Card

/-!
# How far a loss reaches

There are no timeouts and no second attempts. A client whose request or reply is lost waits for good
in `recvfrom`; one whose `bind` or `listen` fails has returned; and one that is refused has returned
too. The server knows nothing of this: it has given the address of such a client away, or will give
it to whoever asks next, and has promised a partner to someone else.

But that is as far as it goes. The one client that is paired with a damaged one is left without a
conversation, and nobody else is: everybody who is not damaged, and whose partner is not, ends up
connected. So a run comes to rest with no more clients stranded than damaged, apart from the one
that is left over when an odd number of requests has been accepted.

## Main definitions

* `ChatRoom.Talking`, `ChatRoom.Damaged` — the clients in a conversation, and those that have failed

## Main results

* `ChatRoom.companion_damaged` — whoever is stranded is paired with a client that has failed
* `ChatRoom.ncard_stranded_le` — no more clients are stranded than have failed, but for one
-/

namespace Comp4320

namespace Lab3

namespace ChatRoom

open Rendezvous (accepted)

variable {ι : Type} [DecidableEq ι] {net : Clients ι} {s : ChatRoom ι} {i j : ι}

/-- A client has made a connection, or has accepted one. -/
def Talking (s : ChatRoom ι) (i : ι) : Prop :=
  (s.partnerSocket i).isSome ∨ (s.partnerSock i).isSome

/-- A client has lost a message, has failed to listen, or has been refused. -/
def Damaged (s : ChatRoom ι) (i : ι) : Prop :=
  (s.rendezvous.peer i).Lost ∨
    (∃ response, (s.rendezvous.peer i).phase = .called response) ∧ s.partnerSocket i = none

/-- Two clients have been paired by the server. -/
def Companions (s : ChatRoom ι) (i j : ι) : Prop :=
  (i, some j) ∈ Pairing.pair (accepted s.rendezvous.served) ∨
    (j, some i) ∈ Pairing.pair (accepted s.rendezvous.served)

/-- What a state is like in which nothing is left to arrange. -/
structure AtRest (net : Clients ι) (s : ChatRoom ι) : Prop where
  nodup : (accepted s.rendezvous.served).Nodup
  decided : ∀ i, (s.rendezvous.peer i).Lost ∨ Rendezvous.Decided net s.rendezvous i
  /-- Nobody listens whom a client is about to call. -/
  no_call : ∀ i j response, (s.rendezvous.peer i).phase = .initiateChat response →
    ChatClient.initiateChat response = net.address j → ¬ s.rendezvous.Listening net j
  /-- Whoever is connected to a client that listens has been accepted by it. -/
  taken : ∀ i c, s.partnerSocket i = some c → s.rendezvous.Listening net c.waiter →
    (s.partnerSock c.waiter).isSome
  paired : ∀ i c, s.partnerSocket i = some c →
    (i, some c.waiter) ∈ Pairing.pair (accepted s.rendezvous.served)

theorem atRest_of_quiet (hvalid : ∀ i, (net.datagram i).Valid)
    (hinj : Function.Injective net.address) (h : (chatRoom net).Reachable s)
    (hquiet : (chatRoom net).Quiet Arranging s) : AtRest net s := by
  have hreach : (Lab3.rendezvous net).Reachable s.rendezvous :=
    reachable_rendezvous (fun _ _ _ => trivial) (fun _ _ => trivial) h
  have hinv := Rendezvous.inv_of_reachable hreach
  have hs := connections_of_reachable h
  refine ⟨Rendezvous.nodup_accepted hinv.nodup, fun i => ?_, ?_, ?_, ?_⟩
  · have hcourse := Rendezvous.course_of_reachable hvalid hreach i
    refine hcourse.of_quiet hvalid hinv fun e he hother => ?_
    have hnone := hquiet (.rendezvous e) ⟨he, by simp⟩
    exact Option.map_eq_none_iff.mp ((step_rendezvous_eq hother).symm.trans hnone)
  · intro i j response hphase hcalls hlisten
    have hcan : s.rendezvous.step net (.connect i) ≠ none := Rendezvous.step_connect_ne_none hphase
    obtain ⟨r, hr⟩ := Option.ne_none_iff_exists'.mp hcan
    have hcallee : s.rendezvous.callee i = some (net.address j) := by
      rw [Rendezvous.callee, hphase]
      exact congrArg some hcalls
    exact absurd (hquiet (.connected i j fun _ => (fun _ => 0, fun _ => 0)) ⟨trivial, by simp⟩)
      (connected_ne_none hlisten hcallee hr _)
  · intro i c hc hlisten
    rcases hs.held i c hc with hqueued | haccepted
    · rw [Option.isSome_iff_ne_none]
      intro hnone
      exact absurd (hquiet (.accept c.waiter) ⟨trivial, by simp⟩)
        (accept_ne_none hlisten hnone hqueued)
    · rw [haccepted]
      rfl
  · exact fun i c hc => paired_of_called hinj h (hs.called i c hc).1

omit [DecidableEq ι] in
/-- **Whoever is stranded is paired with a client that has failed**, or is the one that nobody has
been paired with. -/
theorem companion_damaged (hs : AtRest net s) (htalking : ¬ s.Talking i)
    (hdamaged : ¬ s.Damaged i) :
    (∃ j, s.Damaged j ∧ s.Companions i j) ∨
      (i, none) ∈ Pairing.pair (accepted s.rendezvous.served) ∧
        ∀ j, (j, some i) ∉ Pairing.pair (accepted s.rendezvous.served) := by
  obtain ⟨hsocket, hsock⟩ := not_or.mp htalking
  rw [Option.not_isSome_iff_eq_none] at hsocket hsock
  obtain ⟨hlost, hcalled⟩ := not_or.mp hdamaged
  cases (hs.decided i).resolve_left hlost with
  | waits waits listening =>
    by_cases hgiven : ∃ j, (j, some i) ∈ Pairing.pair (accepted s.rendezvous.served)
    · obtain ⟨j, hj⟩ := hgiven
      refine Or.inl ⟨j, ?_, Or.inr hj⟩
      rcases hs.decided j with hlost | hdecided
      · exact Or.inl hlost
      · cases hdecided with
        | waits waits => exact absurd (Pairing.pair_unique hs.nodup waits hj) (by simp)
        | @paired a response paired calls phase =>
          obtain rfl := Pairing.partner_unique hs.nodup paired hj
          rcases phase with phase | phase
          · exact absurd listening (hs.no_call j a response phase calls)
          · refine Or.inr ⟨⟨response, phase⟩, ?_⟩
            cases hc : s.partnerSocket j with
            | none => rfl
            | some c =>
              obtain rfl := Pairing.partner_unique hs.nodup (hs.paired j c hc) hj
              have hsome := hs.taken j c hc listening
              rw [hsock] at hsome
              exact absurd hsome (by simp)
    · exact Or.inr ⟨waits, not_exists.mp hgiven⟩
  | @paired a response paired calls phase =>
    rcases phase with phase | phase
    · refine Or.inl ⟨a, ?_, Or.inl paired⟩
      rcases hs.decided a with hlost | hdecided
      · exact Or.inl hlost
      · exact absurd (hdecided.listening_of_paired hs.nodup paired)
          (hs.no_call i a response phase calls)
    · exact absurd ⟨⟨response, phase⟩, hsocket⟩ hcalled

/-- **No more clients are stranded than have failed, but for one.** If all clients ask for ports the
server accepts and no two can be reached at one address, this is what any run comes to, whatever is
lost, whatever fails and whoever is refused. -/
theorem ncard_stranded_le [Finite ι] (hvalid : ∀ i, (net.datagram i).Valid)
    (hinj : Function.Injective net.address) (h : (chatRoom net).Reachable s)
    (hquiet : (chatRoom net).Quiet Arranging s) :
    {i | ¬ s.Talking i ∧ ¬ s.Damaged i}.ncard ≤ {i | s.Damaged i}.ncard + 1 := by
  have hs := atRest_of_quiet hvalid hinj h hquiet
  have hcompanion : ∀ i, ∃ j, i ∈ {i | ¬ s.Talking i ∧ ¬ s.Damaged i} →
      (∃ j, s.Damaged j ∧ s.Companions i j) → s.Damaged j ∧ s.Companions i j := by
    intro i
    by_cases hi : ∃ j, s.Damaged j ∧ s.Companions i j
    · obtain ⟨j, hj⟩ := hi
      exact ⟨j, fun _ _ => hj⟩
    · exact ⟨i, fun _ h => absurd h hi⟩
  choose companion hcompanion using hcompanion
  -- the stranded clients with a companion, of which there are no more than companions
  have hle : {i | (¬ s.Talking i ∧ ¬ s.Damaged i) ∧ ∃ j, s.Damaged j ∧ s.Companions i j}.ncard
      ≤ {i | s.Damaged i}.ncard := by
    refine Set.ncard_le_ncard_of_injOn companion (fun i hi => (hcompanion i hi.1 hi.2).1) ?_
    intro i hi j hj heq
    have hij := (hcompanion j hj.1 hj.2).2
    rw [← heq] at hij
    exact Pairing.companion_unique hs.nodup (hcompanion i hi.1 hi.2).2 hij
  by_cases halone : ∃ i, (¬ s.Talking i ∧ ¬ s.Damaged i) ∧ ¬ ∃ j, s.Damaged j ∧ s.Companions i j
  · obtain ⟨i, hi, hnone⟩ := halone
    have hlast := (companion_damaged hs hi.1 hi.2).resolve_left hnone
    have hsub : {i | ¬ s.Talking i ∧ ¬ s.Damaged i} ⊆ insert i
        {i | (¬ s.Talking i ∧ ¬ s.Damaged i) ∧ ∃ j, s.Damaged j ∧ s.Companions i j} := by
      intro j hj
      rcases companion_damaged hs hj.1 hj.2 with hcomp | hlast'
      · exact Set.mem_insert_of_mem _ ⟨hj, hcomp⟩
      · exact Set.mem_insert_iff.mpr
          (Or.inl (Pairing.alone_unique hlast'.1 hlast'.2 hlast.1 hlast.2))
    have hins := Set.ncard_insert_le i
      {i | (¬ s.Talking i ∧ ¬ s.Damaged i) ∧ ∃ j, s.Damaged j ∧ s.Companions i j}
    have := Set.ncard_le_ncard hsub
    omega
  · have hsub : {i | ¬ s.Talking i ∧ ¬ s.Damaged i} ⊆
        {i | (¬ s.Talking i ∧ ¬ s.Damaged i) ∧ ∃ j, s.Damaged j ∧ s.Companions i j} := by
      intro j hj
      by_contra hnone
      exact halone ⟨j, hj, fun hcomp => hnone ⟨hj, hcomp⟩⟩
    have := Set.ncard_le_ncard hsub
    omega

/-- The second of two clients is refused, and no more happens than has to. -/
theorem ncard_stranded_two_clients : ∃ s, (chatRoom Rendezvous.twoClients).Reachable s ∧
    (chatRoom Rendezvous.twoClients).Quiet Arranging s ∧ s.Damaged true ∧
    {i | ¬ s.Talking i ∧ ¬ s.Damaged i}.ncard ≤ {i | s.Damaged i}.ncard + 1 := by
  have hrun : ((chatRoom Rendezvous.twoClients).run twoClientsStart [.rendezvous (.send false),
      .rendezvous (.send true), .rendezvous (.serve false), .rendezvous (.serve true),
      .rendezvous (.receive true)]).map (fun s => (s.rendezvous.callee true,
        ((chatRoom Rendezvous.twoClients).step s (.refused true)).isSome))
      = some (some (Rendezvous.twoClients.address false), true) := by
    decide +kernel
  obtain ⟨s, hs, hstate⟩ := Option.map_eq_some_iff.mp hrun
  obtain ⟨hcallee, hrefused⟩ := Prod.mk.inj hstate
  obtain ⟨s', hs'⟩ := Option.isSome_iff_exists.mp hrefused
  have hreach : (chatRoom Rendezvous.twoClients).Reachable s :=
    System.reachable_of_run twoClientsStart_reachable hs
  obtain ⟨t, hleads, hquiet⟩ := System.exists_leads_quiet (M := chatRoom Rendezvous.twoClients)
    (fun _ _ _ he hstep => arrangingSteps_lt he hstep) s'
  have ht : (chatRoom Rendezvous.twoClients).Reachable t :=
    (hreach.step trivial hs').leads (hleads.mono fun _ _ _ => trivial)
  obtain ⟨⟨response, hphase, -⟩, hnone⟩ : Refused Rendezvous.twoClients t true false :=
    hleads.preserves (I := fun s => Refused Rendezvous.twoClients s true false)
      (fun _ _ _ hs _ hstep => hs.step hstep) (refused_of_step hreach hcallee hs')
  have hvalid : ∀ i, (Rendezvous.twoClients.datagram i).Valid := by decide +kernel
  exact ⟨t, ht, hquiet, Or.inr ⟨⟨response, hphase⟩, hnone⟩,
    ncard_stranded_le hvalid twoClients_injective ht hquiet⟩

end ChatRoom

end Lab3

end Comp4320
