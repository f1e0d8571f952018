import Comp4320.Lab3.ChatServer

/-!
# Matchmaking over whole runs

Whatever arrives at the chat server, in whatever order, the valid requests are paired as they come:
counting from zero, those with an even number are registered, and those with an odd number are sent
the address and the port of their predecessor. Invalid requests are answered by an error and do
nothing else, so the replies to the valid ones do not depend on them.

The loop refines the waiting room of `Pairing`, with the valid requests as the arrivals:
`handle_refines` is the step and `run_refines` the run. What is said about positions here is what
`Pairing` says about them.

## Main definitions

* `ChatServer.validExchanges` — the valid requests of a run with their replies
* `ChatServer.handedOut`, `registrations` — the addresses sent out and the addresses registered
* `ChatServer.Served` — what the replies of a run look like

## Main results

* `ChatServer.run_refines` — the loop refines the waiting room
* `ChatServer.run_served` — every run is served, and invalid requests make no difference to it
-/

namespace Comp4320

namespace Lab3

open ByteOrder

namespace ChatServer

/-- The valid requests of a run, each with its reply. -/
def validExchanges (ds : List Datagram) (replies : List Reply) : List (Datagram × Reply) :=
  (ds.zip replies).filter fun x => x.1.Valid

/-- The address in a connect response. -/
def addressIn (response : List UInt8) : ℕ × ℕ :=
  (ofBE ((response.drop 4).take 4), ofBE ((response.drop 8).take 2))

/-- The addresses the server has sent to clients that are to connect, in order. -/
def handedOut (xs : List (Datagram × Reply)) : List (ℕ × ℕ) :=
  xs.filterMap fun x => if x.2.branch = .connect then some (addressIn x.2.response) else none

/-- The clients the server has registered, in order. -/
def registrations (xs : List (Datagram × Reply)) : List (ℕ × ℕ) :=
  xs.filterMap fun x => if x.2.branch = .registered then some (x.1.ip, x.1.port) else none

/-- What the replies of a run look like. -/
structure Served (ds : List Datagram) (replies : List Reply) : Prop where
  /-- Every datagram is answered. -/
  length_eq : replies.length = ds.length
  /-- The first, third, fifth … valid request is registered with its own port, its bytes 4 and 5. -/
  registered : ∀ (i : ℕ) (d : Datagram) (reply : Reply),
    (validExchanges ds replies)[i]? = some (d, reply) → Even i →
    reply = ⟨.registered, registeredResponse d.port⟩ ∧
      reply.response = toBE 4 0x4a6f7921 ++ [7] ++ (d.sent.drop 4).take 2
  /-- The second, fourth, sixth … valid request is sent the address and the port of the valid
  request before it: its source as it stands in memory, and its bytes 4 and 5. -/
  connect : ∀ (i : ℕ) (d : Datagram) (reply : Reply),
    (validExchanges ds replies)[i + 1]? = some (d, reply) → Even i →
    ∃ b, (ds.filter fun d => d.Valid)[i]? = some b ∧
      reply = ⟨.connect, connectResponse b.ip b.port⟩ ∧
      reply.response = toBE 4 0x4a6f7921 ++ image32 b.client ++ (b.sent.drop 4).take 2 ++ [7]
  /-- An invalid request is answered by its error bits. -/
  invalid : ∀ (d : Datagram) (reply : Reply), (d, reply) ∈ ds.zip replies → ¬ d.Valid →
    reply = ⟨.invalid, invalidResponse d.error⟩
  /-- No registration is handed out twice. -/
  once : handedOut (ds.zip replies) <+: registrations (ds.zip replies)

/-! ### The run -/

/-- The exchanges of some valid requests, the first of which is answered by `w`. -/
def paired (w : Option Datagram) (valid : List Datagram) : List (Datagram × Reply) :=
  (Pairing.pairFrom w valid).map fun p => (p.1, answer p.1 p.2)

/-- What a run does from a state that holds `w`. -/
structure Refines (w : Option Datagram) (ds : List Datagram) (s : ChatServer)
    (replies : List Reply) : Prop where
  length_eq : replies.length = ds.length
  holds : s.Holds (Pairing.waiting w (ds.filter fun d => d.Valid))
  valid : validExchanges ds replies = paired w (ds.filter fun d => d.Valid)
  invalid : ∀ (d : Datagram) (reply : Reply), (d, reply) ∈ ds.zip replies → ¬ d.Valid →
    reply = ⟨.invalid, invalidResponse d.error⟩

/-- Invalid requests are answered by their error bits, if the first one is. -/
theorem Refines.invalid_cons {w : Option Datagram} {d : Datagram} {ds : List Datagram}
    {s : ChatServer} {reply : Reply} {replies : List Reply} (h : Refines w ds s replies)
    (hd : ¬ d.Valid → reply = ⟨.invalid, invalidResponse d.error⟩) (b : Datagram) (r : Reply)
    (hb : (b, r) ∈ (d :: ds).zip (reply :: replies)) (hinv : ¬ b.Valid) :
    r = ⟨.invalid, invalidResponse b.error⟩ := by
  rcases List.mem_cons.mp hb with hb | hb
  · obtain ⟨rfl, rfl⟩ := Prod.mk.inj hb
    exact hd hinv
  · exact h.invalid b r hb hinv

/-- One pass of the loop, and the rest of them. -/
theorem run_cons_of_handle {s t s' : ChatServer} {d : Datagram} {ds : List Datagram}
    {reply : Reply} {replies : List Reply} (hstep : s.handle d = .ok (t, reply))
    (hrun : run t ds = .ok (s', replies)) : run s (d :: ds) = .ok (s', reply :: replies) := by
  rw [run, hstep, ok_bind]
  show (run t ds >>= _) = _
  rw [hrun]
  rfl

/-- **The loop refines the waiting room**: it never raises, and the valid requests are the
arrivals. -/
theorem run_refines {s : ChatServer} {w : Option Datagram} (hs : s.Holds w) (ds : List Datagram) :
    ∃ s' replies, run s ds = .ok (s', replies) ∧ Refines w ds s' replies := by
  induction ds generalizing s w with
  | nil => exact ⟨s, [], rfl, rfl, hs, rfl, by simp⟩
  | cons d ds ih =>
    by_cases hd : d.Valid
    · obtain ⟨t, hstep, ht⟩ := handle_refines hs hd
      obtain ⟨s', replies, hrun, h⟩ := ih ht
      refine ⟨s', answer d w :: replies, run_cons_of_handle hstep hrun, ?_, ?_, ?_, ?_⟩
      · rw [List.length_cons, List.length_cons, h.length_eq]
      · rw [List.filter_cons_of_pos (by simpa using hd)]
        exact h.holds
      · rw [validExchanges, List.zip_cons_cons, List.filter_cons_of_pos (by simpa using hd),
          List.filter_cons_of_pos (by simpa using hd), paired, Pairing.pairFrom, List.map_cons]
        exact congrArg _ h.valid
      · exact h.invalid_cons fun hinv => absurd hd hinv
    · obtain ⟨s', replies, hrun, h⟩ := ih hs
      refine ⟨s', ⟨.invalid, invalidResponse d.error⟩ :: replies,
        run_cons_of_handle (handle_invalid s hd) hrun, ?_, ?_, ?_, ?_⟩
      · rw [List.length_cons, List.length_cons, h.length_eq]
      · rw [List.filter_cons_of_neg (by simpa using hd)]
        exact h.holds
      · rw [validExchanges, List.zip_cons_cons, List.filter_cons_of_neg (by simpa using hd),
          List.filter_cons_of_neg (by simpa using hd)]
        exact h.valid
      · exact h.invalid_cons fun _ => rfl

/-! ### What the addresses sent out are -/

theorem addressIn_connectResponse {ip port : ℕ} (hip : ip < 256 ^ 4) (hport : port < 256 ^ 2) :
    addressIn (connectResponse ip port) = (ip, port) := by
  rw [addressIn, ip_connectResponse, port_connectResponse, ofBE_toBE_of_lt hip,
    ofBE_toBE_of_lt hport]

/-- Exchanges that are not valid are neither registrations nor handed out. -/
theorem filterMap_validExchanges {β : Type} {ds : List Datagram} {replies : List Reply}
    {f : Datagram × Reply → Option β}
    (hf : ∀ x ∈ ds.zip replies, ¬ x.1.Valid → f x = none) :
    (ds.zip replies).filterMap f = (validExchanges ds replies).filterMap f := by
  rw [validExchanges, List.filterMap_filter]
  refine List.filterMap_congr fun x hx => ?_
  by_cases hv : x.1.Valid
  · simp [hv]
  · simp [hv, hf x hx hv]

theorem handedOut_paired (valid : List Datagram) :
    handedOut (paired none valid)
      = ((Pairing.pair valid).filterMap Prod.snd).map fun b => (b.ip, b.port) := by
  rw [handedOut, paired, List.filterMap_map, List.map_filterMap]
  refine List.filterMap_congr ?_
  rintro ⟨d, w⟩ -
  cases w with
  | none => rfl
  | some b =>
    show some (addressIn (connectResponse b.ip b.port)) = _
    rw [addressIn_connectResponse b.ip_lt b.port_lt]
    rfl

theorem registrations_paired (valid : List Datagram) :
    registrations (paired none valid)
      = (((Pairing.pair valid).filter fun p => p.2.isNone).map Prod.fst).map
          fun b => (b.ip, b.port) := by
  rw [registrations, paired, List.filterMap_map, List.map_map, ← List.filterMap_eq_map,
    List.filterMap_filter]
  refine List.filterMap_congr ?_
  rintro ⟨d, w⟩ -
  cases w <;> rfl

/-! ### The replies of a run -/

theorem Refines.served {ds : List Datagram} {s : ChatServer} {replies : List Reply}
    (h : Refines none ds s replies) : Served ds replies := by
  have hfilter : ∀ (i : ℕ) (d : Datagram), (ds.filter fun d => d.Valid)[i]? = some d → d.Valid :=
    fun i d hd => of_decide_eq_true (List.mem_filter.mp (List.mem_of_getElem? hd)).2
  have hvalid : ∀ i x, (validExchanges ds replies)[i]? = some x → ∃ d,
      (ds.filter fun d => d.Valid)[i]? = some d ∧ x = (d, answer d
        (if Even i then none else (ds.filter fun d => d.Valid)[i - 1]?)) := by
    intro i x hx
    rw [h.valid, paired, List.getElem?_map, ← Pairing.pair, Pairing.getElem?_pair,
      Option.map_map] at hx
    obtain ⟨d, hd, hx⟩ := Option.map_eq_some_iff.mp hx
    exact ⟨d, hd, hx.symm⟩
  refine ⟨h.length_eq, ?_, ?_, h.invalid, ?_⟩
  · intro i d reply hx hi
    obtain ⟨d', hd', heq⟩ := hvalid i _ hx
    rw [if_pos hi] at heq
    obtain ⟨rfl, rfl⟩ := Prod.mk.inj heq
    exact ⟨rfl, (hfilter i d hd').registeredResponse_eq⟩
  · intro i d reply hx hi
    obtain ⟨d', hd', heq⟩ := hvalid (i + 1) _ hx
    have hlt : i < (ds.filter fun d => d.Valid).length :=
      Nat.lt_of_succ_lt (List.getElem?_eq_some_iff.mp hd').1
    rw [if_neg (by simpa [Nat.even_add_one] using hi), Nat.add_sub_cancel,
      List.getElem?_eq_getElem hlt] at heq
    obtain ⟨rfl, rfl⟩ := Prod.mk.inj heq
    exact ⟨_, List.getElem?_eq_getElem hlt, rfl,
      (hfilter i _ (List.getElem?_eq_getElem hlt)).connectResponse_eq⟩
  · have hout : handedOut (ds.zip replies)
        = handedOut (paired none (ds.filter fun d => d.Valid)) := by
      rw [← h.valid]
      refine filterMap_validExchanges fun x hx hinv => ?_
      rw [h.invalid x.1 x.2 hx hinv]
      rfl
    have hreg : registrations (ds.zip replies)
        = registrations (paired none (ds.filter fun d => d.Valid)) := by
      rw [← h.valid]
      refine filterMap_validExchanges fun x hx hinv => ?_
      rw [h.invalid x.1 x.2 hx hinv]
      rfl
    rw [hout, hreg, handedOut_paired, registrations_paired]
    exact (Pairing.partners_isPrefix _).map _

/-- **Matchmaking.** From its initial state the server answers every run of datagrams without
raising: the valid requests are registered and connected in turn, each registration is handed out
at most once, an invalid request leaves the attributes as they were, and two runs with the same
valid requests answer them alike. -/
theorem run_served (ds : List Datagram) :
    ∃ s replies, run start ds = .ok (s, replies) ∧ Served ds replies ∧
      (∀ (t : ChatServer) (d : Datagram), ¬ d.Valid →
        t.handle d = .ok (t, ⟨.invalid, invalidResponse d.error⟩)) ∧
      ∀ ds' s' replies', run start ds' = .ok (s', replies') →
        (ds'.filter fun d => d.Valid) = (ds.filter fun d => d.Valid) →
        validExchanges ds' replies' = validExchanges ds replies := by
  obtain ⟨s, replies, hrun, h⟩ := run_refines holds_start ds
  refine ⟨s, replies, hrun, h.served, fun t d => handle_invalid t, ?_⟩
  intro ds' s' replies' hrun' hsame
  obtain ⟨t, rs, ht, h'⟩ := run_refines holds_start ds'
  obtain ⟨-, rfl⟩ := Prod.mk.inj (Except.ok.inj (ht.symm.trans hrun'))
  rw [h'.valid, h.valid, hsame]

end ChatServer

end Lab3

end Comp4320
