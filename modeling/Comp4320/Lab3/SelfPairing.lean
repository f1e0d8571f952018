import Comp4320.Lab3.Matchmaking

/-!
# A client paired with itself

The server knows a client by nothing but where a datagram comes from and the port it asks for, and
it compares neither with the client that waits. So a client whose registered request is followed by
another one of its own (it asked again, it was restarted, or the network delivered the request
twice) is told to connect to itself, unless a request of another client was accepted in between.

Which requests are paired is a matter of their number alone, and that is the whole condition: the
first of every two accepted requests must have come from somewhere else than the second, or asked
for another port.

## Main definitions

* `ChatServer.SelfPaired` — a reply that sends the requester its own address
* `ChatServer.NeverSelfPaired` — a run without such a reply

## Main results

* `ChatServer.neverSelfPaired_iff` — the runs that pair nobody with itself, among them all runs in
  which nobody asks twice
-/

namespace Comp4320

namespace Lab3

namespace ChatServer

/-- The reply sends the requester the address and the port it has itself. -/
def SelfPaired (d : Datagram) (reply : Reply) : Prop :=
  reply.branch = .connect ∧ addressIn reply.response = (d.ip, d.port)

/-- Whatever the run over these datagrams sends, it sends nobody its own address. -/
def NeverSelfPaired (ds : List Datagram) : Prop :=
  ∀ s replies, run start ds = .ok (s, replies) →
    ∀ d reply, (d, reply) ∈ ds.zip replies → ¬ SelfPaired d reply

variable {ds : List Datagram} {d : Datagram} {s : ChatServer} {replies : List Reply}

/-- What the answer to a valid request says of the one that waits. -/
theorem selfPaired_answer_iff (d : Datagram) (w : Option Datagram) :
    SelfPaired d (answer d w) ↔ ∃ b, w = some b ∧ (b.ip, b.port) = (d.ip, d.port) := by
  cases w with
  | none =>
    constructor
    · rintro ⟨hbranch, -⟩
      exact absurd hbranch (by simp [answer])
    · rintro ⟨b, hb, -⟩
      exact absurd hb (by simp)
  | some b =>
    rw [SelfPaired, answer, addressIn_connectResponse b.ip_lt b.port_lt]
    constructor
    · rintro ⟨-, haddress⟩
      exact ⟨b, rfl, haddress⟩
    · rintro ⟨b', hb, haddress⟩
      obtain rfl := Option.some.inj hb
      exact ⟨rfl, haddress⟩

/-- **Who is sent its own address**: a valid request that is paired with one from the same source
and for the same port. -/
theorem Refines.exists_selfPaired_iff (h : Refines none ds s replies) :
    (∃ d reply, (d, reply) ∈ ds.zip replies ∧ SelfPaired d reply) ↔
      ∃ d b, (d, some b) ∈ Pairing.pair (ds.filter fun d => d.Valid) ∧
        (b.ip, b.port) = (d.ip, d.port) := by
  have hexchange : ∀ d reply, (d, reply) ∈ validExchanges ds replies ↔ ∃ w,
      (d, w) ∈ Pairing.pair (ds.filter fun d => d.Valid) ∧ answer d w = reply := by
    intro d reply
    rw [h.valid, paired, List.mem_map]
    constructor
    · rintro ⟨⟨d', w⟩, hp, heq⟩
      obtain ⟨rfl, rfl⟩ := Prod.mk.inj heq
      exact ⟨w, hp, rfl⟩
    · rintro ⟨w, hp, rfl⟩
      exact ⟨(d, w), hp, rfl⟩
  constructor
  · rintro ⟨d, reply, hmem, hself⟩
    -- an error response is not a connect response
    have hvalid : d.Valid := by
      by_contra hinv
      rw [h.invalid d reply hmem hinv] at hself
      exact absurd hself.1 (by simp)
    obtain ⟨w, hp, rfl⟩ := (hexchange d reply).mp
      (List.mem_filter.mpr ⟨hmem, decide_eq_true hvalid⟩)
    obtain ⟨b, rfl, haddress⟩ := (selfPaired_answer_iff d w).mp hself
    exact ⟨d, b, hp, haddress⟩
  · rintro ⟨d, b, hp, haddress⟩
    exact ⟨d, _, List.mem_of_mem_filter ((hexchange d _).mpr ⟨some b, hp, rfl⟩),
      (selfPaired_answer_iff d (some b)).mpr ⟨b, rfl, haddress⟩⟩

/-- Where nobody asks twice, no two requests in a row are alike. -/
theorem ne_of_nodup (h : ((ds.filter fun d => d.Valid).map fun d => (d.ip, d.port)).Nodup) {i : ℕ}
    {b : Datagram} (hb : (ds.filter fun d => d.Valid)[i]? = some b)
    (hd : (ds.filter fun d => d.Valid)[i + 1]? = some d) : (b.ip, b.port) ≠ (d.ip, d.port) := by
  intro haddress
  have hi : ((ds.filter fun d => d.Valid).map fun d => (d.ip, d.port))[i]?
      = some (d.ip, d.port) := by
    rw [List.getElem?_map, hb, Option.map_some, haddress]
  have hi' : ((ds.filter fun d => d.Valid).map fun d => (d.ip, d.port))[i + 1]?
      = some (d.ip, d.port) := by
    rw [List.getElem?_map, hd, Option.map_some]
  exact absurd (Pairing.index_unique h hi hi') (by omega)

/-- **The runs that pair nobody with itself**: those in which the first of every two valid requests
came from another source than the second, or asked for another port. Among them are all runs in
which nobody asks twice. -/
theorem neverSelfPaired_iff (ds : List Datagram) :
    (NeverSelfPaired ds ↔ ∀ i b d, Even i → (ds.filter fun d => d.Valid)[i]? = some b →
      (ds.filter fun d => d.Valid)[i + 1]? = some d → (b.ip, b.port) ≠ (d.ip, d.port)) ∧
    (((ds.filter fun d => d.Valid).map fun d => (d.ip, d.port)).Nodup → NeverSelfPaired ds) := by
  obtain ⟨s, replies, hrun, h⟩ := run_refines holds_start ds
  have hiff : NeverSelfPaired ds ↔ ∀ i b d, Even i → (ds.filter fun d => d.Valid)[i]? = some b →
      (ds.filter fun d => d.Valid)[i + 1]? = some d → (b.ip, b.port) ≠ (d.ip, d.port) := by
    constructor
    · intro hnever i b d hi hb hd haddress
      obtain ⟨d', reply, hmem, hself⟩ := h.exists_selfPaired_iff.mpr
        ⟨d, b, Pairing.mem_pair_partner_iff.mpr ⟨i, hi, hb, hd⟩, haddress⟩
      exact hnever s replies hrun d' reply hmem hself
    · intro hall s' replies' hrun' d reply hmem hself
      obtain ⟨-, rfl⟩ := Prod.mk.inj (Except.ok.inj (hrun.symm.trans hrun'))
      obtain ⟨d', b, hp, haddress⟩ := h.exists_selfPaired_iff.mp ⟨d, reply, hmem, hself⟩
      obtain ⟨i, hi, hb, hd⟩ := Pairing.mem_pair_partner_iff.mp hp
      exact hall i b d' hi hb hd haddress
  exact ⟨hiff, fun hnodup => hiff.mpr fun i b d _ hb hd => ne_of_nodup hnodup hb hd⟩

/-- A request from 127.0.0.1 for port 10045 that is delivered twice. -/
theorem not_neverSelfPaired :
    ¬ NeverSelfPaired [⟨[0x4a, 0x6f, 0x79, 0x21, 0x27, 0x3d, 7], 0x0100007f⟩,
      ⟨[0x4a, 0x6f, 0x79, 0x21, 0x27, 0x3d, 7], 0x0100007f⟩] := by
  intro h
  have hrun : run start [⟨[0x4a, 0x6f, 0x79, 0x21, 0x27, 0x3d, 7], 0x0100007f⟩,
      ⟨[0x4a, 0x6f, 0x79, 0x21, 0x27, 0x3d, 7], 0x0100007f⟩]
      = .ok (⟨false, some 0, some 0⟩, [⟨.registered, registeredResponse 10045⟩,
          ⟨.connect, connectResponse 0x7f000001 10045⟩]) := by
    decide
  exact h _ _ hrun _ _ (List.mem_cons_of_mem _ List.mem_cons_self) ⟨rfl, by decide⟩

end ChatServer

end Lab3

end Comp4320
