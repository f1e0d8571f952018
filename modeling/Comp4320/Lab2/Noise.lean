import Comp4320.Lab2.ReplyCorruption
import Comp4320.Lab2.ServerVerdict
import Comp4320.Lab2.Service

/-!
# A call over a line with noise

A call sends its request up to seven times, and each time the network may overwrite a byte of the
request, and a byte of the reply. The server answers a request that does not verify by an error
code, which is no longer than a header, so the client sends its request again whatever becomes of
the code. An answer with a wrong byte does not verify either, and the client sends its request again
too.

There are two exceptions. The checksum does not tell zero from 255; only the magic number and the
length field of a request are compared with something else as well. And the client believes the
length field of an answer, so a wrong byte there may end the call by an exception, or go unnoticed.
Apart from these, a call over such a line prints the right addresses, as soon as one exchange among
the first seven goes through, or nothing.

## What is left out

Datagrams that are lost: the client has no timeout, and waits for good.

## Main definitions

* `Noise`, `Noise.Noticed` — what the network does to an exchange, and when that is noticed
* `received` — what a call receives

## Main results

* `execute_of_noticed` — what a call prints, and how often it sends its request
-/

namespace Comp4320

namespace Lab2

open ServerUDP

/-! ### Noise -/

/-- What the network overwrites in an exchange: a byte of the request and a byte of the reply, if
any, and by what. -/
structure Noise where
  request : Option (ℕ × UInt8)
  reply : Option (ℕ × UInt8)
  deriving DecidableEq, Repr

/-- What arrives of a datagram. -/
def overwritten (d : List UInt8) : Option (ℕ × UInt8) → List UInt8
  | none => d
  | some (p, b) => d.set p b

/-- One of the two bytes that mean zero stands for the other. -/
def Swapped (b c : UInt8) : Prop := b = 0 ∧ c = 255 ∨ b = 255 ∧ c = 0

instance (b c : UInt8) : Decidable (Swapped b c) := inferInstanceAs (Decidable (_ ∨ _))

/-- An exchange of a call goes through. -/
def Noise.Clean (resolve : List UInt8 → Option UInt32) (c : Call) (n : Noise) : Prop :=
  overwritten c.request n.request = c.request ∧
    overwritten (c.answer resolve) n.reply = c.answer resolve

instance (resolve : List UInt8 → Option UInt32) (c : Call) :
    DecidablePred (Noise.Clean resolve c) := fun _ => inferInstanceAs (Decidable (_ ∧ _))

/-- If an exchange does not go through, the server or the client notices. -/
structure Noise.Noticed (resolve : List UInt8 → Option UInt32) (c : Call) (n : Noise) : Prop where
  /-- No zero is swapped behind the length field of the request. -/
  request : ∀ p b b', n.request = some (p, b') → c.request[p]? = some b → 6 ≤ p → ¬ Swapped b b'
  /-- No zero is swapped in the answer, and its length field is left alone. -/
  reply : ∀ p b b', n.reply = some (p, b') → (c.answer resolve)[p]? = some b → b ≠ b' →
    p ≠ 4 ∧ p ≠ 5 ∧ ¬ Swapped b b'

/-- One exchange: the client sends the request of a call, the server replies, and the client
receives what is left of the reply. -/
def exchange (resolve : List UInt8 → Option UInt32) (c : Call) (buf : ClientRequest) (n : Noise) :
    Option (ClientRequest × List UInt8) :=
  (serve resolve buf (overwritten c.request n.request)).map fun p =>
    (p.1, overwritten p.2 n.reply)

/-- What a call receives, if it keeps sending its request. -/
def received (resolve : List UInt8 → Option UInt32) (c : Call) (buf : ClientRequest) :
    List Noise → Option (List (List UInt8))
  | [] => some []
  | n :: ns => (exchange resolve c buf n).bind fun p =>
      (received resolve c p.1 ns).map (p.2 :: ·)

/-! ### What arrives -/

variable {resolve : List UInt8 → Option UInt32} {c : Call} {n : Noise} {ns : List Noise}
  {d : List UInt8} {o : Option (ℕ × UInt8)} {buf : ClientRequest}

theorem length_overwritten (d : List UInt8) (o : Option (ℕ × UInt8)) :
    (overwritten d o).length = d.length := by
  rcases o with _ | ⟨p, b⟩
  · rfl
  · exact List.length_set

/-- What does not arrive as it was sent differs in one byte. -/
theorem exists_differsAt (h : overwritten d o ≠ d) :
    ∃ p b b', o = some (p, b') ∧ DiffersAt d (overwritten d o) p b b' := by
  rcases o with _ | ⟨p, b'⟩
  · exact absurd rfl h
  · cases hb : d[p]? with
    | none => exact absurd (List.set_eq_of_length_le (List.getElem?_eq_none_iff.mp hb)) h
    | some b =>
      refine ⟨p, b, b', rfl, .of_set hb ?_⟩
      rintro rfl
      obtain ⟨hlt, rfl⟩ := List.getElem?_eq_some_iff.mp hb
      exact h (List.set_getElem_self hlt)

theorem Call.length_request (c : Call) :
    9 ≤ c.request.length ∧ c.request.length ≤ 4105 := by
  have hlen : c.request.length = (LengthPrefix.encode c.hosts).length + 9 :=
    Packet.length_stamped ..
  have htotal := c.total_le
  omega

theorem Call.request_wellFormed (c : Call) : Packet.WellFormed c.request :=
  Packet.stamped_wellFormed _ (by have htotal := c.total_le; omega)

theorem Call.answer_isAnswer (resolve : List UInt8 → Option UInt32) (c : Call) :
    ClientUDP.Answer (c.answer resolve) := by
  refine ClientUDP.answer_stamped _ c.hosts_ne c.hosts_le ?_
  rw [ByteOrder.length_flatMap_image32, List.length_map]

/-- **A request that arrives wrong is answered by an error code.** -/
theorem exists_serve_overwritten (hn : n.Noticed resolve c)
    (hrequest : overwritten c.request n.request ≠ c.request) (buf : ClientRequest) :
    ∃ buf' r, serve resolve buf (overwritten c.request n.request) = some (buf', r) ∧
      r.length = 9 := by
  obtain ⟨p, b, b', ho, hd⟩ := exists_differsAt hrequest
  obtain ⟨hmin, hmax⟩ := c.length_request
  have hlen := length_overwritten c.request n.request
  have hrejected : (processed buf (overwritten c.request n.request)).error ≠ 0 := by
    rw [Ne, error_eq_zero_iff_wellFormed (by omega) (by omega),
      c.request_wellFormed.differsAt_iff (by omega) hd]
    exact fun ⟨hp, hswapped⟩ => hn.request p b b' ho hd.before hp hswapped
  refine ⟨processed buf (overwritten c.request n.request),
    Packet.stamped (processed buf (overwritten c.request n.request)).error [], ?_,
    Packet.length_stamped ..⟩
  rw [serve, runStep_rejected _ hrejected]
  rfl

/-- **An answer that arrives wrong is not accepted**, and raises nothing. -/
theorem attempt_overwritten (hn : n.Noticed resolve c)
    (hreply : overwritten (c.answer resolve) n.reply ≠ c.answer resolve) :
    ClientUDP.attempt (overwritten (c.answer resolve) n.reply) = .ok none := by
  obtain ⟨p, b, b', ho, hd⟩ := exists_differsAt hreply
  obtain ⟨h4, h5, hswapped⟩ := hn.reply p b b' ho hd.before hd.ne
  have hanswer := c.answer_isAnswer resolve
  obtain ⟨k, -, hk, hlen⟩ := hanswer.addresses
  obtain ⟨hhigh, low, hlow, hlength⟩ := hanswer.tml_bytes
  have html : ClientUDP.tmlField (overwritten (c.answer resolve) n.reply)
      = (c.answer resolve).length := by
    rw [ClientUDP.tmlField_eq ((hd.same 4 h4.symm).trans hhigh) ((hd.same 5 h5.symm).trans hlow),
      hlength, UInt8.toNat_zero, Nat.mul_zero, Nat.zero_add]
  rw [ClientUDP.attempt_eq_none_iff (by rw [hd.length_eq]; omega)]
  refine ⟨fun hmalformed => ?_, ClientUDP.not_acceptable_of_tml_eq hanswer hd hswapped h4 h5⟩
  have hfield := hmalformed.2
  rw [html, hd.length_eq] at hfield
  omega

theorem attempt_answer (resolve : List UInt8 → Option UInt32) (c : Call) :
    ClientUDP.attempt (c.answer resolve)
      = .ok (some (ClientUDP.responseOf (c.answer resolve))) := by
  have hanswer := c.answer_isAnswer resolve
  obtain ⟨k, hpos, hk, hlen⟩ := hanswer.addresses
  rw [ClientUDP.attempt_eq (by omega), ClientUDP.trial_of_wellFormed hanswer.wellFormed (by omega)]

/-- What becomes of an exchange: the answer arrives, or something that the client sends its request
again for. -/
theorem exists_exchange (hn : n.Noticed resolve c) (buf : ClientRequest) :
    ∃ buf' r, exchange resolve c buf n = some (buf', r) ∧
      (n.Clean resolve c → r = c.answer resolve) ∧
      (¬ n.Clean resolve c → ClientUDP.attempt r = .ok none) := by
  by_cases hrequest : overwritten c.request n.request = c.request
  · obtain ⟨buf', hserve⟩ := c.serve_request resolve buf
    refine ⟨buf', overwritten (c.answer resolve) n.reply, ?_, fun h => h.2, fun h => ?_⟩
    · rw [exchange, hrequest, hserve]
      rfl
    · exact attempt_overwritten hn fun hreply => h ⟨hrequest, hreply⟩
  · obtain ⟨buf', r, hserve, hlen⟩ := exists_serve_overwritten hn hrequest buf
    refine ⟨buf', overwritten r n.reply, ?_, fun h => absurd h.1 hrequest, fun _ => ?_⟩
    · rw [exchange, hserve]
      rfl
    · have hlen' := length_overwritten r n.reply
      rw [ClientUDP.attempt_eq (by omega), ClientUDP.trial_of_length_le (by omega)]

/-- What a call receives, exchange by exchange. -/
theorem exists_received (hns : ∀ n ∈ ns, n.Noticed resolve c) (buf : ClientRequest) :
    ∃ inbox, received resolve c buf ns = some inbox ∧ inbox.length = ns.length ∧
      ∀ (i : ℕ) n, ns[i]? = some n → ∃ r, inbox[i]? = some r ∧
        (n.Clean resolve c → r = c.answer resolve) ∧
        (¬ n.Clean resolve c → ClientUDP.attempt r = .ok none) := by
  induction ns generalizing buf with
  | nil => exact ⟨[], rfl, rfl, fun i n hn => absurd hn (by simp)⟩
  | cons n ns ih =>
    obtain ⟨buf', r, hexchange, hr⟩ := exists_exchange (hns n List.mem_cons_self) buf
    obtain ⟨inbox, hinbox, hlen, hall⟩ := ih (fun m hm => hns m (List.mem_cons_of_mem n hm)) buf'
    refine ⟨r :: inbox, ?_, congrArg (· + 1) hlen, fun i m hm => ?_⟩
    · rw [received, hexchange, Option.bind_some, hinbox]
      rfl
    · cases i with
      | zero =>
        obtain rfl : n = m := Option.some.inj hm
        exact ⟨r, rfl, hr⟩
      | succ i => exact hall i m hm

/-! ### What the call makes of it -/

/-- How often a call sends its request, and whether it gets an answer. -/
def outcome (resolve : List UInt8 → Option UInt32) (c : Call) (ns : List Noise) :
    ClientUDP.Outcome :=
  match (ns.take 7).findIdx? fun n => decide (n.Clean resolve c) with
  | some i => .answer (ClientUDP.responseOf (c.answer resolve)) (i + 1)
  | none => if 7 ≤ ns.length then .noAnswer 7 else .blocked (ns.length + 1)

theorem outcome_cases (resolve : List UInt8 → Option UInt32) (c : Call) (ns : List Noise) :
    (∃ n ∈ ns.take 7, n.Clean resolve c) ∧
        (∃ k, outcome resolve c ns = .answer (ClientUDP.responseOf (c.answer resolve)) k) ∨
      (¬ ∃ n ∈ ns.take 7, n.Clean resolve c) ∧
        ((∃ k, outcome resolve c ns = .noAnswer k) ∨ ∃ k, outcome resolve c ns = .blocked k) := by
  rw [outcome]
  cases hfind : (ns.take 7).findIdx? fun n => decide (n.Clean resolve c) with
  | some i =>
    obtain ⟨hi, hclean, -⟩ := List.findIdx?_eq_some_iff_getElem.mp hfind
    exact Or.inl ⟨⟨_, List.getElem_mem hi, of_decide_eq_true hclean⟩, i + 1, rfl⟩
  | none =>
    refine Or.inr ⟨?_, ?_⟩
    · rintro ⟨n, hn, hclean⟩
      exact of_decide_eq_false (List.findIdx?_eq_none_iff.mp hfind n hn) hclean
    · dsimp only
      split_ifs
      · exact Or.inl ⟨7, rfl⟩
      · exact Or.inr ⟨ns.length + 1, rfl⟩

/-- The call ends as it should, having received this. -/
theorem getResponse_received {inbox : List (List UInt8)} (hlen : inbox.length = ns.length)
    (hall : ∀ (i : ℕ) n, ns[i]? = some n → ∃ r, inbox[i]? = some r ∧
      (n.Clean resolve c → r = c.answer resolve) ∧
      (¬ n.Clean resolve c → ClientUDP.attempt r = .ok none)) :
    ClientUDP.getResponse inbox = outcome resolve c ns := by
  have hretried : ∀ k, (∀ i < k, ∀ n ∈ ns[i]?, ¬ n.Clean resolve c) → k ≤ ns.length →
      Retry.Retried ClientUDP.attempt inbox k := by
    intro k hk hle i hi
    have hget : ns[i]? = some ns[i] := List.getElem?_eq_getElem (by omega)
    obtain ⟨r, hr, -, hretry⟩ := hall i _ hget
    exact ⟨r, hr, hretry (hk i hi _ hget)⟩
  rw [ClientUDP.getResponse_eq, outcome]
  cases hfind : (ns.take 7).findIdx? fun n => decide (n.Clean resolve c) with
  | some i =>
    obtain ⟨hi, hclean, hbefore⟩ := List.findIdx?_eq_some_iff_getElem.mp hfind
    rw [List.length_take] at hi
    rw [List.getElem_take, decide_eq_true_eq] at hclean
    obtain ⟨r, hr, hanswer, -⟩ := hall i _ (List.getElem?_eq_getElem (by omega))
    obtain rfl := hanswer hclean
    rw [Retry.loop_eq_accepted (hretried i (fun j hj n hn => ?_) (by omega)) hr (by omega)
      (attempt_answer resolve c)]
    · rfl
    · obtain ⟨hlt, rfl⟩ := List.getElem?_eq_some_iff.mp hn
      have hnot := hbefore j hj
      rwa [List.getElem_take, decide_eq_true_eq] at hnot
  | none =>
    have hnone : ∀ i < 7, ∀ n ∈ ns[i]?, ¬ n.Clean resolve c := by
      intro i hi n hn
      have hmem : n ∈ ns.take 7 :=
        List.mem_of_getElem? (i := i) (by rw [List.getElem?_take_of_lt hi]; exact hn)
      exact of_decide_eq_false (List.findIdx?_eq_none_iff.mp hfind n hmem)
    dsimp only
    split_ifs with hseven
    · rw [Retry.loop_eq_exhausted (hretried 7 hnone hseven)]
      rfl
    · have hshort := hretried ns.length (fun i hi => hnone i (by omega)) le_rfl
      rw [← hlen] at hshort
      rw [Retry.loop_eq_blocked hshort (by omega), hlen]
      rfl

/-- **What a call prints over a line with noise, and how often it sends its request.** Whatever the
network does that is noticed, the server goes on; the call returns at the first exchange that goes
through, if that is one of the first seven, and prints every host with its address; otherwise it
prints nothing. No exception ends it. -/
theorem execute_of_noticed (hns : ∀ n ∈ ns, n.Noticed resolve c) (buf : ClientRequest) :
    ∃ inbox, received resolve c buf ns = some inbox ∧
      ClientUDP.getResponse inbox = outcome resolve c ns ∧
      ClientUDP.execute (some c.id) c.hosts inbox =
        (if ∃ n ∈ ns.take 7, n.Clean resolve c then c.lines resolve else [], none) := by
  obtain ⟨inbox, hinbox, hlen, hall⟩ := exists_received hns buf
  have hresponse := getResponse_received hlen hall
  refine ⟨inbox, hinbox, hresponse, ?_⟩
  have hid := c.id_le
  rw [ClientUDP.execute, if_pos (by omega), c.getPackedMessage_eq, hresponse]
  rcases outcome_cases resolve c ns with ⟨hclean, k, hanswer⟩ | ⟨hnone, hends⟩
  · rw [hanswer, if_pos hclean]
    exact printAddresses_answer resolve (.ofNat c.id) c.hosts
  · rw [if_neg hnone]
    rcases hends with ⟨k, hends⟩ | ⟨k, hends⟩ <;> rw [hends]

/-- The request for `c`, under the number `3`. -/
def callForC : Call :=
  ⟨3, [[99]], by decide, by decide, by decide, by simp, by decide, by decide⟩

/-- First the length of the name arrives wrong, then the first byte of the address. -/
def threeExchanges : List Noise := [⟨some (9, 2), none⟩, ⟨none, some (9, 7)⟩, ⟨none, none⟩]

/-- The third exchange goes through. -/
theorem execute_of_noticed_three_exchanges :
    ∃ inbox, received twoNames callForC (fun _ => 0) threeExchanges = some inbox ∧
      ClientUDP.getResponse inbox = outcome twoNames callForC threeExchanges ∧
      ClientUDP.execute (some callForC.id) callForC.hosts inbox
        = (if ∃ n ∈ threeExchanges.take 7, n.Clean twoNames callForC then
            callForC.lines twoNames else [], none) := by
  have hname : callForC.request[9]? = some 1 := by decide +kernel
  have haddress : (callForC.answer twoNames)[9]? = some 2 := by decide +kernel
  refine execute_of_noticed (fun n hn => ?_) _
  simp only [threeExchanges, List.mem_cons, List.not_mem_nil, or_false] at hn
  rcases hn with rfl | rfl | rfl
  · refine ⟨fun p b b' ho hb _ => ?_, fun p b b' ho => absurd ho (by simp)⟩
    obtain ⟨rfl, rfl⟩ := Prod.mk.inj (Option.some.inj ho)
    obtain rfl := Option.some.inj (hb.symm.trans hname)
    decide
  · refine ⟨fun p b b' ho => absurd ho (by simp), fun p b b' ho hb _ => ?_⟩
    obtain ⟨rfl, rfl⟩ := Prod.mk.inj (Option.some.inj ho)
    obtain rfl := Option.some.inj (hb.symm.trans haddress)
    decide
  · exact ⟨fun p b b' ho => absurd ho (by simp), fun p b b' ho => absurd ho (by simp)⟩

end Lab2

end Comp4320
