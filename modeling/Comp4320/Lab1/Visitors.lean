import Comp4320.Lab1.RequestIds
import Comp4320.Lib.SharedServer

/-!
# Several clients of the UDP server

`ServerUDP.run` answers whoever sends it a datagram, and receives all of them on top of each other.
A datagram that states its length right is read as it was sent, whatever lies behind it in the
buffer, so the clients of the program do not notice each other: each reads the answers it would read
if it were alone with the server. These answers are the first eight bytes of the results, under the
number of the request; the stated length is that of the whole result, so a client that looks at it
knows whether it has read everything.

## What is left out

A datagram that is delivered twice. Here a message arrives once, or is lost; and an iteration that
fails ends the server.

## Main definitions

* `Request.result` — what the operation means
* `Visitor`, `visits` — how far a client has come, and the runs of the server and its clients

## Main results

* `log_of_reachable` — what a client has read is right, in every run
* `exists_log_all` — whatever the others do, clients can come to the ends of their sessions
-/

namespace Comp4320

namespace Lab1

open ServerUDP

/-! ### What the operations mean -/

/-- The result of an operation. -/
def Request.result (r : Request) : List UInt8 :=
  if r.ops = 1 then Cpp.toString (consonants r.msg)
  else if r.ops = 2 then disemvoweled r.msg
  else uppercased r.msg

/-- The exchange a client should have as its `k`th. -/
def Request.exchange (k : ℕ) (r : Request) : Exchange where
  server_msg := .ofNat (r.msg.length + 3) :: .ofNat k :: ClientUDP.opsCode r.ops :: r.msg
  tml := r.result.length + 2
  rid := k
  response := r.result.take 8

/-! ### The system -/

/-- A client: what its user will type in, the request ids used, and what it has read. -/
structure Visitor where
  pending : List Request
  request_id : ℕ
  log : List Exchange
  /-- The exception that has ended it. -/
  failed : Option PyError

namespace Visitor

/-- The datagram for what is typed in next. An operation that is none of the three ends the loop,
and so does an exception. -/
def ask (v : Visitor) : Option (List UInt8) :=
  match v.failed, v.pending with
  | none, r :: _ =>
    if r.ops = 1 ∨ r.ops = 2 ∨ r.ops = 3 then
      (ClientUDP.getPackedMessage v.request_id r.msg r.ops).toOption.map Prod.fst
    else none
  | _, _ => none

/-- The rest of a pass of the loop of `ClientUDP.run`, from `recvfrom` on. -/
def hear (v : Visitor) (datagram : List UInt8) : Visitor :=
  match v.pending with
  | [] => v
  | r :: rest =>
    match ClientUDP.getPackedMessage v.request_id r.msg r.ops, ClientUDP.getResponse datagram with
    | .ok (server_msg, request_id), .ok (tml, rid, response) =>
      { v with
        pending := rest
        request_id := request_id
        log := v.log ++ [⟨server_msg, tml, rid, response⟩] }
    | .error e, _ | _, .error e => { v with failed := some e }

/-- A client that has just been started. -/
def start (requests : List Request) : Visitor := ⟨requests, 0, [], none⟩

end Visitor

/-- An iteration of the server, as far as it can be seen from outside. No request has its `error`
set, so something is sent whenever the iteration does not fail. -/
def serve (buffer : Memory) (datagram : List UInt8) : Option (Memory × List UInt8) :=
  match runStep buffer datagram with
  | (buffer, .ok (some response)) => some (buffer, response.image)
  | (_, .ok none) | (_, .error _) => none

/-- A client of the program, or somebody else, who sends datagrams. -/
abbrev Sender := Guest Visitor (List UInt8) (List UInt8)

/-- The client whose user types in these requests. -/
def visitor (requests : List Request) : Sender := .own (.start requests)

/-- The server, the clients, and the datagrams between them. -/
abbrev Visits (ι : Type) := Shared ι Memory (Visitor ⊕ List (List UInt8)) (List UInt8) (List UInt8)

/-- The runs of the server and its clients. -/
def visits {ι : Type} [DecidableEq ι] (senders : ι → Sender) : System (Visits ι) (Turn ι) :=
  hosting serve ⟨Visitor.ask, Visitor.hear⟩ senders

/-! ### The requests of the program -/

variable {requests : List Request} {r : Request} {v : Visitor} {d : List UInt8} {buffer : Memory}

/-- An iteration that does not fail sends something. -/
theorem answer_ne_ok_none (buffer : Memory) : answer buffer ≠ .ok none := by
  cases hparse : parse buffer with
  | error e =>
    have hanswer : answer buffer = .error e := by
      rw [answer, hparse]
      rfl
    rw [hanswer]
    simp
  | ok req =>
    have herror : req.error = 0 := by
      by_cases hlen : signedChar (buffer 0) < 3
      · rw [parse_eq_error hlen] at hparse
        exact absurd hparse (by simp)
      · rw [parse_eq_ok (by omega)] at hparse
        rw [← Except.ok.inj hparse]
    rw [answer_of_parse hparse herror]
    cases respond req <;> simp [Except.map]

/-- **What the operations compute is what they mean.** -/
theorem respond_packed (hops : r.ops = 1 ∨ r.ops = 2 ∨ r.ops = 3) (msgLength requestID error : ℤ) :
    respond ⟨msgLength, requestID, signedChar (ClientUDP.opsCode r.ops), r.msg, error⟩
      = .ok r.result := by
  rw [respond, Request.result]
  rcases hops with h | h | h <;> rw [h]
  · exact congrArg Except.ok (getCLength_eq r.msg)
  · exact congrArg Except.ok (disemvoweling_eq r.msg)
  · rfl

/-- The result of a supported request is not longer than a byte can say. -/
theorem Request.Supported.length_result (h : r.Supported) : r.result.length ≤ 253 := by
  have hresponse := respond_packed h.ops 0 0 0
  have hlen := h.length
  exact length_respond_le hresponse (show r.msg.length ≤ 253 by omega)

/-- The datagram a client sends for its `k`th request. -/
theorem serve_packed (buffer : Memory) (h : r.Supported) (rid : UInt8) :
    serve buffer (.ofNat (r.msg.length + 3) :: rid :: ClientUDP.opsCode r.ops :: r.msg)
      = some
          (recvfrom buffer (.ofNat (r.msg.length + 3) :: rid :: ClientUDP.opsCode r.ops :: r.msg),
            (packResult (signedChar rid) r.result).image) := by
  have hparse := parse_packed buffer rid (ClientUDP.opsCode r.ops) h.length
  have hanswer := answer_of_parse hparse rfl
  dsimp only at hanswer
  rw [respond_packed h.ops] at hanswer
  rw [serve, runStep, hanswer]
  rfl

/-- What the server sends back if its buffer is clear. -/
def reply (d : List UInt8) : List UInt8 := ((serve (fun _ => 0) d).map Prod.snd).getD []

/-- A datagram of the program. -/
def Packed (d : List UInt8) : Prop :=
  ∃ (r : Request) (rid : UInt8), r.Supported ∧
    d = .ofNat (r.msg.length + 3) :: rid :: ClientUDP.opsCode r.ops :: r.msg

/-- **The requests of the program are answered whatever the buffer holds.** -/
theorem answers_serve : Shared.Answers serve Packed reply := by
  rintro buffer d ⟨r, rid, hr, rfl⟩
  exact ⟨_, by rw [reply, serve_packed _ hr, serve_packed _ hr]; rfl⟩

/-! ### What is read -/

/-- What has been read is right, and what has not been read is still to come. -/
structure Visitor.Right (requests : List Request) (v : Visitor) : Prop where
  made : ∃ made, requests = made ++ v.pending ∧ v.log = made.mapIdx Request.exchange ∧
    v.request_id = made.length
  request_id : v.request_id ≤ 256
  failed : v.failed = none

/-- What a client sends that has supported requests before it. -/
theorem Visitor.exists_of_ask (hsupported : ∀ r ∈ v.pending, r.Supported) (h : v.ask = some d) :
    ∃ r rest, v.pending = r :: rest ∧ v.request_id ≤ 255 ∧
      d = .ofNat (r.msg.length + 3) :: .ofNat v.request_id :: ClientUDP.opsCode r.ops :: r.msg := by
  rw [Visitor.ask] at h
  split at h
  · rename_i r rest hfailed hpending
    have hr := hsupported r (by rw [hpending]; exact List.mem_cons_self)
    have hlen := hr.length
    rw [if_pos hr.ops] at h
    rcases Nat.lt_or_ge 255 v.request_id with hlast | hfits
    · rw [ClientUDP.getPackedMessage_eq_error r.ops hr.ascii (by omega) hlast] at h
      exact absurd h (by simp [Except.toOption])
    · rw [ClientUDP.getPackedMessage_eq r.ops hr.ascii (by omega) hfits] at h
      exact ⟨r, rest, hpending, hfits, (Option.some.inj h).symm⟩
  · exact absurd h (by simp)

/-- A client that receives its answer has read the right exchange. -/
theorem Visitor.hear_reply {rest : List Request} (hr : r.Supported) (hid : v.request_id ≤ 255)
    (hpending : v.pending = r :: rest) :
    v.hear (packResult (signedChar (.ofNat v.request_id)) r.result).image = { v with
      pending := rest
      request_id := v.request_id + 1
      log := v.log ++ [r.exchange v.request_id] } := by
  have hlen := hr.length
  have hback : (signedChar (UInt8.ofNat v.request_id) % 256).toNat = v.request_id := by
    rw [signedChar_emod, UInt8.toNat_ofNat']
    omega
  have htake : r.result.take (min 8 r.result.length) = r.result.take 8 := by
    rw [← List.take_take, List.take_length]
  rw [Visitor.hear, hpending]
  dsimp only
  rw [ClientUDP.getPackedMessage_eq r.ops hr.ascii (by omega) hid,
    getResponse_image _ hr.length_result, hback, htake]
  rfl

/-- A client that is alone reads what is right. -/
theorem Visitor.right_of_alone (hsupported : ∀ r ∈ requests, r.Supported)
    (h : Asker.Alone ⟨Visitor.ask, Visitor.hear⟩ reply (.start requests) v) :
    v.Right requests := by
  refine h.invariant ⟨⟨[], rfl, rfl, rfl⟩, Nat.zero_le _, rfl⟩ fun v d hv hask => ?_
  obtain ⟨⟨made, hrequests, hlog, hid⟩, -, hfailed⟩ := hv
  obtain ⟨r, rest, hpending, hfits, rfl⟩ := Visitor.exists_of_ask (fun r hr =>
    hsupported r (by rw [hrequests]; exact List.mem_append_right made hr)) hask
  have hr : r.Supported := hsupported r (by rw [hrequests, hpending]; simp)
  dsimp only
  rw [reply, serve_packed _ hr, Option.map_some, Option.getD_some,
    Visitor.hear_reply hr hfits hpending]
  refine ⟨⟨made ++ [r], ?_, ?_, ?_⟩, Nat.succ_le_succ hfits, hfailed⟩
  · rw [hrequests, hpending, List.append_assoc]
    rfl
  · rw [List.mapIdx_concat, ← hlog, hid]
  · rw [List.length_append, List.length_singleton, hid]

/-- What a client that is alone asks for has been packed. -/
theorem Visitor.packed_of_alone (hsupported : ∀ r ∈ requests, r.Supported)
    (h : Asker.Alone ⟨Visitor.ask, Visitor.hear⟩ reply (.start requests) v)
    (hask : v.ask = some d) : Packed d := by
  obtain ⟨made, hrequests, -⟩ := (Visitor.right_of_alone hsupported h).made
  have hpending : ∀ r ∈ v.pending, r.Supported := fun r hr =>
    hsupported r (by rw [hrequests]; exact List.mem_append_right made hr)
  obtain ⟨r, rest, hr, -, rfl⟩ := Visitor.exists_of_ask hpending hask
  exact ⟨r, _, hpending r (by rw [hr]; exact List.mem_cons_self), rfl⟩

variable {ι : Type} [DecidableEq ι] {senders : ι → Sender} {i : ι} {s : Visits ι}

theorem right_of_reachable (h : (visits senders).Reachable s) (hi : senders i = visitor requests)
    (hsupported : ∀ r ∈ requests, r.Supported) :
    ∃ v, s.client i = .inl v ∧ v.Right requests := by
  obtain ⟨v, hv, halone⟩ := Shared.own_of_reachable answers_serve hi
    (fun _ halone _ hask => Visitor.packed_of_alone hsupported halone hask) h
  exact ⟨v, hv, Visitor.right_of_alone hsupported halone⟩

/-- **What a client has read is right, in every run.** Its answers are those to its first requests,
each under the number of the request, with the length of the result and the first eight bytes of it;
whatever has been lost, and whoever else has asked the server, and for what. -/
theorem log_of_reachable (h : (visits senders).Reachable s) (hi : senders i = visitor requests)
    (hsupported : ∀ r ∈ requests, r.Supported) :
    ∃ v made, s.client i = .inl v ∧ requests = made ++ v.pending ∧ made.length ≤ 256 ∧
      v.log = made.mapIdx Request.exchange := by
  obtain ⟨v, hv, ⟨made, hrequests, hlog, hid⟩, hle, -⟩ := right_of_reachable h hi hsupported
  exact ⟨v, made, hv, hrequests, hid ▸ hle, hlog⟩

/-- One client with two requests, and somebody who keeps asking for the end of the error text. -/
def visitorAndOther : Bool → Sender
  | false => visitor [⟨[104, 105], 2⟩, ⟨[104, 105], 1⟩]
  | true => .other fun _ => some [3, 1, 20]

/-- Nobody has asked for anything. -/
def visitorAndOtherStart : Visits Bool :=
  ⟨some fun _ => 9, fun i => (visitorAndOther i).start, fun _ => .ready⟩

theorem visitorAndOtherStart_reachable {C : Visits Bool → Turn Bool → Prop} :
    (visits visitorAndOther).ReachableUnder C visitorAndOtherStart :=
  .init ⟨rfl, rfl, fun _ => rfl⟩

theorem supported_two_requests :
    ∀ r ∈ [⟨[104, 105], 2⟩, (⟨[104, 105], 1⟩ : Request)], r.Supported :=
  List.forall_mem_cons.mpr ⟨supported_hi, List.forall_mem_singleton.mpr
    ⟨by decide, by decide +kernel, by decide⟩⟩

/-- The first answer is read, although the server has been asked for something else in between. -/
theorem log_of_visitor_and_other : ∃ s, (visits visitorAndOther).Reachable s ∧
    (s.client false).elim (·.log) (fun _ => []) = [⟨[5, 0, 0x50, 104, 105], 3, 0, [104]⟩] ∧
    ∃ v made, s.client false = .inl v ∧
      [⟨[104, 105], 2⟩, (⟨[104, 105], 1⟩ : Request)] = made ++ v.pending ∧ made.length ≤ 256 ∧
        v.log = made.mapIdx Request.exchange := by
  have hrun : ((visits visitorAndOther).run visitorAndOtherStart [.ask false, .ask true,
      .serve true, .serve false, .hear false, .hear true, .ask true]).map
        (fun s => (s.client false).elim (·.log) fun _ => [])
      = some [⟨[5, 0, 0x50, 104, 105], 3, 0, [104]⟩] := by
    decide +kernel
  obtain ⟨s, hs, hlog⟩ := Option.map_eq_some_iff.mp hrun
  have hreach := System.reachable_of_run visitorAndOtherStart_reachable hs
  exact ⟨s, hreach, hlog, log_of_reachable hreach rfl supported_two_requests⟩

/-! ### That everything is read -/

/-- How many answers a client may still receive. -/
def Visitor.rank (v : Visitor) : ℕ := if v.failed = none then v.pending.length else 0

theorem Visitor.rank_lt {datagram : List UInt8} (h : v.ask = some d) :
    (v.hear datagram).rank < v.rank := by
  rw [Visitor.ask] at h
  split at h
  · rename_i r rest hfailed hpending
    rw [Visitor.hear, hpending]
    dsimp only
    have hrank : v.rank = rest.length + 1 := by
      rw [Visitor.rank, if_pos hfailed, hpending, List.length_cons]
    rw [hrank]
    split
    · rw [Visitor.rank, if_pos hfailed]
      exact Nat.lt_succ_self _
    · exact Nat.succ_pos _
    · exact Nat.succ_pos _
  · exact absurd h (by simp)

/-- A sound datagram is answered. -/
theorem serve_ne_none (buffer : Memory) (hd : d.length ≤ 1024) (h : Sound d) :
    serve buffer d ≠ none := by
  have hendures := (endures_iff buffer hd).mpr h
  have hraises := hendures.raises
  have hindexes := hendures.indexes
  have hok := answer_ne_ok_none (recvfrom buffer d)
  rw [runStep] at hraises hindexes
  rw [serve, runStep]
  cases hanswer : answer (recvfrom buffer d) with
  | ok response =>
    cases response with
    | none => exact absurd hanswer hok
    | some response => exact Option.some_ne_none _
  | error e =>
    rw [hanswer] at hraises hindexes
    cases e with
    | lengthError => exact absurd rfl hraises
    | outOfBounds => exact absurd rfl hindexes

/-- A client that has nothing more to send has made all its requests, or has run out of numbers. -/
theorem Visitor.Right.made_of_ask (hv : v.Right requests)
    (hsupported : ∀ r ∈ requests, r.Supported) (h : v.ask = none) :
    v.log = (requests.take 256).mapIdx Request.exchange := by
  obtain ⟨⟨made, hrequests, hlog, hid⟩, hle, hfailed⟩ := hv
  cases hpending : v.pending with
  | nil =>
    rw [hpending, List.append_nil] at hrequests
    rw [hrequests, List.take_of_length_le (by omega)]
    exact hlog
  | cons r rest =>
    have hr : r.Supported := hsupported r (by rw [hrequests, hpending]; simp)
    have hlen := hr.length
    have hlast : v.request_id = 256 := by
      by_contra hne
      rw [Visitor.ask, hfailed, hpending] at h
      dsimp only at h
      rw [if_pos hr.ops, ClientUDP.getPackedMessage_eq r.ops hr.ascii (by omega) (by omega)] at h
      exact absurd h (by simp [Except.toOption])
    rw [hrequests, List.take_left' (by omega)]
    exact hlog

/-- **Whatever the others do, clients can come to the ends of their sessions**, if nothing of theirs
is lost and nobody sends what the server cannot answer: after all their requests, or after the first
256 of them. -/
theorem exists_log_all (K : Finset ι) (program : ι → List Request)
    (hK : ∀ i ∈ K, senders i = visitor (program i))
    (hsenders : ∀ i, (∃ requests, senders i = visitor requests ∧ ∀ r ∈ requests, r.Supported) ∨
      ∃ next, senders i = .other next ∧
        ∀ received d, next received = some d → d.length ≤ 1024 ∧ Sound d)
    (h : (visits senders).ReachableUnder (Shared.Keeps K) s) :
    ∃ s', (visits senders).Leads (Shared.Own K) s s' ∧ ∀ i ∈ K, ∃ v, s'.client i = .inl v ∧
      v.log = ((program i).take 256).mapIdx Request.exchange := by
  have hsupported : ∀ i requests, senders i = visitor requests → ∀ r ∈ requests, r.Supported := by
    intro i requests hi
    rcases hsenders i with ⟨requests', hi', hsupported⟩ | ⟨next, hi', -⟩
    · have hstart := Guest.own.inj (hi.symm.trans hi')
      obtain rfl : requests = requests' := congrArg Visitor.pending hstart
      exact hsupported
    · exact absurd (hi.symm.trans hi') (by simp [visitor])
  have hpacked : ∀ i start, senders i = .own start → ∀ v,
      Asker.Alone ⟨Visitor.ask, Visitor.hear⟩ reply start v → ∀ d, v.ask = some d → Packed d := by
    intro i start hi v halone d hask
    rcases hsenders i with ⟨requests, hi', hr⟩ | ⟨next, hi', -⟩
    · obtain rfl := Guest.own.inj (hi.symm.trans hi')
      exact Visitor.packed_of_alone hr halone hask
    · exact absurd (hi.symm.trans hi') (by simp)
  have hothers : ∀ i next, senders i = .other next → ∀ received d, next received = some d →
      ∀ buffer, serve buffer d ≠ none := by
    intro i next hi received d hd buffer
    rcases hsenders i with ⟨requests, hi', -⟩ | ⟨next', hi', hnext⟩
    · exact absurd (hi.symm.trans hi') (by simp [visitor])
    · obtain rfl := Guest.other.inj (hi.symm.trans hi')
      obtain ⟨hlen, hsound⟩ := hnext received d hd
      exact serve_ne_none buffer hlen hsound
  obtain ⟨s', hleads, hdone⟩ := Shared.exists_own_done K (fun i hi => ⟨_, hK i hi⟩) answers_serve
    hpacked hothers (fun _ _ _ hask => Visitor.rank_lt hask) h
  refine ⟨s', hleads, fun i hi => ?_⟩
  have hs' : (visits senders).Reachable s' :=
    (h.leads (hleads.mono fun _ _ he i _ => he.2 i)).reachable
  obtain ⟨v, hv, hnone⟩ := hdone i hi
  obtain ⟨v', hv', hright⟩ := right_of_reachable hs' (hK i hi) (hsupported i _ (hK i hi))
  obtain rfl := Sum.inl.inj (hv.symm.trans hv')
  exact ⟨v, hv, hright.made_of_ask (hsupported i _ (hK i hi)) hnone⟩

/-- The client reads both of its answers, and the other one does not matter. -/
theorem exists_log_all_visitor_and_other : ∃ s v,
    (visits visitorAndOther).Leads (Shared.Own {false}) visitorAndOtherStart s ∧
      s.client false = .inl v ∧
      v.log = (List.take 256 [⟨[104, 105], 2⟩, (⟨[104, 105], 1⟩ : Request)]).mapIdx
        Request.exchange := by
  have hsenders : ∀ i, (∃ requests, visitorAndOther i = visitor requests ∧
      ∀ r ∈ requests, r.Supported) ∨ ∃ next, visitorAndOther i = .other next ∧
        ∀ received d, next received = some d → d.length ≤ 1024 ∧ Sound d := by
    intro i
    cases i with
    | false => exact Or.inl ⟨_, rfl, supported_two_requests⟩
    | true =>
      refine Or.inr ⟨_, rfl, fun received d hd => ?_⟩
      obtain rfl := Option.some.inj hd
      exact ⟨by decide, ⟨by decide, by decide, by decide⟩, by decide⟩
  obtain ⟨s, hleads, hlog⟩ := exists_log_all {false}
    (fun _ => [⟨[104, 105], 2⟩, ⟨[104, 105], 1⟩])
    (fun i hi => by rw [Finset.mem_singleton.mp hi]; rfl) hsenders visitorAndOtherStart_reachable
  obtain ⟨v, hv, hlines⟩ := hlog false (Finset.mem_singleton_self _)
  exact ⟨s, v, hleads, hv, hlines⟩

end Lab1

end Comp4320
