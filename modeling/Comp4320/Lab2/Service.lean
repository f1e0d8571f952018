import Comp4320.Lab2.Sessions
import Comp4320.Lab2.RetryLoop
import Comp4320.Lib.SharedServer

/-!
# Several clients

The server answers whoever sends it a datagram, and all of them share its one buffer, which is never
cleared. A client of the program makes one call of `execute` after the other. It packs a request,
sends it, and waits for a reply; it sends the same request again if the reply is no answer, and
prints the addresses if it is one. Other programs may send the server what they like.

The requests of the program are answered by the same packet whatever the buffer holds. So a client
need not know of the others: in every run it prints what it would print if it were alone, which is
the right address for every host, as long as the answers of nobody overflow the array of the server.

## What is left out

A datagram that is delivered twice, which is what `Sessions` is about: the client would take the
second copy for the answer to its next request. Here a message arrives once, or is lost. An overflow
ends the server.

## Main definitions

* `Client`, `Progress` — who asks the server, and how far a client has come
* `clients` — the server and its clients, and the runs they make

## Main results

* `printed_of_reachable` — whatever is printed is right, in every run
* `exists_printed_all` — whatever the others do, clients can print everything
-/

namespace Comp4320

namespace Lab2

open ServerUDP

/-! ### The system -/

/-- How far a client has come. -/
structure Progress where
  /-- The calls that have not returned; the first one may be in `get_response`. -/
  pending : List Call
  /-- What `recvfrom` has returned to it. -/
  inbox : List (List UInt8)
  /-- The calls that have returned, with the lines each has printed. -/
  printed : List (Call × List ClientUDP.Line)
  /-- An exception has ended the client. -/
  crashed : Bool

namespace Progress

/-- The request of the call in progress, or of the next one. -/
def ask (g : Progress) : Option (List UInt8) :=
  if g.crashed then none
  else
    match g.pending with
    | [] => none
    | c :: _ => (ClientUDP.getPackedMessage c.id c.hosts).toOption

/-- The call in progress receives a reply: it sends its request again, or it returns. -/
def hear (g : Progress) (reply : List UInt8) : Progress :=
  match g.pending with
  | [] => g
  | c :: rest =>
    match ClientUDP.getResponse (g.inbox ++ [reply]) with
    | .blocked _ => { g with inbox := g.inbox ++ [reply] }
    | _ =>
      let r := ClientUDP.execute (some c.id) c.hosts (g.inbox ++ [reply])
      ⟨rest, [], g.printed ++ [(c, r.1)], r.2.isSome⟩

/-- No call has been made. -/
def start (calls : List Call) : Progress := ⟨calls, [], [], false⟩

end Progress

/-- A client of the program, or somebody else, who sends datagrams. -/
abbrev Client := Guest Progress (List UInt8) (List UInt8)

/-- The client that makes these calls. -/
def caller (calls : List Call) : Client := .own (.start calls)

/-- The server, the clients, and the datagrams between them. -/
abbrev Serving (ι : Type) :=
  Shared ι ClientRequest (Progress ⊕ List (List UInt8)) (List UInt8) (List UInt8)

/-- An iteration of the server, as far as it can be seen from outside. -/
def serve (resolve : List UInt8 → Option UInt32) (buf : ClientRequest) (datagram : List UInt8) :
    Option (ClientRequest × List UInt8) :=
  (runStep (ofName resolve) buf datagram).map fun p => (p.1, p.2.packet)

/-- The runs of the server and its clients. -/
def clients {ι : Type} [DecidableEq ι] (resolve : List UInt8 → Option UInt32) (cs : ι → Client) :
    System (Serving ι) (Turn ι) :=
  hosting (serve resolve) ⟨Progress.ask, Progress.hear⟩ cs

/-- The lines of a call that has gone right. -/
def Call.lines (resolve : List UInt8 → Option UInt32) (c : Call) : List ClientUDP.Line :=
  c.hosts.map fun host => .address host (shown resolve host)

/-! ### The requests of the program -/

variable {resolve : List UInt8 → Option UInt32} {calls : List Call} {g : Progress}
  {d : List UInt8}

/-- What the server sends back if its buffer is clear. -/
def reply (resolve : List UInt8 → Option UInt32) (d : List UInt8) : List UInt8 :=
  ((serve resolve (fun _ => 0) d).map Prod.snd).getD []

theorem Call.serve_request (resolve : List UInt8 → Option UInt32) (c : Call) (buf : ClientRequest) :
    ∃ buf', serve resolve buf c.request = some (buf', c.answer resolve) := by
  obtain ⟨b, lookups, hstep⟩ := c.runStep_request resolve buf
  exact ⟨b, by rw [serve, hstep]; rfl⟩

theorem Call.reply_request (resolve : List UInt8 → Option UInt32) (c : Call) :
    reply resolve c.request = c.answer resolve := by
  obtain ⟨b, hserve⟩ := c.serve_request resolve fun _ => 0
  rw [reply, hserve]
  rfl

/-- **The requests of the program are answered whatever the buffer holds.** -/
theorem answers_serve (resolve : List UInt8 → Option UInt32) :
    Shared.Answers (serve resolve) (fun d => ∃ c : Call, d = c.request) (reply resolve) := by
  rintro buf d ⟨c, rfl⟩
  rw [c.reply_request]
  exact c.serve_request resolve buf

/-- What a caller asks for is the request of its first call. -/
theorem Progress.exists_of_ask (h : g.ask = some d) :
    ∃ c rest, g.pending = c :: rest ∧ d = c.request ∧ g.crashed = false := by
  rw [Progress.ask] at h
  split_ifs at h with hcrashed
  cases hpending : g.pending with
  | nil =>
    rw [hpending] at h
    exact absurd h (by simp)
  | cons c rest =>
    rw [hpending] at h
    simp only [c.getPackedMessage_eq] at h
    exact ⟨c, rest, rfl, (Option.some.inj h).symm, by simpa using hcrashed⟩

theorem Progress.pending_of_ask (h : g.ask = none) (hcrashed : g.crashed = false) :
    g.pending = [] := by
  rw [Progress.ask, hcrashed] at h
  cases hpending : g.pending with
  | nil => rfl
  | cons c rest =>
    rw [hpending] at h
    simp only [c.getPackedMessage_eq] at h
    exact absurd h (by simp [Except.toOption])

/-- A call that receives its answer returns, and has printed the right lines. -/
theorem Progress.hear_answer {c : Call} {rest : List Call} (hpending : g.pending = c :: rest)
    (hinbox : g.inbox = []) : g.hear (c.answer resolve)
      = ⟨rest, [], g.printed ++ [(c, c.lines resolve)], false⟩ := by
  obtain ⟨hresp, hexec⟩ := c.execute_answer resolve
  rw [Progress.hear, hpending, hinbox, List.nil_append, hresp]
  dsimp only
  rw [hexec]
  rfl

/-! ### What is printed -/

/-- What has been printed is right, and what has not been printed is still to be done. -/
structure Progress.Right (resolve : List UInt8 → Option UInt32) (calls : List Call)
    (g : Progress) : Prop where
  made : ∃ made, calls = made ++ g.pending ∧ g.printed = made.map fun c => (c, c.lines resolve)
  inbox : g.inbox = []
  crashed : g.crashed = false

/-- A client that is alone prints what is right. -/
theorem Progress.right_of_alone
    (h : Asker.Alone ⟨Progress.ask, Progress.hear⟩ (reply resolve) (.start calls) g) :
    g.Right resolve calls := by
  refine h.invariant ⟨⟨[], rfl, rfl⟩, rfl, rfl⟩ fun g d hg hask => ?_
  obtain ⟨c, rest, hpending, rfl, -⟩ := Progress.exists_of_ask hask
  obtain ⟨⟨made, hcalls, hprinted⟩, hinbox, -⟩ := hg
  dsimp only
  rw [c.reply_request, Progress.hear_answer hpending hinbox]
  refine ⟨⟨made ++ [c], ?_, ?_⟩, rfl, rfl⟩
  · rw [hcalls, hpending, List.append_assoc]
    rfl
  · rw [List.map_append, ← hprinted]
    rfl

theorem Progress.exists_call_of_ask (h : g.ask = some d) : ∃ c : Call, d = c.request :=
  have ⟨c, _, _, hd, _⟩ := Progress.exists_of_ask h
  ⟨c, hd⟩

variable {ι : Type} [DecidableEq ι] {cs : ι → Client} {i : ι} {s : Serving ι}

theorem right_of_reachable (h : (clients resolve cs).Reachable s) (hi : cs i = caller calls) :
    ∃ g, s.client i = .inl g ∧ g.Right resolve calls := by
  obtain ⟨g, hg, halone⟩ := Shared.own_of_reachable (answers_serve resolve) hi
    (fun _ _ _ hask => Progress.exists_call_of_ask hask) h
  exact ⟨g, hg, Progress.right_of_alone halone⟩

/-- **Whatever a client prints is right, in every run.** The calls that have returned are the first
ones, each has printed all of its hosts with their addresses, and no exception has ended the client;
whatever has been lost, and whoever else has asked the server, and for what. -/
theorem printed_of_reachable (h : (clients resolve cs).Reachable s) (hi : cs i = caller calls) :
    ∃ g, s.client i = .inl g ∧ g.crashed = false ∧ ∃ made, calls = made ++ g.pending ∧
      g.printed = made.map fun c => (c, c.hosts.map fun host =>
        .address host (shown resolve host)) := by
  obtain ⟨g, hg, hright⟩ := right_of_reachable h hi
  exact ⟨g, hg, hright.crashed, hright.made⟩

/-- One client with two calls, and somebody who keeps sending two bytes. -/
def callerAndOther : Bool → Client
  | false => caller twoCalls.calls
  | true => .other fun _ => some [0x4a, 0x6f]

/-- Nobody has asked for anything, and the buffer of the server is clear. -/
def callerAndOtherStart : Serving Bool :=
  ⟨some fun _ => 0, fun i => (callerAndOther i).start, fun _ => .ready⟩

theorem callerAndOtherStart_reachable {C : Serving Bool → Turn Bool → Prop} :
    (clients twoNames callerAndOther).ReachableUnder C callerAndOtherStart :=
  .init ⟨rfl, rfl, fun _ => rfl⟩

/-- The first call returns, although the server has been asked for something else in between. -/
theorem printed_of_caller_and_other : ∃ s, (clients twoNames callerAndOther).Reachable s ∧
    (s.client false).elim (·.printed.length) (fun _ => 0) = 1 ∧
    ∃ g, s.client false = .inl g ∧ g.crashed = false ∧
      ∃ made, twoCalls.calls = made ++ g.pending ∧
        g.printed = made.map fun c => (c, c.hosts.map fun host =>
          .address host (shown twoNames host)) := by
  have hrun : ((clients twoNames callerAndOther).run callerAndOtherStart [.ask false, .ask true,
      .serve true, .serve false, .hear false, .hear true, .ask true]).map
        (fun s => (s.client false).elim (·.printed.length) fun _ => 0) = some 1 := by
    decide +kernel
  obtain ⟨s, hs, hlen⟩ := Option.map_eq_some_iff.mp hrun
  have hreach := System.reachable_of_run callerAndOtherStart_reachable hs
  exact ⟨s, hreach, hlen, printed_of_reachable hreach rfl⟩

/-! ### That everything is printed -/

/-- How many replies a caller may still receive. -/
def Progress.rank (g : Progress) : ℕ := 8 * g.pending.length - min g.inbox.length 7

theorem Progress.rank_lt {reply : List UInt8} (h : g.ask = some d) :
    (g.hear reply).rank < g.rank := by
  obtain ⟨c, rest, hpending, -, -⟩ := Progress.exists_of_ask h
  rw [Progress.hear, Progress.rank, Progress.rank, hpending]
  dsimp only
  rw [List.length_cons]
  split
  · rename_i trials hblocked
    have hlt := ClientUDP.length_lt_of_blocked hblocked
    rw [List.length_append, List.length_singleton] at hlt
    dsimp only
    rw [List.length_append, List.length_cons, List.length_singleton]
    omega
  · dsimp only
    rw [List.length_nil]
    omega

/-- **Whatever the others do, clients can print everything**, if nothing of theirs is lost and
nobody sends a request whose answers overflow. -/
theorem exists_printed_all (K : Finset ι) (program : ι → List Call)
    (hK : ∀ i ∈ K, cs i = caller (program i))
    (hothers : ∀ i next, cs i = .other next → ∀ received d, next received = some d →
      ∀ buf, runStep (ofName resolve) buf d ≠ none)
    (h : (clients resolve cs).ReachableUnder (Shared.Keeps K) s) :
    ∃ s', (clients resolve cs).Leads (Shared.Own K) s s' ∧
      ∀ i ∈ K, ∃ g, s'.client i = .inl g ∧
        g.printed = (program i).map fun c => (c, c.hosts.map fun host =>
          .address host (shown resolve host)) := by
  obtain ⟨s', hleads, hdone⟩ := Shared.exists_own_done K (fun i hi => ⟨_, hK i hi⟩)
    (answers_serve resolve) (fun _ _ _ _ _ _ hask => Progress.exists_call_of_ask hask)
    (fun i next hi received d hd buf hnone =>
      hothers i next hi received d hd buf (Option.map_eq_none_iff.mp hnone))
    (fun _ _ _ hask => Progress.rank_lt hask) h
  refine ⟨s', hleads, fun i hi => ?_⟩
  have hs' : (clients resolve cs).Reachable s' :=
    (h.leads (hleads.mono fun _ _ he i _ => he.2 i)).reachable
  obtain ⟨g, hg, hnone⟩ := hdone i hi
  obtain ⟨g', hg', hright⟩ := right_of_reachable hs' (hK i hi)
  obtain rfl := Sum.inl.inj (hg.symm.trans hg')
  obtain ⟨made, hmade, hprinted⟩ := hright.made
  have hpending : g.pending = [] := Progress.pending_of_ask hnone hright.crashed
  rw [hpending, List.append_nil] at hmade
  rw [hmade]
  exact ⟨g, hg, hprinted⟩

/-- Two bytes are no request. -/
theorem runStep_two_bytes (g : Resolver) (buf : ClientRequest) :
    runStep g buf [0x4a, 0x6f] ≠ none := by
  have hrejected : (processed buf [0x4a, 0x6f]).error ≠ 0 := by
    rw [error_processed]
    exact verdict_ne_zero_of_le (show 2 ≤ 6 by decide)
  rw [runStep_rejected g hrejected]
  exact Option.some_ne_none _

/-- The client makes both of its calls, and the other one does not matter. -/
theorem exists_printed_all_caller_and_other : ∃ s g,
    (clients twoNames callerAndOther).Leads (Shared.Own {false}) callerAndOtherStart s ∧
      s.client false = .inl g ∧ g.printed = twoCalls.calls.map fun c => (c, c.hosts.map fun host =>
        .address host (shown twoNames host)) := by
  have hothers : ∀ i next, callerAndOther i = .other next → ∀ received d, next received = some d →
      ∀ buf, runStep (ofName twoNames) buf d ≠ none := by
    intro i next hi received d hd buf
    cases i with
    | false => exact absurd hi (by simp [callerAndOther, caller])
    | true =>
      obtain rfl := Guest.other.inj hi
      obtain rfl := Option.some.inj hd
      exact runStep_two_bytes _ buf
  obtain ⟨s, hleads, hprinted⟩ := exists_printed_all {false} (fun _ => twoCalls.calls)
    (fun i hi => by rw [Finset.mem_singleton.mp hi]; rfl) hothers callerAndOtherStart_reachable
  obtain ⟨g, hg, hlines⟩ := hprinted false (Finset.mem_singleton_self _)
  exact ⟨s, g, hleads, hg, hlines⟩

end Lab2

end Comp4320
