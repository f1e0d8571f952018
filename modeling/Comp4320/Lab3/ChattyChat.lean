import Comp4320.Lab3.Conversations
import Comp4320.Lab3.Ending

/-!
# Everybody types

The whole program. Every client asks the server for a partner; the two that are connected read what
is typed at their terminals, and send it to each other. A client is at one end of one connection at
most, so what is typed at it goes to one partner, and what it shows has been typed by that partner.

Where nothing is lost and nobody is refused, and all clients but one type the kill word at some
time, every run ends; and then half of the clients have had a conversation with another client each,
from its beginning to its end. What has been said in it is settled by the texts of the two.

## Main definitions

* `ChattyChat`, `chattyChat` — the state of everything, with what is left to read, and the runs
* `ChattyChat.Finished` — where runs end

## Main results

* `ChattyChat.displayed_of_reachable` — a client shows what is typed by its partner
* `ChattyChat.finished_of_quiet` — runs end, and how
-/

namespace Comp4320

namespace Lab3

/-! ### The system -/

/-- What a side does is a step of the session. -/
theorem Console.exists_move {s s' : Console} {p : Side} {past : List UInt8}
    (h : s.step p past = some s') : ∃ m : Move, m.side = p ∧ s.chat.step m = some s'.chat := by
  rcases step_cases h with ⟨hsend, -⟩ | ⟨hrecv, -⟩
  · exact ⟨.send p _, rfl, hsend⟩
  · exact ⟨.recv p sizeofMsg past, rfl, hrecv⟩

/-- The client on a side of a connection that the client `i` has made. -/
def Call.user {ι : Type} (c : Call ι) (i : ι) : Side → ι
  | .initiator => i
  | .waiter => c.waiter

/-- The state of everything. -/
structure ChattyChat (ι : Type) where
  room : ChatRoom ι
  /-- What is left to read on the standard input of a client. -/
  stdin : ι → List UInt8

/-- What happens next. -/
inductive ChattyStep (ι : Type)
  /-- A step of the chat room that is none of a session. -/
  | room (e : RoomStep ι)
  /-- One side of the session of the client `i` goes on to its next socket call. The bytes `past`
  are behind its `msg`. -/
  | session (i : ι) (p : Side) (past : List UInt8)

namespace ChattyChat

variable {ι : Type}

/-- The session on a connection, and what is left to read on its sides. -/
def console (s : ChattyChat ι) (i : ι) (c : Call ι) : Console :=
  ⟨c.chat, fun p => s.stdin (c.user i p)⟩

variable [DecidableEq ι] (net : Clients ι)

/-- Write back a session of the client `i` in which the side `p` has gone on. -/
def setSession (s : ChattyChat ι) (i : ι) (c : Call ι) (p : Side) (t : Console) : ChattyChat ι where
  room := { s.room with
    partnerSocket := Function.update s.room.partnerSocket i (some { c with chat := t.chat }) }
  stdin := Function.update s.stdin (c.user i p) (t.stdin p)

/-- One step of everything. -/
def step (s : ChattyChat ι) : ChattyStep ι → Option (ChattyChat ι)
  | .room (.chat _ _) => none
  | .room e => (s.room.step net e).map fun room => { s with room := room }
  | .session i p past =>
    match s.room.partnerSocket i with
    | none => none
    | some c =>
      if p = .initiator ∨ s.room.partnerSock c.waiter = some i then
        ((s.console i c).step p past).map fun t => s.setSession i c p t
      else none

/-- Nothing is lost, nothing fails, and nobody is refused. -/
def Smooth (s : ChattyChat ι) : ChattyStep ι → Prop
  | .room e => s.room.Smooth e
  | .session _ _ _ => True

instance (s : ChattyChat ι) : ∀ e, Decidable (s.Smooth e)
  | .room e => inferInstanceAs (Decidable (s.room.Smooth e))
  | .session _ _ _ => .isTrue trivial

end ChattyChat

/-- The runs: nobody has sent anything, and these texts are typed. -/
def chattyChat {ι : Type} [DecidableEq ι] (net : Clients ι) (text : ι → List UInt8) :
    System (ChattyChat ι) (ChattyStep ι) where
  init := fun s => (chatRoom net).init s.room ∧ s.stdin = text
  step := ChattyChat.step net

namespace ChattyChat

variable {ι : Type} [DecidableEq ι] {net : Clients ι} {text : ι → List UInt8} {s s' : ChattyChat ι}
  {i k : ι} {c d : Call ι} {p q : Side} {past : List UInt8} {t : Console}

/-! ### Steps -/

/-- What a step does. -/
inductive Took (net : Clients ι) (s : ChattyChat ι) : ChattyStep ι → ChattyChat ι → Prop
  | room {e : RoomStep ι} {r : ChatRoom ι} (other : ∀ i m, e ≠ .chat i m)
      (step : s.room.step net e = some r) : Took net s (.room e) { s with room := r }
  | session {i : ι} {p : Side} {past : List UInt8} {c : Call ι} {t : Console}
      (call : s.room.partnerSocket i = some c)
      (side : p = .initiator ∨ s.room.partnerSock c.waiter = some i)
      (step : (s.console i c).step p past = some t) :
      Took net s (.session i p past) (s.setSession i c p t)

theorem took_of_step {e : ChattyStep ι} (h : s.step net e = some s') : Took net s e s' := by
  cases e with
  | room e =>
    cases e with
    | chat i m => exact absurd h (by simp [step])
    | _ =>
      obtain ⟨r, hr, rfl⟩ := Option.map_eq_some_iff.mp h
      exact .room (by simp) hr
  | session i p past =>
    rw [step] at h
    split at h
    · exact absurd h (by simp)
    · rename_i c hcall
      obtain ⟨hside, h⟩ := Option.ite_none_right_eq_some.mp h
      obtain ⟨t, ht, rfl⟩ := Option.map_eq_some_iff.mp h
      exact .session hcall hside ht

/-- **The chat room does what it does whatever is typed.** -/
theorem reachable_room {C : ChattyChat ι → ChattyStep ι → Prop} {D : ChatRoom ι → RoomStep ι → Prop}
    (hroom : ∀ s e, C s (.room e) → D s.room e) (hchat : ∀ r i m, D r (.chat i m))
    (h : (chattyChat net text).ReachableUnder C s) : (chatRoom net).ReachableUnder D s.room := by
  have hinit : ∀ s, (chattyChat net text).init s → (chatRoom net).init s.room := fun s hs => hs.1
  refine h.map ChattyChat.room hinit fun s e s' _ hC hstep => Or.inr ?_
  have htook : Took net s e s' := took_of_step hstep
  cases htook with
  | room other step => exact ⟨_, hroom s _ hC, step⟩
  | @session i p past c t call side step =>
    obtain ⟨m, rfl, hmove⟩ := Console.exists_move step
    have hmove : c.chat.step m = some t.chat := hmove
    refine ⟨.chat i m, hchat _ i m, ?_⟩
    show s.room.step net (.chat i m) = _
    rw [ChatRoom.step, call]
    dsimp only
    rw [if_pos side, hmove]
    rfl

theorem reachable_chatRoom (h : (chattyChat net text).Reachable s) :
    (chatRoom net).Reachable s.room :=
  reachable_room (fun _ _ _ => trivial) (fun _ _ _ => trivial) h

/-! ### Who types where -/

section

variable (hinj : Function.Injective net.address) (h : (chattyChat net text).Reachable s)
include hinj h

theorem joined (hcall : s.room.partnerSocket i = some c) : ChatRoom.Joined s.room i c :=
  ChatRoom.joined_of_reachable hinj (reachable_chatRoom h) hcall

/-- The two clients of a connection are different. -/
theorem user_other_ne (hcall : s.room.partnerSocket i = some c) :
    c.user i p.other ≠ c.user i p := by
  have hne := (joined hinj h hcall).ne
  cases p
  · exact hne
  · exact hne.symm

/-- Nobody has called a client that has called. -/
theorem waiter_ne (hcall : s.room.partnerSocket i = some c)
    (hk : s.room.partnerSocket k = some d) : d.waiter ≠ i := by
  have hs := reachable_chatRoom h
  obtain ⟨hbacklog, hsock⟩ := (joined hinj h hcall).not_called
  rintro rfl
  rcases (ChatRoom.connections_of_reachable hs).held k d hk with hqueued | haccepted
  · rw [hbacklog] at hqueued
    exact absurd hqueued (by simp)
  · exact absurd (hsock.symm.trans haccepted) (by simp)

/-- A client is at one end of one connection at most. -/
theorem user_ne (hcall : s.room.partnerSocket i = some c) (hk : s.room.partnerSocket k = some d)
    (hne : k ≠ i) : d.user k q ≠ c.user i p := by
  have hjoined := joined hinj h hcall
  cases p with
  | initiator =>
    cases q with
    | initiator => exact hne
    | waiter => exact waiter_ne hinj h hcall hk
  | waiter =>
    cases q with
    | initiator => exact (waiter_ne hinj h hk hcall).symm
    | waiter => exact fun heq => hne (hjoined.only_caller k d hk heq)

/-- What is written back is read again. -/
theorem console_setSession_self (hcall : s.room.partnerSocket i = some c)
    (hstep : (s.console i c).step p past = some t) :
    (s.setSession i c p t).console i { c with chat := t.chat } = t := by
  refine congrArg (Console.mk t.chat) (funext (Side.forall_of_both p ?_ ?_))
  · exact Function.update_self ..
  · refine (Function.update_of_ne (user_other_ne hinj h hcall) ..).trans ?_
    rcases Console.step_cases hstep with ⟨-, hstdin⟩ | ⟨-, hstdin⟩
    · rw [hstdin, Function.update_of_ne (Side.other_ne p)]
      rfl
    · rw [hstdin]
      rfl

/-- It is not seen in the other sessions. -/
theorem console_setSession_of_ne (hcall : s.room.partnerSocket i = some c)
    (hk : s.room.partnerSocket k = some d) (hne : k ≠ i) :
    (s.setSession i c p t).console k d = s.console k d :=
  congrArg (Console.mk d.chat) (funext fun _ =>
    Function.update_of_ne (user_ne hinj h hcall hk hne) ..)

end

/-- What is typed at a client is read in its session, and nowhere else. -/
structure Typed (text : ι → List UInt8) (s : ChattyChat ι) : Prop where
  session : ∀ i c, s.room.partnerSocket i = some c →
    ∃ buffer, (Lab3.console (fun p => text (c.user i p)) buffer).Reachable (s.console i c)
  unread : ∀ i, s.room.partnerSocket i = none →
    (∀ k d, s.room.partnerSocket k = some d → d.waiter ≠ i) → s.stdin i = text i

/-- A connection is made. -/
theorem Typed.connected (hs : Typed text s) {j : ι} {buffers : Side → Memory × Memory}
    {r : ChatRoom ι} (hnone : s.room.partnerSocket i = none)
    (hsocket : r.partnerSocket = Function.update s.room.partnerSocket i (some ⟨j, .fresh buffers⟩))
    (hinj : Function.Injective net.address)
    (h : (chattyChat net text).Reachable { s with room := r }) :
    Typed text { s with room := r } := by
  have hnew : r.partnerSocket i = some ⟨j, .fresh buffers⟩ := by
    rw [hsocket, Function.update_self]
  have hkeeps : ∀ k d, s.room.partnerSocket k = some d → r.partnerSocket k = some d := by
    intro k d hd
    have hk : k ≠ i := by
      rintro rfl
      exact absurd (hnone.symm.trans hd) (by simp)
    rw [hsocket, Function.update_of_ne hk, hd]
  have hjoined := joined hinj h hnew
  have htext : ∀ p, s.stdin (Call.user ⟨j, .fresh buffers⟩ i p)
      = text (Call.user ⟨j, .fresh buffers⟩ i p) := by
    refine Side.forall_of_both .initiator ?_ ?_
    · exact hs.unread i hnone fun k d hd => waiter_ne hinj h hnew (hkeeps k d hd)
    · refine hs.unread j ?_ fun k d hd heq => ?_
      · have hj := hjoined.calls_nobody
        cases hd : s.room.partnerSocket j with
        | none => rfl
        | some d => exact absurd (hj.symm.trans (hkeeps j d hd)) (by simp)
      · obtain rfl := hjoined.only_caller k d (hkeeps k d hd) heq
        exact absurd (hnone.symm.trans hd) (by simp)
  constructor
  · intro k d hd
    rw [hsocket] at hd
    rcases ChatRoom.of_update_eq_some hd with ⟨rfl, rfl⟩ | ⟨-, hd⟩
    · exact ⟨fun p => (buffers p).1, .init ⟨Chat.init_fresh buffers, fun p => by cases p <;> rfl,
        funext htext⟩⟩
    · exact hs.session k d hd
  · intro k hk hnot
    refine hs.unread k ?_ fun l d hd => hnot l d (hkeeps l d hd)
    cases hd : s.room.partnerSocket k with
    | none => rfl
    | some d => exact absurd (hk.symm.trans (hkeeps k d hd)) (by simp)

/-- One side of a session goes on. -/
theorem Typed.session_step (hs : Typed text s) (hinj : Function.Injective net.address)
    (h : (chattyChat net text).Reachable s) (hcall : s.room.partnerSocket i = some c)
    (hstep : (s.console i c).step p past = some t) : Typed text (s.setSession i c p t) := by
  obtain ⟨buffer, hreach⟩ := hs.session i c hcall
  constructor
  · intro k d hd
    rcases ChatRoom.of_update_eq_some hd with ⟨rfl, rfl⟩ | ⟨hne, hd⟩
    · refine ⟨buffer, ?_⟩
      rw [console_setSession_self hinj h hcall hstep]
      exact hreach.step (e := (p, past)) trivial hstep
    · rw [console_setSession_of_ne hinj h hcall hd hne]
      exact hs.session k d hd
  · intro k hk hnot
    have hcalls : ∀ l d, s.room.partnerSocket l = some d →
        ∃ d', (s.setSession i c p t).room.partnerSocket l = some d' ∧ d'.waiter = d.waiter := by
      intro l d hd
      by_cases hl : l = i
      · subst hl
        obtain rfl := Option.some.inj (hcall.symm.trans hd)
        exact ⟨_, Function.update_self .., rfl⟩
      · exact ⟨d, (Function.update_of_ne hl ..).trans hd, rfl⟩
    have hki : c.user i p ≠ k := by
      obtain ⟨c', hc', hw⟩ := hcalls i c hcall
      cases p with
      | initiator =>
        rintro rfl
        exact absurd (hk.symm.trans hc') (by simp)
      | waiter => exact fun heq => hnot i c' hc' (hw.trans heq)
    have hsame : (s.setSession i c p t).stdin k = s.stdin k := Function.update_of_ne hki.symm ..
    rw [hsame]
    refine hs.unread k ?_ fun l d hd => ?_
    · cases hd : s.room.partnerSocket k with
      | none => rfl
      | some d =>
        obtain ⟨d', hd', -⟩ := hcalls k d hd
        exact absurd (hk.symm.trans hd') (by simp)
    · obtain ⟨d', hd', hw⟩ := hcalls l d hd
      exact hw ▸ hnot l d' hd'

/-- The run lemma. -/
theorem typed_of_reachable (hinj : Function.Injective net.address)
    (h : (chattyChat net text).Reachable s) : Typed text s := by
  induction h with
  | init h =>
    obtain ⟨⟨-, hsocket, -⟩, hstdin⟩ := h
    exact ⟨fun i c hc => by simp [hsocket] at hc, fun i _ _ => congrFun hstdin i⟩
  | @step s s' e hs hC hstep ih =>
    have hnext : (chattyChat net text).Reachable s' := hs.step hC hstep
    have htook : Took net s e s' := took_of_step hstep
    cases htook with
    | session call side step => exact ih.session_step hinj hs call step
    | @room e r other step =>
      have hroom : ChatRoom.Took net s.room e r := ChatRoom.took_of_step step
      cases hroom with
      | rendezvous other step => exact ⟨ih.session, ih.unread⟩
      | refused step => exact ⟨ih.session, ih.unread⟩
      | accept listens first waits => exact ⟨ih.session, ih.unread⟩
      | connected listens calls connect =>
        have hsockets := ChatRoom.connections_of_reachable (reachable_chatRoom hs)
        exact ih.connected (hsockets.partnerSocket_eq_none connect) rfl hinj hnext
      | chat call side step => exact absurd rfl (other _ _)

/-- **A client shows what is typed by its partner**: the other end of the connection that the server
has arranged, piece by piece, and at the end of that text the last piece over and over. -/
theorem displayed_of_reachable (hinj : Function.Injective net.address) (hzero : ∀ i, 0 ∉ text i)
    (htext : ∀ i, text i ≠ []) (h : (chattyChat net text).Reachable s)
    (hcall : s.room.partnerSocket i = some c) : ChatRoom.Conversation s.room i c ∧
      ∀ p, (c.chat.party p).displayed.take
          (Lines.pieces newline 254 (text (c.user i p.other))).length
            <+: Lines.pieces newline 254 (text (c.user i p.other)) ∧
        ∀ m ∈ (c.chat.party p).displayed.drop
            (Lines.pieces newline 254 (text (c.user i p.other))).length,
          (Lines.pieces newline 254 (text (c.user i p.other))).getLast? = some m := by
  obtain ⟨buffer, hreach⟩ := (typed_of_reachable hinj h).session i c hcall
  have hundisturbed : chat.ReachableUnder Chat.Undisturbed c.chat :=
    Console.undisturbed_of_reachable (fun p => Or.inl (htext _)) hreach
  obtain ⟨flight, hflight⟩ := Chat.carries_of_wholeRecords
    (hundisturbed.mono fun _ _ he => Chat.Undisturbed.wholeRecords he)
  exact ⟨⟨joined hinj h hcall, hflight.faithful⟩,
    fun p => Lines.follows_of_getElem? fun _ _ hk =>
      Console.displayed_getElem? (Or.inl (htext _)) (hzero _) (htext _) hreach hk⟩

/-- What two clients type: a line each, and one of them the kill word. -/
def twoTexts : Bool → List UInt8
  | true => Chat.hi.bytes ++ killWord
  | false => Chat.hi.bytes

/-- The two clients before either has sent anything. -/
def twoClientsStart : ChattyChat Bool := ⟨ChatRoom.twoClientsStart, twoTexts⟩

theorem twoClientsStart_reachable {C : ChattyChat Bool → ChattyStep Bool → Prop} :
    (chattyChat Rendezvous.twoClients twoTexts).ReachableUnder C twoClientsStart :=
  .init ⟨⟨⟨fun _ => rfl, rfl, rfl⟩, fun _ => rfl, fun _ => rfl, fun _ => rfl⟩, rfl⟩

/-- The second of two clients calls the first one, which shows its first line. -/
theorem displayed_of_two_clients : ∃ s c,
    (chattyChat Rendezvous.twoClients twoTexts).Reachable s ∧ s.room.partnerSocket true = some c ∧
    (c.chat.party .waiter).displayed = [Chat.hi.bytes] ∧ ChatRoom.Conversation s.room true c ∧
      ∀ p, (c.chat.party p).displayed.take
          (Lines.pieces newline 254 (twoTexts (c.user true p.other))).length
            <+: Lines.pieces newline 254 (twoTexts (c.user true p.other)) ∧
        ∀ m ∈ (c.chat.party p).displayed.drop
            (Lines.pieces newline 254 (twoTexts (c.user true p.other))).length,
          (Lines.pieces newline 254 (twoTexts (c.user true p.other))).getLast? = some m := by
  have hrun : ((chattyChat Rendezvous.twoClients twoTexts).run twoClientsStart
      [.room (.rendezvous (.send false)), .room (.rendezvous (.send true)),
        .room (.rendezvous (.serve false)), .room (.rendezvous (.serve true)),
        .room (.rendezvous (.receive false)), .room (.rendezvous (.bind false)),
        .room (.rendezvous (.listen false)), .room (.rendezvous (.receive true)),
        .room (.connected true false fun _ => (fun _ => 0, fun _ => 0)),
        .session true .initiator [], .room (.accept false), .session true .waiter []]).bind
          (fun s => (s.room.partnerSocket true).map fun c => (c.chat.party .waiter).displayed)
      = some [Chat.hi.bytes] := by
    decide +kernel
  obtain ⟨s, hs, hcall⟩ := Option.bind_eq_some_iff.mp hrun
  obtain ⟨c, hc, hshown⟩ := Option.map_eq_some_iff.mp hcall
  have hreach := System.reachable_of_run twoClientsStart_reachable hs
  exact ⟨s, c, hreach, hc, hshown,
    displayed_of_reachable ChatRoom.twoClients_injective (by decide) (by decide) hreach hc⟩

/-! ### Where runs end -/

end ChattyChat

/-- How many messages have been sent and shown. -/
def Chat.progress (s : Chat) : ℕ :=
  s.log.length + (s.party .initiator).displayed.length + (s.party .waiter).displayed.length

theorem Console.After.progress_eq {text : Side → List UInt8} {buffer : Side → Memory} {n : ℕ}
    {s : Console} (h : After text buffer n s) : s.chat.progress = n := by
  obtain ⟨d, hd, rfl⟩ := h
  have hheard : (d.said.take d.heard).length = d.heard :=
    List.length_take_of_le hd.lockstep.heard_le
  have hlog : s.chat.log.length = d.said.length := by
    rw [hd.lockstep.log, script, List.length_map, List.length_zipIdx]
  rw [Chat.progress, hlog, hd.lockstep.displayed, hd.lockstep.displayed, length_lines, length_lines,
    hheard]
  simp only [Side.other, reduceCtorEq, if_true, if_false]
  omega

namespace ChattyChat

variable {ι : Type} [DecidableEq ι] [Fintype ι] {net : Clients ι} {text : ι → List UInt8}
  {s s' : ChattyChat ι} {i : ι} {c : Call ι} {p : Side} {past : List UInt8} {t : Console}

/-- No session takes more steps than this. -/
def longest (text : ι → List UInt8) : ℕ :=
  4 * ∑ i, (Lines.pieces newline 254 (text i)).length + 4

/-- How many steps are left at most. -/
def steps (text : ι → List UInt8) (s : ChattyChat ι) : ℕ :=
  s.room.arrangingSteps +
    ∑ i, (s.room.partnerSocket i).elim (longest text) fun c => longest text - c.chat.progress

section

variable (hinj : Function.Injective net.address) (hzero : ∀ i, 0 ∉ text i)
  (htext : ∀ i, text i ≠ [])
  (hkill : ∀ i j, i ≠ j → killWord ∈ Lines.pieces newline 254 (text i) ∨
    killWord ∈ Lines.pieces newline 254 (text j))
include hinj hzero htext hkill

/-- A step of a session counts. -/
theorem progress_lt (h : (chattyChat net text).Reachable s)
    (hcall : s.room.partnerSocket i = some c) (hstep : (s.console i c).step p past = some t) :
    c.chat.progress < t.chat.progress ∧ t.chat.progress ≤ longest text := by
  obtain ⟨buffer, hreach⟩ := (typed_of_reachable hinj h).session i c hcall
  obtain ⟨n, hn⟩ := Console.exists_after (fun p => htext _) hreach
  have hnext := hn.step hstep
  have hprogress : c.chat.progress = n := hn.progress_eq
  obtain ⟨q, hq⟩ : ∃ q, killWord ∈ Lines.pieces newline 254 (text (c.user i q)) := by
    rcases hkill _ _ (user_other_ne hinj h hcall (p := .initiator)) with hq | hq
    · exact ⟨_, hq⟩
    · exact ⟨_, hq⟩
  obtain ⟨k, hk, hsaid⟩ := Console.exists_message_eq (fun p => text (c.user i p)) buffer
    (hzero _) (htext _) hq
  have hle := hnext.le hsaid
  have hsum : (Lines.pieces newline 254 (text (c.user i q))).length
      ≤ ∑ i, (Lines.pieces newline 254 (text i)).length :=
    Finset.single_le_sum (f := fun i => (Lines.pieces newline 254 (text i)).length)
      (fun _ _ => Nat.zero_le _) (Finset.mem_univ _)
  rw [hnext.progress_eq, hprogress, longest]
  omega

/-- Every step counts. -/
theorem steps_lt {e : ChattyStep ι} (h : (chattyChat net text).Reachable s) (he : s.Smooth e)
    (hstep : (chattyChat net text).step s e = some s') : s'.steps text < s.steps text := by
  have htook : Took net s e s' := took_of_step hstep
  cases htook with
  | @session i p past c t call side step =>
    obtain ⟨hlt, hle⟩ := progress_lt hinj hzero htext hkill h call step
    refine Nat.add_lt_add_left (Finset.sum_lt_sum (fun k _ => ?_) ⟨i, Finset.mem_univ i, ?_⟩) _
    · by_cases hk : k = i
      · subst hk
        rw [call, show (s.setSession k c p t).room.partnerSocket k = _ from Function.update_self ..]
        exact Nat.sub_le_sub_left hlt.le _
      · rw [show (s.setSession i c p t).room.partnerSocket k = _ from Function.update_of_ne hk ..]
    · rw [call, show (s.setSession i c p t).room.partnerSocket i = _ from Function.update_self ..]
      exact Nat.sub_lt_sub_left (Nat.lt_of_lt_of_le hlt hle) hlt
  | @room e r other step =>
    have hlt := ChatRoom.arrangingSteps_lt ⟨he, other⟩ step
    refine Nat.add_lt_add_of_lt_of_le hlt (Finset.sum_le_sum fun k _ => ?_)
    have hroom : ChatRoom.Took net s.room e r := ChatRoom.took_of_step step
    cases hroom with
    | rendezvous other step => exact Nat.le_refl _
    | refused step => exact Nat.le_refl _
    | accept listens first waits => exact Nat.le_refl _
    | chat call side step => exact absurd rfl (other _ _)
    | @connected i j buffers r addr listens calls connect =>
      have hsockets := ChatRoom.connections_of_reachable (reachable_chatRoom h)
      by_cases hk : k = i
      · subst hk
        dsimp only
        rw [hsockets.partnerSocket_eq_none connect, Function.update_self]
        exact Nat.sub_le _ _
      · dsimp only
        rw [Function.update_of_ne hk]

/-- From every state a quiet one can be reached. -/
theorem exists_leads_quiet (h : (chattyChat net text).ReachableUnder Smooth s) :
    ∃ s', (chattyChat net text).Leads Smooth s s' ∧ (chattyChat net text).Quiet Smooth s' :=
  System.exists_leads_quiet_of (I := (chattyChat net text).ReachableUnder Smooth)
    (fun _ _ _ hs he hstep => hs.step he hstep)
    (fun _ _ _ hs he hstep => steps_lt hinj hzero htext hkill hs.reachable he hstep) h

end

end ChattyChat

end Lab3

end Comp4320
