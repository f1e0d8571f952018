import Comp4320.Lab3.ChatClient
import Comp4320.Lab3.Matchmaking

/-!
# Who is waiting

The server has three responses and the client tells two kinds of reply apart, by their size. A
registration and an error are both seven bytes long, and the error bits are in a byte the client
does not look at. So a client whose port the server rejects waits like one that was registered, and
nobody will ever be sent its address.

## Main results

* `ChatClient.agree_iff` — client and server agree exactly on the ports the server accepts
* `ChatClient.not_agree_port_80` — a rejected client that waits
-/

namespace Comp4320

namespace Lab3

namespace ChatClient

/-- The client waits if and only if the server has registered it, and calls a partner if and only
if the server has sent it one. -/
def Agree (s : ChatServer) (c : ChatClient) (s_addr : UInt32) (buff : Memory) : Prop :=
  ∃ s' reply, s.handle (c.request s_addr) = .ok (s', reply) ∧
    ((∃ noWaitResponse, run buff reply.response = .waitToChat noWaitResponse) ↔
      reply.branch = .registered) ∧
    ((∃ response, run buff reply.response = .initiateChat response) ↔ reply.branch = .connect)

variable {s : ChatServer} {c : ChatClient} {s_addr : UInt32} {buff : Memory}

/-- A rejected client waits. -/
theorem not_agree_of_invalid (h : ¬ (c.request s_addr).Valid) : ¬ Agree s c s_addr buff := by
  rintro ⟨s', reply, hstep, hwait, -⟩
  rw [ChatServer.handle_invalid s h] at hstep
  obtain ⟨-, rfl⟩ := Prod.mk.inj (Except.ok.inj hstep)
  have hruns := run_of_length_eq_seven buff (length_invalidResponse (c.request s_addr).error)
  exact absurd (hwait.mp hruns) (show Branch.invalid ≠ .registered by decide)

/-- An accepted client does what the server has recorded, whoever waits. -/
theorem agree_of_valid {w : Option Datagram} (hs : s.Holds w) (h : (c.request s_addr).Valid) :
    Agree s c s_addr buff := by
  obtain ⟨s', hstep, -⟩ := ChatServer.handle_refines hs h
  refine ⟨s', _, hstep, ?_⟩
  cases w with
  | none =>
    obtain ⟨r, hr⟩ := run_of_length_eq_seven buff
      (length_registeredResponse (c.request s_addr).port)
    have hrun : run buff (ChatServer.answer (c.request s_addr) none).response = .waitToChat r := hr
    rw [hrun]
    exact ⟨iff_of_true ⟨r, rfl⟩ rfl,
      iff_of_false (by simp) (show Branch.registered ≠ .connect by decide)⟩
  | some b =>
    obtain ⟨r, hr, -⟩ := run_connectResponse buff b.ip_lt b.port_lt
    have hrun : run buff (ChatServer.answer (c.request s_addr) (some b)).response
        = .initiateChat r := hr
    rw [hrun]
    exact ⟨iff_of_false (by simp) (show Branch.connect ≠ .registered by decide),
      iff_of_true ⟨r, rfl⟩ rfl⟩

/-- **Client and server agree exactly on the ports the server accepts**, in every state the server
can be in and whatever the buffer of the client held. -/
theorem agree_iff {ds : List Datagram} {replies : List Reply}
    (h : ChatServer.run .start ds = .ok (s, replies)) (c : ChatClient) (s_addr : UInt32)
    (buff : Memory) :
    Agree s c s_addr buff ↔ 10045 ≤ c.myPort % 65536 ∧ c.myPort % 65536 ≤ 10049 := by
  obtain ⟨s', replies', hrun, href⟩ := ChatServer.run_refines ChatServer.holds_start ds
  obtain ⟨rfl, rfl⟩ := Prod.mk.inj (Except.ok.inj (hrun.symm.trans h))
  rw [← valid_request_iff c s_addr]
  constructor
  · intro hagree
    by_contra hinv
    exact not_agree_of_invalid hinv hagree
  · exact agree_of_valid href.holds

/-- The fresh server and a port it accepts. -/
theorem agree_port_10047 : Agree .start ⟨10047⟩ 0x0100007f (fun _ => 0) ↔
    10045 ≤ (10047 : ℤ) % 65536 ∧ (10047 : ℤ) % 65536 ≤ 10049 :=
  agree_iff (show ChatServer.run .start [] = .ok (.start, []) from rfl) ⟨10047⟩ 0x0100007f
    fun _ => 0

/-- The fresh server rejects port 80, and the client waits. -/
theorem not_agree_port_80 : ∃ s replies, ChatServer.run .start [] = .ok (s, replies) ∧
    ¬ Agree s ⟨80⟩ 0x0100007f fun _ => 0 :=
  ⟨.start, [], rfl, not_agree_of_invalid (by rw [valid_request_iff]; decide)⟩

end ChatClient

end Lab3

end Comp4320
