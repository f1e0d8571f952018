import Comp4320.Lab2.ClientReply
import Comp4320.Lab2.ServerReply

/-!
# Answers and error responses

The client tells an error response from an answer by its length: nine bytes, or more. An error
response is always nine bytes long, and an answer is nine bytes and four more for every address, so
the two can be told apart as long as an answer has an address in it. The server sees to that where a
lookup fails (it records all ones), but not where an entry comes without addresses, nor where there
is no host to look up.

## Main results

* `distinguishable_iff` — the requests whose reply can be told apart from the other kind
-/

namespace Comp4320

namespace Lab2

open ByteOrder ServerUDP

/-- The reply to a datagram says what it is: it is nine bytes long if and only if the request was
rejected, and the client takes it for an answer if and only if the request was accepted. -/
def Distinguishable (g : Resolver) (buf : ClientRequest) (d : List UInt8) : Prop :=
  ∃ reply, runStep g buf d = some (processed buf d, reply) ∧
    (reply.packet.length = 9 ↔ (processed buf d).error ≠ 0) ∧
    ((∃ response, ClientUDP.trial reply.packet = .ok (some response)) ↔
      (processed buf d).error = 0)

variable {g : Resolver} {buf : ClientRequest} {d : List UInt8}

/-- An entry with an address, or none at all, is recorded. -/
theorem recorded_isSome_iff (e : HostEnt) : (recorded e).isSome ↔ e ≠ .noAddress := by
  cases e <;> simp [recorded]

theorem answers_pos_iff (g : Resolver) (ls : List Lookup) :
    0 < (answers g ls).length ↔ ∃ l ∈ ls, g l ≠ .noAddress := by
  rw [answers, List.length_pos_iff_exists_mem]
  simp only [List.mem_filterMap, ← recorded_isSome_iff, Option.isSome_iff_exists]
  constructor
  · rintro ⟨a, l, hl, ha⟩
    exact ⟨l, hl, a, ha⟩
  · rintro ⟨l, hl, a, ha⟩
    exact ⟨a, l, hl, ha⟩

theorem distinguishable_of_rejected (h : (processed buf d).error ≠ 0) :
    Distinguishable g buf d := by
  have hlen : (Packet.stamped (processed buf d).error []).length = 9 := Packet.length_stamped ..
  refine ⟨_, runStep_rejected g h, iff_of_true hlen h, iff_of_false ?_ h⟩
  rintro ⟨response, hresponse⟩
  rw [ClientUDP.trial_of_length_le hlen.le] at hresponse
  exact absurd hresponse (by simp)

/-- The length of an answer. -/
theorem length_acceptedReply (g : Resolver) (buf : ClientRequest) (d : List UInt8) :
    (acceptedReply g buf d).packet.length = 4 * (answers g (hostLookups buf d)).length + 9 := by
  rw [acceptedReply, Packet.length_stamped, length_flatMap_image32]

/-- An answer can be told apart if and only if there is an address in it. -/
theorem distinguishable_iff_of_accepted (h : (processed buf d).error = 0) :
    Distinguishable g buf d ↔ 0 < (answers g (hostLookups buf d)).length ∧
      (answers g (hostLookups buf d)).length ≤ 50 := by
  constructor
  · rintro ⟨reply, hstep, hnine, -⟩
    have hle : (answers g (hostLookups buf d)).length ≤ 50 := by
      by_contra hlt
      rw [runStep_overflow h (by omega)] at hstep
      exact absurd hstep (by simp)
    rw [runStep_accepted h hle] at hstep
    obtain rfl := (Prod.mk.inj (Option.some.inj hstep)).2
    refine ⟨Nat.pos_of_ne_zero fun hzero => ?_, hle⟩
    exact hnine.mp (by rw [length_acceptedReply, hzero]) h
  · rintro ⟨hpos, hle⟩
    have hlen := length_acceptedReply g buf d
    have hwf : Packet.WellFormed (acceptedReply g buf d).packet :=
      Packet.stamped_wellFormed _ (by rw [length_flatMap_image32]; omega)
    exact ⟨_, runStep_accepted h hle, iff_of_false (by omega) (not_not.mpr h),
      iff_of_true ⟨_, ClientUDP.trial_of_wellFormed hwf (by omega)⟩ h⟩

/-- **The requests whose reply can be told apart from the other kind**: those that are rejected, and
those for which at least one lookup fails or gives an address, and no more than fifty do. -/
theorem distinguishable_iff (g : Resolver) (buf : ClientRequest) (d : List UInt8) :
    Distinguishable g buf d ↔ ((processed buf d).error = 0 →
      (∃ l ∈ hostLookups buf d, g l ≠ .noAddress) ∧
        (answers g (hostLookups buf d)).length ≤ 50) := by
  by_cases h : (processed buf d).error = 0
  · rw [distinguishable_iff_of_accepted h, answers_pos_iff]
    exact ⟨fun hpos _ => hpos, fun hpos => hpos h⟩
  · exact iff_of_true (distinguishable_of_rejected h) fun h0 => absurd h0 h

/-- A request without hosts, and one for a host without addresses, are answered by nine bytes. -/
theorem not_distinguishable :
    ¬ Distinguishable (fun _ => .null) (fun _ => 0) [0x4a, 0x6f, 0x79, 0x21, 0, 9, 7, 0x96, 5] ∧
    ¬ Distinguishable (fun _ => .noAddress) (fun _ => 0)
        [0x4a, 0x6f, 0x79, 0x21, 0, 11, 7, 0x32, 5, 1, 97] := by
  constructor
  · rw [distinguishable_iff_of_accepted (by decide +kernel)]
    decide +kernel
  · rw [distinguishable_iff_of_accepted (by decide +kernel)]
    decide +kernel

end Lab2

end Comp4320
