import Comp4320.Lab2.ClientReply
import Comp4320.Lib.Retry

/-!
# What the client accepts

`get_response` is a bounded retry loop, and one datagram decides how it ends: the first that is not
retransmitted for. Three things can happen to a datagram of more than nine bytes. If its length
field is below nine or above its length, unpacking it raises `struct.error`, which nothing catches.
Otherwise the checksum decides, taken over as many bytes as the length field says: the reply is
accepted or the request is sent again. That the magic number is wrong is printed and has no other
effect, and a length field below the length of the datagram is not even noticed.

## Main definitions

* `ClientUDP.Acceptable`, `Malformed` — what is accepted, and what raises
* `ClientUDP.Genuine` — what a reply should be
* `ClientUDP.AcceptsGenuine`, `Survives` — what the loop should do with genuine replies and others

## Main results

* `ClientUDP.getResponse_eq` — the loop is a bounded retry loop
* `ClientUDP.getResponse_eq_answer_iff` — which datagram an answer is taken from
* `ClientUDP.acceptsGenuine_iff` — when only genuine replies are accepted
* `ClientUDP.survives_iff` — when no reply ends the loop by an exception
-/

namespace Comp4320

namespace Lab2

open ByteOrder

namespace ClientUDP

/-! ### The loop is a bounded retry loop -/

/-- One attempt: `recvfrom(4096)` and the loop body. -/
def attempt (datagram : List UInt8) : Except PyError (Option Response) :=
  trial (datagram.take 4096)

/-- The outcome of the loop as the outcome of a call. -/
def outcome : Retry.Outcome PyError Response → Outcome
  | .accepted response trials => .answer response trials
  | .failed e trials => .raised e trials
  | .exhausted trials => .noAnswer trials
  | .blocked trials => .blocked trials

theorem outcome_injective : Function.Injective outcome := by
  intro a b h
  cases a <;> cases b <;> simp_all [outcome]

/-- **The loop is a bounded retry loop**, with seven attempts. -/
theorem responseLoop_eq (trials : ℕ) (datagrams : List (List UInt8)) :
    responseLoop trials datagrams = outcome (Retry.loop attempt 7 trials datagrams) := by
  induction datagrams generalizing trials with
  | nil =>
    rw [responseLoop, Retry.loop]
    split_ifs <;> rfl
  | cons datagram datagrams ih =>
    rw [responseLoop, Retry.loop, ← attempt]
    split_ifs
    · cases attempt datagram with
      | error e => rfl
      | ok o =>
        cases o with
        | none => exact ih (trials + 1)
        | some response => rfl
    · rfl

theorem getResponse_eq (datagrams : List (List UInt8)) :
    getResponse datagrams = outcome (Retry.loop attempt 7 0 datagrams) :=
  responseLoop_eq 0 datagrams

/-- **Which datagram an answer is taken from**: one of the first seven, and the first that is not
retransmitted for. -/
theorem getResponse_eq_answer_iff {datagrams : List (List UInt8)} {response : Response} {k : ℕ} :
    getResponse datagrams = .answer response k ↔ ∃ i d, k = i + 1 ∧ i < 7 ∧
      Retry.Retried attempt datagrams i ∧ datagrams[i]? = some d ∧
        attempt d = .ok (some response) := by
  rw [← Retry.loop_eq_accepted_iff, getResponse_eq]
  exact outcome_injective.eq_iff (b := .accepted response k)

/-- A call that waits has received fewer than seven datagrams. -/
theorem length_lt_of_blocked {datagrams : List (List UInt8)} {trials : ℕ}
    (h : getResponse datagrams = .blocked trials) : datagrams.length < 7 := by
  rw [getResponse_eq] at h
  have hloop : Retry.loop attempt 7 0 datagrams = .blocked trials := outcome_injective h
  exact (Retry.loop_eq_blocked_iff.mp hloop).2.1

section

variable {datagrams : List (List UInt8)} {i : ℕ}

/-- The message has been sent `i + 1` times if it has been sent again for each of `i` replies. -/
theorem getResponse_take_eq_blocked_iff (hi : i ≤ datagrams.length) :
    getResponse (datagrams.take i) = .blocked (i + 1) ↔
      i < 7 ∧ Retry.Retried attempt datagrams i := by
  rw [getResponse_eq, ← Retry.loop_take_eq_blocked_iff hi]
  exact outcome_injective.eq_iff (b := .blocked (i + 1))

/-- **One more reply.** The message is sent again, or the call gives up, if and only if the loop
body asks for it. -/
theorem getResponse_take_succ_iff (hretried : Retry.Retried attempt datagrams i) (hi : i < 7)
    {d : List UInt8} (hd : datagrams[i]? = some d) :
    getResponse (datagrams.take (i + 1)) = (if i < 6 then .blocked (i + 2) else .noAnswer 7) ↔
      attempt d = .ok none := by
  have hnext : (if i < 6 then .blocked (i + 2) else .noAnswer 7)
      = outcome (if i + 1 < 7 then .blocked (i + 2) else .exhausted 7) := by
    rw [apply_ite outcome]
    exact if_congr Nat.succ_lt_succ_iff.symm rfl rfl
  rw [getResponse_eq, hnext, outcome_injective.eq_iff, Retry.loop_take_succ_iff hretried hi hd]

end

/-! ### What becomes of a reply -/

/-- A reply that the loop accepts: longer than nine bytes, as long as its length field says or
longer, and the bytes the field counts verify. -/
def Acceptable (d : List UInt8) : Prop :=
  9 < d.length ∧ 9 ≤ tmlField d ∧ tmlField d ≤ d.length ∧
    OnesComplement.checksum (d.take (tmlField d)) = 0

/-- A reply that cannot be unpacked: its length field is below nine, or above its length. -/
def Malformed (d : List UInt8) : Prop :=
  9 < d.length ∧ (tmlField d < 9 ∨ d.length < tmlField d)

instance (d : List UInt8) : Decidable (Malformed d) :=
  inferInstanceAs (Decidable (_ ∧ _))

instance (d : List UInt8) : Decidable (Acceptable d) :=
  inferInstanceAs (Decidable (_ ∧ _ ∧ _ ∧ _))

variable {d : List UInt8} {datagrams : List (List UInt8)} {i : ℕ}

theorem attempt_eq (h : d.length ≤ 4096) : attempt d = trial d := by
  rw [attempt, List.take_of_length_le h]

theorem attempt_of_malformed (hmax : d.length ≤ 4096) (h : Malformed d) :
    attempt d = .error .structError := by
  rw [attempt_eq hmax, trial_eq_error h.1 h.2]

theorem attempt_of_acceptable (hmax : d.length ≤ 4096) (h : Acceptable d) :
    attempt d = .ok (some (unpacked d)) := by
  obtain ⟨hlen, hlow, hhigh, hsum⟩ := h
  rw [attempt_eq hmax, trial_eq_ok hlen hlow hhigh, if_pos hsum]

/-- **The message is sent again for every other reply.** -/
theorem attempt_eq_none_iff (hmax : d.length ≤ 4096) :
    attempt d = .ok none ↔ ¬ Malformed d ∧ ¬ Acceptable d := by
  constructor
  · intro h
    constructor
    · intro hmal
      exact absurd ((attempt_of_malformed hmax hmal).symm.trans h) (by simp)
    · intro hacc
      exact absurd ((attempt_of_acceptable hmax hacc).symm.trans h) (by simp)
  · rintro ⟨hmal, hacc⟩
    rw [attempt_eq hmax]
    rcases Nat.lt_or_ge 9 d.length with hlen | hlen
    · have hfield : ¬ (tmlField d < 9 ∨ d.length < tmlField d) := fun h => hmal ⟨hlen, h⟩
      rw [trial_eq_ok hlen (by omega) (by omega), if_neg]
      exact fun hsum => hacc ⟨hlen, by omega, by omega, hsum⟩
    · exact trial_of_length_le hlen

theorem attempt_eq_some_iff (hmax : d.length ≤ 4096) {response : Response} :
    attempt d = .ok (some response) ↔ Acceptable d ∧ response = unpacked d := by
  constructor
  · intro h
    have hacc : Acceptable d := by
      by_contra hacc
      by_cases hmal : Malformed d
      · exact absurd ((attempt_of_malformed hmax hmal).symm.trans h) (by simp)
      · exact absurd (((attempt_eq_none_iff hmax).mpr ⟨hmal, hacc⟩).symm.trans h) (by simp)
    rw [attempt_of_acceptable hmax hacc] at h
    exact ⟨hacc, (Option.some.inj (Except.ok.inj h)).symm⟩
  · rintro ⟨hacc, rfl⟩
    exact attempt_of_acceptable hmax hacc

/-! ### Genuine replies -/

/-- What a reply should be: an answer of the packet format. -/
def Genuine (d : List UInt8) : Prop := 9 < d.length ∧ Packet.WellFormed d

/-- A reply that is not genuine and is not retransmitted for: its length field cannot be borne out,
or the bytes it counts verify. -/
def Mishandled (d : List UInt8) : Prop :=
  9 < d.length ∧ ¬ Packet.WellFormed d ∧ (tmlField d < 9 ∨ d.length < tmlField d ∨
    OnesComplement.checksum (d.take (tmlField d)) = 0)

/-- `get_response` accepts genuine replies only. -/
structure AcceptsGenuine (datagrams : List (List UInt8)) : Prop where
  /-- An answer is the payload of a genuine reply. -/
  genuine : ∀ response k, getResponse datagrams = .answer response k →
    ∃ d, datagrams[k - 1]? = some d ∧ Genuine d ∧ response.ips = d.drop 9
  /-- When the message has been sent `i + 1` times, and the reply it waits for is not genuine, the
  message is sent once more; after the seventh reply the call gives up. -/
  retransmits : ∀ i d, getResponse (datagrams.take i) = .blocked (i + 1) → datagrams[i]? = some d →
    ¬ Genuine d →
    getResponse (datagrams.take (i + 1)) = if i < 6 then .blocked (i + 2) else .noAnswer 7

theorem Genuine.acceptable (h : Genuine d) : Acceptable d := by
  obtain ⟨hlen, hwf⟩ := h
  have html : tmlField d = d.length := hwf.tml
  refine ⟨hlen, by omega, by omega, ?_⟩
  rw [html, List.take_length, hwf.verifies]

/-- **What is mishandled** is what is malformed or acceptable, and not genuine. -/
theorem mishandled_iff (h : ¬ Genuine d) : Mishandled d ↔ Malformed d ∨ Acceptable d := by
  constructor
  · rintro ⟨hlen, -, hlow | hhigh | hsum⟩
    · exact Or.inl ⟨hlen, Or.inl hlow⟩
    · exact Or.inl ⟨hlen, Or.inr hhigh⟩
    · by_cases hfield : tmlField d < 9 ∨ d.length < tmlField d
      · exact Or.inl ⟨hlen, hfield⟩
      · exact Or.inr ⟨hlen, by omega, by omega, hsum⟩
  · rintro (⟨hlen, hlow | hhigh⟩ | ⟨hlen, -, -, hsum⟩)
    · exact ⟨hlen, fun hwf => h ⟨hlen, hwf⟩, Or.inl hlow⟩
    · exact ⟨hlen, fun hwf => h ⟨hlen, hwf⟩, Or.inr (Or.inl hhigh)⟩
    · exact ⟨hlen, fun hwf => h ⟨hlen, hwf⟩, Or.inr (Or.inr hsum)⟩

/-- **Which replies are retransmitted for**, if they are not genuine. -/
theorem attempt_eq_none_iff_of_not_genuine (hmax : d.length ≤ 4096) (h : ¬ Genuine d) :
    attempt d = .ok none ↔ ¬ Mishandled d := by
  rw [attempt_eq_none_iff hmax, mishandled_iff h, not_or]

/-- **When only genuine replies are accepted**: if none of the replies up to the first genuine one
is mishandled. -/
theorem acceptsGenuine_iff (hmax : ∀ d ∈ datagrams, d.length ≤ 4096) :
    AcceptsGenuine datagrams ↔ ∀ i d, i < 7 → datagrams[i]? = some d →
      (∀ j < i, ∀ d' ∈ datagrams[j]?, ¬ Genuine d') → ¬ Mishandled d := by
  have hretry : ∀ d ∈ datagrams, ¬ Genuine d → (attempt d = .ok none ↔ ¬ Mishandled d) :=
    fun d hd => attempt_eq_none_iff_of_not_genuine (hmax d hd)
  constructor
  · intro h
    refine Retry.not_of_reached (fun d hd hgen => (hretry d hd hgen).mpr) ?_
    intro i d hi hretried hd hmis
    have hgen : ¬ Genuine d := fun hgen => hmis.2.1 hgen.2
    have hlen := (List.getElem?_eq_some_iff.mp hd).1
    have hagain := h.retransmits i d
      ((getResponse_take_eq_blocked_iff hlen.le).mpr ⟨hi, hretried⟩) hd hgen
    have hnone := (getResponse_take_succ_iff hretried hi hd).mp hagain
    exact (hretry d (List.mem_of_getElem? hd) hgen).mp hnone hmis
  · intro h
    -- what the loop reaches comes before any genuine reply
    have hreached : ∀ i d, i < 7 → Retry.Retried attempt datagrams i → datagrams[i]? = some d →
        ¬ Mishandled d := by
      intro i d hi hretried hd
      refine h i d hi hd (hretried.forall_lt fun d' hd' hnone hgen => ?_)
      exact ((attempt_eq_none_iff (hmax d' hd')).mp hnone).2 hgen.acceptable
    constructor
    · intro response k hanswer
      obtain ⟨i, d, rfl, hi, hretried, hd, hsome⟩ := getResponse_eq_answer_iff.mp hanswer
      obtain ⟨hacc, rfl⟩ := (attempt_eq_some_iff (hmax d (List.mem_of_getElem? hd))).mp hsome
      have hgen : Genuine d := by
        by_contra hgen
        exact hreached i d hi hretried hd ((mishandled_iff hgen).mpr (Or.inr hacc))
      refine ⟨d, by rw [Nat.add_sub_cancel, hd], hgen, ?_⟩
      rw [unpacked_of_wellFormed hgen.2]
      rfl
    · intro i d hwaits hd hgen
      have hlen := (List.getElem?_eq_some_iff.mp hd).1
      obtain ⟨hi, hretried⟩ := (getResponse_take_eq_blocked_iff hlen.le).mp hwaits
      exact (getResponse_take_succ_iff hretried hi hd).mpr
        ((hretry d (List.mem_of_getElem? hd) hgen).mpr (hreached i d hi hretried hd))

/-- A reply that is too short, and a genuine one. -/
theorem acceptsGenuine_iff_retry : (∀ d ∈ [[0x4a], Packet.stamped 5 [1, 2, 3, 4]],
      d.length ≤ 4096) ∧ AcceptsGenuine [[0x4a], Packet.stamped 5 [1, 2, 3, 4]] := by
  have hmax : ∀ d ∈ [[0x4a], Packet.stamped 5 [1, 2, 3, 4]], d.length ≤ 4096 := by decide
  refine ⟨hmax, (acceptsGenuine_iff hmax).mpr fun i d _ hd _ hmis => ?_⟩
  obtain ⟨hlen, hwf, -⟩ := hmis
  rcases List.mem_pair.mp (List.mem_of_getElem? hd) with rfl | rfl
  · exact absurd hlen (by decide)
  · exact hwf (Packet.stamped_wellFormed 5 (by decide))

/-- A reply whose magic number is wrong and whose checksum verifies is accepted. -/
theorem not_acceptsGenuine :
    ¬ AcceptsGenuine [[0, 0, 0, 0, 0, 13, 7, 0xe6, 5, 0, 0, 0, 0]] := by
  intro h
  have hanswer : getResponse [[0, 0, 0, 0, 0, 13, 7, 0xe6, 5, 0, 0, 0, 0]]
      = .answer ⟨0, 13, 7, 0xe6, 5, [0, 0, 0, 0]⟩ 1 := by
    decide
  obtain ⟨d, hd, hgen, -⟩ := h.genuine _ _ hanswer
  obtain rfl := Option.some.inj hd
  exact absurd hgen.2.magic (by decide)

/-! ### Every reply -/

/-- How often the message has been sent when a call ends. -/
def Outcome.transmissions : Outcome → ℕ
  | .answer _ trials | .noAnswer trials | .raised _ trials | .blocked trials => trials

/-- `get_response` survives every reply: it raises nothing, sends the message at most seven times,
returns the payload of the first acceptable reply as soon as it arrives, and `-1` exactly when none
of seven is acceptable. -/
structure Survives (datagrams : List (List UInt8)) : Prop where
  no_exception : ∀ e k, getResponse datagrams ≠ .raised e k
  transmissions : (getResponse datagrams).transmissions ≤ 7
  first_acceptable : ∀ i d, i < 7 → datagrams[i]? = some d → Acceptable d →
    (∀ j < i, ∀ d' ∈ datagrams[j]?, ¬ Acceptable d') →
    ∃ response, getResponse datagrams = .answer response (i + 1) ∧
      response.ips = (d.drop 9).take (tmlField d - 9)
  no_answer : (∃ k, getResponse datagrams = .noAnswer k) ↔
    ∀ i < 7, ∀ d ∈ datagrams[i]?, ¬ Acceptable d

/-- **How a call ends** if seven replies come: by the first that is malformed, by the first that is
acceptable, or after seven that are neither. -/
theorem getResponse_cases (hlen : 7 ≤ datagrams.length)
    (hmax : ∀ d ∈ datagrams, d.length ≤ 4096) :
    (∃ i d, i < 7 ∧ Retry.Retried attempt datagrams i ∧ datagrams[i]? = some d ∧ Malformed d ∧
        getResponse datagrams = .raised .structError (i + 1)) ∨
      (∃ i d, i < 7 ∧ Retry.Retried attempt datagrams i ∧ datagrams[i]? = some d ∧ Acceptable d ∧
        getResponse datagrams = .answer (unpacked d) (i + 1)) ∨
      Retry.Retried attempt datagrams 7 ∧ getResponse datagrams = .noAnswer 7 := by
  rw [getResponse_eq]
  rcases Retry.cases_retried attempt 7 datagrams with
    ⟨i, d, hi, hretried, hd, hne⟩ | hretried | ⟨hlt, -⟩
  · have hle := hmax d (List.mem_of_getElem? hd)
    by_cases hmal : Malformed d
    · refine Or.inl ⟨i, d, hi, hretried, hd, hmal, ?_⟩
      rw [Retry.loop_eq_failed hretried hd hi (attempt_of_malformed hle hmal), outcome]
    · have hacc : Acceptable d := by
        by_contra hacc
        exact hne ((attempt_eq_none_iff hle).mpr ⟨hmal, hacc⟩)
      refine Or.inr (Or.inl ⟨i, d, hi, hretried, hd, hacc, ?_⟩)
      rw [Retry.loop_eq_accepted hretried hd hi (attempt_of_acceptable hle hacc), outcome]
  · exact Or.inr (Or.inr ⟨hretried, by rw [Retry.loop_eq_exhausted hretried, outcome]⟩)
  · exact absurd hlt (by omega)

/-- Seven attempts are all there are. -/
theorem transmissions_le (hlen : 7 ≤ datagrams.length) (hmax : ∀ d ∈ datagrams, d.length ≤ 4096) :
    (getResponse datagrams).transmissions ≤ 7 := by
  rcases getResponse_cases hlen hmax with ⟨i, d, hi, -, -, -, h⟩ | ⟨i, d, hi, -, -, -, h⟩ | ⟨-, h⟩
  · rw [h]
    exact hi
  · rw [h]
    exact hi
  · rw [h]
    exact le_rfl

/-- **When no reply ends the loop by an exception**: if none of the replies up to the first
acceptable one is malformed. -/
theorem survives_iff (hlen : 7 ≤ datagrams.length) (hmax : ∀ d ∈ datagrams, d.length ≤ 4096) :
    Survives datagrams ↔ ∀ i d, i < 7 → datagrams[i]? = some d →
      (∀ j < i, ∀ d' ∈ datagrams[j]?, ¬ Acceptable d') → ¬ Malformed d := by
  have hnone : ∀ d ∈ datagrams, ¬ Acceptable d → ¬ Malformed d → attempt d = .ok none :=
    fun d hd hacc hmal => (attempt_eq_none_iff (hmax d hd)).mpr ⟨hmal, hacc⟩
  have hretry : ∀ d ∈ datagrams, attempt d = .ok none → ¬ Acceptable d :=
    fun d hd h => ((attempt_eq_none_iff (hmax d hd)).mp h).2
  have hcases := getResponse_cases hlen hmax
  constructor
  · intro h
    refine Retry.not_of_reached hnone fun i d hi hretried hd hmal => ?_
    refine h.no_exception .structError (i + 1) ?_
    rw [getResponse_eq, Retry.loop_eq_failed hretried hd hi
      (attempt_of_malformed (hmax d (List.mem_of_getElem? hd)) hmal), outcome]
  · intro h
    refine ⟨?_, transmissions_le hlen hmax, ?_, ?_⟩
    · intro e k hraised
      rcases hcases with ⟨i, d, hi, hretried, hd, hmal, -⟩ | ⟨i, d, -, -, -, -, h'⟩ | ⟨-, h'⟩
      · exact h i d hi hd (hretried.forall_lt hretry) hmal
      · exact absurd (h'.symm.trans hraised) (by simp)
      · exact absurd (h'.symm.trans hraised) (by simp)
    · intro i d hi hd hacc hfirst
      have hlt := (List.getElem?_eq_some_iff.mp hd).1
      have hretried := Retry.retried_of_forall_not hnone h hlt.le hi.le hfirst
      have hsome := attempt_of_acceptable (hmax d (List.mem_of_getElem? hd)) hacc
      exact ⟨_, by rw [getResponse_eq, Retry.loop_eq_accepted hretried hd hi hsome, outcome], rfl⟩
    · constructor
      · rintro ⟨k, hk⟩
        rcases hcases with ⟨i, d, -, -, -, -, h'⟩ | ⟨i, d, -, -, -, -, h'⟩ | ⟨hretried, -⟩
        · exact absurd (h'.symm.trans hk) (by simp)
        · exact absurd (h'.symm.trans hk) (by simp)
        · exact hretried.forall_lt hretry
      · intro hall
        have hretried := Retry.retried_of_forall_not hnone h hlen le_rfl hall
        exact ⟨7, by rw [getResponse_eq, Retry.loop_eq_exhausted hretried, outcome]⟩

/-- Seven replies: one that is too short, one that does not verify, and five that are accepted. -/
def retryReplies : List (List UInt8) :=
  [0x4a] :: [0x4a, 0x6f, 0x79, 0x21, 0, 10, 7, 0, 5, 1] ::
    List.replicate 5 (Packet.stamped 5 [1, 2, 3, 4])

/-- The message is sent three times, and the third reply is returned. -/
theorem survives_iff_retry : 7 ≤ retryReplies.length ∧ (∀ d ∈ retryReplies, d.length ≤ 4096) ∧
    Survives retryReplies ∧
    getResponse retryReplies = .answer ⟨0x4a6f7921, 13, 7, 136, 5, [1, 2, 3, 4]⟩ 3 := by
  have hmax : ∀ d ∈ retryReplies, d.length ≤ 4096 := by decide
  have hfine : ∀ d ∈ retryReplies, ¬ Malformed d := by decide
  exact ⟨by decide, hmax, (survives_iff (by decide) hmax).mpr fun i d _ hd _ =>
    hfine d (List.mem_of_getElem? hd), by decide⟩

/-- Ten bytes of zeros, the length field among them, raise `struct.error`. -/
theorem not_survives : ¬ Survives (List.replicate 7 (List.replicate 10 0)) := by
  intro h
  exact h.no_exception .structError 1 (by decide)

end ClientUDP

end Lab2

end Comp4320
