import Comp4320.Lab3.Console
import Mathlib.Data.List.Induction

/-!
# How a session ends

A session in which every record arrives whole never gets stuck: as long as the kill word has not
been shown, one side can type or the other can receive. What is left to read decides whether it
ends. When the text of a side is used up its last piece is sent over and over, so a session goes on
for good unless one of the pieces is the kill word; and if one of them is, the session is over after
a number of steps that can be told from the text alone, whatever is typed on the other side and
however the two processes are scheduled.

When no process can go on, both have returned, nothing is in flight, and each side has shown
everything the other has said. What has been said then is the same in all runs: the pieces of the
two texts in turns, up to the first that is the kill word.

## Main definitions

* `Console.transcript` — what is said from the beginning to the end

## Main results

* `Console.over_of_quiet` — what a session is like that cannot go on
* `Console.bounded_iff` — which sessions end
* `Console.log_of_quiet` — what has been said in a session that cannot go on
-/

namespace Comp4320

namespace Lab3

/-! ### Dialogues that have got far -/

variable {said : List (List UInt8)}

theorem speaker_eq_initiator_iff {k : ℕ} : speaker k = .initiator ↔ k % 2 = 0 := by
  rw [speaker, ← Nat.even_iff]
  split_ifs with h <;> simp [h]

/-- The two sides speak in turns. -/
theorem length_lines (said : List (List UInt8)) (p : Side) :
    (lines said p).length = (said.length + if p = .initiator then 1 else 0) / 2 := by
  induction said using List.reverseRecOn generalizing p with
  | nil => cases p <;> rfl
  | append_singleton said line ih =>
    have hlen : (said ++ [line]).length = said.length + 1 := List.length_append
    have hodd : speaker said.length = .initiator ↔ said.length % 2 = 0 := speaker_eq_initiator_iff
    revert p
    refine Side.forall_of_both (speaker said.length) ?_ ?_
    · rw [lines_concat_speaker, List.length_append, ih, List.length_singleton, hlen]
      split_ifs with h
      · have := hodd.mp h
        omega
      · have := mt hodd.mpr h
        omega
    · rw [lines_concat_other, ih, hlen]
      cases hs : speaker said.length with
      | initiator =>
        have := hodd.mp hs
        simp only [Side.other, reduceCtorEq, if_false]
        omega
      | waiter =>
        have := mt hodd.mpr (by rw [hs]; decide)
        simp only [Side.other, if_true]
        omega

/-- What is said as number `k` is the line number `k / 2` of its speaker. -/
theorem getElem?_lines (said : List (List UInt8)) (k : ℕ) :
    (lines said (speaker k))[k / 2]? = said[k]? := by
  induction said using List.reverseRecOn with
  | nil => simp [lines, script]
  | append_singleton said line ih =>
    have hlen := length_lines (said ++ [line]) (speaker k)
    rw [List.length_append, List.length_singleton] at hlen
    have hodd : speaker k = .initiator ↔ k % 2 = 0 := speaker_eq_initiator_iff
    rcases Nat.lt_trichotomy k said.length with hlt | rfl | hgt
    · rw [List.getElem?_append_left hlt]
      rw [List.getElem?_eq_getElem hlt] at ih ⊢
      rcases Side.eq_or_eq_other (speaker said.length) (speaker k) with hk | hk
      · rw [hk] at ih ⊢
        rw [lines_concat_speaker, List.getElem?_append_left (List.getElem?_eq_some_iff.mp ih).1, ih]
      · rw [hk] at ih ⊢
        rw [lines_concat_other, ih]
    · have hself := length_lines said (speaker said.length)
      rw [lines_concat_speaker, List.getElem?_concat_length]
      have hhalf : said.length / 2 = (lines said (speaker said.length)).length := by
        rw [hself]
        split_ifs with h
        · have := hodd.mp h
          omega
        · omega
      rw [hhalf, List.getElem?_concat_length]
    · refine (List.getElem?_eq_none ?_).trans (List.getElem?_eq_none ?_).symm
      · rw [hlen]
        split_ifs with h
        · have := hodd.mp h
          omega
        · omega
      · rw [List.length_append, List.length_singleton]
        exact hgt

/-- The lines of a side are among the lines. -/
theorem lines_subset (said : List (List UInt8)) (p : Side) : lines said p ⊆ said := by
  intro line hline
  obtain ⟨x, hx, rfl⟩ := List.mem_map.mp hline
  obtain ⟨y, hy, rfl⟩ := List.mem_map.mp (List.mem_of_mem_filter hx)
  exact List.fst_mem_of_mem_zipIdx hy

/-- What is said is said by one of the two sides. -/
theorem exists_mem_lines {line : List UInt8} (h : line ∈ said) : ∃ p, line ∈ lines said p := by
  obtain ⟨k, hk, rfl⟩ := List.mem_iff_getElem.mp h
  refine ⟨speaker k, List.mem_map.mpr ⟨(speaker k, said[k]), ?_, rfl⟩⟩
  refine List.mem_filter.mpr ⟨List.mem_map.mpr ⟨(said[k], k), ?_, rfl⟩, by simp⟩
  exact List.mem_zipIdx_iff_getElem?.mpr (List.getElem?_eq_getElem hk)

namespace Chat

variable {s : Chat} {d : Dialogue}

/-- Only the last line may be the kill word. -/
theorem Lockstep.alive (h : Lockstep s d) : killWord ∉ d.said.dropLast := by
  cases h.place with
  | typing heard alive => exact fun hmem => alive (List.dropLast_subset _ hmem)
  | flying said line said_eq heard alive => rwa [said_eq, List.dropLast_concat]
  | ended said said_eq heard alive => rwa [said_eq, List.dropLast_concat]

theorem Lockstep.heard_le (h : Lockstep s d) : d.heard ≤ d.said.length := by
  cases h.place with
  | typing heard => exact heard.le
  | flying said line said_eq heard => simp [said_eq, heard]
  | ended said said_eq heard => simp [said_eq, heard]

end Chat

namespace Console

variable {text : Side → List UInt8} {buffer : Side → Memory} {s s' : Console} {d : Dialogue}
  {p : Side} {past : List UInt8}

/-! ### A session can go on -/

/-- **As long as the kill word has not been shown, one of the sides can go on.** -/
theorem exists_step (hlock : Chat.Lockstep s.chat d)
    (hover : ¬ (d.heard = d.said.length ∧ killWord ∈ d.said)) (past : List UInt8) :
    ∃ p s', s.step p past = some s' := by
  cases hlock.place with
  | typing heard alive turn =>
    refine ⟨speaker d.said.length, ?_⟩
    rw [Console.step, turn]
    dsimp only
    rw [Chat.step, Chat.send]
    dsimp only
    rw [if_pos turn]
    exact ⟨_, rfl⟩
  | flying said line said_eq heard alive turn turn_other length_eq zero_mem =>
    obtain ⟨chat, hchat, -⟩ := Chat.exists_recv turn_other (by rwa [Side.other_other])
      (by rwa [Side.other_other]) past
    refine ⟨(speaker said.length).other, ?_⟩
    rw [Console.step, turn_other]
    dsimp only
    rw [Chat.step, hchat]
    exact ⟨_, rfl⟩
  | ended said said_eq heard => exact absurd ⟨by simp [said_eq, heard], by simp [said_eq]⟩ hover

/-! ### Counting steps -/

/-- Where a session is after `n` steps: so many things have been said and heard. -/
def After (text : Side → List UInt8) (buffer : Side → Memory) (n : ℕ) (s : Console) : Prop :=
  ∃ d, Reads text buffer s d ∧ d.said.length + d.heard = n

/-- Each step says or hears one thing. -/
theorem After.step {n : ℕ} (h : After text buffer n s) (hstep : s.step p past = some s') :
    After text buffer (n + 1) s' := by
  obtain ⟨d, hd, rfl⟩ := h
  obtain ⟨d', ⟨w, hw⟩, hd'⟩ := hd.step hstep
  refine ⟨d', hd', ?_⟩
  cases w with
  | say line =>
    obtain ⟨-, heq⟩ := Option.ite_none_right_eq_some.mp hw
    obtain rfl := Option.some.inj heq
    simp only [List.length_append, List.length_singleton]
    omega
  | hear =>
    obtain ⟨-, heq⟩ := Option.ite_none_right_eq_some.mp hw
    obtain rfl := Option.some.inj heq
    exact (Nat.add_assoc ..).symm

theorem after_init (htext : ∀ p, text p ≠ []) (h : (console text buffer).init s) :
    After text buffer 0 s :=
  ⟨⟨[], 0⟩, reads_of_init (fun p => Or.inl (htext p)) h, rfl⟩

/-- The run lemma. -/
theorem after_run (htext : ∀ p, text p ≠ []) (h : (console text buffer).init s)
    {es : List (Side × List UInt8)} (hrun : (console text buffer).run s es = some s') :
    After text buffer es.length s' := by
  have hafter : After text buffer (0 + es.length) s' :=
    System.of_run (fun _ _ _ _ hs hstep => hs.step hstep) (after_init htext h) hrun
  rwa [Nat.zero_add] at hafter

theorem exists_after (htext : ∀ p, text p ≠ []) (h : (console text buffer).Reachable s) :
    ∃ n, After text buffer n s :=
  h.invariant (I := fun s => ∃ n, After text buffer n s) (fun _ hs => ⟨0, after_init htext hs⟩)
    fun _ _ _ ⟨n, hs⟩ _ hstep => ⟨n + 1, hs.step hstep⟩

/-- A session that cannot go on is a dialogue in which the kill word has been heard. -/
theorem ended_of_quiet (htext : ∀ p, text p ≠ []) (h : (console text buffer).Reachable s)
    (hquiet : ∀ p past, s.step p past = none) :
    ∃ d, Reads text buffer s d ∧ d.heard = d.said.length ∧ killWord ∈ d.said := by
  obtain ⟨n, d, hd, -⟩ := exists_after htext h
  refine ⟨d, hd, ?_⟩
  by_contra hover
  obtain ⟨q, s', hstep⟩ := exists_step hd.lockstep hover []
  exact absurd (hstep.symm.trans (hquiet q [])) (by simp)

/-- When the kill word has been heard, both sides have returned. -/
theorem Reads.returned (hd : Reads text buffer s d)
    (hover : d.heard = d.said.length ∧ killWord ∈ d.said) (p : Side) :
    (s.chat.party p).turn = .returned ∧ s.chat.stream p = [] ∧
      (s.chat.party p).displayed = s.chat.sent p.other := by
  have hlock := hd.lockstep
  refine ⟨?_, ?_, ?_⟩
  · rw [hlock.place.turn, Dialogue.turn, if_neg (by omega), if_pos hover.2]
  · cases hlock.place with
    | typing heard alive => exact absurd hover.2 alive
    | flying said line said_eq heard => exact absurd hover.1 (by simp [said_eq, heard])
    | ended said said_eq heard alive turn quiet => exact quiet p
  · rw [hlock.mirrors.displayed, hlock.mirrors.sent, hover.1, List.take_length]

/-- **A session that cannot go on is over for both sides**, and each has shown all that the other
has said. -/
theorem over_of_quiet (htext : ∀ p, text p ≠ []) (h : (console text buffer).Reachable s)
    (hquiet : ∀ p past, s.step p past = none) (p : Side) :
    (s.chat.party p).turn = .returned ∧ s.chat.stream p = [] ∧
      (s.chat.party p).displayed = s.chat.sent p.other := by
  obtain ⟨d, hd, hover⟩ := ended_of_quiet htext h hquiet
  exact hd.returned hover p

/-- After six steps neither side can go on. -/
theorem greeting_quiet : ∃ s, (console greeting fun _ _ => 0).Reachable s ∧
    (∀ p past, s.step p past = none) ∧ s.chat.log
      = [(.initiator, Chat.hi.bytes), (.waiter, Chat.hi.bytes), (.initiator, killWord)] := by
  have hrun : ((console greeting fun _ _ => 0).run greetingStart
      [(.initiator, []), (.waiter, []), (.waiter, []), (.initiator, []), (.initiator, []),
        (.waiter, [])]).map
        (fun s => ((s.chat.party .initiator).turn, (s.chat.party .waiter).turn, s.chat.log))
      = some (.returned, .returned, [(.initiator, Chat.hi.bytes), (.waiter, Chat.hi.bytes),
        (.initiator, killWord)]) := by
    decide +kernel
  obtain ⟨s, hs, hstate⟩ := Option.map_eq_some_iff.mp hrun
  obtain ⟨hinitiator, hstate⟩ := Prod.mk.inj hstate
  obtain ⟨hwaiter, hlog⟩ := Prod.mk.inj hstate
  have hreturned : ∀ p, (s.chat.party p).turn = .returned :=
    Side.forall_of_both .initiator hinitiator hwaiter
  refine ⟨s, System.reachable_of_run (.init greetingStart_init) hs, fun p past => ?_, hlog⟩
  rw [Console.step, hreturned p]

/-- Both sides have returned. -/
theorem over_of_greeting : ∃ s, (console greeting fun _ _ => 0).Reachable s ∧
    (∀ p past, s.step p past = none) ∧ ∀ p, (s.chat.party p).turn = .returned ∧
      s.chat.stream p = [] ∧ (s.chat.party p).displayed = s.chat.sent p.other := by
  obtain ⟨s, hs, hquiet, -⟩ := greeting_quiet
  exact ⟨s, hs, hquiet, over_of_quiet (fun p => by cases p <;> decide) hs hquiet⟩

/-! ### Which sessions end -/

variable (text buffer) in
/-- A side says every piece of its text. -/
theorem exists_message_eq (hzero : 0 ∉ text p) (htext : text p ≠ []) {m : List UInt8}
    (hm : m ∈ Lines.pieces newline 254 (text p)) :
    ∃ k < (Lines.pieces newline 254 (text p)).length, message (buffer p) (text p) k = m := by
  obtain ⟨k, hk, rfl⟩ := List.mem_iff_getElem.mp hm
  have hget := message_eq_pieces (buffer p) hzero htext k
  rw [Nat.min_eq_left (by omega), List.getElem?_eq_getElem hk] at hget
  exact ⟨k, hk, (Option.some.inj hget).symm⟩

variable (buffer) in
/-- What a side says, sooner or later, are the pieces of its text. -/
theorem mem_pieces_iff (hzero : 0 ∉ text p) (htext : text p ≠ []) (m : List UInt8) :
    m ∈ Lines.pieces newline 254 (text p) ↔ ∃ k, message (buffer p) (text p) k = m := by
  constructor
  · intro hm
    obtain ⟨k, -, hk⟩ := exists_message_eq text buffer hzero htext hm
    exact ⟨k, hk⟩
  · rintro ⟨k, rfl⟩
    exact List.mem_of_getElem? (message_eq_pieces (buffer p) hzero htext k)

/-- Once a side has the kill word as its next message, the session is over soon. -/
theorem After.le {n k : ℕ} (h : After text buffer n s)
    (hkill : message (buffer p) (text p) k = killWord) : n ≤ 4 * k + 4 := by
  obtain ⟨d, hd, rfl⟩ := h
  have hheard := hd.lockstep.heard_le
  have hfew : (lines d.said.dropLast p).length ≤ k := by
    by_contra hlt
    have hget : (lines d.said.dropLast p)[k]? = some (lines d.said.dropLast p)[k] :=
      List.getElem?_eq_getElem (by omega)
    obtain ⟨rest, hrest⟩ : lines d.said.dropLast p <+: lines d.said p := by
      rw [List.dropLast_eq_take]
      exact lines_take_isPrefix ..
    have hsaid := hd.said p k (lines d.said.dropLast p)[k]
      (by rw [← hrest, List.getElem?_append_left (by omega), hget])
    refine hd.lockstep.alive (lines_subset _ p (List.mem_of_getElem? (i := k) ?_))
    rw [hget, hsaid, hkill]
  rw [length_lines, List.length_dropLast] at hfew
  omega

/-- If no side ever says the kill word, one of them can go on. -/
theorem After.exists_step {n : ℕ} (h : After text buffer n s)
    (hkill : ∀ p k, message (buffer p) (text p) k ≠ killWord) :
    ∃ e s', (console text buffer).step s e = some s' ∧ ∃ m, After text buffer m s' := by
  have ⟨d, hd, _⟩ := h
  have halive : killWord ∉ d.said := by
    intro hmem
    obtain ⟨p, hp⟩ := exists_mem_lines hmem
    obtain ⟨k, hk, hline⟩ := List.mem_iff_getElem.mp hp
    exact hkill p k (hline ▸ hd.said p k _ (List.getElem?_eq_getElem hk)).symm
  obtain ⟨p, s', hstep⟩ := Console.exists_step hd.lockstep (fun hover => halive hover.2) []
  exact ⟨(p, []), s', hstep, n + 1, h.step hstep⟩

/-- **Which sessions end**: those in which the kill word is a piece of what is typed on one of the
sides. All others go on for good. -/
theorem bounded_iff (hzero : ∀ p, 0 ∉ text p) (htext : ∀ p, text p ≠ [])
    (h : (console text buffer).init s) :
    (∃ n, ∀ es s', (console text buffer).run s es = some s' → es.length ≤ n) ↔
      ∃ p, killWord ∈ Lines.pieces newline 254 (text p) := by
  constructor
  · rintro ⟨n, hbound⟩
    by_contra hkill
    have hnever : ∀ p k, message (buffer p) (text p) k ≠ killWord := fun p k hk =>
      hkill ⟨p, (mem_pieces_iff buffer (hzero p) (htext p) killWord).mpr ⟨k, hk⟩⟩
    obtain ⟨es, s', hrun, hlen⟩ := System.exists_run_of_length (M := console text buffer)
      (I := fun s => ∃ n, After text buffer n s) (fun s ⟨n, hs⟩ => hs.exists_step hnever)
      ⟨0, after_init htext h⟩ (n + 1)
    have hle := hbound es s' hrun
    omega
  · rintro ⟨p, hp⟩
    obtain ⟨k, hk⟩ := (mem_pieces_iff buffer (hzero p) (htext p) killWord).mp hp
    exact ⟨4 * k + 4, fun es s' hrun => (after_run htext h hrun).le hk⟩

/-- One of the sides types the kill word. -/
theorem bounded_iff_greeting :
    (∃ n, ∀ es s', (console greeting fun _ _ => 0).run greetingStart es = some s' →
      es.length ≤ n) ↔ ∃ p, killWord ∈ Lines.pieces newline 254 (greeting p) :=
  bounded_iff (fun p => by cases p <;> decide) (fun p => by cases p <;> decide) greetingStart_init

/-! ### What is said from the beginning to the end -/

/-- What is said as number `k`: a side whose text is used up says its last piece again. -/
def utterance (text : Side → List UInt8) (k : ℕ) : List UInt8 :=
  let said := Lines.pieces newline 254 (text (speaker k))
  said.getD (min (k / 2) (said.length - 1)) []

/-- What is said before the kill word, and the kill word. -/
def transcript (text : Side → List UInt8) : List (List UInt8) :=
  ((List.range (2 * ((Lines.pieces newline 254 (text .initiator)).length
    + (Lines.pieces newline 254 (text .waiter)).length))).map (utterance text)).takeWhile
      (· ≠ killWord) ++ [killWord]

theorem Reads.utterance (hzero : ∀ p, 0 ∉ text p) (htext : ∀ p, text p ≠ [])
    (h : Reads text buffer s d) {k : ℕ} {line : List UInt8} (hk : d.said[k]? = some line) :
    Console.utterance text k = line := by
  rw [← getElem?_lines] at hk
  have hpiece := message_eq_pieces (buffer (speaker k)) (hzero (speaker k)) (htext (speaker k))
    (k / 2)
  rw [h.said _ _ line hk, Console.utterance, List.getD_eq_getElem?_getD, hpiece, Option.getD_some]

/-- If the kill word is ever said, it is said before the two texts are used up. -/
theorem exists_utterance_eq {k : ℕ} (hk : utterance text k = killWord) :
    ∃ j < 2 * ((Lines.pieces newline 254 (text .initiator)).length
      + (Lines.pieces newline 254 (text .waiter)).length), utterance text j = killWord := by
  rw [utterance] at hk
  generalize hi : min (k / 2) ((Lines.pieces newline 254 (text (speaker k))).length - 1) = i at hk
  have hlt : i < (Lines.pieces newline 254 (text (speaker k))).length := by
    by_contra hge
    rw [List.getD_eq_default _ _ (Nat.not_lt.mp hge)] at hk
    exact absurd hk (by decide)
  have hspeaker : speaker (2 * i + k % 2) = speaker k := by
    have heq : speaker (2 * i + k % 2) = .initiator ↔ speaker k = .initiator := by
      rw [speaker_eq_initiator_iff, speaker_eq_initiator_iff]
      omega
    cases hs : speaker k with
    | initiator => exact heq.mpr hs
    | waiter =>
      refine (Side.eq_or_eq_other .initiator _).resolve_left fun h => ?_
      exact absurd (hs.symm.trans (heq.mp h)) (by decide)
  refine ⟨2 * i + k % 2, ?_, ?_⟩
  · cases hs : speaker k <;> rw [hs] at hlt <;> omega
  · rw [utterance, hspeaker, show (2 * i + k % 2) / 2 = i by omega, Nat.min_eq_left (by omega), hk]

/-- When the kill word has been said, the dialogue is the transcript. -/
theorem log_of_reads (hzero : ∀ p, 0 ∉ text p) (htext : ∀ p, text p ≠ [])
    (hd : Reads text buffer s d) (hmem : killWord ∈ d.said) :
    s.chat.log = script (transcript text) := by
  have hsaid : d.said = d.said.dropLast ++ [killWord] := by
    have hconcat := List.dropLast_append_getLast (List.ne_nil_of_mem hmem)
    have hlast : killWord ∈ d.said.dropLast ++ [d.said.getLast (List.ne_nil_of_mem hmem)] := by
      rwa [hconcat]
    have heq := (List.mem_append.mp hlast).resolve_left hd.lockstep.alive
    rw [List.mem_singleton.mp heq, hconcat]
  have hget : ∀ k line, d.said[k]? = some line → utterance text k = line :=
    fun k line hk => hd.utterance hzero htext hk
  have halive := hd.lockstep.alive
  generalize d.said.dropLast = said at hsaid halive
  have hends : utterance text said.length = killWord :=
    hget _ _ (by rw [hsaid, List.getElem?_concat_length])
  obtain ⟨j, hj, hkill⟩ := exists_utterance_eq hends
  have hlen : said.length ≤ j := by
    by_contra hlt
    refine halive (List.mem_of_getElem? (i := j) ?_)
    have hline : d.said[j]? = said[j]? := by
      rw [hsaid, List.getElem?_append_left (Nat.not_le.mp hlt)]
    rw [List.getElem?_eq_getElem (Nat.not_le.mp hlt)] at hline ⊢
    rw [← hget j _ hline, hkill]
  -- the list of all that could be said begins with what has been said
  have hprefix : d.said <+: (List.range (2 * ((Lines.pieces newline 254 (text .initiator)).length
      + (Lines.pieces newline 254 (text .waiter)).length))).map (utterance text) := by
    rw [List.prefix_iff_getElem?]
    intro k hk
    have hlt : k < said.length + 1 := by
      rw [hsaid] at hk
      simpa using hk
    rw [List.getElem?_map, List.getElem?_range (by omega)]
    exact congrArg some (hget k _ (List.getElem?_eq_getElem hk))
  obtain ⟨rest, hrest⟩ := hprefix
  have htake : ((said ++ [killWord]) ++ rest).takeWhile (· ≠ killWord) = said := by
    rw [List.append_assoc, List.takeWhile_append_of_pos, List.singleton_append,
      List.takeWhile_cons_of_neg (by simp), List.append_nil]
    intro line hline
    simpa using fun heq : line = killWord => halive (heq ▸ hline)
  rw [hd.lockstep.log, transcript, ← hrest, hsaid, htake]

/-- **What has been said when a session is over is settled by the two texts**, so it is the same in
all runs. -/
theorem log_of_quiet (hzero : ∀ p, 0 ∉ text p) (htext : ∀ p, text p ≠ [])
    (h : (console text buffer).Reachable s) (hquiet : ∀ p past, s.step p past = none) :
    s.chat.log = script (transcript text) := by
  obtain ⟨d, hd, -, hmem⟩ := ended_of_quiet htext h hquiet
  exact log_of_reads hzero htext hd hmem

/-- What has been said after the six steps. -/
theorem log_of_quiet_greeting : ∃ s, (console greeting fun _ _ => 0).Reachable s ∧
    s.chat.log = [(.initiator, Chat.hi.bytes), (.waiter, Chat.hi.bytes), (.initiator, killWord)] ∧
    s.chat.log = script (transcript greeting) := by
  obtain ⟨s, hs, hquiet, hlog⟩ := greeting_quiet
  exact ⟨s, hs, hlog, log_of_quiet (fun p => by cases p <;> decide)
    (fun p => by cases p <;> decide) hs hquiet⟩

end Console

end Lab3

end Comp4320
