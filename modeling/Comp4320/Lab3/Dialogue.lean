import Comp4320.Lab3.TurnTaking
import Mathlib.Algebra.Ring.Parity

/-!
# A session is a dialogue

Two people talk in turns. The one who has called speaks first; a line is said, it is heard, and then
it is the other one's turn; and after a certain line nothing more is said. That is all there is to a
session in which every record is a string and arrives whole and no process is ended from outside,
whatever is typed and however the two processes are scheduled: the sessions refine the dialogues.

In the dialogue no two things can happen at once, so the order of the processes cannot matter.

## Main definitions

* `speaker`, `script` — whose line it is, and a list of lines with their speakers
* `Dialogue`, `dialogue` — the dialogues
* `Chat.Mirrors` — a session is at this point of a dialogue
* `Chat.Undisturbed` — the assumption

## Main results

* `Chat.mirrors_of_undisturbed` — every undisturbed session is a dialogue
-/

namespace Comp4320

namespace Lab3

/-! ### Dialogues -/

/-- Whose line this is, counting from zero. -/
def speaker (k : ℕ) : Side := if Even k then .initiator else .waiter

theorem speaker_succ (k : ℕ) : speaker (k + 1) = (speaker k).other := by
  by_cases h : Even k <;> simp [speaker, h, Nat.even_add_one, Side.other]

/-- The lines with their speakers. -/
def script (said : List (List UInt8)) : List (Side × List UInt8) :=
  said.zipIdx.map fun x => (speaker x.2, x.1)

/-- The lines of one side. -/
def lines (said : List (List UInt8)) (p : Side) : List (List UInt8) :=
  ((script said).filter fun x => x.1 = p).map Prod.snd

/-- What has been said, and how much of it has been heard. -/
structure Dialogue where
  said : List (List UInt8)
  heard : ℕ
  deriving DecidableEq

/-- What happens next. -/
inductive Word
  | say (line : List UInt8)
  | hear

namespace Dialogue

/-- A line is said when everything has been heard, unless the kill word has been said. -/
def step (d : Dialogue) : Word → Option Dialogue
  | .say line =>
    if d.heard = d.said.length ∧ killWord ∉ d.said then
      some { d with said := d.said ++ [line] }
    else none
  | .hear => if d.heard < d.said.length then some { d with heard := d.heard + 1 } else none

/-- What a side does next. -/
def turn (d : Dialogue) (p : Side) : Turn :=
  if d.heard < d.said.length then
    if killWord ∈ d.said ∧ p = speaker d.heard then .returned else .receiving
  else if killWord ∈ d.said then .returned
  else if p = speaker d.said.length then .sending
  else .receiving

end Dialogue

/-- The dialogues: nothing has been said. -/
def dialogue : System Dialogue Word where
  init := fun d => d = ⟨[], 0⟩
  step := Dialogue.step

variable {said : List (List UInt8)} {line : List UInt8}

theorem script_concat (said : List (List UInt8)) (line : List UInt8) :
    script (said ++ [line]) = script said ++ [(speaker said.length, line)] := by
  simp [script, List.zipIdx_append]

/-- A line adds to those of its speaker. -/
theorem lines_concat_speaker (said : List (List UInt8)) (line : List UInt8) :
    lines (said ++ [line]) (speaker said.length) = lines said (speaker said.length) ++ [line] := by
  simp [lines, script_concat]

/-- It adds nothing to those of the other. -/
theorem lines_concat_other (said : List (List UInt8)) (line : List UInt8) :
    lines (said ++ [line]) (speaker said.length).other
      = lines said (speaker said.length).other := by
  simp [lines, script_concat]

/-- The first lines of a side are the first of all its lines. -/
theorem lines_take_isPrefix (said : List (List UInt8)) (n : ℕ) (p : Side) :
    lines (said.take n) p <+: lines said p := by
  have hscript : script (said.take n) <+: script said := by
    conv_rhs => rw [← List.take_append_drop n said]
    rw [script, script, List.zipIdx_append, List.map_append]
    exact List.prefix_append ..
  exact (hscript.filter _).map _

namespace Chat

variable {s s' : Chat} {d d' : Dialogue} {p q : Side} {e : Move} {record : List UInt8}

/-- Every `recv` returns a whole record, every record that is sent holds a string, and no process is
ended from outside. -/
def Undisturbed (s : Chat) : Move → Prop
  | .send p input => 0 ∈ (fgets (s.party p).myMsg input).load 0 sizeofMsg
  | .recv _ n _ => n = sizeofMsg
  | .close _ => False
  | .sendFails _ => True

instance (s : Chat) : ∀ e, Decidable (Undisturbed s e)
  | .send p input =>
    inferInstanceAs (Decidable (0 ∈ (fgets (s.party p).myMsg input).load 0 sizeofMsg))
  | .recv _ n _ => inferInstanceAs (Decidable (n = sizeofMsg))
  | .close _ => .isFalse id
  | .sendFails _ => .isTrue trivial

theorem Undisturbed.wholeRecords (h : Undisturbed s e) : WholeRecords s e := by
  cases e with
  | send p input => exact h
  | recv p n past => exact h
  | sendFails p => trivial
  | close p => trivial

/-- The session is at this point of the dialogue. -/
structure Mirrors (s : Chat) (d : Dialogue) : Prop where
  /-- What has been sent are the lines that have been said, by their speakers. -/
  log : s.log = script d.said
  /-- What a side has shown are the lines of the other that have been heard. -/
  displayed : ∀ p, (s.party p).displayed = lines (d.said.take d.heard) p.other
  turn : ∀ p, (s.party p).turn = d.turn p

/-! ### The three places -/

/-- Where a session is. -/
inductive Place (s : Chat) (d : Dialogue) : Prop
  /-- One side types, and the other waits. -/
  | typing (heard : d.heard = d.said.length) (alive : killWord ∉ d.said)
      (turn : (s.party (speaker d.said.length)).turn = .sending)
      (turn_other : (s.party (speaker d.said.length).other).turn = .receiving)
      (quiet : ∀ q, s.stream q = [])
  /-- A line is on the way. -/
  | flying (said : List (List UInt8)) (line : List UInt8) (said_eq : d.said = said ++ [line])
      (heard : d.heard = said.length) (alive : killWord ∉ said)
      (turn : (s.party (speaker said.length)).turn
        = if line = killWord then .returned else .receiving)
      (turn_other : (s.party (speaker said.length).other).turn = .receiving)
      (length_eq : (s.stream (speaker said.length)).length = sizeofMsg)
      (zero_mem : 0 ∈ s.stream (speaker said.length))
      (record : cString (s.stream (speaker said.length)) = line)
      (quiet : s.stream (speaker said.length).other = [])
  /-- The kill word has been shown. -/
  | ended (said : List (List UInt8)) (said_eq : d.said = said ++ [killWord])
      (heard : d.heard = said.length + 1) (alive : killWord ∉ said)
      (turn : ∀ q, (s.party q).turn = .returned) (quiet : ∀ q, s.stream q = [])

/-- The invariant. -/
structure Lockstep (s : Chat) (d : Dialogue) : Prop where
  log : s.log = script d.said
  displayed : ∀ p, (s.party p).displayed = lines (d.said.take d.heard) p.other
  place : Place s d

theorem Place.turn (h : Place s d) (p : Side) : (s.party p).turn = d.turn p := by
  cases h with
  | typing heard alive turn turn_other quiet =>
    revert p
    refine Side.forall_of_both (speaker d.said.length) ?_ ?_
    · simp [turn, Dialogue.turn, heard, alive]
    · simp [turn_other, Dialogue.turn, heard, alive]
  | flying said line said_eq heard alive turn turn_other =>
    revert p
    refine Side.forall_of_both (speaker said.length) ?_ ?_
    · simp [turn, Dialogue.turn, heard, said_eq, alive, eq_comm]
    · simp [turn_other, Dialogue.turn, heard, said_eq]
  | ended said said_eq heard alive turn => simp [turn, Dialogue.turn, heard, said_eq]

theorem Lockstep.mirrors (h : Lockstep s d) : Mirrors s d :=
  ⟨h.log, h.displayed, h.place.turn⟩

/-! ### Steps -/

/-- Only the side whose turn it is sends, and that is saying a line. -/
theorem Lockstep.send {input : Option Chunk} (h : Lockstep s d)
    (hzero : 0 ∈ (fgets (s.party p).myMsg input).load 0 sizeofMsg)
    (hstep : s.send p input = some s') :
    p = speaker d.said.length ∧
      ∃ d', dialogue.step d (.say (cString ((fgets (s.party p).myMsg input).load 0 sizeofMsg)))
        = some d' ∧ Lockstep s' d' := by
  have hs := sends_of_send hstep
  generalize (fgets (s.party p).myMsg input).load 0 sizeofMsg = record at hs hzero
  have hno : ∀ q, (s.party q).turn ≠ .sending → p ≠ q := by
    rintro q hq rfl
    exact hq hs.before
  cases h.place with
  | typing heard alive turn turn_other quiet =>
    obtain rfl : p = speaker d.said.length := by
      rcases Side.eq_or_eq_other (speaker d.said.length) p with hp | hp
      · exact hp
      · exact absurd hp (hno _ (by simp [turn_other]))
    refine ⟨rfl, ⟨d.said ++ [cString record], d.heard⟩, if_pos ⟨heard, alive⟩, ?_, fun q => ?_, ?_⟩
    · rw [hs.log, h.log, script_concat]
    · have hdisplayed : (s'.party q).displayed = (s.party q).displayed := by
        revert q
        exact Side.forall_of_both _ hs.displayed (congrArg Party.displayed hs.party)
      rw [hdisplayed, h.displayed, List.take_append_of_le_length heard.le]
    · have hstream : s'.stream (speaker d.said.length) = record := by
        rw [hs.stream, quiet, List.nil_append]
      refine .flying d.said (cString record) rfl heard alive hs.after ?_ ?_ ?_ ?_ ?_
      · rw [hs.party, turn_other]
      · rw [hstream, hs.length_eq]
      · rwa [hstream]
      · rw [hstream]
      · rw [hs.stream_other, quiet]
  | flying said line said_eq heard alive turn turn_other =>
    refine absurd hs.before (turn_ne_of_both (p := speaker said.length) ?_ (by simp [turn_other]) p)
    rw [turn]
    split_ifs <;> simp
  | ended said said_eq heard alive turn => exact absurd (turn p) (by simp [hs.before])

/-- Only the side that is waited for receives, and that is hearing a line. -/
theorem Lockstep.recv {past : List UInt8} (h : Lockstep s d)
    (hstep : s.recv p sizeofMsg past = some s') :
    ∃ d', dialogue.step d .hear = some d' ∧ Lockstep s' d' := by
  cases h.place with
  | typing heard alive turn turn_other quiet => exact absurd quiet (not_quiet_of_recv hstep)
  | ended said said_eq heard alive turn quiet => exact absurd quiet (not_quiet_of_recv hstep)
  | flying said line said_eq heard alive turn turn_other length_eq zero_mem record quiet =>
    obtain ⟨rfl, hs, hempty⟩ := only_record hstep length_eq zero_mem quiet
    have hlt : d.heard < d.said.length := by simp [heard, said_eq]
    have hparty := hs.party
    rw [Side.other_other] at hparty
    refine ⟨⟨d.said, d.heard + 1⟩, if_pos hlt, ?_, ?_, ?_⟩
    · rw [hs.log, h.log]
    · have hall : d.said.take (d.heard + 1) = said ++ [line] := by
        rw [said_eq, heard]
        exact List.take_of_length_le (by simp)
      have hbefore : ∀ q, (s.party q).displayed = lines said q.other := by
        intro q
        rw [h.displayed, heard, said_eq, List.take_left]
      dsimp only
      rw [hall]
      refine Side.forall_of_both (speaker said.length) ?_ ?_
      · rw [hparty, hbefore, lines_concat_other]
      · rw [hs.displayed, hbefore, Side.other_other, lines_concat_speaker, record]
    · have hturn := hs.after
      rw [record] at hturn
      by_cases hkill : line = killWord
      · subst hkill
        rw [if_pos rfl] at turn hturn
        refine .ended said said_eq (congrArg (· + 1) heard) alive ?_ hempty
        exact Side.forall_of_both _ (by rw [hparty, turn]) hturn
      · rw [if_neg hkill] at turn hturn
        have hlen : d.said.length = said.length + 1 := by simp [said_eq]
        refine .typing (by rw [hlen, heard]) ?_ ?_ ?_ hempty
        · simpa [said_eq, alive] using Ne.symm hkill
        · dsimp only
          rw [hlen, speaker_succ, hturn]
        · dsimp only
          rw [hlen, speaker_succ, Side.other_other, hparty, turn]

theorem Lockstep.step (h : Lockstep s d) (he : Undisturbed s e) (hstep : s.step e = some s') :
    ∃ w d', dialogue.step d w = some d' ∧ Lockstep s' d' := by
  cases e with
  | send p input =>
    obtain ⟨-, d', hd, hs⟩ := h.send he hstep
    exact ⟨_, d', hd, hs⟩
  | recv p n past =>
    obtain rfl : n = sizeofMsg := he
    obtain ⟨d', hd, hs⟩ := h.recv hstep
    exact ⟨_, d', hd, hs⟩
  | sendFails p =>
    obtain ⟨⟨hsending, hreturned⟩, -⟩ := Option.ite_none_right_eq_some.mp hstep
    -- nobody has returned while somebody types
    rw [h.place.turn] at hsending hreturned
    revert hsending hreturned
    rw [Dialogue.turn, Dialogue.turn]
    split_ifs <;> simp
  | close p => exact he.elim

/-- The run lemma. -/
theorem lockstep_of_undisturbed (h : chat.ReachableUnder Undisturbed s) :
    ∃ d, dialogue.Reachable d ∧ Lockstep s d := by
  refine h.invariant (I := fun s => ∃ d, dialogue.Reachable d ∧ Lockstep s d) (fun s hs => ?_)
    fun s e s' hs he hstep => ?_
  · obtain ⟨hinitiator, hwaiter, hempty, hlog⟩ := hs
    refine ⟨⟨[], 0⟩, .init rfl, hlog, fun p => (hempty p).1, ?_⟩
    exact .typing rfl (by simp) hinitiator hwaiter fun q => (hempty q).2.2
  · obtain ⟨d, hreach, hd⟩ := hs
    obtain ⟨w, d', hw, hd'⟩ := hd.step he hstep
    exact ⟨d', hreach.step trivial hw, hd'⟩

/-- **Every undisturbed session is a dialogue**, whatever is typed, whether or not there is anything
left to type, and however the steps of the two sides interleave. -/
theorem mirrors_of_undisturbed (h : chat.ReachableUnder Undisturbed s) :
    ∃ d, dialogue.Reachable d ∧ Mirrors s d := by
  obtain ⟨d, hreach, hd⟩ := lockstep_of_undisturbed h
  exact ⟨d, hreach, hd.mirrors⟩

/-- A line that has been said and heard. -/
theorem mirrors_of_undisturbed_hi : ∃ s, chat.ReachableUnder Undisturbed s ∧
    (s.party .waiter).displayed = [hi.bytes] ∧ ∃ d, dialogue.Reachable d ∧ Mirrors s d := by
  have hrun : ((chat.restrict Undisturbed).run cleared
      [.send .initiator (some hi), .recv .waiter 256 []]).map
        (fun s => (s.party .waiter).displayed) = some [hi.bytes] := by
    decide +kernel
  obtain ⟨s, hs, hshown⟩ := Option.map_eq_some_iff.mp hrun
  have hunder := System.reachableUnder_of_run cleared_reachable hs
  exact ⟨s, hunder, hshown, mirrors_of_undisturbed hunder⟩

end Chat

end Lab3

end Comp4320
