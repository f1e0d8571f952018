import Comp4320.Lab3.Transcript
import Mathlib.Order.Nat

/-!
# Turn-taking

As long as every line is read, every record arrives whole and no side is killed, the two loops run
in lockstep, although nothing but the records in flight synchronises them: either one side types
and the other waits for it, or both wait for the one record in flight. `Exchange` names these
states, and the two in which the kill word has been sent, and has been shown. Every step leads from
one of them to the next, so a session cannot deadlock, nothing is sent after the kill word, and both
sides end on it.

## Main definitions

* `Chat.Orderly` — the steps of such a session
* `Chat.Exchange` — the four states it goes through
* `Chat.TakesTurns` — what holds in all of them

## Main results

* `Chat.exchange_of_orderly` — every orderly session is in one of the four states
* `Chat.takesTurns_of_orderly` — every orderly session takes turns and ends by agreement
-/

namespace Comp4320

namespace Lab3

namespace Chat

variable {s s' : Chat} {p q : Side} {e : Move} {record : List UInt8}

/-- Every `fgets` returns a chunk, every `recv` a whole record, `sendto` succeeds, and no process is
ended from outside. -/
def Orderly (_ : Chat) : Move → Prop
  | .send _ input => input.isSome
  | .recv _ n _ => n = sizeofMsg
  | .sendFails _ | .close _ => False

instance (s : Chat) : ∀ e, Decidable (Orderly s e)
  | .send _ input => inferInstanceAs (Decidable (input.isSome = true))
  | .recv _ n _ => inferInstanceAs (Decidable (n = sizeofMsg))
  | .sendFails _ | .close _ => .isFalse id

/-- What is read is a string, so whoever reads a line sends one. -/
theorem Orderly.wholeRecords (h : Orderly s e) : WholeRecords s e := by
  cases e with
  | send p input =>
    obtain ⟨chunk, rfl⟩ := Option.isSome_iff_exists.mp h
    exact zero_mem_fgets _ chunk
  | recv p n past => exact h
  | sendFails p => trivial
  | close p => trivial

/-- A side receives the kill word at its very next receive, and returns on it. -/
def ReturnsNext (s : Chat) (p : Side) : Prop :=
  (s.party p).turn = .receiving ∧ ∀ past, ∃ s', chat.step s (.recv p sizeofMsg past) = some s' ∧
    (s'.party p).turn = .returned ∧
    (s'.party p).displayed = (s.party p).displayed ++ [killWord]

/-- What holds of an orderly session. -/
structure TakesTurns (s : Chat) : Prop where
  /-- At most one record is in flight. -/
  one_record : (s.stream .initiator).length + (s.stream .waiter).length = 0 ∨
    (s.stream .initiator).length + (s.stream .waiter).length = sizeofMsg
  /-- The two sides never wait for each other. -/
  not_blocked : ¬ ∀ p, (s.party p).turn = .receiving ∧ s.stream p.other = []
  /-- What is shown is what the other side has sent, in order. -/
  in_order : ∀ p, (s.party p).displayed <+: s.sent p.other
  /-- Nothing is sent after the kill word. -/
  kill_last : ∀ before x after, s.log = before ++ x :: after → x.2 = killWord → after = []
  /-- When a side has returned, the kill word was the last message; its sender has returned, and the
  other side has returned on it, or will at its very next receive. -/
  agreed_end : ∀ p, (s.party p).turn = .returned → ∃ sender,
    s.log.getLast? = some (sender, killWord) ∧ (s.party sender).turn = .returned ∧
    (((s.party sender.other).turn = .returned ∧
      (s.party sender.other).displayed.getLast? = some killWord) ∨ ReturnsNext s sender.other)

/-! ### The four states -/

/-- Where an orderly session is. -/
inductive Exchange (s : Chat) : Prop
  /-- One side types, and the other waits. -/
  | typing (p : Side) (turn : (s.party p).turn = .sending)
      (turn_other : (s.party p.other).turn = .receiving) (quiet : ∀ q, s.stream q = [])
      (alive : ∀ x ∈ s.log, x.2 ≠ killWord)
  /-- Both wait for the record one of them has sent. -/
  | flying (p : Side) (turn : (s.party p).turn = .receiving)
      (turn_other : (s.party p.other).turn = .receiving)
      (length_eq : (s.stream p).length = sizeofMsg) (zero_mem : 0 ∈ s.stream p)
      (quiet : s.stream p.other = []) (message : cString (s.stream p) ≠ killWord)
      (alive : ∀ x ∈ s.log, x.2 ≠ killWord)
  /-- One side has sent the kill word and returned, and the other waits for it. -/
  | killing (p : Side) (turn : (s.party p).turn = .returned)
      (turn_other : (s.party p.other).turn = .receiving)
      (length_eq : (s.stream p).length = sizeofMsg) (zero_mem : 0 ∈ s.stream p)
      (quiet : s.stream p.other = []) (message : cString (s.stream p) = killWord)
      (log : List (Side × List UInt8)) (log_eq : s.log = log ++ [(p, killWord)])
      (alive : ∀ x ∈ log, x.2 ≠ killWord)
  /-- Both have returned on the kill word. -/
  | ended (p : Side) (turn : ∀ q, (s.party q).turn = .returned) (quiet : ∀ q, s.stream q = [])
      (shown : (s.party p.other).displayed.getLast? = some killWord)
      (log : List (Side × List UInt8)) (log_eq : s.log = log ++ [(p, killWord)])
      (alive : ∀ x ∈ log, x.2 ≠ killWord)

theorem turn_ne_of_both {turn : Turn} (hp : (s.party p).turn ≠ turn)
    (hother : (s.party p.other).turn ≠ turn) (q : Side) : (s.party q).turn ≠ turn :=
  Side.forall_of_both (P := fun q => (s.party q).turn ≠ turn) p hp hother q

/-- Only the side whose turn it is sends, and its record is then the one in flight. -/
theorem Exchange.send (h : Exchange s) {chunk : Chunk} (hstep : s.send p (some chunk) = some s') :
    Exchange s' := by
  have hs := sends_of_send hstep
  have hzero := zero_mem_fgets (s.party p).myMsg chunk
  generalize (fgets (s.party p).myMsg (some chunk)).load 0 sizeofMsg = record at hs hzero
  have hno : ∀ q, (s.party q).turn ≠ .sending → p ≠ q := by
    rintro q hq rfl
    exact hq hs.before
  cases h with
  | typing q turn turn_other quiet alive =>
    obtain rfl : p = q := by
      rcases Side.eq_or_eq_other q p with hp | hp
      · exact hp
      · exact absurd hp (hno _ (by simp [turn_other]))
    have hstream : s'.stream p = record := by rw [hs.stream, quiet, List.nil_append]
    have hquiet : s'.stream p.other = [] := by rw [hs.stream_other, quiet]
    have hother : (s'.party p.other).turn = .receiving := by rw [hs.party, turn_other]
    by_cases hkill : cString record = killWord
    · refine .killing p ?_ hother ?_ ?_ hquiet ?_ s.log ?_ alive
      · rw [hs.after, if_pos hkill]
      · rw [hstream, hs.length_eq]
      · rwa [hstream]
      · rwa [hstream]
      · rw [hs.log, hkill]
    · refine .flying p ?_ hother ?_ ?_ hquiet ?_ ?_
      · rw [hs.after, if_neg hkill]
      · rw [hstream, hs.length_eq]
      · rwa [hstream]
      · rwa [hstream]
      · rw [hs.log]
        intro x hx
        rcases List.mem_append.mp hx with hx | hx
        · exact alive x hx
        · rw [List.mem_singleton.mp hx]
          exact hkill
  | flying q turn turn_other =>
    exact absurd hs.before (turn_ne_of_both (p := q) (by simp [turn]) (by simp [turn_other]) p)
  | killing q turn turn_other =>
    exact absurd hs.before (turn_ne_of_both (p := q) (by simp [turn]) (by simp [turn_other]) p)
  | ended q turn => exact absurd (turn p) (by simp [hs.before])

/-- The one record in flight is received by the side it is meant for, and nothing is left. -/
theorem only_record {past : List UInt8} (hstep : s.recv p sizeofMsg past = some s')
    (length_eq : (s.stream q).length = sizeofMsg) (zero_mem : 0 ∈ s.stream q)
    (quiet : s.stream q.other = []) :
    p = q.other ∧ Receives s q.other (s.stream q) s' ∧ ∀ r, s'.stream r = [] := by
  obtain rfl : p = q.other := by
    rcases Side.eq_or_eq_other q p with rfl | hp
    · have hlen := length_of_recv hstep
      rw [quiet] at hlen
      exact absurd hlen (by decide)
    · exact hp
  have htake : (s.stream q.other.other).take sizeofMsg = s.stream q := by
    rw [Side.other_other, List.take_of_length_le length_eq.le]
  have hs := receives_of_recv hstep (by rwa [htake])
  rw [htake] at hs
  refine ⟨rfl, hs, Side.forall_of_both q ?_ ?_⟩
  · have hcut := hs.stream
    rw [Side.other_other] at hcut
    exact List.append_right_eq_self.mp hcut.symm
  · rw [hs.stream_self, quiet]

/-- Only the side that is waited for receives, and then it is its turn, unless it has received the
kill word. -/
theorem Exchange.recv (h : Exchange s) {past : List UInt8}
    (hstep : s.recv p sizeofMsg past = some s') : Exchange s' := by
  cases h with
  | typing q turn turn_other quiet => exact absurd quiet (not_quiet_of_recv hstep)
  | ended q turn quiet => exact absurd quiet (not_quiet_of_recv hstep)
  | flying q turn turn_other length_eq zero_mem quiet message alive =>
    obtain ⟨rfl, hs, hempty⟩ := only_record hstep length_eq zero_mem quiet
    refine .typing q.other ?_ ?_ hempty ?_
    · rw [hs.after, if_neg message]
    · rw [hs.party, Side.other_other, turn]
    · rw [hs.log]
      exact alive
  | killing q turn turn_other length_eq zero_mem quiet message log log_eq alive =>
    obtain ⟨rfl, hs, hempty⟩ := only_record hstep length_eq zero_mem quiet
    refine .ended q (Side.forall_of_both q ?_ ?_) hempty ?_ log ?_ alive
    · have hparty := hs.party
      rw [Side.other_other] at hparty
      rw [hparty, turn]
    · rw [hs.after, if_pos message]
    · rw [hs.displayed, message, List.getLast?_concat]
    · rw [hs.log, log_eq]

theorem Exchange.step (h : Exchange s) (he : Orderly s e) (hstep : s.step e = some s') :
    Exchange s' := by
  cases e with
  | send p input =>
    obtain ⟨chunk, rfl⟩ := Option.isSome_iff_exists.mp he
    exact h.send hstep
  | recv p n past =>
    obtain rfl : n = sizeofMsg := he
    exact h.recv hstep
  | sendFails p => exact he.elim
  | close p => exact he.elim

/-- **Every orderly session is in one of the four states.** -/
theorem exchange_of_orderly (h : chat.ReachableUnder Orderly s) : Exchange s := by
  refine h.invariant (fun s hs => ?_) fun s e s' hs he hstep => hs.step he hstep
  obtain ⟨hinitiator, hwaiter, hempty, hlog⟩ := hs
  exact .typing .initiator hinitiator hwaiter (fun q => (hempty q).2.2) (by rw [hlog]; simp)

/-! ### What holds in the four states -/

/-- A side that waits for a record receives it. -/
theorem exists_recv (hturn : (s.party p).turn = .receiving)
    (hlen : (s.stream p.other).length = sizeofMsg) (hzero : 0 ∈ s.stream p.other)
    (past : List UInt8) :
    ∃ s', s.recv p sizeofMsg past = some s' ∧ Receives s p (s.stream p.other) s' := by
  have hmay : s.MayReturn p sizeofMsg := Or.inl ⟨by decide, le_rfl, hlen.ge⟩
  obtain ⟨s', hstep⟩ : ∃ s', s.recv p sizeofMsg past = some s' := ⟨_, if_pos ⟨hturn, hmay⟩⟩
  have htake : (s.stream p.other).take sizeofMsg = s.stream p.other :=
    List.take_of_length_le hlen.le
  have hs := receives_of_recv hstep (by rwa [htake])
  rw [htake] at hs
  exact ⟨s', hstep, hs⟩

theorem Exchange.one_record (h : Exchange s) :
    (s.stream .initiator).length + (s.stream .waiter).length = 0 ∨
      (s.stream .initiator).length + (s.stream .waiter).length = sizeofMsg := by
  have hsum : ∀ p, (s.stream .initiator).length + (s.stream .waiter).length
      = (s.stream p).length + (s.stream p.other).length := by
    intro p
    cases p
    · rfl
    · exact Nat.add_comm ..
  cases h with
  | typing p turn turn_other quiet => exact Or.inl (by simp [quiet])
  | flying p turn turn_other length_eq zero_mem quiet =>
    exact Or.inr (by rw [hsum p, length_eq, quiet]; rfl)
  | killing p turn turn_other length_eq zero_mem quiet =>
    exact Or.inr (by rw [hsum p, length_eq, quiet]; rfl)
  | ended p turn quiet => exact Or.inl (by simp [quiet])

theorem Exchange.not_blocked (h : Exchange s) :
    ¬ ∀ p, (s.party p).turn = .receiving ∧ s.stream p.other = [] := by
  intro hall
  cases h with
  | typing p turn => exact absurd (hall p).1 (by simp [turn])
  | flying p turn turn_other length_eq =>
    have hnil := (hall p.other).2
    rw [Side.other_other] at hnil
    rw [hnil] at length_eq
    exact absurd length_eq (by decide)
  | killing p turn => exact absurd (hall p).1 (by simp [turn])
  | ended p turn => exact absurd (hall p).1 (by simp [turn])

/-- If nothing in a list but its last element is the kill word, nothing follows the kill word. -/
theorem kill_last_of_alive {log : List (Side × List UInt8)} (alive : ∀ x ∈ log, x.2 ≠ killWord)
    (last : List (Side × List UInt8)) (hlast : last.length ≤ 1)
    {before after : List (Side × List UInt8)} {x : Side × List UInt8}
    (heq : log ++ last = before ++ x :: after) (hx : x.2 = killWord) : after = [] := by
  have hlen := congrArg List.length heq
  have hge : log.length ≤ before.length := by
    by_contra hlt
    have hget : log[before.length]? = some x := by
      rw [← List.getElem?_append_left (Nat.not_le.mp hlt), heq,
        List.getElem?_append_right le_rfl, Nat.sub_self, List.getElem?_cons_zero]
    exact alive x (List.mem_of_getElem? hget) hx
  simp only [List.length_append, List.length_cons] at hlen
  exact List.eq_nil_of_length_eq_zero (by omega)

theorem Exchange.kill_last (h : Exchange s) {before after : List (Side × List UInt8)}
    {x : Side × List UInt8} (heq : s.log = before ++ x :: after) (hx : x.2 = killWord) :
    after = [] := by
  cases h with
  | typing p turn turn_other quiet alive =>
    exact kill_last_of_alive alive [] (Nat.zero_le 1) ((List.append_nil _).trans heq) hx
  | flying p turn turn_other length_eq zero_mem quiet message alive =>
    exact kill_last_of_alive alive [] (Nat.zero_le 1) ((List.append_nil _).trans heq) hx
  | killing p turn turn_other length_eq zero_mem quiet message log log_eq alive =>
    exact kill_last_of_alive alive [(p, killWord)] le_rfl (log_eq.symm.trans heq) hx
  | ended p turn quiet shown log log_eq alive =>
    exact kill_last_of_alive alive [(p, killWord)] le_rfl (log_eq.symm.trans heq) hx

theorem Exchange.agreed_end (h : Exchange s) (hp : (s.party p).turn = .returned) : ∃ sender,
    s.log.getLast? = some (sender, killWord) ∧ (s.party sender).turn = .returned ∧
    (((s.party sender.other).turn = .returned ∧
      (s.party sender.other).displayed.getLast? = some killWord) ∨
      ReturnsNext s sender.other) := by
  cases h with
  | typing q turn turn_other =>
    exact absurd hp (turn_ne_of_both (p := q) (by simp [turn]) (by simp [turn_other]) p)
  | flying q turn turn_other =>
    exact absurd hp (turn_ne_of_both (p := q) (by simp [turn]) (by simp [turn_other]) p)
  | killing q turn turn_other length_eq zero_mem quiet message log log_eq alive =>
    refine ⟨q, by rw [log_eq, List.getLast?_concat], turn, Or.inr ⟨turn_other, fun past => ?_⟩⟩
    obtain ⟨s', hstep, hs⟩ := exists_recv turn_other (by rwa [Side.other_other])
      (by rwa [Side.other_other]) past
    rw [Side.other_other] at hs
    exact ⟨s', hstep, by rw [hs.after, if_pos message], by rw [hs.displayed, message]⟩
  | ended q turn quiet shown log log_eq alive =>
    exact ⟨q, by rw [log_eq, List.getLast?_concat], turn q, Or.inl ⟨turn q.other, shown⟩⟩

/-- **Every orderly session takes turns and ends by agreement**, whatever is typed and however the
steps of the two sides interleave. -/
theorem takesTurns_of_orderly (h : chat.ReachableUnder Orderly s) : TakesTurns s := by
  have hs := exchange_of_orderly h
  obtain ⟨flight, hflight⟩ :=
    carries_of_wholeRecords (h.mono fun _ _ he => Orderly.wholeRecords he)
  exact ⟨hs.one_record, hs.not_blocked, hflight.faithful.displayed, fun _ _ _ => hs.kill_last,
    fun _ => hs.agreed_end⟩

/-- `"Bye Bye Birdie\n"`, as it is typed. -/
def bye : Chunk := ⟨killWord, by decide⟩

/-- One message each, and the waiter ends the session. -/
theorem takesTurns_of_orderly_bye : ∃ s, chat.ReachableUnder Orderly s ∧
    (s.party .initiator).displayed = [killWord] ∧ (s.party .waiter).displayed = [hi.bytes] ∧
    TakesTurns s := by
  have hrun : ((chat.restrict Orderly).run cleared [.send .initiator (some hi),
      .recv .waiter 256 [], .send .waiter (some bye), .recv .initiator 256 []]).map
        (fun s => ((s.party .initiator).displayed, (s.party .waiter).displayed))
      = some ([killWord], [hi.bytes]) := by
    decide +kernel
  obtain ⟨s, hs, hshown⟩ := Option.map_eq_some_iff.mp hrun
  obtain ⟨hinitiator, hwaiter⟩ := Prod.mk.inj hshown
  have hunder := System.reachableUnder_of_run cleared_reachable hs
  exact ⟨s, hunder, hinitiator, hwaiter, takesTurns_of_orderly hunder⟩

end Chat

end Lab3

end Comp4320
