import Comp4320.Lab3.ChatSession

/-!
# What a session shows

The messages a side shows are those the other side has sent, in order, as long as every `recv`
returns one whole record and every record sent holds a string. The code sees to neither. The number
`recv` returns is thrown away: after a short read the buffer holds the beginning of one record and
the end of another, and every later read starts in the middle of one; at the end of the stream the
buffer keeps the last message, which is shown again, and the side goes on as if it had been sent.
And a side whose input ends before the first line sends what `myMsg` held by chance. If no byte of
that is zero, the other side shows it and the bytes behind its own buffer, which nobody has sent.

## Main definitions

* `Chat.Sends`, `Chat.Receives` — what sending a record and receiving one does
* `Chat.Faithful` — what is shown has been sent, and the end of the stream ends the session
* `Chat.WholeRecords` — every `recv` returns one record, and every record is a string

## Main results

* `Chat.faithful_of_wholeRecords` — in every run of whole records, what is shown has been sent
* `Chat.not_faithful` — a short read that alters a message, an end that repeats one, and a record
  that is no string
-/

namespace Comp4320

namespace Lab3

namespace Chat

variable {s s' : Chat} {p q : Side} {e : Move} {record : List UInt8}

/-- What each side has shown is what the other has sent, as far as it goes; and a side that has seen
the end of the stream has returned. -/
structure Faithful (s : Chat) : Prop where
  displayed : ∀ p, (s.party p).displayed <+: s.sent p.other
  stops : ∀ p, (s.party p).endSeen = true → (s.party p).turn = .returned

/-- Every `recv` returns a whole record, and every record that is sent holds a string: one of its
bytes is zero. -/
def WholeRecords (s : Chat) : Move → Prop
  | .send p input => 0 ∈ (fgets (s.party p).myMsg input).load 0 sizeofMsg
  | .recv _ n _ => n = sizeofMsg
  | _ => True

instance (s : Chat) : ∀ e, Decidable (WholeRecords s e)
  | .send p input =>
    inferInstanceAs (Decidable (0 ∈ (fgets (s.party p).myMsg input).load 0 sizeofMsg))
  | .recv _ n _ => inferInstanceAs (Decidable (n = sizeofMsg))
  | .sendFails _ | .close _ => .isTrue trivial

/-! ### The two halves of the loops -/

/-- A side sends a record. -/
structure Sends (s : Chat) (p : Side) (record : List UInt8) (s' : Chat) : Prop where
  length_eq : record.length = sizeofMsg
  before : (s.party p).turn = .sending
  after : (s'.party p).turn = if cString record = killWord then .returned else .receiving
  displayed : (s'.party p).displayed = (s.party p).displayed
  endSeen : (s'.party p).endSeen = (s.party p).endSeen
  party : s'.party p.other = s.party p.other
  stream : s'.stream p = s.stream p ++ record
  stream_other : s'.stream p.other = s.stream p.other
  log : s'.log = s.log ++ [(p, cString record)]

/-- A side receives a whole record. -/
structure Receives (s : Chat) (p : Side) (record : List UInt8) (s' : Chat) : Prop where
  length_eq : record.length = sizeofMsg
  before : (s.party p).turn = .receiving
  after : (s'.party p).turn = if cString record = killWord then .returned else .sending
  displayed : (s'.party p).displayed = (s.party p).displayed ++ [cString record]
  endSeen : (s'.party p).endSeen = (s.party p).endSeen
  party : s'.party p.other = s.party p.other
  stream : s.stream p.other = record ++ s'.stream p.other
  stream_self : s'.stream p = s.stream p
  log : s'.log = s.log

theorem sends_of_send {input : Option Chunk} (h : s.send p input = some s') :
    Sends s p ((fgets (s.party p).myMsg input).load 0 sizeofMsg) s' := by
  obtain ⟨hturn, heq⟩ := Option.ite_none_right_eq_some.mp h
  obtain rfl := Option.some.inj heq
  constructor <;> simp [setStream, setParty, Function.update_of_ne, hturn]

/-- A whole record replaces the buffer. -/
theorem load_store_record (msg : Memory) (h : record.length = sizeofMsg) :
    (msg.store 0 record).load 0 sizeofMsg = record := by
  rw [← h, Memory.load_store_self]

/-- A whole record is received from a stream that has one. -/
theorem length_of_recv {past : List UInt8} (h : s.recv p sizeofMsg past = some s') :
    ((s.stream p.other).take sizeofMsg).length = sizeofMsg := by
  obtain ⟨⟨-, hmay⟩, -⟩ := Option.ite_none_right_eq_some.mp h
  rcases hmay with ⟨-, -, hle⟩ | ⟨hzero, -⟩
  · exact List.length_take_of_le hle
  · exact absurd hzero (by decide)

/-- Nothing is received from an empty stream. -/
theorem not_quiet_of_recv {past : List UInt8} (h : s.recv p sizeofMsg past = some s') :
    ¬ ∀ q, s.stream q = [] := by
  intro hquiet
  have hlen := length_of_recv h
  rw [hquiet] at hlen
  exact absurd hlen (by decide)

/-- If the record is a string, what lies behind `msg` does not matter. -/
theorem receives_of_recv {past : List UInt8} (h : s.recv p sizeofMsg past = some s')
    (hzero : 0 ∈ (s.stream p.other).take sizeofMsg) :
    Receives s p ((s.stream p.other).take sizeofMsg) s' := by
  have hlen := length_of_recv h
  obtain ⟨⟨hturn, -⟩, heq⟩ := Option.ite_none_right_eq_some.mp h
  obtain rfl := Option.some.inj heq
  have hload := load_store_record (s.party p).msg hlen
  have hshown := cString_append hzero past
  have hpos : (sizeofMsg == 0) = false := rfl
  constructor <;> simp [hload, hlen, hturn, hpos, hshown]

/-! ### Runs of whole records -/

/-- The streams carry these records, which are the messages sent and not yet shown. -/
structure Carries (s : Chat) (flight : Side → List (List UInt8)) : Prop where
  stream : ∀ p, s.stream p = (flight p).flatten
  whole : ∀ p, ∀ record ∈ flight p, record.length = sizeofMsg ∧ 0 ∈ record
  sent : ∀ p, s.sent p = (s.party p.other).displayed ++ (flight p).map cString
  endSeen : ∀ p, (s.party p).endSeen = false

variable {flight : Side → List (List UInt8)}

theorem Carries.faithful (h : Carries s flight) : Faithful s := by
  refine ⟨fun p => ?_, fun p hend => absurd hend (by simp [h.endSeen p])⟩
  rw [h.sent, Side.other_other]
  exact List.prefix_append ..

/-- Sending appends a record. -/
theorem Carries.sends (h : Carries s flight) (hs : Sends s p record s') (hzero : 0 ∈ record) :
    Carries s' (Function.update flight p (flight p ++ [record])) := by
  have hother : Function.update flight p (flight p ++ [record]) p.other = flight p.other :=
    Function.update_of_ne (Side.other_ne p) ..
  refine ⟨Side.forall_of_both p ?_ ?_, Side.forall_of_both p ?_ ?_, Side.forall_of_both p ?_ ?_,
    Side.forall_of_both p ?_ ?_⟩
  · rw [Function.update_self, hs.stream, h.stream, List.flatten_append, List.flatten_singleton]
  · rw [hother, hs.stream_other, h.stream]
  · rw [Function.update_self]
    intro r hr
    rcases List.mem_append.mp hr with hr | hr
    · exact h.whole p r hr
    · rw [List.mem_singleton.mp hr]
      exact ⟨hs.length_eq, hzero⟩
  · rw [hother]
    exact h.whole p.other
  · rw [Function.update_self, sent_concat_self hs.log, h.sent, hs.party, List.map_append,
      List.map_singleton, List.append_assoc]
  · rw [hother, sent_concat_other hs.log, h.sent, Side.other_other, hs.displayed]
  · rw [hs.endSeen, h.endSeen]
  · rw [hs.party, h.endSeen]

/-- Receiving takes the first record away and shows its message. -/
theorem Carries.receives (h : Carries s flight) {past : List UInt8}
    (hstep : s.recv p sizeofMsg past = some s') :
    ∃ rest, Carries s' (Function.update flight p.other rest) := by
  have hother : ∀ rest, Function.update flight p.other rest p = flight p := fun rest =>
    Function.update_of_ne (Side.ne_other p) ..
  cases hflight : flight p.other with
  | nil =>
    have hlen := length_of_recv hstep
    rw [h.stream, hflight] at hlen
    exact absurd hlen (by decide)
  | cons record rest =>
    obtain ⟨hwhole, hzero⟩ := h.whole p.other record (by rw [hflight]; exact List.mem_cons_self)
    have htake : (s.stream p.other).take sizeofMsg = record := by
      rw [h.stream, hflight, List.flatten_cons, List.take_left' hwhole]
    have hs := receives_of_recv hstep (by rwa [htake])
    rw [htake] at hs
    refine ⟨rest, Side.forall_of_both p ?_ ?_, Side.forall_of_both p ?_ ?_,
      Side.forall_of_both p ?_ ?_, Side.forall_of_both p ?_ ?_⟩
    · rw [hother, hs.stream_self, h.stream]
    · have hcut := hs.stream
      rw [h.stream, hflight, List.flatten_cons] at hcut
      rw [Function.update_self]
      exact (List.append_cancel_left hcut).symm
    · rw [hother]
      exact h.whole p
    · rw [Function.update_self]
      intro r hr
      exact h.whole p.other r (by rw [hflight]; exact List.mem_cons_of_mem _ hr)
    · rw [hother, sent_congr hs.log, h.sent, hs.party]
    · rw [Function.update_self, sent_congr hs.log, h.sent, Side.other_other, hs.displayed, hflight,
        List.map_cons, List.append_assoc, List.singleton_append]
    · rw [hs.endSeen, h.endSeen]
    · rw [hs.party, h.endSeen]

/-- A side that returns without sending or showing anything changes nothing of this. -/
theorem Carries.setParty_returned (h : Carries s flight) :
    Carries (s.setParty p { s.party p with turn := .returned }) flight := by
  refine ⟨h.stream, h.whole, Side.forall_of_both p ?_ ?_, Side.forall_of_both p ?_ ?_⟩
  · rw [sent_congr log_setParty, party_setParty_other, h.sent]
  · rw [sent_congr log_setParty, Side.other_other, party_setParty_self, h.sent, Side.other_other]
  · rw [party_setParty_self]
    exact h.endSeen p
  · rw [party_setParty_other]
    exact h.endSeen p.other

theorem Carries.step (h : Carries s flight) (he : WholeRecords s e) (hstep : s.step e = some s') :
    ∃ flight', Carries s' flight' := by
  cases e with
  | send p input => exact ⟨_, h.sends (sends_of_send hstep) he⟩
  | sendFails p =>
    obtain ⟨-, heq⟩ := Option.ite_none_right_eq_some.mp hstep
    obtain rfl := Option.some.inj heq
    exact ⟨flight, h.setParty_returned⟩
  | recv p n past =>
    obtain rfl : n = sizeofMsg := he
    obtain ⟨rest, hrest⟩ := h.receives hstep
    exact ⟨_, hrest⟩
  | close p =>
    obtain rfl := Option.some.inj hstep
    exact ⟨flight, h.setParty_returned⟩

theorem carries_of_wholeRecords (h : chat.ReachableUnder WholeRecords s) :
    ∃ flight, Carries s flight := by
  refine h.invariant (I := fun s => ∃ flight, Carries s flight)
    (fun s hs => ⟨fun _ => [], ?_⟩) fun s e s' hs he hstep => ?_
  · obtain ⟨-, -, hempty, hlog⟩ := hs
    refine ⟨fun p => (hempty p).2.2, by simp, fun p => ?_, fun p => (hempty p).2.1⟩
    rw [(hempty p.other).1, sent, hlog]
    rfl
  · obtain ⟨flight, hflight⟩ := hs
    exact hflight.step he hstep

/-- **In every run of whole records, what is shown has been sent**, in order, nothing altered,
repeated or invented; whatever is typed, whatever the buffers hold behind their strings, and
whenever a side ends. -/
theorem faithful_of_wholeRecords (h : chat.ReachableUnder WholeRecords s) : Faithful s := by
  obtain ⟨flight, hflight⟩ := carries_of_wholeRecords h
  exact hflight.faithful

/-- A session about to begin, with cleared buffers. -/
def cleared : Chat := .fresh fun _ => (fun _ => 0, fun _ => 0)

theorem cleared_reachable {C : Chat → Move → Prop} : chat.ReachableUnder C cleared :=
  .init (init_fresh _)

/-- `"hi\n"`. -/
def hi : Chunk := ⟨[0x68, 0x69, 0x0a], by decide⟩

/-- A message, received whole. -/
theorem faithful_of_wholeRecords_hi : ∃ s, chat.ReachableUnder WholeRecords s ∧
    (s.party .waiter).displayed = [hi.bytes] ∧ Faithful s := by
  have hrun : ((chat.restrict WholeRecords).run cleared
      [.send .initiator (some hi), .recv .waiter 256 []]).map
        (fun s => (s.party .waiter).displayed) = some [hi.bytes] := by
    decide +kernel
  obtain ⟨s, hs, hshown⟩ := Option.map_eq_some_iff.mp hrun
  have hunder := System.reachableUnder_of_run cleared_reachable hs
  exact ⟨s, hunder, hshown, faithful_of_wholeRecords hunder⟩

/-- A session about to begin, no byte of whose buffers is zero. -/
def uncleared : Chat := .fresh fun _ => (fun _ => 1, fun _ => 1)

/-- A `recv` that returns two bytes of a record shows two bytes of the message. A `recv` that
returns 0, because the other side has ended, shows the last message again and has the side go on.
And if a side has nothing to read, and its buffer happens to hold no zero, the other side shows a
byte too much, although it receives the record whole. -/
theorem not_faithful :
    (∃ s, chat.Reachable s ∧ (s.party .waiter).displayed = [[0x68, 0x69]] ∧
      s.sent .initiator = [hi.bytes] ∧ ¬ Faithful s) ∧
    (∃ s, chat.Reachable s ∧ (s.party .waiter).displayed = [hi.bytes, hi.bytes] ∧
      s.sent .initiator = [hi.bytes] ∧ (s.party .waiter).endSeen = true ∧
      (s.party .waiter).turn = .sending ∧ ¬ Faithful s) ∧
    ∃ s, chat.Reachable s ∧ (s.party .waiter).displayed = [List.replicate 256 1 ++ [2]] ∧
      s.sent .initiator = [List.replicate 256 1] ∧ ¬ Faithful s := by
  refine ⟨?_, ?_, ?_⟩
  · have hrun : (chat.run cleared [.send .initiator (some hi), .recv .waiter 2 []]).map
        (fun s => ((s.party .waiter).displayed, s.sent .initiator))
        = some ([[0x68, 0x69]], [hi.bytes]) := by
      decide +kernel
    obtain ⟨s, hs, hstate⟩ := Option.map_eq_some_iff.mp hrun
    obtain ⟨hshown, hsent⟩ := Prod.mk.inj hstate
    refine ⟨s, System.reachable_of_run cleared_reachable hs, hshown, hsent, fun hs => ?_⟩
    have hpre : (s.party .waiter).displayed <+: s.sent .initiator := hs.displayed .waiter
    rw [hshown, hsent] at hpre
    exact absurd hpre (by decide)
  · have hrun : (chat.run cleared [.send .initiator (some hi), .recv .waiter 256 [],
        .send .waiter (some hi), .recv .initiator 256 [], .close .initiator,
        .recv .waiter 0 []]).map
        (fun s => ((s.party .waiter).displayed, s.sent .initiator, (s.party .waiter).endSeen,
          (s.party .waiter).turn))
        = some ([hi.bytes, hi.bytes], [hi.bytes], true, .sending) := by
      decide +kernel
    obtain ⟨s, hs, hstate⟩ := Option.map_eq_some_iff.mp hrun
    obtain ⟨hshown, hrest⟩ := Prod.mk.inj hstate
    obtain ⟨hsent, hrest⟩ := Prod.mk.inj hrest
    obtain ⟨hend, hturn⟩ := Prod.mk.inj hrest
    refine ⟨s, System.reachable_of_run cleared_reachable hs, hshown, hsent, hend, hturn,
      fun hs => ?_⟩
    exact absurd (hturn.symm.trans (hs.stops .waiter hend)) (by decide)
  · have hrun : (chat.run uncleared [.send .initiator none, .recv .waiter 256 [2]]).map
        (fun s => ((s.party .waiter).displayed, s.sent .initiator))
        = some ([List.replicate 256 1 ++ [2]], [List.replicate 256 1]) := by
      decide +kernel
    obtain ⟨s, hs, hstate⟩ := Option.map_eq_some_iff.mp hrun
    obtain ⟨hshown, hsent⟩ := Prod.mk.inj hstate
    refine ⟨s, System.reachable_of_run (.init (init_fresh _)) hs, hshown, hsent, fun hs => ?_⟩
    have hpre : (s.party .waiter).displayed <+: s.sent .initiator := hs.displayed .waiter
    rw [hshown, hsent] at hpre
    exact absurd hpre (by decide +kernel)

end Chat

end Lab3

end Comp4320
