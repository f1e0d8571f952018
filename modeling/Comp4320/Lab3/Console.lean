import Comp4320.Lib.Lines
import Comp4320.Lab3.Dialogue

/-!
# What is typed

`fgets` cuts the text that is typed on a side into pieces: a line with its newline, or 255 bytes of
a longer one. In the dialogue a piece is a line, so the rest of a long line is said only after the
other side has answered its beginning, and a session ends on a piece that is the kill word, even if
that is the end of a longer line. When there is nothing left to read, `fgets` leaves the buffer as
it is, and the last piece is sent again and again.

So what is said on a side, from its first message to the last, is settled by the text that is typed
on it, and by nothing else: not by the other side, and not by when the two processes run.

## What is left out

As in a dialogue, every record arrives whole, and no process is ended from outside. A side then has
one thing to do at any time, and an event is the side that does it, with what lies behind its `msg`.

## Main definitions

* `Console`, `console` — a session and what is left to read, and the sessions of two texts
* `Console.Legible` — a side without text has a string to send
* `message` — what a side says next, after so many messages

## Main results

* `message_eq_pieces` — the messages of a side are the pieces of its text, and then the last piece
* `Console.sent_getElem?`, `displayed_eq_pieces` — what is said on a side is settled by its text
* `Console.exists_of_dialogue` — every dialogue can be had
-/

namespace Comp4320

namespace Lab3

/-! ### The system -/

/-- `'\n'`. -/
def newline : UInt8 := 0x0a

/-- What `fgets(myMsg, 256, stdin)` takes. -/
def stdinTake (stdin : List UInt8) : List UInt8 := Lines.takeLine newline 255 stdin

theorem length_stdinTake_lt (stdin : List UInt8) : (stdinTake stdin).length < sizeofMsg :=
  Nat.lt_succ_of_le (Lines.length_takeLine_le 255 stdin)

/-- What `fgets` returns: nothing at the end of the text. -/
def input (stdin : List UInt8) : Option Chunk :=
  if stdin = [] then none else some ⟨stdinTake stdin, length_stdinTake_lt stdin⟩

/-- What is left to read. -/
def stdinDrop (stdin : List UInt8) : List UInt8 := Lines.dropLine newline 255 stdin

/-- A session, and what is left to read on either side. -/
structure Console where
  chat : Chat
  stdin : Side → List UInt8

/-- The process of one side goes on to its next socket call. -/
def Console.step (s : Console) (p : Side) (past : List UInt8) : Option Console :=
  match (s.chat.party p).turn with
  | .sending => (s.chat.step (.send p (input (s.stdin p)))).map fun chat =>
      ⟨chat, Function.update s.stdin p (stdinDrop (s.stdin p))⟩
  | .receiving => (s.chat.step (.recv p sizeofMsg past)).map fun chat => { s with chat := chat }
  | .returned => none

/-- The sessions of two texts, with what the buffers `myMsg` hold at first. -/
def console (text : Side → List UInt8) (buffer : Side → Memory) :
    System Console (Side × List UInt8) where
  init := fun s => chat.init s.chat ∧ (∀ p, (s.chat.party p).myMsg = buffer p) ∧ s.stdin = text
  step := fun s e => s.step e.1 e.2

/-- The message number `k` of a side. -/
def message (myMsg : Memory) (text : List UInt8) : ℕ → List UInt8
  | 0 => cString ((fgets myMsg (input text)).load 0 sizeofMsg)
  | k + 1 => message (fgets myMsg (input text)) (stdinDrop text) k

/-! ### Messages -/

/-- `fgets` puts a string into the buffer. -/
theorem cString_fgets (myMsg : Memory) (chunk : Chunk) :
    cString ((fgets myMsg (some chunk)).load 0 sizeofMsg) = cString chunk.bytes := by
  obtain ⟨k, hk⟩ := Nat.exists_eq_add_of_lt chunk.length_lt
  have hsplit : sizeofMsg = (chunk.bytes ++ [0]).length + k := by
    rw [List.length_append, List.length_singleton]
    omega
  rw [fgets, hsplit, Memory.load_add, Memory.load_store_self, cString, List.append_assoc,
    List.takeWhile_append, List.singleton_append, List.takeWhile_cons_of_neg (by simp)]
  split_ifs with hall
  · rw [List.append_nil]
    exact (List.takeWhile_prefix _).eq_of_length hall |>.symm
  · rfl

theorem cString_of_zero_not_mem {bytes : List UInt8} (h : 0 ∉ bytes) : cString bytes = bytes :=
  List.takeWhile_eq_self_iff.mpr fun b hb => by
    simpa using fun heq : b = 0 => h (heq ▸ hb)

/-- At the end of the text the message is what the buffer holds. -/
theorem message_nil (myMsg : Memory) (k : ℕ) :
    message myMsg [] k = cString (myMsg.load 0 sizeofMsg) := by
  induction k with
  | zero => rfl
  | succ k ih => exact ih

/-- **The messages of a side are the pieces of its text, and then the last piece** over and over. -/
theorem message_eq_pieces (myMsg : Memory) {text : List UInt8} (hzero : 0 ∉ text)
    (htext : text ≠ []) (k : ℕ) :
    (Lines.pieces newline 254 text)[min k ((Lines.pieces newline 254 text).length - 1)]?
      = some (message myMsg text k) := by
  have htake : ∀ (myMsg : Memory) {text : List UInt8}, 0 ∉ text → text ≠ [] →
      cString ((fgets myMsg (input text)).load 0 sizeofMsg) = stdinTake text := by
    intro myMsg text hzero htext
    rw [input, if_neg htext, cString_fgets]
    exact cString_of_zero_not_mem fun h => hzero ((Lines.takeLine_isPrefix 255 text).subset h)
  have hcons : ∀ {text : List UInt8}, text ≠ [] → Lines.pieces newline 254 text
      = stdinTake text :: Lines.pieces newline 254 (stdinDrop text) := Lines.pieces_of_ne_nil
  induction k generalizing myMsg text with
  | zero =>
    rw [hcons htext, Nat.zero_min, List.getElem?_cons_zero, message, htake myMsg hzero htext]
  | succ k ih =>
    rw [hcons htext, List.length_cons, Nat.add_sub_cancel, message]
    by_cases hrest : stdinDrop text = []
    · rw [hrest, message_nil, Lines.pieces_nil, List.length_nil, Nat.min_zero,
        List.getElem?_cons_zero, htake myMsg hzero htext]
    · have hpos : 0 < (Lines.pieces newline 254 (stdinDrop text)).length :=
        List.length_pos_iff.mpr (Lines.pieces_ne_nil hrest)
      have hmin : min (k + 1) (Lines.pieces newline 254 (stdinDrop text)).length
          = min k ((Lines.pieces newline 254 (stdinDrop text)).length - 1) + 1 := by omega
      rw [hmin, List.getElem?_cons_succ]
      exact ih _ (fun h => hzero (List.mem_of_mem_drop h)) hrest

/-! ### What is said -/

namespace Chat

variable {s s' : Chat} {d : Dialogue} {p q : Side}

theorem myMsg_send {chunk : Option Chunk} (h : s.send p chunk = some s') :
    (s'.party p).myMsg = fgets (s.party p).myMsg chunk := by
  obtain ⟨-, heq⟩ := Option.ite_none_right_eq_some.mp h
  obtain rfl := Option.some.inj heq
  simp [setStream, setParty]

theorem myMsg_recv {n : ℕ} {past : List UInt8} (h : s.recv p n past = some s') (q : Side) :
    (s'.party q).myMsg = (s.party q).myMsg := by
  obtain ⟨-, heq⟩ := Option.ite_none_right_eq_some.mp h
  obtain rfl := Option.some.inj heq
  revert q
  refine Side.forall_of_both p ?_ ?_ <;> simp [setStream, setParty, Function.update_of_ne]

/-- What a side has sent are its lines. -/
theorem Mirrors.sent (h : Mirrors s d) (p : Side) : s.sent p = lines d.said p := by
  rw [Chat.sent, h.log, lines]

theorem Mirrors.displayed_isPrefix (h : Mirrors s d) (p : Side) :
    (s.party p).displayed <+: s.sent p.other := by
  rw [h.displayed, h.sent]
  exact lines_take_isPrefix ..

end Chat

namespace Console

variable {text : Side → List UInt8} {buffer : Side → Memory} {s s' : Console} {d : Dialogue}
  {p : Side} {past : List UInt8}

/-- Whatever a side sends next is a string: it has text left to read, or its buffer holds one. -/
def Legible (stdin : List UInt8) (myMsg : Memory) : Prop := stdin ≠ [] ∨ 0 ∈ myMsg.load 0 sizeofMsg

/-- What `fgets` leaves in the buffer is a string. -/
theorem Legible.fgets {stdin : List UInt8} {myMsg : Memory} (h : Legible stdin myMsg) :
    0 ∈ (fgets myMsg (input stdin)).load 0 sizeofMsg := by
  rw [input]
  split_ifs with hnil
  · exact h.resolve_left (not_not_intro hnil)
  · exact zero_mem_fgets _ _

/-- The invariant: the messages of each side are those it has sent, and those to come. -/
structure Reads (text : Side → List UInt8) (buffer : Side → Memory) (s : Console) (d : Dialogue) :
    Prop where
  legible : ∀ p, Legible (s.stdin p) (s.chat.party p).myMsg
  lockstep : Chat.Lockstep s.chat d
  said : ∀ p k line, (lines d.said p)[k]? = some line → line = message (buffer p) (text p) k
  next : ∀ p j, message (s.chat.party p).myMsg (s.stdin p) j
    = message (buffer p) (text p) ((lines d.said p).length + j)

/-- A step is a step of the session, which reads what it sends. -/
theorem step_cases (h : s.step p past = some s') :
    (s.chat.send p (input (s.stdin p)) = some s'.chat ∧
      s'.stdin = Function.update s.stdin p (stdinDrop (s.stdin p))) ∨
    (s.chat.recv p sizeofMsg past = some s'.chat ∧ s'.stdin = s.stdin) := by
  rw [step] at h
  split at h
  · obtain ⟨chat, hchat, rfl⟩ := Option.map_eq_some_iff.mp h
    exact Or.inl ⟨hchat, rfl⟩
  · obtain ⟨chat, hchat, rfl⟩ := Option.map_eq_some_iff.mp h
    exact Or.inr ⟨hchat, rfl⟩
  · exact absurd h (by simp)

theorem Reads.step (h : Reads text buffer s d) (hstep : s.step p past = some s') :
    ∃ d', (∃ w, dialogue.step d w = some d') ∧ Reads text buffer s' d' := by
  rcases step_cases hstep with ⟨hsend, hstdin⟩ | ⟨hrecv, hstdin⟩
  · have hzero := (h.legible p).fgets
    have hparty := (Chat.sends_of_send hsend).party
    obtain ⟨hp, d', hd, hlock⟩ := h.lockstep.send hzero hsend
    obtain ⟨-, heq⟩ := Option.ite_none_right_eq_some.mp hd
    obtain rfl := Option.some.inj heq
    have hline := h.next p 0
    rw [message, Nat.add_zero] at hline
    have hself := lines_concat_speaker d.said
      (cString ((fgets (s.chat.party p).myMsg (input (s.stdin p))).load 0 sizeofMsg))
    have hother := lines_concat_other d.said
      (cString ((fgets (s.chat.party p).myMsg (input (s.stdin p))).load 0 sizeofMsg))
    rw [← hp] at hself hother
    refine ⟨_, ⟨_, hd⟩, Side.forall_of_both p ?_ ?_, hlock, Side.forall_of_both p ?_ ?_,
      Side.forall_of_both p ?_ ?_⟩
    · rw [Legible, Chat.myMsg_send hsend]
      exact Or.inr hzero
    · rw [hparty, hstdin, Function.update_of_ne (Side.other_ne p)]
      exact h.legible p.other
    · intro k line hk
      rw [hself, hline] at hk
      rcases Nat.lt_or_ge k (lines d.said p).length with hlt | hge
      · rw [List.getElem?_append_left hlt] at hk
        exact h.said p k line hk
      · obtain ⟨hlen, rfl⟩ : k = (lines d.said p).length ∧ line = _ := by
          rw [List.getElem?_append_right hge, List.getElem?_singleton] at hk
          split_ifs at hk with hlast
          exact ⟨by omega, (Option.some.inj hk).symm⟩
        rw [hlen]
    · intro k line hk
      rw [hother] at hk
      exact h.said p.other k line hk
    · intro j
      have hnext := h.next p (j + 1)
      rw [message] at hnext
      rw [Chat.myMsg_send hsend, hstdin, Function.update_self, hself, hnext, List.length_append,
        List.length_singleton, Nat.add_assoc, Nat.add_comm 1 j]
    · intro j
      rw [hparty, hstdin, Function.update_of_ne (Side.other_ne p), hother]
      exact h.next p.other j
  · obtain ⟨d', hd, hlock⟩ := h.lockstep.recv hrecv
    obtain ⟨-, heq⟩ := Option.ite_none_right_eq_some.mp hd
    obtain rfl := Option.some.inj heq
    refine ⟨_, ⟨_, hd⟩, fun q => ?_, hlock, h.said, fun q j => ?_⟩
    · rw [Chat.myMsg_recv hrecv, hstdin]
      exact h.legible q
    · rw [Chat.myMsg_recv hrecv, hstdin]
      exact h.next q j

/-- A session that is about to begin. -/
theorem reads_of_init (hlegible : ∀ p, Legible (text p) (buffer p))
    (h : (console text buffer).init s) : Reads text buffer s ⟨[], 0⟩ := by
  obtain ⟨⟨hinitiator, hwaiter, hempty, hlog⟩, hbuffer, rfl⟩ := h
  refine ⟨fun p => ?_, ⟨hlog, fun p => (hempty p).1, ?_⟩, ?_, fun p j => ?_⟩
  · rw [hbuffer p]
    exact hlegible p
  · exact .typing rfl (by simp) hinitiator hwaiter fun q => (hempty q).2.2
  · intro p k line hk
    exact absurd hk (by simp [lines, script])
  · rw [hbuffer p]
    exact congrArg _ (Nat.zero_add j).symm

/-- The run lemma. -/
theorem reads_of_reachable (hlegible : ∀ p, Legible (text p) (buffer p))
    (h : (console text buffer).Reachable s) :
    ∃ d, dialogue.Reachable d ∧ Reads text buffer s d := by
  refine h.invariant (I := fun s => ∃ d, dialogue.Reachable d ∧ Reads text buffer s d)
    (fun s hs => ⟨⟨[], 0⟩, .init rfl, reads_of_init hlegible hs⟩) fun s e s' hs _ hstep => ?_
  obtain ⟨d, hreach, hd⟩ := hs
  obtain ⟨d', ⟨w, hw⟩, hd'⟩ := hd.step hstep
  exact ⟨d', hreach.step trivial hw, hd'⟩

/-- A session is an undisturbed one. -/
theorem undisturbed_of_reachable (hlegible : ∀ p, Legible (text p) (buffer p))
    (h : (console text buffer).Reachable s) : Lab3.chat.ReachableUnder Chat.Undisturbed s.chat := by
  have hinit : ∀ s, (console text buffer).init s → Lab3.chat.init s.chat := fun s hs => hs.1
  refine h.map Console.chat hinit fun s e s' hs _ hstep => Or.inr ?_
  obtain ⟨d, -, hd⟩ := reads_of_reachable hlegible hs.reachable
  rcases step_cases hstep with ⟨hsend, -⟩ | ⟨hrecv, -⟩
  · exact ⟨.send e.1 _, (hd.legible e.1).fgets, hsend⟩
  · exact ⟨.recv e.1 sizeofMsg e.2, rfl, hrecv⟩

/-- **What is said on a side is settled by the text typed on it.** It is a dialogue, so the order of
the messages of the two sides is settled too. -/
theorem sent_getElem? (hlegible : ∀ p, Legible (text p) (buffer p))
    (h : (console text buffer).Reachable s) {k : ℕ} {m : List UInt8}
    (hk : (s.chat.sent p)[k]? = some m) : m = message (buffer p) (text p) k := by
  obtain ⟨d, -, hd⟩ := reads_of_reachable hlegible h
  rw [hd.lockstep.mirrors.sent] at hk
  exact hd.said p k m hk

section

variable (hself : Legible (text p) (buffer p)) (hzero : 0 ∉ text p.other)
  (htext : text p.other ≠ []) (h : (console text buffer).Reachable s)
include hself hzero htext h

/-- The messages a side shows, by their number. -/
theorem displayed_getElem? {k : ℕ} {m : List UInt8}
    (hk : (s.chat.party p).displayed[k]? = some m) :
    (Lines.pieces newline 254 (text p.other))[min k
      ((Lines.pieces newline 254 (text p.other)).length - 1)]? = some m := by
  have hlegible : ∀ p, Legible (text p) (buffer p) := Side.forall_of_both p hself (Or.inl htext)
  obtain ⟨d, -, hd⟩ := reads_of_reachable hlegible h
  obtain ⟨rest, hrest⟩ := hd.lockstep.mirrors.displayed_isPrefix p
  have hk' : (s.chat.sent p.other)[k]? = some m := by
    rw [← hrest, List.getElem?_append_left (List.getElem?_eq_some_iff.mp hk).1, hk]
  rw [sent_getElem? hlegible h hk']
  exact message_eq_pieces _ hzero htext k

/-- **What a side shows is what is typed on the other side**, piece by piece, and then the last
piece over and over. -/
theorem displayed_eq_pieces :
    (s.chat.party p).displayed.take (Lines.pieces newline 254 (text p.other)).length
        <+: Lines.pieces newline 254 (text p.other) ∧
      ∀ m ∈ (s.chat.party p).displayed.drop (Lines.pieces newline 254 (text p.other)).length,
        (Lines.pieces newline 254 (text p.other)).getLast? = some m :=
  Lines.follows_of_getElem? fun _ _ hk => displayed_getElem? hself hzero htext h hk

/-- Until the text has come to its end, what is shown is the beginning of it; and a message is a
line, or as much of it as fits into the buffer. -/
theorem flatten_displayed_isPrefix :
    ((s.chat.party p).displayed.take (Lines.pieces newline 254 (text p.other)).length).flatten
        <+: text p.other ∧
      ∀ m ∈ (s.chat.party p).displayed, m ≠ [] ∧ m.length ≤ 255 ∧ newline ∉ m.dropLast := by
  constructor
  · obtain ⟨⟨rest, hrest⟩, -⟩ :=
      Lines.follows_of_getElem? fun _ _ hk => displayed_getElem? hself hzero htext h hk
    exact ⟨rest.flatten, by rw [← List.flatten_append, hrest, Lines.flatten_pieces]⟩
  · intro m hm
    obtain ⟨k, hk⟩ := List.mem_iff_getElem?.mp hm
    exact Lines.mem_pieces (List.mem_of_getElem? (displayed_getElem? hself hzero htext h hk))

end

/-- A line on either side, and then the kill word. -/
def greeting : Side → List UInt8
  | .initiator => Chat.hi.bytes ++ killWord
  | .waiter => Chat.hi.bytes

/-- The session with this text that is about to begin. -/
def greetingStart : Console := ⟨Chat.cleared, greeting⟩

theorem greetingStart_init : (console greeting fun _ _ => 0).init greetingStart :=
  ⟨Chat.init_fresh fun _ => (fun _ => 0, fun _ => 0), fun p => by cases p <;> rfl, rfl⟩

/-- The waiter has shown the two lines typed by the initiator. -/
theorem displayed_eq_pieces_greeting : ∃ s, (console greeting fun _ _ => 0).Reachable s ∧
    (s.chat.party .waiter).displayed = [Chat.hi.bytes, killWord] ∧
    (s.chat.party .waiter).displayed.take (Lines.pieces newline 254 (greeting .initiator)).length
        <+: Lines.pieces newline 254 (greeting .initiator) ∧
      ∀ m ∈ (s.chat.party .waiter).displayed.drop
          (Lines.pieces newline 254 (greeting .initiator)).length,
        (Lines.pieces newline 254 (greeting .initiator)).getLast? = some m := by
  have hrun : ((console greeting fun _ _ => 0).run greetingStart
      [(.initiator, []), (.waiter, []), (.waiter, []), (.initiator, []), (.initiator, []),
        (.waiter, [])]).map
        (fun s => (s.chat.party .waiter).displayed) = some [Chat.hi.bytes, killWord] := by
    decide +kernel
  obtain ⟨s, hs, hshown⟩ := Option.map_eq_some_iff.mp hrun
  have hreach := System.reachable_of_run (.init greetingStart_init) hs
  exact ⟨s, hreach, hshown, displayed_eq_pieces (p := .waiter) (Or.inl (by decide)) (by decide)
    (by decide) hreach⟩

/-! ### Every dialogue can be had -/

/-- A line that can be typed as it is: a string that fits the buffer, with its newline. -/
def Typeable (_ : Dialogue) : Word → Prop
  | .say line => ∃ l : List UInt8, line = l ++ [newline] ∧ newline ∉ l ∧ 0 ∉ l ∧ l.length < 255
  | .hear => True

theorem input_append {l : List UInt8} (hline : newline ∉ l) (hlen : l.length < 255)
    (rest : List UInt8) :
    ∃ chunk : Chunk, input (l ++ [newline] ++ rest) = some chunk ∧ chunk.bytes = l ++ [newline] ∧
      stdinDrop (l ++ [newline] ++ rest) = rest := by
  rw [← List.append_cons]
  refine ⟨_, if_neg (by simp), Lines.takeLine_append hline hlen, Lines.dropLine_append hline hlen⟩

/-- A line that is typed is said. -/
theorem exists_say {l rest : List UInt8} {d' : Dialogue} (h : Chat.Lockstep s.chat d)
    (hline : newline ∉ l) (hzero : 0 ∉ l) (hlen : l.length < 255)
    (hstdin : s.stdin (speaker d.said.length) = l ++ [newline] ++ rest)
    (hd : dialogue.step d (.say (l ++ [newline])) = some d') :
    ∃ s', s.step (speaker d.said.length) [] = some s' ∧ Chat.Lockstep s'.chat d' ∧
      s'.stdin = Function.update s.stdin (speaker d.said.length) rest := by
  obtain ⟨⟨heard, alive⟩, -⟩ := Option.ite_none_right_eq_some.mp hd
  obtain ⟨chunk, hinput, hbytes, hrest⟩ := input_append hline hlen rest
  have hturn : (s.chat.party (speaker d.said.length)).turn = .sending := by
    rw [h.place.turn, Dialogue.turn, if_neg (by omega), if_neg alive, if_pos rfl]
  obtain ⟨chat, hchat⟩ : ∃ chat, s.chat.send (speaker d.said.length) (some chunk) = some chat :=
    ⟨_, if_pos hturn⟩
  obtain ⟨-, d'', hd'', hlock⟩ := h.send (zero_mem_fgets _ chunk) hchat
  have hsaid : cString ((fgets (s.chat.party (speaker d.said.length)).myMsg (some chunk)).load 0
      sizeofMsg) = l ++ [newline] := by
    rw [cString_fgets, hbytes]
    exact cString_of_zero_not_mem (by simpa [newline] using hzero)
  rw [hsaid, hd] at hd''
  obtain rfl := Option.some.inj hd''
  refine ⟨⟨chat, Function.update s.stdin _ rest⟩, ?_, hlock, rfl⟩
  rw [Console.step, hturn]
  dsimp only
  rw [hstdin, hinput, hrest, Chat.step, hchat]
  rfl

/-- A line that has been said is heard. -/
theorem exists_hear {d' : Dialogue} (h : Chat.Lockstep s.chat d)
    (hd : dialogue.step d .hear = some d') (past : List UInt8) : ∃ p s', s.step p past = some s' ∧
      Chat.Lockstep s'.chat d' ∧ s'.stdin = s.stdin := by
  obtain ⟨hlt, -⟩ := Option.ite_none_right_eq_some.mp hd
  cases h.place with
  | typing heard => exact absurd hlt (by omega)
  | ended said said_eq heard => exact absurd hlt (by simp [said_eq, heard])
  | flying said line said_eq heard alive turn turn_other length_eq zero_mem =>
    obtain ⟨chat, hchat, -⟩ := Chat.exists_recv turn_other (by rwa [Side.other_other])
      (by rwa [Side.other_other]) past
    obtain ⟨d'', hd'', hlock⟩ := h.recv hchat
    obtain rfl := Option.some.inj (hd''.symm.trans hd)
    refine ⟨(speaker said.length).other, ⟨chat, s.stdin⟩, ?_, hlock, rfl⟩
    rw [Console.step, turn_other]
    dsimp only
    rw [Chat.step, hchat]
    rfl

/-- With text left to type. -/
theorem exists_of_dialogue_append (h : dialogue.ReachableUnder Typeable d)
    (buffer : Side → Memory) (rest : Side → List UInt8) : ∃ s,
      (console (fun p => (lines d.said p).flatten ++ rest p) buffer).Reachable s ∧
      Chat.Lockstep s.chat d ∧ s.stdin = rest := by
  induction h generalizing rest with
  | init h =>
    obtain rfl := h
    have hinit := Chat.init_fresh fun p => (buffer p, fun _ => 0)
    refine ⟨⟨.fresh fun p => (buffer p, fun _ => 0), rest⟩, .init ⟨hinit, fun p => ?_, ?_⟩,
      ⟨rfl, fun p => ?_, ?_⟩, rfl⟩
    · cases p <;> rfl
    · simp [lines, script]
    · exact (hinit.2.2.1 p).1
    · exact .typing rfl (by simp) hinit.1 hinit.2.1 fun q => (hinit.2.2.1 q).2.2
  | @step d d' w hd hw hstep ih =>
    cases w with
    | hear =>
      obtain ⟨s, hs, hlock, hstdin⟩ := ih rest
      obtain ⟨p, s', hs', hlock', hstdin'⟩ := exists_hear hlock hstep []
      obtain ⟨-, heq⟩ := Option.ite_none_right_eq_some.mp hstep
      obtain rfl := Option.some.inj heq
      exact ⟨s', hs.step (e := (p, [])) trivial hs', hlock', hstdin'.trans hstdin⟩
    | say line =>
      obtain ⟨l, rfl, hline, hzero, hlen⟩ := hw
      obtain ⟨s, hs, hlock, hstdin⟩ := ih (Function.update rest (speaker d.said.length)
        (l ++ [newline] ++ rest (speaker d.said.length)))
      have hnext : s.stdin (speaker d.said.length)
          = l ++ [newline] ++ rest (speaker d.said.length) := by
        rw [hstdin, Function.update_self]
      obtain ⟨s', hs', hlock', hstdin'⟩ := exists_say hlock hline hzero hlen hnext hstep
      obtain ⟨-, heq⟩ := Option.ite_none_right_eq_some.mp hstep
      obtain rfl := Option.some.inj heq
      have htext : ∀ p, (lines (d.said ++ [l ++ [newline]]) p).flatten ++ rest p
          = (lines d.said p).flatten ++ Function.update rest (speaker d.said.length)
            (l ++ [newline] ++ rest (speaker d.said.length)) p := by
        refine Side.forall_of_both (speaker d.said.length) ?_ ?_
        · rw [lines_concat_speaker, Function.update_self, List.flatten_append,
            List.flatten_singleton, List.append_assoc]
        · rw [lines_concat_other, Function.update_of_ne (Side.other_ne _)]
      refine ⟨s', ?_, hlock', ?_⟩
      · rw [funext htext]
        exact hs.step (e := (speaker d.said.length, [])) trivial hs'
      · rw [hstdin', hstdin, Function.update_idem, Function.update_eq_self]

/-- **Every dialogue can be had**, if each side types its lines. -/
theorem exists_of_dialogue (h : dialogue.ReachableUnder Typeable d) (buffer : Side → Memory) :
    ∃ s, (console (fun p => (lines d.said p).flatten) buffer).Reachable s ∧ s.chat.Mirrors d := by
  obtain ⟨s, hs, hlock, -⟩ := exists_of_dialogue_append h buffer fun _ => []
  simp only [List.append_nil] at hs
  exact ⟨s, hs, hlock.mirrors⟩

/-- A line each, the second one the kill word, and then there is no more to hear. -/
theorem exists_of_dialogue_bye : ∃ d s, d.said = [Chat.hi.bytes, killWord] ∧
    (console (fun p => (lines d.said p).flatten) fun _ _ => 0).Reachable s ∧ s.chat.Mirrors d := by
  have hstart : dialogue.ReachableUnder Typeable ⟨[], 0⟩ := .init rfl
  have hfirst : dialogue.ReachableUnder Typeable ⟨[Chat.hi.bytes], 0⟩ :=
    hstart.step (e := .say Chat.hi.bytes) ⟨[0x68, 0x69], by decide⟩ (by decide)
  have hheard : dialogue.ReachableUnder Typeable ⟨[Chat.hi.bytes], 1⟩ :=
    hfirst.step (e := .hear) trivial (by decide)
  have hsecond : dialogue.ReachableUnder Typeable ⟨[Chat.hi.bytes, killWord], 1⟩ :=
    hheard.step (e := .say killWord) ⟨killWord.dropLast, by decide⟩ (by decide)
  obtain ⟨s, hs, hmirrors⟩ := exists_of_dialogue hsecond fun _ _ => 0
  exact ⟨_, s, rfl, hs, hmirrors⟩

end Console

end Lab3

end Comp4320
