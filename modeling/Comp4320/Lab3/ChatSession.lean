import Comp4320.Lib.Memory
import Comp4320.Lib.System
import Mathlib.Data.List.TakeWhile
import Mathlib.Logic.Function.Basic

/-!
# A chat session

`waitToChat` and `initiateChat` of `LAB_3/ChatClient.c`, from the moment the two clients are
connected. The two loops are one cycle entered at two places: read a line and send it, then receive
and show what has come. `initiateChat` begins with the first half and `waitToChat` with the second,
and both return when the message they have just sent or shown is the kill word.

A message is sent as the whole buffer it was read into, 256 bytes of which the line, with its
terminating zero, is the beginning. Between the two sides is a stream of bytes in either direction.
A `recv` returns between 1 and 256 of the next bytes, or 0 once the other side is gone and the
stream is exhausted; the code looks at none of these numbers.

`printf` shows what is in `msg` up to the first zero. Nothing sees to it that there is one: `fgets`
leaves `myMsg` as it is at the end of the input, so a side with nothing to read sends what the
buffer held when the function was called. A record without a zero fills `msg`, and `printf` goes on
and shows what lies behind it.

One step goes from one socket call to the next. What lies between (`printf`, `strcmp`, `fgets`) is
local to the side that takes it.

## What is left out

The prompts; and `recv` returning an error.

## Main definitions

* `Side`, `Party` — the two sides, and what each of them holds
* `Chat`, `chat` — the state of a session, and the sessions
* `Chat.send`, `Chat.recv` — the two halves of the loops
-/

namespace Comp4320

namespace Lab3

/-- The two ends of a connection. -/
inductive Side
  /-- The client in `initiateChat`. -/
  | initiator
  /-- The client in `waitToChat`. -/
  | waiter
  deriving DecidableEq, Repr

namespace Side

/-- The other end. -/
def other : Side → Side
  | initiator => waiter
  | waiter => initiator

@[simp] theorem other_other (p : Side) : p.other.other = p := by cases p <;> rfl

@[simp] theorem other_ne (p : Side) : p.other ≠ p := by cases p <;> decide

@[simp] theorem ne_other (p : Side) : p ≠ p.other := (other_ne p).symm

theorem eq_or_eq_other (p q : Side) : q = p ∨ q = p.other := by
  cases p <;> cases q <;> simp [other]

/-- What holds of both ends holds of all. -/
theorem forall_of_both {P : Side → Prop} (p : Side) (hp : P p) (hother : P p.other) (q : Side) :
    P q := by
  rcases eq_or_eq_other p q with rfl | rfl
  · exact hp
  · exact hother

end Side

/-- What a side does next. -/
inductive Turn
  /-- Read a line and send it. -/
  | sending
  /-- Receive. -/
  | receiving
  /-- The function has returned, and the process has ended. -/
  | returned
  deriving DecidableEq, Repr

/-- The size of `myMsg` and of `msg`. -/
def sizeofMsg : ℕ := 256

/-- A chunk of input that fits `fgets(myMsg, 256, stdin)`. -/
structure Chunk where
  bytes : List UInt8
  /-- One byte is left for the terminating zero. -/
  length_lt : bytes.length < sizeofMsg

/-- What a side holds. -/
structure Party where
  turn : Turn
  myMsg : Memory
  msg : Memory
  /-- The messages `printf` has shown, in order. -/
  displayed : List (List UInt8)
  /-- A `recv` has returned 0. -/
  endSeen : Bool

/-- A session. -/
structure Chat where
  party : Side → Party
  /-- The bytes a side has sent and the other has not received. -/
  stream : Side → List UInt8
  /-- The messages that have been sent, in order, with their senders. -/
  log : List (Side × List UInt8)

/-- What happens next. -/
inductive Move
  /-- `fgets` returns a chunk, or nothing at the end of the input, and `sendto` sends the buffer. -/
  | send (p : Side) (input : Option Chunk)
  /-- `sendto` fails, because the other side is gone. -/
  | sendFails (p : Side)
  /-- `recv` returns `n`. Behind `msg` are the bytes `past`, and then a zero. -/
  | recv (p : Side) (n : ℕ) (past : List UInt8)
  /-- The process of a side ends. -/
  | close (p : Side)

/-- `"Bye Bye Birdie\n"`. -/
def killWord : List UInt8 :=
  [0x42, 0x79, 0x65, 0x20, 0x42, 0x79, 0x65, 0x20, 0x42, 0x69, 0x72, 0x64, 0x69, 0x65, 0x0a]

/-- The string in a buffer: the bytes before the first zero. -/
def cString (buffer : List UInt8) : List UInt8 := buffer.takeWhile (· ≠ 0)

/-- `fgets` into a buffer: at the end of the input the buffer keeps what it held. -/
def fgets (myMsg : Memory) (input : Option Chunk) : Memory :=
  match input with
  | some chunk => myMsg.store 0 (chunk.bytes ++ [0])
  | none => myMsg

namespace Chat

/-- The messages a side has sent. -/
def sent (s : Chat) (p : Side) : List (List UInt8) :=
  (s.log.filter fun x => x.1 = p).map Prod.snd

/-- Replace what one side holds. -/
def setParty (s : Chat) (p : Side) (x : Party) : Chat :=
  { s with party := Function.update s.party p x }

/-- Replace the stream of one side. -/
def setStream (s : Chat) (p : Side) (bytes : List UInt8) : Chat :=
  { s with stream := Function.update s.stream p bytes }

/-- The half that sends: `fgets`, `sendto` and `strcmp`. -/
def send (s : Chat) (p : Side) (input : Option Chunk) : Option Chat :=
  let me := s.party p
  if me.turn = .sending then
    let myMsg := fgets me.myMsg input
    let record := myMsg.load 0 sizeofMsg
    let turn := if cString record = killWord then .returned else .receiving
    let s := (s.setParty p { me with turn := turn, myMsg := myMsg }).setStream p
      (s.stream p ++ record)
    some { s with log := s.log ++ [(p, cString record)] }
  else none

/-- `recv` may return `n`. -/
def MayReturn (s : Chat) (p : Side) (n : ℕ) : Prop :=
  (1 ≤ n ∧ n ≤ sizeofMsg ∧ n ≤ (s.stream p.other).length) ∨
    (n = 0 ∧ s.stream p.other = [] ∧ (s.party p.other).turn = .returned)

instance (s : Chat) (p : Side) (n : ℕ) : Decidable (s.MayReturn p n) :=
  inferInstanceAs (Decidable (_ ∨ _))

/-- The half that receives: `recv`, `printf` and `strcmp`. -/
def recv (s : Chat) (p : Side) (n : ℕ) (past : List UInt8) : Option Chat :=
  let me := s.party p
  if me.turn = .receiving ∧ s.MayReturn p n then
    let msg := me.msg.store 0 ((s.stream p.other).take n)
    -- `printf` does not stop at the end of `msg`
    let shown := cString (msg.load 0 sizeofMsg ++ past)
    let turn := if shown = killWord then .returned else .sending
    some ((s.setParty p { me with
      turn := turn
      msg := msg
      displayed := me.displayed ++ [shown]
      endSeen := me.endSeen || n == 0 }).setStream p.other ((s.stream p.other).drop n))
  else none

/-- One step of a session. -/
def step (s : Chat) : Move → Option Chat
  | .send p input => s.send p input
  | .sendFails p =>
    if (s.party p).turn = .sending ∧ (s.party p.other).turn = .returned then
      some (s.setParty p { s.party p with turn := .returned })
    else none
  | .recv p n past => s.recv p n past
  | .close p => some (s.setParty p { s.party p with turn := .returned })

end Chat

/-- The sessions: `initiateChat` begins by sending and `waitToChat` by receiving, and their buffers
hold anything. -/
def chat : System Chat Move where
  init := fun s => (s.party .initiator).turn = .sending ∧ (s.party .waiter).turn = .receiving ∧
    (∀ p, (s.party p).displayed = [] ∧ (s.party p).endSeen = false ∧ s.stream p = []) ∧ s.log = []
  step := Chat.step

/-- A session about to begin. The buffers `myMsg` and `msg` of each side hold anything. -/
def Chat.fresh (buffers : Side → Memory × Memory) : Chat where
  party
    | .initiator => ⟨.sending, (buffers .initiator).1, (buffers .initiator).2, [], false⟩
    | .waiter => ⟨.receiving, (buffers .waiter).1, (buffers .waiter).2, [], false⟩
  stream := fun _ => []
  log := []

theorem Chat.init_fresh (buffers : Side → Memory × Memory) : chat.init (Chat.fresh buffers) :=
  ⟨rfl, rfl, fun p => by cases p <;> exact ⟨rfl, rfl, rfl⟩, rfl⟩

/-! ### Small facts -/

namespace Chat

variable {s s' : Chat} {p q : Side} {x : Party} {bytes : List UInt8}

@[simp] theorem party_setParty_self : (s.setParty p x).party p = x := Function.update_self ..

@[simp] theorem party_setParty_other : (s.setParty p x).party p.other = s.party p.other :=
  Function.update_of_ne (Side.other_ne p) ..

@[simp] theorem stream_setParty : (s.setParty p x).stream = s.stream := rfl

@[simp] theorem log_setParty : (s.setParty p x).log = s.log := rfl

@[simp] theorem stream_setStream_self : (s.setStream p bytes).stream p = bytes :=
  Function.update_self ..

@[simp] theorem stream_setStream_other : (s.setStream p bytes).stream p.other = s.stream p.other :=
  Function.update_of_ne (Side.other_ne p) ..

@[simp] theorem stream_setStream_of_other : (s.setStream p.other bytes).stream p = s.stream p :=
  Function.update_of_ne (Side.ne_other p) ..

@[simp] theorem party_setStream : (s.setStream p bytes).party = s.party := rfl

@[simp] theorem log_setStream : (s.setStream p bytes).log = s.log := rfl

/-- A message adds to what its sender has sent. -/
theorem sent_concat_self {m : List UInt8} (h : s'.log = s.log ++ [(p, m)]) :
    s'.sent p = s.sent p ++ [m] := by
  simp [sent, h]

/-- It adds nothing to what the other has sent. -/
theorem sent_concat_other {m : List UInt8} (h : s'.log = s.log ++ [(p, m)]) :
    s'.sent p.other = s.sent p.other := by
  simp [sent, h]

theorem sent_congr (h : s'.log = s.log) : s'.sent p = s.sent p := by
  rw [sent, sent, h]

end Chat

/-- A string ends before what lies behind it. -/
theorem cString_append {buffer : List UInt8} (h : 0 ∈ buffer) (past : List UInt8) :
    cString (buffer ++ past) = cString buffer := by
  have hne : (buffer.takeWhile (· ≠ 0)).length ≠ buffer.length := by
    intro hlen
    have hall := List.takeWhile_eq_self_iff.mp ((List.takeWhile_prefix _).eq_of_length hlen) 0 h
    exact absurd hall (by decide)
  rw [cString, List.takeWhile_append, if_neg hne, cString]

/-- A buffer that `fgets` has read a chunk into holds a string. -/
theorem zero_mem_fgets (myMsg : Memory) (chunk : Chunk) :
    0 ∈ (fgets myMsg (some chunk)).load 0 sizeofMsg := by
  have hlt := chunk.length_lt
  refine List.mem_map.mpr ⟨chunk.bytes.length, List.mem_range.mpr hlt, ?_⟩
  rw [fgets, Nat.zero_add, Memory.store_apply_of_mem (Nat.zero_le _) (by simp), Nat.sub_zero]
  simp [List.getD_eq_getElem?_getD]

end Lab3

end Comp4320
