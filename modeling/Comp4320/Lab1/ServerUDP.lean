import Comp4320.Lab1.Text
import Comp4320.Lib.ByteOrder
import Comp4320.Lib.Memory
import Comp4320.Lib.System

/-!
# The UDP server

`LAB_1/udp-client-server/ServerUDP.cpp`. One buffer of 1024 bytes lives on the stack of `run`, and
every datagram is received on top of what the last one left. The three bytes of the header are read
as `char`s, the text is what lies between the header and the stated length, and the result of the
operation is sent back as a packed struct of ten bytes, the last eight of them an integer.

The message is cut out of the buffer by its stated length. Nothing compares that length with the
number of bytes received, and a length below three makes the range end before it begins. An unknown
operation is reported by a string literal to which the operation is *added*, so the program reads
from wherever that points.

## What is left out

What the server prints, the sockets, `recvfrom` failing, and the member function `processRaw`, which
is never called.

## Main definitions

* `ServerUDP.Response`, `Response.image` — the reply, and its ten bytes
* `ServerUDP.ClientRequest`, `ServerUDP.parse` — the request
* `ServerUDP.getCLength`, `disemvoweling`, `upperCasing` — the three operations
* `ServerUDP.toBinary` — a string as a 64-bit integer
* `ServerUDP.runStep`, `ServerUDP.server` — one iteration of `run`, and `run`

## Main results

* `ServerUDP.getCLength_eq`, `disemvoweling_eq` — what the nested loops compute
-/

namespace Comp4320

namespace Lab1

open ByteOrder

namespace ServerUDP

/-! ### The structs -/

/-- `ClientRequest`. -/
structure ClientRequest where
  msgLength : ℤ
  requestID : ℤ
  operation : ℤ
  message : List UInt8
  error : ℤ
  deriving DecidableEq, Repr

/-- `Response`. -/
structure Response where
  tml : UInt8
  requestID : UInt8
  result : UInt64
  deriving DecidableEq, Repr

/-- The bytes of a `Response`, which is packed. -/
def Response.image (res : Response) : List UInt8 := res.tml :: res.requestID :: image64 res.result

/-! ### The operations -/

/-- The local `vowels`. -/
def lowerVowels : List UInt8 := [97, 101, 105, 111, 117, 121]

/-- The inner loop over `vowels`, which may set `isVowel` and never clears it. -/
def vowelLoop (c : UInt8) (isVowel : Bool) : Bool :=
  lowerVowels.foldl (fun isVowel v => if toLower c = v then true else isVowel) isVowel

/-- The body of the loop of `getCLength`, over `result` and `isVowel`. -/
def countStep (st : ℕ × Bool) (c : UInt8) : ℕ × Bool :=
  let (result, isVowel) := st
  if isAlpha c then
    let isVowel := vowelLoop c isVowel
    let result := if !isVowel then result + 1 else result
    (result, false)
  else (result, isVowel)

/-- `getCLength`. -/
def getCLength (msg : List UInt8) : List UInt8 :=
  Cpp.toString (msg.foldl countStep (0, false)).1

/-- The body of the loop of `disemvoweling`, over `result` and `isVowel`. -/
def keepStep (st : List UInt8 × Bool) (c : UInt8) : List UInt8 × Bool :=
  let (result, isVowel) := st
  if isAlpha c then
    let isVowel := vowelLoop c isVowel
    let result := if !isVowel then result ++ [c] else result
    (result, false)
  else (result ++ [c], isVowel)

/-- `disemvoweling`. -/
def disemvoweling (msg : List UInt8) : List UInt8 := (msg.foldl keepStep ([], false)).1

/-- `upperCasing`. -/
def upperCasing (msg : List UInt8) : List UInt8 := msg.map toUpper

/-! ### The reply -/

/-- The loop body of `toBinary`. -/
def shiftIn (resbin : UInt64) (c : UInt8) : UInt64 := (resbin <<< 8) + c.toUInt64

/-- `toBinary`: all bytes of the reversed string, modulo the width of the integer. -/
def toBinary (msg : List UInt8) : UInt64 := msg.reverse.foldl shiftIn 0

/-- `"error operation code."`. -/
def errorText : List UInt8 :=
  [101, 114, 114, 111, 114, 32, 111, 112, 101, 114, 97, 116, 105, 111, 110, 32, 99, 111, 100, 101,
    46]

/-- The `switch` of `getResponse`. -/
def respond (req : ClientRequest) : Except CppError (List UInt8) :=
  if req.operation = 0x05 then .ok (getCLength req.message)
  else if req.operation = 0x50 then .ok (disemvoweling req.message)
  else if req.operation = 0x0a then .ok (upperCasing req.message)
  else stringOfLiteral errorText req.operation

/-- The end of `getResponse`: pack the result message. -/
def packResult (requestID : ℤ) (response : List UInt8) : Response :=
  ⟨.ofNat (response.length + 2), .ofInt requestID, toBinary response⟩

/-- `getResponse`. -/
def getResponse (req : ClientRequest) : Except CppError Response := do
  let response ← respond req
  return packResult req.requestID response

/-! ### The loop of `run` -/

/-- `recvfrom(sock, buffer, BUF_SIZE, …)`: a longer datagram is cut, and the bytes behind a shorter
one keep what they held. -/
def recvfrom (buffer : Memory) (datagram : List UInt8) : Memory :=
  buffer.store 0 (datagram.take 1024)

/-- The request `run` builds from its buffer. -/
def parse (buffer : Memory) : Except CppError ClientRequest := do
  let msgLength := signedChar (buffer 0)
  let requestID := signedChar (buffer 1)
  let operation := signedChar (buffer 2)
  let content ← stringOfRange buffer 3 msgLength
  return ⟨msgLength, requestID, operation, content, 0⟩

/-- One iteration of `run`: what is sent, if anything is. -/
def answer (buffer : Memory) : Except CppError (Option Response) := do
  let req ← parse buffer
  if req.error ≠ 0 then return none
  else return some (← getResponse req)

/-- One iteration of `run`: the buffer it leaves, and what it sends. -/
def runStep (buffer : Memory) (datagram : List UInt8) :
    Memory × Except CppError (Option Response) :=
  let buffer := recvfrom buffer datagram
  (buffer, answer buffer)

/-- `run`, from a buffer of any content: a run is the list of datagrams received. An iteration that
fails is the last one. -/
def server : System Memory (List UInt8) where
  init := fun _ => True
  step := fun buffer datagram =>
    match runStep buffer datagram with
    | (buffer, .ok _) => some buffer
    | (_, .error _) => none

/-! ### What the loops compute -/

/-- The inner loop finds a vowel of either case. -/
theorem vowelLoop_false (c : UInt8) : vowelLoop c false = isVowel c :=
  forall_byte (P := fun c => vowelLoop c false = isVowel c) (by decide +kernel) c

/-- A pass of the loop leaves the flag as it found it. -/
theorem countStep_false (result : ℕ) (c : UInt8) :
    countStep (result, false) c
      = (if isAlpha c && !isVowel c then result + 1 else result, false) := by
  rw [countStep, vowelLoop_false]
  cases isAlpha c <;> rfl

theorem keepStep_false (result : List UInt8) (c : UInt8) :
    keepStep (result, false) c = (if isVowel c then result else result ++ [c], false) := by
  rw [keepStep, vowelLoop_false]
  cases h : isVowel c with
  | true => rw [isAlpha_of_isVowel h]; rfl
  | false => cases isAlpha c <;> rfl

theorem foldl_countStep (result : ℕ) (s : List UInt8) :
    s.foldl countStep (result, false) = (result + consonants s, false) := by
  induction s generalizing result with
  | nil => rfl
  | cons c s ih =>
    rw [List.foldl_cons, countStep_false, ih, consonants, consonants, List.countP_cons]
    split_ifs
    · rw [Nat.add_assoc, Nat.add_comm 1]
    · rw [Nat.add_zero]

theorem foldl_keepStep (result s : List UInt8) :
    s.foldl keepStep (result, false) = (result ++ disemvoweled s, false) := by
  induction s generalizing result with
  | nil => exact congrArg (·, false) (List.append_nil result).symm
  | cons c s ih =>
    rw [List.foldl_cons, keepStep_false, ih, disemvoweled, disemvoweled, List.filter_cons]
    cases isVowel c with
    | true => rfl
    | false => exact congrArg (·, false) (List.append_assoc ..)

/-- **`getCLength` prints the number of consonants.** -/
theorem getCLength_eq (msg : List UInt8) : getCLength msg = Cpp.toString (consonants msg) := by
  rw [getCLength, foldl_countStep, Nat.zero_add]

/-- **`disemvoweling` removes the vowels.** -/
theorem disemvoweling_eq (msg : List UInt8) : disemvoweling msg = disemvoweled msg := by
  rw [disemvoweling, foldl_keepStep, List.nil_append]

/-- The length of a response fits its byte, if the length of the message does. -/
theorem length_respond_le {req : ClientRequest} {response : List UInt8}
    (h : respond req = .ok response) (hlen : req.message.length ≤ 253) :
    response.length ≤ 253 := by
  rw [respond] at h
  split_ifs at h with h₁ h₂ h₃
  · obtain rfl := Except.ok.inj h
    have hcount := consonants_le_length req.message
    have hdigits : (Cpp.toString (consonants req.message)).length ≤ 3 :=
      Cpp.length_toString_le (by omega)
    rw [getCLength_eq]
    omega
  · obtain rfl := Except.ok.inj h
    have hsum := countP_isVowel_add_length req.message
    rw [disemvoweling_eq]
    omega
  · obtain rfl := Except.ok.inj h
    rw [upperCasing, List.length_map]
    exact hlen
  · rw [stringOfLiteral] at h
    split_ifs at h
    obtain rfl := Except.ok.inj h
    have htext : errorText.length = 21 := rfl
    rw [List.length_drop]
    omega

end ServerUDP

end Lab1

end Comp4320
