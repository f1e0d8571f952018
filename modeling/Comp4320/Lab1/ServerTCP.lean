import Comp4320.Lab1.Text
import Comp4320.Lib.ByteOrder
import Comp4320.Lib.Memory

/-!
# The TCP server

`LAB_1/TCP_Server/ServerTCP.cpp`: what the child process for one connection does with the request it
receives. The first byte of a request is its length, and it is read as a `char`, so a length above
127 is negative and the process dies building a `string` of it. The text behind the header is
counted, stripped of its vowels or changed to upper case, and the result is sent back as a packed
struct whose last field, a 64-bit integer, holds either the count or up to eight characters.

Three things the program reads are not its own: the buffer beyond what was received, the block that
`malloc` returns, and the object the result of `uppercase` is read from, which never returns one.
`Indeterminate` is what they happen to hold.

## What is left out

What the server prints, the sockets and the `fork`, the `error` field of `received_t`, which is set
to zero and never read, and what the zero that `disemvowel` writes behind its block may destroy
there.

## Main definitions

* `Message`, `Message.image` — the reply, and its eleven bytes
* `Received`, `ServerTCP.processRaw` — the request
* `ServerTCP.cLength`, `disemvowel`, `uppercase` — the three operations
* `ServerTCP.toBinary` — a string as a 64-bit integer
* `ServerTCP.serve` — the reply to what was received

## Main results

* `ServerTCP.cLength_eq`, `foldl_copyStep` — what the loops compute
* `ServerTCP.image64_toBinary` — the last eight characters, in their order
* `ServerTCP.builtString_eq`, `disemvowel_eq` — the result of `disemvowel`, two bytes of the heap
  included
* `ServerTCP.serve_eq_none`, `serve_eq_reply` — which requests are read as they were sent
-/

namespace Comp4320

namespace Lab1

open ByteOrder

/-- `message_t`. -/
structure Message where
  tml : UInt8
  requestID : UInt16
  result : UInt64
  deriving DecidableEq, Repr

/-- The bytes of a `message_t`, which is packed. -/
def Message.image (msg : Message) : List UInt8 :=
  msg.tml :: (image16 msg.requestID ++ image64 msg.result)

/-- `received_t`. -/
structure Received where
  tml : ℤ
  requestID : ℤ
  operation : ℤ
  message : List UInt8
  deriving DecidableEq, Repr

/-- The characters the loops look at: those with an index below `tml - 3`. -/
def Received.scanned (rec : Received) : List UInt8 := rec.message.take (rec.tml - 3).toNat

namespace ServerTCP

/-- What the memory holds that the program has not written. -/
structure Indeterminate where
  /-- `buf`, before `recv`. -/
  buf : Memory
  /-- The block `malloc` returns, and what lies behind it. -/
  heap : Memory
  /-- The object in which `main` expects the result of `uppercase`. -/
  slot : Message

/-- The cases of the three switches: the vowels. -/
def vowelCase (c : UInt8) : Bool :=
  c ∈ ([65, 97, 69, 101, 73, 105, 79, 111, 85, 117, 89, 121] : List UInt8)

/-- `cLength`. -/
def cLength (rec : Received) : ℕ :=
  rec.scanned.foldl
    (fun consonants c =>
      if isAlpha c then if vowelCase c then consonants else consonants + 1 else consonants) 0

/-- `numvowels`. -/
def numvowels (rec : Received) : ℕ :=
  rec.scanned.foldl
    (fun vowels c => if isAlpha c then if vowelCase c then vowels + 1 else vowels else vowels) 0

/-- The loop body of `toBinary`. -/
def shiftIn (resbin : UInt64) (c : UInt8) : UInt64 := (resbin <<< 8) + c.toUInt64

/-- `toBinary`: the first `sizeof(unsigned long long)` bytes of the reversed string, the first of
them most significant. -/
def toBinary (msg : List UInt8) : UInt64 :=
  (msg.reverse.take 8).foldl shiftIn 0

/-- The body of the copying loop of `disemvowel`, over the block and the next location in it. -/
def copyStep (st : Memory × ℕ) (c : UInt8) : Memory × ℕ :=
  if isAlpha c then
    if vowelCase c then st else (st.1.store st.2 [c], st.2 + 1)
  else (st.1.store st.2 [c], st.2 + 1)

/-- `string str(result)`: the bytes before the first zero, which is at index `n` or earlier. -/
def cString (result : Memory) (n : ℕ) : List UInt8 := (result.load 0 n).takeWhile (· ≠ 0)

/-- `disemvowel`. If `length` is not positive, `malloc` is asked for a negative number of bytes and
gives none, and the process dies when it writes to them. -/
def disemvowel (heap : Memory) (rec : Received) : Option Message :=
  let numvowel := numvowels rec
  let length : ℤ := rec.tml - numvowel - 1
  if length ≤ 0 then none
  else
    let (result, _) := rec.scanned.foldl copyStep (heap, 0)
    -- the block has `length - 1` bytes
    let result := result.store length.toNat [0]
    let str := cString result length.toNat
    some ⟨.ofInt length, .ofInt rec.requestID, toBinary str⟩

/-- The message after the loop of `uppercase`. -/
def uppercaseLoop (rec : Received) : List UInt8 :=
  (rec.scanned.map fun c => if isLower c then toUpper c else c)
    ++ rec.message.drop (rec.tml - 3).toNat

/-- The local `message` of `uppercase`. -/
def uppercaseMessage (rec : Received) : Message :=
  ⟨.ofInt rec.tml, .ofInt rec.requestID, toBinary (uppercaseLoop rec)⟩

/-- `uppercase`: there is no `return`, so the caller finds what its object held before. -/
def uppercase (slot : Message) (rec : Received) : Message :=
  let _message := uppercaseMessage rec
  slot

/-- `processRaw`: the length, the id and the operation are `char`s, and the text is as many bytes as
the length says, from the fourth on. A negative length is too long for a `string`, and the exception
ends the process. -/
def processRaw (msg : Memory) : Option Received :=
  let tml := signedChar (msg 0)
  if tml < 0 then none
  else some ⟨tml, signedChar (msg 1), signedChar (msg 2), msg.load 3 tml.toNat⟩

/-- The `switch` of `main`: the bytes sent in reply to a request, if anything is sent. -/
def reply (mem : Indeterminate) (rec : Received) : Option (List UInt8) :=
  if rec.operation = 5 then
    some (Message.image ⟨3, .ofInt rec.requestID, .ofNat (cLength rec)⟩)
  else if rec.operation = 80 then (disemvowel mem.heap rec).map Message.image
  else if rec.operation = 10 then some (uppercase mem.slot rec).image
  else none

/-- The child process for one connection: the bytes sent in reply to what the client has sent. -/
def serve (mem : Indeterminate) (sent : List UInt8) : Option (List UInt8) :=
  let received := sent.take 255
  let buf := (mem.buf.store 0 received).store received.length [0]
  match processRaw buf with
  | none => none
  | some rec => reply mem rec

/-! ### The loops -/

variable {rec : Received} {s : List UInt8} {c : UInt8}

theorem vowelCase_eq (c : UInt8) : vowelCase c = isVowel c := by
  have hperm : List.Perm [65, 97, 69, 101, 73, 105, 79, 111, 85, 117, 89, 121] vowels := by decide
  exact decide_eq_decide.mpr hperm.mem_iff

/-- A loop that counts some of the characters. -/
theorem foldl_count {step : ℕ → UInt8 → ℕ} {p : UInt8 → Bool}
    (hstep : ∀ n c, step n c = if p c then n + 1 else n) (n : ℕ) (s : List UInt8) :
    s.foldl step n = n + s.countP p := by
  induction s generalizing n with
  | nil => rfl
  | cons c s ih =>
    rw [List.foldl_cons, ih, hstep, List.countP_cons]
    split_ifs <;> omega

theorem cLength_eq (rec : Received) : cLength rec = consonants rec.scanned := by
  rw [cLength, foldl_count (p := fun c => isAlpha c && !isVowel c), consonants, Nat.zero_add]
  intro n c
  rw [vowelCase_eq]
  cases isAlpha c <;> cases isVowel c <;> rfl

theorem numvowels_eq (rec : Received) : numvowels rec = rec.scanned.countP isVowel := by
  rw [numvowels, foldl_count (p := isVowel), Nat.zero_add]
  intro n c
  rw [vowelCase_eq]
  cases h : isVowel c with
  | true => rw [isAlpha_of_isVowel h]; rfl
  | false => cases isAlpha c <;> rfl

theorem copyStep_eq (st : Memory × ℕ) (c : UInt8) :
    copyStep st c = if isVowel c then st else (st.1.store st.2 [c], st.2 + 1) := by
  rw [copyStep, vowelCase_eq]
  cases h : isVowel c with
  | true => rw [isAlpha_of_isVowel h]; rfl
  | false => cases isAlpha c <;> rfl

/-- **The copying loop writes what is not a vowel**, one byte after the other. -/
theorem foldl_copyStep (result : Memory) (location : ℕ) (s : List UInt8) :
    s.foldl copyStep (result, location)
      = (result.store location (disemvoweled s), location + (disemvoweled s).length) := by
  induction s generalizing result location with
  | nil => exact Prod.ext (Memory.store_nil ..).symm rfl
  | cons c s ih =>
    rw [List.foldl_cons, copyStep_eq, disemvoweled, List.filter_cons]
    cases isVowel c with
    | true => exact ih ..
    | false =>
      show s.foldl copyStep (result.store location [c], location + 1) = _
      rw [ih, Memory.store_singleton_store, Bool.not_false, if_pos rfl, List.length_cons,
        Nat.add_assoc, Nat.add_comm 1]
      rfl

/-! ### A string as an integer -/

/-- Shifting bytes in reads them in network order, as far as they fit. -/
theorem toNat_foldl_shiftIn (bs : List UInt8) : (bs.foldl shiftIn 0).toNat = ofBE bs % 2 ^ 64 := by
  induction bs using List.reverseRecOn with
  | nil => rfl
  | append_singleton bs c ih =>
    rw [List.foldl_append, List.foldl_cons, List.foldl_nil, shiftIn, UInt64.toNat_add,
      UInt64.toNat_shiftLeft, ih, ofBE_concat, UInt8.toNat_toUInt64, Nat.shiftLeft_eq]
    show (ofBE bs % 2 ^ 64 * 2 ^ 8 % 2 ^ 64 + c.toNat) % 2 ^ 64 = _
    omega

/-- **The bytes of the integer are the last eight of the string**, in their order, with zeros behind
them if there are fewer. -/
theorem image64_toBinary (msg : List UInt8) :
    image64 (toBinary msg) = msg.drop (msg.length - 8) ++ List.replicate (8 - msg.length) 0 := by
  have hlast : (msg.reverse.take 8).reverse = msg.drop (msg.length - 8) := by
    rw [List.take_reverse, List.reverse_reverse]
  have hlen : (msg.drop (msg.length - 8)).length = msg.length - (msg.length - 8) :=
    List.length_drop ..
  have hlt := ofLE_lt (msg.drop (msg.length - 8))
  have hpow : 256 ^ (msg.drop (msg.length - 8)).length ≤ 2 ^ 64 := by
    rw [show (2 : ℕ) ^ 64 = 256 ^ 8 by norm_num]
    exact Nat.pow_le_pow_right (by norm_num) (by omega)
  rw [image64, toBinary, toNat_foldl_shiftIn, ofBE, hlast, Nat.mod_eq_of_lt (by omega),
    toLE_ofLE_of_le (by omega), hlen,
    show 8 - (msg.length - (msg.length - 8)) = 8 - msg.length by omega]

/-! ### `disemvowel` -/

/-- The local `str` of `disemvowel`. -/
def builtString (heap : Memory) (rec : Received) : List UInt8 :=
  let length := (rec.tml - numvowels rec - 1).toNat
  cString ((rec.scanned.foldl copyStep (heap, 0)).1.store length [0]) length

theorem disemvowel_eq_builtString (heap : Memory) (h : 0 < rec.tml - numvowels rec - 1) :
    disemvowel heap rec = some ⟨.ofInt (rec.tml - numvowels rec - 1), .ofInt rec.requestID,
      toBinary (builtString heap rec)⟩ := by
  rw [disemvowel]
  dsimp only
  rw [if_neg (by omega)]
  rfl

/-- The local `length`, if the message is as long as it should be: two more than the characters
copied. -/
theorem length_eq (h : rec.tml = rec.scanned.length + 3) :
    rec.tml - numvowels rec - 1 = (disemvoweled rec.scanned).length + 2 := by
  have hsum := countP_isVowel_add_length rec.scanned
  rw [numvowels_eq]
  omega

/-- **The string**: what is not a vowel, and behind it two bytes of the heap, which the program
takes for a part of the string unless they are zero. -/
theorem builtString_eq (heap : Memory) (h : rec.tml = rec.scanned.length + 3) :
    builtString heap rec = (disemvoweled rec.scanned
      ++ heap.load (disemvoweled rec.scanned).length 2).takeWhile (· ≠ 0) := by
  have hblock : ∀ kept : List UInt8,
      ((heap.store 0 kept).store (kept.length + 2) [0]).load 0 (kept.length + 2)
        = kept ++ heap.load kept.length 2 := by
    intro kept
    rw [Memory.load_store_of_disjoint (Or.inl (by omega)), Memory.load_add,
      Memory.load_store_self, Memory.load_store_of_disjoint (Or.inr (by omega)), Nat.zero_add]
  rw [builtString]
  rw [length_eq h, foldl_copyStep]
  dsimp only
  rw [cString, show ((disemvoweled rec.scanned).length + 2 : ℤ).toNat
    = (disemvoweled rec.scanned).length + 2 by omega, hblock]

/-- A string ends at the first zero. -/
theorem takeWhile_zero {l : List UInt8} (h : 0 ∉ l) (rest : List UInt8) :
    (l ++ 0 :: rest).takeWhile (· ≠ 0) = l := by
  rw [List.takeWhile_append_of_pos, List.takeWhile_cons_of_neg (by simp), List.append_nil]
  intro c hc
  exact decide_eq_true fun h0 => h (h0 ▸ hc)

/-- **The result of `disemvowel`.** -/
theorem disemvowel_eq (heap : Memory) (h : rec.tml = rec.scanned.length + 3) :
    disemvowel heap rec = some ⟨.ofInt ((disemvoweled rec.scanned).length + 2),
      .ofInt rec.requestID, toBinary ((disemvoweled rec.scanned
        ++ heap.load (disemvoweled rec.scanned).length 2).takeWhile (· ≠ 0))⟩ := by
  have hlength := length_eq h
  rw [disemvowel_eq_builtString heap (by omega), builtString_eq heap h, hlength]

/-! ### What is read of a request -/

/-- A request as a client means it: the length of the whole, an id, an operation and a text. -/
def request (id operation : UInt8) (s : List UInt8) : List UInt8 :=
  .ofNat (3 + s.length) :: id :: operation :: s

theorem length_request (id operation : UInt8) (s : List UInt8) :
    (request id operation s).length = 3 + s.length := by
  rw [request, List.length_cons, List.length_cons, List.length_cons]
  omega

variable {mem : Indeterminate} {id operation : UInt8}

/-- The buffer a request is read from. -/
theorem buffer_apply (buf : Memory) {i : ℕ} {b : UInt8}
    (hb : (request id operation s)[i]? = some b) :
    ((buf.store 0 (request id operation s)).store (request id operation s).length [0]) i = b := by
  obtain ⟨hi, rfl⟩ := List.getElem?_eq_some_iff.mp hb
  rw [Memory.store_apply_of_lt hi, Memory.store_apply_of_mem (Nat.zero_le _) (by omega),
    Nat.sub_zero, List.getD_eq_getElem _ _ hi]

theorem serve_eq (h : 3 + s.length ≤ 255) :
    serve mem (request id operation s) = match processRaw
        ((mem.buf.store 0 (request id operation s)).store (request id operation s).length [0]) with
      | none => none
      | some rec => reply mem rec := by
  have hreceived : (request id operation s).take 255 = request id operation s :=
    List.take_of_length_le (by rw [length_request]; omega)
  rw [serve, hreceived]

/-- The length of a request fits its byte. -/
theorem toNat_tml (h : 3 + s.length ≤ 255) : (UInt8.ofNat (3 + s.length)).toNat = 3 + s.length :=
  UInt8.toNat_ofNat_of_lt' (show 3 + s.length < 256 by omega)

/-- **A length above 127 is negative**, and the request is not answered. -/
theorem serve_eq_none (h : 128 ≤ 3 + s.length) (h' : 3 + s.length ≤ 255) :
    serve mem (request id operation s) = none := by
  have html := signedChar_of_le (h.trans_eq (toNat_tml h').symm)
  rw [serve_eq h', processRaw, buffer_apply mem.buf (i := 0) rfl, html, toNat_tml h',
    if_pos (by omega)]

/-- **Any other request is read as it was sent.** -/
theorem serve_eq_reply (mem : Indeterminate) (id operation : UInt8) (h : 3 + s.length < 128) :
    ∃ rec : Received, rec.tml = rec.scanned.length + 3 ∧ rec.scanned = s ∧
      rec.requestID = signedChar id ∧ rec.operation = signedChar operation ∧
        serve mem (request id operation s) = reply mem rec := by
  have h' : 3 + s.length ≤ 255 := by omega
  have html : signedChar (UInt8.ofNat (3 + s.length)) = 3 + s.length := by
    rw [signedChar_of_lt (by rw [toNat_tml h']; exact h), toNat_tml h']
    omega
  have htext : ((mem.buf.store 0 (request id operation s)).store
      (request id operation s).length [0]).load 3 s.length = s := by
    refine List.ext_getElem (Memory.length_load ..) fun i _ hi => ?_
    have hget : (request id operation s)[3 + i]? = some s[i] := by
      rw [Nat.add_comm]
      exact List.getElem?_eq_getElem hi
    rw [Memory.getElem_load, buffer_apply mem.buf hget]
  have hscanned : Received.scanned ⟨3 + s.length, signedChar id, signedChar operation,
      ((mem.buf.store 0 (request id operation s)).store
        (request id operation s).length [0]).load 3 (3 + s.length)⟩ = s := by
    rw [Received.scanned, show ((3 + s.length : ℤ) - 3).toNat = s.length by omega,
      Memory.take_load _ _ (by omega), htext]
  refine ⟨_, ?_, hscanned, rfl, rfl, ?_⟩
  · rw [hscanned]
    exact Int.add_comm ..
  · rw [serve_eq h', processRaw, buffer_apply mem.buf (i := 0) rfl,
      buffer_apply mem.buf (i := 1) rfl, buffer_apply mem.buf (i := 2) rfl, html,
      if_neg (by omega), show (3 + s.length : ℤ).toNat = 3 + s.length by omega]

end ServerTCP

end Lab1

end Comp4320
