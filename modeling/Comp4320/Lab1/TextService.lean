import Comp4320.Lab1.ClientTCP
import Comp4320.Lab1.ServerTCP
import Mathlib.Data.List.TakeWhile

/-!
# The TCP service, from end to end

A client calls one of the three operations, and the message arrives whole at either end. Nothing
fits. The request id is one byte in a request and sixteen bits in a reply, so what the client takes
for the answer begins with the high byte of the id; the number of consonants is never looked at, and
a string without its vowels comes back as that byte and the last eight bytes of the result. The
result of `disemvowel` also runs into two bytes of the heap, and `uppercase` returns nothing at all.

What is left are the calls that are right by accident: there is no consonant to count, or what is to
be returned is nine zero bytes.

## Main definitions

* `Served` — a call returns what it should, whatever the server's memory holds
* `ServedWhen` — when it does

## Main results

* `cLength_result`, `Disemvowel_result`, `Uppercasing_result` — what the calls return
* `served_iff` — which calls return what they should
-/

namespace Comp4320

namespace Lab1

open ByteOrder ServerTCP

/-- The three calls. -/
inductive Operation
  | cLength
  | Disemvowel
  | Uppercasing
  deriving DecidableEq, Repr

/-- The connection to the server: the client receives what the server sends, or the end of the
stream. -/
def connection (mem : Indeterminate) : ClientTCP.Connection := fun message =>
  (serve mem message).getD []

/-- The call returns its own request id and the right answer, whatever the server's memory holds
that the server has not written. -/
def Served (op : Operation) (requestID : ℕ) (s : List UInt8) : Prop :=
  ∀ mem, match op with
  | .cLength => ∃ resTML resRid resAns,
      (ClientTCP.cLength (connection mem) requestID s).2 = .ok (resTML, resRid, resAns) ∧
        resRid.toNat = requestID ∧ resAns.toNat = consonants s
  | .Disemvowel => ∃ resTML resRid resAns,
      (ClientTCP.Disemvowel (connection mem) requestID s).2 = .ok (resTML, resRid, resAns) ∧
        resRid.toNat = requestID ∧ resAns = disemvoweled s
  | .Uppercasing => ∃ resTML resRid resAns,
      (ClientTCP.Uppercasing (connection mem) requestID s).2 = .ok (resTML, resRid, resAns) ∧
        resRid.toNat = requestID ∧ resAns = uppercased s

/-- Length and id are positive `char`s, and there is no consonant to count, or nine zero bytes to
return. -/
def ServedWhen : Operation → ℕ → List UInt8 → Prop
  | .cLength, requestID, s => requestID ≤ 127 ∧ s.length ≤ 124 ∧ consonants s = 0
  | .Disemvowel, requestID, s =>
    requestID ≤ 127 ∧ s.length ≤ 124 ∧ disemvoweled s = List.replicate 9 0
  | .Uppercasing, _, _ => False

variable {mem : Indeterminate} {requestID : ℕ} {s : List UInt8}

/-! ### What the calls return -/

/-- The high byte of an id that was read as a `char`. -/
def signByte (requestID : ℕ) : UInt8 := if requestID ≤ 127 then 0 else 0xff

theorem image16_signedChar (h : requestID ≤ 255) :
    image16 (.ofInt (signedChar (.ofNat requestID))) = [.ofNat requestID, signByte requestID] := by
  have hid : (UInt8.ofNat requestID).toNat = requestID :=
    UInt8.toNat_ofNat_of_lt' (show requestID < 256 by omega)
  rw [image16, toNat_ofInt16, signByte]
  split_ifs with hlow
  · rw [signedChar_of_lt (by omega), hid, show ((requestID : ℤ) % 65536).toNat = requestID by omega,
      toLE, toLE, toLE, show requestID / 256 = 0 by omega]
    rfl
  · rw [signedChar_of_le (by omega), hid,
      show ((requestID - 256 : ℤ) % 65536).toNat = requestID + 255 * 256 by omega, toLE, toLE, toLE,
      show (requestID + 255 * 256) / 256 = 255 by omega]
    congr 1
    rw [← UInt8.toNat_inj, UInt8.toNat_ofNat', hid]
    omega

section

variable {α : Type} {unpack : List UInt8 → Except PyError α}

/-- A call whose id does not fit a byte, or whose length is no positive `char`, is never
answered. -/
theorem call_eq_error (operation : UInt8) (hunpack : unpack [] = .error .structError)
    (h : 255 < requestID ∨ 124 < s.length) :
    (ClientTCP.call operation.toNat unpack (connection mem) requestID s).2
      = .error .structError := by
  by_cases hpacks : 255 < 3 + s.length ∨ 255 < requestID
  · exact ClientTCP.call_eq_error _ hpacks
  · have hnone : serve mem (request (.ofNat requestID) operation s) = none :=
      serve_eq_none (by omega) (by omega)
    rw [ClientTCP.call_eq operation (by omega) (by omega), ← request, connection, hnone]
    exact hunpack

/-- Any other call is answered. -/
theorem call_eq_reply (mem : Indeterminate) (unpack : List UInt8 → Except PyError α)
    (operation : UInt8) (hid : requestID ≤ 255) (hlen : s.length ≤ 124) :
    ∃ rec : Received, rec.tml = rec.scanned.length + 3 ∧ rec.scanned = s ∧
      rec.requestID = signedChar (.ofNat requestID) ∧ rec.operation = signedChar operation ∧
        (ClientTCP.call operation.toNat unpack (connection mem) requestID s).2
          = unpack (((reply mem rec).getD []).take 4096) := by
  obtain ⟨rec, html, hscanned, hrid, hop, hserve⟩ :=
    serve_eq_reply mem (.ofNat requestID) operation (show 3 + s.length < 128 by omega)
  refine ⟨rec, html, hscanned, hrid, hop, ?_⟩
  rw [ClientTCP.call_eq operation (by omega) hid, ← request, connection, hserve]

end

/-- **What `cLength` returns**: three, the id, and the high byte of the id. -/
theorem cLength_result (mem : Indeterminate) (hid : requestID ≤ 255) (hlen : s.length ≤ 124) :
    (ClientTCP.cLength (connection mem) requestID s).2
      = .ok (3, .ofNat requestID, signByte requestID) := by
  obtain ⟨rec, -, hscanned, hrid, hop, hcall⟩ :=
    call_eq_reply mem ClientTCP.unpackCount 5 hid hlen
  -- the server counts right, but the count comes behind what the client unpacks
  have hreply : reply mem rec
      = some (Message.image ⟨3, .ofInt rec.requestID, .ofNat (consonants s)⟩) := by
    rw [reply, hop, if_pos (by decide), cLength_eq, hscanned]
  rw [hreply, Message.image, hrid, image16_signedChar hid] at hcall
  exact hcall

/-- **What `Disemvowel` returns**: behind the id, its high byte and the last eight bytes of the
result. -/
theorem Disemvowel_result (mem : Indeterminate) (hid : requestID ≤ 255) (hlen : s.length ≤ 124) :
    ∃ tml, (ClientTCP.Disemvowel (connection mem) requestID s).2
      = .ok (tml, .ofNat requestID, signByte requestID :: image64 (toBinary ((disemvoweled s
          ++ mem.heap.load (disemvoweled s).length 2).takeWhile (· ≠ 0)))) := by
  obtain ⟨rec, html, hscanned, hrid, hop, hcall⟩ :=
    call_eq_reply mem ClientTCP.unpackText 80 hid hlen
  have hreply : reply mem rec = (disemvowel mem.heap rec).map Message.image := by
    rw [reply, hop, if_neg (by decide), if_pos (by decide)]
  rw [hreply, disemvowel_eq mem.heap html, hscanned, hrid, Option.map_some, Message.image,
    image16_signedChar hid, Option.getD_some, List.take_of_length_le (by simp)] at hcall
  exact ⟨_, hcall⟩

/-- **What `Uppercasing` returns** is what the object held. -/
theorem Uppercasing_result (mem : Indeterminate) (hid : requestID ≤ 255) (hlen : s.length ≤ 124) :
    ∃ resAns, (ClientTCP.Uppercasing (connection mem) requestID s).2
      = .ok (mem.slot.tml, .ofNat mem.slot.requestID.toNat, resAns) := by
  obtain ⟨rec, -, -, -, hop, hcall⟩ := call_eq_reply mem ClientTCP.unpackText 10 hid hlen
  have hreply : reply mem rec = some mem.slot.image := by
    rw [reply, hop, if_neg (by decide), if_neg (by decide), if_pos (by decide)]
    rfl
  rw [hreply, Option.getD_some, List.take_of_length_le (by simp [Message.image])] at hcall
  exact ⟨_, hcall⟩

/-! ### What they should return -/

/-- Only a call that fits returns anything. -/
theorem fits_of_call_eq_ok {α : Type} {unpack : List UInt8 → Except PyError α} {r : α}
    (operation : UInt8) (hunpack : unpack [] = .error .structError)
    (h : (ClientTCP.call operation.toNat unpack (connection mem) requestID s).2 = .ok r) :
    requestID ≤ 255 ∧ s.length ≤ 124 := by
  by_contra hfits
  rw [call_eq_error operation hunpack (by omega)] at h
  exact absurd h (by simp)

/-- Memory full of zeros, except for the id in the object that is never assigned. -/
def zeroed (requestID : UInt16) : Indeterminate := ⟨fun _ => 0, fun _ => 0, 0, requestID, 0⟩

theorem served_cLength_iff :
    Served .cLength requestID s ↔ ServedWhen .cLength requestID s := by
  constructor
  · intro h
    obtain ⟨resTML, resRid, resAns, hcall, -, hans⟩ := h (zeroed 0)
    obtain ⟨hid, hlen⟩ := fits_of_call_eq_ok 5 rfl hcall
    rw [cLength_result _ hid hlen] at hcall
    obtain ⟨-, -, rfl⟩ : 3 = resTML ∧ .ofNat requestID = resRid ∧ signByte requestID = resAns := by
      simpa using hcall
    have hle := consonants_le_length s
    rw [signByte] at hans
    split_ifs at hans with hlow
    · exact ⟨hlow, hlen, hans.symm⟩
    · -- the high byte is 255, and so many consonants do not fit
      exact absurd hans (by rw [show (0xff : UInt8).toNat = 255 from rfl]; omega)
  · rintro ⟨hid, hlen, hzero⟩ mem
    refine ⟨_, _, _, cLength_result mem (by omega) hlen, ?_, ?_⟩
    · exact UInt8.toNat_ofNat_of_lt' (show requestID < 256 by omega)
    · rw [signByte, if_pos hid, hzero]
      rfl

/-- **Nine zero bytes are all that comes back as it should**, if a byte goes before it and two bytes
of the heap may come behind it. -/
theorem eq_replicate_of_forall_heap {b : UInt8} {kept : List UInt8}
    (h : ∀ heap : Memory, b :: image64 (toBinary
      ((kept ++ heap.load kept.length 2).takeWhile (· ≠ 0))) = kept) :
    kept = List.replicate 9 0 := by
  have hlen : kept.length = 9 := by
    rw [← h fun _ => 0, List.length_cons, length_image64]
  by_cases hzero : 0 ∈ kept
  · -- the string ends at its first zero, and is not cut
    obtain ⟨l, rest, hkept, hl⟩ := List.eq_append_cons_of_mem hzero
    have hshort : l.length ≤ 8 := by
      rw [hkept, List.length_append, List.length_cons] at hlen
      omega
    have hback := h fun _ => 0
    rw [show kept ++ _ = l ++ 0 :: (rest ++ _) by rw [hkept, List.append_assoc, List.cons_append],
      takeWhile_zero hl, image64_toBinary, Nat.sub_eq_zero_of_le hshort, List.drop_zero] at hback
    cases l with
    | nil =>
      obtain rfl : b = 0 := (List.cons.inj (hback.trans hkept)).1
      rw [← hback]
      rfl
    | cons c l =>
      -- where the string ends, its last byte stands in place of the zero
      have hget := congrArg (·[(c :: l).length]?) (hback.trans hkept)
      rw [List.getElem?_append_right le_rfl, Nat.sub_self, List.getElem?_cons_zero,
        List.length_cons, List.getElem?_cons_succ, List.getElem?_append_left (by simp)] at hget
      exact absurd (List.mem_of_getElem? hget) hl
  · -- the last byte is one of the heap, whatever it is
    have hlast : ∀ v : UInt8, v ≠ 0 → kept[8]? = some v := by
      intro v hv
      have hback := h fun _ => v
      have hwhole : (kept ++ [v, v]).takeWhile (· ≠ 0) = kept ++ [v, v] := by
        rw [List.takeWhile_eq_self_iff]
        intro c hc
        rcases List.mem_append.mp hc with hc | hc
        · exact decide_eq_true fun h0 => hzero (h0 ▸ hc)
        · rw [List.eq_of_mem_replicate (n := 2) hc]
          exact decide_eq_true hv
      have htotal : (kept ++ [v, v]).length = 11 := by rw [List.length_append, hlen]; rfl
      rw [show (Memory.load (fun _ => v) kept.length 2) = [v, v] from rfl, hwhole,
        image64_toBinary, htotal] at hback
      rw [← hback, List.getElem?_cons_succ, List.getElem?_append_left (by simp [hlen]),
        List.getElem?_drop, List.getElem?_append_right (by omega), hlen]
      rfl
    exact absurd ((hlast 1 (by decide)).symm.trans (hlast 2 (by decide))) (by decide)

theorem served_Disemvowel_iff :
    Served .Disemvowel requestID s ↔ ServedWhen .Disemvowel requestID s := by
  constructor
  · intro h
    obtain ⟨_, _, _, hcall, -, -⟩ := h (zeroed 0)
    obtain ⟨hid, hlen⟩ := fits_of_call_eq_ok 80 rfl hcall
    have hback : ∀ heap : Memory, signByte requestID :: image64 (toBinary ((disemvoweled s
        ++ heap.load (disemvoweled s).length 2).takeWhile (· ≠ 0))) = disemvoweled s := by
      intro heap
      obtain ⟨resTML, resRid, resAns, hcall, -, hans⟩ := h { zeroed 0 with heap }
      obtain ⟨tml, hresult⟩ := Disemvowel_result { zeroed 0 with heap } hid hlen
      rw [hresult] at hcall
      exact (Prod.mk.inj (Prod.mk.inj (Except.ok.inj hcall)).2).2.trans hans
    have hkept := eq_replicate_of_forall_heap hback
    refine ⟨?_, hlen, hkept⟩
    by_contra hhigh
    have hhead := (List.cons.inj ((hback fun _ => 0).trans hkept)).1
    rw [signByte, if_neg hhigh] at hhead
    exact absurd hhead (by decide)
  · rintro ⟨hid, hlen, hkept⟩ mem
    obtain ⟨tml, hresult⟩ := Disemvowel_result mem (show requestID ≤ 255 by omega) hlen
    refine ⟨tml, _, _, hresult, ?_, ?_⟩
    · exact UInt8.toNat_ofNat_of_lt' (show requestID < 256 by omega)
    · rw [hkept, signByte, if_pos hid, List.replicate_succ, List.cons_append,
        List.takeWhile_cons_of_neg (by simp)]
      rfl

/-- An object that was never assigned holds any id. -/
theorem not_served_Uppercasing : ¬ Served .Uppercasing requestID s := by
  intro h
  have hrid : ∀ v : UInt16, (UInt8.ofNat v.toNat).toNat = requestID := by
    intro v
    obtain ⟨resTML, resRid, resAns, hcall, hans, -⟩ := h (zeroed v)
    obtain ⟨hid, hlen⟩ := fits_of_call_eq_ok 10 rfl hcall
    obtain ⟨ans, hresult⟩ := Uppercasing_result (zeroed v) hid hlen
    rw [hresult] at hcall
    rw [← hans, ← (Prod.mk.inj (Prod.mk.inj (Except.ok.inj hcall)).2).1]
    rfl
  exact absurd ((hrid 0).trans (hrid 1).symm) (by decide)

/-- **Which calls return what they should.** -/
theorem served_iff (op : Operation) (requestID : ℕ) (s : List UInt8) :
    Served op requestID s ↔ ServedWhen op requestID s := by
  cases op with
  | cLength => exact served_cLength_iff
  | Disemvowel => exact served_Disemvowel_iff
  | Uppercasing => exact iff_of_false not_served_Uppercasing id

/-- None of the three is served on the string `ab`, in a first call. -/
theorem not_served : ¬ Served .cLength 0 [97, 98] ∧ ¬ Served .Disemvowel 0 [97, 98] ∧
    ¬ Served .Uppercasing 0 [97, 98] := by
  refine ⟨?_, ?_, not_served_Uppercasing⟩
  · rw [served_cLength_iff]
    rintro ⟨-, -, hzero⟩
    exact absurd hzero (by decide)
  · rw [served_Disemvowel_iff]
    rintro ⟨-, -, hkept⟩
    exact absurd hkept (by decide)

end Lab1

end Comp4320
