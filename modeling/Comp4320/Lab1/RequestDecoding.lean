import Comp4320.Lab1.ClientUDP
import Comp4320.Lab1.ServerUDP

/-!
# What the UDP server reads of a datagram

A request is taken from the buffer by its first byte, which is read as a `char`: from 128 on it is
negative, the range of the text ends before it begins, and the exception ends the server. The same
happens below three. A length that is larger than what was received reaches into the bytes of an
earlier datagram, and an operation code that is not one of the three is an offset into a string of
21 characters.

Whatever the buffer held before, a datagram is read as it was sent if it does none of this.

## Main definitions

* `ServerUDP.Decodes` — the request read is the one that was packed
* `ServerUDP.Endures`, `EnduresRun` — an iteration, and every iteration of a run, is safe
* `ServerUDP.Sound` — the datagrams for which it is

## Main results

* `ServerUDP.parse_recvfrom` — what is read of a datagram that states its length right
* `ServerUDP.decodes_iff` — which messages are decoded
* `ServerUDP.endures_iff`, `enduresRun_iff` — which datagrams, and which runs, are safe
-/

namespace Comp4320

namespace Lab1

namespace ServerUDP

variable {buffer : Memory} {d : List UInt8} {i off n : ℕ}

/-! ### The buffer -/

theorem recvfrom_apply (buffer : Memory) (hd : d.length ≤ 1024) (hi : i < d.length) :
    recvfrom buffer d i = d.getD i 0 := by
  rw [recvfrom, List.take_of_length_le hd, Memory.store_apply_of_mem (Nat.zero_le _) (by omega),
    Nat.sub_zero]

theorem load_recvfrom (buffer : Memory) (hd : d.length ≤ 1024) (h : off + n ≤ d.length) :
    (recvfrom buffer d).load off n = (d.drop off).take n := by
  rw [recvfrom, List.take_of_length_le hd, Memory.load_store_drop _ h]

/-! ### The request -/

/-- **A length below three is an exception**, and a negative one is. -/
theorem parse_eq_error (h : signedChar (buffer 0) < 3) : parse buffer = .error .lengthError := by
  rw [parse, stringOfRange_of_lt h]
  rfl

theorem parse_eq_ok (h : 3 ≤ signedChar (buffer 0)) :
    parse buffer = .ok ⟨signedChar (buffer 0), signedChar (buffer 1), signedChar (buffer 2),
      buffer.load 3 (signedChar (buffer 0) - 3).toNat, 0⟩ := by
  rw [parse, stringOfRange_of_le h]
  rfl

/-- The text of a request lies within the bytes received. -/
structure InRange (d : List UInt8) : Prop where
  /-- The stated length covers the header. -/
  header : 3 ≤ (d.getD 0 0).toNat
  /-- It is no negative `char`. -/
  sign : (d.getD 0 0).toNat ≤ 127
  /-- So many bytes were received. -/
  received : (d.getD 0 0).toNat ≤ d.length

/-- **What is read of a datagram that states its length right** does not depend on what the buffer
held before. -/
theorem parse_recvfrom (buffer : Memory) (hd : d.length ≤ 1024) (h : InRange d) :
    parse (recvfrom buffer d) = .ok ⟨(d.getD 0 0).toNat, signedChar (d.getD 1 0),
      signedChar (d.getD 2 0), (d.drop 3).take ((d.getD 0 0).toNat - 3), 0⟩ := by
  obtain ⟨hheader, hsign, hreceived⟩ := h
  have hlen : signedChar (d.getD 0 0) = (d.getD 0 0).toNat := signedChar_of_lt (by omega)
  have h₀ : recvfrom buffer d 0 = d.getD 0 0 := recvfrom_apply buffer hd (by omega)
  have h₁ : recvfrom buffer d 1 = d.getD 1 0 := recvfrom_apply buffer hd (by omega)
  have h₂ : recvfrom buffer d 2 = d.getD 2 0 := recvfrom_apply buffer hd (by omega)
  have htext : (recvfrom buffer d).load 3 ((d.getD 0 0).toNat - 3)
      = (d.drop 3).take ((d.getD 0 0).toNat - 3) := load_recvfrom buffer hd (by omega)
  rw [parse_eq_ok (by rw [h₀, hlen]; omega), h₀, h₁, h₂, hlen,
    show ((d.getD 0 0).toNat - 3 : ℤ).toNat = (d.getD 0 0).toNat - 3 by omega, htext]

/-! ### Decoding what was encoded -/

/-- The message is packed, the datagram is read without an exception, and the request has the
message, the operation and, modulo 256, the id that were packed. -/
def Decodes (buffer : Memory) (request_id : ℕ) (msg : List UInt8) (ops : ℤ) : Prop :=
  ∃ datagram next req, ClientUDP.getPackedMessage request_id msg ops = .ok (datagram, next) ∧
    parse (recvfrom buffer datagram) = .ok req ∧ req.message = msg ∧
      req.operation = (ClientUDP.opsCode ops).toNat ∧ req.requestID % 256 = (request_id : ℤ) % 256

variable {request_id : ℕ} {msg : List UInt8}

theorem signedChar_opsCode (ops : ℤ) :
    signedChar (ClientUDP.opsCode ops) = (ClientUDP.opsCode ops).toNat := by
  refine signedChar_of_lt ?_
  rw [ClientUDP.opsCode]
  split_ifs <;> decide

/-- The length byte of a datagram. -/
theorem toNat_msgLength (hlen : msg.length + 3 ≤ 255) :
    (UInt8.ofNat (msg.length + 3)).toNat = msg.length + 3 :=
  UInt8.toNat_ofNat_of_lt' (show msg.length + 3 < 256 by omega)

/-- **A short message is read as it was packed.** -/
theorem parse_packed (buffer : Memory) (rid ops_code : UInt8) (h : msg.length ≤ 124) :
    parse (recvfrom buffer (.ofNat (msg.length + 3) :: rid :: ops_code :: msg))
      = .ok ⟨msg.length + 3, signedChar rid, signedChar ops_code, msg, 0⟩ := by
  have hlen : (UInt8.ofNat (msg.length + 3)).toNat = msg.length + 3 := toNat_msgLength (by omega)
  have hrange : InRange (.ofNat (msg.length + 3) :: rid :: ops_code :: msg) := by
    refine ⟨?_, ?_, ?_⟩ <;> rw [List.getD_cons_zero, hlen]
    · omega
    · omega
    · exact le_rfl
  rw [parse_recvfrom buffer (by simp only [List.length_cons]; omega) hrange, List.getD_cons_zero,
    hlen, Nat.add_sub_cancel]
  simp

/-- **A long message is an exception.** -/
theorem parse_packed_eq_error (buffer : Memory) (rid ops_code : UInt8) (h : 124 < msg.length)
    (hlen : msg.length + 3 ≤ 255) :
    parse (recvfrom buffer (.ofNat (msg.length + 3) :: rid :: ops_code :: msg))
      = .error .lengthError := by
  refine parse_eq_error ?_
  rw [recvfrom_apply buffer (by simp only [List.length_cons]; omega) (by simp),
    List.getD_cons_zero, signedChar_of_le (by rw [toNat_msgLength hlen]; omega),
    toNat_msgLength hlen]
  omega

/-- **Decoding undoes encoding for messages of at most 124 bytes**, and for no others. -/
theorem decodes_iff (buffer : Memory) (ops : ℤ) (hascii : ∀ c ∈ msg, c < 128)
    (hlen : msg.length + 3 ≤ 255) (hid : request_id ≤ 255) :
    Decodes buffer request_id msg ops ↔ msg.length ≤ 124 := by
  have hpacked := ClientUDP.getPackedMessage_eq ops hascii hlen hid
  constructor
  · rintro ⟨datagram, next, req, hpack, hparse, -⟩
    by_contra hlong
    obtain ⟨rfl, -⟩ := Prod.mk.inj (Except.ok.inj (hpacked.symm.trans hpack))
    rw [parse_packed_eq_error buffer _ _ (by omega) hlen] at hparse
    cases hparse
  · intro hshort
    refine ⟨_, _, _, hpacked, parse_packed buffer _ _ hshort, rfl, signedChar_opsCode ops, ?_⟩
    show signedChar (UInt8.ofNat request_id) % 256 = _
    rw [signedChar_emod, UInt8.toNat_ofNat']
    omega

/-- A message of two letters. -/
theorem decodes_iff_hi :
    Decodes (fun _ => 7) 5 [104, 105] 3 ↔ ([104, 105] : List UInt8).length ≤ 124 :=
  decodes_iff _ _ (by decide +kernel) (by decide) (by decide)

/-- A message of 125 letters. -/
theorem not_decodes_long :
    (List.replicate 125 (97 : UInt8)).length + 3 ≤ 255 ∧
      ¬ Decodes (fun _ => 0) 0 (List.replicate 125 97) 1 := by
  have hlen : (List.replicate 125 (97 : UInt8)).length = 125 := List.length_replicate
  have hascii : ∀ c ∈ List.replicate 125 (97 : UInt8), c < 128 := by
    intro c hc
    rw [List.eq_of_mem_replicate hc]
    decide
  refine ⟨by rw [hlen]; decide, ?_⟩
  rintro ⟨datagram, next, req, hpack, hparse, -⟩
  have hpacked := ClientUDP.getPackedMessage_eq 1 hascii (by rw [hlen]; decide)
    (show 0 ≤ 255 by decide)
  obtain ⟨rfl, -⟩ := Prod.mk.inj (Except.ok.inj (hpacked.symm.trans hpack))
  rw [parse_packed_eq_error _ _ _ (by rw [hlen]; decide) (by rw [hlen]; decide)] at hparse
  cases hparse

/-! ### Surviving what was sent -/

/-- The iteration that handles a datagram is safe. -/
structure Endures (buffer : Memory) (datagram : List UInt8) : Prop where
  /-- It raises no exception. -/
  raises : (runStep buffer datagram).2 ≠ .error .lengthError
  /-- The text ends behind the header and within the bytes received. -/
  range : 3 ≤ signedChar (recvfrom buffer datagram 0) ∧
    signedChar (recvfrom buffer datagram 0) ≤ datagram.length
  /-- The response is built without an index outside its literal. -/
  indexes : (runStep buffer datagram).2 ≠ .error .outOfBounds
  /-- The reply is the same whatever the buffer held before. -/
  alone : ∀ buffer', (runStep buffer' datagram).2 = (runStep buffer datagram).2

/-- Every iteration of a run is safe: after any of the datagrams that leave the server running, the
next one is. -/
def EnduresRun (buffer : Memory) (datagrams : List (List UInt8)) : Prop :=
  ∀ history datagram rest b, datagrams = history ++ datagram :: rest →
    server.run buffer history = some b → Endures b datagram

/-- The text is within the bytes received, and the operation is one of the three or an offset into
the error text. -/
structure Sound (d : List UInt8) : Prop where
  range : InRange d
  operation : (d.getD 2 0).toNat ≤ 21 ∨ (d.getD 2 0).toNat = 0x50

theorem answer_of_parse {req : ClientRequest} (h : parse buffer = .ok req)
    (herror : req.error = 0) : answer buffer = (respond req).map fun response =>
      some (packResult req.requestID response) := by
  rw [answer, h]
  show (if req.error ≠ 0 then _ else _) = _
  rw [if_neg (not_not.mpr herror), getResponse]
  cases respond req <;> rfl

/-- An operation that is one of the three, or an offset into the error text, is answered. -/
theorem respond_isOk (req : ClientRequest) {c : UInt8} (hop : req.operation = signedChar c)
    (h : c.toNat ≤ 21 ∨ c.toNat = 0x50) : ∃ response, respond req = .ok response := by
  have hc : req.operation = c.toNat := hop.trans (signedChar_of_lt (by omega))
  have hbound : (errorText.length : ℤ) = 21 := rfl
  rw [respond]
  split_ifs with h₁ h₂ h₃
  · exact ⟨_, rfl⟩
  · exact ⟨_, rfl⟩
  · exact ⟨_, rfl⟩
  · exact ⟨_, if_pos ⟨by omega, by omega⟩⟩

/-- **Any other operation is an access outside the error text.** -/
theorem respond_eq_error {req : ClientRequest} {c : UInt8} (hop : req.operation = signedChar c)
    (h : ¬ (c.toNat ≤ 21 ∨ c.toNat = 0x50)) : respond req = .error .outOfBounds := by
  have hmod := signedChar_emod c
  have hlt : c.toNat < 256 := c.toNat_lt
  have hbound : (errorText.length : ℤ) = 21 := rfl
  have hsign : signedChar c = c.toNat ∨ signedChar c < 0 := by
    rcases Nat.lt_or_ge c.toNat 128 with hlow | hhigh
    · exact Or.inl (signedChar_of_lt hlow)
    · rw [signedChar_of_le hhigh]
      omega
  rw [respond, hop, if_neg (by omega), if_neg (by omega), if_neg (by omega), stringOfLiteral,
    if_neg (by omega)]

/-- The reply to a datagram that states its length right. -/
theorem runStep_of_inRange (buffer : Memory) (hd : d.length ≤ 1024) (h : InRange d) :
    (runStep buffer d).2 = (respond ⟨(d.getD 0 0).toNat, signedChar (d.getD 1 0),
      signedChar (d.getD 2 0), (d.drop 3).take ((d.getD 0 0).toNat - 3), 0⟩).map
        fun response => some (packResult (signedChar (d.getD 1 0)) response) :=
  answer_of_parse (parse_recvfrom buffer hd h) rfl

/-- A text that ends behind the header and within what was received. -/
theorem inRange_iff (buffer : Memory) (hd : d.length ≤ 1024) :
    InRange d ↔ 3 ≤ signedChar (recvfrom buffer d 0) ∧
      signedChar (recvfrom buffer d 0) ≤ d.length := by
  constructor
  · rintro ⟨hheader, hsign, hreceived⟩
    rw [recvfrom_apply buffer hd (by omega), signedChar_of_lt (by omega)]
    omega
  · rintro ⟨hheader, hreceived⟩
    have h₀ := recvfrom_apply buffer hd (show 0 < d.length by omega)
    rw [h₀] at hheader hreceived
    rcases Nat.lt_or_ge (d.getD 0 0).toNat 128 with hlow | hhigh
    · rw [signedChar_of_lt hlow] at hheader hreceived
      exact ⟨by omega, by omega, by omega⟩
    · have hlt : (d.getD 0 0).toNat < 256 := (d.getD 0 0).toNat_lt
      rw [signedChar_of_le hhigh] at hheader
      omega

/-- **An iteration is safe for exactly the sound datagrams**, whatever the buffer held before. -/
theorem endures_iff (buffer : Memory) (hd : d.length ≤ 1024) : Endures buffer d ↔ Sound d := by
  constructor
  · intro h
    have hrange := (inRange_iff buffer hd).mpr h.range
    refine ⟨hrange, ?_⟩
    by_contra hop
    refine h.indexes ?_
    rw [runStep_of_inRange buffer hd hrange, respond_eq_error rfl hop]
    rfl
  · rintro ⟨hrange, hop⟩
    obtain ⟨response, hresponse⟩ := respond_isOk ⟨(d.getD 0 0).toNat,
      signedChar (d.getD 1 0), signedChar (d.getD 2 0),
      (d.drop 3).take ((d.getD 0 0).toNat - 3), 0⟩ rfl hop
    have hstep : ∀ b : Memory, (runStep b d).2
        = .ok (some (packResult (signedChar (d.getD 1 0)) response)) := by
      intro b
      rw [runStep_of_inRange b hd hrange, hresponse]
      rfl
    refine ⟨?_, (inRange_iff buffer hd).mp hrange, ?_, fun b => ?_⟩
    · rw [hstep]
      exact fun h => nomatch h
    · rw [hstep]
      exact fun h => nomatch h
    · rw [hstep, hstep]

/-- The server goes on after a safe iteration. -/
theorem step_of_endures (h : Endures buffer d) :
    server.step buffer d = some (recvfrom buffer d) := by
  have hstep : runStep buffer d = (recvfrom buffer d, answer (recvfrom buffer d)) := rfl
  have hraises := h.raises
  have hindexes := h.indexes
  rw [server]
  dsimp only
  rw [hstep] at hraises hindexes ⊢
  cases hanswer : answer (recvfrom buffer d) with
  | ok _ => rfl
  | error e =>
    rw [hanswer] at hraises hindexes
    cases e with
    | lengthError => exact absurd rfl hraises
    | outOfBounds => exact absurd rfl hindexes

/-- A run is safe if its first iteration is and the rest of it is. -/
theorem enduresRun_cons (ds : List (List UInt8)) :
    EnduresRun buffer (d :: ds) ↔ Endures buffer d ∧ EnduresRun (recvfrom buffer d) ds := by
  constructor
  · intro h
    have hfirst : Endures buffer d := h [] d ds buffer rfl rfl
    refine ⟨hfirst, fun history datagram rest b hds hrun => ?_⟩
    refine h (d :: history) datagram rest b (by rw [hds, List.cons_append]) ?_
    rw [System.run_cons, step_of_endures hfirst]
    exact hrun
  · rintro ⟨hfirst, hrest⟩ history datagram rest b hds hrun
    cases history with
    | nil =>
      obtain ⟨rfl, -⟩ := List.cons.inj hds
      obtain rfl : buffer = b := Option.some.inj hrun
      exact hfirst
    | cons d' history =>
      obtain ⟨rfl, htail⟩ := List.cons.inj hds
      rw [System.run_cons, step_of_endures hfirst] at hrun
      exact hrest history datagram rest b htail hrun

/-- **A run is safe exactly if all its datagrams are sound**, whatever the buffer holds at the
start. -/
theorem enduresRun_iff {ds : List (List UInt8)} (buffer : Memory)
    (hds : ∀ d ∈ ds, d.length ≤ 1024) : EnduresRun buffer ds ↔ ∀ d ∈ ds, Sound d := by
  induction ds generalizing buffer with
  | nil => exact iff_of_true (fun _ _ _ _ h => by simp at h) (by simp)
  | cons d ds ih =>
    rw [enduresRun_cons, endures_iff buffer (hds d List.mem_cons_self),
      ih _ fun d' hd' => hds d' (List.mem_cons_of_mem _ hd'), List.forall_mem_cons]

/-- Two requests, the second without a text. -/
theorem enduresRun_iff_two :
    EnduresRun (fun _ => 255) [[5, 0, 5, 104, 105], [3, 1, 21]] ↔
      ∀ d ∈ [[5, 0, 5, 104, 105], [3, 1, 21]], Sound d :=
  enduresRun_iff _ (by decide +kernel)

/-- A datagram that states two bytes. -/
theorem not_enduresRun : ¬ EnduresRun (fun _ => 0) [[2, 0, 5]] := by
  intro h
  have hfirst : Endures (fun _ => 0) [2, 0, 5] := h [] [2, 0, 5] [] (fun _ => 0) rfl rfl
  exact absurd hfirst.range (by decide +kernel)

end ServerUDP

end Lab1

end Comp4320
