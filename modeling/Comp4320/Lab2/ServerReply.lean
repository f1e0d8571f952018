import Comp4320.Lab2.ClientUDP
import Comp4320.Lab2.ServerValidation

/-!
# What the server sends

`resolveHostnames` is the walk of `LengthPrefix.frames` with one lookup per frame: its lookups are
the frames, and the bytes it copies out are the addresses recorded on the way, unless more than
fifty are recorded, in which case the array overflows. Both response structs are the packet format
of `Packet.stamped`, so every packet the server sends is well formed and its checksum verifies for
either implementation.

## Main results

* `ServerUDP.resolveHostnames_eq`, `resolveHostnames_eq_none` — the loop, in terms of the walk
* `ServerUDP.invalidPacket_eq`, `validPacket_eq` — the responses, in terms of the format
* `ServerUDP.runStep_rejected`, `runStep_accepted` — one iteration of `run`
* `ServerUDP.reply_selfConsistent` — every packet sent is self-consistent
-/

namespace Comp4320

namespace Lab2

open ByteOrder LengthPrefix

namespace ServerUDP

/-! ### The walk behind the loop -/

/-- The address a lookup adds to `ips`: all ones for a failed lookup, none for an entry without
addresses. -/
def recorded : HostEnt → Option UInt32
  | .null => some 0xffffffff
  | .noAddress => none
  | .address s_addr => some s_addr

/-- The lookup made for a frame. -/
def lookupAt (msg : Memory) (f : Frame) : Lookup := ⟨f, f.body msg⟩

/-- The lookups made for the frames from `c` on. -/
def lookupsFrom (msg : Memory) (num_bytes c : ℕ) : List Lookup :=
  (frames msg num_bytes c).map (lookupAt msg)

/-- The addresses recorded for some lookups. -/
def answers (gethostbyname : Resolver) (lookups : List Lookup) : List UInt32 :=
  lookups.filterMap fun l => recorded (gethostbyname l)

variable {g : Resolver} {msg : Memory} {n c : ℕ}

theorem lookupsFrom_of_lt (h : c < n) :
    lookupsFrom msg n c = lookupAt msg ⟨c, (msg c).toNat⟩
      :: lookupsFrom msg n (c + ((msg c).toNat + 1)) := by
  rw [lookupsFrom, frames_of_lt h]
  rfl

theorem lookupsFrom_of_le (h : n ≤ c) : lookupsFrom msg n c = [] := by
  rw [lookupsFrom, frames_of_le h]
  rfl

/-- The lookups depend on the bytes the walk passes only. -/
theorem lookupsFrom_congr {msg' : Memory} (h : ∀ i, c ≤ i → i < stop msg n c → msg i = msg' i) :
    lookupsFrom msg n c = lookupsFrom msg' n c := by
  induction c using frames.induct msg n with
  | case1 c hc ih =>
    rw [stop_of_lt hc] at h
    have hle := (le_stop msg n (c + (msg c).toNat + 1)).2
    have hsize : msg c = msg' c := h c (Nat.le_refl _) (by omega)
    have hbody : lookupAt msg ⟨c, (msg c).toNat⟩ = lookupAt msg' ⟨c, (msg c).toNat⟩ := by
      refine congrArg (Lookup.mk _) (Memory.load_congr fun i h₁ h₂ => ?_)
      dsimp only at h₁ h₂
      exact h i (by omega) (by omega)
    rw [lookupsFrom_of_lt hc, lookupsFrom_of_lt hc, ← hsize, hbody, ← Nat.add_assoc,
      ih fun i hi => h i (by omega)]
  | case2 c hc => rw [lookupsFrom_of_le (by omega), lookupsFrom_of_le (by omega)]

theorem answers_cons (g : Resolver) (l : Lookup) (ls : List Lookup) :
    answers g (l :: ls) = (recorded (g l)).toList ++ answers g ls := by
  rw [answers, List.filterMap_cons]
  cases recorded (g l) <;> rfl

/-- The locals after `as` has been recorded. -/
structure Locals.Holds (s : Locals) (as : List UInt32) : Prop where
  num_ips : s.num_ips = as.length
  total_bytes : s.total_bytes = 4 * as.length
  length_ips : s.ips.length = 50
  ips : s.ips.take as.length = as

variable {s : Locals} {as : List UInt32}

theorem Locals.init_holds : Locals.init.Holds [] := ⟨rfl, rfl, by simp [Locals.init], rfl⟩

theorem Locals.Holds.record (h : s.Holds as) (hlen : as.length < 50) (ip : UInt32) :
    ∃ t, s.record ip = some t ∧ t.Holds (as ++ [ip]) := by
  refine ⟨_, by rw [Locals.record, if_pos (by rw [h.num_ips]; exact hlen)], ?_⟩
  refine ⟨by simp [h.num_ips], by simp [h.total_bytes]; omega, by simp [h.length_ips], ?_⟩
  have hget : as.length < s.ips.length := by rw [h.length_ips]; exact hlen
  rw [List.length_append, List.length_singleton, h.num_ips, List.take_add_one,
    List.getElem?_set_self hget, List.take_set_of_le (Nat.le_refl _), h.ips]
  rfl

/-- Recording the answer to one lookup. -/
theorem Locals.Holds.answer (h : s.Holds as) (e : HostEnt)
    (hlen : (as ++ (recorded e).toList).length ≤ 50) :
    ∃ t, s.answer e = some t ∧ t.Holds (as ++ (recorded e).toList) := by
  cases e with
  | null => exact h.record (by simp [recorded] at hlen; omega) _
  | noAddress => exact ⟨s, rfl, by simpa [recorded] using h⟩
  | address s_addr => exact h.record (by simp [recorded] at hlen; omega) _

/-- There is no room for a fifty-first address. -/
theorem Locals.Holds.answer_eq_none (h : s.Holds as) (hle : as.length ≤ 50) (e : HostEnt)
    (hlen : 50 < (as ++ (recorded e).toList).length) : s.answer e = none := by
  have hrec : ∀ ip, 50 < as.length + 1 → s.record ip = none := fun ip hip => by
    rw [Locals.record, if_neg (by rw [h.num_ips]; omega)]
  cases e with
  | null => exact hrec _ (by simpa [recorded] using hlen)
  | noAddress => simp [recorded] at hlen; omega
  | address s_addr => exact hrec _ (by simpa [recorded] using hlen)

/-- Only the addresses recorded are copied out. -/
theorem Locals.Holds.image (h : s.Holds as) :
    (s.ips.flatMap image32).take s.total_bytes = as.flatMap image32 := by
  have hsplit : s.ips = as ++ s.ips.drop as.length := by
    conv_lhs => rw [← List.take_append_drop as.length s.ips, h.ips]
  have hlen : (as.flatMap image32).length = s.total_bytes := by
    rw [length_flatMap_image32, h.total_bytes]
  rw [hsplit, List.flatMap_append, List.take_left' hlen]

/-- **One turn of the loop.** -/
theorem resolveLoop_of_lt (h : s.currentByte < n) :
    resolveLoop g msg n s =
      (s.answer (g (lookupAt msg ⟨s.currentByte, (msg s.currentByte).toNat⟩))).bind fun t =>
        resolveLoop g msg n
          { t with
            currentByte := s.currentByte + ((msg s.currentByte).toNat + 1)
            lookups := s.lookups
              ++ [lookupAt msg ⟨s.currentByte, (msg s.currentByte).toNat⟩] } := by
  rw [resolveLoop, if_pos (by omega)]
  simp only [lookupAt, Frame.body]
  cases s.answer _ <;> rfl

theorem resolveLoop_of_le (h : n ≤ s.currentByte) : resolveLoop g msg n s = some s := by
  rw [resolveLoop, if_neg (by omega)]

/-- **The loop records the answers of the walk**, while they fit. -/
theorem resolveLoop_eq (hs : s.Holds as)
    (hle : (as ++ answers g (lookupsFrom msg n s.currentByte)).length ≤ 50) :
    ∃ t, resolveLoop g msg n s = some t ∧
      t.Holds (as ++ answers g (lookupsFrom msg n s.currentByte)) ∧
      t.lookups = s.lookups ++ lookupsFrom msg n s.currentByte := by
  generalize hc : s.currentByte = c at hle ⊢
  induction c using frames.induct msg n generalizing s as with
  | case1 c hlt ih =>
    rw [lookupsFrom_of_lt hlt, answers_cons, ← List.append_assoc] at hle ⊢
    obtain ⟨t, ht, hholds⟩ := hs.answer (g (lookupAt msg ⟨c, (msg c).toNat⟩))
      (by rw [List.length_append] at hle; omega)
    rw [resolveLoop_of_lt (by omega), hc, ht, Option.bind_some]
    obtain ⟨u, hu, hu', hlook⟩ := ih (s := { t with
        currentByte := c + ((msg c).toNat + 1)
        lookups := s.lookups ++ [lookupAt msg ⟨c, (msg c).toNat⟩] })
      ⟨hholds.num_ips, hholds.total_bytes, hholds.length_ips, hholds.ips⟩ rfl hle
    exact ⟨u, hu, hu', by rw [hlook]; simp [Nat.add_assoc]⟩
  | case2 c hge =>
    rw [resolveLoop_of_le (by omega), lookupsFrom_of_le (by omega)]
    exact ⟨s, rfl, by simpa [answers] using hs, by simp⟩

/-- Past fifty answers the loop writes past the end of `ips`. -/
theorem resolveLoop_eq_none (hs : s.Holds as) (has : as.length ≤ 50)
    (hlt : 50 < (as ++ answers g (lookupsFrom msg n s.currentByte)).length) :
    resolveLoop g msg n s = none := by
  generalize hc : s.currentByte = c at hlt
  induction c using frames.induct msg n generalizing s as with
  | case1 c hcn ih =>
    rw [lookupsFrom_of_lt hcn, answers_cons, ← List.append_assoc] at hlt
    rw [resolveLoop_of_lt (by omega), hc]
    by_cases hroom : (as ++ (recorded (g (lookupAt msg ⟨c, (msg c).toNat⟩))).toList).length ≤ 50
    · obtain ⟨t, ht, hholds⟩ := hs.answer _ hroom
      rw [ht, Option.bind_some]
      exact ih (s := { t with
          currentByte := c + ((msg c).toNat + 1)
          lookups := s.lookups ++ [lookupAt msg ⟨c, (msg c).toNat⟩] })
        ⟨hholds.num_ips, hholds.total_bytes, hholds.length_ips, hholds.ips⟩ hroom rfl hlt
    · rw [hs.answer_eq_none has _ (by omega), Option.bind_none]
  | case2 c hge =>
    rw [lookupsFrom_of_le (by omega)] at hlt
    simp [answers] at hlt
    omega

/-- A negative number of bytes is as good as none. -/
theorem resolveLoop_toNat (num_bytes : ℤ) (s : Locals) :
    resolveLoop g msg num_bytes.toNat s = resolveLoop g msg num_bytes s := by
  rcases Int.le_total 0 num_bytes with h | h
  · rw [Int.toNat_of_nonneg h]
  · rw [Int.toNat_of_nonpos h, resolveLoop, if_neg (by omega), resolveLoop, if_neg (by omega)]

/-- **The host list loop, in terms of the walk.** -/
theorem resolveHostnames_eq {num_bytes : ℤ}
    (h : (answers g (lookupsFrom msg num_bytes.toNat 0)).length ≤ 50) :
    resolveHostnames g msg num_bytes
      = some ((answers g (lookupsFrom msg num_bytes.toNat 0)).flatMap image32,
          lookupsFrom msg num_bytes.toNat 0) := by
  obtain ⟨t, ht, hholds, hlook⟩ := resolveLoop_eq Locals.init_holds
    (show ([] ++ answers g (lookupsFrom msg num_bytes.toNat 0)).length ≤ 50 from h)
  rw [resolveLoop_toNat] at ht
  rw [resolveHostnames, ht, Option.map_some, hholds.image, hlook]
  rfl

theorem resolveHostnames_eq_none {num_bytes : ℤ}
    (h : 50 < (answers g (lookupsFrom msg num_bytes.toNat 0)).length) :
    resolveHostnames g msg num_bytes = none := by
  have hnone := resolveLoop_eq_none Locals.init_holds (Nat.zero_le _)
    (show 50 < ([] ++ answers g (lookupsFrom msg num_bytes.toNat 0)).length from h)
  rw [resolveLoop_toNat] at hnone
  rw [resolveHostnames, hnone, Option.map_none]

/-! ### The responses -/

theorem image32_htonl_magic : image32 (htonl 0x4a6f7921) = Packet.magic := by decide

theorem image16_htons {k : ℕ} (h : k < 65536) : image16 (htons (.ofNat k)) = toBE 2 k := by
  rw [image16_swap16, UInt16.toNat_ofNat', Nat.mod_eq_of_lt (by simpa using h)]

/-- The checksum of a struct in memory that starts with `pkt`. -/
theorem getChecksum_ofList (pkt rest : List UInt8) :
    getChecksum (.ofList (pkt ++ rest)) pkt.length = OnesComplement.checksum pkt := by
  rw [getChecksum_eq, Memory.load_ofList_take _ (by simp), List.take_left' rfl]

/-- **An error response is a packet without payload.** -/
theorem invalidPacket_eq (error : UInt8) : invalidPacket error = Packet.stamped error [] := by
  have himg : ∀ k : UInt8, InvalidResponse.image ⟨htonl 0x4a6f7921, htons 9, 7, k, error⟩
      = Packet.header 9 k error := by
    intro k
    rw [InvalidResponse.image, image32_htonl_magic, show (9 : UInt16) = .ofNat 9 from rfl,
      image16_htons (by decide)]
    rfl
  have hsum := getChecksum_ofList (Packet.header 9 0 error) []
  rw [List.append_nil, Packet.length_header] at hsum
  simp only [invalidPacket]
  rw [himg, himg, hsum, List.take_of_length_le (by simp)]
  simp [Packet.stamped]

/-- **An answer is a packet whose payload is the addresses.** -/
theorem validPacket_eq (requestID : UInt8) {ips : List UInt8} (h : ips.length ≤ 4096) :
    validPacket requestID ips = Packet.stamped requestID ips := by
  set zeros : List UInt8 := (List.replicate 4096 0).drop ips.length with hzeros
  have himg : ∀ k : UInt8, ValidResponse.image
      ⟨htonl 0x4a6f7921, htons (.ofNat (ips.length + 9)), 7, k, requestID, ips ++ zeros⟩
      = (Packet.header (ips.length + 9) k requestID ++ ips) ++ zeros := by
    intro k
    rw [ValidResponse.image, image32_htonl_magic, image16_htons (by omega), Packet.header,
      ← List.append_assoc]
  have hlen : ∀ k : UInt8,
      (Packet.header (ips.length + 9) k requestID ++ ips).length = ips.length + 9 := by
    intro k
    rw [List.length_append, Packet.length_header, Nat.add_comm]
  have hsum := getChecksum_ofList (Packet.header (ips.length + 9) 0 requestID ++ ips) zeros
  rw [hlen] at hsum
  simp only [validPacket]
  rw [← hzeros, himg, himg, hsum, List.take_left' (hlen _)]
  rfl

/-! ### One iteration -/

/-- The buffer once a datagram has been received and checked. -/
def processed (buf : ClientRequest) (d : List UInt8) : ClientRequest :=
  processRaw (recvfrom buf d).2 (recvfrom buf d).1

/-- The frames the host list of an accepted request is parsed into. -/
def hostFrames (buf : ClientRequest) (d : List UInt8) : List Frame :=
  frames (processed buf d).hostList ((processed buf d).tml.toNat - 9 : ℤ).toNat 0

/-- The lookups made for these frames. -/
def hostLookups (buf : ClientRequest) (d : List UInt8) : List Lookup :=
  lookupsFrom (processed buf d).hostList ((processed buf d).tml.toNat - 9 : ℤ).toNat 0

variable {buf : ClientRequest} {d : List UInt8}

theorem hostLookups_eq (buf : ClientRequest) (d : List UInt8) :
    hostLookups buf d = (hostFrames buf d).map (lookupAt (processed buf d).hostList) := rfl

theorem error_processed (buf : ClientRequest) (d : List UInt8) :
    (processed buf d).error = verdict (received d).length (buf.store 0 (received d)) := by
  rw [processed, recvfrom_eq, processRaw_eq, ClientRequest.error_setError]

theorem processed_eq (buf : ClientRequest) (d : List UInt8) :
    processed buf d = (swapHeader (buf.store 0 (received d))).setError (processed buf d).error := by
  rw [error_processed, processed, recvfrom_eq, processRaw_eq]

theorem tml_processed (buf : ClientRequest) (d : List UInt8) :
    (processed buf d).tml.toNat = ofBE ((buf.store 0 (received d)).load 4 2) := by
  rw [processed_eq, ClientRequest.tml_setError, ← toNat_htons_tml]
  simp [swapHeader]

/-- An accepted request says how long it is. -/
theorem tml_of_accepted (h : (processed buf d).error = 0) :
    (processed buf d).tml.toNat = (received d).length := by
  rw [error_processed, verdict_eq_zero_iff] at h
  rw [tml_processed, tmlBit_eq_zero_iff.mp h.2.2]

/-- Behind the header, only the error field is not as received. -/
theorem processed_apply {i : ℕ} (h : 6 ≤ i) (hne : i ≠ 4105) :
    processed buf d i = buf.store 0 (received d) i := by
  rw [processed_eq, ClientRequest.setError_apply_of_ne _ _ hne, swapHeader_apply_of_le h]

theorem runStep_rejected (g : Resolver) (h : (processed buf d).error ≠ 0) :
    runStep g buf d
      = some (processed buf d, ⟨Packet.stamped (processed buf d).error [], []⟩) := by
  rw [← invalidPacket_eq]
  exact if_pos h

/-- What an accepted request is answered with: a packet of its request id and the addresses. -/
def acceptedReply (g : Resolver) (buf : ClientRequest) (d : List UInt8) : Reply :=
  ⟨Packet.stamped (processed buf d).requestID ((answers g (hostLookups buf d)).flatMap image32),
    hostLookups buf d⟩

theorem runStep_of_accepted (g : Resolver) (h : (processed buf d).error = 0) :
    runStep g buf d = (resolveHostnames g (processed buf d).hostList
      ((processed buf d).tml.toNat - 9)).map fun (ips, lookups) =>
        (processed buf d, ⟨validPacket (processed buf d).requestID ips, lookups⟩) :=
  if_neg (not_not.mpr h)

theorem runStep_accepted {g : Resolver} (h : (processed buf d).error = 0)
    (hle : (answers g (hostLookups buf d)).length ≤ 50) :
    runStep g buf d = some (processed buf d, acceptedReply g buf d) := by
  have hlen := length_flatMap_image32 (answers g (hostLookups buf d))
  have hres : resolveHostnames g (processed buf d).hostList ((processed buf d).tml.toNat - 9)
      = some ((answers g (hostLookups buf d)).flatMap image32, hostLookups buf d) :=
    resolveHostnames_eq hle
  have hpkt : validPacket (processed buf d).requestID
      ((answers g (hostLookups buf d)).flatMap image32) = (acceptedReply g buf d).packet :=
    validPacket_eq _ (by omega)
  rw [runStep_of_accepted g h, hres, Option.map_some]
  simp only [hpkt]
  rfl

theorem runStep_overflow {g : Resolver} (h : (processed buf d).error = 0)
    (hlt : 50 < (answers g (hostLookups buf d)).length) : runStep g buf d = none := by
  rw [runStep_of_accepted g h, resolveHostnames_eq_none hlt, Option.map_none]

/-! ### Every packet is self-consistent -/

/-- The bytes one frame contributes to the payload of an answer. -/
def frameValue : HostEnt → List UInt8
  | .null => [0xff, 0xff, 0xff, 0xff]
  | .noAddress => []
  | .address s_addr => image32 s_addr

theorem flatMap_answers (g : Resolver) (ls : List Lookup) :
    (answers g ls).flatMap image32 = ls.flatMap fun l => frameValue (g l) := by
  have hvalue : ∀ e, (recorded e).toList.flatMap image32 = frameValue e := by
    intro e
    cases e with
    | null => decide
    | noAddress => rfl
    | address s_addr => simp [recorded, frameValue]
  induction ls with
  | nil => rfl
  | cons l ls ih => rw [answers_cons, List.flatMap_append, hvalue, ih, List.flatMap_cons]

/-- A well-formed packet verifies for either implementation. -/
theorem checksums_of_wellFormed {p : List UInt8} (h : Packet.WellFormed p) :
    getChecksum (.ofList p) p.length = 0 ∧ ClientUDP.getChecksum p p.length = .ok 0 := by
  constructor
  · rw [getChecksum_eq, Memory.load_ofList, h.verifies]
  · rw [ClientUDP.getChecksum_eq (Nat.le_refl _), List.take_length, h.verifies]

/-- A packet sent in reply to `d` that any receiver can check, and that reports what the server
did with `d`. -/
structure SelfConsistent (g : Resolver) (buf : ClientRequest) (d : List UInt8) (reply : Reply) :
    Prop where
  /-- It starts with the magic number in network order. -/
  magic : reply.packet.take 4 = [0x4a, 0x6f, 0x79, 0x21]
  /-- Its length field, in network order, is the number of bytes sent. -/
  tml : ofBE ((reply.packet.drop 4).take 2) = reply.packet.length
  /-- The server's checksum over it is zero. -/
  verifies_server : getChecksum (.ofList reply.packet) reply.packet.length = 0
  /-- The client's checksum over it is zero. -/
  verifies_client : ClientUDP.getChecksum reply.packet reply.packet.length = .ok 0
  /-- A rejected datagram is answered by nine bytes that end in the error code. -/
  rejected : (processed buf d).error ≠ 0 →
    reply.packet.length = 9 ∧ reply.packet[8]? = some (processed buf d).error ∧
      1 ≤ (processed buf d).error.toNat ∧ (processed buf d).error.toNat ≤ 7
  /-- An accepted one by the values of its frames, in order. -/
  accepted : (processed buf d).error = 0 →
    reply.packet.drop 9 = (hostFrames buf d).flatMap fun f =>
      frameValue (g (lookupAt (processed buf d).hostList f))

/-- **Every packet the server sends is self-consistent**, whatever the buffer held before the
datagram and whatever the resolver answers to each lookup. -/
theorem reply_selfConsistent (g : Resolver) (buf : ClientRequest) (d : List UInt8)
    (hframes : (processed buf d).error = 0 → (hostFrames buf d).length ≤ 50) :
    ∃ reply, runStep g buf d = some (processed buf d, reply) ∧ SelfConsistent g buf d reply := by
  by_cases h : (processed buf d).error = 0
  · have hle : (answers g (hostLookups buf d)).length ≤ 50 := by
      refine (List.length_filterMap_le _ _).trans ?_
      rw [hostLookups_eq, List.length_map]
      exact hframes h
    have hlen := length_flatMap_image32 (answers g (hostLookups buf d))
    have hwf : Packet.WellFormed (acceptedReply g buf d).packet :=
      Packet.stamped_wellFormed _ (by omega)
    obtain ⟨hserver, hclient⟩ := checksums_of_wellFormed hwf
    refine ⟨_, runStep_accepted h hle, hwf.magic, hwf.tml, hserver, hclient,
      fun hne => absurd h hne, fun _ => ?_⟩
    rw [acceptedReply, Packet.drop_nine_stamped, flatMap_answers, hostLookups_eq,
      List.flatMap_map]
  · have hlt := toNat_verdict_lt (received d).length (buf.store 0 (received d))
    rw [← error_processed] at hlt
    have hpos : (processed buf d).error.toNat ≠ 0 := fun h0 => h (UInt8.toNat_inj.mp h0)
    have hwf := Packet.stamped_wellFormed (processed buf d).error
      (by simp : ([] : List UInt8).length + 9 < 65536)
    obtain ⟨hserver, hclient⟩ := checksums_of_wellFormed hwf
    exact ⟨_, runStep_rejected g h, hwf.magic, hwf.tml, hserver, hclient,
      fun _ => ⟨by simp, Packet.getElem?_eight_stamped .., by omega, by omega⟩,
      fun h0 => absurd h0 h⟩

/-- A resolver that has an address for `a`, an entry without one for `b`, and nothing else. -/
def mixedResolver : Resolver := fun l =>
  if l.hostname = [97] then .address 0x04030201
  else if l.hostname = [98] then .noAddress
  else .null

/-- A request for three hosts, sent to a server with a cleared buffer. -/
def threeHosts : List UInt8 := [0x4a, 0x6f, 0x79, 0x21, 0, 15, 7, 102, 5, 1, 97, 1, 98, 1, 99]

/-- It is accepted, and answered with two values. -/
theorem reply_selfConsistent_three_hosts :
    (processed (fun _ => 0) threeHosts).error = 0 ∧
      ∃ reply, runStep mixedResolver (fun _ => 0) threeHosts
          = some (processed (fun _ => 0) threeHosts, reply) ∧
        SelfConsistent mixedResolver (fun _ => 0) threeHosts reply :=
  ⟨by decide +kernel, reply_selfConsistent _ _ _ fun _ => by decide +kernel⟩

end ServerUDP

end Lab2

end Comp4320
