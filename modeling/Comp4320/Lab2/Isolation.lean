import Comp4320.Lab2.ServerReply

/-!
# What one request can learn about another

The buffer of `run` is never cleared, so the reply to a datagram is a function of the datagram and
of what the buffer held before. This module says for which datagrams the buffer does not matter.

There are three ways in which it does. A datagram of fewer than six bytes leaves part of the magic
number and the length to its predecessor, and the error code reports whether they match. A request
of seven or eight bytes can be accepted, and is answered with the request id of its predecessor. And
the last frame of a longer request may claim more bytes than were received, so that the name looked
up ends in bytes of an earlier request, or of the stack. `SelfContained` excludes exactly these, and
requests whose answers overflow the array they are collected in.

## Main definitions

* `ServerUDP.Isolated` — the reply to a datagram is the same after any two histories
* `ServerUDP.SelfContained` — the condition, on the datagram and the resolver alone

## Main results

* `ServerUDP.isolated_iff` — the two are equivalent
* `ServerUDP.not_isolated_seven_bytes` — a request that is answered with another one's id
-/

namespace Comp4320

namespace Lab2

open ByteOrder LengthPrefix

namespace ServerUDP

/-- `gethostbyname` as a function of the name. -/
def byName (resolve : List UInt8 → HostEnt) : Resolver := fun l => resolve l.hostname

/-- The server answers `d` after any two histories, from any two initial buffers, by the same
packet and after the same lookups. -/
def Isolated (resolve : List UInt8 → HostEnt) (d : List UInt8) : Prop :=
  ∀ buf₁ history₁ b₁ buf₂ history₂ b₂,
    (server (byName resolve)).run buf₁ history₁ = some b₁ →
    (server (byName resolve)).run buf₂ history₂ = some b₂ →
    ∃ b₁' b₂' reply, runStep (byName resolve) b₁ d = some (b₁', reply) ∧
      runStep (byName resolve) b₂ d = some (b₂', reply)

/-- The host list of a request as the loop reads it: what was received behind the header, with the
error field cleared. -/
def hostBytes (d : List UInt8) : Memory := fun i => ((received d).set 4105 0).getD (9 + i) 0

/-- A datagram whose reply is determined by its own bytes. -/
structure SelfContained (resolve : List UInt8 → HostEnt) (d : List UInt8) : Prop where
  /-- The magic number and the length are in the datagram. -/
  header : 6 ≤ (received d).length
  /-- So is the request id, if the request is accepted. -/
  requestID : Packet.WellFormed ((received d).set 4105 0) → 9 ≤ (received d).length
  /-- The last frame ends with the datagram. For the longest request without the error field it may
  also take that field, which holds zero. -/
  names : Packet.WellFormed ((received d).set 4105 0) →
    stop (hostBytes d) ((received d).length - 9) 0 + 9 ≤ (received d).length ∨
      (received d).length = 4105 ∧ stop (hostBytes d) ((received d).length - 9) 0 + 9 = 4106
  /-- At most fifty addresses are recorded. -/
  answers : Packet.WellFormed ((received d).set 4105 0) →
    (answers (byName resolve) (lookupsFrom (hostBytes d) ((received d).length - 9) 0)).length ≤ 50

variable {resolve : List UInt8 → HostEnt} {d : List UInt8} {buf buf₁ buf₂ : ClientRequest}

/-! ### What the buffer after a receive has in common with every other one -/

theorem error_eq_zero_iff (h : 6 ≤ (received d).length) :
    (processed buf d).error = 0 ↔ Packet.WellFormed ((received d).set 4105 0) := by
  rw [error_processed, verdict_eq_zero_iff_wellFormed h, load_recvfrom]

/-- The verdict depends on the bytes received only. -/
theorem verdict_congr {n : ℕ} {r₁ r₂ : ClientRequest} (hn : 6 ≤ n)
    (h : r₁.load 0 n = r₂.load 0 n) : verdict n r₁ = verdict n r₂ := by
  have hbyte : ∀ i < n, r₁ i = r₂ i := fun i hi => Memory.eq_of_load_eq h (Nat.zero_le i) (by omega)
  have hmagic : magicBit r₁ = magicBit r₂ := by
    rw [magicBit, magicBit, ClientRequest.magicNumber, ClientRequest.magicNumber,
      Memory.load_congr fun i _ hi => hbyte i (by omega)]
  have html : tmlBit n r₁ = tmlBit n r₂ := by
    rw [tmlBit, tmlBit, ClientRequest.tml, ClientRequest.tml,
      Memory.load_congr fun i _ hi => hbyte i (by omega)]
  have hload : ∀ v, (r₁.setError v).load 0 n = (r₂.setError v).load 0 n := by
    intro v
    refine Memory.load_congr fun i _ hi => ?_
    by_cases h0 : i = 4105
    · subst h0
      exact (ClientRequest.error_setError r₁ v).trans (ClientRequest.error_setError r₂ v).symm
    · rw [ClientRequest.setError_apply_of_ne _ _ h0, ClientRequest.setError_apply_of_ne _ _ h0,
        hbyte i (by omega)]
  have hsum : checksumBit n r₁ = checksumBit n r₂ := by
    rw [checksumBit, checksumBit, getChecksum_eq, getChecksum_eq, hmagic,
      OnesComplement.checksum_perm (load_swapHeader_perm r₁ hn _),
      OnesComplement.checksum_perm (load_swapHeader_perm r₂ hn _), hload]
  rw [verdict, verdict, hmagic, html, hsum]

/-- Byte `i` behind the header is the datagram's, or the cleared error field. -/
theorem hostList_processed (h : (processed buf d).error = 0) {i : ℕ}
    (hi : 9 + i < (received d).length ∨ 9 + i = 4105) :
    (processed buf d).hostList i = hostBytes d i := by
  rw [ClientRequest.hostList, hostBytes]
  by_cases hi' : 9 + i = 4105
  · have hzero : processed buf d 4105 = 0 := h
    rw [hi', hzero]
    by_cases hlen : 4105 < (received d).length
    · simp [List.getD_eq_getElem?_getD, List.getElem?_set_self hlen]
    · rw [List.getD_eq_default _ _ (by simpa using hlen)]
  · have hlt : 9 + i < (received d).length := by omega
    rw [processed_apply (by omega) hi', Memory.store_apply_of_mem (by omega) (by omega),
      Nat.sub_zero, List.getD_eq_getElem?_getD, List.getD_eq_getElem?_getD,
      List.getElem?_set_ne (Ne.symm hi')]

/-- What lies behind the datagram is what the buffer held. -/
theorem hostList_processed_of_le {i : ℕ} (hlen : (received d).length ≤ 9 + i)
    (hne : 9 + i ≠ 4105) : (processed buf d).hostList i = buf (9 + i) := by
  by_cases h6 : 6 ≤ 9 + i
  · rw [ClientRequest.hostList, processed_apply h6 hne, recvfrom_apply_of_le buf d hlen]
  · omega

/-- An accepted request is parsed over its own length. -/
theorem hostLookups_of_accepted (h : (processed buf d).error = 0) :
    hostLookups buf d = lookupsFrom (processed buf d).hostList ((received d).length - 9) 0 := by
  rw [hostLookups, tml_of_accepted h,
    show (((received d).length : ℕ) - 9 : ℤ).toNat = (received d).length - 9 by omega]

/-- The frames are the datagram's, wherever they end. -/
theorem frames_of_accepted (h : (processed buf d).error = 0) :
    frames (processed buf d).hostList ((received d).length - 9) 0
      = frames (hostBytes d) ((received d).length - 9) 0 :=
  frames_congr fun i _ hi => hostList_processed h (Or.inl (by omega))

/-- If no frame reaches behind the datagram, the names looked up are the datagram's too. -/
theorem hostLookups_eq_lookupsFrom (h : (processed buf d).error = 0)
    (hstop : ∀ i < stop (hostBytes d) ((received d).length - 9) 0,
      9 + i < (received d).length ∨ 9 + i = 4105) :
    hostLookups buf d = lookupsFrom (hostBytes d) ((received d).length - 9) 0 := by
  rw [hostLookups_of_accepted h]
  exact (lookupsFrom_congr fun i _ hi => (hostList_processed h (hstop i hi)).symm).symm

/-! ### A self-contained datagram is isolated -/

/-- No lookup of a self-contained request reads behind it. -/
theorem hostLookups_of_selfContained (h : SelfContained resolve d)
    (hacc : (processed buf d).error = 0) :
    hostLookups buf d = lookupsFrom (hostBytes d) ((received d).length - 9) 0 := by
  have hstop := h.names ((error_eq_zero_iff h.header).mp hacc)
  exact hostLookups_eq_lookupsFrom hacc fun i hi => by omega

/-- The reply to a self-contained datagram is the same from every buffer. -/
theorem SelfContained.exists_reply (h : SelfContained resolve d) :
    ∃ reply, ∀ buf, runStep (byName resolve) buf d = some (processed buf d, reply) := by
  by_cases hwf : Packet.WellFormed ((received d).set 4105 0)
  · refine ⟨⟨Packet.stamped ((received d).getD 8 0)
      ((ServerUDP.answers (byName resolve)
        (lookupsFrom (hostBytes d) ((received d).length - 9) 0)).flatMap image32),
      lookupsFrom (hostBytes d) ((received d).length - 9) 0⟩, fun buf => ?_⟩
    have hacc : (processed buf d).error = 0 := (error_eq_zero_iff h.header).mpr hwf
    have hlook := hostLookups_of_selfContained h hacc
    have hid : (processed buf d).requestID = (received d).getD 8 0 := by
      have hlen := h.requestID hwf
      rw [ClientRequest.requestID, processed_apply (by omega) (by omega),
        Memory.store_apply_of_mem (by omega) (by omega)]
    rw [runStep_accepted hacc (by rw [hlook]; exact h.answers hwf), acceptedReply, hlook, hid]
  · refine ⟨⟨Packet.stamped (processed (fun _ => 0) d).error [], []⟩, fun buf => ?_⟩
    have hrej : (processed buf d).error ≠ 0 := fun h0 => hwf ((error_eq_zero_iff h.header).mp h0)
    have herr : (processed buf d).error = (processed (fun _ => 0) d).error := by
      rw [error_processed, error_processed]
      exact verdict_congr h.header ((load_recvfrom buf d).trans (load_recvfrom _ d).symm)
    rw [runStep_rejected _ hrej, herr]

theorem SelfContained.isolated (h : SelfContained resolve d) : Isolated resolve d := by
  obtain ⟨reply, hreply⟩ := h.exists_reply
  intro _ _ b₁ _ _ b₂ _ _
  exact ⟨_, _, reply, hreply b₁, hreply b₂⟩

/-! ### An isolated datagram is self-contained -/

/-- Any two buffers are histories enough. -/
theorem Isolated.exists_reply (h : Isolated resolve d) (buf₁ buf₂ : ClientRequest) :
    ∃ b₁ b₂ reply, runStep (byName resolve) buf₁ d = some (b₁, reply) ∧
      runStep (byName resolve) buf₂ d = some (b₂, reply) :=
  h buf₁ [] buf₁ buf₂ [] buf₂ rfl rfl

theorem reply_of_rejected {g : Resolver} {b : ClientRequest} {reply : Reply}
    (hrej : (processed buf d).error ≠ 0) (h : runStep g buf d = some (b, reply)) :
    reply = ⟨Packet.stamped (processed buf d).error [], []⟩ := by
  rw [runStep_rejected g hrej] at h
  exact (congrArg Prod.snd (Option.some.inj h)).symm

theorem reply_of_accepted {g : Resolver} {b : ClientRequest} {reply : Reply}
    (hacc : (processed buf d).error = 0) (h : runStep g buf d = some (b, reply)) :
    (answers g (hostLookups buf d)).length ≤ 50 ∧ reply = acceptedReply g buf d := by
  have hle : (answers g (hostLookups buf d)).length ≤ 50 := by
    by_contra hlt
    rw [runStep_overflow hacc (by omega)] at h
    exact absurd h (by simp)
  rw [runStep_accepted hacc hle] at h
  exact ⟨hle, (congrArg Prod.snd (Option.some.inj h)).symm⟩

/-- An isolated datagram gets the same verdict from any two buffers that reject it. -/
theorem Isolated.error_eq (h : Isolated resolve d) (buf₁ buf₂ : ClientRequest)
    (h₁ : (processed buf₁ d).error ≠ 0) (h₂ : (processed buf₂ d).error ≠ 0) :
    (processed buf₁ d).error = (processed buf₂ d).error := by
  obtain ⟨b₁, b₂, reply, hr₁, hr₂⟩ := h.exists_reply buf₁ buf₂
  have heq := (reply_of_rejected h₁ hr₁).symm.trans (reply_of_rejected h₂ hr₂)
  have hpkt := congrArg (fun r : Reply => r.packet[8]?) heq
  simp only [Packet.getElem?_eight_stamped] at hpkt
  exact Option.some.inj hpkt

/-- A datagram without the whole length field is not isolated: the buffer supplies it. -/
theorem not_isolated_of_le_four (hlen : (received d).length ≤ 4) : ¬ Isolated resolve d := by
  intro h
  have hbyte : ∀ (buf : ClientRequest) i, 4 ≤ i → buf.store 0 (received d) i = buf i :=
    fun buf i hi => recvfrom_apply_of_le buf d (by omega)
  have html : ∀ buf : ClientRequest, (buf.store 0 (received d)).load 4 2 = buf.load 4 2 :=
    fun buf => Memory.load_congr fun i hi _ => hbyte buf i hi
  have heq := h.error_eq (fun i => if i = 5 then .ofNat (received d).length else 0)
    (fun _ => 0xff)
    (by rw [error_processed]; exact verdict_ne_zero_of_le (by omega))
    (by rw [error_processed]; exact verdict_ne_zero_of_le (by omega))
  rw [error_processed, error_processed] at heq
  have hbit := congrArg (· &&& (0b0001 : UInt8)) heq
  simp only [verdict_and_one] at hbit
  have hzero : tmlBit (received d).length (Memory.store
      (fun i => if i = 5 then .ofNat (received d).length else 0) 0 (received d)) = 0 := by
    rw [tmlBit_eq_zero_iff, html]
    generalize (received d).length = k at hlen
    interval_cases k <;> decide
  rw [hzero, eq_comm, tmlBit_eq_zero_iff, html] at hbit
  have h255 : ofBE (Memory.load (fun _ => 0xff) 4 2) = 65535 := by decide
  omega

/-- Of five bytes, the checksum is taken over the magic number and the low byte of the length,
which is not among them. -/
theorem checksumBit_five (hlen : (received d).length = 5) (x : UInt8) :
    checksumBit 5 (Memory.store (fun _ => x) 0 (received d)) = 0 ↔
      0 < OnesComplement.byteSum ((received d).take 4) + x.toNat ∧
        255 ∣ OnesComplement.byteSum ((received d).take 4) + x.toNat := by
  set r : ClientRequest := Memory.store (fun _ => x) 0 (received d) with hr
  have hmagic : r.load 0 4 = (received d).take 4 := by
    rw [← load_recvfrom (fun _ => x) d, Memory.take_load _ _ (by omega)]
  have hlow : r 5 = x := recvfrom_apply_of_le _ d (by omega)
  have hswap : swapHeader r 4 = x := by
    have html := load_tml_swapHeader r
    simp only [Memory.load, List.range_succ, List.range_zero, List.nil_append,
      List.map_cons, List.map_nil, List.cons_append, List.reverse_cons, List.reverse_nil] at html
    rw [← hlow]
    exact (List.cons.inj html).1
  have hload : ((swapHeader r).setError (magicBit r)).load 0 5
      = ((received d).take 4).reverse ++ [x] := by
    rw [show (5 : ℕ) = 4 + 1 from rfl, Memory.load_add, ClientRequest.setError,
      Memory.load_store_of_disjoint (by simp), load_magicNumber_swapHeader, hmagic,
      Memory.load_store_of_disjoint (by simp), Memory.load_succ, hswap]
    rfl
  rw [checksumBit_eq_zero_iff, hload, OnesComplement.checksum_eq_zero_iff,
    OnesComplement.byteSum_append, OnesComplement.byteSum_perm (List.reverse_perm _)]
  simp

/-- A datagram with half of the length field is not isolated: the buffer completes the checksum. -/
theorem not_isolated_of_eq_five (hlen : (received d).length = 5) : ¬ Isolated resolve d := by
  intro h
  set s := OnesComplement.byteSum ((received d).take 4) with hs
  obtain ⟨x, hx⟩ : ∃ x : UInt8, x.toNat = 255 - s % 255 :=
    ⟨.ofNat (255 - s % 255), by rw [UInt8.toNat_ofNat', Nat.mod_eq_of_lt (by omega)]⟩
  obtain ⟨y, hy⟩ : ∃ y : UInt8, ¬ 255 ∣ s + y.toNat := by
    by_cases h1 : 255 ∣ s + 1
    · exact ⟨2, by rw [show (2 : UInt8).toNat = 2 from rfl]; omega⟩
    · exact ⟨1, h1⟩
  have heq := h.error_eq (fun _ => x) (fun _ => y)
    (by rw [error_processed]; exact verdict_ne_zero_of_le (by omega))
    (by rw [error_processed]; exact verdict_ne_zero_of_le (by omega))
  rw [error_processed, error_processed, hlen] at heq
  have hbit := congrArg (· &&& (0b0010 : UInt8)) heq
  simp only [verdict_and_two] at hbit
  rw [(checksumBit_five hlen x).mpr ⟨by omega, by omega⟩, eq_comm, checksumBit_five hlen y] at hbit
  exact hy hbit.2

/-- A request of seven or eight bytes is answered with the id the buffer held. -/
theorem not_isolated_of_lt_nine (h6 : 6 ≤ (received d).length) (h9 : (received d).length < 9)
    (hwf : Packet.WellFormed ((received d).set 4105 0)) : ¬ Isolated resolve d := by
  intro h
  obtain ⟨b₁, b₂, reply, hr₁, hr₂⟩ := h.exists_reply (fun _ => 0) (fun _ => 1)
  have heq := (reply_of_accepted ((error_eq_zero_iff h6).mpr hwf) hr₁).2.symm.trans
    (reply_of_accepted ((error_eq_zero_iff h6).mpr hwf) hr₂).2
  have hpkt := congrArg (fun r : Reply => r.packet[8]?) heq
  simp only [acceptedReply, Packet.getElem?_eight_stamped, ClientRequest.requestID] at hpkt
  rw [processed_apply (by omega) (by omega), processed_apply (by omega) (by omega),
    recvfrom_apply_of_le _ d (by omega), recvfrom_apply_of_le _ d (by omega)] at hpkt
  exact absurd (Option.some.inj hpkt) (by decide)

/-- A request whose last frame reaches past it is not isolated: the name ends in the buffer. -/
theorem not_isolated_of_overrun (h9 : 9 ≤ (received d).length)
    (hwf : Packet.WellFormed ((received d).set 4105 0))
    (hstop : ¬ (stop (hostBytes d) ((received d).length - 9) 0 + 9 ≤ (received d).length ∨
      (received d).length = 4105 ∧ stop (hostBytes d) ((received d).length - 9) 0 + 9 = 4106)) :
    ¬ Isolated resolve d := by
  intro h
  obtain ⟨b₁, b₂, reply, hr₁, hr₂⟩ := h.exists_reply (fun _ => 0) (fun _ => 1)
  have hacc : ∀ buf : ClientRequest, (processed buf d).error = 0 :=
    fun buf => (error_eq_zero_iff (by omega)).mpr hwf
  have heq := (reply_of_accepted (hacc _) hr₁).2.symm.trans (reply_of_accepted (hacc _) hr₂).2
  have hlook := congrArg Reply.lookups heq
  simp only [acceptedReply, hostLookups_of_accepted (hacc _), lookupsFrom,
    frames_of_accepted (hacc _)] at hlook
  have hpos : 0 < (received d).length - 9 := by
    by_contra h0
    rw [stop_of_le (by omega)] at hstop
    omega
  obtain ⟨f, hf, hfstop⟩ := exists_frame_stop hpos
  obtain ⟨-, hoff, -⟩ := frame_stop_le hf
  have hbody := congrArg Lookup.hostname (List.map_inj_left.mp hlook f hf)
  rw [Frame.stop] at hfstop
  -- the first byte of the name behind the datagram that is not the error field
  obtain ⟨i, hi₁, hi₂, hi₃, hi₄⟩ : ∃ i, f.offset + 1 ≤ i ∧ i < f.offset + 1 + f.size ∧
      (received d).length ≤ 9 + i ∧ 9 + i ≠ 4105 := by
    by_cases hedge : (received d).length = 4105
    · exact ⟨4097, by omega, by omega, by omega, by omega⟩
    · exact ⟨(received d).length - 9, by omega, by omega, by omega, by omega⟩
  have hbyte := Memory.eq_of_load_eq hbody hi₁ hi₂
  rw [hostList_processed_of_le hi₃ hi₄, hostList_processed_of_le hi₃ hi₄] at hbyte
  exact absurd hbyte (by decide)

/-- The frames of an isolated request fill at most fifty addresses. -/
theorem Isolated.length_answers_le (h : Isolated resolve d) (h6 : 6 ≤ (received d).length)
    (hwf : Packet.WellFormed ((received d).set 4105 0)) :
    (answers (byName resolve)
      (lookupsFrom (hostBytes d) ((received d).length - 9) 0)).length ≤ 50 := by
  obtain ⟨b, _, reply, hr, -⟩ := h.exists_reply (fun _ => 0) (fun _ => 0)
  have hacc : (processed (fun _ => 0) d).error = 0 := (error_eq_zero_iff h6).mpr hwf
  have hle := (reply_of_accepted hacc hr).1
  have hlist : (processed (fun _ => 0) d).hostList = hostBytes d := by
    funext i
    by_cases hi : 9 + i < (received d).length ∨ 9 + i = 4105
    · exact hostList_processed hacc hi
    · rw [hostList_processed_of_le (by omega) (by omega), hostBytes,
        List.getD_eq_default _ _ (by rw [List.length_set]; omega)]
  rwa [hostLookups_of_accepted hacc, hlist] at hle

/-- **When a reply depends on the datagram alone**: exactly when the datagram holds all of its
header, its request id and its names, and its addresses fit. -/
theorem isolated_iff (resolve : List UInt8 → HostEnt) (d : List UInt8) :
    Isolated resolve d ↔ SelfContained resolve d := by
  refine ⟨fun h => ?_, SelfContained.isolated⟩
  have h6 : 6 ≤ (received d).length := by
    by_contra hlt
    rcases Nat.lt_or_ge (received d).length 5 with h4 | h5
    · exact not_isolated_of_le_four (by omega) h
    · exact not_isolated_of_eq_five (by omega) h
  have h9 : Packet.WellFormed ((received d).set 4105 0) → 9 ≤ (received d).length := by
    intro hwf
    by_contra hlt
    exact not_isolated_of_lt_nine h6 (by omega) hwf h
  refine ⟨h6, h9, fun hwf => ?_, h.length_answers_le h6⟩
  by_contra hstop
  exact not_isolated_of_overrun (h9 hwf) hwf hstop h

/-- Seven bytes that verify are answered with the request id of whoever asked before: `5` after
the request below, and `0` on a cleared buffer. -/
theorem not_isolated_seven_bytes :
    ¬ Isolated (fun _ => .null) [0x4a, 0x6f, 0x79, 0x21, 0, 7, 0xa4] := by
  intro h
  obtain ⟨b, hb⟩ := Option.isSome_iff_exists.mp (show ((server (byName fun _ => .null)).run
    (fun _ => 0) [[0x4a, 0x6f, 0x79, 0x21, 0, 11, 7, 205, 5, 1, 97]]).isSome by decide +kernel)
  obtain ⟨b₁, b₂, reply, hr₁, hr₂⟩ := h (fun _ => 0) [] _ (fun _ => 0) _ b rfl hb
  have hpkt : (((server (byName fun _ => .null)).run (fun _ => 0)
      [[0x4a, 0x6f, 0x79, 0x21, 0, 11, 7, 205, 5, 1, 97]]).bind fun b =>
        (runStep (byName fun _ => .null) b [0x4a, 0x6f, 0x79, 0x21, 0, 7, 0xa4]).map fun p =>
          p.2.packet[8]?) = some (some 5) := by decide +kernel
  have hpkt' : ((runStep (byName fun _ => .null) (fun _ => 0)
      [0x4a, 0x6f, 0x79, 0x21, 0, 7, 0xa4]).map fun p => p.2.packet[8]?) = some (some 0) := by
    decide +kernel
  rw [hb, Option.bind_some, hr₂, Option.map_some] at hpkt
  rw [hr₁, Option.map_some] at hpkt'
  exact absurd (hpkt.symm.trans hpkt') (by decide)

end ServerUDP

end Lab2

end Comp4320
