import Comp4320.Lib.ByteOrder
import Comp4320.Lib.LengthPrefix
import Comp4320.Lib.OnesComplement
import Comp4320.Lib.System

/-!
# The DNS proxy server

`LAB_2/ServerUDP.cpp`. One `ClientRequest` struct lives on the stack of `run` for the whole life
of the server: every datagram is received on top of what the last one left, the header is swapped
to host order in place, and the validation writes its verdict into the last field of the same
struct. The model therefore keeps the struct as raw memory and has the fields read and write it
at their offsets (GCC, x86-64: nothing is padded before `error`, three bytes are left behind it,
`sizeof` is 4108 with the alignment of `uint32_t`).

## What a read past the struct yields

`memcpy` of a host name may run past the end of the struct. `ClientRequest` is memory from the
address of the struct on, so such a read returns whatever the stack holds there, and the contents
of that stack are part of the state a run may start from.

A write past the end of the local array `ips` is undefined behaviour, and no value is right for
it. `Locals.record` is `none` there, and so is the iteration that does it.

## What is left out

The `printf`s, `getResponse` and `toBinary` (unused), and `recvfrom` and `sendto` failing: a
failed receive goes straight to the next one.

## Main definitions

* `ServerUDP.processRaw` — byte order and validation, in place
* `ServerUDP.getChecksum` — the checksum loop
* `ServerUDP.resolveHostnames` — the host list loop
* `ServerUDP.runStep` — one iteration of `run`
* `ServerUDP.server` — `run` as a transition system
-/

namespace Comp4320

namespace Lab2

open ByteOrder LengthPrefix

namespace ServerUDP

/-! ### The request struct -/

/-- The memory from the address of `clientReq` on. The struct is the first 4108 bytes. -/
abbrev ClientRequest := Memory

/-- `sizeof(ClientRequest)`. -/
def sizeofClientRequest : ℕ := 4108

namespace ClientRequest

/-- Field `magicNumber`, in host order. -/
def magicNumber (r : ClientRequest) : UInt32 := read32 (r.load 0 4)

/-- Assignment to field `magicNumber`. -/
def setMagicNumber (r : ClientRequest) (v : UInt32) : ClientRequest := r.store 0 (image32 v)

/-- Field `tml`, in host order. -/
def tml (r : ClientRequest) : UInt16 := read16 (r.load 4 2)

/-- Assignment to field `tml`. -/
def setTml (r : ClientRequest) (v : UInt16) : ClientRequest := r.store 4 (image16 v)

/-- Field `requestID`. -/
def requestID (r : ClientRequest) : UInt8 := r 8

/-- Field `hostList`: the address of its first byte. -/
def hostList (r : ClientRequest) : Memory := fun i => r (9 + i)

/-- Field `error`, behind the 4096 bytes of `hostList`. -/
def error (r : ClientRequest) : UInt8 := r 4105

/-- Assignment to field `error`. -/
def setError (r : ClientRequest) (v : UInt8) : ClientRequest := r.store 4105 [v]

end ClientRequest

/-- `recvfrom(sock, &clientReq, sizeof(clientReq), …)`: a longer datagram is cut, and the bytes
behind a shorter one keep what they held. Returns the buffer and the number of bytes received. -/
def recvfrom (clientReq : ClientRequest) (datagram : List UInt8) : ClientRequest × ℕ :=
  let received := datagram.take sizeofClientRequest
  (clientReq.store 0 received, received.length)

/-! ### Validation -/

/-- The loop body of `getChecksum`: add one byte and handle the carry. -/
def addByte (currentSum : ℕ) (b : UInt8) : ℕ :=
  let currentSum := currentSum + b.toNat
  if currentSum > 255 then currentSum - 256 + 1 else currentSum

/-- `getChecksum`: the complement of the carry sum of the first `num_bytes` bytes. -/
def getChecksum (msg : Memory) (num_bytes : ℕ) : UInt8 :=
  ~~~ UInt8.ofNat ((List.range num_bytes).foldl (fun currentSum i => addByte currentSum (msg i)) 0)

/-- `processRaw`: swap the header to host order in place and write the error code. -/
def processRaw (num_bytes : ℕ) (result : ClientRequest) : ClientRequest :=
  let result := result.setMagicNumber (htonl result.magicNumber)
  let result := result.setTml (htons result.tml)
  let result := result.setError 0b0000
  let result :=
    if result.magicNumber ≠ 0x4a6f7921 then result.setError (result.error ||| 0b0100) else result
  let result :=
    if getChecksum result num_bytes ≠ 0 then result.setError (result.error ||| 0b0010) else result
  if result.tml.toNat ≠ num_bytes then result.setError (result.error ||| 0b0001) else result

/-! ### Name resolution -/

/-- What `gethostbyname` returns, as far as the server looks at it. -/
inductive HostEnt
  /-- `NULL`: the lookup failed. -/
  | null
  /-- An entry whose `h_addr_list[0]` is `NULL`. -/
  | noAddress
  /-- An entry with a first address; `s_addr` is in network order. -/
  | address (s_addr : UInt32)
  deriving DecidableEq, Repr

/-- One call of `gethostbyname`: the frame it was made for and the bytes copied out as name. -/
structure Lookup where
  /-- Where the length byte is and what it holds. -/
  frame : Frame
  /-- The `host_size` bytes copied to `hostname`, without the terminating zero. -/
  hostname : List UInt8
  deriving DecidableEq, Repr

/-- What `gethostbyname` answers to each call. Two calls for one name may get two answers. -/
abbrev Resolver := Lookup → HostEnt

/-- The locals of `resolveHostnames`, and the calls of `gethostbyname` made so far. -/
structure Locals where
  currentByte : ℕ
  total_bytes : ℕ
  num_ips : ℕ
  ips : List UInt32
  lookups : List Lookup

/-- The locals on entry: `uint32_t ips[50] = {0}`. -/
def Locals.init : Locals := ⟨0, 0, 0, List.replicate 50 0, []⟩

/-- `ips[num_ips] = ip; num_ips++; total_bytes += 4`. Undefined past the end of `ips`. -/
def Locals.record (s : Locals) (ip : UInt32) : Option Locals :=
  if s.num_ips < 50 then
    some { s with
      ips := s.ips.set s.num_ips ip, num_ips := s.num_ips + 1, total_bytes := s.total_bytes + 4 }
  else none

/-- The branches on the result of `gethostbyname`. -/
def Locals.answer (s : Locals) : HostEnt → Option Locals
  | .null => s.record 0xffffffff
  | .noAddress => some s
  | .address s_addr => s.record s_addr

/-- The `while` loop of `resolveHostnames`. -/
def resolveLoop (gethostbyname : Resolver) (msg : Memory) (num_bytes : ℤ) (s : Locals) :
    Option Locals :=
  if (s.currentByte : ℤ) < num_bytes then
    let host_size := (msg s.currentByte).toNat
    let hostname := msg.load (s.currentByte + 1) host_size
    let lookup : Lookup := ⟨⟨s.currentByte, host_size⟩, hostname⟩
    match s.answer (gethostbyname lookup) with
    | none => none
    | some t => resolveLoop gethostbyname msg num_bytes
        { t with currentByte := s.currentByte + (host_size + 1), lookups := s.lookups ++ [lookup] }
  else some s
termination_by (num_bytes - s.currentByte).toNat

/-- `resolveHostnames`: the bytes copied to `container` (as many as it returns), and the calls of
`gethostbyname` in order. -/
def resolveHostnames (gethostbyname : Resolver) (msg : Memory) (num_bytes : ℤ) :
    Option (List UInt8 × List Lookup) :=
  (resolveLoop gethostbyname msg num_bytes .init).map fun s =>
    ((s.ips.flatMap image32).take s.total_bytes, s.lookups)

/-! ### Responses -/

/-- `struct ValidResponse`, packed. -/
structure ValidResponse where
  magicNumber : UInt32
  tml : UInt16
  GID : UInt8
  checksum : UInt8
  requestID : UInt8
  ipAddresses : List UInt8

/-- The bytes of a `ValidResponse` in memory. -/
def ValidResponse.image (r : ValidResponse) : List UInt8 :=
  image32 r.magicNumber ++ image16 r.tml ++ [r.GID, r.checksum, r.requestID] ++ r.ipAddresses

/-- `struct InvalidResponse`, packed. -/
structure InvalidResponse where
  magicNumber : UInt32
  tml : UInt16
  GID : UInt8
  checksum : UInt8
  errorCode : UInt8

/-- The bytes of an `InvalidResponse` in memory. -/
def InvalidResponse.image (r : InvalidResponse) : List UInt8 :=
  image32 r.magicNumber ++ image16 r.tml ++ [r.GID, r.checksum, r.errorCode]

/-- The packet sent for a rejected request. -/
def invalidPacket (error : UInt8) : List UInt8 :=
  let resp : InvalidResponse := ⟨htonl 0x4a6f7921, htons 9, 7, 0x0, error⟩
  let resp := { resp with checksum := getChecksum (.ofList resp.image) 9 }
  resp.image.take 9

/-- The packet sent for an accepted request, once `resolveHostnames` has copied `ips` to the
zeroed array `ipAddresses`. -/
def validPacket (requestID : UInt8) (ips : List UInt8) : List UInt8 :=
  let packetSize := ips.length + 9
  let res : ValidResponse :=
    ⟨htonl 0x4a6f7921, htons (.ofNat packetSize), 7, 0x0, requestID,
      ips ++ (List.replicate 4096 0).drop ips.length⟩
  let res := { res with checksum := getChecksum (.ofList res.image) packetSize }
  res.image.take packetSize

/-- What one iteration of `run` does for the sender of a datagram. -/
structure Reply where
  /-- The packet passed to `sendto`. -/
  packet : List UInt8
  /-- The calls of `gethostbyname` made on the way. -/
  lookups : List Lookup
  deriving DecidableEq, Repr

/-- One iteration of `run`: the buffer it leaves and the reply it sends. -/
def runStep (gethostbyname : Resolver) (clientReq : ClientRequest) (datagram : List UInt8) :
    Option (ClientRequest × Reply) :=
  let (clientReq, num_byte) := recvfrom clientReq datagram
  let clientReq := processRaw num_byte clientReq
  if clientReq.error ≠ 0 then
    some (clientReq, ⟨invalidPacket clientReq.error, []⟩)
  else
    (resolveHostnames gethostbyname clientReq.hostList (clientReq.tml.toNat - 9)).map
      fun (ips, lookups) => (clientReq, ⟨validPacket clientReq.requestID ips, lookups⟩)

/-- `run`, from a buffer of any content: a run is the list of datagrams received. -/
def server (gethostbyname : Resolver) : System ClientRequest (List UInt8) where
  init := fun _ => True
  step := fun clientReq datagram => (runStep gethostbyname clientReq datagram).map Prod.fst

/-! ### The request struct, field by field -/

namespace ClientRequest

variable (r : ClientRequest)

@[simp] theorem magicNumber_setMagicNumber (v : UInt32) :
    (r.setMagicNumber v).magicNumber = v := by
  rw [setMagicNumber, magicNumber, ← length_image32 v, Memory.load_store_self, read32_image32]

@[simp] theorem tml_setMagicNumber (v : UInt32) : (r.setMagicNumber v).tml = r.tml := by
  rw [setMagicNumber, tml, Memory.load_store_of_disjoint (by simp), tml]

@[simp] theorem magicNumber_setTml (v : UInt16) : (r.setTml v).magicNumber = r.magicNumber := by
  rw [setTml, magicNumber, Memory.load_store_of_disjoint (by simp), magicNumber]

@[simp] theorem tml_setTml (v : UInt16) : (r.setTml v).tml = v := by
  rw [setTml, tml, ← length_image16 v, Memory.load_store_self, read16_image16]

@[simp] theorem magicNumber_setError (v : UInt8) :
    (r.setError v).magicNumber = r.magicNumber := by
  rw [setError, magicNumber, Memory.load_store_of_disjoint (by simp), magicNumber]

@[simp] theorem tml_setError (v : UInt8) : (r.setError v).tml = r.tml := by
  rw [setError, tml, Memory.load_store_of_disjoint (by simp), tml]

@[simp] theorem error_setError (v : UInt8) : (r.setError v).error = v := by
  rw [setError, error, Memory.store_apply_of_mem (Nat.le_refl _) (by simp)]
  rfl

@[simp] theorem setError_setError (v w : UInt8) : (r.setError v).setError w = r.setError w :=
  Memory.store_store rfl

theorem setError_apply_of_ne {i : ℕ} (v : UInt8) (h : i ≠ 4105) : r.setError v i = r i := by
  rcases Nat.lt_or_gt_of_ne h with h | h
  · exact Memory.store_apply_of_lt h
  · exact Memory.store_apply_of_le h

end ClientRequest

/-! ### The header in host order -/

/-- The struct after both swaps of `processRaw`. -/
def swapHeader (r : ClientRequest) : ClientRequest :=
  (r.setMagicNumber (htonl r.magicNumber)).setTml (htons r.tml)

theorem load_magicNumber_swapHeader (r : ClientRequest) :
    (swapHeader r).load 0 4 = (r.load 0 4).reverse := by
  have himg : image32 (htonl r.magicNumber) = (r.load 0 4).reverse :=
    image32_swap32_read32 (by simp)
  rw [swapHeader, ClientRequest.setTml, Memory.load_store_of_disjoint (by simp),
    ClientRequest.setMagicNumber, himg]
  simpa using Memory.load_store_self r 0 (r.load 0 4).reverse

theorem load_tml_swapHeader (r : ClientRequest) :
    (swapHeader r).load 4 2 = (r.load 4 2).reverse := by
  have himg : image16 (htons r.tml) = (r.load 4 2).reverse := image16_swap16_read16 (by simp)
  rw [swapHeader, ClientRequest.setTml, himg]
  simpa using Memory.load_store_self _ 4 (r.load 4 2).reverse

/-- The swaps leave everything behind the first six bytes alone. -/
theorem swapHeader_apply_of_le {r : ClientRequest} {i : ℕ} (h : 6 ≤ i) : swapHeader r i = r i := by
  rw [swapHeader, ClientRequest.setTml, Memory.store_apply_of_le (by simpa using h),
    ClientRequest.setMagicNumber, Memory.store_apply_of_le (by simp; omega)]

/-- Swapping the header permutes the bytes any longer read covers. -/
theorem load_swapHeader_perm (r : ClientRequest) {n : ℕ} (hn : 6 ≤ n) (v : UInt8) :
    (((swapHeader r).setError v).load 0 n).Perm ((r.setError v).load 0 n) := by
  obtain ⟨k, rfl⟩ : ∃ k, n = 4 + (2 + k) := ⟨n - 6, by omega⟩
  have hmagic : ((swapHeader r).setError v).load 0 4 = (r.load 0 4).reverse := by
    rw [ClientRequest.setError, Memory.load_store_of_disjoint (by simp),
      load_magicNumber_swapHeader]
  have html : ((swapHeader r).setError v).load 4 2 = (r.load 4 2).reverse := by
    rw [ClientRequest.setError, Memory.load_store_of_disjoint (by simp), load_tml_swapHeader]
  have hmagic' : (r.setError v).load 0 4 = r.load 0 4 := by
    rw [ClientRequest.setError, Memory.load_store_of_disjoint (by simp)]
  have html' : (r.setError v).load 4 2 = r.load 4 2 := by
    rw [ClientRequest.setError, Memory.load_store_of_disjoint (by simp)]
  have hrest : ((swapHeader r).setError v).load 6 k = (r.setError v).load 6 k := by
    refine Memory.load_congr fun i hi _ => ?_
    by_cases h : i = 4105
    · subst h
      exact (ClientRequest.error_setError _ v).trans (ClientRequest.error_setError _ v).symm
    · rw [ClientRequest.setError_apply_of_ne _ v h, ClientRequest.setError_apply_of_ne _ v h,
        swapHeader_apply_of_le hi]
  simp only [Memory.load_add, Nat.zero_add, Nat.reduceAdd, hmagic, html, hmagic', html', hrest]
  exact (List.reverse_perm _).append ((List.reverse_perm _).append_right _)

/-! ### The checksum loop and the verdict -/

theorem addByte_eq (s : ℕ) (b : UInt8) : addByte s b = OnesComplement.addCarry 255 s b.toNat := by
  simp only [addByte, OnesComplement.addCarry, gt_iff_lt]
  split <;> omega

/-- **The loop computes the ones' complement checksum.** -/
theorem getChecksum_eq (msg : Memory) (n : ℕ) :
    getChecksum msg n = OnesComplement.checksum (msg.load 0 n) := by
  simp only [getChecksum, OnesComplement.checksum, OnesComplement.carrySum, Memory.load,
    List.map_map, List.foldl_map, addByte_eq, Function.comp_apply, Nat.zero_add]

/-- Bit `0b0100` of the error code. -/
def magicBit (r : ClientRequest) : UInt8 := if htonl r.magicNumber ≠ 0x4a6f7921 then 0b0100 else 0

/-- Bit `0b0010` of the error code. The magic number bit is already in the struct when the
checksum is taken over it. -/
def checksumBit (n : ℕ) (r : ClientRequest) : UInt8 :=
  if getChecksum ((swapHeader r).setError (magicBit r)) n ≠ 0 then 0b0010 else 0

/-- Bit `0b0001` of the error code. -/
def tmlBit (n : ℕ) (r : ClientRequest) : UInt8 := if (htons r.tml).toNat ≠ n then 0b0001 else 0

/-- The error code `processRaw` leaves. -/
def verdict (n : ℕ) (r : ClientRequest) : UInt8 := magicBit r ||| checksumBit n r ||| tmlBit n r

/-- **What `processRaw` does**: swap the header, and write the verdict. -/
theorem processRaw_eq (n : ℕ) (r : ClientRequest) :
    processRaw n r = (swapHeader r).setError (verdict n r) := by
  have hmagic : (swapHeader r).magicNumber = htonl r.magicNumber := by simp [swapHeader]
  have html : (swapHeader r).tml = htons r.tml := by simp [swapHeader]
  rw [verdict, checksumBit, magicBit, tmlBit]
  simp only [processRaw, ClientRequest.tml_setMagicNumber]
  rw [← swapHeader]
  simp only [ClientRequest.magicNumber_setError, hmagic]
  split_ifs with h₁ h₂ h₃ <;> simp_all

end ServerUDP

end Lab2

end Comp4320
