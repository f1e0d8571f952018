import Comp4320.Lab2.ClientReply
import Comp4320.Lab2.ServerReply

/-!
# Host lists and the bytes that hold them

The client writes a length byte and a name for each host, and the loop of `resolveHostnames` reads
length bytes and names until its cursor has passed the payload. The two fit together: the cursor
ends with the payload exactly if the payload is made of frames, and then it is made of the frames of
one list of names only, which are the names the loop copies out. Otherwise the last frame runs past
the end of the payload, and no other does.

The client can make fewer payloads than the server can read. A name is a byte string, and `encode`
takes only ASCII.

## Main definitions

* `IsFraming` — a payload is made of the frames of some names
* `Packs` — `get_packed_message` makes a payload of some names

## Main results

* `ServerUDP.resolveLoop_eq_some` — where the cursor ends, and what was looked up
* `ClientUDP.packs_iff` — which payloads the client makes
* `framing` — payloads that are made of frames, and payloads that are not
-/

namespace Comp4320

namespace Lab2

open LengthPrefix

/-! ### The server's cursor -/

namespace ServerUDP

variable {g : Resolver} {msg : Memory} {n : ℕ} {s t : Locals}

/-- **Where the cursor ends, and what was looked up**, if the loop comes to its end. -/
theorem resolveLoop_eq_some (h : resolveLoop g msg n s = some t) :
    t.currentByte = stop msg n s.currentByte ∧
      t.lookups = s.lookups ++ lookupsFrom msg n s.currentByte := by
  generalize hc : s.currentByte = c
  induction c using frames.induct msg n generalizing s with
  | case1 c hlt ih =>
    rw [resolveLoop_of_lt (by omega)] at h
    obtain ⟨u, -, h⟩ := Option.bind_eq_some_iff.mp h
    obtain ⟨hbyte, hlookups⟩ := ih h (by rw [hc, Nat.add_assoc])
    rw [stop_of_lt hlt, lookupsFrom_of_lt hlt, hbyte, hlookups, hc, List.append_assoc,
      Nat.add_assoc]
    exact ⟨rfl, rfl⟩
  | case2 c hge =>
    rw [resolveLoop_of_le (by omega)] at h
    obtain rfl := Option.some.inj h
    rw [hc, stop_of_le (by omega), lookupsFrom_of_le (by omega), List.append_nil]
    exact ⟨rfl, rfl⟩

theorem hostname_lookupsFrom (msg : Memory) (n c : ℕ) :
    (lookupsFrom msg n c).map Lookup.hostname = (frames msg n c).map (Frame.body msg) := by
  rw [lookupsFrom, List.map_map]
  rfl

end ServerUDP

/-! ### The client's frames -/

/-- The payload is made of the frames of these names. -/
def IsFraming (names : List (List UInt8)) (payload : List UInt8) : Prop :=
  (∀ name ∈ names, name.length ≤ 255) ∧ encode names = payload

namespace ClientUDP

/-- `get_packed_message` makes the payload of these names, whatever the request id. -/
def Packs (names : List (List UInt8)) (payload : List UInt8) : Prop :=
  ∀ req_id : UInt8, getPackedMessage req_id.toNat names = .ok (Packet.stamped req_id payload)

/-- **The client makes the payloads that are made of ASCII frames**, as long as the length fits its
field. -/
theorem packs_iff {names : List (List UInt8)} {payload : List UInt8}
    (htotal : payload.length + 9 < 65536) :
    Packs names payload ↔ IsFraming names payload ∧ ∀ name ∈ names, ∀ b ∈ name, b < 128 := by
  constructor
  · intro h
    cases herror : requestError names with
    | some e => exact absurd ((getPackedMessage_eq_error herror).symm.trans (h 0)) (by simp)
    | none =>
      obtain ⟨hok, hfits⟩ := requestError_eq_none_iff.mp herror
      have hpacked := getPackedMessage_eq 0 (fun name hname => (hok name hname).1)
        (fun name hname => (hok name hname).2) hfits
      have hstamped := congrArg (List.drop 9) (Except.ok.inj (hpacked.symm.trans (h 0)))
      rw [Packet.drop_nine_stamped, Packet.drop_nine_stamped] at hstamped
      exact ⟨⟨fun name hname => (hok name hname).2, hstamped⟩, fun name hname => (hok name hname).1⟩
  · rintro ⟨⟨hlen, rfl⟩, hascii⟩ req_id
    exact getPackedMessage_eq req_id hascii hlen htotal

end ClientUDP

/-! ### Both together -/

open ServerUDP ClientUDP

variable {g : Resolver} {msg : Memory} {payload : List UInt8} {s : Locals}

/-- **The cursor ends with the payload exactly if the payload is made of frames**, and these are the
frames of one list of names, the names copied out; otherwise the last frame runs past the end of the
payload, and no other does. The client makes the payload if the names copied out are ASCII. -/
theorem framing (hmsg : msg.load 0 payload.length = payload)
    (hroom : (answers g (lookupsFrom msg payload.length 0)).length ≤ 50) :
    ∃ s, resolveLoop g msg payload.length .init = some s ∧
    (s.currentByte = payload.length ↔ ∃ names, IsFraming names payload) ∧
    (payload.length ≤ 4096 → ((∃ names, Packs names payload) ↔
      s.currentByte = payload.length ∧ ∀ l ∈ s.lookups, ∀ b ∈ l.hostname, b < 128)) ∧
    (∀ names, IsFraming names payload → names = s.lookups.map Lookup.hostname) ∧
    (s.currentByte ≠ payload.length → ∃ whole last, s.lookups = whole ++ [last] ∧
      (∀ l ∈ whole, l.frame.stop ≤ payload.length) ∧ payload.length < last.frame.stop) := by
  obtain ⟨s, h, -⟩ := resolveLoop_eq Locals.init_holds
    (show ([] ++ answers g (lookupsFrom msg payload.length 0)).length ≤ 50 from hroom)
  obtain ⟨hbyte, hlookups⟩ := resolveLoop_eq_some h
  replace hlookups : s.lookups = lookupsFrom msg payload.length 0 := hlookups
  have hload : msg.load 0 (payload.length - 0) = payload := hmsg
  have hcursor : s.currentByte = payload.length ↔ ∃ names, IsFraming names payload := by
    have hiff := stop_eq_iff (m := msg) (Nat.zero_le payload.length)
    rw [hload] at hiff
    rw [hbyte]
    exact hiff
  have hunique : ∀ names, IsFraming names payload → names = s.lookups.map Lookup.hostname := by
    rintro names ⟨hlen, hencode⟩
    rw [hlookups, hostname_lookupsFrom]
    exact eq_bodies (Nat.zero_le _) hlen (by rw [hload, hencode])
  refine ⟨s, h, hcursor, fun hmax => ?_, hunique, ?_⟩
  · have hpacks_iff : ∀ names, Packs names payload ↔
        IsFraming names payload ∧ ∀ name ∈ names, ∀ b ∈ name, b < 128 := fun _ =>
      packs_iff (by omega)
    constructor
    · rintro ⟨names, hpacks⟩
      obtain ⟨hframing, hascii⟩ := (hpacks_iff names).mp hpacks
      rw [hunique names hframing] at hascii
      exact ⟨hcursor.mpr ⟨names, hframing⟩,
        fun l hl => hascii _ (List.mem_map_of_mem hl)⟩
    · rintro ⟨hend, hascii⟩
      obtain ⟨names, hframing⟩ := hcursor.mp hend
      refine ⟨names, (hpacks_iff names).mpr ⟨hframing, fun name hname => ?_⟩⟩
      rw [hunique names hframing] at hname
      obtain ⟨l, hl, rfl⟩ := List.mem_map.mp hname
      exact hascii l hl
  · intro hne
    rw [hbyte] at hne
    obtain ⟨whole, last, hframes, hwhole, hlast⟩ := exists_overrun (Nat.zero_le _) hne
    refine ⟨whole.map (lookupAt msg), lookupAt msg last, ?_, ?_, hlast⟩
    · have hmap := congrArg (List.map (lookupAt msg)) hframes
      rw [List.map_append, List.map_singleton] at hmap
      exact hlookups.trans hmap
    · intro l hl
      obtain ⟨f, hf, rfl⟩ := List.mem_map.mp hl
      exact hwhole f hf

/-- The frames of the names `a`, the empty name, and `b`, of which only the last one has no address
that is recorded. -/
theorem framing_three_names :
    ∃ s, resolveLoop mixedResolver (.ofList [1, 97, 0, 1, 98])
        ([1, 97, 0, 1, 98] : List UInt8).length .init = some s ∧
      (s.currentByte = ([1, 97, 0, 1, 98] : List UInt8).length ↔
        ∃ names, IsFraming names [1, 97, 0, 1, 98]) ∧
      (([1, 97, 0, 1, 98] : List UInt8).length ≤ 4096 →
        ((∃ names, Packs names [1, 97, 0, 1, 98]) ↔
          s.currentByte = ([1, 97, 0, 1, 98] : List UInt8).length ∧
            ∀ l ∈ s.lookups, ∀ b ∈ l.hostname, b < 128)) ∧
      (∀ names, IsFraming names [1, 97, 0, 1, 98] → names = s.lookups.map Lookup.hostname) ∧
      (s.currentByte ≠ ([1, 97, 0, 1, 98] : List UInt8).length → ∃ whole last,
        s.lookups = whole ++ [last] ∧
          (∀ l ∈ whole, l.frame.stop ≤ ([1, 97, 0, 1, 98] : List UInt8).length) ∧
          ([1, 97, 0, 1, 98] : List UInt8).length < last.frame.stop) :=
  framing (Memory.load_ofList [1, 97, 0, 1, 98]) (by decide +kernel)

/-- The loop comes to its end if there is nothing to record. -/
theorem exists_resolveLoop (msg : Memory) (n : ℕ) :
    ∃ s, resolveLoop (fun _ => .noAddress) msg n .init = some s := by
  have hnone : answers (fun _ => .noAddress) (lookupsFrom msg n 0) = [] :=
    List.filterMap_eq_nil_iff.mpr fun _ _ => rfl
  obtain ⟨t, ht, -⟩ := resolveLoop_eq Locals.init_holds
    (show ([] ++ answers (fun _ => .noAddress) (lookupsFrom msg n 0)).length ≤ 50 by
      rw [hnone]
      decide)
  exact ⟨t, ht⟩

/-- A name that is not ASCII: the cursor ends with its frame, and the client never makes it. -/
theorem not_packs_of_not_ascii :
    (∃ s, resolveLoop (fun _ => .noAddress) (.ofList [1, 0xff]) 2 .init = some s ∧
      s.currentByte = 2) ∧
    ¬ ∃ names, (∀ name ∈ names, name.length ≤ 255) ∧ Packs names [1, 0xff] := by
  constructor
  · obtain ⟨s, hs⟩ := exists_resolveLoop (.ofList [1, 0xff]) 2
    refine ⟨s, hs, (resolveLoop_eq_some hs).1.trans ?_⟩
    show stop (Memory.ofList [1, 0xff]) 2 0 = 2
    rw [stop_of_lt (by decide), stop_of_le (by decide)]
    decide
  · rintro ⟨names, hlen, hpacks⟩
    obtain ⟨hframing, hascii⟩ := (packs_iff (by decide)).mp hpacks
    obtain rfl : names = [[0xff]] :=
      encode_injective hlen (by decide +kernel) (hframing.2.trans (by decide +kernel))
    exact absurd (hascii [0xff] List.mem_cons_self 0xff List.mem_cons_self) (by decide)

end Lab2

end Comp4320
