import Comp4320.Lib.Memory
import Mathlib.Algebra.GroupWithZero.Nat
import Mathlib.Data.List.Flatten

/-!
# Length-prefixed frames

A sequence of byte strings, each preceded by one byte that holds its length, and the cursor that
walks such a sequence. The walk trusts the length bytes: it stops at the first cursor that is not
below the limit, so its last frame may reach past the limit. Everything else it does is fixed by
the bytes below the limit, which is `frames_congr`, and on the encoding of a list of names it
finds exactly these names, which is `bodies_encode`.

## Main definitions

* `LengthPrefix.encode` — the frames of a list of names, one after the other
* `LengthPrefix.frames` — the frames a cursor walks through, in order
* `LengthPrefix.stop` — where the cursor ends

## Main results

* `LengthPrefix.frames_congr`, `stop_congr` — the walk depends on the bytes below the limit only
* `LengthPrefix.frame_stop_le` — every frame ends at or before the end of the walk
* `LengthPrefix.bodies_encode` — walking an encoding gives its names back
* `LengthPrefix.stop_eq_iff`, `exists_overrun` — which bytes are an encoding, and what the walk of
  any others ends with
-/

namespace LengthPrefix

/-- One frame: where its length byte is, and the length it holds. -/
structure Frame where
  /-- The offset of the length byte. -/
  offset : ℕ
  /-- The length read there. -/
  size : ℕ
  deriving DecidableEq, Repr

/-- The offset just behind a frame. -/
def Frame.stop (f : Frame) : ℕ := f.offset + f.size + 1

/-- The bytes of a frame behind its length byte. -/
def Frame.body (m : Memory) (f : Frame) : List UInt8 := m.load (f.offset + 1) f.size

/-- The frames a cursor starting at `c` walks through before it reaches `limit`. -/
def frames (m : Memory) (limit c : ℕ) : List Frame :=
  if c < limit then ⟨c, (m c).toNat⟩ :: frames m limit (c + (m c).toNat + 1) else []
termination_by limit - c

/-- Where a cursor starting at `c` stops. -/
def stop (m : Memory) (limit c : ℕ) : ℕ :=
  if c < limit then stop m limit (c + (m c).toNat + 1) else c
termination_by limit - c

variable {m m' : Memory} {limit c : ℕ}

theorem frames_of_lt (h : c < limit) :
    frames m limit c = ⟨c, (m c).toNat⟩ :: frames m limit (c + (m c).toNat + 1) := by
  rw [frames, if_pos h]

theorem frames_of_le (h : limit ≤ c) : frames m limit c = [] := by
  rw [frames, if_neg (by omega)]

theorem stop_of_lt (h : c < limit) : stop m limit c = stop m limit (c + (m c).toNat + 1) := by
  rw [stop, if_pos h]

theorem stop_of_le (h : limit ≤ c) : stop m limit c = c := by
  rw [stop, if_neg (by omega)]

theorem le_stop (m : Memory) (limit c : ℕ) : limit ≤ stop m limit c ∧ c ≤ stop m limit c := by
  induction c using stop.induct m limit with
  | case1 c h ih => rw [stop_of_lt h]; omega
  | case2 c h => rw [stop_of_le (by omega)]; omega

/-- **The walk depends on the bytes below the limit only.** -/
theorem frames_congr (h : ∀ i, c ≤ i → i < limit → m i = m' i) :
    frames m limit c = frames m' limit c := by
  induction c using frames.induct m limit with
  | case1 c hc ih =>
    have hlen : m c = m' c := h c (Nat.le_refl _) hc
    rw [frames_of_lt hc, frames_of_lt hc, ← hlen, ih fun i hi => h i (by omega)]
  | case2 c hc => rw [frames_of_le (by omega), frames_of_le (by omega)]

theorem stop_congr (h : ∀ i, c ≤ i → i < limit → m i = m' i) :
    stop m limit c = stop m' limit c := by
  induction c using stop.induct m limit with
  | case1 c hc ih =>
    have hlen : m c = m' c := h c (Nat.le_refl _) hc
    rw [stop_of_lt hc, stop_of_lt hc, ← hlen, ih fun i hi => h i (by omega)]
  | case2 c hc => rw [stop_of_le (by omega), stop_of_le (by omega)]

/-- Every frame starts below the limit and ends at or before the end of the walk. -/
theorem frame_stop_le {f : Frame} (hf : f ∈ frames m limit c) :
    c ≤ f.offset ∧ f.offset < limit ∧ f.stop ≤ stop m limit c := by
  induction c using frames.induct m limit with
  | case1 c hc ih =>
    rw [frames_of_lt hc] at hf
    rw [stop_of_lt hc]
    rcases List.mem_cons.mp hf with rfl | hf
    · exact ⟨Nat.le_refl _, hc, (le_stop m limit _).2⟩
    · obtain ⟨h₁, h₂, h₃⟩ := ih hf
      exact ⟨by omega, h₂, h₃⟩
  | case2 c hc => simp [frames_of_le (show limit ≤ c by omega)] at hf

/-- A walk that starts below the limit has a last frame, and it ends where the walk does. -/
theorem exists_frame_stop (h : c < limit) : ∃ f ∈ frames m limit c, f.stop = stop m limit c := by
  induction c using frames.induct m limit with
  | case1 c hc ih =>
    rw [frames_of_lt hc, stop_of_lt hc]
    by_cases hnext : c + (m c).toNat + 1 < limit
    · obtain ⟨f, hf, hstop⟩ := ih hnext
      exact ⟨f, List.mem_cons_of_mem _ hf, hstop⟩
    · exact ⟨_, List.mem_cons_self, by rw [stop_of_le (by omega)]; rfl⟩
  | case2 c hc => exact absurd h hc

/-! ### Walking an encoding -/

/-- The frames of a list of names, one after the other. -/
def encode (names : List (List UInt8)) : List UInt8 :=
  names.flatMap fun name => UInt8.ofNat name.length :: name

@[simp] theorem encode_nil : encode [] = [] := rfl

theorem encode_cons (name : List UInt8) (names : List (List UInt8)) :
    encode (name :: names) = UInt8.ofNat name.length :: name ++ encode names := by
  simp [encode]

theorem length_encode (names : List (List UInt8)) :
    (encode names).length = (names.map fun name => name.length + 1).sum := by
  simp [encode, List.length_flatMap]

/-- The bytes of an encoding in memory: the length byte, the name and the remaining frames. -/
theorem load_encode_cons {name : List UInt8} {names : List (List UInt8)}
    (hlen : name.length ≤ 255)
    (h : m.load c (encode (name :: names)).length = encode (name :: names)) :
    (m c).toNat = name.length ∧ m.load (c + 1) name.length = name ∧
      m.load (c + name.length + 1) (encode names).length = encode names := by
  have hcut : (encode (name :: names)).length = name.length + (encode names).length + 1 := by
    simp [encode_cons]
  rw [hcut, Memory.load_succ, Memory.load_add, encode_cons, List.cons_append] at h
  obtain ⟨hhead, htail⟩ := List.cons.inj h
  obtain ⟨hname, hrest⟩ := List.append_inj htail (by simp)
  refine ⟨?_, hname, by rwa [show c + name.length + 1 = c + 1 + name.length by omega]⟩
  rw [hhead, UInt8.toNat_ofNat_of_lt' (show name.length < 256 by omega)]

/-- **Walking an encoding gives its names back.** -/
theorem bodies_encode {names : List (List UInt8)} (hlen : ∀ name ∈ names, name.length ≤ 255)
    (h : m.load c (encode names).length = encode names) :
    (frames m (c + (encode names).length) c).map (Frame.body m) = names := by
  induction names generalizing c with
  | nil => simp [frames_of_le]
  | cons name names ih =>
    obtain ⟨hsize, hname, hrest⟩ := load_encode_cons (hlen name List.mem_cons_self) h
    have hcut : c + (encode (name :: names)).length
        = c + name.length + 1 + (encode names).length := by
      rw [encode_cons]; simp; omega
    rw [hcut, frames_of_lt (by omega), hsize, List.map_cons,
      ih (fun n hn => hlen n (List.mem_cons_of_mem _ hn)) hrest]
    exact congrArg (· :: names) hname

/-- **A byte string is the encoding of one list of names at most.** -/
theorem encode_injective {names names' : List (List UInt8)}
    (hlen : ∀ name ∈ names, name.length ≤ 255) (hlen' : ∀ name ∈ names', name.length ≤ 255)
    (h : encode names = encode names') : names = names' := by
  have hnames := bodies_encode hlen (Memory.load_ofList (encode names))
  have hnames' := bodies_encode hlen' (Memory.load_ofList (encode names'))
  rw [← hnames, ← hnames', h]

/-! ### Which bytes are an encoding -/

/-- The cursor ends with an encoding it walks. -/
theorem stop_encode {names : List (List UInt8)} (hlen : ∀ name ∈ names, name.length ≤ 255)
    (h : m.load c (encode names).length = encode names) :
    stop m (c + (encode names).length) c = c + (encode names).length := by
  induction names generalizing c with
  | nil => exact stop_of_le (Nat.le_refl _)
  | cons name names ih =>
    obtain ⟨hsize, -, hrest⟩ := load_encode_cons (hlen name List.mem_cons_self) h
    have hcut : c + (encode (name :: names)).length
        = c + name.length + 1 + (encode names).length := by
      rw [encode_cons, List.cons_append, List.length_cons, List.length_append]
      omega
    rw [hcut, stop_of_lt (by omega), hsize]
    exact ih (fun n hn => hlen n (List.mem_cons_of_mem _ hn)) hrest

/-- The names a walk finds fit their length bytes. -/
theorem length_body_le {name : List UInt8} (h : name ∈ (frames m limit c).map (Frame.body m)) :
    name.length ≤ 255 := by
  induction c using frames.induct m limit with
  | case1 c hc ih =>
    rw [frames_of_lt hc, List.map_cons] at h
    rcases List.mem_cons.mp h with rfl | h
    · rw [Frame.body, Memory.length_load]
      exact Nat.le_of_lt_succ (m c).toNat_lt
    · exact ih h
  | case2 c hc =>
    rw [frames_of_le (by omega)] at h
    exact absurd h List.not_mem_nil

/-- **A walk that ends at the limit has passed the encoding of the names it found.** -/
theorem encode_bodies (hle : c ≤ limit) (h : stop m limit c = limit) :
    encode ((frames m limit c).map (Frame.body m)) = m.load c (limit - c) := by
  induction c using frames.induct m limit with
  | case1 c hc ih =>
    rw [stop_of_lt hc] at h
    have hnext := (le_stop m limit (c + (m c).toNat + 1)).2
    have hcut : limit - c = (m c).toNat + (limit - (c + (m c).toNat + 1)) + 1 := by omega
    rw [frames_of_lt hc, List.map_cons, encode_cons, ih (by omega) h, hcut, Memory.load_succ,
      Memory.load_add, Frame.body, Memory.length_load, UInt8.ofNat_toNat,
      Nat.add_right_comm c 1]
    rfl
  | case2 c hc =>
    rw [frames_of_le (by omega), show limit - c = 0 by omega]
    rfl

/-- **The cursor ends at the limit exactly if the bytes it walks are an encoding**, and then of the
names it finds. -/
theorem stop_eq_iff (hle : c ≤ limit) : stop m limit c = limit ↔
    ∃ names : List (List UInt8), (∀ name ∈ names, name.length ≤ 255) ∧
      encode names = m.load c (limit - c) := by
  constructor
  · intro h
    exact ⟨_, fun name hname => length_body_le hname, encode_bodies hle h⟩
  · rintro ⟨names, hlen, hnames⟩
    have hlength : (encode names).length = limit - c := by rw [hnames, Memory.length_load]
    have hstop := stop_encode hlen (c := c) (m := m) (by rw [hlength, hnames])
    rwa [hlength, Nat.add_sub_of_le hle] at hstop

theorem eq_bodies {names : List (List UInt8)} (hle : c ≤ limit)
    (hlen : ∀ name ∈ names, name.length ≤ 255) (h : encode names = m.load c (limit - c)) :
    names = (frames m limit c).map (Frame.body m) := by
  have hlength : (encode names).length = limit - c := by rw [h, Memory.length_load]
  have hbodies := bodies_encode hlen (c := c) (m := m) (by rw [hlength, h])
  rw [hlength, Nat.add_sub_of_le hle] at hbodies
  exact hbodies.symm

/-- **Otherwise one frame reaches past the limit, the last.** -/
theorem exists_overrun (hle : c ≤ limit) (h : stop m limit c ≠ limit) :
    ∃ whole last, frames m limit c = whole ++ [last] ∧ (∀ f ∈ whole, f.stop ≤ limit) ∧
      limit < last.stop := by
  induction c using frames.induct m limit with
  | case1 c hc ih =>
    rw [stop_of_lt hc] at h
    rw [frames_of_lt hc]
    by_cases hnext : c + (m c).toNat + 1 ≤ limit
    · obtain ⟨whole, last, hframes, hwhole, hlast⟩ := ih hnext h
      refine ⟨⟨c, (m c).toNat⟩ :: whole, last, by rw [hframes, List.cons_append], ?_, hlast⟩
      intro f hf
      rcases List.mem_cons.mp hf with rfl | hf
      · exact hnext
      · exact hwhole f hf
    · refine ⟨[], ⟨c, (m c).toNat⟩, by rw [frames_of_le (by omega), List.nil_append], ?_,
        Nat.lt_of_not_le hnext⟩
      exact fun f hf => absurd hf List.not_mem_nil
  | case2 c hc =>
    have hc' : c = limit := by omega
    exact absurd ((stop_of_le (Nat.not_lt.mp hc)).trans hc') h

end LengthPrefix
