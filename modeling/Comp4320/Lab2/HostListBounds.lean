import Comp4320.Lab2.Isolation

/-!
# Where the host list loop reads and writes

Three arrays meet in `resolveHostnames`: the host list it parses, the fifty addresses it collects,
and the container it copies them to. The cursor stops at the end of the host list, but nothing stops
the frame it is at, and nothing counts the addresses. So the loop stays inside its arrays for the
requests whose last frame ends with the host list and for which at most fifty addresses are
recorded, and for no others; the container is never too small.

## Main definitions

* `ServerUDP.Access`, `ServerUDP.accesses` — the accesses of the loop, in order
* `ServerUDP.StaysInBounds` — the loop stays inside its arrays

## Main results

* `ServerUDP.mem_accesses_read`, `mem_accesses_write` — which accesses there are
* `ServerUDP.resolveHostnames_congr` — the call depends on what it reads, and on nothing else
* `ServerUDP.resolveHostnames_isSome_iff` — the model stops where a write leaves `ips`
* `ServerUDP.staysInBounds_iff` — the requests for which the loop stays inside its arrays
-/

namespace Comp4320

namespace Lab2

open ByteOrder LengthPrefix

namespace ServerUDP

/-- One access of `resolveHostnames` to one of its arrays. -/
inductive Access
  /-- `msg[i]` is read. -/
  | read (i : ℕ)
  /-- `ips[i]` is written. -/
  | write (i : ℕ)
  deriving DecidableEq, Repr

/-- The accesses of the `while` loop, from `currentByte` on and with `num_ips` addresses recorded:
the length byte, the bytes copied to `hostname`, and the address, if there is one. A write past the
end of `ips` is listed; what follows it is what the loop does if it survives it. -/
def accesses (gethostbyname : Resolver) (msg : Memory) (num_bytes : ℤ) (currentByte num_ips : ℕ) :
    List Access :=
  if (currentByte : ℤ) < num_bytes then
    let host_size := (msg currentByte).toNat
    let hostname := msg.load (currentByte + 1) host_size
    let reads := .read currentByte ::
      (List.range host_size).map fun i => .read (currentByte + 1 + i)
    match gethostbyname ⟨⟨currentByte, host_size⟩, hostname⟩ with
    | .noAddress =>
      reads ++ accesses gethostbyname msg num_bytes (currentByte + (host_size + 1)) num_ips
    | .null | .address _ =>
      reads ++ .write num_ips ::
        accesses gethostbyname msg num_bytes (currentByte + (host_size + 1)) (num_ips + 1)
  else []
termination_by (num_bytes - currentByte).toNat

/-- The call of `resolveHostnames` for an accepted request returns, reads the first `tml - 9` bytes
of the host list only, writes fifty addresses at most, and copies no more than the container
holds. -/
structure StaysInBounds (gethostbyname : Resolver) (buf : ClientRequest) (d : List UInt8) :
    Prop where
  returns : (resolveHostnames gethostbyname (processed buf d).hostList
    ((processed buf d).tml.toNat - 9)).isSome
  reads : ∀ i : ℕ, .read i ∈ accesses gethostbyname (processed buf d).hostList
    ((processed buf d).tml.toNat - 9) 0 0 → (i : ℤ) < (processed buf d).tml.toNat - 9
  writes : ∀ i : ℕ, .write i ∈ accesses gethostbyname (processed buf d).hostList
    ((processed buf d).tml.toNat - 9) 0 0 → i < 50
  copied : ∀ ips lookups, resolveHostnames gethostbyname (processed buf d).hostList
    ((processed buf d).tml.toNat - 9) = some (ips, lookups) → ips.length ≤ 4096

/-- The last frame of a request ends with its host list, and at most fifty addresses are recorded
for its frames. -/
structure FitsArrays (gethostbyname : Resolver) (d : List UInt8) : Prop where
  stop : stop (hostBytes d) ((received d).length - 9) 0 ≤ (received d).length - 9
  answers : (answers gethostbyname
    (lookupsFrom (hostBytes d) ((received d).length - 9) 0)).length ≤ 50

variable {g : Resolver} {msg : Memory} {n c k i : ℕ} {buf : ClientRequest} {d : List UInt8}

/-! ### Which accesses there are -/

theorem accesses_of_lt (h : c < n) : accesses g msg n c k =
    (.read c :: (List.range (msg c).toNat).map fun i => .read (c + 1 + i)) ++
      ((recorded (g (lookupAt msg ⟨c, (msg c).toNat⟩))).toList.map fun _ => .write k) ++
      accesses g msg n (c + (msg c).toNat + 1)
        (k + (recorded (g (lookupAt msg ⟨c, (msg c).toNat⟩))).toList.length) := by
  rw [accesses, if_pos (by exact_mod_cast h)]
  simp only [lookupAt, Frame.body]
  cases g ⟨⟨c, (msg c).toNat⟩, msg.load (c + 1) (msg c).toNat⟩ <;> simp [recorded, Nat.add_assoc]

theorem accesses_of_le (h : n ≤ c) : accesses g msg n c k = [] := by
  rw [accesses, if_neg (by exact_mod_cast Nat.not_lt.mpr h)]

/-- **The bytes read** are those the walk passes, to the end of its last frame. -/
theorem mem_accesses_read : .read i ∈ accesses g msg n c k ↔ c ≤ i ∧ i < stop msg n c := by
  induction c using stop.induct msg n generalizing k with
  | case1 c h ih =>
    have hle := le_stop msg n (c + (msg c).toNat + 1)
    rw [accesses_of_lt h, stop_of_lt h, List.mem_append, List.mem_append, ih]
    simp only [List.mem_cons, List.mem_map, List.mem_range, Access.read.injEq, reduceCtorEq,
      and_false, exists_false, or_false]
    constructor
    · rintro ((rfl | ⟨j, hj, rfl⟩) | ⟨h₁, h₂⟩) <;> omega
    · rintro ⟨h₁, h₂⟩
      by_cases hi : i < c + (msg c).toNat + 1
      · rcases Nat.eq_or_lt_of_le h₁ with rfl | hlt
        · exact Or.inl (Or.inl rfl)
        · exact Or.inl (Or.inr ⟨i - (c + 1), by omega, by omega⟩)
      · exact Or.inr ⟨by omega, h₂⟩
  | case2 c h =>
    rw [accesses_of_le (by omega), stop_of_le (by omega)]
    exact iff_of_false List.not_mem_nil (by omega)

/-- **The addresses written** are those recorded for the walk, one after the other. -/
theorem mem_accesses_write :
    .write i ∈ accesses g msg n c k ↔ k ≤ i ∧ i < k + (answers g (lookupsFrom msg n c)).length := by
  induction c using stop.induct msg n generalizing k with
  | case1 c h ih =>
    rw [accesses_of_lt h, lookupsFrom_of_lt h, answers_cons, List.mem_append, List.mem_append, ih,
      ← Nat.add_assoc c, List.length_append]
    simp only [List.mem_cons, List.mem_map, reduceCtorEq, and_false, exists_false, or_self,
      false_or, Access.write.injEq]
    cases recorded (g (lookupAt msg ⟨c, (msg c).toNat⟩)) with
    | none => simp
    | some ip => simp; omega
  | case2 c h =>
    rw [accesses_of_le (by omega), lookupsFrom_of_le (by omega)]
    exact iff_of_false List.not_mem_nil (by simp [answers])

theorem accesses_toNat (num_bytes : ℤ) (c k : ℕ) :
    accesses g msg num_bytes.toNat c k = accesses g msg num_bytes c k := by
  rcases Int.le_total 0 num_bytes with h | h
  · rw [Int.toNat_of_nonneg h]
  · rw [Int.toNat_of_nonpos h, accesses, if_neg (by omega), accesses, if_neg (by omega)]

/-! ### Staying inside -/

theorem resolveHostnames_isSome_iff_answers (num_bytes : ℤ) :
    (resolveHostnames g msg num_bytes).isSome ↔
      (answers g (lookupsFrom msg num_bytes.toNat 0)).length ≤ 50 := by
  constructor
  · intro h
    by_contra hlt
    rw [resolveHostnames_eq_none (Nat.not_le.mp hlt)] at h
    exact absurd h (by simp)
  · intro h
    rw [resolveHostnames_eq h]
    rfl

/-- **The model stops exactly where a write leaves `ips`.** -/
theorem resolveHostnames_isSome_iff (num_bytes : ℤ) :
    (resolveHostnames g msg num_bytes).isSome ↔
      ∀ i, .write i ∈ accesses g msg num_bytes 0 0 → i < 50 := by
  rw [resolveHostnames_isSome_iff_answers, ← accesses_toNat]
  simp only [mem_accesses_write, Nat.zero_le, true_and, Nat.zero_add]
  constructor
  · intro h i hi
    omega
  · intro h
    by_contra hlt
    exact absurd (h 50 (by omega)) (by decide)

/-- What is copied are the addresses, four bytes each. -/
theorem length_resolveHostnames {num_bytes : ℤ} {ips : List UInt8} {lookups : List Lookup}
    (h : resolveHostnames g msg num_bytes = some (ips, lookups)) : ips.length ≤ 200 := by
  have hle := (resolveHostnames_isSome_iff_answers num_bytes).mp (Option.isSome_of_eq_some h)
  rw [resolveHostnames_eq hle] at h
  obtain ⟨rfl, -⟩ := Prod.mk.inj (Option.some.inj h)
  rw [length_flatMap_image32]
  omega

/-- The bytes of the host list that are read lie inside it, if the last frame does. -/
theorem reads_iff (num_bytes : ℤ) :
    (∀ i : ℕ, .read i ∈ accesses g msg num_bytes 0 0 → (i : ℤ) < num_bytes) ↔
      stop msg num_bytes.toNat 0 ≤ num_bytes.toNat := by
  rw [← accesses_toNat]
  simp only [mem_accesses_read, Nat.zero_le, true_and]
  constructor
  · intro h
    by_contra hlt
    have hread := h num_bytes.toNat (Nat.not_le.mp hlt)
    have hpos : 0 < num_bytes.toNat := by omega
    omega
  · intro h i hi
    omega

/-- **The call depends on the bytes it reads only**, so every byte it depends on is listed. -/
theorem resolveHostnames_congr {msg' : Memory} {num_bytes : ℤ}
    (h : ∀ i, .read i ∈ accesses g msg num_bytes 0 0 → msg i = msg' i) :
    resolveHostnames g msg num_bytes = resolveHostnames g msg' num_bytes := by
  rw [← accesses_toNat] at h
  have hsame : lookupsFrom msg num_bytes.toNat 0 = lookupsFrom msg' num_bytes.toNat 0 :=
    lookupsFrom_congr fun i h₁ h₂ => h i (mem_accesses_read.mpr ⟨h₁, h₂⟩)
  rcases Nat.lt_or_ge 50 (answers g (lookupsFrom msg num_bytes.toNat 0)).length with hlt | hle
  · rw [resolveHostnames_eq_none hlt, resolveHostnames_eq_none (by rw [← hsame]; exact hlt)]
  · rw [resolveHostnames_eq hle, resolveHostnames_eq (by rw [← hsame]; exact hle), hsame]

/-- **The loop stays inside its arrays for exactly these requests**, whatever the buffer held before
and whatever the resolver answers. -/
theorem staysInBounds_iff (hacc : (processed buf d).error = 0) :
    StaysInBounds g buf d ↔ FitsArrays g d := by
  have hnum : ((processed buf d).tml.toNat - 9 : ℤ).toNat = (received d).length - 9 := by
    rw [tml_of_accepted hacc]
    omega
  have hstop : stop (processed buf d).hostList ((received d).length - 9) 0
      = stop (hostBytes d) ((received d).length - 9) 0 :=
    stop_congr fun i _ hi => hostList_processed hacc (Or.inl (by omega))
  have hlookups : stop (hostBytes d) ((received d).length - 9) 0 ≤ (received d).length - 9 →
      lookupsFrom (processed buf d).hostList ((received d).length - 9) 0
        = lookupsFrom (hostBytes d) ((received d).length - 9) 0 := by
    intro hle
    rw [← hostLookups_of_accepted hacc]
    exact hostLookups_eq_lookupsFrom hacc fun i hi => Or.inl (by omega)
  constructor
  · intro h
    have hle := (reads_iff _).mp h.reads
    have hanswers := (resolveHostnames_isSome_iff_answers _).mp h.returns
    rw [hnum, hstop] at hle
    rw [hnum, hlookups hle] at hanswers
    exact ⟨hle, hanswers⟩
  · intro h
    have hreturns : (resolveHostnames g (processed buf d).hostList
        ((processed buf d).tml.toNat - 9)).isSome := by
      rw [resolveHostnames_isSome_iff_answers, hnum, hlookups h.stop]
      exact h.answers
    refine ⟨hreturns, (reads_iff _).mpr (by rw [hnum, hstop]; exact h.stop),
      (resolveHostnames_isSome_iff _).mp hreturns, fun ips lookups hips => ?_⟩
    have hlen := length_resolveHostnames hips
    omega

/-- A request for one name, whose lookup fails. -/
theorem staysInBounds_iff_one_host :
    (processed (fun _ => 0) [0x4a, 0x6f, 0x79, 0x21, 0, 11, 7, 0x32, 5, 1, 97]).error = 0 ∧
    (StaysInBounds (fun _ => .null) (fun _ => 0)
        [0x4a, 0x6f, 0x79, 0x21, 0, 11, 7, 0x32, 5, 1, 97] ↔
      FitsArrays (fun _ => .null) [0x4a, 0x6f, 0x79, 0x21, 0, 11, 7, 0x32, 5, 1, 97]) := by
  have hacc : (processed (fun _ => 0)
      [0x4a, 0x6f, 0x79, 0x21, 0, 11, 7, 0x32, 5, 1, 97]).error = 0 := by
    decide +kernel
  exact ⟨hacc, staysInBounds_iff hacc⟩

/-- A request whose only frame claims three bytes and ends with its length byte. -/
theorem not_staysInBounds :
    (processed (fun _ => 0) [0x4a, 0x6f, 0x79, 0x21, 0, 10, 7, 0x92, 5, 3]).error = 0 ∧
      ¬ StaysInBounds (fun _ => .null) (fun _ => 0)
        [0x4a, 0x6f, 0x79, 0x21, 0, 10, 7, 0x92, 5, 3] := by
  refine ⟨by decide +kernel, fun h => ?_⟩
  exact absurd ((reads_iff _).mp h.reads) (by decide +kernel)

end ServerUDP

end Lab2

end Comp4320
