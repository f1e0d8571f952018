import Mathlib.Data.List.Induction
import Mathlib.Data.List.Nodup
import Mathlib.Algebra.Ring.Parity

/-!
# A waiting room for one

Arrivals come one after another into a room that holds one of them. An arrival that finds the room
empty waits in it; an arrival that finds someone there is paired with them, and both leave. So the
first, third, fifth … arrival waits and the second, fourth, sixth … is paired with the one before.

`pairFrom w l` lists the arrivals `l` with the partner each is given, the room holding `w` at
first. Counting from zero, the arrivals with an odd number are the ones that are given a partner,
which is what `getElem?_pair` says and everything else here rests on: a partner is given away once,
and nobody is both given a partner and given away, provided nobody arrives twice.

## Main definitions

* `Pairing.next`, `Pairing.waiting` — who waits after one arrival, and after many
* `Pairing.pairFrom`, `Pairing.pair` — the arrivals with their partners

## Main results

* `Pairing.getElem?_pair` — who is paired with whom, by position
* `Pairing.partners_isPrefix` — partners are given away in the order in which they came, each once
* `Pairing.length_filter_isSome_pair` — every other arrival is given a partner
* `Pairing.partner_unique`, `partner_injective`, `partner_not_paired` — the pairs are disjoint
-/

namespace Pairing

variable {α β : Type*}

/-- Who waits after an arrival. -/
def next (w : Option α) (a : α) : Option α :=
  match w with
  | none => some a
  | some _ => none

/-- Who waits after some arrivals. -/
def waiting (w : Option α) (l : List α) : Option α := l.foldl next w

/-- The arrivals, each with the partner it is given. -/
def pairFrom : Option α → List α → List (α × Option α)
  | _, [] => []
  | w, a :: l => (a, w) :: pairFrom (next w a) l

/-- The arrivals and their partners, the room being empty at first. -/
def pair (l : List α) : List (α × Option α) := pairFrom none l

@[simp] theorem next_none (a : α) : next none a = some a := rfl

@[simp] theorem next_some (b a : α) : next (some b) a = none := rfl

theorem waiting_concat (w : Option α) (l : List α) (a : α) :
    waiting w (l ++ [a]) = next (waiting w l) a := by
  rw [waiting, List.foldl_append]
  rfl

theorem next_map (f : α → β) (w : Option α) (a : α) :
    next (w.map f) (f a) = (next w a).map f := by
  cases w <;> rfl

/-- A later arrival changes nothing for the earlier ones, and is paired with whoever waits. -/
theorem pairFrom_concat (w : Option α) (l : List α) (a : α) :
    pairFrom w (l ++ [a]) = pairFrom w l ++ [(a, waiting w l)] := by
  induction l generalizing w with
  | nil => rfl
  | cons b l ih => rw [List.cons_append, pairFrom, ih, pairFrom, List.cons_append]; rfl

theorem pair_concat (l : List α) (a : α) : pair (l ++ [a]) = pair l ++ [(a, waiting none l)] :=
  pairFrom_concat ..

/-- Two arrivals leave the room as it was. -/
theorem pair_cons_cons (a b : α) (l : List α) :
    pair (a :: b :: l) = (a, none) :: (b, some a) :: pair l := rfl

/-- **Who is paired with whom.** Counting from zero, arrivals with an even number wait, and those
with an odd number are paired with their predecessor. -/
theorem getElem?_pair (l : List α) (i : ℕ) :
    (pair l)[i]? = l[i]?.map fun a => (a, if Even i then none else l[i - 1]?) := by
  induction l using List.twoStepInduction generalizing i with
  | nil => rfl
  | singleton a => cases i <;> rfl
  | cons_cons a b l ih _ =>
    rw [pair_cons_cons]
    match i with
    | 0 => simp
    | 1 => simp
    | i + 2 =>
      rw [List.getElem?_cons_succ, List.getElem?_cons_succ, ih, List.getElem?_cons_succ,
        List.getElem?_cons_succ]
      by_cases hi : Even i
      · simp [hi, Nat.even_add]
      · obtain ⟨k, rfl⟩ := Nat.not_even_iff_odd.mp hi
        simp [Nat.even_add]

/-- The partners given away, in order, are the first of those who waited: **each of them is given
away at most once**, and at most one is left. -/
theorem partners_isPrefix (l : List α) :
    (pair l).filterMap Prod.snd <+: ((pair l).filter fun p => p.2.isNone).map Prod.fst := by
  induction l using List.twoStepInduction with
  | nil => exact List.prefix_rfl
  | singleton a => exact List.nil_prefix
  | cons_cons a b l ih _ => simpa [pair_cons_cons] using ih

theorem map_fst_pairFrom (w : Option α) (l : List α) : (pairFrom w l).map Prod.fst = l := by
  induction l generalizing w with
  | nil => rfl
  | cons a l ih => rw [pairFrom, List.map_cons, ih]

/-- The arrivals are listed as they came. -/
@[simp] theorem map_fst_pair (l : List α) : (pair l).map Prod.fst = l := map_fst_pairFrom none l

/-- **Every other arrival is given a partner.** -/
theorem length_filter_isSome_pair (l : List α) :
    ((pair l).filter fun p => p.2.isSome).length = l.length / 2 := by
  induction l using List.twoStepInduction with
  | nil => simp [pair, pairFrom]
  | singleton a => simp [pair, pairFrom]
  | cons_cons a b l ih _ =>
    rw [pair_cons_cons, List.filter_cons_of_neg (by simp), List.filter_cons_of_pos (by simp),
      List.length_cons, ih, List.length_cons, List.length_cons]
    omega

theorem mem_pair_iff {l : List α} {a : α} {w : Option α} :
    (a, w) ∈ pair l ↔ ∃ i, l[i]? = some a ∧ w = if Even i then none else l[i - 1]? := by
  simp only [List.mem_iff_getElem?, getElem?_pair, Option.map_eq_some_iff, Prod.mk.injEq]
  constructor
  · rintro ⟨i, b, hb, rfl, rfl⟩
    exact ⟨i, hb, rfl⟩
  · rintro ⟨i, hi, rfl⟩
    exact ⟨i, a, hi, rfl, rfl⟩

/-- The positions of a pair. -/
theorem mem_pair_partner {l : List α} {a b : α} (h : (a, some b) ∈ pair l) :
    ∃ i, l[i + 1]? = some a ∧ l[i]? = some b ∧ Even i := by
  obtain ⟨i, ha, hb⟩ := mem_pair_iff.mp h
  split_ifs at hb with hi
  obtain ⟨k, rfl⟩ := Nat.not_even_iff_odd.mp hi
  exact ⟨2 * k, ha, hb.symm, even_two_mul k⟩

/-- **Who is given to whom**: of the arrivals in twos, the first to the second. -/
theorem mem_pair_partner_iff {l : List α} {a b : α} :
    (a, some b) ∈ pair l ↔ ∃ i, Even i ∧ l[i]? = some b ∧ l[i + 1]? = some a := by
  constructor
  · intro h
    obtain ⟨i, ha, hb, hi⟩ := mem_pair_partner h
    exact ⟨i, hi, hb, ha⟩
  · rintro ⟨i, hi, hb, ha⟩
    refine mem_pair_iff.mpr ⟨i + 1, ha, ?_⟩
    rw [if_neg (Nat.not_even_iff_odd.mpr hi.add_one), Nat.add_sub_cancel, hb]

/-- Someone who is given away has waited before. -/
theorem waited_before_partner {l : List α} {a b : α} (h : (a, some b) ∈ pair l) :
    [(b, none), (a, some b)].Sublist (pair l) := by
  induction l using List.twoStepInduction with
  | nil => exact absurd h (by simp [pair, pairFrom])
  | singleton c => exact absurd h (by simp [pair, pairFrom])
  | cons_cons c d l ih _ =>
    rw [pair_cons_cons, List.mem_cons, List.mem_cons] at h
    rw [pair_cons_cons]
    rcases h with h | h | h
    · exact absurd (Prod.mk.inj h).2 (by simp)
    · obtain ⟨rfl, hb⟩ := Prod.mk.inj h
      obtain rfl := Option.some.inj hb
      exact ((List.nil_sublist _).cons_cons _).cons_cons _
    · exact ((ih h).cons _).cons _

/-- Who is given nobody and given to nobody has come last. -/
theorem alone_unique {l : List α} {a a' : α} (h : (a, none) ∈ pair l)
    (hnot : ∀ b, (b, some a) ∉ pair l) (h' : (a', none) ∈ pair l)
    (hnot' : ∀ b, (b, some a') ∉ pair l) : a = a' := by
  have hlast : ∀ c : α, (c, none) ∈ pair l → (∀ b, (b, some c) ∉ pair l) →
      l[l.length - 1]? = some c := by
    intro c hc hgiven
    obtain ⟨i, hi, hnone⟩ := mem_pair_iff.mp hc
    have hlt : i < l.length := (List.getElem?_eq_some_iff.mp hi).1
    have heven : Even i := by
      by_contra hodd
      rw [if_neg hodd, eq_comm, List.getElem?_eq_none_iff] at hnone
      omega
    have hend : l[i + 1]? = none := by
      rw [Option.eq_none_iff_forall_ne_some]
      exact fun b hb => hgiven b (mem_pair_partner_iff.mpr ⟨i, heven, hi, hb⟩)
    rw [List.getElem?_eq_none_iff] at hend
    rwa [show l.length - 1 = i by omega]
  exact Option.some.inj ((hlast a h hnot).symm.trans (hlast a' h' hnot'))

section Nodup

variable {l : List α} {a a' b c : α} (hl : l.Nodup)
include hl

theorem index_unique {i j : ℕ} (hi : l[i]? = some a) (hj : l[j]? = some a) : i = j := by
  obtain ⟨hi', rfl⟩ := List.getElem?_eq_some_iff.mp hi
  obtain ⟨hj', hij⟩ := List.getElem?_eq_some_iff.mp hj
  exact ((hl.getElem_inj_iff).mp hij).symm

theorem partner_ne (h : (a, some b) ∈ pair l) : b ≠ a := by
  rintro rfl
  obtain ⟨i, ha, hb, -⟩ := mem_pair_partner h
  exact absurd (index_unique hl ha hb) (by omega)

/-- Nobody is listed twice. -/
theorem pair_unique {v w : Option α} (h : (a, v) ∈ pair l) (h' : (a, w) ∈ pair l) : v = w := by
  obtain ⟨i, hi, rfl⟩ := mem_pair_iff.mp h
  obtain ⟨j, hj, rfl⟩ := mem_pair_iff.mp h'
  rw [index_unique hl hi hj]

theorem partner_unique (h : (a, some b) ∈ pair l) (h' : (a, some c) ∈ pair l) : b = c := by
  obtain ⟨i, ha, hb, -⟩ := mem_pair_partner h
  obtain ⟨j, ha', hc, -⟩ := mem_pair_partner h'
  obtain rfl : i = j := by
    have := index_unique hl ha ha'
    omega
  exact Option.some.inj (hb.symm.trans hc)

/-- So the pairs are a partial function. -/
theorem exists_partner : ∃ partner : α → Option α,
    ∀ a b, partner a = some b ↔ (a, some b) ∈ pair l := by
  classical
  refine ⟨fun a => if h : ∃ b, (a, some b) ∈ pair l then some h.choose else none, fun a b => ?_⟩
  constructor
  · intro h
    obtain ⟨hex, heq⟩ := Option.dite_none_right_eq_some.mp h
    exact Option.some.inj heq ▸ hex.choose_spec
  · intro h
    have hex : ∃ b, (a, some b) ∈ pair l := ⟨b, h⟩
    exact (dif_pos hex).trans (congrArg some (partner_unique hl hex.choose_spec h))

/-- No two arrivals are given the same partner. -/
theorem partner_injective (h : (a, some b) ∈ pair l) (h' : (a', some b) ∈ pair l) : a = a' := by
  obtain ⟨i, ha, hb, -⟩ := mem_pair_partner h
  obtain ⟨j, ha', hb', -⟩ := mem_pair_partner h'
  obtain rfl := index_unique hl hb hb'
  exact Option.some.inj (ha.symm.trans ha')

/-- Nobody is given a partner and given away. -/
theorem partner_not_paired (h : (a, some b) ∈ pair l) : (b, some c) ∉ pair l := by
  intro h'
  obtain ⟨i, -, hb, hi⟩ := mem_pair_partner h
  obtain ⟨j, hb', -, hj⟩ := mem_pair_partner h'
  obtain rfl := index_unique hl hb hb'
  exact Nat.not_even_iff_odd.mpr hj.add_one hi

/-- One arrival is in no two pairs. -/
theorem companion_unique (h : (a, some b) ∈ pair l ∨ (b, some a) ∈ pair l)
    (h' : (a', some b) ∈ pair l ∨ (b, some a') ∈ pair l) : a = a' := by
  rcases h with h | h <;> rcases h' with h' | h'
  · exact partner_injective hl h h'
  · exact absurd h' (partner_not_paired hl h)
  · exact absurd h (partner_not_paired hl h')
  · exact partner_unique hl h h'

end Nodup

end Pairing
