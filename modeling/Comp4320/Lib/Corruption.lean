import Comp4320.Lib.OnesComplement

/-!
# One wrong element

Two lists that differ at one position and nowhere else: a message, and what is left of it when one
of its bytes is changed on the way. What lies before the position and what lies behind it is the
same in both, so whatever is read there is read off either.

## Main definitions

* `DiffersAt` — the lists differ at one position, where one holds `b` and the other `c`

## Main results

* `DiffersAt.exists_split` — the two lists around the position
* `DiffersAt.take_eq`, `drop_eq` — what lies on either side is the same
-/

/-- The lists differ at position `p` and nowhere else: there, one holds `b` and the other `c`. -/
structure DiffersAt {α : Type*} (l l' : List α) (p : ℕ) (b c : α) : Prop where
  /-- The element of the first list. -/
  before : l[p]? = some b
  /-- The element of the second list. -/
  after : l'[p]? = some c
  /-- They are not the same. -/
  ne : b ≠ c
  /-- Everything else is. -/
  same : ∀ i, i ≠ p → l'[i]? = l[i]?

namespace DiffersAt

variable {α : Type*} {l l' : List α} {p : ℕ} {b c : α}

/-- Overwriting one element by another makes such a pair. -/
theorem of_set (h : l[p]? = some b) (hne : b ≠ c) : DiffersAt l (l.set p c) p b c where
  before := h
  after := List.getElem?_set_self (List.getElem?_eq_some_iff.mp h).1
  ne := hne
  same _ hi := List.getElem?_set_ne hi.symm

/-- **The two lists around the position.** -/
theorem exists_split (h : DiffersAt l l' p b c) :
    ∃ pre post, pre.length = p ∧ l = pre ++ b :: post ∧ l' = pre ++ c :: post := by
  obtain ⟨hp, hb⟩ := List.getElem?_eq_some_iff.mp h.before
  refine ⟨l.take p, l.drop (p + 1), List.length_take_of_le hp.le, ?_, ?_⟩
  · rw [← hb, List.getElem_cons_drop, List.take_append_drop]
  · refine List.ext_getElem? fun i => ?_
    rcases Nat.lt_trichotomy i p with hi | rfl | hi
    · rw [h.same i hi.ne, List.getElem?_append_left (by simp; omega), List.getElem?_take_of_lt hi]
    · rw [h.after, List.getElem?_append_right (by simp), List.length_take_of_le hp.le, Nat.sub_self,
        List.getElem?_cons_zero]
    · obtain ⟨j, rfl⟩ := Nat.exists_eq_add_of_lt hi
      rw [h.same _ hi.ne', List.getElem?_append_right (by simp; omega),
        List.length_take_of_le hp.le, show p + j + 1 - p = j + 1 by omega,
        List.getElem?_cons_succ, List.getElem?_drop, show p + 1 + j = p + j + 1 by omega]

theorem length_eq (h : DiffersAt l l' p b c) : l'.length = l.length := by
  obtain ⟨pre, post, -, rfl, rfl⟩ := h.exists_split
  simp

/-- What lies before the position is the same. -/
theorem take_eq (h : DiffersAt l l' p b c) {n : ℕ} (hn : n ≤ p) : l'.take n = l.take n := by
  obtain ⟨pre, post, rfl, rfl, rfl⟩ := h.exists_split
  rw [List.take_append_of_le_length hn, List.take_append_of_le_length hn]

/-- What lies behind it is the same. -/
theorem drop_eq (h : DiffersAt l l' p b c) {n : ℕ} (hn : p < n) : l'.drop n = l.drop n := by
  obtain ⟨pre, post, rfl, rfl, rfl⟩ := h.exists_split
  obtain ⟨j, rfl⟩ := Nat.exists_eq_add_of_lt hn
  rw [Nat.add_assoc, List.drop_append, List.drop_append, Nat.add_sub_cancel_left,
    List.drop_succ_cons, List.drop_succ_cons]

end DiffersAt
