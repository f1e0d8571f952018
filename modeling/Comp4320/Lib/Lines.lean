import Mathlib.Data.List.Basic

/-!
# Reading a text line by line through a buffer

Each read takes the next line with its end, as far as it fits into `n` places, so a line that is too
long is read in pieces. The pieces are the text: none is lost, and where the cuts are depends on
nothing but the text and `n`.

## Main definitions

* `Lines.takeLine`, `Lines.dropLine` — what one read takes, and what it leaves
* `Lines.pieces` — what all reads take

## Main results

* `Lines.flatten_pieces` — the pieces are the text
* `Lines.mem_pieces` — what a piece is
* `Lines.takeLine_append` — a whole line that fits is read at once
-/

namespace Lines

variable {α : Type*} [DecidableEq α] (eol : α)

/-- The first line of a text with its end, or what fits of it. -/
def takeLine : ℕ → List α → List α
  | 0, _ => []
  | _ + 1, [] => []
  | n + 1, a :: l => if a = eol then [a] else a :: takeLine n l

/-- The rest of the text. -/
def dropLine (n : ℕ) (l : List α) : List α := l.drop (takeLine eol n l).length

variable {eol} {n : ℕ} {l line rest : List α}

theorem takeLine_isPrefix (n : ℕ) (l : List α) : takeLine eol n l <+: l := by
  induction n generalizing l with
  | zero => exact List.nil_prefix
  | succ n ih =>
    cases l with
    | nil => exact List.nil_prefix
    | cons a l =>
      rw [takeLine]
      split_ifs
      · exact ⟨l, rfl⟩
      · exact List.prefix_cons_inj a |>.mpr (ih l)

theorem takeLine_append_dropLine (n : ℕ) (l : List α) :
    takeLine eol n l ++ dropLine eol n l = l := by
  have hprefix : takeLine eol n l <+: l := takeLine_isPrefix n l
  conv_lhs => rw [dropLine, List.prefix_iff_eq_take.mp hprefix]
  rw [List.length_take, Nat.min_eq_left hprefix.length_le, List.take_append_drop]

theorem length_takeLine_le (n : ℕ) (l : List α) : (takeLine eol n l).length ≤ n := by
  induction n generalizing l with
  | zero => exact Nat.le_refl 0
  | succ n ih =>
    cases l with
    | nil => exact Nat.zero_le _
    | cons a l =>
      rw [takeLine]
      split_ifs
      · exact Nat.succ_le_succ (Nat.zero_le n)
      · exact Nat.succ_le_succ (ih l)

@[simp] theorem takeLine_nil (n : ℕ) : takeLine eol n [] = [] := by cases n <;> rfl

/-- Only at the end of the text nothing is taken. -/
theorem takeLine_succ_eq_nil_iff : takeLine eol (n + 1) l = [] ↔ l = [] := by
  cases l with
  | nil => simp
  | cons a l =>
    rw [takeLine]
    split_ifs <;> simp

/-- A piece has at most one line end, which is its end. -/
theorem eol_not_mem_dropLast (n : ℕ) (l : List α) : eol ∉ (takeLine eol n l).dropLast := by
  induction n generalizing l with
  | zero => simp [takeLine]
  | succ n ih =>
    cases l with
    | nil => simp
    | cons a l =>
      rw [takeLine]
      split_ifs with ha
      · simp
      · cases htake : takeLine eol n l with
        | nil => simp
        | cons b t =>
          have hnot := ih l
          rw [htake] at hnot
          rw [List.dropLast_cons_cons, List.mem_cons, not_or]
          exact ⟨Ne.symm ha, hnot⟩

/-- A whole line that fits is read at once. -/
theorem takeLine_append (hline : eol ∉ line) (hn : line.length < n) :
    takeLine eol n (line ++ eol :: rest) = line ++ [eol] := by
  induction line generalizing n with
  | nil =>
    obtain ⟨m, rfl⟩ := Nat.exists_eq_add_of_lt hn
    simp [takeLine]
  | cons a line ih =>
    obtain ⟨hne, hline⟩ := not_or.mp (mt List.mem_cons.mpr hline)
    cases n with
    | zero => exact absurd hn (Nat.not_lt_zero _)
    | succ n =>
      rw [List.cons_append, takeLine, if_neg (Ne.symm hne),
        ih hline (Nat.lt_of_succ_lt_succ hn), List.cons_append]

theorem length_dropLine_lt (hl : l ≠ []) : (dropLine eol (n + 1) l).length < l.length := by
  have hpos : 0 < (takeLine eol (n + 1) l).length :=
    List.length_pos_iff.mpr (mt takeLine_succ_eq_nil_iff.mp hl)
  have hprefix : takeLine eol (n + 1) l <+: l := takeLine_isPrefix (n + 1) l
  have hle := hprefix.length_le
  rw [dropLine, List.length_drop]
  omega

theorem dropLine_append (hline : eol ∉ line) (hn : line.length < n) :
    dropLine eol n (line ++ eol :: rest) = rest := by
  rw [dropLine, takeLine_append hline hn, List.append_cons line eol rest, List.drop_left]

variable (eol) in
/-- What all reads take from a text, through a buffer of `n + 1` places. -/
def pieces (n : ℕ) (l : List α) : List (List α) :=
  if h : l = [] then []
  else takeLine eol (n + 1) l :: pieces n (dropLine eol (n + 1) l)
termination_by l.length
decreasing_by exact length_dropLine_lt h

@[simp] theorem pieces_nil (n : ℕ) : pieces eol n [] = [] := by
  rw [pieces, dif_pos rfl]

theorem pieces_of_ne_nil (hl : l ≠ []) :
    pieces eol n l = takeLine eol (n + 1) l :: pieces eol n (dropLine eol (n + 1) l) := by
  rw [pieces, dif_neg hl]

theorem pieces_ne_nil (hl : l ≠ []) : pieces eol n l ≠ [] := by
  rw [pieces_of_ne_nil hl]
  exact List.cons_ne_nil _ _

/-- **The pieces are the text.** -/
theorem flatten_pieces (n : ℕ) (l : List α) : (pieces eol n l).flatten = l := by
  induction l using pieces.induct eol n with
  | case1 => rw [pieces_nil, List.flatten_nil]
  | case2 l hl ih =>
    rw [pieces_of_ne_nil hl, List.flatten_cons, ih, takeLine_append_dropLine]

/-- What a piece is: something, no longer than the buffer, with a line end at most at its end. -/
theorem mem_pieces {piece : List α} (h : piece ∈ pieces eol n l) :
    piece ≠ [] ∧ piece.length ≤ n + 1 ∧ eol ∉ piece.dropLast := by
  induction l using pieces.induct eol n with
  | case1 => simp at h
  | case2 l hl ih =>
    rw [pieces_of_ne_nil hl] at h
    rcases List.mem_cons.mp h with rfl | h
    · exact ⟨mt takeLine_succ_eq_nil_iff.mp hl, length_takeLine_le _ _, eol_not_mem_dropLast _ _⟩
    · exact ih h

/-! ### Reading on at the end -/

omit [DecidableEq α] in
/-- A list that goes through another one, and then repeats its last element. -/
theorem follows_of_getElem? {l ps : List α}
    (h : ∀ (k : ℕ) a, l[k]? = some a → ps[min k (ps.length - 1)]? = some a) :
    l.take ps.length <+: ps ∧ ∀ a ∈ l.drop ps.length, ps.getLast? = some a := by
  constructor
  · rw [List.prefix_iff_getElem?]
    intro k hk
    rw [List.length_take] at hk
    have hk' := h k _ (List.getElem?_eq_getElem (by omega))
    rw [Nat.min_eq_left (by omega)] at hk'
    rw [hk', List.getElem_take]
  · intro a ha
    obtain ⟨k, hk, rfl⟩ := List.mem_iff_getElem.mp ha
    rw [List.length_drop] at hk
    have hk' := h _ _ (List.getElem?_eq_getElem (i := ps.length + k) (by omega))
    rw [Nat.min_eq_right (by omega), ← List.getLast?_eq_getElem?] at hk'
    rw [hk', List.getElem_drop]

end Lines
