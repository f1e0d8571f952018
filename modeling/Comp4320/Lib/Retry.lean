import Mathlib.Data.List.Basic

/-!
# Bounded retries

A loop that makes one attempt at each input it receives, at most `limit` in all. An attempt accepts
the input, asks for another one, or fails, and the first input that is not retried decides: the loop
ends there, and what comes after it is never looked at. If there is none, the loop gives up after
`limit` attempts, or waits for an input that never comes.

`Retried as i` says that the first `i` inputs are retried, so the input the loop ends at is the one
at `i`, and all results here are about that `i`.

## Main definitions

* `Retry.loop` — the loop
* `Retry.Retried` — the first inputs are all retried

## Main results

* `Retry.cases_retried` — one input decides, or none does
* `Retry.result_loop` — what comes of the loop, in terms of the input that decides
* `Retry.not_of_reached`, `retried_of_forall_not` — which inputs are reached
* `Retry.ends` — the ways in which the loop ends
* `Retry.loop_eq_accepted_iff` — what the loop accepts, and when
* `Retry.loop_take_succ_iff` — one more input: there is another attempt if and only if it is retried
-/

namespace Retry

variable {α ε β : Type*}

/-- How the loop ends, and after how many attempts. -/
inductive Outcome (ε β : Type*)
  /-- An input is accepted. -/
  | accepted (b : β) (trials : ℕ)
  /-- An attempt fails. -/
  | failed (e : ε) (trials : ℕ)
  /-- All attempts are used up. -/
  | exhausted (trials : ℕ)
  /-- There is no further input. -/
  | blocked (trials : ℕ)

/-- The loop after `trials` attempts. -/
def loop (attempt : α → Except ε (Option β)) (limit trials : ℕ) : List α → Outcome ε β
  | [] => if trials < limit then .blocked (trials + 1) else .exhausted trials
  | a :: as =>
    if trials < limit then
      match attempt a with
      | .error e => .failed e (trials + 1)
      | .ok (some b) => .accepted b (trials + 1)
      | .ok none => loop attempt limit (trials + 1) as
    else .exhausted trials

/-- The first `i` inputs are retried. -/
def Retried (attempt : α → Except ε (Option β)) (as : List α) (i : ℕ) : Prop :=
  ∀ j < i, ∃ a, as[j]? = some a ∧ attempt a = .ok none

variable {attempt : α → Except ε (Option β)} {limit trials i k : ℕ} {as : List α} {a : α} {b : β}
  {e : ε}

theorem retried_zero : Retried attempt as 0 := fun _ hj => absurd hj (Nat.not_lt_zero _)

theorem Retried.succ (h : Retried attempt as i) (ha : as[i]? = some a)
    (hretry : attempt a = .ok none) : Retried attempt as (i + 1) := by
  intro j hj
  rcases Nat.lt_succ_iff_lt_or_eq.mp hj with hj | rfl
  · exact h j hj
  · exact ⟨a, ha, hretry⟩

/-- What is retried has every property of inputs that are retried. -/
theorem Retried.forall_lt {P : α → Prop} (h : Retried attempt as i)
    (hP : ∀ a ∈ as, attempt a = .ok none → P a) : ∀ j < i, ∀ a ∈ as[j]?, P a := by
  intro j hj a ha
  obtain ⟨a', ha', hretry⟩ := h j hj
  obtain rfl : a' = a := Option.some.inj (ha'.symm.trans ha)
  exact hP a' (List.mem_of_getElem? ha') hretry

/-- **One input decides, or none does.** -/
theorem cases_retried (attempt : α → Except ε (Option β)) (limit : ℕ) (as : List α) :
    (∃ i a, i < limit ∧ Retried attempt as i ∧ as[i]? = some a ∧ attempt a ≠ .ok none) ∨
      Retried attempt as limit ∨ as.length < limit ∧ Retried attempt as as.length := by
  induction limit with
  | zero => exact Or.inr (Or.inl retried_zero)
  | succ limit ih =>
    rcases ih with ⟨i, a, hi, h⟩ | h | ⟨hlt, h⟩
    · exact Or.inl ⟨i, a, Nat.lt_succ_of_lt hi, h⟩
    · cases ha : as[limit]? with
      | none =>
        have hle : as.length ≤ limit := List.getElem?_eq_none_iff.mp ha
        exact Or.inr (Or.inr ⟨Nat.lt_succ_of_le hle, fun j hj => h j (by omega)⟩)
      | some a =>
        by_cases hretry : attempt a = .ok none
        · exact Or.inr (Or.inl (h.succ ha hretry))
        · exact Or.inl ⟨limit, a, Nat.lt_succ_self _, h, ha, hretry⟩
    · exact Or.inr (Or.inr ⟨Nat.lt_succ_of_lt hlt, h⟩)

/-- Inputs that are retried are passed over. -/
theorem loop_of_retried (h : Retried attempt as i) (hi : trials + i ≤ limit) :
    loop attempt limit trials as = loop attempt limit (trials + i) (as.drop i) := by
  induction i generalizing trials as with
  | zero => rfl
  | succ i ih =>
    obtain ⟨a, ha, hretry⟩ := h 0 (Nat.succ_pos i)
    cases as with
    | nil => exact absurd ha (by simp)
    | cons a' as =>
      obtain rfl : a' = a := Option.some.inj ha
      have htail : Retried attempt as i := fun j hj => h (j + 1) (Nat.succ_lt_succ hj)
      rw [loop, if_pos (by omega), hretry, List.drop_succ_cons]
      dsimp only
      rw [ih htail (by omega), Nat.add_assoc, Nat.add_comm 1]

/-! ### What comes of it -/

/-- What comes of the loop, if it does not matter how long it took. -/
def Outcome.result : Outcome ε β → Except ε (Option β)
  | .accepted b _ => .ok (some b)
  | .failed e _ => .error e
  | .exhausted _ | .blocked _ => .ok none

/-- An input that is not retried. -/
def decides (attempt : α → Except ε (Option β)) (a : α) : Bool :=
  match attempt a with
  | .ok none => false
  | _ => true

theorem decides_eq_false_iff : decides attempt a = false ↔ attempt a = .ok none := by
  rw [decides]
  cases attempt a with
  | error e => exact iff_of_false Bool.noConfusion (by simp)
  | ok o =>
    cases o with
    | none => exact iff_of_true rfl rfl
    | some b => exact iff_of_false Bool.noConfusion (by simp)

/-- **What comes of the loop is what comes of the first attempt that is not retried.** -/
theorem result_loop (attempt : α → Except ε (Option β)) (limit trials : ℕ) (as : List α) :
    (loop attempt limit trials as).result
      = ((as.take (limit - trials)).find? (decides attempt)).elim (.ok none) attempt := by
  induction as generalizing trials with
  | nil =>
    rw [loop, List.take_nil, List.find?_nil]
    split_ifs <;> rfl
  | cons a as ih =>
    rw [loop]
    split_ifs with hlt
    · rw [show limit - trials = limit - (trials + 1) + 1 by omega, List.take_succ_cons]
      cases ha : attempt a with
      | error e =>
        rw [List.find?_cons_of_pos (by rw [decides, ha]), Option.elim_some, ha]
        rfl
      | ok o =>
        cases o with
        | some b =>
          rw [List.find?_cons_of_pos (by rw [decides, ha]), Option.elim_some, ha]
          rfl
        | none =>
          rw [List.find?_cons_of_neg (by rw [decides, ha]; exact Bool.false_ne_true)]
          exact ih (trials + 1)
    · rw [Nat.sub_eq_zero_of_le (Nat.not_lt.mp hlt), List.take_zero, List.find?_nil]
      rfl

/-! ### Which inputs are reached

`P` decides whether an input is accepted, and `Q` is what must not happen to one that is not. -/

section

variable {P Q : α → Prop} (hnone : ∀ a ∈ as, ¬ P a → ¬ Q a → attempt a = .ok none)
include hnone

theorem retried_of_not (hi : i ≤ as.length) (hP : ∀ j < i, ∀ a ∈ as[j]?, ¬ P a)
    (hQ : ∀ j < i, ∀ a ∈ as[j]?, ¬ Q a) : Retried attempt as i := by
  intro j hj
  have hlt : j < as.length := by omega
  have hget : as[j]? = some as[j] := List.getElem?_eq_getElem hlt
  exact ⟨_, hget, hnone _ (List.getElem_mem hlt) (hP j hj _ hget) (hQ j hj _ hget)⟩

/-- If `Q` holds of no input the loop reaches, it holds of none before which nothing is accepted. -/
theorem not_of_reached
    (h : ∀ i a, i < limit → Retried attempt as i → as[i]? = some a → ¬ Q a) :
    ∀ i a, i < limit → as[i]? = some a → (∀ j < i, ∀ a' ∈ as[j]?, ¬ P a') → ¬ Q a := by
  intro i
  induction i using Nat.strongRecOn with
  | ind i ih =>
    intro a hi ha hP
    have hlt := (List.getElem?_eq_some_iff.mp ha).1
    refine h i a hi (retried_of_not hnone (Nat.le_of_lt hlt) hP fun j hj a' ha' => ?_) ha
    exact ih j hj a' (by omega) ha' fun l hl => hP l (by omega)

/-- And the other way round: then the inputs before which nothing is accepted are reached. -/
theorem retried_of_forall_not
    (h : ∀ i a, i < limit → as[i]? = some a → (∀ j < i, ∀ a' ∈ as[j]?, ¬ P a') → ¬ Q a)
    (hi : i ≤ as.length) (hlimit : i ≤ limit) (hP : ∀ j < i, ∀ a ∈ as[j]?, ¬ P a) :
    Retried attempt as i :=
  retried_of_not hnone hi hP fun j hj a ha =>
    h j a (by omega) ha fun l hl => hP l (by omega)

end

/-! ### How the loop ends -/

section

variable (h : Retried attempt as i) (ha : as[i]? = some a) (hi : i < limit)
include h ha hi

/-- The loop ends at the first input that is not retried. -/
theorem loop_eq_of_retried :
    loop attempt limit 0 as = loop attempt limit i (a :: as.drop (i + 1)) := by
  obtain ⟨hlt, rfl⟩ := List.getElem?_eq_some_iff.mp ha
  rw [loop_of_retried h (by omega), Nat.zero_add, List.getElem_cons_drop]

theorem loop_eq_accepted (hb : attempt a = .ok (some b)) :
    loop attempt limit 0 as = .accepted b (i + 1) := by
  rw [loop_eq_of_retried h ha hi, loop, if_pos hi, hb]

theorem loop_eq_failed (he : attempt a = .error e) :
    loop attempt limit 0 as = .failed e (i + 1) := by
  rw [loop_eq_of_retried h ha hi, loop, if_pos hi, he]

end

theorem loop_eq_exhausted (h : Retried attempt as limit) :
    loop attempt limit 0 as = .exhausted limit := by
  rw [loop_of_retried h (by omega), Nat.zero_add]
  cases as.drop limit <;> rw [loop, if_neg (Nat.lt_irrefl _)]

theorem loop_eq_blocked (h : Retried attempt as as.length) (hlt : as.length < limit) :
    loop attempt limit 0 as = .blocked (as.length + 1) := by
  rw [loop_of_retried h (by omega), Nat.zero_add, List.drop_length, loop, if_pos hlt]

/-- How the loop over these inputs ends: with this outcome. -/
inductive Ends (attempt : α → Except ε (Option β)) (limit : ℕ) (as : List α) : Outcome ε β → Prop
  | accepted {i : ℕ} {a : α} {b : β} (lt : i < limit) (retried : Retried attempt as i)
      (input : as[i]? = some a) (accepts : attempt a = .ok (some b)) :
      Ends attempt limit as (.accepted b (i + 1))
  | failed {i : ℕ} {a : α} {e : ε} (lt : i < limit) (retried : Retried attempt as i)
      (input : as[i]? = some a) (fails : attempt a = .error e) :
      Ends attempt limit as (.failed e (i + 1))
  | exhausted (retried : Retried attempt as limit) : Ends attempt limit as (.exhausted limit)
  | blocked (lt : as.length < limit) (retried : Retried attempt as as.length) :
      Ends attempt limit as (.blocked (as.length + 1))

/-- **The loop ends in one of these ways.** -/
theorem ends (attempt : α → Except ε (Option β)) (limit : ℕ) (as : List α) :
    Ends attempt limit as (loop attempt limit 0 as) := by
  rcases cases_retried attempt limit as with ⟨i, a, hi, h, ha, hne⟩ | h | ⟨hlt, h⟩
  · cases hattempt : attempt a with
    | error e =>
      rw [loop_eq_failed h ha hi hattempt]
      exact .failed hi h ha hattempt
    | ok o =>
      cases o with
      | none => exact absurd hattempt hne
      | some b =>
        rw [loop_eq_accepted h ha hi hattempt]
        exact .accepted hi h ha hattempt
  · rw [loop_eq_exhausted h]
    exact .exhausted h
  · rw [loop_eq_blocked h hlt]
    exact .blocked hlt h

/-- **What the loop accepts, and when.** -/
theorem loop_eq_accepted_iff : loop attempt limit 0 as = .accepted b k ↔
    ∃ i a, k = i + 1 ∧ i < limit ∧ Retried attempt as i ∧ as[i]? = some a ∧
      attempt a = .ok (some b) := by
  constructor
  · intro hloop
    have h := ends attempt limit as
    rw [hloop] at h
    cases h with
    | accepted lt retried input accepts => exact ⟨_, _, rfl, lt, retried, input, accepts⟩
  · rintro ⟨i, a, rfl, hi, h, ha, hb⟩
    exact loop_eq_accepted h ha hi hb

/-- The loop waits only if it has attempts left, and all inputs are retried. -/
theorem loop_eq_blocked_iff : loop attempt limit 0 as = .blocked k ↔
    k = as.length + 1 ∧ as.length < limit ∧ Retried attempt as as.length := by
  constructor
  · intro hloop
    have h := ends attempt limit as
    rw [hloop] at h
    cases h with
    | blocked lt retried => exact ⟨rfl, lt, retried⟩
  · rintro ⟨rfl, hlt, h⟩
    exact loop_eq_blocked h hlt

/-! ### Input by input -/

theorem retried_take_iff : Retried attempt (as.take i) i ↔ Retried attempt as i := by
  refine forall_congr' fun j => forall_congr' fun hj => ?_
  rw [List.getElem?_take_of_lt hj]

/-- The loop waits for the input at `i` if all inputs before it are retried. -/
theorem loop_take_eq_blocked_iff (hi : i ≤ as.length) :
    loop attempt limit 0 (as.take i) = .blocked (i + 1) ↔ i < limit ∧ Retried attempt as i := by
  rw [loop_eq_blocked_iff, List.length_take_of_le hi, retried_take_iff]
  exact and_iff_right rfl

/-- **One more input.** There is another attempt, as long as there are attempts left, if and only if
the input is retried. -/
theorem loop_take_succ_iff (h : Retried attempt as i) (hi : i < limit) (ha : as[i]? = some a) :
    loop attempt limit 0 (as.take (i + 1))
        = (if i + 1 < limit then .blocked (i + 2) else .exhausted limit) ↔
      attempt a = .ok none := by
  have hlen := (List.getElem?_eq_some_iff.mp ha).1
  constructor
  · intro hloop
    have hends := ends attempt limit (as.take (i + 1))
    rw [hloop] at hends
    have hlast : Retried attempt as (i + 1) := by
      split_ifs at hends with hlt
      · rw [if_pos hlt] at hloop
        exact ((loop_take_eq_blocked_iff hlen).mp hloop).2
      · cases hends with
        | exhausted retried => exact retried_take_iff.mp fun j hj => retried j (by omega)
    obtain ⟨a', ha', hretry⟩ := hlast i (Nat.lt_succ_self i)
    obtain rfl : a' = a := Option.some.inj (ha'.symm.trans ha)
    exact hretry
  · intro hretry
    have hlast := h.succ ha hretry
    split_ifs with hlt
    · exact (loop_take_eq_blocked_iff hlen).mpr ⟨hlt, hlast⟩
    · obtain rfl : limit = i + 1 := by omega
      exact loop_eq_exhausted (retried_take_iff.mpr hlast)

end Retry
