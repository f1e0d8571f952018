import Mathlib.Data.List.Basic
import Mathlib.Logic.Relation

/-!
# Transition systems

A system is a set of initial states and a guarded step: `step s e` is the state after event `e`,
or `none` when `e` is not enabled. Everything nondeterministic (which message arrives, what a
user types, who moves) is in the choice of the event, so a statement about every run is a
statement about every list of events.

An assumption on a run is a predicate on its steps. `ReachableUnder C` are the states reached by
runs all of whose steps meet `C`, and `Reachable` is the case of no assumption, so one induction
principle, `ReachableUnder.invariant`, serves both.

What a run must come to is a matter of the states in which no step that meets the assumption is
enabled. Where every step decreases a measure there is no way around them: a run is no longer than
the measure of the state it starts from, and from every state such a state can be reached.

## Main definitions

* `System`, `System.run` — a system, and the replay of a list of events
* `System.ReachableUnder`, `System.Reachable` — reachable states
* `System.restrict` — the system in which only the steps that meet an assumption are enabled
* `System.Leads`, `System.Quiet` — what can be reached from a state, and where runs end

## Main results

* `System.ReachableUnder.invariant` — an inductive invariant holds of every reachable state
* `System.ReachableUnder.map` — a refinement mapping takes reachable states to reachable states
* `System.reachableUnder_of_run` — a replay whose steps meet `C` ends in a state reachable under `C`
* `System.of_run` — what every step counts, a run adds up
* `System.length_add_le`, `System.exists_leads_quiet` — runs that decrease a measure end
* `System.exists_run_of_length` — runs that can always go on do not
-/

/-- Initial states and a guarded step function. -/
structure System (σ ε : Type*) where
  /-- Where a run may start. -/
  init : σ → Prop
  /-- The state after an event, if the event is enabled. -/
  step : σ → ε → Option σ

namespace System

variable {σ ε : Type*} (M : System σ ε)

/-- Replay a list of events. -/
def run (s : σ) (es : List ε) : Option σ := es.foldlM M.step s

/-- States reached by runs all of whose steps meet `C`. -/
inductive ReachableUnder (C : σ → ε → Prop) : σ → Prop
  | init {s : σ} : M.init s → ReachableUnder C s
  | step {s s' : σ} {e : ε} : ReachableUnder C s → C s e → M.step s e = some s' →
      ReachableUnder C s'

/-- States reached by any run. -/
def Reachable : σ → Prop := M.ReachableUnder fun _ _ => True

variable {M}

/-- **An inductive invariant holds of every reachable state.** -/
theorem ReachableUnder.invariant {C : σ → ε → Prop} {I : σ → Prop} (hinit : ∀ s, M.init s → I s)
    (hstep : ∀ s e s', I s → C s e → M.step s e = some s' → I s') {s : σ}
    (h : M.ReachableUnder C s) : I s := by
  induction h with
  | init h => exact hinit _ h
  | step _ hC hs ih => exact hstep _ _ _ ih hC hs

/-- Dropping an assumption keeps every reachable state. -/
theorem ReachableUnder.mono {C D : σ → ε → Prop} (hCD : ∀ s e, C s e → D s e) {s : σ}
    (h : M.ReachableUnder C s) : M.ReachableUnder D s := by
  induction h with
  | init h => exact .init h
  | step _ hC hs ih => exact .step ih (hCD _ _ hC) hs

theorem ReachableUnder.reachable {C : σ → ε → Prop} {s : σ} (h : M.ReachableUnder C s) :
    M.Reachable s :=
  h.mono fun _ _ _ => trivial

/-- The system in which the steps that do not meet `C` are disabled. -/
def restrict (M : System σ ε) (C : σ → ε → Prop) [∀ s e, Decidable (C s e)] : System σ ε where
  init := M.init
  step := fun s e => if C s e then M.step s e else none

theorem restrict_true : (M.restrict fun _ _ => True) = M := by
  simp [restrict]

theorem run_cons (s : σ) (e : ε) (es : List ε) :
    M.run s (e :: es) = (M.step s e).bind fun s' => M.run s' es := List.foldlM_cons ..

/-- **A replay whose steps all meet `C` ends in a state reachable under `C`.** -/
theorem reachableUnder_of_run {C : σ → ε → Prop} [∀ s e, Decidable (C s e)] {s s' : σ}
    {es : List ε} (hs : M.ReachableUnder C s) (h : (M.restrict C).run s es = some s') :
    M.ReachableUnder C s' := by
  induction es generalizing s with
  | nil => exact Option.some.inj h ▸ hs
  | cons e es ih =>
    rw [run_cons] at h
    obtain ⟨t, ht, hrun⟩ := Option.bind_eq_some_iff.mp h
    obtain ⟨hC, ht⟩ := Option.ite_none_right_eq_some.mp ht
    exact ih (hs.step hC ht) hrun

/-- A replay ends in a reachable state. -/
theorem reachable_of_run {s s' : σ} {es : List ε} (hs : M.Reachable s)
    (h : M.run s es = some s') : M.Reachable s' :=
  reachableUnder_of_run (C := fun _ _ => True) hs (by rwa [restrict_true])

/-! ### Refinement -/

/-- **A refinement mapping takes reachable states to reachable states.** Each step is matched by one
step of the other system, or by none. -/
theorem ReachableUnder.map {τ δ : Type*} {N : System τ δ} {C : σ → ε → Prop} {D : τ → δ → Prop}
    (f : σ → τ) (hinit : ∀ s, M.init s → N.init (f s))
    (hstep : ∀ s e s', M.ReachableUnder C s → C s e → M.step s e = some s' →
      f s' = f s ∨ ∃ d, D (f s) d ∧ N.step (f s) d = some (f s')) {s : σ}
    (h : M.ReachableUnder C s) : N.ReachableUnder D (f s) := by
  induction h with
  | init h => exact .init (hinit _ h)
  | step hs hC he ih =>
    rcases hstep _ _ _ hs hC he with heq | ⟨d, hD, hd⟩
    · rwa [heq]
    · exact ih.step hD hd

/-! ### Where runs end -/

/-- A state is reached from another by steps that meet `C`. -/
def Leads (M : System σ ε) (C : σ → ε → Prop) : σ → σ → Prop :=
  Relation.ReflTransGen fun s s' => ∃ e, C s e ∧ M.step s e = some s'

/-- No step that meets `C` is enabled. -/
def Quiet (M : System σ ε) (C : σ → ε → Prop) (s : σ) : Prop := ∀ e, C s e → M.step s e = none

theorem ReachableUnder.leads {C : σ → ε → Prop} {s s' : σ} (hs : M.ReachableUnder C s)
    (h : M.Leads C s s') : M.ReachableUnder C s' := by
  induction h with
  | refl => exact hs
  | tail _ hstep ih =>
    obtain ⟨e, hC, he⟩ := hstep
    exact ih.step hC he

theorem Leads.mono {C D : σ → ε → Prop} (hCD : ∀ s e, C s e → D s e) {s s' : σ}
    (h : M.Leads C s s') : M.Leads D s s' := by
  induction h with
  | refl => exact .refl
  | tail _ hlast ih =>
    obtain ⟨e, hC, he⟩ := hlast
    exact .tail ih ⟨e, hCD _ _ hC, he⟩

theorem leads_of_run {s s' : σ} {es : List ε} (h : M.run s es = some s') :
    M.Leads (fun _ _ => True) s s' := by
  induction es generalizing s with
  | nil => exact Option.some.inj h ▸ .refl
  | cons e es ih =>
    rw [run_cons] at h
    obtain ⟨t, ht, hrun⟩ := Option.bind_eq_some_iff.mp h
    exact .head ⟨e, trivial, ht⟩ (ih hrun)

/-- A property that steps preserve is preserved by runs. -/
theorem Leads.preserves {C : σ → ε → Prop} {I : σ → Prop}
    (hstep : ∀ s e s', I s → C s e → M.step s e = some s' → I s') {s s' : σ} (hs : I s)
    (h : M.Leads C s s') : I s' := by
  induction h with
  | refl => exact hs
  | tail _ hlast ih =>
    obtain ⟨e, hC, he⟩ := hlast
    exact hstep _ _ _ ih hC he

/-- **What every step counts, a run adds up.** -/
theorem of_run {I : ℕ → σ → Prop} (hstep : ∀ n s e s', I n s → M.step s e = some s' → I (n + 1) s')
    {n : ℕ} {s s' : σ} {es : List ε} (hs : I n s) (h : M.run s es = some s') :
    I (n + es.length) s' := by
  induction es generalizing n s with
  | nil => exact Option.some.inj h ▸ hs
  | cons e es ih =>
    rw [run_cons] at h
    obtain ⟨t, ht, hrun⟩ := Option.bind_eq_some_iff.mp h
    rw [List.length_cons, Nat.add_comm es.length, ← Nat.add_assoc]
    exact ih (hstep n s e t hs ht) hrun

/-- **Runs that can always go on are as long as one likes.** -/
theorem exists_run_of_length {I : σ → Prop}
    (hstep : ∀ s, I s → ∃ e s', M.step s e = some s' ∧ I s') {s : σ} (hs : I s) (n : ℕ) :
    ∃ es s', M.run s es = some s' ∧ es.length = n := by
  induction n generalizing s with
  | zero => exact ⟨[], s, rfl, rfl⟩
  | succ n ih =>
    obtain ⟨e, t, ht, hI⟩ := hstep s hs
    obtain ⟨es, s', hrun, hlen⟩ := ih hI
    refine ⟨e :: es, s', ?_, congrArg (· + 1) hlen⟩
    rw [run_cons, ht]
    exact hrun

variable {μ : σ → ℕ}

/-- **A run is no longer than what its steps decrease**, if they meet an assumption, and decrease
the measure where an invariant holds. -/
theorem length_add_le_of {C : σ → ε → Prop} [∀ s e, Decidable (C s e)] {I : σ → Prop}
    (hI : ∀ s e s', I s → C s e → M.step s e = some s' → I s')
    (hμ : ∀ s e s', I s → C s e → M.step s e = some s' → μ s' < μ s) {s s' : σ} {es : List ε}
    (hs : I s) (h : (M.restrict C).run s es = some s') : es.length + μ s' ≤ μ s := by
  induction es generalizing s with
  | nil => exact Option.some.inj h ▸ Nat.le_of_eq (Nat.zero_add _)
  | cons e es ih =>
    rw [run_cons] at h
    obtain ⟨t, ht, hrun⟩ := Option.bind_eq_some_iff.mp h
    obtain ⟨hC, ht⟩ := Option.ite_none_right_eq_some.mp ht
    have hlt := hμ s e t hs hC ht
    have hle := ih (hI s e t hs hC ht) hrun
    rw [List.length_cons]
    omega

theorem length_add_le (hμ : ∀ s e s', M.step s e = some s' → μ s' < μ s) {s s' : σ} {es : List ε}
    (h : M.run s es = some s') : es.length + μ s' ≤ μ s :=
  length_add_le_of (C := fun _ _ => True) (I := fun _ => True) (fun _ _ _ _ _ _ => trivial)
    (fun s e s' _ _ he => hμ s e s' he) trivial (by rwa [restrict_true])

/-- **From every state a quiet one can be reached**, if every step decreases a measure where an
invariant holds. -/
theorem exists_leads_quiet_of {C : σ → ε → Prop} {I : σ → Prop}
    (hI : ∀ s e s', I s → C s e → M.step s e = some s' → I s')
    (hμ : ∀ s e s', I s → C s e → M.step s e = some s' → μ s' < μ s) {s : σ} (hs : I s) :
    ∃ s', M.Leads C s s' ∧ M.Quiet C s' := by
  induction hn : μ s using Nat.strongRecOn generalizing s with
  | ind n ih =>
    by_cases hquiet : M.Quiet C s
    · exact ⟨s, .refl, hquiet⟩
    · simp only [Quiet, not_forall] at hquiet
      obtain ⟨e, hC, hne⟩ := hquiet
      obtain ⟨t, ht⟩ := Option.ne_none_iff_exists'.mp hne
      obtain ⟨s', hs', hquiet'⟩ := ih (μ t) (hn ▸ hμ s e t hs hC ht) (hI s e t hs hC ht) rfl
      exact ⟨s', .head ⟨e, hC, ht⟩ hs', hquiet'⟩

theorem exists_leads_quiet {C : σ → ε → Prop}
    (hμ : ∀ s e s', C s e → M.step s e = some s' → μ s' < μ s) (s : σ) :
    ∃ s', M.Leads C s s' ∧ M.Quiet C s' :=
  exists_leads_quiet_of (I := fun _ => True) (fun _ _ _ _ _ _ => trivial)
    (fun s e s' _ hC he => hμ s e s' hC he) trivial

end System
