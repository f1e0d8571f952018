import Comp4320.Lib.System
import Mathlib.Data.Finset.Insert

/-!
# Clients that share a server

A server answers one request at a time and keeps a state of its own from each to the next, so what
it answers may depend on what it was asked before, and by whom. Its clients ask one question at a
time and wait for the answer. Who moves, and in which order the server is reached, is up to the run;
a request or a reply may be lost, and then the client waits for good.

There are requests the server answers by a function `f` of the request alone, whatever its state. A
client that asks for nothing else does not notice that it shares the server: it is never in a state
that it would not be in if its questions were answered by `f`. What the other clients ask does not
matter, as long as they leave the server running.

## Main definitions

* `Asker`, `Asker.Alone` — a client, and the states it comes to on its own
* `Shared`, `shared` — the clients and the server, and the runs they make
* `Shared.Answers` — the requests that are answered by a function
* `Guest`, `hosting` — clients of one kind among others, who send what they like

## Main results

* `Shared.alone_of_reachable` — in every run, a client does what it does on its own
* `Shared.done_of_quiet` — a client stops when it is done, or has lost a message
* `Shared.steps_lt`, `Shared.exists_done` — and it does stop, whatever the others do
* `Shared.own_of_reachable`, `Shared.exists_own_done` — the same for clients among others
-/

variable {ι σ γ α β : Type*}

/-- A client that asks and waits. -/
structure Asker (γ α β : Type*) where
  /-- The request it sends next, if it is not done. -/
  ask : γ → Option α
  /-- What it makes of the reply. -/
  hear : γ → β → γ

namespace Asker

/-- The states a client comes to if all its requests are answered by `f`. -/
inductive Alone (c : Asker γ α β) (f : α → β) (start : γ) : γ → Prop
  | start : Alone c f start start
  | round {g : γ} {a : α} (alone : Alone c f start g) (asks : c.ask g = some a) :
      Alone c f start (c.hear g (f a))

/-- A property that answers preserve holds of every state a client comes to on its own. -/
theorem Alone.invariant {c : Asker γ α β} {f : α → β} {start g : γ} {I : γ → Prop}
    (h : c.Alone f start g) (hstart : I start)
    (hround : ∀ g a, I g → c.ask g = some a → I (c.hear g (f a))) : I g := by
  induction h with
  | start => exact hstart
  | round _ asks ih => exact hround _ _ ih asks

end Asker

/-- Where a client is with its request. -/
inductive Way (α β : Type*)
  | ready
  /-- The request is on its way to the server. -/
  | request (a : α)
  /-- The reply is on its way back. -/
  | reply (b : β)
  /-- Either has been lost. -/
  | lost

/-- How many steps are left of a round. -/
def Way.steps : Way α β → ℕ
  | .ready => 3
  | .request _ => 2
  | .reply _ => 1
  | .lost => 0

/-- The server, its clients, and the messages between them. -/
structure Shared (ι σ γ α β : Type*) where
  /-- The state of the server, if no request has ended it. -/
  server : Option σ
  client : ι → γ
  way : ι → Way α β

/-- What happens next. -/
inductive Turn (ι : Type*)
  /-- A client sends a request. -/
  | ask (i : ι)
  /-- The server receives it, and replies. -/
  | serve (i : ι)
  /-- The client receives the reply. -/
  | hear (i : ι)
  /-- The network loses the request, or the reply. -/
  | lose (i : ι)

/-- Whose turn it is. -/
def Turn.client : Turn ι → ι
  | .ask i | .serve i | .hear i | .lose i => i

namespace Shared

variable [DecidableEq ι]

/-- One step of the server, of a client or of the network. A request the server cannot answer ends
it. -/
def step (serve : σ → α → Option (σ × β)) (c : ι → Asker γ α β) (s : Shared ι σ γ α β) :
    Turn ι → Option (Shared ι σ γ α β)
  | .ask i =>
    match s.way i, (c i).ask (s.client i) with
    | .ready, some a => some { s with way := Function.update s.way i (.request a) }
    | _, _ => none
  | .serve i =>
    match s.server, s.way i with
    | some x, .request a =>
      match serve x a with
      | some (x', b) => some { s with
          server := some x', way := Function.update s.way i (.reply b) }
      | none => some { s with server := none, way := Function.update s.way i .lost }
    | _, _ => none
  | .hear i =>
    match s.way i with
    | .reply b => some { s with
        client := Function.update s.client i ((c i).hear (s.client i) b)
        way := Function.update s.way i .ready }
    | _ => none
  | .lose i =>
    match s.way i with
    | .request _ | .reply _ => some { s with way := Function.update s.way i .lost }
    | _ => none

end Shared

/-- The runs: the server is in any state, and the clients have not asked for anything. -/
def shared [DecidableEq ι] (serve : σ → α → Option (σ × β)) (c : ι → Asker γ α β) (start : ι → γ) :
    System (Shared ι σ γ α β) (Turn ι) where
  init := fun s => s.server.isSome ∧ s.client = start ∧ ∀ i, s.way i = .ready
  step := Shared.step serve c

namespace Shared

variable [DecidableEq ι] {serve : σ → α → Option (σ × β)} {c : ι → Asker γ α β} {start : ι → γ}
  {s s' : Shared ι σ γ α β} {i : ι}

/-- The requests that satisfy `P` are answered by `f`, whatever state the server is in. -/
def Answers (serve : σ → α → Option (σ × β)) (P : α → Prop) (f : α → β) : Prop :=
  ∀ x a, P a → ∃ x', serve x a = some (x', f a)

/-- Nothing of these clients is lost. -/
def Keeps (K : Finset ι) (_ : Shared ι σ γ α β) (e : Turn ι) : Prop := ∀ i ∈ K, e ≠ .lose i

/-- A step of one of these clients, or of the server for one. -/
def Own (K : Finset ι) (_ : Shared ι σ γ α β) (e : Turn ι) : Prop :=
  e.client ∈ K ∧ ∀ i, e ≠ .lose i

/-- What a step does. -/
inductive Took (serve : σ → α → Option (σ × β)) (c : ι → Asker γ α β) (s : Shared ι σ γ α β) :
    Turn ι → Shared ι σ γ α β → Prop
  | ask {i : ι} {a : α} (ready : s.way i = .ready) (asks : (c i).ask (s.client i) = some a) :
      Took serve c s (.ask i) { s with way := Function.update s.way i (.request a) }
  | serve {i : ι} {x x' : σ} {a : α} {b : β} (alive : s.server = some x)
      (request : s.way i = .request a) (answers : serve x a = some (x', b)) :
      Took serve c s (.serve i)
        { s with server := some x', way := Function.update s.way i (.reply b) }
  | ended {i : ι} {x : σ} {a : α} (alive : s.server = some x) (request : s.way i = .request a)
      (fails : serve x a = none) :
      Took serve c s (.serve i) { s with server := none, way := Function.update s.way i .lost }
  | hear {i : ι} {b : β} (reply : s.way i = .reply b) :
      Took serve c s (.hear i) { s with
        client := Function.update s.client i ((c i).hear (s.client i) b)
        way := Function.update s.way i .ready }
  | lose {i : ι} (waits : 0 < (s.way i).steps) :
      Took serve c s (.lose i) { s with way := Function.update s.way i .lost }

theorem took_of_step {e : Turn ι} (h : (shared serve c start).step s e = some s') :
    Took serve c s e s' := by
  change s.step serve c e = some s' at h
  cases e with
  | ask i =>
    rw [step] at h
    split at h
    · rename_i a hway hask
      obtain rfl := Option.some.inj h
      exact .ask hway hask
    · exact absurd h (by simp)
  | serve i =>
    rw [step] at h
    split at h
    · rename_i x a hserver hway
      split at h
      · rename_i x' b hserve
        obtain rfl := Option.some.inj h
        exact .serve hserver hway hserve
      · rename_i hserve
        obtain rfl := Option.some.inj h
        exact .ended hserver hway hserve
    · exact absurd h (by simp)
  | hear i =>
    rw [step] at h
    split at h
    · rename_i b hway
      obtain rfl := Option.some.inj h
      exact .hear hway
    · exact absurd h (by simp)
  | lose i =>
    rw [step] at h
    split at h
    · rename_i a hway
      obtain rfl := Option.some.inj h
      exact .lose (by rw [hway]; exact Nat.succ_pos _)
    · rename_i b hway
      obtain rfl := Option.some.inj h
      exact .lose (by rw [hway]; exact Nat.succ_pos _)
    · exact absurd h (by simp)

/-- What a step does to a client: nothing, unless it is the client's own, or the server's for it. -/
inductive Moved (serve : σ → α → Option (σ × β)) (c : Asker γ α β) (e : Turn ι) (i : ι) (g : γ) :
    Way α β → γ → Way α β → Prop
  | stays (w : Way α β) : Moved serve c e i g w g w
  | asks {a : α} (asks : c.ask g = some a) : Moved serve c e i g .ready g (.request a)
  | served {x x' : σ} {a : α} {b : β} (answers : serve x a = some (x', b)) :
      Moved serve c e i g (.request a) g (.reply b)
  | failed {x : σ} {a : α} (fails : serve x a = none) : Moved serve c e i g (.request a) g .lost
  | hears (b : β) : Moved serve c e i g (.reply b) (c.hear g b) .ready
  | loses (w : Way α β) (loses : e = .lose i) : Moved serve c e i g w g .lost

theorem Took.moved {e : Turn ι} (h : Took serve c s e s') (i : ι) :
    Moved serve (c i) e i (s.client i) (s.way i) (s'.client i) (s'.way i) := by
  have hother : ∀ {j : ι}, i ≠ j → ∀ w : Way α β,
      Moved serve (c i) e i (s.client i) (s.way i) (s.client i) (Function.update s.way j w i) := by
    intro j hj w
    rw [Function.update_of_ne hj]
    exact .stays _
  cases h with
  | @ask j a ready asks =>
    by_cases hj : i = j
    · subst hj
      dsimp only
      rw [Function.update_self, ready]
      exact .asks asks
    · exact hother hj _
  | @serve j x x' a b alive request answers =>
    by_cases hj : i = j
    · subst hj
      dsimp only
      rw [Function.update_self, request]
      exact .served answers
    · exact hother hj _
  | @ended j x a alive request fails =>
    by_cases hj : i = j
    · subst hj
      dsimp only
      rw [Function.update_self, request]
      exact .failed fails
    · exact hother hj _
  | @hear j b reply =>
    by_cases hj : i = j
    · subst hj
      dsimp only
      rw [Function.update_self, Function.update_self, reply]
      exact .hears b
    · dsimp only
      rw [Function.update_of_ne hj]
      exact hother hj _
  | @lose j waits =>
    by_cases hj : i = j
    · subst hj
      dsimp only
      rw [Function.update_self]
      exact .loses _ rfl
    · exact hother hj _

/-! ### A client on its own -/

/-- What is so of a client and its message if its requests are answered by `f`. -/
structure Solo (c : Asker γ α β) (f : α → β) (start g : γ) (w : Way α β) : Prop where
  alone : c.Alone f start g
  request : ∀ a, w = .request a → c.ask g = some a
  reply : ∀ b, w = .reply b → ∃ a, c.ask g = some a ∧ b = f a

variable {P : α → Prop} {f : α → β}

omit [DecidableEq ι] in
theorem Solo.moved {c : Asker γ α β} {start g g' : γ} {w w' : Way α β} {e : Turn ι}
    (hanswers : Answers serve P f) (hP : ∀ g, c.Alone f start g → ∀ a, c.ask g = some a → P a)
    (h : Solo c f start g w) (hmoved : Moved serve c e i g w g' w') : Solo c f start g' w' := by
  cases hmoved with
  | stays => exact h
  | @asks a asks =>
    refine ⟨h.alone, fun a' ha' => ?_, fun b hb => absurd hb (by simp)⟩
    rwa [← Way.request.inj ha']
  | @served x x' a b answers =>
    have hask := h.request a rfl
    obtain ⟨x'', hserve⟩ := hanswers x a (hP _ h.alone a hask)
    have hb : b = f a := by
      rw [answers] at hserve
      exact congrArg Prod.snd (Option.some.inj hserve)
    refine ⟨h.alone, fun a' ha' => absurd ha' (by simp), fun b' hb' => ⟨a, hask, ?_⟩⟩
    rwa [← Way.reply.inj hb']
  | hears b =>
    obtain ⟨a, hask, rfl⟩ := h.reply b rfl
    exact ⟨h.alone.round hask, by simp, by simp⟩
  | failed | loses => exact ⟨h.alone, by simp, by simp⟩

/-- **In every run, a client whose requests are answered by `f` does what it does on its own.** -/
theorem alone_of_reachable (hanswers : Answers serve P f)
    (hP : ∀ g, (c i).Alone f (start i) g → ∀ a, (c i).ask g = some a → P a)
    (h : (shared serve c start).Reachable s) : (c i).Alone f (start i) (s.client i) := by
  have hsolo : Solo (c i) f (start i) (s.client i) (s.way i) := by
    refine h.invariant (I := fun s => Solo (c i) f (start i) (s.client i) (s.way i))
      (fun s hs => ?_) fun s e s' hs _ hstep => hs.moved hanswers hP ((took_of_step hstep).moved i)
    obtain ⟨-, hclient, hway⟩ := hs
    rw [hclient, hway]
    exact ⟨.start, by simp, by simp⟩
  exact hsolo.alone

/-! ### Where runs end -/

/-- What is under way has been asked for. -/
structure Asked (c : Asker γ α β) (g : γ) (w : Way α β) : Prop where
  request : ∀ a, w = .request a → c.ask g = some a
  reply : ∀ b, w = .reply b → (c.ask g).isSome

omit [DecidableEq ι] in
theorem Asked.moved {c : Asker γ α β} {g g' : γ} {w w' : Way α β} {e : Turn ι} (h : Asked c g w)
    (hmoved : Moved serve c e i g w g' w') : Asked c g' w' := by
  cases hmoved with
  | stays => exact h
  | asks asks => exact ⟨fun a' ha' => by rwa [← Way.request.inj ha'], by simp⟩
  | served answers => exact ⟨by simp, fun _ _ => by rw [h.request _ rfl]; rfl⟩
  | failed | hears | loses => exact ⟨by simp, by simp⟩

theorem asked_of_reachable (h : (shared serve c start).Reachable s) (i : ι) :
    Asked (c i) (s.client i) (s.way i) := by
  refine h.invariant (I := fun s => Asked (c i) (s.client i) (s.way i)) (fun s hs => ?_)
    fun s e s' hs _ hstep => hs.moved ((took_of_step hstep).moved i)
  rw [hs.2.2 i]
  exact ⟨by simp, by simp⟩

omit [DecidableEq ι] in
theorem Moved.ne_lost {c : Asker γ α β} {g g' : γ} {w w' : Way α β} {e : Turn ι}
    (h : Moved serve c e i g w g' w') (hw : w ≠ .lost) (hloses : e ≠ .lose i)
    (hserve : ∀ a, w = .request a → ∀ x, serve x a ≠ none) : w' ≠ .lost := by
  cases h with
  | stays => exact hw
  | asks | served | hears => simp
  | @failed x a fails => exact absurd fails (hserve a rfl x)
  | loses w loses => exact absurd loses hloses

section

variable (hserve : ∀ s i a, (shared serve c start).Reachable s → (c i).ask (s.client i) = some a →
  ∀ x, serve x a ≠ none)
include hserve

/-- **The server keeps running** if nobody asks for what ends it. -/
theorem isSome_server (h : (shared serve c start).Reachable s) : s.server.isSome := by
  induction h with
  | init hs => exact hs.1
  | @step s s' e hs _ hstep ih =>
    cases took_of_step hstep with
    | ask | hear | lose => exact ih
    | serve => rfl
    | @ended i x a alive request fails =>
      exact absurd fails (hserve s i a hs ((asked_of_reachable hs i).request a request) x)

/-- If nothing of a client is lost and the server keeps running, it does not wait for good. -/
theorem ne_lost {K : Finset ι} (hi : i ∈ K)
    (h : (shared serve c start).ReachableUnder (Keeps K) s) :
    s.way i ≠ .lost := by
  induction h with
  | init hs =>
    rw [hs.2.2 i]
    simp
  | @step s s' e hs hC hstep ih =>
    have hasked := asked_of_reachable hs.reachable i
    exact ((took_of_step hstep).moved i).ne_lost ih (hC i hi)
      fun a ha => hserve s i a hs.reachable (hasked.request a ha)

end

/-- **A client stops when it is done**, or has lost a message. -/
theorem done_of_quiet (hserver : s.server.isSome)
    (hquiet : (shared serve c start).Quiet (Own {i}) s) :
    s.way i = .lost ∨ (c i).ask (s.client i) = none := by
  obtain ⟨x, hx⟩ := Option.isSome_iff_exists.mp hserver
  cases hway : s.way i with
  | lost => exact Or.inl rfl
  | ready =>
    right
    have hnone : s.step serve c (.ask i) = none := hquiet (.ask i) (by simp [Own, Turn.client])
    cases hask : (c i).ask (s.client i) with
    | none => rfl
    | some a => exact absurd hnone (by simp [step, hway, hask])
  | request a =>
    have hnone : s.step serve c (.serve i) = none :=
      hquiet (.serve i) (by simp [Own, Turn.client])
    cases hserve : serve x a with
    | none => exact absurd hnone (by simp [step, hway, hx, hserve])
    | some r => exact absurd hnone (by simp [step, hway, hx, hserve])
  | reply b =>
    have hnone : s.step serve c (.hear i) = none := hquiet (.hear i) (by simp [Own, Turn.client])
    exact absurd hnone (by simp [step, hway])

/-! ### How long a client runs -/

/-- How many steps are left of a client, if `rank` bounds the requests it has left. -/
def steps (rank : γ → ℕ) (i : ι) (s : Shared ι σ γ α β) : ℕ :=
  3 * rank (s.client i) + (s.way i).steps

variable {rank : γ → ℕ}

/-- **A client takes a bounded number of steps** if it makes a bounded number of requests. -/
theorem steps_lt (hrank : ∀ g a b, (c i).ask g = some a → rank ((c i).hear g b) < rank g)
    (h : (shared serve c start).Reachable s) {e : Turn ι} (he : e.client = i)
    (hstep : (shared serve c start).step s e = some s') : s'.steps rank i < s.steps rank i := by
  rw [steps, steps]
  cases took_of_step hstep with
  | @ask j a ready asks =>
    obtain rfl : j = i := he
    dsimp only
    rw [Function.update_self, ready]
    simp [Way.steps]
  | @serve j x x' a b alive request answers =>
    obtain rfl : j = i := he
    dsimp only
    rw [Function.update_self, request]
    simp [Way.steps]
  | @ended j x a alive request fails =>
    obtain rfl : j = i := he
    dsimp only
    rw [Function.update_self, request]
    simp [Way.steps]
  | @hear j b reply =>
    obtain rfl : j = i := he
    obtain ⟨a, ha⟩ := Option.isSome_iff_exists.mp ((asked_of_reachable h j).reply b reply)
    have hlt := hrank _ a b ha
    dsimp only
    rw [Function.update_self, Function.update_self, reply, Way.steps, Way.steps]
    omega
  | @lose j waits =>
    obtain rfl : j = i := he
    dsimp only
    rw [Function.update_self]
    exact Nat.add_lt_add_left waits _

/-- The others stay where they are. -/
theorem other_of_step {e : Turn ι} (hi : i ≠ e.client)
    (hstep : (shared serve c start).step s e = some s') :
    s'.client i = s.client i ∧ s'.way i = s.way i := by
  cases took_of_step hstep with
  | ask | serve | ended | lose => exact ⟨rfl, Function.update_of_ne hi ..⟩
  | hear => exact ⟨Function.update_of_ne hi .., Function.update_of_ne hi ..⟩

/-- **Whatever the others have done and will do, clients can come to their ends**, if nothing of
theirs has been lost and nobody asks for what ends the server. -/
theorem exists_done (K : Finset ι)
    (hserve : ∀ s i a, (shared serve c start).Reachable s → (c i).ask (s.client i) = some a →
      ∀ x, serve x a ≠ none)
    (hrank : ∀ i ∈ K, ∀ g a b, (c i).ask g = some a → rank ((c i).hear g b) < rank g)
    (h : (shared serve c start).ReachableUnder (Keeps K) s) :
    ∃ s', (shared serve c start).Leads (Own K) s s' ∧
      ∀ i ∈ K, (c i).ask (s'.client i) = none := by
  suffices hall : ∀ L ⊆ K, ∃ s', (shared serve c start).Leads (Own L) s s' ∧
      ∀ i ∈ L, (c i).ask (s'.client i) = none from hall K subset_rfl
  intro L
  induction L using Finset.induction_on with
  | empty => exact fun _ => ⟨s, .refl, by simp⟩
  | @insert i L hi ih =>
    intro hL
    obtain ⟨t, hleads, hdone⟩ := ih fun j hj => hL (Finset.mem_insert_of_mem hj)
    have hkeeps : ∀ (J : Finset ι) (s : Shared ι σ γ α β) e, Own J s e → Keeps K s e :=
      fun J s e he j _ => he.2 j
    have ht := h.leads (hleads.mono (hkeeps L))
    -- the client that is left comes to its end, and nobody else moves
    obtain ⟨s', hleads', hquiet⟩ := System.exists_leads_quiet_of (C := Own {i})
      (I := (shared serve c start).ReachableUnder (Keeps K))
      (fun s e s' hs he hstep => hs.step (hkeeps {i} s e he) hstep)
      (fun s e s' hs he hstep => steps_lt (hrank i (hL (Finset.mem_insert_self i L))) hs.reachable
        (Finset.mem_singleton.mp he.1) hstep) ht
    have hs' := ht.leads (hleads'.mono (hkeeps {i}))
    have hsame : ∀ j ∈ L, s'.client j = t.client j := by
      intro j hj
      have hne : j ≠ i := fun heq => hi (heq ▸ hj)
      refine hleads'.preserves (I := fun s => s.client j = t.client j) (fun s e u hs he hstep => ?_)
        rfl
      exact (other_of_step (by rw [Finset.mem_singleton.mp he.1]; exact hne) hstep).1.trans hs
    refine ⟨s', (hleads.mono fun _ _ he => ⟨Finset.mem_insert_of_mem he.1, he.2⟩).trans
      (hleads'.mono fun _ _ he => ⟨Finset.mem_insert.mpr (Or.inl (Finset.mem_singleton.mp he.1)),
        he.2⟩), fun j hj => ?_⟩
    rcases Finset.mem_insert.mp hj with rfl | hj
    · exact (done_of_quiet (isSome_server hserve hs'.reachable) hquiet).resolve_left
        (ne_lost hserve (hL (Finset.mem_insert_self _ L)) hs')
    · rw [hsame j hj]
      exact hdone j hj

end Shared

/-! ### Guests -/

/-- Who asks the server: a client that starts here, or somebody else, who sends what it likes, if
anything, having received these replies. -/
inductive Guest (γ α β : Type*)
  | own (start : γ)
  | other (next : List β → Option α)

namespace Guest

/-- What is known of a guest at the start. -/
def start : Guest γ α β → γ ⊕ List β
  | .own start => .inl start
  | .other _ => .inr []

/-- A client does what `c` does. -/
def asker (c : Asker γ α β) : Guest γ α β → Asker (γ ⊕ List β) α β
  | .own _ => ⟨Sum.elim c.ask fun _ => none, fun g b => g.map (c.hear · b) (· ++ [b])⟩
  | .other next => ⟨Sum.elim (fun _ => none) next, fun g b => g.map (c.hear · b) (· ++ [b])⟩

end Guest

/-- The runs of a server and its guests. -/
def hosting [DecidableEq ι] (serve : σ → α → Option (σ × β)) (c : Asker γ α β)
    (guests : ι → Guest γ α β) : System (Shared ι σ (γ ⊕ List β) α β) (Turn ι) :=
  shared serve (fun i => (guests i).asker c) fun i => (guests i).start

namespace Shared

variable [DecidableEq ι] {serve : σ → α → Option (σ × β)} {c : Asker γ α β}
  {guests : ι → Guest γ α β} {s : Shared ι σ (γ ⊕ List β) α β} {i : ι} {P : α → Prop} {f : α → β}
  {start : γ}

theorem alone_own {g : γ ⊕ List β}
    (h : ((Guest.own start).asker c).Alone f (Guest.own start : Guest γ α β).start g) :
    ∃ g', g = .inl g' ∧ c.Alone f start g' := by
  refine h.invariant (I := fun g => ∃ g', g = .inl g' ∧ c.Alone f start g') ⟨start, rfl, .start⟩ ?_
  rintro _ a ⟨g, rfl, halone⟩ hask
  exact ⟨c.hear g (f a), rfl, halone.round hask⟩

/-- **A client whose requests are answered by `f` does not notice the other guests.** -/
theorem own_of_reachable (hanswers : Answers serve P f) (hi : guests i = .own start)
    (hP : ∀ g, c.Alone f start g → ∀ a, c.ask g = some a → P a)
    (h : (hosting serve c guests).Reachable s) :
    ∃ g, s.client i = .inl g ∧ c.Alone f start g := by
  have halone := alone_of_reachable (i := i) hanswers (fun g halone a hask => ?_) h
  · rw [hi] at halone
    exact alone_own halone
  · rw [hi] at halone hask
    obtain ⟨g, rfl, hg⟩ := alone_own halone
    exact hP g hg a hask

/-- **Whatever the other guests do, clients can come to their ends.** -/
theorem exists_own_done {rank : γ → ℕ} (K : Finset ι) (hK : ∀ i ∈ K, ∃ start, guests i = .own start)
    (hanswers : Answers serve P f)
    (hP : ∀ i start, guests i = .own start → ∀ g, c.Alone f start g → ∀ a, c.ask g = some a → P a)
    (hothers : ∀ i next, guests i = .other next → ∀ received a, next received = some a →
      ∀ x, serve x a ≠ none)
    (hrank : ∀ g a b, c.ask g = some a → rank (c.hear g b) < rank g)
    (h : (hosting serve c guests).ReachableUnder (Keeps K) s) :
    ∃ s', (hosting serve c guests).Leads (Own K) s s' ∧
      ∀ i ∈ K, ∃ g, s'.client i = .inl g ∧ c.ask g = none := by
  have hserve : ∀ s i a, (hosting serve c guests).Reachable s →
      ((guests i).asker c).ask (s.client i) = some a → ∀ x, serve x a ≠ none := by
    intro s i a hs hask x
    cases hi : guests i with
    | own start =>
      obtain ⟨g, hg, halone⟩ := own_of_reachable hanswers hi (hP i start hi) hs
      rw [hi, hg] at hask
      obtain ⟨x', hx'⟩ := hanswers x a (hP i start hi g halone a hask)
      rw [hx']
      exact Option.some_ne_none _
    | other next =>
      rw [hi] at hask
      cases hclient : s.client i with
      | inl g =>
        rw [hclient] at hask
        exact absurd hask (by simp [Guest.asker])
      | inr received =>
        rw [hclient] at hask
        exact hothers i next hi received a hask x
  have hrank' : ∀ i ∈ K, ∀ g a b, ((guests i).asker c).ask g = some a →
      Sum.elim rank (fun _ => 0) (((guests i).asker c).hear g b)
        < Sum.elim rank (fun _ => 0) g := by
    intro i hi g a b hask
    obtain ⟨start, hstart⟩ := hK i hi
    rw [hstart] at hask ⊢
    cases g with
    | inl g => exact hrank g a b hask
    | inr received => exact absurd hask (by simp [Guest.asker])
  obtain ⟨s', hleads, hdone⟩ := exists_done K hserve hrank' h
  refine ⟨s', hleads, fun i hi => ?_⟩
  have hs' := h.leads (hleads.mono fun _ _ he i _ => he.2 i)
  obtain ⟨start, hstart⟩ := hK i hi
  obtain ⟨g, hg, -⟩ := own_of_reachable hanswers hstart (hP i start hstart) hs'.reachable
  have hnone := hdone i hi
  rw [hstart, hg] at hnone
  exact ⟨g, hg, hnone⟩

end Shared
