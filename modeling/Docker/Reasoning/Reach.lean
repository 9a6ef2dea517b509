import Mathlib.Logic.Basic

/-!
# Reach — runs of a fallible step function and their invariants

A component is a state type `σ`, a type of requests `α` and a step function that either answers
with the next state or stops with a failure `ε` (a panic, a crash).  `runSteps` replays a list of
requests and stops at the first failure.  An invariant that every step keeps, and under which no
step fails, holds after every run and makes every run succeed.  For a step function that always
answers, `foldl_preserved` and `foldl_rel` carry an invariant, and a relation between the first
and the last state, along a run; `foldl_preserved_of_conforms` carries one along a run that keeps to a promise of the
environment (`Conforms`).  Two machines that answer each request give the same answers to every
such run when a relation keeps them in step (`outputs_eq_of_simulation`).
-/

namespace Reasoning.Reach

variable {σ α ε : Type*}

/-- Replay the requests in order; the first failing step ends the run. -/
def runSteps (step : σ → α → Except ε σ) : σ → List α → Except ε σ
  | s, [] => .ok s
  | s, a :: as =>
    match step s a with
    | .ok s' => runSteps step s' as
    | .error e => .error e

@[simp] theorem runSteps_nil (step : σ → α → Except ε σ) (s : σ) :
    runSteps step s [] = .ok s := rfl

theorem runSteps_cons (step : σ → α → Except ε σ) (s : σ) (a : α) (as : List α) :
    runSteps step s (a :: as) =
      match step s a with
      | .ok s' => runSteps step s' as
      | .error e => .error e := rfl

theorem runSteps_cons_ok {step : σ → α → Except ε σ} {s s' : σ} {a : α} (as : List α)
    (h : step s a = .ok s') : runSteps step s (a :: as) = runSteps step s' as := by
  rw [runSteps_cons, h]

section Invariant

variable {step : σ → α → Except ε σ} (Inv : σ → Prop)

/-- An invariant under which every step succeeds and which every step keeps. -/
def Preserved (step : σ → α → Except ε σ) : Prop :=
  ∀ s a, Inv s → ∃ s', step s a = .ok s' ∧ Inv s'

/-- The invariant rule for runs: from a state satisfying a preserved invariant every run
succeeds, and ends in a state satisfying it. -/
theorem runSteps_preserved (hpres : Preserved Inv step) :
    ∀ (s : σ) (as : List α), Inv s → ∃ t, runSteps step s as = .ok t ∧ Inv t
  | s, [], hs => ⟨s, rfl, hs⟩
  | s, a :: as, hs => by
    obtain ⟨s', hstep, hs'⟩ := hpres s a hs
    rw [runSteps_cons_ok as hstep]
    exact runSteps_preserved hpres s' as hs'

end Invariant

/-! ## Steps that always answer -/

section Total

variable (step : σ → α → σ) (Inv : σ → Prop)

/-- The invariant rule for runs of a step function that always answers. -/
theorem foldl_preserved (h : ∀ s a, Inv s → Inv (step s a)) :
    ∀ (as : List α) (s : σ), Inv s → Inv (as.foldl step s)
  | [], _, hs => hs
  | a :: as, s, hs => foldl_preserved h as (step s a) (h s a hs)

/-- A reflexive and transitive relation that each allowed step from a state of the invariant
establishes holds between the start and the end of every run of allowed steps. -/
theorem foldl_rel (R : σ → σ → Prop) (allowed : α → Prop)
    (hinv : ∀ s a, Inv s → Inv (step s a)) (hrefl : ∀ s, R s s)
    (htrans : ∀ s₁ s₂ s₃, R s₁ s₂ → R s₂ s₃ → R s₁ s₃)
    (hstep : ∀ s a, Inv s → allowed a → R s (step s a)) :
    ∀ (as : List α) (s : σ), Inv s → (∀ a ∈ as, allowed a) → R s (as.foldl step s)
  | [], s, _, _ => hrefl s
  | a :: as, s, hs, hall =>
    htrans _ _ _ (hstep s a hs (hall a List.mem_cons_self))
      (foldl_rel R allowed hinv hrefl htrans hstep as (step s a) (hinv s a hs)
        fun b hb => hall b (List.mem_cons_of_mem a hb))

/-- Every request of the run is one that `allowed` lets through in the state it arrives in:
what the component's environment promises about the order of events. -/
def Conforms (allowed : σ → α → Bool) : σ → List α → Bool
  | _, [] => true
  | s, a :: as => allowed s a && Conforms allowed (step s a) as

/-- The invariant rule for runs whose requests the environment's promise `allowed` lets
through. -/
theorem foldl_preserved_of_conforms (allowed : σ → α → Bool)
    (h : ∀ s a, Inv s → allowed s a = true → Inv (step s a)) :
    ∀ (as : List α) (s : σ), Inv s → Conforms step allowed s as = true → Inv (as.foldl step s)
  | [], _, hs, _ => hs
  | a :: as, s, hs, hc => by
    rw [Conforms, Bool.and_eq_true] at hc
    exact foldl_preserved_of_conforms allowed h as (step s a) (h s a hs hc.1) hc.2

end Total

/-! ## Machines that answer each request -/

section Outputs

variable {τ β : Type*}

/-- The answers of a machine to a list of requests. -/
def outputs (step : σ → α → β × σ) : σ → List α → List β
  | _, [] => []
  | s, a :: as => (step s a).1 :: outputs step (step s a).2 as

/-- Two machines that a relation keeps in step, and that answer alike from related states, give
the same answers to every run that the promise `allowed`, judged along the second machine's run,
lets through. -/
theorem outputs_eq_of_simulation (step₁ : σ → α → β × σ) (step₂ : τ → α → β × τ)
    (R : σ → τ → Prop) (allowed : τ → α → Bool)
    (h : ∀ s t a, R s t → allowed t a = true →
      (step₁ s a).1 = (step₂ t a).1 ∧ R (step₁ s a).2 (step₂ t a).2) :
    ∀ (as : List α) (s : σ) (t : τ), R s t →
      Conforms (fun t a => (step₂ t a).2) allowed t as = true →
      outputs step₁ s as = outputs step₂ t as
  | [], _, _, _, _ => rfl
  | a :: as, s, t, hR, hc => by
    rw [Conforms, Bool.and_eq_true] at hc
    obtain ⟨hout, hR'⟩ := h s t a hR hc.1
    rw [outputs, outputs, hout,
      outputs_eq_of_simulation step₁ step₂ R allowed h as _ _ hR' hc.2]

end Outputs

end Reasoning.Reach
