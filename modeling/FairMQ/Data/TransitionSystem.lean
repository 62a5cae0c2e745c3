import Mathlib.Init

namespace FairMQ.Data

universe u v

/-! # Labelled transition systems with an executable step

A concurrent component is given by its initial states and by a partial step
function: a label names the thread that moves and resolves every choice the
thread has, and `none` says that the thread is blocked or elsewhere.  A run may
be restricted by a condition on the state *before* each step.  Safety over all
interleavings is then an invariant of `ReachesUnder`, and a concrete
interleaving is replayed by `run`. -/

structure TransitionSystem (σ : Type u) (Label : Type v) where
  initial : σ → Prop
  step : σ → Label → Option σ

namespace TransitionSystem

variable {σ : Type u} {Label : Type v} {system : TransitionSystem σ Label}
  {allowed : σ → Label → Prop}

inductive ReachesUnder (system : TransitionSystem σ Label)
    (allowed : σ → Label → Prop) : σ → Prop where
  | initial {state : σ} (start : system.initial state) : system.ReachesUnder allowed state
  | step {before after : σ} {label : Label}
      (reached : system.ReachesUnder allowed before) (permitted : allowed before label)
      (stepped : system.step before label = some after) : system.ReachesUnder allowed after

abbrev Reaches (system : TransitionSystem σ Label) : σ → Prop :=
  system.ReachesUnder fun _ _ => True

def startingAt (system : TransitionSystem σ Label) (state : σ) : TransitionSystem σ Label where
  initial start := start = state
  step := system.step

/-- The invariant rule: what holds initially and survives every permitted step
holds in every state of every permitted run. -/
theorem ReachesUnder.invariant {invariant : σ → Prop}
    (start : ∀ state, system.initial state → invariant state)
    (preserved : ∀ before label after, invariant before → allowed before label →
      system.step before label = some after → invariant after)
    {state : σ} (reached : system.ReachesUnder allowed state) : invariant state := by
  induction reached with
  | initial initially => exact start _ initially
  | step _ permitted stepped ih => exact preserved _ _ _ ih permitted stepped

theorem ReachesUnder.weaken {weaker : σ → Label → Prop}
    (implied : ∀ state label, allowed state label → weaker state label) {state : σ}
    (reached : system.ReachesUnder allowed state) : system.ReachesUnder weaker state := by
  induction reached with
  | initial initially => exact .initial initially
  | step _ permitted stepped ih => exact .step ih (implied _ _ permitted) stepped

/-- The relative invariant rule: a step may use a second invariant that has
already been established for the same runs. -/
theorem ReachesUnder.relative {known invariant : σ → Prop}
    (knownHolds : ∀ state, system.ReachesUnder allowed state → known state)
    (start : ∀ state, system.initial state → invariant state)
    (preserved : ∀ before label after, known before → invariant before →
      allowed before label → system.step before label = some after → invariant after)
    {state : σ} (reached : system.ReachesUnder allowed state) : invariant state := by
  induction reached with
  | initial initially => exact start _ initially
  | step before permitted stepped ih =>
      exact preserved _ _ _ (knownHolds _ before) ih permitted stepped

def runUnder (system : TransitionSystem σ Label) (allowed : σ → Label → Prop)
    [∀ state label, Decidable (allowed state label)] : σ → List Label → Option σ
  | state, [] => some state
  | state, label :: labels =>
      if allowed state label then
        match system.step state label with
        | some after => system.runUnder allowed after labels
        | none => none
      else none

abbrev run (system : TransitionSystem σ Label) : σ → List Label → Option σ :=
  system.runUnder fun _ _ => True

theorem ReachesUnder.runUnder [∀ state label, Decidable (allowed state label)]
    {labels : List Label} {before after : σ}
    (reached : system.ReachesUnder allowed before)
    (replayed : system.runUnder allowed before labels = some after) :
    system.ReachesUnder allowed after := by
  induction labels generalizing before with
  | nil =>
      cases replayed
      exact reached
  | cons label labels ih =>
      simp only [TransitionSystem.runUnder] at replayed
      split at replayed
      · rename_i permitted
        split at replayed
        · rename_i middle stepped
          exact ih (.step reached permitted stepped) replayed
        · contradiction
      · contradiction

theorem length_le_of_falling [∀ state label, Decidable (allowed state label)]
    {carries : Nat → σ → Prop}
    (falls : ∀ {count before label after}, carries count before → allowed before label →
      system.step before label = some after → ∃ less < count, carries less after)
    {count : Nat} {before after : σ} {labels : List Label} (start : carries count before)
    (replayed : system.runUnder allowed before labels = some after) :
    labels.length ≤ count ∧ ∃ less, carries less after := by
  induction labels generalizing count before with
  | nil =>
      cases replayed
      exact ⟨Nat.zero_le _, count, start⟩
  | cons label labels ih =>
      simp only [TransitionSystem.runUnder] at replayed
      split at replayed
      · rename_i permitted
        split at replayed
        · rename_i middle stepped
          obtain ⟨less, lower, carried⟩ := falls start permitted stepped
          obtain ⟨short, last⟩ := ih carried replayed
          exact ⟨Nat.lt_of_le_of_lt short lower, last⟩
        · contradiction
      · contradiction

/-- A replayed run from an initial state that ends in a state with a decidable
property exhibits a reachable state with that property. -/
theorem reaches_of_runUnder [∀ state label, Decidable (allowed state label)]
    (start : σ) (labels : List Label) {property : σ → Prop} [DecidablePred property]
    (initially : system.initial start)
    (replayed : (system.runUnder allowed start labels).any
      (fun state => decide (property state)) = true) :
    ∃ state, system.ReachesUnder allowed state ∧ property state := by
  cases final : system.runUnder allowed start labels with
  | none => simp [final] at replayed
  | some state =>
      refine ⟨state, (ReachesUnder.initial initially).runUnder final, ?_⟩
      simpa [final] using replayed

theorem step_of_runUnder [∀ state label, Decidable (allowed state label)]
    (start : σ) (labels : List Label) {label : Label} {property : σ → σ → Prop}
    [∀ before after, Decidable (property before after)] (initially : system.initial start)
    (replayed : (system.runUnder allowed start labels).any (fun before =>
      (system.step before label).any fun after => decide (property before after)) = true) :
    ∃ before after, system.ReachesUnder allowed before ∧
      system.step before label = some after ∧ property before after := by
  cases final : system.runUnder allowed start labels with
  | none => simp [final] at replayed
  | some before =>
      cases stepped : system.step before label with
      | none => simp [final, stepped] at replayed
      | some after =>
          refine ⟨before, after, (ReachesUnder.initial initially).runUnder final, stepped, ?_⟩
          simpa [final, stepped] using replayed

end TransitionSystem

end FairMQ.Data
