import FairMQ.StateQueue.Machine

namespace FairMQ.StateQueue

open FairMQ.Data

def Emission.newState : Emission → State
  | .stateQueued newState _ => newState
  | .stateChange newState _ => newState

def Emission.lastState : Emission → State
  | .stateQueued _ lastState => lastState
  | .stateChange _ lastState => lastState

def Emission.Real (emission : Emission) : Prop :=
  Follows emission.lastState emission.newState

/-- The locked block of an iteration of `Run`: the machine behind it and `lastState`. -/
def Machine.advance (machine : Machine) : Option (Machine × State) :=
  match machine.fNextStates with
  | [] => none
  | .error :: rest =>
      some ({ machine with fErrorState := .error, fNextStates := rest }, machine.fErrorState)
  | front :: rest =>
      some ({ machine with fState := front, fNextStates := rest }, machine.fState)

/-- The machine and the thread in `Run`: between the locked block and `Emit` it keeps
`lastState`.  The test that ends the loop is left out, as `Run` may be called again. -/
structure Runner where
  machine : Machine
  lastState : Option State
deriving DecidableEq, Repr

inductive RunnerCall where
  | changeState (transition : StateTransition)
  | advance
  | emit
  | reset
deriving DecidableEq, Repr

def Runner.new : Runner := ⟨.new, none⟩

def Runner.step (runner : Runner) : RunnerCall → Option Runner
  | .changeState transition =>
      (runner.machine.step (.changeState transition)).map fun machine => { runner with machine }
  | .advance =>
      match runner.lastState with
      | some _ => none
      | none => runner.machine.advance.map fun advanced => ⟨advanced.1, some advanced.2⟩
  | .emit =>
      runner.lastState.map fun lastState =>
        ⟨runner.machine.emit (.stateChange runner.machine.fState lastState), none⟩
  | .reset => some { runner with machine := runner.machine.reset }

def runnerSystem : TransitionSystem Runner RunnerCall where
  initial runner := runner = .new
  step := Runner.step

theorem Machine.runIteration_eq (machine : Machine) :
    machine.runIteration.map (·.1) =
      machine.advance.map fun advanced =>
        advanced.1.emit (.stateChange advanced.1.fState advanced.2) := by
  obtain ⟨fState, fErrorState, fNextStates, emitted⟩ := machine
  cases fNextStates with
  | nil => rfl
  | cons front rest => cases front <;> rfl

/-- `Run` takes no error off the queue, and no `Reset` comes between its locked block and
`Emit`, unless the block has entered the state that `Reset` sets. -/
def Undisturbed (runner : Runner) : RunnerCall → Prop
  | .advance => runner.machine.fNextStates.head? ≠ some .error
  | .reset => runner.lastState = none ∨ runner.lastState = some .resettingDevice
  | .changeState _ | .emit => True

instance (runner : Runner) (call : RunnerCall) : Decidable (Undisturbed runner call) :=
  match call with
  | .advance => inferInstanceAs (Decidable (_ ≠ _))
  | .reset => inferInstanceAs (Decidable (_ ∨ _))
  | .changeState _ | .emit => isTrue trivial

theorem follows_idle {state : State} : Follows state .idle ↔ state = .resettingDevice := by
  constructor
  · rintro ⟨requested, allowed⟩
    cases state <;> cases requested <;> cases allowed
    rfl
  · rintro rfl
    exact ⟨.automatic, rfl⟩

theorem not_follows_of_errorState {before after : State} (errorState : before.regular = false)
    (regular : after.regular = true) : ¬ Follows before after := by
  rintro ⟨requested, allowed⟩
  cases before <;> cases requested <;> cases allowed <;>
    simp only [State.regular, Bool.true_eq_false, Bool.false_eq_true] at errorState regular

structure Sorted (machine : Machine) : Prop where
  pending : ∃ regulars errors, Pending machine regulars errors
  errorState : machine.fErrorState.regular = false

namespace Sorted

variable {machine after : Machine}

theorem fState_regular (sorted : Sorted machine) : machine.fState.regular = true := by
  obtain ⟨regulars, errors, pending⟩ := sorted.pending
  exact pending.regular _ List.mem_cons_self

theorem emit (sorted : Sorted machine) (emission : Emission) : Sorted (machine.emit emission) := by
  obtain ⟨regulars, errors, pending⟩ := sorted.pending
  exact ⟨⟨regulars, errors, pending.queue, pending.regular, pending.path⟩, sorted.errorState⟩

theorem reset (machine : Machine) : Sorted machine.reset where
  pending := ⟨[], 0, rfl, by simp [Machine.reset, State.regular], List.isChain_singleton _⟩
  errorState := rfl

theorem changeState (sorted : Sorted machine) {requested : StateTransition}
    (stepped : machine.step (.changeState requested) = some after) :
    Sorted after ∧ after.fState = machine.fState ∧
      ∀ emission ∈ after.emitted, emission ∈ machine.emitted ∨ emission.Real := by
  obtain ⟨regulars, errors, pending⟩ := sorted.pending
  cases Machine.step_effect stepped with
  | queued allowed =>
      refine ⟨⟨?_, sorted.errorState⟩, rfl, ?_⟩
      · by_cases regular : requested = .errorFound
        · subst regular
          obtain ⟨_, isError⟩ := transition_errorFound allowed
          subst isError
          exact ⟨regulars, errors + 1, pending.pushError _⟩
        · exact ⟨_, _, (pending.pushRegular regular allowed _).2⟩
      · intro emission member
        cases List.mem_append.mp member with
        | inl old => exact .inl old
        | inr new =>
            rw [List.mem_singleton.mp new]
            exact .inr ⟨requested, allowed⟩
  | rejected => exact ⟨sorted, rfl, fun emission member => .inl member⟩

theorem advance (sorted : Sorted machine) {lastState : State}
    (advanced : machine.advance = some (after, lastState)) :
    Sorted after ∧ after.emitted = machine.emitted ∧
      (Follows lastState after.fState ↔ machine.fNextStates.head? ≠ some .error) := by
  obtain ⟨regulars, errors, pending⟩ := sorted.pending
  unfold Machine.advance at advanced
  split at advanced
  · contradiction
  · rename_i rest queue
    cases advanced
    obtain ⟨none, left, counted, isRest⟩ := pending.frontError queue
    subst none counted isRest
    refine ⟨⟨⟨[], left, rfl, pending.regular, pending.path⟩, rfl⟩, rfl, ?_⟩
    have unreal := not_follows_of_errorState sorted.errorState sorted.fState_regular
    exact iff_of_false unreal (by simp [queue])
  · rename_i front rest noError queue
    cases advanced
    obtain ⟨left, isFront, isRest⟩ := pending.frontRegular queue fun same => noError same
    subst isFront isRest
    have popped := pending.popRegular (.stateChange front machine.fState)
    refine ⟨⟨⟨left, errors, rfl, popped.regular, popped.path⟩, sorted.errorState⟩, rfl, ?_⟩
    have real : Follows machine.fState front := List.isChain_cons_cons.mp pending.path |>.1
    refine iff_of_true real ?_
    intro isError
    rw [queue] at isError
    exact noError (Option.some.inj isError)

end Sorted

structure Truthful (runner : Runner) : Prop where
  sorted : Sorted runner.machine
  emitted : ∀ emission ∈ runner.machine.emitted, emission.Real
  due : ∀ lastState, runner.lastState = some lastState → Follows lastState runner.machine.fState

namespace Truthful

variable {runner after : Runner}

theorem step (truthful : Truthful runner) {call : RunnerCall}
    (undisturbed : Undisturbed runner call) (stepped : runner.step call = some after) :
    Truthful after := by
  cases call with
  | changeState requested =>
      obtain ⟨machine, changed, rfl⟩ := Option.map_eq_some_iff.mp stepped
      obtain ⟨sorted, sameState, reported⟩ := truthful.sorted.changeState changed
      refine ⟨sorted, ?_, ?_⟩
      · intro emission member
        exact (reported emission member).elim (truthful.emitted emission) id
      · intro lastState isLast
        rw [sameState]
        exact truthful.due lastState isLast
  | advance =>
      simp only [Runner.step] at stepped
      split at stepped
      · contradiction
      · obtain ⟨⟨machine, lastState⟩, advanced, rfl⟩ := Option.map_eq_some_iff.mp stepped
        obtain ⟨sorted, sameLog, real⟩ := truthful.sorted.advance advanced
        refine ⟨sorted, sameLog ▸ truthful.emitted, ?_⟩
        rintro _ ⟨⟩
        exact real.mpr undisturbed
  | emit =>
      obtain ⟨lastState, isLast, rfl⟩ := Option.map_eq_some_iff.mp stepped
      refine ⟨truthful.sorted.emit _, ?_, by simp⟩
      intro emission member
      cases List.mem_append.mp member with
      | inl old => exact truthful.emitted emission old
      | inr new =>
          rw [List.mem_singleton.mp new]
          exact truthful.due lastState isLast
  | reset =>
      cases stepped
      refine ⟨.reset _, truthful.emitted, ?_⟩
      intro lastState isLast
      rcases undisturbed with none | last
      · simp [none] at isLast
      · rw [last] at isLast
        cases isLast
        exact follows_idle.mpr rfl

theorem disturbed (truthful : Truthful runner) {call : RunnerCall} {final : Runner}
    (stepped : runner.step call = some after) (disturbed : ¬ Undisturbed runner call)
    (emitted : after.step .emit = some final) :
    ∃ emission ∈ final.machine.emitted, ¬ emission.Real := by
  obtain ⟨lastState, isLast, rfl⟩ := Option.map_eq_some_iff.mp emitted
  refine ⟨.stateChange after.machine.fState lastState, by simp [Machine.emit], ?_⟩
  change ¬ Follows lastState after.machine.fState
  cases call with
  | changeState | emit => exact absurd trivial disturbed
  | advance =>
      simp only [Runner.step] at stepped
      split at stepped
      · contradiction
      · obtain ⟨⟨machine, left⟩, advanced, rfl⟩ := Option.map_eq_some_iff.mp stepped
        cases isLast
        rw [(truthful.sorted.advance advanced).2.2]
        exact disturbed
  | reset =>
      cases stepped
      intro follows
      rw [show runner.machine.reset.fState = .idle from rfl, follows_idle] at follows
      exact disturbed (.inr (follows ▸ isLast))

end Truthful

theorem truthful_of_reaches {runner : Runner}
    (reached : runnerSystem.ReachesUnder Undisturbed runner) : Truthful runner := by
  induction reached with
  | initial start =>
      cases start
      exact ⟨.reset .new, by simp [Runner.new, Machine.new], by simp [Runner.new]⟩
  | step _ undisturbed stepped ih => exact ih.step undisturbed stepped

/-- As long as `Run` is undisturbed, every `StateQueued` and `StateChange` callback is told
about a transition; a step that disturbs it makes the `StateChange` callback that follows
be told about none. -/
theorem notifications_real {runner : Runner}
    (reached : runnerSystem.ReachesUnder Undisturbed runner) :
    (∀ emission ∈ runner.machine.emitted, emission.Real) ∧
    ∀ call after final, runner.step call = some after → ¬ Undisturbed runner call →
      after.step .emit = some final → ∃ emission ∈ final.machine.emitted, ¬ emission.Real :=
  ⟨(truthful_of_reaches reached).emitted, fun _ _ _ stepped disturbed emitted =>
    (truthful_of_reaches reached).disturbed stepped disturbed emitted⟩

theorem initialization_notified :
    ∃ runner : Runner, runnerSystem.ReachesUnder Undisturbed runner ∧
      runner.machine.emitted = [.stateQueued .initializingDevice .idle,
        .stateQueued .deviceReady .initializingDevice, .stateChange .initializingDevice .idle] ∧
      ∀ emission ∈ runner.machine.emitted, emission.Real := by
  obtain ⟨runner, reached, isLog⟩ :
      ∃ runner : Runner, runnerSystem.ReachesUnder Undisturbed runner ∧
        runner.machine.emitted = [.stateQueued .initializingDevice .idle,
          .stateQueued .deviceReady .initializingDevice, .stateChange .initializingDevice .idle] :=
    TransitionSystem.reaches_of_runUnder Runner.new
      [.changeState .initDevice, .advance, .changeState .automatic, .emit] rfl (by decide)
  exact ⟨runner, reached, isLog, (notifications_real reached).1⟩

/-- An idle device finds an error: `Run` tells its callbacks that `Idle` follows `Ok`. -/
theorem error_notified_as_idle :
    ∃ runner : Runner, runnerSystem.Reaches runner ∧
      .stateChange .idle .ok ∈ runner.machine.emitted ∧ ¬ Emission.Real (.stateChange .idle .ok) := by
  obtain ⟨runner, reached, isLog⟩ :
      ∃ runner : Runner, runnerSystem.ReachesUnder (fun _ _ => True) runner ∧
        .stateChange .idle .ok ∈ runner.machine.emitted :=
    TransitionSystem.reaches_of_runUnder Runner.new
      [.changeState .errorFound, .advance, .emit] rfl (by decide)
  exact ⟨runner, reached, isLog, not_follows_of_errorState rfl rfl⟩

end FairMQ.StateQueue
