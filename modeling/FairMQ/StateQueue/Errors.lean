import FairMQ.StateQueue.Machine

namespace FairMQ.StateQueue

open FairMQ.Data

def Refuses (machine : Machine) (requested : StateTransition) : Prop :=
  ∃ illegal, (changeState requested).run machine = .error illegal machine

/-- No `Reset`, and no regular transition that `fState` allows is requested once
the error has left the queue. -/
def Unrecovered (machine : Machine) : Call → Prop
  | .changeState requested =>
      requested = .errorFound ∨
        ¬ (machine.fErrorState = .error ∧ machine.fNextStates = [] ∧
          (transition machine.fState requested).isOk = true)
  | .runIteration => True
  | .reset => False

instance (machine : Machine) (call : Call) : Decidable (Unrecovered machine call) :=
  match call with
  | .changeState _ => inferInstanceAs (Decidable (_ ∨ ¬ (_ ∧ _ ∧ _)))
  | .runIteration => .isTrue trivial
  | .reset => .isFalse id

theorem refuses_iff (machine : Machine) (requested : StateTransition) :
    Refuses machine requested ↔
      (transition (machine.lastState requested) requested).isOk = false := by
  unfold Refuses
  rw [changeState_run]
  cases transition (machine.lastState requested) requested with
  | error illegal => simp [Except.isOk, Except.toBool]
  | ok nextState => simp [Except.isOk, Except.toBool]

structure Latched (machine : Machine) (regulars : List State) (errors : Nat) : Prop
    extends Pending machine regulars errors where
  processed : machine.fErrorState = .error → regulars = []
  kept : errors = 0 → machine.fErrorState = .error

namespace Latched

variable {machine : Machine} {regulars : List State} {errors : Nat}

theorem refuses (latched : Latched machine regulars errors) {requested : StateTransition}
    (regular : requested ≠ .errorFound) :
    Refuses machine requested ↔ Unrecovered machine (.changeState requested) := by
  rw [refuses_iff, latched.lastState regular]
  cases errors with
  | zero =>
      have isError := latched.kept rfl
      have entered := latched.processed isError
      subst entered
      have empty : machine.fNextStates = [] := latched.queue
      simp [Unrecovered, regular, isError, empty]
  | succ errors =>
      have queued : machine.fNextStates ≠ [] := by simp [latched.queue, List.replicate_succ]
      have dead : (transition .error requested).isOk = false := by cases requested <;> rfl
      simp [Unrecovered, queued, dead]

theorem step (latched : Latched machine regulars errors) {call : Call} {after : Machine}
    (permitted : Unrecovered machine call) (stepped : machine.step call = some after) :
    (∃ regulars errors, Latched after regulars errors) ∧
      (machine.fErrorState = .error →
        after.fErrorState = .error ∧ after.fState = machine.fState) := by
  cases Machine.step_effect stepped with
  | @queued requested nextState allowed =>
      by_cases regular : requested = .errorFound
      · subst regular
        obtain ⟨_, isError⟩ := transition_errorFound allowed
        subst isError
        refine ⟨⟨regulars, errors + 1, latched.pushError _, latched.processed, ?_⟩, ?_⟩
        · intro none
          exact absurd none (Nat.succ_ne_zero errors)
        · intro isError
          exact ⟨isError, rfl⟩
      · -- a regular transition that passes would have been refused
        have refused := (refuses_iff machine requested).mp ((latched.refuses regular).mpr permitted)
        rw [allowed] at refused
        cases refused
  | rejected =>
      exact ⟨⟨regulars, errors, latched⟩, fun isError => ⟨isError, rfl⟩⟩
  | failed queue =>
      obtain ⟨none, left, counted, isRest⟩ := latched.frontError queue
      subst none counted isRest
      exact ⟨⟨[], left, latched.toPending.popError _, fun _ => rfl, fun _ => rfl⟩,
        fun _ => ⟨rfl, rfl⟩⟩
  | entered queue noError =>
      obtain ⟨left, isFront, isRest⟩ := latched.frontRegular queue noError
      subst isFront isRest
      have unprocessed : machine.fErrorState ≠ .error := by
        intro isError
        cases latched.processed isError
      refine ⟨⟨left, errors, latched.toPending.popRegular _, ?_, latched.kept⟩, ?_⟩
      · intro isError
        exact absurd isError unprocessed
      · intro isError
        exact absurd isError unprocessed
  | reset => cases permitted

end Latched

theorem latched_of_errorFound {before found : Machine} (reached : machineSystem.Reaches before)
    (succeeded : (changeState .errorFound).run before = .ok () found) :
    ∃ regulars errors, Latched found regulars errors := by
  obtain ⟨regulars, errors, pending⟩ := pending_of_reaches reached
  rw [changeState_run] at succeeded
  split at succeeded
  · cases succeeded
  · rename_i nextState allowed
    cases succeeded
    obtain ⟨wasOk, isError⟩ := transition_errorFound allowed
    change before.fErrorState = .ok at wasOk
    subst isError
    refine ⟨regulars, errors + 1, pending.pushError _, ?_, ?_⟩
    · intro isError
      change before.fErrorState = .error at isError
      rw [wasOk] at isError
      cases isError
    · intro none
      exact absurd none (Nat.succ_ne_zero errors)

theorem latched_of_later {found machine : Machine}
    (latched : ∃ regulars errors, Latched found regulars errors)
    (later : (machineSystem.startingAt found).ReachesUnder Unrecovered machine) :
    ∃ regulars errors, Latched machine regulars errors := by
  induction later with
  | initial start =>
      cases start
      exact latched
  | step _ permitted stepped ih =>
      obtain ⟨regulars, errors, before⟩ := ih
      exact (before.step permitted stepped).1

theorem fState_frozen {machine after : Machine}
    (latched : ∃ regulars errors, Latched machine regulars errors)
    (processed : machine.fErrorState = .error)
    (later : (machineSystem.startingAt machine).ReachesUnder Unrecovered after) :
    after.fErrorState = .error ∧ after.fState = machine.fState := by
  induction later with
  | initial start =>
      cases start
      exact ⟨processed, rfl⟩
  | step reached permitted stepped ih =>
      obtain ⟨regulars, errors, before⟩ := latched_of_later latched reached
      obtain ⟨isError, same⟩ := (before.step permitted stepped).2 ih.1
      exact ⟨isError, same.trans ih.2⟩

/-- After a successful `ErrorFound`, in a run without `Reset` that requests no
transition allowed by `fState` once the error has left the queue: a regular
transition is refused exactly when its request keeps to that condition, and
`fState` never changes again after `fErrorState` has become `Error`. -/
theorem error_is_final {before found machine : Machine}
    (reached : machineSystem.Reaches before)
    (succeeded : (changeState .errorFound).run before = .ok () found)
    (later : (machineSystem.startingAt found).ReachesUnder Unrecovered machine) :
    (∀ requested, requested ≠ .errorFound →
      (Refuses machine requested ↔ Unrecovered machine (.changeState requested))) ∧
    (machine.fErrorState = .error → ∀ after,
      (machineSystem.startingAt machine).ReachesUnder Unrecovered after →
      after.fState = machine.fState) := by
  have latched := latched_of_later (latched_of_errorFound reached succeeded) later
  refine ⟨?_, ?_⟩
  · intro requested regular
    obtain ⟨regulars, errors, latched⟩ := latched
    exact latched.refuses regular
  · intro processed after rest
    exact (fState_frozen latched processed rest).2

def errorQueued : Machine := ⟨.idle, .ok, [.error], [.stateQueued .error .ok]⟩

def errorProcessed : Machine :=
  ⟨.idle, .error, [], [.stateQueued .error .ok, .stateChange .idle .ok]⟩

theorem idle_error_is_final :
    Refuses errorQueued .initDevice ∧ Refuses errorProcessed .initTask ∧
    ∀ after, (machineSystem.startingAt errorProcessed).ReachesUnder Unrecovered after →
      after.fState = .idle := by
  have succeeded : (changeState .errorFound).run .new = .ok () errorQueued := rfl
  have processed : (machineSystem.startingAt errorQueued).ReachesUnder Unrecovered errorProcessed :=
    .step (.initial rfl) (show Unrecovered errorQueued .runIteration from trivial) rfl
  have queuedFinal := error_is_final (.initial rfl) succeeded (.initial rfl)
  have processedFinal := error_is_final (.initial rfl) succeeded processed
  exact ⟨(queuedFinal.1 .initDevice (by decide)).mpr (by decide),
    (processedFinal.1 .initTask (by decide)).mpr (by decide), processedFinal.2 rfl⟩

/-- An idle device that has processed an error accepts `InitDevice` and leaves
`Idle`. -/
theorem processed_error_lets_device_initialize : ∃ found machine after : Machine,
    (changeState .errorFound).run .new = .ok () found ∧
    (machineSystem.startingAt found).ReachesUnder (fun _ call => call ≠ .reset) machine ∧
    machine.fErrorState = .error ∧ ¬ Refuses machine .initDevice ∧
    (machineSystem.startingAt machine).ReachesUnder (fun _ call => call ≠ .reset) after ∧
    after.fState ≠ machine.fState := by
  obtain ⟨machine, processed, isProcessed⟩ : ∃ machine,
      (machineSystem.startingAt errorQueued).ReachesUnder (fun _ call => call ≠ .reset) machine ∧
        machine = errorProcessed :=
    TransitionSystem.reaches_of_runUnder errorQueued [.runIteration] rfl (by decide)
  subst isProcessed
  obtain ⟨after, later, moved⟩ : ∃ after,
      (machineSystem.startingAt errorProcessed).ReachesUnder (fun _ call => call ≠ .reset) after ∧
        after.fState ≠ errorProcessed.fState :=
    TransitionSystem.reaches_of_runUnder errorProcessed [.changeState .initDevice, .runIteration]
      rfl (by decide)
  refine ⟨errorQueued, errorProcessed, after, rfl, processed, rfl, ?_, later, moved⟩
  rw [refuses_iff]
  decide

end FairMQ.StateQueue
